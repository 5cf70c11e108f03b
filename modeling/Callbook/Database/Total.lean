import Callbook.Database.HciProvenance
import Callbook.Database.Merge
import Callbook.Record.Prefilter

/-!
# When a lookup returns

The only step of a lookup that may panic is the country table. It is asked for the callsign that is
looked up, and for no other: the prefilter keeps the records of other stations away from it. So a
lookup returns exactly when the table panics on no piece of the callsign that is read.
-/

namespace Callbook

open Text

/-- The key of a piece names the callsign. -/
def V2Record.names (callsign : Str) (piece : Bytes) : Bool :=
  (V2Record.keyOf none piece).any fun parts => parts.1 = callsign

namespace V2Shard

variable (shard : V2Shard)

/-- Matching the callsign against the country table finishes. -/
def Locates (callsign : Str) : Prop :=
  ∀ table ∈ shard.countries, ∃ country, table.lookup callsign = .ok country

/-- The pieces of the windows of a posting, window by window. -/
def windowReadings (datOffset : ℕ) (windows : List ℕ) : List (List Bytes) :=
  (windows.map fun maxLen => shard.closedPieces datOffset (datOffset + maxLen)) ++
    [shard.pieces datOffset (datOffset + 8192)]

/-- The pieces that a posting is read in, the record around its offset first. -/
def readings (datOffset : ℕ) : List (List Bytes) :=
  (shard.piecesAround datOffset).map Prod.snd :: shard.windowReadings datOffset [1024, 2048, 4096]

/-- The country table panics on no piece of the first reading that has one of the callsign. -/
def LocatesFirst (callsign : Str) (readings : List (List Bytes)) : Prop :=
  ∀ reading ∈ readings.find? (List.any · (V2Record.names callsign)), ∀ piece ∈ reading,
    ¬ V2Record.PanicsOn none .hamCallHci shard.countries piece callsign

/-- The country table panics on none of the pieces that a lookup of the callsign parses. -/
structure LocatesRead (callsign : Str) : Prop where
  idx : ∀ entry ∈ shard.idx.findCallsignAll callsign, ∀ raw ∈ shard.rawRecordFor entry,
    ∀ piece ∈ shard.pieces raw.datOffset (raw.datOffset + raw.rawLen),
      ¬ V2Record.PanicsOn (some entry.key) .hamCallDatIdx shard.countries piece callsign
  hci : ∀ posting ∈ shard.hciPostings callsign,
    shard.LocatesFirst callsign (shard.readings posting.datOffset)

variable {shard}

/-- A callsign that can be located is located wherever it is read. -/
lemma Locates.locatesRead {callsign : Str} (h : shard.Locates callsign) :
    shard.LocatesRead callsign := by
  have hnot : ∀ defaultKey source piece,
      ¬ V2Record.PanicsOn defaultKey source shard.countries piece callsign := by
    rintro defaultKey source piece ⟨-, table, htable, e, hpanic⟩
    obtain ⟨country, hcountry⟩ := h table htable
    rw [hpanic] at hcountry
    cases hcountry
  exact ⟨fun _ _ _ _ _ _ => hnot _ _ _, fun _ _ _ _ _ _ => hnot _ _ _⟩

section Total

variable {key : Callsign}

/-! ### The IDX path -/

lemma exists_datIdxSnapshots_eq_ok_iff {entry : TextEntry} :
    (∃ snapshots, shard.datIdxSnapshots key.asStr entry = .ok snapshots) ↔
      ∀ raw ∈ shard.rawRecordFor entry,
        ∀ piece ∈ shard.pieces raw.datOffset (raw.datOffset + raw.rawLen),
          ¬ V2Record.PanicsOn (some entry.key) .hamCallDatIdx shard.countries piece key.asStr := by
  cases hraw : shard.rawRecordFor entry with
  | none => simp [datIdxSnapshots, hraw]
  | some raw =>
    simp only [datIdxSnapshots_eq hraw, Option.mem_some_iff, forall_eq']
    exact V2Record.exists_collect_segmentMatches_eq_ok_iff _ _ _ _ key _

lemma exists_lookupDatIdx_eq_ok_iff :
    (∃ snapshots, shard.lookupDatIdx key.asStr = .ok snapshots) ↔
      ∀ entry ∈ shard.idx.findCallsignAll key.asStr, ∀ raw ∈ shard.rawRecordFor entry,
        ∀ piece ∈ shard.pieces raw.datOffset (raw.datOffset + raw.rawLen),
          ¬ V2Record.PanicsOn (some entry.key) .hamCallDatIdx shard.countries piece key.asStr := by
  simp only [← exists_datIdxSnapshots_eq_ok_iff]
  constructor
  · rintro ⟨snapshots, h⟩
    exact Panic.exists_of_collectMany_eq_ok h
  · exact Panic.exists_collectMany_eq_ok

/-! ### The HCI path -/

lemma names_iff {callsign : Str} {piece : Bytes} : V2Record.names callsign piece ↔
    ∃ vintage, V2Record.keyOf none piece = some (callsign, vintage) := by
  rw [V2Record.names, Option.any_eq_true]
  constructor
  · rintro ⟨⟨call, vintage⟩, hkey, hcall⟩
    obtain rfl := of_decide_eq_true hcall
    exact ⟨vintage, hkey⟩
  · rintro ⟨vintage, hkey⟩
    exact ⟨_, hkey, decide_eq_true rfl⟩

lemma exists_originsIn_eq_ok_iff {pieces : List (ℕ × Bytes)} :
    (∃ found, shard.originsIn key.asStr pieces = .ok found) ↔
      ∀ piece ∈ pieces.map Prod.snd,
        ¬ V2Record.PanicsOn none .hamCallHci shard.countries piece key.asStr := by
  have hmap := @map_originsIn shard key.asStr pieces
  rw [← V2Record.exists_collect_segmentMatches_eq_ok_iff _ _ _ shard.interests key]
  constructor
  · rintro ⟨found, h⟩
    rw [h] at hmap
    exact ⟨_, hmap.symm⟩
  · rintro ⟨snapshots, h⟩
    obtain ⟨found, hfound, -⟩ := Panic.map_eq_ok_iff.mp (hmap.trans h)
    exact ⟨found, hfound⟩

/-- A piece that names the callsign is read as it, unless the country table panics. -/
lemma exists_readsAs {piece : Bytes} (hnames : V2Record.names key.asStr piece)
    (hpanics : ¬ V2Record.PanicsOn none .hamCallHci shard.countries piece key.asStr) :
    ∃ s, shard.ReadsAs key.asStr piece s := by
  obtain ⟨vintage, hkey⟩ := names_iff.mp hnames
  have hreturns : ∃ parsed, shard.readHci piece = .ok parsed := by
    refine V2Record.exists_parseSegment_eq_ok_iff.mpr fun call hcall => ?_
    obtain ⟨vintage', hkey', -⟩ := hcall.1
    rw [hkey] at hkey'
    cases hkey'
    exact hpanics hcall
  obtain ⟨parsed, hparsed⟩ := hreturns
  obtain ⟨s, rfl, hcall, -⟩ := V2Record.exists_of_parseSegment hkey hparsed
  exact ⟨s, hparsed, hcall⟩

/-- A reading answers when it has a piece of the callsign. -/
lemma originsIn_eq_nil_iff {pieces : List (ℕ × Bytes)} {found : List Origin}
    (h : shard.originsIn key.asStr pieces = .ok found) :
    found = [] ↔ (pieces.map Prod.snd).any (V2Record.names key.asStr) = false := by
  rw [List.any_eq_false]
  constructor
  · rintro rfl piece hpiece hnames
    obtain ⟨s, hreads⟩ := exists_readsAs hnames
      (exists_originsIn_eq_ok_iff.mp ⟨_, h⟩ piece hpiece)
    obtain ⟨⟨i, piece⟩, hmem, rfl⟩ := List.mem_map.mp hpiece
    have ho := (mem_originsIn h (o := ⟨i, piece, s⟩)).mpr ⟨hmem, hreads⟩
    cases ho
  · intro hnone
    refine List.eq_nil_iff_forall_not_mem.mpr fun o ho => ?_
    obtain ⟨hmem, hparse, hcall⟩ := (mem_originsIn h).mp ho
    have hkey := (V2Record.keyOf_of_parseSegment hparse).1
    exact hnone _ (List.mem_map_of_mem hmem) (names_iff.mpr ⟨_, hcall ▸ hkey⟩)

/-- Pieces that do not name the callsign are passed over. -/
lemma not_panicsOn_of_names_eq_false {pieces : List Bytes}
    (h : pieces.any (V2Record.names key.asStr) = false) :
    ∀ piece ∈ pieces,
      ¬ V2Record.PanicsOn none .hamCallHci shard.countries piece key.asStr := by
  rintro piece hpiece ⟨⟨vintage, hkey, -⟩, -⟩
  exact List.any_eq_false.mp h piece hpiece (names_iff.mpr ⟨vintage, hkey⟩)

/-- One reading, and the others when it does not answer. -/
lemma exists_bind_isEmpty_eq_ok_iff {pieces : List (ℕ × Bytes)}
    {next : Except Panic (List Origin)} {others : List (List Bytes)}
    (hnext : (∃ found, next = .ok found) ↔ shard.LocatesFirst key.asStr others) :
    (∃ found, (do
      let found ← shard.originsIn key.asStr pieces
      if found.isEmpty then next else pure found) = .ok found) ↔
      shard.LocatesFirst key.asStr (pieces.map Prod.snd :: others) := by
  cases hnames : (pieces.map Prod.snd).any (V2Record.names key.asStr) with
  | false =>
    obtain ⟨found, hfound⟩ := exists_originsIn_eq_ok_iff.mpr
      (not_panicsOn_of_names_eq_false hnames)
    obtain rfl := (originsIn_eq_nil_iff hfound).mpr hnames
    rw [LocatesFirst, List.find?_cons_of_neg (by simp [hnames]), ← LocatesFirst, ← hnext, hfound]
    rfl
  | true =>
    rw [LocatesFirst, List.find?_cons_of_pos (by exact hnames)]
    simp only [Option.mem_some_iff, forall_eq', ← exists_originsIn_eq_ok_iff,
      Panic.bind_eq_ok_iff]
    constructor
    · rintro ⟨-, found, hfound, -⟩
      exact ⟨found, hfound⟩
    · rintro ⟨found, hfound⟩
      have hne : found ≠ [] := fun hnil => by
        rw [(originsIn_eq_nil_iff hfound).mp hnil] at hnames
        cases hnames
      exact ⟨found, found, hfound, if_neg (by simpa using hne)⟩

lemma exists_windowOrigins_eq_ok_iff {datOffset : ℕ} (windows : List ℕ) :
    (∃ found, shard.windowOrigins datOffset key.asStr windows = .ok found) ↔
      shard.LocatesFirst key.asStr (shard.windowReadings datOffset windows) := by
  induction windows with
  | nil =>
    rw [windowOrigins, exists_originsIn_eq_ok_iff, Framing.map_snd_located]
    cases hnames : (shard.pieces datOffset (datOffset + 8192)).any (V2Record.names key.asStr) with
    | false =>
      simpa [LocatesFirst, windowReadings, hnames] using not_panicsOn_of_names_eq_false hnames
    | true => simp [LocatesFirst, windowReadings, hnames]
  | cons maxLen rest ih =>
    have hstep := @exists_bind_isEmpty_eq_ok_iff shard key (Framing.located datOffset
      (shard.closedPieces datOffset (datOffset + maxLen))) _ _ ih
    rwa [Framing.map_snd_located] at hstep

/-- A posting is read without a panic exactly when the first reading that has a piece of the
callsign is. -/
lemma exists_hciSnapshotsAt_eq_ok_iff {datOffset : ℕ} :
    (∃ snapshots, shard.hciSnapshotsAt key.asStr datOffset = .ok snapshots) ↔
      shard.LocatesFirst key.asStr (shard.readings datOffset) := by
  rw [readings, ← exists_bind_isEmpty_eq_ok_iff (exists_windowOrigins_eq_ok_iff _), hciSnapshotsAt,
    ← map_postingOrigins]
  simp only [Panic.map_eq_ok_iff]
  constructor
  · rintro ⟨-, found, hfound, -⟩
    exact ⟨found, hfound⟩
  · rintro ⟨found, hfound⟩
    exact ⟨_, found, hfound, rfl⟩

lemma exists_lookupHci_eq_ok_iff : (∃ snapshots, shard.lookupHci key.asStr = .ok snapshots) ↔
    ∀ posting ∈ shard.hciPostings key.asStr,
      ∃ found, shard.hciSnapshotsAt key.asStr posting.datOffset = .ok found := by
  constructor
  · rintro ⟨snapshots, h⟩ posting hposting
    exact exists_hciSnapshotsAt_of_lookupHci h hposting
  · intro h
    obtain ⟨after, hafter⟩ := Panic.exists_foldlM_eq_ok (f := shard.collectPosting key.asStr)
      (l := shard.hciPostings key.asStr) (fun lists posting hposting => by
        rw [collectPosting]
        split_ifs
        · exact ⟨lists, rfl⟩
        · obtain ⟨snapshots, hsnapshots⟩ := h posting hposting
          rw [hsnapshots]
          exact ⟨_, rfl⟩) (∅, [])
    exact ⟨after.2, by rw [lookupHci, hafter]; rfl⟩

end Total

end V2Shard

namespace CallBook

/-- A lookup of a callsign returns a report exactly when the country table panics on no piece of the
callsign that it reads. -/
theorem exists_lookupReport_eq_ok_iff {db : CallBook} {callsign : Str} {key : Callsign}
    (hkey : Callsign.parse callsign = .ok key) :
    (∃ r, db.lookupReport callsign = .ok (.ok r)) ↔
      ∀ shard ∈ db.v2, shard.LocatesRead key.asStr := by
  have hreport : (∃ r, db.lookupReport callsign = .ok (.ok r)) ↔
      ∃ snapshots, db.shardSnapshots key.asStr = .ok snapshots := by
    constructor
    · rintro ⟨r, h⟩
      obtain ⟨key', snapshots, hkey', hsnapshots, -⟩ := lookupReport_eq_ok_iff.mp h
      obtain rfl : key' = key := Except.ok.inj (hkey'.symm.trans hkey)
      exact ⟨snapshots, hsnapshots⟩
    · rintro ⟨snapshots, h⟩
      exact ⟨_, lookupReport_eq_ok_iff.mpr ⟨key, snapshots, hkey, h, rfl⟩⟩
  rw [hreport, shardSnapshots]
  cases db.v2 with
  | none => simp
  | some shard =>
    simp only [Option.mem_some_iff, forall_eq', Panic.bind_eq_ok_iff]
    constructor
    · rintro ⟨-, fromIdx, hidx, fromHci, hhci, -⟩
      refine ⟨V2Shard.exists_lookupDatIdx_eq_ok_iff.mp ⟨_, hidx⟩, fun posting hposting => ?_⟩
      exact V2Shard.exists_hciSnapshotsAt_eq_ok_iff.mp
        (V2Shard.exists_lookupHci_eq_ok_iff.mp ⟨_, hhci⟩ posting hposting)
    · intro h
      obtain ⟨fromIdx, hidx⟩ := V2Shard.exists_lookupDatIdx_eq_ok_iff.mpr h.idx
      obtain ⟨fromHci, hhci⟩ := V2Shard.exists_lookupHci_eq_ok_iff.mpr fun posting hposting =>
        V2Shard.exists_hciSnapshotsAt_eq_ok_iff.mpr (h.hci posting hposting)
      exact ⟨_, fromIdx, hidx, fromHci, hhci, rfl⟩

end CallBook

end Callbook
