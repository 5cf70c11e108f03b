import Callbook.Database.Merge
import Callbook.Database.Records
import Callbook.Idx.Encode
import Callbook.Record.Encode

/-!
# Writing a database and looking it up

Records are written one behind the other, with one IDX line for each. When their keys ascend, every
lookup returns the records of its station as they were written.
-/

namespace Callbook

open Text IdxText

namespace DatRecord

/-! ### Written files -/

/-- The decoded DAT file: a filler byte, then the records. -/
def file (filler : UInt8) (records : List DatRecord) : Bytes := filler :: records.flatMap bytes

/-- The records with their positions. -/
def placed : ℕ → List DatRecord → List (ℕ × DatRecord)
  | _, [] => []
  | pos, R :: records => (pos, R) :: placed (pos + R.bytes.length) records

/-- The IDX entry of a record: its key and its position. -/
def entry (p : ℕ × DatRecord) : TextEntry := ⟨p.2.key, p.1⟩

/-- The entries of all records, the first one behind the filler byte. -/
def entries (records : List DatRecord) : List TextEntry := (placed 1 records).map entry

/-- An archive record of the call. -/
def IsArchiveOf (c : Str) (R : DatRecord) : Prop := R.call = c ∧ R.year.isSome

instance (c : Str) : DecidablePred (IsArchiveOf c) := fun R =>
  inferInstanceAs (Decidable (R.call = c ∧ R.year.isSome))

variable {records : List DatRecord} {R R' : DatRecord}

/-! ### Positions -/

@[simp] lemma map_snd_placed (pos : ℕ) (records : List DatRecord) :
    (placed pos records).map Prod.snd = records := by
  induction records generalizing pos with
  | nil => rfl
  | cons R records ih => rw [placed, List.map_cons, ih]

lemma exists_of_mem_placed {pos : ℕ} {p : ℕ × DatRecord} (h : p ∈ placed pos records) :
    ∃ before after, records = before ++ p.2 :: after ∧
      p.1 = pos + (before.flatMap bytes).length ∧
      placed pos records =
        placed pos before ++ p :: placed (p.1 + p.2.bytes.length) after := by
  induction records generalizing pos with
  | nil => simp [placed] at h
  | cons R records ih =>
    rw [placed, List.mem_cons] at h
    rcases h with rfl | h
    · exact ⟨[], records, rfl, rfl, rfl⟩
    · obtain ⟨before, after, hrecords, hpos, hplaced⟩ := ih h
      refine ⟨R :: before, after, by rw [hrecords, List.cons_append], ?_, ?_⟩
      · rw [hpos, List.flatMap_cons, List.length_append, Nat.add_assoc]
      · rw [placed, hplaced, placed, List.cons_append]

/-- A record stands in the file at its position. -/
lemma slice_file {filler : UInt8} {p : ℕ × DatRecord} (h : p ∈ placed 1 records) :
    Framing.slice (file filler records) p.1 (p.1 + p.2.bytes.length) = p.2.bytes ∧
      p.1 + p.2.bytes.length ≤ (file filler records).length := by
  obtain ⟨before, after, rfl, hpos, -⟩ := exists_of_mem_placed h
  have hfile : file filler (before ++ p.2 :: after) =
      (filler :: before.flatMap bytes) ++ (p.2.bytes ++ after.flatMap bytes) := by
    simp [file]
  have hlen : (filler :: before.flatMap bytes).length = p.1 := by
    rw [hpos, List.length_cons, Nat.add_comm]
  rw [hfile, Framing.slice, Nat.add_sub_cancel_left, List.drop_left' hlen, List.take_left]
  refine ⟨rfl, ?_⟩
  rw [List.length_append, hlen, List.length_append]
  omega

/-! ### Keys -/

lemma key_eq_iff {c : Str} (hc : ∀ b ∈ c, isCallsignChar b) :
    R.key = c ↔ R.call = c ∧ R.year = none := by
  rw [key]
  cases hyear : R.year with
  | none => simp
  | some y =>
    simp only [Option.elim_some, reduceCtorEq, and_false, iff_false]
    rintro rfl
    have := hc 0x3a (by simp)
    revert this
    decide

lemma isPrefixOf_key_iff {c : Str} (hc : ∀ b ∈ c, isCallsignChar b) :
    (c ++ [0x3a]).isPrefixOf R.key ↔ R.IsArchiveOf c := by
  have hcolon : 0x3a ∉ c := fun hmem => by
    have := hc 0x3a hmem
    revert this
    decide
  rw [List.isPrefixOf_iff_prefix, IsArchiveOf, key]
  cases R.year with
  | none =>
    simp only [Option.elim_none, List.append_nil, Option.isSome_none, Bool.false_eq_true, and_false,
      iff_false]
    intro hstart
    exact colon_notMem_call (hstart.subset (by simp))
  | some y =>
    simp only [Option.elim_some, Option.isSome_some, and_true]
    constructor
    · rintro ⟨rest, hrest⟩
      have hsplit := congrArg (beforeSep 0x3a) hrest
      rw [List.append_assoc, List.singleton_append, beforeSep_append hcolon,
        beforeSep_append colon_notMem_call] at hsplit
      exact hsplit.symm
    · rintro rfl
      exact ⟨y, by simp⟩

lemma length_key_le : R.key.length ≤ 17 := by
  have hcall := R.call_length
  rw [key, List.length_append]
  cases hyear : R.year with
  | none => simpa using by omega
  | some y =>
    have hlen := (R.year_digits y hyear).1
    rw [Option.elim_some, List.length_cons]
    omega

/-- The years of one call ascend with the keys. -/
lemma vintage_lt_of_key_lt {c : Str} (h : R.IsArchiveOf c) (h' : R'.IsArchiveOf c)
    (hlt : R.key < R'.key) :
    ∃ year year', R.vintage = some year ∧ R'.vintage = some year' ∧ year < year' := by
  obtain ⟨y, hy⟩ := Option.isSome_iff_exists.mp h.2
  obtain ⟨y', hy'⟩ := Option.isSome_iff_exists.mp h'.2
  obtain ⟨hlen, hdigits⟩ := R.year_digits y hy
  obtain ⟨hlen', -⟩ := R'.year_digits y' hy'
  refine ⟨_, _, by rw [vintage, hy]; rfl, by rw [vintage, hy']; rfl, ?_⟩
  apply decimalValue_lt_decimalValue (hlen.trans hlen'.symm) hdigits
  rwa [key, key, h.1, h'.1, hy, hy', Option.elim_some, Option.elim_some,
    ByteOrder.append_lt_append_iff, List.cons_lt_cons_self] at hlt

/-- Entries of written records can be written. -/
lemma writable_entries {filler : UInt8} (hdat : (file filler records).length ≤ 2 ^ 64) :
    ∀ e ∈ entries records, Writable e := by
  intro e he
  obtain ⟨p, hp, rfl⟩ := List.mem_map.mp he
  obtain ⟨-, hend⟩ := @slice_file _ filler _ hp
  have hpos : 0 < p.2.bytes.length := by simp [bytes]
  refine ⟨key_ne_nil, lt_of_le_of_lt length_key_le (by decide), isPrintable_key, ?_⟩
  show p.1 ≤ 2 ^ 64 - 1
  omega

end DatRecord

/-! ### The shard of a written database -/

/-- The shard holds the records, and no sidecar. -/
structure V2Shard.Holds (shard : V2Shard) (filler : UInt8) (records : List DatRecord) : Prop where
  table : shard.idx.table = DatRecord.entries records
  dat : decodeDat shard.datMmap = DatRecord.file filler records
  ascending : records.Pairwise fun R R' => R.key < R'.key
  hci : shard.hci = none
  usCsv : shard.usCsv = none
  countries : shard.countries = none
  interests : shard.interests = none

namespace V2Shard.Holds

open DatRecord

variable {shard : V2Shard} {filler : UInt8} {records : List DatRecord}
  (h : shard.Holds filler records)

include h

lemma sorted : shard.idx.Sorted := by
  have hsorted := h.ascending
  rw [← map_snd_placed 1 records, List.pairwise_map] at hsorted
  rw [TextIdxFile.Sorted, h.table, entries, List.pairwise_map]
  exact hsorted.imp le_of_lt

/-- The next larger key is that of the next record. -/
lemma nextEntryAfterKey_eq {before after : List DatRecord} {p : ℕ × DatRecord}
    (hrecords : records = before ++ p.2 :: after)
    (hplaced : placed 1 records =
      placed 1 before ++ p :: placed (p.1 + p.2.bytes.length) after) :
    shard.idx.nextEntryAfterKey p.2.key =
      (placed (p.1 + p.2.bytes.length) after).head?.map entry := by
  have hascending := h.ascending
  rw [hrecords, List.pairwise_append, List.pairwise_cons] at hascending
  obtain ⟨-, ⟨hafter, -⟩, hbefore⟩ := hascending
  have hsmaller : (placed 1 before ++ [p]).find? (fun q => p.2.key < q.2.key) = none := by
    rw [List.find?_eq_none]
    intro q hq
    rw [List.mem_append, List.mem_singleton] at hq
    rw [decide_eq_true_eq, not_lt]
    rcases hq with hq | rfl
    · have hmem := List.mem_map_of_mem (f := Prod.snd) hq
      rw [map_snd_placed] at hmem
      exact (hbefore _ hmem _ List.mem_cons_self).le
    · exact le_rfl
  have hlarger : (placed (p.1 + p.2.bytes.length) after).find? (fun q => p.2.key < q.2.key) =
      (placed (p.1 + p.2.bytes.length) after).head? := by
    cases after with
    | nil => rfl
    | cons R after =>
      rw [placed, List.find?_cons_of_pos (by simpa using hafter R List.mem_cons_self),
        List.head?_cons]
  rw [TextIdxFile.nextEntryAfterKey_eq h.sorted, h.table, entries, List.find?_map, hplaced,
    List.append_cons]
  show Option.map entry (List.find? (fun q => decide (p.2.key < q.2.key)) _) = _
  rw [List.find?_append, hsmaller, Option.none_or, hlarger]

/-- The next key is that of the next record, so a stretch ends where its record does. -/
lemma rawRecordFor_entry {p : ℕ × DatRecord} (hp : p ∈ placed 1 records) :
    ∃ raw, shard.rawRecordFor (entry p) = some raw ∧ raw.datOffset = p.1 ∧
      raw.rawLen = p.2.bytes.length := by
  have hsize : shard.datMmap.length = (file filler records).length := by
    rw [← length_decodeDat, h.dat]
  obtain ⟨-, hend⟩ := @slice_file _ filler _ hp
  obtain ⟨before, after, hrecords, hpos, hplaced⟩ := exists_of_mem_placed hp
  have hlen : 0 < p.2.bytes.length := by simp [bytes]
  have hnext : min (((shard.idx.nextEntryAfterKey p.2.key).map TextEntry.datOffset).getD
      shard.datMmap.length) shard.datMmap.length = p.1 + p.2.bytes.length := by
    rw [h.nextEntryAfterKey_eq hrecords hplaced]
    cases after with
    | nil =>
      have hfull : (file filler records).length = p.1 + p.2.bytes.length := by
        rw [hrecords, hpos]
        simp [file]
        omega
      simp [placed, hsize, hfull]
    | cons R after =>
      simp only [placed, List.head?_cons, Option.map_some, Option.getD_some, entry]
      omega
  refine ⟨⟨p.2.key, p.1, p.2.bytes.length,
    Framing.slice shard.datMmap p.1 (p.1 + p.2.bytes.length)⟩, ?_, rfl, rfl⟩
  simp only [rawRecordFor, entry, hnext, Nat.add_sub_cancel_left]
  rw [if_neg]
  omega

/-- The entry of a record of the call leads to its snapshot. -/
lemma datIdxSnapshots_entry {c : Str} (hc : ∀ b ∈ c, isCallsignChar b) {p : ℕ × DatRecord}
    (hp : p ∈ placed 1 records) (hcall : p.2.call = c) :
    shard.datIdxSnapshots c (entry p) = .ok [p.2.snapshot] := by
  obtain ⟨raw, hraw, hstart, hlen⟩ := h.rawRecordFor_entry hp
  have hpieces : shard.pieces raw.datOffset (raw.datOffset + raw.rawLen) = [p.2.bytes] := by
    rw [pieces, hstart, hlen, stretch, h.dat, (slice_file hp).1, segments_bytes]
  have hmatches : V2Record.segmentMatches (some (entry p).key) c p.2.bytes :=
    (V2Record.segmentMatches_iff_of_keyOf (keyOf_bytes _) hc).mpr hcall
  rw [datIdxSnapshots_eq hraw, hpieces]
  simp only [h.countries, h.interests, Panic.collect, Panic.keep, hmatches, if_true,
    parseSegment_bytes]
  rfl

/-- An IDX lookup returns the current record, then the archive records in the order of the file. -/
theorem lookupDatIdx_eq {c : Str} (hc : ∀ b ∈ c, isCallsignChar b) :
    shard.lookupDatIdx c = .ok (((records.find? (·.key = c)).toList ++
      records.filter (IsArchiveOf c ·)).map snapshot) := by
  have hfound : shard.idx.findCallsignAll c =
      (((placed 1 records).find? (·.2.key = c)).toList ++
        (placed 1 records).filter (IsArchiveOf c ·.2)).map entry := by
    rw [TextIdxFile.findCallsignAll_eq h.sorted, h.table, entries, List.find?_map,
      List.filter_map, List.map_append, Option.toList_map]
    congr 2
    refine List.filter_congr fun p _ => ?_
    rw [Function.comp_apply, entry, eq_comm, Bool.eq_iff_iff, decide_eq_true_eq]
    exact (isPrefixOf_key_iff hc).symm
  have hrecords : ((placed 1 records).find? (·.2.key = c)).toList.map Prod.snd ++
      ((placed 1 records).filter (IsArchiveOf c ·.2)).map Prod.snd =
      (records.find? (·.key = c)).toList ++ records.filter (IsArchiveOf c ·) := by
    conv_rhs => rw [← map_snd_placed 1 records]
    rw [List.find?_map, List.filter_map, Option.toList_map]
    rfl
  rw [lookupDatIdx, hfound, ← hrecords, ← List.map_append, List.map_map]
  apply Panic.collectMany_map_eq_ok
  intro p hp
  rw [List.mem_append, Option.mem_toList, List.mem_filter, decide_eq_true_eq] at hp
  rcases hp with hp | ⟨hp, hcall, -⟩
  · have hkey := List.find?_some hp
    rw [decide_eq_true_eq, key_eq_iff hc] at hkey
    exact h.datIdxSnapshots_entry hc (List.mem_of_find?_eq_some hp) hkey.1
  · exact h.datIdxSnapshots_entry hc hp hcall

end V2Shard.Holds

/-! ### Merging what was written -/

/-- Snapshots with distinct vintages are added to the history as they are. -/
lemma foldl_mergeSnapshot_archives {current : Option CallSnapshot} {snapshots : List CallSnapshot}
    (hvintage : ∀ s ∈ snapshots, s.vintage ≠ none)
    (hdistinct : (snapshots.map CallSnapshot.vintage).Nodup) :
    snapshots.foldl mergeSnapshot (current, []) = (current, snapshots) := by
  have hhistory : ∀ (history : List CallSnapshot),
      snapshots.foldl mergeSnapshot (current, history) =
        (current, snapshots.foldl mergeHistory history) := by
    clear hdistinct
    induction snapshots with
    | nil => exact fun _ => rfl
    | cons s snapshots ih =>
      intro history
      rw [List.forall_mem_cons] at hvintage
      rw [List.foldl_cons, mergeSnapshot, if_neg hvintage.1]
      exact ih hvintage.2 _
  have hkeys : (([] ++ snapshots).map fun s : CallSnapshot => (s.callsign, s.vintage)).Nodup := by
    rw [List.nil_append]
    refine List.Nodup.of_map Prod.snd ?_
    rw [List.map_map]
    exact hdistinct
  have hmerge : mergeHistory =
      upsert (fun s => (s.callsign, s.vintage)) CallSnapshot.mergeMissingFrom :=
    funext₂ mergeHistory_eq_upsert
  rw [hhistory, hmerge, Upsert.foldl_upsert_eq_append hkeys, List.nil_append]

namespace DatRecord

variable {records : List DatRecord} {c : Str}

/-- The archive records of a call, in the order of the file. -/
def archives (records : List DatRecord) (c : Str) : List DatRecord :=
  records.filter (IsArchiveOf c ·)

lemma mem_archives_iff {R : DatRecord} :
    R ∈ archives records c ↔ R ∈ records ∧ R.IsArchiveOf c := by
  rw [archives, List.mem_filter, decide_eq_true_eq]

lemma vintage_ne_none_of_mem_archives :
    ∀ s ∈ (archives records c).map snapshot, s.vintage ≠ none := by
  intro s hs
  obtain ⟨R, hR, rfl⟩ := List.mem_map.mp hs
  obtain ⟨y, hy⟩ := Option.isSome_iff_exists.mp (mem_archives_iff.mp hR).2.2
  rw [shows_snapshot.vintage, vintage, hy]
  exact Option.some_ne_none _

/-- The archive records stand in the file in the order of their years. -/
lemma pairwise_vintage_archives (hascending : records.Pairwise fun R R' => R.key < R'.key) :
    ((archives records c).map snapshot).Pairwise fun s s' =>
      ∃ year year', s.vintage = some year ∧ s'.vintage = some year' ∧ year < year' := by
  rw [List.pairwise_map]
  refine (hascending.filter _).imp_of_mem fun hR hR' hlt => ?_
  rw [shows_snapshot.vintage, shows_snapshot.vintage]
  exact vintage_lt_of_key_lt (mem_archives_iff.mp hR).2 (mem_archives_iff.mp hR').2 hlt

/-- The years of the archive records. -/
lemma mem_years_archives_iff {year : ℕ} :
    year ∈ ((archives records c).map snapshot).filterMap CallSnapshot.vintage ↔
      ∃ R ∈ records, R.call = c ∧ R.vintage = some year := by
  simp only [List.filterMap_map, List.mem_filterMap, Function.comp_apply, shows_snapshot.vintage,
    mem_archives_iff]
  constructor
  · rintro ⟨R, ⟨hR, hcall, -⟩, hyear⟩
    exact ⟨R, hR, hcall, hyear⟩
  · rintro ⟨R, hR, hcall, hyear⟩
    refine ⟨R, ⟨hR, hcall, ?_⟩, hyear⟩
    obtain ⟨y, hy, -⟩ := Option.map_eq_some_iff.mp hyear
    rw [hy]
    rfl

end DatRecord

/-- A report shows the records of the station: the one with the bare callsign as current, those
with a year as history, in the order of their years. -/
structure LookupResult.RoundTrip (records : List DatRecord) (r : LookupResult) : Prop where
  current_isSome : r.current.isSome ↔ ∃ R ∈ records, R.key = r.query
  current : ∀ s ∈ r.current, ∃ R ∈ records, R.key = r.query ∧ R.Shows s
  history : List.Forall₂ DatRecord.Shows (DatRecord.archives records r.query) r.history
  vintages : ∃ years : List ℕ, r.history.map CallSnapshot.vintage = years.map some ∧
    years.Pairwise (· < ·) ∧
    ∀ year, year ∈ years ↔ ∃ R ∈ records, R.call = r.query ∧ R.vintage = some year

namespace CallBook

open DatRecord

lemma foldl_mergeSnapshot_records {records : List DatRecord} {c : Str}
    (hc : ∀ b ∈ c, isCallsignChar b) (hascending : records.Pairwise fun R R' => R.key < R'.key) :
    (((records.find? (·.key = c)).toList ++ archives records c).map snapshot).foldl mergeSnapshot
        (none, []) =
      ((records.find? (·.key = c)).map snapshot, (archives records c).map snapshot) := by
  have harchives : ((archives records c).map snapshot).foldl mergeSnapshot
      ((records.find? (·.key = c)).map snapshot, []) =
        ((records.find? (·.key = c)).map snapshot, (archives records c).map snapshot) := by
    apply foldl_mergeSnapshot_archives vintage_ne_none_of_mem_archives
    rw [List.Nodup, List.pairwise_map]
    apply (pairwise_vintage_archives hascending).imp
    rintro s s' ⟨year, year', h, h', hlt⟩ heq
    rw [h, h', Option.some.injEq] at heq
    omega
  rw [List.map_append, List.foldl_append, ← harchives]
  congr 1
  cases hfind : records.find? (·.key = c) with
  | none => rfl
  | some R =>
    have hkey := List.find?_some hfind
    rw [decide_eq_true_eq, key_eq_iff hc] at hkey
    have hvintage : R.snapshot.vintage = none := by
      rw [shows_snapshot.vintage, DatRecord.vintage, hkey.2]
      rfl
    rw [Option.toList_some, List.map_singleton, List.foldl_cons, mergeSnapshot, if_pos hvintage]
    rfl

/-- The history is in its order as it was written. -/
lemma sortBy_archives {records : List DatRecord} {c : Str}
    (hascending : records.Pairwise fun R R' => R.key < R'.key) :
    StableSort.sortBy historyOrder ((archives records c).map snapshot) =
      (archives records c).map snapshot := by
  apply StableSort.sortBy_eq_self
  apply (pairwise_vintage_archives hascending).imp
  rintro s s' ⟨year, year', h, h', hlt⟩
  have hcompare : compare (some year) (some year') = .lt := Nat.compare_eq_lt.mpr hlt
  rw [StableSort.NotGreater, historyOrder, h, h', hcompare]
  intro hgt
  cases hgt

/-- The report of a written database shows what was written. -/
lemma roundTrip_report {records : List DatRecord} {c : Str}
    (hascending : records.Pairwise fun R R' => R.key < R'.key) :
    (report c ((records.find? (·.key = c)).map snapshot,
      (archives records c).map snapshot)).RoundTrip records := by
  have hsort := @sortBy_archives _ c hascending
  refine ⟨?_, ?_, ?_, ?_⟩
  · simp [report]
  · intro s hs
    obtain ⟨R, hfind, rfl⟩ := Option.map_eq_some_iff.mp hs
    refine ⟨R, List.mem_of_find?_eq_some hfind, ?_, shows_snapshot⟩
    have hkey := List.find?_some hfind
    rwa [decide_eq_true_eq] at hkey
  · simp only [report, hsort]
    rw [List.forall₂_map_right_iff, List.forall₂_same]
    exact fun R _ => shows_snapshot
  · simp only [report, hsort]
    refine ⟨_, exists_years vintage_ne_none_of_mem_archives, ?_, fun _ => mem_years_archives_iff⟩
    rw [List.pairwise_filterMap]
    apply (pairwise_vintage_archives hascending).imp
    rintro s s' ⟨year, year', h, h', hlt⟩ y hy y' hy'
    rw [h, Option.some.injEq] at hy
    rw [h', Option.some.injEq] at hy'
    omega

/-- The data tree that is written for the records: no sidecars. -/
def writtenFiles (filler : UInt8) (gap trail : TextEntry → ℕ) (records : List DatRecord) :
    Files where
  idx := idxText gap trail (entries records)
  dat := decodeDat (file filler records)
  hci := none
  usCsv := none
  countries := none
  pcCountries := none
  interests := none

section Written

variable {filler : UInt8} {gap trail : TextEntry → ℕ} {records : List DatRecord}

/-- An opened written tree has the two files and nothing else. -/
lemma open_writtenFiles {idx : TextIdxFile}
    (h : TextIdxFile.open (idxText gap trail (entries records)) = .ok idx) :
    CallBook.open (writtenFiles filler gap trail records) =
      .ok (.ok ⟨some ⟨idx, decodeDat (file filler records), none, none, none, none, none⟩⟩) := by
  simp only [CallBook.open, writtenFiles, h]
  rfl

lemma lookupReport_of_lookupDatIdx {shard : V2Shard} (hhci : shard.hci = none)
    (husCsv : shard.usCsv = none) {callsign : Str} {key : Callsign} {snapshots : List CallSnapshot}
    (hkey : Callsign.parse callsign = .ok key)
    (hidx : shard.lookupDatIdx key.asStr = .ok snapshots) :
    lookupReport ⟨some shard⟩ callsign =
      .ok (.ok (report key.asStr (snapshots.foldl mergeSnapshot (none, [])))) := by
  have hlookup : shard.lookupHci key.asStr = .ok [] := by
    rw [V2Shard.lookupHci, V2Shard.hciPostings, hhci]
    rfl
  have hcurrent : lookupUsCurrent ⟨some shard⟩ key.asStr = none := by
    simp [lookupUsCurrent, husCsv]
  rw [lookupReport_eq_ok_iff]
  refine ⟨key, snapshots, hkey, ?_, by rw [hcurrent]; rfl⟩
  simp only [shardSnapshots, hidx, hlookup]
  exact congrArg Except.ok (List.append_nil snapshots)

/-- Looking up what was written returns it. -/
theorem roundTrip_of_writtenFiles (filler : UInt8) (gap trail : TextEntry → ℕ)
    (hne : records ≠ []) (hascending : records.Pairwise fun R R' => R.key < R'.key)
    (hidx : (idxText gap trail (entries records)).length ≤ 2 ^ 32)
    (hdat : (file filler records).length ≤ 2 ^ 64) :
    ∃ db, CallBook.open (writtenFiles filler gap trail records) = .ok (.ok db) ∧
      ∀ callsign key, Callsign.parse callsign = .ok key →
        ∃ r, db.lookupReport callsign = .ok (.ok r) ∧ r.query = key.asStr ∧
          r.RoundTrip records := by
  have hentries : entries records ≠ [] := by
    obtain ⟨R, rest, rfl⟩ := List.exists_cons_of_ne_nil hne
    simp [entries, placed]
  have hwritable := writable_entries hdat
  obtain ⟨idx, hopen, hmmap⟩ := TextIdxFile.exists_open_of_length_le hentries hwritable hidx
  refine ⟨_, open_writtenFiles hopen, fun callsign key hkey => ?_⟩
  have hholds : V2Shard.Holds ⟨idx, decodeDat (file filler records), none, none, none, none, none⟩
      filler records :=
    ⟨TextIdxFile.table_of_length_le hmmap hwritable hidx, decodeDat_decodeDat _, hascending, rfl,
      rfl, rfl, rfl⟩
  have hc := key.asStr_spec.2.2
  refine ⟨_, lookupReport_of_lookupDatIdx rfl rfl hkey (hholds.lookupDatIdx_eq hc), rfl, ?_⟩
  have hmerge := foldl_mergeSnapshot_records hc hascending
  rw [archives] at hmerge
  rw [hmerge]
  exact roundTrip_report hascending

end Written

/-- A record with one value. -/
def sampleRecord (call : Bytes) (year : Option Bytes) (tag : UInt8) (value : Bytes)
    (hcall : (call ≠ [] ∧ call.length ≤ 12) ∧ ∀ b ∈ call, isCallsignChar b)
    (hyear : ∀ y ∈ year, y.length = 4 ∧ ∀ b ∈ y, isAsciiDigit b) (htag : V2Record.isTag tag)
    (hvalue : value ≠ [] ∧ (∀ b ∈ value, isPrintable b) ∧ value.head? ≠ some 0x20 ∧
      value.getLast? ≠ some 0x20) : DatRecord where
  call := call
  year := year
  tags := [(tag, value)]
  call_ne := hcall.1.1
  call_length := hcall.1.2
  call_chars := hcall.2
  year_digits := hyear
  tags_nodup := List.nodup_singleton tag
  tags_address := by
    simp only [List.map_singleton, List.countP_singleton]
    split_ifs <;> decide
  tags_range := by simpa using htag
  values := by simpa using hvalue

/-- The current and the archive record of a station, with a portable station between them. -/
def sampleRecords : List DatRecord :=
  [sampleRecord (ascii "W1AW") none 0xb8 (ascii "Hiram") (by decide +kernel) (by decide +kernel)
      (by decide) (by decide +kernel),
    sampleRecord (ascii "W1AW/7") none 0xd3 (ascii "fax") (by decide +kernel) (by decide +kernel)
      (by decide) (by decide +kernel),
    sampleRecord (ascii "W1AW") (some (ascii "1999")) 0xbc (ascii "225 Main St")
      (by decide +kernel) (by decide +kernel) (by decide) (by decide +kernel)]

theorem roundTrip_of_writtenFiles_sampleRecords :
    ∃ db, CallBook.open (writtenFiles 0 (fun _ => 0) (fun _ => 1) sampleRecords) = .ok (.ok db) ∧
      ∀ callsign key, Callsign.parse callsign = .ok key →
        ∃ r, db.lookupReport callsign = .ok (.ok r) ∧ r.query = key.asStr ∧
          r.RoundTrip sampleRecords :=
  roundTrip_of_writtenFiles 0 _ _ (List.cons_ne_nil _ _) (by decide +kernel) (by decide +kernel)
    (by decide +kernel)

/-- Two records; the first line of the index may be made long. -/
def farPair : List DatRecord :=
  [sampleRecord (ascii "A1A") none 0xb8 (ascii "Ann") (by decide +kernel) (by decide +kernel)
      (by decide) (by decide +kernel),
    sampleRecord (ascii "W1AW") none 0xb8 (ascii "Bob") (by decide +kernel) (by decide +kernel)
      (by decide) (by decide +kernel)]

/-- The spaces on the lines of the pair: many on the first one. -/
def farGap (n : ℕ) (e : TextEntry) : ℕ := if e.datOffset = 1 then n else 0

/-- A line that starts behind 4 GiB is left out of the table. -/
lemma table_farPair {n : ℕ} (hn : 2 ^ 32 ≤ n) {idx : TextIdxFile}
    (h : idx.mmap = idxText (farGap n) (fun _ => 0) (entries farPair)) :
    idx.table = [⟨ascii "A1A", 1⟩] := by
  have hentries : entries farPair = [⟨ascii "A1A", 1⟩, ⟨ascii "W1AW", 9⟩] := by decide +kernel
  have hwritable : ∀ e ∈ entries farPair, Writable e :=
    @writable_entries _ 0 (by decide +kernel)
  rw [TextIdxFile.table_idxText h hwritable, hentries, placedLines, placedLines, placedLines,
    List.filter_cons_of_pos (by decide), List.filter_cons_of_neg, List.filter_nil]
  · rfl
  · simp only [idxLine, farGap, List.length_append, List.length_replicate, if_true,
      decide_eq_true_eq, not_lt]
    omega

/-- No record opens no database, and a record whose line starts behind 4 GiB is not found. -/
theorem not_roundTrip_farPair :
    CallBook.open (writtenFiles 0 (fun _ => 0) (fun _ => 0) []) =
      .ok (.error (.malformedHeader "IDX appears empty or malformed")) ∧
    ∃ db r, CallBook.open (writtenFiles 0 (farGap (2 ^ 32)) (fun _ => 0) farPair) = .ok (.ok db) ∧
      db.lookupReport (ascii "W1AW") = .ok (.ok r) ∧ r.query = ascii "W1AW" ∧
      (∃ R ∈ farPair, R.key = ascii "W1AW") ∧ r.current = none := by
  refine ⟨rfl, ?_⟩
  generalize hn : 2 ^ 32 = n
  have hwritable : ∀ e ∈ entries farPair, Writable e :=
    @writable_entries _ 0 (by decide +kernel)
  obtain ⟨idx, hopen, hmmap⟩ := @TextIdxFile.exists_open_of_few (farGap n) (fun _ => 0) _
    (by decide +kernel) hwritable (by decide +kernel)
  have htable := table_farPair hn.le hmmap
  have hparse : (Callsign.parse (ascii "W1AW")).toOption.any fun key =>
      key.asStr == ascii "W1AW" := by decide +kernel
  simp only [Option.any_eq_true, beq_iff_eq, Panic.toOption_eq_some_iff] at hparse
  obtain ⟨key, hkey, hcall⟩ := hparse
  have hsorted : idx.Sorted := by
    rw [TextIdxFile.Sorted, htable]
    exact List.pairwise_singleton _ _
  have hlookup : V2Shard.lookupDatIdx ⟨idx, decodeDat (file 0 farPair), none, none, none, none,
      none⟩ key.asStr = .ok [] := by
    rw [V2Shard.lookupDatIdx, TextIdxFile.findCallsignAll_eq hsorted, htable, hcall]
    rfl
  exact ⟨_, _, open_writtenFiles hopen, lookupReport_of_lookupDatIdx rfl rfl hkey hlookup, hcall,
    by decide +kernel, rfl⟩

end CallBook

end Callbook
