import Callbook.Database.Records
import Callbook.Idx.Properties

/-!
# Where the snapshots of an IDX entry come from

An entry leads to the stretch from its offset to the offset of the next key. Offsets may point
behind a record start, so the first piece of the stretch may lack its key, and the last piece may
be the first bytes of the next record.
-/

namespace Callbook

open Text

/-- The key of a record: `CALL` or `CALL:YYYY`. -/
def keyText (call : Str) : Option ℕ → Bytes
  | none => call
  | some year => call ++ 0x3a :: decimal year

namespace V2Shard

/-- A complete record has the key, byte for byte. -/
def Bears (shard : V2Shard) (key : Bytes) : Prop :=
  ∃ record, shard.IsRecord record ∧ V2Record.keyBytes (V2Record.stripSentinel record) = key

/-- Every entry's offset lies in the record that has the entry's key. -/
def OffsetsInside (shard : V2Shard) : Prop :=
  ∀ entry ∈ shard.idx.iter, ∃ record, shard.IsRecordAround entry.datOffset record ∧
    V2Record.keyBytes (V2Record.stripSentinel record) = entry.key

variable {shard : V2Shard}

section Run

variable {key : Callsign} {entry : TextEntry} {snapshots : List CallSnapshot}

/-- A snapshot of an entry has the call and the vintage in the key of a piece. -/
lemma exists_piece_of_mem_datIdxSnapshots
    (h : shard.datIdxSnapshots key.asStr entry = .ok snapshots) {s : CallSnapshot}
    (hs : s ∈ snapshots) : ∃ raw ∈ shard.rawRecordFor entry,
      ∃ piece ∈ shard.pieces raw.datOffset (raw.datOffset + raw.rawLen),
        V2Record.keyOf (some entry.key) piece = some (key.asStr, s.vintage) := by
  cases hraw : shard.rawRecordFor entry with
  | none =>
    simp only [datIdxSnapshots, hraw, Except.ok.injEq] at h
    simp [← h] at hs
  | some raw =>
    rw [datIdxSnapshots_eq hraw] at h
    obtain ⟨piece, hpiece, hmatches, hparse⟩ := (Panic.mem_of_collect_eq_ok h).mp hs
    refine ⟨raw, rfl, piece, hpiece, ?_⟩
    rw [← (V2Record.segmentMatches_iff_of_parseSegment hparse key.asStr_spec.2.2).mp hmatches]
    exact (V2Record.keyOf_of_parseSegment hparse).1

/-- A snapshot of a lookup has the vintage in the key of a piece that an entry leads to. -/
lemma exists_piece_of_mem (h : shard.lookupDatIdx key.asStr = .ok snapshots) {s : CallSnapshot}
    (hs : s ∈ snapshots) : ∃ entry ∈ shard.idx.findCallsignAll key.asStr,
      ∃ raw ∈ shard.rawRecordFor entry,
        ∃ piece ∈ shard.pieces raw.datOffset (raw.datOffset + raw.rawLen),
          V2Record.keyOf (some entry.key) piece = some (key.asStr, s.vintage) := by
  obtain ⟨entry, hentry, found, hfound, hmem⟩ := (Panic.mem_of_collectMany_eq_ok h).mp hs
  exact ⟨entry, hentry, exists_piece_of_mem_datIdxSnapshots hfound hmem⟩

end Run

/-! ### Provenance -/

/-- The pieces of a stretch that read, under an entry's key, as a key of the call keep the key they
have in the file. -/
structure KeysKept (shard : V2Shard) (call : Str) (entryKey : Bytes) (start stop : ℕ) : Prop where
  /-- The tail of the record that the stretch starts in reads as the entry's key only. -/
  head : ∀ read ∈ V2Record.keyOf (some entryKey) (shard.headPiece start stop),
    read.1 = call → keyText call read.2 = entryKey
  /-- The first bytes of the record that the stretch ends in hold its whole key. -/
  cut : shard.EndsInside stop → ∀ piece ∈ (shard.pieces start stop).getLast?,
    ∀ read ∈ V2Record.keyOf (some entryKey) piece, read.1 = call →
      ∃ b ∈ V2Record.stripSentinel piece, V2Record.isTag b
  /-- What opens as a record is read with the key that it has, byte for byte. -/
  record : ∀ piece ∈ shard.pieces start stop, (∀ b ∈ piece.head?, isSentinel b) →
    ∀ read ∈ V2Record.keyOf (some entryKey) piece, read.1 = call →
      V2Record.keyBytes (V2Record.stripSentinel piece) = keyText call read.2

/-- The front of a record that reaches behind its first tag has the key of the record. -/
lemma keyBytes_eq_of_front {piece record : Bytes} (h : piece <+: record)
    (htag : ∃ b ∈ V2Record.stripSentinel piece, V2Record.isTag b) :
    V2Record.keyBytes (V2Record.stripSentinel record) =
      V2Record.keyBytes (V2Record.stripSentinel piece) := by
  obtain ⟨rest, rfl⟩ := h
  have hne : piece ≠ [] := by
    rintro rfl
    obtain ⟨b, hb, -⟩ := htag
    cases hb
  have hstrip : V2Record.stripSentinel (piece ++ rest) = V2Record.stripSentinel piece ++ rest := by
    obtain ⟨b, t, rfl⟩ := List.exists_cons_of_ne_nil hne
    by_cases hsentinel : isSentinel b <;> simp [V2Record.stripSentinel, hsentinel]
  obtain ⟨b, hb, hbtag⟩ := htag
  obtain ⟨front, back, hfront, hsplit, hclean⟩ : ∃ front back,
      V2Record.stripSentinel piece = front ++ back ∧ (∀ a ∈ back.head?, V2Record.isTag a) ∧
        ∀ a ∈ front, V2Record.isTag a = false :=
    ⟨_, _, (List.takeWhile_append_dropWhile (p := (!V2Record.isTag ·))).symm,
      Framing.head?_dropWhile_not, fun a ha => by simpa using List.mem_takeWhile_imp ha⟩
  have hback : back ≠ [] := by
    rintro rfl
    rw [hfront, List.append_nil] at hb
    simp [hclean b hb] at hbtag
  rw [hstrip, V2Record.keyBytes_eq, V2Record.keyBytes_eq, hfront, List.append_assoc,
    (Framing.takeWhile_append_eq hclean hsplit).1,
    (Framing.takeWhile_append_eq hclean (by rwa [List.head?_append_of_ne_nil _ hback])).1]

/-- A piece that keeps its key leads to a record that has it. -/
lemma KeysKept.bears {call : Str} {entryKey : Bytes} {start stop : ℕ} (hle : start ≤ stop)
    (h : shard.KeysKept call entryKey start stop) (hentry : shard.Bears entryKey) {piece : Bytes}
    (hpiece : piece ∈ shard.pieces start stop) {vintage : Option ℕ}
    (hread : V2Record.keyOf (some entryKey) piece = some (call, vintage)) :
    shard.Bears (keyText call vintage) := by
  obtain ⟨i, hi⟩ := @Framing.exists_mem_located _ start _ _ hpiece
  rcases recordAt_or_cut hle hi with hrecord | rfl | ⟨hends, hlast⟩
  · exact ⟨piece, hrecord.isRecord, h.record piece hpiece hrecord.opened _ hread rfl⟩
  · rw [h.head _ hread rfl]
    exact hentry
  · rcases Framing.head?_eq_or_opened hpiece with hopen | ⟨hhead, -⟩
    · obtain ⟨record, hrecord, hfront⟩ := exists_isRecord_of_opened hle hpiece hopen
      refine ⟨record, hrecord, ?_⟩
      rw [keyBytes_eq_of_front hfront (h.cut hends piece hlast _ hread rfl)]
      exact h.record piece hpiece hopen _ hread rfl
    · rw [hhead, ← headPiece] at hread
      rw [h.head _ hread rfl]
      exact hentry

/-- Where the pieces that the found entries lead to keep their keys, each snapshot of a lookup has a
record with its key. -/
theorem bears_of_keysKept {key : Callsign} {snapshots : List CallSnapshot}
    (hinside : shard.OffsetsInside) (h : shard.lookupDatIdx key.asStr = .ok snapshots)
    (hkept : ∀ entry ∈ shard.idx.findCallsignAll key.asStr, ∀ raw ∈ shard.rawRecordFor entry,
      shard.KeysKept key.asStr entry.key raw.datOffset (raw.datOffset + raw.rawLen)) :
    ∀ s ∈ snapshots, shard.Bears (keyText key.asStr s.vintage) := by
  intro s hs
  obtain ⟨entry, hentry, raw, hraw, piece, hpiece, hread⟩ := exists_piece_of_mem h hs
  obtain ⟨record, haround, hkey⟩ :=
    hinside entry (shard.idx.mem_iter_of_mem_findCallsignAll hentry)
  exact (hkept entry hentry raw hraw).bears (by omega)
    ⟨record, isRecord_of_isRecordAround haround, hkey⟩ hpiece hread

/-! ### Sample shards -/

/-- The offsets of a shard lie in the records of their keys, as far as the bounds show. -/
lemma offsetsInside_of_bounds (h : ∀ entry ∈ shard.idx.iter,
    (recordBoundsForHciPosting shard.datMmap entry.datOffset).any fun bounds =>
      V2Record.keyBytes (V2Record.stripSentinel (Framing.slice
        (decodeDat shard.datMmap) bounds.start bounds.end)) == entry.key) :
    shard.OffsetsInside := by
  intro entry hentry
  have hbounds := h entry hentry
  simp only [Option.any_eq_true, beq_iff_eq] at hbounds
  obtain ⟨bounds, hfound, hkey⟩ := hbounds
  obtain ⟨hframe, hstart, hend⟩ := isFrame_of_recordBoundsForHciPosting hfound
  exact ⟨_, ⟨_, _, hframe, hstart, hend, rfl⟩, hkey⟩

/-- A current and an archive record of one station; the second entry points behind the sentinel. -/
def keyOffsets : V2Shard where
  idx := ⟨ascii "W1AW 0\r\nW1AW:2000 10\r\n", [⟨0, 4, 0, 0⟩, ⟨8, 9, 8, 10⟩], [0], 2, 256,
    by decide +kernel⟩
  datMmap := decodeDat ((0xb5 :: ascii "W1AW" ++ 0xb8 :: ascii "Bob") ++
    (0xb5 :: ascii "W1AW:2000" ++ 0xb8 :: ascii "Ann"))
  hci := none
  usCsv := none
  countries := none
  pcCountries := none
  interests := none

theorem bears_of_keysKept_keyOffsets : ∃ (key : Callsign) (snapshots : List CallSnapshot),
    Callsign.parse (ascii "W1AW") = .ok key ∧ keyOffsets.lookupDatIdx key.asStr = .ok snapshots ∧
      (∃ s ∈ snapshots, s.vintage = none) ∧ (∃ s ∈ snapshots, s.vintage = some 2000) ∧
      ∀ s ∈ snapshots, keyOffsets.Bears (keyText key.asStr s.vintage) := by
  have hrun : (Callsign.parse (ascii "W1AW")).toOption.any fun key =>
      key.asStr == ascii "W1AW" &&
      (keyOffsets.lookupDatIdx key.asStr).toOption.any fun found =>
        (found.any fun s => s.vintage == none) && found.any fun s => s.vintage == some 2000 := by
    decide +kernel
  simp only [Option.any_eq_true, List.any_eq_true, Bool.and_eq_true, beq_iff_eq,
    Panic.toOption_eq_some_iff] at hrun
  obtain ⟨key, hkey, hcall, snapshots, hfound, hcurrent, harchive⟩ := hrun
  refine ⟨key, snapshots, hkey, hfound, hcurrent, harchive, bears_of_keysKept
    (offsetsInside_of_bounds (by decide +kernel)) hfound fun entry hentry raw hraw => ?_⟩
  rw [hcall] at hentry ⊢
  have hall : ∀ entry ∈ keyOffsets.idx.findCallsignAll (ascii "W1AW"),
      ∀ raw ∈ keyOffsets.rawRecordFor entry,
        (∀ read ∈ V2Record.keyOf (some entry.key)
            (keyOffsets.headPiece raw.datOffset (raw.datOffset + raw.rawLen)),
          read.1 = ascii "W1AW" → keyText (ascii "W1AW") read.2 = entry.key) ∧
        (∀ piece ∈ (keyOffsets.pieces raw.datOffset (raw.datOffset + raw.rawLen)).getLast?,
          ∀ read ∈ V2Record.keyOf (some entry.key) piece, read.1 = ascii "W1AW" →
            ∃ b ∈ V2Record.stripSentinel piece, V2Record.isTag b) ∧
        ∀ piece ∈ keyOffsets.pieces raw.datOffset (raw.datOffset + raw.rawLen),
          (∀ b ∈ piece.head?, isSentinel b) → ∀ read ∈ V2Record.keyOf (some entry.key) piece,
            read.1 = ascii "W1AW" →
              V2Record.keyBytes (V2Record.stripSentinel piece) =
                keyText (ascii "W1AW") read.2 := by
    decide +kernel
  obtain ⟨hhead, hcut, hrecord⟩ := hall entry hentry raw hraw
  exact ⟨hhead, fun _ => hcut, hrecord⟩

/-- Two archive records of one station; both entries point behind the callsign. -/
def suffixOffsets : V2Shard where
  idx := ⟨ascii "W1AW:2000 5\r\nW1AW:2005 19\r\n", [⟨0, 9, 0, 5⟩, ⟨13, 9, 13, 19⟩], [0], 2, 256,
    by decide +kernel⟩
  datMmap := decodeDat ((0xb5 :: ascii "W1AW:2000" ++ 0xb8 :: ascii "Bob") ++
    (0xb5 :: ascii "W1AW:2005" ++ 0xb8 :: ascii "Ann"))
  hci := none
  usCsv := none
  countries := none
  pcCountries := none
  interests := none

/-- The first slice ends behind the callsign of the second record, which then reads as a current
record; there is none. -/
theorem not_bears_suffixOffsets : (IdxText.verify suffixOffsets.idx).isClean ∧
    suffixOffsets.OffsetsInside ∧ ∃ (key : Callsign) (snapshots : List CallSnapshot),
      Callsign.parse (ascii "W1AW") = .ok key ∧
      suffixOffsets.lookupDatIdx key.asStr = .ok snapshots ∧
      ∃ s ∈ snapshots, s.vintage = none ∧
        ¬ suffixOffsets.Bears (keyText key.asStr s.vintage) := by
  refine ⟨by decide +kernel, offsetsInside_of_bounds (by decide +kernel), ?_⟩
  · have hrun : (Callsign.parse (ascii "W1AW")).toOption.any fun key =>
        key.asStr == ascii "W1AW" &&
        (suffixOffsets.lookupDatIdx key.asStr).toOption.any fun found =>
          found.any fun s => s.vintage == none := by decide +kernel
    have hrecords : ∀ record ∈ Framing.segments isSentinel (decodeDat suffixOffsets.datMmap),
        V2Record.keyBytes (V2Record.stripSentinel record) ≠ ascii "W1AW" := by decide +kernel
    simp only [Option.any_eq_true, List.any_eq_true, Bool.and_eq_true, beq_iff_eq,
      Panic.toOption_eq_some_iff] at hrun
    obtain ⟨key, hkey, hcall, snapshots, hfound, s, hs, hnone⟩ := hrun
    refine ⟨key, snapshots, hkey, hfound, s, hs, hnone, ?_⟩
    rw [hnone, keyText, hcall]
    rintro ⟨record, hrecord, hbytes⟩
    exact hrecords record (isRecord_iff.mp hrecord).1 hbytes

end V2Shard

end Callbook
