import Callbook.Database.Properties
import Callbook.Record.Properties

/-!
# Records and pieces of the DAT file

The decoded DAT file is a run of records. A stretch of it is cut into pieces in front of every
record start: the piece before the first record start may be the tail of a record, and the last one
may be a record that was cut off. All others are complete records.
-/

namespace Callbook

open Text

namespace V2Shard

variable (shard : V2Shard)

/-- A complete record of the DAT file. -/
def IsRecord (record : Bytes) : Prop :=
  ∃ start «end», Framing.IsFrame isSentinel (decodeDat shard.datMmap) start «end» ∧
    record = Framing.slice (decodeDat shard.datMmap) start «end»

/-- A complete record of the DAT file, at its position. -/
def RecordAt (start : ℕ) (record : Bytes) : Prop :=
  Framing.IsFrame isSentinel (decodeDat shard.datMmap) start (start + record.length) ∧
    record = Framing.slice (decodeDat shard.datMmap) start (start + record.length)

/-- The complete record around an offset. -/
def IsRecordAround (datOffset : ℕ) (record : Bytes) : Prop :=
  ∃ start «end», Framing.IsFrame isSentinel (decodeDat shard.datMmap) start «end» ∧
    start ≤ datOffset ∧ datOffset < «end» ∧
    record = Framing.slice (decodeDat shard.datMmap) start «end»

/-- The decoded bytes from `start` up to `stop`. -/
def stretch (start stop : ℕ) : Bytes := Framing.slice (decodeDat shard.datMmap) start stop

/-- The pieces of a stretch. -/
def pieces (start stop : ℕ) : List Bytes := Framing.segments isSentinel (shard.stretch start stop)

/-- The pieces of a stretch that a later record closes. -/
def closedPieces (start stop : ℕ) : List Bytes :=
  Framing.closedSegments isSentinel (shard.stretch start stop)

/-- What stands in a stretch before its first record; nothing when it starts with one. -/
def headPiece (start stop : ℕ) : Bytes := (shard.stretch start stop).takeWhile (!isSentinel ·)

/-- The stretch ends inside a record. -/
def EndsInside (stop : ℕ) : Prop :=
  stop < shard.datMmap.length ∧ opensRecord shard.datMmap stop = false

variable {shard}

/-! ### Records -/

lemma isRecord_iff {record : Bytes} : shard.IsRecord record ↔
    record ∈ Framing.segments isSentinel (decodeDat shard.datMmap) ∧
      ∀ b ∈ record.head?, isSentinel b :=
  (Framing.hasFrame_iff_isFrame _).symm.trans (Framing.hasFrame_iff_mem_segments _)

lemma isRecord_of_isRecordAround {datOffset : ℕ} {record : Bytes}
    (h : shard.IsRecordAround datOffset record) : shard.IsRecord record := by
  obtain ⟨start, e, hframe, -, -, hrecord⟩ := h
  exact ⟨start, e, hframe, hrecord⟩

lemma RecordAt.isRecord {start : ℕ} {record : Bytes} (h : shard.RecordAt start record) :
    shard.IsRecord record := ⟨start, _, h.1, h.2⟩

/-- A record opens with its sentinel. -/
lemma RecordAt.opened {start : ℕ} {record : Bytes} (h : shard.RecordAt start record) :
    ∀ b ∈ record.head?, isSentinel b := (isRecord_iff.mp h.isRecord).2

/-- The byte behind a record opens the next one. -/
lemma RecordAt.closed {start : ℕ} {record : Bytes} (h : shard.RecordAt start record) :
    ¬ shard.EndsInside (start + record.length) := by
  rintro ⟨hlt, hopen⟩
  rw [← length_decodeDat shard.datMmap] at hlt
  have hclean := opensRecord_eq_false_iff.mp hopen _ (List.getElem?_eq_getElem hlt)
  rw [h.1.closed _ (List.getElem?_eq_getElem hlt)] at hclean
  cases hclean

lemma recordAt_append {before after t : Bytes} {b : UInt8}
    (h : decodeDat shard.datMmap = before ++ (b :: t) ++ after) (hb : isSentinel b)
    (ht : ∀ b ∈ t, isSentinel b = false) (hafter : ∀ b ∈ after.head?, isSentinel b) :
    shard.RecordAt before.length (b :: t) := by
  rw [RecordAt, h]
  exact ⟨Framing.isFrame_append hb ht hafter, (Framing.slice_append _ _ _).symm⟩

lemma isRecordAround_unique {datOffset : ℕ} {record record' : Bytes}
    (h : shard.IsRecordAround datOffset record) (h' : shard.IsRecordAround datOffset record') :
    record = record' := by
  obtain ⟨start, e, hframe, hstart, hend, rfl⟩ := h
  obtain ⟨start', e', hframe', hstart', hend', rfl⟩ := h'
  obtain ⟨rfl, rfl⟩ := hframe.unique hframe' hstart hend hstart' hend'
  rfl

/-- A record is one piece. -/
lemma segments_of_isRecord {record : Bytes} (h : shard.IsRecord record) :
    Framing.segments isSentinel record = [record] := by
  obtain ⟨hmem, -⟩ := isRecord_iff.mp h
  obtain ⟨b, t, rfl, ht⟩ := Framing.exists_cons_of_mem_segments _ hmem
  exact Framing.segments_singleton _ b ht

/-! ### Pieces -/

/-- The bytes in front of a stretch, the stretch, and the bytes behind it. -/
lemma around_stretch {start stop : ℕ} (h : start ≤ stop) :
    (decodeDat shard.datMmap).take start ++ shard.stretch start stop ++
      (decodeDat shard.datMmap).drop stop = decodeDat shard.datMmap := by
  obtain ⟨len, rfl⟩ := Nat.exists_eq_add_of_le h
  rw [stretch, Framing.slice, Nat.add_sub_cancel_left, List.append_assoc,
    ← List.drop_drop, List.take_append_drop, List.take_append_drop]

variable (shard) in
lemma exists_stretch_eq_append (start : ℕ) {stop stop' : ℕ} (h : stop ≤ stop') :
    ∃ rest, shard.stretch start stop' = shard.stretch start stop ++ rest := by
  refine ⟨(shard.stretch start stop').drop (stop - start), ?_⟩
  have htake : shard.stretch start stop = (shard.stretch start stop').take (stop - start) := by
    rw [stretch, stretch, Framing.slice, Framing.slice, List.take_take, min_eq_left (by omega)]
  rw [htake, List.take_append_drop]

lemma closedPieces_prefix_of_le {start stop stop' : ℕ} (h : stop ≤ stop') :
    shard.closedPieces start stop <+: shard.closedPieces start stop' := by
  obtain ⟨rest, hrest⟩ := shard.exists_stretch_eq_append start h
  rw [closedPieces, closedPieces, hrest]
  exact Framing.closedSegments_prefix_append _ _

lemma closedPieces_prefix_pieces {start stop stop' : ℕ} (h : stop ≤ stop') :
    shard.closedPieces start stop <+: shard.pieces start stop' := by
  obtain ⟨rest, hrest⟩ := shard.exists_stretch_eq_append start h
  rw [closedPieces, pieces, hrest]
  exact Framing.closedSegments_prefix_segments _ _

lemma headPiece_mem_pieces {start stop : ℕ} (h : shard.headPiece start stop ≠ []) :
    shard.headPiece start stop ∈ shard.pieces start stop :=
  List.mem_of_mem_head? (Framing.head?_segments_of_takeWhile_ne_nil h)

/-- What stands around a piece in the file: behind it are the later pieces of the stretch and what
follows the stretch. -/
lemma exists_around_piece {start stop : ℕ} (hstart : start ≤ stop) {front back : List Bytes}
    {piece : Bytes} (h : shard.pieces start stop = front ++ piece :: back) :
    ∃ before, decodeDat shard.datMmap =
        before ++ piece ++ (back.flatten ++ (decodeDat shard.datMmap).drop stop) ∧
      before.length = start + front.flatten.length := by
  have hstretch : shard.stretch start stop = front.flatten ++ piece ++ back.flatten := by
    rw [← Framing.flatten_segments isSentinel (shard.stretch start stop), ← pieces, h,
      List.flatten_append, List.flatten_cons, List.append_assoc]
  refine ⟨(decodeDat shard.datMmap).take start ++ front.flatten, ?_, ?_⟩
  · conv_lhs => rw [← around_stretch hstart, hstretch]
    simp only [List.append_assoc]
  · -- a stretch behind the end of the file has no pieces
    have hlt : start < (decodeDat shard.datMmap).length := by
      by_contra hle
      have hnil : shard.pieces start stop = [] := by
        rw [pieces, stretch, Framing.slice, List.drop_eq_nil_of_le (not_lt.mp hle), List.take_nil,
          Framing.segments_nil]
      simp [hnil] at h
    rw [List.length_append, List.length_take, min_eq_left hlt.le]

/-- A piece that opens with a sentinel and that one, or the end of the file, follows is a record. -/
lemma recordAt_of_opened {start stop : ℕ} (hstart : start ≤ stop) {front back : List Bytes}
    {piece : Bytes} (h : shard.pieces start stop = front ++ piece :: back)
    (hopen : ∀ b ∈ piece.head?, isSentinel b)
    (hback : ∀ b ∈ (back.flatten ++ (decodeDat shard.datMmap).drop stop).head?, isSentinel b) :
    shard.RecordAt (start + front.flatten.length) piece := by
  have hmem : piece ∈ shard.pieces start stop := by simp [h]
  obtain ⟨before, hfile, hlen⟩ := exists_around_piece hstart h
  obtain ⟨b, t, rfl, ht⟩ := Framing.exists_cons_of_mem_segments _ hmem
  exact hlen ▸ recordAt_append hfile (hopen b rfl) ht hback

/-- A piece that opens with a sentinel and stands before another piece is a record. -/
lemma recordAt_of_next {start stop : ℕ} (hstart : start ≤ stop) {front back : List Bytes}
    {piece next : Bytes} (h : shard.pieces start stop = front ++ piece :: next :: back)
    (hopen : ∀ b ∈ piece.head?, isSentinel b) :
    shard.RecordAt (start + front.flatten.length) piece := by
  refine recordAt_of_opened hstart h hopen ?_
  have hcut := Framing.cut_segments isSentinel (shard.stretch start stop)
  rw [← pieces, h] at hcut
  obtain ⟨b, t, rfl, -⟩ := hcut.1 next (by simp)
  simpa using hcut.of_append.2.head_flatten

/-- A piece is a record, or it is the head piece, or it was cut off where the stretch ends. -/
lemma recordAt_or_cut {start stop i : ℕ} (hstart : start ≤ stop) {piece : Bytes}
    (h : (i, piece) ∈ Framing.located start (shard.pieces start stop)) :
    shard.RecordAt i piece ∨ piece = shard.headPiece start stop ∨
      shard.EndsInside stop ∧ (shard.pieces start stop).getLast? = some piece := by
  obtain ⟨front, back, hpieces, rfl⟩ := Framing.mem_located_iff.mp h
  have hmem : piece ∈ shard.pieces start stop := by simp [hpieces]
  rcases Framing.head?_eq_or_opened hmem with hopen | ⟨hhead, -⟩
  · cases back with
    | nil =>
      by_cases hends : shard.EndsInside stop
      · exact .inr (.inr ⟨hends, by simp [hpieces]⟩)
      · -- the stretch ends at a record start or with the file
        refine .inl (recordAt_of_opened hstart hpieces hopen fun b hb => ?_)
        rw [List.flatten_nil, List.nil_append, List.head?_drop, Option.mem_def] at hb
        have hlt := (List.getElem?_eq_some_iff.mp hb).1
        rw [length_decodeDat] at hlt
        by_contra hclean
        refine hends ⟨hlt, opensRecord_eq_false_iff.mpr fun b' hb' => ?_⟩
        rw [hb, Option.some.injEq] at hb'
        simpa [hb'] using hclean
    | cons next back => exact .inl (recordAt_of_next hstart hpieces hopen)
  · exact .inr (.inl hhead)

/-- A closed piece is a record, or it is the head piece. -/
lemma recordAt_or_headPiece {start stop stop' i : ℕ} (hle : stop ≤ stop') (hstart : start ≤ stop)
    {piece : Bytes} (h : (i, piece) ∈ Framing.located start (shard.closedPieces start stop)) :
    shard.RecordAt i piece ∨ piece = shard.headPiece start stop' := by
  obtain ⟨front, back, hclosed, rfl⟩ := Framing.mem_located_iff.mp h
  have hmem : piece ∈ shard.closedPieces start stop := by simp [hclosed]
  obtain hopen | ⟨hhead, -⟩ := Framing.head?_eq_or_opened
    ((closedPieces_prefix_pieces hle).subset hmem)
  · have hne : shard.stretch start stop ≠ [] := by
      intro hnil
      rw [closedPieces, hnil] at hmem
      cases hmem
    obtain ⟨last, hlast⟩ := Framing.closedSegments_append_getLast (p := isSentinel) hne
    rw [← pieces, ← closedPieces, hclosed, List.append_assoc, List.cons_append] at hlast
    obtain ⟨next, back', hback⟩ := List.exists_cons_of_ne_nil (List.append_ne_nil_of_right_ne_nil
      back (List.cons_ne_nil last []))
    rw [hback] at hlast
    exact .inl (recordAt_of_next hstart hlast hopen)
  · exact .inr hhead

/-- A piece that opens with a sentinel is a record, or the front of one. -/
lemma exists_isRecord_of_opened {start stop : ℕ} (hstart : start ≤ stop) {piece : Bytes}
    (h : piece ∈ shard.pieces start stop) (hopen : ∀ b ∈ piece.head?, isSentinel b) :
    ∃ record, shard.IsRecord record ∧ piece <+: record := by
  obtain ⟨front, back, hpieces⟩ := List.append_of_mem h
  cases back with
  | cons next back =>
    exact ⟨piece, (recordAt_of_next hstart hpieces hopen).isRecord, List.prefix_rfl⟩
  | nil =>
    obtain ⟨before, hfile, -⟩ := exists_around_piece hstart hpieces
    obtain ⟨b, t, rfl, ht⟩ := Framing.exists_cons_of_mem_segments _ h
    generalize hrest : (decodeDat shard.datMmap).drop stop = rest at hfile
    rw [List.flatten_nil, List.nil_append, ← List.takeWhile_append_dropWhile (p := (!isSentinel ·))
      (l := rest), ← List.append_assoc, List.append_assoc before, List.cons_append] at hfile
    refine ⟨_, (recordAt_append hfile (hopen b rfl) ?_ Framing.head?_dropWhile_not).isRecord,
      List.prefix_append (b :: t) _⟩
    intro b' hb'
    rcases List.mem_append.mp hb' with hb' | hb'
    · exact ht b' hb'
    · simpa using List.mem_takeWhile_imp hb'

/-- The last piece of a stretch that ends in the file ends where the stretch does. -/
lemma exists_located_of_getLast? {start stop : ℕ} (hstart : start ≤ stop)
    (hstop : stop ≤ shard.datMmap.length) {piece : Bytes}
    (h : (shard.pieces start stop).getLast? = some piece) :
    ∃ i, (i, piece) ∈ Framing.located start (shard.pieces start stop) ∧
      i + piece.length = stop := by
  obtain ⟨front, hfront⟩ := List.getLast?_eq_some_iff.mp h
  refine ⟨_, Framing.mem_located_iff.mpr ⟨front, [], hfront, rfl⟩, ?_⟩
  have hlen := congrArg List.length (Framing.flatten_segments isSentinel (shard.stretch start stop))
  rw [← pieces, hfront, List.flatten_append, List.flatten_singleton, List.length_append, stretch,
    Framing.slice, List.length_take, List.length_drop, length_decodeDat] at hlen
  omega

/-- A head piece is no record. -/
lemma not_recordAt_headPiece {start stop i : ℕ} (hne : shard.headPiece start stop ≠ []) :
    ¬ shard.RecordAt i (shard.headPiece start stop) := by
  intro h
  obtain ⟨b, t, hhead⟩ := List.exists_cons_of_ne_nil hne
  have hmem : b ∈ shard.headPiece start stop := by simp [hhead]
  have hclean := List.mem_takeWhile_imp hmem
  simp [h.opened b (by simp [hhead])] at hclean

/-- A head piece is the first piece of every shorter stretch that has a closed piece. -/
lemma headPiece_mem_closedPieces {start stop stop' : ℕ} (hle : stop ≤ stop')
    (hne : shard.closedPieces start stop ≠ []) (hhead : shard.headPiece start stop' ≠ []) :
    shard.headPiece start stop' ∈ shard.closedPieces start stop := by
  obtain ⟨first, rest, hfirst⟩ := List.exists_cons_of_ne_nil hne
  obtain ⟨more, hmore⟩ := @closedPieces_prefix_pieces shard start _ _ hle
  have hsegments : (shard.pieces start stop').head? = some (shard.headPiece start stop') :=
    Framing.head?_segments_of_takeWhile_ne_nil hhead
  rw [← hmore, hfirst, List.cons_append, List.head?_cons, Option.some.injEq] at hsegments
  rw [hfirst, hsegments]
  exact List.mem_cons_self

/-! ### What an entry leads to -/

/-- The stretch that an entry leads to. -/
lemma rawBytes_of_rawRecordFor {entry : TextEntry} {raw : RawV2Record}
    (h : shard.rawRecordFor entry = some raw) :
    raw.key = entry.key ∧
      raw.bestDecodedCandidate.map DecodedV2Candidate.bytes =
        some (shard.stretch raw.datOffset (raw.datOffset + raw.rawLen)) := by
  simp only [rawRecordFor, Option.ite_none_left_eq_some, not_or, not_le, Option.some.injEq] at h
  obtain ⟨⟨-, hle⟩, rfl⟩ := h
  refine ⟨rfl, ?_⟩
  rw [RawV2Record.bestDecodedCandidate, bestCandidate_bytes, stretch, slice_decodeDat,
    Nat.add_sub_cancel' (not_lt.mp hle)]

/-- An entry is read in the pieces of the stretch that it leads to, under its own key. -/
lemma datIdxSnapshots_eq {entry : TextEntry} {raw : RawV2Record}
    (h : shard.rawRecordFor entry = some raw) (callsign : Str) :
    shard.datIdxSnapshots callsign entry =
      Panic.collect (V2Record.segmentMatches (some entry.key) callsign)
        (V2Record.parseSegment (some entry.key) .hamCallDatIdx shard.countries shard.interests)
        (shard.pieces raw.datOffset (raw.datOffset + raw.rawLen)) := by
  obtain ⟨hkey, hbytes⟩ := rawBytes_of_rawRecordFor h
  obtain ⟨candidate, hcandidate, hdecoded⟩ := Option.map_eq_some_iff.mp hbytes
  simp only [datIdxSnapshots, h, hcandidate, hdecoded, hkey, parseAndFilter,
    V2Record.parseMatchingSnapshots_eq, pieces]

/-! ### Samples -/

/-- A shard on the encoding of decoded bytes. -/
def sampleShard (decoded : Bytes) : V2Shard where
  idx := ⟨ascii "W1AW 0\r\n", [⟨0, 4, 0, 0⟩], [0], 1, 256, by decide +kernel⟩
  datMmap := decodeDat decoded
  hci := none
  usCsv := none
  countries := none
  pcCountries := none
  interests := none

end V2Shard

end Callbook
