import Callbook.Database.Records

/-!
# Where the snapshots of a posting come from

A posting is answered by the record around its offset or, when that record does not answer, by
windows that start at the offset. The first piece of a window may be the tail of a record, and the
last piece of the widest window may be a record that was cut off.
-/

namespace Callbook

open Text

namespace V2Shard

variable (shard : V2Shard)

/-! ### Records and pieces -/

/-- What `parse_segment` gives for a piece of the DAT file on the HCI path. -/
def readHci (piece : Bytes) : Except Panic (Option CallSnapshot) :=
  V2Record.parseSegment none .hamCallHci shard.countries shard.interests piece

/-- The piece parses to a snapshot of the callsign. -/
def ReadsAs (callsign : Str) (piece : Bytes) (s : CallSnapshot) : Prop :=
  shard.readHci piece = .ok (some s) ∧ s.callsign = callsign

variable {shard}

/-! ### What the buffers hold -/

lemma decodeFromOffsetInto_eq (datOffset maxLen : ℕ) (decoded : Bytes) :
    shard.decodeFromOffsetInto datOffset maxLen decoded =
      shard.stretch datOffset (datOffset + maxLen) := by
  rw [decodeFromOffsetInto, stretch]
  split_ifs with hlen
  · rw [Framing.slice, List.drop_eq_nil_of_le (by simpa using hlen), List.take_nil]
    rfl
  · have hslice : Framing.slice shard.datMmap datOffset
        (min (datOffset + maxLen) shard.datMmap.length) =
          Framing.slice shard.datMmap datOffset (datOffset + maxLen) := by
      refine List.take_eq_take_iff.mpr ?_
      rw [List.length_drop]
      omega
    simp only [decodePhaseInto_phaseForDatOffset, slice_decodeDat, hslice]

lemma decodeHciPostingRecordInto_eq (datOffset : ℕ) (decoded : Bytes) :
    shard.decodeHciPostingRecordInto datOffset decoded =
      match recordBoundsForHciPosting shard.datMmap datOffset with
      | none => []
      | some bounds => shard.stretch bounds.start bounds.end := by
  rw [decodeHciPostingRecordInto]
  cases recordBoundsForHciPosting shard.datMmap datOffset with
  | none => rfl
  | some bounds =>
    simp only
    rw [decodeBoundsInto, decodePhaseInto_phaseForDatOffset, stretch, slice_decodeDat]

/-! ### Origins -/

/-- A snapshot with the piece of the decoded file that it was made of. -/
structure Origin where
  start : ℕ
  piece : Bytes
  snapshot : CallSnapshot

variable (shard) in
/-- `parse_matching_snapshots` on located pieces, with the origin of each snapshot. -/
def originsIn (callsign : Str) (pieces : List (ℕ × Bytes)) : Except Panic (List Origin) :=
  Panic.collect (fun p => V2Record.segmentMatches none callsign p.2)
    (fun p => (shard.readHci p.2).map (Option.map (Origin.mk p.1 p.2))) pieces

variable (shard) in
/-- The pieces that the containing record is read in. -/
def piecesAround (datOffset : ℕ) : List (ℕ × Bytes) :=
  match recordBoundsForHciPosting shard.datMmap datOffset with
  | none => []
  | some bounds => Framing.located bounds.start (shard.pieces bounds.start bounds.end)

variable (shard) in
/-- `decode_and_parse_hci_offset_with_windows`, with the origin of each snapshot. -/
def windowOrigins (datOffset : ℕ) (callsign : Str) : List ℕ → Except Panic (List Origin)
  | [] => shard.originsIn callsign
      (Framing.located datOffset (shard.pieces datOffset (datOffset + 8192)))
  | maxLen :: rest => do
    let found ← shard.originsIn callsign
      (Framing.located datOffset (shard.closedPieces datOffset (datOffset + maxLen)))
    if found.isEmpty then windowOrigins datOffset callsign rest else pure found

variable (shard) in
/-- `decode_and_parse_hci_offset`, with the origin of each snapshot. -/
def postingOrigins (datOffset : ℕ) (callsign : Str) : Except Panic (List Origin) := do
  let found ← shard.originsIn callsign (shard.piecesAround datOffset)
  if found.isEmpty then shard.windowOrigins datOffset callsign [1024, 2048, 4096]
  else pure found

section Erasure

variable (datOffset : ℕ) (callsign : Str) (decoded : Bytes)

lemma map_originsIn (pieces : List (ℕ × Bytes)) :
    (shard.originsIn callsign pieces).map (List.map Origin.snapshot) =
      Panic.collect (V2Record.segmentMatches none callsign) shard.readHci
        (pieces.map Prod.snd) := by
  rw [originsIn, @Panic.map_collect _ _ _ (V2Record.segmentMatches none callsign) shard.readHci
    _ _ Prod.snd]
  rintro ⟨i, piece⟩
  cases shard.readHci piece with
  | error e => rfl
  | ok parsed => cases parsed <;> rfl

lemma map_originsIn_located (start : ℕ) (pieces : List Bytes) :
    (shard.originsIn callsign (Framing.located start pieces)).map (List.map Origin.snapshot) =
      Panic.collect (V2Record.segmentMatches none callsign) shard.readHci pieces := by
  rw [map_originsIn, Framing.map_snd_located]

/-- Trying the next windows when one does not answer commutes with leaving the origins out. -/
lemma map_bind_isEmpty {found next : Except Panic (List Origin)}
    {snapshots : Except Panic (List CallSnapshot)} {rest : Except Panic (List CallSnapshot × Bytes)}
    (hfound : found.map (List.map Origin.snapshot) = snapshots)
    (hnext : next.map (List.map Origin.snapshot) = rest.map Prod.fst) :
    (do let found ← found; if found.isEmpty then next else pure found).map
        (List.map Origin.snapshot) =
      (do let snapshots ← snapshots
          if snapshots ≠ [] then pure (snapshots, decoded) else rest).map Prod.fst := by
  subst hfound
  cases found with
  | error e => rfl
  | ok found =>
    cases found with
    | nil => exact hnext
    | cons o found => rfl

lemma map_windowOrigins (windows : List ℕ) :
    (shard.windowOrigins datOffset callsign windows).map (List.map Origin.snapshot) =
      (shard.windowLoop datOffset callsign windows decoded).map Prod.fst := by
  induction windows generalizing decoded with
  | nil =>
    rw [windowOrigins, windowLoop, map_originsIn_located, decodeFromOffsetInto_eq, parseAndFilter,
      V2Record.parseMatchingSnapshots_eq]
    change _ = Except.map Prod.fst (Panic.collect (V2Record.segmentMatches none callsign)
      shard.readHci (shard.pieces datOffset (datOffset + 8192)) >>= _)
    cases Panic.collect (V2Record.segmentMatches none callsign) shard.readHci
      (shard.pieces datOffset (datOffset + 8192)) <;> rfl
  | cons maxLen rest ih =>
    rw [windowOrigins, windowLoop, decodeFromOffsetInto_eq,
      V2Record.parseCompleteMatchingSnapshots_eq]
    exact map_bind_isEmpty _ (map_originsIn_located _ _ _) (ih _)

/-- Leaving the origins out, a posting returns what it returns. -/
theorem map_postingOrigins :
    (shard.postingOrigins datOffset callsign).map (List.map Origin.snapshot) =
      (shard.decodeAndParseHciOffset datOffset callsign decoded).map Prod.fst := by
  rw [postingOrigins, decodeAndParseHciOffset, parseAndFilter, V2Record.parseMatchingSnapshots_eq,
    decodeHciPostingRecordInto_eq, piecesAround]
  refine map_bind_isEmpty _ ?_ (map_windowOrigins _ _ _ _)
  cases recordBoundsForHciPosting shard.datMmap datOffset with
  | none => rfl
  | some bounds => exact map_originsIn_located _ _ _

end Erasure

/-! ### What a run reads -/

section Run

variable {key : Callsign} {datOffset : ℕ} {found : List Origin}

/-- The origins are the pieces that read as the callsign. -/
lemma mem_originsIn {pieces : List (ℕ × Bytes)} (h : shard.originsIn key.asStr pieces = .ok found)
    {o : Origin} :
    o ∈ found ↔ (o.start, o.piece) ∈ pieces ∧ shard.ReadsAs key.asStr o.piece o.snapshot := by
  rw [Panic.mem_of_collect_eq_ok h]
  constructor
  · rintro ⟨⟨i, piece⟩, hmem, hmatches, hparse⟩
    obtain ⟨parsed, hparsed, hsome⟩ := Panic.map_eq_ok_iff.mp hparse
    obtain ⟨s, rfl, rfl⟩ := Option.map_eq_some_iff.mp hsome
    exact ⟨hmem, hparsed,
      (V2Record.segmentMatches_iff_of_parseSegment hparsed key.asStr_spec.2.2).mp hmatches⟩
  · rintro ⟨hmem, hparse, hcall⟩
    refine ⟨_, hmem, (V2Record.segmentMatches_iff_of_parseSegment hparse
      key.asStr_spec.2.2).mpr hcall, ?_⟩
    exact Panic.map_eq_ok_iff.mpr ⟨_, hparse, rfl⟩

/-- The containing record is one piece, where it stands. -/
lemma piecesAround_eq (datOffset : ℕ) :
    (∃ start record, shard.piecesAround datOffset = [(start, record)] ∧
      shard.RecordAt start record ∧ shard.IsRecordAround datOffset record) ∨
    shard.piecesAround datOffset = [] ∧ ∀ record, ¬ shard.IsRecordAround datOffset record := by
  rw [piecesAround]
  cases hbounds : recordBoundsForHciPosting shard.datMmap datOffset with
  | none =>
    refine .inr ⟨rfl, ?_⟩
    rintro record ⟨start, e, hframe, hstart, hend, -⟩
    have hexists := exists_recordBoundsForHciPosting_iff.mpr
      ⟨by simpa using lt_of_lt_of_le hend hframe.le, start, hstart, ?_⟩
    · obtain ⟨bounds, h⟩ := hexists
      rw [hbounds] at h
      cases h
    · have hlt : start < (decodeDat shard.datMmap).length := lt_of_lt_of_le hframe.lt hframe.le
      exact opensRecord_iff.mpr ⟨_, List.getElem?_eq_getElem hlt,
        hframe.opened _ (List.getElem?_eq_getElem hlt)⟩
  | some bounds =>
    obtain ⟨hframe, hstart, hend⟩ := isFrame_of_recordBoundsForHciPosting hbounds
    have hrecord : shard.IsRecord (shard.stretch bounds.start bounds.end) := ⟨_, _, hframe, rfl⟩
    have hlen : bounds.start + (shard.stretch bounds.start bounds.end).length = bounds.end := by
      rw [stretch, Framing.slice, List.length_take, List.length_drop]
      have hlt := hframe.lt
      have hle := hframe.le
      omega
    refine .inl ⟨bounds.start, shard.stretch bounds.start bounds.end, ?_, ?_,
      ⟨_, _, hframe, hstart, hend, rfl⟩⟩
    · simp only [pieces, segments_of_isRecord hrecord]
      rfl
    · rw [RecordAt, hlen]
      exact ⟨hframe, rfl⟩

/-- The windows are tried until the closed pieces of one of them answer; then all pieces of the
widest one are read. -/
lemma windowOrigins_eq_ok {windows : List ℕ}
    (h : shard.windowOrigins datOffset key.asStr windows = .ok found) :
    (∃ maxLen ∈ windows, found ≠ [] ∧ ∀ o, o ∈ found ↔
      (o.start, o.piece) ∈
          Framing.located datOffset (shard.closedPieces datOffset (datOffset + maxLen)) ∧
        shard.ReadsAs key.asStr o.piece o.snapshot) ∨
    (∀ maxLen ∈ windows, ∀ piece ∈ shard.closedPieces datOffset (datOffset + maxLen), ∀ s,
      ¬ shard.ReadsAs key.asStr piece s) ∧
      ∀ o, o ∈ found ↔
        (o.start, o.piece) ∈
            Framing.located datOffset (shard.pieces datOffset (datOffset + 8192)) ∧
          shard.ReadsAs key.asStr o.piece o.snapshot := by
  induction windows with
  | nil => exact .inr ⟨by simp, fun o => mem_originsIn h⟩
  | cons maxLen rest ih =>
    rw [windowOrigins, Panic.bind_eq_ok_iff] at h
    obtain ⟨closed, hclosed, h⟩ := h
    split_ifs at h with hempty
    · rw [List.isEmpty_iff] at hempty
      have hnone : ∀ piece ∈ shard.closedPieces datOffset (datOffset + maxLen), ∀ s,
          ¬ shard.ReadsAs key.asStr piece s := by
        intro piece hpiece s hreads
        obtain ⟨i, hi⟩ := @Framing.exists_mem_located _ datOffset _ _ hpiece
        have ho := (mem_originsIn hclosed (o := ⟨i, piece, s⟩)).mpr ⟨hi, hreads⟩
        simp [hempty] at ho
      rcases ih h with ⟨w, hw, hsome⟩ | ⟨hall, hmem⟩
      · exact .inl ⟨w, List.mem_cons_of_mem _ hw, hsome⟩
      · exact .inr ⟨List.forall_mem_cons.mpr ⟨hnone, hall⟩, hmem⟩
    · cases h
      exact .inl ⟨maxLen, List.mem_cons_self, by simpa using hempty, fun o => mem_originsIn hclosed⟩

/-- The record around the offset answers, or a window does. -/
lemma postingOrigins_eq_ok (h : shard.postingOrigins datOffset key.asStr = .ok found) :
    (∃ start record, shard.RecordAt start record ∧ shard.IsRecordAround datOffset record ∧
      (∃ s, shard.ReadsAs key.asStr record s) ∧
      ∀ o, o ∈ found ↔
        (o.start, o.piece) = (start, record) ∧ shard.ReadsAs key.asStr o.piece o.snapshot) ∨
    (∀ record s, shard.IsRecordAround datOffset record → ¬ shard.ReadsAs key.asStr record s) ∧
      shard.windowOrigins datOffset key.asStr [1024, 2048, 4096] = .ok found := by
  rw [postingOrigins, Panic.bind_eq_ok_iff] at h
  obtain ⟨around, haround, h⟩ := h
  have hmem := fun o => mem_originsIn (o := o) haround
  rcases shard.piecesAround_eq datOffset with ⟨start, record, hpieces, hat, hrecord⟩ | ⟨hnil, hnone⟩
  · simp only [hpieces, List.mem_singleton] at hmem
    split_ifs at h with hempty
    · refine .inr ⟨fun record' s hrecord' hreads => ?_, h⟩
      rw [isRecordAround_unique hrecord' hrecord] at hreads
      have ho := (hmem ⟨start, record, s⟩).mpr ⟨rfl, hreads⟩
      simp [List.isEmpty_iff.mp hempty] at ho
    · cases h
      obtain ⟨o, ho⟩ := List.exists_mem_of_ne_nil _ (by simpa using hempty)
      obtain ⟨heq, hreads⟩ := (hmem o).mp ho
      obtain ⟨-, hpiece⟩ := Prod.mk.inj heq
      exact .inl ⟨start, record, hat, hrecord, ⟨_, hpiece ▸ hreads⟩, hmem⟩
  · simp only [hnil, List.not_mem_nil, false_and, iff_false] at hmem
    rw [List.eq_nil_iff_forall_not_mem.mpr hmem] at h
    exact .inr ⟨fun record s hrecord => absurd hrecord (hnone record), h⟩

/-- A posting returns the snapshots of its origins. -/
lemma exists_postingOrigins {decoded decoded' : Bytes} {snapshots : List CallSnapshot}
    (h : shard.decodeAndParseHciOffset datOffset key.asStr decoded = .ok (snapshots, decoded')) :
    ∃ found, shard.postingOrigins datOffset key.asStr = .ok found ∧
      found.map Origin.snapshot = snapshots := by
  have hmap := @map_postingOrigins shard datOffset key.asStr decoded
  rw [h] at hmap
  exact Panic.map_eq_ok_iff.mp hmap

/-- Where the record around the offset reads as the callsign, the posting returns what it reads. -/
lemma mem_of_isRecordAround {decoded decoded' : Bytes} {snapshots : List CallSnapshot}
    (h : shard.decodeAndParseHciOffset datOffset key.asStr decoded = .ok (snapshots, decoded'))
    {record : Bytes} (hrecord : shard.IsRecordAround datOffset record) {s : CallSnapshot}
    (hreads : shard.ReadsAs key.asStr record s) : s ∈ snapshots := by
  obtain ⟨found, hfound, rfl⟩ := exists_postingOrigins h
  rcases postingOrigins_eq_ok hfound with ⟨start, record', -, hrecord', -, hall⟩ | ⟨hnone, -⟩
  · rw [isRecordAround_unique hrecord hrecord'] at hreads
    exact List.mem_map.mpr ⟨⟨start, record', s⟩, (hall _).mpr ⟨rfl, hreads⟩, rfl⟩
  · exact absurd hreads (hnone record s hrecord)

end Run

/-! ### Provenance -/

/-- The head piece does not read as the callsign. -/
def HeadUnread (shard : V2Shard) (callsign : Str) (datOffset : ℕ) : Prop :=
  ∀ s, ¬ shard.ReadsAs callsign (shard.headPiece datOffset (datOffset + 8192)) s

/-- When the widest window is read and ends inside a record, the piece that is cut off there does
not read as the callsign. -/
def CutUnread (shard : V2Shard) (callsign : Str) (datOffset : ℕ) : Prop :=
  (∀ piece ∈ shard.closedPieces datOffset (datOffset + 4096), ∀ s,
      ¬ shard.ReadsAs callsign piece s) →
    shard.EndsInside (datOffset + 8192) →
      ∀ piece ∈ (shard.pieces datOffset (datOffset + 8192)).getLast?,
        ∀ s, ¬ shard.ReadsAs callsign piece s

section Window

variable {callsign : Str} {datOffset : ℕ} {found : List Origin}

lemma ReadsAs.ne_nil {piece : Bytes} {s : CallSnapshot} (h : shard.ReadsAs callsign piece s) :
    piece ≠ [] := by
  rintro rfl
  cases h.1

/-- Where a closed window answers, the widest one is not read: only the head piece counts. -/
lemma recordAt_iff_of_closed {maxLen : ℕ} (hle : maxLen ≤ 4096) (hne : found ≠ [])
    (hall : ∀ o, o ∈ found ↔ (o.start, o.piece) ∈
        Framing.located datOffset (shard.closedPieces datOffset (datOffset + maxLen)) ∧
      shard.ReadsAs callsign o.piece o.snapshot) :
    (∀ o ∈ found, shard.RecordAt o.start o.piece) ↔
      shard.HeadUnread callsign datOffset ∧ shard.CutUnread callsign datOffset := by
  have hmem : ∀ {i : ℕ} {piece : Bytes}, (i, piece) ∈ Framing.located datOffset
      (shard.closedPieces datOffset (datOffset + maxLen)) →
        piece ∈ shard.closedPieces datOffset (datOffset + maxLen) := fun h => by
    rw [← Framing.map_snd_located datOffset (shard.closedPieces datOffset (datOffset + maxLen))]
    exact List.mem_map_of_mem h
  obtain ⟨answer, hanswer⟩ := List.exists_mem_of_ne_nil _ hne
  obtain ⟨hlocated, hreads⟩ := (hall answer).mp hanswer
  have hcut : shard.CutUnread callsign datOffset := by
    intro hnone
    exact absurd hreads
      (hnone _ ((closedPieces_prefix_of_le (by omega)).subset (hmem hlocated)) _)
  rw [and_iff_left hcut]
  constructor
  · intro hrecords s hreads
    obtain ⟨i, hi⟩ := @Framing.exists_mem_located _ datOffset _ _ (headPiece_mem_closedPieces
      (by omega) (List.ne_nil_of_mem (hmem hlocated)) hreads.ne_nil)
    exact not_recordAt_headPiece hreads.ne_nil (hrecords ⟨i, _, s⟩ ((hall _).mpr ⟨hi, hreads⟩))
  · intro hhead o ho
    obtain ⟨hlocated, hreads⟩ := (hall o).mp ho
    have hwidest : datOffset + maxLen ≤ datOffset + 8192 := by omega
    rcases recordAt_or_headPiece hwidest (by omega) hlocated with hrecord | hpiece
    · exact hrecord
    · rw [hpiece] at hreads
      exact absurd hreads (hhead _)

/-- In the widest window the pieces at both ends count. -/
lemma recordAt_iff_of_widest
    (hclosed : ∀ piece ∈ shard.closedPieces datOffset (datOffset + 4096), ∀ s,
      ¬ shard.ReadsAs callsign piece s)
    (hall : ∀ o, o ∈ found ↔ (o.start, o.piece) ∈
        Framing.located datOffset (shard.pieces datOffset (datOffset + 8192)) ∧
      shard.ReadsAs callsign o.piece o.snapshot) :
    (∀ o ∈ found, shard.RecordAt o.start o.piece) ↔
      shard.HeadUnread callsign datOffset ∧ shard.CutUnread callsign datOffset := by
  constructor
  · intro hrecords
    constructor
    · intro s hreads
      obtain ⟨i, hi⟩ := @Framing.exists_mem_located _ datOffset _ _
        (headPiece_mem_pieces hreads.ne_nil)
      exact not_recordAt_headPiece hreads.ne_nil (hrecords ⟨i, _, s⟩ ((hall _).mpr ⟨hi, hreads⟩))
    · intro _ hends piece hpiece s hreads
      obtain ⟨i, hi, hstop⟩ := exists_located_of_getLast? (by omega) hends.1.le hpiece
      have hrecord := hrecords ⟨i, piece, s⟩ ((hall _).mpr ⟨hi, hreads⟩)
      exact hrecord.closed (hstop ▸ hends)
  · rintro ⟨hhead, hcut⟩ o ho
    obtain ⟨hlocated, hreads⟩ := (hall o).mp ho
    rcases recordAt_or_cut (by omega) hlocated with hrecord | hpiece | ⟨hends, hlast⟩
    · exact hrecord
    · rw [hpiece] at hreads
      exact absurd hreads (hhead _)
    · exact absurd hreads (hcut hclosed hends _ hlast _)

end Window

/-- What a posting returns is made of complete records exactly when the record around its offset
reads as the callsign, or no piece at the ends of the windows does. -/
theorem recordAt_origins_iff {key : Callsign} {datOffset : ℕ} {decoded decoded' : Bytes}
    {snapshots : List CallSnapshot}
    (h : shard.decodeAndParseHciOffset datOffset key.asStr decoded = .ok (snapshots, decoded')) :
    ∃ found, shard.postingOrigins datOffset key.asStr = .ok found ∧
      found.map Origin.snapshot = snapshots ∧
      (∀ o ∈ found, shard.readHci o.piece = .ok (some o.snapshot)) ∧
      ((∀ o ∈ found, shard.RecordAt o.start o.piece) ↔
        (∃ record, shard.IsRecordAround datOffset record ∧
          ∃ s, shard.ReadsAs key.asStr record s) ∨
        shard.HeadUnread key.asStr datOffset ∧ shard.CutUnread key.asStr datOffset) := by
  obtain ⟨found, hfound, hsnapshots⟩ := exists_postingOrigins h
  refine ⟨found, hfound, hsnapshots, ?_⟩
  rcases postingOrigins_eq_ok hfound with ⟨start, record, hat, haround, hanswers, hall⟩ |
    ⟨hnone, hwindows⟩
  · refine ⟨fun o ho => ((hall o).mp ho).2.1, ?_⟩
    refine iff_of_true (fun o ho => ?_) (.inl ⟨record, haround, hanswers⟩)
    obtain ⟨hstart, hpiece⟩ := Prod.mk.inj ((hall o).mp ho).1
    rw [hstart, hpiece]
    exact hat
  · have hleft : ¬ ∃ record, shard.IsRecordAround datOffset record ∧
        ∃ s, shard.ReadsAs key.asStr record s :=
      fun ⟨record, haround, s, hreads⟩ => hnone record s haround hreads
    rw [or_iff_right hleft]
    rcases windowOrigins_eq_ok hwindows with ⟨maxLen, hmem, hne, hall⟩ | ⟨hclosed, hall⟩
    · have hle : maxLen ≤ 4096 := by
        simp only [List.mem_cons, List.not_mem_nil, or_false] at hmem
        omega
      exact ⟨fun o ho => ((hall o).mp ho).2.1, recordAt_iff_of_closed hle hne hall⟩
    · exact ⟨fun o ho => ((hall o).mp ho).2.1,
        recordAt_iff_of_widest (hclosed 4096 (by simp)) hall⟩

/-! ### Sample runs -/

/-- The callsigns that the pieces of a stream parse to. -/
def parsedCallsigns (shard : V2Shard) (pieces : List Bytes) : List Str :=
  pieces.filterMap fun piece =>
    (shard.readHci piece).toOption.bind fun s => s.map CallSnapshot.callsign

lemma mem_parsedCallsigns {pieces : List Bytes} {piece : Bytes} {s : CallSnapshot}
    (hpiece : piece ∈ pieces) (h : shard.readHci piece = .ok (some s)) :
    s.callsign ∈ shard.parsedCallsigns pieces := by
  refine List.mem_filterMap.mpr ⟨piece, hpiece, ?_⟩
  rw [h]
  rfl

/-- Two records; the tail of the first one reads as nothing. -/
def adjacentCalls : Bytes :=
  (0xb5 :: ascii "N0CALL" ++ 0xb8 :: ascii "Ann") ++ (0xb5 :: ascii "W1AW" ++ 0xb8 :: ascii "Bob")

theorem recordAt_origins_iff_adjacentCalls : ∃ (key : Callsign)
    (snapshots : List CallSnapshot) (decoded : Bytes) (found : List Origin),
    Callsign.parse (ascii "W1AW") = .ok key ∧
      (sampleShard adjacentCalls).decodeAndParseHciOffset 3 key.asStr [] =
        .ok (snapshots, decoded) ∧ snapshots ≠ [] ∧
      (sampleShard adjacentCalls).postingOrigins 3 key.asStr = .ok found ∧
      found.map Origin.snapshot = snapshots ∧
      ∀ o ∈ found, (sampleShard adjacentCalls).RecordAt o.start o.piece := by
  have hrun : (Callsign.parse (ascii "W1AW")).toOption.any fun key =>
      key.asStr == ascii "W1AW" &&
      ((sampleShard adjacentCalls).decodeAndParseHciOffset 3 key.asStr []).toOption.any fun found =>
        !found.1.isEmpty := by decide +kernel
  have hhead : ascii "W1AW" ∉ (sampleShard adjacentCalls).parsedCallsigns
      [(sampleShard adjacentCalls).headPiece 3 (3 + 8192)] := by decide +kernel
  simp only [Option.any_eq_true, Bool.and_eq_true, beq_iff_eq, Bool.not_eq_true',
    List.isEmpty_eq_false_iff, Panic.toOption_eq_some_iff] at hrun
  obtain ⟨key, hkey, hcall, ⟨snapshots, decoded⟩, hrun, hne⟩ := hrun
  obtain ⟨found, hfound, hsnapshots, -, hiff⟩ := recordAt_origins_iff hrun
  refine ⟨key, snapshots, decoded, found, hkey, hrun, hne, hfound, hsnapshots,
    hiff.mpr (.inr ⟨?_, ?_⟩)⟩
  · rintro s ⟨hparse, hs⟩
    rw [hcall] at hs
    exact hhead (hs ▸ mem_parsedCallsigns (List.mem_singleton_self _) hparse)
  · rintro - ⟨hlen, -⟩
    exact absurd hlen (by decide +kernel)

/-- The e-mail address of one station holds the callsign of another. -/
def nestedCall : Bytes :=
  0xb5 :: ascii "N0CALL" ++ 0xcf :: ascii "W1AW" ++ 0xb8 :: ascii "Bob"

/-- Asked for the inner callsign at its offset, the tail of the record answers. -/
theorem not_recordAt_nestedCall : ∃ (key : Callsign) (snapshots : List CallSnapshot)
    (decoded : Bytes), Callsign.parse (ascii "W1AW") = .ok key ∧
      (sampleShard nestedCall).decodeAndParseHciOffset 8 key.asStr [] = .ok (snapshots, decoded) ∧
      ∃ s ∈ snapshots, ∀ record, (sampleShard nestedCall).IsRecord record →
        (sampleShard nestedCall).readHci record ≠ .ok (some s) := by
  have hrun : (Callsign.parse (ascii "W1AW")).toOption.any fun key =>
      ((sampleShard nestedCall).decodeAndParseHciOffset 8 key.asStr []).toOption.any fun found =>
        found.1.any fun s => s.callsign == ascii "W1AW" := by decide +kernel
  have hrecords : ascii "W1AW" ∉ (sampleShard nestedCall).parsedCallsigns
      (Framing.segments isSentinel (decodeDat (sampleShard nestedCall).datMmap)) := by
    decide +kernel
  simp only [Option.any_eq_true, List.any_eq_true, beq_iff_eq, Panic.toOption_eq_some_iff] at hrun
  obtain ⟨key, hkey, ⟨snapshots, decoded⟩, hfound, s, hs, hcall⟩ := hrun
  refine ⟨key, snapshots, decoded, hkey, hfound, s, hs, ?_⟩
  intro record hrecord hparse
  exact hrecords (hcall ▸ mem_parsedCallsigns (isRecord_iff.mp hrecord).1 hparse)

end V2Shard

end Callbook
