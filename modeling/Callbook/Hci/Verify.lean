import Callbook.Hci.Index

/-!
# Verifying an HCI pair

The verifier measures a record by the offset that follows it, the reader cuts it out by two reads of
the table. Where no offset is out of order or beyond the file, both speak of the same records, and
these are the file from the first offset on.
-/

namespace Callbook

open Text

namespace Hci

/-- Invariant report for an HCI pair. -/
structure VerifyReport where
  entries : ℕ
  datSize : ℕ
  firstOffset : Option ℕ
  lastOffset : Option ℕ
  offsetOrderViolations : ℕ
  outOfBoundsOffsets : ℕ
  zeroLengthRecords : ℕ
  minRecordLen : Option ℕ
  maxRecordLen : Option ℕ
  deriving DecidableEq, Repr

/-- The lengths that `verify` has seen. -/
@[ext]
structure RecordLens where
  zeroLengthRecords : ℕ
  minRecordLen : Option ℕ
  maxRecordLen : Option ℕ
  deriving DecidableEq, Repr

def RecordLens.push (lens : RecordLens) (len : ℕ) : RecordLens where
  zeroLengthRecords :=
    if len = 0 then lens.zeroLengthRecords + 1 else lens.zeroLengthRecords
  minRecordLen := some (lens.minRecordLen.elim len (min · len))
  maxRecordLen := some (lens.maxRecordLen.elim len (max · len))

/-- What the loop of `verify` has counted. -/
structure VerifyScan where
  prev : Option ℕ
  offsetOrderViolations : ℕ
  outOfBoundsOffsets : ℕ
  lens : RecordLens
  deriving DecidableEq, Repr

def VerifyScan.start : VerifyScan := ⟨none, 0, 0, ⟨0, none, none⟩⟩

/-- One turn of the loop of `verify`, with the offset it has read. -/
def verifyStep (datSize : ℕ) (scan : VerifyScan) : Option ℕ → VerifyScan
  | none => { scan with outOfBoundsOffsets := scan.outOfBoundsOffsets + 1 }
  | some off =>
    let scan :=
      if datSize < off then { scan with outOfBoundsOffsets := scan.outOfBoundsOffsets + 1 }
      else scan
    let scan :=
      match scan.prev with
      | none => scan
      | some prevOff =>
        let scan :=
          if off ≤ prevOff then
            { scan with offsetOrderViolations := scan.offsetOrderViolations + 1 }
          else scan
        { scan with lens := scan.lens.push (off - prevOff) }
    { scan with prev := some off }

/-- `hci::verify`. -/
def verify (hci : HciFile) : VerifyReport :=
  let entries := hci.len
  let datSize := hci.datMmap.length
  let lastOffset := if entries = 0 then none else hci.offset (entries - 1)
  let scan := (List.range entries).foldl (fun scan i => verifyStep datSize scan (hci.offset i))
    .start
  let lens :=
    match lastOffset with
    | none => scan.lens
    | some last => scan.lens.push (datSize - last)
  ⟨entries, datSize, hci.offset 0, lastOffset, scan.offsetOrderViolations, scan.outOfBoundsOffsets,
    lens.zeroLengthRecords, lens.minRecordLen, lens.maxRecordLen⟩

/-! ### What the loop has counted -/

/-- The lengths of a list of records. -/
def RecordLens.of (lens : List ℕ) : RecordLens := ⟨lens.count 0, lens.min?, lens.max?⟩

lemma RecordLens.push_of (lens : List ℕ) (len : ℕ) :
    (RecordLens.of lens).push len = RecordLens.of (lens ++ [len]) := by
  ext1
  · by_cases h : len = 0 <;> simp [RecordLens.push, RecordLens.of, h]
  · cases lens with
    | nil => rfl
    | cons a lens =>
      simp only [RecordLens.push, RecordLens.of, List.cons_append, List.min?_cons',
        List.foldl_append, List.foldl_cons, List.foldl_nil, Option.elim_some]
  · cases lens with
    | nil => rfl
    | cons a lens =>
      simp only [RecordLens.push, RecordLens.of, List.cons_append, List.max?_cons',
        List.foldl_append, List.foldl_cons, List.foldl_nil, Option.elim_some]

lemma RecordLens.foldl_push (lens more : List ℕ) :
    more.foldl RecordLens.push (RecordLens.of lens) = RecordLens.of (lens ++ more) := by
  induction more generalizing lens with
  | nil => rw [List.foldl_nil, List.append_nil]
  | cons len more ih =>
    rw [List.foldl_cons, push_of, ih, List.append_assoc, List.singleton_append]

/-- The lengths of the records of a table, each up to the next offset. -/
def spanLens (last : ℕ) : List ℕ → List ℕ
  | [] => []
  | start :: rest => (rest.head?.getD last - start) :: spanLens last rest

lemma map_spans (last index : ℕ) (offsets : List ℕ) :
    (spans last index offsets).map (fun r => r.2.2 - r.2.1) = spanLens last offsets := by
  induction offsets generalizing index with
  | nil => rfl
  | cons start rest ih => rw [spans, List.map_cons, ih, spanLens]

lemma verifyStep_some {datSize prevOff off : ℕ} {scan : VerifyScan} (h : scan.prev = some prevOff) :
    verifyStep datSize scan (some off) =
      { prev := some off
        offsetOrderViolations :=
          if off ≤ prevOff then scan.offsetOrderViolations + 1 else scan.offsetOrderViolations
        outOfBoundsOffsets :=
          if datSize < off then scan.outOfBoundsOffsets + 1 else scan.outOfBoundsOffsets
        lens := scan.lens.push (off - prevOff) } := by
  by_cases hlt : datSize < off <;> by_cases hle : off ≤ prevOff <;>
    simp [verifyStep, h, hlt, hle]

/-- What the turns behind the first one count: no violation exactly when the offsets increase, none
out of bounds exactly when all are inside the file, and the length of every record but the last. -/
lemma foldl_verifyStep (datSize : ℕ) {start : ℕ} (rest : List ℕ) (scan : VerifyScan)
    (h : scan.prev = some start) :
    (((rest.map some).foldl (verifyStep datSize) scan).offsetOrderViolations = 0 ↔
      scan.offsetOrderViolations = 0 ∧ (start :: rest).IsChain (· < ·)) ∧
    (((rest.map some).foldl (verifyStep datSize) scan).outOfBoundsOffsets = 0 ↔
      scan.outOfBoundsOffsets = 0 ∧ ∀ off ∈ rest, off ≤ datSize) ∧
    ∀ last, ((rest.map some).foldl (verifyStep datSize) scan).lens.push
        (last - rest.getLast?.getD start) =
      (spanLens last (start :: rest)).foldl RecordLens.push scan.lens := by
  induction rest generalizing start scan with
  | nil => simp [spanLens]
  | cons off rest ih =>
    rw [List.map_cons, List.foldl_cons, verifyStep_some h]
    obtain ⟨horder, hbounds, hlens⟩ := ih
      { prev := some off
        offsetOrderViolations :=
          if off ≤ start then scan.offsetOrderViolations + 1 else scan.offsetOrderViolations
        outOfBoundsOffsets :=
          if datSize < off then scan.outOfBoundsOffsets + 1 else scan.outOfBoundsOffsets
        lens := scan.lens.push (off - start) } rfl
    refine ⟨?_, ?_, fun last => ?_⟩
    · rw [horder, List.isChain_cons_cons]
      by_cases hle : off ≤ start
      · simp [hle, hle.not_gt]
      · simp [hle, not_le.mp hle]
    · rw [hbounds, List.forall_mem_cons]
      by_cases hlt : datSize < off
      · simp [hlt, hlt.not_ge]
      · simp [hlt, not_lt.mp hlt]
    · rw [List.getLast?_cons, Option.getD_some, hlens, spanLens]
      rfl

/-! ### The records of a table in order -/

section Spans

variable {last index start : ℕ} {offsets : List ℕ}

/-- Each record ends where the next one starts. -/
lemma isChain_spans (last index : ℕ) (offsets : List ℕ) :
    (spans last index offsets).IsChain fun a b => a.2.2 = b.2.1 := by
  induction offsets generalizing index with
  | nil => exact List.isChain_nil
  | cons start rest ih =>
    cases rest with
    | nil => exact List.isChain_singleton _
    | cons next rest => exact List.isChain_cons_cons.mpr ⟨rfl, ih (index + 1)⟩

lemma le_of_mem_spans (hchain : offsets.IsChain (· < ·)) (hle : ∀ off ∈ offsets, off ≤ last)
    {r : ℕ × ℕ × ℕ} (h : r ∈ spans last index offsets) : r.2.1 ≤ r.2.2 ∧ r.2.2 ≤ last := by
  induction offsets generalizing index with
  | nil => simp [spans] at h
  | cons start rest ih =>
    rw [List.forall_mem_cons] at hle
    rw [spans, List.mem_cons] at h
    rcases h with rfl | h
    · cases rest with
      | nil => exact ⟨hle.1, le_rfl⟩
      | cons next rest =>
        exact ⟨(List.isChain_cons_cons.mp hchain).1.le, hle.2 next List.mem_cons_self⟩
    · exact ih hchain.tail hle.2 h

/-- The records together are the file from the first offset on. -/
lemma flatMap_spans (dat : Bytes) (hchain : (start :: offsets).IsChain (· < ·)) :
    (spans dat.length index (start :: offsets)).flatMap (fun r => Framing.slice dat r.2.1 r.2.2) =
      dat.drop start := by
  induction offsets generalizing start index with
  | nil => simp [spans, Framing.slice]
  | cons next rest ih =>
    rw [List.isChain_cons_cons] at hchain
    rw [spans, List.flatMap_cons, ih hchain.2]
    exact Framing.slice_append_drop dat hchain.1.le

end Spans

end Hci

namespace HciFile

open Hci

variable (file : HciFile)

/-- The offsets of the table. -/
def offsets : List ℕ := (chunksExact 4 file.indexMmap).map u32FromBeBytes

lemma length_offsets : file.offsets.length = file.len := by
  rw [offsets, List.length_map, length_chunksExact (by decide), len]

lemma offsets_ne_nil : file.offsets ≠ [] := by
  rw [ne_eq, ← List.length_eq_zero_iff, length_offsets, len]
  have hpos := List.length_pos_iff.mpr file.nonempty
  have hwhole := file.whole
  omega

lemma map_offset : (List.range file.len).map file.offset = file.offsets.map some := by
  rw [← length_offsets]
  refine List.ext_getElem (by simp) fun i hi _ => ?_
  rw [List.length_map, List.length_range] at hi
  rw [List.getElem_map, List.getElem_range, List.getElem_map, offset_eq, ← offsets,
    List.getElem?_eq_getElem hi]

/-- What the verifier reports of the table. -/
lemma verify_eq : ((verify file).offsetOrderViolations = 0 ↔ file.offsets.IsChain (· < ·)) ∧
    ((verify file).outOfBoundsOffsets = 0 ↔ ∀ off ∈ file.offsets, off ≤ file.datMmap.length) ∧
    (verify file).firstOffset = file.offsets.head? ∧
    (⟨(verify file).zeroLengthRecords, (verify file).minRecordLen, (verify file).maxRecordLen⟩ :
      RecordLens) = RecordLens.of (spanLens file.datMmap.length file.offsets) := by
  obtain ⟨start, rest, hoffsets⟩ := List.exists_cons_of_ne_nil file.offsets_ne_nil
  have hlen : file.len = rest.length + 1 := by
    rw [← length_offsets, hoffsets, List.length_cons]
  have hloop : (List.range file.len).foldl
      (fun scan i => verifyStep file.datMmap.length scan (file.offset i)) .start =
      (rest.map some).foldl (verifyStep file.datMmap.length)
        (verifyStep file.datMmap.length .start (some start)) := by
    rw [← List.foldl_map, map_offset, hoffsets]
    rfl
  have hlast : file.offset (file.len - 1) = some (rest.getLast?.getD start) := by
    rw [offset_eq, ← offsets, ← length_offsets, ← List.getLast?_eq_getElem?, hoffsets,
      List.getLast?_cons]
  obtain ⟨horder, hbounds, hlens⟩ := foldl_verifyStep file.datMmap.length rest
    (verifyStep file.datMmap.length .start (some start)) rfl
  have hstart : verifyStep file.datMmap.length .start (some start) =
      ⟨some start, 0, if file.datMmap.length < start then 1 else 0, RecordLens.of []⟩ := by
    by_cases hlt : file.datMmap.length < start <;>
      simp [verifyStep, VerifyScan.start, RecordLens.of, hlt]
  rw [hstart] at horder hbounds hlens
  refine ⟨?_, ?_, ?_, ?_⟩
  · simp only [verify, hloop, hstart, horder, hoffsets, true_and]
  · simp only [verify, hloop, hstart, hbounds, hoffsets, List.forall_mem_cons]
    simp
  · rw [verify, offset_eq, ← offsets, List.head?_eq_getElem?]
  · have hlens := hlens file.datMmap.length
    rw [RecordLens.foldl_push, List.nil_append, ← hoffsets] at hlens
    rw [← hlens]
    have hne : file.len ≠ 0 := by omega
    simp only [verify, hloop, hstart, hlast, hne, if_false]

/-- The record of a stretch of the file. -/
def spanRecord (r : ℕ × ℕ × ℕ) : RawHciRecord :=
  ⟨r.1, r.2.1, r.2.2 - r.2.1, Framing.slice file.datMmap r.2.1 r.2.2⟩

/-- On offsets that increase inside the file, the reader cuts out the records of the table. -/
lemma map_rawRecord (hchain : file.offsets.IsChain (· < ·))
    (hle : ∀ off ∈ file.offsets, off ≤ file.datMmap.length) :
    (List.range file.len).map file.rawRecord =
      ((spans file.datMmap.length 0 file.offsets).map file.spanRecord).map some := by
  rw [spans_eq, length_offsets, List.map_map, List.map_map]
  refine List.map_congr_left fun i hi => ?_
  have hlt : i < file.offsets.length := by
    rw [length_offsets]
    exact List.mem_range.mp hi
  have hmem : (0 + i, file.offsets.getD i 0, (file.offsets[i + 1]?).getD file.datMmap.length) ∈
      spans file.datMmap.length 0 file.offsets := by
    rw [spans_eq]
    exact List.mem_map_of_mem (List.mem_range.mpr hlt)
  obtain ⟨hstart, hstop⟩ := le_of_mem_spans hchain hle hmem
  have hoffset : file.offset i = some (file.offsets.getD i 0) := by
    rw [offset_eq, ← offsets, List.getD_eq_getElem?_getD, List.getElem?_eq_getElem hlt,
      Option.getD_some]
  have hnext : file.offset (i + 1) = file.offsets[i + 1]? := file.offset_eq (i + 1)
  have hcut : ¬ (file.datMmap.length < file.offsets.getD i 0 ∨
      file.datMmap.length < (file.offsets[i + 1]?).getD file.datMmap.length ∨
      (file.offsets[i + 1]?).getD file.datMmap.length < file.offsets.getD i 0) := by
    dsimp only at hstart hstop
    omega
  simp only [rawRecord, hoffset, hnext, Option.bind_eq_bind, Option.bind_some, if_neg hcut,
    Function.comp_apply, spanRecord, Nat.zero_add]
  congr 2
  rw [Framing.slice, List.length_take, List.length_drop]
  dsimp only at hstart hstop
  omega

/-- Where the verifier reports no offset out of order or out of bounds, every record of the table
can be read, the records stand one behind the other and make up the file from the first offset on,
and the reported lengths are those of the records. -/
theorem verify_certifies (file : HciFile) (horder : (verify file).offsetOrderViolations = 0)
    (hbounds : (verify file).outOfBoundsOffsets = 0) :
    ∃ records : List RawHciRecord,
      (List.range file.len).map file.rawRecord = records.map some ∧
      (∀ r ∈ records, r.datOffset + r.rawLen ≤ file.datMmap.length ∧
        r.rawBytes = Framing.slice file.datMmap r.datOffset (r.datOffset + r.rawLen)) ∧
      records.IsChain (fun a b => a.datOffset + a.rawLen = b.datOffset) ∧
      records.Pairwise (fun a b => a.datOffset + a.rawLen ≤ b.datOffset) ∧
      (∃ first, (verify file).firstOffset = some first ∧
        records.flatMap RawHciRecord.rawBytes = file.datMmap.drop first) ∧
      (verify file).minRecordLen = (records.map RawHciRecord.rawLen).min? ∧
      (verify file).maxRecordLen = (records.map RawHciRecord.rawLen).max? ∧
      (verify file).zeroLengthRecords = (records.map RawHciRecord.rawLen).count 0 := by
  obtain ⟨hchain, hle, hfirst, hlens⟩ := file.verify_eq
  rw [hchain] at horder
  rw [hle] at hbounds
  rw [RecordLens.of, ← map_spans _ 0, RecordLens.mk.injEq] at hlens
  have hspan : ∀ r ∈ spans file.datMmap.length 0 file.offsets,
      (file.spanRecord r).datOffset + (file.spanRecord r).rawLen = r.2.2 := by
    intro r hr
    exact Nat.add_sub_cancel' (le_of_mem_spans horder hbounds hr).1
  have hadjacent : ((spans file.datMmap.length 0 file.offsets).map file.spanRecord).IsChain
      fun a b => a.datOffset + a.rawLen = b.datOffset := by
    rw [List.isChain_map]
    refine List.IsChain.imp_of_mem_imp (fun a b ha _ hab => ?_) (isChain_spans _ _ _)
    rw [hspan a ha, hab]
    rfl
  refine ⟨_, file.map_rawRecord horder hbounds, ?_, ?_, ?_, ?_, ?_⟩
  · rw [List.forall_mem_map]
    intro r hr
    rw [hspan r hr]
    exact ⟨(le_of_mem_spans horder hbounds hr).2, rfl⟩
  · exact hadjacent
  · -- the record behind starts where the one in front ends, and ends no earlier
    have htrans : IsTrans RawHciRecord fun a b => a.datOffset + a.rawLen ≤ b.datOffset :=
      ⟨fun a b c hab hbc => by omega⟩
    exact (hadjacent.imp fun a b hab => hab.le).pairwise
  · obtain ⟨first, rest, hoffsets⟩ := List.exists_cons_of_ne_nil file.offsets_ne_nil
    refine ⟨first, by rw [hfirst, hoffsets, List.head?_cons], ?_⟩
    rw [hoffsets] at horder ⊢
    rw [List.flatMap_map]
    exact flatMap_spans file.datMmap horder
  · rw [List.map_map]
    exact ⟨hlens.2.1, hlens.2.2, hlens.1⟩

/-- Three records behind a byte of padding. -/
def threeRecordPair : HciFile where
  indexMmap := [0, 0, 0, 1, 0, 0, 0, 4, 0, 0, 0, 8]
  datMmap := ascii "#aaabbbbcc"
  keyIndex := []
  publicationYears := []
  whole := by decide
  nonempty := by decide
  built := by decide +kernel

theorem verify_certifies_threeRecordPair : ∃ records : List RawHciRecord,
    (List.range threeRecordPair.len).map threeRecordPair.rawRecord = records.map some ∧
      (verify threeRecordPair).minRecordLen = (records.map RawHciRecord.rawLen).min? := by
  obtain ⟨records, hrecords, -, -, -, -, hmin, -⟩ :=
    verify_certifies threeRecordPair (by decide +kernel) (by decide +kernel)
  exact ⟨records, hrecords, hmin⟩

end HciFile

end Callbook
