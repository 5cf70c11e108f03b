import Callbook.Library.ByteOrder
import Callbook.Library.Sections
import Mathlib.Algebra.Order.Ring.Nat
import Mathlib.Algebra.Field.Rat
import Mathlib.Tactic.FieldSimp

/-!
# The packed state map

`state.dat` is a stream of six-byte triples: a drawing command and two coordinates in arc-minutes. A
large command starts a path, and the triples up to the next start are drawn on it.
-/

namespace Callbook

/-! ### Triples -/

/-- `i16::from_le_bytes`. -/
def i16FromLeBytes (low high : UInt8) : Int16 := .ofBitVec (high.toBitVec ++ low.toBitVec)

/-- `i16::to_le_bytes`. -/
def i16ToLeBytes (x : Int16) : Bytes :=
  [⟨x.toBitVec.extractLsb' 0 8⟩, ⟨x.toBitVec.extractLsb' 8 8⟩]

lemma i16ToLeBytes_i16FromLeBytes (low high : UInt8) :
    i16ToLeBytes (i16FromLeBytes low high) = [low, high] := by
  have hlow : (high.toBitVec ++ low.toBitVec).extractLsb' 0 8 = low.toBitVec := by
    ext i hi
    rw [BitVec.getElem_extractLsb', BitVec.getLsbD_append]
    simp [BitVec.getLsbD_eq_getElem, hi]
  have hhigh : (high.toBitVec ++ low.toBitVec).extractLsb' 8 8 = high.toBitVec := by
    ext i hi
    rw [BitVec.getElem_extractLsb', BitVec.getLsbD_append]
    simp [BitVec.getLsbD_eq_getElem, hi]
  rw [i16ToLeBytes, i16FromLeBytes, Int16.toBitVec_ofBitVec, hlow, hhigh]

lemma exists_i16ToLeBytes (x : Int16) :
    ∃ low high, i16ToLeBytes x = [low, high] ∧ i16FromLeBytes low high = x := by
  refine ⟨_, _, rfl, ?_⟩
  have hjoin : x.toBitVec.extractLsb' 8 8 ++ x.toBitVec.extractLsb' 0 8 = x.toBitVec := by
    ext i hi
    simp only [BitVec.getElem_append, BitVec.getElem_extractLsb']
    split
    · simp [hi]
    · grind
  rw [i16FromLeBytes]
  exact congrArg Int16.ofBitVec hjoin

/-- One packed state-map triple from `state.dat`. -/
structure PackedStatePoint where
  command : Int16
  latMinutes : Int16
  lonMinutes : Int16
  deriving DecidableEq

/-- Parsed packed coordinate stream from `state.dat`. -/
structure PackedStateMap where
  points : List PackedStatePoint
  deriving DecidableEq

/-- The triples of a file; less than six bytes at its end are left. -/
def packedStatePoints : Bytes → List PackedStatePoint
  | a :: b :: c :: d :: e :: f :: rest =>
    ⟨i16FromLeBytes a b, i16FromLeBytes c d, i16FromLeBytes e f⟩ :: packedStatePoints rest
  | _ => []

lemma packedStatePoints_eq_nil_iff {bytes : Bytes} :
    packedStatePoints bytes = [] ↔ bytes.length < 6 := by
  match bytes with
  | [] | [_] | [_, _] | [_, _, _] | [_, _, _, _] | [_, _, _, _, _] => simp [packedStatePoints]
  | _ :: _ :: _ :: _ :: _ :: _ :: rest => simp [packedStatePoints]

/-- `PackedStateMap::open`, the bytes already read. -/
def PackedStateMap.open (bytes : Bytes) : PackedStateMap := ⟨packedStatePoints bytes⟩

/-- The bytes of a triple. -/
def PackedStatePoint.bytes (point : PackedStatePoint) : Bytes :=
  i16ToLeBytes point.command ++ i16ToLeBytes point.latMinutes ++ i16ToLeBytes point.lonMinutes

lemma packedStatePoints_append (point : PackedStatePoint) (rest : Bytes) :
    packedStatePoints (point.bytes ++ rest) = point :: packedStatePoints rest := by
  obtain ⟨a, b, hcommand, hcommand'⟩ := exists_i16ToLeBytes point.command
  obtain ⟨c, d, hlat, hlat'⟩ := exists_i16ToLeBytes point.latMinutes
  obtain ⟨e, f, hlon, hlon'⟩ := exists_i16ToLeBytes point.lonMinutes
  rw [PackedStatePoint.bytes, hcommand, hlat, hlon]
  simp only [List.cons_append, List.nil_append, packedStatePoints, hcommand', hlat', hlon']

/-- A file holds the triples that it is read as, in this order, and less than a triple behind
them. -/
theorem PackedStateMap.open_eq_iff {bytes : Bytes} {map : PackedStateMap} :
    PackedStateMap.open bytes = map ↔
      ∃ rest, rest.length < 6 ∧ bytes = map.points.flatMap PackedStatePoint.bytes ++ rest := by
  obtain ⟨points⟩ := map
  rw [PackedStateMap.open, PackedStateMap.mk.injEq]
  constructor
  · rintro rfl
    fun_induction packedStatePoints bytes with
    | case1 a b c d e f rest ih =>
      obtain ⟨tail, htail, hrest⟩ := ih
      refine ⟨tail, htail, ?_⟩
      rw [List.flatMap_cons, List.append_assoc, ← hrest]
      simp only [PackedStatePoint.bytes, i16ToLeBytes_i16FromLeBytes, List.cons_append,
        List.nil_append]
    | case2 bytes hshort =>
      exact ⟨bytes, packedStatePoints_eq_nil_iff.mp (packedStatePoints.eq_2 bytes hshort), rfl⟩
  · rintro ⟨rest, hrest, rfl⟩
    induction points with
    | nil => exact packedStatePoints_eq_nil_iff.mpr hrest
    | cons point points ih =>
      rw [List.flatMap_cons, List.append_assoc, packedStatePoints_append, ih]

/-! ### Paths -/

/-- A position in degrees, before it is rounded to a binary number. -/
structure StateGeoPoint where
  lat : ℚ
  lon : ℚ
  deriving DecidableEq

/-- One renderable vector path from `state.dat`. -/
structure StateVectorSegment where
  command : Int16
  points : List StateGeoPoint
  deriving DecidableEq

/-- Renderable vector-path dataset decoded from `state.dat`. -/
structure StateVectorDataset where
  segments : List StateVectorSegment
  deriving DecidableEq

/-- `StateVectorDataset::point_count`. -/
def StateVectorDataset.pointCount (dataset : StateVectorDataset) : ℕ :=
  (dataset.segments.map fun segment => segment.points.length).sum

/-- `state_vector_geo_point`. -/
def stateVectorGeoPoint (point : PackedStatePoint) : StateGeoPoint where
  lat := point.latMinutes.toInt / 60
  lon := point.lonMinutes.toInt / 60

/-- A triple that starts a path. -/
def PackedStatePoint.isStart (point : PackedStatePoint) : Bool := 10 < point.command

/-- The loop of `PackedStateMap::vector_dataset`. -/
def stateVectorReader : Sections.Reader PackedStatePoint StateVectorSegment where
  header point :=
    if point.isStart then some (some ⟨point.command, [stateVectorGeoPoint point]⟩) else none
  body segment point := { segment with points := segment.points ++ [stateVectorGeoPoint point] }
  close segment := segment

/-- `PackedStateMap::vector_dataset`. -/
def PackedStateMap.vectorDataset (map : PackedStateMap) : StateVectorDataset :=
  ⟨stateVectorReader.read map.points⟩

lemma isHeader_stateVectorReader (point : PackedStatePoint) :
    stateVectorReader.isHeader point = point.isStart := by
  rw [Sections.Reader.isHeader, stateVectorReader]
  simp only
  cases point.isStart <;> rfl

/-- The path of a start and the triples up to the next one. -/
def vectorPath (f : PackedStatePoint × List PackedStatePoint) : StateVectorSegment :=
  ⟨f.1.command, (f.1 :: f.2).map stateVectorGeoPoint⟩

lemma foldl_body (segment : StateVectorSegment) (points : List PackedStatePoint) :
    points.foldl stateVectorReader.body segment =
      { segment with points := segment.points ++ points.map stateVectorGeoPoint } := by
  induction points generalizing segment with
  | nil => simp
  | cons point points ih =>
    rw [List.foldl_cons, ih]
    simp [stateVectorReader]

lemma section?_stateVectorReader {f : PackedStatePoint × List PackedStatePoint}
    (h : f.1.isStart) : stateVectorReader.section? (f.1 :: f.2) = some (vectorPath f) := by
  have hheader : stateVectorReader.header f.1 =
      some (some ⟨f.1.command, [stateVectorGeoPoint f.1]⟩) := if_pos h
  rw [Sections.Reader.section?, hheader, Option.join_some, Option.map_some, foldl_body]
  rfl

lemma countP_frames {frames : List (PackedStatePoint × List PackedStatePoint)}
    (h : ∀ f ∈ frames, f.1.isStart ∧ ∀ point ∈ f.2, point.isStart = false) :
    (frames.flatMap fun f => f.1 :: f.2).countP (·.isStart) = frames.length := by
  induction frames with
  | nil => rfl
  | cons f frames ih =>
    rw [List.forall_mem_cons] at h
    have hrest : f.2.countP (·.isStart) = 0 :=
      List.countP_eq_zero.mpr fun point hpoint => by simp [h.1.2 point hpoint]
    rw [List.flatMap_cons, List.countP_append, List.countP_cons_of_pos h.1.1, hrest, ih h.2,
      List.length_cons, Nat.zero_add, Nat.add_comm]

/-- Behind the triples in front of the first start, the map is a path for each start with the
triples up to the next one; the dataset has these paths in order and drops no coordinate of them. -/
theorem PackedStateMap.vectorDataset_spec (map : PackedStateMap) :
    (∃ frames : List (PackedStatePoint × List PackedStatePoint),
      map.points.dropWhile (!·.isStart) = frames.flatMap (fun f => f.1 :: f.2) ∧
        (∀ f ∈ frames, f.1.isStart ∧ ∀ point ∈ f.2, point.isStart = false) ∧
        map.vectorDataset.segments = frames.map vectorPath) ∧
      map.vectorDataset.segments.length = map.points.countP (·.isStart) ∧
      map.vectorDataset.pointCount = (map.points.dropWhile (!·.isStart)).length := by
  obtain ⟨frames, hpoints, hframes⟩ := stateVectorReader.exists_frames map.points
  have hdrop : map.points.dropWhile (!·.isStart) = frames.flatMap fun f => f.1 :: f.2 := by
    simp only [isHeader_stateVectorReader] at hpoints
    exact List.append_cancel_left (List.takeWhile_append_dropWhile.trans hpoints)
  have hfront : ∀ point ∈ map.points.takeWhile (!stateVectorReader.isHeader ·),
      stateVectorReader.isHeader point = false :=
    fun point hpoint => by simpa using List.mem_takeWhile_imp hpoint
  have hsegments : map.vectorDataset.segments = frames.map vectorPath := by
    have hread := Sections.Reader.read_frames hfront hframes
    rw [← hpoints] at hread
    rw [vectorDataset, hread, ← List.filterMap_eq_map]
    refine List.filterMap_congr fun f hf => section?_stateVectorReader ?_
    rw [← isHeader_stateVectorReader]
    exact (hframes f hf).1
  simp only [isHeader_stateVectorReader] at hframes hfront
  refine ⟨⟨frames, hdrop, hframes, hsegments⟩, ?_, ?_⟩
  · have hcount : (map.points.takeWhile (!·.isStart)).countP (·.isStart) = 0 :=
      List.countP_eq_zero.mpr fun point hpoint => by simpa using List.mem_takeWhile_imp hpoint
    rw [hsegments, List.length_map, ← List.takeWhile_append_dropWhile (p := (!·.isStart))
      (l := map.points), List.countP_append, hcount, Nat.zero_add, hdrop]
    exact (countP_frames hframes).symm
  · rw [StateVectorDataset.pointCount, hsegments, hdrop, List.map_map, List.length_flatMap]
    congr 1
    refine List.map_congr_left fun f _ => ?_
    simp [vectorPath]

end Callbook
