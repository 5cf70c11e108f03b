import Callbook.Boundary.Basic

/-!
# Bounds of boundaries

A header's box is widened until it holds the points below it. Each of its sides is then the outermost
of the header's own and the points', where a literal that is no number is passed over.
-/

namespace Callbook

open Text

/-! ### The outermost of several numbers -/

namespace F64

variable {a b c : F64}

lemma le_self (h : a.value ≠ none) : a.Le a := by
  obtain ⟨x, hx⟩ := Option.ne_none_iff_exists'.mp h
  exact ⟨x, hx, x, hx, le_rfl⟩

lemma Le.trans (hab : a.Le b) (hbc : b.Le c) : a.Le c := by
  obtain ⟨x, hx, y, hy, hxy⟩ := hab
  obtain ⟨y', hy', z, hz, hyz⟩ := hbc
  rw [Option.mem_def.mp hy, Option.mem_def, Option.some.injEq] at hy'
  exact ⟨x, hx, z, hz, hxy.trans (hy' ▸ hyz)⟩

lemma Le.value_ne_none (h : a.Le b) : a.value ≠ none ∧ b.value ≠ none := by
  obtain ⟨x, hx, y, hy, -⟩ := h
  rw [Option.mem_def.mp hx, Option.mem_def.mp hy]
  exact ⟨Option.some_ne_none x, Option.some_ne_none y⟩

/-- Of two numbers `choose` takes the one that is `outer`, and a number rather than none. -/
structure Chooses (choose : F64 → F64 → F64) (outer : F64 → F64 → Prop) : Prop where
  eq_or : ∀ a b, choose a b = a ∨ choose a b = b
  left : ∀ a b, a.value ≠ none → outer (choose a b) a
  right : ∀ a b, b.value ≠ none → outer (choose a b) b
  self : ∀ a, a.value ≠ none → outer a a
  trans : ∀ a b c, outer a b → outer b c → outer a c
  value : ∀ a b, outer a b → a.value ≠ none
  keep : ∀ a b, outer a b → choose a b = a
  skip : ∀ a b, a.value ≠ none → b.value = none → choose a b = a
  take : ∀ a b, a.value = none → choose a b = b

lemma chooses_min : Chooses min Le where
  eq_or a b := by
    rw [min]
    split
    · exact .inr rfl
    · exact .inl rfl
    · split_ifs
      · exact .inl rfl
      · exact .inr rfl
  left a b ha := by
    rw [min]
    split
    next h => exact absurd h ha
    next => exact le_self ha
    next x y hx hy =>
      split_ifs with hle
      · exact le_self ha
      · exact ⟨y, hy, x, hx, (not_le.mp hle).le⟩
  right a b hb := by
    rw [min]
    split
    next => exact le_self hb
    next h _ => exact absurd h hb
    next x y hx hy =>
      split_ifs with hle
      · exact ⟨x, hx, y, hy, hle⟩
      · exact le_self hb
  self _ := le_self
  trans _ _ _ := Le.trans
  value _ _ h := h.value_ne_none.1
  keep a b h := by
    obtain ⟨x, hx, y, hy, hxy⟩ := h
    simp [min, Option.mem_def.mp hx, Option.mem_def.mp hy, hxy]
  skip a b ha hb := by
    obtain ⟨x, hx⟩ := Option.ne_none_iff_exists'.mp ha
    simp [min, hx, hb]
  take a b ha := by simp [min, ha]

lemma chooses_max : Chooses max (fun a b => b.Le a) where
  eq_or a b := by
    rw [max]
    split
    · exact .inr rfl
    · exact .inl rfl
    · split_ifs
      · exact .inl rfl
      · exact .inr rfl
  left a b ha := by
    rw [max]
    split
    next h => exact absurd h ha
    next => exact le_self ha
    next x y hx hy =>
      split_ifs with hle
      · exact le_self ha
      · exact ⟨x, hx, y, hy, (not_le.mp hle).le⟩
  right a b hb := by
    rw [max]
    split
    next => exact le_self hb
    next h _ => exact absurd h hb
    next x y hx hy =>
      split_ifs with hle
      · exact ⟨y, hy, x, hx, hle⟩
      · exact le_self hb
  self _ := le_self
  trans _ _ _ hab hbc := hbc.trans hab
  value _ _ h := h.value_ne_none.2
  keep a b h := by
    obtain ⟨x, hx, y, hy, hxy⟩ := h
    simp [max, Option.mem_def.mp hx, Option.mem_def.mp hy, hxy]
  skip a b ha hb := by
    obtain ⟨x, hx⟩ := Option.ne_none_iff_exists'.mp ha
    simp [max, hx, hb]
  take a b ha := by simp [max, ha]

/-- `x` is the outermost of a start and some numbers; literals that are no number are passed
over. -/
def IsOutermost (outer : F64 → F64 → Prop) (start : F64) (l : List F64) (x : F64) : Prop :=
  (x = start ∨ x ∈ l) ∧ ∀ y, y = start ∨ y ∈ l → y.value ≠ none → outer x y

/-- Choosing one after the other finds the outermost. -/
lemma Chooses.foldl {choose : F64 → F64 → F64} {outer : F64 → F64 → Prop}
    (h : Chooses choose outer) (start : F64) (l : List F64) :
    IsOutermost outer start l (l.foldl choose start) := by
  induction l generalizing start with
  | nil => exact ⟨.inl rfl, fun y hy hvalue => by simp_all [h.self start]⟩
  | cons a l ih =>
    obtain ⟨hmem, houter⟩ := ih (choose start a)
    have hle : ∀ y, y = start ∨ y = a → y.value ≠ none → outer (choose start a) y := by
      rintro y (rfl | rfl)
      · exact h.left y a
      · exact h.right start y
    constructor
    · rw [List.foldl_cons, List.mem_cons]
      rcases hmem with hmem | hmem
      · rw [hmem]
        exact (h.eq_or start a).imp_right .inl
      · exact .inr (.inr hmem)
    · intro y hy hvalue
      rw [List.mem_cons, ← or_assoc] at hy
      rcases hy with hy | hy
      · have hchosen := hle y hy hvalue
        exact h.trans _ _ _ (houter _ (.inl rfl) (h.value _ _ hchosen)) hchosen
      · exact houter y (.inr hy) hvalue

lemma foldl_eq_self {choose : F64 → F64 → F64} {a : F64} {l : List F64}
    (h : ∀ b ∈ l, choose a b = a) : l.foldl choose a = a := by
  induction l with
  | nil => rfl
  | cons b l ih =>
    rw [List.forall_mem_cons] at h
    rw [List.foldl_cons, h.1, ih h.2]

/-- If no literal is a number, the last one is left. -/
lemma Chooses.foldl_of_none {choose : F64 → F64 → F64} {outer : F64 → F64 → Prop}
    (h : Chooses choose outer) {start : F64} (hstart : start.value = none) {l : List F64}
    (hl : ∀ a ∈ l, a.value = none) : l.foldl choose start = l.getLast?.getD start := by
  induction l generalizing start with
  | nil => rfl
  | cons a l ih =>
    rw [List.forall_mem_cons] at hl
    rw [List.foldl_cons, h.take start a hstart, ih hl.1 hl.2]
    cases l <;> simp [List.getLast?_cons]

/-- The outermost of some numbers is not changed by choosing again. -/
lemma Chooses.foldl_foldl {choose : F64 → F64 → F64} {outer : F64 → F64 → Prop}
    (h : Chooses choose outer) (start : F64) (l : List F64) :
    l.foldl choose (l.foldl choose start) = l.foldl choose start := by
  obtain ⟨hmem, houter⟩ := h.foldl start l
  by_cases hvalue : (l.foldl choose start).value = none
  · have hnone : ∀ a, a = start ∨ a ∈ l → a.value = none := fun a ha => by
      by_contra ha'
      exact h.value _ _ (houter a ha ha') hvalue
    have hl : ∀ a ∈ l, a.value = none := fun a ha => hnone a (.inr ha)
    rw [h.foldl_of_none hvalue hl, h.foldl_of_none (hnone start (.inl rfl)) hl]
    cases l.getLast? <;> rfl
  · have hkeep : ∀ a ∈ l, choose (l.foldl choose start) a = l.foldl choose start := by
      intro a ha
      by_cases ha' : a.value = none
      · exact h.skip _ _ hvalue ha'
      · exact h.keep _ _ (houter a (.inr ha) ha')
    exact foldl_eq_self hkeep

end F64

/-! ### Boxes -/

/-- A box is that of a header and of points: each side is the outermost one. -/
structure BoundaryBox.IsHull (start : BoundaryBox) (points : List GeoPoint) (hull : BoundaryBox) :
    Prop where
  minLon : F64.IsOutermost F64.Le start.minLon (points.map GeoPoint.lon) hull.minLon
  maxLon : F64.IsOutermost (fun a b => b.Le a) start.maxLon (points.map GeoPoint.lon) hull.maxLon
  minLat : F64.IsOutermost F64.Le start.minLat (points.map GeoPoint.lat) hull.minLat
  maxLat : F64.IsOutermost (fun a b => b.Le a) start.maxLat (points.map GeoPoint.lat) hull.maxLat

lemma expandBoundsToPoints_eq (bounds : BoundaryBox) (points : List GeoPoint) :
    expandBoundsToPoints bounds points =
      { minLon := (points.map GeoPoint.lon).foldl F64.min bounds.minLon
        maxLon := (points.map GeoPoint.lon).foldl F64.max bounds.maxLon
        minLat := (points.map GeoPoint.lat).foldl F64.min bounds.minLat
        maxLat := (points.map GeoPoint.lat).foldl F64.max bounds.maxLat } := by
  rw [expandBoundsToPoints]
  induction points generalizing bounds with
  | nil => rfl
  | cons point points ih =>
    rw [List.foldl_cons, ih]
    rfl

/-- The widened box is the hull of the box and the points. -/
theorem isHull_expandBoundsToPoints (bounds : BoundaryBox) (points : List GeoPoint) :
    bounds.IsHull points (expandBoundsToPoints bounds points) := by
  rw [expandBoundsToPoints_eq]
  exact ⟨F64.chooses_min.foldl _ _, F64.chooses_max.foldl _ _, F64.chooses_min.foldl _ _,
    F64.chooses_max.foldl _ _⟩

/-- Widening twice is widening once. -/
lemma expandBoundsToPoints_expandBoundsToPoints (bounds : BoundaryBox) (points : List GeoPoint) :
    expandBoundsToPoints (expandBoundsToPoints bounds points) points =
      expandBoundsToPoints bounds points := by
  simp only [expandBoundsToPoints_eq, F64.chooses_min.foldl_foldl, F64.chooses_max.foldl_foldl]

/-! ### Sections of the files -/

lemma foldl_addLine (segment : BoundarySegment) (lines : List Str) :
    lines.foldl BoundarySegment.addLine segment =
      { segment with points := segment.points ++ lines.filterMap parseGeoPoint } := by
  induction lines generalizing segment with
  | nil => simp
  | cons line lines ih =>
    rw [List.foldl_cons, ih, BoundarySegment.addLine, List.filterMap_cons]
    cases parseGeoPoint line with
    | none => rfl
    | some point => simp

lemma foldl_addLine_county (county : UsCountyBoundary) (lines : List Str) :
    lines.foldl UsCountyBoundary.addLine county =
      { county with points := county.points ++ lines.filterMap parseGeoPoint } := by
  induction lines generalizing county with
  | nil => simp
  | cons line lines ih =>
    rw [List.foldl_cons, ih, UsCountyBoundary.addLine, List.filterMap_cons]
    cases parseGeoPoint line with
    | none => rfl
    | some point => simp

lemma points_of_parseBoundaryHeader {header : Str} {segment : BoundarySegment}
    (h : parseBoundaryHeader header = some segment) : segment.points = [] := by
  rw [parseBoundaryHeader] at h
  split at h
  · simp only [Option.bind_eq_bind, Option.bind_eq_some_iff, Option.pure_def,
      Option.some.injEq] at h
    obtain ⟨_, _, _, _, _, _, _, _, _, _, rfl⟩ := h
    rfl
  · cases h

lemma BoundaryFile.segments_eq (text : Str) :
    BoundaryFile.segments text = (boundaryReader.headed (trimmedLines text)).map fun opened =>
      segmentWithPointBounds { opened.1 with points := opened.2.filterMap parseGeoPoint } := by
  rw [BoundaryFile.segments, Sections.Reader.read_eq_map_headed]
  refine List.map_congr_left ?_
  rintro ⟨opened, lines⟩ hopened
  have hpoints : opened.points = [] := by
    obtain ⟨line, -, hline⟩ := Sections.Reader.exists_header_of_mem_headed hopened
    obtain ⟨header, -, hheader⟩ := Option.map_eq_some_iff.mp hline
    exact points_of_parseBoundaryHeader hheader
  simp only [boundaryReader, foldl_addLine, hpoints, List.nil_append]

/-- A boundary file has a segment for each header that is well formed, with the points on the lines
up to the next header, and with the hull of the header's box and these points. -/
theorem BoundaryFile.segments_spec (text : Str) : List.Forall₂ (fun opened segment =>
    segment.nextOffset = opened.1.nextOffset ∧
      segment.points = opened.2.filterMap parseGeoPoint ∧
      opened.1.bounds.IsHull segment.points segment.bounds)
    (boundaryReader.headed (trimmedLines text)) (BoundaryFile.segments text) := by
  rw [BoundaryFile.segments_eq, List.forall₂_map_right_iff, List.forall₂_same]
  rintro ⟨opened, lines⟩ -
  exact ⟨rfl, rfl, isHull_expandBoundsToPoints _ _⟩

/-! ### Counties -/

lemma points_of_usCountyHeader? {line : Str} {county : UsCountyBoundary}
    (h : usCountyHeader? line = some county) : county.points = [] := by
  rw [usCountyHeader?] at h
  split at h
  · cases h
    rfl
  · split_ifs at h
    · cases h
      rfl
    · cases h
      rfl

/-- The file of the counties has a county for each header, with the points on the lines up to the
next header. -/
lemma UsCountyBoundaryDataset.counties_eq (text : Str) :
    (UsCountyBoundaryDataset.open text).counties =
      (usCountyReader.headed (trimmedLines text)).map fun opened =>
        countyWithPointBounds { opened.1 with points := opened.2.filterMap parseGeoPoint } := by
  rw [UsCountyBoundaryDataset.open, Sections.Reader.read_eq_map_headed]
  refine List.map_congr_left ?_
  rintro ⟨opened, lines⟩ hopened
  have hpoints : opened.points = [] := by
    obtain ⟨line, -, hline⟩ := Sections.Reader.exists_header_of_mem_headed hopened
    obtain ⟨county, hcounty, heq⟩ := Option.map_eq_some_iff.mp hline
    cases heq
    exact points_of_usCountyHeader? hcounty
  simp only [usCountyReader, foldl_addLine_county, hpoints, List.nil_append]

/-- The box of one point. -/
def GeoPoint.box (point : GeoPoint) : BoundaryBox := ⟨point.lon, point.lon, point.lat, point.lat⟩

/-- The segments of the counties: their bounds are the hull of the header's box and the points, or
of the points alone where the header has no box. -/
theorem UsCountyBoundaryDataset.boundaryDataset_spec (text : Str) :
    List.Forall₂ (fun opened segment =>
      segment.nextOffset = opened.1.nextOffset.getD 0 ∧
        segment.points = opened.2.filterMap parseGeoPoint ∧
        match opened.1.bounds with
        | some start => start.IsHull segment.points segment.bounds
        | none => ∀ first ∈ segment.points.head?, first.box.IsHull segment.points segment.bounds)
      (usCountyReader.headed (trimmedLines text))
      (UsCountyBoundaryDataset.open text).boundaryDataset.segments := by
  rw [boundaryDataset, counties_eq, List.map_map, List.forall₂_map_right_iff, List.forall₂_same]
  rintro ⟨opened, lines⟩ -
  refine ⟨rfl, rfl, ?_⟩
  simp only [Function.comp_apply, countyWithPointBounds]
  cases opened.bounds with
  | some start => exact isHull_expandBoundsToPoints _ _
  | none =>
    intro first hfirst
    simp only [Option.map_none, Option.getD_none, boundsForPoints, Option.mem_def.mp hfirst]
    exact isHull_expandBoundsToPoints _ _

end Callbook
