import Callbook.Boundary.Bounds

/-!
# Writing boundary files back

What a boundary file is read as can be written as a file again, and that file is read as the same.
Nothing that the reader keeps is lost, whichever of the header styles the first file had.
-/

namespace Callbook

open Text Utf8

/-! ### Literals are words -/

namespace F64

/-- A number that was read from a literal. -/
def IsRead (x : F64) : Prop := isLiteral x.literal

lemma isRead_of_parse {s : Str} {x : F64} (h : parse s = some x) : x.IsRead := by
  rw [parse] at h
  split_ifs at h with hs
  cases h
  exact hs

lemma parse_literal {x : F64} (h : x.IsRead) : parse x.literal = some x := if_pos h

lemma eq_or_mem_dropSign {b : UInt8} {s : Bytes} (h : b ∈ s) :
    b = 0x2b ∨ b = 0x2d ∨ b ∈ dropSign s := by
  cases s with
  | nil => cases h
  | cons a s =>
    rw [dropSign]
    split_ifs with hsign
    · rcases List.mem_cons.mp h with rfl | h
      · simp only [Bool.or_eq_true, beq_iff_eq] at hsign
        rcases hsign with h | h
        · exact .inl h
        · exact .inr (.inl h)
      · exact .inr (.inr h)
    · exact .inr (.inr h)

/-- A character that can stand in a literal. -/
def isLiteralChar (b : UInt8) : Bool :=
  isAsciiDigit b || isAsciiUppercase b || isAsciiLowercase b || b == 0x2b || b == 0x2d || b == 0x2e

lemma isLiteralChar_of_isExponent {s : Bytes} (h : isExponent s) : ∀ b ∈ s, isLiteralChar b := by
  cases s with
  | nil => simp
  | cons a s =>
    simp only [isExponent, Bool.and_eq_true, Bool.or_eq_true, beq_iff_eq, List.all_eq_true] at h
    obtain ⟨⟨ha, -⟩, hdigits⟩ := h
    intro b hb
    rcases List.mem_cons.mp hb with rfl | hb
    · rcases ha with rfl | rfl <;> decide
    · rcases eq_or_mem_dropSign hb with rfl | rfl | hb
      · decide
      · decide
      · simp [isLiteralChar, hdigits b hb]

/-- Digits in front of characters of literals. -/
lemma isLiteralChar_of_dropWhile {s : Bytes}
    (h : ∀ b ∈ s.dropWhile isAsciiDigit, isLiteralChar b) : ∀ b ∈ s, isLiteralChar b := by
  intro b hb
  rw [← List.takeWhile_append_dropWhile (p := isAsciiDigit) (l := s), List.mem_append] at hb
  rcases hb with hb | hb
  · simp [isLiteralChar, List.mem_takeWhile_imp hb]
  · exact h b hb

lemma isLiteralChar_of_lowercase {s t : Bytes} (h : s.map toAsciiLowercaseByte = t)
    (ht : t ≠ [] ∧ ∀ b ∈ t, isAsciiLowercase b) : s ≠ [] ∧ ∀ b ∈ s, isLiteralChar b := by
  constructor
  · rintro rfl
    exact ht.1 h.symm
  · intro b hb
    have := ht.2 _ (h ▸ List.mem_map_of_mem hb)
    grind [toAsciiLowercaseByte, isAsciiLowercase, isAsciiUppercase, isLiteralChar]

/-- The characters of a literal without its sign. -/
lemma isLiteralChar_dropSign {s : Bytes} (h : isLiteral s) :
    dropSign s ≠ [] ∧ ∀ b ∈ dropSign s, isLiteralChar b := by
  rw [isLiteral] at h
  simp only at h
  split_ifs at h with hname
  · rcases hname with hname | hname | hname
    · exact isLiteralChar_of_lowercase hname (by decide +kernel)
    · exact isLiteralChar_of_lowercase hname (by decide +kernel)
    · exact isLiteralChar_of_lowercase hname (by decide +kernel)
  · split at h
    next rest hrest =>
      rw [Bool.and_eq_true] at h
      refine ⟨?_, isLiteralChar_of_dropWhile fun b hb => ?_⟩
      · rintro hnil
        rw [hnil] at hrest
        cases hrest
      · rw [hrest] at hb
        rcases List.mem_cons.mp hb with rfl | hb
        · decide
        · exact isLiteralChar_of_dropWhile (isLiteralChar_of_isExponent h.2) b hb
    next =>
      rw [Bool.and_eq_true, decide_eq_true_eq] at h
      refine ⟨?_, isLiteralChar_of_dropWhile (isLiteralChar_of_isExponent h.2)⟩
      rintro hnil
      rw [hnil] at h
      exact h.1 rfl

lemma isLiteralChar_literal {x : F64} (h : x.IsRead) : ∀ b ∈ x.literal, isLiteralChar b := by
  intro b hb
  rcases eq_or_mem_dropSign hb with rfl | rfl | hb
  · decide
  · decide
  · exact (isLiteralChar_dropSign h).2 b hb

/-- A literal is one word. -/
lemma isWord_literal {x : F64} (h : x.IsRead) : IsWord x.literal := by
  constructor
  · intro hnil
    have hne := (isLiteralChar_dropSign h).1
    rw [hnil] at hne
    exact hne rfl
  · intro b hb
    have := isLiteralChar_literal h b hb
    grind [isLiteralChar, isAsciiDigit, isAsciiUppercase, isAsciiLowercase, isAsciiGraphic]

end F64

/-! ### Lines -/

/-- Lines with a line feed each. -/
def textOf (l : List Str) : Str := l.flatMap (· ++ [0x0a])

/-- A line that stands in a text as the reader takes it. -/
def IsTrimmedLine (line : Str) : Prop := IsLine line ∧ IsTrimmed line

lemma trimmedLines_textOf {l : List Str} (h : ∀ line ∈ l, IsTrimmedLine line) :
    trimmedLines (textOf l) = l := by
  have hmap : l.map trim = l := by
    refine (List.map_congr_left fun line hline => (h line hline).2.2).trans (List.map_id l)
  rw [trimmedLines, textOf, lines_flatMap fun line hline => (h line hline).1, hmap]
  exact List.filter_eq_self.mpr fun line hline => by simpa using (h line hline).2.1

lemma isTrimmedLine_joinWords {words : List Bytes} (hne : words ≠ [])
    (h : ∀ word ∈ words, IsWord word) : IsTrimmedLine (joinWords words) :=
  ⟨isLine_joinWords h, isTrimmed_joinWords hne h⟩

lemma isWord_decimal (n : ℕ) : IsWord (decimal n) :=
  ⟨decimal_ne_nil n, fun b hb => by
    have := isAsciiDigit_of_mem_decimal b hb
    grind [isAsciiDigit, isAsciiGraphic]⟩

lemma parseUnsigned_decimal {max n : ℕ} (h : n ≤ max) : parseUnsigned max (decimal n) = some n := by
  rw [parseUnsigned_eq_parseDigits (decimal_ne_nil n), parseDigits_decimal h]
  intro b hb
  have := isAsciiDigit_of_mem_decimal b (List.mem_of_mem_head? hb)
  grind [isAsciiDigit]

/-! ### Points -/

/-- Coordinates that were read from literals. -/
def GeoPoint.IsRead (point : GeoPoint) : Prop := point.lon.IsRead ∧ point.lat.IsRead

/-- The line of a point. -/
def GeoPoint.line (point : GeoPoint) : Str := joinWords [point.lon.literal, point.lat.literal]

lemma isRead_of_parseGeoPoint {line : Str} {point : GeoPoint}
    (h : parseGeoPoint line = some point) : point.IsRead := by
  rw [parseGeoPoint] at h
  split at h
  · simp only [Option.bind_eq_bind, Option.bind_eq_some_iff, Option.pure_def,
      Option.some.injEq] at h
    obtain ⟨lon, hlon, lat, hlat, rfl⟩ := h
    exact ⟨F64.isRead_of_parse hlon, F64.isRead_of_parse hlat⟩
  · cases h

namespace GeoPoint

variable {point : GeoPoint}

lemma IsRead.isWord (h : point.IsRead) :
    ∀ word ∈ [point.lon.literal, point.lat.literal], IsWord word := by
  intro word hword
  rw [List.mem_cons, List.mem_singleton] at hword
  rcases hword with rfl | rfl
  · exact F64.isWord_literal h.1
  · exact F64.isWord_literal h.2

lemma parseGeoPoint_line (h : point.IsRead) : parseGeoPoint point.line = some point := by
  rw [parseGeoPoint, line, splitWhitespace_joinWords h.isWord]
  simp [F64.parse_literal h.1, F64.parse_literal h.2]

lemma isTrimmedLine_line (h : point.IsRead) : IsTrimmedLine point.line :=
  isTrimmedLine_joinWords (List.cons_ne_nil _ _) h.isWord

/-- The line of a point is not taken for a header. -/
lemma notMem_line (h : point.IsRead) : 0x23 ∉ point.line ∧ 0x2a ∉ point.line := by
  have hchars : ∀ b ∈ point.line, F64.isLiteralChar b ∨ b = 0x20 := by
    intro b hb
    simp only [line, joinWords, List.mem_append, List.mem_cons] at hb
    rcases hb with hb | rfl | hb
    · exact .inl (F64.isLiteralChar_literal h.1 b hb)
    · exact .inr rfl
    · exact .inl (F64.isLiteralChar_literal h.2 b hb)
  constructor
  · intro hmem
    rcases hchars _ hmem with h | h <;> revert h <;> decide
  · intro hmem
    rcases hchars _ hmem with h | h <;> revert h <;> decide

lemma boundaryHeader?_line (h : point.IsRead) : boundaryHeader? point.line = none := by
  rw [boundaryHeader?, if_neg]
  intro hpre
  exact (notMem_line h).1 (hpre.subset (by decide))

lemma usCountyHeader?_line (h : point.IsRead) : usCountyHeader? point.line = none := by
  rw [usCountyHeader?, boundaryHeader?_line h]
  simp only
  have hhead : point.line.head? ≠ some 0x23 :=
    fun h' => (notMem_line h).1 (List.mem_of_mem_head? h')
  rw [if_neg hhead, if_neg (notMem_line h).2]

end GeoPoint

lemma boundaryHeader?_append (header : Str) :
    boundaryHeader? (ascii "# -b " ++ header) = some header := by
  rw [boundaryHeader?, if_pos (List.prefix_append _ _), List.drop_left]

/-! ### `wc.dat` and `cb.dat` -/

/-- The sides of a box come from literals. -/
structure BoundaryBox.IsRead (box : BoundaryBox) : Prop where
  minLon : box.minLon.IsRead
  maxLon : box.maxLon.IsRead
  minLat : box.minLat.IsRead
  maxLat : box.maxLat.IsRead

namespace BoundarySegment

/-- A segment that was read: its numbers come from literals, its offset fits. -/
structure IsRead (segment : BoundarySegment) : Prop where
  bounds : segment.bounds.IsRead
  nextOffset : segment.nextOffset ≤ Usize.max
  points : ∀ point ∈ segment.points, point.IsRead

/-- The words of a bounds header. -/
def headerWords (segment : BoundarySegment) : List Bytes :=
  [segment.bounds.minLon.literal, segment.bounds.maxLon.literal, segment.bounds.minLat.literal,
    segment.bounds.maxLat.literal, decimal segment.nextOffset]

/-- The lines of a segment. -/
def lines (segment : BoundarySegment) : List Str :=
  (ascii "# -b " ++ joinWords segment.headerWords) :: segment.points.map GeoPoint.line

variable {segment : BoundarySegment}

lemma IsRead.isWord (h : segment.IsRead) : ∀ word ∈ segment.headerWords, IsWord word := by
  simp only [headerWords, List.forall_mem_cons]
  exact ⟨F64.isWord_literal h.bounds.minLon, F64.isWord_literal h.bounds.maxLon,
    F64.isWord_literal h.bounds.minLat, F64.isWord_literal h.bounds.maxLat, isWord_decimal _,
    fun _ h => nomatch h⟩

lemma parseBoundaryHeader_joinWords (h : segment.IsRead) :
    parseBoundaryHeader (joinWords segment.headerWords) =
      some { bounds := segment.bounds, nextOffset := segment.nextOffset, points := [] } := by
  rw [parseBoundaryHeader, splitWhitespace_joinWords h.isWord]
  simp [headerWords, F64.parse_literal h.bounds.minLon, F64.parse_literal h.bounds.maxLon,
    F64.parse_literal h.bounds.minLat, F64.parse_literal h.bounds.maxLat,
    parseUnsigned_decimal h.nextOffset]

lemma IsRead.isTrimmedLine (h : segment.IsRead) : ∀ line ∈ segment.lines, IsTrimmedLine line := by
  rw [lines, List.forall_mem_cons, List.forall_mem_map]
  refine ⟨?_, fun point hpoint => point.isTrimmedLine_line (h.points point hpoint)⟩
  have hwords : ∀ word ∈ ascii "#" :: ascii "-b" :: segment.headerWords, IsWord word := by
    rw [List.forall_mem_cons, List.forall_mem_cons]
    exact ⟨by decide +kernel, by decide +kernel, h.isWord⟩
  exact isTrimmedLine_joinWords (List.cons_ne_nil _ _) hwords

lemma filterMap_parseGeoPoint {points : List GeoPoint} (h : ∀ point ∈ points, point.IsRead) :
    (points.map GeoPoint.line).filterMap parseGeoPoint = points := by
  rw [List.filterMap_map]
  refine (List.filterMap_congr fun point hpoint => ?_).trans (List.filterMap_some)
  exact GeoPoint.parseGeoPoint_line (h point hpoint)

lemma IsRead.read_lines (h : segment.IsRead) :
    boundaryReader.read segment.lines = [segmentWithPointBounds segment] := by
  have hheader : boundaryReader.header (ascii "# -b " ++ joinWords segment.headerWords) =
      some (some { segment with points := [] }) := by
    simp only [boundaryReader, boundaryHeader?_append, Option.map_some,
      parseBoundaryHeader_joinWords h]
  have hbody : ∀ line ∈ segment.points.map GeoPoint.line,
      boundaryReader.isHeader line = false := by
    rw [List.forall_mem_map]
    intro point hpoint
    simp [Sections.Reader.isHeader, boundaryReader,
      GeoPoint.boundaryHeader?_line (h.points point hpoint)]
  rw [lines, Sections.Reader.read_cons hheader hbody]
  simp only [boundaryReader, foldl_addLine, filterMap_parseGeoPoint h.points, List.nil_append]

lemma isHeader_of_mem_head?_lines : ∀ line ∈ segment.lines.head?, boundaryReader.isHeader line := by
  intro line hline
  rw [lines, List.head?_cons, Option.mem_def, Option.some.injEq] at hline
  rw [← hline, Sections.Reader.isHeader, boundaryReader]
  simp only [boundaryHeader?_append, Option.map_some, Option.isSome_some]

end BoundarySegment

/-- The text of a file with the given segments. -/
def BoundaryFile.write (segments : List BoundarySegment) : Str :=
  textOf (segments.flatMap BoundarySegment.lines)

/-- Segments are read back with the box of their points. -/
lemma BoundaryFile.segments_write {segments : List BoundarySegment}
    (h : ∀ segment ∈ segments, segment.IsRead) :
    BoundaryFile.segments (write segments) = segments.map segmentWithPointBounds := by
  have hlines : ∀ line ∈ segments.flatMap BoundarySegment.lines, IsTrimmedLine line := by
    rw [List.forall_mem_flatMap]
    exact fun segment hsegment => (h segment hsegment).isTrimmedLine
  rw [BoundaryFile.segments, write, trimmedLines_textOf hlines]
  exact Sections.Reader.read_flatMap (fun _ _ => BoundarySegment.isHeader_of_mem_head?_lines)
    fun segment hsegment => (h segment hsegment).read_lines

/-! ### What is read can be written -/

lemma le_of_parseUnsigned {max n : ℕ} {s : Str} (h : parseUnsigned max s = some n) : n ≤ max := by
  have hdigits : ∀ {t : Bytes}, parseDigits max t = some n → n ≤ max :=
    fun ht => (parseDigits_eq_some_iff.mp ht).2.2
  match s with
  | [] => cases h
  | [b] =>
    rw [parseUnsigned] at h
    split_ifs at h
    exact hdigits h
  | b :: c :: s =>
    rw [parseUnsigned] at h
    split_ifs at h
    · exact hdigits h
    · exact hdigits h

lemma F64.IsOutermost.isRead {outer : F64 → F64 → Prop} {start x : F64} {l : List F64}
    (h : IsOutermost outer start l x) (hstart : start.IsRead) (hl : ∀ a ∈ l, a.IsRead) :
    x.IsRead := by
  rcases h.1 with rfl | hmem
  · exact hstart
  · exact hl x hmem

lemma BoundaryBox.IsHull.isRead {start hull : BoundaryBox} {points : List GeoPoint}
    (h : start.IsHull points hull) (hstart : start.IsRead)
    (hpoints : ∀ point ∈ points, point.IsRead) : hull.IsRead := by
  have hlon : ∀ a ∈ points.map GeoPoint.lon, a.IsRead :=
    List.forall_mem_map.mpr fun point hpoint => (hpoints point hpoint).1
  have hlat : ∀ a ∈ points.map GeoPoint.lat, a.IsRead :=
    List.forall_mem_map.mpr fun point hpoint => (hpoints point hpoint).2
  exact ⟨h.minLon.isRead hstart.minLon hlon, h.maxLon.isRead hstart.maxLon hlon,
    h.minLat.isRead hstart.minLat hlat, h.maxLat.isRead hstart.maxLat hlat⟩

lemma isRead_of_mem_filterMap {lines : List Str} :
    ∀ point ∈ lines.filterMap parseGeoPoint, point.IsRead := by
  intro point hpoint
  obtain ⟨line, -, hline⟩ := List.mem_filterMap.mp hpoint
  exact isRead_of_parseGeoPoint hline

lemma isRead_of_parseBoundaryHeader {header : Str} {segment : BoundarySegment}
    (h : parseBoundaryHeader header = some segment) : segment.IsRead := by
  rw [parseBoundaryHeader] at h
  split at h
  · simp only [Option.bind_eq_bind, Option.bind_eq_some_iff, Option.pure_def,
      Option.some.injEq] at h
    obtain ⟨minLon, hminLon, maxLon, hmaxLon, minLat, hminLat, maxLat, hmaxLat, nextOffset,
      hnextOffset, rfl⟩ := h
    exact
      { bounds := ⟨F64.isRead_of_parse hminLon, F64.isRead_of_parse hmaxLon,
          F64.isRead_of_parse hminLat, F64.isRead_of_parse hmaxLat⟩
        nextOffset := le_of_parseUnsigned hnextOffset
        points := by simp }
  · cases h

lemma BoundaryFile.isRead_of_mem_segments {text : Str} :
    ∀ segment ∈ BoundaryFile.segments text, segment.IsRead := by
  rw [BoundaryFile.segments_eq, List.forall_mem_map]
  rintro ⟨opened, lines⟩ hopened
  obtain ⟨line, -, hline⟩ := Sections.Reader.exists_header_of_mem_headed hopened
  obtain ⟨header, -, hheader⟩ := Option.map_eq_some_iff.mp hline
  have hread := isRead_of_parseBoundaryHeader hheader
  exact
    { bounds := (isHull_expandBoundsToPoints _ _).isRead hread.bounds isRead_of_mem_filterMap
      nextOffset := hread.nextOffset
      points := isRead_of_mem_filterMap }

lemma segmentWithPointBounds_segmentWithPointBounds (segment : BoundarySegment) :
    segmentWithPointBounds (segmentWithPointBounds segment) = segmentWithPointBounds segment := by
  simp only [segmentWithPointBounds, expandBoundsToPoints_expandBoundsToPoints]

/-- What a boundary file is read as can be written, and the written file is read as the same. -/
theorem BoundaryFile.segments_write_segments (text : Str) :
    BoundaryFile.segments (write (BoundaryFile.segments text)) = BoundaryFile.segments text := by
  rw [segments_write isRead_of_mem_segments, BoundaryFile.segments_eq, List.map_map]
  refine List.map_congr_left fun opened _ => ?_
  exact segmentWithPointBounds_segmentWithPointBounds _

/-! ### `USCOUN.DAT` -/

/-- A field that can stand in a header. -/
structure IsHeaderField (field : Str) : Prop where
  trim : Utf8.trim field = field
  notMem_star : 0x2a ∉ field
  notMem_feed : 0x0a ∉ field

lemma isHeaderField_nil : IsHeaderField [] := ⟨rfl, List.not_mem_nil, List.not_mem_nil⟩

lemma isHeaderField_of_isWord {word : Str} (h : IsWord word) (hstar : 0x2a ∉ word) :
    IsHeaderField word :=
  ⟨trim_eq_self h.2, hstar, fun hfeed => absurd (h.2 _ hfeed) (by decide)⟩

lemma F64.isHeaderField_literal {x : F64} (h : x.IsRead) : IsHeaderField x.literal :=
  isHeaderField_of_isWord (isWord_literal h) fun hstar =>
    absurd (isLiteralChar_literal h _ hstar) (by decide)

lemma isHeaderField_decimal (n : ℕ) : IsHeaderField (decimal n) :=
  isHeaderField_of_isWord (isWord_decimal n) fun hstar =>
    absurd (isAsciiDigit_of_mem_decimal _ hstar) (by decide)

namespace UsCountyBoundary

/-- A county that was read. -/
structure IsRead (county : UsCountyBoundary) : Prop where
  id : ∀ id ∈ county.id, id ≠ [] ∧ IsHeaderField id
  name : ∀ name ∈ county.name, name ≠ [] ∧ IsHeaderField name
  bounds : ∀ box ∈ county.bounds, box.IsRead
  nextOffset : ∀ nextOffset ∈ county.nextOffset, nextOffset ≤ Usize.max
  points : ∀ point ∈ county.points, point.IsRead

/-- The fields of the sides of a box. -/
def boundsFields : Option BoundaryBox → List Str
  | none => [[], [], [], []]
  | some box => [box.minLon.literal, box.maxLon.literal, box.minLat.literal, box.maxLat.literal]

/-- The fields of a header; what the county does not have is left blank. -/
def headerFields (county : UsCountyBoundary) : List Str :=
  county.id.getD [] :: county.name.getD [] ::
    (boundsFields county.bounds ++ [(county.nextOffset.map decimal).getD []])

variable {county : UsCountyBoundary}

lemma IsRead.isHeaderField (h : county.IsRead) :
    ∀ field ∈ county.headerFields, IsHeaderField field := by
  have htext : ∀ {text : Option Str}, (∀ t ∈ text, t ≠ [] ∧ IsHeaderField t) →
      IsHeaderField (text.getD []) := by
    intro text htext
    cases text with
    | none => exact isHeaderField_nil
    | some t => exact (htext t rfl).2
  rw [headerFields, List.forall_mem_cons, List.forall_mem_cons, List.forall_mem_append,
    List.forall_mem_singleton]
  refine ⟨htext h.id, htext h.name, ?_, ?_⟩
  · cases hbounds : county.bounds with
    | none => simp [boundsFields, isHeaderField_nil]
    | some box =>
      have hbox := h.bounds box hbounds
      simp [boundsFields, F64.isHeaderField_literal hbox.minLon,
        F64.isHeaderField_literal hbox.maxLon, F64.isHeaderField_literal hbox.minLat,
        F64.isHeaderField_literal hbox.maxLat]
  · cases county.nextOffset with
    | none => exact isHeaderField_nil
    | some nextOffset => exact isHeaderField_decimal nextOffset

lemma headerBounds_boundsFields (h : county.IsRead) (fields : List Str) :
    headerBounds (boundsFields county.bounds ++ fields) = county.bounds := by
  cases hbounds : county.bounds with
  | none => rfl
  | some box =>
    have hbox := h.bounds box hbounds
    simp [boundsFields, headerBounds, F64.parse_literal hbox.minLon,
      F64.parse_literal hbox.maxLon, F64.parse_literal hbox.minLat, F64.parse_literal hbox.maxLat]

lemma length_boundsFields (bounds : Option BoundaryBox) : (boundsFields bounds).length = 4 := by
  cases bounds <;> rfl

lemma someField_getD {text : Option Str} (h : ∀ t ∈ text, t ≠ [] ∧ IsHeaderField t) :
    someField (some (text.getD [])) = text := by
  cases text with
  | none => rfl
  | some t => simp [someField, Option.filter, (h t rfl).1]

/-- A header is read back. -/
lemma parseUsCountyHeader_intercalate (h : county.IsRead) :
    parseUsCountyHeader ([0x2a].intercalate county.headerFields) = { county with points := [] } := by
  have hstar : 0x2a ∈ [(0x2a : UInt8)].intercalate county.headerFields := by
    simp [headerFields, List.intercalate_cons_cons]
  have hsplit : ([(0x2a : UInt8)].intercalate county.headerFields).splitOn 0x2a =
      county.headerFields :=
    List.splitOn_intercalate _ (fun field hfield => (h.isHeaderField field hfield).notMem_star)
      (List.cons_ne_nil _ _)
  have hmap : county.headerFields.map Utf8.trim = county.headerFields :=
    (List.map_congr_left fun field hfield => (h.isHeaderField field hfield).trim).trans
      (List.map_id _)
  have hoffset : (boundsFields county.bounds ++ [(county.nextOffset.map decimal).getD []])[4]? =
      some ((county.nextOffset.map decimal).getD []) := by
    rw [List.getElem?_append_right (by rw [length_boundsFields]), length_boundsFields]
    rfl
  simp only [parseUsCountyHeader, if_pos hstar, hsplit, hmap]
  simp only [headerFields, List.drop_succ_cons, List.drop_zero, List.getElem?_cons_zero,
    List.getElem?_cons_succ, hoffset, headerBounds_boundsFields h, someField_getD h.id,
    someField_getD h.name]
  cases hnext : county.nextOffset with
  | none => rfl
  | some nextOffset => simp [parseUnsigned_decimal (h.nextOffset nextOffset hnext)]

/-- The line of a header. -/
def headerLine (county : UsCountyBoundary) : Str := 0x23 :: [0x2a].intercalate county.headerFields

lemma IsRead.trim_intercalate (h : county.IsRead) :
    Utf8.trim ([0x2a].intercalate county.headerFields) = [0x2a].intercalate county.headerFields :=
  Utf8.trim_intercalate (by decide) fun field hfield => (h.isHeaderField field hfield).trim

lemma usCountyHeader?_headerLine (h : county.IsRead) :
    usCountyHeader? county.headerLine = some { county with points := [] } := by
  have htrim := h.trim_intercalate
  have hbounds : boundaryHeader? county.headerLine = none := by
    rw [boundaryHeader?, if_neg]
    intro hpre
    -- The fields do not start with a space, as the bounds in the other header style do.
    have hspace := (trim_ends (b := 0x20) (by decide) ([0x2a].intercalate county.headerFields)).1
    rw [htrim] at hspace
    obtain ⟨rest, hrest⟩ := (List.cons_prefix_cons.mp hpre).2
    exact hspace (by rw [← hrest]; rfl)
  rw [usCountyHeader?, hbounds]
  simp only [headerLine, List.head?_cons, List.tail_cons, htrim, if_true,
    parseUsCountyHeader_intercalate h]

/-- The lines of a county. -/
def lines (county : UsCountyBoundary) : List Str :=
  county.headerLine :: county.points.map GeoPoint.line

lemma IsRead.isTrimmedLine (h : county.IsRead) : ∀ line ∈ county.lines, IsTrimmedLine line := by
  rw [lines, List.forall_mem_cons, List.forall_mem_map]
  refine ⟨?_, fun point hpoint => point.isTrimmedLine_line (h.points point hpoint)⟩
  have hfeed : 0x0a ∉ county.headerLine := by
    rw [headerLine, List.mem_cons, not_or]
    exact ⟨by decide, notMem_intercalate (by decide) fun field hfield =>
      (h.isHeaderField field hfield).notMem_feed⟩
  have htrim : Utf8.trim county.headerLine = county.headerLine :=
    trim_append_cons (s := []) rfl (by decide) h.trim_intercalate
  have hlast := (trim_ends (b := 0x0d) (by decide) county.headerLine).2
  rw [htrim] at hlast
  exact ⟨⟨hfeed, hlast⟩, List.cons_ne_nil _ _, htrim⟩

lemma IsRead.read_lines (h : county.IsRead) :
    usCountyReader.read county.lines = [countyWithPointBounds county] := by
  have hheader : usCountyReader.header county.headerLine =
      some (some { county with points := [] }) := by
    simp only [usCountyReader, usCountyHeader?_headerLine h, Option.map_some]
  have hbody : ∀ line ∈ county.points.map GeoPoint.line,
      usCountyReader.isHeader line = false := by
    rw [List.forall_mem_map]
    intro point hpoint
    simp [Sections.Reader.isHeader, usCountyReader,
      GeoPoint.usCountyHeader?_line (h.points point hpoint)]
  rw [lines, Sections.Reader.read_cons hheader hbody]
  simp only [usCountyReader, foldl_addLine_county, List.nil_append,
    BoundarySegment.filterMap_parseGeoPoint h.points]

lemma IsRead.isHeader_of_mem_head?_lines (h : county.IsRead) :
    ∀ line ∈ county.lines.head?, usCountyReader.isHeader line := by
  intro line hline
  rw [lines, List.head?_cons, Option.mem_def, Option.some.injEq] at hline
  rw [← hline, Sections.Reader.isHeader, usCountyReader]
  simp only [usCountyHeader?_headerLine h, Option.map_some, Option.isSome_some]

end UsCountyBoundary

namespace UsCountyBoundaryDataset

/-- The text of a file with the given counties. -/
def write (dataset : UsCountyBoundaryDataset) : Str :=
  textOf (dataset.counties.flatMap UsCountyBoundary.lines)

/-- Counties are read back with the box of their points. -/
lemma open_write {dataset : UsCountyBoundaryDataset}
    (h : ∀ county ∈ dataset.counties, county.IsRead) :
    UsCountyBoundaryDataset.open dataset.write = ⟨dataset.counties.map countyWithPointBounds⟩ := by
  have hlines : ∀ line ∈ dataset.counties.flatMap UsCountyBoundary.lines, IsTrimmedLine line := by
    rw [List.forall_mem_flatMap]
    exact fun county hcounty => (h county hcounty).isTrimmedLine
  rw [UsCountyBoundaryDataset.open, write, trimmedLines_textOf hlines,
    Sections.Reader.read_flatMap
      (fun county hcounty => (h county hcounty).isHeader_of_mem_head?_lines)
      fun county hcounty => (h county hcounty).read_lines]

/-! ### What is read can be written -/

lemma isRead_of_headerBounds {fields : List Str} {box : BoundaryBox}
    (h : headerBounds fields = some box) : box.IsRead := by
  match fields, h with
  | _ :: _ :: _ :: _ :: _, h =>
    simp only [headerBounds, Option.bind_eq_bind, Option.bind_eq_some_iff, Option.pure_def,
      Option.some.injEq] at h
    obtain ⟨minLon, hminLon, maxLon, hmaxLon, minLat, hminLat, maxLat, hmaxLat, rfl⟩ := h
    exact ⟨F64.isRead_of_parse hminLon, F64.isRead_of_parse hmaxLon,
      F64.isRead_of_parse hminLat, F64.isRead_of_parse hmaxLat⟩

lemma isHeaderField_of_mem_fields {header : Str} (hfeed : 0x0a ∉ header) {field : Str}
    (h : field ∈ (header.splitOn (if 0x2a ∈ header then 0x2a else 0x7c)).map Utf8.trim) :
    IsHeaderField field := by
  obtain ⟨part, hpart, rfl⟩ := List.mem_map.mp h
  refine ⟨trim_trim part, fun hstar => ?_, fun h =>
    hfeed (mem_of_mem_splitOn hpart (mem_of_mem_trim h))⟩
  have hmem := mem_of_mem_splitOn hpart (mem_of_mem_trim hstar)
  rw [if_pos hmem] at hpart
  exact notMem_of_mem_splitOn hpart (mem_of_mem_trim hstar)

lemma isHeaderField_of_mem_someField {fields : List Str}
    (h : ∀ field ∈ fields, IsHeaderField field) (i : ℕ) :
    ∀ field ∈ someField fields[i]?, field ≠ [] ∧ IsHeaderField field := by
  intro field hfield
  rw [someField, Option.mem_def, Option.filter_eq_some_iff, decide_eq_true_eq] at hfield
  exact ⟨hfield.2, h field (List.mem_of_getElem? hfield.1)⟩

lemma isRead_parseUsCountyHeader {header : Str} (hfeed : 0x0a ∉ header) :
    (parseUsCountyHeader header).IsRead := by
  have hfields : ∀ field ∈ (header.splitOn (if 0x2a ∈ header then 0x2a else 0x7c)).map Utf8.trim,
      IsHeaderField field := fun _ hfield => isHeaderField_of_mem_fields hfeed hfield
  exact
    { id := isHeaderField_of_mem_someField hfields 0
      name := isHeaderField_of_mem_someField hfields 1
      bounds := fun box hbox => isRead_of_headerBounds hbox
      nextOffset := fun nextOffset hnext => by
        obtain ⟨field, -, hfield⟩ := Option.bind_eq_some_iff.mp hnext
        exact le_of_parseUnsigned hfield
      points := by simp [parseUsCountyHeader] }

lemma isRead_of_usCountyHeader? {line : Str} (hfeed : 0x0a ∉ line) {county : UsCountyBoundary}
    (h : usCountyHeader? line = some county) : county.IsRead := by
  rw [usCountyHeader?] at h
  split at h
  next header _ =>
    cases h
    exact
      { id := by simp
        name := by simp
        bounds := fun box hbox => by
          obtain ⟨segment, hsegment, rfl⟩ := Option.map_eq_some_iff.mp hbox
          exact (isRead_of_parseBoundaryHeader hsegment).bounds
        nextOffset := fun nextOffset hnext => by
          obtain ⟨segment, hsegment, rfl⟩ := Option.map_eq_some_iff.mp hnext
          exact (isRead_of_parseBoundaryHeader hsegment).nextOffset
        points := by simp }
  next =>
    split_ifs at h
    · cases h
      exact isRead_parseUsCountyHeader fun h => hfeed (List.mem_of_mem_tail (mem_of_mem_trim h))
    · cases h
      exact isRead_parseUsCountyHeader hfeed

lemma notMem_of_mem_trimmedLines {text line : Str} (h : line ∈ trimmedLines text) :
    0x0a ∉ line := by
  obtain ⟨raw, hraw, rfl⟩ := List.mem_map.mp (List.mem_of_mem_filter h)
  exact fun hfeed => notMem_of_mem_lines hraw (mem_of_mem_trim hfeed)

lemma isRead_of_mem_counties {text : Str} :
    ∀ county ∈ (UsCountyBoundaryDataset.open text).counties, county.IsRead := by
  rw [counties_eq, List.forall_mem_map]
  rintro ⟨opened, lines⟩ hopened
  obtain ⟨line, hmem, hline⟩ := Sections.Reader.exists_header_of_mem_headed hopened
  obtain ⟨county, hcounty, heq⟩ := Option.map_eq_some_iff.mp hline
  cases heq
  have hread := isRead_of_usCountyHeader? (notMem_of_mem_trimmedLines hmem) hcounty
  refine ⟨hread.id, hread.name, fun box hbox => ?_, hread.nextOffset, isRead_of_mem_filterMap⟩
  obtain ⟨start, hstart, rfl⟩ := Option.map_eq_some_iff.mp hbox
  exact (isHull_expandBoundsToPoints _ _).isRead (hread.bounds start hstart)
    isRead_of_mem_filterMap

lemma countyWithPointBounds_countyWithPointBounds (county : UsCountyBoundary) :
    countyWithPointBounds (countyWithPointBounds county) = countyWithPointBounds county := by
  simp only [countyWithPointBounds, Option.map_map, Function.comp_def,
    expandBoundsToPoints_expandBoundsToPoints]

/-- What the file of the counties is read as can be written, and the written file is read as the
same, whichever of the header styles the first one had. -/
theorem open_write_open (text : Str) :
    UsCountyBoundaryDataset.open (UsCountyBoundaryDataset.open text).write =
      UsCountyBoundaryDataset.open text := by
  have hmap : (UsCountyBoundaryDataset.open text).counties.map countyWithPointBounds =
      (UsCountyBoundaryDataset.open text).counties := by
    rw [counties_eq, List.map_map]
    exact List.map_congr_left fun opened _ => countyWithPointBounds_countyWithPointBounds _
  rw [open_write isRead_of_mem_counties, hmap]

end UsCountyBoundaryDataset

end Callbook
