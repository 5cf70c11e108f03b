import Callbook.Country.Catalog
import Callbook.Library.Lines
import Callbook.Library.Sections
import Callbook.Library.Usize

/-!
# Boundary files

`wc.dat` and `cb.dat` hold boundary segments, `USCOUN.DAT` the boundaries of counties. A header line
opens a segment or county, and the coordinates on the lines below it belong to it.
-/

namespace Callbook

open Text

/-! ### Numbers -/

namespace F64

/-- The digits of a literal and its power of ten as one rational number. -/
def decimalNumber (body : Bytes) : ℚ :=
  let whole := body.takeWhile isAsciiDigit
  let rest := body.dropWhile isAsciiDigit
  let fraction := if rest.head? = some 0x2e then rest.tail.takeWhile isAsciiDigit else []
  let exponent :=
    (if rest.head? = some 0x2e then rest.tail.dropWhile isAsciiDigit else rest).tail
  let power : ℤ :=
    if exponent.head? = some 0x2d then -(decimalValue (dropSign exponent) : ℤ)
    else (decimalValue (dropSign exponent) : ℤ)
  (decimalValue (whole ++ fraction) : ℚ) * 10 ^ (power - (fraction.length : ℤ))

/-- The value of a literal before it is rounded, none for a literal that is no number. Rounding
keeps the order, so the least of some values can be chosen here. -/
def value (x : F64) : Option (WithBot (WithTop ℚ)) :=
  let body := dropSign x.literal
  let lower := body.map toAsciiLowercaseByte
  let negative := x.literal.head? = some 0x2d
  if lower = ascii "nan" then none
  else if lower = ascii "inf" ∨ lower = ascii "infinity" then
    some (if negative then ⊥ else ((⊤ : WithTop ℚ) : WithBot (WithTop ℚ)))
  else
    let number := if negative then -decimalNumber body else decimalNumber body
    some ((number : WithTop ℚ) : WithBot (WithTop ℚ))

/-- `a <= b`; a literal that is no number compares with nothing. -/
def Le (a b : F64) : Prop := ∃ x ∈ a.value, ∃ y ∈ b.value, x ≤ y

/-- `f64::min`: the other argument, if one is no number. -/
def min (a b : F64) : F64 :=
  match a.value, b.value with
  | none, _ => b
  | _, none => a
  | some x, some y => if x ≤ y then a else b

/-- `f64::max`. -/
def max (a b : F64) : F64 :=
  match a.value, b.value with
  | none, _ => b
  | _, none => a
  | some x, some y => if y ≤ x then a else b

/-- The literal `0.0`. -/
def zero : F64 := ⟨ascii "0.0"⟩

end F64

/-! ### Boxes -/

/-- Bounding box for a map boundary segment. -/
structure BoundaryBox where
  minLon : F64
  maxLon : F64
  minLat : F64
  maxLat : F64
  deriving DecidableEq, Repr

/-- One round of `expand_bounds_to_points`. -/
def BoundaryBox.expand (bounds : BoundaryBox) (point : GeoPoint) : BoundaryBox where
  minLon := bounds.minLon.min point.lon
  maxLon := bounds.maxLon.max point.lon
  minLat := bounds.minLat.min point.lat
  maxLat := bounds.maxLat.max point.lat

/-- `expand_bounds_to_points`. -/
def expandBoundsToPoints (bounds : BoundaryBox) (points : List GeoPoint) : BoundaryBox :=
  points.foldl BoundaryBox.expand bounds

/-- `bounds_for_points`. -/
def boundsForPoints (points : List GeoPoint) : BoundaryBox :=
  match points.head? with
  | none => ⟨.zero, .zero, .zero, .zero⟩
  | some first => expandBoundsToPoints ⟨first.lon, first.lon, first.lat, first.lat⟩ points

/-! ### Lines -/

/-- The lines of a text, trimmed; blank ones are left out. -/
def trimmedLines (text : Str) : List Str :=
  ((lines text).map Utf8.trim).filter fun line => line ≠ []

/-- `parse_geo_point`. -/
def parseGeoPoint (line : Str) : Option GeoPoint :=
  match Utf8.splitWhitespace line with
  | lon :: lat :: _ => do
    let lon ← F64.parse lon
    let lat ← F64.parse lat
    pure { lon, lat }
  | _ => none

/-- `strip_prefix` of the start of a bounds header. -/
def boundaryHeader? (line : Str) : Option Str :=
  if ascii "# -b " <+: line then some (line.drop (ascii "# -b ").length) else none

/-! ### `wc.dat` and `cb.dat` -/

/-- One boundary segment from `wc.dat` or `cb.dat`. -/
structure BoundarySegment where
  bounds : BoundaryBox
  nextOffset : ℕ
  points : List GeoPoint
  deriving DecidableEq, Repr

/-- `parse_boundary_header`. -/
def parseBoundaryHeader (header : Str) : Option BoundarySegment :=
  match Utf8.splitWhitespace header with
  | [minLon, maxLon, minLat, maxLat, nextOffset] => do
    let minLon ← F64.parse minLon
    let maxLon ← F64.parse maxLon
    let minLat ← F64.parse minLat
    let maxLat ← F64.parse maxLat
    let nextOffset ← parseUnsigned Usize.max nextOffset
    pure { bounds := { minLon, maxLon, minLat, maxLat }, nextOffset, points := [] }
  | _ => none

/-- `segment_with_point_bounds`. -/
def segmentWithPointBounds (segment : BoundarySegment) : BoundarySegment :=
  { segment with bounds := expandBoundsToPoints segment.bounds segment.points }

/-- A line of coordinates adds a point, any other line does nothing. -/
def BoundarySegment.addLine (segment : BoundarySegment) (line : Str) : BoundarySegment :=
  match parseGeoPoint line with
  | none => segment
  | some point => { segment with points := segment.points ++ [point] }

/-- The loop of `BoundaryFile::open`. -/
def boundaryReader : Sections.Reader Str BoundarySegment where
  header line := (boundaryHeader? line).map parseBoundaryHeader
  body := BoundarySegment.addLine
  close := segmentWithPointBounds

inductive BoundaryKind where
  | world
  | county
  | usCounty
  deriving DecidableEq, Repr

/-- Parsed semantic boundary dataset. -/
structure BoundaryDataset where
  kind : BoundaryKind
  segments : List BoundarySegment
  deriving DecidableEq, Repr

/-- `BoundaryFile::open`, the text already read. -/
def BoundaryFile.segments (text : Str) : List BoundarySegment :=
  boundaryReader.read (trimmedLines text)

namespace BoundaryDataset

/-- `BoundaryDataset::open`. -/
def «open» (text : Str) (kind : BoundaryKind) : BoundaryDataset :=
  ⟨kind, BoundaryFile.segments text⟩

/-- `BoundaryDataset::point_count`. -/
def pointCount (dataset : BoundaryDataset) : ℕ :=
  (dataset.segments.map fun segment => segment.points.length).sum

end BoundaryDataset

/-! ### `USCOUN.DAT` -/

/-- One county record from `USCOUN.DAT`. -/
structure UsCountyBoundary where
  id : Option Str
  name : Option Str
  bounds : Option BoundaryBox
  nextOffset : Option ℕ
  points : List GeoPoint
  deriving DecidableEq, Repr

/-- A field that is not blank. -/
def someField (field : Option Str) : Option Str := field.filter fun value => value ≠ []

/-- The bounds in the third to sixth field of a header. -/
def headerBounds : List Str → Option BoundaryBox
  | minLon :: maxLon :: minLat :: maxLat :: _ => do
    let minLon ← F64.parse minLon
    let maxLon ← F64.parse maxLon
    let minLat ← F64.parse minLat
    let maxLat ← F64.parse maxLat
    pure { minLon, maxLon, minLat, maxLat }
  | _ => none

/-- `parse_us_county_header`. -/
def parseUsCountyHeader (header : Str) : UsCountyBoundary :=
  let separator : UInt8 := if 0x2a ∈ header then 0x2a else 0x7c
  let fields := (header.splitOn separator).map Utf8.trim
  let values := fields.drop 2
  { id := someField fields[0]?
    name := someField fields[1]?
    bounds := headerBounds values
    nextOffset := values[4]?.bind (parseUnsigned Usize.max)
    points := [] }

/-- `county_with_point_bounds`. -/
def countyWithPointBounds (county : UsCountyBoundary) : UsCountyBoundary :=
  { county with bounds := county.bounds.map (expandBoundsToPoints · county.points) }

/-- The county that a header line opens. -/
def usCountyHeader? (line : Str) : Option UsCountyBoundary :=
  match boundaryHeader? line with
  | some header =>
    let segment := parseBoundaryHeader header
    some
      { id := none
        name := none
        bounds := segment.map BoundarySegment.bounds
        nextOffset := segment.map BoundarySegment.nextOffset
        points := [] }
  | none =>
    if line.head? = some 0x23 then some (parseUsCountyHeader (Utf8.trim line.tail))
    else if 0x2a ∈ line then some (parseUsCountyHeader line)
    else none

def UsCountyBoundary.addLine (county : UsCountyBoundary) (line : Str) : UsCountyBoundary :=
  match parseGeoPoint line with
  | none => county
  | some point => { county with points := county.points ++ [point] }

/-- The loop of `UsCountyBoundaryDataset::open`. -/
def usCountyReader : Sections.Reader Str UsCountyBoundary where
  header line := (usCountyHeader? line).map some
  body := UsCountyBoundary.addLine
  close := countyWithPointBounds

/-- Parsed `USCOUN.DAT` county boundary sidecar. -/
structure UsCountyBoundaryDataset where
  counties : List UsCountyBoundary
  deriving DecidableEq, Repr

namespace UsCountyBoundaryDataset

/-- `UsCountyBoundaryDataset::open`, the text already read. -/
def «open» (text : Str) : UsCountyBoundaryDataset := ⟨usCountyReader.read (trimmedLines text)⟩

/-- `UsCountyBoundaryDataset::boundary_dataset`. -/
def boundaryDataset (dataset : UsCountyBoundaryDataset) : BoundaryDataset where
  kind := .usCounty
  segments := dataset.counties.map fun county =>
    { bounds := county.bounds.getD (boundsForPoints county.points)
      nextOffset := county.nextOffset.getD 0
      points := county.points }

end UsCountyBoundaryDataset

end Callbook
