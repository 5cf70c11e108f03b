import Callbook.Country.Basic
import Callbook.Dat.Basic

/-!
# Decoded records

A decoded record is `0xb5`, the key `CALL` or `CALL:YYYY`, and tagged values. Decoded bytes are cut
in front of every `0xb5`, and each segment is parsed on its own.
-/

namespace Callbook

open Text

namespace V2Record

/-! ### Segments -/

/-- The position of the first `0xb5` from `searchStart` on. -/
def nextSentinel (decoded : Bytes) (searchStart : ℕ) : Option ℕ :=
  ((decoded.drop searchStart).findIdx? isSentinel).map (searchStart + ·)

/-- A segment's own sentinel is not searched. -/
def searchStart (decoded : Bytes) (start : ℕ) : ℕ :=
  if decoded[start]?.any isSentinel then start + 1 else start

/-- The segments that the loop of `parse_matching_snapshots` visits. -/
def segmentLoop (decoded : Bytes) : ℕ → ℕ → List Bytes
  | 0, _ => []
  | fuel + 1, start =>
    if start < decoded.length then
      let next := (nextSentinel decoded (searchStart decoded start)).getD decoded.length
      Framing.slice decoded start next :: segmentLoop decoded fuel next
    else []

/-- The segments that the loop of `parse_complete_matching_snapshots` visits. -/
def completeLoop (decoded : Bytes) : ℕ → ℕ → List Bytes
  | 0, _ => []
  | fuel + 1, start =>
    if start < decoded.length then
      match nextSentinel decoded (searchStart decoded start) with
      | none => []
      | some next => Framing.slice decoded start next :: completeLoop decoded fuel next
    else []

/-! ### Keys -/

def isTag (b : UInt8) : Bool := 0xb6 ≤ b && b ≤ 0xdf

/-- A byte that ends a value. -/
def endsValue (b : UInt8) : Bool := 0xb5 ≤ b && b ≤ 0xdf

def isPadding (b : UInt8) : Bool := isAsciiWhitespace b || b == 0

def trimAscii (bytes : Bytes) : Bytes := trimBy isPadding bytes

/-- The trimmed text, unless a byte of it is not printable. -/
def cleanAscii (bytes : Bytes) : Option Str :=
  let trimmed := trimAscii bytes
  if trimmed.all isPrintable then some (Utf8.fromUtf8Lossy trimmed) else none

def stripSentinel (segment : Bytes) : Bytes :=
  if segment.head?.any isSentinel then segment.tail else segment

/-- The bytes before the first tag. -/
def keyBytes (segment : Bytes) : Bytes :=
  segment.take ((segment.findIdx? isTag).getD segment.length)

/-- The tags and their values. -/
def tagBytes (segment : Bytes) : Bytes :=
  segment.drop ((segment.findIdx? isTag).getD segment.length)

/-- The key of a segment; one that starts with its colon takes the call of the default key. -/
def segmentKey (segment : Bytes) (defaultKey : Option Bytes) : Option Str := do
  let key ← cleanAscii (keyBytes segment)
  if key.head? = some 0x3a then
    let default ← cleanAscii (← defaultKey)
    some (beforeSep 0x3a default ++ key)
  else some key

def looksLikeKey (key : Str) : Bool :=
  let call := beforeSep 0x3a key
  call ≠ [] && call.length ≤ 12 && call.all isCallsignChar

def splitKey (key : Str) : Option (Str × Option ℕ) :=
  match splitOnce 0x3a key with
  | none => some (key, none)
  | some (call, vintage) => (parseUnsigned 65535 vintage).map fun year => (call, some year)

def asciiEqIgnoreCase (left right : Bytes) : Bool :=
  left.length == right.length && (left.zip right).all fun b => eqIgnoreAsciiCaseByte b.1 b.2

/-- `segment_matches`. -/
def segmentMatches (defaultKey : Option Bytes) (callsign : Str) (segment : Bytes) : Bool :=
  let segment := stripSentinel segment
  if segment = [] then false
  else
    let key := trimAscii (keyBytes segment)
    if ¬ key.all isPrintable then false
    else if key.head? = some 0x3a then
      if key.tail = [] then false
      else
        match defaultKey.map trimAscii with
        | none => false
        | some default => asciiEqIgnoreCase (beforeSep 0x3a default) callsign
    else asciiEqIgnoreCase (beforeSep 0x3a key) callsign

/-! ### Tags -/

/-- `apply_tag`. -/
def applyTag (snapshot : CallSnapshot) (tag : UInt8) (value : Str) : CallSnapshot :=
  match tag with
  | 0xb6 => { snapshot with licenseClass := some value }
  | 0xb7 => { snapshot with recordCode := some value }
  | 0xb8 => { snapshot with firstName := some value }
  | 0xb9 => { snapshot with middleName := some value }
  | 0xba => { snapshot with lastName := some value }
  | 0xbb => { snapshot with suffix := some value }
  | 0xbc | 0xbd | 0xbe => { snapshot with address := some value }
  | 0xbf => { snapshot with city := some value }
  | 0xc0 => { snapshot with stateOrProvince := some value }
  | 0xc1 => { snapshot with postalCode := some value }
  | 0xc2 => { snapshot with birthDate := some value }
  | 0xc3 => { snapshot with firstIssued := some value }
  | 0xc4 => { snapshot with expires := some value }
  | 0xc5 => { snapshot with lastChanged := some value }
  | 0xc6 => { snapshot with county := some value }
  | 0xc7 => { snapshot with gmtOffset := some value }
  | 0xc8 => { snapshot with latitude := some value }
  | 0xc9 => { snapshot with longitude := some value }
  | 0xca => { snapshot with grid := some value }
  | 0xcb => { snapshot with areaCode := some value }
  | 0xcc => { snapshot with previousCall := some value }
  | 0xcd => { snapshot with previousClass := some value }
  | 0xce => { snapshot with fccTransactionType := some value }
  | 0xcf => { snapshot with email := some value }
  | 0xd0 => { snapshot with qsl := some value }
  | 0xd1 => { snapshot with country := some value }
  | 0xd2 => { snapshot with url := some value }
  | 0xd4 => { snapshot with faxNumber := some value }
  | 0xd5 => { snapshot with interestCodesRaw := some value }
  | 0xd7 => { snapshot with licenseId := some value }
  | 0xd9 => { snapshot with frn := some value }
  | 0xda => { snapshot with iota := some value }
  | 0xde => { snapshot with numericId := some value }
  | _ => { snapshot with rawTags := snapshot.rawTags.insert tag value }

/-- The tag loop of `parse_segment`, on what is left of the segment. -/
def tagLoop : ℕ → Bytes → CallSnapshot → CallSnapshot
  | 0, _, snapshot => snapshot
  | _ + 1, [], snapshot => snapshot
  | fuel + 1, tag :: rest, snapshot =>
    if ¬ isTag tag then tagLoop fuel rest snapshot
    else
      let value := rest.takeWhile (!endsValue ·)
      let rest := rest.dropWhile (!endsValue ·)
      match cleanAscii value with
      | none => tagLoop fuel rest snapshot
      | some value =>
        if value = [] then tagLoop fuel rest snapshot
        else tagLoop fuel rest (applyTag snapshot tag value)

/-- The jurisdiction of a snapshot that no country rule located. -/
def inferJurisdiction (snapshot : CallSnapshot) : Jurisdiction :=
  match snapshot.country with
  | some country =>
    if country = ascii "United States" ∨ country = ascii "UNITED STATES" then .unitedStates
    else if country = ascii "Canada" ∨ country = ascii "CANADA" then .canada
    else .international
  | none =>
    if snapshot.stateOrProvince.isSome ∧ snapshot.postalCode.isSome then .unitedStates
    else .unknown

/-- The country rule for a snapshot whose record names no country. -/
def locate (countries : Option CountryTable) (snapshot : CallSnapshot) :
    Except Panic (Option CountryMatch) :=
  match snapshot.country, countries with
  | none, some table => table.lookup snapshot.callsign
  | _, _ => .ok none

def place (snapshot : CallSnapshot) : Option CountryMatch → CallSnapshot
  | some country =>
    { snapshot with country := some country.name, jurisdiction := country.jurisdiction }
  | none =>
    if snapshot.jurisdiction = .unknown then
      { snapshot with jurisdiction := inferJurisdiction snapshot }
    else snapshot

/-- `apply_country`. -/
def applyCountry (countries : Option CountryTable) (snapshot : CallSnapshot) :
    Except Panic CallSnapshot := do
  let country ← locate countries snapshot
  pure (place snapshot country)

/-- `apply_interests`. -/
def applyInterests (interests : Option InterestTable) (snapshot : CallSnapshot) : CallSnapshot :=
  match snapshot.interestCodesRaw with
  | none => snapshot
  | some raw =>
    { snapshot with
      interestCodes := InterestTable.codes raw
      interests :=
        match interests with
        | none => snapshot.interests
        | some table => table.resolveRaw raw }

/-! ### Parsing -/

section

variable (defaultKey : Option Bytes) (source : SnapshotSource) (countries : Option CountryTable)
  (interests : Option InterestTable)

/-- `parse_segment`. -/
def parseSegment (segment : Bytes) : Except Panic (Option CallSnapshot) :=
  let segment := stripSentinel segment
  if segment = [] then .ok none
  else
    match segmentKey segment defaultKey with
    | none => .ok none
    | some key =>
      if ¬ looksLikeKey key then .ok none
      else
        match splitKey key with
        | none => .ok none
        | some (callsign, vintage) => do
          let tagged := tagLoop segment.length (tagBytes segment) (.new callsign vintage source)
          let located ← applyCountry countries tagged
          pure (some (applyInterests interests located))

/-- `parse_snapshots`. -/
def parseSnapshots (decoded : Bytes) : Except Panic (List CallSnapshot) :=
  Panic.collect (fun _ => true) (parseSegment defaultKey source countries interests)
    (segmentLoop decoded decoded.length 0)

/-- `parse_matching_snapshots`. -/
def parseMatchingSnapshots (callsign : Str) (decoded : Bytes) : Except Panic (List CallSnapshot) :=
  Panic.collect (segmentMatches defaultKey callsign)
    (parseSegment defaultKey source countries interests) (segmentLoop decoded decoded.length 0)

/-- `parse_complete_matching_snapshots`. -/
def parseCompleteMatchingSnapshots (callsign : Str) (decoded : Bytes) :
    Except Panic (List CallSnapshot) :=
  Panic.collect (segmentMatches defaultKey callsign)
    (parseSegment defaultKey source countries interests) (completeLoop decoded decoded.length 0)

end

end V2Record

end Callbook
