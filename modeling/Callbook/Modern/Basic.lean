import Callbook.Library.StableSort
import Callbook.Interest.Basic
import Callbook.UsCsv.Basic

/-!
# Lookup records

The snapshots a lookup returns, and how snapshots of one station are merged.
-/

namespace Callbook

/-- High-level lookup outcome. -/
inductive LookupStatus where
  | current
  | archiveOnly
  | notFound
  deriving DecidableEq, Repr

/-- Source that contributed a snapshot, in the derived order. -/
inductive SnapshotSource where
  | usCsv
  | hamCallDatIdx
  | hamCallHci
  deriving DecidableEq, Repr, Ord

/-- Country/jurisdiction classification. -/
inductive Jurisdiction where
  | unitedStates
  | canada
  | international
  | unknown
  deriving DecidableEq, Repr

/-- One current or historical callsign snapshot. -/
structure CallSnapshot where
  callsign : Str
  /-- Publication vintage from `CALL:YYYY`, or `none` for current records. -/
  vintage : Option ℕ
  sources : List SnapshotSource
  jurisdiction : Jurisdiction
  licenseClass : Option Str
  recordCode : Option Str
  firstName : Option Str
  middleName : Option Str
  /-- Last name, or full name/org when split name is absent. -/
  lastName : Option Str
  suffix : Option Str
  address : Option Str
  city : Option Str
  stateOrProvince : Option Str
  postalCode : Option Str
  county : Option Str
  country : Option Str
  birthDate : Option Str
  firstIssued : Option Str
  expires : Option Str
  lastChanged : Option Str
  gmtOffset : Option Str
  latitude : Option Str
  longitude : Option Str
  grid : Option Str
  areaCode : Option Str
  previousCall : Option Str
  previousClass : Option Str
  fccTransactionType : Option Str
  email : Option Str
  qsl : Option Str
  url : Option Str
  faxNumber : Option Str
  iota : Option Str
  interestCodesRaw : Option Str
  interestCodes : List Str
  interests : List ResolvedInterest
  licenseId : Option Str
  frn : Option Str
  numericId : Option Str
  /-- Fields whose semantics are not fully labeled yet. -/
  rawTags : Std.ExtTreeMap UInt8 Str

/-- Result of a callsign lookup. -/
structure LookupResult where
  query : Str
  status : LookupStatus
  current : Option CallSnapshot
  history : List CallSnapshot

namespace CallSnapshot

/-- `CallSnapshot::new`. -/
def new (callsign : Str) (vintage : Option ℕ) (source : SnapshotSource) : CallSnapshot where
  callsign := callsign
  vintage := vintage
  sources := [source]
  jurisdiction := .unknown
  licenseClass := none
  recordCode := none
  firstName := none
  middleName := none
  lastName := none
  suffix := none
  address := none
  city := none
  stateOrProvince := none
  postalCode := none
  county := none
  country := none
  birthDate := none
  firstIssued := none
  expires := none
  lastChanged := none
  gmtOffset := none
  latitude := none
  longitude := none
  grid := none
  areaCode := none
  previousCall := none
  previousClass := none
  fccTransactionType := none
  email := none
  qsl := none
  url := none
  faxNumber := none
  iota := none
  interestCodesRaw := none
  interestCodes := []
  interests := []
  licenseId := none
  frn := none
  numericId := none
  rawTags := ∅

def nonEmptyRef (value : Str) : Option Str :=
  let trimmed := Utf8.trim value
  if trimmed = [] then none else some trimmed

/-- `CallSnapshot::from_us_csv`. -/
def fromUsCsv (record : UsCsvRecord) : CallSnapshot :=
  { new record.callsign none .usCsv with
    jurisdiction := .unitedStates
    licenseClass := nonEmptyRef record.class
    lastName := nonEmptyRef record.name
    address := nonEmptyRef record.address
    city := nonEmptyRef record.city
    stateOrProvince := nonEmptyRef record.state
    postalCode := nonEmptyRef record.zip
    county := nonEmptyRef record.county
    country := some (ascii "United States")
    firstIssued := nonEmptyRef record.licenseIssueDate
    fccTransactionType := nonEmptyRef record.fccTransactionType }

/-- `fill`: an absent or empty field takes the other value. -/
def fill (dst src : Option Str) : Option Str := if dst.all (· = []) then src else dst

/-- The sources of both, in order, each once. -/
def mergeSources (sources other : List SnapshotSource) : List SnapshotSource :=
  StableSort.sortBy compare
    (other.foldl (fun acc s => if s ∈ acc then acc else acc ++ [s]) sources)

/-- The last name after merging, given the first name after merging. -/
def mergeLastName (self other : CallSnapshot) (firstName : Option Str) : Option Str :=
  let otherHasSplitName := other.firstName.isSome || other.middleName.isSome
  if otherHasSplitName && firstName.isSome then
    if other.lastName.isSome then other.lastName else self.lastName
  else fill self.lastName other.lastName

/-- `CallSnapshot::merge_missing_from`. -/
def mergeMissingFrom (self other : CallSnapshot) : CallSnapshot :=
  let firstName := fill self.firstName other.firstName
  { callsign := self.callsign
    vintage := self.vintage
    sources := mergeSources self.sources other.sources
    jurisdiction :=
      if self.jurisdiction = .unknown then other.jurisdiction else self.jurisdiction
    licenseClass := fill self.licenseClass other.licenseClass
    recordCode := fill self.recordCode other.recordCode
    firstName := firstName
    middleName := fill self.middleName other.middleName
    lastName := mergeLastName self other firstName
    suffix := fill self.suffix other.suffix
    address := fill self.address other.address
    city := fill self.city other.city
    stateOrProvince := fill self.stateOrProvince other.stateOrProvince
    postalCode := fill self.postalCode other.postalCode
    county := fill self.county other.county
    country := fill self.country other.country
    birthDate := fill self.birthDate other.birthDate
    firstIssued := fill self.firstIssued other.firstIssued
    expires := fill self.expires other.expires
    lastChanged := fill self.lastChanged other.lastChanged
    gmtOffset := fill self.gmtOffset other.gmtOffset
    latitude := fill self.latitude other.latitude
    longitude := fill self.longitude other.longitude
    grid := fill self.grid other.grid
    areaCode := fill self.areaCode other.areaCode
    previousCall := fill self.previousCall other.previousCall
    previousClass := fill self.previousClass other.previousClass
    fccTransactionType := fill self.fccTransactionType other.fccTransactionType
    email := fill self.email other.email
    qsl := fill self.qsl other.qsl
    url := fill self.url other.url
    faxNumber := fill self.faxNumber other.faxNumber
    iota := fill self.iota other.iota
    interestCodesRaw := fill self.interestCodesRaw other.interestCodesRaw
    interestCodes := if self.interestCodes = [] then other.interestCodes else self.interestCodes
    interests := if self.interests = [] then other.interests else self.interests
    licenseId := fill self.licenseId other.licenseId
    frn := fill self.frn other.frn
    numericId := fill self.numericId other.numericId
    rawTags := other.rawTags.foldl (fun acc tag value => acc.insert tag value) self.rawTags }

end CallSnapshot

end Callbook
