import Callbook.Ffi.Structured

/-!
# The accessors

Each accessor takes a pointer that may be null and reads one thing from behind it: a value, or a
pointer to a part that belongs to the same object.
-/

namespace Callbook

namespace Ffi

open Handles

variable {Obj α : Type}

/-! ### Lists -/

/-- The number of elements of a list, with what it is for null. -/
def listLen (p : Pointer Obj α) (null : ℤ) {β : Type} (list : α → List β) : Read Obj ℤ :=
  p.read null fun a => (clampLen (list a).length).toInt

/-- An element of a list, or null when the index is out of range. -/
def listGet (p : Pointer Obj α) {β : Type} (list : α → List β) (index : ℤ) :
    Read Obj (Pointer Obj β) :=
  p.borrow fun a => if index < 0 then none else (list a)[index.toNat]?

/-- A text field by its number; it is empty when the number is out of range. -/
def textField (p : Pointer Obj α) (fields : α → List Bytes) (fieldId : ℤ) : Read Obj Bytes :=
  p.read [] fun a => if fieldId < 0 then [] else (fields a)[fieldId.toNat]?.getD []

/-! ### Lookup results -/

section Result

variable (result : Pointer Obj CallbookLookupResult)

def callbookResultQuery : Read Obj Bytes := result.read [] (·.query)

def callbookResultStatus : Read Obj ℤ := result.read (ffiStatus .notFound) (·.status)

def callbookResultCurrent : Read Obj (Pointer Obj CallbookSnapshot) := result.borrow (·.current)

def callbookResultHistoryLen : Read Obj ℤ := listLen result callbookEUsage.toInt (·.history)

def callbookResultHistoryGet (index : ℤ) : Read Obj (Pointer Obj CallbookSnapshot) :=
  listGet result (·.history) index

end Result

/-! ### Snapshots -/

section Snapshot

variable (snapshot : Pointer Obj CallbookSnapshot)

def callbookSnapshotField (fieldId : ℤ) : Read Obj Bytes := textField snapshot (·.fields) fieldId

def callbookSnapshotVintage : Read Obj ℤ := snapshot.read (-1) (·.vintage)

def callbookSnapshotSourceFlags : Read Obj UInt32 := snapshot.read 0 (·.sourceFlags)

def callbookSnapshotJurisdiction : Read Obj ℤ :=
  snapshot.read (ffiJurisdiction .unknown) (·.jurisdiction)

def callbookSnapshotInterestLen : Read Obj ℤ := listLen snapshot 0 (·.interests)

def callbookSnapshotInterestGet (index : ℤ) : Read Obj (Pointer Obj CallbookInterest) :=
  listGet snapshot (·.interests) index

end Snapshot

section Interest

variable (interest : Pointer Obj CallbookInterest)

def callbookInterestCode : Read Obj Bytes := interest.read [] (·.code)

def callbookInterestCategory : Read Obj Bytes := interest.read [] (·.category)

def callbookInterestLabel : Read Obj Bytes := interest.read [] (·.label)

end Interest

/-! ### Profiles -/

section Profile

variable (profile : Pointer Obj CallbookProfile)

def callbookProfileCallsign : Read Obj Bytes := profile.read [] (·.callsign)

def callbookProfileStatus : Read Obj ℤ := profile.read (ffiStatus .notFound) (·.status)

def callbookProfileCurrent : Read Obj (Pointer Obj CallbookSnapshot) := profile.borrow (·.current)

def callbookProfileHistorySnapshotCount : Read Obj ℤ := profile.read 0 (·.historySnapshotCount)

def callbookProfileHistoryVintageLen : Read Obj ℤ := listLen profile 0 (·.historyVintages)

def callbookProfileHistoryVintageGet (index : ℤ) : Read Obj ℤ :=
  profile.read (-1) fun p => if index < 0 then -1 else p.historyVintages[index.toNat]?.getD (-1)

def callbookProfileCountry : Read Obj (Pointer Obj CallbookCountryInfo) :=
  profile.borrow (·.country)

def callbookProfileLookupCount : Read Obj (Pointer Obj CallbookLookupCount) :=
  profile.borrow (·.lookupCount)

def callbookProfileAssetLen : Read Obj ℤ := listLen profile 0 (·.assets)

def callbookProfileAssetGet (index : ℤ) : Read Obj (Pointer Obj CallbookAsset) :=
  listGet profile (·.assets) index

end Profile

/-! ### Countries, counts and assets -/

section Country

variable (country : Pointer Obj CallbookCountryInfo)

def callbookCountryName : Read Obj Bytes := country.read [] (·.name)

def callbookCountryCleanedName : Read Obj Bytes := country.read [] (·.cleanedName)

def callbookCountryCode : Read Obj Bytes := country.read [] (·.code)

def callbookCountryJurisdiction : Read Obj ℤ :=
  country.read (ffiJurisdiction .unknown) (·.jurisdiction)

def callbookCountryItuZone : Read Obj ℤ := country.read (-1) (·.ituZone)

def callbookCountryCqZone : Read Obj ℤ := country.read (-1) (·.cqZone)

def callbookCountryContinent : Read Obj Bytes := country.read [] (·.continent)

/-- What a getter of a coordinate returns, and what it writes to a place that is not null. -/
def coordinate (value : CallbookCountryInfo → Option F64) : Read Obj (Int32 × Option F64) :=
  country.read (callbookEUsage, none) fun c =>
    match value c with
    | none => (callbookENotFound, none)
    | some x => (0, some x)

def callbookCountryLatitude : Read Obj (Int32 × Option F64) := coordinate country (·.latitude)

def callbookCountryLongitude : Read Obj (Int32 × Option F64) := coordinate country (·.longitude)

def callbookCountryNumericCode : Read Obj ℤ := country.read (-1) (·.numericCode)

def callbookCountrySourceValue : Read Obj ℤ :=
  country.read (ffiCountrySource .unknown) (·.source)

end Country

section LookupCount

variable (count : Pointer Obj CallbookLookupCount)

def callbookLookupCountKey : Read Obj Bytes := count.read [] (·.key)

def callbookLookupCountValue : Read Obj ℕ := count.read 0 (·.count)

def callbookLookupCountUpdatedYyyymmdd : Read Obj ℤ := count.read (-1) (·.updatedYyyymmdd)

def callbookLookupCountStatus : Read Obj Bytes := count.read [] (·.status)

end LookupCount

section Asset

variable (asset : Pointer Obj CallbookAsset)

def callbookAssetKindValue : Read Obj ℤ := asset.read (ffiAssetKind .sidecarData) (·.kind)

def callbookAssetKey : Read Obj Bytes := asset.read [] (·.key)

def callbookAssetMediaType : Read Obj Bytes := asset.read [] (·.mediaType)

def callbookAssetPath : Read Obj Bytes := asset.read [] (·.path)

end Asset

/-! ### Records, definitions and searches -/

def callbookUsRecordField (record : Pointer Obj CallbookUsRecord) (fieldId : ℤ) : Read Obj Bytes :=
  textField record (·.fields) fieldId

section Definition

variable (definition : Pointer Obj CallbookInterestDefinition)

def callbookInterestDefinitionCode : Read Obj Bytes := definition.read [] (·.code)

def callbookInterestDefinitionCategory : Read Obj Bytes := definition.read [] (·.category)

def callbookInterestDefinitionLabel : Read Obj Bytes := definition.read [] (·.label)

end Definition

section Search

variable (search : Pointer Obj CallbookInterestSearchResult)
  (entry : Pointer Obj CallbookInterestSearchMatch)

def callbookInterestSearchCode : Read Obj Bytes := search.read [] (·.code)

def callbookInterestSearchDefinition : Read Obj (Pointer Obj CallbookInterestDefinition) :=
  search.borrow (·.definition)

def callbookInterestSearchMatchLen : Read Obj ℤ := listLen search 0 (·.found)

def callbookInterestSearchMatchGet (index : ℤ) :
    Read Obj (Pointer Obj CallbookInterestSearchMatch) := listGet search (·.found) index

def callbookInterestSearchMatchCallsign : Read Obj Bytes := entry.read [] (·.callsign)

def callbookInterestSearchMatchVintage : Read Obj ℤ := entry.read (-1) (·.vintage)

end Search

end Ffi

end Callbook
