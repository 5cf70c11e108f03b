import Callbook.Ffi.Accessors

/-!
# The records of the Python package

The package copies what it reads through the accessors into records of its own. What such a record
is to say is given by the result that the object was made from: absent numbers and texts are `None`
or empty again, and the fields stand under their names.
-/

namespace Callbook.Python

open Text Handles Ffi

variable {Obj α β γ : Type}

/-! ### Values -/

/-- `_decode`: UTF-8, with U+FFFD for what is none. -/
def decode (value : Bytes) : Str := Utf8.fromUtf8Lossy value

/-- `_optional_int`. -/
def optionalInt (value : ℤ) : Option ℕ := if value < 0 then none else some value.toNat

/-- `text or None`. -/
def orNone (text : Str) : Option Str := if text = [] then none else some text

structure CallBookError where
  code : Int32
  message : Str
  deriving DecidableEq, Repr

/-- `CallBookError(code, context)`. -/
def CallBookError.new (code : Int32) (context : String) : CallBookError where
  code := code
  message := ascii context ++ ascii ": " ++ decode (callbookStrerror code)

/-- `_check`, where not found is an error too. -/
def check (code : Int32) (context : String) : Except CallBookError Unit :=
  if code = 0 then .ok () else .error (.new code context)

/-- `_optional_float_from`. -/
def optionalFloatFrom (getter : Read Obj (Int32 × Option F64)) :
    Read Obj (Except CallBookError (Option F64)) := do
  let (code, out) ← getter
  if code = callbookENotFound then pure (.ok none)
  else pure (do check code "read coordinate"; pure out)

/-- The texts of a table of fields, each under its name. -/
def readFields (names : List (String × ℤ)) (field : ℤ → Read Obj Bytes) :
    Read Obj (List (String × Str)) :=
  names.mapM fun p => do pure (p.1, decode (← field p.2))

/-- A list read index by index; what is null is left out. -/
def readList (len : Read Obj ℤ) (get : ℤ → Read Obj (Pointer Obj β))
    (fromPtr : Pointer Obj β → Read Obj (Option γ)) : Read Obj (List γ) := do
  let items ← (List.range (← len).toNat).mapM fun index : ℕ => do fromPtr (← get index)
  pure (items.filterMap id)

def fieldNames : List (String × ℤ) :=
  [("callsign", 0), ("name", 1), ("first_name", 2), ("middle_name", 3), ("last_name", 4),
    ("suffix", 5), ("address", 6), ("city", 7), ("state_or_province", 8), ("postal_code", 9),
    ("county", 10), ("country", 11), ("license_class", 12), ("record_code", 13),
    ("birth_date", 14), ("first_issued", 15), ("expires", 16), ("last_changed", 17),
    ("gmt_offset", 18), ("latitude", 19), ("longitude", 20), ("grid", 21), ("area_code", 22),
    ("previous_call", 23), ("previous_class", 24), ("fcc_transaction_type", 25), ("email", 26),
    ("qsl", 27), ("url", 28), ("interests", 29), ("license_id", 30), ("frn", 31),
    ("numeric_id", 32), ("fax_number", 33), ("iota", 34)]

def usFieldNames : List (String × ℤ) :=
  [("callsign", 0), ("class_", 1), ("name", 2), ("address", 3), ("city", 4), ("state", 5),
    ("zip", 6), ("county", 7), ("license_issue_date", 8), ("fcc_transaction_type", 9)]

/-- `LOOKUP_STATUS.get(code, "not_found")`. -/
def lookupStatusName (code : ℤ) : String :=
  ([(0, "current"), (1, "archive_only"), (2, "not_found")].lookup code).getD "not_found"

/-- `JURISDICTION.get(code, "unknown")`. -/
def jurisdictionName (code : ℤ) : String :=
  ([(0, "united_states"), (1, "canada"), (2, "international"), (3, "unknown")].lookup code).getD
    "unknown"

/-- `ASSET_KIND.get(code, "sidecar_data")`. -/
def assetKindName (code : ℤ) : String :=
  ([(0, "biography"), (1, "photo"), (2, "flag"), (3, "map"), (4, "sidecar_data")].lookup
    code).getD "sidecar_data"

/-! ### Records -/

structure ResolvedInterest where
  code : Str
  category : Str
  label : Str
  deriving DecidableEq, Repr

structure CallSnapshot where
  callsign : Str
  vintage : Option ℕ
  sourceFlags : UInt32
  jurisdiction : String
  fields : List (String × Str)
  interests : List ResolvedInterest
  deriving DecidableEq, Repr

structure CountryInfo where
  name : Str
  cleanedName : Str
  code : Option Str
  jurisdiction : String
  ituZone : Option ℕ
  cqZone : Option ℕ
  continent : Option Str
  latitude : Option F64
  longitude : Option F64
  numericCode : Option ℕ
  source : ℤ
  deriving DecidableEq, Repr

structure LookupCount where
  key : Str
  count : ℕ
  updatedYyyymmdd : Option ℕ
  status : Option Str
  deriving DecidableEq, Repr

structure Asset where
  kind : String
  key : Str
  mediaType : Str
  path : Str
  deriving DecidableEq, Repr

structure UsRecord where
  fields : List (String × Str)
  deriving DecidableEq, Repr

structure InterestDefinition where
  code : Str
  category : Str
  label : Str
  deriving DecidableEq, Repr

structure InterestSearchMatch where
  callsign : Str
  vintage : Option ℕ
  deriving DecidableEq, Repr

/-! ### Reading them -/

/-- The interest that the loop of `CallSnapshot.from_ptr` appends. -/
def ResolvedInterest.fromPtr (interest : Pointer Obj CallbookInterest) :
    Read Obj (Option ResolvedInterest) := do
  if interest.address = 0 then pure none
  else do
    let code ← callbookInterestCode interest
    let category ← callbookInterestCategory interest
    let label ← callbookInterestLabel interest
    pure (some ⟨decode code, decode category, decode label⟩)

def CallSnapshot.fromPtr (pointer : Pointer Obj CallbookSnapshot) :
    Read Obj (Option CallSnapshot) := do
  if pointer.address = 0 then pure none
  else do
    let fields ← readFields fieldNames (callbookSnapshotField pointer)
    let interests ← readList (callbookSnapshotInterestLen pointer)
      (callbookSnapshotInterestGet pointer) ResolvedInterest.fromPtr
    let vintage ← callbookSnapshotVintage pointer
    let sourceFlags ← callbookSnapshotSourceFlags pointer
    let code ← callbookSnapshotJurisdiction pointer
    pure (some
      { callsign := (fields.lookup "callsign").getD []
        vintage := optionalInt vintage
        sourceFlags
        jurisdiction := jurisdictionName code
        fields
        interests })

def CountryInfo.fromPtr (pointer : Pointer Obj CallbookCountryInfo) :
    Read Obj (Except CallBookError (Option CountryInfo)) := do
  if pointer.address = 0 then pure (.ok none)
  else do
    let code ← callbookCountryCode pointer
    let continent ← callbookCountryContinent pointer
    let name ← callbookCountryName pointer
    let cleanedName ← callbookCountryCleanedName pointer
    let jurisdictionCode ← callbookCountryJurisdiction pointer
    let ituZone ← callbookCountryItuZone pointer
    let cqZone ← callbookCountryCqZone pointer
    match ← optionalFloatFrom (callbookCountryLatitude pointer) with
    | .error e => pure (.error e)
    | .ok latitude =>
      match ← optionalFloatFrom (callbookCountryLongitude pointer) with
      | .error e => pure (.error e)
      | .ok longitude =>
        let numericCode ← callbookCountryNumericCode pointer
        let source ← callbookCountrySourceValue pointer
        pure (.ok (some
          { name := decode name
            cleanedName := decode cleanedName
            code := orNone (decode code)
            jurisdiction := jurisdictionName jurisdictionCode
            ituZone := optionalInt ituZone
            cqZone := optionalInt cqZone
            continent := orNone (decode continent)
            latitude
            longitude
            numericCode := optionalInt numericCode
            source }))

def LookupCount.fromPtr (pointer : Pointer Obj CallbookLookupCount) :
    Read Obj (Option LookupCount) := do
  if pointer.address = 0 then pure none
  else do
    let key ← callbookLookupCountKey pointer
    let count ← callbookLookupCountValue pointer
    let updated ← callbookLookupCountUpdatedYyyymmdd pointer
    let status ← callbookLookupCountStatus pointer
    pure (some ⟨decode key, count, optionalInt updated, orNone (decode status)⟩)

def Asset.fromPtr (pointer : Pointer Obj CallbookAsset) : Read Obj (Option Asset) := do
  if pointer.address = 0 then pure none
  else do
    let kind ← callbookAssetKindValue pointer
    let key ← callbookAssetKey pointer
    let mediaType ← callbookAssetMediaType pointer
    let path ← callbookAssetPath pointer
    pure (some ⟨assetKindName kind, decode key, decode mediaType, decode path⟩)

def UsRecord.fromPtr (pointer : Pointer Obj CallbookUsRecord) : Read Obj (Option UsRecord) := do
  if pointer.address = 0 then pure none
  else do
    let fields ← readFields usFieldNames (callbookUsRecordField pointer)
    pure (some ⟨fields⟩)

def InterestDefinition.fromPtr (pointer : Pointer Obj CallbookInterestDefinition) :
    Read Obj (Option InterestDefinition) := do
  if pointer.address = 0 then pure none
  else do
    let code ← callbookInterestDefinitionCode pointer
    let category ← callbookInterestDefinitionCategory pointer
    let label ← callbookInterestDefinitionLabel pointer
    pure (some ⟨decode code, decode category, decode label⟩)

def InterestSearchMatch.fromPtr (pointer : Pointer Obj CallbookInterestSearchMatch) :
    Read Obj (Option InterestSearchMatch) := do
  if pointer.address = 0 then pure none
  else do
    let callsign ← callbookInterestSearchMatchCallsign pointer
    let vintage ← callbookInterestSearchMatchVintage pointer
    pure (some ⟨decode callsign, optionalInt vintage⟩)

/-! ### What the records say -/

/-- A text as Python has it: a NUL becomes a space. -/
def text (s : Str) : Str := toCstring (Utf8.fromUtf8Lossy s)

/-- The most elements that are read from a list: the largest `c_int`. -/
def maxLen : ℕ := 2 ^ 31 - 1

/-- The texts of a snapshot under the names that the package gives them. -/
def namedFields (s : Callbook.CallSnapshot) : List (String × Option Str) :=
  [("callsign", some s.callsign), ("name", s.displayName), ("first_name", s.firstName),
    ("middle_name", s.middleName), ("last_name", s.lastName), ("suffix", s.suffix),
    ("address", s.address), ("city", s.city), ("state_or_province", s.stateOrProvince),
    ("postal_code", s.postalCode), ("county", s.county), ("country", s.country),
    ("license_class", s.licenseClass), ("record_code", s.recordCode),
    ("birth_date", s.birthDate), ("first_issued", s.firstIssued), ("expires", s.expires),
    ("last_changed", s.lastChanged), ("gmt_offset", s.gmtOffset), ("latitude", s.latitude),
    ("longitude", s.longitude), ("grid", s.grid), ("area_code", s.areaCode),
    ("previous_call", s.previousCall), ("previous_class", s.previousClass),
    ("fcc_transaction_type", s.fccTransactionType), ("email", s.email), ("qsl", s.qsl),
    ("url", s.url), ("interests", s.interestCodesRaw), ("license_id", s.licenseId),
    ("frn", s.frn), ("numeric_id", s.numericId), ("fax_number", s.faxNumber), ("iota", s.iota)]

/-- The texts of a current-US record under the names that the package gives them. -/
def namedUsFields (record : UsCsvRecord) : List (String × Str) :=
  [("callsign", record.callsign), ("class_", record.class), ("name", record.name),
    ("address", record.address), ("city", record.city), ("state", record.state),
    ("zip", record.zip), ("county", record.county),
    ("license_issue_date", record.licenseIssueDate),
    ("fcc_transaction_type", record.fccTransactionType)]

def statusName : LookupStatus → String
  | .current => "current"
  | .archiveOnly => "archive_only"
  | .notFound => "not_found"

def ofJurisdiction : Jurisdiction → String
  | .unitedStates => "united_states"
  | .canada => "canada"
  | .international => "international"
  | .unknown => "unknown"

def ofAssetKind : AssetKind → String
  | .biography => "biography"
  | .photo => "photo"
  | .flag => "flag"
  | .map => "map"
  | .sidecarData => "sidecar_data"

def ResolvedInterest.ofResolvedInterest (interest : Callbook.ResolvedInterest) :
    ResolvedInterest := ⟨text interest.code, text interest.category, text interest.label⟩

def CallSnapshot.ofCallSnapshot (snapshot : Callbook.CallSnapshot) : CallSnapshot where
  callsign := text snapshot.callsign
  vintage := snapshot.vintage
  sourceFlags := Ffi.sourceFlags snapshot.sources
  jurisdiction := ofJurisdiction snapshot.jurisdiction
  fields := (namedFields snapshot).map fun p => (p.1, text (p.2.getD []))
  interests := (snapshot.interests.take maxLen).map .ofResolvedInterest

def CountryInfo.ofCountryInfo (country : Callbook.CountryInfo) : CountryInfo where
  name := text country.name
  cleanedName := text country.cleanedName
  code := country.code.bind (orNone ∘ text)
  jurisdiction := ofJurisdiction country.jurisdiction
  ituZone := country.ituZone
  cqZone := country.cqZone
  continent := country.continent.bind (orNone ∘ text)
  latitude := country.latitude
  longitude := country.longitude
  numericCode := country.numericCode
  source := ffiCountrySource country.source

def LookupCount.ofLookupCountRecord (count : LookupCountRecord) : LookupCount where
  key := text count.key
  count := count.count
  updatedYyyymmdd := count.updatedYyyymmdd.map (min · (2 ^ 31 - 1))
  status := count.status.bind fun status => orNone (text [status])

def Asset.ofAsset (pathText : Path → Str) (asset : AssetMetadata) : Asset where
  kind := ofAssetKind asset.kind
  key := text asset.key
  mediaType := text (ascii asset.mediaType)
  path := text (pathText asset.path)

def UsRecord.ofUsCsvRecord (record : UsCsvRecord) : UsRecord where
  fields := (namedUsFields record).map fun p => (p.1, text p.2)

def InterestDefinition.ofInterestDefinition (definition : Callbook.InterestDefinition) :
    InterestDefinition where
  code := text definition.code
  category := text definition.category
  label := text definition.label

def InterestSearchMatch.ofInterestSearchMatch (entry : Callbook.InterestSearchMatch) :
    InterestSearchMatch := ⟨text entry.callsign, entry.vintage⟩

end Callbook.Python
