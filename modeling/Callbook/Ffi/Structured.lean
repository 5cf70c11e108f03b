import Callbook.Database.Stations
import Callbook.Ffi.Buffer
import Callbook.Library.Handles
import Callbook.Scan.Basic

/-!
# The structured interface

Results are handed to C as objects behind pointers. They are made from the results of the library,
and read field by field; for a null pointer every accessor has an answer of its own.
-/

namespace Callbook

open Text Handles

/-- `CallSnapshot::display_name`. -/
def CallSnapshot.displayName (snapshot : CallSnapshot) : Option Str :=
  if snapshot.firstName.isNone ∧ snapshot.middleName.isNone then snapshot.lastName
  else
    let parts :=
      [snapshot.firstName, snapshot.middleName, snapshot.lastName, snapshot.suffix].filterMap id
    let name := [0x20].intercalate parts
    if name = [] then none else some name

namespace Ffi

/-! ### Values -/

def callbookENotFound : Int32 := -1

def callbookEOpenFailed : Int32 := -3

/-- `callbook_strerror`. -/
def callbookStrerror (code : Int32) : Bytes :=
  ascii <|
    if 0 ≤ code then "ok"
    else if code = callbookENotFound then "callsign not found"
    else if code = callbookEUsage then
      "invalid argument (null pointer, bad UTF-8, or zero buffer length)"
    else if code = callbookEOpenFailed then
      "failed to open database (path missing, malformed, or unreadable)"
    else if code = callbookEBufferTooSmall then
      "output buffer too small (use the *_required_len query to size it)"
    else "unknown error"

/-- `to_cstring`, without the NUL at the end: a NUL inside becomes a space. -/
def toCstring (value : Str) : Bytes := value.map fun byte => if byte = 0 then 0x20 else byte

/-- A `c_int` that is -1 for an absent number; every `u16` is one. -/
def orMinusOne (n : Option ℕ) : ℤ := n.elim (-1) (↑·)

def ffiStatus : LookupStatus → ℤ
  | .current => 0
  | .archiveOnly => 1
  | .notFound => 2

def ffiJurisdiction : Jurisdiction → ℤ
  | .unitedStates => 0
  | .canada => 1
  | .international => 2
  | .unknown => 3

def ffiCountrySource : CountryInfoSource → ℤ
  | .unknown => 0
  | .countrys => 1
  | .gcMcountrys => 2
  | .countrysPc => 3

def ffiAssetKind : AssetKind → ℤ
  | .biography => 0
  | .photo => 1
  | .flag => 2
  | .map => 3
  | .sidecarData => 4

/-- The flag of one source: `CALLBOOK_SOURCE_US_CSV`, `CALLBOOK_SOURCE_HAMCALL_DAT_IDX` and
`CALLBOOK_SOURCE_HAMCALL_HCI`. -/
def sourceFlag : SnapshotSource → UInt32
  | .usCsv => (1 : UInt32) <<< 0
  | .hamCallDatIdx => (1 : UInt32) <<< 1
  | .hamCallHci => (1 : UInt32) <<< 2

/-- `source_flags`. -/
def sourceFlags (sources : List SnapshotSource) : UInt32 :=
  sources.foldl (fun flags source => flags ||| sourceFlag source) 0

/-- `callbook_modern_field`. -/
inductive ModernField where
  | callsign | name | firstName | middleName | lastName | suffix | address | city
  | stateOrProvince | postalCode | county | country | licenseClass | recordCode | birthDate
  | firstIssued | expires | lastChanged | gmtOffset | latitude | longitude | grid | areaCode
  | previousCall | previousClass | fccTransactionType | email | qsl | url | interests | licenseId
  | frn | numericId | faxNumber | iota
  deriving DecidableEq, Repr

/-- The discriminant of a field. -/
def ModernField.toNat : ModernField → ℕ
  | .callsign => 0
  | .name => 1
  | .firstName => 2
  | .middleName => 3
  | .lastName => 4
  | .suffix => 5
  | .address => 6
  | .city => 7
  | .stateOrProvince => 8
  | .postalCode => 9
  | .county => 10
  | .country => 11
  | .licenseClass => 12
  | .recordCode => 13
  | .birthDate => 14
  | .firstIssued => 15
  | .expires => 16
  | .lastChanged => 17
  | .gmtOffset => 18
  | .latitude => 19
  | .longitude => 20
  | .grid => 21
  | .areaCode => 22
  | .previousCall => 23
  | .previousClass => 24
  | .fccTransactionType => 25
  | .email => 26
  | .qsl => 27
  | .url => 28
  | .interests => 29
  | .licenseId => 30
  | .frn => 31
  | .numericId => 32
  | .faxNumber => 33
  | .iota => 34

def modernFieldCount : ℕ := 35

/-- `callbook_us_field`. -/
inductive UsField where
  | callsign | «class» | name | address | city | state | zip | county | licenseIssueDate
  | fccTransactionType
  deriving DecidableEq, Repr

def UsField.toNat : UsField → ℕ
  | .callsign => 0
  | .class => 1
  | .name => 2
  | .address => 3
  | .city => 4
  | .state => 5
  | .zip => 6
  | .county => 7
  | .licenseIssueDate => 8
  | .fccTransactionType => 9

def usFieldCount : ℕ := 10

lemma ModernField.toNat_lt (field : ModernField) : field.toNat < modernFieldCount := by
  cases field <;> decide

lemma UsField.toNat_lt (field : UsField) : field.toNat < usFieldCount := by
  cases field <;> decide

/-- `set_field`; the index is in range by `ModernField.toNat_lt`. -/
def setField (fields : List Bytes) (field : ModernField) (value : Option Str) : List Bytes :=
  fields.set field.toNat (toCstring (value.getD []))

/-! ### Objects -/

structure CallbookInterest where
  code : Bytes
  category : Bytes
  label : Bytes

structure CallbookSnapshot where
  fields : List Bytes
  interestCodes : List Bytes
  interests : List CallbookInterest
  vintage : ℤ
  sourceFlags : UInt32
  jurisdiction : ℤ

structure CallbookLookupResult where
  query : Bytes
  status : ℤ
  current : Option CallbookSnapshot
  history : List CallbookSnapshot

structure CallbookCountryInfo where
  name : Bytes
  rawName : Bytes
  cleanedName : Bytes
  code : Bytes
  jurisdiction : ℤ
  ituZone : ℤ
  cqZone : ℤ
  continent : Bytes
  latitude : Option F64
  longitude : Option F64
  numericCode : ℤ
  source : ℤ

structure CallbookLookupCount where
  key : Bytes
  count : ℕ
  updatedYyyymmdd : ℤ
  status : Bytes

structure CallbookAsset where
  kind : ℤ
  key : Bytes
  mediaType : Bytes
  path : Bytes

structure CallbookProfile where
  callsign : Bytes
  status : ℤ
  current : Option CallbookSnapshot
  historySnapshotCount : ℤ
  historyVintages : List ℤ
  country : Option CallbookCountryInfo
  lookupCount : Option CallbookLookupCount
  assets : List CallbookAsset

structure CallbookUsRecord where
  fields : List Bytes

structure CallbookInterestDefinition where
  code : Bytes
  category : Bytes
  label : Bytes

structure CallbookInterestSearchMatch where
  callsign : Bytes
  vintage : ℤ

structure CallbookInterestSearchResult where
  code : Bytes
  definition : Option CallbookInterestDefinition
  found : List CallbookInterestSearchMatch

/-! ### Objects from results -/

def CallbookInterest.ofResolvedInterest (interest : ResolvedInterest) : CallbookInterest where
  code := toCstring interest.code
  category := toCstring interest.category
  label := toCstring interest.label

/-- The fields of a snapshot, set one after the other. -/
def snapshotFields (snapshot : CallSnapshot) : List Bytes :=
  let fields := List.replicate modernFieldCount (toCstring [])
  let fields := setField fields .callsign (some snapshot.callsign)
  let fields := setField fields .name snapshot.displayName
  let fields := setField fields .firstName snapshot.firstName
  let fields := setField fields .middleName snapshot.middleName
  let fields := setField fields .lastName snapshot.lastName
  let fields := setField fields .suffix snapshot.suffix
  let fields := setField fields .address snapshot.address
  let fields := setField fields .city snapshot.city
  let fields := setField fields .stateOrProvince snapshot.stateOrProvince
  let fields := setField fields .postalCode snapshot.postalCode
  let fields := setField fields .county snapshot.county
  let fields := setField fields .country snapshot.country
  let fields := setField fields .licenseClass snapshot.licenseClass
  let fields := setField fields .recordCode snapshot.recordCode
  let fields := setField fields .birthDate snapshot.birthDate
  let fields := setField fields .firstIssued snapshot.firstIssued
  let fields := setField fields .expires snapshot.expires
  let fields := setField fields .lastChanged snapshot.lastChanged
  let fields := setField fields .gmtOffset snapshot.gmtOffset
  let fields := setField fields .latitude snapshot.latitude
  let fields := setField fields .longitude snapshot.longitude
  let fields := setField fields .grid snapshot.grid
  let fields := setField fields .areaCode snapshot.areaCode
  let fields := setField fields .previousCall snapshot.previousCall
  let fields := setField fields .previousClass snapshot.previousClass
  let fields := setField fields .fccTransactionType snapshot.fccTransactionType
  let fields := setField fields .email snapshot.email
  let fields := setField fields .qsl snapshot.qsl
  let fields := setField fields .url snapshot.url
  let fields := setField fields .faxNumber snapshot.faxNumber
  let fields := setField fields .iota snapshot.iota
  let fields := setField fields .interests snapshot.interestCodesRaw
  let fields := setField fields .licenseId snapshot.licenseId
  let fields := setField fields .frn snapshot.frn
  setField fields .numericId snapshot.numericId

def CallbookSnapshot.ofCallSnapshot (snapshot : CallSnapshot) : CallbookSnapshot where
  fields := snapshotFields snapshot
  interestCodes := snapshot.interestCodes.map toCstring
  interests := snapshot.interests.map .ofResolvedInterest
  vintage := orMinusOne snapshot.vintage
  sourceFlags := Ffi.sourceFlags snapshot.sources
  jurisdiction := ffiJurisdiction snapshot.jurisdiction

def CallbookLookupResult.ofLookupResult (result : LookupResult) : CallbookLookupResult where
  query := toCstring result.query
  status := ffiStatus result.status
  current := result.current.map .ofCallSnapshot
  history := result.history.map .ofCallSnapshot

def CallbookCountryInfo.ofCountryInfo (country : CountryInfo) : CallbookCountryInfo where
  name := toCstring country.name
  rawName := toCstring country.rawName
  cleanedName := toCstring country.cleanedName
  code := toCstring (country.code.getD [])
  jurisdiction := ffiJurisdiction country.jurisdiction
  ituZone := orMinusOne country.ituZone
  cqZone := orMinusOne country.cqZone
  continent := toCstring (country.continent.getD [])
  latitude := country.latitude
  longitude := country.longitude
  numericCode := orMinusOne country.numericCode
  source := ffiCountrySource country.source

/-- A date beyond a `c_int` becomes the largest one. -/
def CallbookLookupCount.ofLookupCountRecord (count : LookupCountRecord) : CallbookLookupCount where
  key := toCstring count.key
  count := count.count
  updatedYyyymmdd := orMinusOne (count.updatedYyyymmdd.map (min · (2 ^ 31 - 1)))
  status := toCstring (count.status.elim [] fun status => [status])

/-- An asset, with the text of its path. -/
def CallbookAsset.ofAsset (pathText : Path → Str) (asset : AssetMetadata) : CallbookAsset where
  kind := ffiAssetKind asset.kind
  key := toCstring asset.key
  mediaType := toCstring (ascii asset.mediaType)
  path := toCstring (pathText asset.path)

def CallbookProfile.ofStationProfile (pathText : Path → Str) (profile : StationProfile) :
    CallbookProfile where
  callsign := toCstring profile.callsign
  status := ffiStatus profile.status
  current := profile.current.map .ofCallSnapshot
  historySnapshotCount := (clampLen profile.history.snapshotCount).toInt
  historyVintages := profile.history.vintages.map fun year : ℕ => (year : ℤ)
  country := profile.country.map .ofCountryInfo
  lookupCount := profile.lookupCount.map .ofLookupCountRecord
  assets :=
    (profile.assets.photos ++ profile.assets.bio.toList ++ profile.assets.countryFlag.toList ++
      profile.assets.countryMap.toList).map (.ofAsset pathText)

def CallbookUsRecord.ofUsCsvRecord (record : UsCsvRecord) : CallbookUsRecord where
  fields :=
    let fields := List.replicate usFieldCount (toCstring [])
    let fields := fields.set UsField.callsign.toNat (toCstring record.callsign)
    let fields := fields.set UsField.class.toNat (toCstring record.class)
    let fields := fields.set UsField.name.toNat (toCstring record.name)
    let fields := fields.set UsField.address.toNat (toCstring record.address)
    let fields := fields.set UsField.city.toNat (toCstring record.city)
    let fields := fields.set UsField.state.toNat (toCstring record.state)
    let fields := fields.set UsField.zip.toNat (toCstring record.zip)
    let fields := fields.set UsField.county.toNat (toCstring record.county)
    let fields := fields.set UsField.licenseIssueDate.toNat (toCstring record.licenseIssueDate)
    fields.set UsField.fccTransactionType.toNat (toCstring record.fccTransactionType)

def CallbookInterestDefinition.ofInterestDefinition (definition : InterestDefinition) :
    CallbookInterestDefinition where
  code := toCstring definition.code
  category := toCstring definition.category
  label := toCstring definition.label

def CallbookInterestSearchMatch.ofInterestSearchMatch (entry : InterestSearchMatch) :
    CallbookInterestSearchMatch where
  callsign := toCstring entry.callsign
  vintage := orMinusOne entry.vintage

def CallbookInterestSearchResult.ofInterestSearch (search : InterestSearch) :
    CallbookInterestSearchResult where
  code := toCstring search.code
  definition := search.definition.map .ofInterestDefinition
  found := search.found.map .ofInterestSearchMatch

end Ffi

end Callbook
