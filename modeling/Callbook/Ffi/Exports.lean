import Callbook.Ffi.Accessors
import Callbook.UsCsv.Properties

/-!
# Handing out objects

The exported functions that make objects take a database handle and write the address of the new
object to `out`, or null. An object is given back to the function that frees its kind.
-/

namespace Callbook.Ffi

open Text Handles

/-! ### The crate -/

/-- The errors of the crate, as far as the interface tells them apart. -/
inductive CrateError where
  | io
  | zip
  | csv
  | other
  deriving DecidableEq, Repr

/-- A question to the crate that is answered from files and caches: at another moment it may be
answered otherwise. A panic ends the process. -/
abbrev Question (α : Type) := ℕ → Except Panic (Except CrateError α)

/-- What the interface asks of the crate about a database. The tables of countries, interests and
current US records stay in memory from `open` on; other answers depend on the moment. -/
structure Crate (Db : Type) where
  «open» : Str → Question Db
  lookupReport : Db → Str → Question LookupResult
  profileForCallsign : Db → Str → Question StationProfile
  countryInfo : Db → Str → Except Panic (Option CountryInfo)
  lookupCount : Db → Str → Question (Option LookupCountRecord)
  currentUsCatalog : Db → Option UsCsvFile
  interestCatalog : Db → Option InterestTable
  searchInterest : Db → Str → Question InterestSearch
  /-- `map_for_callsign`, which looks the callsign up, and `render_svg`. -/
  stationSvg : Db → Str → Question (Option Str)
  /-- `Path::to_string_lossy`. -/
  pathText : Path → Str

/-- What is behind the pointers that are handed out. -/
inductive Object (Db : Type) where
  | db (db : Db)
  | lookupResult (result : CallbookLookupResult)
  | profile (profile : CallbookProfile)
  | countryInfo (country : CallbookCountryInfo)
  | lookupCount (count : CallbookLookupCount)
  | usRecord (record : CallbookUsRecord)
  | interestDefinition (definition : CallbookInterestDefinition)
  | interestSearch (search : CallbookInterestSearchResult)

namespace Object

variable {Db : Type}

def db? : Object Db → Option Db
  | .db handle => some handle
  | _ => none

def lookupResult? : Object Db → Option CallbookLookupResult
  | .lookupResult result => some result
  | _ => none

def profile? : Object Db → Option CallbookProfile
  | .profile p => some p
  | _ => none

def countryInfo? : Object Db → Option CallbookCountryInfo
  | .countryInfo country => some country
  | _ => none

def lookupCount? : Object Db → Option CallbookLookupCount
  | .lookupCount count => some count
  | _ => none

def usRecord? : Object Db → Option CallbookUsRecord
  | .usRecord record => some record
  | _ => none

def interestDefinition? : Object Db → Option CallbookInterestDefinition
  | .interestDefinition definition => some definition
  | _ => none

def interestSearch? : Object Db → Option CallbookInterestSearchResult
  | .interestSearch search => some search
  | _ => none

end Object

/-! ### What the functions answer -/

/-- The codes with which these functions fail. -/
inductive Failure where
  | notFound
  | usage
  | openFailed
  deriving DecidableEq, Repr

def Failure.code : Failure → Int32
  | notFound => callbookENotFound
  | usage => callbookEUsage
  | openFailed => callbookEOpenFailed

/-- The C string that starts some bytes. -/
def cString (bytes : Bytes) : Bytes := bytes.takeWhile (· ≠ 0)

/-- The code of an error of `callbook_lookup_modern` and `callbook_profile_for_callsign`. -/
def errorCode : CrateError → Failure
  | .io | .zip | .csv => .openFailed
  | .other => .usage

/-- A function whose text argument is read first. -/
def withText {α : Type} (text : Bytes) (f : Str → Timed Panic (Except Failure α)) :
    Timed Panic (Except Failure α) :=
  match readCstr (some (cString text)) with
  | none => pure (.error .usage)
  | some text => f text

/-- A value, or that there is none. -/
def orNotFound {α : Type} : Option α → Except Failure α
  | none => .error .notFound
  | some a => .ok a

namespace Crate

variable {Db : Type} (crate : Crate Db)

def openAnswer (path : Bytes) : Timed Panic (Except Failure Db) :=
  withText path fun path => do
    let result ← Timed.ask (crate.open path)
    pure (result.mapError fun _ => .openFailed)

def lookupAnswer (callsign : Bytes) (handle : Db) : Timed Panic (Except Failure LookupResult) :=
  withText callsign fun call => do
    let result ← Timed.ask (crate.lookupReport handle call)
    pure (result.mapError errorCode)

def profileAnswer (callsign : Bytes) (handle : Db) : Timed Panic (Except Failure StationProfile) :=
  withText callsign fun call => do
    let profile ← Timed.ask (crate.profileForCallsign handle call)
    pure (profile.mapError errorCode)

def countryAnswer (callsign : Bytes) (handle : Db) : Timed Panic (Except Failure CountryInfo) :=
  withText callsign fun call => do
    let country ← crate.countryInfo handle call
    pure (orNotFound country)

def lookupCountAnswer (callsign : Bytes) (handle : Db) :
    Timed Panic (Except Failure LookupCountRecord) :=
  withText callsign fun call => do
    match ← Timed.ask (crate.lookupCount handle call) with
    | .error _ => pure (.error .usage)
    | .ok count => pure (orNotFound count)

def usAnswer (callsign : Bytes) (handle : Db) : Timed Panic (Except Failure UsCsvRecord) :=
  withText callsign fun call =>
    pure (orNotFound ((crate.currentUsCatalog handle).bind fun catalog => catalog.get call))

def usRecordAnswer (index : ℤ) (handle : Db) : Timed Panic (Except Failure UsCsvRecord) :=
  if index < 0 then pure (.error .usage)
  else
    pure (orNotFound
      ((crate.currentUsCatalog handle).bind fun catalog => catalog.recordList[index.toNat]?))

def definitionAnswer (code : Bytes) (handle : Db) :
    Timed Panic (Except Failure InterestDefinition) :=
  withText code fun code =>
    pure (orNotFound ((crate.interestCatalog handle).bind fun catalog => catalog.lookup code))

def definitionAtAnswer (index : ℤ) (handle : Db) :
    Timed Panic (Except Failure InterestDefinition) :=
  if index < 0 then pure (.error .usage)
  else
    pure (orNotFound
      ((crate.interestCatalog handle).bind fun catalog => catalog.definitions[index.toNat]?))

def searchAnswer (code : Bytes) (handle : Db) : Timed Panic (Except Failure InterestSearch) :=
  withText code fun code => do
    let search ← Timed.ask (crate.searchInterest handle code)
    pure (search.mapError fun _ => .usage)

/-- `map_svg`. -/
def mapSvg (callsign : Bytes) (handle : Db) : Timed Panic (Except Failure Str) :=
  withText callsign fun call => do
    match ← Timed.ask (crate.stationSvg handle call) with
    | .error _ => pure (.error .usage)
    | .ok svg => pure (orNotFound svg)

end Crate

/-- The answer about a database; a null pointer is a wrong argument. -/
def answerOf {Db α : Type} (db : Option Db) (answer : Db → Timed Panic (Except Failure α)) :
    Timed Panic (Except Failure α) :=
  match db with
  | none => pure (.error .usage)
  | some handle => answer handle

/-! ### The exported functions -/

section Exports

variable {Db Owner : Type} (A : Allocator (Object Db)) (crate : Crate Db)

/-- A program that uses the interface. -/
abbrev Native (Db Owner : Type) := Program (Object Db) Owner Panic

/-- A code, and the address that is written to `out`. -/
def handOut {α : Type} (toObject : α → Object Db) :
    Except Failure α → Native Db Owner (Int32 × ℕ)
  | .error failure => pure (failure.code, 0)
  | .ok a => do
    let out ← Program.intoRaw A (toObject a)
    pure (0, out)

/-- What a database handle points at. -/
def dbAt (db : ℕ) : Pointer (Object Db) Db := ⟨db, Object.db?⟩

/-- A function that takes a database handle and makes an object. -/
def withDb {α : Type} (toObject : α → Object Db) (db : ℕ)
    (answer : Db → Timed Panic (Except Failure α)) : Native Db Owner (Int32 × ℕ) := do
  match ← Program.ofRead (dbAt db).asRef with
  | none => pure (callbookEUsage, 0)
  | some handle => do
    let x ← Program.ofTimed (answer handle)
    handOut A toObject x

def callbookOpen (path : Bytes) : Native Db Owner (Int32 × ℕ) := do
  let x ← Program.ofTimed (crate.openAnswer path)
  handOut A .db x

def callbookLookupModern (db : ℕ) (callsign : Bytes) : Native Db Owner (Int32 × ℕ) :=
  withDb A (fun r => .lookupResult (.ofLookupResult r)) db (crate.lookupAnswer callsign)

def callbookProfileForCallsign (db : ℕ) (callsign : Bytes) : Native Db Owner (Int32 × ℕ) :=
  withDb A (fun p => .profile (.ofStationProfile crate.pathText p)) db
    (crate.profileAnswer callsign)

def callbookCountryInfoForCallsign (db : ℕ) (callsign : Bytes) : Native Db Owner (Int32 × ℕ) :=
  withDb A (fun c => .countryInfo (.ofCountryInfo c)) db (crate.countryAnswer callsign)

def callbookLookupCountForCallsign (db : ℕ) (callsign : Bytes) : Native Db Owner (Int32 × ℕ) :=
  withDb A (fun c => .lookupCount (.ofLookupCountRecord c)) db (crate.lookupCountAnswer callsign)

def callbookCurrentUsRecordCount (db : ℕ) : Read (Object Db) ℤ :=
  (dbAt db).read 0 fun handle =>
    (crate.currentUsCatalog handle).elim 0 fun catalog => (clampLen catalog.len).toInt

def callbookCurrentUsRecordGet (db : ℕ) (index : ℤ) : Native Db Owner (Int32 × ℕ) :=
  withDb A (fun r => .usRecord (.ofUsCsvRecord r)) db (crate.usRecordAnswer index)

def callbookCurrentUsLookup (db : ℕ) (callsign : Bytes) : Native Db Owner (Int32 × ℕ) :=
  withDb A (fun r => .usRecord (.ofUsCsvRecord r)) db (crate.usAnswer callsign)

def callbookInterestCatalogLen (db : ℕ) : Read (Object Db) ℤ :=
  (dbAt db).read 0 fun handle =>
    (crate.interestCatalog handle).elim 0 fun catalog => (clampLen catalog.definitions.length).toInt

def callbookInterestCatalogGet (db : ℕ) (index : ℤ) : Native Db Owner (Int32 × ℕ) :=
  withDb A (fun d => .interestDefinition (.ofInterestDefinition d)) db
    (crate.definitionAtAnswer index)

def callbookInterestCatalogLookup (db : ℕ) (code : Bytes) : Native Db Owner (Int32 × ℕ) :=
  withDb A (fun d => .interestDefinition (.ofInterestDefinition d)) db (crate.definitionAnswer code)

def callbookInterestSearchForCode (db : ℕ) (code : Bytes) : Native Db Owner (Int32 × ℕ) :=
  withDb A (fun s => .interestSearch (.ofInterestSearch s)) db (crate.searchAnswer code)

/-- A function on the map of a station, with what the renderer yields at this moment. -/
def withSvg {α : Type} (db : ℕ) (callsign : Bytes)
    (f : (Db → Str → Except Int32 Str) → Option Db → Option Bytes → α) : Native Db Owner α := do
  let handle ← Program.ofRead (dbAt db).asRef
  let svg ← Program.ofTimed (answerOf handle (crate.mapSvg callsign))
  pure (f (fun _ _ => svg.mapError Failure.code) handle (some (cString callsign)))

def callbookClose (db : ℕ) : Native Db Owner Unit :=
  Program.free (fun o => o.db?.isSome) db

def callbookResultFree (result : ℕ) : Native Db Owner Unit :=
  Program.free (fun o => o.lookupResult?.isSome) result

def callbookProfileFree (profile : ℕ) : Native Db Owner Unit :=
  Program.free (fun o => o.profile?.isSome) profile

def callbookCountryInfoFree (country : ℕ) : Native Db Owner Unit :=
  Program.free (fun o => o.countryInfo?.isSome) country

def callbookLookupCountFree (count : ℕ) : Native Db Owner Unit :=
  Program.free (fun o => o.lookupCount?.isSome) count

def callbookUsRecordFree (record : ℕ) : Native Db Owner Unit :=
  Program.free (fun o => o.usRecord?.isSome) record

def callbookInterestDefinitionFree (definition : ℕ) : Native Db Owner Unit :=
  Program.free (fun o => o.interestDefinition?.isSome) definition

def callbookInterestSearchFree (search : ℕ) : Native Db Owner Unit :=
  Program.free (fun o => o.interestSearch?.isSome) search

end Exports

end Callbook.Ffi
