import Callbook.Ffi.Exports
import Callbook.Python.Reading

/-!
# The objects of the Python package

A database, a lookup result, a profile and a search each own a pointer until they are closed. Other
results are read at once and freed; a generator of records owns the record that it has just yielded.
The program that uses the package makes any calls in any order.
-/

namespace Callbook.Python

open Text Handles Ffi

/-! ### Objects -/

/-- The generators `current_us_records` and `interest_definitions`. -/
inductive Listing where
  | currentUsRecords
  | interestDefinitions
  deriving DecidableEq, Repr

/-- How far a generator has come: the indices it has not asked for, and `out` of the last one. -/
inductive Generator where
  | created
  | suspended (rest : List ℕ) (out : ℕ)
  | finished
  deriving DecidableEq, Repr

/-- An object of the package; a generator has the index of its database. -/
inductive Instance where
  | callBook (pointer : ℕ)
  | lookupResult (pointer : ℕ)
  | stationProfile (pointer : ℕ)
  | interestSearch (pointer : ℕ)
  | generator (listing : Listing) (self : ℕ) (state : Generator)
  deriving DecidableEq, Repr

/-- The pointer that an object owns, 0 when it owns none. -/
def Instance.pointer : Instance → ℕ
  | callBook p | lookupResult p | stationProfile p | interestSearch p => p
  | generator _ _ (.suspended _ out) => out
  | generator _ _ _ => 0

inductive Attribute where
  | query | status | current | history
  | callsign | historySnapshotCount | historyVintages | country | lookupCount | assets
  | code | definition | found
  deriving DecidableEq, Repr

inductive Value where
  | text (s : Str)
  | status (s : String)
  | number (n : ℤ)
  | numbers (l : List ℤ)
  | snapshot (s : Option CallSnapshot)
  | snapshots (l : List CallSnapshot)
  | country (c : Option CountryInfo)
  | lookupCount (c : Option LookupCount)
  | assets (l : List Asset)
  | usRecord (r : Option UsRecord)
  | definition (d : Option InterestDefinition)
  | found (l : List InterestSearchMatch)
  | svg (s : Option Str)
  deriving DecidableEq, Repr

/-- What a call gives back. -/
inductive Outcome where
  | value (v : Value)
  | object (i : ℕ)
  | none
  | callBookError (e : CallBookError)
  | attributeError
  | typeError
  | stopIteration
  deriving DecidableEq, Repr

/-- The calls. `close` stands for `close`, `__exit__` and `__del__`, and for the end of a generator
that is closed or no longer used. -/
inductive Call where
  | «open» (path : Bytes)
  | lookup (self : ℕ) (callsign : Bytes)
  | profile (self : ℕ) (callsign : Bytes)
  | searchInterest (self : ℕ) (code : Bytes)
  | countryInfo (self : ℕ) (callsign : Bytes)
  | lookupCount (self : ℕ) (callsign : Bytes)
  | currentUsLookup (self : ℕ) (callsign : Bytes)
  | interestDefinition (self : ℕ) (code : Bytes)
  | mapSvg (self : ℕ) (callsign : Bytes)
  | list (listing : Listing) (self : ℕ)
  | next (self : ℕ)
  | get (self : ℕ) (name : Attribute)
  | close (self : ℕ)
  deriving DecidableEq, Repr

/-! ### Reading an attribute -/

section Attributes

variable {Db : Type} (pointer : ℕ)

def resultAt : Pointer (Object Db) CallbookLookupResult := ⟨pointer, Object.lookupResult?⟩

def profileAt : Pointer (Object Db) CallbookProfile := ⟨pointer, Object.profile?⟩

def searchAt : Pointer (Object Db) CallbookInterestSearchResult := ⟨pointer, Object.interestSearch?⟩

/-- A value that cannot be an error. -/
def returns {α β : Type} (f : α → β) (x : Read (Object Db) α) :
    Read (Object Db) (Except CallBookError β) := do
  let a ← x
  pure (.ok (f a))

/-- The properties of `LookupResult`. -/
def LookupResult.get (name : Attribute) :
    Option (Read (Object Db) (Except CallBookError Value)) :=
  let p := resultAt pointer
  match name with
  | .query => some (returns (.text ∘ decode) (callbookResultQuery p))
  | .status => some (returns (.status ∘ lookupStatusName) (callbookResultStatus p))
  | .current => some (returns .snapshot do CallSnapshot.fromPtr (← callbookResultCurrent p))
  | .history =>
    some (returns .snapshots
      (readList (callbookResultHistoryLen p) (callbookResultHistoryGet p) CallSnapshot.fromPtr))
  | _ => none

/-- The loop of `history_vintages`, which leaves nothing out. -/
def historyVintages (p : Pointer (Object Db) CallbookProfile) : Read (Object Db) (List ℤ) := do
  let n ← callbookProfileHistoryVintageLen p
  (List.range n.toNat).mapM fun index : ℕ => callbookProfileHistoryVintageGet p index

/-- The properties of `StationProfile`. -/
def StationProfile.get (name : Attribute) :
    Option (Read (Object Db) (Except CallBookError Value)) :=
  let p := profileAt pointer
  match name with
  | .callsign => some (returns (.text ∘ decode) (callbookProfileCallsign p))
  | .status => some (returns (.status ∘ lookupStatusName) (callbookProfileStatus p))
  | .current => some (returns .snapshot do CallSnapshot.fromPtr (← callbookProfileCurrent p))
  | .historySnapshotCount => some (returns .number (callbookProfileHistorySnapshotCount p))
  | .historyVintages => some (returns .numbers (historyVintages p))
  | .country => some do
    let country ← CountryInfo.fromPtr (← callbookProfileCountry p)
    pure (country.map .country)
  | .lookupCount =>
    some (returns .lookupCount do LookupCount.fromPtr (← callbookProfileLookupCount p))
  | .assets =>
    some (returns .assets
      (readList (callbookProfileAssetLen p) (callbookProfileAssetGet p) Asset.fromPtr))
  | _ => none

/-- The properties of `InterestSearch`; `matches` is `found` here. -/
def InterestSearch.get (name : Attribute) :
    Option (Read (Object Db) (Except CallBookError Value)) :=
  let p := searchAt pointer
  match name with
  | .code => some (returns (.text ∘ decode) (callbookInterestSearchCode p))
  | .definition =>
    some (returns .definition do
      InterestDefinition.fromPtr (← callbookInterestSearchDefinition p))
  | .found =>
    some (returns .found
      (readList (callbookInterestSearchMatchLen p) (callbookInterestSearchMatchGet p)
        InterestSearchMatch.fromPtr))
  | _ => none

end Attributes

/-- An attribute of an object, if its class has it. -/
def Instance.get {Db : Type} (object : Instance) (name : Attribute) :
    Option (Read (Object Db) (Except CallBookError Value)) :=
  match object with
  | lookupResult p => LookupResult.get p name
  | stationProfile p => StationProfile.get p name
  | interestSearch p => InterestSearch.get p name
  | callBook _ | generator _ _ _ => none

/-! ### Methods -/

section Methods

variable {Db : Type} (A : Allocator (Object Db)) (crate : Crate Db)

/-- A program that uses the package. -/
abbrev Script (Db : Type) := Native Db Instance

/-- Make an object around the pointer that a function hands out. -/
def wrap (make : ℕ → Instance) (call : Script Db (Int32 × ℕ)) (context : String) :
    Script Db Outcome := do
  let (code, out) ← call
  match check code context with
  | .error e => pure (.callBookError e)
  | .ok () =>
    if out = 0 then pure .typeError
    else do
      let i ← Program.push (make out)
      pure (.object i)

/-- Read what a function hands out, and free it in any case. -/
def fetch {α β : Type} (call : Script Db (Int32 × ℕ)) (part : Object Db → Option α)
    (fromPtr : Pointer (Object Db) α → Read (Object Db) (Except CallBookError (Option β)))
    (free : ℕ → Script Db Unit) (value : Option β → Value) (context : String) :
    Script Db Outcome := do
  let (code, out) ← call
  if code = callbookENotFound then pure (.value (value none))
  else
    match check code context with
    | .error e => pure (.callBookError e)
    | .ok () =>
      if out = 0 then pure .typeError
      else do
        let record ← Program.ofRead (fromPtr ⟨out, part⟩)
        free out
        match record with
        | .error e => pure (.callBookError e)
        | .ok record => pure (.value (value record))

/-- A record that is read without an error. -/
def total {α β : Type} (fromPtr : Pointer (Object Db) α → Read (Object Db) (Option β))
    (p : Pointer (Object Db) α) : Read (Object Db) (Except CallBookError (Option β)) := do
  let record ← fromPtr p
  pure (.ok record)

/-- `buf.value`. -/
def bufferValue (len : Int32) (memory : Memory) : Bytes :=
  ((List.range len.toInt.toNat).map memory).takeWhile (· ≠ 0)

/-- What `map_svg` makes of the buffer that is written. -/
def drawing (required : Int32) (written : Written) : Outcome :=
  match check (if written.code < 0 then written.code else 0) "render map svg" with
  | .error e => .callBookError e
  | .ok () => .value (.svg (written.outBuf.map fun memory => decode (bufferValue required memory)))

/-- `CallBook.map_svg`, on a buffer that starts with zeros. The map is rendered for its length, and
rendered again. -/
def CallBook.mapSvg (db : ℕ) (callsign : Bytes) : Script Db Outcome := do
  let required ← withSvg crate db callsign callbookMapSvgRequiredLen
  if required = callbookENotFound then pure (.value (.svg none))
  else
    match check (if required < 0 then required else 0) "render map svg" with
    | .error e => pure (.callBookError e)
    | .ok () => do
      let written ← withSvg crate db callsign fun render handle call =>
        callbookMapSvg render handle call (some fun _ => 0) required
      pure (drawing required written)

/-- The pointer of the database of a generator. -/
def selfPointer (self : ℕ) : Script Db ℕ := do
  match ← Program.owner? self with
  | some (.callBook p) => pure p
  | _ => pure 0

namespace Listing

variable (listing : Listing)

/-- The number of records, read when the generator starts. -/
def len (db : ℕ) : Read (Object Db) ℤ :=
  match listing with
  | currentUsRecords => callbookCurrentUsRecordCount crate db
  | interestDefinitions => callbookInterestCatalogLen crate db

def context : String :=
  match listing with
  | currentUsRecords => "read current US record"
  | interestDefinitions => "read interest definition"

def getAt (db index : ℕ) : Script Db (Int32 × ℕ) :=
  match listing with
  | currentUsRecords => callbookCurrentUsRecordGet A crate db index
  | interestDefinitions => callbookInterestCatalogGet A crate db index

/-- The record to yield, or none to go on. -/
def record (out : ℕ) : Read (Object Db) (Option Value) :=
  match listing with
  | currentUsRecords => do
    let record ← UsRecord.fromPtr ⟨out, Object.usRecord?⟩
    pure (record.map fun record => .usRecord (some record))
  | interestDefinitions => do
    let definition ← InterestDefinition.fromPtr ⟨out, Object.interestDefinition?⟩
    pure (definition.map fun definition => .definition (some definition))

def free (out : ℕ) : Script Db Unit :=
  match listing with
  | currentUsRecords => callbookUsRecordFree out
  | interestDefinitions => callbookInterestDefinitionFree out

/-- Run a generator, its index `i`, to the next `yield`. -/
def resume (self i : ℕ) : List ℕ → Script Db Outcome
  | [] => do
    Program.setOwner i (.generator listing self .finished)
    pure .stopIteration
  | index :: rest => do
    let db ← selfPointer self
    let (code, out) ← listing.getAt A crate db index
    match check code listing.context with
    | .error e =>
      Program.setOwner i (.generator listing self .finished)
      pure (.callBookError e)
    | .ok () =>
      if out = 0 then do
        Program.setOwner i (.generator listing self .finished)
        pure .typeError
      else do
        match ← Program.ofRead (listing.record out) with
        | some value =>
          Program.setOwner i (.generator listing self (.suspended rest out))
          pure (.value value)
        | none =>
          listing.free out
          resume self i rest

end Listing

/-- `next` of a generator. The record that it yielded last is freed before it goes on, and while it
runs it owns nothing. -/
def next (i : ℕ) : Script Db Outcome := do
  match ← Program.owner? i with
  | some (.generator _ _ .finished) => pure .stopIteration
  | some (.generator listing self .created) =>
    let db ← selfPointer self
    let n ← Program.ofRead (listing.len crate db)
    listing.resume A crate self i (List.range n.toNat)
  | some (.generator listing self (.suspended rest out)) =>
    listing.free out
    Program.setOwner i (.generator listing self .finished)
    listing.resume A crate self i rest
  | some _ => pure .typeError
  | none => pure .attributeError

/-- `close` of an object: a pointer that is not 0 is freed, and forgotten. -/
def close (i : ℕ) : Script Db Outcome := do
  match ← Program.owner? i with
  | some (.callBook p) =>
    callbookClose p
    Program.setOwner i (.callBook 0)
    pure .none
  | some (.lookupResult p) =>
    callbookResultFree p
    Program.setOwner i (.lookupResult 0)
    pure .none
  | some (.stationProfile p) =>
    callbookProfileFree p
    Program.setOwner i (.stationProfile 0)
    pure .none
  | some (.interestSearch p) =>
    callbookInterestSearchFree p
    Program.setOwner i (.interestSearch 0)
    pure .none
  | some (.generator listing self (.suspended _ out)) =>
    listing.free out
    Program.setOwner i (.generator listing self .finished)
    pure .none
  | some (.generator listing self _) =>
    Program.setOwner i (.generator listing self .finished)
    pure .none
  | none => pure .attributeError

/-- A method of a database. -/
def onCallBook (self : ℕ) (method : ℕ → Script Db Outcome) : Script Db Outcome := do
  match ← Program.owner? self with
  | some (.callBook db) => method db
  | _ => pure .attributeError

/-- One call. -/
def run : Call → Script Db Outcome
  | .open path => wrap .callBook (callbookOpen A crate path) "open database"
  | .lookup self callsign => onCallBook self fun db =>
    wrap .lookupResult (callbookLookupModern A crate db callsign) "lookup callsign"
  | .profile self callsign => onCallBook self fun db =>
    wrap .stationProfile (callbookProfileForCallsign A crate db callsign) "build station profile"
  | .searchInterest self code => onCallBook self fun db =>
    wrap .interestSearch (callbookInterestSearchForCode A crate db code) "search interest"
  | .countryInfo self callsign => onCallBook self fun db =>
    fetch (callbookCountryInfoForCallsign A crate db callsign) Object.countryInfo?
      CountryInfo.fromPtr callbookCountryInfoFree .country "lookup country info"
  | .lookupCount self callsign => onCallBook self fun db =>
    fetch (callbookLookupCountForCallsign A crate db callsign) Object.lookupCount?
      (total LookupCount.fromPtr) callbookLookupCountFree .lookupCount "lookup count"
  | .currentUsLookup self callsign => onCallBook self fun db =>
    fetch (callbookCurrentUsLookup A crate db callsign) Object.usRecord?
      (total UsRecord.fromPtr) callbookUsRecordFree .usRecord "lookup current US record"
  | .interestDefinition self code => onCallBook self fun db =>
    fetch (callbookInterestCatalogLookup A crate db code) Object.interestDefinition?
      (total InterestDefinition.fromPtr) callbookInterestDefinitionFree .definition
      "lookup interest definition"
  | .mapSvg self callsign => onCallBook self fun db => CallBook.mapSvg crate db callsign
  | .list listing self => onCallBook self fun _ => do
    let i ← Program.push (.generator listing self .created)
    pure (.object i)
  | .next self => next A crate self
  | .get self name => do
    match ← Program.owner? self with
    | none => pure .attributeError
    | some object =>
      match object.get name with
      | none => pure .attributeError
      | some read =>
        match ← Program.ofRead read with
        | .error e => pure (.callBookError e)
        | .ok value => pure (.value value)
  | .close self => close self

/-- Calls one after the other, with what each gives back. -/
def runs : List Call → Script Db (List Outcome)
  | [] => pure []
  | call :: rest => do
    let outcome ← run A crate call
    let outcomes ← runs rest
    pure (outcome :: outcomes)

end Methods

end Callbook.Python
