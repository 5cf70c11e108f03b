import Callbook.Python.Objects

/-!
# What the Python package means

What the calls are to mean, without pointers and memory: an object has a result of the crate until
it is closed, and a method of a database gives back what the crate answers at that moment.
-/

namespace Callbook.Python

open Text Handles Ffi

/-- How far a generator has come. -/
inductive Progress where
  | created
  | suspended (rest : List ℕ)
  | finished
  deriving DecidableEq, Repr

/-- What an object stands for; nothing is left of a result that is closed. -/
inductive Entity (Db : Type) where
  | callBook (db : Option Db)
  | lookupResult (result : Option Callbook.LookupResult)
  | stationProfile (profile : Option Callbook.StationProfile)
  | interestSearch (search : Option Callbook.InterestSearch)
  | generator (listing : Listing) (self : ℕ) (progress : Progress)

variable {Db : Type} (crate : Crate Db)

namespace Entity

/-- Whether an object is open, or a generator waits at a `yield`. -/
def isOpen : Entity Db → Bool
  | callBook db => db.isSome
  | lookupResult result => result.isSome
  | stationProfile profile => profile.isSome
  | interestSearch search => search.isSome
  | generator _ _ (.suspended _) => true
  | generator _ _ _ => false

/-- The object after `close`. -/
def closed : Entity Db → Entity Db
  | callBook _ => callBook none
  | lookupResult _ => lookupResult none
  | stationProfile _ => stationProfile none
  | interestSearch _ => interestSearch none
  | generator listing self _ => generator listing self .finished

end Entity

/-! ### Attributes -/

def resultAttribute (result : Option Callbook.LookupResult) : Attribute → Option Value
  | .query => some (.text (result.elim [] fun r => text r.query))
  | .status => some (.status (statusName (result.elim .notFound (·.status))))
  | .current => some (.snapshot ((result.bind (·.current)).map .ofCallSnapshot))
  | .history =>
    some (.snapshots (((result.elim [] (·.history)).take maxLen).map .ofCallSnapshot))
  | _ => none

def profileAttribute (profile : Option Callbook.StationProfile) : Attribute → Option Value
  | .callsign => some (.text (profile.elim [] fun p => text p.callsign))
  | .status => some (.status (statusName (profile.elim .notFound (·.status))))
  | .current => some (.snapshot ((profile.bind (·.current)).map .ofCallSnapshot))
  | .historySnapshotCount =>
    some (.number (min (profile.elim 0 (·.history.snapshotCount)) maxLen : ℕ))
  | .historyVintages =>
    some (.numbers (((profile.elim [] (·.history.vintages)).take maxLen).map fun year : ℕ =>
      (year : ℤ)))
  | .country => some (.country ((profile.bind (·.country)).map .ofCountryInfo))
  | .lookupCount => some (.lookupCount ((profile.bind (·.lookupCount)).map .ofLookupCountRecord))
  | .assets => some (.assets
      (((profile.elim [] fun p => p.assets.photos ++ p.assets.bio.toList ++
        p.assets.countryFlag.toList ++ p.assets.countryMap.toList).take maxLen).map
          (.ofAsset crate.pathText)))
  | _ => none

def searchAttribute (search : Option Callbook.InterestSearch) : Attribute → Option Value
  | .code => some (.text (search.elim [] fun s => text s.code))
  | .definition => some (.definition ((search.bind (·.definition)).map .ofInterestDefinition))
  | .found => some (.found (((search.elim [] (·.found)).take maxLen).map .ofInterestSearchMatch))
  | _ => none

def Entity.get (entity : Entity Db) (name : Attribute) : Option Value :=
  match entity with
  | lookupResult result => resultAttribute result name
  | stationProfile profile => profileAttribute crate profile name
  | interestSearch search => searchAttribute search name
  | callBook _ | generator _ _ _ => none

/-! ### Calls -/

/-- A new object, or an error. -/
def created {α : Type} (entities : List (Entity Db)) (make : α → Entity Db) (context : String) :
    Except Failure α → Outcome × List (Entity Db)
  | .error failure => (.callBookError (.new failure.code context), entities)
  | .ok a => (.object entities.length, entities ++ [make a])

/-- A record, `None` or an error. -/
def found {α β : Type} (record : α → β) (value : Option β → Value) (context : String) :
    Except Failure α → Outcome
  | .error .notFound => .value (value none)
  | .error failure => .callBookError (.new failure.code context)
  | .ok a => .value (value (some (record a)))

/-- A map, up to the first NUL, in a buffer of the size that one of another length asks for. -/
def drawn (measured : Str) : Except Failure Str → Outcome
  | .error failure => .callBookError (.new failure.code "render map svg")
  | .ok svg =>
    if svg.length ≤ measured.length ∧ svg.length < maxLen then
      .value (.svg (some (decode (svg.takeWhile (· ≠ 0)))))
    else .callBookError (.new callbookEBufferTooSmall "render map svg")

/-- The map of a station is asked for twice, first for its length. -/
def drawnTwice (db : Option Db) (callsign : Bytes) : Timed Panic Outcome := do
  match ← answerOf db (crate.mapSvg callsign) with
  | .error .notFound => pure (.value (.svg none))
  | .error failure => pure (.callBookError (.new failure.code "render map svg"))
  | .ok measured => do
    let svg ← answerOf db (crate.mapSvg callsign)
    pure (drawn measured svg)

namespace Listing

variable (listing : Listing)

/-- The number of records that a generator is to yield. -/
def count (db : Option Db) : ℕ :=
  min maxLen <|
    match listing with
    | currentUsRecords => (db.bind crate.currentUsCatalog).elim 0 (·.len)
    | interestDefinitions => (db.bind crate.interestCatalog).elim 0 (·.definitions.length)

/-- The record at an index. -/
def answer (index : ℕ) (handle : Db) : Timed Panic (Except Failure Value) :=
  match listing with
  | currentUsRecords => do
    let record ← crate.usRecordAnswer index handle
    pure (record.map fun record => .usRecord (some (.ofUsCsvRecord record)))
  | interestDefinitions => do
    let definition ← crate.definitionAtAnswer index handle
    pure (definition.map fun definition => .definition (some (.ofInterestDefinition definition)))

/-- The next of the records that are left. -/
def advance (db : Option Db) : List ℕ → Timed Panic (Outcome × Progress)
  | [] => pure (.stopIteration, .finished)
  | index :: rest => do
    match ← answerOf db (listing.answer crate index) with
    | .error failure => pure (.callBookError (.new failure.code listing.context), .finished)
    | .ok value => pure (.value value, .suspended rest)

end Listing

/-- The database of a generator. -/
def dbOf (entities : List (Entity Db)) (self : ℕ) : Option Db :=
  match entities[self]? with
  | some (.callBook db) => db
  | _ => none

/-- A method of a database, which does not change the objects. -/
def asked (entities : List (Entity Db)) (self : ℕ) {α : Type}
    (answer : Db → Timed Panic (Except Failure α)) (outcome : Except Failure α → Outcome) :
    Timed Panic (Outcome × List (Entity Db)) :=
  match entities[self]? with
  | some (.callBook db) => do
    let x ← answerOf db answer
    pure (outcome x, entities)
  | _ => pure (.attributeError, entities)

/-- A method of a database that makes an object. -/
def making (entities : List (Entity Db)) (self : ℕ) {α : Type}
    (answer : Db → Timed Panic (Except Failure α)) (make : α → Entity Db) (context : String) :
    Timed Panic (Outcome × List (Entity Db)) :=
  match entities[self]? with
  | some (.callBook db) => do
    let x ← answerOf db answer
    pure (created entities make context x)
  | _ => pure (.attributeError, entities)

/-- `next` of a generator. -/
def advanced (entities : List (Entity Db)) (i : ℕ) : Timed Panic (Outcome × List (Entity Db)) :=
  match entities[i]? with
  | some (.generator _ _ .finished) => pure (.stopIteration, entities)
  | some (.generator listing self .created) => do
    let db := dbOf entities self
    let (outcome, progress) ← listing.advance crate db (List.range (listing.count crate db))
    pure (outcome, entities.set i (.generator listing self progress))
  | some (.generator listing self (.suspended rest)) => do
    let (outcome, progress) ← listing.advance crate (dbOf entities self) rest
    pure (outcome, entities.set i (.generator listing self progress))
  | some _ => pure (.typeError, entities)
  | none => pure (.attributeError, entities)

/-- One call. -/
def step (entities : List (Entity Db)) : Call → Timed Panic (Outcome × List (Entity Db))
  | .open path => do
    let x ← crate.openAnswer path
    pure (created entities (.callBook ∘ some) "open database" x)
  | .lookup self callsign =>
    making entities self (crate.lookupAnswer callsign) (.lookupResult ∘ some) "lookup callsign"
  | .profile self callsign =>
    making entities self (crate.profileAnswer callsign) (.stationProfile ∘ some)
      "build station profile"
  | .searchInterest self code =>
    making entities self (crate.searchAnswer code) (.interestSearch ∘ some) "search interest"
  | .countryInfo self callsign =>
    asked entities self (crate.countryAnswer callsign)
      (found CountryInfo.ofCountryInfo .country "lookup country info")
  | .lookupCount self callsign =>
    asked entities self (crate.lookupCountAnswer callsign)
      (found LookupCount.ofLookupCountRecord .lookupCount "lookup count")
  | .currentUsLookup self callsign =>
    asked entities self (crate.usAnswer callsign)
      (found UsRecord.ofUsCsvRecord .usRecord "lookup current US record")
  | .interestDefinition self code =>
    asked entities self (crate.definitionAnswer code)
      (found InterestDefinition.ofInterestDefinition .definition "lookup interest definition")
  | .mapSvg self callsign =>
    match entities[self]? with
    | some (.callBook db) => do
      let outcome ← drawnTwice crate db callsign
      pure (outcome, entities)
    | _ => pure (.attributeError, entities)
  | .list listing self =>
    match entities[self]? with
    | some (.callBook _) =>
      pure (.object entities.length, entities ++ [.generator listing self .created])
    | _ => pure (.attributeError, entities)
  | .next self => advanced crate entities self
  | .get self name =>
    pure (((entities[self]?.bind (·.get crate name)).elim .attributeError .value), entities)
  | .close self =>
    match entities[self]? with
    | some entity => pure (.none, entities.set self entity.closed)
    | none => pure (.attributeError, entities)

/-- Calls one after the other. -/
def steps (entities : List (Entity Db)) :
    List Call → Timed Panic (List Outcome × List (Entity Db))
  | [] => pure ([], entities)
  | call :: rest => do
    let (outcome, entities) ← step crate entities call
    let (outcomes, entities) ← steps entities rest
    pure (outcome :: outcomes, entities)

end Callbook.Python
