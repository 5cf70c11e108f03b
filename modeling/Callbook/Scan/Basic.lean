import Callbook.Database.Basic

/-!
# The interest search

The search for an interest code reads the whole DAT file byte by byte. It holds the key and the last
interest value of the record it is in, and looks at them when the record ends.
-/

namespace Callbook

open Text

/-- `trim_ascii_lossy`. -/
def trimAsciiLossy (bytes : Bytes) : Str := Utf8.fromUtf8Lossy (V2Record.trimAscii bytes)

/-- `interest_record_key`: the call is checked, but handed on as it stands. -/
def interestRecordKey (bytes : Bytes) : Option (Str × Option ℕ) := do
  let (callsign, vintage) ← V2Record.splitKey (trimAsciiLossy bytes)
  match Callsign.parse callsign with
  | .error _ => none
  | .ok _ => some (callsign, vintage)

/-- What a scan holds of the record it is in. -/
structure InterestCursor where
  key : Bytes
  interestRaw : Bytes
  currentTag : Option UInt8
  inRecord : Bool
  keyComplete : Bool
  deriving DecidableEq, Repr

namespace InterestCursor

/-- The cursor before the first byte. -/
def new : InterestCursor := ⟨[], [], none, false, false⟩

/-- `start_record`. -/
def startRecord (cursor : InterestCursor) : InterestCursor :=
  { cursor with
    key := []
    interestRaw := []
    currentTag := none
    inRecord := true
    keyComplete := false }

/-- A byte that does not open a record. -/
def push (cursor : InterestCursor) (decoded : UInt8) : InterestCursor :=
  if V2Record.isTag decoded ∧ cursor.inRecord then
    { cursor with
      keyComplete := true
      currentTag := some decoded
      interestRaw := if decoded = 0xd5 then [] else cursor.interestRaw }
  else if cursor.inRecord ∧ ¬ cursor.keyComplete then
    { cursor with key := cursor.key ++ [decoded] }
  else if cursor.inRecord ∧ cursor.currentTag = some 0xd5 then
    { cursor with interestRaw := cursor.interestRaw ++ [decoded] }
  else cursor

end InterestCursor

/-- One callsign snapshot containing an interest-profile code. -/
structure InterestSearchMatch where
  /-- Callsign without `:YYYY`. -/
  callsign : Str
  vintage : Option ℕ
  deriving DecidableEq, Repr

/-- By callsign, then by vintage. -/
def matchOrder (a b : InterestSearchMatch) : Ordering :=
  (compare a.callsign b.callsign).then (compare a.vintage b.vintage)

structure InterestSearchScan extends InterestCursor where
  target : Str
  found : List InterestSearchMatch

namespace InterestSearchScan

/-- `InterestSearchScan::new`. -/
def new (target : Str) : InterestSearchScan := { InterestCursor.new with target, found := [] }

/-- `finish_record`. -/
def finishRecord (scan : InterestSearchScan) : InterestSearchScan :=
  if ¬ scan.inRecord ∨ scan.interestRaw = [] then scan
  else
    match interestRecordKey scan.key with
    | none => scan
    | some (callsign, vintage) =>
      if scan.target ∈ InterestTable.codes (trimAsciiLossy scan.interestRaw) then
        { scan with found := scan.found ++ [⟨callsign, vintage⟩] }
      else scan

/-- One byte of `scan_dat`. -/
def scanByte (scan : InterestSearchScan) (decoded : UInt8) : InterestSearchScan :=
  if isSentinel decoded then
    { scan.finishRecord with toInterestCursor := scan.finishRecord.toInterestCursor.startRecord }
  else { scan with toInterestCursor := scan.toInterestCursor.push decoded }

/-- `scan_dat`. -/
def scanDat (scan : InterestSearchScan) (encoded : Bytes) : InterestSearchScan :=
  ((decodeDat encoded).foldl scanByte scan).finishRecord

/-- `finish`. -/
def finish (scan : InterestSearchScan) : List InterestSearchMatch :=
  (StableSort.sortBy matchOrder scan.found).destutter (· ≠ ·)

end InterestSearchScan

/-- `scan_interest_code`. -/
def scanInterestCode (encoded : Bytes) (target : Str) : List InterestSearchMatch :=
  ((InterestSearchScan.new target).scanDat encoded).finish

/-- `normalize_interest_code`. -/
def normalizeInterestCode (code : Str) : Except Error Str :=
  let code := Utf8.trim code
  if code.length = 4 ∧ code.all isAsciiDigit then .ok code else .error (.invalidInterestCode code)

/-- Interest-profile search result. -/
structure InterestSearch where
  code : Str
  /-- Catalog definition for the code, when known. -/
  definition : Option InterestDefinition
  found : List InterestSearchMatch
  deriving DecidableEq, Repr

namespace CallBook

variable (db : CallBook)

/-- `CallBook::interest_catalog`. -/
def interestCatalog : Option InterestTable := do
  let v2 ← db.v2
  v2.interests

/-- `CallBook::search_interest`; the field `matches` is `found` here. -/
def searchInterest (code : Str) : Except Error InterestSearch := do
  let code ← normalizeInterestCode code
  let definition := db.interestCatalog.bind (·.lookup code)
  match db.v2 with
  | none => pure ⟨code, definition, []⟩
  | some v2 => pure ⟨code, definition, scanInterestCode v2.datMmap code⟩

end CallBook

end Callbook
