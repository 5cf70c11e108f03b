import Callbook.Callsign

/-!
# The current-US catalog

The catalog in `usa.csv.zip`. The zip and csv readers are outside the model: a catalog is built
from the rows of byte fields that they yield.
-/

namespace Callbook

open Text

/-- Current US callsign record from `usa.csv`. -/
structure UsCsvRecord where
  callsign : Str
  «class» : Str
  name : Str
  address : Str
  city : Str
  state : Str
  zip : Str
  county : Str
  licenseIssueDate : Str
  fccTransactionType : Str
  deriving DecidableEq, Repr

/-- The records by uppercase callsign. -/
abbrev UsCsvRecords := Std.ExtTreeMap Str UsCsvRecord

namespace UsCsv

def trimAscii (bytes : Bytes) : Bytes := trimBy isAsciiWhitespace bytes

def field (row : List Bytes) (index : ℕ) : Str :=
  (row[index]?.map fun bytes => Utf8.fromUtf8Lossy (trimAscii bytes)).getD []

/-- One row: a record goes under its uppercase callsign and replaces an earlier one there. -/
def insertRow (records : UsCsvRecords) (row : List Bytes) : UsCsvRecords :=
  let callsign := field row 0
  if callsign = [] then records
  else
    records.insert (toAsciiUppercase callsign)
      { callsign
        «class» := field row 1
        name := field row 2
        address := field row 3
        city := field row 4
        state := field row 5
        zip := field row 6
        county := field row 7
        licenseIssueDate := field row 8
        fccTransactionType := field row 9 }

def readCsv (rows : List (List Bytes)) : UsCsvRecords := rows.foldl insertRow ∅

/-- Every record stands under its uppercase callsign. -/
def Keyed (records : UsCsvRecords) : Prop :=
  ∀ (key : Str) (r : UsCsvRecord), records[key]? = some r → key = toAsciiUppercase r.callsign

lemma keyed_insertRow {records : UsCsvRecords} (h : Keyed records) (row : List Bytes) :
    Keyed (insertRow records row) := by
  rw [insertRow]
  split_ifs with hempty
  · exact h
  · intro key r hr
    rw [Std.ExtTreeMap.getElem?_insert] at hr
    split_ifs at hr with hkey
    · rw [Option.some.injEq] at hr
      rw [← Std.LawfulEqCmp.eq_of_compare hkey, ← hr]
    · exact h key r hr

lemma keyed_readCsv (rows : List (List Bytes)) : Keyed (readCsv rows) := by
  have hfold : ∀ records, Keyed records → Keyed (rows.foldl insertRow records) := by
    induction rows with
    | nil => exact fun _ h => h
    | cons row rows ih => exact fun records h => ih _ (keyed_insertRow h row)
  exact hfold ∅ fun key r h => by simp at h

end UsCsv

/-- Opened `usa.csv.zip` catalog. -/
structure UsCsvFile where
  records : UsCsvRecords
  callsigns : List Str
  keyed : UsCsv.Keyed records
  callsigns_eq : callsigns = records.keys

namespace UsCsvFile

/-- `UsCsvFile::open` on the rows of the catalog. -/
def «open» (rows : List (List Bytes)) : UsCsvFile :=
  let records := UsCsv.readCsv rows
  ⟨records, records.keys, UsCsv.keyed_readCsv rows, rfl⟩

def normalizedLookupKey (callsign : Str) : Option Str :=
  let target := toAsciiUppercase (Utf8.trim callsign)
  if target ≠ [] ∧ 0x3a ∉ target then some target else none

/-- `UsCsvFile::get`. -/
def get (file : UsCsvFile) (callsign : Str) : Option UsCsvRecord := do
  let target ← normalizedLookupKey callsign
  file.records[target]?

end UsCsvFile

end Callbook
