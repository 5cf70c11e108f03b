import Callbook.Library.Bisect
import Callbook.Library.Framing
import Callbook.Library.Keystream
import Callbook.Callsign

/-!
# The lookup counts

`counts.dat` is an encoded table of 33-byte slots: key, count, date and status. Lookups bisect the
raw slots, iteration walks them in order; slots that hold no record are skipped by both.
-/

namespace Callbook

open Text

/-- One web lookup-count record. -/
structure LookupCountRecord where
  /-- Archive records may include `:YYYY` when it fits. -/
  key : Str
  count : ℕ
  updatedYyyymmdd : Option ℕ
  status : Option UInt8
  deriving DecidableEq, Repr

/-- Random-access reader for the encoded file. -/
structure LookupCountFile where
  mmap : Bytes
  records : ℕ
  records_eq : records = mmap.length / 33

namespace LookupCountFile

def countRecordLen : ℕ := 33

def countKeyLen : ℕ := 15

def countFieldEnd : ℕ := 22

def countDateEnd : ℕ := 30

/-- `LookupCountFile::open`. -/
def «open» (mmap : Bytes) : LookupCountFile := ⟨mmap, mmap.length / countRecordLen, rfl⟩

def decodeV2SidecarByte (offset : ℕ) (encoded : UInt8) : UInt8 :=
  (encoded ^^^ 7) ^^^ UInt8.ofNat ((offset + 4) % 101)

def trimAsciiLossy (bytes : Bytes) : Str :=
  Utf8.fromUtf8Lossy (trimBy (fun b => isAsciiWhitespace b || b == 0) bytes)

/-- `parse_count_record`. -/
def parseCountRecord (record : Bytes) : Option LookupCountRecord :=
  let key := trimAsciiLossy (record.take countKeyLen)
  if key = [] then none
  else do
    let count ←
      parseUnsigned (2 ^ 32 - 1) (trimAsciiLossy (Framing.slice record countKeyLen countFieldEnd))
    let updated :=
      (parseUnsigned (2 ^ 32 - 1) (trimAsciiLossy (Framing.slice record countFieldEnd countDateEnd))
        ).filter fun date => 19900101 ≤ date && date ≤ 21000101
    some ⟨key, count, updated, record[countDateEnd]?.filter isAsciiGraphic⟩

def repeatedKey (key : Str) (byte : UInt8) : Bool := key ≠ [] && key.all (· == byte)

variable (file : LookupCountFile)

def decodedSlot (index : ℕ) : Option Bytes :=
  if file.records ≤ index then none
  else
    let start := index * countRecordLen
    some (Keystream.applyFrom decodeV2SidecarByte start
      (Framing.slice file.mmap start (start + countRecordLen)))

def decodedKey (index : ℕ) : Option Str := do
  let record ← file.decodedSlot index
  let key := trimAsciiLossy (record.take countKeyLen)
  if key = [] then none else some key

/-- `LookupCountFile::record`. -/
def record (index : ℕ) : Option LookupCountRecord := file.decodedSlot index >>= parseCountRecord

def hasPrologueAndSentinels : Bool :=
  4 ≤ file.records && (file.decodedKey 0).isNone &&
    (file.decodedKey 2).any (repeatedKey · 0x21) &&
    (file.decodedKey (file.records - 1)).any (repeatedKey · 0x7a)

def searchableRecordRange : ℕ × ℕ :=
  if file.hasPrologueAndSentinels then (3, file.records - 1) else (0, file.records)

/-- The key that a lookup searches for. -/
def lookupKey (callsign : Str) : Str := toAsciiUppercase (Utf8.trim callsign)

/-- The loop of `lookup`; a slot without a key counts as smaller. -/
def lookupLoop (key : Str) : ℕ → ℕ → ℕ → Option LookupCountRecord
  | 0, _, _ => none
  | fuel + 1, low, high =>
    if low < high then
      let mid := low + (high - low) / 2
      match file.decodedKey mid with
      | none => lookupLoop key fuel (mid + 1) high
      | some recordKey =>
        match compare recordKey key with
        | .lt => lookupLoop key fuel (mid + 1) high
        | .gt => lookupLoop key fuel low mid
        | .eq => file.record mid
    else none

/-- `LookupCountFile::lookup`. -/
def lookup (callsign : Str) : Option LookupCountRecord :=
  let key := lookupKey callsign
  if key = [] then none
  else
    let (low, high) := file.searchableRecordRange
    file.lookupLoop key (high - low) low high

end LookupCountFile

/-- Catalog view over the searchable records. -/
structure LookupCounts where
  file : LookupCountFile

namespace LookupCounts

/-- `LookupCounts::open`. -/
def «open» (mmap : Bytes) : LookupCounts := ⟨.open mmap⟩

variable (counts : LookupCounts)

/-- `LookupCounts::len`. -/
def len : ℕ := counts.file.searchableRecordRange.2 - counts.file.searchableRecordRange.1

/-- `LookupCounts::lookup`. -/
def lookup (callsign : Str) : Option LookupCountRecord := counts.file.lookup callsign

/-- The slots of the searchable table. -/
def slots : List ℕ := List.range' counts.file.searchableRecordRange.1 counts.len

/-- `LookupCounts::iter`: the records of the slots that parse. -/
def iter : List LookupCountRecord := counts.slots.filterMap counts.file.record

end LookupCounts

end Callbook
