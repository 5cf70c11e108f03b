import Callbook.Library.Bisect
import Callbook.Library.Framing
import Callbook.Library.Keystream
import Callbook.Library.StableSort
import Callbook.Callsign

/-!
# The HCI index

`hciindex.dat` is a table of big-endian offsets into `hci.dat`. An HCI record is an encoded search
key that ends in `0xb5`, then raw postings of five bytes. Opening a pair hashes the keys of all
records; the postings of a key are found through its hash.
-/

namespace Callbook

open Text

/-- One posting inside an HCI posting list. -/
structure HciPosting where
  datOffset : ℕ
  position : UInt8
  deriving DecidableEq, Repr

@[ext]
structure HciKeyRef where
  hash : UInt64
  index : ℕ
  deriving DecidableEq, Repr

/-- One raw HCI record, addressed by ordinal in `hciindex.dat`. -/
structure RawHciRecord where
  index : ℕ
  datOffset : ℕ
  rawLen : ℕ
  rawBytes : Bytes
  deriving DecidableEq, Repr

namespace Hci

/-- `u32::from_be_bytes`. -/
def u32FromBeBytes (bytes : Bytes) : ℕ := bytes.foldl (fun n b => n * 256 + b.toNat) 0

def decodeHciByte (datOffset zeroBased : ℕ) (encoded : UInt8) : UInt8 :=
  (encoded ^^^ 7) ^^^ UInt8.ofNat ((datOffset + zeroBased + 4) % 101)

/-! ### Headers -/

def hashBasis : UInt64 := 0xcbf29ce484222325

def hashByte (hash : UInt64) (b : UInt8) : UInt64 := (hash ^^^ b.toUInt64) * 0x100000001b3

/-- `hash_key`. -/
def hashKey (key : Bytes) : UInt64 := key.foldl hashByte hashBasis

structure HciHeaderKey where
  hash : UInt64
  key : Bytes
  year : Option ℕ
  headerLen : ℕ
  deriving DecidableEq, Repr

/-- What `decode_header_key` has read of a key. -/
structure HeaderScan where
  hash : UInt64
  key : Bytes
  colonAt : Option ℕ
  year : ℕ
  yearDigits : ℕ
  deriving DecidableEq, Repr

def HeaderScan.start : HeaderScan := ⟨hashBasis, [], none, 0, 0⟩

/-- One key byte: a colon starts a year, four digits fill it, anything else gives it up. -/
def HeaderScan.push (scan : HeaderScan) (zeroBased : ℕ) (decoded : UInt8) : HeaderScan :=
  let scan := { scan with hash := hashByte scan.hash decoded, key := scan.key ++ [decoded] }
  if decoded = 0x3a then { scan with colonAt := some zeroBased, year := 0, yearDigits := 0 }
  else if scan.colonAt.isSome then
    if ¬ isAsciiDigit decoded ∨ 4 ≤ scan.yearDigits then
      { scan with colonAt := none, yearDigits := 0 }
    else
      { scan with
        year := scan.year * 10 + (decoded.toNat - 0x30)
        yearDigits := scan.yearDigits + 1 }
  else scan

/-- The year of a key that has been read: four digits behind its last colon. -/
def HeaderScan.archiveYear (scan : HeaderScan) : Option ℕ :=
  if scan.yearDigits = 4 then some scan.year else none

/-- The loop of `decode_header_key`. -/
def decodeHeaderLoop (datOffset : ℕ) : ℕ → Bytes → HeaderScan → Option HciHeaderKey
  | _, [], _ => none
  | zeroBased, encoded :: rest, scan =>
    let decoded := decodeHciByte datOffset zeroBased encoded
    if decoded = 0xb5 then
      if zeroBased = 0 then none
      else some ⟨scan.hash, scan.key, scan.archiveYear, zeroBased + 1⟩
    else if 0xb4 < decoded ∨ ¬ isPrintable decoded then none
    else decodeHeaderLoop datOffset (zeroBased + 1) rest (scan.push zeroBased decoded)

/-- `decode_header_key`. -/
def decodeHeaderKey (datOffset : ℕ) (rawBytes : Bytes) : Option HciHeaderKey :=
  decodeHeaderLoop datOffset 0 (rawBytes.take 100) .start

/-- The loop of `decoded_header_matches`. -/
def headerMatchesLoop (datOffset : ℕ) (key : Bytes) : ℕ → Bytes → Option ℕ
  | _, [] => none
  | zeroBased, encoded :: rest =>
    let decoded := decodeHciByte datOffset zeroBased encoded
    match key[zeroBased]? with
    | some b =>
      if decoded ≠ b then none else headerMatchesLoop datOffset key (zeroBased + 1) rest
    | none => if decoded = 0xb5 then some (zeroBased + 1) else none

/-- `decoded_header_matches`. -/
def decodedHeaderMatches (datOffset : ℕ) (rawBytes key : Bytes) : Option ℕ :=
  headerMatchesLoop datOffset key 0 (rawBytes.take 100)

/-- The loop of `decode_header`: it ends behind the first byte above `0xb4`. -/
def decodeHeaderBytes (datOffset : ℕ) : ℕ → Bytes → Bytes
  | _, [] => []
  | zeroBased, encoded :: rest =>
    let decoded := decodeHciByte datOffset zeroBased encoded
    if 0xb4 < decoded then [decoded]
    else decoded :: decodeHeaderBytes datOffset (zeroBased + 1) rest

/-- The bytes of `decode_raw_record`. -/
def decodeRawRecord (raw : RawHciRecord) : Bytes :=
  decodeHeaderBytes raw.datOffset 0 (raw.rawBytes.take 100)

/-- `visit_postings`: the postings in the order they are visited. -/
def visitPostings (bytes : Bytes) : List HciPosting :=
  (chunksExact 5 (bytes.take (bytes.length - 1))).map fun chunk =>
    ⟨u32FromBeBytes (chunk.take 4), chunk.getD 4 0⟩

/-! ### Opening -/

/-- The offset at `index`. -/
def offset (indexMmap : Bytes) (index : ℕ) : Option ℕ :=
  if index * 4 + 4 ≤ indexMmap.length then
    some (u32FromBeBytes (Framing.slice indexMmap (index * 4) (index * 4 + 4)))
  else none

/-- What `build_key_index` has collected. -/
structure KeyIndexBuild where
  previous : Option (ℕ × ℕ)
  entries : List HciKeyRef
  years : List ℕ
  deriving DecidableEq, Repr

/-- `push_hci_key_ref`: the key reference and the year of the record `[start, end)`. -/
def keyRef (datMmap : Bytes) (index start «end» : ℕ) : Option (HciKeyRef × Option ℕ) :=
  if datMmap.length < start ∨ datMmap.length < «end» ∨ «end» < start then none
  else do
    let header ← decodeHeaderKey start (Framing.slice datMmap start «end»)
    if index < 2 ^ 32 then some (⟨header.hash, index⟩, header.year) else none

def pushHciKeyRef (datMmap : Bytes) (index start «end» : ℕ) (build : KeyIndexBuild) :
    KeyIndexBuild :=
  match keyRef datMmap index start «end» with
  | none => build
  | some (ref, year) =>
    { build with entries := build.entries ++ [ref], years := build.years ++ year.toList }

/-- One offset of the table: it closes the record of the offset before it. -/
def keyIndexStep (datMmap : Bytes) (build : KeyIndexBuild) (current : ℕ × ℕ) : KeyIndexBuild :=
  let build :=
    match build.previous with
    | none => build
    | some (index, start) => pushHciKeyRef datMmap index start current.1 build
  { build with previous := some (current.2, current.1) }

/-- The last record ends at the end of the file. -/
def finishKeyIndex (datMmap : Bytes) (build : KeyIndexBuild) : KeyIndexBuild :=
  match build.previous with
  | none => build
  | some (index, start) => pushHciKeyRef datMmap index start datMmap.length build

/-- By hash, then by ordinal. -/
def keyRefOrder (a b : HciKeyRef) : Ordering :=
  (compare a.hash b.hash).then (compare a.index b.index)

/-- `build_key_index`. -/
def buildKeyIndex (indexMmap datMmap : Bytes) : List HciKeyRef × List ℕ :=
  let offsets := (chunksExact 4 indexMmap).map u32FromBeBytes
  let build := finishKeyIndex datMmap (offsets.zipIdx.foldl (keyIndexStep datMmap) ⟨none, [], []⟩)
  (StableSort.sortBy keyRefOrder build.entries,
    (StableSort.sortBy compare build.years).destutter (· ≠ ·))

end Hci

/-- Open HCI index/data pair. -/
structure HciFile where
  indexMmap : Bytes
  datMmap : Bytes
  keyIndex : List HciKeyRef
  publicationYears : List ℕ
  whole : indexMmap.length % 4 = 0
  nonempty : indexMmap ≠ []
  built : (keyIndex, publicationYears) = Hci.buildKeyIndex indexMmap datMmap

namespace HciFile

open Hci

/-- `HciFile::open`. -/
def «open» (indexMmap datMmap : Bytes) : Except Error HciFile :=
  if h : indexMmap.length % 4 ≠ 0 then
    .error (.malformedHeader "HCI index size is not a multiple of 4 bytes")
  else if hne : indexMmap = [] then .error (.malformedHeader "HCI index is empty")
  else
    .ok ⟨indexMmap, datMmap, (buildKeyIndex indexMmap datMmap).1,
      (buildKeyIndex indexMmap datMmap).2, not_not.mp h, hne, rfl⟩

variable (file : HciFile)

/-- `HciFile::len`. -/
def len : ℕ := file.indexMmap.length / 4

/-- `HciFile::offset`. -/
def offset (index : ℕ) : Option ℕ := Hci.offset file.indexMmap index

/-- `HciFile::raw_record`. -/
def rawRecord (index : ℕ) : Option RawHciRecord := do
  let start ← file.offset index
  let «end» := (file.offset (index + 1)).getD file.datMmap.length
  if file.datMmap.length < start ∨ file.datMmap.length < «end» ∨ «end» < start then none
  else
    let rawBytes := Framing.slice file.datMmap start «end»
    some ⟨index, start, rawBytes.length, rawBytes⟩

/-- The postings that one key reference contributes. -/
def entryPostings (key : Bytes) (entry : HciKeyRef) : List HciPosting :=
  match file.rawRecord entry.index with
  | none => []
  | some raw =>
    match decodedHeaderMatches raw.datOffset raw.rawBytes key with
    | none => []
    | some headerLen => visitPostings (raw.rawBytes.drop headerLen)

/-- `visit_postings_for_key`: the postings in the order they are visited. -/
def postingsForKey (key : Bytes) : List HciPosting :=
  let hash := hashKey key
  let start := Bisect.partitionPoint (fun entry => entry.hash < hash) file.keyIndex
  let «end» := Bisect.partitionPoint (fun entry => entry.hash ≤ hash) file.keyIndex
  (Framing.slice file.keyIndex start «end»).flatMap (file.entryPostings key)

/-- The record of a key reference whose header is `key`, and the length of its header. -/
def entryRecord (key : Bytes) (entry : HciKeyRef) : Option (RawHciRecord × ℕ) := do
  let raw ← file.rawRecord entry.index
  let headerLen ← decodedHeaderMatches raw.datOffset raw.rawBytes key
  some (raw, headerLen)

/-- `visit_records_for_key`: the records in the order they are visited. -/
def recordsForKey (key : Bytes) : List (RawHciRecord × ℕ) :=
  let hash := hashKey key
  let start := Bisect.partitionPoint (fun entry => entry.hash < hash) file.keyIndex
  let «end» := Bisect.partitionPoint (fun entry => entry.hash ≤ hash) file.keyIndex
  (Framing.slice file.keyIndex start «end»).filterMap (file.entryRecord key)

end HciFile

end Callbook
