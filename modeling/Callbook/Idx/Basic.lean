import Callbook.Library.Bisect
import Callbook.Library.Framing
import Callbook.Callsign

/-!
# The IDX file

`hamcall.idx` has one line per record: the key, spaces, the decimal offset of the record in
`hamcall.dat`, and a trailing space. Opening a file builds a table of the parsed lines, which the
searches bisect, and a sparse directory of line positions.
-/

namespace Callbook

open Text

/-- A row of the table, its key held as a position in the file. -/
structure TextIndexEntry where
  keyStart : ℕ
  keyLen : ℕ
  lineStart : ℕ
  datOffset : ℕ
  deriving DecidableEq, Repr

/-- One parsed IDX entry. -/
structure TextEntry where
  key : Bytes
  datOffset : ℕ
  deriving DecidableEq, Repr

namespace IdxText

def crlf : Bytes := [0x0d, 0x0a]

def u64Max : ℕ := 2 ^ 64 - 1

/-! ### Lines -/

/-- The key and the digits of a line that ends in digits behind a space. -/
def splitLine (line : Bytes) : Option (Bytes × Bytes) :=
  let trimmed := line.rdropWhile (· == 0x20)
  let digits := trimmed.rtakeWhile isAsciiDigit
  let before := trimmed.rdropWhile isAsciiDigit
  if digits = [] ∨ before.getLast? ≠ some 0x20 then none
  else
    let key := before.rdropWhile (· == 0x20)
    if key = [] then none else some (key, digits)

/-- `parse_line`. -/
def parseLine (line : Bytes) : Option TextEntry := do
  let (key, digits) ← splitLine line
  let datOffset ← parseUnsigned u64Max digits
  some ⟨key, datOffset⟩

/-- `parse_index_line`; a position or a key length that does not fit drops the line. -/
def parseIndexLine (lineStart : ℕ) (line : Bytes) : Option TextIndexEntry := do
  let (key, digits) ← splitLine line
  let datOffset ← parseDigits u64Max digits
  if lineStart < 2 ^ 32 ∧ key.length < 2 ^ 16 then
    some ⟨lineStart, key.length, lineStart, datOffset⟩
  else none

/-- What `build_index` has collected. -/
structure Build where
  directory : List ℕ
  lineCount : ℕ
  entries : List TextIndexEntry
  deriving DecidableEq, Repr

/-- Enter a line start into the directory when it is due. -/
def Build.anchor (stride pos : ℕ) (build : Build) : Except Error Build :=
  if build.lineCount % stride = 0 then
    if pos < 2 ^ 32 then .ok { build with directory := build.directory ++ [pos] }
    else .error (.malformedHeader "IDX exceeds 4 GiB; u32 directory cannot index it")
  else .ok build

def Build.line (pos : ℕ) (line : Bytes) (build : Build) : Build :=
  { build with
    lineCount := build.lineCount + 1
    entries := build.entries ++ (parseIndexLine pos line).toList }

/-- The line loop of `build_index`. -/
def buildLoop (mmap : Bytes) (stride : ℕ) : ℕ → ℕ → Build → Except Error Build
  | 0, _, build => .ok build
  | fuel + 1, pos, build =>
    if pos < mmap.length then do
      let build ← build.anchor stride pos
      match findText crlf (mmap.drop pos) with
      | none => pure build
      | some lineEnd =>
        buildLoop mmap stride fuel (pos + lineEnd + 2)
          (build.line pos ((mmap.drop pos).take lineEnd))
    else .ok build

/-- `build_index`. -/
def buildIndex (mmap : Bytes) (stride : ℕ) : Except Error Build := do
  let build ← buildLoop mmap stride mmap.length 0 ⟨[], 0, []⟩
  if build.lineCount = 0 then .error (.malformedHeader "IDX appears empty or malformed")
  else pure build

end IdxText

/-- One opened IDX file. -/
structure TextIdxFile where
  mmap : Bytes
  entries : List TextIndexEntry
  directory : List ℕ
  lineCount : ℕ
  stride : ℕ
  built : IdxText.buildIndex mmap stride = .ok ⟨directory, lineCount, entries⟩

namespace TextIdxFile

open IdxText

/-- `TextIdxFile::open_with_stride`. -/
def openWithStride (mmap : Bytes) (stride : ℕ) : Except Error TextIdxFile :=
  if stride < 1 then .error (.malformedHeader "stride must be >= 1")
  else
    match h : buildIndex mmap stride with
    | .error e => .error e
    | .ok build => .ok ⟨mmap, build.entries, build.directory, build.lineCount, stride, h⟩

def defaultDirectoryStride : ℕ := 256

/-- `TextIdxFile::open`. -/
def «open» (mmap : Bytes) : Except Error TextIdxFile := openWithStride mmap defaultDirectoryStride

variable (file : TextIdxFile)

/-- `TextIdxFile::len`. -/
def len : ℕ := file.lineCount

/-! ### Searches -/

def entryKey (entry : TextIndexEntry) : Bytes :=
  Framing.slice file.mmap entry.keyStart (entry.keyStart + entry.keyLen)

def textEntry (entry : TextIndexEntry) : TextEntry := ⟨file.entryKey entry, entry.datOffset⟩

def findEntryIndexGe (target : Bytes) : Option ℕ :=
  let index := Bisect.partitionPoint (fun entry => file.entryKey entry < target) file.entries
  if index < file.entries.length then some index else none

def findEntryIndexGt (target : Bytes) : Option ℕ :=
  let index := Bisect.partitionPoint (fun entry => file.entryKey entry ≤ target) file.entries
  if index < file.entries.length then some index else none

def textEntryAt (index : ℕ) : Option TextEntry := file.entries[index]?.map file.textEntry

/-- `TextIdxFile::find_exact`. -/
def findExact (key : Bytes) : Option TextEntry := do
  let index ← file.findEntryIndexGe key
  let entry ← file.textEntryAt index
  if entry.key = key then some entry else none

/-- `TextIdxFile::find_callsign_all`: the bare key, then the run of keys with a year. -/
def findCallsignAll (callsign : Bytes) : List TextEntry :=
  let suffixPrefix := callsign ++ [0x3a]
  let bare := file.findExact callsign
  let years :=
    match file.findEntryIndexGe suffixPrefix with
    | none => []
    | some index =>
      ((file.entries.drop index).map file.textEntry).takeWhile fun e =>
        suffixPrefix.isPrefixOf e.key
  bare.toList ++ years

/-- `TextIdxFile::next_entry_after_key`. -/
def nextEntryAfterKey (key : Bytes) : Option TextEntry := do
  let index ← file.findEntryIndexGt key
  file.textEntryAt index

/-- `TextIdxFile::find_first_key_at_least`. -/
def findFirstKeyAtLeast (target : Bytes) : Option ℕ := do
  let index ← file.findEntryIndexGe target
  let entry ← file.entries[index]?
  some entry.lineStart

/-! ### Iteration and verification -/

/-- The entries that `TextIdxIter` yields from the rest of the file on. -/
def iterFrom : ℕ → Bytes → List TextEntry
  | 0, _ => []
  | fuel + 1, rest =>
    if rest = [] then []
    else
      match findText crlf rest with
      | none => []
      | some lineEnd =>
        (parseLine (rest.take lineEnd)).toList ++ iterFrom fuel (rest.drop (lineEnd + 2))

/-- `TextIdxFile::iter`. -/
def iter : List TextEntry := iterFrom file.mmap.length file.mmap

end TextIdxFile

namespace IdxText

/-- Verification result for an IDX file. -/
structure VerifyReport where
  entries : ℕ
  nonAsciiBytes : ℕ
  parseFailures : ℕ
  keyOrderViolations : ℕ
  offsetMonotonicityViolations : ℕ
  firstKey : Option Bytes
  lastKey : Option Bytes
  firstOffset : Option ℕ
  lastOffset : Option ℕ
  deriving DecidableEq, Repr

/-- All invariants held. -/
def VerifyReport.isClean (rep : VerifyReport) : Bool :=
  rep.nonAsciiBytes = 0 && rep.parseFailures = 0 && rep.keyOrderViolations = 0 &&
    rep.offsetMonotonicityViolations = 0 && 0 < rep.entries

/-- A byte that an IDX file may contain. -/
def isIdxByte (b : UInt8) : Bool :=
  b == 0x0d || b == 0x0a || b == 0x09 || (0x20 ≤ b && b ≤ 0x7e)

/-- One entry of the walk in `verify`; `lastKey` and `lastOffset` are the previous entry's. -/
def verifyStep (rep : VerifyReport) (entry : TextEntry) : VerifyReport :=
  { rep with
    entries := rep.entries + 1
    firstKey := if rep.firstKey = none then some entry.key else rep.firstKey
    firstOffset := if rep.firstKey = none then some entry.datOffset else rep.firstOffset
    keyOrderViolations :=
      if rep.lastKey.any fun prev => entry.key < prev then rep.keyOrderViolations + 1
      else rep.keyOrderViolations
    offsetMonotonicityViolations :=
      if rep.lastOffset.any fun prev => entry.datOffset ≤ prev then
        rep.offsetMonotonicityViolations + 1
      else rep.offsetMonotonicityViolations
    lastKey := some entry.key
    lastOffset := some entry.datOffset }

/-- `idx_text::verify`. -/
def verify (idx : TextIdxFile) : VerifyReport :=
  let rep := idx.iter.foldl verifyStep
    ⟨0, idx.mmap.countP (!isIdxByte ·), 0, 0, 0, none, none, none, none⟩
  { rep with
    parseFailures := if rep.entries < idx.lineCount then idx.lineCount - rep.entries else 0 }

end IdxText

end Callbook
