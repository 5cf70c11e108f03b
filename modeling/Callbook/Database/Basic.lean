import Callbook.Hci.Basic
import Callbook.Idx.Basic
import Callbook.Record.Basic

/-!
# The database and its lookups

A database is an IDX file and a DAT file with optional sidecars. A lookup merges the current-US
record, the records that the IDX file leads to, and the records that the HCI postings lead to.
-/

namespace Callbook

open Text

/-- The opened 2025-layout files. -/
structure V2Shard where
  idx : TextIdxFile
  datMmap : Bytes
  hci : Option HciFile
  usCsv : Option UsCsvFile
  countries : Option CountryTable
  pcCountries : Option CountryTable
  interests : Option InterestTable

/-- Buffers that a lookup leaves for the next one. -/
structure LookupScratch where
  hciDecoded : Bytes
  hciSeenOffsets : Finset ℕ
  hciSnapshots : List CallSnapshot

/-- `LookupScratch::default`. -/
def LookupScratch.empty : LookupScratch := ⟨[], ∅, []⟩

/-- One raw record from the DAT file, located by an IDX lookup. -/
structure RawV2Record where
  key : Bytes
  datOffset : ℕ
  rawLen : ℕ
  rawBytes : Bytes
  deriving DecidableEq, Repr

/-- `RawV2Record::best_decoded_candidate`. -/
def RawV2Record.bestDecodedCandidate (raw : RawV2Record) : Option DecodedV2Candidate :=
  V2Dat.bestCandidate raw.datOffset raw.rawBytes raw.key

/-! ### HCI keys -/

/-- `hci_archive_key`: the call, a colon and the four digits of the year, within 32 bytes. -/
def hciArchiveKey (call : Str) (year : ℕ) : Option Bytes :=
  if 32 < call.length + 5 then none
  else
    let digit (n : ℕ) : UInt8 := 0x30 + UInt8.ofNat (n % 10)
    some (call ++ [0x3a, digit (year / 1000), digit (year / 100), digit (year / 10), digit year])

/-- The keys that `visit_hci_lookup_keys` visits for one year. -/
def hciYearKeys (call suffix : Str) (year : ℕ) : List Bytes :=
  match hciArchiveKey call year with
  | none => []
  | some key =>
    key :: if suffix ≠ call then (hciArchiveKey suffix year).toList else []

/-- The keys that `visit_hci_lookup_keys` visits; callers pass a parsed callsign, so the call can be
cut behind its first byte. -/
def hciLookupKeys (callsign : Str) (years : List ℕ) : List Bytes :=
  let call := toAsciiUppercase (Utf8.trim callsign)
  let suffix := if 1 < call.length then call.drop 1 else call
  (call :: if suffix ≠ call then [suffix] else []) ++ years.flatMap (hciYearKeys call suffix)

namespace V2Shard

variable (shard : V2Shard)

/-! ### The IDX path -/

/-- `V2Shard::raw_record_for`: the slice up to the offset of the next key. -/
def rawRecordFor (entry : TextEntry) : Option RawV2Record :=
  let datSize := shard.datMmap.length
  let nextOff := ((shard.idx.nextEntryAfterKey entry.key).map TextEntry.datOffset).getD datSize
  let nextOff := min nextOff datSize
  if datSize ≤ entry.datOffset ∨ nextOff < entry.datOffset then none
  else
    some ⟨entry.key, entry.datOffset, nextOff - entry.datOffset,
      Framing.slice shard.datMmap entry.datOffset nextOff⟩

/-- `V2Shard::parse_and_filter`. -/
def parseAndFilter (decoded : Bytes) (defaultKey : Option Bytes) (callsign : Str)
    (source : SnapshotSource) : Except Panic (List CallSnapshot) :=
  V2Record.parseMatchingSnapshots defaultKey source shard.countries shard.interests callsign decoded

/-- The snapshots of one IDX entry. -/
def datIdxSnapshots (callsign : Str) (entry : TextEntry) : Except Panic (List CallSnapshot) :=
  match shard.rawRecordFor entry with
  | none => .ok []
  | some raw =>
    match raw.bestDecodedCandidate with
    | none => .ok []
    | some decoded => shard.parseAndFilter decoded.bytes (some raw.key) callsign .hamCallDatIdx

/-- `V2Shard::lookup_dat_idx`. -/
def lookupDatIdx (callsign : Str) : Except Panic (List CallSnapshot) :=
  Panic.collectMany (shard.datIdxSnapshots callsign) (shard.idx.findCallsignAll callsign)

/-! ### The HCI path

The buffer `decoded` is handed from call to call. -/

/-- `decode_bounds_into`. -/
def decodeBoundsInto (start «end» : ℕ) (decoded : Bytes) : Bytes :=
  V2Dat.decodePhaseInto start (Framing.slice shard.datMmap start «end»)
    (V2Dat.phaseForDatOffset start) decoded

/-- `decode_hci_posting_record_into`. -/
def decodeHciPostingRecordInto (datOffset : ℕ) (decoded : Bytes) : Bytes :=
  let decoded := V2Dat.clear decoded
  match recordBoundsForHciPosting shard.datMmap datOffset with
  | none => decoded
  | some bounds => shard.decodeBoundsInto bounds.start bounds.end decoded

/-- `decode_from_offset_into`. -/
def decodeFromOffsetInto (datOffset maxLen : ℕ) (decoded : Bytes) : Bytes :=
  let decoded := V2Dat.clear decoded
  if shard.datMmap.length ≤ datOffset then decoded
  else
    let «end» := min (datOffset + maxLen) shard.datMmap.length
    V2Dat.decodePhaseInto datOffset (Framing.slice shard.datMmap datOffset «end»)
      (V2Dat.phaseForDatOffset datOffset) decoded

/-- The windows of `decode_and_parse_hci_offset_with_windows`. -/
def windowLoop (datOffset : ℕ) (callsign : Str) :
    List ℕ → Bytes → Except Panic (List CallSnapshot × Bytes)
  | [], decoded => do
    let decoded := shard.decodeFromOffsetInto datOffset 8192 decoded
    let snapshots ← shard.parseAndFilter decoded none callsign .hamCallHci
    pure (snapshots, decoded)
  | maxLen :: rest, decoded => do
    let decoded := shard.decodeFromOffsetInto datOffset maxLen decoded
    let snapshots ← V2Record.parseCompleteMatchingSnapshots none .hamCallHci shard.countries
      shard.interests callsign decoded
    if snapshots ≠ [] then pure (snapshots, decoded)
    else windowLoop datOffset callsign rest decoded

/-- `decode_and_parse_hci_offset`. -/
def decodeAndParseHciOffset (datOffset : ℕ) (callsign : Str) (decoded : Bytes) :
    Except Panic (List CallSnapshot × Bytes) := do
  let decoded := shard.decodeHciPostingRecordInto datOffset decoded
  let snapshots ← shard.parseAndFilter decoded none callsign .hamCallHci
  if snapshots ≠ [] then pure (snapshots, decoded)
  else shard.windowLoop datOffset callsign [1024, 2048, 4096] decoded

/-- One posting of `lookup_hci_into`. -/
def visitPosting (callsign : Str) (scratch : LookupScratch) (posting : HciPosting) :
    Except Panic LookupScratch :=
  if posting.datOffset ∈ scratch.hciSeenOffsets then .ok scratch
  else do
    let (snapshots, decoded) ←
      shard.decodeAndParseHciOffset posting.datOffset callsign scratch.hciDecoded
    pure
      { hciDecoded := decoded
        hciSeenOffsets := insert posting.datOffset scratch.hciSeenOffsets
        hciSnapshots := scratch.hciSnapshots ++ snapshots }

/-- `V2Shard::lookup_hci_into`. -/
def lookupHciInto (callsign : Str) (scratch : LookupScratch) : Except Panic LookupScratch :=
  let scratch := { scratch with hciSeenOffsets := ∅, hciSnapshots := [] }
  match shard.hci with
  | none => .ok scratch
  | some hci =>
    ((hciLookupKeys callsign hci.publicationYears).flatMap hci.postingsForKey).foldlM
      (shard.visitPosting callsign) scratch

end V2Shard

/-! ### Merging -/

/-- The current snapshot and the history that a lookup has merged so far. -/
abbrev MergeState := Option CallSnapshot × List CallSnapshot

/-- Merge a snapshot into the first one of its station and vintage, or add it behind. -/
def mergeHistory (history : List CallSnapshot) (snapshot : CallSnapshot) : List CallSnapshot :=
  match history with
  | [] => [snapshot]
  | item :: rest =>
    if item.callsign = snapshot.callsign ∧ item.vintage = snapshot.vintage then
      item.mergeMissingFrom snapshot :: rest
    else item :: mergeHistory rest snapshot

/-- `merge_snapshot`. -/
def mergeSnapshot (state : MergeState) (snapshot : CallSnapshot) : MergeState :=
  if snapshot.vintage = none then
    match state.1 with
    | none => (some snapshot, state.2)
    | some existing => (some (existing.mergeMissingFrom snapshot), state.2)
  else (state.1, mergeHistory state.2 snapshot)

/-- By vintage, then by callsign. -/
def historyOrder (a b : CallSnapshot) : Ordering :=
  (compare a.vintage b.vintage).then (compare a.callsign b.callsign)

/-! ### Lookups -/

/-- An opened database. -/
structure CallBook where
  v2 : Option V2Shard

namespace CallBook

/-- The files of a data tree, their text already read. -/
structure Files where
  idx : Bytes
  dat : Bytes
  hci : Option (Bytes × Bytes)
  usCsv : Option (List (List Bytes))
  countries : Option (Str × CountryInfoSource)
  pcCountries : Option Str
  interests : Option Str

/-- `CallBook::open` on a data tree that has the IDX and the DAT file. -/
def «open» (files : Files) : Except Panic (Except Error CallBook) :=
  match TextIdxFile.open files.idx with
  | .error e => .ok (.error e)
  | .ok idx =>
    match files.hci.mapM fun pair => HciFile.open pair.1 pair.2 with
    | .error e => .ok (.error e)
    | .ok hci => do
      let countries ← files.countries.mapM fun c => CountryTable.parseWithSource c.1 c.2
      let pcCountries ← files.pcCountries.mapM (CountryTable.parseWithSource · .countrysPc)
      pure (.ok ⟨some
        { idx
          datMmap := files.dat
          hci
          usCsv := files.usCsv.map UsCsvFile.open
          countries
          pcCountries
          interests := files.interests.map InterestTable.parse }⟩)

variable (db : CallBook)

def lookupUsCurrent (callsign : Str) : Option UsCsvRecord := do
  let v2 ← db.v2
  let usCsv ← v2.usCsv
  usCsv.get callsign

/-- The part of a lookup that reads the shard. -/
def mergeShard (query : Str) (state : MergeState) (scratch : LookupScratch) :
    Except Panic (MergeState × LookupScratch) :=
  match db.v2 with
  | none => .ok (state, scratch)
  | some v2 => do
    let snapshots ← v2.lookupDatIdx query
    let state := snapshots.foldl mergeSnapshot state
    let scratch ← v2.lookupHciInto query scratch
    pure (scratch.hciSnapshots.foldl mergeSnapshot state, { scratch with hciSnapshots := [] })

/-- The report on what has been merged. -/
def report (query : Str) (state : MergeState) : LookupResult :=
  let history := StableSort.sortBy historyOrder state.2
  { query
    status :=
      if state.1.isSome then .current else if history = [] then .notFound else .archiveOnly
    current := state.1
    history }

/-- `CallBook::lookup_report_with_scratch`. -/
def lookupReportWithScratch (callsign : Str) (scratch : LookupScratch) :
    Except Panic (Except Error LookupResult × LookupScratch) :=
  match Callsign.parse callsign with
  | .error e => .ok (.error e, scratch)
  | .ok key => do
    let query := key.asStr
    let current := (db.lookupUsCurrent query).map CallSnapshot.fromUsCsv
    let (state, scratch) ← db.mergeShard query (current, []) scratch
    pure (.ok (report query state), scratch)

/-- `CallBook::lookup_report`. -/
def lookupReport (callsign : Str) : Except Panic (Except Error LookupResult) := do
  let (result, _) ← db.lookupReportWithScratch callsign .empty
  pure result

end CallBook

/-! ### Batches and profiles -/

/-- Reusable lookup context. -/
structure BatchLookup where
  db : CallBook
  scratch : LookupScratch

namespace BatchLookup

/-- `BatchLookup::lookup`. -/
def lookup (batch : BatchLookup) (callsign : Str) :
    Except Panic (Except Error LookupResult × BatchLookup) := do
  let (result, scratch) ← batch.db.lookupReportWithScratch callsign batch.scratch
  pure (result, { batch with scratch })

/-- A run of lookups through one context. -/
def run (batch : BatchLookup) :
    List Str → Except Panic (List (Except Error LookupResult) × BatchLookup)
  | [] => .ok ([], batch)
  | callsign :: rest => do
    let (result, batch) ← batch.lookup callsign
    let (results, batch) ← batch.run rest
    pure (result :: results, batch)

end BatchLookup

/-- Archive summary of a profile. -/
structure HistorySummary where
  snapshotCount : ℕ
  vintages : List ℕ
  deriving DecidableEq, Repr

/-- The history part of `profile_from_report`. -/
def historySummary (report : LookupResult) : HistorySummary where
  snapshotCount := report.history.length
  vintages :=
    (StableSort.sortBy compare (report.history.filterMap CallSnapshot.vintage)).destutter (· ≠ ·)

end Callbook
