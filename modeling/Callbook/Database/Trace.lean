import Callbook.Database.Merge
import Callbook.Hci.Index

/-!
# Tracing a lookup

A trace walks over the IDX entries and the HCI postings of a callsign on its own and keeps what each
of them parsed to. It does not skip an offset that it has seen, and it goes through the postings of
a key once for every record that has the key.
-/

namespace Callbook

open Text

/-! ### Previews -/

def hexDigit (n : ℕ) : UInt8 := UInt8.ofNat (if n < 10 then 0x30 + n else 0x57 + n)

/-- `trace_hex_prefix`. -/
def traceHexPrefix (bytes : Bytes) (limit : ℕ) : Str :=
  (bytes.take limit).flatMap fun b => [hexDigit (b.toNat / 16), hexDigit (b.toNat % 16)]

/-- `trace_text_prefix`. -/
def traceTextPrefix (bytes : Bytes) (limit : ℕ) : Str :=
  (bytes.take limit).map fun b => if isAsciiGraphic b || b == 0x20 then b else 0x2e

def decodedHeaderText (bytes : Bytes) : Str :=
  Utf8.fromUtf8Lossy (bytes.takeWhile fun b => b != 0xb5 && b ≤ 0xb4)

def defaultTracePreviewLimit : ℕ := 160

/-! ### Traces -/

/-- Parser outcome for one decoded slice. -/
structure ParsedSnapshotTrace where
  count : ℕ
  callsigns : List Str
  vintages : List (Option ℕ)
  deriving DecidableEq, Repr

/-- `parsed_snapshot_trace`. -/
def parsedSnapshotTrace (snapshots : List CallSnapshot) : ParsedSnapshotTrace where
  count := snapshots.length
  callsigns := snapshots.map CallSnapshot.callsign
  vintages := snapshots.map CallSnapshot.vintage

/-- Diagnostics for one `hamcall.idx` hit. -/
structure IdxTrace where
  key : Str
  datOffset : ℕ
  nextDatOffset : Option ℕ
  rawLen : ℕ
  decodedHexPrefix : Str
  decodedTextPrefix : Str
  parsedSnapshots : ParsedSnapshotTrace
  deriving DecidableEq, Repr

/-- Diagnostics for one HCI posting. -/
structure HciPostingTrace where
  datOffset : ℕ
  position : UInt8
  recordBoundarySource : Option RecordBoundarySource
  recordStart : Option ℕ
  recordEnd : Option ℕ
  recordLen : Option ℕ
  distanceToRecordStart : Option ℕ
  distanceToRecordEnd : Option ℕ
  backwardScanBytes : Option ℕ
  forwardScanBytes : Option ℕ
  postingMatchesRecordStart : Option Bool
  decodedRecordHexPrefix : Str
  decodedRecordTextPrefix : Str
  parsedSnapshots : ParsedSnapshotTrace
  deriving DecidableEq, Repr

/-- Diagnostics for one HCI record whose header matched a search key. -/
structure HciEntryTrace where
  ordinal : ℕ
  hciDatOffset : ℕ
  rawLen : ℕ
  headerLen : ℕ
  decodedHeader : Str
  encodedHexPrefix : Str
  decodedHexPrefix : Str
  postings : List HciPostingTrace
  deriving DecidableEq, Repr

/-- Diagnostics for one HCI key searched during a lookup. -/
structure HciKeyTrace where
  searchedKey : Str
  hciEntries : List HciEntryTrace
  deriving DecidableEq, Repr

/-- Explicit diagnostics trace for one callsign lookup. -/
structure LookupTrace where
  query : Str
  normalizedCallsign : Str
  usCsvHit : Bool
  idxHits : List IdxTrace
  hciKeys : List HciKeyTrace
  finalStatus : LookupStatus
  deriving DecidableEq, Repr

/-- `posting_is_in_record`. -/
def postingIsInRecord (bytes : Bytes) (posting : HciPosting) : Bool :=
  (chunksExact 5 (bytes.take (bytes.length - 1))).any fun chunk =>
    Hci.u32FromBeBytes (chunk.take 4) == posting.datOffset && chunk.getD 4 0 == posting.position

namespace V2Shard

variable (shard : V2Shard) (callsign : Str) (limit : ℕ)

/-- One entry of `trace_dat_idx`. -/
def traceDatIdxEntry (entry : TextEntry) : Except Panic (Option IdxTrace) :=
  let nextDatOffset := (shard.idx.nextEntryAfterKey entry.key).map fun next =>
    min next.datOffset shard.datMmap.length
  match shard.rawRecordFor entry with
  | none => .ok none
  | some raw =>
    match raw.bestDecodedCandidate with
    | none => .ok none
    | some decoded => do
      let snapshots ← shard.parseAndFilter decoded.bytes (some raw.key) callsign .hamCallDatIdx
      pure (some
        { key := Utf8.fromUtf8Lossy raw.key
          datOffset := raw.datOffset
          nextDatOffset
          rawLen := raw.rawLen
          decodedHexPrefix := traceHexPrefix decoded.bytes limit
          decodedTextPrefix := traceTextPrefix decoded.bytes limit
          parsedSnapshots := parsedSnapshotTrace snapshots })

/-- `V2Shard::trace_dat_idx`. -/
def traceDatIdx : Except Panic (List IdxTrace) :=
  Panic.collect (fun _ => true) (shard.traceDatIdxEntry callsign limit)
    (shard.idx.findCallsignAll callsign)

/-- `V2Shard::trace_hci_posting`. -/
def traceHciPosting (posting : HciPosting) : Except Panic HciPostingTrace := do
  let (snapshots, decoded) ← shard.decodeAndParseHciOffset posting.datOffset callsign []
  match recordBoundsForHciPosting shard.datMmap posting.datOffset with
  | none =>
    pure
      { datOffset := posting.datOffset
        position := posting.position
        recordBoundarySource := none
        recordStart := none
        recordEnd := none
        recordLen := none
        distanceToRecordStart := none
        distanceToRecordEnd := none
        backwardScanBytes := none
        forwardScanBytes := none
        postingMatchesRecordStart := none
        decodedRecordHexPrefix := traceHexPrefix decoded limit
        decodedRecordTextPrefix := traceTextPrefix decoded limit
        parsedSnapshots := parsedSnapshotTrace snapshots }
  | some bounds =>
    let decoded := shard.decodeBoundsInto bounds.start bounds.end []
    pure
      { datOffset := posting.datOffset
        position := posting.position
        recordBoundarySource := some bounds.source
        recordStart := some bounds.start
        recordEnd := some bounds.end
        recordLen := some (bounds.end - bounds.start)
        distanceToRecordStart := some (posting.datOffset - bounds.start)
        distanceToRecordEnd := some (bounds.end - posting.datOffset)
        backwardScanBytes := bounds.backwardScanBytes
        forwardScanBytes := bounds.forwardScanBytes
        postingMatchesRecordStart := some (posting.datOffset == bounds.start)
        decodedRecordHexPrefix := traceHexPrefix decoded limit
        decodedRecordTextPrefix := traceTextPrefix decoded limit
        parsedSnapshots := parsedSnapshotTrace snapshots }

/-- The postings that a trace attributes to one record of a key. -/
def recordPostings (hci : HciFile) (key : Bytes) (raw : RawHciRecord) (headerLen : ℕ) :
    List HciPosting :=
  (hci.postingsForKey key).filter fun posting =>
    headerLen ≤ raw.rawBytes.length && postingIsInRecord (raw.rawBytes.drop headerLen) posting

/-- One record of `trace_hci`. -/
def traceHciEntry (hci : HciFile) (key : Bytes) (found : RawHciRecord × ℕ) :
    Except Panic HciEntryTrace := do
  let (raw, headerLen) := found
  let decodedHeaderBytes := ((hci.rawRecord raw.index).map Hci.decodeRawRecord).getD []
  let postings ← (recordPostings hci key raw headerLen).mapM (shard.traceHciPosting callsign limit)
  pure
    { ordinal := raw.index
      hciDatOffset := raw.datOffset
      rawLen := raw.rawLen
      headerLen
      decodedHeader := decodedHeaderText decodedHeaderBytes
      encodedHexPrefix := traceHexPrefix raw.rawBytes limit
      decodedHexPrefix := traceHexPrefix decodedHeaderBytes limit
      postings }

/-- One key of `trace_hci`. -/
def traceHciKey (hci : HciFile) (key : Bytes) : Except Panic HciKeyTrace := do
  let hciEntries ← (hci.recordsForKey key).mapM (shard.traceHciEntry callsign limit hci key)
  pure ⟨Utf8.fromUtf8Lossy key, hciEntries⟩

/-- `V2Shard::trace_hci`. -/
def traceHci : Except Panic (List HciKeyTrace) :=
  match shard.hci with
  | none => .ok []
  | some hci =>
    (hciLookupKeys callsign hci.publicationYears).mapM (shard.traceHciKey callsign limit hci)

end V2Shard

namespace CallBook

variable (db : CallBook) (callsign : Str)

/-- The part of a trace that reads the shard. -/
def traceShard (query : Str) (limit : ℕ) : Except Panic (List IdxTrace × List HciKeyTrace) :=
  match db.v2 with
  | none => .ok ([], [])
  | some v2 => do
    let idxHits ← v2.traceDatIdx query limit
    let hciKeys ← v2.traceHci query limit
    pure (idxHits, hciKeys)

/-- `CallBook::trace_lookup_with_limit`. -/
def traceLookupWithLimit (limit : ℕ) : Except Panic (Except Error LookupTrace) :=
  match Callsign.parse callsign with
  | .error e => .ok (.error e)
  | .ok key => do
    let normalizedCallsign := key.asStr
    let usCsvHit := (db.lookupUsCurrent normalizedCallsign).isSome
    let (idxHits, hciKeys) ← db.traceShard normalizedCallsign limit
    match ← db.lookupReport normalizedCallsign with
    | .error e => pure (.error e)
    | .ok report =>
      pure (.ok
        { query := callsign
          normalizedCallsign
          usCsvHit
          idxHits
          hciKeys
          finalStatus := report.status })

/-- `CallBook::trace_lookup`. -/
def traceLookup : Except Panic (Except Error LookupTrace) :=
  db.traceLookupWithLimit callsign defaultTracePreviewLimit

end CallBook

/-! ### What a trace tells -/

/-- The vintages of everything that was parsed for the hits and the postings. -/
def tracedVintages (idxHits : List IdxTrace) (hciKeys : List HciKeyTrace) : List (Option ℕ) :=
  idxHits.flatMap (·.parsedSnapshots.vintages) ++
    hciKeys.flatMap fun key => key.hciEntries.flatMap fun entry =>
      entry.postings.flatMap (·.parsedSnapshots.vintages)

def LookupTrace.vintages (trace : LookupTrace) : List (Option ℕ) :=
  tracedVintages trace.idxHits trace.hciKeys

lemma mem_tracedVintages {idxHits : List IdxTrace} {hciKeys : List HciKeyTrace}
    {vintage : Option ℕ} : vintage ∈ tracedVintages idxHits hciKeys ↔
      vintage ∈ idxHits.flatMap (·.parsedSnapshots.vintages) ∨
        ∃ trace : HciPostingTrace, (∃ key ∈ hciKeys, ∃ entry ∈ key.hciEntries,
          trace ∈ entry.postings) ∧ vintage ∈ trace.parsedSnapshots.vintages := by
  simp only [tracedVintages, List.mem_append, List.mem_flatMap]
  refine or_congr_right ?_
  constructor
  · rintro ⟨key, hkey, entry, hentry, trace, htrace, hvintage⟩
    exact ⟨trace, ⟨key, hkey, entry, hentry, htrace⟩, hvintage⟩
  · rintro ⟨trace, ⟨key, hkey, entry, hentry, htrace⟩, hvintage⟩
    exact ⟨key, hkey, entry, hentry, trace, htrace, hvintage⟩

/-- A trace explains a report: its sources have what makes the report current, and the years of its
history. -/
structure LookupTrace.Explains (trace : LookupTrace) (report : LookupResult) : Prop where
  normalized : trace.normalizedCallsign = report.query
  finalStatus : trace.finalStatus = report.status
  current : report.status = .current ↔ trace.usCsvHit ∨ none ∈ trace.vintages
  history : ∀ vintage, vintage ∈ report.history.map CallSnapshot.vintage ↔
    vintage ≠ none ∧ vintage ∈ trace.vintages

/-- Two runs end alike: with results that are related, with one error, or aborted. -/
inductive EndsAlike {α β : Type*} (related : α → β → Prop) :
    Except Panic (Except Error α) → Except Panic (Except Error β) → Prop
  | returned {a : α} {b : β} (h : related a b) : EndsAlike related (.ok (.ok a)) (.ok (.ok b))
  | failed (e : Error) : EndsAlike related (.ok (.error e)) (.ok (.error e))
  | aborted (p p' : Panic) : EndsAlike related (.error p) (.error p')

namespace HciFile

lemma header_le_of_mem_recordsForKey {file : HciFile} {key : Bytes} {found : RawHciRecord × ℕ}
    (h : found ∈ file.recordsForKey key) : found.2 ≤ found.1.rawBytes.length := by
  rw [recordsForKey, List.mem_filterMap] at h
  obtain ⟨entry, -, hentry⟩ := h
  simp only [entryRecord, Option.bind_eq_bind, Option.bind_eq_some_iff, Option.some.injEq] at hentry
  obtain ⟨raw, -, headerLen, hmatches, rfl⟩ := hentry
  obtain ⟨hheader, rfl⟩ := Hci.decodedHeaderMatches_eq_some_iff.mp hmatches
  have hlen := (hheader.trans (List.take_prefix _ _)).length_le
  rw [List.length_append, List.length_singleton, Hci.decoded, Keystream.length_applyFrom] at hlen
  exact hlen

end HciFile

lemma postingIsInRecord_iff {bytes : Bytes} {posting : HciPosting} :
    postingIsInRecord bytes posting ↔ posting ∈ Hci.visitPostings bytes := by
  rw [postingIsInRecord, Hci.visitPostings, List.any_eq_true, List.mem_map]
  constructor
  · rintro ⟨chunk, hchunk, h⟩
    rw [Bool.and_eq_true, beq_iff_eq, beq_iff_eq] at h
    obtain ⟨datOffset, position⟩ := posting
    exact ⟨chunk, hchunk, by rw [h.1, h.2]⟩
  · rintro ⟨chunk, hchunk, rfl⟩
    exact ⟨chunk, hchunk, by simp⟩

namespace V2Shard

/-- Every posting of a key is attributed to a record of the key. -/
lemma mem_postingsForKey_iff {hci : HciFile} {key : Bytes} {posting : HciPosting} :
    posting ∈ hci.postingsForKey key ↔
      ∃ found ∈ hci.recordsForKey key, posting ∈ recordPostings hci key found.1 found.2 := by
  constructor
  · intro h
    have hrecord := h
    rw [hci.postingsForKey_eq_flatMap, List.mem_flatMap] at hrecord
    obtain ⟨found, hfound, hposting⟩ := hrecord
    refine ⟨found, hfound, ?_⟩
    rw [recordPostings, List.mem_filter, Bool.and_eq_true, decide_eq_true_iff,
      postingIsInRecord_iff]
    exact ⟨h, HciFile.header_le_of_mem_recordsForKey hfound, hposting⟩
  · rintro ⟨found, -, h⟩
    exact (List.mem_filter.mp h).1

variable {shard : V2Shard} {callsign : Str} (limit : ℕ)

/-! ### One entry, one posting -/

/-- Tracing an entry parses what looking it up parses. -/
lemma exists_traceDatIdxEntry {entry : TextEntry} {snapshots : List CallSnapshot}
    (h : shard.datIdxSnapshots callsign entry = .ok snapshots) :
    ∃ hit, shard.traceDatIdxEntry callsign limit entry = .ok hit ∧
      hit.toList.flatMap (·.parsedSnapshots.vintages) = snapshots.map CallSnapshot.vintage := by
  rw [datIdxSnapshots] at h
  rw [traceDatIdxEntry]
  cases hraw : shard.rawRecordFor entry with
  | none =>
    rw [hraw] at h
    cases h
    exact ⟨none, rfl, rfl⟩
  | some raw =>
    rw [hraw] at h
    simp only at h ⊢
    cases hdecoded : raw.bestDecodedCandidate with
    | none =>
      rw [hdecoded] at h
      cases h
      exact ⟨none, rfl, rfl⟩
    | some decoded =>
      rw [hdecoded] at h
      simp only at h ⊢
      rw [h]
      exact ⟨_, rfl, List.append_nil _⟩

/-- Tracing a posting parses what looking it up parses. -/
lemma exists_traceHciPosting {posting : HciPosting} {snapshots : List CallSnapshot}
    (h : shard.hciSnapshotsAt callsign posting.datOffset = .ok snapshots) :
    ∃ trace, shard.traceHciPosting callsign limit posting = .ok trace ∧
      trace.parsedSnapshots.vintages = snapshots.map CallSnapshot.vintage := by
  rw [hciSnapshotsAt] at h
  rw [traceHciPosting]
  cases hrun : shard.decodeAndParseHciOffset posting.datOffset callsign [] with
  | error p =>
    rw [hrun] at h
    cases h
  | ok result =>
    rw [hrun] at h
    cases h
    cases recordBoundsForHciPosting shard.datMmap posting.datOffset with
    | none => exact ⟨_, rfl, rfl⟩
    | some bounds => exact ⟨_, rfl, rfl⟩

/-! ### All entries, all postings -/

lemma exists_traceDatIdx {snapshots : List CallSnapshot}
    (h : shard.lookupDatIdx callsign = .ok snapshots) :
    ∃ hits, shard.traceDatIdx callsign limit = .ok hits ∧
      hits.flatMap (·.parsedSnapshots.vintages) = snapshots.map CallSnapshot.vintage :=
  Panic.exists_collect_of_collectMany h fun _ _ hfound => exists_traceDatIdxEntry limit hfound

section Key

variable {limit}

lemma exists_traceHciEntry {hci : HciFile} {key : Bytes} {found : RawHciRecord × ℕ}
    (h : ∀ posting ∈ recordPostings hci key found.1 found.2,
      ∃ trace, shard.traceHciPosting callsign limit posting = .ok trace) :
    ∃ entry, shard.traceHciEntry callsign limit hci key found = .ok entry := by
  obtain ⟨postings, hpostings⟩ := Panic.exists_mapM_eq_ok h
  rw [traceHciEntry, hpostings]
  exact ⟨_, rfl⟩

lemma mapM_of_traceHciEntry {hci : HciFile} {key : Bytes} {found : RawHciRecord × ℕ}
    {entry : HciEntryTrace} (h : shard.traceHciEntry callsign limit hci key found = .ok entry) :
    (recordPostings hci key found.1 found.2).mapM (shard.traceHciPosting callsign limit) =
      .ok entry.postings := by
  rw [traceHciEntry, Panic.bind_eq_ok_iff] at h
  obtain ⟨postings, hpostings, hentry⟩ := h
  cases hentry
  exact hpostings

lemma exists_traceHciKey {hci : HciFile} {key : Bytes}
    (h : ∀ posting ∈ hci.postingsForKey key,
      ∃ trace, shard.traceHciPosting callsign limit posting = .ok trace) :
    ∃ trace, shard.traceHciKey callsign limit hci key = .ok trace := by
  have hentries : ∀ found ∈ hci.recordsForKey key,
      ∃ entry, shard.traceHciEntry callsign limit hci key found = .ok entry := by
    intro found hfound
    apply exists_traceHciEntry
    intro posting hposting
    exact h posting (mem_postingsForKey_iff.mpr ⟨found, hfound, hposting⟩)
  obtain ⟨entries, hentries⟩ := Panic.exists_mapM_eq_ok hentries
  rw [traceHciKey, hentries]
  exact ⟨_, rfl⟩

/-- The trace of a key has the traces of its postings, each once for every record it is in. -/
lemma mem_postings_of_traceHciKey {hci : HciFile} {key : Bytes} {keyTrace : HciKeyTrace}
    (h : shard.traceHciKey callsign limit hci key = .ok keyTrace) {trace : HciPostingTrace} :
    (∃ entry ∈ keyTrace.hciEntries, trace ∈ entry.postings) ↔
      ∃ posting ∈ hci.postingsForKey key,
        shard.traceHciPosting callsign limit posting = .ok trace := by
  rw [traceHciKey, Panic.bind_eq_ok_iff] at h
  obtain ⟨entries, hentries, hkey⟩ := h
  cases hkey
  constructor
  · rintro ⟨entry, hentry, htrace⟩
    obtain ⟨found, hfound, hrun⟩ := (Panic.mem_of_mapM_eq_ok hentries).mp hentry
    obtain ⟨posting, hposting, hrun⟩ :=
      (Panic.mem_of_mapM_eq_ok (mapM_of_traceHciEntry hrun)).mp htrace
    exact ⟨posting, mem_postingsForKey_iff.mpr ⟨found, hfound, hposting⟩, hrun⟩
  · rintro ⟨posting, hposting, hrun⟩
    obtain ⟨found, hfound, hposting⟩ := mem_postingsForKey_iff.mp hposting
    obtain ⟨entry, hentry, hfound⟩ := Panic.exists_of_mapM_eq_ok hentries found hfound
    exact ⟨entry, hentry,
      (Panic.mem_of_mapM_eq_ok (mapM_of_traceHciEntry hfound)).mpr ⟨posting, hposting, hrun⟩⟩

end Key

/-- The trace of a shard that a lookup has read has the traces of all postings. -/
lemma exists_traceHci {snapshots : List CallSnapshot}
    (h : shard.lookupHci callsign = .ok snapshots) :
    ∃ keys, shard.traceHci callsign limit = .ok keys ∧ ∀ trace,
      (∃ key ∈ keys, ∃ entry ∈ key.hciEntries, trace ∈ entry.postings) ↔
        ∃ posting ∈ shard.hciPostings callsign,
          shard.traceHciPosting callsign limit posting = .ok trace := by
  have hread : ∀ posting ∈ shard.hciPostings callsign,
      ∃ trace, shard.traceHciPosting callsign limit posting = .ok trace := by
    intro posting hposting
    obtain ⟨found, hfound⟩ := exists_hciSnapshotsAt_of_lookupHci h hposting
    obtain ⟨trace, htrace, -⟩ := exists_traceHciPosting limit hfound
    exact ⟨trace, htrace⟩
  rw [traceHci]
  rw [hciPostings] at hread ⊢
  cases hhci : shard.hci with
  | none => exact ⟨[], rfl, by simp⟩
  | some hci =>
    rw [hhci] at hread
    simp only at hread ⊢
    have hkeys : ∀ key ∈ hciLookupKeys callsign hci.publicationYears,
        ∃ trace, shard.traceHciKey callsign limit hci key = .ok trace := by
      intro key hkey
      apply exists_traceHciKey
      intro posting hposting
      exact hread posting (List.mem_flatMap.mpr ⟨key, hkey, hposting⟩)
    obtain ⟨keys, hkeys⟩ := Panic.exists_mapM_eq_ok hkeys
    refine ⟨keys, hkeys, fun trace => ?_⟩
    constructor
    · rintro ⟨keyTrace, hkeyTrace, hentry⟩
      obtain ⟨key, hkey, hrun⟩ := (Panic.mem_of_mapM_eq_ok hkeys).mp hkeyTrace
      obtain ⟨posting, hposting, hrun⟩ := (mem_postings_of_traceHciKey hrun).mp hentry
      exact ⟨posting, List.mem_flatMap.mpr ⟨key, hkey, hposting⟩, hrun⟩
    · rintro ⟨posting, hposting, hrun⟩
      obtain ⟨key, hkey, hposting⟩ := List.mem_flatMap.mp hposting
      obtain ⟨keyTrace, hkeyTrace, hkey⟩ := Panic.exists_of_mapM_eq_ok hkeys key hkey
      exact ⟨keyTrace, hkeyTrace, (mem_postings_of_traceHciKey hkey).mpr ⟨posting, hposting, hrun⟩⟩

/-- What the postings of a shard are traced to have the vintages of what a lookup collects. -/
lemma exists_vintage_traceHciPosting {snapshots : List CallSnapshot}
    (h : shard.lookupHci callsign = .ok snapshots) {vintage : Option ℕ} :
    (∃ trace, (∃ posting ∈ shard.hciPostings callsign,
      shard.traceHciPosting callsign limit posting = .ok trace) ∧
        vintage ∈ trace.parsedSnapshots.vintages) ↔
      vintage ∈ snapshots.map CallSnapshot.vintage := by
  rw [List.mem_map]
  constructor
  · rintro ⟨trace, ⟨posting, hposting, htrace⟩, hvintage⟩
    obtain ⟨found, hfound⟩ := exists_hciSnapshotsAt_of_lookupHci h hposting
    obtain ⟨trace', htrace', hvintages⟩ := exists_traceHciPosting limit hfound
    rw [htrace, Except.ok.injEq] at htrace'
    rw [htrace', hvintages, List.mem_map] at hvintage
    obtain ⟨s, hs, hvintage⟩ := hvintage
    exact ⟨s, (shard.mem_of_lookupHci_eq_ok h).mpr ⟨posting, hposting, found, hfound, hs⟩, hvintage⟩
  · rintro ⟨s, hs, hvintage⟩
    obtain ⟨posting, hposting, found, hfound, hs⟩ := (shard.mem_of_lookupHci_eq_ok h).mp hs
    obtain ⟨trace, htrace, hvintages⟩ := exists_traceHciPosting limit hfound
    refine ⟨trace, ⟨posting, hposting, htrace⟩, ?_⟩
    rw [hvintages, List.mem_map]
    exact ⟨s, hs, hvintage⟩

end V2Shard

namespace CallBook

variable {db : CallBook}

/-- A shard that a lookup has read is traced, and to the same vintages. -/
lemma exists_traceShard (limit : ℕ) {query : Str} {snapshots : List CallSnapshot}
    (h : db.shardSnapshots query = .ok snapshots) :
    ∃ idxHits hciKeys, db.traceShard query limit = .ok (idxHits, hciKeys) ∧ ∀ vintage,
      vintage ∈ tracedVintages idxHits hciKeys ↔
        vintage ∈ snapshots.map CallSnapshot.vintage := by
  rw [shardSnapshots] at h
  rw [traceShard]
  cases hv2 : db.v2 with
  | none =>
    rw [hv2] at h
    cases h
    exact ⟨[], [], rfl, by simp [tracedVintages]⟩
  | some v2 =>
    rw [hv2] at h
    simp only [Panic.bind_eq_ok_iff] at h
    obtain ⟨fromIdx, hidx, fromHci, hhci, heq⟩ := h
    cases heq
    obtain ⟨idxHits, hidxHits, hvintages⟩ := V2Shard.exists_traceDatIdx limit hidx
    obtain ⟨hciKeys, hhciKeys, htraces⟩ := V2Shard.exists_traceHci limit hhci
    refine ⟨idxHits, hciKeys, ?_, fun vintage => ?_⟩
    · simp only [hidxHits, hhciKeys]
      rfl
    · rw [mem_tracedVintages, hvintages, List.map_append, List.mem_append,
        ← V2Shard.exists_vintage_traceHciPosting limit hhci]
      simp only [htraces]

/-- The texts that parse to one callsign are answered alike. -/
lemma lookupReport_asStr (db : CallBook) {callsign : Str} {key : Callsign}
    (h : Callsign.parse callsign = .ok key) :
    db.lookupReport key.asStr = db.lookupReport callsign := by
  obtain ⟨hne, hlen, hchars⟩ := key.asStr_spec
  obtain ⟨key', hkey', hasStr⟩ := Callsign.parse_eq_ok_of_normal hne hlen hchars
  rw [lookupReport_eq_answer, lookupReport_eq_answer, answer, answer, hkey', h]
  simp only [hasStr]

/-- The report on a merge has the vintages that were merged. -/
lemma explains_report {trace : LookupTrace} {query : Str} {current : Option CallSnapshot}
    {snapshots : List CallSnapshot}
    (hmerged : Merged query (snapshots.foldl mergeSnapshot (current, [])))
    (hnormalized : trace.normalizedCallsign = query) (hhit : trace.usCsvHit = current.isSome)
    (hvintages : ∀ vintage, vintage ∈ trace.vintages ↔ vintage ∈ snapshots.map CallSnapshot.vintage)
    (hstatus : trace.finalStatus =
      (report query (snapshots.foldl mergeSnapshot (current, []))).status) :
    trace.Explains (report query (snapshots.foldl mergeSnapshot (current, []))) := by
  have hhas : ∀ vintage, HasVintage (snapshots.foldl mergeSnapshot (current, [])) vintage ↔
      HasVintage (current, []) vintage ∨ vintage ∈ trace.vintages := by
    intro vintage
    rw [hasVintage_foldl, hvintages]
  generalize snapshots.foldl mergeSnapshot (current, []) = state at *
  refine ⟨hnormalized, hstatus, ?_, ?_⟩
  · rw [hhit]
    apply Iff.trans _ (hhas none)
    show _ ↔ state.1.isSome
    rw [report]
    split_ifs with hcurrent hempty
    · exact iff_of_true rfl hcurrent
    · exact iff_of_false (by simp) hcurrent
    · exact iff_of_false (by simp) hcurrent
  · intro vintage
    have hperm := (StableSort.sortBy_perm historyOrder state.2).map CallSnapshot.vintage
    rw [report, hperm.mem_iff]
    cases vintage with
    | none =>
      simp only [ne_eq, not_true_eq_false, false_and, iff_false, List.mem_map, not_exists, not_and]
      intro s hs
      exact (hmerged.history s hs).1
    | some year =>
      apply (hhas (some year)).trans
      simp [HasVintage]

/-- A trace ends as a lookup of the same text does, and explains its report. -/
lemma endsAlike_traceLookupWithLimit (db : CallBook) (callsign : Str) (limit : ℕ) :
    EndsAlike LookupTrace.Explains (db.traceLookupWithLimit callsign limit)
      (db.lookupReport callsign) := by
  cases hparse : Callsign.parse callsign with
  | error e =>
    rw [traceLookupWithLimit, lookupReport_eq_answer, answer, hparse]
    exact .failed e
  | ok key =>
    have hlookup := db.lookupReport_asStr hparse
    rw [traceLookupWithLimit, hparse]
    simp only [hlookup]
    cases hsnapshots : db.shardSnapshots key.asStr with
    | error p =>
      have haborted : db.lookupReport callsign = .error p := by
        rw [lookupReport_eq_answer, answer, hparse]
        simp only [hsnapshots]
        rfl
      rw [haborted]
      cases db.traceShard key.asStr limit with
      | error p' => exact .aborted p' p
      | ok traced => exact .aborted p p
    | ok snapshots =>
      obtain ⟨idxHits, hciKeys, htraced, hvintages⟩ := exists_traceShard limit hsnapshots
      have hreport := lookupReport_eq_ok_iff.mpr ⟨key, snapshots, hparse, hsnapshots, rfl⟩
      have hquery := key.asStr_spec.2.2
      have hmerged := merged_foldl (db.merged_lookupUsCurrent hquery)
        (answers_of_shardSnapshots hquery hsnapshots)
      rw [hreport, htraced]
      apply EndsAlike.returned
      apply explains_report hmerged rfl
      · exact (Option.isSome_map).symm
      · exact hvintages
      · rfl

/-- A trace and a lookup of a text end alike; when they return, the trace explains the report. -/
theorem endsAlike_traceLookup (db : CallBook) (callsign : Str) :
    EndsAlike LookupTrace.Explains (db.traceLookup callsign) (db.lookupReport callsign) :=
  db.endsAlike_traceLookupWithLimit callsign defaultTracePreviewLimit

end CallBook

end Callbook
