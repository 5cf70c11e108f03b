import Callbook.Database.DefaultCountry
import Callbook.Database.StatKeys
import Callbook.Hci.Statistics
import Callbook.Library.NormalForms
import Callbook.Library.Tally
import Callbook.UsCsv.Properties

/-!
# Record statistics

The statistics take the current callsigns from the bare keys of the IDX file and from the current-US
catalog, and count each text once, under the jurisdiction of the source it was met in first. Archive
keys are counted in three ways, which agree.
-/

namespace Callbook

open Text

/-- Counts by jurisdiction. -/
structure JurisdictionCounts where
  unitedStates : ℕ
  canada : ℕ
  /-- Non-US/non-Canada records. -/
  international : ℕ
  /-- Records that could not be classified from available metadata. -/
  unknown : ℕ
  deriving DecidableEq, Repr

namespace JurisdictionCounts

/-- `JurisdictionCounts::default`. -/
def zero : JurisdictionCounts := ⟨0, 0, 0, 0⟩

/-- `JurisdictionCounts::total`. -/
def total (counts : JurisdictionCounts) : ℕ :=
  counts.unitedStates + counts.canada + counts.international + counts.unknown

/-- `JurisdictionCounts::increment`. -/
def increment (counts : JurisdictionCounts) : Jurisdiction → JurisdictionCounts
  | .unitedStates => { counts with unitedStates := counts.unitedStates + 1 }
  | .canada => { counts with canada := counts.canada + 1 }
  | .international => { counts with international := counts.international + 1 }
  | .unknown => { counts with unknown := counts.unknown + 1 }

/-- The count of one jurisdiction. -/
def bucket (counts : JurisdictionCounts) : Jurisdiction → ℕ
  | .unitedStates => counts.unitedStates
  | .canada => counts.canada
  | .international => counts.international
  | .unknown => counts.unknown

end JurisdictionCounts

/-- Archive counts for one publication year. -/
structure ArchiveYearStatistics where
  year : ℕ
  counts : JurisdictionCounts
  deriving DecidableEq, Repr

/-- Record counts from a full scan of database keys. -/
structure RecordStatistics where
  /-- Unique current callsigns across current sources. -/
  current : JurisdictionCounts
  /-- Historical `CALL:YYYY` records in the IDX. -/
  archive : JurisdictionCounts
  modernIdxCurrentRecords : ℕ
  modernIdxArchiveRecords : ℕ
  usCsvCurrentRecords : ℕ
  /-- Current plus archive records after current-source de-duplication. -/
  totalRecordsIncludingArchive : ℕ
  archiveYears : List ArchiveYearStatistics
  /-- Callsign-looking HCI posting counts. -/
  hciCallsigns : Option CallsignPostingStatistics
  deriving DecidableEq, Repr

/-- What `record_statistics` has counted. -/
structure RecordScan where
  currentCalls : Std.ExtTreeMap Str Jurisdiction
  archive : JurisdictionCounts
  archiveYears : Std.ExtTreeMap ℕ JurisdictionCounts
  modernIdxCurrentRecords : ℕ
  modernIdxArchiveRecords : ℕ

namespace RecordScan

def new : RecordScan := ⟨∅, .zero, ∅, 0, 0⟩

/-- Count a key of the IDX file. -/
def enter (scan : RecordScan) (callsign : Str) (vintage : Option ℕ) (jurisdiction : Jurisdiction) :
    RecordScan :=
  match vintage with
  | some year =>
    { scan with
      modernIdxArchiveRecords := scan.modernIdxArchiveRecords + 1
      archive := scan.archive.increment jurisdiction
      archiveYears := Tally.update .zero year (·.increment jurisdiction) scan.archiveYears }
  | none =>
    { scan with
      modernIdxCurrentRecords := scan.modernIdxCurrentRecords + 1
      currentCalls := scan.currentCalls.insertIfNew callsign jurisdiction }

end RecordScan

namespace V2Shard

variable (shard : V2Shard)

/-- One round of the loop over the IDX file. -/
def scanEntry (scan : RecordScan) (entry : TextEntry) : Except Panic RecordScan :=
  match statKeyParts entry.key with
  | none => .ok scan
  | some (callsign, vintage) => do
    let jurisdiction ← shard.classifyCallsign callsign
    pure (scan.enter callsign vintage jurisdiction)

/-- The loops over the IDX file and the current-US catalog. -/
def scanRecords : Except Panic RecordScan := do
  let scan ← shard.idx.iter.foldlM shard.scanEntry .new
  match shard.usCsv with
  | none => pure scan
  | some usCsv =>
    pure { scan with
      currentCalls := usCsv.callsigns.foldl (·.insertIfNew · .unitedStates) scan.currentCalls }

end V2Shard

/-- What `record_statistics` makes of the counts. -/
def RecordScan.finish (scan : RecordScan) (db : CallBook) : RecordStatistics :=
  let current := (scan.currentCalls.toList.map Prod.snd).foldl JurisdictionCounts.increment .zero
  { current
    archive := scan.archive
    modernIdxCurrentRecords := scan.modernIdxCurrentRecords
    modernIdxArchiveRecords := scan.modernIdxArchiveRecords
    usCsvCurrentRecords := (db.v2.bind (·.usCsv)).elim 0 UsCsvFile.len
    totalRecordsIncludingArchive := current.total + scan.archive.total
    archiveYears := scan.archiveYears.toList.map fun p => ⟨p.1, p.2⟩
    hciCallsigns := (db.v2.bind (·.hci)).map HciFile.callsignPostingStatistics }

/-- `CallBook::record_statistics`. -/
def CallBook.recordStatistics (db : CallBook) : Except Panic RecordStatistics := do
  let scan ← match db.v2 with
    | none => .ok .new
    | some v2 => v2.scanRecords
  pure (scan.finish db)

/-! ### The keys that are counted -/

namespace RecordScan

/-- The archive keys, each with its year. -/
def dated (keys : List (Str × Option ℕ)) : List (ℕ × Str) :=
  keys.filterMap fun parts => parts.2.map fun year => (year, parts.1)

/-- The bare keys. -/
def bare (keys : List (Str × Option ℕ)) : List Str :=
  keys.filterMap fun parts => if parts.2.isNone then some parts.1 else none

/-- Count keys, each under the jurisdiction of its callsign. -/
def enterAll (f : Str → Jurisdiction) (scan : RecordScan) (keys : List (Str × Option ℕ)) :
    RecordScan :=
  keys.foldl (fun scan parts => scan.enter parts.1 parts.2 (f parts.1)) scan

end RecordScan

namespace CallBook

/-- The callsigns and years of the IDX keys that are counted. -/
def statKeys (db : CallBook) : List (Str × Option ℕ) :=
  db.v2.elim [] fun v2 => v2.idx.iter.filterMap (statKeyParts ·.key)

/-- The texts of the bare keys. -/
def bareKeys (db : CallBook) : List Str := RecordScan.bare db.statKeys

/-- The callsigns of the current-US catalog. -/
def catalogKeys (db : CallBook) : List Str :=
  (db.v2.bind (·.usCsv)).elim [] UsCsvFile.callsigns

/-- The jurisdiction of a callsign. -/
def classifyCallsign (db : CallBook) (callsign : Str) : Except Panic Jurisdiction :=
  db.v2.elim (.ok .unknown) (·.classifyCallsign callsign)

/-- The jurisdiction that a callsign is counted under. -/
def jurisdiction (db : CallBook) (callsign : Str) : Jurisdiction :=
  (db.classifyCallsign callsign).toOption.getD .unknown

/-- What the loops count when no classification panics. -/
def recordScan (db : CallBook) : RecordScan :=
  let scan := RecordScan.new.enterAll db.jurisdiction db.statKeys
  { scan with
    currentCalls := db.catalogKeys.foldl (fun m callsign => m.insertIfNew callsign .unitedStates)
      scan.currentCalls }

end CallBook

/-! ### A run over the sources -/

namespace RecordScan

variable {f : Str → Jurisdiction}

lemma currentCalls_enterAll (keys : List (Str × Option ℕ)) (scan : RecordScan) :
    (scan.enterAll f keys).currentCalls =
      (bare keys).foldl (fun m callsign => m.insertIfNew callsign (f callsign))
        scan.currentCalls := by
  induction keys generalizing scan with
  | nil => rfl
  | cons parts keys ih =>
    obtain ⟨callsign, vintage⟩ := parts
    rw [enterAll, List.foldl_cons, ← enterAll, ih]
    cases vintage <;> rfl

lemma archive_enterAll (keys : List (Str × Option ℕ)) (scan : RecordScan) :
    (scan.enterAll f keys).archive =
        (dated keys).foldl (fun counts key => counts.increment (f key.2)) scan.archive ∧
      (scan.enterAll f keys).archiveYears =
        Tally.tally .zero Prod.fst (fun counts key => counts.increment (f key.2))
          scan.archiveYears (dated keys) ∧
      (scan.enterAll f keys).modernIdxArchiveRecords =
        scan.modernIdxArchiveRecords + (dated keys).length := by
  induction keys generalizing scan with
  | nil => exact ⟨rfl, rfl, rfl⟩
  | cons parts keys ih =>
    obtain ⟨callsign, vintage⟩ := parts
    obtain ⟨harchive, hyears, hrecords⟩ := ih (scan.enter callsign vintage (f callsign))
    rw [enterAll, List.foldl_cons, ← enterAll, harchive, hyears, hrecords]
    cases vintage with
    | none => exact ⟨rfl, rfl, rfl⟩
    | some year => exact ⟨rfl, rfl, Nat.succ_add_eq_add_succ _ _⟩

end RecordScan

namespace JurisdictionCounts

/-- A count that each increment raises by a weight ends at the sum of the weights. -/
lemma foldl_increment {γ : Type*} {m : JurisdictionCounts → ℕ} {w : Jurisdiction → ℕ}
    (h : ∀ counts j, m (counts.increment j) = m counts + w j) (f : γ → Jurisdiction)
    (l : List γ) (counts : JurisdictionCounts) :
    m (l.foldl (fun counts a => counts.increment (f a)) counts) =
      m counts + (l.map fun a => w (f a)).sum :=
  Tally.measure_foldl (fun counts a => h counts (f a)) l counts

lemma total_increment (counts : JurisdictionCounts) (j : Jurisdiction) :
    (counts.increment j).total = counts.total + 1 := by
  cases j <;> simp only [increment, total] <;> omega

lemma bucket_increment (b : Jurisdiction) (counts : JurisdictionCounts) (j : Jurisdiction) :
    (counts.increment j).bucket b = counts.bucket b + if j = b then 1 else 0 := by
  cases j <;> cases b <;> rfl

/-- A count of all keys is the sum of the counts of the years. -/
lemma sum_years {m : JurisdictionCounts → ℕ} {w : Jurisdiction → ℕ}
    (h : ∀ counts j, m (counts.increment j) = m counts + w j)
    (hzero : m zero = 0) (f : Str → Jurisdiction) (keys : List (ℕ × Str)) :
    ((Tally.tally zero Prod.fst (fun counts key => counts.increment (f key.2))
        (∅ : Std.ExtTreeMap ℕ JurisdictionCounts) keys).toList.map fun p => m p.2).sum =
      m (keys.foldl (fun counts key => counts.increment (f key.2)) zero) := by
  rw [Tally.toList_tally, List.map_map, foldl_increment h, hzero, Nat.zero_add]
  have hyear : ∀ year, m ((keys.filter (·.1 = year)).foldl
      (fun counts key => counts.increment (f key.2)) zero) =
        ((keys.filter (·.1 = year)).map fun key => w (f key.2)).sum := by
    intro year
    rw [foldl_increment h, hzero, Nat.zero_add]
  simp only [Function.comp_def, hyear]
  refine Tally.sum_map_filter _ Std.ExtTreeMap.nodup_keys (fun key hkey => ?_) _
  exact Tally.mem_keys_tally.mpr ⟨key, hkey, rfl⟩

end JurisdictionCounts

namespace V2Shard

variable {shard : V2Shard}

/-- A round that classifies without a panic. -/
def countEntry (shard : V2Shard) (scan : RecordScan) (entry : TextEntry) : RecordScan :=
  (statKeyParts entry.key).elim scan fun parts =>
    scan.enter parts.1 parts.2 (CallBook.jurisdiction ⟨some shard⟩ parts.1)

lemma scanEntry_eq_ok_iff {scan scan' : RecordScan} {entry : TextEntry} :
    shard.scanEntry scan entry = .ok scan' ↔
      (∀ parts ∈ statKeyParts entry.key, ∃ j, shard.classifyCallsign parts.1 = .ok j) ∧
        scan' = shard.countEntry scan entry := by
  have hjurisdiction : ∀ callsign, CallBook.jurisdiction ⟨some shard⟩ callsign =
      (shard.classifyCallsign callsign).toOption.getD .unknown := fun _ => rfl
  rw [scanEntry, countEntry]
  cases statKeyParts entry.key with
  | none => simp [eq_comm]
  | some parts =>
    simp only [Option.mem_def, Option.some.injEq, forall_eq', Option.elim_some, hjurisdiction]
    cases hclass : shard.classifyCallsign parts.1 with
    | error e => simp [bind, Except.bind]
    | ok j => simp [pure, Except.pure, Except.toOption, eq_comm]

lemma foldl_countEntry (entries : List TextEntry) (scan : RecordScan) :
    entries.foldl shard.countEntry scan = scan.enterAll (CallBook.jurisdiction ⟨some shard⟩)
      (entries.filterMap (statKeyParts ·.key)) := by
  rw [RecordScan.enterAll, List.foldl_filterMap]
  congr 1
  funext scan entry
  rw [countEntry]
  cases statKeyParts entry.key <;> rfl

/-- The loop over the IDX file finishes when no classification panics. -/
lemma foldlM_scanEntry_eq_ok_iff {scan : RecordScan} :
    shard.idx.iter.foldlM shard.scanEntry .new = .ok scan ↔
      (∀ parts ∈ CallBook.statKeys ⟨some shard⟩, ∃ j, shard.classifyCallsign parts.1 = .ok j) ∧
        scan = RecordScan.new.enterAll (CallBook.jurisdiction ⟨some shard⟩)
          (CallBook.statKeys ⟨some shard⟩) := by
  rw [Panic.foldlM_eq_ok_iff (f := shard.scanEntry) (g := shard.countEntry)
    fun _ _ _ => scanEntry_eq_ok_iff, foldl_countEntry]
  refine and_congr_left fun _ => ?_
  simp only [CallBook.statKeys, Option.elim_some, List.mem_filterMap]
  constructor
  · rintro h parts ⟨entry, hentry, hparts⟩
    exact h entry hentry parts hparts
  · exact fun h entry hentry parts hparts => h parts ⟨entry, hentry, hparts⟩

/-- The loop over the current-US catalog does nothing where there is none. -/
lemma foldl_catalogKeys (scan : RecordScan) : (match shard.usCsv with
      | none => pure scan
      | some usCsv => pure { scan with
          currentCalls := usCsv.callsigns.foldl (·.insertIfNew · .unitedStates)
            scan.currentCalls } : Except Panic RecordScan) =
    .ok { scan with
      currentCalls := (CallBook.catalogKeys ⟨some shard⟩).foldl
        (fun m callsign => m.insertIfNew callsign .unitedStates) scan.currentCalls } := by
  rw [CallBook.catalogKeys, Option.bind_some]
  cases shard.usCsv <;> rfl

/-- The loops finish when no classification panics. -/
lemma scanRecords_eq_ok_iff {scan : RecordScan} : shard.scanRecords = .ok scan ↔
    (∀ parts ∈ CallBook.statKeys ⟨some shard⟩, ∃ j, shard.classifyCallsign parts.1 = .ok j) ∧
      scan = CallBook.recordScan ⟨some shard⟩ := by
  rw [scanRecords, Panic.bind_eq_ok_iff]
  simp only [foldl_catalogKeys, foldlM_scanEntry_eq_ok_iff, Except.ok.injEq]
  constructor
  · rintro ⟨_, ⟨h, rfl⟩, rfl⟩
    exact ⟨h, rfl⟩
  · rintro ⟨h, rfl⟩
    exact ⟨_, ⟨h, rfl⟩, rfl⟩

end V2Shard

namespace CallBook

variable {db : CallBook}

/-- The statistics are there when no classification panics. -/
theorem recordStatistics_eq_ok_iff {stats : RecordStatistics} :
    db.recordStatistics = .ok stats ↔
      (∀ parts ∈ db.statKeys, ∃ j, db.classifyCallsign parts.1 = .ok j) ∧
        stats = db.recordScan.finish db := by
  obtain ⟨v2⟩ := db
  cases v2 with
  | none =>
    rw [recordStatistics, Panic.bind_eq_ok_iff]
    constructor
    · rintro ⟨_, ⟨⟩, ⟨⟩⟩
      exact ⟨fun parts hparts => absurd hparts List.not_mem_nil, rfl⟩
    · rintro ⟨-, rfl⟩
      exact ⟨_, rfl, rfl⟩
  | some shard =>
    rw [recordStatistics, Panic.bind_eq_ok_iff]
    constructor
    · rintro ⟨scan, hscan, ⟨⟩⟩
      obtain ⟨hclassified, rfl⟩ := V2Shard.scanRecords_eq_ok_iff.mp hscan
      exact ⟨hclassified, rfl⟩
    · rintro ⟨hclassified, rfl⟩
      exact ⟨_, V2Shard.scanRecords_eq_ok_iff.mpr ⟨hclassified, rfl⟩, rfl⟩

/-! ### Stations -/

/-- The callsign that `Callsign::parse` reads in a text. -/
def normalCall (text : Str) : Str := toAsciiUppercase (Callsign.stripAsciiWhitespace text)

/-- Stations are counted once, those of the catalog as stations of the United States, and the counts
of the archive records agree. -/
structure CountsStations (db : CallBook) (stats : RecordStatistics) : Prop where
  /-- The stations are the callsigns of the bare keys and those of the catalog. -/
  total : ∃ calls : Finset Str, stats.current.total = calls.card ∧
    ∀ call, call ∈ calls ↔ (∃ text ∈ db.bareKeys, normalCall text = call) ∨ call ∈ db.catalogKeys
  /-- Those of the United States are the catalog's and the ones that the tables place there. -/
  unitedStates : ∃ calls : Finset Str, stats.current.unitedStates = calls.card ∧
    ∀ call, call ∈ calls ↔ (∃ text ∈ db.bareKeys, normalCall text = call ∧
      db.classifyCallsign text = .ok .unitedStates) ∨ call ∈ db.catalogKeys
  archiveBucket : ∀ b, stats.archive.bucket b =
    (stats.archiveYears.map fun year => year.counts.bucket b).sum
  archiveTotal : stats.archive.total =
    (stats.archiveYears.map fun year => year.counts.total).sum
  archiveRecords : stats.archive.total = stats.modernIdxArchiveRecords

/-- No station is counted twice or in a wrong place. -/
structure StationsDistinct (db : CallBook) : Prop where
  classified : ∀ parts ∈ db.statKeys, ∃ j, db.classifyCallsign parts.1 = .ok j
  /-- No two bare keys are different spellings of one callsign. -/
  injective : ∀ text ∈ db.bareKeys, ∀ text' ∈ db.bareKeys,
    normalCall text = normalCall text' → text = text'
  /-- A bare key with a callsign of the catalog is spelled as there, -/
  listed : ∀ text ∈ db.bareKeys, normalCall text ∈ db.catalogKeys → normalCall text = text
  /-- and the tables place it in the United States. -/
  placed : ∀ text ∈ db.bareKeys, normalCall text ∈ db.catalogKeys →
    db.classifyCallsign text = .ok .unitedStates

/-! ### The archive -/

/-- The three counts of the archive records agree. -/
lemma archive_recordScan (db : CallBook) :
    (∀ b, (db.recordScan.finish db).archive.bucket b =
      ((db.recordScan.finish db).archiveYears.map fun year => year.counts.bucket b).sum) ∧
    (db.recordScan.finish db).archive.total =
      ((db.recordScan.finish db).archiveYears.map fun year => year.counts.total).sum ∧
    (db.recordScan.finish db).archive.total =
      (db.recordScan.finish db).modernIdxArchiveRecords := by
  obtain ⟨harchive, hyears, hrecords⟩ :=
    RecordScan.archive_enterAll (f := db.jurisdiction) db.statKeys .new
  have hyears' : ∀ measure : JurisdictionCounts → ℕ,
      ((db.recordScan.finish db).archiveYears.map fun year => measure year.counts).sum =
        ((Tally.tally JurisdictionCounts.zero Prod.fst
          (fun counts key => counts.increment (db.jurisdiction key.2))
          (∅ : Std.ExtTreeMap ℕ JurisdictionCounts)
          (RecordScan.dated db.statKeys)).toList.map fun p => measure p.2).sum := by
    intro measure
    rw [RecordScan.finish, List.map_map, recordScan]
    dsimp only
    rw [hyears]
    rfl
  have harchive' : (db.recordScan.finish db).archive = (RecordScan.dated db.statKeys).foldl
      (fun counts key => counts.increment (db.jurisdiction key.2)) .zero := harchive
  have hsum : ∀ (measure : JurisdictionCounts → ℕ) (w : Jurisdiction → ℕ),
      (∀ counts j, measure (counts.increment j) = measure counts + w j) → measure .zero = 0 →
        measure (db.recordScan.finish db).archive =
          ((db.recordScan.finish db).archiveYears.map fun year => measure year.counts).sum := by
    intro measure w hincrement hzero
    rw [hyears', JurisdictionCounts.sum_years hincrement hzero, harchive']
  refine ⟨fun b => ?_, hsum _ _ JurisdictionCounts.total_increment rfl, ?_⟩
  · exact hsum (·.bucket b) _ (JurisdictionCounts.bucket_increment b) (by cases b <;> rfl)
  · rw [harchive', JurisdictionCounts.foldl_increment JurisdictionCounts.total_increment]
    refine Eq.trans ?_ hrecords.symm
    simp [JurisdictionCounts.zero, JurisdictionCounts.total, RecordScan.new]

/-! ### The current callsigns -/

lemma getElem?_currentCalls (db : CallBook) (text : Str) :
    db.recordScan.currentCalls[text]? =
      if text ∈ db.bareKeys then some (db.jurisdiction text)
      else if text ∈ db.catalogKeys then some .unitedStates else none := by
  rw [recordScan]
  dsimp only
  rw [RecordScan.currentCalls_enterAll,
    Maps.getElem?_foldl_insertIfNew fun _ => Jurisdiction.unitedStates,
    Maps.getElem?_foldl_insertIfNew db.jurisdiction, ← bareKeys]
  simp only [RecordScan.new, Std.ExtTreeMap.getElem?_empty, Option.none_or]
  split_ifs <;> rfl

/-- A count of the current callsigns that takes some of the jurisdictions is the number of the texts
under these. -/
lemma current_eq_card {m : JurisdictionCounts → ℕ} {w : Jurisdiction → ℕ}
    (h : ∀ counts j, m (counts.increment j) = m counts + w j) (hzero : m .zero = 0)
    (hw : ∀ j, w j ≤ 1) {s : Finset Str}
    (hs : ∀ text, text ∈ s ↔ ∃ j, db.recordScan.currentCalls[text]? = some j ∧ 0 < w j) :
    m (db.recordScan.finish db).current = s.card := by
  have hcurrent : (db.recordScan.finish db).current =
      db.recordScan.currentCalls.toList.foldl (fun counts p => counts.increment p.2) .zero :=
    List.foldl_map
  rw [hcurrent, JurisdictionCounts.foldl_increment h, hzero, Nat.zero_add,
    Tally.sum_map_eq_length_filter_iff.mpr fun p _ => hw p.2]
  exact Maps.length_filter_toList _ _ fun text => by simp [hs]

/-- The texts that are counted as current. -/
def currentTexts (db : CallBook) : Finset Str := db.bareKeys.toFinset ∪ db.catalogKeys.toFinset

lemma total_current (db : CallBook) :
    (db.recordScan.finish db).current.total = db.currentTexts.card := by
  refine current_eq_card JurisdictionCounts.total_increment rfl (fun _ => le_rfl) fun text => ?_
  rw [currentTexts, Finset.mem_union, List.mem_toFinset, List.mem_toFinset, getElem?_currentCalls]
  split_ifs with hbare hcatalog <;> simp [*]

lemma unitedStates_current (db : CallBook) :
    (db.recordScan.finish db).current.unitedStates = (db.currentTexts.filter fun text =>
      text ∈ db.bareKeys.toFinset → db.jurisdiction text = .unitedStates).card := by
  refine current_eq_card (m := (·.bucket .unitedStates))
    (JurisdictionCounts.bucket_increment .unitedStates) rfl (fun j => ?_) fun text => ?_
  · split_ifs <;> simp
  · rw [Finset.mem_filter, currentTexts, Finset.mem_union, List.mem_toFinset, List.mem_toFinset,
      getElem?_currentCalls]
    split_ifs with hbare hcatalog
    · by_cases hplace : db.jurisdiction text = .unitedStates <;> simp [*]
    · simp [*]
    · simp [*]

/-! ### Spelling -/

/-- A bare key has no white space around it. -/
lemma strip_of_mem_bareKeys {text : Str} (h : text ∈ db.bareKeys) :
    Callsign.stripAsciiWhitespace text = text := by
  obtain ⟨⟨callsign, vintage⟩, hparts, hbare⟩ := List.mem_filterMap.mp h
  obtain ⟨rfl, rfl⟩ : vintage = none ∧ callsign = text := by
    cases vintage with
    | none => exact ⟨rfl, Option.some.inj hbare⟩
    | some year => cases hbare
  obtain ⟨key, hkey⟩ : ∃ key, statKeyParts key = some (callsign, none) := by
    obtain ⟨v2⟩ := db
    cases v2 with
    | none => exact absurd hparts List.not_mem_nil
    | some shard =>
      obtain ⟨entry, -, hentry⟩ := List.mem_filterMap.mp hparts
      exact ⟨entry.key, hentry⟩
  obtain ⟨year, htrim, hyear, -⟩ := exists_year_of_statKeyParts hkey
  obtain rfl : year = none := by
    cases year <;> simp at hyear ⊢
  rw [V2Record.writtenKey, Option.elim_none, List.append_nil] at htrim
  obtain ⟨-, -, hhead, hlast⟩ := trim_of_statKeyParts hkey
  rw [htrim] at hhead hlast
  have hends : ∀ {b : UInt8}, V2Record.isPadding b = false → isAsciiWhitespace b = false := by
    intro b hb
    rw [V2Record.isPadding, Bool.or_eq_false_iff] at hb
    exact hb.1
  exact trimBy_eq_self (fun b hb => hends (hhead b hb)) fun b hb => hends (hlast b hb)

/-- The catalog has its callsigns in capital letters. -/
lemma toAsciiUppercase_of_mem_catalogKeys {text : Str} (h : text ∈ db.catalogKeys) :
    toAsciiUppercase text = text := by
  have hbyte : ∀ b, toAsciiUppercaseByte (toAsciiUppercaseByte b) = toAsciiUppercaseByte b := by
    decide +kernel
  rw [catalogKeys] at h
  cases husCsv : db.v2.bind (·.usCsv) with
  | none =>
    rw [husCsv] at h
    exact absurd h List.not_mem_nil
  | some usCsv =>
    rw [husCsv, Option.elim_some, usCsv.callsigns_eq, Std.ExtTreeMap.mem_keys,
      Std.ExtTreeMap.mem_iff_isSome_getElem?, Option.isSome_iff_exists] at h
    obtain ⟨r, hr⟩ := h
    rw [usCsv.keyed text r hr]
    simp [toAsciiUppercase, Function.comp_def, hbyte]

lemma normalCall_of_mem {text : Str} (hbare : text ∈ db.bareKeys) (h : text ∈ db.catalogKeys) :
    normalCall text = text := by
  rw [normalCall, strip_of_mem_bareKeys hbare, toAsciiUppercase_of_mem_catalogKeys h]

/-- A bare key that the statistics classify is placed where the tables place it. -/
lemma jurisdiction_eq_iff (h : ∀ parts ∈ db.statKeys, ∃ j, db.classifyCallsign parts.1 = .ok j)
    {text : Str} (hbare : text ∈ db.bareKeys) {j : Jurisdiction} :
    db.jurisdiction text = j ↔ db.classifyCallsign text = .ok j := by
  obtain ⟨parts, hparts, hpair⟩ := List.mem_filterMap.mp hbare
  split_ifs at hpair
  obtain rfl := Option.some.inj hpair
  obtain ⟨j', hj⟩ := h parts hparts
  rw [jurisdiction, hj, Except.ok.injEq]
  rfl

/-- The callsigns of the sources: the normal forms of the bare keys, and those of the catalog. -/
lemma forall_mem_iff_eq_calls {calls : Finset Str} :
    (∀ call, call ∈ calls ↔
        (∃ text ∈ db.bareKeys, normalCall text = call) ∨ call ∈ db.catalogKeys) ↔
      calls = db.bareKeys.toFinset.image normalCall ∪ db.catalogKeys.toFinset := by
  simp [Finset.ext_iff]

/-- The callsigns of the United States: of the bare keys, those that are classified so. -/
lemma forall_mem_iff_eq_unitedStates
    (h : ∀ parts ∈ db.statKeys, ∃ j, db.classifyCallsign parts.1 = .ok j) {calls : Finset Str} :
    (∀ call, call ∈ calls ↔
        (∃ text ∈ db.bareKeys, normalCall text = call ∧
          db.classifyCallsign text = .ok .unitedStates) ∨ call ∈ db.catalogKeys) ↔
      calls = (db.bareKeys.toFinset.filter fun text =>
        db.jurisdiction text = .unitedStates).image normalCall ∪ db.catalogKeys.toFinset := by
  rw [Finset.ext_iff]
  refine forall_congr' fun call => iff_congr Iff.rfl ?_
  simp only [Finset.mem_union, Finset.mem_image, Finset.mem_filter, List.mem_toFinset]
  refine or_congr_left (exists_congr fun text => ?_)
  constructor
  · rintro ⟨hbare, hcall, hplace⟩
    exact ⟨⟨hbare, (jurisdiction_eq_iff h hbare).mpr hplace⟩, hcall⟩
  · rintro ⟨⟨hbare, hplace⟩, hcall⟩
    exact ⟨hbare, hcall, (jurisdiction_eq_iff h hbare).mp hplace⟩

/-- Where no classification panics, the statistics count stations exactly when the texts are
distinct and the tables place no station of the catalog elsewhere. -/
lemma countsStations_finish_iff
    (h : ∀ parts ∈ db.statKeys, ∃ j, db.classifyCallsign parts.1 = .ok j) :
    db.CountsStations (db.recordScan.finish db) ↔
      NormalForms.Distinct normalCall db.bareKeys.toFinset db.catalogKeys.toFinset ∧
        ∀ text ∈ db.bareKeys.toFinset, normalCall text ∈ db.catalogKeys.toFinset →
          db.jurisdiction text = .unitedStates := by
  have hself : ∀ text ∈ db.bareKeys.toFinset, text ∈ db.catalogKeys.toFinset →
      normalCall text = text := fun text hbare hlisted =>
    normalCall_of_mem (List.mem_toFinset.mp hbare) (List.mem_toFinset.mp hlisted)
  obtain ⟨hbucket, htotal, hrecords⟩ := archive_recordScan db
  constructor
  · intro hcounts
    obtain ⟨calls, hcard, hmem⟩ := hcounts.total
    obtain ⟨calls', hcard', hmem'⟩ := hcounts.unitedStates
    rw [total_current, forall_mem_iff_eq_calls.mp hmem] at hcard
    rw [unitedStates_current, (forall_mem_iff_eq_unitedStates h).mp hmem'] at hcard'
    have hdistinct := (NormalForms.card_union_eq_iff hself).mp hcard
    exact ⟨hdistinct, (NormalForms.card_filter_eq_iff hself hdistinct _).mp hcard'⟩
  · rintro ⟨hdistinct, hplace⟩
    refine ⟨⟨_, ?_, forall_mem_iff_eq_calls.mpr rfl⟩,
      ⟨_, ?_, (forall_mem_iff_eq_unitedStates h).mpr rfl⟩, hbucket, htotal, hrecords⟩
    · rw [total_current]
      exact (NormalForms.card_union_eq_iff hself).mpr hdistinct
    · rw [unitedStates_current]
      exact (NormalForms.card_filter_eq_iff hself hdistinct _).mpr hplace

/-- The statistics count stations exactly when no two texts name one station, and the tables place
no station of the catalog elsewhere. -/
theorem recordStatistics_countsStations_iff (db : CallBook) :
    (∃ stats, db.recordStatistics = .ok stats ∧ db.CountsStations stats) ↔
      db.StationsDistinct := by
  constructor
  · rintro ⟨stats, hstats, hcounts⟩
    obtain ⟨hclassified, rfl⟩ := recordStatistics_eq_ok_iff.mp hstats
    obtain ⟨hdistinct, hplace⟩ := (countsStations_finish_iff hclassified).mp hcounts
    simp only [List.mem_toFinset] at hplace
    refine ⟨hclassified, ?_, ?_, fun text hbare hlisted => ?_⟩
    · simpa using hdistinct.injective
    · simpa using hdistinct.listed
    · exact (jurisdiction_eq_iff hclassified hbare).mp (hplace text hbare hlisted)
  · intro h
    refine ⟨_, recordStatistics_eq_ok_iff.mpr ⟨h.classified, rfl⟩,
      (countsStations_finish_iff h.classified).mpr ⟨⟨?_, ?_⟩, ?_⟩⟩
    · simpa using h.injective
    · simpa using h.listed
    · simp only [List.mem_toFinset]
      exact fun text hbare hlisted =>
        (jurisdiction_eq_iff h.classified hbare).mpr (h.placed text hbare hlisted)

/-- A database without country tables, with a station in both sources. -/
def sharedStation : CallBook :=
  ⟨some { V2Shard.sampleShard [] with usCsv := some (UsCsvFile.open [[ascii "W1AW"]]) }⟩

/-- The station is in the catalog and is counted as unknown. -/
theorem recordStatistics_sharedStation :
    ¬ ∃ stats, sharedStation.recordStatistics = .ok stats ∧ sharedStation.CountsStations stats := by
  have hrun : sharedStation.recordStatistics.toOption.any fun stats =>
      stats.current.unitedStates == 0 := by decide +kernel
  have hcatalog : ascii "W1AW" ∈ sharedStation.catalogKeys := by decide +kernel
  rintro ⟨stats, hstats, hcounts⟩
  rw [hstats] at hrun
  obtain ⟨calls, hcard, hmem⟩ := hcounts.unitedStates
  have hzero : stats.current.unitedStates = 0 := beq_iff_eq.mp hrun
  have hempty : calls = ∅ := Finset.card_eq_zero.mp (hcard.symm.trans hzero)
  have hstation : ascii "W1AW" ∈ calls := (hmem _).mpr (.inr hcatalog)
  rw [hempty] at hstation
  exact Finset.notMem_empty _ hstation

end CallBook

end Callbook
