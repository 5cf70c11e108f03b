import Callbook.Library.Tally
import Callbook.Scan.Interest

/-!
# Interest statistics

A second scan over the DAT file reads the records as the interest search does, and counts callsigns,
snapshots and the codes that the catalog does not know. It agrees with the search on who has an
interest; its counts of unknown codes are counts of occurrences, not of snapshots.
-/

namespace Callbook

open Text

/-- One example record containing an unresolved interest code. -/
structure InterestCodeExample where
  /-- Callsign without `:YYYY`. -/
  callsign : Str
  vintage : Option ℕ
  deriving DecidableEq, Repr

structure UnknownInterestAccumulator where
  occurrences : ℕ
  currentOccurrences : ℕ
  archiveOccurrences : ℕ
  examples : List InterestCodeExample
  deriving DecidableEq, Repr

/-- One unknown interest-code occurrence count. -/
structure UnknownInterestCode extends UnknownInterestAccumulator where
  code : Str
  deriving DecidableEq, Repr

/-- Interest-profile statistics from decoded records. -/
structure InterestStatistics where
  /-- Number of entries loaded from `ham0/interest`. -/
  catalogEntries : ℕ
  /-- Unique current callsigns with one or more raw interest codes. -/
  currentCallsignsWithInterests : ℕ
  /-- Current snapshots with one or more raw interest codes. -/
  currentSnapshotsWithInterests : ℕ
  /-- Archive snapshots with one or more raw interest codes. -/
  archiveSnapshotsWithInterests : ℕ
  /-- Unique current callsigns with one or more resolved interest labels. -/
  currentCallsignsWithResolvedInterests : ℕ
  unknownCodes : List UnknownInterestCode
  deriving DecidableEq, Repr

/-- `InterestTable::len`. -/
def InterestTable.len (table : InterestTable) : ℕ := table.definitions.length

namespace UnknownInterestAccumulator

/-- `UnknownInterestAccumulator::default`. -/
def zero : UnknownInterestAccumulator := ⟨0, 0, 0, []⟩

/-- Count an occurrence, and keep its record as an example when it is new and there are fewer than
three. -/
def count (acc : UnknownInterestAccumulator) (record : InterestCodeExample) :
    UnknownInterestAccumulator where
  occurrences := acc.occurrences + 1
  currentOccurrences := acc.currentOccurrences + if record.vintage.isNone then 1 else 0
  archiveOccurrences := acc.archiveOccurrences + if record.vintage.isNone then 0 else 1
  examples :=
    if acc.examples.length < 3 ∧ record ∉ acc.examples then acc.examples ++ [record]
    else acc.examples

end UnknownInterestAccumulator

/-- What the scan has counted. -/
structure InterestTallies where
  currentCalls : Finset Str
  currentCallsResolved : Finset Str
  currentSnapshots : ℕ
  archiveSnapshots : ℕ
  unknownCodes : Std.ExtTreeMap Str UnknownInterestAccumulator

namespace InterestTallies

def zero : InterestTallies := ⟨∅, ∅, 0, 0, ∅⟩

/-- Count a snapshot with interest codes, some of which resolve when `resolved` is not empty. -/
def countSnapshot (tallies : InterestTallies) (resolved : List ResolvedInterest) (callsign : Str)
    (vintage : Option ℕ) : InterestTallies :=
  if vintage.isNone then
    { tallies with
      currentSnapshots := tallies.currentSnapshots + 1
      currentCalls := insert callsign tallies.currentCalls
      currentCallsResolved :=
        if resolved ≠ [] then insert callsign tallies.currentCallsResolved
        else tallies.currentCallsResolved }
  else { tallies with archiveSnapshots := tallies.archiveSnapshots + 1 }

/-- Count a code of a record, unless it resolves. -/
def countCode (resolved : List ResolvedInterest) (record : InterestCodeExample)
    (tallies : InterestTallies) (code : Str) : InterestTallies :=
  if resolved.any (·.code = code) then tallies
  else
    { tallies with
      unknownCodes := Tally.update .zero code (·.count record) tallies.unknownCodes }

end InterestTallies

structure InterestScan extends InterestCursor, InterestTallies where
  table : Option InterestTable

namespace InterestScan

/-- `InterestScan::new`. -/
def new (table : Option InterestTable) : InterestScan :=
  { InterestCursor.new, InterestTallies.zero with table }

/-- `finish_record`. -/
def finishRecord (scan : InterestScan) : InterestScan :=
  if ¬ scan.inRecord ∨ scan.interestRaw = [] then scan
  else
    match interestRecordKey scan.key with
    | none => scan
    | some (callsign, vintage) =>
      let raw := trimAsciiLossy scan.interestRaw
      if raw = [] then scan
      else
        let codes := InterestTable.codes raw
        if codes = [] then scan
        else
          let resolved := scan.table.elim [] (·.resolveRaw raw)
          let tallies := scan.toInterestTallies.countSnapshot resolved callsign vintage
          { scan with
            toInterestTallies :=
              codes.foldl (InterestTallies.countCode resolved ⟨callsign, vintage⟩) tallies }

/-- One byte of `scan_dat`. -/
def scanByte (scan : InterestScan) (decoded : UInt8) : InterestScan :=
  if isSentinel decoded then
    { scan.finishRecord with toInterestCursor := scan.finishRecord.toInterestCursor.startRecord }
  else { scan with toInterestCursor := scan.toInterestCursor.push decoded }

/-- `scan_dat`. -/
def scanDat (scan : InterestScan) (encoded : Bytes) : InterestScan :=
  ((decodeDat encoded).foldl scanByte scan).finishRecord

/-- `finish`. -/
def finish (scan : InterestScan) (catalogEntries : ℕ) : InterestStatistics where
  catalogEntries := catalogEntries
  currentCallsignsWithInterests := scan.currentCalls.card
  currentSnapshotsWithInterests := scan.currentSnapshots
  archiveSnapshotsWithInterests := scan.archiveSnapshots
  currentCallsignsWithResolvedInterests := scan.currentCallsResolved.card
  unknownCodes := scan.unknownCodes.toList.map fun p => { p.2 with code := p.1 }

end InterestScan

/-- `CallBook::interest_statistics`. -/
def CallBook.interestStatistics (db : CallBook) : InterestStatistics :=
  let catalogEntries := db.interestCatalog.elim 0 InterestTable.len
  match db.v2 with
  | none => ⟨catalogEntries, 0, 0, 0, 0, []⟩
  | some v2 => ((InterestScan.new v2.interests).scanDat v2.datMmap).finish catalogEntries

/-! ### The records of a file -/

/-- What the scans read in a record with a valid key. -/
structure InterestReading extends InterestCodeExample where
  codes : List Str
  deriving DecidableEq, Repr

/-- A record as the scans read it. -/
def interestReading (body : Bytes) : Option InterestReading := do
  let (callsign, vintage) ← interestRecordKey (V2Record.keyBytes body)
  some { callsign, vintage, codes := scannedCodes body }

/-- The records of a file with a valid key, in order. -/
def interestReadings (encoded : Bytes) : List InterestReading :=
  (Scanner.bodies isSentinel (decodeDat encoded)).filterMap interestReading

/-- The catalog, if there is one, has the code. -/
def Resolves (table : Option InterestTable) (code : Str) : Prop :=
  ∃ t ∈ table, (t.lookup code).isSome

instance (table : Option InterestTable) (code : Str) : Decidable (Resolves table code) :=
  inferInstanceAs (Decidable (∃ t ∈ table, _))

/-- The definitions of the codes that resolve. -/
def resolvedInterests (table : Option InterestTable) (codes : List Str) : List ResolvedInterest :=
  codes.filterMap fun code =>
    (table.bind (·.lookup code)).map fun d => ⟨d.code, d.category, d.label⟩

lemma elim_resolveRaw (table : Option InterestTable) (raw : Str) :
    table.elim [] (·.resolveRaw raw) = resolvedInterests table (InterestTable.codes raw) := by
  cases table with
  | none => simp [resolvedInterests]
  | some table => rfl

namespace InterestTallies

variable {table : Option InterestTable}

/-- Count a record. -/
def enter (table : Option InterestTable) (tallies : InterestTallies) (reading : InterestReading) :
    InterestTallies :=
  if reading.codes = [] then tallies
  else
    let resolved := resolvedInterests table reading.codes
    reading.codes.foldl (countCode resolved reading.toInterestCodeExample)
      (tallies.countSnapshot resolved reading.callsign reading.vintage)

/-- The occurrences of codes in a record that do not resolve. -/
def unresolved (table : Option InterestTable) (reading : InterestReading) :
    List (Str × InterestCodeExample) :=
  let resolved := resolvedInterests table reading.codes
  (reading.codes.filter fun code => !resolved.any (·.code = code)).map
    fun code => (code, reading.toInterestCodeExample)

/-- Enter occurrences of codes under their codes. -/
def enterCodes (unknown : Std.ExtTreeMap Str UnknownInterestAccumulator)
    (occurrences : List (Str × InterestCodeExample)) :
    Std.ExtTreeMap Str UnknownInterestAccumulator :=
  Tally.tally .zero Prod.fst (fun acc p => acc.count p.2) unknown occurrences

lemma foldl_countCode (resolved : List ResolvedInterest) (record : InterestCodeExample)
    (codes : List Str) (tallies : InterestTallies) :
    codes.foldl (countCode resolved record) tallies = { tallies with
      unknownCodes := enterCodes tallies.unknownCodes
        ((codes.filter fun code => !resolved.any (·.code = code)).map fun code =>
          (code, record)) } := by
  induction codes generalizing tallies with
  | nil => rfl
  | cons code codes ih =>
    rw [List.foldl_cons, ih, countCode, List.filter_cons]
    by_cases hcode : resolved.any (·.code = code)
    · simp [hcode]
    · simp [hcode, enterCodes, Tally.tally]

@[simp] lemma unknownCodes_countSnapshot (tallies : InterestTallies)
    (resolved : List ResolvedInterest) (callsign : Str) (vintage : Option ℕ) :
    (tallies.countSnapshot resolved callsign vintage).unknownCodes = tallies.unknownCodes := by
  rw [countSnapshot]
  split_ifs <;> rfl

lemma unknownCodes_enter (tallies : InterestTallies) (reading : InterestReading) :
    (enter table tallies reading).unknownCodes =
      enterCodes tallies.unknownCodes (unresolved table reading) := by
  rw [enter, unresolved]
  split_ifs with hcodes
  · rw [hcodes]
    rfl
  · rw [foldl_countCode]
    simp only [unknownCodes_countSnapshot]

lemma currentCalls_enter (tallies : InterestTallies) (reading : InterestReading) :
    (enter table tallies reading).currentCalls =
      if reading.codes ≠ [] ∧ reading.vintage.isNone then
        insert reading.callsign tallies.currentCalls
      else tallies.currentCalls := by
  rw [enter]
  by_cases hcodes : reading.codes = []
  · simp [hcodes]
  · rw [if_neg hcodes, foldl_countCode, countSnapshot]
    by_cases hvintage : reading.vintage.isNone <;> simp [hcodes, hvintage]

lemma archiveSnapshots_enter (tallies : InterestTallies) (reading : InterestReading) :
    (enter table tallies reading).archiveSnapshots = tallies.archiveSnapshots +
      if reading.codes ≠ [] ∧ ¬ reading.vintage.isNone then 1 else 0 := by
  rw [enter]
  by_cases hcodes : reading.codes = []
  · simp [hcodes]
  · rw [if_neg hcodes, foldl_countCode, countSnapshot]
    by_cases hvintage : reading.vintage.isNone <;> simp [hcodes, hvintage]

/-! ### A run over records -/

lemma unknownCodes_foldl (readings : List InterestReading) (tallies : InterestTallies) :
    (readings.foldl (enter table) tallies).unknownCodes =
      enterCodes tallies.unknownCodes (readings.flatMap (unresolved table)) := by
  induction readings generalizing tallies with
  | nil => rfl
  | cons reading readings ih =>
    rw [List.foldl_cons, ih, unknownCodes_enter, List.flatMap_cons, enterCodes, enterCodes,
      enterCodes, Tally.tally, Tally.tally, Tally.tally, List.foldl_append]

lemma mem_currentCalls_foldl {readings : List InterestReading} {tallies : InterestTallies}
    {call : Str} : call ∈ (readings.foldl (enter table) tallies).currentCalls ↔
      call ∈ tallies.currentCalls ∨ ∃ reading ∈ readings,
        (reading.codes ≠ [] ∧ reading.vintage.isNone) ∧ reading.callsign = call := by
  induction readings generalizing tallies with
  | nil => simp
  | cons reading readings ih =>
    rw [List.foldl_cons, ih, currentCalls_enter, List.exists_mem_cons_iff]
    split_ifs with h
    · rw [Finset.mem_insert, @eq_comm _ call]
      tauto
    · tauto

lemma archiveSnapshots_foldl (readings : List InterestReading) (tallies : InterestTallies) :
    (readings.foldl (enter table) tallies).archiveSnapshots = tallies.archiveSnapshots +
      (readings.filter fun reading =>
        reading.codes ≠ [] ∧ ¬ reading.vintage.isNone).length :=
  Tally.count_foldl archiveSnapshots_enter readings tallies

end InterestTallies

namespace InterestScan

open InterestTallies

/-- At the end of a record the scan counts what the record has. -/
lemma tallies_finishRecord {scan : InterestScan} {body : Bytes}
    (h : scan.toInterestCursor.Holds body) : scan.finishRecord.toInterestTallies =
      (interestReading body).elim scan.toInterestTallies
        (enter scan.table scan.toInterestTallies) := by
  rw [finishRecord, interestReading, scannedCodes, ← h.interestRaw, ← h.key]
  have hblank : InterestTable.codes [] = [] := rfl
  by_cases hraw : scan.interestRaw = []
  · rw [if_pos (.inr hraw), hraw]
    have htrim : trimAsciiLossy [] = [] := rfl
    cases interestRecordKey scan.key <;> simp [enter, htrim, hblank]
  · rw [if_neg (by simp [h.inRecord, hraw])]
    cases interestRecordKey scan.key with
    | none => rfl
    | some key =>
      simp only [Option.bind_eq_bind, Option.bind_some, Option.elim_some, enter,
        elim_resolveRaw]
      by_cases htrim : trimAsciiLossy scan.interestRaw = []
      · simp [htrim, hblank]
      · rw [if_neg htrim]
        split_ifs <;> rfl

lemma table_finishRecord (scan : InterestScan) : scan.finishRecord.table = scan.table := by
  unfold finishRecord
  split_ifs
  · rfl
  split
  · rfl
  · dsimp only
    split_ifs <;> rfl

/-- The scan reads records by its cursor, and counts them when they end. -/
lemma reads : Scanner.Reads
    (fun scan b => { scan with toInterestCursor := scan.toInterestCursor.push b })
    (fun scan => { scan with toInterestCursor := scan.toInterestCursor.startRecord })
    finishRecord toInterestCursor (fun scan => (scan.table, scan.toInterestTallies))
    InterestCursor.push InterestCursor.startRecord
    (fun s body => (s.1, (interestReading body).elim s.2 (enter s.1 s.2))) where
  cursor_push _ _ := rfl
  cursor_start _ := rfl
  out_push _ _ := rfl
  out_start _ := rfl
  out_close scan cursor body h := by
    have hholds : scan.toInterestCursor.Holds body := h ▸ cursor.holds_foldl_push body
    rw [table_finishRecord, tallies_finishRecord hholds]

lemma foldl_interestReading (table : Option InterestTable) (bodies : List Bytes)
    (tallies : InterestTallies) :
    bodies.foldl (fun s body => (s.1, (interestReading body).elim s.2 (enter s.1 s.2)))
        (table, tallies) =
      (table, (bodies.filterMap interestReading).foldl (enter table) tallies) := by
  induction bodies generalizing tallies with
  | nil => rfl
  | cons body bodies ih =>
    rw [List.foldl_cons, ih, List.filterMap_cons]
    cases interestReading body <;> rfl

/-- The scan counts the records of the file. -/
theorem tallies_scanDat (table : Option InterestTable) (encoded : Bytes) :
    ((new table).scanDat encoded).toInterestTallies =
      (interestReadings encoded).foldl (enter table) .zero := by
  have hscan := reads.out_scan (p := isSentinel) (s := new table) (fun scan head h => by
    rw [InterestCursor.foldl_push_outside rfl] at h
    have hin : scan.inRecord = false := by rw [h]; rfl
    rw [finishRecord, if_pos (by simp [hin])]) (decodeDat encoded)
  rw [foldl_interestReading] at hscan
  exact congrArg Prod.snd hscan

end InterestScan

/-! ### The two scans -/

lemma interestReading_eq_some_iff {body : Bytes} {reading : InterestReading} :
    interestReading body = some reading ↔
      interestRecordKey (V2Record.keyBytes body) = some (reading.callsign, reading.vintage) ∧
        reading.codes = scannedCodes body := by
  obtain ⟨⟨callsign, vintage⟩, codes⟩ := reading
  rw [interestReading]
  cases interestRecordKey (V2Record.keyBytes body) with
  | none => simp
  | some key => simp [Prod.ext_iff, and_assoc, eq_comm]

lemma mem_interestReadings {encoded : Bytes} {reading : InterestReading} :
    reading ∈ interestReadings encoded ↔ ∃ body ∈ Scanner.bodies isSentinel (decodeDat encoded),
      interestReading body = some reading := by
  rw [interestReadings, List.mem_filterMap]

/-- The search for a code lists the records that have it. -/
lemma mem_scanInterestCode_iff_reading {encoded : Bytes} {target : Str} {m : InterestSearchMatch} :
    m ∈ scanInterestCode encoded target ↔ ∃ reading ∈ interestReadings encoded,
      target ∈ reading.codes ∧ reading.callsign = m.callsign ∧ reading.vintage = m.vintage := by
  rw [scanInterestCode, InterestSearchScan.finish, StableSort.mem_destutter_ne,
    StableSort.mem_sortBy, InterestSearchScan.found_scanDat, List.mem_filterMap]
  simp only [mem_interestReadings, listed_eq_some_iff]
  constructor
  · rintro ⟨body, hbody, hkey, hcode⟩
    exact ⟨⟨⟨m.callsign, m.vintage⟩, scannedCodes body⟩,
      ⟨body, hbody, interestReading_eq_some_iff.mpr ⟨hkey, rfl⟩⟩, hcode, rfl, rfl⟩
  · rintro ⟨reading, ⟨body, hbody, hreading⟩, hcode, hcall, hvintage⟩
    obtain ⟨hkey, hcodes⟩ := interestReading_eq_some_iff.mp hreading
    exact ⟨body, hbody, hcall ▸ hvintage ▸ hkey, hcodes ▸ hcode⟩

lemma isCode_of_mem_interestReadings {encoded : Bytes} {reading : InterestReading}
    (h : reading ∈ interestReadings encoded) {code : Str} (hcode : code ∈ reading.codes) :
    code.length = 4 ∧ code.all isAsciiDigit := by
  obtain ⟨body, -, hreading⟩ := mem_interestReadings.mp h
  rw [(interestReading_eq_some_iff.mp hreading).2] at hcode
  exact InterestTable.isCode_of_mem_codes hcode

/-- By callsign, then by vintage; a match without a year comes before those with one. -/
def InterestSearchMatch.Before (a b : InterestSearchMatch) : Prop :=
  a.callsign < b.callsign ∨
    a.callsign = b.callsign ∧ ∃ year ∈ b.vintage, ∀ year' ∈ a.vintage, year' < year

instance : Std.TransCmp matchOrder :=
  inferInstanceAs (Std.TransCmp (compareLex (compareOn InterestSearchMatch.callsign)
    (compareOn InterestSearchMatch.vintage)))

instance : Std.LawfulEqCmp matchOrder where
  eq_of_compare {a b} h := by
    obtain ⟨hcall, hvintage⟩ := Ordering.then_eq_eq.mp h
    obtain ⟨call, vintage⟩ := a
    rw [InterestSearchMatch.mk.injEq]
    exact ⟨Std.LawfulEqCmp.eq_of_compare hcall, Std.LawfulEqCmp.eq_of_compare hvintage⟩

lemma before_of_matchOrder {a b : InterestSearchMatch} (h : matchOrder a b = .lt) :
    a.Before b := by
  rcases Ordering.then_eq_lt.mp h with hcall | ⟨hcall, hvintage⟩
  · exact .inl (ByteOrder.compare_eq_lt_iff.mp hcall)
  · refine .inr ⟨Std.LawfulEqCmp.eq_of_compare hcall, ?_⟩
    obtain ⟨call, vintage⟩ := a
    obtain ⟨call', vintage'⟩ := b
    cases vintage' with
    | none => cases vintage <;> cases hvintage
    | some year =>
      refine ⟨year, rfl, fun year' hyear => ?_⟩
      obtain rfl := Option.mem_def.mp hyear
      exact compare_lt_iff_lt.mp hvintage

section Agreement

variable {shard : V2Shard} {code : Str} {search : InterestSearch}

/-- What a search that is accepted lists. -/
lemma found_of_searchInterest (h : CallBook.searchInterest ⟨some shard⟩ code = .ok search) :
    ∃ target, search.found = scanInterestCode shard.datMmap target := by
  rw [CallBook.searchInterest] at h
  cases hcode : normalizeInterestCode code with
  | error e =>
    rw [hcode] at h
    cases h
  | ok target =>
    rw [hcode] at h
    cases h
    exact ⟨target, rfl⟩

/-- A record is found under each of its codes. -/
lemma exists_searchInterest {reading : InterestReading}
    (h : reading ∈ interestReadings shard.datMmap) (hcode : code ∈ reading.codes) :
    (code.length = 4 ∧ code.all isAsciiDigit) ∧
      ∃ search, CallBook.searchInterest ⟨some shard⟩ code = .ok search ∧
        ⟨reading.callsign, reading.vintage⟩ ∈ search.found := by
  obtain ⟨hlen, hdigits⟩ := isCode_of_mem_interestReadings h hcode
  refine ⟨⟨hlen, hdigits⟩,
    ⟨code, shard.interests.bind (·.lookup code), scanInterestCode shard.datMmap code⟩, ?_, ?_⟩
  · rw [CallBook.searchInterest, normalizeInterestCode_eq_ok hlen (List.all_eq_true.mp hdigits)]
    rfl
  · rw [mem_scanInterestCode_iff_reading]
    exact ⟨reading, h, hcode, rfl, rfl⟩

/-- What a search finds is a record with codes. -/
lemma exists_reading_of_mem_found (h : CallBook.searchInterest ⟨some shard⟩ code = .ok search)
    {m : InterestSearchMatch} (hm : m ∈ search.found) :
    ∃ reading ∈ interestReadings shard.datMmap, reading.codes ≠ [] ∧
      reading.callsign = m.callsign ∧ reading.vintage = m.vintage := by
  obtain ⟨target, hfound⟩ := found_of_searchInterest h
  rw [hfound, mem_scanInterestCode_iff_reading] at hm
  obtain ⟨reading, hreading, hcode, hcall, hvintage⟩ := hm
  exact ⟨reading, hreading, List.ne_nil_of_mem hcode, hcall, hvintage⟩

/-- The scan collects the callsigns that some search finds as current. -/
lemma mem_currentCalls_scanDat {call : Str} :
    call ∈ ((InterestScan.new shard.interests).scanDat shard.datMmap).currentCalls ↔
      ∃ code search, (code.length = 4 ∧ code.all isAsciiDigit) ∧
        CallBook.searchInterest ⟨some shard⟩ code = .ok search ∧ ⟨call, none⟩ ∈ search.found := by
  rw [InterestScan.tallies_scanDat, InterestTallies.mem_currentCalls_foldl]
  constructor
  · rintro (h | ⟨⟨⟨call, vintage⟩, codes⟩, hreading, ⟨hcodes, hvintage⟩, rfl⟩)
    · exact absurd h (Finset.notMem_empty _)
    · obtain ⟨code, hcode⟩ := List.exists_mem_of_ne_nil _ hcodes
      obtain ⟨hfour, search, hsearch, hmem⟩ := exists_searchInterest hreading hcode
      obtain rfl : vintage = none := Option.isNone_iff_eq_none.mp hvintage
      exact ⟨code, search, hfour, hsearch, hmem⟩
  · rintro ⟨code, search, -, hsearch, hmem⟩
    obtain ⟨reading, hreading, hcodes, hcall, hvintage⟩ :=
      exists_reading_of_mem_found hsearch hmem
    exact .inr ⟨reading, hreading, ⟨hcodes, Option.isNone_iff_eq_none.mpr hvintage⟩, hcall⟩

/-- The scan counts no archive record exactly when no search finds one. -/
lemma archiveSnapshots_scanDat_eq_zero_iff :
    ((InterestScan.new shard.interests).scanDat shard.datMmap).archiveSnapshots = 0 ↔
      ∀ code search, CallBook.searchInterest ⟨some shard⟩ code = .ok search →
        ∀ m ∈ search.found, m.vintage = none := by
  rw [InterestScan.tallies_scanDat, InterestTallies.archiveSnapshots_foldl,
    show InterestTallies.zero.archiveSnapshots = 0 from rfl, Nat.zero_add,
    List.length_eq_zero_iff, List.filter_eq_nil_iff]
  constructor
  · intro h code search hsearch m hm
    obtain ⟨reading, hreading, hcodes, -, hvintage⟩ := exists_reading_of_mem_found hsearch hm
    have hnone := h reading hreading
    rw [decide_eq_true_eq, hvintage] at hnone
    by_contra hyear
    exact hnone ⟨hcodes, by rwa [Option.isNone_iff_eq_none]⟩
  · intro h reading hreading hboth
    obtain ⟨hcodes, hyear⟩ := of_decide_eq_true hboth
    obtain ⟨code, hcode⟩ := List.exists_mem_of_ne_nil _ hcodes
    obtain ⟨-, search, hsearch, hmem⟩ := exists_searchInterest hreading hcode
    exact hyear (Option.isNone_iff_eq_none.mpr (h code search hsearch _ hmem))

/-- A search lists its matches in order, each once. -/
lemma pairwise_before_of_searchInterest
    (h : CallBook.searchInterest ⟨some shard⟩ code = .ok search) :
    search.found.Pairwise InterestSearchMatch.Before := by
  obtain ⟨target, hfound⟩ := found_of_searchInterest h
  rw [hfound]
  exact (StableSort.pairwise_lt_destutter (StableSort.sorted_sortBy matchOrder _)).imp
    before_of_matchOrder

end Agreement

/-- Who has an interest according to the statistics has one according to the search, archive records
included, and a search lists its matches in order, each once. -/
theorem interestStatistics_agrees_searchInterest (shard : V2Shard) :
    let db : CallBook := ⟨some shard⟩
    (∃ calls : Finset Str, db.interestStatistics.currentCallsignsWithInterests = calls.card ∧
      ∀ call, call ∈ calls ↔ ∃ code search, (code.length = 4 ∧ code.all isAsciiDigit) ∧
        db.searchInterest code = .ok search ∧ ⟨call, none⟩ ∈ search.found) ∧
    (db.interestStatistics.archiveSnapshotsWithInterests = 0 ↔
      ∀ code search, db.searchInterest code = .ok search → ∀ m ∈ search.found, m.vintage = none) ∧
    ∀ code search, db.searchInterest code = .ok search →
      search.found.Pairwise InterestSearchMatch.Before :=
  ⟨⟨_, rfl, fun _ => mem_currentCalls_scanDat⟩, archiveSnapshots_scanDat_eq_zero_iff,
    fun _ _ h => pairwise_before_of_searchInterest h⟩

end Callbook
