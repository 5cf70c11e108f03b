import Callbook.Hci.Index
import Callbook.Library.Tally

/-!
# Posting statistics

Postings under callsign-looking keys are counted as current or, by the year of their key, as
archived. A key has a year when it ends in a colon and exactly four digits; a key with a colon that
ends otherwise has none and is counted as current.
-/

namespace Callbook

open Text

/-- Archive-posting counts for one publication year. -/
structure ArchivePostingYearStatistics where
  year : ℕ
  postings : ℕ
  uniqueDatOffsets : ℕ
  deriving DecidableEq, Repr

/-- Callsign-looking posting counts derived from HCI search keys. -/
structure CallsignPostingStatistics where
  currentPostings : ℕ
  currentUniqueDatOffsets : ℕ
  archivePostings : ℕ
  archiveUniqueDatOffsets : ℕ
  archiveYears : List ArchivePostingYearStatistics
  deriving DecidableEq, Repr

namespace Hci

/-! ### Counting -/

def trimAsciiWhitespace (bytes : Bytes) : Bytes := trimBy isAsciiWhitespace bytes

/-- `looks_like_callsign_header`. -/
def looksLikeCallsignHeader (key : Bytes) : Bool :=
  let call := trimAsciiWhitespace (beforeSep 0x3a key)
  call != [] && call.length ≤ 12 && call.any (fun b => isAsciiUppercase b || isAsciiLowercase b) &&
    call.any isAsciiDigit && call.all fun b => isAsciiUppercase b || isAsciiDigit b || b == 0x2f

/-- Postings and the offsets they name. -/
structure YearAccumulator where
  postings : ℕ
  offsets : Finset ℕ
  deriving DecidableEq

namespace YearAccumulator

def zero : YearAccumulator := ⟨0, ∅⟩

def push (acc : YearAccumulator) (posting : HciPosting) : YearAccumulator :=
  ⟨acc.postings + 1, insert posting.datOffset acc.offsets⟩

end YearAccumulator

/-- The state of `callsign_posting_statistics`. -/
structure PostingScan where
  current : YearAccumulator
  archiveYears : Std.ExtTreeMap ℕ YearAccumulator

/-- The postings of a record with a callsign-looking key. -/
def PostingScan.record (scan : PostingScan) (header : HciHeaderKey) (postings : List HciPosting) :
    PostingScan :=
  match header.year with
  | some year =>
    if year < 1900 ∨ 2099 < year then scan
    else
      { scan with
        archiveYears := Tally.update .zero year (postings.foldl .push ·) scan.archiveYears }
  | none => { scan with current := postings.foldl .push scan.current }

/-- The union of sets, added one by one. -/
def unionAll (sets : List (Finset ℕ)) : Finset ℕ := sets.foldl (· ∪ ·) ∅

/-- The counts of a scan. -/
def PostingScan.finish (scan : PostingScan) : CallsignPostingStatistics where
  currentPostings := scan.current.postings
  currentUniqueDatOffsets := scan.current.offsets.card
  archivePostings := (scan.archiveYears.toList.map (·.2.postings)).sum
  archiveUniqueDatOffsets :=
    (unionAll (scan.archiveYears.toList.map (·.2.offsets))).card
  archiveYears := scan.archiveYears.toList.map fun acc =>
    ⟨acc.1, acc.2.postings, acc.2.offsets.card⟩

end Hci

namespace HciFile

open Hci

variable (file : HciFile)

/-- The header and the postings of record `index`, when its key looks like a callsign. -/
def callsignRecord (index : ℕ) : Option (HciHeaderKey × List HciPosting) := do
  let raw ← file.rawRecord index
  let header ← decodeHeaderKey raw.datOffset raw.rawBytes
  if looksLikeCallsignHeader header.key then
    some (header, visitPostings (raw.rawBytes.drop header.headerLen))
  else none

/-- One round of `callsign_posting_statistics`. -/
def scanRecord (scan : PostingScan) (index : ℕ) : PostingScan :=
  match file.callsignRecord index with
  | none => scan
  | some (header, postings) => scan.record header postings

/-- `HciFile::callsign_posting_statistics`. -/
def callsignPostingStatistics : CallsignPostingStatistics :=
  ((List.range file.len).foldl file.scanRecord ⟨.zero, ∅⟩).finish

/-- `HciFile::visit_callsign_postings`: the keys and postings in the order they are visited. -/
def visitCallsignPostings : List (Bytes × HciPosting) :=
  (List.range file.len).flatMap fun index =>
    match file.callsignRecord index with
    | none => []
    | some (header, postings) => postings.map fun posting => (header.key, posting)

end HciFile

/-! ### The year of a key -/

namespace Hci

/-- The year of a key that ends in a colon and exactly four digits. -/
def keyYear (key : Bytes) : Option ℕ :=
  let base := key.take (key.length - 4)
  let year := key.drop (key.length - 4)
  if base.getLast? = some 0x3a ∧ year.length = 4 ∧ ∀ b ∈ year, isAsciiDigit b then
    some (decimalValue year)
  else none

lemma keyYear_eq_some_iff {key : Bytes} {n : ℕ} : keyYear key = some n ↔
    ∃ base year : Bytes, key = base ++ 0x3a :: year ∧ year.length = 4 ∧
      (∀ b ∈ year, isAsciiDigit b) ∧ n = decimalValue year := by
  simp only [keyYear, Option.ite_none_right_eq_some, Option.some.injEq]
  constructor
  · rintro ⟨⟨hcolon, hlen, hdigits⟩, rfl⟩
    obtain ⟨base, hbase⟩ := List.getLast?_eq_some_iff.mp hcolon
    refine ⟨base, _, ?_, hlen, hdigits, rfl⟩
    conv_lhs => rw [← List.take_append_drop (key.length - 4) key, hbase]
    rw [List.append_assoc, List.singleton_append]
  · rintro ⟨base, year, rfl, hlen, hdigits, rfl⟩
    have hcut : (base ++ 0x3a :: year).length - 4 = (base ++ [0x3a]).length := by
      simp only [List.length_append, List.length_cons, List.length_nil]
      omega
    have hsplit : base ++ 0x3a :: year = base ++ [0x3a] ++ year := by simp
    rw [hcut, hsplit, List.take_left, List.drop_left]
    exact ⟨⟨by simp, hlen, hdigits⟩, rfl⟩

lemma keyYear_isNone_of_notMem {key : Bytes} (h : 0x3a ∉ key) : (keyYear key).isNone := by
  rw [Option.isNone_iff_eq_none, Option.eq_none_iff_forall_ne_some]
  intro n hn
  obtain ⟨base, year, rfl, -⟩ := keyYear_eq_some_iff.mp hn
  simp at h

/-- A key has a year exactly when it ends in a colon and four digits. -/
lemma exists_year_iff {key : Bytes} : (∃ base year : Bytes, key = base ++ 0x3a :: year ∧
    year.length = 4 ∧ ∀ b ∈ year, isAsciiDigit b) ↔ ¬ (keyYear key).isNone := by
  rw [Bool.not_eq_true, Option.isNone_eq_false_iff, Option.isSome_iff_exists]
  simp only [keyYear_eq_some_iff]
  constructor
  · rintro ⟨base, year, hkey, hlen, hdigits⟩
    exact ⟨decimalValue year, base, year, hkey, hlen, hdigits, rfl⟩
  · rintro ⟨n, base, year, hkey, hlen, hdigits, -⟩
    exact ⟨base, year, hkey, hlen, hdigits⟩

/-- What the year automaton knows of a key: the digits behind the last colon, or that something
else stands there. -/
def HeaderScan.Read (scan : HeaderScan) (key : Bytes) : Prop :=
  (scan.colonAt.isSome → ∃ base digits : Bytes, key = base ++ 0x3a :: digits ∧
    digits.length = scan.yearDigits ∧ (∀ b ∈ digits, isAsciiDigit b) ∧
      scan.year = decimalValue digits) ∧
  (scan.colonAt = none → scan.yearDigits = 0)

lemma start_read : HeaderScan.start.Read [] := ⟨by simp [HeaderScan.start], fun _ => rfl⟩

lemma HeaderScan.Read.push {scan : HeaderScan} {key : Bytes} (h : scan.Read key) (zeroBased : ℕ)
    (b : UInt8) : (scan.push zeroBased b).Read (key ++ [b]) := by
  simp only [HeaderScan.push]
  split_ifs with hcolon hsome hstop
  · refine ⟨fun _ => ⟨key, [], by simp [hcolon], rfl, by simp, rfl⟩, by simp⟩
  · exact ⟨by simp, by simp⟩
  · obtain ⟨base, digits, rfl, hlen, hdigits, hyear⟩ := h.1 hsome
    rw [not_or, not_not] at hstop
    refine ⟨fun _ => ⟨base, digits ++ [b], by simp, by simp [hlen], ?_, ?_⟩, ?_⟩
    · intro c hc
      rcases List.mem_append.mp hc with hc | hc
      · exact hdigits c hc
      · rw [List.mem_singleton.mp hc]
        exact hstop.1
    · rw [decimalValue_concat, ← hyear, digitValue]
    · intro hnone
      simp [show scan.colonAt = none from hnone] at hsome
  · exact ⟨fun hsome' => absurd hsome' hsome, h.2⟩

lemma HeaderScan.Read.pushAll {scan : HeaderScan} {key : Bytes} (h : scan.Read key) (zeroBased : ℕ)
    (rest : Bytes) : (scan.pushAll zeroBased rest).Read (key ++ rest) := by
  induction rest generalizing scan key zeroBased with
  | nil => simpa [HeaderScan.pushAll] using h
  | cons b rest ih =>
    rw [HeaderScan.pushAll, ← List.singleton_append, ← List.append_assoc]
    exact ih (h.push zeroBased b) _

/-- The automaton finds the year of a key. -/
lemma archiveYear_pushAll (key : Bytes) :
    (HeaderScan.start.pushAll 0 key).archiveYear = keyYear key := by
  ext n
  rw [keyYear_eq_some_iff]
  constructor
  · intro hyear
    have hread : (HeaderScan.start.pushAll 0 key).Read key :=
      start_read.pushAll 0 key
    simp only [HeaderScan.archiveYear, Option.ite_none_right_eq_some, Option.some.injEq] at hyear
    obtain ⟨hfour, rfl⟩ := hyear
    cases hcolon : (HeaderScan.start.pushAll 0 key).colonAt with
    | none =>
      rw [hread.2 hcolon] at hfour
      cases hfour
    | some i =>
      obtain ⟨base, digits, hkey, hlen, hdigits, hyear⟩ := hread.1 (by rw [hcolon]; rfl)
      exact ⟨base, digits, hkey, hlen.trans hfour, hdigits, hyear⟩
  · rintro ⟨base, year, rfl, hlen, hdigits, rfl⟩
    exact archiveYear_of_suffix base hlen hdigits

lemma decodeHeaderLoop_eq_some {datOffset zeroBased : ℕ} {rest : Bytes} {scan : HeaderScan}
    {header : HciHeaderKey} (h : decodeHeaderLoop datOffset zeroBased rest scan = some header) :
    ∃ key, header.key = scan.key ++ key ∧
      header.year = (scan.pushAll zeroBased key).archiveYear := by
  induction rest generalizing zeroBased scan with
  | nil => simp [decodeHeaderLoop] at h
  | cons encoded rest ih =>
    simp only [decodeHeaderLoop] at h
    split_ifs at h with hend hzero hchar
    · cases h
      exact ⟨[], by simp, rfl⟩
    · obtain ⟨key, hkey, hyear⟩ := ih h
      refine ⟨decodeHciByte datOffset zeroBased encoded :: key, ?_, hyear⟩
      rw [hkey, HeaderScan.push_key, List.append_assoc, List.singleton_append]

lemma year_of_decodeHeaderKey {datOffset : ℕ} {rawBytes : Bytes} {header : HciHeaderKey}
    (h : decodeHeaderKey datOffset rawBytes = some header) : header.year = keyYear header.key := by
  obtain ⟨key, hkey, hyear⟩ := decodeHeaderLoop_eq_some h
  rw [hyear, archiveYear_pushAll, hkey]
  rfl

/-- The year of an archive key, between 1900 and 2099. -/
def archiveKeyYear (key : Bytes) : Option ℕ :=
  (keyYear key).filter fun year => 1900 ≤ year ∧ year ≤ 2099

end Hci

/-! ### What is counted -/

/-- The DAT offsets of visited postings. -/
def offsetsOf (visited : List (Bytes × HciPosting)) : Finset ℕ :=
  (visited.map (·.2.datOffset)).toFinset

/-- The statistics are those of the visited postings: the ones under keys without a colon are
current, the ones under archive keys are archived, year by year. -/
structure CallsignPostingStatistics.Counts (stats : CallsignPostingStatistics)
    (visited : List (Bytes × HciPosting)) : Prop where
  current : stats.currentPostings = (visited.filter fun v => 0x3a ∉ v.1).length
  currentUnique :
    stats.currentUniqueDatOffsets = (offsetsOf (visited.filter fun v => 0x3a ∉ v.1)).card
  archive :
    stats.archivePostings = (visited.filter fun v => (Hci.archiveKeyYear v.1).isSome).length
  archiveSum : stats.archivePostings = (stats.archiveYears.map (·.postings)).sum
  archiveUnique : stats.archiveUniqueDatOffsets =
    (offsetsOf (visited.filter fun v => (Hci.archiveKeyYear v.1).isSome)).card
  increasing : (stats.archiveYears.map (·.year)).Pairwise (· < ·)
  years : ∀ y ∈ stats.archiveYears,
    y.postings = (visited.filter fun v => Hci.archiveKeyYear v.1 = some y.year).length ∧
    y.uniqueDatOffsets =
      (offsetsOf (visited.filter fun v => Hci.archiveKeyYear v.1 = some y.year)).card

namespace Hci

lemma foldl_push (postings : List HciPosting) (acc : YearAccumulator) :
    postings.foldl .push acc = ⟨acc.postings + postings.length,
      acc.offsets ∪ (postings.map HciPosting.datOffset).toFinset⟩ := by
  induction postings generalizing acc with
  | nil => simp
  | cons posting postings ih =>
    rw [List.foldl_cons, ih, YearAccumulator.push, List.length_cons, List.map_cons,
      List.toFinset_cons, Finset.insert_union, Finset.union_insert, Nat.add_right_comm,
      Nat.add_assoc]

lemma mem_unionAll {sets : List (Finset ℕ)} {n : ℕ} :
    n ∈ unionAll sets ↔ ∃ offsets ∈ sets, n ∈ offsets := by
  have hfold : ∀ seen : Finset ℕ,
      n ∈ sets.foldl (· ∪ ·) seen ↔ n ∈ seen ∨ ∃ offsets ∈ sets, n ∈ offsets := by
    induction sets with
    | nil => simp
    | cons offsets sets ih => simp [ih, or_assoc]
  simp [unionAll, hfold]

/-- What a scan has counted of records whose year is the one of their key. -/
lemma foldl_record {records : List (HciHeaderKey × List HciPosting)}
    (h : ∀ r ∈ records, r.1.year = keyYear r.1.key) (scan : PostingScan) :
    records.foldl (fun scan r => scan.record r.1 r.2) scan =
      ⟨((records.filter fun r => (keyYear r.1.key).isNone).flatMap Prod.snd).foldl .push
          scan.current,
        Tally.tally .zero (fun r => (archiveKeyYear r.1.key).getD 0)
          (fun acc r => r.2.foldl .push acc) scan.archiveYears
          (records.filter fun r => (archiveKeyYear r.1.key).isSome)⟩ := by
  induction records generalizing scan with
  | nil => rfl
  | cons r records ih =>
    rw [List.forall_mem_cons] at h
    rw [List.foldl_cons, ih h.2, PostingScan.record, h.1]
    cases hyear : keyYear r.1.key with
    | none => simp [hyear, archiveKeyYear]
    | some year =>
      by_cases hrange : 1900 ≤ year ∧ year ≤ 2099
      · have hout : ¬ (year < 1900 ∨ 2099 < year) := by omega
        simp [hyear, archiveKeyYear, hrange, hout, Option.filter_some, Tally.tally]
      · have hout : year < 1900 ∨ 2099 < year := by omega
        simp [hyear, archiveKeyYear, hrange, hout]

end Hci

namespace HciFile

open Hci

variable (file : HciFile)

/-- The records with a callsign-looking key. -/
def callsignRecords : List (HciHeaderKey × List HciPosting) :=
  (List.range file.len).filterMap file.callsignRecord

/-- The postings under the keys of a class. -/
def postingsUnder (p : Bytes → Bool) : List HciPosting :=
  (file.visitCallsignPostings.filter fun v => p v.1).map Prod.snd

lemma visitCallsignPostings_eq : file.visitCallsignPostings =
    file.callsignRecords.flatMap fun r => r.2.map fun posting => (r.1.key, posting) := by
  rw [callsignRecords, List.filterMap_eq_flatMap_toList, List.flatMap_assoc, visitCallsignPostings]
  refine List.flatMap_congr fun index _ => ?_
  cases file.callsignRecord index <;> simp

lemma postingsUnder_eq (p : Bytes → Bool) :
    file.postingsUnder p = (file.callsignRecords.filter fun r => p r.1.key).flatMap Prod.snd := by
  rw [postingsUnder, visitCallsignPostings_eq]
  induction file.callsignRecords with
  | nil => rfl
  | cons r records ih =>
    rw [List.flatMap_cons, List.filter_append, List.map_append, ih]
    by_cases hkey : p r.1.key <;> simp [hkey, List.filter_map, Function.comp_def]

lemma year_of_mem_callsignRecords {r : HciHeaderKey × List HciPosting}
    (h : r ∈ file.callsignRecords) : r.1.year = keyYear r.1.key := by
  obtain ⟨index, -, hrecord⟩ := List.mem_filterMap.mp h
  simp only [callsignRecord, Option.bind_eq_bind, Option.bind_eq_some_iff,
    Option.ite_none_right_eq_some, Option.some.injEq] at hrecord
  obtain ⟨raw, -, header, hheader, -, rfl⟩ := hrecord
  exact year_of_decodeHeaderKey hheader

/-- The records under archive keys, entered by their years. -/
def yearTally : Std.ExtTreeMap ℕ YearAccumulator :=
  Tally.tally .zero (fun r => (archiveKeyYear r.1.key).getD 0)
    (fun acc r => r.2.foldl .push acc) ∅
    (file.callsignRecords.filter fun r => (archiveKeyYear r.1.key).isSome)

/-- The state at the end of the scan. -/
lemma foldl_scanRecord : (List.range file.len).foldl file.scanRecord ⟨.zero, ∅⟩ =
    ⟨(file.postingsUnder fun key => (keyYear key).isNone).foldl .push .zero, file.yearTally⟩ := by
  have hfilter : (List.range file.len).foldl file.scanRecord ⟨.zero, ∅⟩ =
      file.callsignRecords.foldl (fun scan r => scan.record r.1 r.2) ⟨.zero, ∅⟩ := by
    rw [callsignRecords, List.foldl_filterMap]
    refine List.foldl_ext _ _ _ fun scan index _ => ?_
    rw [scanRecord]
    cases file.callsignRecord index <;> rfl
  rw [hfilter, foldl_record fun r hr => file.year_of_mem_callsignRecords hr, postingsUnder_eq]
  rfl

/-! ### The archive years -/

lemma filter_year (year : ℕ) :
    ((file.callsignRecords.filter fun r => (archiveKeyYear r.1.key).isSome).filter
      fun r => (archiveKeyYear r.1.key).getD 0 = year) =
      file.callsignRecords.filter fun r => archiveKeyYear r.1.key = some year := by
  rw [List.filter_filter]
  refine List.filter_congr fun r _ => ?_
  cases archiveKeyYear r.1.key <;> simp

/-- Each year holds the postings under its keys. -/
lemma toList_yearTally : file.yearTally.toList = file.yearTally.keys.map fun year =>
    (year, (file.postingsUnder fun key => archiveKeyYear key = some year).foldl .push .zero) := by
  rw [yearTally, Tally.toList_tally]
  refine List.map_congr_left fun year _ => ?_
  rw [filter_year, postingsUnder_eq, List.foldl_flatMap]

lemma mem_keys_yearTally {r : HciHeaderKey × List HciPosting} (h : r ∈ file.callsignRecords)
    {year : ℕ} (hyear : archiveKeyYear r.1.key = some year) : year ∈ file.yearTally.keys := by
  rw [yearTally, Tally.mem_keys_tally]
  exact ⟨r, List.mem_filter.mpr ⟨h, by simp [hyear]⟩, by simp [hyear]⟩

/-- The years together hold the postings under archive keys. -/
lemma sum_yearTally : (file.yearTally.keys.map fun year =>
    (file.postingsUnder fun key => archiveKeyYear key = some year).length).sum =
      (file.postingsUnder fun key => (archiveKeyYear key).isSome).length := by
  have hsum := Tally.sum_map_filter (fun r : HciHeaderKey × List HciPosting =>
      (archiveKeyYear r.1.key).getD 0) (Std.ExtTreeMap.nodup_keys (t := file.yearTally))
    (l := file.callsignRecords.filter fun r => (archiveKeyYear r.1.key).isSome) (by
      intro r hr
      obtain ⟨hmem, hsome⟩ := List.mem_filter.mp hr
      obtain ⟨year, hyear⟩ := Option.isSome_iff_exists.mp hsome
      simpa [hyear] using file.mem_keys_yearTally hmem hyear) fun r => r.2.length
  simp only [filter_year] at hsum
  simp only [postingsUnder_eq, List.length_flatMap]
  exact hsum

lemma mem_offsets_postingsUnder {p : Bytes → Bool} {n : ℕ} :
    n ∈ ((file.postingsUnder p).map HciPosting.datOffset).toFinset ↔
      ∃ r ∈ file.callsignRecords, p r.1.key ∧ ∃ posting ∈ r.2, posting.datOffset = n := by
  simp only [postingsUnder_eq, List.mem_toFinset, List.mem_map, List.mem_flatMap, List.mem_filter]
  constructor
  · rintro ⟨posting, ⟨r, ⟨hr, hp⟩, hposting⟩, hn⟩
    exact ⟨r, hr, hp, posting, hposting, hn⟩
  · rintro ⟨r, hr, hp, posting, hposting, hn⟩
    exact ⟨posting, ⟨r, ⟨hr, hp⟩, hposting⟩, hn⟩

/-- The offsets of all years are those under archive keys. -/
lemma unionAll_yearTally : unionAll (file.yearTally.keys.map fun year =>
    ((file.postingsUnder fun key => archiveKeyYear key = some year).map
      HciPosting.datOffset).toFinset) =
    ((file.postingsUnder fun key => (archiveKeyYear key).isSome).map
      HciPosting.datOffset).toFinset := by
  ext n
  simp only [mem_unionAll, List.mem_map, exists_exists_and_eq_and, mem_offsets_postingsUnder,
    decide_eq_true_eq]
  constructor
  · rintro ⟨year, -, r, hr, hyear, hposting⟩
    exact ⟨r, hr, by simp [hyear], hposting⟩
  · rintro ⟨r, hr, hsome, hposting⟩
    obtain ⟨year, hyear⟩ := Option.isSome_iff_exists.mp hsome
    exact ⟨year, file.mem_keys_yearTally hr hyear, r, hr, hyear, hposting⟩

lemma length_filter_visited (p : Bytes → Bool) :
    (file.visitCallsignPostings.filter fun v => p v.1).length = (file.postingsUnder p).length := by
  rw [postingsUnder, List.length_map]

lemma offsetsOf_filter_visited (p : Bytes → Bool) :
    offsetsOf (file.visitCallsignPostings.filter fun v => p v.1) =
      ((file.postingsUnder p).map HciPosting.datOffset).toFinset := by
  rw [postingsUnder, offsetsOf, List.map_map]
  rfl

/-! ### The statistics -/

/-- The statistics, read off the postings of each class of keys. -/
lemma callsignPostingStatistics_eq :
    let current := file.postingsUnder fun key => (keyYear key).isNone
    let archive := file.postingsUnder fun key => (archiveKeyYear key).isSome
    let ofYear := fun year => file.postingsUnder fun key => archiveKeyYear key = some year
    file.callsignPostingStatistics =
      ⟨current.length, (current.map HciPosting.datOffset).toFinset.card, archive.length,
        (archive.map HciPosting.datOffset).toFinset.card,
        file.yearTally.keys.map fun year => ⟨year, (ofYear year).length,
          ((ofYear year).map HciPosting.datOffset).toFinset.card⟩⟩ := by
  intro current archive ofYear
  rw [callsignPostingStatistics, foldl_scanRecord]
  simp only [PostingScan.finish, toList_yearTally, List.map_map, Function.comp_def, foldl_push,
    YearAccumulator.zero, Nat.zero_add, Finset.empty_union, sum_yearTally, unionAll_yearTally]
  rfl

/-- Where every key with a colon has a year, the keys without a year are those without a colon. -/
lemma filter_noColon (h : ∀ v ∈ file.visitCallsignPostings, 0x3a ∈ v.1 → ¬ (keyYear v.1).isNone) :
    (file.visitCallsignPostings.filter fun v => 0x3a ∉ v.1) =
      file.visitCallsignPostings.filter fun v => (keyYear v.1).isNone := by
  refine List.filter_congr fun v hv => ?_
  by_cases hcolon : 0x3a ∈ v.1
  · rw [(Bool.not_eq_true _).mp (h v hv hcolon)]
    simp [hcolon]
  · rw [keyYear_isNone_of_notMem hcolon]
    simp [hcolon]

/-- The postings under keys without a year are no more than those under keys without a colon
exactly when every key with a colon has a year. -/
lemma length_filter_noColon_eq_iff :
    (file.visitCallsignPostings.filter fun v => 0x3a ∉ v.1).length =
        (file.visitCallsignPostings.filter fun v => (keyYear v.1).isNone).length ↔
      ∀ v ∈ file.visitCallsignPostings, 0x3a ∈ v.1 → ¬ (keyYear v.1).isNone := by
  constructor
  · intro hlen v hv hcolon hnone
    -- the keys without a colon have no year, so equal numbers mean that these are the same
    have hsub : (file.visitCallsignPostings.filter fun v => 0x3a ∉ v.1).Sublist
        (file.visitCallsignPostings.filter fun v => (keyYear v.1).isNone) :=
      List.monotone_filter_right _ fun v hv => keyYear_isNone_of_notMem (of_decide_eq_true hv)
    have hmem : v ∈ file.visitCallsignPostings.filter fun v => 0x3a ∉ v.1 := by
      rw [hsub.eq_of_length hlen]
      exact List.mem_filter.mpr ⟨hv, hnone⟩
    exact of_decide_eq_true (List.mem_filter.mp hmem).2 hcolon
  · intro h
    rw [file.filter_noColon h]

/-- The statistics count the visited postings exactly when every visited key with a colon ends in
a colon and four digits: a key with another suffix is counted as current. -/
theorem callsignPostingStatistics_counts_iff :
    file.callsignPostingStatistics.Counts file.visitCallsignPostings ↔
      ∀ v ∈ file.visitCallsignPostings, 0x3a ∈ v.1 → ∃ base year : Bytes,
        v.1 = base ++ 0x3a :: year ∧ year.length = 4 ∧ ∀ b ∈ year, isAsciiDigit b := by
  simp only [exists_year_iff]
  constructor
  · intro h
    have hcurrent := h.current
    rw [callsignPostingStatistics_eq,
      ← file.length_filter_visited fun key => (keyYear key).isNone] at hcurrent
    exact file.length_filter_noColon_eq_iff.mp hcurrent.symm
  · intro h
    rw [callsignPostingStatistics_eq]
    refine ⟨?_, ?_, ?_, ?_, ?_, ?_, ?_⟩
    · rw [file.filter_noColon h]
      exact (file.length_filter_visited fun key => (keyYear key).isNone).symm
    · rw [file.filter_noColon h, file.offsetsOf_filter_visited fun key => (keyYear key).isNone]
    · exact (file.length_filter_visited fun key => (archiveKeyYear key).isSome).symm
    · rw [← sum_yearTally, List.map_map]
      rfl
    · rw [file.offsetsOf_filter_visited fun key => (archiveKeyYear key).isSome]
    · rw [List.map_map, Function.comp_def, List.map_id']
      exact Std.ExtTreeMap.ordered_keys.imp Nat.compare_eq_lt.mp
    · intro y hy
      obtain ⟨year, -, rfl⟩ := List.mem_map.mp hy
      rw [file.length_filter_visited fun key => archiveKeyYear key = some year,
        file.offsetsOf_filter_visited fun key => archiveKeyYear key = some year]
      exact ⟨rfl, rfl⟩

/-- One record, under a callsign with two digits behind a colon. -/
def twoDigitPair : HciFile where
  indexMmap := [0, 0, 0, 2]
  datMmap := [0, 0] ++ sampleRecord 2 (ascii "K1AB:15") [0, 0, 0, 7, 1]
  keyIndex := _
  publicationYears := _
  whole := by decide
  nonempty := by decide
  built := rfl

/-- The posting is counted as current, though its key has a colon. -/
theorem callsignPostingStatistics_twoDigitPair :
    ¬ twoDigitPair.callsignPostingStatistics.Counts twoDigitPair.visitCallsignPostings := by
  intro h
  have hcurrent := h.current
  revert hcurrent
  decide +kernel

end HciFile

end Callbook
