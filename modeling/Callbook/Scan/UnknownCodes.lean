import Callbook.Scan.Statistics

/-!
# Unknown interest codes

The statistics enter every occurrence of a code that the catalog does not know. The counts are those
of the records with the code exactly when no record has such a code twice.
-/

namespace Callbook

open Text

/-! ### Counting occurrences -/

namespace UnknownInterestAccumulator

variable {acc : UnknownInterestAccumulator}

lemma foldl_count (records : List InterestCodeExample) (acc : UnknownInterestAccumulator) :
    (records.foldl count acc).occurrences = acc.occurrences + records.length ∧
      (records.foldl count acc).currentOccurrences =
        acc.currentOccurrences + (records.filter (·.vintage.isNone)).length ∧
      (records.foldl count acc).archiveOccurrences =
        acc.archiveOccurrences + (records.filter (!·.vintage.isNone)).length := by
  have hall := Tally.count_foldl (m := occurrences) (f := count) (p := fun _ => True)
    (fun _ _ => rfl) records acc
  have hcurrent := Tally.count_foldl (m := currentOccurrences) (f := count)
    (p := fun record => record.vintage.isNone) (fun _ _ => rfl) records acc
  have harchive := Tally.count_foldl (m := archiveOccurrences) (f := count)
    (p := fun record => !record.vintage.isNone)
    (fun _ record => by cases hvintage : record.vintage <;> simp [count, hvintage]) records acc
  simp only [Bool.decide_eq_true] at hcurrent harchive
  exact ⟨by simpa using hall, hcurrent, harchive⟩

/-- The examples are at most three different ones of the records. -/
structure Sampled (acc : UnknownInterestAccumulator) (records : List InterestCodeExample) :
    Prop where
  length_le : acc.examples.length ≤ 3
  nodup : acc.examples.Nodup
  mem : ∀ record ∈ acc.examples, record ∈ records

lemma Sampled.count {records : List InterestCodeExample} (h : acc.Sampled records)
    (record : InterestCodeExample) : (acc.count record).Sampled (records ++ [record]) := by
  have hmem : ∀ r ∈ acc.examples, r ∈ records ++ [record] :=
    fun r hr => List.mem_append_left _ (h.mem r hr)
  by_cases hnew : acc.examples.length < 3 ∧ record ∉ acc.examples
  · have hexamples : (acc.count record).examples = acc.examples ++ [record] := if_pos hnew
    refine ⟨?_, ?_, ?_⟩ <;> rw [hexamples]
    · rw [List.length_append, List.length_singleton]
      exact hnew.1
    · exact List.nodup_append.mpr ⟨h.nodup, List.nodup_singleton _, by
        rintro r hr r' hr' rfl
        exact hnew.2 (List.mem_singleton.mp hr' ▸ hr)⟩
    · intro r hr
      rcases List.mem_append.mp hr with hr | hr
      · exact hmem r hr
      · exact List.mem_append_right _ hr
  · have hexamples : (acc.count record).examples = acc.examples := if_neg hnew
    exact ⟨hexamples ▸ h.length_le, hexamples ▸ h.nodup, hexamples ▸ hmem⟩

lemma sampled_foldl (records : List InterestCodeExample) :
    (records.foldl count zero).Sampled records := by
  induction records using List.reverseRecOn with
  | nil => exact ⟨Nat.zero_le _, List.nodup_nil, fun _ h => h⟩
  | append_singleton records record ih =>
    rw [List.foldl_append]
    exact ih.count record

end UnknownInterestAccumulator

/-! ### Occurrences of a code -/

section Occurrences

variable {table : Option InterestTable} {code : Str}
  (htable : ∀ t ∈ table, ∀ code d, t.lookup code = some d → d.code = code)

include htable

/-- A code of a record resolves exactly when the catalog has it. -/
lemma any_resolved_iff {codes : List Str} (hcode : code ∈ codes) :
    (resolvedInterests table codes).any (·.code = code) ↔ Resolves table code := by
  have hfound : ∀ {c d}, table.bind (·.lookup c) = some d → d.code = c ∧ Resolves table c := by
    intro c d h
    obtain ⟨t, ht, hd⟩ := Option.bind_eq_some_iff.mp h
    exact ⟨htable t ht c d hd, t, ht, by rw [hd]; rfl⟩
  rw [List.any_eq_true]
  simp only [resolvedInterests, List.mem_filterMap, Option.map_eq_some_iff, decide_eq_true_eq]
  constructor
  · rintro ⟨_, ⟨c, -, d, hd, rfl⟩, rfl⟩
    obtain ⟨hcode, hresolves⟩ := hfound hd
    exact hcode ▸ hresolves
  · rintro ⟨t, ht, hsome⟩
    obtain ⟨d, hd⟩ := Option.isSome_iff_exists.mp hsome
    have hbind : table.bind (·.lookup code) = some d := by
      rw [Option.mem_def.mp ht, Option.bind_some, hd]
    exact ⟨⟨d.code, d.category, d.label⟩, ⟨code, hcode, d, hbind, rfl⟩, (hfound hbind).1⟩

lemma mem_unresolved_iff {reading : InterestReading} {record : InterestCodeExample} :
    (code, record) ∈ InterestTallies.unresolved table reading ↔
      ¬ Resolves table code ∧ code ∈ reading.codes ∧ reading.toInterestCodeExample = record := by
  rw [InterestTallies.unresolved, List.mem_map]
  simp only [List.mem_filter, Prod.mk.injEq, Bool.not_eq_true']
  constructor
  · rintro ⟨c, ⟨hc, hany⟩, rfl, rfl⟩
    rw [← Bool.not_eq_true, any_resolved_iff htable hc] at hany
    exact ⟨hany, hc, rfl⟩
  · rintro ⟨hresolves, hcode, rfl⟩
    rw [← any_resolved_iff htable hcode, Bool.not_eq_true] at hresolves
    exact ⟨code, ⟨hcode, hresolves⟩, rfl, rfl⟩

/-- A record is entered under a code that does not resolve as often as it has the code. -/
lemma filter_unresolved (hcode : ¬ Resolves table code) (reading : InterestReading) :
    ((InterestTallies.unresolved table reading).filter (·.1 = code)).map Prod.snd =
      List.replicate (reading.codes.count code) reading.toInterestCodeExample := by
  rw [List.eq_replicate_iff]
  constructor
  · rw [InterestTallies.unresolved, List.length_map, List.filter_map, List.length_map,
      List.filter_filter, List.count_eq_length_filter]
    congr 1
    refine List.filter_congr fun c hc => ?_
    by_cases heq : c = code
    · subst heq
      have hany := (any_resolved_iff htable hc).not.mpr hcode
      simp [hany]
    · simp [heq]
  · intro record hrecord
    obtain ⟨⟨c, record⟩, hmem, rfl⟩ := List.mem_map.mp hrecord
    exact ((mem_unresolved_iff htable).mp (List.mem_filter.mp hmem).1).2.2.symm

/-- The records that are entered under a code that does not resolve. -/
def codeRecords (readings : List InterestReading) (code : Str) : List InterestCodeExample :=
  readings.flatMap fun reading =>
    List.replicate (reading.codes.count code) reading.toInterestCodeExample

omit htable in
lemma mem_codeRecords {readings : List InterestReading} {record : InterestCodeExample} :
    record ∈ codeRecords readings code ↔
      ∃ reading ∈ readings, code ∈ reading.codes ∧ reading.toInterestCodeExample = record := by
  simp only [codeRecords, List.mem_flatMap, List.mem_replicate, ne_eq, List.count_eq_zero, not_not,
    @eq_comm _ record]

omit htable in
/-- Records are entered as often as they have the code. -/
lemma length_filter_codeRecords (code : Str) (q : InterestCodeExample → Bool)
    (readings : List InterestReading) :
    ((codeRecords readings code).filter q).length =
      ((readings.filter fun reading => q reading.toInterestCodeExample).map
        (·.codes.count code)).sum := by
  induction readings with
  | nil => rfl
  | cons reading readings ih =>
    rw [codeRecords, List.flatMap_cons, List.filter_append, List.length_append, List.filter_cons,
      List.filter_replicate, ← codeRecords, ih]
    split_ifs with hq <;> simp

lemma filter_flatMap_unresolved (hcode : ¬ Resolves table code) (readings : List InterestReading) :
    ((readings.flatMap (InterestTallies.unresolved table)).filter (·.1 = code)).map Prod.snd =
      codeRecords readings code := by
  induction readings with
  | nil => rfl
  | cons reading readings ih =>
    rw [List.flatMap_cons, List.filter_append, List.map_append, ih, filter_unresolved htable hcode]
    rfl

end Occurrences

/-! ### The counts of a file -/

/-- The unknown codes are those of the records, each once and with the number of the records that
have it. -/
structure CountsRecords (table : Option InterestTable) (readings : List InterestReading)
    (items : List UnknownInterestCode) : Prop where
  increasing : (items.map UnknownInterestCode.code).Pairwise (· < ·)
  mem : ∀ code, code ∈ items.map UnknownInterestCode.code ↔
    ¬ Resolves table code ∧ ∃ reading ∈ readings, code ∈ reading.codes
  occurrences : ∀ item ∈ items, item.occurrences =
    (readings.filter fun reading => item.code ∈ reading.codes).length
  currentOccurrences : ∀ item ∈ items, item.currentOccurrences =
    (readings.filter fun reading => item.code ∈ reading.codes ∧ reading.vintage.isNone).length
  archiveOccurrences : ∀ item ∈ items, item.archiveOccurrences =
    (readings.filter fun reading => item.code ∈ reading.codes ∧ reading.vintage.isSome).length
  examples : ∀ item ∈ items, item.examples.length ≤ 3 ∧ item.examples.Nodup ∧
    ∀ record ∈ item.examples, ∃ reading ∈ readings,
      item.code ∈ reading.codes ∧ reading.toInterestCodeExample = record

section File

variable {readings : List InterestReading}

/-- What is reported of a code. -/
def unknownItem (readings : List InterestReading) (code : Str) : UnknownInterestCode :=
  { (codeRecords readings code).foldl UnknownInterestAccumulator.count .zero with code }

lemma occurrences_unknownItem (readings : List InterestReading) (code : Str) :
    (unknownItem readings code).occurrences = (codeRecords readings code).length :=
  (UnknownInterestAccumulator.foldl_count _ .zero).1.trans (Nat.zero_add _)

lemma currentOccurrences_unknownItem (readings : List InterestReading) (code : Str) :
    (unknownItem readings code).currentOccurrences =
      ((codeRecords readings code).filter (·.vintage.isNone)).length :=
  (UnknownInterestAccumulator.foldl_count _ .zero).2.1.trans (Nat.zero_add _)

lemma archiveOccurrences_unknownItem (readings : List InterestReading) (code : Str) :
    (unknownItem readings code).archiveOccurrences =
      ((codeRecords readings code).filter (!·.vintage.isNone)).length :=
  (UnknownInterestAccumulator.foldl_count _ .zero).2.2.trans (Nat.zero_add _)

/-- The codes entered for a file are those of its records that the catalog does not know. -/
lemma mem_keys_enterCodes {table : Option InterestTable}
    (htable : ∀ t ∈ table, ∀ code d, t.lookup code = some d → d.code = code) {code : Str} :
    code ∈ (InterestTallies.enterCodes ∅
        (readings.flatMap (InterestTallies.unresolved table))).keys ↔
      ¬ Resolves table code ∧ ∃ reading ∈ readings, code ∈ reading.codes := by
  rw [InterestTallies.enterCodes, Tally.mem_keys_tally]
  constructor
  · rintro ⟨⟨c, record⟩, hp, rfl⟩
    obtain ⟨reading, hreading, hp⟩ := List.mem_flatMap.mp hp
    obtain ⟨hresolves, hcode, -⟩ := (mem_unresolved_iff htable).mp hp
    exact ⟨hresolves, reading, hreading, hcode⟩
  · rintro ⟨hresolves, reading, hreading, hcode⟩
    exact ⟨(code, reading.toInterestCodeExample), List.mem_flatMap.mpr ⟨reading, hreading,
      (mem_unresolved_iff htable).mpr ⟨hresolves, hcode, rfl⟩⟩, rfl⟩

/-- What the records make of a code is what its own records make of it. -/
lemma toList_enterCodes {table : Option InterestTable}
    (htable : ∀ t ∈ table, ∀ code d, t.lookup code = some d → d.code = code) :
    let entered := InterestTallies.enterCodes ∅
      (readings.flatMap (InterestTallies.unresolved table))
    (entered.toList.map fun p => { p.2 with code := p.1 }) =
      entered.keys.map (unknownItem readings) := by
  intro entered
  have hlist : entered.toList = entered.keys.map fun code => (code,
      ((readings.flatMap (InterestTallies.unresolved table)).filter (·.1 = code)).foldl
        (fun acc p => acc.count p.2) .zero) := Tally.toList_tally _
  rw [hlist, List.map_map]
  refine List.map_congr_left fun code hcode => ?_
  have hresolves := ((mem_keys_enterCodes htable).mp hcode).1
  rw [Function.comp_apply, unknownItem, ← filter_flatMap_unresolved htable hresolves,
    List.foldl_map]

/-- Each code that no catalog entry resolves is reported once, with what its records make of it. -/
lemma exists_unknownCodes_eq (shard : V2Shard) (text : Option Str) :
    let interests := text.map InterestTable.parse
    let readings := interestReadings shard.datMmap
    ∃ codes : List Str, codes.Pairwise (· < ·) ∧
      (∀ code, code ∈ codes ↔ ¬ Resolves interests code ∧
        ∃ reading ∈ readings, code ∈ reading.codes) ∧
      (CallBook.interestStatistics ⟨some { shard with interests }⟩).unknownCodes =
        codes.map (unknownItem readings) := by
  intro interests readings
  have htable : ∀ t ∈ interests, ∀ code d, t.lookup code = some d → d.code = code := by
    rintro t ht code d hd
    obtain ⟨text, -, rfl⟩ := Option.map_eq_some_iff.mp ht
    exact InterestTable.code_of_lookup_parse hd
  have hscan : ((InterestScan.new interests).scanDat shard.datMmap).unknownCodes =
      InterestTallies.enterCodes ∅ (readings.flatMap (InterestTallies.unresolved interests)) := by
    rw [InterestScan.tallies_scanDat interests shard.datMmap, InterestTallies.unknownCodes_foldl]
    rfl
  have hitems : (CallBook.interestStatistics ⟨some { shard with interests }⟩).unknownCodes =
      ((InterestScan.new interests).scanDat shard.datMmap).unknownCodes.toList.map
        fun p => { p.2 with code := p.1 } := rfl
  rw [hitems, hscan]
  exact ⟨_, Std.ExtTreeMap.ordered_keys.imp ByteOrder.compare_eq_lt_iff.mp,
    fun _ => mem_keys_enterCodes htable, toList_enterCodes htable⟩

/-- Where no record has the code twice, the occurrences are the records with the code. -/
lemma length_filter_codeRecords_eq {code : Str} (h : ∀ reading ∈ readings,
      reading.codes.count code ≤ 1) (q : InterestCodeExample → Bool) :
    ((codeRecords readings code).filter q).length = (readings.filter fun reading =>
      code ∈ reading.codes ∧ q reading.toInterestCodeExample).length := by
  rw [length_filter_codeRecords, Tally.sum_map_eq_length_filter_iff.mpr
    fun reading hreading => h reading (List.mem_filter.mp hreading).1, List.filter_filter]
  congr 1
  refine List.filter_congr fun reading _ => ?_
  simp [List.count_pos_iff]

/-- The occurrences of a code are the records with it exactly when no record has it twice. -/
lemma occurrences_unknownItem_eq_iff {code : Str} : (unknownItem readings code).occurrences =
      (readings.filter fun reading => code ∈ reading.codes).length ↔
    ∀ reading ∈ readings, reading.codes.count code ≤ 1 := by
  have hsum := length_filter_codeRecords code (fun _ => true) readings
  rw [List.filter_true, List.filter_true] at hsum
  rw [occurrences_unknownItem, hsum, ← Tally.sum_map_eq_length_filter_iff]
  simp only [List.count_pos_iff]

/-- The items of codes that no record has twice count the records with the codes. -/
lemma countsRecords_map_unknownItem {table : Option InterestTable} {codes : List Str}
    (hordered : codes.Pairwise (· < ·)) (hmem : ∀ code, code ∈ codes ↔
      ¬ Resolves table code ∧ ∃ reading ∈ readings, code ∈ reading.codes)
    (honce : ∀ code ∈ codes, ∀ reading ∈ readings, reading.codes.count code ≤ 1) :
    CountsRecords table readings (codes.map (unknownItem readings)) := by
  have hcodes : (codes.map (unknownItem readings)).map UnknownInterestCode.code = codes := by
    rw [List.map_map]
    exact List.map_id codes
  refine ⟨?_, ?_, ?_, ?_, ?_, ?_⟩
  · rw [hcodes]
    exact hordered
  · rw [hcodes]
    exact hmem
  · rw [List.forall_mem_map]
    exact fun code hcode => occurrences_unknownItem_eq_iff.mpr (honce code hcode)
  · rw [List.forall_mem_map]
    intro code hcode
    exact (currentOccurrences_unknownItem readings code).trans
      (length_filter_codeRecords_eq (honce code hcode) _)
  · rw [List.forall_mem_map]
    intro code hcode
    refine (archiveOccurrences_unknownItem readings code).trans
      ((length_filter_codeRecords_eq (honce code hcode) _).trans ?_)
    simp only [Bool.not_eq_true', Option.isNone_eq_false_iff]
    rfl
  · rw [List.forall_mem_map]
    intro code _
    have hsampled := UnknownInterestAccumulator.sampled_foldl (codeRecords readings code)
    exact ⟨hsampled.length_le, hsampled.nodup,
      fun record hrecord => mem_codeRecords.mp (hsampled.mem record hrecord)⟩

/-- The items of a file count the records with a code exactly when no record has a code twice that
the catalog does not know. -/
theorem unknownCodes_countsRecords_iff (shard : V2Shard) (text : Option Str) :
    let interests := text.map InterestTable.parse
    let readings := interestReadings shard.datMmap
    CountsRecords interests readings
        (CallBook.interestStatistics ⟨some { shard with interests }⟩).unknownCodes ↔
      ∀ reading ∈ readings, ∀ code, ¬ Resolves interests code → reading.codes.count code ≤ 1 := by
  intro interests readings
  obtain ⟨codes, hordered, hmem, hitems⟩ := exists_unknownCodes_eq shard text
  rw [hitems]
  constructor
  · intro h reading hreading code hresolves
    by_cases hcode : code ∈ reading.codes
    · have hreported := (hmem code).mpr ⟨hresolves, reading, hreading, hcode⟩
      have hitem := h.occurrences _ (List.mem_map_of_mem hreported)
      exact occurrences_unknownItem_eq_iff.mp hitem reading hreading
    · rw [List.count_eq_zero.mpr hcode]
      exact Nat.zero_le 1
  · intro h
    exact countsRecords_map_unknownItem hordered hmem fun code hcode reading hreading =>
      h reading hreading code ((hmem code).mp hcode).1

/-- One record that has an unknown code twice. -/
def repeatedCode : Bytes := 0xb5 :: ascii "K0AB" ++ 0xd5 :: ascii "99999999"

/-- The code stands in one record, and two occurrences are reported. -/
theorem not_countsRecords_repeatedCode :
    ¬ CountsRecords none (interestReadings (V2Shard.sampleShard repeatedCode).datMmap)
      (CallBook.interestStatistics
        ⟨some { V2Shard.sampleShard repeatedCode with interests := none }⟩).unknownCodes := by
  have hitems : (CallBook.interestStatistics
      ⟨some { V2Shard.sampleShard repeatedCode with interests := none }⟩).unknownCodes =
        [⟨⟨2, 2, 0, [⟨ascii "K0AB", none⟩]⟩, ascii "9999"⟩] := by decide +kernel
  intro h
  have hcount := h.occurrences _ (by rw [hitems]; exact List.mem_singleton_self _)
  have hone : ((interestReadings (V2Shard.sampleShard repeatedCode).datMmap).filter
      fun reading => ascii "9999" ∈ reading.codes).length = 1 := by decide +kernel
  have htwo : 2 = 1 := hcount.trans hone
  omega

end File

end Callbook
