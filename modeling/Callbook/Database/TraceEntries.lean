import Callbook.Database.HciCompleteness
import Callbook.Database.Trace

/-!
# The postings of a traced HCI record

A trace does not decode the postings of a record: it goes through the postings of all records of the
key and keeps those that the record has. So a posting that two records of a key have is listed twice
for each of them.
-/

namespace Callbook

open Text

/-- The postings that a traced record lists are, in order, those behind the header of the record. -/
def HciEntryTrace.ListsOwn (hci : HciFile) (entry : HciEntryTrace) : Prop :=
  ∃ raw, hci.rawRecord entry.ordinal = some raw ∧
    entry.postings.map (fun trace => (trace.datOffset, trace.position)) =
      (Hci.visitPostings (raw.rawBytes.drop entry.headerLen)).map fun posting =>
        (posting.datOffset, posting.position)

/-! ### Lookup keys -/

lemma isPrintable_of_mem_hciArchiveKey {call : Str} (h : ∀ b ∈ call, isPrintable b) {year : ℕ} :
    ∀ k ∈ hciArchiveKey call year, k ≠ [] ∧ ∀ b ∈ k, isPrintable b := by
  intro k hk
  simp only [hciArchiveKey, Option.mem_def, Option.ite_none_left_eq_some, Option.some.injEq] at hk
  obtain ⟨-, rfl⟩ := hk
  refine ⟨by simp, fun b hb => ?_⟩
  have hdigit : ∀ n : ℕ, isPrintable (0x30 + UInt8.ofNat (n % 10)) := by
    intro n
    have hn := (digit_spec n).1
    grind [isPrintable, isAsciiGraphic, isAsciiDigit]
  rw [List.mem_append] at hb
  rcases hb with hb | hb
  · exact h b hb
  · simp only [List.mem_cons, List.not_mem_nil, or_false] at hb
    rcases hb with rfl | rfl | rfl | rfl | rfl
    · decide +kernel
    all_goals exact hdigit _

/-- The keys that are looked up for a callsign can stand in a header. -/
lemma isPrintable_of_mem_hciLookupKeys {key : Callsign} {years : List ℕ} {k : Bytes}
    (h : k ∈ hciLookupKeys key.asStr years) : k ≠ [] ∧ ∀ b ∈ k, isPrintable b := by
  have hne := key.asStr_spec.1
  have hcall := key.isPrintable_asStr
  rw [hciLookupKeys_eq] at h
  simp only at h
  set suffix := if 1 < key.asStr.length then key.asStr.drop 1 else key.asStr with hsuffix
  have hsuffixne : suffix ≠ [] := by
    rw [hsuffix]
    split_ifs with hlen
    · exact List.ne_nil_of_length_pos (by rw [List.length_drop]; omega)
    · exact hne
  have hsuffixchars : ∀ b ∈ suffix, isPrintable b := by
    rw [hsuffix]
    split_ifs
    · exact fun b hb => hcall b (List.mem_of_mem_drop hb)
    · exact hcall
  rw [List.mem_append, List.mem_flatMap] at h
  rcases h with h | ⟨year, -, h⟩
  · have hbase : k = key.asStr ∨ k = suffix := by
      split_ifs at h <;> simp_all
    rcases hbase with rfl | rfl
    · exact ⟨hne, hcall⟩
    · exact ⟨hsuffixne, hsuffixchars⟩
  · rw [hciYearKeys] at h
    cases hyear : hciArchiveKey key.asStr year with
    | none => simp [hyear] at h
    | some archive =>
      have hbase : k = archive ∨ k ∈ hciArchiveKey suffix year := by
        simp only [hyear, List.mem_cons] at h
        split_ifs at h <;> simp_all
      rcases hbase with rfl | hk
      · exact isPrintable_of_mem_hciArchiveKey hcall k hyear
      · exact isPrintable_of_mem_hciArchiveKey hsuffixchars k hk

namespace V2Shard

variable {shard : V2Shard} {callsign : Str} {limit : ℕ} {hci : HciFile}

/-! ### Entries -/

/-- A posting trace names its posting. -/
lemma traceHciPosting_eq_ok {posting : HciPosting} {trace : HciPostingTrace}
    (h : shard.traceHciPosting callsign limit posting = .ok trace) :
    (trace.datOffset, trace.position) = (posting.datOffset, posting.position) := by
  rw [traceHciPosting, Panic.bind_eq_ok_iff] at h
  obtain ⟨_, -, h⟩ := h
  cases hbounds : recordBoundsForHciPosting shard.datMmap posting.datOffset with
  | none =>
    rw [hbounds] at h
    cases h
    rfl
  | some bounds =>
    rw [hbounds] at h
    cases h
    rfl

/-- An entry lists the postings that the trace attributes to its record. -/
lemma map_postings_of_traceHciEntry {key : Bytes} {found : RawHciRecord × ℕ} {entry : HciEntryTrace}
    (h : shard.traceHciEntry callsign limit hci key found = .ok entry) :
    entry.postings.map (fun trace => (trace.datOffset, trace.position)) =
      (recordPostings hci key found.1 found.2).map fun posting =>
        (posting.datOffset, posting.position) :=
  Panic.map_of_mapM_eq_ok (fun _ _ => traceHciPosting_eq_ok) (mapM_of_traceHciEntry h)

lemma header_of_traceHciEntry {key : Bytes} {found : RawHciRecord × ℕ} {entry : HciEntryTrace}
    (h : shard.traceHciEntry callsign limit hci key found = .ok entry) :
    entry.ordinal = found.1.index ∧ entry.headerLen = found.2 := by
  rw [traceHciEntry, Panic.bind_eq_ok_iff] at h
  obtain ⟨postings, -, hentry⟩ := h
  cases hentry
  exact ⟨rfl, rfl⟩

/-- The postings behind the header of a record. -/
def ownPostings (found : RawHciRecord × ℕ) : List HciPosting :=
  Hci.visitPostings (found.1.rawBytes.drop found.2)

lemma recordPostings_eq {key : Bytes} {found : RawHciRecord × ℕ}
    (h : found ∈ hci.recordsForKey key) : recordPostings hci key found.1 found.2 =
      ((hci.recordsForKey key).flatMap ownPostings).filter (· ∈ ownPostings found) := by
  rw [recordPostings, hci.postingsForKey_eq_flatMap]
  refine List.filter_congr fun posting _ => ?_
  rw [Bool.eq_iff_iff, Bool.and_eq_true, decide_eq_true_iff, decide_eq_true_iff,
    postingIsInRecord_iff]
  exact and_iff_right (HciFile.header_le_of_mem_recordsForKey h)

lemma rawRecord_of_mem_recordsForKey {key : Bytes} {found : RawHciRecord × ℕ}
    (h : found ∈ hci.recordsForKey key) : hci.rawRecord found.1.index = some found.1 := by
  obtain ⟨entry, -, hentry⟩ := List.mem_filterMap.mp h
  simp only [HciFile.entryRecord, Option.bind_eq_bind, Option.bind_eq_some_iff,
    Option.some.injEq] at hentry
  obtain ⟨raw, hraw, headerLen, -, rfl⟩ := hentry
  have hindex : raw.index = entry.index := by
    simp only [HciFile.rawRecord, Option.bind_eq_bind, Option.bind_eq_some_iff,
      Option.ite_none_left_eq_some, Option.some.injEq] at hraw
    obtain ⟨start, -, -, rfl⟩ := hraw
    rfl
  rw [hindex, hraw]

/-- What an entry lists is its own when filtering the postings of the key finds just that. -/
lemma listsOwn_iff {key : Bytes} {found : RawHciRecord × ℕ} (hfound : found ∈ hci.recordsForKey key)
    {entry : HciEntryTrace} (h : shard.traceHciEntry callsign limit hci key found = .ok entry) :
    entry.ListsOwn hci ↔
      ((hci.recordsForKey key).flatMap ownPostings).filter (· ∈ ownPostings found) =
        ownPostings found := by
  obtain ⟨hordinal, hheader⟩ := header_of_traceHciEntry h
  have hinj : Function.Injective fun posting : HciPosting =>
      (posting.datOffset, posting.position) := by
    intro a b hab
    cases a
    cases b
    simpa using hab
  rw [HciEntryTrace.ListsOwn, hordinal, hheader, rawRecord_of_mem_recordsForKey hfound,
    map_postings_of_traceHciEntry h, recordPostings_eq hfound]
  simp only [Option.some.injEq, exists_eq_left']
  exact (List.map_injective_iff.mpr hinj).eq_iff

lemma mem_postingsAt_iff {key : Bytes} {i : ℕ} {posting : HciPosting} :
    posting ∈ hci.postingsAt key i ↔
      ∃ found, hci.recordAt key i = some found ∧ posting ∈ ownPostings found := by
  simp only [hci.postingsAt_eq, List.mem_flatMap, Option.mem_toList, ownPostings]

/-- The records of a key share no posting, said of their ordinals. -/
lemma pairwise_ownPostings_iff {key : Bytes} (hne : key ≠ []) (hkey : ∀ b ∈ key, isPrintable b) :
    ((hci.recordsForKey key).Pairwise fun a b => (ownPostings a).Disjoint (ownPostings b)) ↔
      ∀ i j, i < j → j < 2 ^ 32 → (hci.postingsAt key i).Disjoint (hci.postingsAt key j) := by
  have hpair : ∀ i j, (∀ a, hci.recordAt key i = some a → ∀ b, hci.recordAt key j = some b →
      (ownPostings a).Disjoint (ownPostings b)) ↔
        (hci.postingsAt key i).Disjoint (hci.postingsAt key j) := by
    intro i j
    simp only [List.disjoint_left, mem_postingsAt_iff]
    grind
  rw [hci.recordsForKey_eq hne hkey, List.pairwise_filterMap, List.pairwise_iff_getElem]
  simp only [List.getElem_range, List.length_range, Option.ite_none_right_eq_some, and_imp]
  constructor
  · intro h i j hij hj
    rw [← hpair]
    intro a ha b hb
    have hlen : j < hci.len := by
      simp only [HciFile.recordAt, Option.bind_eq_bind, Option.bind_eq_some_iff] at hb
      obtain ⟨raw, hraw, -⟩ := hb
      exact HciFile.lt_len_of_rawRecord hraw
    exact h i j (hij.trans hlen) hlen hij a (hij.trans hj) ha b hj hb
  · intro h i j hi hj hij a hi' ha b hj' hb
    exact (hpair i j).mpr (h i j hij hj') a ha b hb

/-- All traced records list their own postings exactly when no posting stands in two records of one
searched key. -/
theorem traceHci_listsOwn_iff {key : Callsign} (hhci : shard.hci = some hci)
    {keys : List HciKeyTrace} (h : shard.traceHci key.asStr limit = .ok keys) :
    (∀ keyTrace ∈ keys, ∀ entry ∈ keyTrace.hciEntries, entry.ListsOwn hci) ↔
      ∀ k ∈ hciLookupKeys key.asStr hci.publicationYears, ∀ i j, i < j → j < 2 ^ 32 →
        (hci.postingsAt k i).Disjoint (hci.postingsAt k j) := by
  simp only [traceHci, hhci] at h
  have hkey : ∀ k ∈ hciLookupKeys key.asStr hci.publicationYears, ∀ keyTrace,
      shard.traceHciKey key.asStr limit hci k = .ok keyTrace →
        ((∀ entry ∈ keyTrace.hciEntries, entry.ListsOwn hci) ↔
          ∀ i j, i < j → j < 2 ^ 32 → (hci.postingsAt k i).Disjoint (hci.postingsAt k j)) := by
    intro k hk keyTrace hrun
    obtain ⟨hne, hchars⟩ := isPrintable_of_mem_hciLookupKeys hk
    rw [← pairwise_ownPostings_iff hne hchars, ← Lists.forall_filter_own_iff]
    rw [traceHciKey, Panic.bind_eq_ok_iff] at hrun
    obtain ⟨entries, hentries, hkeyTrace⟩ := hrun
    cases hkeyTrace
    constructor
    · intro hown found hfound
      obtain ⟨entry, hentry, hrun⟩ := Panic.exists_of_mapM_eq_ok hentries found hfound
      exact (listsOwn_iff hfound hrun).mp (hown entry hentry)
    · intro hown entry hentry
      obtain ⟨found, hfound, hrun⟩ := (Panic.mem_of_mapM_eq_ok hentries).mp hentry
      exact (listsOwn_iff hfound hrun).mpr (hown found hfound)
  constructor
  · intro hown k hk
    obtain ⟨keyTrace, hkeyTrace, hrun⟩ := Panic.exists_of_mapM_eq_ok h k hk
    exact (hkey k hk keyTrace hrun).mp (hown keyTrace hkeyTrace)
  · intro happart keyTrace hkeyTrace
    obtain ⟨k, hk, hrun⟩ := (Panic.mem_of_mapM_eq_ok h).mp hkeyTrace
    exact (hkey k hk keyTrace hrun).mpr (happart k hk)

/-! ### Samples -/

/-- A shard whose DAT file is empty. -/
def hciShard (file : HciFile) : V2Shard := { sampleShard [] with hci := some file }

end V2Shard

namespace HciFile

/-- Two records under one key that share a posting. -/
def sharedPair : HciFile where
  indexMmap := [0, 0, 0, 1, 0, 0, 0, 12]
  datMmap := [0] ++ sampleRecord 1 (ascii "W1AW") [0, 0, 0, 7, 1] ++
    sampleRecord 12 (ascii "W1AW") [0, 0, 0, 7, 1]
  keyIndex := _
  publicationYears := _
  whole := by decide
  nonempty := by decide
  built := rfl

/-- Two records under one key, each with a posting of its own. -/
def distinctPair : HciFile where
  indexMmap := [0, 0, 0, 1, 0, 0, 0, 12]
  datMmap := [0] ++ sampleRecord 1 (ascii "W1AW") [0, 0, 0, 7, 1] ++
    sampleRecord 12 (ascii "W1AW") [0, 0, 0, 9, 1]
  keyIndex := _
  publicationYears := _
  whole := by decide
  nonempty := by decide
  built := rfl

end HciFile

namespace V2Shard

theorem traceHci_distinctPair :
    ∃ keys, (hciShard .distinctPair).traceHci (ascii "W1AW") 160 = .ok keys ∧
    (∃ keyTrace ∈ keys, keyTrace.hciEntries.length = 2) ∧
    ∀ keyTrace ∈ keys, ∀ entry ∈ keyTrace.hciEntries, entry.ListsOwn .distinctPair := by
  have hparse : (Callsign.parse (ascii "W1AW")).toOption.any fun key =>
      key.asStr == ascii "W1AW" &&
      ((hciShard .distinctPair).traceHci key.asStr 160).toOption.any fun keys =>
        keys.any fun keyTrace => keyTrace.hciEntries.length == 2 := by decide +kernel
  simp only [Option.any_eq_true, List.any_eq_true, Bool.and_eq_true, beq_iff_eq,
    Panic.toOption_eq_some_iff] at hparse
  obtain ⟨key, -, hkey, keys, hkeys, hentries⟩ := hparse
  refine ⟨keys, hkey ▸ hkeys, hentries, (traceHci_listsOwn_iff rfl hkeys).mpr ?_⟩
  intro k hk i j hij _
  have happart : ∀ k ∈ hciLookupKeys (ascii "W1AW") HciFile.distinctPair.publicationYears,
      ∀ posting ∈ HciFile.distinctPair.postingsAt k 0,
        posting ∉ HciFile.distinctPair.postingsAt k 1 := by decide +kernel
  by_cases hj : j = 1
  · subst hj
    obtain rfl : i = 0 := by omega
    exact happart k (hkey ▸ hk)
  · -- there is no third record
    have hnone : HciFile.distinctPair.rawRecord j = none := by
      rw [Option.eq_none_iff_forall_ne_some]
      intro raw hraw
      have hlt := HciFile.lt_len_of_rawRecord hraw
      have hlen : HciFile.distinctPair.len = 2 := by decide +kernel
      omega
    rw [HciFile.postingsAt, HciFile.postingsAt, hnone]
    exact List.disjoint_nil_right _

/-- With one posting in two records of a key, the trace lists it twice for each. -/
theorem traceHci_sharedPair : ∃ keys,
    (hciShard .sharedPair).traceHci (ascii "W1AW") 160 = .ok keys ∧
      ¬ ∀ keyTrace ∈ keys, ∀ entry ∈ keyTrace.hciEntries, entry.ListsOwn .sharedPair := by
  have hrun : ((hciShard .sharedPair).traceHci (ascii "W1AW") 160).toOption.any fun keys =>
      keys.any fun keyTrace => keyTrace.hciEntries.any fun entry =>
        (HciFile.sharedPair.rawRecord entry.ordinal).any fun raw =>
          entry.postings.length !=
            (Hci.visitPostings (raw.rawBytes.drop entry.headerLen)).length := by decide +kernel
  simp only [Option.any_eq_true, List.any_eq_true, bne_iff_ne, Panic.toOption_eq_some_iff] at hrun
  obtain ⟨keys, hkeys, keyTrace, hkeyTrace, entry, hentry, raw, hraw, hlen⟩ := hrun
  refine ⟨keys, hkeys, fun h => ?_⟩
  obtain ⟨raw', hraw', hown⟩ := h keyTrace hkeyTrace entry hentry
  rw [hraw, Option.some.injEq] at hraw'
  subst hraw'
  have hlen' := congrArg List.length hown
  rw [List.length_map, List.length_map] at hlen'
  exact hlen hlen'

end V2Shard

end Callbook
