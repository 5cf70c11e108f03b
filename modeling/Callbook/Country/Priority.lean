import Callbook.Country.Basic

/-!
# Indexed lookup and the priority rule

The priority rule picks the country of the first matching rule, longest start prefix first, then
start prefix ascending, then file order. The first-byte index holds every rule that can match, so
the indexed lookup and the linear one both return what the priority rule picks, as long as neither
has to cut a bound inside a character.
-/

namespace Callbook

open Text StableSort

/-! ### Matching one rule -/

/-- `width` in `prefix_range_matches`. -/
def CountryRule.width (rule : CountryRule) (call : Str) : ℕ :=
  min (max rule.start.length rule.end.length) call.length

/-- Neither bound has to be cut inside a character to be compared with `call`. -/
def CountryRule.Comparable (rule : CountryRule) (call : Str) : Prop :=
  rule.start = rule.end ∨
    Utf8.isCharBoundary rule.start (min rule.start.length (rule.width call)) ∧
      Utf8.isCharBoundary rule.end (min rule.end.length (rule.width call))

/-- The comparison of the heads of the bounds with the head of the call. -/
def CountryRule.inRange (rule : CountryRule) (call : Str) : Bool :=
  if rule.start = rule.end then rule.start.isPrefixOf call
  else
    rule.start.take (min rule.start.length (rule.width call)) ≤ call.take (rule.width call) &&
      call.take (rule.width call) ≤ rule.end.take (min rule.end.length (rule.width call))

lemma strTake_eq {s : Bytes} {n : ℕ} (hn : n ≤ s.length) :
    Panic.strTake s n =
      if Utf8.isCharBoundary s n then .ok (s.take n) else .error .charBoundary := by
  simp only [Panic.strTake, hn, true_and]

/-- A call and the bounds of a rule are all cut at character boundaries to be compared. -/
def CountryRule.Cuttable (rule : CountryRule) (call : Str) : Prop :=
  rule.start = rule.end ∨ Utf8.isCharBoundary call (rule.width call) ∧ rule.Comparable call

instance (rule : CountryRule) (call : Str) : Decidable (rule.Comparable call) :=
  inferInstanceAs (Decidable (_ ∨ _))

instance (rule : CountryRule) (call : Str) : Decidable (rule.Cuttable call) :=
  inferInstanceAs (Decidable (_ ∨ _))

/-- What matching a call against a rule does. -/
lemma CountryRule.matches_eq_ite (rule : CountryRule) (call : Str) :
    rule.matches call =
      if rule.Cuttable call then .ok (rule.inRange call) else .error .charBoundary := by
  simp only [CountryRule.matches, prefixRangeMatches, Cuttable, Comparable, inRange]
  by_cases heq : rule.start = rule.end
  · simp [heq]
  · have hwidth : rule.width call ≤ call.length := min_le_right _ _
    simp only [heq, if_false, false_or, ← CountryRule.width.eq_def]
    rw [strTake_eq hwidth, strTake_eq (min_le_left _ _), strTake_eq (min_le_left _ _)]
    by_cases hcall : Utf8.isCharBoundary call (rule.width call)
    · by_cases hstart : Utf8.isCharBoundary rule.start (min rule.start.length (rule.width call))
      · by_cases hend : Utf8.isCharBoundary rule.end (min rule.end.length (rule.width call))
        · simp only [hcall, hstart, hend, and_self, if_true]
          rfl
        · simp only [hcall, hstart, hend, if_true]
          rfl
      · simp only [hcall, hstart, if_true]
        rfl
    · simp only [hcall]
      rfl

/-- An ASCII call can be cut anywhere. -/
lemma CountryRule.cuttable_iff_comparable (rule : CountryRule) {call : Str}
    (hcall : ∀ b ∈ call, b < 0x80) : rule.Cuttable call ↔ rule.Comparable call := by
  have hcut : Utf8.isCharBoundary call (rule.width call) :=
    Utf8.isCharBoundary_of_ascii hcall (min_le_right _ _)
  simp only [Cuttable, Comparable, hcut, true_and, or_self_left]

lemma CountryRule.inRange_of_matches {rule : CountryRule} {call : Str} {b : Bool}
    (h : rule.matches call = .ok b) : rule.inRange call = b := by
  rw [matches_eq_ite] at h
  split_ifs at h
  exact Except.ok.inj h

lemma CountryRule.exists_matches_iff_cuttable (rule : CountryRule) (call : Str) :
    (∃ b, rule.matches call = .ok b) ↔ rule.Cuttable call := by
  rw [matches_eq_ite]
  split_ifs with h <;> simp [h]

lemma CountryRule.exists_matches_iff {rule : CountryRule} {call : Str}
    (hcall : ∀ b ∈ call, b < 0x80) :
    (∃ b, rule.matches call = .ok b) ↔ rule.Comparable call := by
  rw [exists_matches_iff_cuttable, cuttable_iff_comparable rule hcall]

lemma mem_matchingFirstBytes {start «end» : Str} {b : UInt8} :
    b ∈ matchingFirstBytes start «end» ↔
      min (start.head?.getD 0) («end».head?.getD (start.head?.getD 0)) ≤ b ∧
        b ≤ max (start.head?.getD 0) («end».head?.getD (start.head?.getD 0)) := by
  simp only [matchingFirstBytes, List.mem_map, List.mem_range]
  set low := min (start.head?.getD 0) («end».head?.getD (start.head?.getD 0))
  set high := max (start.head?.getD 0) («end».head?.getD (start.head?.getD 0))
  have hhigh : high.toNat < 256 := high.toNat_lt
  constructor
  · rintro ⟨i, hi, rfl⟩
    have hle : low ≤ high := min_le_max
    rw [UInt8.le_iff_toNat_le] at hle
    have hsum : (low + UInt8.ofNat i).toNat = low.toNat + i := by
      rw [UInt8.toNat_add, UInt8.toNat_ofNat']
      omega
    rw [UInt8.le_iff_toNat_le, UInt8.le_iff_toNat_le, hsum]
    omega
  · rintro ⟨hlow, hb⟩
    rw [UInt8.le_iff_toNat_le] at hlow hb
    refine ⟨b.toNat - low.toNat, by omega, ?_⟩
    rw [← UInt8.toNat_inj, UInt8.toNat_add, UInt8.toNat_ofNat']
    omega

lemma nodup_matchingFirstBytes (start «end» : Str) : (matchingFirstBytes start «end»).Nodup := by
  refine List.Nodup.map_on (fun i hi j hj hij => ?_) List.nodup_range
  rw [List.mem_range] at hi hj
  rw [← UInt8.toNat_inj, UInt8.toNat_add, UInt8.toNat_add, UInt8.toNat_ofNat',
    UInt8.toNat_ofNat'] at hij
  have := (max (start.head?.getD 0) («end».head?.getD (start.head?.getD 0))).toNat_lt
  omega

/-- A rule in range of a call is entered under the call's first byte. -/
lemma CountryRule.first_mem_of_inRange {rule : CountryRule} {b : UInt8} {call : Str}
    (hstart : rule.start ≠ []) (hend : rule.end ≠ []) (h : rule.inRange (b :: call)) :
    b ∈ matchingFirstBytes rule.start rule.end := by
  obtain ⟨s, start, hs⟩ := List.exists_cons_of_ne_nil hstart
  obtain ⟨e, fin, he⟩ := List.exists_cons_of_ne_nil hend
  rw [mem_matchingFirstBytes]
  simp only [inRange] at h
  split_ifs at h with heq
  · rw [hs, List.isPrefixOf_iff_prefix, List.cons_prefix_cons] at h
    rw [← heq, hs]
    simp [h.1]
  · obtain ⟨width, hw⟩ : ∃ width, rule.width (b :: call) = width + 1 :=
      ⟨rule.width (b :: call) - 1, by simp only [CountryRule.width, hs]; grind⟩
    simp only [hw, hs, he, List.take_succ_cons, List.length_cons, Nat.succ_min_succ,
      Bool.and_eq_true, decide_eq_true_eq] at h
    simp only [hs, he, List.head?_cons, Option.getD_some, min_le_iff, le_max_iff]
    exact ⟨Or.inl (ByteOrder.head_le_of_le h.1), Or.inr (ByteOrder.head_le_of_le h.2)⟩

/-! ### The first-byte index -/

/-- The rules, with their positions, that are entered under a first byte. -/
def candidateRules (rules : List (CountryRule × ℕ)) (b : UInt8) : List (CountryRule × ℕ) :=
  rules.filter fun rule => b ∈ matchingFirstBytes rule.1.start rule.1.end

lemma pushIndex_getElem? {index index' : List (List ℕ)} {byte : UInt8} {i : ℕ}
    (h : pushIndex index byte i = .ok index') (b : UInt8) :
    index'[b.toNat]? = index[b.toNat]?.map fun l => if b = byte then l ++ [i] else l := by
  simp only [pushIndex] at h
  split_ifs at h
  cases h
  rw [List.getElem?_modify]
  refine congrArg (Option.map · _) (funext fun l => ?_)
  simp only [UInt8.toNat_inj, eq_comm]

lemma foldlM_pushIndex_getElem? {bytes : List UInt8} (hbytes : bytes.Nodup) {i : ℕ}
    {index index' : List (List ℕ)} (h : bytes.foldlM (pushIndex · · i) index = .ok index')
    (b : UInt8) :
    index'[b.toNat]? = index[b.toNat]?.map fun l => if b ∈ bytes then l ++ [i] else l := by
  induction bytes generalizing index with
  | nil =>
    cases h
    simp
  | cons byte bytes ih =>
    rw [List.nodup_cons] at hbytes
    rw [List.foldlM_cons, Panic.bind_eq_ok_iff] at h
    obtain ⟨index₁, hpush, hrest⟩ := h
    rw [ih hbytes.2 hrest, pushIndex_getElem? hpush, Option.map_map]
    refine congrArg (Option.map · _) (funext fun l => ?_)
    by_cases hb : b = byte
    · subst hb
      simp [hbytes.1]
    · simp [hb]

/-- One step of the fold: a rule is appended to the entries of its first bytes. -/
lemma indexRule_getElem? {index index' : List (List ℕ)} {rule : CountryRule × ℕ}
    (h : indexRule index rule = .ok index') (b : UInt8) :
    index'[b.toNat]? =
      index[b.toNat]?.map (· ++ (candidateRules [rule] b).map Prod.snd) := by
  rw [foldlM_pushIndex_getElem? (nodup_matchingFirstBytes _ _) h]
  refine congrArg (Option.map · _) (funext fun l => ?_)
  by_cases hb : b ∈ matchingFirstBytes rule.1.start rule.1.end <;> simp [candidateRules, hb]

lemma foldlM_indexRule_getElem? {rules : List (CountryRule × ℕ)} {index index' : List (List ℕ)}
    (h : rules.foldlM indexRule index = .ok index') (b : UInt8) :
    index'[b.toNat]? = index[b.toNat]?.map (· ++ (candidateRules rules b).map Prod.snd) := by
  induction rules generalizing index with
  | nil =>
    cases h
    simp [candidateRules]
  | cons rule rules ih =>
    rw [List.foldlM_cons, Panic.bind_eq_ok_iff] at h
    obtain ⟨index₁, hrule, hrest⟩ := h
    rw [ih hrest, indexRule_getElem? hrule, Option.map_map]
    refine congrArg (Option.map · _) (funext fun l => ?_)
    simp only [Function.comp_apply, List.append_assoc, ← List.map_append, candidateRules,
      ← List.filter_append, List.singleton_append]

/-- The index lists the positions of the rules entered under a byte, in matching order. -/
lemma CountryTable.firstByteIndex_getElem? (table : CountryTable) {b : UInt8} (hb : b < 0x80) :
    table.firstByteIndex[b.toNat]? =
      some ((candidateRules table.rules.zipIdx b).map Prod.snd) := by
  have hlt : b.toNat < 128 := UInt8.lt_iff_toNat_lt.mp hb
  rw [foldlM_indexRule_getElem? table.indexed, List.getElem?_replicate, if_pos hlt]
  simp

/-! ### The first match -/

/-- The first match, described by the rules in front of it. -/
lemma firstMatch_eq_ok_some_iff {call : Str} {rules : List CountryRule} {info : CountryInfo} :
    CountryTable.firstMatch call rules = .ok (some info) ↔ ∃ front rule back,
      rules = front ++ rule :: back ∧ (∀ r ∈ front, r.matches call = .ok false) ∧
        rule.matches call = .ok true ∧ rule.country = info := by
  induction rules with
  | nil => simp [CountryTable.firstMatch]
  | cons rule rules ih =>
    rw [CountryTable.firstMatch, Panic.bind_eq_ok_iff]
    constructor
    · rintro ⟨_ | _, hrule, h⟩
      · obtain ⟨front, r, back, rfl, hfront, hr⟩ := ih.mp h
        exact ⟨rule :: front, r, back, rfl, List.forall_mem_cons.mpr ⟨hrule, hfront⟩, hr⟩
      · refine ⟨[], rule, rules, rfl, by simp, hrule, ?_⟩
        simpa [pure, Except.pure] using h
    · rintro ⟨_ | ⟨r, front⟩, rule', back, heq, hfront, hrule, hinfo⟩
      · obtain ⟨rfl, rfl⟩ := List.cons.inj heq
        exact ⟨true, hrule, by simp [pure, Except.pure, hinfo]⟩
      · obtain ⟨rfl, rfl⟩ := List.cons.inj heq
        rw [List.forall_mem_cons] at hfront
        exact ⟨false, hfront.1, ih.mpr ⟨front, rule', back, rfl, hfront.2, hrule, hinfo⟩⟩

lemma firstMatch_eq_ok_none_iff {call : Str} {rules : List CountryRule} :
    CountryTable.firstMatch call rules = .ok none ↔ ∀ r ∈ rules, r.matches call = .ok false := by
  induction rules with
  | nil => simp [CountryTable.firstMatch]
  | cons rule rules ih =>
    rw [CountryTable.firstMatch, Panic.bind_eq_ok_iff, List.forall_mem_cons, ← ih]
    constructor
    · rintro ⟨_ | _, hrule, h⟩
      · exact ⟨hrule, h⟩
      · simp [pure, Except.pure] at h
    · rintro ⟨hrule, h⟩
      exact ⟨false, hrule, h⟩

/-- Leaving out rules that cannot match changes nothing. -/
lemma firstMatch_filter {call : Str} {rules : List CountryRule} {p : CountryRule → Bool}
    (hp : ∀ rule ∈ rules, p rule = false → rule.matches call ≠ .ok true)
    {found : Option CountryInfo} (h : CountryTable.firstMatch call rules = .ok found) :
    CountryTable.firstMatch call (rules.filter p) = .ok found := by
  induction rules with
  | nil => simpa using h
  | cons rule rules ih =>
    rw [List.forall_mem_cons] at hp
    rw [CountryTable.firstMatch, Panic.bind_eq_ok_iff] at h
    obtain ⟨b, hrule, h⟩ := h
    by_cases hkeep : p rule
    · rw [List.filter_cons_of_pos hkeep, CountryTable.firstMatch, Panic.bind_eq_ok_iff]
      refine ⟨b, hrule, ?_⟩
      cases b with
      | false => exact ih hp.2 h
      | true => exact h
    · have hb : b = false := by
        cases b with
        | false => rfl
        | true => exact absurd hrule (hp.1 (by simpa using hkeep))
      rw [List.filter_cons_of_neg hkeep]
      subst hb
      exact ih hp.2 h

lemma CountryTable.firstMatchAt_eq (table : CountryTable) (call : Str)
    {rules : List (CountryRule × ℕ)} (h : ∀ r ∈ rules, table.rules[r.2]? = some r.1) :
    table.firstMatchAt call (rules.map Prod.snd) =
      CountryTable.firstMatch call (rules.map Prod.fst) := by
  induction rules with
  | nil => rfl
  | cons rule rules ih =>
    rw [List.forall_mem_cons] at h
    rw [List.map_cons, List.map_cons, firstMatchAt, firstMatch, h.1]
    simp only [ih h.2]

/-- The scan of the rules that `p` keeps finishes when each rule that it reaches can be compared;
`hit` tells the rules that end it, for comparisons that finish. -/
lemma exists_firstMatch_filter_iff {call : Str} {hit : CountryRule → Prop}
    (hhit : ∀ rule b, rule.matches call = .ok b → (hit rule ↔ b = true)) {p : CountryRule → Bool}
    {rules : List CountryRule} :
    (∃ found, CountryTable.firstMatch call (rules.filter p) = .ok found) ↔
      ∀ front rule back, rules = front ++ rule :: back → p rule →
        (∀ r ∈ front, p r → ¬ hit r) → ∃ b, rule.matches call = .ok b := by
  induction rules with
  | nil => simp [CountryTable.firstMatch]
  | cons rule rules ih =>
    rw [Lists.forall_cut_cons_iff]
    by_cases hkeep : p rule
    · rw [List.filter_cons_of_pos hkeep, CountryTable.firstMatch]
      cases hrule : rule.matches call with
      | error e => simp [bind, Except.bind, hkeep]
      | ok b =>
        have hmatch := hhit rule b hrule
        cases b with
        | true =>
          -- the scan ends at this rule, and no rule behind it is reached
          have hends : hit rule := hmatch.mpr rfl
          simp [pure, Except.pure, hkeep, hends]
        | false =>
          have hmiss : ¬ hit rule := by simp [hmatch]
          simpa [hkeep, hmiss] using ih
    · rw [List.filter_cons_of_neg hkeep]
      simpa [hkeep] using ih

/-! ### The priority rule -/

/-- `a` comes before `b`: a longer start prefix, then a smaller one, then file order. -/
def Prior (a b : CountryRule × ℕ) : Prop :=
  b.1.start.length < a.1.start.length ∨ b.1.start.length = a.1.start.length ∧
    (a.1.start < b.1.start ∨ a.1.start = b.1.start ∧ a.2 < b.2)

instance : DecidableRel Prior := fun _ _ => inferInstanceAs (Decidable (_ ∨ _ ∧ (_ ∨ _ ∧ _)))

/-- What the priority rule picks among the rules of a file. -/
def IsPriorityMatch (rules : List CountryRule) (call : Str) : Option CountryInfo → Prop
  | none => ∀ rule ∈ rules, rule.matches call = .ok false
  | some info => ∃ rule ∈ rules.zipIdx, rule.1.country = info ∧ rule.1.matches call = .ok true ∧
      ∀ other ∈ rules.zipIdx, Prior other rule → other.1.matches call = .ok false

/-- The call that `lookup_info` and `lookup_linear` match. -/
def normalizedCall (callsign : Str) : Str := toAsciiUppercase (Utf8.trim callsign)

lemma precedes_ruleOrder_iff {a b : CountryRule × ℕ} : Precedes ruleOrder a b ↔ Prior a b := by
  simp only [Precedes, ruleOrder, Prior, Ordering.then_eq_lt, Ordering.then_eq_eq,
    ByteOrder.compare_eq_lt_iff, compare_lt_iff_lt, Std.compare_eq_iff_eq]
  tauto

section Tagged

/-- The sorted rules of a file with their positions. -/
private def tagged (rules : List CountryRule) : List (CountryRule × ℕ) :=
  sortTagged ruleOrder rules.zipIdx

private lemma mem_tagged {rules : List CountryRule} {r : CountryRule × ℕ} :
    r ∈ tagged rules ↔ r ∈ rules.zipIdx := mem_sortTagged _

private lemma map_fst_tagged (rules : List CountryRule) :
    (tagged rules).map Prod.fst = sortBy ruleOrder rules := by
  rw [tagged, map_fst_sortTagged, List.zipIdx_map_fst]

/-- Before a rule of the sorted list stand exactly the rules prior to it. -/
private lemma mem_front_iff {rules : List CountryRule} {front back : List (CountryRule × ℕ)}
    {rule : CountryRule × ℕ} (h : tagged rules = front ++ rule :: back) {other : CountryRule × ℕ}
    (hother : other ∈ rules.zipIdx) : other ∈ front ↔ Prior other rule := by
  have hsorted : (tagged rules).Pairwise (Precedes ruleOrder) := by
    refine pairwise_sortTagged _ ?_
    rw [List.pairwise_iff_getElem]
    simp
  rw [h, List.pairwise_append, List.pairwise_cons] at hsorted
  rw [← precedes_ruleOrder_iff]
  constructor
  · intro hmem
    exact hsorted.2.2 other hmem rule (by simp)
  · intro hprior
    rw [← mem_tagged, h, List.mem_append, List.mem_cons] at hother
    rcases hother with hmem | rfl | hmem
    · exact hmem
    · exact absurd hprior hprior.asymm
    · exact absurd hprior (hsorted.2.1.1 other hmem).asymm

private lemma exists_tagged_split {rules : List CountryRule} {front back : List CountryRule}
    {rule : CountryRule} (h : sortBy ruleOrder rules = front ++ rule :: back) :
    ∃ front' rule' back', tagged rules = front' ++ rule' :: back' ∧
      front'.map Prod.fst = front ∧ rule'.1 = rule := by
  rw [← map_fst_tagged, List.map_eq_append_iff] at h
  obtain ⟨front', rest, htagged, hfront, hrest⟩ := h
  obtain ⟨rule', back', rfl, hrule, -⟩ := List.map_eq_cons_iff.mp hrest
  exact ⟨front', rule', back', htagged, hfront, hrule⟩

private lemma sortBy_split {rules : List CountryRule} {front back : List (CountryRule × ℕ)}
    {rule : CountryRule × ℕ} (h : tagged rules = front ++ rule :: back) :
    sortBy ruleOrder rules = front.map Prod.fst ++ rule.1 :: back.map Prod.fst := by
  rw [← map_fst_tagged, h, List.map_append, List.map_cons]

/-- Scanning the sorted rules picks what the priority rule picks. -/
lemma firstMatch_sortBy_iff {rules : List CountryRule} {call : Str} {found : Option CountryInfo} :
    CountryTable.firstMatch call (sortBy ruleOrder rules) = .ok found ↔
      IsPriorityMatch rules call found := by
  cases found with
  | none => simp only [firstMatch_eq_ok_none_iff, mem_sortBy, IsPriorityMatch]
  | some info =>
    rw [firstMatch_eq_ok_some_iff, IsPriorityMatch]
    constructor
    · rintro ⟨front, rule, back, heq, hfront, hmatch, hinfo⟩
      obtain ⟨front', rule', back', htagged, rfl, rfl⟩ := exists_tagged_split heq
      refine ⟨rule', mem_tagged.mp (by simp [htagged]), hinfo, hmatch, ?_⟩
      intro other hother hprior
      exact hfront _ (List.mem_map_of_mem ((mem_front_iff htagged hother).mpr hprior))
    · rintro ⟨rule, hrule, hinfo, hmatch, hprior⟩
      obtain ⟨front, back, htagged⟩ := List.append_of_mem (mem_tagged.mpr hrule)
      refine ⟨_, _, _, sortBy_split htagged, fun r hr => ?_, hmatch, hinfo⟩
      obtain ⟨other, hother, rfl⟩ := List.mem_map.mp hr
      have hmem : other ∈ rules.zipIdx := mem_tagged.mp (by simp [htagged, hother])
      exact hprior other hmem ((mem_front_iff htagged hmem).mp hother)

/-- The scan of the sorted rules that `p` keeps finishes when it can compare each one that no hit
comes before. -/
lemma exists_firstMatch_sortBy_iff {call : Str} {hit : CountryRule → Prop}
    (hhit : ∀ rule b, rule.matches call = .ok b → (hit rule ↔ b = true)) {p : CountryRule → Bool}
    {rules : List CountryRule} :
    (∃ found, CountryTable.firstMatch call ((sortBy ruleOrder rules).filter p) = .ok found) ↔
      ∀ rule ∈ rules.zipIdx, p rule.1 →
        (∀ other ∈ rules.zipIdx, p other.1 → Prior other rule → ¬ hit other.1) →
          ∃ b, rule.1.matches call = .ok b := by
  rw [exists_firstMatch_filter_iff hhit]
  constructor
  · intro h rule hrule hkeep hprior
    obtain ⟨front, back, htagged⟩ := List.append_of_mem (mem_tagged.mpr hrule)
    refine h _ _ _ (sortBy_split htagged) hkeep fun r hr hr' => ?_
    obtain ⟨other, hother, rfl⟩ := List.mem_map.mp hr
    have hmem : other ∈ rules.zipIdx := mem_tagged.mp (by simp [htagged, hother])
    exact hprior other hmem hr' ((mem_front_iff htagged hmem).mp hother)
  · intro h front rule back heq hkeep hfront
    obtain ⟨front', rule', back', htagged, rfl, rfl⟩ := exists_tagged_split heq
    refine h rule' (mem_tagged.mp (by simp [htagged])) hkeep fun other hother hother' hprior => ?_
    exact hfront _ (List.mem_map_of_mem ((mem_front_iff htagged hother).mpr hprior)) hother'

end Tagged

/-! ### Tables built from a text -/

lemma parseRule_bounds {source : CountryInfoSource} {line : Str} {rule : CountryRule}
    (h : parseRule source line = some rule) : rule.start ≠ [] ∧ rule.end ≠ [] := by
  simp only [parseRule] at h
  split_ifs at h with hskip hempty hname
  cases h
  simpa [toAsciiUppercase] using hempty

lemma CountryTable.rules_of_parseWithSource {text : Str} {source : CountryInfoSource}
    {table : CountryTable} (h : parseWithSource text source = .ok table) :
    table.rules = sortBy ruleOrder (fileRules text source) := by
  simp only [parseWithSource] at h
  split at h
  · cases h
  · cases h
    rfl

lemma ascii_normalizedCall {callsign : Str} (h : ∀ b ∈ callsign, b < 0x80) :
    ∀ b ∈ normalizedCall callsign, b < 0x80 := by
  intro b hb
  obtain ⟨a, ha, rfl⟩ := List.mem_map.mp hb
  have := h a (Utf8.mem_of_mem_trim ha)
  grind [toAsciiUppercaseByte, isAsciiLowercase]

/-- Whether `lookup_info` compares `call` with the rule: the index holds it under the call's first
byte, or that byte has no bucket. -/
def CountryRule.reachedBy (rule : CountryRule) (call : Str) : Bool :=
  match call.head?.filter (· < 0x80) with
  | none => true
  | some b => b ∈ matchingFirstBytes rule.start rule.end

/-- The lookup scans the rules it reaches in matching order. -/
lemma CountryTable.lookupInfo_eq (table : CountryTable) (callsign : Str) :
    table.lookupInfo callsign = firstMatch (normalizedCall callsign)
      (table.rules.filter (·.reachedBy (normalizedCall callsign))) := by
  simp only [lookupInfo, ← normalizedCall.eq_def, CountryRule.reachedBy]
  cases hfirst : (normalizedCall callsign).head?.filter (· < 0x80) with
  | none => simp
  | some b =>
    have hb : b < 0x80 := by
      have hfilter := (Option.filter_eq_some_iff.mp hfirst).2
      simpa using hfilter
    simp only [Option.bind_some, table.firstByteIndex_getElem? hb]
    rw [table.firstMatchAt_eq]
    · rw [candidateRules, ← List.zipIdx_map_fst 0 table.rules, List.filter_map,
        List.zipIdx_map_fst]
      rfl
    · intro r hr
      exact List.mk_mem_zipIdx_iff_getElem?.mp (List.mem_of_mem_filter hr)

/-- The indexed scan returns what the linear one does. -/
lemma CountryTable.lookupInfo_of_firstMatch {table : CountryTable} {callsign : Str}
    (hbounds : ∀ rule ∈ table.rules, rule.start ≠ [] ∧ rule.end ≠ [])
    (hcall : ∀ b ∈ callsign, b < 0x80) {found : Option CountryInfo}
    (h : firstMatch (normalizedCall callsign) table.rules = .ok found) :
    table.lookupInfo callsign = .ok found := by
  have hascii := ascii_normalizedCall hcall
  rw [lookupInfo_eq]
  refine firstMatch_filter (fun rule hrule hout hmatch => ?_) h
  cases hc : normalizedCall callsign with
  | nil => simp [CountryRule.reachedBy, hc] at hout
  | cons b call =>
    rw [hc] at hascii hmatch hout
    have hb : b < 0x80 := hascii b (by simp)
    have hmem := CountryRule.first_mem_of_inRange (hbounds rule hrule).1 (hbounds rule hrule).2
      (CountryRule.inRange_of_matches hmatch)
    simp [CountryRule.reachedBy, Option.filter_some, hb, hmem] at hout

/-- Both lookups return the country the priority rule picks exactly when every rule of the file that
no matching rule comes before can be compared with the call on character boundaries. -/
theorem lookupInfo_isPriorityMatch_iff {text : Str} {source : CountryInfoSource}
    {table : CountryTable} (htable : CountryTable.parseWithSource text source = .ok table)
    {callsign : Str} (hcall : ∀ b ∈ callsign, b < 0x80) :
    (∃ info, table.lookupInfo callsign = .ok info ∧
        IsPriorityMatch (CountryTable.fileRules text source) (normalizedCall callsign) info ∧
        table.lookupLinear callsign = .ok (info.map CountryInfo.toMatch)) ↔
      ∀ rule ∈ (CountryTable.fileRules text source).zipIdx,
        (∀ other ∈ (CountryTable.fileRules text source).zipIdx, Prior other rule →
          other.1.matches (normalizedCall callsign) ≠ .ok true) →
        rule.1.Comparable (normalizedCall callsign) := by
  have hrules := CountryTable.rules_of_parseWithSource htable
  have hbounds : ∀ rule ∈ table.rules, rule.start ≠ [] ∧ rule.end ≠ [] := by
    intro rule hrule
    rw [hrules, mem_sortBy, CountryTable.fileRules, List.mem_filterMap] at hrule
    obtain ⟨line, -, hline⟩ := hrule
    exact parseRule_bounds hline
  have hlinear : ∀ found, table.lookupLinear callsign = .ok found ↔
      ∃ info, CountryTable.firstMatch (normalizedCall callsign) table.rules = .ok info ∧
        info.map CountryInfo.toMatch = found := by
    intro found
    simp [CountryTable.lookupLinear, ← normalizedCall.eq_def, Panic.bind_eq_ok_iff, pure,
      Except.pure]
  simp only [← CountryRule.exists_matches_iff (ascii_normalizedCall hcall)]
  have hhit : ∀ (rule : CountryRule) (b : Bool), rule.matches (normalizedCall callsign) = .ok b →
      (rule.matches (normalizedCall callsign) = .ok true ↔ b = true) := by
    intro rule b hb
    rw [hb, Except.ok.injEq]
  have hscan := @exists_firstMatch_sortBy_iff _ _ hhit (fun _ => true)
    (CountryTable.fileRules text source)
  simp only [List.filter_true, true_implies] at hscan
  rw [← hscan, ← hrules]
  constructor
  · rintro ⟨info, -, -, h⟩
    obtain ⟨found, hfound, -⟩ := (hlinear _).mp h
    exact ⟨found, hfound⟩
  · rintro ⟨info, h⟩
    refine ⟨info, CountryTable.lookupInfo_of_firstMatch hbounds hcall h, ?_,
      (hlinear _).mpr ⟨info, h, rfl⟩⟩
    rwa [hrules, firstMatch_sortBy_iff] at h

/-- `A` to `B`, with an accented second letter in the start prefix. -/
def accentedRange : Str := [0x41, 0xc3, 0x89, 0x20, 0x20, 0x20] ++ ascii "B     SOMEWHERE"

/-- `A1` is compared with the accented prefix, which is cut at its second byte. -/
theorem lookupInfo_accentedRange_panics :
    ∃ table, CountryTable.parseWithSource accentedRange .unknown = .ok table ∧
      (∀ b ∈ ascii "A1", b < 0x80) ∧ table.lookupInfo (ascii "A1") = .error .charBoundary ∧
      ¬ ∃ info, table.lookupInfo (ascii "A1") = .ok info ∧
        IsPriorityMatch (CountryTable.fileRules accentedRange .unknown)
          (normalizedCall (ascii "A1")) info ∧
        table.lookupLinear (ascii "A1") = .ok (info.map CountryInfo.toMatch) := by
  have hok : (CountryTable.parseWithSource accentedRange .unknown).isOk := by decide +kernel
  have hrun : (CountryTable.parseWithSource accentedRange .unknown).bind
      (·.lookupInfo (ascii "A1")) = .error .charBoundary := by decide +kernel
  obtain ⟨table, htable⟩ := Panic.exists_of_isOk hok
  rw [htable, Except.bind] at hrun
  refine ⟨table, htable, by decide +kernel, hrun, ?_⟩
  rintro ⟨info, hinfo, -⟩
  rw [hrun] at hinfo
  cases hinfo

/-- The two rules of the file that reach `K1AW`: the longer start prefix wins. -/
def nestedRanges : Str :=
  ascii "K     K     UNITED STATES [US]\nK1    K3    NEW ENGLAND [US]\n"

theorem lookupInfo_isPriorityMatch_nestedRanges :
    ∃ table, CountryTable.parseWithSource nestedRanges .unknown = .ok table ∧
      ∃ info, table.lookupInfo (ascii "K1AW") = .ok info ∧
        IsPriorityMatch (CountryTable.fileRules nestedRanges .unknown)
          (normalizedCall (ascii "K1AW")) info ∧
        table.lookupLinear (ascii "K1AW") = .ok (info.map CountryInfo.toMatch) := by
  have hok : (CountryTable.parseWithSource nestedRanges .unknown).isOk := by decide +kernel
  obtain ⟨table, htable⟩ := Panic.exists_of_isOk hok
  have hcall : ∀ b ∈ ascii "K1AW", b < 0x80 := by decide +kernel
  refine ⟨table, htable, (lookupInfo_isPriorityMatch_iff htable hcall).mpr ?_⟩
  intro rule hrule _
  rw [← CountryRule.exists_matches_iff (ascii_normalizedCall hcall)]
  have hall : ∀ rule ∈ (CountryTable.fileRules nestedRanges .unknown).zipIdx,
      (rule.1.matches (normalizedCall (ascii "K1AW"))).isOk := by decide +kernel
  exact Panic.exists_of_isOk (hall rule hrule)

end Callbook
