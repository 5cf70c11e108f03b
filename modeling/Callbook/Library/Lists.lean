import Mathlib.Data.List.Forall2
import Mathlib.Data.List.Range

/-!
# Lists

Lists as tables: what the positions of a list hold, the elements of a kind in a sorted list, and
texts that a sentinel ends.
-/

namespace Lists

variable {α β : Type*}

/-- A list is what its positions hold. -/
lemma filterMap_range_getElem? (l : List α) :
    ((List.range l.length).filterMap fun i => l[i]?) = l := by
  induction l with
  | nil => rfl
  | cons a l ih =>
    rw [List.length_cons, List.range_succ_eq_map, List.filterMap_cons_some List.getElem?_cons_zero,
      List.filterMap_map]
    exact congrArg (a :: ·) ih

lemma flatMap_range_getElem? (l : List α) (f : α → List β) :
    ((List.range l.length).flatMap fun i => l[i]?.toList.flatMap f) = l.flatMap f := by
  conv_rhs => rw [← filterMap_range_getElem? l, List.filterMap_eq_flatMap_toList,
    List.flatMap_assoc]

lemma flatMap_filter (l : List α) (p : α → Bool) (f : α → List β) :
    (l.filter p).flatMap f = l.flatMap fun a => if p a then f a else [] := by
  induction l with
  | nil => rfl
  | cons a l ih => cases hp : p a <;> simp [hp, ih]

lemma forall₂_eq_some_iff {f : α → Option β} {l : List α} {m : List β} :
    List.Forall₂ (fun a b => f a = some b) l m ↔ l.filterMap f = m ∧ l.length ≤ m.length := by
  constructor
  · intro h
    refine ⟨?_, h.length_eq.le⟩
    induction h with
    | nil => rfl
    | cons hab _ ih => rw [List.filterMap_cons_some hab, ih]
  · rintro ⟨rfl, hlen⟩
    induction l with
    | nil => exact List.Forall₂.nil
    | cons a l ih =>
      have hle := List.length_filterMap_le f l
      cases hfa : f a with
      | none =>
        rw [List.filterMap_cons_none hfa, List.length_cons] at hlen
        omega
      | some b =>
        rw [List.filterMap_cons_some hfa, List.length_cons, List.length_cons] at hlen
        rw [List.filterMap_cons_some hfa]
        exact List.Forall₂.cons hfa (ih (Nat.le_of_succ_le_succ hlen))

/-- In a list without a `q` before a `p`, the elements of either kind are the `p`s and then the
`q`s. -/
lemma filter_or_eq_append {p q : α → Bool} {l : List α}
    (hdisj : ∀ a, p a → q a = false) (h : l.Pairwise fun a b => q a → p b = false) :
    l.filter (fun a => p a || q a) = l.filter p ++ l.filter q := by
  induction l with
  | nil => rfl
  | cons a l ih =>
    rw [List.pairwise_cons] at h
    have hrest := ih h.2
    cases hp : p a with
    | true =>
      simp only [List.filter_cons, hp, hdisj a hp, Bool.true_or, if_true, hrest, List.cons_append]
      rfl
    | false =>
      cases hq : q a with
      | false => simpa [List.filter_cons, hp, hq] using hrest
      | true =>
        have hnone : l.filter p = [] := by
          rw [List.filter_eq_nil_iff]
          intro b hb
          simp [h.1 b hb hq]
        rw [hnone, List.nil_append] at hrest
        simp [hp, hq, hnone, hrest]

/-- Two lists that are no longer than two others make the same list only when they are the same. -/
lemma append_eq_append_iff_of_length_le {l₁ l₂ m₁ m₂ : List α} (h₁ : l₁.length ≤ m₁.length)
    (h₂ : l₂.length ≤ m₂.length) : l₁ ++ l₂ = m₁ ++ m₂ ↔ l₁ = m₁ ∧ l₂ = m₂ := by
  constructor
  · intro h
    have hlen := congrArg List.length h
    rw [List.length_append, List.length_append] at hlen
    exact List.append_inj h (by omega)
  · rintro ⟨rfl, rfl⟩
    rfl

/-- A text ends at the first sentinel. -/
lemma append_sentinel_prefix_iff {a : α} {l m rest : List α} (hl : a ∉ l)
    (hm : a ∉ m) : l ++ [a] <+: m ++ a :: rest ↔ l = m := by
  induction l generalizing m with
  | nil =>
    cases m with
    | nil => simp
    | cons c m =>
      have hne : ¬ a = c := fun h => hm (h ▸ List.mem_cons_self)
      simp [hne]
  | cons b l ih =>
    rw [List.mem_cons, not_or] at hl
    cases m with
    | nil => simp [Ne.symm hl.1]
    | cons c m =>
      rw [List.mem_cons, not_or] at hm
      rw [List.cons_append, List.cons_append, List.cons_prefix_cons, ih hl.2 hm.2, List.cons.injEq]

/-- What holds wherever a list can be cut holds at its head, and wherever the rest can be cut. -/
lemma forall_cut_cons_iff {P : List α → α → List α → Prop} {b : α} {l : List α} :
    (∀ front a back, b :: l = front ++ a :: back → P front a back) ↔
      P [] b l ∧ ∀ front a back, l = front ++ a :: back → P (b :: front) a back := by
  constructor
  · intro h
    refine ⟨h [] b l rfl, fun front a back hl => h (b :: front) a back ?_⟩
    rw [hl, List.cons_append]
  · rintro ⟨hhead, hrest⟩ front a back hl
    cases front with
    | nil =>
      obtain ⟨rfl, rfl⟩ := List.cons.inj hl
      exact hhead
    | cons c front =>
      obtain ⟨rfl, rfl⟩ := List.cons.inj hl
      exact hrest front a back rfl

/-- Where an element is cut out of a list that one was added behind. -/
lemma concat_eq_append_cons_iff {l front back : List α} {a b : α} :
    l ++ [a] = front ++ b :: back ↔
      back = [] ∧ l = front ∧ a = b ∨ ∃ rest, back = rest ++ [a] ∧ l = front ++ b :: rest := by
  constructor
  · intro h
    rcases List.eq_nil_or_concat' back with rfl | ⟨rest, c, rfl⟩
    · obtain ⟨hl, hab⟩ := List.append_inj' h rfl
      exact .inl ⟨rfl, hl, (List.cons.inj hab).1⟩
    · rw [← List.cons_append, ← List.append_assoc] at h
      obtain ⟨hl, hac⟩ := List.append_inj' h rfl
      exact .inr ⟨rest, by rw [(List.cons.inj hac).1], hl⟩
  · rintro (⟨rfl, rfl, rfl⟩ | ⟨rest, rfl, rfl⟩)
    · rfl
    · rw [List.append_assoc, List.cons_append]

/-- What stops a prefix stops it whatever stands behind. -/
lemma takeWhile_append_of_exists {p : α → Bool} {l : List α} (h : ∃ a ∈ l, p a = false)
    (m : List α) : (l ++ m).takeWhile p = l.takeWhile p := by
  induction l with
  | nil => simp at h
  | cons a l ih =>
    rw [List.cons_append, List.takeWhile_cons, List.takeWhile_cons]
    by_cases ha : p a
    · rw [if_pos ha, if_pos ha, ih (by simpa [ha] using h)]
    · rw [if_neg ha, if_neg ha]

lemma takeWhile_concat_of_stop {p : α → Bool} {a : α} (ha : p a = false) (l : List α) :
    (l ++ [a]).takeWhile p = l.takeWhile p := by
  induction l with
  | nil => simp [ha]
  | cons b l ih => rw [List.cons_append, List.takeWhile_cons, List.takeWhile_cons, ih]

/-! ### Elements by their origin -/

section Origin

variable [DecidableEq β] {own : α → List β}

lemma filter_own_eq_nil_iff {l : List α} {a : α} :
    (l.flatMap own).filter (· ∈ own a) = [] ↔ ∀ b ∈ l, (own a).Disjoint (own b) := by
  simp only [List.filter_eq_nil_iff, List.mem_flatMap, decide_eq_true_eq, List.disjoint_left]
  grind

/-- What comes from some origin, sought among what comes from all of them, is found as it is when
no other origin has any of it. -/
lemma filter_own_eq_self_iff {front back : List α} {a : α} :
    ((front ++ a :: back).flatMap own).filter (· ∈ own a) = own a ↔
      ∀ b ∈ front ++ back, (own a).Disjoint (own b) := by
  have hself : (own a).filter (· ∈ own a) = own a := List.filter_eq_self.mpr (by simp)
  rw [List.flatMap_append, List.flatMap_cons, List.filter_append, List.filter_append, hself,
    List.forall_mem_append, ← filter_own_eq_nil_iff, ← filter_own_eq_nil_iff]
  constructor
  · intro h
    have hlen := congrArg List.length h
    simp only [List.length_append] at hlen
    exact ⟨List.length_eq_zero_iff.mp (by omega), List.length_eq_zero_iff.mp (by omega)⟩
  · rintro ⟨hfront, hback⟩
    rw [hfront, hback, List.nil_append, List.append_nil]

/-- Every origin gets back its own exactly when no two share an element. -/
lemma forall_filter_own_iff {l : List α} :
    (∀ a ∈ l, (l.flatMap own).filter (· ∈ own a) = own a) ↔
      l.Pairwise fun a b => (own a).Disjoint (own b) := by
  constructor
  · intro h
    have hsplit : ∀ front back, l = front ++ back →
        back.Pairwise fun a b => (own a).Disjoint (own b) := by
      intro front back hl
      induction back generalizing front with
      | nil => exact List.Pairwise.nil
      | cons a back ih =>
        have ha := h a (by simp [hl])
        rw [hl, filter_own_eq_self_iff] at ha
        exact List.pairwise_cons.mpr ⟨fun b hb => ha b (List.mem_append_right _ hb),
          ih (front ++ [a]) (by simp [hl])⟩
    exact hsplit [] l rfl
  · intro h a ha
    obtain ⟨front, back, rfl⟩ := List.append_of_mem ha
    rw [List.pairwise_append, List.pairwise_cons] at h
    rw [filter_own_eq_self_iff, List.forall_mem_append]
    exact ⟨fun b hb c hca hcb => h.2.2 b hb a List.mem_cons_self hcb hca, h.2.1.1⟩

end Origin

end Lists
