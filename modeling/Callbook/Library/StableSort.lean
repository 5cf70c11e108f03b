import Callbook.Library.ByteOrder

/-!
# Stable sorting by a comparison

`sortBy cmp` is the stable sort of a list by a three-way comparison. Its result is described
through positions: an element stands before another exactly when it compares less, or compares
equal and stood first in the input.
-/

namespace StableSort

variable {α : Type*} (cmp : α → α → Ordering)

/-- `a` may stand before `b`. -/
def NotGreater (a b : α) : Prop := cmp a b ≠ .gt

instance : DecidableRel (NotGreater cmp) := fun a b => inferInstanceAs (Decidable (cmp a b ≠ .gt))

/-- Stable sort of a list by a comparison. -/
def sortBy (l : List α) : List α := l.insertionSort (NotGreater cmp)

lemma sortBy_perm (l : List α) : (sortBy cmp l).Perm l := List.perm_insertionSort _ l

@[simp] lemma mem_sortBy {a : α} {l : List α} : a ∈ sortBy cmp l ↔ a ∈ l :=
  (sortBy_perm cmp l).mem_iff

/-- A list that stands in order is left as it is. -/
lemma sortBy_eq_self {l : List α} (h : l.Pairwise (NotGreater cmp)) : sortBy cmp l = l :=
  h.insertionSort_eq

/-- Dropping repeated neighbours (`Vec::dedup`) drops no element. -/
lemma mem_destutter_ne {α : Type*} [DecidableEq α] {a : α} {l : List α} :
    a ∈ l.destutter (· ≠ ·) ↔ a ∈ l := by
  cases l with
  | nil => rfl
  | cons b l =>
    rw [List.destutter_cons']
    induction l generalizing b with
    | nil => simp
    | cons c l ih =>
      rw [List.destutter'_cons]
      split_ifs with hne
      · rw [List.mem_cons, ih, ← List.mem_cons]
      · obtain rfl := not_not.mp hne
        rw [ih, List.mem_cons, List.mem_cons, List.mem_cons]
        tauto

section Sorted

variable {cmp} [Std.TransCmp cmp]

lemma notGreater_of_not {a b : α} (h : ¬ NotGreater cmp a b) : NotGreater cmp b a := by
  intro hgt
  rw [NotGreater, not_not] at h
  rw [@Std.OrientedCmp.eq_swap _ cmp, h] at hgt
  simp at hgt

instance : Std.Total (NotGreater cmp) where
  total _ _ := or_iff_not_imp_left.mpr notGreater_of_not

instance : IsTrans α (NotGreater cmp) where
  trans a b c hab hbc := by
    simp only [NotGreater, Ordering.ne_gt_iff_isLE] at *
    exact Std.TransCmp.isLE_trans hab hbc

variable (cmp) in
lemma sorted_sortBy (l : List α) : (sortBy cmp l).Pairwise (NotGreater cmp) :=
  List.pairwise_insertionSort _ l

/-- A list in order without repeated neighbours is strictly increasing. -/
lemma pairwise_lt_destutter [DecidableEq α] [Std.LawfulEqCmp cmp] {l : List α}
    (h : l.Pairwise (NotGreater cmp)) : (l.destutter (· ≠ ·)).Pairwise (cmp · · = .lt) := by
  have : Trans (cmp · · = .lt) (cmp · · = .lt) (cmp · · = .lt) := ⟨Std.TransCmp.lt_trans⟩
  have hsorted := h.sublist (List.destutter_sublist (· ≠ ·) l)
  have hchain := List.isChain_destutter (· ≠ ·) l
  rw [List.pairwise_iff_getElem] at hsorted
  rw [List.isChain_iff_getElem] at hchain
  refine List.IsChain.pairwise (List.isChain_iff_getElem.mpr fun i hi => ?_)
  have hle := hsorted i (i + 1) (by omega) hi (Nat.lt_succ_self i)
  cases hcmp : cmp (l.destutter (· ≠ ·))[i] (l.destutter (· ≠ ·))[i + 1] with
  | lt => rfl
  | eq => exact absurd (Std.LawfulEqCmp.eq_of_compare hcmp) (hchain i hi)
  | gt => exact absurd hcmp hle

end Sorted

/-! ### Positions -/

/-- `a` stands before `b`: it compares less, or it compares equal and stood first. -/
def Precedes (a b : α × ℕ) : Prop :=
  cmp a.1 b.1 = .lt ∨ cmp a.1 b.1 = .eq ∧ a.2 < b.2

lemma Precedes.asymm [Std.TransCmp cmp] {a b : α × ℕ} (h : Precedes cmp a b) :
    ¬ Precedes cmp b a := by
  have hswap : cmp b.1 a.1 = (cmp a.1 b.1).swap := Std.OrientedCmp.eq_swap
  rcases h with h | ⟨h, hpos⟩ <;> rw [Precedes, hswap, h]
  · simp
  · simp; omega

/-- Sort a list whose elements carry their input positions. -/
def sortTagged (l : List (α × ℕ)) : List (α × ℕ) :=
  l.insertionSort fun a b => NotGreater cmp a.1 b.1

lemma mem_sortTagged {a : α × ℕ} {l : List (α × ℕ)} : a ∈ sortTagged cmp l ↔ a ∈ l :=
  (List.perm_insertionSort _ l).mem_iff

lemma map_fst_sortTagged (l : List (α × ℕ)) :
    (sortTagged cmp l).map Prod.fst = sortBy cmp (l.map Prod.fst) :=
  List.map_insertionSort _ _ _ l fun _ _ _ _ => Iff.rfl

lemma pairwise_precedes_orderedInsert [Std.TransCmp cmp] {a : α × ℕ} {l : List (α × ℕ)}
    (hl : l.Pairwise (Precedes cmp)) (ha : ∀ b ∈ l, a.2 < b.2) :
    (l.orderedInsert (fun a b => NotGreater cmp a.1 b.1) a).Pairwise (Precedes cmp) := by
  induction l with
  | nil => simp
  | cons b l ih =>
    rw [List.pairwise_cons] at hl
    have hab : a.2 < b.2 := ha b (by simp)
    rw [List.orderedInsert]
    split_ifs with h
    · -- `a` goes in front of everything that is not smaller
      have hfirst : Precedes cmp a b := by
        rcases hc : cmp a.1 b.1 with _ | _ | _
        · exact Or.inl hc
        · exact Or.inr ⟨hc, hab⟩
        · exact absurd hc h
      refine List.pairwise_cons.mpr ⟨fun c hc => ?_, List.pairwise_cons.mpr hl⟩
      rcases List.mem_cons.mp hc with rfl | hc
      · exact hfirst
      · have hac : a.2 < c.2 := ha c (List.mem_cons_of_mem _ hc)
        rcases hfirst with hlt | ⟨heq, -⟩
        · rcases hl.1 c hc with h' | ⟨h', -⟩
          · exact Or.inl (Std.TransCmp.lt_trans hlt h')
          · exact Or.inl (Std.TransCmp.lt_of_lt_of_eq hlt h')
        · rcases hl.1 c hc with h' | ⟨h', -⟩
          · exact Or.inl (Std.TransCmp.lt_of_eq_of_lt heq h')
          · exact Or.inr ⟨Std.TransCmp.eq_trans heq h', hac⟩
    · refine List.pairwise_cons.mpr
        ⟨fun c hc => ?_, ih hl.2 fun c hc => ha c (List.mem_cons_of_mem _ hc)⟩
      rcases List.mem_cons.mp ((List.perm_orderedInsert _ _ _).mem_iff.mp hc) with rfl | hc
      · rw [NotGreater, not_not] at h
        exact Or.inl (by rw [@Std.OrientedCmp.eq_swap _ cmp, h]; rfl)
      · exact hl.1 c hc

/-- The stable order: sorting leaves no element behind one that it precedes. -/
theorem pairwise_sortTagged [Std.TransCmp cmp] {l : List (α × ℕ)}
    (hl : l.Pairwise fun a b => a.2 < b.2) : (sortTagged cmp l).Pairwise (Precedes cmp) := by
  induction l with
  | nil => simp [sortTagged]
  | cons a l ih =>
    rw [List.pairwise_cons] at hl
    rw [sortTagged, List.insertionSort_cons]
    refine pairwise_precedes_orderedInsert cmp (ih hl.2) fun b hb => hl.1 b ?_
    exact (List.perm_insertionSort _ l).mem_iff.mp hb

end StableSort
