import Callbook.Library.StableSort

/-!
# What a stable sort keeps

A stable sort leaves the elements that compare equal in their order, and its result is determined by
these classes: two lists that hold the same elements of every class in the same order sort alike.
-/

namespace StableSort

variable {α : Type*} {cmp : α → α → Ordering}

/-- The elements of the class of `c`, in their order. -/
def classOf (cmp : α → α → Ordering) (c : α) (l : List α) : List α :=
  l.filter fun a => cmp c a = .eq

lemma classOf_append (c : α) (l l' : List α) :
    classOf cmp c (l ++ l') = classOf cmp c l ++ classOf cmp c l' := List.filter_append _ _

lemma mem_classOf {a c : α} {l : List α} : a ∈ classOf cmp c l ↔ a ∈ l ∧ cmp c a = .eq := by
  simp [classOf]

lemma classOf_cons (c a : α) (l : List α) :
    classOf cmp c (a :: l) = if cmp c a = .eq then a :: classOf cmp c l else classOf cmp c l := by
  simp [classOf, List.filter_cons]

lemma head_mem_classOf [Std.ReflCmp cmp] (a : α) (l : List α) : a ∈ classOf cmp a (a :: l) :=
  mem_classOf.mpr ⟨List.mem_cons_self, Std.ReflCmp.compare_self⟩

section

variable [Std.TransCmp cmp]

/-- An element that is put in its place stays in front of its equals. -/
lemma classOf_orderedInsert (c a : α) (l : List α) :
    classOf cmp c (l.orderedInsert (NotGreater cmp) a) = classOf cmp c (a :: l) := by
  induction l with
  | nil => rfl
  | cons b l ih =>
    rw [List.orderedInsert_cons]
    split_ifs with hle
    · rfl
    · -- `b` goes in front of `a`, so the two are in different classes
      have hba : cmp a b = .gt := not_not.mp hle
      rw [classOf_cons, ih, classOf_cons, classOf_cons, classOf_cons]
      by_cases ha : cmp c a = .eq
      · have hb : cmp c b ≠ .eq := by
          intro hb
          have := Std.TransCmp.eq_trans (Std.OrientedCmp.eq_symm ha) hb
          rw [hba] at this
          cases this
        simp [ha, hb]
      · simp [ha]

/-- Sorting keeps every class in its order. -/
theorem classOf_sortBy (c : α) (l : List α) : classOf cmp c (sortBy cmp l) = classOf cmp c l := by
  induction l with
  | nil => rfl
  | cons a l ih =>
    rw [sortBy, List.insertionSort_cons, classOf_orderedInsert, classOf_cons, ← sortBy, ih,
      ← classOf_cons]

lemma notGreater_self (a : α) : NotGreater cmp a a := by
  simp [NotGreater, Std.ReflCmp.compare_self]

/-- Two sorted lists with the same classes are equal. -/
lemma eq_of_classOf_eq {l l' : List α} (hl : l.Pairwise (NotGreater cmp))
    (hl' : l'.Pairwise (NotGreater cmp)) (h : ∀ c, classOf cmp c l = classOf cmp c l') :
    l = l' := by
  induction l generalizing l' with
  | nil =>
    cases l' with
    | nil => rfl
    | cons b l' =>
      have hb : b ∈ classOf cmp b [] := h b ▸ head_mem_classOf b l'
      cases hb
  | cons a l ih =>
    have ha : a ∈ l' := (mem_classOf.mp (h a ▸ head_mem_classOf a l)).1
    cases l' with
    | nil => cases ha
    | cons b l' =>
      have hb : b ∈ a :: l := (mem_classOf.mp ((h b).symm ▸ head_mem_classOf b l')).1
      -- the two heads are not greater than one another, so they begin the same class
      have hab : cmp a b = .eq := by
        have hle : NotGreater cmp a b := by
          rcases List.mem_cons.mp hb with rfl | hb
          · exact notGreater_self b
          · exact List.rel_of_pairwise_cons hl hb
        have hge : NotGreater cmp b a := by
          rcases List.mem_cons.mp ha with rfl | ha
          · exact notGreater_self a
          · exact List.rel_of_pairwise_cons hl' ha
        rw [NotGreater, @Std.OrientedCmp.eq_swap _ cmp] at hge
        rw [NotGreater] at hle
        cases hcmp : cmp a b <;> simp_all
      have hhead := h a
      rw [classOf_cons, classOf_cons, if_pos Std.ReflCmp.compare_self, if_pos hab] at hhead
      obtain rfl := (List.cons.inj hhead).1
      refine congrArg (a :: ·) (ih hl.of_cons hl'.of_cons fun c => ?_)
      have hc := h c
      rw [classOf_cons, classOf_cons] at hc
      split_ifs at hc
      · exact (List.cons.inj hc).2
      · exact hc

/-- Lists with the same classes sort alike. -/
theorem sortBy_eq_of_classOf_eq {l l' : List α} (h : ∀ c, classOf cmp c l = classOf cmp c l') :
    sortBy cmp l = sortBy cmp l' :=
  eq_of_classOf_eq (sorted_sortBy cmp l) (sorted_sortBy cmp l') fun c => by
    rw [classOf_sortBy, classOf_sortBy, h c]

/-- Reordering a list whose equals are the same element leaves its classes as they are. -/
lemma classOf_eq_of_perm {l l' : List α} (hperm : l.Perm l')
    (h : ∀ a ∈ l, ∀ b ∈ l, cmp a b = .eq → a = b) (c : α) : classOf cmp c l = classOf cmp c l' := by
  have hclass : (classOf cmp c l).Perm (classOf cmp c l') := hperm.filter _
  cases hl : classOf cmp c l with
  | nil =>
    rw [hl] at hclass
    exact hclass.nil_eq
  | cons a rest =>
    have hall : ∀ b ∈ classOf cmp c l, b = a := by
      intro b hb
      have ha : a ∈ classOf cmp c l := hl ▸ List.mem_cons_self
      rw [mem_classOf] at ha hb
      exact h b hb.1 a ha.1 (Std.TransCmp.eq_trans (Std.OrientedCmp.eq_symm hb.2) ha.2)
    have hleft := List.eq_replicate_of_mem hall
    have hright := List.eq_replicate_of_mem fun b hb => hall b (hclass.mem_iff.mpr hb)
    rw [← hl, hleft, hright, hclass.length_eq]

/-- The first element of a sorted list that satisfies `p` is not greater than any other that
does. -/
lemma notGreater_of_find?_sortBy {p : α → Bool} {l : List α} {a : α}
    (h : (sortBy cmp l).find? p = some a) :
    a ∈ l ∧ p a ∧ ∀ b ∈ l, p b → NotGreater cmp a b := by
  obtain ⟨hp, before, after, hsplit, hbefore⟩ := List.find?_eq_some_iff_append.mp h
  have hsorted := sorted_sortBy cmp l
  have hmem : ∀ b, b ∈ l ↔ b ∈ before ++ a :: after := fun b => by rw [← hsplit, mem_sortBy]
  refine ⟨(hmem a).mpr (by simp), hp, fun b hb hpb => ?_⟩
  rw [hsplit, List.pairwise_append, List.pairwise_cons] at hsorted
  rcases List.mem_append.mp ((hmem b).mp hb) with hb | hb
  · exact absurd hpb (by simpa using hbefore b hb)
  · rcases List.mem_cons.mp hb with rfl | hb
    · exact notGreater_self b
    · exact hsorted.2.1.1 b hb

end

end StableSort
