import Mathlib.Data.Finset.Insert

/-!
# First occurrences

`firsts seen l` are the elements of a list where each stands for the first time, without those that
were seen before.
-/

variable {α : Type*} [DecidableEq α]

/-- The first occurrences of the elements of a list, in their order. -/
def firsts (seen : Finset α) : List α → List α
  | [] => []
  | a :: l => if a ∈ seen then firsts seen l else a :: firsts (insert a seen) l

lemma mem_firsts {seen : Finset α} {l : List α} {a : α} : a ∈ firsts seen l ↔ a ∈ l ∧ a ∉ seen := by
  induction l generalizing seen with
  | nil => simp [firsts]
  | cons b l ih =>
    rw [firsts]
    split_ifs with hseen
    · rw [ih, List.mem_cons]
      constructor
      · rintro ⟨ha, hnew⟩
        exact ⟨.inr ha, hnew⟩
      · rintro ⟨rfl | ha, hnew⟩
        · exact absurd hseen hnew
        · exact ⟨ha, hnew⟩
    · rw [List.mem_cons, ih, List.mem_cons, Finset.mem_insert, not_or]
      constructor
      · rintro (rfl | ⟨ha, -, hnew⟩)
        · exact ⟨.inl rfl, hseen⟩
        · exact ⟨.inr ha, hnew⟩
      · rintro ⟨ha, hnew⟩
        by_cases hab : a = b
        · exact .inl hab
        · exact .inr ⟨ha.resolve_left hab, hab, hnew⟩

lemma nodup_firsts (seen : Finset α) (l : List α) : (firsts seen l).Nodup := by
  induction l generalizing seen with
  | nil => exact List.nodup_nil
  | cons a l ih =>
    rw [firsts]
    split_ifs
    · exact ih seen
    · refine List.nodup_cons.mpr ⟨?_, ih _⟩
      intro ha
      exact (mem_firsts.mp ha).2 (Finset.mem_insert_self a seen)

/-! ### By a key -/

section Key

variable {γ β : Type*} [DecidableEq β] (key : γ → β)

/-- The elements whose keys stand for the first time, without the keys that were seen before. -/
def firstsBy (seen : Finset β) : List γ → List γ
  | [] => []
  | a :: l =>
    if key a ∈ seen then firstsBy seen l else a :: firstsBy (insert (key a) seen) l

lemma firstsBy_sublist (seen : Finset β) (l : List γ) : (firstsBy key seen l).Sublist l := by
  induction l generalizing seen with
  | nil => exact .slnil
  | cons a l ih =>
    rw [firstsBy]
    split_ifs
    · exact (ih seen).cons a
    · exact (ih _).cons_cons a

/-- The keys that are kept are the first ones among the keys. -/
lemma map_firstsBy (seen : Finset β) (l : List γ) :
    (firstsBy key seen l).map key = firsts seen (l.map key) := by
  induction l generalizing seen with
  | nil => rfl
  | cons a l ih =>
    rw [firstsBy, List.map_cons, firsts]
    split_ifs
    · exact ih seen
    · rw [List.map_cons, ih]

end Key

/-! ### The first few -/

/-- A list that steps add to until it has `n` elements ends with the first additions. -/
lemma take_foldl {σ γ β : Type*} {m : σ → List β} {f : σ → γ → σ} {w : γ → Option β} {n : ℕ}
    (h : ∀ s c, m (f s c) = if (m s).length < n then m s ++ (w c).toList else m s) (l : List γ)
    {s : σ} (hs : (m s).length ≤ n) : m (l.foldl f s) = (m s ++ l.filterMap w).take n := by
  induction l generalizing s with
  | nil => rw [List.foldl_nil, List.filterMap_nil, List.append_nil, List.take_of_length_le hs]
  | cons c l ih =>
    rw [List.foldl_cons]
    by_cases hlt : (m s).length < n
    · have hstep : m (f s c) = m s ++ (w c).toList := (h s c).trans (if_pos hlt)
      have hle : (m (f s c)).length ≤ n := by
        rw [hstep, List.length_append]
        cases w c with
        | none => exact hs
        | some b => exact hlt
      rw [ih hle, hstep, List.append_assoc]
      cases hw : w c with
      | none => rw [List.filterMap_cons_none hw, Option.toList_none, List.nil_append]
      | some b => rw [List.filterMap_cons_some hw, Option.toList_some, List.singleton_append]
    · have hstep : m (f s c) = m s := (h s c).trans (if_neg hlt)
      have heq : (m s).length = n := le_antisymm hs (not_lt.mp hlt)
      rw [ih (hstep ▸ hs), hstep, List.take_append_of_le_length heq.ge,
        List.take_append_of_le_length heq.ge]
