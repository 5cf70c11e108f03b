import Mathlib.Data.List.Nodup

/-!
# Keyed lists

`upsert` merges an element into the first element of its key, or adds it behind. The keys of the
list stay distinct, and no element of the list or of what is added loses its place.
-/

variable {α κ : Type*} [DecidableEq κ] (key : α → κ) (merge : α → α → α)

/-- Merge `a` into the first element of its key, or add it behind. -/
def upsert : List α → α → List α
  | [], a => [a]
  | b :: l, a => if key b = key a then merge b a :: l else b :: upsert l a

namespace Upsert

variable {key merge}

/-- Every element comes from the list, from what is added, or from a merge of both. -/
lemma mem_upsert {l : List α} {a b : α} (h : b ∈ upsert key merge l a) :
    b = a ∨ b ∈ l ∨ ∃ c ∈ l, key c = key a ∧ b = merge c a := by
  induction l with
  | nil =>
    rw [upsert, List.mem_singleton] at h
    exact .inl h
  | cons c l ih =>
    rw [upsert] at h
    split_ifs at h with hkey
    · rw [List.mem_cons] at h
      rcases h with rfl | h
      · exact .inr (.inr ⟨c, List.mem_cons_self, hkey, rfl⟩)
      · exact .inr (.inl (List.mem_cons_of_mem _ h))
    · rw [List.mem_cons] at h
      rcases h with rfl | h
      · exact .inr (.inl List.mem_cons_self)
      · rcases ih h with h | h | ⟨d, hd, hkey, h⟩
        · exact .inl h
        · exact .inr (.inl (List.mem_cons_of_mem _ h))
        · exact .inr (.inr ⟨d, List.mem_cons_of_mem _ hd, hkey, h⟩)

/-- What is added stands in the list, alone or merged. -/
lemma exists_mem_upsert (l : List α) (a : α) :
    a ∈ upsert key merge l a ∨
      ∃ c ∈ l, key c = key a ∧ merge c a ∈ upsert key merge l a := by
  induction l with
  | nil => exact .inl (List.mem_singleton.mpr rfl)
  | cons c l ih =>
    rw [upsert]
    split_ifs with hkey
    · exact .inr ⟨c, List.mem_cons_self, hkey, List.mem_cons_self⟩
    · exact ih.imp (List.mem_cons_of_mem _) fun ⟨d, hd, hkey, h⟩ =>
        ⟨d, List.mem_cons_of_mem _ hd, hkey, List.mem_cons_of_mem _ h⟩

/-- What stood in the list stands in it, alone or merged. -/
lemma mem_or_merge_mem_upsert {l : List α} {b : α} (h : b ∈ l) (a : α) :
    b ∈ upsert key merge l a ∨ key b = key a ∧ merge b a ∈ upsert key merge l a := by
  induction l with
  | nil => simp at h
  | cons c l ih =>
    rw [upsert]
    rw [List.mem_cons] at h
    split_ifs with hkey
    · rcases h with rfl | h
      · exact .inr ⟨hkey, List.mem_cons_self⟩
      · exact .inl (List.mem_cons_of_mem _ h)
    · rcases h with rfl | h
      · exact .inl List.mem_cons_self
      · exact (ih h).imp (List.mem_cons_of_mem _) (And.imp_right (List.mem_cons_of_mem _))

/-- A key that the list does not have is added behind. -/
lemma upsert_eq_append {l : List α} {a : α} (h : ∀ b ∈ l, key b ≠ key a) :
    upsert key merge l a = l ++ [a] := by
  induction l with
  | nil => rfl
  | cons b l ih =>
    rw [List.forall_mem_cons] at h
    rw [upsert, if_neg h.1, ih h.2, List.cons_append]

/-- Elements with distinct keys are added as they stand. -/
lemma foldl_upsert_eq_append {l as : List α} (h : ((l ++ as).map key).Nodup) :
    as.foldl (upsert key merge) l = l ++ as := by
  induction as generalizing l with
  | nil => simp
  | cons a as ih =>
    have hfresh : ∀ b ∈ l, key b ≠ key a := by
      intro b hb heq
      rw [List.map_append, List.map_cons, List.nodup_append] at h
      exact h.2.2 _ (List.mem_map_of_mem hb) _ List.mem_cons_self heq
    rw [List.foldl_cons, upsert_eq_append hfresh, ih (by simpa using h)]
    simp

section Keys

variable (hmerge : ∀ a b, key (merge a b) = key a)

include hmerge

lemma map_key_upsert (l : List α) (a : α) : (upsert key merge l a).map key =
    if key a ∈ l.map key then l.map key else l.map key ++ [key a] := by
  induction l with
  | nil => simp [upsert]
  | cons b l ih =>
    rw [upsert]
    by_cases hkey : key b = key a
    · rw [if_pos hkey, if_pos (by simp [hkey]), List.map_cons, hmerge, List.map_cons]
    · rw [if_neg hkey, List.map_cons, ih, List.map_cons]
      have hmem : key a ∈ key b :: l.map key ↔ key a ∈ l.map key := by
        simp [Ne.symm hkey]
      simp only [hmem]
      split_ifs <;> rfl

/-- The keys are those of the list and of what is added. -/
lemma mem_map_key_upsert {l : List α} {a : α} {k : κ} :
    k ∈ (upsert key merge l a).map key ↔ k ∈ l.map key ∨ k = key a := by
  rw [map_key_upsert hmerge]
  split_ifs with hmem
  · constructor
    · exact .inl
    · rintro (h | rfl)
      · exact h
      · exact hmem
  · rw [List.mem_append, List.mem_singleton]

/-- Distinct keys stay distinct. -/
theorem nodup_map_key_upsert {l : List α} (h : (l.map key).Nodup) (a : α) :
    ((upsert key merge l a).map key).Nodup := by
  rw [map_key_upsert hmerge]
  split_ifs with hmem
  · exact h
  · refine List.nodup_append.mpr ⟨h, List.nodup_singleton _, fun k hk k' hk' heq => ?_⟩
    rw [List.mem_singleton] at hk'
    exact hmem (hk' ▸ heq ▸ hk)

lemma nodup_map_key_foldl {l : List α} (h : (l.map key).Nodup) (as : List α) :
    ((as.foldl (upsert key merge) l).map key).Nodup := by
  induction as generalizing l with
  | nil => exact h
  | cons a as ih => exact ih (nodup_map_key_upsert hmerge h a)

end Keys

end Upsert
