import Callbook.Library.Maps

/-!
# Tallies

A tally enters elements into an ordered map one by one: each updates the value of its key, which
starts from an initial value. The value of a key is then what its own elements make of the initial
value, in their order, and only keys with an element have one.
-/

namespace Tally

variable {α β γ : Type*} {cmp : α → α → Ordering}

/-- Update the value of a key, from `init` when the key has none. -/
def update (init : β) (k : α) (f : β → β) (m : Std.ExtTreeMap α β cmp) [Std.TransCmp cmp] :
    Std.ExtTreeMap α β cmp :=
  m.alter k fun found => some (f (found.getD init))

/-- Enter the elements of a list, each under its key. -/
def tally [Std.TransCmp cmp] (init : β) (key : γ → α) (step : β → γ → β)
    (m : Std.ExtTreeMap α β cmp) (l : List γ) : Std.ExtTreeMap α β cmp :=
  l.foldl (fun m c => update init (key c) (step · c) m) m

variable [Std.TransCmp cmp] [Std.LawfulEqCmp cmp] [DecidableEq α] {init : β} {key : γ → α}
  {step : β → γ → β}

lemma getElem?_update (k k' : α) (f : β → β) (m : Std.ExtTreeMap α β cmp) :
    (update init k f m)[k']? = if k = k' then some (f (m[k']?.getD init)) else m[k']? := by
  rw [update, Std.ExtTreeMap.getElem?_alter]
  simp only [Std.LawfulEqCmp.compare_eq_iff_eq]
  split_ifs with h
  · rw [h]
  · rfl

/-! ### Values -/

/-- The value of a key, from a map that has other entries already. -/
lemma getElem?_tally (m : Std.ExtTreeMap α β cmp) (l : List γ) (k : α) :
    (tally init key step m l)[k]? = if ∃ c ∈ l, key c = k
      then some ((l.filter (key · = k)).foldl step (m[k]?.getD init)) else m[k]? := by
  induction l generalizing m with
  | nil => simp [tally]
  | cons c l ih =>
    have hstep : tally init key step m (c :: l) =
        tally init key step (update init (key c) (step · c) m) l := rfl
    rw [hstep, ih, getElem?_update]
    by_cases hkey : key c = k
    · simp only [hkey, if_true, Option.getD_some, List.mem_cons, exists_eq_or_imp, true_or,
        decide_true, List.filter_cons_of_pos, List.foldl_cons]
      split_ifs with hrest
      · rfl
      · -- no later element changes the value
        rw [List.filter_eq_nil_iff.mpr (by simpa using hrest), List.foldl_nil]
    · simp only [hkey, if_false, List.mem_cons, exists_eq_or_imp, false_or, decide_false,
        Bool.false_eq_true, not_false_eq_true, List.filter_cons_of_neg]

lemma mem_keys_tally {l : List γ} {k : α} :
    k ∈ (tally init key step (∅ : Std.ExtTreeMap α β cmp) l).keys ↔ ∃ c ∈ l, key c = k := by
  rw [Std.ExtTreeMap.mem_keys, Std.ExtTreeMap.mem_iff_isSome_getElem?, getElem?_tally]
  split_ifs with h <;> simp [h]

/-- The entries of a tally: the keys, each with what its elements make of the initial value. -/
theorem toList_tally (l : List γ) : (tally init key step (∅ : Std.ExtTreeMap α β cmp) l).toList =
    (tally init key step (∅ : Std.ExtTreeMap α β cmp) l).keys.map
      fun k => (k, (l.filter (key · = k)).foldl step init) := by
  rw [← Std.ExtTreeMap.map_fst_toList_eq_keys, List.map_map]
  refine (List.map_id _).symm.trans (List.map_congr_left fun p hp => ?_)
  have hget := Std.ExtTreeMap.mem_toList_iff_getElem?_eq_some.mp hp
  rw [getElem?_tally] at hget
  split_ifs at hget with h
  · rw [Std.ExtTreeMap.getElem?_empty, Option.getD_none, Option.some.injEq] at hget
    exact Prod.ext rfl hget.symm
  · simp at hget

/-! ### Counts -/

section Counts

variable {σ : Type*} {m : σ → ℕ} {f : σ → γ → σ}

/-- A number that each step raises by a weight ends at the sum of the weights. -/
lemma measure_foldl {w : γ → ℕ} (h : ∀ s c, m (f s c) = m s + w c) (l : List γ) (s : σ) :
    m (l.foldl f s) = m s + (l.map w).sum := by
  induction l generalizing s with
  | nil => rfl
  | cons c l ih => rw [List.foldl_cons, ih, h, List.map_cons, List.sum_cons, Nat.add_assoc]

/-- A number that the steps of some elements raise by one counts these elements. -/
lemma count_foldl {p : γ → Prop} [DecidablePred p]
    (h : ∀ s c, m (f s c) = m s + if p c then 1 else 0) (l : List γ) (s : σ) :
    m (l.foldl f s) = m s + (l.filter p).length := by
  rw [measure_foldl h]
  congr 1
  induction l with
  | nil => rfl
  | cons c l ih =>
    rw [List.map_cons, List.sum_cons, ih, List.filter_cons]
    by_cases hc : p c <;> simp [hc, Nat.add_comm]

/-- Weights sum up to the number of weighted elements exactly when none weighs more than one. -/
lemma sum_map_eq_length_filter_iff {w : γ → ℕ} {l : List γ} :
    (l.map w).sum = (l.filter (0 < w ·)).length ↔ ∀ c ∈ l, w c ≤ 1 := by
  have hle : ∀ l : List γ, (l.filter (0 < w ·)).length ≤ (l.map w).sum := by
    intro l
    induction l with
    | nil => rfl
    | cons c l ih =>
      rw [List.filter_cons, List.map_cons, List.sum_cons]
      split_ifs with h
      · rw [decide_eq_true_eq] at h
        rw [List.length_cons]
        omega
      · omega
  induction l with
  | nil => simp
  | cons c l ih =>
    have hrest := hle l
    rw [List.forall_mem_cons]
    refine Iff.trans ?_ (and_congr_right' ih)
    rw [List.filter_cons, List.map_cons, List.sum_cons]
    split_ifs with h <;> rw [decide_eq_true_eq] at h
    · rw [List.length_cons]
      omega
    · omega

end Counts

/-! ### Sums over the keys -/

/-- Weights summed key by key are the weights of all elements. -/
lemma sum_map_filter (key : γ → α) {ks : List α} (hks : ks.Nodup) {l : List γ}
    (h : ∀ c ∈ l, key c ∈ ks) (w : γ → ℕ) :
    (ks.map fun k => ((l.filter (key · = k)).map w).sum).sum = (l.map w).sum := by
  induction l with
  | nil => simp
  | cons c l ih =>
    rw [List.forall_mem_cons] at h
    have hsplit : ∀ k, (((c :: l).filter (key · = k)).map w).sum =
        (if key c = k then w c else 0) + ((l.filter (key · = k)).map w).sum := by
      intro k
      by_cases hkey : key c = k <;> simp [hkey]
    have hone : (ks.map fun k => if key c = k then w c else 0).sum = w c := by
      rw [← List.sum_toFinset _ hks, Finset.sum_ite_eq, if_pos (List.mem_toFinset.mpr h.1)]
    simp only [hsplit]
    rw [List.sum_map_add, hone, ih h.2, List.map_cons, List.sum_cons]

end Tally
