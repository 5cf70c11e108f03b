import Callbook.Library.ByteOrder

/-!
# Binary search

`partitionPoint pred l` halves a range of `l` until one position is left, probing `pred` once per
round. On a list whose leading elements are the ones that satisfy `pred` it counts them; on any
other list it still returns a position of the list or its length.

`searchLoop steer` narrows a range of positions by a three-way test. It finds a position exactly
when every position that it probes on the way there steers towards it.
-/

namespace Bisect

variable {α : Type*}

/-- The halving rounds: the search is down to `size` positions from `base` on. -/
def partitionLoop (pred : α → Bool) (l : List α) : ℕ → ℕ → ℕ → ℕ
  | 0, _, base => base
  | fuel + 1, size, base =>
    if 1 < size then
      let half := size / 2
      let mid := base + half
      partitionLoop pred l fuel (size - half) (if l[mid]?.any pred then mid else base)
    else base

/-- The number of leading elements that satisfy `pred`, found by halving. -/
def partitionPoint (pred : α → Bool) (l : List α) : ℕ :=
  if l.length = 0 then 0
  else
    let base := partitionLoop pred l l.length l.length 0
    if l[base]?.any pred then base + 1 else base

/-- The elements that satisfy `pred` are the first `k` ones. -/
def PartitionedAt (pred : α → Bool) (l : List α) (k : ℕ) : Prop :=
  k ≤ l.length ∧ ∀ i a, l[i]? = some a → (pred a ↔ i < k)

lemma PartitionedAt.any_iff {pred : α → Bool} {l : List α} {k : ℕ} (h : PartitionedAt pred l k)
    (i : ℕ) : l[i]?.any pred ↔ i < k := by
  cases hi : l[i]? with
  | none =>
    have : l.length ≤ i := List.getElem?_eq_none_iff.mp hi
    simpa using h.1.trans this
  | some a => simpa using h.2 i a hi

/-- The loop keeps the last satisfying position inside its range. -/
lemma partitionLoop_eq {pred : α → Bool} {l : List α} {k : ℕ} (h : PartitionedAt pred l k)
    (fuel size base : ℕ) (hfuel : size ≤ fuel) (hlow : base < k ∨ base = 0)
    (hhigh : k ≤ base + size) (hsize : 0 < size) :
    let found := partitionLoop pred l fuel size base
    (found + 1 = k) ∨ (k = 0 ∧ found = 0) := by
  induction fuel generalizing size base with
  | zero => omega
  | succ fuel ih =>
    simp only [partitionLoop]
    split_ifs with h1 h2
    · exact ih (size - size / 2) (base + size / 2) (by omega)
        (Or.inl ((h.any_iff _).mp h2)) (by omega) (by omega)
    · have hk : ¬ base + size / 2 < k := fun hk => h2 ((h.any_iff _).mpr hk)
      exact ih (size - size / 2) base (by omega) hlow (by omega) (by omega)
    · omega

theorem partitionPoint_eq {pred : α → Bool} {l : List α} {k : ℕ} (h : PartitionedAt pred l k) :
    partitionPoint pred l = k := by
  have hk := h.1
  simp only [partitionPoint]
  split_ifs with h0 h1
  · omega
  · have := partitionLoop_eq h l.length l.length 0 le_rfl (Or.inr rfl) (by omega) (by omega)
    have := (h.any_iff _).mp h1
    omega
  · have := partitionLoop_eq h l.length l.length 0 le_rfl (Or.inr rfl) (by omega) (by omega)
    have := mt (h.any_iff _).mpr h1
    omega

/-- A predicate that is downward closed along a sorted list partitions it. -/
lemma partitionedAt_takeWhile {r : α → α → Prop} {pred : α → Bool} {l : List α}
    (hl : l.Pairwise r) (hpred : ∀ a b, r a b → pred b → pred a) :
    PartitionedAt pred l (l.takeWhile pred).length := by
  refine ⟨(List.takeWhile_prefix _).length_le, ?_⟩
  induction l with
  | nil => simp
  | cons a l ih =>
    rw [List.pairwise_cons] at hl
    intro i b hb
    by_cases ha : pred a
    · cases i with
      | zero => simp_all
      | succ i =>
        rw [List.takeWhile_cons_of_pos ha, List.length_cons, Nat.succ_lt_succ_iff]
        exact ih hl.2 i b (by simpa using hb)
    · rw [List.takeWhile_cons_of_neg ha]
      have hb' : ¬ pred b := by
        cases i with
        | zero => simp_all
        | succ i =>
          intro hpb
          exact ha (hpred a b (hl.1 b (List.mem_of_getElem? (by simpa using hb))) hpb)
      simp [hb']

/-! ### Sorted lists -/

section Sorted

variable {r : α → α → Prop} {p : α → Bool} {l : List α}

/-- Behind the partition point of a sorted list stands what does not satisfy the predicate. -/
lemma drop_partitionPoint (hl : l.Pairwise r) (hpred : ∀ a b, r a b → p b → p a) :
    l.drop (partitionPoint p l) = l.dropWhile p := by
  rw [partitionPoint_eq (partitionedAt_takeWhile hl hpred)]
  have hsplit := List.takeWhile_append_dropWhile (p := p) (l := l)
  calc l.drop (l.takeWhile p).length
      = (l.takeWhile p ++ l.dropWhile p).drop (l.takeWhile p).length := by rw [hsplit]
    _ = l.dropWhile p := List.drop_left

lemma head?_dropWhile (p : α → Bool) (l : List α) :
    (l.dropWhile p).head? = l.find? (!p ·) := by
  induction l with
  | nil => rfl
  | cons a l ih => cases h : p a <;> simp [h, ih]

lemma getElem?_partitionPoint (hl : l.Pairwise r) (hpred : ∀ a b, r a b → p b → p a) :
    l[partitionPoint p l]? = l.find? (!p ·) := by
  rw [← head?_dropWhile, ← drop_partitionPoint hl hpred, List.head?_drop]

/-- On a sorted list a run that starts at the partition point holds all its elements. -/
lemma takeWhile_dropWhile_eq_filter {q : α → Bool} (hl : l.Pairwise r)
    (hdown : ∀ a b, r a b → p b → p a) (hpred : ∀ a, q a → p a = false)
    (hkeep : ∀ a b, r a b → p a = false → q a = false → q b = false) :
    (l.dropWhile p).takeWhile q = l.filter q := by
  induction l with
  | nil => rfl
  | cons a l ih =>
    rw [List.pairwise_cons] at hl
    by_cases ha : p a
    · have hka : ¬ q a := fun hka => by simp [hpred a hka] at ha
      rw [List.dropWhile_cons_of_pos ha, List.filter_cons_of_neg hka, ih hl.2]
    · rw [List.dropWhile_cons_of_neg ha]
      by_cases hka : q a
      · have hdrop : l.dropWhile p = l := by
          cases l with
          | nil => rfl
          | cons b l =>
            by_cases hb : p b
            · exact absurd (hdown a b (hl.1 b (by simp)) hb) ha
            · exact List.dropWhile_cons_of_neg hb
        rw [List.takeWhile_cons_of_pos hka, List.filter_cons_of_pos hka, ← ih hl.2, hdrop]
      · have hnone : l.filter q = [] := by
          rw [List.filter_eq_nil_iff]
          intro b hb
          simp [hkeep a b (hl.1 b hb) (by simpa using ha) (by simpa using hka)]
        rw [List.takeWhile_cons_of_neg hka, List.filter_cons_of_neg hka, hnone]

lemma takeWhile_eq_filter (hl : l.Pairwise r) (hpred : ∀ a b, r a b → p b → p a) :
    l.takeWhile p = l.filter p := by
  induction l with
  | nil => rfl
  | cons a l ih =>
    rw [List.pairwise_cons] at hl
    by_cases ha : p a
    · rw [List.takeWhile_cons_of_pos ha, List.filter_cons_of_pos ha, ih hl.2]
    · have hnone : l.filter p = [] := by
        rw [List.filter_eq_nil_iff]
        exact fun b hb hpb => ha (hpred a b (hl.1 b hb) hpb)
      rw [List.takeWhile_cons_of_neg ha, List.filter_cons_of_neg ha, hnone]

lemma partitionPoint_eq_countP (hl : l.Pairwise r) (hpred : ∀ a b, r a b → p b → p a) :
    partitionPoint p l = l.countP p := by
  rw [partitionPoint_eq (partitionedAt_takeWhile hl hpred), takeWhile_eq_filter hl hpred,
    List.countP_eq_length_filter]

lemma take_partitionPoint (hl : l.Pairwise r) (hpred : ∀ a b, r a b → p b → p a) :
    l.take (partitionPoint p l) = l.filter p := by
  rw [partitionPoint_eq (partitionedAt_takeWhile hl hpred), ← takeWhile_eq_filter hl hpred]
  exact List.prefix_iff_eq_take.mp (List.takeWhile_prefix p) |>.symm

lemma dropWhile_eq_filter (hl : l.Pairwise r) (hpred : ∀ a b, r a b → p b → p a) :
    l.dropWhile p = l.filter (!p ·) := by
  induction l with
  | nil => rfl
  | cons a l ih =>
    rw [List.pairwise_cons] at hl
    by_cases ha : p a
    · simp [ha, ih hl.2]
    · have hall : l.filter (!p ·) = l := by
        rw [List.filter_eq_self]
        intro b hb
        by_contra hpb
        exact ha (hpred a b (hl.1 b hb) (by simpa using hpb))
      simp [ha, hall]

/-- The stretch between two partition points holds what satisfies only the later predicate. -/
lemma take_drop_partitionPoint {p' : α → Bool} (hl : l.Pairwise r)
    (hpred : ∀ a b, r a b → p b → p a) (hpred' : ∀ a b, r a b → p' b → p' a)
    (hle : ∀ a, p a → p' a) :
    (l.drop (partitionPoint p l)).take (partitionPoint p' l - partitionPoint p l) =
      l.filter fun a => p' a && !p a := by
  have hcount : partitionPoint p l = partitionPoint p (l.filter p') := by
    rw [partitionPoint_eq_countP hl hpred, partitionPoint_eq_countP (hl.filter _) hpred,
      List.countP_filter]
    refine List.countP_congr fun a _ => ?_
    have := hle a
    grind
  rw [← List.drop_take, take_partitionPoint hl hpred', hcount,
    drop_partitionPoint (hl.filter _) hpred, dropWhile_eq_filter (hl.filter _) hpred,
    List.filter_filter]
  refine List.filter_congr fun a _ => ?_
  rw [Bool.and_comm]

end Sorted

/-! ### Three-way search -/

/-- The search for a position of `[low, high)` at which `steer` is `eq`. -/
def searchLoop (steer : ℕ → Ordering) : ℕ → ℕ → ℕ → Option ℕ
  | 0, _, _ => none
  | fuel + 1, low, high =>
    if low < high then
      let mid := low + (high - low) / 2
      match steer mid with
      | .lt => searchLoop steer fuel (mid + 1) high
      | .gt => searchLoop steer fuel low mid
      | .eq => some mid
    else none

/-- The positions that a search which is steered towards `i` probes before it reaches `i`. -/
def probes (i : ℕ) : ℕ → ℕ → ℕ → List ℕ
  | 0, _, _ => []
  | fuel + 1, low, high =>
    if low < high then
      let mid := low + (high - low) / 2
      if mid < i then mid :: probes i fuel (mid + 1) high
      else if i < mid then mid :: probes i fuel low mid
      else []
    else []

section Search

variable {steer : ℕ → Ordering}

lemma searchLoop_eq_some {fuel low high i : ℕ} (h : searchLoop steer fuel low high = some i) :
    low ≤ i ∧ i < high ∧ steer i = .eq := by
  induction fuel generalizing low high with
  | zero => simp [searchLoop] at h
  | succ fuel ih =>
    simp only [searchLoop] at h
    split_ifs at h with hlt
    split at h
    · have := ih h
      exact ⟨by omega, this.2⟩
    · have := ih h
      exact ⟨this.1, by omega, this.2.2⟩
    · next hmid =>
      cases h
      exact ⟨by omega, by omega, hmid⟩

lemma mem_probes_bounds {i fuel low high m : ℕ} (h : m ∈ probes i fuel low high) :
    low ≤ m ∧ m < high ∧ m ≠ i := by
  induction fuel generalizing low high with
  | zero => simp [probes] at h
  | succ fuel ih =>
    simp only [probes] at h
    split_ifs at h with hlt h1 h2
    · rcases List.mem_cons.mp h with rfl | h
      · omega
      · have := ih h
        omega
    · rcases List.mem_cons.mp h with rfl | h
      · omega
      · have := ih h
        omega
    · simp at h
    · simp at h

/-- A position is found exactly when all probes on the way point to it. -/
theorem searchLoop_eq_some_iff {fuel low high i : ℕ} (hlow : low ≤ i) (hhigh : i < high)
    (hfuel : high - low ≤ fuel) (heq : steer i = .eq) :
    searchLoop steer fuel low high = some i ↔ ∀ m ∈ probes i fuel low high,
      (m < i → steer m = .lt) ∧ (i < m → steer m = .gt) := by
  induction fuel generalizing low high with
  | zero => omega
  | succ fuel ih =>
    have hlt : low < high := by omega
    simp only [searchLoop, probes, if_pos hlt]
    set mid := low + (high - low) / 2 with hmid
    rcases lt_trichotomy mid i with h | h | h
    · rw [if_pos h, List.forall_mem_cons]
      cases hs : steer mid with
      | lt => simpa [h, h.not_gt] using ih (by omega) hhigh (by omega)
      | eq => simp [h, h.ne]
      | gt =>
        have hmiss : searchLoop steer fuel low mid ≠ some i :=
          fun hf => by have := searchLoop_eq_some hf; omega
        simp [hmiss, h]
    · rw [h, heq]
      simp
    · rw [if_neg h.not_gt, if_pos h, List.forall_mem_cons]
      cases hs : steer mid with
      | gt => simpa [h, h.not_gt] using ih hlow h (by omega)
      | eq => simp [h, h.ne']
      | lt =>
        have hmiss : searchLoop steer fuel (mid + 1) high ≠ some i :=
          fun hf => by have := searchLoop_eq_some hf; omega
        simp [hmiss, h]

end Search

end Bisect
