import Mathlib.Data.List.Basic
import Mathlib.Data.Nat.Basic
import Mathlib.Order.Basic

/-!
# Sampling a list

A counter runs along a list, and the elements at which it is a multiple of `n` are kept.
-/

namespace Sampling

variable {α : Type*}

/-- The elements at which a counter from `k` on is a multiple of `n`. -/
def every (n : ℕ) : ℕ → List α → List α
  | _, [] => []
  | k, a :: l => if k % n = 0 then a :: every n (k + 1) l else every n (k + 1) l

variable {n : ℕ}

lemma every_append (k : ℕ) (l m : List α) :
    every n k (l ++ m) = every n k l ++ every n (k + l.length) m := by
  induction l generalizing k with
  | nil => rfl
  | cons a l ih =>
    have hcount : k + 1 + l.length = k + (a :: l).length := by
      rw [List.length_cons]
      omega
    rw [List.cons_append, every, every, ih, hcount]
    split_ifs <;> rfl

lemma every_sublist (n k : ℕ) (l : List α) : (every n k l).Sublist l := by
  induction l generalizing k with
  | nil => exact List.Sublist.refl _
  | cons a l ih =>
    rw [every]
    split_ifs
    · exact (ih (k + 1)).cons_cons a
    · exact (ih (k + 1)).cons a

/-- What is kept stands `n` apart, from the first multiple on. -/
lemma getElem?_every {k d : ℕ} (hdvd : n ∣ k + d) (hlt : d < n) (l : List α) (i : ℕ) :
    (every n k l)[i]? = l[d + i * n]? := by
  induction l generalizing k d i with
  | nil => rfl
  | cons a l ih =>
    cases d with
    | zero =>
      -- the counter is due: the next multiple is `n` behind
      have hnext : n ∣ k + 1 + (n - 1) := by
        have hsum : k + 1 + (n - 1) = k + n := by omega
        rw [hsum]
        exact (Nat.dvd_add_left (Nat.dvd_refl n)).mpr hdvd
      have hdue : k % n = 0 := Nat.mod_eq_zero_of_dvd hdvd
      rw [every, if_pos hdue]
      cases i with
      | zero => simp
      | succ i =>
        have hindex : 0 + (i + 1) * n = n - 1 + i * n + 1 := by
          rw [Nat.succ_mul]
          omega
        rw [List.getElem?_cons_succ, ih hnext (by omega), hindex, List.getElem?_cons_succ]
    | succ d =>
      have hnot : k % n ≠ 0 := by
        intro hzero
        have hd := (Nat.dvd_add_right (Nat.dvd_of_mod_eq_zero hzero)).mp hdvd
        exact absurd (Nat.le_of_dvd (Nat.succ_pos d) hd) (not_le.mpr hlt)
      have hnext : n ∣ k + 1 + d := by
        rwa [Nat.add_assoc, Nat.add_comm 1 d]
      have hindex : d + 1 + i * n = d + i * n + 1 := by omega
      rw [every, if_neg hnot, ih hnext (by omega), hindex, List.getElem?_cons_succ]

lemma getElem?_every_zero (hn : 0 < n) (l : List α) (i : ℕ) :
    (every n 0 l)[i]? = l[i * n]? := by
  rw [getElem?_every (Nat.dvd_zero n) hn, Nat.zero_add]

lemma lt_length_every_zero_iff (hn : 0 < n) (l : List α) (i : ℕ) :
    i < (every n 0 l).length ↔ i * n < l.length := by
  rw [← not_iff_not, not_lt, not_lt, ← List.getElem?_eq_none_iff, getElem?_every_zero hn,
    List.getElem?_eq_none_iff]

/-- From the head on, one in `n` elements is kept. -/
lemma length_every_zero (hn : 0 < n) (l : List α) :
    (every n 0 l).length = (l.length + n - 1) / n := by
  refine eq_of_forall_lt_iff fun i => ?_
  have hdiv : i + 1 ≤ (l.length + n - 1) / n ↔ (i + 1) * n ≤ l.length + n - 1 :=
    Nat.le_div_iff_mul_le hn
  rw [Nat.succ_mul] at hdiv
  rw [lt_length_every_zero_iff hn, ← Nat.succ_le_iff (m := i), Nat.succ_eq_add_one, hdiv]
  omega

/-- One element more is one more kept exactly when the others are a multiple of `n`. -/
lemma length_every_concat (n : ℕ) (l : List α) (a : α) :
    (every n 0 (l ++ [a])).length =
      if n ∣ l.length then (every n 0 l).length + 1 else (every n 0 l).length := by
  rw [every_append, List.length_append, Nat.zero_add, every]
  by_cases hdvd : n ∣ l.length
  · rw [if_pos hdvd, if_pos (Nat.mod_eq_zero_of_dvd hdvd)]
    rfl
  · rw [if_neg hdvd, if_neg fun h => hdvd (Nat.dvd_of_mod_eq_zero h)]
    rfl

end Sampling
