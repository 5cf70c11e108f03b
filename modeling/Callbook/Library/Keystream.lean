import Callbook.Library.ByteOrder

/-!
# Position-dependent codes

A code whose symbol at position `i` is translated by `f i`. A stretch of a coded stream can be
translated on its own as long as its position is known.
-/

namespace Keystream

variable {α β γ : Type*} (f : ℕ → α → β)

/-- Translate a stream whose first symbol stands at position `i`. -/
def applyFrom : ℕ → List α → List β
  | _, [] => []
  | i, a :: l => f i a :: applyFrom (i + 1) l

@[simp] lemma applyFrom_nil (i : ℕ) : applyFrom f i [] = [] := rfl

@[simp] lemma applyFrom_cons (i : ℕ) (a : α) (l : List α) :
    applyFrom f i (a :: l) = f i a :: applyFrom f (i + 1) l := rfl

@[simp] lemma length_applyFrom (i : ℕ) (l : List α) : (applyFrom f i l).length = l.length := by
  induction l generalizing i with
  | nil => rfl
  | cons a l ih => simp [ih]

lemma getElem?_applyFrom (i j : ℕ) (l : List α) :
    (applyFrom f i l)[j]? = l[j]?.map (f (i + j)) := by
  induction l generalizing i j with
  | nil => simp
  | cons a l ih =>
    cases j with
    | zero => simp
    | succ j => simp only [applyFrom_cons, List.getElem?_cons_succ, ih]; congr 2; omega

lemma drop_applyFrom (i n : ℕ) (l : List α) :
    (applyFrom f i l).drop n = applyFrom f (i + n) (l.drop n) := by
  induction l generalizing i n with
  | nil => simp
  | cons a l ih =>
    cases n with
    | zero => simp
    | succ n => simp only [applyFrom_cons, List.drop_succ_cons, ih]; congr 1; omega

lemma take_applyFrom (i n : ℕ) (l : List α) :
    (applyFrom f i l).take n = applyFrom f i (l.take n) := by
  induction l generalizing i n with
  | nil => simp
  | cons a l ih =>
    cases n with
    | zero => simp
    | succ n => simp [ih]

lemma applyFrom_append (i : ℕ) (l m : List α) :
    applyFrom f i (l ++ m) = applyFrom f i l ++ applyFrom f (i + l.length) m := by
  induction l generalizing i with
  | nil => simp
  | cons a l ih =>
    simp only [List.cons_append, applyFrom_cons, ih, List.length_cons]
    congr 3
    omega

lemma applyFrom_congr {f g : ℕ → α → β} {i j : ℕ} {l : List α}
    (h : ∀ k < l.length, ∀ a, f (i + k) a = g (j + k) a) : applyFrom f i l = applyFrom g j l := by
  induction l generalizing i j with
  | nil => rfl
  | cons a l ih =>
    rw [applyFrom_cons, applyFrom_cons, show f i a = g j a from h 0 (by simp) a]
    congr 1
    apply ih
    intro k hk b
    have := h (k + 1) (by simpa using hk) b
    rwa [show i + (k + 1) = i + 1 + k by omega, show j + (k + 1) = j + 1 + k by omega] at this

/-- A code that undoes another symbol by symbol undoes it on streams. -/
lemma applyFrom_applyFrom {f : ℕ → α → β} {g : ℕ → β → α} (h : ∀ i a, g i (f i a) = a) (i : ℕ)
    (l : List α) : applyFrom g i (applyFrom f i l) = l := by
  induction l generalizing i with
  | nil => rfl
  | cons a l ih => simp [h, ih]

/-- A code of two masks undoes itself. -/
lemma xor_xor_cancel (b c k : UInt8) : (((b ^^^ c) ^^^ k) ^^^ c) ^^^ k = b := by
  rw [UInt8.xor_assoc b, UInt8.xor_assoc b, UInt8.xor_comm c, UInt8.xor_assoc k c c,
    UInt8.xor_self, UInt8.xor_zero, UInt8.xor_assoc, UInt8.xor_self, UInt8.xor_zero]

end Keystream
