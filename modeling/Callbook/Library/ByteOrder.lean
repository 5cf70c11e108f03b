import Mathlib

/-!
# Byte strings and their order

Byte strings are lists of `UInt8`. Their lexicographic order is the one Mathlib puts on lists
over a linear order, so `UInt8` is given its linear order here.
-/

instance byteLinearOrder : LinearOrder UInt8 where
  le_refl := UInt8.le_refl
  le_trans _ _ _ := UInt8.le_trans
  le_antisymm _ _ := UInt8.le_antisymm
  le_total := UInt8.le_total
  lt_iff_le_not_ge a b := by
    simp only [UInt8.le_iff_toNat_le, UInt8.lt_iff_toNat_lt]
    omega
  toDecidableLE := inferInstance
  toDecidableLT := inferInstance
  toOrd := inferInstance
  compare_eq_compareOfLessAndEq _ _ := rfl

/-- A byte string; text is held as its UTF-8 bytes. -/
abbrev Bytes := List UInt8

instance byteLawfulBEq : LawfulBEq UInt8 := inferInstance

instance bytesLawfulBEq : LawfulBEq Bytes := inferInstance

/-- The bytes of an ASCII literal. -/
def ascii (s : String) : Bytes := s.toList.map fun c => UInt8.ofNat c.toNat

namespace ByteOrder

/-- A proper extension is larger, so a key sorts before every longer key it begins. -/
lemma lt_append {a b : Bytes} (h : b ≠ []) : a < a ++ b := by
  induction a with
  | nil =>
    obtain ⟨y, b, rfl⟩ := List.exists_cons_of_ne_nil h
    exact List.nil_lt_cons y b
  | cons x a ih => simpa using ih

lemma le_append (a b : Bytes) : a ≤ a ++ b := by
  rcases eq_or_ne b [] with rfl | hb
  · simp
  · exact (lt_append hb).le

/-- What two strings share in front does not order them. -/
lemma append_lt_append_iff {a b c : Bytes} : a ++ b < a ++ c ↔ b < c := by
  induction a with
  | nil => rfl
  | cons x a ih => rw [List.cons_append, List.cons_append, List.cons_lt_cons_self, ih]

lemma head_le_of_le {x y : UInt8} {a b : Bytes} (h : x :: a ≤ y :: b) : x ≤ y := by
  rcases h.lt_or_eq with h | h
  · exact List.head_le_of_lt h
  · rw [List.cons.injEq] at h
    exact h.1.le

/-- The comparison of byte strings is their order. -/
lemma compare_eq_lt_iff {a b : Bytes} : compare a b = .lt ↔ a < b := by
  induction a generalizing b with
  | nil => cases b <;> simp [compare, List.compareLex]
  | cons x a ih =>
    cases b with
    | nil => simp [compare, List.compareLex]
    | cons y b =>
      have h : compare (x :: a) (y :: b) = (compare x y).then (compare a b) :=
        List.compareLex_cons_cons
      rw [h, Ordering.then_eq_lt, ih, compare_lt_iff_lt, compare_eq_iff_eq, List.cons_lt_cons_iff]

lemma le_of_prefix {a b : Bytes} (h : a <+: b) : a ≤ b := by
  obtain ⟨t, rfl⟩ := h
  exact le_append a t

/-- A key behind `a` that `a` does not begin is behind everything that `a` begins. -/
lemma lt_of_not_prefix {a b c : Bytes} (hab : a ≤ b) (hb : ¬ a <+: b) (hc : a <+: c) : c < b := by
  induction a generalizing b c with
  | nil => exact absurd List.nil_prefix hb
  | cons x a ih =>
    obtain ⟨t, rfl⟩ := hc
    cases b with
    | nil => exact absurd hab (by simp)
    | cons y b =>
      rcases (head_le_of_le hab).lt_or_eq with hlt | rfl
      · exact List.cons_lt_cons_iff.mpr (Or.inl hlt)
      · have hab' : a ≤ b := by
          rcases hab.lt_or_eq with h | h
          · exact (List.cons_lt_cons_self.mp h).le
          · exact (List.cons.inj h).2.le
        refine List.cons_lt_cons_self.mpr (ih hab' (fun h => hb ?_) (List.prefix_append a t))
        exact List.cons_prefix_cons.mpr ⟨rfl, h⟩

/-- Padding with a byte below those of the texts keeps their order. -/
lemma append_replicate_lt_iff {p : UInt8} {a b : Bytes} {m n : ℕ} (ha : ∀ x ∈ a, p < x)
    (hb : ∀ x ∈ b, p < x) (hlen : a.length + m = b.length + n) :
    a ++ List.replicate m p < b ++ List.replicate n p ↔ a < b := by
  induction a generalizing b with
  | nil =>
    cases b with
    | nil =>
      obtain rfl : m = n := by simpa using hlen
      simp
    | cons y b =>
      obtain rfl : m = b.length + n + 1 := by
        simp only [List.length_nil, List.length_cons] at hlen
        omega
      rw [List.replicate_succ]
      simp [List.cons_lt_cons_iff, hb y List.mem_cons_self]
  | cons x a ih =>
    cases b with
    | nil =>
      obtain rfl : n = a.length + m + 1 := by
        simp only [List.length_nil, List.length_cons] at hlen
        omega
      have hx := ha x List.mem_cons_self
      rw [List.replicate_succ]
      simp [List.cons_lt_cons_iff, hx.not_gt, hx.ne']
    | cons y b =>
      have hlen' : a.length + m = b.length + n := by
        simp only [List.length_cons] at hlen
        omega
      rw [List.cons_append, List.cons_append, List.cons_lt_cons_iff, List.cons_lt_cons_iff,
        ih (fun z hz => ha z (List.mem_cons_of_mem _ hz))
          (fun z hz => hb z (List.mem_cons_of_mem _ hz)) hlen']

end ByteOrder
