import Callbook.Country.Priority

/-!
# What a prefix range means

A call is compared with the bounds of a range over as many characters as both have. A call that is
as long as the bounds is in range when its head stands between them; a shorter one is compared with
the heads of the bounds, unless the two are equal.
-/

namespace Callbook

open Text

section Ranges

variable {call start «end» : Str}

lemma prefixRangeMatches_self (call start : Str) :
    prefixRangeMatches call start start = .ok (start.isPrefixOf call) := if_pos rfl

/-- On ASCII bounds of equal length nothing is cut inside a character. -/
lemma prefixRangeMatches_of_ne (hcall : ∀ b ∈ call, b < 0x80) (hstart : ∀ b ∈ start, b < 0x80)
    (hend : ∀ b ∈ «end», b < 0x80) (hlen : start.length = «end».length) (hne : start ≠ «end») :
    prefixRangeMatches call start «end» =
      .ok (start.take call.length ≤ call.take start.length &&
        call.take start.length ≤ «end».take call.length) := by
  have hwidth : min start.length call.length ≤ call.length := min_le_right _ _
  have hhead : min start.length (min start.length call.length) ≤ start.length := min_le_left _ _
  have htail : min start.length (min start.length call.length) ≤ «end».length := by
    rw [← hlen]
    exact hhead
  rw [prefixRangeMatches, if_neg hne, ← hlen, max_self]
  simp only [Panic.strTake_eq_ok (Utf8.isCharBoundary_of_ascii hcall hwidth),
    Panic.strTake_eq_ok (Utf8.isCharBoundary_of_ascii hstart hhead),
    Panic.strTake_eq_ok (Utf8.isCharBoundary_of_ascii hend htail), Panic.ok_bind]
  have hcallHead : call.take (min start.length call.length) = call.take start.length :=
    List.take_eq_take_iff.mpr (by omega)
  have hstartHead : start.take (min start.length (min start.length call.length)) =
      start.take call.length := List.take_eq_take_iff.mpr (by omega)
  have hendHead : «end».take (min start.length (min start.length call.length)) =
      «end».take call.length := List.take_eq_take_iff.mpr (by omega)
  rw [hcallHead, hstartHead, hendHead]
  rfl

/-- A call that is as long as the bounds matches when its head stands between them. A shorter one
matches when the bounds differ and it stands between their heads. -/
theorem prefixRangeMatches_spec (hcall : ∀ b ∈ call, b < 0x80) (hstart : ∀ b ∈ start, b < 0x80)
    (hend : ∀ b ∈ «end», b < 0x80) (hlen : start.length = «end».length) :
    ∃ found, prefixRangeMatches call start «end» = .ok found ∧
      (start.length ≤ call.length → (found = true ↔
        start ≤ call.take start.length ∧ call.take start.length ≤ «end»)) ∧
      (call.length < start.length → (found = true ↔
        start ≠ «end» ∧ start.take call.length ≤ call ∧ call ≤ «end».take call.length)) := by
  by_cases heq : start = «end»
  · subst heq
    refine ⟨_, prefixRangeMatches_self call start, fun hle => ?_, fun hlt => ?_⟩
    · rw [List.isPrefixOf_iff_prefix, List.prefix_iff_eq_take]
      exact ⟨fun h => ⟨h.le, h.ge⟩, fun h => le_antisymm h.1 h.2⟩
    · rw [List.isPrefixOf_iff_prefix]
      refine iff_of_false (fun h => ?_) (fun h => h.1 rfl)
      exact absurd h.length_le (not_le.mpr hlt)
  · refine ⟨_, prefixRangeMatches_of_ne hcall hstart hend hlen heq, fun hle => ?_, fun hlt => ?_⟩
    · have hstartHead : start.take call.length = start := List.take_of_length_le hle
      have hendHead : «end».take call.length = «end» := List.take_of_length_le (hlen ▸ hle)
      rw [Bool.and_eq_true, decide_eq_true_eq, decide_eq_true_eq, hstartHead, hendHead]
    · have hcallHead : call.take start.length = call := List.take_of_length_le hlt.le
      rw [Bool.and_eq_true, decide_eq_true_eq, decide_eq_true_eq, hcallHead]
      exact ⟨fun h => ⟨heq, h⟩, fun h => h.2⟩

theorem prefixRangeMatches_bounds : ∃ found,
    prefixRangeMatches (ascii "KD") (ascii "KA") (ascii "KZ") = .ok found := by
  obtain ⟨found, hfound, -⟩ := @prefixRangeMatches_spec (ascii "KD") (ascii "KA") (ascii "KZ")
    (by decide +kernel) (by decide +kernel) (by decide +kernel) (by decide +kernel)
  exact ⟨found, hfound⟩

/-- A call of one letter matches a range whose bounds have two. -/
theorem not_prefixRangeMatches_short : ¬ ∀ call start «end» : Str, (∀ b ∈ call, b < 0x80) →
    (∀ b ∈ start, b < 0x80) → (∀ b ∈ «end», b < 0x80) → start.length = «end».length →
    1 ≤ start.length → start ≤ «end» → (prefixRangeMatches call start «end» = .ok true ↔
      start.length ≤ call.length ∧ start ≤ call.take start.length ∧
        call.take start.length ≤ «end») := by
  intro h
  have hlen : (ascii "KA").length = (ascii "KZ").length := by decide +kernel
  have hshort := h (ascii "K") (ascii "KA") (ascii "KZ") (by decide +kernel) (by decide +kernel)
    (by decide +kernel) hlen (by decide) (by decide +kernel)
  exact absurd (hshort.mp (by decide +kernel)).1 (by decide)

end Ranges

end Callbook
