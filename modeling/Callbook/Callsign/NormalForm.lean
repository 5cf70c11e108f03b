import Callbook.Callsign

/-!
# Normal form and order of callsigns

Which texts are callsigns, what is kept of them, and that the padded keys are ordered as the texts
are: the pad byte lies below every byte of a callsign.
-/

namespace Callbook

open Text

namespace Callsign

/-- Text between 1 and 26 characters long, of ASCII letters, digits and slashes. -/
def IsCallsignText (s : Str) : Prop :=
  1 ≤ s.length ∧ s.length ≤ 26 ∧
    ∀ b ∈ s, isAsciiUppercase b ∨ isAsciiLowercase b ∨ isAsciiDigit b ∨ b = 0x2f

/-- `s` is `x` without its leading and trailing ASCII whitespace. -/
def IsStripped (x s : Str) : Prop :=
  ∃ front back, x = front ++ s ++ back ∧ (∀ b ∈ front, isAsciiWhitespace b) ∧
    (∀ b ∈ back, isAsciiWhitespace b) ∧ (∀ b ∈ s.head?, isAsciiWhitespace b = false) ∧
    ∀ b ∈ s.getLast?, isAsciiWhitespace b = false

@[ext] lemma ext {c d : Callsign} (h : c.key = d.key) : c = d := by
  cases c
  cases d
  cases h
  rfl

/-! ### Texts that are callsigns -/

lemma isStripped_iff {x s : Str} : IsStripped x s ↔ s = stripAsciiWhitespace x := by
  constructor
  · rintro ⟨front, back, rfl, hfront, hback, hhead, hlast⟩
    rcases eq_or_ne s [] with rfl | hne
    · rw [stripAsciiWhitespace, List.append_nil, ← List.nil_append (front ++ back),
        trimBy_append_of_forall (by simp)]
      intro b hb
      exact (List.mem_append.mp hb).elim (hfront b) (hback b)
    · exact (trimBy_append_append hfront hback hne hhead hlast).symm
  · rintro rfl
    obtain ⟨front, back, hx, hfront, hback⟩ := exists_trimBy isAsciiWhitespace x
    exact ⟨front, back, hx, hfront, hback, head?_trimBy, getLast?_trimBy⟩

lemma isCallsignChar_toAsciiUppercaseByte {b : UInt8} : isCallsignChar (toAsciiUppercaseByte b) ↔
    isAsciiUppercase b ∨ isAsciiLowercase b ∨ isAsciiDigit b ∨ b = 0x2f := by
  revert b
  decide +kernel

/-- What `parse` asks of the uppercase text, said of the text itself. -/
lemma isCallsignText_iff {s : Str} : IsCallsignText s ↔ toAsciiUppercase s ≠ [] ∧
    (toAsciiUppercase s).length ≤ keyLen ∧ ∀ b ∈ toAsciiUppercase s, isCallsignChar b := by
  simp only [IsCallsignText, toAsciiUppercase, List.length_map, List.forall_mem_map,
    isCallsignChar_toAsciiUppercaseByte, ne_eq, List.map_eq_nil_iff, Nat.one_le_iff_ne_zero,
    List.length_eq_zero_iff]
  rfl

lemma exists_parse_iff {x : Str} :
    (∃ c, parse x = .ok c) ↔ IsCallsignText (stripAsciiWhitespace x) := by
  rw [isCallsignText_iff, parse]
  split_ifs with h
  · exact iff_of_true ⟨_, rfl⟩ h
  · exact iff_of_false (by simp) h

/-! ### Order -/

lemma key_eq (c : Callsign) : c.key = c.asStr ++ List.replicate (keyLen - c.asStr.length) 0x20 := by
  obtain ⟨call, -, -, hchars, hkey⟩ := c.padded
  rw [asStr, hkey, asStr_eq hchars]

/-- The padded keys are ordered as the texts. -/
lemma key_lt_key_iff {c d : Callsign} : c.key < d.key ↔ c.asStr < d.asStr := by
  obtain ⟨-, hclen, hc⟩ := c.asStr_spec
  obtain ⟨-, hdlen, hd⟩ := d.asStr_spec
  have habove : ∀ b, isCallsignChar b → 0x20 < b := by decide +kernel
  rw [key_eq c, key_eq d, ByteOrder.append_replicate_lt_iff (fun b hb => habove b (hc b hb))
    (fun b hb => habove b (hd b hb)) (by omega)]

lemma eq_iff_asStr_eq {c d : Callsign} : c = d ↔ c.asStr = d.asStr := by
  constructor
  · rintro rfl
    rfl
  · intro h
    ext1
    rw [key_eq c, key_eq d, h]

/-! ### The callsigns of the texts `x` and `y` -/

/-- A text is a callsign exactly when it is 1 to 26 letters, digits and slashes between ASCII
whitespace; its text is then that text in uppercase, which is ASCII and parses to the same
callsign; and callsigns are equal or in order exactly when their texts are. -/
theorem parse_normalForm_order (x y s : Str) :
    ((∃ c, parse x = .ok c) ↔ ∃ s, IsStripped x s ∧ IsCallsignText s) ∧
      (∀ c, parse x = .ok c → IsStripped x s → c.asStr = toAsciiUppercase s ∧
        (∀ b ∈ c.asStr, b < 0x80) ∧ parse c.asStr = .ok c) ∧
      ∀ c d, parse x = .ok c → parse y = .ok d →
        (c.key = d.key ↔ c.asStr = d.asStr) ∧ (c = d ↔ c.asStr = d.asStr) ∧
          (c.key < d.key ↔ c.asStr < d.asStr) := by
  refine ⟨?_, fun c hparse hs => ⟨?_, ?_, ?_⟩, fun c d _ _ => ⟨?_, eq_iff_asStr_eq, key_lt_key_iff⟩⟩
  · simp only [isStripped_iff, exists_eq_left, exists_parse_iff]
  · rw [parse_asStr hparse, isStripped_iff.mp hs]
  · intro b hb
    have hb' := isAsciiGraphic_of_isCallsignChar (c.asStr_spec.2.2 b hb)
    exact lt_128_of_isPrintable (isPrintable_of_isAsciiGraphic hb')
  · obtain ⟨hne, hlen, hchars⟩ := c.asStr_spec
    obtain ⟨d, hd, hdstr⟩ := parse_eq_ok_of_normal hne hlen hchars
    rw [hd, eq_iff_asStr_eq.mpr hdstr]
  · rw [← eq_iff_asStr_eq, Callsign.ext_iff]

theorem parse_k0ab : ∃ c, parse (ascii " k0ab\n") = .ok c ∧ c.asStr = ascii "K0AB" ∧
    parse (ascii "K0AB") = .ok c := by
  have hstripped : IsStripped (ascii " k0ab\n") (ascii "k0ab") :=
    ⟨ascii " ", ascii "\n", rfl, by decide +kernel, by decide +kernel, by decide +kernel,
      by decide +kernel⟩
  have htext : IsCallsignText (ascii "k0ab") := ⟨by decide, by decide, by decide +kernel⟩
  obtain ⟨hparse, hnormal, -⟩ := parse_normalForm_order (ascii " k0ab\n") [] (ascii "k0ab")
  obtain ⟨c, hc⟩ := hparse.mpr ⟨_, hstripped, htext⟩
  obtain ⟨hstr, -, hagain⟩ := hnormal c hc hstripped
  have hupper : toAsciiUppercase (ascii "k0ab") = ascii "K0AB" := by decide
  rw [hupper] at hstr
  rw [hstr] at hagain
  exact ⟨c, hc, hstr, hagain⟩

end Callsign

end Callbook
