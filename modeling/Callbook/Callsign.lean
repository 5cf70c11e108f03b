import Callbook.Library.Panic

/-!
# Callsigns

The errors of the crate that the modelled functions return, and the normalized callsign key:
uppercase ASCII, right-padded with spaces to 26 bytes.
-/

namespace Callbook

open Text

/-- Text as the source's `String` and `&str` hold it. -/
abbrev Str := Bytes

/-- `error::Error`, without the file paths, which belong to the caller. -/
inductive Error where
  /-- A file's on-disk header is shorter or malformed. -/
  | malformedHeader (reason : String)
  /-- The supplied callsign was empty or contained invalid characters. -/
  | invalidCallsign (input : Str)
  /-- The supplied interest-profile code was not four decimal digits. -/
  | invalidInterestCode (code : Str)
  deriving DecidableEq, Repr

/-- `KEY_LEN`: length of a callsign key. -/
def keyLen : ℕ := 26

def isCallsignChar (b : UInt8) : Bool := isAsciiUppercase b || isAsciiDigit b || b == 0x2f

/-- A normalized callsign, padded on the right with spaces. -/
structure Callsign where
  key : Bytes
  padded : ∃ call : Bytes, call ≠ [] ∧ call.length ≤ keyLen ∧ (∀ b ∈ call, isCallsignChar b) ∧
    key = call ++ List.replicate (keyLen - call.length) 0x20

namespace Callsign

def stripAsciiWhitespace (s : Bytes) : Bytes := trimBy isAsciiWhitespace s

/-- `Callsign::parse`. -/
def parse (input : Str) : Except Error Callsign :=
  let trimmed := stripAsciiWhitespace input
  let call := toAsciiUppercase trimmed
  if h : call ≠ [] ∧ call.length ≤ keyLen ∧ ∀ b ∈ call, isCallsignChar b then
    .ok ⟨call ++ List.replicate (keyLen - call.length) 0x20, call, h.1, h.2.1, h.2.2, rfl⟩
  else .error (.invalidCallsign input)

/-- `Callsign::as_str`: the key without its padding. -/
def asStr (c : Callsign) : Str := c.key.rdropWhile (· == 0x20)

lemma isAsciiGraphic_of_isCallsignChar {b : UInt8} (h : isCallsignChar b) : isAsciiGraphic b := by
  grind [isCallsignChar, isAsciiGraphic, isAsciiUppercase, isAsciiDigit]

lemma asStr_eq {call : Bytes} (h : ∀ b ∈ call, isCallsignChar b) (n : ℕ) :
    (call ++ List.replicate n 0x20).rdropWhile (· == 0x20) = call := by
  induction n with
  | zero =>
    rw [List.replicate_zero, List.append_nil, List.rdropWhile_eq_self_iff]
    intro hne
    have := isAsciiGraphic_of_isCallsignChar (h _ (List.getLast_mem hne))
    grind [isAsciiGraphic]
  | succ n ih =>
    rw [List.replicate_succ', ← List.append_assoc, List.rdropWhile_concat_pos _ _ _ (by simp), ih]

/-- The text of a callsign: what `parse` admitted. -/
lemma asStr_spec (c : Callsign) :
    c.asStr ≠ [] ∧ c.asStr.length ≤ keyLen ∧ ∀ b ∈ c.asStr, isCallsignChar b := by
  obtain ⟨call, hne, hlen, hchars, hkey⟩ := c.padded
  rw [asStr, hkey, asStr_eq hchars]
  exact ⟨hne, hlen, hchars⟩

lemma isPrintable_asStr (c : Callsign) : ∀ b ∈ c.asStr, isPrintable b := fun b hb =>
  isPrintable_of_isAsciiGraphic (isAsciiGraphic_of_isCallsignChar (c.asStr_spec.2.2 b hb))

lemma parse_asStr {input : Str} {c : Callsign} (h : parse input = .ok c) :
    c.asStr = toAsciiUppercase (stripAsciiWhitespace input) := by
  simp only [parse] at h
  split_ifs at h with hc
  cases h
  exact asStr_eq hc.2.2 _

/-- Text in normal form is a callsign and is its own text. -/
lemma parse_eq_ok_of_normal {s : Str} (hne : s ≠ []) (hlen : s.length ≤ keyLen)
    (hchars : ∀ b ∈ s, isCallsignChar b) : ∃ c, parse s = .ok c ∧ c.asStr = s := by
  have hstrip : stripAsciiWhitespace s = s := by
    refine trimBy_eq_self_of_forall fun b hb => ?_
    have := isAsciiGraphic_of_isCallsignChar (hchars b hb)
    grind [isAsciiGraphic, isAsciiWhitespace]
  have hupper : toAsciiUppercase s = s := by
    refine toAsciiUppercase_eq_self fun b hb => ?_
    have := hchars b hb
    grind [isCallsignChar, isAsciiUppercase, isAsciiDigit, isAsciiLowercase]
  have hc : parse s = .ok ⟨s ++ List.replicate (keyLen - s.length) 0x20, s, hne, hlen, hchars,
      rfl⟩ := by
    simp only [parse, hstrip, hupper]
    rw [dif_pos ⟨hne, hlen, hchars⟩]
  exact ⟨_, hc, asStr_eq hchars _⟩

end Callsign

end Callbook
