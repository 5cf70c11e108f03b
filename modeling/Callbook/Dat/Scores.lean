import Callbook.Dat.Properties

/-!
# Scores of readings

A reading of a slice is scored by its bytes, one by one, and by the parts of the key that it shows.
The key streams change no high bit, so all readings of a slice have theirs at the same places; one
whose bytes are all text or tags has the highest score that its bytes can have.
-/

namespace Callbook

open Text

namespace V2Dat

/-! ### Bytes -/

def isText (b : UInt8) : Bool := b == 0x09 || b == 0x0a || b == 0x0d || isPrintable b

def isControl (b : UInt8) : Bool := b < 0x09 || (0x0d < b && b < 0x20)

def isScoredTag (b : UInt8) : Bool := 0xb5 ≤ b && b ≤ 0xdf

/-- What a byte adds to the score. -/
def byteScore (b : UInt8) : ℤ :=
  if isText b then 1 else if isControl b then -3 else if isScoredTag b then 5 else 0

/-- The most that a byte with this high bit adds. -/
def byteCap (b : UInt8) : ℤ := if b < 0x80 then 1 else 5

/-- Text and tags only. -/
def IsClean (bytes : Bytes) : Prop := ∀ b ∈ bytes, isText b ∨ isScoredTag b

instance (bytes : Bytes) : Decidable (IsClean bytes) :=
  inferInstanceAs (Decidable (∀ b ∈ bytes, isText b ∨ isScoredTag b))

lemma byteScore_le (b : UInt8) :
    byteScore b ≤ byteCap b ∧ (byteScore b = byteCap b ↔ isText b ∨ isScoredTag b) := by
  grind [byteScore, byteCap, isText, isControl, isScoredTag, isPrintable, isAsciiGraphic]

/-- The bytes of a reading score at most what their high bits allow, and that only when all are
clean. -/
lemma sum_byteScore_le {f : ℕ → UInt8 → UInt8} (hf : ∀ i b, f i b < 0x80 ↔ b < 0x80) (i : ℕ)
    (rawBytes : Bytes) :
    ((Keystream.applyFrom f i rawBytes).map byteScore).sum ≤ (rawBytes.map byteCap).sum ∧
      (((Keystream.applyFrom f i rawBytes).map byteScore).sum = (rawBytes.map byteCap).sum ↔
        IsClean (Keystream.applyFrom f i rawBytes)) := by
  induction rawBytes generalizing i with
  | nil => simp [IsClean]
  | cons b rawBytes ih =>
    have hcap : byteCap (f i b) = byteCap b := by simp only [byteCap, hf]
    obtain ⟨hle, hiff⟩ := hcap ▸ byteScore_le (f i b)
    obtain ⟨hle', hiff'⟩ := ih (i + 1)
    simp only [Keystream.applyFrom_cons, List.map_cons, List.sum_cons, IsClean,
      List.forall_mem_cons] at hiff' ⊢
    rw [← hiff, ← hiff']
    omega

/-- A mask without the high bit changes no high bit. -/
lemma xor_lt_iff {b mask : UInt8} (hmask : mask < 0x80) : b ^^^ mask < 0x80 ↔ b < 0x80 := by
  have hxor : ∀ {a : UInt8}, a < 0x80 → a ^^^ mask < 0x80 := by
    intro a ha
    rw [UInt8.lt_iff_toNat_lt] at ha hmask ⊢
    rw [UInt8.toNat_xor]
    exact Nat.xor_lt_two_pow (n := 7) ha hmask
  refine ⟨fun h => ?_, hxor⟩
  have hback := hxor h
  rwa [UInt8.xor_assoc, UInt8.xor_self, UInt8.xor_zero] at hback

/-- The byte of a key stream has no high bit. -/
lemma xor_stream_lt_iff (b : UInt8) (i : ℕ) :
    (b ^^^ 7) ^^^ UInt8.ofNat (i % 101) < 0x80 ↔ b < 0x80 := by
  have hmask : UInt8.ofNat (i % 101) < 0x80 := by
    rw [UInt8.lt_iff_toNat_lt, UInt8.toNat_ofNat']
    change i % 101 % 256 < 128
    omega
  rw [xor_lt_iff hmask, xor_lt_iff (by decide)]

/-- The bytes of a slice score at most what its high bits allow, in every phase. -/
lemma sum_byteScore_decodePhase_le (datOffset : ℕ) (rawBytes : Bytes) (phase : UInt8) :
    ((decodePhase datOffset rawBytes phase).map byteScore).sum ≤ (rawBytes.map byteCap).sum ∧
      (((decodePhase datOffset rawBytes phase).map byteScore).sum = (rawBytes.map byteCap).sum ↔
        IsClean (decodePhase datOffset rawBytes phase)) := by
  rw [decodePhase, decodePhaseInto_eq_applyFrom]
  exact sum_byteScore_le (fun i b => xor_stream_lt_iff b i) _ _

/-! ### Parts of the key -/

/-- The parts of a key that a reading is searched for. -/
inductive KeyPart where
  | whole
  | call
  | suffix
  deriving DecidableEq, Repr

/-- A reading shows a part of the key: the whole key or its call anywhere, its suffix at the
front. -/
def shows (idxKey bytes : Bytes) : KeyPart → Bool
  | .whole => containsSubslice (toAsciiUppercase bytes) (toAsciiUppercase idxKey)
  | .call => (splitOnce 0x3a (toAsciiUppercase idxKey)).any fun parts =>
      containsSubslice (toAsciiUppercase bytes) parts.1
  | .suffix => (splitOnce 0x3a (toAsciiUppercase idxKey)).any fun parts =>
      parts.2.isPrefixOf bytes || ((toAsciiUppercase idxKey).drop parts.1.length).isPrefixOf bytes

/-- What the parts of the key add to the score. -/
def keyScore (idxKey bytes : Bytes) : ℤ :=
  (if shows idxKey bytes .whole then 200 else 0) + (if shows idxKey bytes .call then 100 else 0) +
    if shows idxKey bytes .suffix then 150 else 0

/-- A reading that shows all the parts that another one shows scores as much by them, and more
exactly when it shows one more. -/
lemma keyScore_le {idxKey other own : Bytes}
    (h : ∀ part, shows idxKey other part → shows idxKey own part) :
    keyScore idxKey other ≤ keyScore idxKey own ∧
      (keyScore idxKey other < keyScore idxKey own ↔
        ∃ part, shows idxKey own part ∧ ¬ shows idxKey other part) := by
  have hparts : (∃ part, shows idxKey own part ∧ ¬ shows idxKey other part) ↔
      (shows idxKey own .whole ∧ ¬ shows idxKey other .whole) ∨
        (shows idxKey own .call ∧ ¬ shows idxKey other .call) ∨
          (shows idxKey own .suffix ∧ ¬ shows idxKey other .suffix) := by
    constructor
    · rintro ⟨part, hpart⟩
      cases part with
      | whole => exact .inl hpart
      | call => exact .inr (.inl hpart)
      | suffix => exact .inr (.inr hpart)
    · rintro (hpart | hpart | hpart)
      exacts [⟨_, hpart⟩, ⟨_, hpart⟩, ⟨_, hpart⟩]
  have hwhole := h .whole
  have hcall := h .call
  have hsuffix := h .suffix
  rw [hparts, keyScore, keyScore]
  grind

/-! ### The score -/

lemma sum_byteScore (bytes : Bytes) : (bytes.map byteScore).sum =
    bytes.countP isText - bytes.countP isControl * 3 + bytes.countP isScoredTag * 5 := by
  induction bytes with
  | nil => rfl
  | cons b bytes ih =>
    have hdisjoint : byteScore b = (if isText b then 1 else 0) -
        (if isControl b then 1 else 0) * 3 + (if isScoredTag b then 1 else 0) * 5 := by
      grind [byteScore, isText, isControl, isScoredTag, isPrintable, isAsciiGraphic]
    rw [List.map_cons, List.sum_cons, ih, hdisjoint, List.countP_cons, List.countP_cons,
      List.countP_cons]
    push_cast
    ring

lemma scoreCandidate_eq (bytes idxKey : Bytes) : scoreCandidate bytes idxKey =
    countOf isText bytes - countOf isControl bytes * 3 + countOf isScoredTag bytes * 5 +
      (if shows idxKey bytes .whole then 200 else 0) +
      ((if shows idxKey bytes .call then 100 else 0) +
        if shows idxKey bytes .suffix then 150 else 0) := by
  cases hsplit : splitOnce 0x3a (toAsciiUppercase idxKey) with
  | none =>
    have hcall : shows idxKey bytes .call = false := by simp [shows, hsplit]
    have hsuffix : shows idxKey bytes .suffix = false := by simp [shows, hsplit]
    simp only [scoreCandidate, hsplit, hcall, hsuffix]
    rfl
  | some parts =>
    have hcall : shows idxKey bytes .call =
        containsSubslice (toAsciiUppercase bytes) parts.1 := by simp [shows, hsplit]
    have hsuffix : shows idxKey bytes .suffix = (parts.2.isPrefixOf bytes ||
        ((toAsciiUppercase idxKey).drop parts.1.length).isPrefixOf bytes) := by
      simp [shows, hsplit]
    simp only [scoreCandidate, hsplit, hcall, hsuffix]
    rfl

/-- As long as nothing overflows, the score is what the bytes and the parts of the key add. -/
theorem toInt_scoreCandidate {bytes : Bytes} (hlen : bytes.length ≤ 2 ^ 28) (idxKey : Bytes) :
    (scoreCandidate bytes idxKey).toInt = (bytes.map byteScore).sum + keyScore idxKey bytes := by
  have hcount : ∀ p : UInt8 → Bool, (countOf p bytes).toInt = bytes.countP p ∧
      bytes.countP p ≤ 2 ^ 28 := by
    intro p
    have hle := (List.countP_le_length (p := p)).trans hlen
    exact ⟨Int32.toInt_ofNat_of_lt (by omega), hle⟩
  have hpoints : ∀ (c : Bool) (n : Int32),
      (if c then n else 0).toInt = if c then n.toInt else 0 := by
    rintro (_ | _) n <;> rfl
  obtain ⟨htext, htext'⟩ := hcount isText
  obtain ⟨hcontrol, hcontrol'⟩ := hcount isControl
  obtain ⟨htag, htag'⟩ := hcount isScoredTag
  have hweights : (3 : Int32).toInt = 3 ∧ (5 : Int32).toInt = 5 ∧ (200 : Int32).toInt = 200 ∧
      (100 : Int32).toInt = 100 ∧ (150 : Int32).toInt = 150 := ⟨rfl, rfl, rfl, rfl, rfl⟩
  obtain ⟨hthree, hfive, hwhole, hcall, hsuffix⟩ := hweights
  simp only [scoreCandidate_eq, Int32.toInt_add, Int32.toInt_sub, Int32.toInt_mul, htext, hcontrol,
    htag, hpoints, hthree, hfive, hwhole, hcall, hsuffix, Int.bmod_add_bmod, Int.add_bmod_bmod,
    Int.sub_bmod_bmod]
  rw [Int.bmod_eq_of_le]
  · rw [sum_byteScore, keyScore]
    ring
  · split_ifs <;> omega
  · split_ifs <;> omega

end V2Dat

end Callbook
