import Callbook.Library.Text

/-!
# UTF-8 text

Strings are held as their UTF-8 bytes. This module has the operations that look at characters:
lossy conversion from arbitrary bytes, trimming of Unicode white space, and character boundaries.
-/

namespace Utf8

/-- The bytes of U+FFFD. -/
def replacement : Bytes := [0xef, 0xbf, 0xbd]

def isContinuation (b : UInt8) : Bool := 0x80 ≤ b && b ≤ 0xbf

/-- The number of bytes of a character that starts with `b`, 0 when none does. -/
def charWidth (b : UInt8) : ℕ :=
  if b < 0x80 then 1
  else if 0xc2 ≤ b && b ≤ 0xdf then 2
  else if 0xe0 ≤ b && b ≤ 0xef then 3
  else if 0xf0 ≤ b && b ≤ 0xf4 then 4
  else 0

/-- Whether `b` may stand second in a character that starts with `a`. -/
def secondOk (a b : UInt8) : Bool :=
  if a == 0xe0 then 0xa0 ≤ b && b ≤ 0xbf
  else if a == 0xed then 0x80 ≤ b && b ≤ 0x9f
  else if a == 0xf0 then 0x90 ≤ b && b ≤ 0xbf
  else if a == 0xf4 then 0x80 ≤ b && b ≤ 0x8f
  else isContinuation b

/-- `String::from_utf8_lossy`: every longest start of a character that is not completed, and every
byte that starts none, is replaced by U+FFFD. -/
def fromUtf8Lossy : Bytes → Bytes
  | [] => []
  | a :: s =>
    if charWidth a = 1 then a :: fromUtf8Lossy s
    else if charWidth a = 0 then replacement ++ fromUtf8Lossy s
    else
      match s with
      | [] => replacement
      | b :: s₁ =>
        if secondOk a b then
          if charWidth a = 2 then a :: b :: fromUtf8Lossy s₁
          else
            match s₁ with
            | [] => replacement
            | c :: s₂ =>
              if isContinuation c then
                if charWidth a = 3 then a :: b :: c :: fromUtf8Lossy s₂
                else
                  match s₂ with
                  | [] => replacement
                  | d :: s₃ =>
                    if isContinuation d then a :: b :: c :: d :: fromUtf8Lossy s₃
                    else replacement ++ fromUtf8Lossy (d :: s₃)
              else replacement ++ fromUtf8Lossy (c :: s₂)
        else replacement ++ fromUtf8Lossy (b :: s₁)

/-- The characters with the Unicode property White_Space. -/
def whiteSpace : List Bytes :=
  [[0x09], [0x0a], [0x0b], [0x0c], [0x0d], [0x20], [0xc2, 0x85], [0xc2, 0xa0], [0xe1, 0x9a, 0x80],
    [0xe2, 0x80, 0x80], [0xe2, 0x80, 0x81], [0xe2, 0x80, 0x82], [0xe2, 0x80, 0x83],
    [0xe2, 0x80, 0x84], [0xe2, 0x80, 0x85], [0xe2, 0x80, 0x86], [0xe2, 0x80, 0x87],
    [0xe2, 0x80, 0x88], [0xe2, 0x80, 0x89], [0xe2, 0x80, 0x8a], [0xe2, 0x80, 0xa8],
    [0xe2, 0x80, 0xa9], [0xe2, 0x80, 0xaf], [0xe2, 0x81, 0x9f], [0xe3, 0x80, 0x80]]

/-- Drop one of the given texts from the front of `s`. -/
def stripOne (texts : List Bytes) (s : Bytes) : Option Bytes :=
  (texts.find? (·.isPrefixOf s)).map fun t => s.drop t.length

/-- Drop the given texts from the front of `s` as often as they stand there. -/
def stripAll (texts : List Bytes) : ℕ → Bytes → Bytes
  | 0, s => s
  | fuel + 1, s =>
    match stripOne texts s with
    | none => s
    | some s' => stripAll texts fuel s'

def trimStart (s : Bytes) : Bytes := stripAll whiteSpace s.length s

def trimEnd (s : Bytes) : Bytes :=
  (stripAll (whiteSpace.map List.reverse) s.length s.reverse).reverse

/-- `str::trim`. -/
def trim (s : Bytes) : Bytes := trimEnd (trimStart s)

/-- `str::is_char_boundary`. -/
def isCharBoundary (s : Bytes) (i : ℕ) : Bool :=
  i == 0 || i == s.length || s[i]?.any fun b => !isContinuation b

/-- ASCII text reads back as itself. -/
lemma fromUtf8Lossy_eq_self {s : Bytes} (h : ∀ b ∈ s, b < 0x80) : fromUtf8Lossy s = s := by
  induction s with
  | nil => rfl
  | cons a s ih =>
    have ha : charWidth a = 1 := by simp [charWidth, h a (by simp)]
    rw [fromUtf8Lossy.eq_def]
    simp only [ha, if_true]
    rw [ih fun b hb => h b (by simp [hb])]

/-- Text that reads as ASCII is ASCII: whatever is replaced or combined shows. -/
lemma eq_of_fromUtf8Lossy_ascii {s : Bytes} (h : ∀ b ∈ fromUtf8Lossy s, b < 0x80) :
    fromUtf8Lossy s = s := by
  have hwide : ∀ a t, ¬ charWidth a = 1 → ¬ ∀ b ∈ a :: t, b < 0x80 := by
    intro a t ha hall
    have hlow := hall a List.mem_cons_self
    exact ha (by simp [charWidth, hlow])
  have hreplaced : ∀ t, ¬ ∀ b ∈ replacement ++ t, b < 0x80 := by
    intro t hall
    exact absurd (hall 0xef (by simp [replacement])) (by decide)
  fun_induction fromUtf8Lossy s with
  | case1 => rfl
  | case2 a s ha ih => rw [ih fun b hb => h b (List.mem_cons_of_mem _ hb)]
  | _ =>
    first
    | exact absurd h (hreplaced _)
    | exact absurd h (hwide _ _ (by assumption))

lemma stripOne_eq_none {texts : List Bytes} {s : Bytes}
    (h : ∀ t ∈ texts, ∀ a ∈ s.head?, ∀ b ∈ t.head?, a ≠ b) (ht : ∀ t ∈ texts, t ≠ []) :
    stripOne texts s = none := by
  rw [stripOne, Option.map_eq_none_iff, List.find?_eq_none]
  intro t htm
  obtain ⟨b, t, rfl⟩ := List.exists_cons_of_ne_nil (ht t htm)
  cases s with
  | nil => simp
  | cons a s => simp [List.isPrefixOf, (h _ htm a rfl b rfl).symm]

lemma stripAll_eq_self {texts : List Bytes} {s : Bytes} (fuel : ℕ)
    (h : stripOne texts s = none) : stripAll texts fuel s = s := by
  cases fuel with
  | zero => rfl
  | succ fuel => rw [stripAll, h]

lemma mem_of_mem_stripAll {texts : List Bytes} {b : UInt8} (fuel : ℕ) {s : Bytes}
    (h : b ∈ stripAll texts fuel s) : b ∈ s := by
  induction fuel generalizing s with
  | zero => exact h
  | succ fuel ih =>
    rw [stripAll] at h
    cases hs : stripOne texts s with
    | none => simpa [hs] using h
    | some s' =>
      simp only [hs] at h
      obtain ⟨t, -, rfl⟩ := Option.map_eq_some_iff.mp hs
      exact List.mem_of_mem_drop (ih h)

lemma mem_of_mem_trim {s : Bytes} {b : UInt8} (h : b ∈ trim s) : b ∈ s := by
  rw [trim, trimEnd, List.mem_reverse] at h
  exact mem_of_mem_stripAll _ (List.mem_reverse.mp (mem_of_mem_stripAll _ h))

/-- ASCII text can be cut anywhere. -/
lemma isCharBoundary_of_ascii {s : Bytes} (h : ∀ b ∈ s, b < 0x80) {i : ℕ} (hi : i ≤ s.length) :
    isCharBoundary s i := by
  rcases hi.eq_or_lt with rfl | hi
  · simp [isCharBoundary]
  · have : isContinuation s[i] = false := by
      have := h _ (List.getElem_mem hi)
      grind [isContinuation]
    simp [isCharBoundary, List.getElem?_eq_getElem hi, this]

lemma whiteSpace_ne_nil : ∀ t ∈ whiteSpace, t ≠ [] := by decide

lemma reverse_whiteSpace_ne_nil : ∀ t ∈ whiteSpace.map List.reverse, t ≠ [] := by decide

/-- No white space character starts or ends with a byte of graphic ASCII. -/
lemma whiteSpace_ends {b : UInt8} (hb : Text.isAsciiGraphic b) {t : Bytes} (ht : t ∈ whiteSpace) :
    t.head? ≠ some b ∧ t.getLast? ≠ some b := by
  have hends : ∀ t ∈ whiteSpace, (∀ b ∈ t.head?, ¬ Text.isAsciiGraphic b) ∧
      ∀ b ∈ t.getLast?, ¬ Text.isAsciiGraphic b := by simp [whiteSpace, Text.isAsciiGraphic]
  obtain ⟨hhead, hlast⟩ := hends t ht
  exact ⟨fun h => hhead b h hb, fun h => hlast b h hb⟩

lemma stripOne_of_graphic_head {s : Bytes} (h : ∀ a ∈ s.head?, Text.isAsciiGraphic a) :
    stripOne whiteSpace s = none := by
  refine stripOne_eq_none (fun t ht a ha b hb hab => ?_) whiteSpace_ne_nil
  exact (whiteSpace_ends (h a ha) ht).1 (hab ▸ hb)

lemma stripOne_reverse_of_graphic_last {s : Bytes}
    (h : ∀ a ∈ s.getLast?, Text.isAsciiGraphic a) :
    stripOne (whiteSpace.map List.reverse) s.reverse = none := by
  refine stripOne_eq_none (fun t ht a ha b hb hab => ?_) reverse_whiteSpace_ne_nil
  obtain ⟨u, hu, rfl⟩ := List.mem_map.mp ht
  rw [List.head?_reverse] at ha hb
  exact (whiteSpace_ends (h a ha) hu).2 (hab ▸ hb)

/-- Graphic ASCII text has nothing to trim. -/
lemma trim_eq_self {s : Bytes} (h : ∀ b ∈ s, Text.isAsciiGraphic b) : trim s = s := by
  have hstart : trimStart s = s :=
    stripAll_eq_self _ (stripOne_of_graphic_head fun a ha => h a (List.mem_of_mem_head? ha))
  have hend : trimEnd s = s := by
    rw [trimEnd, stripAll_eq_self, List.reverse_reverse]
    exact stripOne_reverse_of_graphic_last fun a ha => h a (List.mem_of_getLast? ha)
  rw [trim, hstart, hend]

/-! ### Valid text -/

/-- The bytes of a `str`: nothing has to be replaced. -/
def Valid (s : Bytes) : Prop := fromUtf8Lossy s = s

instance (s : Bytes) : Decidable (Valid s) := inferInstanceAs (Decidable (_ = _))

/-- A continuation byte never stands behind an ASCII byte. -/
def AsciiClosed (s : Bytes) : Prop := s.IsChain fun a b => isContinuation b → 0x80 ≤ a

lemma isContinuation_of_charWidth {a : UInt8} (h : charWidth a ≠ 0) : isContinuation a = false := by
  grind [charWidth, isContinuation]

lemma le_of_charWidth {a : UInt8} (h : charWidth a ≠ 1) : 0x80 ≤ a := by
  grind [charWidth]

lemma le_of_secondOk {a b : UInt8} (h : secondOk a b) : 0x80 ≤ b := by
  grind [secondOk, isContinuation]

lemma le_of_isContinuation {b : UInt8} (h : isContinuation b) : 0x80 ≤ b := by
  grind [isContinuation]

lemma charWidth_eq_one {b : UInt8} (h : b < 0x80) : charWidth b = 1 := by simp [charWidth, h]

/-- A map of bytes that keeps ASCII bytes ASCII and the others as they are goes through the lossy
conversion. -/
lemma fromUtf8Lossy_map {f : UInt8 → UInt8} (hlow : ∀ b, b < 0x80 → f b < 0x80)
    (hhigh : ∀ b, 0x80 ≤ b → f b = b) (s : Bytes) :
    fromUtf8Lossy (s.map f) = (fromUtf8Lossy s).map f := by
  have hreplacement : replacement.map f = replacement := by
    simp [replacement, hhigh]
  have hwidth : ∀ b, charWidth (f b) = charWidth b := by
    intro b
    rcases lt_or_ge b 0x80 with h | h
    · rw [charWidth_eq_one h, charWidth_eq_one (hlow b h)]
    · rw [hhigh b h]
  have hcontinuation : ∀ b, isContinuation (f b) = isContinuation b := by
    intro b
    rcases lt_or_ge b 0x80 with h | h
    · rw [Bool.eq_iff_iff]
      exact iff_of_false (fun hc => (hlow b h).not_ge (le_of_isContinuation hc))
        fun hc => h.not_ge (le_of_isContinuation hc)
    · rw [hhigh b h]
  have hsecond : ∀ a b, charWidth a ≠ 1 → secondOk (f a) (f b) = secondOk a b := by
    intro a b ha
    rw [hhigh a (le_of_charWidth ha)]
    rcases lt_or_ge b 0x80 with h | h
    · rw [Bool.eq_iff_iff]
      exact iff_of_false (fun hc => (hlow b h).not_ge (le_of_secondOk hc))
        fun hc => h.not_ge (le_of_secondOk hc)
    · rw [hhigh b h]
  fun_induction fromUtf8Lossy s with
  | case1 => rfl
  | _ =>
    rw [List.map_cons, fromUtf8Lossy.eq_def]
    simp_all

/-- Valid text does not start with a continuation byte, and none stands behind an ASCII byte. The
cases that replace something cannot occur, since U+FFFD itself is a whole character. -/
lemma Valid.isChain_cons {s : Bytes} (h : Valid s) (p : UInt8) : AsciiClosed (p :: s) := by
  have hhead : ∀ {p a : UInt8}, ¬ charWidth a = 0 → isContinuation a → 0x80 ≤ p := by
    intro p a ha hcont
    rw [isContinuation_of_charWidth ha] at hcont
    cases hcont
  unfold Valid at h
  unfold AsciiClosed
  fun_induction fromUtf8Lossy s generalizing p with
  | case1 => exact List.IsChain.singleton p
  | case2 a s ha ih =>
    have ha' : ¬ charWidth a = 0 := by
      rw [ha]
      decide
    exact .cons_cons (hhead ha') (ih (List.cons.inj h).2 a)
  | case5 a ha ha' b s hb hw ih =>
    rw [List.cons.injEq, List.cons.injEq] at h
    exact .cons_cons (hhead ha') (.cons_cons (fun _ => le_of_charWidth ha) (ih h.2.2 b))
  | case7 a ha ha' b hb hw c s hc hw' ih =>
    simp only [List.cons.injEq, true_and] at h
    refine .cons_cons (hhead ha') (.cons_cons (fun _ => le_of_charWidth ha) ?_)
    exact .cons_cons (fun _ => le_of_secondOk hb) (ih h c)
  | case9 a ha ha' b hb hw c hc hw' d s hd ih =>
    simp only [List.cons.injEq, true_and] at h
    refine .cons_cons (hhead ha') (.cons_cons (fun _ => le_of_charWidth ha) ?_)
    refine .cons_cons (fun _ => le_of_secondOk hb) ?_
    exact .cons_cons (fun _ => le_of_isContinuation hc) (ih h d)
  | _ => grind [replacement, charWidth, secondOk, isContinuation]

lemma Valid.asciiClosed {s : Bytes} (h : Valid s) : AsciiClosed s := (h.isChain_cons 0).tail

lemma AsciiClosed.of_infix {s t : Bytes} (h : AsciiClosed s) (ht : t <:+: s) : AsciiClosed t :=
  List.IsChain.infix h ht

lemma stripAll_suffix (texts : List Bytes) (fuel : ℕ) (s : Bytes) :
    stripAll texts fuel s <:+ s := by
  induction fuel generalizing s with
  | zero => exact List.suffix_rfl
  | succ fuel ih =>
    rw [stripAll]
    cases hs : stripOne texts s with
    | none => exact List.suffix_rfl
    | some s' =>
      obtain ⟨t, -, rfl⟩ := Option.map_eq_some_iff.mp hs
      exact (ih _).trans (List.drop_suffix _ _)

lemma trim_infix (s : Bytes) : trim s <:+: s := by
  have hend : trimEnd (trimStart s) <+: trimStart s := by
    rw [trimEnd, ← List.reverse_suffix, List.reverse_reverse]
    exact stripAll_suffix _ _ _
  exact hend.isInfix.trans (stripAll_suffix _ _ _).isInfix

/-- Text can be cut before a byte that continues nothing. -/
lemma isCharBoundary_of_getElem? {s : Bytes} {i : ℕ} {b : UInt8} (hi : s[i]? = some b)
    (hb : isContinuation b = false) : isCharBoundary s i := by
  simp [isCharBoundary, hi, hb]

/-- Text can be cut where a text that does not continue a character is appended. -/
lemma isCharBoundary_append {s t : Bytes} (h : ∀ b ∈ t.head?, isContinuation b = false) :
    isCharBoundary (s ++ t) s.length := by
  cases t with
  | nil => simp [isCharBoundary]
  | cons b t => exact isCharBoundary_of_getElem? (by simp) (h b rfl)

/-- Text can be cut behind an ASCII byte. -/
lemma AsciiClosed.isCharBoundary_succ {s : Bytes} (h : AsciiClosed s) {i : ℕ} {b : UInt8}
    (hi : s[i]? = some b) (hb : b < 0x80) : isCharBoundary s (i + 1) := by
  obtain ⟨hlt, rfl⟩ := List.getElem?_eq_some_iff.mp hi
  rcases Nat.lt_or_ge (i + 1) s.length with hnext | hend
  · apply isCharBoundary_of_getElem? (List.getElem?_eq_getElem hnext)
    by_contra hcont
    have hle := List.isChain_iff_getElem.mp h i hnext (by simpa using hcont)
    exact absurd hb (not_lt.mpr hle)
  · have hlen : i + 1 = s.length := by omega
    simp [isCharBoundary, hlen]

/-! ### What trimming removes -/

/-- What is stripped from the front consists of the given texts. -/
lemma exists_stripAll (texts : List Bytes) (fuel : ℕ) (s : Bytes) :
    ∃ front, s = front ++ stripAll texts fuel s ∧ ∀ b ∈ front, ∃ t ∈ texts, b ∈ t := by
  induction fuel generalizing s with
  | zero => exact ⟨[], rfl, by simp⟩
  | succ fuel ih =>
    rw [stripAll]
    cases hs : stripOne texts s with
    | none => exact ⟨[], rfl, by simp⟩
    | some s' =>
      obtain ⟨t, ht, rfl⟩ := Option.map_eq_some_iff.mp hs
      have hpre := List.find?_some ht
      obtain ⟨rest, rfl⟩ := List.isPrefixOf_iff_prefix.mp hpre
      obtain ⟨front, hfront, htexts⟩ := ih rest
      rw [List.drop_left]
      refine ⟨t ++ front, by rw [List.append_assoc, ← hfront], fun b hb => ?_⟩
      rw [List.mem_append] at hb
      rcases hb with hb | hb
      · exact ⟨t, List.mem_of_find?_eq_some ht, hb⟩
      · exact htexts b hb

/-- With enough fuel none of the texts is left in front. -/
lemma stripOne_stripAll {texts : List Bytes} (ht : ∀ t ∈ texts, t ≠ []) {fuel : ℕ} {s : Bytes}
    (hfuel : s.length ≤ fuel) : stripOne texts (stripAll texts fuel s) = none := by
  induction fuel generalizing s with
  | zero =>
    rw [List.length_eq_zero_iff.mp (Nat.le_zero.mp hfuel), stripAll, stripOne,
      Option.map_eq_none_iff, List.find?_eq_none]
    intro t htm hpre
    exact ht t htm (List.prefix_nil.mp (List.isPrefixOf_iff_prefix.mp hpre))
  | succ fuel ih =>
    rw [stripAll]
    cases hs : stripOne texts s with
    | none => exact hs
    | some s' =>
      obtain ⟨t, hfind, rfl⟩ := Option.map_eq_some_iff.mp hs
      have hne := List.length_pos_iff.mpr (ht t (List.mem_of_find?_eq_some hfind))
      apply ih
      rw [List.length_drop]
      omega

lemma head?_ne_of_stripOne {texts : List Bytes} {s : Bytes} {b : UInt8} (hb : [b] ∈ texts)
    (h : stripOne texts s = none) : s.head? ≠ some b := by
  rw [stripOne, Option.map_eq_none_iff, List.find?_eq_none] at h
  intro hhead
  obtain ⟨rest, rfl⟩ := List.head?_eq_some_iff.mp hhead
  exact h [b] hb (by simp)

/-- Trimming removes bytes of white space around the text. -/
lemma exists_trim (s : Bytes) : ∃ front back, s = front ++ trim s ++ back ∧
    (∀ b ∈ front, b ∈ whiteSpace.flatten) ∧ ∀ b ∈ back, b ∈ whiteSpace.flatten := by
  obtain ⟨front, hfront, hfrontw⟩ := exists_stripAll whiteSpace s.length s
  obtain ⟨back, hback, hbackw⟩ := exists_stripAll (whiteSpace.map List.reverse)
    (trimStart s).length (trimStart s).reverse
  refine ⟨front, back.reverse, ?_, fun b hb => ?_, fun b hb => ?_⟩
  · have hrev := congrArg List.reverse hback
    rw [List.reverse_reverse, List.reverse_append] at hrev
    rw [trim, trimEnd, List.append_assoc, ← hrev]
    exact hfront
  · obtain ⟨t, ht, hbt⟩ := hfrontw b hb
    exact List.mem_flatten_of_mem ht hbt
  · obtain ⟨t, ht, hbt⟩ := hbackw b (List.mem_reverse.mp hb)
    obtain ⟨u, hu, rfl⟩ := List.mem_map.mp ht
    exact List.mem_flatten_of_mem hu (List.mem_reverse.mp hbt)

/-- No white space of one byte stands at an end of trimmed text. -/
lemma trim_ends {b : UInt8} (hb : [b] ∈ whiteSpace) (s : Bytes) :
    (trim s).head? ≠ some b ∧ (trim s).getLast? ≠ some b := by
  have hstart := stripOne_stripAll whiteSpace_ne_nil (le_refl s.length)
  have hend := stripOne_stripAll reverse_whiteSpace_ne_nil
    (@List.length_reverse _ (trimStart s)).le
  constructor
  · intro hhead
    have hpre : trim s <+: trimStart s := by
      rw [trim, trimEnd, ← List.reverse_suffix, List.reverse_reverse]
      exact stripAll_suffix _ _ _
    obtain ⟨rest, hrest⟩ := hpre
    refine head?_ne_of_stripOne hb hstart ?_
    rw [← trimStart, ← hrest]
    exact List.mem_head?_append_of_mem_head? hhead
  · rw [trim, trimEnd, List.getLast?_reverse]
    exact head?_ne_of_stripOne (List.mem_map.mpr ⟨[b], hb, rfl⟩) hend

/-! ### Trimmed text -/

/-- Text that is not blank and has nothing to trim. -/
def IsTrimmed (s : Bytes) : Prop := s ≠ [] ∧ trim s = s

instance (s : Bytes) : Decidable (IsTrimmed s) := inferInstanceAs (Decidable (_ ∧ _))

/-- There is nothing to trim when no white space stands at either end. -/
lemma trim_eq_self_iff {s : Bytes} : trim s = s ↔
    stripOne whiteSpace s = none ∧ stripOne (whiteSpace.map List.reverse) s.reverse = none := by
  constructor
  · intro h
    have hpre : trim s <+: trimStart s := by
      rw [trim, trimEnd, ← List.reverse_suffix, List.reverse_reverse]
      exact stripAll_suffix _ _ _
    have hsuf : trimStart s <:+ s := stripAll_suffix _ _ _
    have hstart : trimStart s = s :=
      hsuf.eq_of_length_le (by simpa [h] using hpre.length_le)
    have hend : (trimEnd s).reverse = s.reverse := by
      rw [trim, hstart] at h
      rw [h]
    refine ⟨?_, ?_⟩
    · rw [← hstart]
      exact stripOne_stripAll whiteSpace_ne_nil le_rfl
    · rw [← hend, trimEnd, List.reverse_reverse]
      exact stripOne_stripAll reverse_whiteSpace_ne_nil List.length_reverse.le
  · rintro ⟨hstart, hend⟩
    rw [trim, trimStart, stripAll_eq_self _ hstart, trimEnd, stripAll_eq_self _ hend,
      List.reverse_reverse]

/-- An ASCII character is white space only by itself. -/
def AsciiAlone (texts : List Bytes) : Prop := ∀ t ∈ texts, ∀ b ∈ t, b < 0x80 → t = [b]

lemma asciiAlone_whiteSpace : AsciiAlone whiteSpace := by
  simp [AsciiAlone, whiteSpace]

lemma AsciiAlone.map_reverse {texts : List Bytes} (h : AsciiAlone texts) :
    AsciiAlone (texts.map List.reverse) := by
  intro t ht b hb hlow
  obtain ⟨u, hu, rfl⟩ := List.mem_map.mp ht
  rw [h u hu b (List.mem_reverse.mp hb) hlow, List.reverse_singleton]

/-- Trimming keeps graphic characters. -/
lemma trim_ne_nil_of_graphic {s : Bytes} {b : UInt8} (hb : b ∈ s) (hg : Text.isAsciiGraphic b) :
    trim s ≠ [] := by
  have hblank : ∀ a ∈ whiteSpace.flatten, ¬ Text.isAsciiGraphic a := by
    intro a ha hg
    obtain ⟨t, ht, hat⟩ := List.mem_flatten.mp ha
    have hlow := Text.lt_128_of_isPrintable (Text.isPrintable_of_isAsciiGraphic hg)
    rw [asciiAlone_whiteSpace t ht a hat hlow] at ht
    exact (whiteSpace_ends hg ht).1 rfl
  obtain ⟨front, back, hs, hfront, hback⟩ := exists_trim s
  intro hnil
  rw [hs, hnil, List.append_nil, List.mem_append] at hb
  rcases hb with hb | hb
  · exact hblank b (hfront b hb) hg
  · exact hblank b (hback b hb) hg

/-- White space at the front of a text does not reach over an ASCII character in it. -/
lemma stripOne_append_cons {texts : List Bytes} (halone : AsciiAlone texts) {s : Bytes} {b : UInt8}
    (hs : stripOne texts s = none) (hne : s ≠ []) (hb : b < 0x80) (r : Bytes) :
    stripOne texts (s ++ b :: r) = none := by
  rw [stripOne, Option.map_eq_none_iff, List.find?_eq_none] at hs ⊢
  intro t ht hpre
  rw [List.isPrefixOf_iff_prefix] at hpre
  have hlong : s.length < t.length := by
    by_contra hle
    apply hs t ht
    rw [List.isPrefixOf_iff_prefix]
    exact List.prefix_of_prefix_length_le hpre (List.prefix_append _ _) (not_lt.mp hle)
  have hmem : b ∈ t := by
    have hget := hpre.getElem hlong
    rw [List.getElem_append_right le_rfl] at hget
    simp only [Nat.sub_self, List.getElem_cons_zero] at hget
    rw [← hget]
    exact List.getElem_mem hlong
  rw [halone t ht b hmem hb, List.length_singleton] at hlong
  exact hne (List.length_eq_zero_iff.mp (Nat.lt_one_iff.mp hlong))

/-- Trimmed texts around an ASCII character make a trimmed text. -/
lemma IsTrimmed.append_cons {s t : Bytes} (hs : IsTrimmed s) {b : UInt8} (hb : b < 0x80)
    (ht : IsTrimmed t) : IsTrimmed (s ++ b :: t) := by
  refine ⟨by simp, trim_eq_self_iff.mpr ⟨?_, ?_⟩⟩
  · exact stripOne_append_cons asciiAlone_whiteSpace (trim_eq_self_iff.mp hs.2).1 hs.1 hb t
  · rw [List.reverse_append, List.reverse_cons, List.append_assoc, List.singleton_append]
    exact stripOne_append_cons asciiAlone_whiteSpace.map_reverse (trim_eq_self_iff.mp ht.2).2
      (by simpa using ht.1) hb s.reverse

/-- Text between two graphic characters is trimmed. -/
lemma isTrimmed_of_ends {s : Bytes} (hne : s ≠ []) (hhead : ∀ a ∈ s.head?, Text.isAsciiGraphic a)
    (hlast : ∀ a ∈ s.getLast?, Text.isAsciiGraphic a) : IsTrimmed s :=
  ⟨hne, trim_eq_self_iff.mpr
    ⟨stripOne_of_graphic_head hhead, stripOne_reverse_of_graphic_last hlast⟩⟩

/-- A blank that is one of the texts is stripped by itself. -/
lemma stripOne_cons {texts : List Bytes} (halone : AsciiAlone texts) (hne : ∀ t ∈ texts, t ≠ [])
    {b : UInt8} (hb : b < 0x80) (hmem : [b] ∈ texts) (s : Bytes) :
    stripOne texts (b :: s) = some s := by
  rw [stripOne]
  cases hfind : texts.find? (·.isPrefixOf (b :: s)) with
  | none => exact absurd (by simp) (List.find?_eq_none.mp hfind [b] hmem)
  | some t =>
    have ht := List.mem_of_find?_eq_some hfind
    obtain ⟨c, t, rfl⟩ := List.exists_cons_of_ne_nil (hne t ht)
    have hpre := List.find?_some hfind
    obtain ⟨rfl, -⟩ := List.cons_prefix_cons.mp (List.isPrefixOf_iff_prefix.mp hpre)
    rw [halone _ ht c List.mem_cons_self hb]
    rfl

/-- Blanks in front are stripped one after the other. -/
lemma stripAll_replicate_append {texts : List Bytes} (halone : AsciiAlone texts)
    (hne : ∀ t ∈ texts, t ≠ []) {b : UInt8} (hb : b < 0x80) (hmem : [b] ∈ texts) {s : Bytes}
    (hs : stripOne texts s = none) {n fuel : ℕ} (hfuel : n ≤ fuel) :
    stripAll texts fuel (List.replicate n b ++ s) = s := by
  induction n generalizing fuel with
  | zero => exact stripAll_eq_self fuel hs
  | succ n ih =>
    obtain ⟨fuel, rfl⟩ := Nat.exists_eq_add_one_of_ne_zero (Nat.ne_zero_of_lt hfuel)
    rw [List.replicate_succ, List.cons_append, stripAll, stripOne_cons halone hne hb hmem]
    exact ih (Nat.le_of_succ_le_succ hfuel)

/-- Spaces behind a text are trimmed off. -/
lemma trim_append_replicate {s : Bytes} (hs : IsTrimmed s) (n : ℕ) :
    trim (s ++ List.replicate n 0x20) = s := by
  have hends := trim_eq_self_iff.mp hs.2
  have hstart : trimStart (s ++ List.replicate n 0x20) = s ++ List.replicate n 0x20 := by
    apply stripAll_eq_self
    cases n with
    | zero =>
      rw [List.replicate_zero, List.append_nil]
      exact hends.1
    | succ n => exact stripOne_append_cons asciiAlone_whiteSpace hends.1 hs.1 (by decide) _
  rw [trim, hstart, trimEnd, List.reverse_append, List.reverse_replicate,
    stripAll_replicate_append asciiAlone_whiteSpace.map_reverse reverse_whiteSpace_ne_nil
      (by decide) (by decide) hends.2 (by simp), List.reverse_reverse]

/-- Trimmed text has nothing left to trim. -/
lemma trim_trim (s : Bytes) : trim (trim s) = trim s := by
  have hstart := stripOne_stripAll whiteSpace_ne_nil (le_refl s.length)
  have hend := stripOne_stripAll reverse_whiteSpace_ne_nil
    (@List.length_reverse _ (trimStart s)).le
  have hpre : trim s <+: trimStart s := by
    rw [trim, trimEnd, ← List.reverse_suffix, List.reverse_reverse]
    exact stripAll_suffix _ _ _
  refine trim_eq_self_iff.mpr ⟨?_, ?_⟩
  · rw [stripOne, Option.map_eq_none_iff, List.find?_eq_none] at hstart ⊢
    intro t ht h
    rw [List.isPrefixOf_iff_prefix] at h
    exact hstart t ht (List.isPrefixOf_iff_prefix.mpr (h.trans hpre))
  · rw [trim, trimEnd, List.reverse_reverse]
    exact hend

/-- A text without letters stands in front of an upper-case text where it stands in front of the
text itself. -/
lemma isPrefixOf_map_toAsciiUppercaseByte {t : Bytes}
    (ht : ∀ b ∈ t, Text.isAsciiUppercase b = false ∧ Text.isAsciiLowercase b = false) (s : Bytes) :
    t.isPrefixOf (s.map Text.toAsciiUppercaseByte) = t.isPrefixOf s := by
  induction t generalizing s with
  | nil => rfl
  | cons b t ih =>
    cases s with
    | nil => rfl
    | cons a s =>
      have hb := ht b List.mem_cons_self
      have hhead : (b == Text.toAsciiUppercaseByte a) = (b == a) := by
        grind [Text.toAsciiUppercaseByte, Text.isAsciiUppercase, Text.isAsciiLowercase]
      rw [List.map_cons, List.isPrefixOf_cons_cons, List.isPrefixOf_cons_cons, hhead,
        ih (fun b hb => ht b (List.mem_cons_of_mem _ hb))]

lemma stripOne_map_toAsciiUppercaseByte {texts : List Bytes} (ht : ∀ t ∈ texts, ∀ b ∈ t,
    Text.isAsciiUppercase b = false ∧ Text.isAsciiLowercase b = false) {s : Bytes} :
    stripOne texts (s.map Text.toAsciiUppercaseByte) = none ↔ stripOne texts s = none := by
  simp only [stripOne, Option.map_eq_none_iff, List.find?_eq_none]
  refine forall₂_congr fun t htm => ?_
  rw [isPrefixOf_map_toAsciiUppercaseByte (ht t htm)]

/-- The upper case of trimmed text is trimmed. -/
lemma trim_toAsciiUppercase {s : Bytes} (h : trim s = s) :
    trim (Text.toAsciiUppercase s) = Text.toAsciiUppercase s := by
  have hletters : ∀ t ∈ whiteSpace, ∀ b ∈ t,
      Text.isAsciiUppercase b = false ∧ Text.isAsciiLowercase b = false := by
    simp [whiteSpace, Text.isAsciiUppercase, Text.isAsciiLowercase]
  have hletters' : ∀ t ∈ whiteSpace.map List.reverse, ∀ b ∈ t,
      Text.isAsciiUppercase b = false ∧ Text.isAsciiLowercase b = false := by
    intro t ht b hb
    obtain ⟨u, hu, rfl⟩ := List.mem_map.mp ht
    exact hletters u hu b (List.mem_reverse.mp hb)
  rw [trim_eq_self_iff] at h ⊢
  rw [Text.toAsciiUppercase, ← List.map_reverse, stripOne_map_toAsciiUppercaseByte hletters,
    stripOne_map_toAsciiUppercaseByte hletters']
  exact h

end Utf8
