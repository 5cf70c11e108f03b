import Callbook.Library.ByteOrder
import Callbook.Library.Lists

/-!
# Text as bytes

The byte and string operations of the Rust standard library that byte-oriented readers use, over
text held as UTF-8 bytes: ASCII classes, trimming, splitting, decimal numbers, and the lossy
conversion of arbitrary bytes to text.
-/

namespace Text

/-! ### ASCII classes -/

/-- `u8::is_ascii_whitespace`: space, tab, line feed, form feed, carriage return. -/
def isAsciiWhitespace (b : UInt8) : Bool :=
  b == 0x20 || b == 0x09 || b == 0x0a || b == 0x0c || b == 0x0d

def isAsciiGraphic (b : UInt8) : Bool := 0x21 ≤ b && b ≤ 0x7e

def isAsciiDigit (b : UInt8) : Bool := 0x30 ≤ b && b ≤ 0x39

def isAsciiUppercase (b : UInt8) : Bool := 0x41 ≤ b && b ≤ 0x5a

def isAsciiLowercase (b : UInt8) : Bool := 0x61 ≤ b && b ≤ 0x7a

/-- Printable ASCII or space, the test every text field of the formats is put to. -/
def isPrintable (b : UInt8) : Bool := isAsciiGraphic b || b == 0x20

def toAsciiUppercaseByte (b : UInt8) : UInt8 := if isAsciiLowercase b then b - 0x20 else b

def toAsciiLowercaseByte (b : UInt8) : UInt8 := if isAsciiUppercase b then b + 0x20 else b

def eqIgnoreAsciiCaseByte (a b : UInt8) : Bool := toAsciiLowercaseByte a == toAsciiLowercaseByte b

def toAsciiUppercase (s : Bytes) : Bytes := s.map toAsciiUppercaseByte

def toAsciiLowercase (s : Bytes) : Bytes := s.map toAsciiLowercaseByte

lemma isPrintable_of_isAsciiGraphic {b : UInt8} (h : isAsciiGraphic b) : isPrintable b := by
  simp [isPrintable, h]

lemma lt_128_of_isPrintable {b : UInt8} (h : isPrintable b) : b < 0x80 := by
  grind [isPrintable, isAsciiGraphic]

lemma toAsciiUppercaseByte_eq_self {b : UInt8} (h : isAsciiLowercase b = false) :
    toAsciiUppercaseByte b = b := by
  simp [toAsciiUppercaseByte, h]

lemma toAsciiUppercase_eq_self {s : Bytes} (h : ∀ b ∈ s, isAsciiLowercase b = false) :
    toAsciiUppercase s = s := by
  rw [toAsciiUppercase, List.map_congr_left fun b hb => toAsciiUppercaseByte_eq_self (h b hb)]
  simp

lemma toAsciiUppercase_toAsciiUppercase (s : Bytes) :
    toAsciiUppercase (toAsciiUppercase s) = toAsciiUppercase s := by
  refine toAsciiUppercase_eq_self fun b hb => ?_
  obtain ⟨a, -, rfl⟩ := List.mem_map.mp hb
  grind [toAsciiUppercaseByte, isAsciiLowercase]

/-! ### Trimming and splitting -/

/-- Drop the symbols that satisfy `p` from both ends. -/
def trimBy {α : Type*} (p : α → Bool) (l : List α) : List α := (l.dropWhile p).rdropWhile p

/-- `split_once` on a byte. -/
def splitOnce (sep : UInt8) (s : Bytes) : Option (Bytes × Bytes) :=
  (s.findIdx? (· == sep)).map fun i => (s.take i, s.drop (i + 1))

/-- What stands before the first `sep`, the whole text when there is none. -/
def beforeSep (sep : UInt8) (s : Bytes) : Bytes := (splitOnce sep s).elim s Prod.fst

lemma trimBy_eq_self {α : Type*} {p : α → Bool} {l : List α} (hhead : ∀ a ∈ l.head?, p a = false)
    (hlast : ∀ a ∈ l.getLast?, p a = false) : trimBy p l = l := by
  have hd : l.dropWhile p = l := by
    cases l with
    | nil => rfl
    | cons a l => simpa using hhead a rfl
  rw [trimBy, hd, List.rdropWhile_eq_self_iff]
  intro hl
  simp [hlast _ (List.getLast_mem_getLast? hl)]

lemma trimBy_eq_self_of_forall {α : Type*} {p : α → Bool} {l : List α}
    (h : ∀ a ∈ l, p a = false) : trimBy p l = l :=
  trimBy_eq_self (fun a ha => h a (List.mem_of_mem_head? ha))
    fun a ha => h a (List.mem_of_getLast? ha)

/-- A run of a class at the end of a text is cut off, up to the last symbol that is not in it. -/
lemma rdropWhile_append {α : Type*} {p : α → Bool} {l m : List α}
    (hl : ∀ a ∈ l.getLast?, p a = false)
    (hm : ∀ a ∈ m, p a) : (l ++ m).rdropWhile p = l ∧ (l ++ m).rtakeWhile p = m := by
  have hall : ∀ a ∈ m.reverse, p a := fun a ha => hm a (List.mem_reverse.mp ha)
  have hnone : l.reverse.dropWhile p = l.reverse ∧ l.reverse.takeWhile p = [] := by
    rw [← List.head?_reverse] at hl
    cases h : l.reverse with
    | nil => exact ⟨rfl, rfl⟩
    | cons a t => simp [hl a (by rw [h]; rfl)]
  rw [List.rdropWhile, List.rtakeWhile, List.reverse_append, List.dropWhile_append_of_pos hall,
    List.takeWhile_append_of_pos hall, hnone.1, hnone.2, List.append_nil, List.reverse_reverse,
    List.reverse_reverse]
  exact ⟨rfl, rfl⟩

/-- Padding behind a text is cut off. -/
lemma trimBy_append_of_forall {α : Type*} {p : α → Bool} {l m : List α} (hl : ∀ a ∈ l, p a = false)
    (hm : ∀ a ∈ m, p a) : trimBy p (l ++ m) = l := by
  cases l with
  | nil =>
    have hdrop : m.dropWhile p = [] := List.dropWhile_eq_nil_iff.mpr hm
    rw [List.nil_append, trimBy, hdrop, List.rdropWhile_nil]
  | cons a l =>
    have hdrop : (a :: l ++ m).dropWhile p = a :: l ++ m := by
      rw [List.cons_append, List.dropWhile_cons, if_neg (by simp [hl a List.mem_cons_self])]
    rw [trimBy, hdrop]
    exact (rdropWhile_append (fun b hb => hl b (List.mem_of_mem_getLast? hb)) hm).1

/-- Padding around a text is cut off. -/
lemma trimBy_append_append {α : Type*} {p : α → Bool} {front l back : List α}
    (hfront : ∀ a ∈ front, p a) (hback : ∀ a ∈ back, p a) (hne : l ≠ [])
    (hhead : ∀ a ∈ l.head?, p a = false) (hlast : ∀ a ∈ l.getLast?, p a = false) :
    trimBy p (front ++ l ++ back) = l := by
  obtain ⟨a, l, rfl⟩ := List.exists_cons_of_ne_nil hne
  have hdrop : (front ++ (a :: l) ++ back).dropWhile p = a :: l ++ back := by
    rw [List.append_assoc, List.dropWhile_append_of_pos hfront, List.cons_append,
      List.dropWhile_cons, if_neg (by simp [hhead a rfl])]
  rw [trimBy, hdrop]
  exact (rdropWhile_append hlast hback).1

lemma infix_trimBy {α : Type*} (p : α → Bool) (l : List α) : trimBy p l <:+: l :=
  (List.rdropWhile_prefix p _).isInfix.trans (List.dropWhile_suffix p).isInfix

/-- Only padding is cut off. -/
lemma mem_trimBy {α : Type*} {p : α → Bool} {l : List α} {a : α} (ha : a ∈ l) (hp : p a = false) :
    a ∈ trimBy p l := by
  have hkeep : ∀ {m : List α}, a ∈ m → a ∈ m.dropWhile p := by
    intro m hm
    rw [← List.takeWhile_append_dropWhile (p := p) (l := m), List.mem_append] at hm
    rcases hm with hm | hm
    · rw [List.mem_takeWhile_imp hm] at hp
      cases hp
    · exact hm
  rw [trimBy, List.rdropWhile, List.mem_reverse]
  exact hkeep (List.mem_reverse.mpr (hkeep ha))

lemma head?_trimBy {α : Type*} {p : α → Bool} {l : List α} :
    ∀ a ∈ (trimBy p l).head?, p a = false := by
  intro a ha
  have hhead := List.head?_dropWhile_not p l
  obtain ⟨back, hback⟩ := List.rdropWhile_prefix p (l.dropWhile p)
  have hmem : a ∈ (l.dropWhile p).head? := by
    rw [← hback]
    exact List.mem_head?_append_of_mem_head? ha
  rw [Option.mem_def.mp hmem] at hhead
  exact hhead

/-- A text is what trimming keeps of it, between two stretches of what is dropped. -/
lemma exists_trimBy {α : Type*} (p : α → Bool) (l : List α) : ∃ front back,
    l = front ++ trimBy p l ++ back ∧ (∀ a ∈ front, p a) ∧ ∀ a ∈ back, p a := by
  refine ⟨l.takeWhile p, (l.dropWhile p).rtakeWhile p, ?_, fun a ha => List.mem_takeWhile_imp ha,
    fun a ha => ?_⟩
  · rw [trimBy, List.append_assoc, List.rdropWhile, List.rtakeWhile, ← List.reverse_append,
      List.takeWhile_append_dropWhile, List.reverse_reverse, List.takeWhile_append_dropWhile]
  · exact List.mem_rtakeWhile_imp ha

lemma getLast?_trimBy {α : Type*} {p : α → Bool} {l : List α} :
    ∀ a ∈ (trimBy p l).getLast?, p a = false := by
  intro a ha
  have hhead := List.head?_dropWhile_not p (l.dropWhile p).reverse
  rw [trimBy, List.rdropWhile, List.getLast?_reverse] at ha
  rw [Option.mem_def.mp ha] at hhead
  exact hhead

lemma splitOnce_eq_none_iff {sep : UInt8} {s : Bytes} : splitOnce sep s = none ↔ sep ∉ s := by
  rw [splitOnce, Option.map_eq_none_iff, List.findIdx?_eq_none_iff]
  grind

lemma findIdx?_eq_none {sep : UInt8} {s : Bytes} (h : sep ∉ s) :
    s.findIdx? (· == sep) = none := List.findIdx?_eq_none_iff.mpr (by grind)

/-- A byte is found behind a text that does not hold it. -/
lemma findIdx?_append {sep : UInt8} {x : Bytes} (h : sep ∉ x) (y : Bytes) :
    (x ++ y).findIdx? (· == sep) = (y.findIdx? (· == sep)).map (· + x.length) := by
  rw [List.findIdx?_append, findIdx?_eq_none h, Option.none_or]

lemma findIdx?_append_cons {sep : UInt8} {x : Bytes} (h : sep ∉ x) (y : Bytes) :
    (x ++ sep :: y).findIdx? (· == sep) = some x.length := by
  rw [findIdx?_append h, List.findIdx?_cons, if_pos (beq_self_eq_true sep), Option.map_some,
    Nat.zero_add]

lemma splitOnce_append {sep : UInt8} {x : Bytes} (h : sep ∉ x) (y : Bytes) :
    splitOnce sep (x ++ sep :: y) = some (x, y) := by
  simp [splitOnce, findIdx?_append_cons h]

lemma splitOnce_eq_some_iff {sep : UInt8} {s x y : Bytes} :
    splitOnce sep s = some (x, y) ↔ s = x ++ sep :: y ∧ sep ∉ x := by
  constructor
  · intro h
    have hmem : sep ∈ s := by
      by_contra hn
      simp [splitOnce_eq_none_iff.mpr hn] at h
    obtain ⟨x', y', rfl, hx'⟩ := List.eq_append_cons_of_mem hmem
    rw [splitOnce_append hx', Option.some.injEq, Prod.mk.injEq] at h
    obtain ⟨rfl, rfl⟩ := h
    exact ⟨rfl, hx'⟩
  · rintro ⟨rfl, hx⟩
    exact splitOnce_append hx y

lemma beforeSep_append {sep : UInt8} {x : Bytes} (h : sep ∉ x) (y : Bytes) :
    beforeSep sep (x ++ sep :: y) = x := by
  simp [beforeSep, splitOnce_append h]

lemma beforeSep_eq_self {sep : UInt8} {s : Bytes} (h : sep ∉ s) : beforeSep sep s = s := by
  simp [beforeSep, splitOnce_eq_none_iff.mpr h]

lemma sep_notMem_beforeSep (sep : UInt8) (s : Bytes) : sep ∉ beforeSep sep s := by
  by_cases h : sep ∈ s
  · obtain ⟨x, y, rfl, hx⟩ := List.eq_append_cons_of_mem h
    rwa [beforeSep_append hx]
  · rwa [beforeSep_eq_self h]

lemma notMem_of_mem_splitOn {α : Type*} [DecidableEq α] {sep : α} {l part : List α}
    (h : part ∈ l.splitOn sep) : sep ∉ part := by
  induction l generalizing part with
  | nil =>
    rw [List.splitOn_nil, List.mem_singleton] at h
    rw [h]
    exact List.not_mem_nil
  | cons a l ih =>
    rw [List.splitOn_cons_eq_if_modifyHead] at h
    split_ifs at h with ha
    · rcases List.mem_cons.mp h with rfl | h
      · exact List.not_mem_nil
      · exact ih h
    · obtain ⟨first, parts, hparts⟩ := List.exists_cons_of_ne_nil (List.splitOn_ne_nil sep l)
      rw [hparts, List.modifyHead_cons] at h
      rw [hparts] at ih
      rcases List.mem_cons.mp h with rfl | h
      · rw [List.mem_cons, not_or]
        exact ⟨fun heq => ha (beq_iff_eq.mpr heq.symm), ih List.mem_cons_self⟩
      · exact ih (List.mem_cons_of_mem _ h)

/-- Cut into pieces that end behind each `sep`; the last one may lack it. -/
def splitInclusive (sep : UInt8) : Bytes → List Bytes
  | [] => []
  | b :: s =>
    if b = sep then [b] :: splitInclusive sep s
    else
      match splitInclusive sep s with
      | [] => [[b]]
      | line :: rest => (b :: line) :: rest

/-- `str::lines`: a line ends with a line feed, which a carriage return may precede. -/
def lines (s : Bytes) : List Bytes :=
  (splitInclusive 0x0a s).map fun line =>
    if line.getLast? = some 0x0a then
      let line := line.dropLast
      if line.getLast? = some 0x0d then line.dropLast else line
    else line

lemma flatten_splitInclusive (sep : UInt8) (s : Bytes) : (splitInclusive sep s).flatten = s := by
  induction s with
  | nil => rfl
  | cons b s ih =>
    rw [splitInclusive]
    split_ifs with hb
    · simp [ih]
    · cases hs : splitInclusive sep s with
      | nil =>
        rw [hs] at ih
        simp [← ih]
      | cons line rest =>
        rw [hs] at ih
        simp [← ih]

lemma infix_of_mem_splitInclusive {sep : UInt8} {s line : Bytes}
    (h : line ∈ splitInclusive sep s) : line <:+: s := by
  obtain ⟨front, back, hsplit⟩ := List.append_of_mem h
  refine ⟨front.flatten, back.flatten, ?_⟩
  rw [← flatten_splitInclusive sep s, hsplit]
  simp

lemma infix_of_mem_lines {s line : Bytes} (h : line ∈ lines s) : line <:+: s := by
  obtain ⟨piece, hpiece, rfl⟩ := List.mem_map.mp h
  apply List.IsInfix.trans _ (infix_of_mem_splitInclusive hpiece)
  have hdrop : piece.dropLast <:+: piece := (List.dropLast_prefix piece).isInfix
  dsimp only
  split_ifs
  · exact (List.dropLast_prefix _).isInfix.trans hdrop
  · exact hdrop
  · exact List.infix_rfl

/-- A text without line feeds is one line. -/
lemma lines_eq_singleton {s : Bytes} (hne : s ≠ []) (h : 0x0a ∉ s) : lines s = [s] := by
  have hsplit : splitInclusive 0x0a s = [s] := by
    induction s with
    | nil => exact absurd rfl hne
    | cons b s ih =>
      rw [List.mem_cons, not_or] at h
      rw [splitInclusive, if_neg (Ne.symm h.1)]
      cases s with
      | nil => rfl
      | cons c s => rw [ih (List.cons_ne_nil c s) h.2]
  have hlast : s.getLast? ≠ some 0x0a := fun hlast => h (List.mem_of_getLast? hlast)
  simp [lines, hsplit, hlast]

/-- `chunks_exact`: the leading pieces of length `n`, without the shorter rest. -/
def chunksExact {α : Type*} (n : ℕ) (l : List α) : List (List α) := go l.length l
where
  /-- Each round takes one piece. -/
  go : ℕ → List α → List (List α)
  | 0, _ => []
  | fuel + 1, l => if n ≤ l.length then l.take n :: go fuel (l.drop n) else []

lemma chunksExact_go_getElem? {α : Type*} {n : ℕ} (hn : 0 < n) (fuel : ℕ) (l : List α)
    (hfuel : l.length ≤ fuel) (i : ℕ) : (chunksExact.go n fuel l)[i]? =
      if i * n + n ≤ l.length then some ((l.drop (i * n)).take n) else none := by
  induction fuel generalizing l i with
  | zero =>
    have : ¬ i * n + n ≤ l.length := by omega
    simp [chunksExact.go, this]
  | succ fuel ih =>
    rw [chunksExact.go]
    by_cases hle : n ≤ l.length
    · rw [if_pos hle]
      cases i with
      | zero => simp [hle]
      | succ i =>
        rw [List.getElem?_cons_succ, ih _ (by rw [List.length_drop]; omega), List.drop_drop,
          List.length_drop, Nat.add_comm n, Nat.succ_mul]
        exact if_congr (by omega) rfl rfl
    · have : ¬ i * n + n ≤ l.length := fun h => hle ((Nat.le_add_left n (i * n)).trans h)
      rw [if_neg hle, if_neg this, List.getElem?_nil]

/-- The pieces by their positions. -/
lemma chunksExact_getElem? {α : Type*} {n : ℕ} (hn : 0 < n) (l : List α) (i : ℕ) :
    (chunksExact n l)[i]? =
      if i * n + n ≤ l.length then some ((l.drop (i * n)).take n) else none :=
  chunksExact_go_getElem? hn _ l le_rfl i

lemma length_of_mem_chunksExact {α : Type*} {n : ℕ} (hn : 0 < n) {l piece : List α}
    (h : piece ∈ chunksExact n l) : piece.length = n := by
  obtain ⟨i, hi⟩ := List.mem_iff_getElem?.mp h
  rw [chunksExact_getElem? hn] at hi
  split_ifs at hi with hle
  rw [Option.some.injEq] at hi
  rw [← hi, List.length_take, List.length_drop]
  omega

lemma length_chunksExact {α : Type*} {n : ℕ} (hn : 0 < n) (l : List α) :
    (chunksExact n l).length = l.length / n := by
  apply eq_of_forall_lt_iff
  intro i
  have h := chunksExact_getElem? hn l i
  rw [← not_le, ← List.getElem?_eq_none_iff, h, ← Nat.succ_le_iff, Nat.le_div_iff_mul_le hn,
    Nat.succ_mul]
  split_ifs with hle <;> simp [hle]

lemma chunksExact_go_flatMap {α β : Type*} {n : ℕ} (hn : 0 < n) {f : β → List α} {l : List β}
    (hf : ∀ b ∈ l, (f b).length = n) {fuel : ℕ} (hfuel : (l.flatMap f).length ≤ fuel) :
    chunksExact.go n fuel (l.flatMap f) = l.map f := by
  induction l generalizing fuel with
  | nil =>
    cases fuel with
    | zero => rfl
    | succ fuel => simp [chunksExact.go, hn.ne']
  | cons b l ih =>
    rw [List.forall_mem_cons] at hf
    rw [List.flatMap_cons, List.length_append, hf.1] at hfuel
    cases fuel with
    | zero => omega
    | succ fuel =>
      rw [List.flatMap_cons, chunksExact.go, if_pos (by rw [List.length_append, hf.1]; omega),
        ← hf.1, List.take_left, List.drop_left, hf.1, ih hf.2 (by omega), List.map_cons]

/-- Pieces of length `n` one behind the other are cut apart again. -/
lemma chunksExact_flatMap {α β : Type*} {n : ℕ} (hn : 0 < n) {f : β → List α} {l : List β}
    (hf : ∀ b ∈ l, (f b).length = n) : chunksExact n (l.flatMap f) = l.map f :=
  chunksExact_go_flatMap hn hf le_rfl

/-- `str::find` for a text: the position of its first occurrence. -/
def findText (pat : Bytes) : Bytes → Option ℕ
  | [] => if pat = [] then some 0 else none
  | b :: s => if pat.isPrefixOf (b :: s) then some 0 else (findText pat s).map (· + 1)

/-- A text that is found stands where it is found. -/
lemma prefix_drop_of_findText {pat s : Bytes} {i : ℕ} (h : findText pat s = some i) :
    pat <+: s.drop i := by
  induction s generalizing i with
  | nil =>
    rw [findText] at h
    split_ifs at h with hpat
    rw [hpat]
    exact List.nil_prefix
  | cons b s ih =>
    rw [findText] at h
    split_ifs at h with hpat
    · cases h
      exact List.isPrefixOf_iff_prefix.mp hpat
    · obtain ⟨j, hj, rfl⟩ := Option.map_eq_some_iff.mp h
      exact ih hj

lemma findText_eq_none_iff {pat s : Bytes} : findText pat s = none ↔ ¬ pat <:+: s := by
  induction s with
  | nil =>
    rw [findText, List.infix_nil]
    split_ifs with hpat <;> simp [hpat]
  | cons b s ih =>
    rw [findText, List.infix_cons_iff, not_or, ← ih]
    split_ifs with hpat
    · simp [List.isPrefixOf_iff_prefix.mp hpat]
    · have hstart : ¬ pat <+: b :: s := fun h => hpat (List.isPrefixOf_iff_prefix.mpr h)
      simp [hstart]

/-- A text does not stand in front of where it is found. -/
lemma not_infix_take_of_findText {pat s : Bytes} (hpat : pat ≠ []) {i : ℕ}
    (h : findText pat s = some i) : ¬ pat <:+: s.take i := by
  induction s generalizing i with
  | nil => simpa using hpat
  | cons b s ih =>
    rw [findText] at h
    split_ifs at h with hstart
    · cases h
      simpa using hpat
    · obtain ⟨j, hj, rfl⟩ := Option.map_eq_some_iff.mp h
      rw [List.take_succ_cons, List.infix_cons_iff, not_or]
      refine ⟨fun hprefix => hstart ?_, ih hj⟩
      rw [List.isPrefixOf_iff_prefix]
      exact hprefix.trans (List.cons_prefix_cons.mpr ⟨rfl, List.take_prefix j s⟩)

/-- A pair of characters is found behind a text that does not hold it, unless the texts meet inside
the pair. -/
lemma findText_pair_append {a b : UInt8} {s t : Bytes} (hs : ¬ [a, b] <:+: s)
    (ht : t.head? ≠ some b) : findText [a, b] (s ++ t) =
      (findText [a, b] t).map (· + s.length) := by
  induction s with
  | nil => simp
  | cons x s ih =>
    rw [List.infix_cons_iff, not_or] at hs
    have hstart : ¬ [a, b] <+: x :: (s ++ t) := by
      intro hpre
      obtain ⟨rfl, hnext⟩ := List.cons_prefix_cons.mp hpre
      cases s with
      | nil =>
        obtain ⟨back, hback⟩ := hnext
        rw [List.nil_append] at hback
        exact ht (by rw [← hback]; rfl)
      | cons y s =>
        obtain ⟨hy, -⟩ := List.cons_prefix_cons.mp hnext
        exact hs.1 ⟨s, by rw [hy]; rfl⟩
    rw [List.cons_append, findText, if_neg (fun h => hstart (List.isPrefixOf_iff_prefix.mp h)),
      ih hs.2, Option.map_map]
    rfl

/-! ### Decimal numbers -/

/-- The value of a digit. -/
def digitValue (b : UInt8) : ℕ := b.toNat - 0x30

/-- One round of a decimal parser that refuses values above `max`. -/
def pushDigit (max : ℕ) (value : ℕ) (b : UInt8) : Option ℕ :=
  if isAsciiDigit b ∧ value * 10 + digitValue b ≤ max then some (value * 10 + digitValue b)
  else none

/-- A run of decimal digits as a number of at most `max`. -/
def parseDigits (max : ℕ) (s : Bytes) : Option ℕ := s.foldlM (pushDigit max) 0

/-- `str::parse` for an unsigned type with greatest value `max`: an optional plus sign, then at
least one digit. -/
def parseUnsigned (max : ℕ) : Bytes → Option ℕ
  | [] => none
  | [b] => if b == 0x2b || b == 0x2d then none else parseDigits max [b]
  | b :: c :: s => if b == 0x2b then parseDigits max (c :: s) else parseDigits max (b :: c :: s)

/-- The value of a list of digits. -/
def decimalValue (s : Bytes) : ℕ := s.foldl (fun value b => value * 10 + digitValue b) 0

lemma decimalValue_concat (s : Bytes) (b : UInt8) :
    decimalValue (s ++ [b]) = decimalValue s * 10 + digitValue b := by
  simp [decimalValue]

lemma foldl_digitValue (s : Bytes) (n : ℕ) :
    s.foldl (fun value b => value * 10 + digitValue b) n = n * 10 ^ s.length + decimalValue s := by
  induction s using List.reverseRecOn with
  | nil => simp [decimalValue]
  | append_singleton s b ih =>
    rw [List.foldl_concat, ih, decimalValue_concat, List.length_append, List.length_singleton]
    ring

lemma decimalValue_cons (b : UInt8) (s : Bytes) :
    decimalValue (b :: s) = digitValue b * 10 ^ s.length + decimalValue s := by
  rw [decimalValue, List.foldl_cons, foldl_digitValue, Nat.zero_mul, Nat.zero_add]

lemma digitValue_lt {b : UInt8} (h : isAsciiDigit b) : digitValue b < 10 := by
  simp only [isAsciiDigit, Bool.and_eq_true, decide_eq_true_eq, UInt8.le_iff_toNat_le] at h
  have hhigh : b.toNat ≤ 57 := h.2
  rw [digitValue]
  omega

lemma digitValue_lt_digitValue {a b : UInt8} (ha : isAsciiDigit a) (h : a < b) :
    digitValue a < digitValue b := by
  simp only [isAsciiDigit, Bool.and_eq_true, decide_eq_true_eq, UInt8.le_iff_toNat_le] at ha
  have hlow : 48 ≤ a.toNat := ha.1
  have hlt : a.toNat < b.toNat := UInt8.lt_iff_toNat_lt.mp h
  rw [digitValue, digitValue]
  omega

lemma decimalValue_lt {s : Bytes} (h : ∀ b ∈ s, isAsciiDigit b) :
    decimalValue s < 10 ^ s.length := by
  induction s with
  | nil => simp [decimalValue]
  | cons b s ih =>
    rw [List.forall_mem_cons] at h
    have hdigit : digitValue b + 1 ≤ 10 := digitValue_lt h.1
    calc decimalValue (b :: s) = digitValue b * 10 ^ s.length + decimalValue s :=
          decimalValue_cons b s
      _ < digitValue b * 10 ^ s.length + 10 ^ s.length := Nat.add_lt_add_left (ih h.2) _
      _ = (digitValue b + 1) * 10 ^ s.length := by ring
      _ ≤ 10 * 10 ^ s.length := Nat.mul_le_mul_right _ hdigit
      _ = 10 ^ (b :: s).length := by rw [List.length_cons, pow_succ']

/-- Numbers of the same length stand in the order of their digits. -/
theorem decimalValue_lt_decimalValue {s t : Bytes} (hlen : s.length = t.length)
    (hs : ∀ b ∈ s, isAsciiDigit b) (h : s < t) : decimalValue s < decimalValue t := by
  induction s generalizing t with
  | nil =>
    rw [List.eq_nil_of_length_eq_zero hlen.symm] at h
    exact absurd h (lt_irrefl _)
  | cons a s ih =>
    obtain ⟨b, t, rfl⟩ := List.exists_cons_of_length_eq_add_one hlen.symm
    rw [List.forall_mem_cons] at hs
    rw [List.length_cons, List.length_cons, Nat.add_right_cancel_iff] at hlen
    rw [decimalValue_cons, decimalValue_cons]
    rcases List.cons_lt_cons_iff.mp h with hlt | ⟨rfl, hlt⟩
    · have hdigit : digitValue a + 1 ≤ digitValue b := digitValue_lt_digitValue hs.1 hlt
      calc digitValue a * 10 ^ s.length + decimalValue s
          < digitValue a * 10 ^ s.length + 10 ^ s.length :=
            Nat.add_lt_add_left (decimalValue_lt hs.2) _
        _ = (digitValue a + 1) * 10 ^ s.length := by ring
        _ ≤ digitValue b * 10 ^ t.length := by
            rw [hlen]
            exact Nat.mul_le_mul_right _ hdigit
        _ ≤ digitValue b * 10 ^ t.length + decimalValue t := Nat.le_add_right _ _
    · rw [hlen]
      exact Nat.add_lt_add_left (ih hlen hs.2 hlt) _

/-- The digit parser computes the value of the digits, when that is at most `max`. -/
lemma parseDigits_eq_some_iff {max n : ℕ} {s : Bytes} :
    parseDigits max s = some n ↔ (∀ b ∈ s, isAsciiDigit b) ∧ decimalValue s = n ∧ n ≤ max := by
  induction s using List.reverseRecOn generalizing n with
  | nil =>
    simp only [parseDigits, List.foldlM_nil, Option.pure_def, Option.some.injEq, decimalValue,
      List.foldl_nil]
    constructor
    · rintro rfl
      simp
    · exact fun h => h.2.1
  | append_singleton s b ih =>
    have hstep : parseDigits max (s ++ [b]) = (parseDigits max s).bind (pushDigit max · b) := by
      simp [parseDigits, List.foldlM_append]
    rw [hstep, Option.bind_eq_some_iff, decimalValue_concat]
    constructor
    · rintro ⟨m, hm, hb⟩
      obtain ⟨hs, rfl, -⟩ := ih.mp hm
      simp only [pushDigit, Option.ite_none_right_eq_some, Option.some.injEq] at hb
      obtain ⟨⟨hdigit, hle⟩, rfl⟩ := hb
      refine ⟨fun c hc => ?_, rfl, hle⟩
      rcases List.mem_append.mp hc with hc | hc
      · exact hs c hc
      · exact (List.mem_singleton.mp hc) ▸ hdigit
    · rintro ⟨hs, rfl, hle⟩
      refine ⟨decimalValue s, ih.mpr ⟨fun c hc => hs c (by simp [hc]), rfl, by omega⟩, ?_⟩
      simp [pushDigit, hs b (by simp), hle]

/-- The digits of a number, the last one from each round. -/
def decimalRounds : ℕ → ℕ → Bytes
  | 0, _ => []
  | fuel + 1, n =>
    (if n < 10 then [] else decimalRounds fuel (n / 10)) ++ [0x30 + UInt8.ofNat (n % 10)]

/-- `to_string` for an unsigned number. -/
def decimal (n : ℕ) : Bytes := decimalRounds (n + 1) n

lemma digit_spec (n : ℕ) : isAsciiDigit (0x30 + UInt8.ofNat (n % 10)) ∧
    digitValue (0x30 + UInt8.ofNat (n % 10)) = n % 10 := by
  have hlt : n % 10 < 10 := Nat.mod_lt _ (by omega)
  generalize n % 10 = d at hlt
  interval_cases d <;> exact ⟨by decide, by decide⟩

lemma decimalRounds_spec (fuel n : ℕ) (hfuel : n < fuel) :
    (∀ b ∈ decimalRounds fuel n, isAsciiDigit b) ∧ decimalValue (decimalRounds fuel n) = n := by
  induction fuel generalizing n with
  | zero => omega
  | succ fuel ih =>
    rw [decimalRounds, decimalValue_concat, (digit_spec n).2]
    split_ifs with hlt
    · refine ⟨by simpa using (digit_spec n).1, ?_⟩
      rw [decimalValue, List.foldl_nil]
      omega
    · obtain ⟨hdigits, hvalue⟩ := ih (n / 10) (by omega)
      refine ⟨fun b hb => ?_, by omega⟩
      rw [List.mem_append, List.mem_singleton] at hb
      rcases hb with hb | rfl
      · exact hdigits b hb
      · exact (digit_spec n).1

lemma isAsciiDigit_of_mem_decimal {n : ℕ} : ∀ b ∈ decimal n, isAsciiDigit b :=
  (decimalRounds_spec _ n (by omega)).1

lemma decimal_ne_nil (n : ℕ) : decimal n ≠ [] := by
  rw [decimal, decimalRounds]
  simp

lemma length_decimalRounds_le {fuel n k : ℕ} (h : n < 10 ^ (k + 1)) :
    (decimalRounds fuel n).length ≤ k + 1 := by
  induction fuel generalizing n k with
  | zero => exact Nat.zero_le _
  | succ fuel ih =>
    rw [decimalRounds, List.length_append, List.length_singleton]
    split_ifs with hlt
    · exact Nat.le_add_left 1 k
    · cases k with
      | zero => omega
      | succ k =>
        rw [Nat.pow_succ] at h
        exact Nat.succ_le_succ (ih (Nat.div_lt_of_lt_mul (by omega)))

lemma length_decimal_le {n k : ℕ} (h : n < 10 ^ (k + 1)) : (decimal n).length ≤ k + 1 :=
  length_decimalRounds_le h

/-- Parsing undoes printing. -/
theorem parseDigits_decimal {max n : ℕ} (h : n ≤ max) : parseDigits max (decimal n) = some n :=
  parseDigits_eq_some_iff.mpr
    ⟨isAsciiDigit_of_mem_decimal, (decimalRounds_spec _ n (by omega)).2, h⟩

/-- Without a sign in front, a nonempty number is its run of digits. -/
lemma parseUnsigned_eq_parseDigits {max : ℕ} {s : Bytes} (hs : s ≠ [])
    (h : ∀ b ∈ s.head?, b ≠ 0x2b ∧ b ≠ 0x2d) : parseUnsigned max s = parseDigits max s := by
  match s with
  | [] => exact absurd rfl hs
  | [b] => simp [parseUnsigned, h b rfl]
  | b :: c :: s => simp [parseUnsigned, (h b rfl).1]

/-- A number is made of digits and a sign. -/
lemma isPrintable_of_parseUnsigned {max n : ℕ} {s : Bytes} (h : parseUnsigned max s = some n) :
    ∀ b ∈ s, isPrintable b := by
  have hdigits : ∀ {t : Bytes}, parseDigits max t = some n → ∀ b ∈ t, isPrintable b := by
    intro t ht b hb
    have hdigit := (parseDigits_eq_some_iff.mp ht).1 b hb
    grind [isAsciiDigit, isPrintable, isAsciiGraphic]
  match s with
  | [] => simp
  | [b] =>
    rw [parseUnsigned] at h
    split_ifs at h
    exact hdigits h
  | b :: c :: s =>
    rw [parseUnsigned] at h
    split_ifs at h with hsign
    · rw [List.forall_mem_cons, beq_iff_eq.mp hsign]
      exact ⟨by decide, hdigits h⟩
    · exact hdigits h

end Text
