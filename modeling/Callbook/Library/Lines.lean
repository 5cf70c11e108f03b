import Callbook.Library.Utf8

/-!
# Lines and words

A text file is read line by line and a line word by word. Lines that were written with a line feed
each, and words that were written with a space in between, are read back.
-/

namespace Text

lemma splitInclusive_append_cons {sep : UInt8} {line : Bytes} (h : sep ∉ line) (rest : Bytes) :
    splitInclusive sep (line ++ sep :: rest) = (line ++ [sep]) :: splitInclusive sep rest := by
  induction line with
  | nil => rw [List.nil_append, splitInclusive, if_pos rfl, List.nil_append]
  | cons b line ih =>
    rw [List.mem_cons, not_or] at h
    rw [List.cons_append, splitInclusive, if_neg (Ne.symm h.1), ih h.2]
    rfl

/-- A piece holds the separator at its end at most. -/
lemma notMem_dropLast_of_mem_splitInclusive {sep : UInt8} {s piece : Bytes}
    (h : piece ∈ splitInclusive sep s) : piece ≠ [] ∧ sep ∉ piece.dropLast := by
  induction s generalizing piece with
  | nil => cases h
  | cons b s ih =>
    rw [splitInclusive] at h
    split_ifs at h with hb
    · rcases List.mem_cons.mp h with rfl | h
      · simp
      · exact ih h
    · cases hs : splitInclusive sep s with
      | nil =>
        rw [hs] at h
        rw [List.mem_singleton.mp h]
        simp
      | cons next rest =>
        rw [hs] at h ih
        rcases List.mem_cons.mp h with rfl | h
        · obtain ⟨hne, hnext⟩ := ih List.mem_cons_self
          rw [List.dropLast_cons_of_ne_nil hne, List.mem_cons, not_or]
          exact ⟨List.cons_ne_nil _ _, Ne.symm hb, hnext⟩
        · exact ih (List.mem_cons_of_mem _ h)

lemma notMem_of_mem_lines {s line : Bytes} (h : line ∈ lines s) : 0x0a ∉ line := by
  obtain ⟨piece, hpiece, rfl⟩ := List.mem_map.mp h
  obtain ⟨hne, hdrop⟩ := notMem_dropLast_of_mem_splitInclusive hpiece
  dsimp only
  split_ifs with hlast
  · exact fun hfeed => hdrop ((List.dropLast_sublist _).subset hfeed)
  · exact hdrop
  · intro hfeed
    rw [← List.dropLast_append_getLast hne, List.mem_append, List.mem_singleton] at hfeed
    rcases hfeed with hfeed | hfeed
    · exact hdrop hfeed
    · exact hlast (by rw [List.getLast?_eq_getLast_of_ne_nil hne, hfeed])

lemma mem_of_mem_splitOn {sep b : UInt8} {s part : Bytes} (h : part ∈ s.splitOn sep)
    (hb : b ∈ part) : b ∈ s := by
  induction s generalizing part with
  | nil =>
    rw [List.splitOn_nil, List.mem_singleton] at h
    rwa [h] at hb
  | cons a s ih =>
    obtain ⟨first, parts, hparts⟩ := List.exists_cons_of_ne_nil (List.splitOn_ne_nil sep s)
    rw [List.splitOn_cons_eq_if_modifyHead] at h
    split_ifs at h
    · rcases List.mem_cons.mp h with rfl | h
      · cases hb
      · exact List.mem_cons_of_mem _ (ih h hb)
    · rw [hparts, List.modifyHead_cons] at h
      rw [hparts] at ih
      rcases List.mem_cons.mp h with rfl | h
      · rcases List.mem_cons.mp hb with rfl | hb
        · exact List.mem_cons_self
        · exact List.mem_cons_of_mem _ (ih List.mem_cons_self hb)
      · exact List.mem_cons_of_mem _ (ih (List.mem_cons_of_mem _ h) hb)

/-- A line that can be written with a line feed behind it. -/
def IsLine (line : Bytes) : Prop := 0x0a ∉ line ∧ line.getLast? ≠ some 0x0d

/-- Lines that end with a line feed each are read back. -/
theorem lines_flatMap {l : List Bytes} (h : ∀ line ∈ l, IsLine line) :
    lines (l.flatMap (· ++ [0x0a])) = l := by
  rw [lines]
  induction l with
  | nil => rfl
  | cons line l ih =>
    rw [List.forall_mem_cons] at h
    rw [List.flatMap_cons, List.append_assoc, List.singleton_append,
      splitInclusive_append_cons h.1.1, List.map_cons, ih h.2]
    simp [h.1.2]

end Text

namespace Utf8

open Text

/-- A word that is complete, if there is one. -/
def flushWord (word : Bytes) : List Bytes := if word = [] then [] else [word]

/-- Each round takes a byte of a word or a white-space character. -/
def splitWhitespaceLoop : ℕ → Bytes → Bytes → List Bytes
  | 0, word, _ => flushWord word
  | _ + 1, word, [] => flushWord word
  | fuel + 1, word, b :: s =>
    match stripOne whiteSpace (b :: s) with
    | some rest => flushWord word ++ splitWhitespaceLoop fuel [] rest
    | none => splitWhitespaceLoop fuel (word ++ [b]) s

/-- `str::split_whitespace`. -/
def splitWhitespace (s : Bytes) : List Bytes := splitWhitespaceLoop s.length [] s

/-- A word as it can be written: graphic ASCII. -/
def IsWord (word : Bytes) : Prop := word ≠ [] ∧ ∀ b ∈ word, isAsciiGraphic b

instance (word : Bytes) : Decidable (IsWord word) := inferInstanceAs (Decidable (_ ∧ _))

/-- Words with one space in between. -/
def joinWords : List Bytes → Bytes
  | [] => []
  | [word] => word
  | word :: words => word ++ 0x20 :: joinWords words

lemma stripOne_whiteSpace_graphic {b : UInt8} (hb : isAsciiGraphic b) (s : Bytes) :
    stripOne whiteSpace (b :: s) = none :=
  stripOne_of_graphic_head fun a ha => by
    rw [List.head?_cons, Option.mem_def, Option.some.injEq] at ha
    exact ha ▸ hb

lemma stripOne_whiteSpace_space (s : Bytes) : stripOne whiteSpace (0x20 :: s) = some s := by
  simp [stripOne, whiteSpace, List.isPrefixOf]

/-- The bytes of a word are taken one by one. -/
lemma splitWhitespaceLoop_append {w : Bytes} (hw : ∀ b ∈ w, isAsciiGraphic b) (fuel : ℕ)
    (word rest : Bytes) : splitWhitespaceLoop (w.length + fuel) word (w ++ rest) =
      splitWhitespaceLoop fuel (word ++ w) rest := by
  induction w generalizing word with
  | nil => simp
  | cons b w ih =>
    rw [List.forall_mem_cons] at hw
    rw [List.length_cons, Nat.add_right_comm, List.cons_append, splitWhitespaceLoop,
      stripOne_whiteSpace_graphic hw.1]
    simp only
    rw [ih hw.2, List.append_assoc, List.singleton_append]

lemma splitWhitespaceLoop_nil (fuel : ℕ) (word : Bytes) :
    splitWhitespaceLoop fuel word [] = flushWord word := by
  cases fuel <;> rfl

/-- A word is split off at the space behind it. -/
lemma splitWhitespace_append_space {word : Bytes} (h : IsWord word) (rest : Bytes) :
    splitWhitespace (word ++ 0x20 :: rest) = word :: splitWhitespace rest := by
  rw [splitWhitespace, List.length_append, splitWhitespaceLoop_append h.2, List.nil_append,
    List.length_cons, splitWhitespaceLoop, stripOne_whiteSpace_space, flushWord, if_neg h.1]
  rfl

lemma splitWhitespace_word {word : Bytes} (h : IsWord word) : splitWhitespace word = [word] := by
  have hloop := splitWhitespaceLoop_append h.2 0 [] []
  rw [List.append_nil, Nat.add_zero] at hloop
  rw [splitWhitespace, hloop, List.nil_append, splitWhitespaceLoop_nil, flushWord, if_neg h.1]

/-- Words with a space in between are read back. -/
theorem splitWhitespace_joinWords {words : List Bytes} (h : ∀ word ∈ words, IsWord word) :
    splitWhitespace (joinWords words) = words := by
  induction words with
  | nil => rfl
  | cons word words ih =>
    rw [List.forall_mem_cons] at h
    cases words with
    | nil => exact splitWhitespace_word h.1
    | cons next words => rw [joinWords, splitWhitespace_append_space h.1, ih h.2]; simp

/-- A text of words is trimmed. -/
lemma isTrimmed_joinWords {words : List Bytes} (hne : words ≠ [])
    (h : ∀ word ∈ words, IsWord word) : IsTrimmed (joinWords words) := by
  induction words with
  | nil => exact absurd rfl hne
  | cons word words ih =>
    rw [List.forall_mem_cons] at h
    have hword : IsTrimmed word := ⟨h.1.1, trim_eq_self h.1.2⟩
    cases words with
    | nil => exact hword
    | cons next words =>
      exact hword.append_cons (by decide) (ih (List.cons_ne_nil _ _) h.2)

/-- A text of words is one line. -/
lemma isLine_joinWords {words : List Bytes} (h : ∀ word ∈ words, IsWord word) :
    IsLine (joinWords words) := by
  have hmem : ∀ b ∈ joinWords words, isAsciiGraphic b ∨ b = 0x20 := by
    induction words with
    | nil => exact fun b hb => nomatch hb
    | cons word words ih =>
      rw [List.forall_mem_cons] at h
      intro b hb
      cases words with
      | nil => exact .inl (h.1.2 b hb)
      | cons next words =>
        rw [joinWords, List.mem_append, List.mem_cons] at hb
        · rcases hb with hb | rfl | hb
          · exact .inl (h.1.2 b hb)
          · exact .inr rfl
          · exact ih h.2 b hb
        · simp
  constructor
  · intro hfeed
    rcases hmem _ hfeed with h | h <;> revert h <;> decide
  · intro hlast
    rcases hmem _ (List.mem_of_getLast? hlast) with h | h <;> revert h <;> decide

/-! ### Fields -/

/-- A separator keeps what stands around it from being trimmed. -/
lemma trim_append_cons {s t : Bytes} (hs : trim s = s) {sep : UInt8} (hsep : isAsciiGraphic sep)
    (ht : trim t = t) : trim (s ++ sep :: t) = s ++ sep :: t := by
  have hlow : sep < 0x80 := lt_128_of_isPrintable (isPrintable_of_isAsciiGraphic hsep)
  refine trim_eq_self_iff.mpr ⟨?_, ?_⟩
  · rcases eq_or_ne s [] with rfl | hne
    · exact stripOne_whiteSpace_graphic hsep t
    · exact stripOne_append_cons asciiAlone_whiteSpace (trim_eq_self_iff.mp hs).1 hne hlow t
  · rcases eq_or_ne t [] with rfl | hne
    · exact stripOne_reverse_of_graphic_last fun a ha => by
        rw [List.getLast?_concat, Option.mem_def, Option.some.injEq] at ha
        exact ha ▸ hsep
    · rw [List.reverse_append, List.reverse_cons, List.append_assoc, List.singleton_append]
      exact stripOne_append_cons asciiAlone_whiteSpace.map_reverse (trim_eq_self_iff.mp ht).2
        (by simpa using hne) hlow s.reverse

lemma notMem_intercalate {sep b : UInt8} (hne : b ≠ sep) {fields : List Bytes}
    (h : ∀ field ∈ fields, b ∉ field) : b ∉ [sep].intercalate fields := by
  induction fields with
  | nil => exact List.not_mem_nil
  | cons field fields ih =>
    rw [List.forall_mem_cons] at h
    cases fields with
    | nil => simpa using h.1
    | cons next fields =>
      rw [List.intercalate_cons_cons, List.append_assoc, List.singleton_append, List.mem_append,
        List.mem_cons, not_or, not_or]
      exact ⟨h.1, hne, ih h.2⟩

/-- Fields that are trimmed make a line that is. -/
lemma trim_intercalate {sep : UInt8} (hsep : isAsciiGraphic sep) {fields : List Bytes}
    (h : ∀ field ∈ fields, trim field = field) :
    trim ([sep].intercalate fields) = [sep].intercalate fields := by
  induction fields with
  | nil => rfl
  | cons field fields ih =>
    rw [List.forall_mem_cons] at h
    cases fields with
    | nil => simpa using h.1
    | cons next fields =>
      rw [List.intercalate_cons_cons, List.append_assoc, List.singleton_append]
      exact trim_append_cons h.1 hsep (ih h.2)

end Utf8
