import Callbook.Country.Panics

/-!
# Lines of the country-prefix table

A line holds two prefixes in columns of six characters, a name, a code in brackets and the values
of the tags. The parts of a line are written one behind the other and looked for again. A line
without a code reads as one with a code when a tag value puts text in brackets behind a space.
-/

namespace Callbook

open Text

/-! ### Writing a line -/

/-- The characters of a prefix: uppercase letters, digits and `/`. -/
def isBoundCharacter (b : UInt8) : Bool := isAsciiUppercase b || isAsciiDigit b || b == 0x2f

/-- A prefix that fits its column. -/
def IsBound (s : Str) : Prop := s ≠ [] ∧ s.length ≤ 6 ∧ ∀ b ∈ s, isBoundCharacter b

instance (s : Str) : Decidable (IsBound s) := inferInstanceAs (Decidable (_ ∧ _ ∧ _))

/-- The six tags, in the order they are written in. -/
def tagCharacters : List UInt8 := [0x21, 0x40, 0x23, 0x24, 0x25, 0x5e]

/-- What a line is made of; `value` has the text of each tag that is given. -/
structure RuleParts where
  start : Str
  «end» : Str
  name : Str
  code : Option Str
  value : UInt8 → Option Str
  start_bound : IsBound start
  end_bound : IsBound «end»
  name_valid : Utf8.Valid name
  name_trimmed : Utf8.IsTrimmed name
  name_chars : ∀ b ∈ name, b ∉ tagCharacters ∧ b ≠ 0x0a
  name_bracket : ¬ ascii " [" <:+: name
  code_trimmed : ∀ c ∈ code, Utf8.IsTrimmed c
  code_chars : ∀ c ∈ code, ∀ b ∈ c, b ∉ tagCharacters ∧ b ≠ 0x5d ∧ b ≠ 0x0a
  value_trimmed : ∀ tag, ∀ v ∈ value tag, Utf8.IsTrimmed v
  value_chars : ∀ tag, ∀ v ∈ value tag, ∀ b ∈ v, b ∉ tagDelimiters ∧ b ≠ 0x0a

/-- A column of six characters. -/
def column (s : Str) : Str := s ++ List.replicate (6 - s.length) 0x20

/-- The given tags, each with its value behind it. -/
def tagsText (value : UInt8 → Option Str) (tags : List UInt8) : Str :=
  tags.flatMap fun tag => (value tag).elim [] (tag :: ·)

namespace RuleParts

variable (parts : RuleParts)

/-- The code in brackets, behind a space. -/
def codeText : Str := parts.code.elim [] fun code => ascii " [" ++ (code ++ [0x5d])

def label : Str := parts.name ++ parts.codeText

def tags : Str := tagsText parts.value tagCharacters

def line : Str := column parts.start ++ column parts.end ++ (parts.label ++ parts.tags)

end RuleParts

/-- The text a line has behind its columns. -/
def ruleText (line : Str) : Str := Utf8.trim ((Panic.strGet line 12 line.length).getD [])

/-- The line is a table of one rule, and every part of it is found again. -/
def RuleParts.ReadsBack (parts : RuleParts) (source : CountryInfoSource) : Prop :=
  ∃ table rule, CountryTable.parseWithSource parts.line source = .ok table ∧
    table.rules = [rule] ∧ rule.start = parts.start ∧ rule.end = parts.end ∧
    rule.country.rawName = parts.name ∧ rule.country.code = parts.code ∧
    (∀ tag ∈ tagCharacters, parseTagString (ruleText parts.line) tag = parts.value tag) ∧
    rule.country.ituZone = (parts.value 0x21).bind (parseUnsigned 65535) ∧
    rule.country.cqZone = (parts.value 0x40).bind (parseUnsigned 65535) ∧
    rule.country.continent = parts.value 0x23 ∧
    rule.country.latitude = (parts.value 0x24).bind F64.parse ∧
    rule.country.longitude = (parts.value 0x25).bind F64.parse ∧
    rule.country.numericCode = (parts.value 0x5e).bind (parseUnsigned 65535)

/-- Behind the first ` [` of the tags there is no `]`, or only blanks before it. -/
def RuleParts.NoStrayCode (parts : RuleParts) : Prop :=
  ∀ front inner back, parts.tags = front ++ (ascii " [" ++ (inner ++ 0x5d :: back)) →
    ¬ ascii " [" <:+: front → 0x5d ∉ inner → Utf8.trim inner = []

/-! ### The columns -/

lemma isAsciiGraphic_of_isBoundCharacter {b : UInt8} (h : isBoundCharacter b) :
    isAsciiGraphic b := by
  grind [isBoundCharacter, isAsciiUppercase, isAsciiDigit, isAsciiGraphic]

lemma isContinuation_of_isAsciiGraphic {b : UInt8} (h : isAsciiGraphic b) :
    Utf8.isContinuation b = false := by
  grind [isAsciiGraphic, Utf8.isContinuation]

namespace IsBound

variable {s : Str}

lemma graphic (h : IsBound s) : ∀ b ∈ s, isAsciiGraphic b := fun b hb =>
  isAsciiGraphic_of_isBoundCharacter (h.2.2 b hb)

lemma length_column (h : IsBound s) : (column s).length = 6 := by
  have hlen := h.2.1
  rw [column, List.length_append, List.length_replicate]
  omega

lemma trim_column (h : IsBound s) : Utf8.trim (column s) = s :=
  Utf8.trim_append_replicate ⟨h.1, Utf8.trim_eq_self h.graphic⟩ _

lemma toAsciiUppercase_eq (h : IsBound s) : toAsciiUppercase s = s := by
  apply toAsciiUppercase_eq_self
  intro b hb
  have hchar := h.2.2 b hb
  grind [isBoundCharacter, isAsciiUppercase, isAsciiDigit, isAsciiLowercase]

lemma line_feed_notMem (h : IsBound s) : 0x0a ∉ column s := by
  rw [column, List.mem_append, not_or]
  exact ⟨fun hmem => absurd (h.graphic _ hmem) (by decide), by simp⟩

lemma head?_lt (h : IsBound s) : ∀ b ∈ s.head?, b < 0x80 := fun b hb =>
  lt_128_of_isPrintable (isPrintable_of_isAsciiGraphic (h.graphic b (List.mem_of_mem_head? hb)))

/-- A column starts with the prefix. -/
lemma exists_column_append (h : IsBound s) (r : Str) :
    ∃ b back, column s ++ r = b :: back ∧ isBoundCharacter b := by
  obtain ⟨b, s, rfl⟩ := List.exists_cons_of_ne_nil h.1
  exact ⟨b, _, rfl, h.2.2 b List.mem_cons_self⟩

end IsBound

/-! ### The tags -/

section Tags

variable {value : UInt8 → Option Str}

/-- The value of a tag goes up to the next delimiter. -/
lemma parseTagString_append {label : Str} {tag : UInt8} (h : tag ∉ label) (text : Str) :
    parseTagString (label ++ tag :: text) tag =
      if Utf8.trim (text.takeWhile (· ∉ tagDelimiters)) = [] then none
      else some (Utf8.trim (text.takeWhile (· ∉ tagDelimiters))) := by
  have hdrop : (label ++ tag :: text).drop (label.length + 1) = text := by simp
  rw [parseTagString, findIdx?_append_cons h, Option.bind_eq_bind, Option.bind_some, hdrop]

lemma tagsText_cons (tag : UInt8) (tags : List UInt8) :
    tagsText value (tag :: tags) = (value tag).elim [] (tag :: ·) ++ tagsText value tags := rfl

/-- The text of the tags is empty or starts with a tag. -/
lemma head?_tagsText (tags : List UInt8) : ∀ b ∈ (tagsText value tags).head?, b ∈ tags := by
  induction tags with
  | nil => simp [tagsText]
  | cons tag tags ih =>
    rw [tagsText_cons]
    cases value tag with
    | none => exact fun b hb => List.mem_cons_of_mem _ (ih b hb)
    | some v => simp

/-- Each tag is found with its own value: no other value holds the tag or goes on behind one. -/
lemma parseTagString_tagsText {tags : List UInt8} (htags : ∀ tag ∈ tags, tag ∈ tagDelimiters)
    (htrimmed : ∀ tag, ∀ v ∈ value tag, Utf8.IsTrimmed v)
    (hchars : ∀ tag, ∀ v ∈ value tag, ∀ b ∈ v, b ∉ tagDelimiters) {label : Str} {tag : UInt8}
    (htag : tag ∈ tagDelimiters) (hlabel : tag ∉ label) :
    parseTagString (label ++ tagsText value tags) tag =
      if tag ∈ tags then value tag else none := by
  induction tags generalizing label with
  | nil =>
    simp [tagsText, parseTagString, findIdx?_eq_none hlabel]
  | cons first tags ih =>
    have ih := @ih fun t ht => htags t (List.mem_cons_of_mem _ ht)
    rw [tagsText_cons]
    cases hv : value first with
    | none =>
      rw [Option.elim_none, List.nil_append, ih hlabel]
      by_cases hfirst : tag = first
      · subst hfirst
        simp [hv]
      · simp [hfirst]
    | some v =>
      rw [Option.elim_some, List.cons_append]
      by_cases hfirst : tag = first
      · subst hfirst
        have htake : (v ++ tagsText value tags).takeWhile (· ∉ tagDelimiters) = v := by
          rw [List.takeWhile_append_of_pos (by simpa using hchars tag v hv)]
          cases htext : tagsText value tags with
          | nil => simp
          | cons b text =>
            have hb := head?_tagsText tags b (by rw [htext]; rfl)
            have hdelimiter := htags b (List.mem_cons_of_mem _ hb)
            simp [hdelimiter]
        obtain ⟨hne, htrim⟩ := htrimmed tag v hv
        rw [parseTagString_append hlabel, htake, htrim, if_neg hne, hv,
          if_pos List.mem_cons_self]
      · have hnotin : tag ∉ label ++ first :: v := by
          rw [List.mem_append, List.mem_cons, not_or, not_or]
          exact ⟨hlabel, hfirst, fun hmem => hchars first v hv tag hmem htag⟩
        have hassoc : label ++ first :: (v ++ tagsText value tags) =
            label ++ first :: v ++ tagsText value tags := by simp
        rw [hassoc, ih hnotin]
        simp [hfirst]

/-- Values behind a trimmed label leave it trimmed. -/
lemma isTrimmed_append_tagsText {tags : List UInt8} (htags : ∀ tag ∈ tags, tag < 0x80)
    (htrimmed : ∀ tag, ∀ v ∈ value tag, Utf8.IsTrimmed v) {label : Str}
    (hlabel : Utf8.IsTrimmed label) : Utf8.IsTrimmed (label ++ tagsText value tags) := by
  induction tags generalizing label with
  | nil => simpa [tagsText] using hlabel
  | cons tag tags ih =>
    have ih := @ih fun t ht => htags t (List.mem_cons_of_mem _ ht)
    rw [tagsText_cons, ← List.append_assoc]
    apply ih
    cases hv : value tag with
    | none => simpa using hlabel
    | some v => exact hlabel.append_cons (htags tag List.mem_cons_self) (htrimmed tag v hv)

end Tags

/-! ### The code -/

/-- The code in the first brackets behind a space. -/
def bracketedCode (rest : Str) : Option Str := do
  let start ← findText (ascii " [") rest
  let after := rest.drop (start + 2)
  let «end» ← after.findIdx? (· == 0x5d)
  let code := Utf8.trim (after.take «end»)
  if code = [] then none else some code

lemma parseCountryInfo_code (rest : Str) (source : CountryInfoSource) :
    (parseCountryInfo rest source).code = bracketedCode rest := rfl

lemma findText_bracket_append {front text : Str} (hfront : ¬ ascii " [" <:+: front)
    (htext : text.head? ≠ some 0x5b) :
    findText (ascii " [") (front ++ text) = (findText (ascii " [") text).map (· + front.length) :=
  findText_pair_append hfront htext

/-- A text without ` [` in front does not change the code. -/
lemma bracketedCode_append {front text : Str} (hfront : ¬ ascii " [" <:+: front)
    (htext : text.head? ≠ some 0x5b) : bracketedCode (front ++ text) = bracketedCode text := by
  rw [bracketedCode, bracketedCode, findText_bracket_append hfront htext]
  cases findText (ascii " [") text with
  | none => rfl
  | some i =>
    have hdrop : (front ++ text).drop (i + front.length + 2) = text.drop (i + 2) := by
      rw [Nat.add_right_comm, Nat.add_comm, List.drop_append, List.drop_eq_nil_of_le (by omega),
        List.nil_append, Nat.add_sub_cancel_left]
    simp [hdrop]

lemma bracketedCode_bracket {inner : Str} (h : 0x5d ∉ inner) (back : Str) :
    bracketedCode (ascii " [" ++ (inner ++ 0x5d :: back)) =
      if Utf8.trim inner = [] then none else some (Utf8.trim inner) := by
  have hstart : findText (ascii " [") (ascii " [" ++ (inner ++ 0x5d :: back)) = some 0 := rfl
  have hdrop : (ascii " [" ++ (inner ++ 0x5d :: back)).drop (0 + 2) = inner ++ 0x5d :: back := rfl
  simp only [bracketedCode, hstart, Option.bind_eq_bind, Option.bind_some, hdrop,
    findIdx?_append_cons h, List.take_left]

/-- There is no code when the first brackets are not closed or blank. -/
lemma bracketedCode_eq_none_iff {text : Str} : bracketedCode text = none ↔
    ∀ front inner back, text = front ++ (ascii " [" ++ (inner ++ 0x5d :: back)) →
      ¬ ascii " [" <:+: front → 0x5d ∉ inner → Utf8.trim inner = [] := by
  constructor
  · rintro h front inner back rfl hfront hinner
    rw [bracketedCode_append hfront (by simp [ascii]), bracketedCode_bracket hinner] at h
    by_contra hne
    simp [hne] at h
  · intro h
    cases hstart : findText (ascii " [") text with
    | none => simp [bracketedCode, hstart]
    | some i =>
      obtain ⟨after, hafter⟩ := prefix_drop_of_findText hstart
      have hfront := not_infix_take_of_findText (by decide) hstart
      have htext : text = text.take i ++ (ascii " [" ++ after) := by
        rw [hafter, List.take_append_drop]
      rw [htext, bracketedCode_append hfront (by simp [ascii])]
      cases hend : splitOnce 0x5d after with
      | none =>
        have hidx := Option.map_eq_none_iff.mp hend
        have hfind : findText (ascii " [") (ascii " [" ++ after) = some 0 := rfl
        have hdrop : (ascii " [" ++ after).drop (0 + 2) = after := rfl
        simp [bracketedCode, hfind, hdrop, hidx]
      | some split =>
        obtain ⟨inner, back⟩ := split
        obtain ⟨rfl, hinner⟩ := splitOnce_eq_some_iff.mp hend
        rw [bracketedCode_bracket hinner, if_pos (h _ _ _ htext hfront hinner)]

/-! ### The name -/

lemma firstOf_eq_some_iff {positions : List (Option ℕ)} {n : ℕ} :
    firstOf positions = some n ↔ some n ∈ positions ∧ ∀ i, some i ∈ positions → n ≤ i := by
  rw [firstOf, List.min?_eq_some_iff]
  simp

/-- The first position in a text is the end of a part that has none of them. -/
lemma le_of_findIdx?_append {tag : UInt8} {name back : Str} (h : tag ∉ name) {i : ℕ}
    (hi : (name ++ back).findIdx? (· == tag) = some i) : name.length ≤ i := by
  rw [findIdx?_append h, Option.map_eq_some_iff] at hi
  obtain ⟨j, -, rfl⟩ := hi
  exact Nat.le_add_left _ _

/-- Where the name ends. -/
def nameEnd (rest : Str) : ℕ :=
  (firstOf [findText (ascii " [") rest, firstOf
    (tagCharacters.map fun tag => rest.findIdx? (· == tag))]).getD rest.length

lemma parseCountryInfo_rawName (rest : Str) (source : CountryInfoSource) :
    (parseCountryInfo rest source).rawName = Utf8.trim (rest.take (nameEnd rest)) := rfl

/-- A name that is all of the text ends with it. -/
lemma nameEnd_self {name : Str} (hchars : ∀ tag ∈ tagCharacters, tag ∉ name)
    (hbracket : ¬ ascii " [" <:+: name) : nameEnd name = name.length := by
  have hmeta : firstOf (tagCharacters.map fun tag => name.findIdx? (· == tag)) = none := by
    rw [Option.eq_none_iff_forall_ne_some]
    intro i hi
    obtain ⟨tag, htag, hidx⟩ := List.mem_map.mp (mem_of_firstOf hi)
    rw [findIdx?_eq_none (hchars tag htag)] at hidx
    cases hidx
  rw [nameEnd, hmeta, findText_eq_none_iff.mpr hbracket]
  rfl

/-- A name ends where ` [` or a tag stands behind it. -/
lemma nameEnd_append {name back : Str} (hchars : ∀ tag ∈ tagCharacters, tag ∉ name)
    (hbracket : ¬ ascii " [" <:+: name)
    (hback : (∃ after, back = ascii " [" ++ after) ∨
      ∃ tag ∈ tagCharacters, ∃ after, back = tag :: after) :
    nameEnd (name ++ back) = name.length := by
  have hopen : back.head? ≠ some 0x5b := by
    rcases hback with ⟨after, rfl⟩ | ⟨tag, htag, after, rfl⟩
    · simp [ascii]
    · revert htag tag
      simp [tagCharacters]
  have hstart := findText_bracket_append hbracket hopen
  have hmetaLe : ∀ i, some i ∈ tagCharacters.map (fun tag => (name ++ back).findIdx? (· == tag)) →
      name.length ≤ i := by
    intro i hi
    obtain ⟨tag, htag, hidx⟩ := List.mem_map.mp hi
    exact le_of_findIdx?_append (hchars tag htag) hidx
  have hend : firstOf [findText (ascii " [") (name ++ back), firstOf
      (tagCharacters.map fun tag => (name ++ back).findIdx? (· == tag))] = some name.length := by
    rw [firstOf_eq_some_iff, List.mem_pair]
    refine ⟨?_, fun i hi => ?_⟩
    · rcases hback with ⟨after, rfl⟩ | ⟨tag, htag, after, rfl⟩
      · left
        have hzero : findText (ascii " [") (ascii " [" ++ after) = some 0 := rfl
        rw [hstart, hzero, Option.map_some, Nat.zero_add]
      · right
        rw [eq_comm, firstOf_eq_some_iff]
        refine ⟨List.mem_map.mpr ⟨tag, htag, ?_⟩, hmetaLe⟩
        exact findIdx?_append_cons (hchars tag htag) after
    · rw [List.mem_pair] at hi
      rcases hi with hi | hi
      · rw [hstart] at hi
        obtain ⟨j, -, rfl⟩ := Option.map_eq_some_iff.mp hi.symm
        exact Nat.le_add_left _ _
      · exact hmetaLe i (mem_of_firstOf hi.symm)
  rw [nameEnd, hend, Option.getD_some]

/-! ### Reading a line back -/

lemma tagCharacters_spec : ∀ tag ∈ tagCharacters, tag ∈ tagDelimiters ∧ tag < 0x80 ∧ tag ≠ 0x5d ∧
    tag ≠ 0x5b ∧ tag ≠ 0x20 := by decide +kernel

namespace RuleParts

variable (parts : RuleParts)

lemma notMem_name {tag : UInt8} (htag : tag ∈ tagCharacters) : tag ∉ parts.name := fun hmem =>
  (parts.name_chars tag hmem).1 htag

lemma notMem_label {tag : UInt8} (htag : tag ∈ tagCharacters) : tag ∉ parts.label := by
  obtain ⟨-, -, hclose, hopen, hspace⟩ := tagCharacters_spec tag htag
  have hchars := parts.code_chars
  rw [label, codeText, List.mem_append, not_or]
  refine ⟨parts.notMem_name htag, ?_⟩
  cases hcode : parts.code with
  | none => simp
  | some code =>
    have hcodeChars : tag ∉ code := fun hmem => (hchars code hcode tag hmem).1 htag
    simp [ascii, hclose, hopen, hspace, hcodeChars]

/-- Brackets around a code are trimmed. -/
lemma isTrimmed_label : Utf8.IsTrimmed parts.label := by
  rw [label, codeText]
  cases parts.code with
  | none => simpa using parts.name_trimmed
  | some code =>
    have hbrackets : Utf8.IsTrimmed (0x5b :: (code ++ [0x5d])) := by
      apply Utf8.isTrimmed_of_ends (List.cons_ne_nil _ _)
      · simp [isAsciiGraphic]
      · rw [← List.cons_append, List.getLast?_append]
        simp [isAsciiGraphic]
    exact parts.name_trimmed.append_cons (by decide) hbrackets

lemma isTrimmed_rest : Utf8.IsTrimmed (parts.label ++ parts.tags) :=
  isTrimmed_append_tagsText (fun tag htag => (tagCharacters_spec tag htag).2.1)
    parts.value_trimmed parts.isTrimmed_label

/-- The name is the first thing behind the columns. -/
lemma isContinuation_head : ∀ b ∈ (parts.label ++ parts.tags).head?,
    Utf8.isContinuation b = false := by
  obtain ⟨b, name, hname⟩ := List.exists_cons_of_ne_nil parts.name_trimmed.1
  have hchain := parts.name_valid.isChain_cons 0
  rw [hname, Utf8.AsciiClosed, List.isChain_cons_cons] at hchain
  intro a ha
  rw [label, hname] at ha
  cases ha
  by_contra hcont
  have := hchain.1 (by simpa using hcont)
  revert this
  decide

lemma isContinuation_column {s : Str} (h : IsBound s) (r : Str) :
    ∀ b ∈ (column s ++ r).head?, Utf8.isContinuation b = false := by
  obtain ⟨a, back, hcolumn, ha⟩ := h.exists_column_append r
  rw [hcolumn]
  intro b hb
  cases hb
  exact isContinuation_of_isAsciiGraphic (isAsciiGraphic_of_isBoundCharacter ha)

/-- The three cuts of a line. -/
lemma strGet_line : Panic.strGet parts.line 0 6 = some (column parts.start) ∧
    Panic.strGet parts.line 6 12 = some (column parts.end) ∧
    Panic.strGet parts.line 12 parts.line.length = some (parts.label ++ parts.tags) := by
  have hstart := parts.start_bound.length_column
  have hend := parts.end_bound.length_column
  have hboth : (column parts.start ++ column parts.end).length = 12 := by
    rw [List.length_append, hstart, hend]
  refine ⟨?_, ?_, ?_⟩
  · have hcut := @Panic.strGet_append [] (column parts.start)
      (column parts.end ++ (parts.label ++ parts.tags))
      (isContinuation_column parts.start_bound _) (isContinuation_column parts.end_bound _)
    rwa [List.nil_append, List.length_nil, hstart, Nat.zero_add, ← List.append_assoc] at hcut
  · have hcut := @Panic.strGet_append (column parts.start) (column parts.end)
      (parts.label ++ parts.tags) (isContinuation_column parts.end_bound _)
      parts.isContinuation_head
    rwa [hstart, hend] at hcut
  · have hcut := @Panic.strGet_append (column parts.start ++ column parts.end)
      (parts.label ++ parts.tags) [] (by simpa using parts.isContinuation_head) (by simp)
    rwa [List.append_nil, ← List.length_append, hboth] at hcut

lemma ruleText_line : ruleText parts.line = parts.label ++ parts.tags := by
  rw [ruleText, parts.strGet_line.2.2]
  exact parts.isTrimmed_rest.2

/-- The name comes out of the line whatever stands behind it. -/
lemma rawName_eq (source : CountryInfoSource) :
    (parseCountryInfo (parts.label ++ parts.tags) source).rawName = parts.name := by
  have hend : nameEnd (parts.label ++ parts.tags) = parts.name.length := by
    rw [label, List.append_assoc]
    cases hback : parts.codeText ++ parts.tags with
    | nil =>
      rw [List.append_nil]
      exact nameEnd_self (fun tag => parts.notMem_name) parts.name_bracket
    | cons b back =>
      apply nameEnd_append (fun tag => parts.notMem_name) parts.name_bracket
      cases hcode : parts.code with
      | some code =>
        left
        rw [← hback, codeText, hcode, Option.elim_some, List.append_assoc]
        exact ⟨_, rfl⟩
      | none =>
        right
        rw [codeText, hcode, Option.elim_none, List.nil_append] at hback
        exact ⟨b, head?_tagsText _ b (by rw [← tags, hback]; rfl), back, rfl⟩
  rw [parseCountryInfo_rawName, hend, label, List.append_assoc, List.take_left,
    parts.name_trimmed.2]

/-- A code that is given comes out of the line; without one the tags are searched. -/
lemma code_eq (source : CountryInfoSource) :
    (parseCountryInfo (parts.label ++ parts.tags) source).code =
      if parts.code.isSome then parts.code else bracketedCode parts.tags := by
  rw [parseCountryInfo_code, label, List.append_assoc]
  cases hcode : parts.code with
  | none =>
    have hopen : parts.tags.head? ≠ some 0x5b := fun h =>
      absurd (head?_tagsText _ _ h) (by decide)
    rw [codeText, hcode, Option.elim_none, List.nil_append,
      bracketedCode_append parts.name_bracket hopen]
    rfl
  | some code =>
    obtain ⟨hne, htrim⟩ := parts.code_trimmed code hcode
    have hclose : 0x5d ∉ code := fun hmem => (parts.code_chars code hcode _ hmem).2.1 rfl
    have htext : parts.codeText ++ parts.tags =
        ascii " [" ++ (code ++ 0x5d :: parts.tags) := by
      simp [codeText, hcode]
    rw [htext, bracketedCode_append parts.name_bracket (by simp [ascii]),
      bracketedCode_bracket hclose, htrim, if_neg hne]
    rfl

/-- Each tag has its own value. -/
lemma parseTagString_rest {tag : UInt8} (htag : tag ∈ tagCharacters) :
    parseTagString (parts.label ++ parts.tags) tag = parts.value tag := by
  rw [tags, parseTagString_tagsText (fun tag htag => (tagCharacters_spec tag htag).1)
    parts.value_trimmed (fun tag v hv b hb => (parts.value_chars tag v hv b hb).1)
    (tagCharacters_spec tag htag).1 (parts.notMem_label htag), if_pos htag]

lemma parseRule_line (source : CountryInfoSource) : parseRule source parts.line =
    some ⟨parts.start, parts.end, parseCountryInfo (parts.label ++ parts.tags) source⟩ := by
  obtain ⟨hstart, hend, -⟩ := parts.strGet_line
  obtain ⟨b, back, hline, hb⟩ := parts.start_bound.exists_column_append
    (column parts.end ++ (parts.label ++ parts.tags))
  rw [← List.append_assoc] at hline
  have hhash : parts.line.head? ≠ some 0x23 := by
    rw [line, hline, List.head?_cons, Ne, Option.some_inj]
    rintro rfl
    cases hb
  have hblank : Utf8.trim parts.line ≠ [] := by
    apply Utf8.trim_ne_nil_of_graphic _ (isAsciiGraphic_of_isBoundCharacter hb)
    rw [line, hline]
    exact List.mem_cons_self
  have hlong : ¬ parts.line.length < 12 := by
    rw [line, List.length_append, List.length_append, parts.start_bound.length_column,
      parts.end_bound.length_column]
    omega
  have hname : (parseCountryInfo (parts.label ++ parts.tags) source).name = parts.name :=
    parts.rawName_eq source
  have hrest := parts.ruleText_line
  rw [ruleText] at hrest
  rw [parseRule, if_neg (by simp [hhash, hblank, hlong])]
  simp only [hstart, hend, hrest, Option.getD_some, parts.start_bound.trim_column,
    parts.end_bound.trim_column, parts.start_bound.1, parts.end_bound.1, hname,
    parts.name_trimmed.1, parts.start_bound.toAsciiUppercase_eq,
    parts.end_bound.toAsciiUppercase_eq, or_self, if_false]

lemma line_feed_notMem : 0x0a ∉ parts.line := by
  have hcode : 0x0a ∉ parts.codeText := by
    rw [codeText]
    cases hc : parts.code with
    | none => exact List.not_mem_nil
    | some code =>
      have hchars : 0x0a ∉ code := fun hmem => (parts.code_chars code hc _ hmem).2.2 rfl
      simp [ascii, hchars]
  have htags : 0x0a ∉ parts.tags := by
    rw [tags, tagsText, List.mem_flatMap]
    rintro ⟨tag, htag, hmem⟩
    cases hv : parts.value tag with
    | none => simp [hv] at hmem
    | some v =>
      rw [hv, Option.elim_some, List.mem_cons] at hmem
      rcases hmem with rfl | hmem
      · exact absurd htag (by decide)
      · exact (parts.value_chars tag v hv _ hmem).2 rfl
  simp only [line, label, List.mem_append, not_or]
  exact ⟨⟨parts.start_bound.line_feed_notMem, parts.end_bound.line_feed_notMem⟩,
    ⟨fun hmem => (parts.name_chars _ hmem).2 rfl, hcode⟩, htags⟩

/-- The line is a table of one rule. -/
lemma exists_parseWithSource_line (source : CountryInfoSource) :
    ∃ table, CountryTable.parseWithSource parts.line source = .ok table ∧
      table.rules = [⟨parts.start, parts.end,
        parseCountryInfo (parts.label ++ parts.tags) source⟩] := by
  have hne : parts.line ≠ [] := by
    obtain ⟨b, back, hline, -⟩ := parts.start_bound.exists_column_append
      (column parts.end ++ (parts.label ++ parts.tags))
    rw [← List.append_assoc] at hline
    rw [line, hline]
    exact List.cons_ne_nil b back
  have hrules : CountryTable.fileRules parts.line source = [⟨parts.start, parts.end,
      parseCountryInfo (parts.label ++ parts.tags) source⟩] := by
    rw [CountryTable.fileRules, lines_eq_singleton hne parts.line_feed_notMem,
      List.filterMap_cons, parts.parseRule_line, List.filterMap_nil]
  have hbuckets : ∀ rule ∈ CountryTable.fileRules parts.line source, rule.HasBuckets := by
    rw [hrules, List.forall_mem_singleton]
    exact ⟨parts.start_bound.head?_lt, parts.end_bound.head?_lt⟩
  obtain ⟨table, htable⟩ := exists_parseWithSource_iff.mpr hbuckets
  refine ⟨table, htable, ?_⟩
  rw [CountryTable.rules_of_parseWithSource htable, hrules]
  rfl

/-- All but the code is found again on every line. -/
lemma readsBack_iff_code (source : CountryInfoSource) : parts.ReadsBack source ↔
    (parseCountryInfo (parts.label ++ parts.tags) source).code = parts.code := by
  obtain ⟨table, htable, hrules⟩ := parts.exists_parseWithSource_line source
  have htags : ∀ tag ∈ tagCharacters, parseTagString (parts.label ++ parts.tags) tag =
      parts.value tag := fun tag => parts.parseTagString_rest
  constructor
  · rintro ⟨table', rule, htable', hrules', -, -, -, hcode, -⟩
    rw [htable] at htable'
    cases htable'
    rw [hrules] at hrules'
    cases hrules'
    exact hcode
  · intro hcode
    rw [ReadsBack, parts.ruleText_line]
    refine ⟨table, _, htable, hrules, rfl, rfl, parts.rawName_eq source, hcode, htags, ?_⟩
    simp only [parseCountryInfo, parseTagU16, parseTagF64]
    rw [htags 0x21 (by decide), htags 0x40 (by decide), htags 0x23 (by decide),
      htags 0x24 (by decide), htags 0x25 (by decide), htags 0x5e (by decide)]
    exact ⟨rfl, rfl, rfl, rfl, rfl, rfl⟩

end RuleParts

/-- A line reads back as its parts exactly when the code is given or no tag value can be taken for
one. -/
theorem ruleLine_readsBack_iff (parts : RuleParts) (source : CountryInfoSource) :
    parts.ReadsBack source ↔ parts.code.isSome ∨ parts.NoStrayCode := by
  rw [parts.readsBack_iff_code, parts.code_eq, RuleParts.NoStrayCode, ← bracketedCode_eq_none_iff]
  cases parts.code <;> simp

/-- `A     A     A#x [y]`: a tag value with text in brackets. -/
def strayParts : RuleParts where
  start := ascii "A"
  «end» := ascii "A"
  name := ascii "A"
  code := none
  value tag := if tag = 0x23 then some (ascii "x [y]") else none
  start_bound := by decide +kernel
  end_bound := by decide +kernel
  name_valid := by decide +kernel
  name_trimmed := by decide +kernel
  name_chars := by decide +kernel
  name_bracket := by decide +kernel
  code_trimmed := by simp
  code_chars := by simp
  value_trimmed := by
    intro tag v hv
    split_ifs at hv
    · cases hv
      decide +kernel
    · cases hv
  value_chars := by
    intro tag v hv
    split_ifs at hv
    · cases hv
      decide +kernel
    · cases hv

/-- The line of `strayParts` has the code `y`. -/
theorem not_forall_ruleLine_readsBack :
    ¬ ∀ (parts : RuleParts) (source : CountryInfoSource), parts.ReadsBack source := by
  intro h
  have hcode := (strayParts.readsBack_iff_code .unknown).mp (h strayParts .unknown)
  have hrun : (parseCountryInfo (strayParts.label ++ strayParts.tags) .unknown).code =
      some (ascii "y") := by decide +kernel
  rw [hrun] at hcode
  cases hcode

end Callbook
