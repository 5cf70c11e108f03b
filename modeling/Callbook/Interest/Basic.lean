import Callbook.Callsign

/-!
# The interest-profile catalog

Interest codes have four digits. A record carries them concatenated; the catalog gives each code a
category and a label.
-/

namespace Callbook

open Text

structure InterestDefinition where
  code : Str
  category : Str
  label : Str
  deriving DecidableEq, Repr

/-- Resolved interest selected on a callsign snapshot. -/
structure ResolvedInterest where
  code : Str
  category : Str
  label : Str
  deriving DecidableEq, Repr

structure InterestTable where
  definitions : List InterestDefinition
  byCode : Std.ExtTreeMap Bytes ℕ

/-- A code is looked up only when it has four digits. -/
def codeKey (bytes : Bytes) : Option Bytes :=
  if bytes.length = 4 ∧ bytes.all isAsciiDigit then some bytes else none

namespace InterestTable

/-- Parsing state: the table so far and the category the next codes belong to. -/
structure ParseState where
  table : InterestTable
  category : Str

/-- One line of the catalog. -/
def parseLine (st : ParseState) (line : Str) : ParseState :=
  let line := Utf8.trim line
  if line = [] then st
  else if (ascii "---").isPrefixOf line then { st with category := Utf8.trim (line.drop 3) }
  else
    match splitOnce 0x2a line with
    | none => st
    | some (code, label) =>
      let code := Utf8.trim code
      let label := Utf8.trim label
      if code.length ≠ 4 ∨ ¬ code.all isAsciiDigit ∨ label = [] then st
      else
        { st with
          table :=
            { definitions := st.table.definitions ++ [⟨code, st.category, label⟩]
              byCode := st.table.byCode.insert code st.table.definitions.length } }

/-- `InterestTable::parse`. -/
def parse (text : Str) : InterestTable :=
  ((lines text).foldl parseLine ⟨⟨[], ∅⟩, []⟩).table

/-- `InterestTable::lookup`. -/
def lookup (table : InterestTable) (code : Str) : Option InterestDefinition := do
  let key ← codeKey code
  let index ← table.byCode[key]?
  table.definitions[index]?

/-- `InterestTable::codes`: the four-digit pieces of a raw code field. -/
def codes (raw : Str) : List Str := (chunksExact 4 raw).filter (·.all isAsciiDigit)

/-- `InterestTable::resolve_raw`. -/
def resolveRaw (table : InterestTable) (raw : Str) : List ResolvedInterest :=
  (codes raw).filterMap fun code =>
    (table.lookup code).map fun d => ⟨d.code, d.category, d.label⟩

lemma isCode_of_mem_codes {raw code : Str} (h : code ∈ codes raw) :
    code.length = 4 ∧ code.all isAsciiDigit := by
  obtain ⟨hpiece, hdigits⟩ := List.mem_filter.mp h
  exact ⟨length_of_mem_chunksExact (by decide) hpiece, hdigits⟩

/-! ### What a code is looked up as -/

/-- The index leads from a code to a definition of that code. -/
def Indexed (table : InterestTable) : Prop :=
  ∀ (key : Bytes) (i : ℕ), table.byCode[key]? = some i →
    ∃ d : InterestDefinition, table.definitions[i]? = some d ∧ d.code = key

lemma indexed_parseLine {st : ParseState} (h : st.table.Indexed) (line : Str) :
    (parseLine st line).table.Indexed := by
  unfold parseLine
  dsimp only
  split_ifs
  · exact h
  · exact h
  · split
    · exact h
    · rename_i code label _
      split_ifs
      · exact h
      · intro key i hget
        rw [Std.ExtTreeMap.getElem?_insert] at hget
        split_ifs at hget with heq
        · obtain rfl := Option.some.inj hget
          exact ⟨_, List.getElem?_concat_length, Std.LawfulEqCmp.eq_of_compare heq⟩
        · obtain ⟨d, hd, hcode⟩ := h key i hget
          have hlt := (List.getElem?_eq_some_iff.mp hd).1
          exact ⟨d, by rw [List.getElem?_append_left hlt, hd], hcode⟩

lemma indexed_parse (text : Str) : (parse text).Indexed := by
  rw [parse]
  generalize hst : (⟨⟨[], ∅⟩, []⟩ : ParseState) = st
  have hindexed : st.table.Indexed := by
    rw [← hst]
    intro key i hget
    simp at hget
  clear hst
  induction lines text generalizing st with
  | nil => exact hindexed
  | cons line rest ih => exact ih _ (indexed_parseLine hindexed line)

/-- A catalog that was parsed finds a code under itself. -/
theorem code_of_lookup_parse {text code : Str} {d : InterestDefinition}
    (h : (parse text).lookup code = some d) : d.code = code := by
  simp only [lookup, Option.bind_eq_bind, Option.bind_eq_some_iff] at h
  obtain ⟨key, hkey, i, hi, hd⟩ := h
  rw [codeKey] at hkey
  split_ifs at hkey
  obtain ⟨d', hd', hcode⟩ := indexed_parse text key i hi
  obtain rfl := Option.some.inj (hd.symm.trans hd')
  rw [hcode, ← Option.some.inj hkey]

end InterestTable

end Callbook
