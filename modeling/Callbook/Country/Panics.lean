import Callbook.Country.Priority

/-!
# Where country matching panics

The source cuts strings at byte positions and indexes 128 buckets by a first byte. The functions of
`Checked` parse a sidecar text with these cuts; on valid text every cut is at a character boundary,
so that only the buckets can fail. Matching a call cuts the call and both bounds of a rule at the
rule's width, and panics when one of the cuts is inside a character.
-/

namespace Callbook

open Text StableSort

/-! ### Parsing with the cuts of the source -/

namespace Checked

/-- `parse_tag_string`. -/
def parseTagString (text : Str) (tag : UInt8) : Except Panic (Option Str) :=
  match text.findIdx? (· == tag) with
  | none => .ok none
  | some position => do
    let rest ← Panic.strDrop text (position + 1)
    let value := Utf8.trim (rest.takeWhile (· ∉ tagDelimiters))
    pure (if value = [] then none else some value)

def parseTagU16 (text : Str) (tag : UInt8) : Except Panic (Option ℕ) := do
  let value ← parseTagString text tag
  pure (value.bind (parseUnsigned 65535))

def parseTagF64 (text : Str) (tag : UInt8) : Except Panic (Option F64) := do
  let value ← parseTagString text tag
  pure (value.bind F64.parse)

/-- The code between ` [` and the next `]`. -/
def bracketedCode (rest : Str) : Option ℕ → Except Panic (Option Str)
  | none => .ok none
  | some start => do
    let after ← Panic.strDrop rest (start + 2)
    match after.findIdx? (· == 0x5d) with
    | none => pure none
    | some «end» => do
      let inside ← Panic.strTake after «end»
      let code := Utf8.trim inside
      pure (if code = [] then none else some code)

/-- `parse_country_info`. -/
def parseCountryInfo (rest : Str) (source : CountryInfoSource) : Except Panic CountryInfo := do
  let tagStart := findText (ascii " [") rest
  let metadataStart := firstOf
    ([0x21, 0x40, 0x23, 0x24, 0x25, 0x5e].map fun tag => rest.findIdx? (· == tag))
  let nameEnd := (firstOf [tagStart, metadataStart]).getD rest.length
  let name ← Panic.strTake rest nameEnd
  let rawName := Utf8.trim name
  let code ← bracketedCode rest tagStart
  let ituZone ← parseTagU16 rest 0x21
  let cqZone ← parseTagU16 rest 0x40
  let continent ← parseTagString rest 0x23
  let latitude ← parseTagF64 rest 0x24
  let longitude ← parseTagF64 rest 0x25
  let numericCode ← parseTagU16 rest 0x5e
  pure {
    name := rawName
    rawName := rawName
    cleanedName := cleanCountryLabel rawName
    code := code
    jurisdiction := classify rawName code
    ituZone := ituZone
    cqZone := cqZone
    continent := continent
    latitude := latitude
    longitude := longitude
    numericCode := numericCode
    source := source }

/-- The rule on one line; the columns are read with `get`, which does not panic. -/
def parseRule (source : CountryInfoSource) (line : Str) : Except Panic (Option CountryRule) :=
  if line.head? = some 0x23 ∨ Utf8.trim line = [] ∨ line.length < 12 then .ok none
  else
    let start := Utf8.trim ((Panic.strGet line 0 6).getD [])
    let «end» := Utf8.trim ((Panic.strGet line 6 12).getD [])
    if start = [] ∨ «end» = [] then .ok none
    else do
      let rest := Utf8.trim ((Panic.strGet line 12 line.length).getD [])
      let parsed ← parseCountryInfo rest source
      pure (if parsed.name = [] then none
        else some ⟨toAsciiUppercase start, toAsciiUppercase «end», parsed⟩)

/-- `CountryTable::parse_with_source`. -/
def parseWithSource (text : Str) (source : CountryInfoSource) : Except Panic CountryTable := do
  let found ← Panic.collect (fun _ => true) (parseRule source) (lines text)
  let rules := sortBy ruleOrder found
  match h : buildFirstByteIndex rules with
  | .error e => .error e
  | .ok index => .ok ⟨rules, index, sorted_sortBy _ _, h⟩

end Checked

/-! ### Every cut of valid text is at a character boundary -/

variable {text rest line : Str} {source : CountryInfoSource}

/-- The position of an ASCII character, and the one behind it. -/
lemma boundary_of_findIdx? (h : Utf8.AsciiClosed text) {tag : UInt8} (htag : tag < 0x80) {i : ℕ}
    (hi : text.findIdx? (· == tag) = some i) :
    Utf8.isCharBoundary text i ∧ Utf8.isCharBoundary text (i + 1) := by
  obtain ⟨hlt, heq, -⟩ := List.findIdx?_eq_some_iff_getElem.mp hi
  have hget : text[i]? = some tag := by
    rw [List.getElem?_eq_getElem hlt, eq_of_beq heq]
  have hcont : Utf8.isContinuation tag = false := by
    rw [Utf8.isContinuation, Bool.and_eq_false_iff]
    exact Or.inl (by simpa using htag)
  exact ⟨Utf8.isCharBoundary_of_getElem? hget hcont, h.isCharBoundary_succ hget htag⟩

lemma boundary_of_findText (h : Utf8.AsciiClosed rest) {i : ℕ}
    (hi : findText (ascii " [") rest = some i) :
    Utf8.isCharBoundary rest i ∧ Utf8.isCharBoundary rest (i + 2) := by
  obtain ⟨back, hback⟩ := prefix_drop_of_findText hi
  have hfirst : rest[i]? = some 0x20 := by
    rw [← Nat.add_zero i, ← List.getElem?_drop, ← hback]
    rfl
  have hsecond : rest[i + 1]? = some 0x5b := by
    rw [← List.getElem?_drop, ← hback]
    rfl
  exact ⟨Utf8.isCharBoundary_of_getElem? hfirst rfl, h.isCharBoundary_succ hsecond (by decide)⟩

lemma mem_of_firstOf {positions : List (Option ℕ)} {i : ℕ} (h : firstOf positions = some i) :
    some i ∈ positions := by
  have hmem := List.min?_mem h
  simpa using hmem

lemma Checked.parseTagString_eq (h : Utf8.AsciiClosed text) {tag : UInt8} (htag : tag < 0x80) :
    Checked.parseTagString text tag = .ok (Callbook.parseTagString text tag) := by
  rw [Checked.parseTagString, Callbook.parseTagString]
  cases hi : text.findIdx? (· == tag) with
  | none => rfl
  | some i =>
    simp only [Panic.strDrop_eq_ok (boundary_of_findIdx? h htag hi).2]
    rfl

lemma Checked.parseTagU16_eq (h : Utf8.AsciiClosed text) {tag : UInt8} (htag : tag < 0x80) :
    Checked.parseTagU16 text tag = .ok (Callbook.parseTagU16 text tag) := by
  rw [Checked.parseTagU16, Checked.parseTagString_eq h htag]
  rfl

lemma Checked.parseTagF64_eq (h : Utf8.AsciiClosed text) {tag : UInt8} (htag : tag < 0x80) :
    Checked.parseTagF64 text tag = .ok (Callbook.parseTagF64 text tag) := by
  rw [Checked.parseTagF64, Checked.parseTagString_eq h htag]
  rfl

lemma Checked.bracketedCode_eq (h : Utf8.AsciiClosed rest) :
    Checked.bracketedCode rest (findText (ascii " [") rest) = .ok (do
      let start ← findText (ascii " [") rest
      let after := rest.drop (start + 2)
      let «end» ← after.findIdx? (· == 0x5d)
      let code := Utf8.trim (after.take «end»)
      if code = [] then none else some code) := by
  cases hstart : findText (ascii " [") rest with
  | none => rfl
  | some start =>
    rw [Checked.bracketedCode, Panic.strDrop_eq_ok (boundary_of_findText h hstart).2]
    have hafter : Utf8.AsciiClosed (rest.drop (start + 2)) :=
      h.infix (List.drop_suffix _ _).isInfix
    cases hend : (rest.drop (start + 2)).findIdx? (· == 0x5d) with
    | none => simp [bind, Except.bind, hend, pure, Except.pure]
    | some i =>
      have hcut := Panic.strTake_eq_ok (boundary_of_findIdx? hafter (by decide) hend).1
      simp [bind, Except.bind, hend, hcut, pure, Except.pure]

/-- The name ends before ` [`, before a tag, or with the text. -/
lemma boundary_nameEnd (h : Utf8.AsciiClosed rest) :
    Utf8.isCharBoundary rest ((firstOf [findText (ascii " [") rest, firstOf
      ([0x21, 0x40, 0x23, 0x24, 0x25, 0x5e].map fun tag => rest.findIdx? (· == tag))]).getD
        rest.length) := by
  cases hend : firstOf [findText (ascii " [") rest, firstOf
      ([0x21, 0x40, 0x23, 0x24, 0x25, 0x5e].map fun tag => rest.findIdx? (· == tag))] with
  | none => simp [Utf8.isCharBoundary]
  | some i =>
    rw [Option.getD_some]
    have hmem := mem_of_firstOf hend
    rw [List.mem_pair] at hmem
    rcases hmem with htag | hmeta
    · exact (boundary_of_findText h htag.symm).1
    · obtain ⟨tag, htag, hi⟩ := List.mem_map.mp (mem_of_firstOf hmeta.symm)
      have hascii : ∀ tag ∈ ([0x21, 0x40, 0x23, 0x24, 0x25, 0x5e] : List UInt8), tag < 0x80 := by
        decide +kernel
      exact (boundary_of_findIdx? h (hascii tag htag) hi).1

lemma Checked.parseCountryInfo_eq (h : Utf8.AsciiClosed rest) :
    Checked.parseCountryInfo rest source = .ok (Callbook.parseCountryInfo rest source) := by
  unfold Checked.parseCountryInfo Callbook.parseCountryInfo
  dsimp only
  rw [Panic.strTake_eq_ok (boundary_nameEnd h), Panic.ok_bind, Checked.bracketedCode_eq h,
    Panic.ok_bind, Checked.parseTagU16_eq h (by decide), Panic.ok_bind,
    Checked.parseTagU16_eq h (by decide), Panic.ok_bind, Checked.parseTagString_eq h (by decide),
    Panic.ok_bind, Checked.parseTagF64_eq h (by decide), Panic.ok_bind,
    Checked.parseTagF64_eq h (by decide), Panic.ok_bind, Checked.parseTagU16_eq h (by decide),
    Panic.ok_bind]
  rfl

lemma Checked.parseRule_eq (h : Utf8.AsciiClosed line) :
    Checked.parseRule source line = .ok (Callbook.parseRule source line) := by
  have hrest : Utf8.AsciiClosed (Utf8.trim ((Panic.strGet line 12 line.length).getD [])) := by
    apply Utf8.AsciiClosed.of_infix _ (Utf8.trim_infix _)
    cases hget : Panic.strGet line 12 line.length with
    | none => exact List.IsChain.nil
    | some t => exact h.infix (Panic.strGet_infix hget)
  simp only [Checked.parseRule, Callbook.parseRule, Checked.parseCountryInfo_eq hrest,
    Panic.ok_bind]
  split_ifs <;> rfl

/-- On valid text only the first-byte index can fail. -/
lemma Checked.parseWithSource_eq (h : Utf8.Valid text) :
    Checked.parseWithSource text source = CountryTable.parseWithSource text source := by
  have hrules : Panic.collect (fun _ => true) (Checked.parseRule source) (lines text) =
      .ok (CountryTable.fileRules text source) := by
    apply Panic.collect_eq_ok_filterMap
    intro line hline
    exact Checked.parseRule_eq (h.asciiClosed.of_infix (infix_of_mem_lines hline))
  rw [Checked.parseWithSource, hrules]
  rfl

/-! ### The buckets of the first-byte index -/

/-- Both bounds start with a character that has a bucket. -/
def CountryRule.HasBuckets (rule : CountryRule) : Prop :=
  (∀ b ∈ rule.start.head?, b < 0x80) ∧ ∀ b ∈ rule.end.head?, b < 0x80

instance (rule : CountryRule) : Decidable rule.HasBuckets := inferInstanceAs (Decidable (_ ∧ _))

lemma CountryRule.forall_matchingFirstBytes_iff (rule : CountryRule) :
    (∀ b ∈ matchingFirstBytes rule.start rule.end, b.toNat < 128) ↔ rule.HasBuckets := by
  have hlast : (∀ b ∈ matchingFirstBytes rule.start rule.end, b.toNat < 128) ↔
      max (rule.start.head?.getD 0) (rule.end.head?.getD (rule.start.head?.getD 0)) < 0x80 := by
    constructor
    · intro h
      exact UInt8.lt_iff_toNat_lt.mpr (h _ (mem_matchingFirstBytes.mpr ⟨min_le_max, le_rfl⟩))
    · intro h b hb
      exact UInt8.lt_iff_toNat_lt.mp ((mem_matchingFirstBytes.mp hb).2.trans_lt h)
  rw [hlast, max_lt_iff, HasBuckets]
  cases hstart : rule.start.head? <;> cases hend : rule.end.head? <;> simp

lemma length_of_pushIndex {i : ℕ} {index index' : List (List ℕ)} {byte : UInt8}
    (hlen : index.length = 128) (h : pushIndex index byte i = .ok index') :
    index'.length = 128 := by
  rw [pushIndex] at h
  split_ifs at h
  cases h
  simpa using hlen

lemma length_of_indexRule {rule : CountryRule × ℕ} {index index' : List (List ℕ)}
    (hlen : index.length = 128) (h : indexRule index rule = .ok index') : index'.length = 128 :=
  Panic.inv_of_foldlM_eq_ok (fun _ _ _ => length_of_pushIndex) hlen h

/-- A rule is entered without a panic when its first bytes have buckets. -/
lemma exists_indexRule_iff {rule : CountryRule × ℕ} {index : List (List ℕ)}
    (hlen : index.length = 128) :
    (∃ index', indexRule index rule = .ok index') ↔ rule.1.HasBuckets := by
  rw [← CountryRule.forall_matchingFirstBytes_iff]
  apply Panic.exists_foldlM_eq_ok_iff _ (fun _ _ _ => length_of_pushIndex) hlen
  intro index byte hlen
  rw [pushIndex, hlen]
  split_ifs with hbyte <;> simp [hbyte]

lemma exists_buildFirstByteIndex_iff {rules : List CountryRule} :
    (∃ index, buildFirstByteIndex rules = .ok index) ↔ ∀ rule ∈ rules, rule.HasBuckets := by
  have hfold : (∃ index, buildFirstByteIndex rules = .ok index) ↔
      ∀ rule ∈ rules.zipIdx, rule.1.HasBuckets :=
    Panic.exists_foldlM_eq_ok_iff (fun _ rule => @exists_indexRule_iff rule _)
      (fun _ _ _ => length_of_indexRule) List.length_replicate
  have hrules : (∀ rule ∈ rules, rule.HasBuckets) ↔
      ∀ rule ∈ rules.zipIdx.map Prod.fst, rule.HasBuckets := by rw [List.zipIdx_map_fst]
  rw [hfold, hrules, List.forall_mem_map]

lemma exists_parseWithSource_iff :
    (∃ table, CountryTable.parseWithSource text source = .ok table) ↔
      ∀ rule ∈ CountryTable.fileRules text source, rule.HasBuckets := by
  have hsorted : (∀ rule ∈ CountryTable.fileRules text source, rule.HasBuckets) ↔
      ∀ rule ∈ sortBy ruleOrder (CountryTable.fileRules text source), rule.HasBuckets := by
    simp only [mem_sortBy]
  rw [hsorted, ← exists_buildFirstByteIndex_iff]
  simp only [CountryTable.parseWithSource]
  split <;> simp_all

/-! ### The cuts of a comparison -/

/-- The lookup finishes when every rule of the file that it reaches, with no rule prior to it that
it reaches and that holds the call, can be compared with the call. -/
lemma exists_lookupInfo_iff {table : CountryTable}
    (htable : CountryTable.parseWithSource text source = .ok table) (callsign : Str) :
    (∃ info, table.lookupInfo callsign = .ok info) ↔
      ∀ rule ∈ (CountryTable.fileRules text source).zipIdx,
        rule.1.reachedBy (normalizedCall callsign) →
        (∀ other ∈ (CountryTable.fileRules text source).zipIdx,
          other.1.reachedBy (normalizedCall callsign) → Prior other rule →
          ¬ other.1.inRange (normalizedCall callsign)) →
        rule.1.Cuttable (normalizedCall callsign) := by
  have hhit : ∀ (rule : CountryRule) (b : Bool), rule.matches (normalizedCall callsign) = .ok b →
      (rule.inRange (normalizedCall callsign) ↔ b = true) := by
    intro rule b hb
    rw [CountryRule.inRange_of_matches hb]
  simp only [← CountryRule.exists_matches_iff_cuttable]
  rw [CountryTable.lookupInfo_eq, CountryTable.rules_of_parseWithSource htable]
  exact exists_firstMatch_sortBy_iff hhit

lemma CountryTable.exists_lookup_iff (table : CountryTable) (callsign : Str) :
    (∃ found, table.lookup callsign = .ok found) ↔
      ∃ info, table.lookupInfo callsign = .ok info := by
  simp [CountryTable.lookup, Panic.bind_eq_ok_iff, pure, Except.pure]

/-- Parsing a text finishes exactly when every rule starts both bounds with an ASCII character, and
the lookups of a call finish exactly when each rule they reach can be cut where it is compared. -/
theorem countryMatching_completes_iff (htext : Utf8.Valid text) (source : CountryInfoSource) :
    ((∃ table, Checked.parseWithSource text source = .ok table) ↔
      ∀ rule ∈ CountryTable.fileRules text source, rule.HasBuckets) ∧
    ∀ table, Checked.parseWithSource text source = .ok table → ∀ callsign,
      ((∃ info, table.lookupInfo callsign = .ok info) ∧
        (∃ found, table.lookup callsign = .ok found) ↔
      ∀ rule ∈ (CountryTable.fileRules text source).zipIdx,
        rule.1.reachedBy (normalizedCall callsign) →
        (∀ other ∈ (CountryTable.fileRules text source).zipIdx,
          other.1.reachedBy (normalizedCall callsign) → Prior other rule →
          ¬ other.1.inRange (normalizedCall callsign)) →
        rule.1.Cuttable (normalizedCall callsign)) := by
  rw [Checked.parseWithSource_eq htext]
  refine ⟨exists_parseWithSource_iff, ?_⟩
  intro table htable callsign
  rw [table.exists_lookup_iff, and_self_iff]
  exact exists_lookupInfo_iff htable callsign

/-- Unaccented ranges and an unaccented call. -/
theorem countryMatching_completes_nestedRanges :
    ∃ table, Checked.parseWithSource nestedRanges .unknown = .ok table ∧
      ∃ info, table.lookupInfo (ascii "K1AW") = .ok info := by
  have hvalid : Utf8.Valid nestedRanges := by decide +kernel
  have hiff := countryMatching_completes_iff hvalid .unknown
  have hbuckets : ∀ rule ∈ CountryTable.fileRules nestedRanges .unknown, rule.HasBuckets := by
    decide +kernel
  obtain ⟨table, htable⟩ := hiff.1.mpr hbuckets
  refine ⟨table, htable, ((hiff.2 table htable (ascii "K1AW")).mpr ?_).1⟩
  have hcut : ∀ rule ∈ (CountryTable.fileRules nestedRanges .unknown).zipIdx,
      rule.1.Cuttable (normalizedCall (ascii "K1AW")) := by decide +kernel
  intro rule hrule _ _
  exact hcut rule hrule

/-- `É` has no bucket. -/
def accentedStart : Str := [0xc3, 0x89, 0x20, 0x20, 0x20, 0x20] ++ ascii "K     SOMEWHERE"

/-- The call `KÉ`. -/
def accentedCall : Str := [0x4b, 0xc3, 0x89]

/-- A rule outside the buckets stops the parser, and an accented call stops the lookups. -/
theorem countryMatching_panics :
    ¬ ((∀ text, Utf8.Valid text → ∀ source,
        ∃ table, Checked.parseWithSource text source = .ok table) ∨
      ∀ text, Utf8.Valid text → ∀ source table, Checked.parseWithSource text source = .ok table →
        ∀ callsign, Utf8.Valid callsign → ∃ info, table.lookupInfo callsign = .ok info) := by
  rintro (h | h)
  · obtain ⟨table, htable⟩ := h accentedStart (by decide +kernel) .unknown
    have hrun : (Checked.parseWithSource accentedStart .unknown).isOk = false := by decide +kernel
    rw [htable] at hrun
    cases hrun
  · have hok : (Checked.parseWithSource nestedRanges .unknown).isOk := by decide +kernel
    obtain ⟨table, htable⟩ := Panic.exists_of_isOk hok
    obtain ⟨info, hinfo⟩ := h nestedRanges (by decide +kernel) .unknown table htable accentedCall
      (by decide +kernel)
    have hrun : (Checked.parseWithSource nestedRanges .unknown).bind (·.lookupInfo accentedCall) =
        .error .charBoundary := by decide +kernel
    rw [htable, Except.bind, hinfo] at hrun
    cases hrun

end Callbook
