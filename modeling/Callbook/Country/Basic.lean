import Callbook.Modern.Basic

/-!
# The country-prefix table

Rules give a country to a range of callsign prefixes. A table keeps its rules in matching order and
an index from the first byte of a call to the rules whose range can reach it.
-/

namespace Callbook

open Text

structure CountryMatch where
  name : Str
  code : Option Str
  jurisdiction : Jurisdiction
  deriving DecidableEq, Repr

inductive CountryInfoSource where
  | unknown
  | countrys
  | gcMcountrys
  | countrysPc
  deriving DecidableEq, Repr

/-- A floating-point field, kept as the literal it is parsed from. -/
structure F64 where
  literal : Str
  deriving DecidableEq, Repr

/-- Rich country metadata. -/
structure CountryInfo where
  name : Str
  rawName : Str
  cleanedName : Str
  code : Option Str
  jurisdiction : Jurisdiction
  ituZone : Option ℕ
  cqZone : Option ℕ
  continent : Option Str
  latitude : Option F64
  longitude : Option F64
  numericCode : Option ℕ
  source : CountryInfoSource
  deriving DecidableEq, Repr

def CountryInfo.toMatch (info : CountryInfo) : CountryMatch :=
  ⟨info.name, info.code, info.jurisdiction⟩

structure CountryRule where
  start : Str
  «end» : Str
  country : CountryInfo
  deriving DecidableEq, Repr

/-! ### Parsing one rule -/

namespace F64

/-- Drop an optional sign. -/
def dropSign : Bytes → Bytes
  | [] => []
  | b :: s => if b == 0x2b || b == 0x2d then s else b :: s

/-- An exponent: nothing, or `e`, an optional sign and digits. -/
def isExponent : Bytes → Bool
  | [] => true
  | b :: s => (b == 0x65 || b == 0x45) && dropSign s ≠ [] && (dropSign s).all isAsciiDigit

/-- The grammar of `f64::from_str`. -/
def isLiteral (s : Bytes) : Bool :=
  let body := dropSign s
  let lower := body.map toAsciiLowercaseByte
  if lower = ascii "inf" ∨ lower = ascii "infinity" ∨ lower = ascii "nan" then true
  else
    let whole := body.takeWhile isAsciiDigit
    match body.dropWhile isAsciiDigit with
    | 0x2e :: s =>
      let fraction := s.takeWhile isAsciiDigit
      (whole ≠ [] || fraction ≠ []) && isExponent (s.dropWhile isAsciiDigit)
    | rest => whole ≠ [] && isExponent rest

def parse (s : Str) : Option F64 := if isLiteral s then some ⟨s⟩ else none

end F64

/-- The least of several optional positions. -/
def firstOf (positions : List (Option ℕ)) : Option ℕ := (positions.filterMap id).min?

def cleanCountryLabel (label : Str) : Str :=
  match findText (ascii " - ") label with
  | none => Utf8.trim label
  | some i => Utf8.trim (label.take i)

def classify (name : Str) (code : Option Str) : Jurisdiction :=
  if code = some (ascii "US") ∨ name = ascii "UNITED STATES" then .unitedStates
  else if code = some (ascii "CA") ∨ name = ascii "CANADA" then .canada
  else .international

/-- The characters that end a tag value: the six tags and `&`. -/
def tagDelimiters : List UInt8 := [0x21, 0x40, 0x23, 0x24, 0x25, 0x5e, 0x26]

def parseTagString (text : Str) (tag : UInt8) : Option Str := do
  let position ← text.findIdx? (· == tag)
  let value := Utf8.trim ((text.drop (position + 1)).takeWhile (· ∉ tagDelimiters))
  if value = [] then none else some value

def parseTagU16 (text : Str) (tag : UInt8) : Option ℕ := do
  let value ← parseTagString text tag
  parseUnsigned 65535 value

def parseTagF64 (text : Str) (tag : UInt8) : Option F64 := do
  let value ← parseTagString text tag
  F64.parse value

def parseCountryInfo (rest : Str) (source : CountryInfoSource) : CountryInfo :=
  let tagStart := findText (ascii " [") rest
  let metadataStart := firstOf
    ([0x21, 0x40, 0x23, 0x24, 0x25, 0x5e].map fun tag => rest.findIdx? (· == tag))
  let nameEnd := (firstOf [tagStart, metadataStart]).getD rest.length
  let rawName := Utf8.trim (rest.take nameEnd)
  let code := do
    let start ← tagStart
    let after := rest.drop (start + 2)
    let «end» ← after.findIdx? (· == 0x5d)
    let code := Utf8.trim (after.take «end»)
    if code = [] then none else some code
  { name := rawName
    rawName := rawName
    cleanedName := cleanCountryLabel rawName
    code := code
    jurisdiction := classify rawName code
    ituZone := parseTagU16 rest 0x21
    cqZone := parseTagU16 rest 0x40
    continent := parseTagString rest 0x23
    latitude := parseTagF64 rest 0x24
    longitude := parseTagF64 rest 0x25
    numericCode := parseTagU16 rest 0x5e
    source := source }

/-- The rule on one line, `none` where the line is skipped. -/
def parseRule (source : CountryInfoSource) (line : Str) : Option CountryRule :=
  if line.head? = some 0x23 ∨ Utf8.trim line = [] ∨ line.length < 12 then none
  else
    let start := Utf8.trim ((Panic.strGet line 0 6).getD [])
    let «end» := Utf8.trim ((Panic.strGet line 6 12).getD [])
    if start = [] ∨ «end» = [] then none
    else
      let rest := Utf8.trim ((Panic.strGet line 12 line.length).getD [])
      let parsed := parseCountryInfo rest source
      if parsed.name = [] then none
      else some ⟨toAsciiUppercase start, toAsciiUppercase «end», parsed⟩

/-! ### Matching -/

/-- `prefix_range_matches`; the three cuts panic inside a character. -/
def prefixRangeMatches (call start «end» : Str) : Except Panic Bool :=
  if start = «end» then .ok (start.isPrefixOf call)
  else do
    let width := min (max start.length «end».length) call.length
    let head ← Panic.strTake call width
    let startHead ← Panic.strTake start (min start.length width)
    let endHead ← Panic.strTake «end» (min «end».length width)
    pure (decide (startHead ≤ head) && decide (head ≤ endHead))

def CountryRule.matches (rule : CountryRule) (call : Str) : Except Panic Bool :=
  prefixRangeMatches call rule.start rule.end

/-- The first bytes a call within the range can have. -/
def matchingFirstBytes (start «end» : Str) : List UInt8 :=
  let first := start.head?.getD 0
  let last := «end».head?.getD first
  let low := min first last
  let high := max first last
  (List.range (high.toNat - low.toNat + 1)).map fun i => low + UInt8.ofNat i

/-- `index[usize::from(byte)].push(rule_index)`. -/
def pushIndex (index : List (List ℕ)) (byte : UInt8) (ruleIndex : ℕ) :
    Except Panic (List (List ℕ)) :=
  if byte.toNat < index.length then .ok (index.modify byte.toNat (· ++ [ruleIndex]))
  else .error .indexOutOfBounds

/-- Enter one rule under all its first bytes. -/
def indexRule (index : List (List ℕ)) (rule : CountryRule × ℕ) : Except Panic (List (List ℕ)) :=
  (matchingFirstBytes rule.1.start rule.1.end).foldlM (pushIndex · · rule.2) index

def buildFirstByteIndex (rules : List CountryRule) : Except Panic (List (List ℕ)) :=
  rules.zipIdx.foldlM indexRule (List.replicate 128 [])

/-- Matching order: longest start prefix first, then start prefix ascending. -/
def ruleOrder (a b : CountryRule) : Ordering :=
  (compare b.start.length a.start.length).then (compare a.start b.start)

/-- Prefix/range matcher, its rules in matching order. -/
structure CountryTable where
  rules : List CountryRule
  firstByteIndex : List (List ℕ)
  sorted : rules.Pairwise (StableSort.NotGreater ruleOrder)
  indexed : buildFirstByteIndex rules = .ok firstByteIndex

instance : Std.TransCmp ruleOrder :=
  haveI : Std.TransCmp (compareOn fun rule : CountryRule => rule.start.length) := inferInstance
  inferInstanceAs (Std.TransCmp (compareLex
    (fun a b => compareOn (fun rule : CountryRule => rule.start.length) b a)
    (compareOn CountryRule.start)))

namespace CountryTable

/-- The rules of a sidecar text in file order. -/
def fileRules (text : Str) (source : CountryInfoSource) : List CountryRule :=
  (lines text).filterMap (parseRule source)

/-- `CountryTable::parse_with_source`. -/
def parseWithSource (text : Str) (source : CountryInfoSource) : Except Panic CountryTable :=
  let rules := StableSort.sortBy ruleOrder (fileRules text source)
  match h : buildFirstByteIndex rules with
  | .error e => .error e
  | .ok index => .ok ⟨rules, index, StableSort.sorted_sortBy _ _, h⟩

/-- The first of `rules` that matches. -/
def firstMatch (call : Str) : List CountryRule → Except Panic (Option CountryInfo)
  | [] => .ok none
  | rule :: rules => do
    if ← rule.matches call then pure (some rule.country) else firstMatch call rules

/-- The first of the rules at the given indexes that matches. -/
def firstMatchAt (table : CountryTable) (call : Str) :
    List ℕ → Except Panic (Option CountryInfo)
  | [] => .ok none
  | index :: indexes =>
    match table.rules[index]? with
    | none => .error .indexOutOfBounds
    | some rule => do
      if ← rule.matches call then pure (some rule.country) else table.firstMatchAt call indexes

/-- `CountryTable::lookup_info`. -/
def lookupInfo (table : CountryTable) (callsign : Str) : Except Panic (Option CountryInfo) :=
  let call := toAsciiUppercase (Utf8.trim callsign)
  match call.head?.filter (· < 0x80) |>.bind fun byte => table.firstByteIndex[byte.toNat]? with
  | some candidates => table.firstMatchAt call candidates
  | none => firstMatch call table.rules

/-- `CountryTable::lookup`. -/
def lookup (table : CountryTable) (callsign : Str) : Except Panic (Option CountryMatch) := do
  let info ← table.lookupInfo callsign
  pure (info.map CountryInfo.toMatch)

/-- `CountryTable::lookup_linear`. -/
def lookupLinear (table : CountryTable) (callsign : Str) : Except Panic (Option CountryMatch) := do
  let info ← firstMatch (toAsciiUppercase (Utf8.trim callsign)) table.rules
  pure (info.map CountryInfo.toMatch)

end CountryTable

end Callbook
