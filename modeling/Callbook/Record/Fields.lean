import Callbook.Record.Tags

/-!
# Written records

A record is written as `0xb5`, its key, and each tag followed by its value. Parsing the written
bytes gives a snapshot of the key, and every field reads back the value that its last tag was
written with.
-/

namespace Callbook

open Text

namespace V2Record

/-! ### Classes of bytes -/

lemma not_endsValue_of_isPrintable {b : UInt8} (h : isPrintable b) :
    endsValue b = false ∧ isTag b = false ∧ isSentinel b = false := by
  have := lt_128_of_isPrintable h
  grind [endsValue, isTag, isSentinel]

lemma endsValue_of_isTag {b : UInt8} (h : isTag b) : endsValue b ∧ isSentinel b = false := by
  grind [endsValue, isTag, isSentinel]

lemma isPadding_eq_false {b : UInt8} (h : isPrintable b) (hne : b ≠ 0x20) :
    isPadding b = false := by
  grind [isPadding, isPrintable, isAsciiGraphic, isAsciiWhitespace]

/-! ### Keys -/

/-- A call and a year that a key is written with. -/
structure IsKey (call : Bytes) (year : Option Bytes) : Prop where
  call_ne : call ≠ []
  call_length : call.length ≤ 12
  call_chars : ∀ b ∈ call, isCallsignChar b
  year_digits : ∀ y ∈ year, y.length = 4 ∧ ∀ b ∈ y, isAsciiDigit b

/-- `CALL` or `CALL:YYYY`. -/
def writtenKey (call : Bytes) (year : Option Bytes) : Bytes := call ++ year.elim [] (0x3a :: ·)

variable {call : Bytes} {year : Option Bytes}

lemma beforeSep_writtenKey (hcolon : 0x3a ∉ call) (year : Option Bytes) :
    beforeSep 0x3a (writtenKey call year) = call := by
  rw [writtenKey]
  cases year with
  | none => rw [Option.elim_none, List.append_nil, beforeSep_eq_self hcolon]
  | some y => exact beforeSep_append hcolon y

lemma head?_writtenKey (hne : call ≠ []) (hcolon : 0x3a ∉ call) (year : Option Bytes) :
    (writtenKey call year).head? ≠ some 0x3a := by
  rw [writtenKey, List.head?_append_of_ne_nil _ hne]
  exact fun hhead => hcolon (List.mem_of_mem_head? hhead)

namespace IsKey

variable (h : IsKey call year)

include h

lemma colon_notMem_call : 0x3a ∉ call := by
  intro hmem
  have := h.call_chars _ hmem
  revert this
  decide

lemma isAsciiGraphic : ∀ b ∈ writtenKey call year, isAsciiGraphic b := by
  intro b hb
  rw [writtenKey, List.mem_append] at hb
  rcases hb with hb | hb
  · exact Callsign.isAsciiGraphic_of_isCallsignChar (h.call_chars b hb)
  · cases year with
    | none => simp at hb
    | some y =>
      rw [Option.elim_some, List.mem_cons] at hb
      rcases hb with rfl | hb
      · decide
      · have := (h.year_digits y rfl).2 b hb
        grind [isAsciiDigit, Text.isAsciiGraphic]

lemma isPrintable : ∀ b ∈ writtenKey call year, isPrintable b ∧ b ≠ 0x20 := by
  intro b hb
  have hgraphic := h.isAsciiGraphic b hb
  refine ⟨isPrintable_of_isAsciiGraphic hgraphic, ?_⟩
  rintro rfl
  cases hgraphic

lemma ne_nil : writtenKey call year ≠ [] := by
  intro hnil
  rw [writtenKey, List.append_eq_nil_iff] at hnil
  exact h.call_ne hnil.1

lemma cleanAscii : cleanAscii (writtenKey call year) = some (writtenKey call year) := by
  rw [cleanAscii_eq_some_iff]
  refine ⟨fun b hb => (h.isPrintable b hb).1, (trimBy_eq_self_of_forall fun b hb => ?_).symm⟩
  exact isPadding_eq_false (h.isPrintable b hb).1 (h.isPrintable b hb).2

lemma looksLikeKey : looksLikeKey (writtenKey call year) := by
  simp only [V2Record.looksLikeKey, beforeSep_writtenKey h.colon_notMem_call, Bool.and_eq_true,
    decide_eq_true_eq, List.all_eq_true]
  exact ⟨⟨h.call_ne, h.call_length⟩, h.call_chars⟩

lemma splitKey : splitKey (writtenKey call year) = some (call, year.map decimalValue) := by
  rw [splitKey_eq_some_iff, writtenKey]
  cases year with
  | none => exact .inl ⟨by simpa using h.colon_notMem_call, by simp, rfl⟩
  | some y =>
    obtain ⟨hlen, hdigits⟩ := h.year_digits y rfl
    have hlt := decimalValue_lt hdigits
    rw [hlen] at hlt
    refine .inr ⟨y, decimalValue y, rfl, h.colon_notMem_call, ?_, rfl⟩
    rw [parseUnsigned_eq_parseDigits, parseDigits_eq_some_iff]
    · exact ⟨hdigits, rfl, by omega⟩
    · rintro rfl
      cases hlen
    · intro b hb
      have := hdigits b (List.mem_of_mem_head? hb)
      grind [isAsciiDigit]

end IsKey

/-! ### Tags -/

/-- Tags in range, each with a printable value that no space surrounds. -/
structure IsTagged (tags : List (UInt8 × Bytes)) : Prop where
  range : ∀ p ∈ tags, isTag p.1
  values : ∀ p ∈ tags, p.2 ≠ [] ∧ (∀ b ∈ p.2, isPrintable b) ∧ p.2.head? ≠ some 0x20 ∧
    p.2.getLast? ≠ some 0x20

/-- The tags with their values. -/
def writtenTags (tags : List (UInt8 × Bytes)) : Bytes := tags.flatMap fun p => p.1 :: p.2

/-- Apply all tags. -/
abbrev applyTags (snapshot : CallSnapshot) (tags : List (UInt8 × Bytes)) : CallSnapshot :=
  tags.foldl (fun s p => applyTag s p.1 p.2) snapshot

lemma cleanAscii_value {v : Bytes} (hprint : ∀ b ∈ v, isPrintable b)
    (hhead : v.head? ≠ some 0x20) (hlast : v.getLast? ≠ some 0x20) : cleanAscii v = some v := by
  rw [cleanAscii_eq_some_iff]
  refine ⟨hprint, (trimBy_eq_self (fun b hb => ?_) fun b hb => ?_).symm⟩
  · refine isPadding_eq_false (hprint b (List.mem_of_mem_head? hb)) ?_
    rintro rfl
    exact hhead hb
  · refine isPadding_eq_false (hprint b (List.mem_of_mem_getLast? hb)) ?_
    rintro rfl
    exact hlast hb

namespace IsTagged

variable {tags : List (UInt8 × Bytes)} (h : IsTagged tags)

include h

lemma head?_writtenTags : ∀ b ∈ (writtenTags tags).head?, isTag b := by
  cases tags with
  | nil => simp [writtenTags]
  | cons p tags => simpa [writtenTags] using h.range p (by simp)

lemma isSentinel_eq_false : ∀ b ∈ writtenTags tags, isSentinel b = false := by
  intro b hb
  obtain ⟨p, hp, hb⟩ := List.mem_flatMap.mp hb
  rw [List.mem_cons] at hb
  rcases hb with rfl | hb
  · exact (endsValue_of_isTag (h.range p hp)).2
  · exact (not_endsValue_of_isPrintable ((h.values p hp).2.1 b hb)).2.2

lemma of_cons {p : UInt8 × Bytes} {rest : List (UInt8 × Bytes)} (htags : tags = p :: rest) :
    IsTagged rest := by
  subst htags
  exact ⟨fun q hq => h.range q (List.mem_cons_of_mem p hq),
    fun q hq => h.values q (List.mem_cons_of_mem p hq)⟩

/-- The pieces of the written tags are the tags with their values. -/
lemma segments_writtenTags :
    Framing.segments isTag (writtenTags tags) = tags.map fun p => p.1 :: p.2 := by
  induction tags with
  | nil => rfl
  | cons p tags ih =>
    have htags := h.of_cons rfl
    have hsplit := Framing.takeWhile_append_eq (p := isTag)
      (fun b hb => (not_endsValue_of_isPrintable ((h.values p (by simp)).2.1 b hb)).2.1)
      htags.head?_writtenTags
    rw [writtenTags, List.flatMap_cons, ← writtenTags, List.cons_append, Framing.segments_cons,
      hsplit.1, hsplit.2, ih htags, List.map_cons]

lemma foldl_applyPiece (snapshot : CallSnapshot) :
    (tags.map fun p => p.1 :: p.2).foldl applyPiece snapshot = applyTags snapshot tags := by
  rw [List.foldl_map]
  apply List.foldl_ext
  intro s p hp
  obtain ⟨hne, hprint, hhead, hlast⟩ := h.values p hp
  have hvalue : cleanValue p.2 = some p.2 := by
    rw [cleanValue, cleanAscii_value hprint hhead hlast, Option.filter_some]
    simpa using hne
  simp only [applyPiece, hvalue]

/-- Behind other pieces, the tag loop applies the written tags in order. -/
lemma tagLoop_append {front : Bytes} (hclean : ∀ b ∈ front, isSentinel b = false)
    (hfront : ∀ b ∈ front.head?, isTag b) {fuel : ℕ}
    (hfuel : (front ++ writtenTags tags).length ≤ fuel) (snapshot : CallSnapshot) :
    tagLoop fuel (front ++ writtenTags tags) snapshot =
      applyTags ((Framing.segments isTag front).foldl applyPiece snapshot) tags := by
  rw [tagLoop_eq_foldl hfuel, Framing.segments_append isTag front h.head?_writtenTags,
    h.segments_writtenTags, List.foldl_append, h.foldl_applyPiece]
  · intro b hb
    rw [List.mem_append] at hb
    exact hb.elim (hclean b) (h.isSentinel_eq_false b)
  · cases front with
    | nil => exact h.head?_writtenTags
    | cons a front => exact hfront

end IsTagged

/-! ### Parsing what was written -/

section Parse

variable {tags : List (UInt8 × Bytes)}

lemma cut_written (hkey : IsKey call year) (htags : IsTagged tags) :
    keyBytes (writtenKey call year ++ writtenTags tags) = writtenKey call year ∧
      tagBytes (writtenKey call year ++ writtenTags tags) = writtenTags tags := by
  rw [keyBytes_eq, tagBytes_eq]
  exact Framing.takeWhile_append_eq
    (fun b hb => (not_endsValue_of_isPrintable (hkey.isPrintable b hb).1).2.1)
    htags.head?_writtenTags

lemma keyOf_written (hkey : IsKey call year) (htags : IsTagged tags) (defaultKey : Option Bytes) :
    keyOf defaultKey (0xb5 :: (writtenKey call year ++ writtenTags tags)) =
      some (call, year.map decimalValue) := by
  rw [keyOf_eq_some_iff]
  refine ⟨writtenKey call year, ?_, hkey.looksLikeKey, hkey.splitKey⟩
  have hstrip : stripSentinel (0xb5 :: (writtenKey call year ++ writtenTags tags)) =
      writtenKey call year ++ writtenTags tags := rfl
  simp only [segmentKey, hstrip, (cut_written hkey htags).1, hkey.cleanAscii, Option.bind_eq_bind,
    Option.bind_some, if_neg (head?_writtenKey hkey.call_ne hkey.colon_notMem_call year)]

/-- Parsing applies the written tags, then the sidecars. -/
theorem parseSegment_written (hkey : IsKey call year) (htags : IsTagged tags)
    (defaultKey : Option Bytes) (source : SnapshotSource) (countries : Option CountryTable)
    (interests : Option InterestTable) :
    parseSegment defaultKey source countries interests
        (0xb5 :: (writtenKey call year ++ writtenTags tags)) =
      (applyCountry countries (applyTags (.new call (year.map decimalValue) source) tags)).map
        fun located => some (applyInterests interests located) := by
  rw [parseSegment_of_keyOf (keyOf_written hkey htags defaultKey)]
  have hstrip : stripSentinel (0xb5 :: (writtenKey call year ++ writtenTags tags)) =
      writtenKey call year ++ writtenTags tags := rfl
  have hloop := @IsTagged.tagLoop_append _ htags [] (by simp) (by simp)
    (writtenKey call year ++ writtenTags tags).length (by simp)
    (.new call (year.map decimalValue) source)
  rw [List.nil_append, Framing.segments_nil, List.foldl_nil] at hloop
  rw [hstrip, (cut_written hkey htags).2, hloop]

end Parse

/-! ### Reading back -/

/-- A field whose tag is not written keeps its value. -/
lemma get_applyTags_of_ne {f : TagField} {tags : List (UInt8 × Bytes)}
    (h : ∀ p ∈ tags, TagField.ofTag p.1 ≠ f) (s : CallSnapshot) :
    f.get (applyTags s tags) = f.get s := by
  induction tags generalizing s with
  | nil => rfl
  | cons p tags ih =>
    rw [List.forall_mem_cons] at h
    rw [applyTags, List.foldl_cons, ← applyTags, ih h.2, TagField.get_applyTag,
      if_neg (Ne.symm h.1)]

/-- A field reads back what its last tag was written with. -/
lemma get_applyTags_append {p : UInt8 × Bytes} {back : List (UInt8 × Bytes)}
    (h : ∀ q ∈ back, TagField.ofTag q.1 ≠ TagField.ofTag p.1) (front : List (UInt8 × Bytes))
    (s : CallSnapshot) :
    (TagField.ofTag p.1).get (applyTags s (front ++ p :: back)) = some p.2 := by
  rw [applyTags, List.foldl_append, List.foldl_cons, ← applyTags, ← applyTags,
    get_applyTags_of_ne h, TagField.get_applyTag, if_pos rfl]

lemma get_applyTags_eq_none_iff {f : TagField} {tags : List (UInt8 × Bytes)} {s : CallSnapshot} :
    f.get (applyTags s tags) = none ↔ f.get s = none ∧ ∀ p ∈ tags, TagField.ofTag p.1 ≠ f := by
  induction tags generalizing s with
  | nil => simp
  | cons p tags ih =>
    rw [applyTags, List.foldl_cons, ← applyTags, ih, TagField.get_applyTag, List.forall_mem_cons]
    by_cases hf : f = TagField.ofTag p.1
    · simp [hf]
    · simp [hf, Ne.symm hf]

lemma ofTag_eq_country_iff {tag : UInt8} : TagField.ofTag tag = .country ↔ tag = 0xd1 := by
  constructor
  · intro h
    have htag := TagField.tagOf_ofTag tag
    rw [h] at htag
    split_ifs at htag with haddress
    · cases htag
    · exact htag.symm
  · rintro rfl
    rfl

/-- The tags name no country exactly when none of them is the country's. -/
lemma country_applyTags_eq_none_iff {s : CallSnapshot} {tags : List (UInt8 × Bytes)} :
    (applyTags s tags).country = none ↔ s.country = none ∧ 0xd1 ∉ tags.map Prod.fst := by
  have hiff := @get_applyTags_eq_none_iff .country tags s
  simp only [ne_eq, ofTag_eq_country_iff] at hiff
  rw [List.mem_map]
  refine hiff.trans (and_congr_right fun _ => ?_)
  constructor
  · rintro h ⟨p, hp, heq⟩
    exact h p hp heq
  · exact fun h p hp heq => h ⟨p, hp, heq⟩

lemma applyTags_callsign (s : CallSnapshot) (tags : List (UInt8 × Bytes)) :
    (applyTags s tags).callsign = s.callsign := by
  induction tags generalizing s with
  | nil => rfl
  | cons p tags ih => rw [applyTags, List.foldl_cons, ← applyTags, ih, applyTag_callsign]

@[simp] lemma get_place (f : TagField) (s : CallSnapshot) : f.get (place s none) = f.get s := by
  unfold place
  split_ifs
  · cases f <;> rfl
  · rfl

/-- The country is given to a record that names none; what the tags filled stays. -/
lemma get_of_applyCountry {f : TagField} {countries : Option CountryTable}
    {s located : CallSnapshot} {value : Str} (h : applyCountry countries s = .ok located)
    (hvalue : f.get s = some value) : f.get located = some value := by
  obtain ⟨country, hlocate, rfl⟩ := applyCountry_eq_ok_iff.mp h
  cases country with
  | none => rw [get_place, hvalue]
  | some country =>
    have hnone : s.country = none := (lookup_of_locate hlocate).1
    cases f with
    | country => simp [TagField.get, hnone] at hvalue
    | _ => exact hvalue

@[simp] lemma get_applyInterests (f : TagField) (interests : Option InterestTable)
    (s : CallSnapshot) : f.get (applyInterests interests s) = f.get s := by
  unfold applyInterests
  split
  · rfl
  · cases f <;> rfl

end V2Record

open V2Record

/-- A record of distinct tags before it is written. -/
structure TaggedRecord where
  call : Bytes
  year : Option Bytes
  tags : List (UInt8 × Bytes)
  isKey : IsKey call year
  isTagged : IsTagged tags
  tags_nodup : (tags.map Prod.fst).Nodup

namespace TaggedRecord

variable (R : TaggedRecord)

/-- The record as it is written. -/
def bytes : Bytes := 0xb5 :: (writtenKey R.call R.year ++ writtenTags R.tags)

def vintage : Option ℕ := R.year.map decimalValue

/-- The tag of a value that no later tag of the record overwrites: only the address has more than
one tag. -/
def Last (p : UInt8 × Bytes) : Prop :=
  ∃ front back, R.tags = front ++ p :: back ∧
    (TagField.isAddressTag p.1 → ∀ q ∈ back, TagField.isAddressTag q.1 = false)

variable {R}

/-- No later tag has the field of such a tag. -/
lemma Last.exists_append {p : UInt8 × Bytes} (h : R.Last p) :
    ∃ front back, R.tags = front ++ p :: back ∧
      ∀ q ∈ back, TagField.ofTag q.1 ≠ TagField.ofTag p.1 := by
  obtain ⟨front, back, htags, haddress⟩ := h
  refine ⟨front, back, htags, fun q hq heq => ?_⟩
  have hnodup := R.tags_nodup
  rw [htags, List.map_append, List.map_cons, List.nodup_append, List.nodup_cons] at hnodup
  rcases TagField.eq_or_isAddressTag_of_ofTag_eq heq with hsame | ⟨hq', hp⟩
  · exact hnodup.2.1.1 (hsame ▸ List.mem_map_of_mem hq)
  · rw [haddress hp q hq] at hq'
    cases hq'

/-- A record is parsed to a snapshot of its key, and each value is read back in the field of its
tag; of an address in several tags, the last one is. Only the country table can panic, and it is
asked only when the record names no country. -/
theorem parseSegment_reads_back (R : TaggedRecord) (defaultKey : Option Bytes)
    (source : SnapshotSource) (countries : Option CountryTable)
    (interests : Option InterestTable) :
    (∃ e, parseSegment defaultKey source countries interests R.bytes = .error e ∧
      0xd1 ∉ R.tags.map Prod.fst ∧ ∃ table ∈ countries, table.lookup R.call = .error e) ∨
    ∃ snapshot, parseSegment defaultKey source countries interests R.bytes = .ok (some snapshot) ∧
      snapshot.callsign = R.call ∧ snapshot.vintage = R.vintage ∧
      ∀ p, R.Last p → (TagField.ofTag p.1).get snapshot = some p.2 := by
  have hparse := parseSegment_written R.isKey R.isTagged defaultKey source countries interests
  rw [← bytes] at hparse
  cases hcountry : applyCountry countries
      (applyTags (.new R.call (R.year.map decimalValue) source) R.tags) with
  | error e =>
    rw [hcountry] at hparse
    rw [applyCountry_eq_error_iff, applyTags_callsign, country_applyTags_eq_none_iff] at hcountry
    exact .inl ⟨e, hparse, hcountry.1.2, hcountry.2⟩
  | ok located =>
    rw [hcountry] at hparse
    have hkey := (keyOf_of_parseSegment hparse).1
    rw [bytes, keyOf_written R.isKey R.isTagged, Option.some.injEq, Prod.mk.injEq] at hkey
    refine .inr ⟨_, hparse, hkey.1.symm, hkey.2.symm, fun p hp => ?_⟩
    obtain ⟨front, back, htags, hback⟩ := hp.exists_append
    rw [get_applyInterests]
    apply get_of_applyCountry hcountry
    rw [htags]
    exact get_applyTags_append hback front _

/-- A record with two lines of the address, each in a tag of its own. -/
def twoLines : TaggedRecord where
  call := ascii "K0AB"
  year := none
  tags := [(0xbc, ascii "1 A St"), (0xbd, ascii "Apt 2")]
  isKey := ⟨by decide, by decide, by decide +kernel, by simp⟩
  isTagged := ⟨by simp [isTag], by decide +kernel⟩
  tags_nodup := by decide

/-- The first line is in no field of its snapshot. -/
theorem not_reads_back_twoLines : ∃ snapshot,
    parseSegment none .hamCallDatIdx none none twoLines.bytes = .ok (some snapshot) ∧
      (0xbc, ascii "1 A St") ∈ twoLines.tags ∧
      ∀ f : TagField, f.get snapshot ≠ some (ascii "1 A St") := by
  have hparse := parseSegment_written twoLines.isKey twoLines.isTagged none .hamCallDatIdx none none
  refine ⟨_, hparse, by decide, fun f => ?_⟩
  rw [get_applyInterests, get_place]
  have hnew : f.get (.new twoLines.call (twoLines.year.map decimalValue) .hamCallDatIdx) =
      none := by
    cases f with
    | raw tag => exact Std.ExtTreeMap.getElem?_empty
    | _ => rfl
  simp only [twoLines, applyTags, List.foldl_cons, List.foldl_nil, TagField.get_applyTag] at hnew ⊢
  have haddress : TagField.ofTag 0xbc = TagField.ofTag 0xbd := rfl
  rw [hnew, haddress]
  by_cases hf : f = TagField.ofTag 0xbd
  · rw [if_pos hf]
    decide
  · rw [if_neg hf, if_neg hf]
    exact (Option.some_ne_none _).symm

end TaggedRecord

end Callbook
