import Callbook.Database.Entries
import Callbook.Record.Fields

/-!
# The keys that are counted

The statistics count the keys whose callsign `Callsign::parse` admits, a lookup returns the records
whose key `looks_like_key` admits. A counted key is returned exactly when its callsign is written
in normal form, is short enough, and has only ASCII white space around it.
-/

namespace Callbook

open Text V2Record

/-- The key is one that records are stored under: its callsign is in normal form and has at most 12
characters, -/
structure Storable (key callsign : Bytes) : Prop where
  length : callsign.length ≤ 12
  chars : ∀ b ∈ callsign, isCallsignChar b
  /-- and only ASCII white space stands around its text, up to the first tag byte. -/
  padded : ∃ front back, key = front ++ Utf8.trim key ++ back ∧
    (∀ b ∈ front, isAsciiWhitespace b) ∧ ∀ b ∈ back.takeWhile (!isTag ·), isAsciiWhitespace b

/-! ### Bytes of a key -/

/-- Of the bytes of white space, the printable ones and the padding are ASCII white space, and the
tags are the first byte of U+0085 and U+00A0. -/
lemma of_mem_whiteSpace : ∀ b ∈ Utf8.whiteSpace.flatten,
    (isPrintable b ∨ isPadding b → isAsciiWhitespace b) ∧ isSentinel b = false ∧
      isCallsignChar b = false ∧ (isTag b → b = 0xc2) := by
  decide +kernel

lemma isPadding_of_isAsciiWhitespace {b : UInt8} (h : isAsciiWhitespace b) : isPadding b := by
  simp [isPadding, h]

lemma isTag_eq_false_of_isAsciiWhitespace {b : UInt8} (h : isAsciiWhitespace b) :
    isTag b = false := by
  grind [isAsciiWhitespace, isTag]

lemma singleton_mem_whiteSpace {b : UInt8} (h : isAsciiWhitespace b) : [b] ∈ Utf8.whiteSpace := by
  simp only [isAsciiWhitespace, Bool.or_eq_true, beq_iff_eq] at h
  rcases h with (((rfl | rfl) | rfl) | rfl) | rfl <;> decide

/-- A callsign that is admitted has bytes of ASCII text only. -/
lemma of_mem_callsign {callsign : Str} {call : Callsign} (h : Callsign.parse callsign = .ok call) :
    ∀ b ∈ callsign, isTag b = false ∧ b ≠ 0 := by
  intro b hb
  by_cases hspace : isAsciiWhitespace b
  · grind [isAsciiWhitespace, isTag]
  · have hstrip : toAsciiUppercaseByte b ∈ call.asStr := by
      rw [Callsign.parse_asStr h, toAsciiUppercase]
      exact List.mem_map_of_mem (mem_trimBy hb (by simpa using hspace))
    have hchar := call.asStr_spec.2.2 _ hstrip
    grind [isCallsignChar, isAsciiUppercase, isAsciiDigit, toAsciiUppercaseByte, isAsciiLowercase,
      isTag]

section Parts

variable {key : Bytes} {callsign : Str} {vintage : Option ℕ}

/-- What is counted is the text of the key, a callsign and a year. -/
lemma exists_year_of_statKeyParts (h : statKeyParts key = some (callsign, vintage)) :
    ∃ year, Utf8.trim key = writtenKey callsign year ∧ vintage = year.map decimalValue ∧
      (∀ y ∈ year, y.length = 4 ∧ ∀ b ∈ y, isAsciiDigit b) ∧ 0x3a ∉ callsign := by
  simp only [statKeyParts] at h
  split_ifs at h
  simp only [Option.bind_eq_bind, Option.bind_eq_some_iff, Option.some.injEq] at h
  obtain ⟨parts, hparts, -, -, hpair⟩ := h
  cases hpair
  rw [statTextParts] at hparts
  split at hparts
  · rename_i hsplit
    cases hparts
    refine ⟨none, ?_, rfl, by simp, splitOnce_eq_none_iff.mp hsplit⟩
    rw [writtenKey, Option.elim_none, List.append_nil]
  · rename_i text y hsplit
    obtain ⟨hkey, hcolon⟩ := splitOnce_eq_some_iff.mp hsplit
    split_ifs at hparts with hyear
    simp only [Option.bind_eq_bind, Option.bind_eq_some_iff, Option.ite_none_right_eq_some,
      Option.some.injEq] at hparts
    obtain ⟨year, hvalue, -, hpair⟩ := hparts
    cases hpair
    obtain ⟨hlen, hdigits⟩ := hyear
    rw [List.all_eq_true] at hdigits
    have hne : y ≠ [] := by
      rintro rfl
      cases hlen
    rw [parseUnsigned_eq_parseDigits hne, parseDigits_eq_some_iff] at hvalue
    · refine ⟨some y, hkey, by rw [Option.map_some, hvalue.2.1], ?_, hcolon⟩
      intro y' hy'
      cases hy'
      exact ⟨hlen, hdigits⟩
    · intro b hb
      have := hdigits b (List.mem_of_mem_head? hb)
      grind [isAsciiDigit]

lemma callsign_ne_nil {call : Callsign} (h : Callsign.parse callsign = .ok call) :
    callsign ≠ [] := by
  rintro rfl
  have hstr := Callsign.parse_asStr h
  exact call.asStr_spec.1 hstr

/-- A callsign in normal form is the text of what it is parsed to. -/
lemma asStr_eq_of_chars {call : Callsign} (h : Callsign.parse callsign = .ok call)
    (hchars : ∀ b ∈ callsign, isCallsignChar b) (hlen : callsign.length ≤ 12) :
    call.asStr = callsign := by
  obtain ⟨call', hparse, hstr⟩ := Callsign.parse_eq_ok_of_normal (callsign_ne_nil h)
    (hlen.trans (by decide)) hchars
  rw [h] at hparse
  cases hparse
  exact hstr

/-- The text of a counted key has no tag, and no padding at its ends. -/
lemma trim_of_statKeyParts (h : statKeyParts key = some (callsign, vintage)) :
    Utf8.trim key ≠ [] ∧ (∀ b ∈ Utf8.trim key, isTag b = false) ∧
      (∀ b ∈ (Utf8.trim key).head?, isPadding b = false) ∧
      ∀ b ∈ (Utf8.trim key).getLast?, isPadding b = false := by
  obtain ⟨call, hparse⟩ := exists_parse_of_statKeyParts h
  obtain ⟨year, htrim, -, hyear, -⟩ := exists_year_of_statKeyParts h
  have hbytes : ∀ b ∈ Utf8.trim key, isTag b = false ∧ b ≠ 0 := by
    intro b hb
    rw [htrim, writtenKey, List.mem_append] at hb
    rcases hb with hb | hb
    · exact of_mem_callsign hparse b hb
    · cases year with
      | none => simp at hb
      | some y =>
        rw [Option.elim_some, List.mem_cons] at hb
        rcases hb with rfl | hb
        · decide
        · have := (hyear y rfl).2 b hb
          grind [isAsciiDigit, isTag]
  have hpadding : ∀ b ∈ Utf8.trim key, isPadding b → [b] ∈ Utf8.whiteSpace := by
    intro b hb hpad
    rw [isPadding, Bool.or_eq_true, beq_iff_eq] at hpad
    exact singleton_mem_whiteSpace (hpad.resolve_right (hbytes b hb).2)
  refine ⟨?_, fun b hb => (hbytes b hb).1, fun b hb => ?_, fun b hb => ?_⟩
  · rw [htrim, writtenKey]
    simp [callsign_ne_nil hparse]
  · by_contra hpad
    have hspace := hpadding b (List.mem_of_mem_head? hb) (by simpa using hpad)
    exact (Utf8.trim_ends hspace key).1 hb
  · by_contra hpad
    have hspace := hpadding b (List.mem_of_mem_getLast? hb) (by simpa using hpad)
    exact (Utf8.trim_ends hspace key).2 hb

/-! ### The key of the record -/

/-- The text of a key is cut out of its record with what stands in front of it, and with what
stands behind it up to the first tag. -/
lemma cut_record {front back : Bytes} {tags : List (UInt8 × Bytes)}
    (hkey : key = front ++ Utf8.trim key ++ back) (hfront : ∀ b ∈ front, isTag b = false)
    (htext : ∀ b ∈ Utf8.trim key, isTag b = false) (htags : IsTagged tags) :
    keyBytes (key ++ writtenTags tags) =
        front ++ Utf8.trim key ++ back.takeWhile (!isTag ·) ∧
      tagBytes (key ++ writtenTags tags) = back.dropWhile (!isTag ·) ++ writtenTags tags := by
  have hsplit : key ++ writtenTags tags = front ++ Utf8.trim key ++ back.takeWhile (!isTag ·) ++
      (back.dropWhile (!isTag ·) ++ writtenTags tags) := by
    rw [← List.append_assoc, List.append_assoc _ (back.takeWhile _) (back.dropWhile _),
      List.takeWhile_append_dropWhile, ← hkey]
  rw [keyBytes_eq, tagBytes_eq, hsplit]
  apply Framing.takeWhile_append_eq
  · intro b hb
    rw [List.mem_append, List.mem_append] at hb
    rcases hb with (hb | hb) | hb
    · exact hfront b hb
    · exact htext b hb
    · simpa using List.mem_takeWhile_imp hb
  · cases hdrop : back.dropWhile (!isTag ·) with
    | nil => exact htags.head?_writtenTags
    | cons a rest =>
      intro b hb
      have hhead := @Framing.head?_dropWhile_not _ isTag back
      rw [hdrop] at hhead
      exact hhead b hb

/-- A record is left without a key when it is cut off inside the padding in front of its text. -/
lemma trimAscii_keyBytes_eq_nil {front rest : Bytes} (htag : ∃ b ∈ front, isTag b)
    (hpadding : ∀ b ∈ front, b ∈ trimAscii (keyBytes (front ++ rest)) → isPadding b) :
    trimAscii (keyBytes (front ++ rest)) = [] := by
  have hbytes : keyBytes (front ++ rest) = front.takeWhile (!isTag ·) := by
    have hlength : (front.takeWhile (!isTag ·)).length ≠ front.length := by
      intro hlen
      obtain ⟨b, hb, hbtag⟩ := htag
      have hall := List.takeWhile_eq_self_iff.mp ((List.takeWhile_sublist _).eq_of_length hlen)
      simpa [hbtag] using hall b hb
    rw [keyBytes_eq, List.takeWhile_append, if_neg hlength]
  cases htrim : trimAscii (keyBytes (front ++ rest)) with
  | nil => rfl
  | cons a l =>
    have ha : a ∈ trimAscii (keyBytes (front ++ rest)) := by simp [htrim]
    have hfront : a ∈ front := by
      have hmem := (infix_trimBy _ _).subset ha
      rw [hbytes] at hmem
      exact (List.takeWhile_sublist _).subset hmem
    have hbare := head?_trimBy a (by rw [← trimAscii, htrim]; rfl)
    rw [hpadding a hfront ha] at hbare
    cases hbare

/-- What is read of a record whose key is found is printable and not blank, and it looks like a key
unless it starts with a colon. -/
lemma key_of_keyOf {record : Bytes} {defaultKey : Option Bytes} {parts : Str × Option ℕ}
    (h : keyOf defaultKey (0xb5 :: record) = some parts) :
    (∀ b ∈ trimAscii (keyBytes record), isPrintable b) ∧ trimAscii (keyBytes record) ≠ [] ∧
      ((trimAscii (keyBytes record)).head? ≠ some 0x3a →
        looksLikeKey (trimAscii (keyBytes record))) := by
  obtain ⟨found, hfound, hlooks, -⟩ := keyOf_eq_some_iff.mp h
  rw [show stripSentinel (0xb5 :: record) = record from rfl, segmentKey_eq_some_iff] at hfound
  obtain ⟨hprint, ⟨-, rfl⟩ | ⟨hcolon, -⟩⟩ := hfound
  · refine ⟨hprint, fun hblank => ?_, fun _ => hlooks⟩
    rw [hblank, looksLikeKey_nil] at hlooks
    cases hlooks
  · refine ⟨hprint, fun hblank => ?_, fun hnot => absurd hcolon hnot⟩
    rw [hblank] at hcolon
    cases hcolon

/-- No tag byte stands in the white space in front of a key that is found: the key would end
there. -/
lemma isTag_eq_false_of_keyOf {front rest : Bytes} {defaultKey : Option Bytes}
    {parts : Str × Option ℕ} (h : keyOf defaultKey (0xb5 :: (front ++ rest)) = some parts)
    (hfront : ∀ b ∈ front, b ∈ Utf8.whiteSpace.flatten) : ∀ b ∈ front, isTag b = false := by
  obtain ⟨hprint, hne, -⟩ := key_of_keyOf h
  by_contra htag
  push Not at htag
  apply hne
  apply trimAscii_keyBytes_eq_nil (by simpa using htag)
  intro b hb hmem
  exact isPadding_of_isAsciiWhitespace
    ((of_mem_whiteSpace b (hfront b hb)).1 (.inl (hprint b hmem)))

/-- A record whose key is found has a storable key. -/
lemma storable_of_keyOf (h : statKeyParts key = some (callsign, vintage))
    {tags : List (UInt8 × Bytes)} (htags : IsTagged tags) {defaultKey : Option Bytes}
    {parts : Str × Option ℕ}
    (hkeyOf : keyOf defaultKey (0xb5 :: (key ++ writtenTags tags)) = some parts) :
    Storable key callsign := by
  obtain ⟨hne, htext, hhead, hlast⟩ := trim_of_statKeyParts h
  obtain ⟨front, back, hkey, hfrontw, hbackw⟩ := Utf8.exists_trim key
  obtain ⟨hprint, -, hlooks⟩ := key_of_keyOf hkeyOf
  have hfront : ∀ b ∈ front, isTag b = false := by
    rw [hkey, List.append_assoc, List.append_assoc] at hkeyOf
    exact isTag_eq_false_of_keyOf hkeyOf hfrontw
  obtain ⟨hcut, -⟩ := cut_record hkey hfront htext htags
  have hpad : ∀ b, b ∈ front ∨ b ∈ back.takeWhile (!isTag ·) → isAsciiWhitespace b := by
    intro b hb
    have hw : b ∈ Utf8.whiteSpace.flatten :=
      hb.elim (hfrontw b) fun hb => hbackw b ((List.takeWhile_sublist _).subset hb)
    by_cases hpadding : isPadding b
    · exact (of_mem_whiteSpace b hw).1 (.inr hpadding)
    · refine (of_mem_whiteSpace b hw).1 (.inl (hprint b (mem_trimBy ?_ (by simpa using hpadding))))
      rw [hcut, List.mem_append, List.mem_append]
      tauto
  have htrim : trimAscii (keyBytes (key ++ writtenTags tags)) = Utf8.trim key := by
    rw [hcut]
    exact trimBy_append_append (fun b hb => isPadding_of_isAsciiWhitespace (hpad b (.inl hb)))
      (fun b hb => isPadding_of_isAsciiWhitespace (hpad b (.inr hb))) hne hhead hlast
  obtain ⟨year, hwritten, -, -, hcolon⟩ := exists_year_of_statKeyParts h
  obtain ⟨call, hparse⟩ := exists_parse_of_statKeyParts h
  rw [htrim, hwritten] at hlooks
  have hlooks := hlooks (head?_writtenKey (callsign_ne_nil hparse) hcolon year)
  simp only [looksLikeKey, beforeSep_writtenKey hcolon, Bool.and_eq_true, decide_eq_true_eq,
    List.all_eq_true] at hlooks
  exact ⟨hlooks.1.2, hlooks.2, front, back, hkey, fun b hb => hpad b (.inl hb),
    fun b hb => hpad b (.inr hb)⟩

/-- There is one way to find the text in a storable key, and what stands behind it is white
space. -/
lemma Storable.exists_padded (h : statKeyParts key = some (callsign, vintage))
    (hs : Storable key callsign) : ∃ front back, key = front ++ Utf8.trim key ++ back ∧
      (∀ b ∈ front, isAsciiWhitespace b) ∧
      (∀ b ∈ back.takeWhile (!isTag ·), isAsciiWhitespace b) ∧
      ∀ b ∈ back, b ∈ Utf8.whiteSpace.flatten := by
  obtain ⟨front, back, hkey, hfront, hback⟩ := hs.padded
  obtain ⟨front', back', hkey', hfrontw, hbackw⟩ := Utf8.exists_trim key
  obtain ⟨call, hparse⟩ := exists_parse_of_statKeyParts h
  obtain ⟨year, htrim, -, -, -⟩ := exists_year_of_statKeyParts h
  have hhead : ∀ rest, ∀ b ∈ (Utf8.trim key ++ rest).head?, isCallsignChar b := by
    intro rest b hb
    rw [htrim, writtenKey, List.append_assoc,
      List.head?_append_of_ne_nil _ (callsign_ne_nil hparse)] at hb
    exact hs.chars b (List.mem_of_mem_head? hb)
  have hcut := Framing.takeWhile_append_eq (l := front) (p := isCallsignChar)
    (fun b hb => by
      have := hfront b hb
      grind [isAsciiWhitespace, isCallsignChar, isAsciiUppercase, isAsciiDigit]) (hhead back)
  have hcut' := Framing.takeWhile_append_eq (l := front') (p := isCallsignChar)
    (fun b hb => (of_mem_whiteSpace b (hfrontw b hb)).2.2.1) (hhead back')
  rw [← List.append_assoc, ← hkey] at hcut
  rw [← List.append_assoc, ← hkey'] at hcut'
  have hsame : back = back' := List.append_cancel_left (hcut.2.symm.trans hcut'.2)
  exact ⟨front, back, hkey, hfront, hback, hsame ▸ hbackw⟩

/-! ### The country of the record -/

/-- A piece applies its tag with a value or does nothing. -/
lemma applyPiece_cases (s : CallSnapshot) (piece : Bytes) : applyPiece s piece = s ∨
    ∃ tag value, piece.head? = some tag ∧ applyPiece s piece = applyTag s tag value := by
  cases piece with
  | nil => exact .inl rfl
  | cons tag value =>
    simp only [applyPiece]
    cases cleanValue value with
    | none => exact .inl rfl
    | some value => exact .inr ⟨tag, value, rfl, rfl⟩

lemma foldl_applyPiece_keeps {pieces : List Bytes} (h : ∀ g ∈ pieces, g.head? ≠ some 0xd1)
    (s : CallSnapshot) : (pieces.foldl applyPiece s).country = s.country := by
  induction pieces generalizing s with
  | nil => rfl
  | cons piece pieces ih =>
    rw [List.forall_mem_cons] at h
    rw [List.foldl_cons, ih h.2]
    rcases applyPiece_cases s piece with heq | ⟨tag, value, htag, heq⟩
    · rw [heq]
    · have hfield : .country ≠ TagField.ofTag tag := fun hcountry =>
        h.1 (htag.trans (congrArg some (ofTag_eq_country_iff.mp hcountry.symm)))
      have hget := TagField.get_applyTag .country s tag value
      rw [if_neg hfield] at hget
      rw [heq]
      exact hget

/-- White space behind the key is no country. -/
lemma head?_ne_of_mem_segments {back : Bytes} (h : ∀ b ∈ back, b ∈ Utf8.whiteSpace.flatten) :
    ∀ g ∈ Framing.segments isTag (back.dropWhile (!isTag ·)), g.head? ≠ some 0xd1 := by
  intro g hg hhead
  have hmem : (0xd1 : UInt8) ∈ back := by
    apply (List.dropWhile_sublist _).subset
    rw [← Framing.flatten_segments isTag (back.dropWhile (!isTag ·))]
    exact List.mem_flatten_of_mem hg (List.mem_of_mem_head? hhead)
  have hopen := (of_mem_whiteSpace _ (h _ hmem)).2.2.2 (by decide)
  revert hopen
  decide

/-- A record with a storable key has its callsign and vintage. -/
lemma Storable.keyOf (h : statKeyParts key = some (callsign, vintage))
    (hs : Storable key callsign) {tags : List (UInt8 × Bytes)} (htags : IsTagged tags)
    (defaultKey : Option Bytes) :
    V2Record.keyOf defaultKey (0xb5 :: (key ++ writtenTags tags)) = some (callsign, vintage) := by
  obtain ⟨hne, htext, hhead, hlast⟩ := trim_of_statKeyParts h
  obtain ⟨call, hparse⟩ := exists_parse_of_statKeyParts h
  obtain ⟨year, htrim, rfl, hyear, -⟩ := exists_year_of_statKeyParts h
  have hkey : IsKey callsign year := ⟨callsign_ne_nil hparse, hs.length, hs.chars, hyear⟩
  obtain ⟨front, back, hsplit, hfront, hback, -⟩ := hs.exists_padded h
  obtain ⟨hcut, -⟩ := cut_record hsplit
    (fun b hb => isTag_eq_false_of_isAsciiWhitespace (hfront b hb)) htext htags
  have hclean : trimAscii (keyBytes (key ++ writtenTags tags)) = writtenKey callsign year := by
    rw [hcut, ← htrim]
    exact trimBy_append_append (fun b hb => isPadding_of_isAsciiWhitespace (hfront b hb))
      (fun b hb => isPadding_of_isAsciiWhitespace (hback b hb)) hne hhead hlast
  refine keyOf_eq_some_iff.mpr ⟨writtenKey callsign year, ?_, hkey.looksLikeKey, hkey.splitKey⟩
  rw [show stripSentinel (0xb5 :: (key ++ writtenTags tags)) = key ++ writtenTags tags from rfl,
    segmentKey_eq_some_iff, hclean]
  exact ⟨fun b hb => (hkey.isPrintable b hb).1,
    .inl ⟨head?_writtenKey hkey.call_ne hkey.colon_notMem_call year, rfl⟩⟩

/-- The tags of such a record give a country exactly when one of them is the country's. -/
lemma Storable.country_tagLoop_eq_none_iff (h : statKeyParts key = some (callsign, vintage))
    (hs : Storable key callsign) {tags : List (UInt8 × Bytes)} (htags : IsTagged tags)
    {s : CallSnapshot} (hnone : s.country = none) :
    (tagLoop (key ++ writtenTags tags).length (tagBytes (key ++ writtenTags tags)) s).country =
      none ↔ 0xd1 ∉ tags.map Prod.fst := by
  obtain ⟨-, htext, -, -⟩ := trim_of_statKeyParts h
  obtain ⟨front, back, hsplit, hfront, -, hbackw⟩ := hs.exists_padded h
  obtain ⟨-, hcut⟩ := cut_record hsplit
    (fun b hb => isTag_eq_false_of_isAsciiWhitespace (hfront b hb)) htext htags
  have hfuel : (tagBytes (key ++ writtenTags tags)).length ≤ (key ++ writtenTags tags).length := by
    rw [tagBytes_eq]
    exact (List.dropWhile_sublist _).length_le
  rw [hcut] at hfuel ⊢
  rw [htags.tagLoop_append _ Framing.head?_dropWhile_not hfuel, country_applyTags_eq_none_iff,
    foldl_applyPiece_keeps (head?_ne_of_mem_segments hbackw), hnone]
  · exact and_iff_right rfl
  · exact fun b hb => (of_mem_whiteSpace b (hbackw b ((List.dropWhile_sublist _).subset hb))).2.1

/-- A record with a storable key is parsed, unless the country table is asked for its callsign and
panics. -/
lemma Storable.exists_parseSegment_iff (h : statKeyParts key = some (callsign, vintage))
    (hs : Storable key callsign) {tags : List (UInt8 × Bytes)} (htags : IsTagged tags)
    (defaultKey : Option Bytes) (source : SnapshotSource) (countries : Option CountryTable)
    (interests : Option InterestTable) :
    (∃ snapshot, parseSegment defaultKey source countries interests
        (0xb5 :: (key ++ writtenTags tags)) = .ok (some snapshot)) ↔
      0xd1 ∈ tags.map Prod.fst ∨
        ∀ table ∈ countries, ∃ country, table.lookup callsign = .ok country := by
  rw [parseSegment_of_keyOf (hs.keyOf h htags defaultKey),
    show stripSentinel (0xb5 :: (key ++ writtenTags tags)) = key ++ writtenTags tags from rfl]
  set tagged := tagLoop (key ++ writtenTags tags).length (tagBytes (key ++ writtenTags tags))
    (.new callsign vintage source)
  have hcountry : tagged.country = none ↔ 0xd1 ∉ tags.map Prod.fst :=
    hs.country_tagLoop_eq_none_iff h htags rfl
  have hcallsign : tagged.callsign = callsign := tagLoop_keeps (·.callsign) applyTag_callsign _ _ _
  cases hplace : applyCountry countries tagged with
  | ok located =>
    refine ⟨fun _ => ?_, fun _ => ⟨_, rfl⟩⟩
    rw [or_iff_not_imp_left]
    intro htag table htable
    cases hlookup : table.lookup callsign with
    | ok country => exact ⟨country, rfl⟩
    | error e =>
      have herror := applyCountry_eq_error_iff.mpr
        ⟨hcountry.mpr htag, table, htable, hcallsign ▸ hlookup⟩
      rw [hplace] at herror
      cases herror
  | error e =>
    rw [applyCountry_eq_error_iff, hcountry, hcallsign] at hplace
    obtain ⟨htag, table, htable, hlookup⟩ := hplace
    constructor
    · rintro ⟨_, ⟨⟩⟩
    · rintro (hmem | hall)
      · exact absurd hmem htag
      · obtain ⟨country, hok⟩ := hall table htable
        rw [hlookup] at hok
        cases hok

/-- A counted key is the key of a record that lookups find exactly when it is storable; the record
is then returned unless the country table panics on its callsign. -/
theorem parseSegment_statKey_iff (h : statKeyParts key = some (callsign, vintage))
    {tags : List (UInt8 × Bytes)} (htags : IsTagged tags)
    (defaultKey : Option Bytes) (source : SnapshotSource) (countries : Option CountryTable)
    (interests : Option InterestTable) :
    (∃ call snapshot, Callsign.parse callsign = .ok call ∧
      parseSegment defaultKey source countries interests (0xb5 :: (key ++ writtenTags tags)) =
        .ok (some snapshot) ∧ snapshot.callsign = call.asStr ∧ snapshot.vintage = vintage) ↔
      Storable key callsign ∧ (0xd1 ∈ tags.map Prod.fst ∨
        ∀ table ∈ countries, ∃ country, table.lookup callsign = .ok country) := by
  constructor
  · rintro ⟨call, snapshot, -, hparse, -, -⟩
    have hs := storable_of_keyOf h htags (keyOf_of_parseSegment hparse).1
    exact ⟨hs, (hs.exists_parseSegment_iff h htags _ _ _ _).mp ⟨snapshot, hparse⟩⟩
  · rintro ⟨hs, hlookup⟩
    obtain ⟨snapshot, hparse⟩ := (hs.exists_parseSegment_iff h htags _ _ _ _).mpr hlookup
    obtain ⟨call, hcall⟩ := exists_parse_of_statKeyParts h
    have hkey := (keyOf_of_parseSegment hparse).1
    rw [hs.keyOf h htags, Option.some.injEq, Prod.mk.injEq] at hkey
    refine ⟨call, snapshot, hcall, hparse, ?_, hkey.2.symm⟩
    rw [asStr_eq_of_chars hcall hs.chars hs.length, hkey.1]

end Parts

/-- An archive key with its year, and a name. -/
theorem parseSegment_statKey_archive : ∃ call snapshot, Callsign.parse (ascii "K0AB") = .ok call ∧
    parseSegment none .hamCallDatIdx none none
      (0xb5 :: (ascii "K0AB:2010" ++ writtenTags [(0xb8, ascii "Bob")])) = .ok (some snapshot) ∧
      snapshot.callsign = call.asStr ∧ snapshot.vintage = some 2010 := by
  refine (@parseSegment_statKey_iff (ascii "K0AB:2010") (ascii "K0AB") (some 2010)
    (by decide +kernel) [(0xb8, ascii "Bob")] ⟨by simp [isTag], by decide +kernel⟩ none
    .hamCallDatIdx none none).mpr ⟨⟨by decide, by decide +kernel, [], [], ?_⟩, .inr (by simp)⟩
  exact ⟨by decide +kernel, by simp, by simp⟩

/-- A key in lower case is counted, and its record is passed over. -/
theorem not_parsed_lowerCase : statKeyParts (ascii "k0ab") = some (ascii "k0ab", none) ∧
    (∃ call, Callsign.parse (ascii "k0ab") = .ok call) ∧
    parseSegment none .hamCallDatIdx none none (0xb5 :: (ascii "k0ab" ++ writtenTags [])) =
      .ok none := by
  have hcounted : statKeyParts (ascii "k0ab") = some (ascii "k0ab", none) := by decide +kernel
  have hparse := exists_parse_of_statKeyParts hcounted
  exact ⟨hcounted, hparse, rfl⟩

end Callbook
