import Callbook.Record.Basic

/-!
# Properties of record parsing

The loops visit the segments of the stream. A parsed segment has the call of its key, so the
prefilter passes it exactly for that call.
-/

namespace Callbook

open Text

namespace V2Record

/-! ### Segments -/

lemma nextSentinel_searchStart {decoded : Bytes} {start : ℕ} {a : UInt8} {l : Bytes}
    (h : decoded.drop start = a :: l) :
    nextSentinel decoded (searchStart decoded start) =
      (l.findIdx? isSentinel).map (start + 1 + ·) := by
  have ha : decoded[start]? = some a := by
    rw [← List.head?_drop, h, List.head?_cons]
  have hl : decoded.drop (start + 1) = l := by
    rw [← List.drop_drop, h, List.drop_succ_cons, List.drop_zero]
  simp only [searchStart, ha, Option.any_some]
  split_ifs with hs
  · rw [nextSentinel, hl]
  · rw [nextSentinel, h, List.findIdx?_cons, if_neg hs, Option.map_map]
    refine congrArg (Option.map · _) (funext fun i => ?_)
    simp only [Function.comp_apply]
    omega

/-- One round: the first segment, and what it leaves. -/
lemma slice_next {decoded : Bytes} {start : ℕ} {a : UInt8} {l : Bytes}
    (h : decoded.drop start = a :: l) :
    Framing.slice decoded start (start + 1 + l.findIdx isSentinel) =
        a :: l.takeWhile (!isSentinel ·) ∧
      decoded.drop (start + 1 + l.findIdx isSentinel) = l.dropWhile (!isSentinel ·) := by
  constructor
  · rw [Framing.slice, h, List.takeWhile_eq_take_findIdx_not,
      show start + 1 + l.findIdx isSentinel - start = l.findIdx isSentinel + 1 by omega,
      List.take_succ_cons]
    simp
  · rw [Nat.add_assoc, ← List.drop_drop, h, Nat.add_comm, List.drop_succ_cons,
      List.dropWhile_eq_drop_findIdx_not]
    simp

lemma segmentLoop_eq_segments (decoded : Bytes) (fuel start : ℕ)
    (hfuel : decoded.length ≤ start + fuel) :
    segmentLoop decoded fuel start = Framing.segments isSentinel (decoded.drop start) := by
  induction fuel generalizing start with
  | zero =>
    have hnil : decoded.drop start = [] := List.drop_eq_nil_of_le hfuel
    rw [hnil]
    rfl
  | succ fuel ih =>
    rw [segmentLoop]
    split_ifs with hlt
    · have hdrop := List.drop_eq_getElem_cons hlt
      obtain ⟨hslice, hrest⟩ := slice_next hdrop
      set l := decoded.drop (start + 1)
      have hnext : (nextSentinel decoded (searchStart decoded start)).getD decoded.length =
          start + 1 + l.findIdx isSentinel := by
        rw [nextSentinel_searchStart hdrop, List.findIdx_eq_getD_findIdx?]
        cases l.findIdx? isSentinel with
        | some i => rfl
        | none => simp [l]; omega
      simp only [hnext]
      rw [hslice, ih _ (by omega), hrest, hdrop, Framing.segments_cons]
    · rw [List.drop_eq_nil_of_le (by omega), Framing.segments_nil]

lemma completeLoop_eq_closedSegments (decoded : Bytes) (fuel start : ℕ)
    (hfuel : decoded.length ≤ start + fuel) :
    completeLoop decoded fuel start =
      Framing.closedSegments isSentinel (decoded.drop start) := by
  induction fuel generalizing start with
  | zero =>
    have hnil : decoded.drop start = [] := List.drop_eq_nil_of_le hfuel
    rw [hnil]
    rfl
  | succ fuel ih =>
    rw [completeLoop]
    split_ifs with hlt
    · have hdrop := List.drop_eq_getElem_cons hlt
      obtain ⟨hslice, hrest⟩ := slice_next hdrop
      set l := decoded.drop (start + 1)
      rw [nextSentinel_searchStart hdrop, hdrop, Framing.closedSegments, Framing.segments_cons]
      cases hi : l.findIdx? isSentinel with
      | none =>
        have hnone : l.dropWhile (!isSentinel ·) = [] := by
          rw [List.dropWhile_eq_nil_iff]
          simpa using List.findIdx?_eq_none_iff.mp hi
        simp [hnone]
      | some i =>
        have hidx : l.findIdx isSentinel = i := by
          rw [List.findIdx_eq_getD_findIdx?, hi, Option.getD_some]
        have hne : l.dropWhile (!isSentinel ·) ≠ [] := by
          rw [← hrest, Ne, List.drop_eq_nil_iff, hidx]
          have := (List.findIdx?_eq_some_iff_getElem.mp hi).1
          simp only [l, List.length_drop] at this
          omega
        rw [hidx] at hslice hrest
        simp only [Option.map_some]
        rw [hslice, ih _ (by omega), hrest, List.dropLast_cons_of_ne_nil
          (Framing.segments_ne_nil _ hne), Framing.closedSegments]
    · rw [List.drop_eq_nil_of_le (by omega)]
      rfl

section Collect

variable (defaultKey : Option Bytes) (source : SnapshotSource) (countries : Option CountryTable)
  (interests : Option InterestTable) (callsign : Str) (decoded : Bytes)

lemma parseMatchingSnapshots_eq :
    parseMatchingSnapshots defaultKey source countries interests callsign decoded =
      Panic.collect (segmentMatches defaultKey callsign)
        (parseSegment defaultKey source countries interests)
        (Framing.segments isSentinel decoded) := by
  rw [parseMatchingSnapshots, segmentLoop_eq_segments _ _ _ (by omega), List.drop_zero]

lemma parseCompleteMatchingSnapshots_eq :
    parseCompleteMatchingSnapshots defaultKey source countries interests callsign decoded =
      Panic.collect (segmentMatches defaultKey callsign)
        (parseSegment defaultKey source countries interests)
        (Framing.closedSegments isSentinel decoded) := by
  rw [parseCompleteMatchingSnapshots, completeLoop_eq_closedSegments _ _ _ (by omega),
    List.drop_zero]

end Collect

/-! ### Keys -/

lemma keyBytes_eq (segment : Bytes) : keyBytes segment = segment.takeWhile (!isTag ·) := by
  rw [keyBytes, ← List.findIdx_eq_getD_findIdx?, List.takeWhile_eq_take_findIdx_not]
  simp

lemma tagBytes_eq (segment : Bytes) : tagBytes segment = segment.dropWhile (!isTag ·) := by
  rw [tagBytes, ← List.findIdx_eq_getD_findIdx?, List.dropWhile_eq_drop_findIdx_not]
  simp

lemma cleanAscii_eq_some_iff {bytes : Bytes} {t : Str} :
    cleanAscii bytes = some t ↔ (∀ b ∈ t, isPrintable b) ∧ t = trimAscii bytes := by
  simp only [cleanAscii, Option.ite_none_right_eq_some, List.all_eq_true, Option.some.injEq]
  constructor
  · rintro ⟨h, rfl⟩
    rw [Utf8.fromUtf8Lossy_eq_self fun b hb => lt_128_of_isPrintable (h b hb)]
    exact ⟨h, rfl⟩
  · rintro ⟨h, rfl⟩
    exact ⟨h, Utf8.fromUtf8Lossy_eq_self fun b hb => lt_128_of_isPrintable (h b hb)⟩

/-- What `segment_key` returns: the trimmed key bytes, behind the call of the default key when they
start with a colon. -/
lemma segmentKey_eq_some_iff {segment key : Bytes} {defaultKey : Option Bytes} :
    segmentKey segment defaultKey = some key ↔
      (∀ b ∈ trimAscii (keyBytes segment), isPrintable b) ∧
        ((trimAscii (keyBytes segment)).head? ≠ some 0x3a ∧ key = trimAscii (keyBytes segment) ∨
          (trimAscii (keyBytes segment)).head? = some 0x3a ∧
            ∃ default, defaultKey = some default ∧ (∀ b ∈ trimAscii default, isPrintable b) ∧
              key = beforeSep 0x3a (trimAscii default) ++ trimAscii (keyBytes segment)) := by
  simp only [segmentKey, Option.bind_eq_bind, Option.bind_eq_some_iff, cleanAscii_eq_some_iff]
  constructor
  · rintro ⟨_, ⟨hprint, rfl⟩, h⟩
    refine ⟨hprint, ?_⟩
    split_ifs at h with hcolon
    · simp only [Option.bind_eq_some_iff, cleanAscii_eq_some_iff, Option.some.injEq] at h
      obtain ⟨default, hdefault, _, ⟨hprint', rfl⟩, rfl⟩ := h
      exact Or.inr ⟨hcolon, default, hdefault, hprint', rfl⟩
    · exact Or.inl ⟨hcolon, (Option.some.inj h).symm⟩
  · rintro ⟨hprint, ⟨hcolon, rfl⟩ | ⟨hcolon, default, rfl, hprint', rfl⟩⟩
    · exact ⟨_, ⟨hprint, rfl⟩, by rw [if_neg hcolon]⟩
    · refine ⟨_, ⟨hprint, rfl⟩, ?_⟩
      rw [if_pos hcolon]
      simp only [Option.bind_some, Option.bind_eq_some_iff, cleanAscii_eq_some_iff]
      exact ⟨_, ⟨hprint', rfl⟩, rfl⟩

@[simp] lemma segmentKey_nil (defaultKey : Option Bytes) : segmentKey [] defaultKey = some [] := rfl

@[simp] lemma looksLikeKey_nil : looksLikeKey [] = false := rfl

/-- A key without a colon is a call; one with a colon is a call and its vintage. -/
lemma splitKey_eq_some_iff {key call : Str} {vintage : Option ℕ} :
    splitKey key = some (call, vintage) ↔
      (0x3a ∉ key ∧ call = key ∧ vintage = none) ∨
        ∃ text year, key = call ++ 0x3a :: text ∧ 0x3a ∉ call ∧
          parseUnsigned 65535 text = some year ∧ vintage = some year := by
  rw [splitKey]
  cases h : splitOnce 0x3a key with
  | none =>
    have hkey := splitOnce_eq_none_iff.mp h
    simp only [Option.some.injEq, Prod.mk.injEq]
    constructor
    · rintro ⟨rfl, rfl⟩
      exact Or.inl ⟨hkey, rfl, rfl⟩
    · rintro (⟨-, rfl, rfl⟩ | ⟨text, year, rfl, -⟩)
      · exact ⟨rfl, rfl⟩
      · simp at hkey
  | some parts =>
    obtain ⟨x, y⟩ := parts
    obtain ⟨rfl, hx⟩ := splitOnce_eq_some_iff.mp h
    simp only [Option.map_eq_some_iff, Prod.mk.injEq]
    constructor
    · rintro ⟨year, hyear, rfl, rfl⟩
      exact Or.inr ⟨y, year, rfl, hx, hyear, rfl⟩
    · rintro (⟨hkey, -⟩ | ⟨text, year, heq, hcall, hyear, rfl⟩)
      · simp at hkey
      · have := splitOnce_append hcall text
        rw [← heq, h, Option.some.injEq, Prod.mk.injEq] at this
        obtain ⟨rfl, rfl⟩ := this
        exact ⟨year, hyear, rfl, rfl⟩

lemma call_of_splitKey {key call : Str} {vintage : Option ℕ}
    (h : splitKey key = some (call, vintage)) : call = beforeSep 0x3a key := by
  rcases splitKey_eq_some_iff.mp h with ⟨hkey, rfl, -⟩ | ⟨text, year, rfl, hcall, -⟩
  · exact (beforeSep_eq_self hkey).symm
  · exact (beforeSep_append hcall text).symm

lemma eqIgnoreAsciiCaseByte_iff {a b : UInt8} (ha : isCallsignChar a) (hb : isCallsignChar b) :
    eqIgnoreAsciiCaseByte a b ↔ a = b := by
  grind [isCallsignChar, isAsciiUppercase, isAsciiDigit, eqIgnoreAsciiCaseByte,
    toAsciiLowercaseByte]

/-- On callsigns, comparing without case is comparing. -/
lemma asciiEqIgnoreCase_iff {left right : Bytes} (hleft : ∀ b ∈ left, isCallsignChar b)
    (hright : ∀ b ∈ right, isCallsignChar b) : asciiEqIgnoreCase left right ↔ left = right := by
  induction left generalizing right with
  | nil => cases right <;> simp [asciiEqIgnoreCase]
  | cons a left ih =>
    cases right with
    | nil => simp [asciiEqIgnoreCase]
    | cons b right =>
      rw [List.forall_mem_cons] at hleft hright
      have := ih hleft.2 hright.2
      simp only [asciiEqIgnoreCase, Bool.and_eq_true, beq_iff_eq] at this
      simp only [asciiEqIgnoreCase, List.length_cons, List.zip_cons_cons, List.all_cons,
        eqIgnoreAsciiCaseByte_iff hleft.1 hright.1, List.cons.injEq, ← this, Bool.and_eq_true,
        beq_iff_eq, Nat.add_right_cancel_iff]
      tauto

/-- The call and the vintage in the key of a segment. -/
def keyOf (defaultKey : Option Bytes) (segment : Bytes) : Option (Str × Option ℕ) := do
  let key ← segmentKey (stripSentinel segment) defaultKey
  if looksLikeKey key then splitKey key else none

section KeyOf

variable {defaultKey : Option Bytes} {segment : Bytes} {call : Str} {vintage : Option ℕ}

lemma keyOf_eq_some_iff : keyOf defaultKey segment = some (call, vintage) ↔
    ∃ key, segmentKey (stripSentinel segment) defaultKey = some key ∧ looksLikeKey key ∧
      splitKey key = some (call, vintage) := by
  simp [keyOf, Option.bind_eq_some_iff]

lemma stripSentinel_ne_nil_of_keyOf (h : keyOf defaultKey segment = some (call, vintage)) :
    stripSentinel segment ≠ [] := by
  obtain ⟨key, hkey, hlooks, -⟩ := keyOf_eq_some_iff.mp h
  intro hnil
  rw [hnil, segmentKey_nil, Option.some.injEq] at hkey
  rw [← hkey, looksLikeKey_nil] at hlooks
  cases hlooks

lemma callsign_of_keyOf (h : keyOf defaultKey segment = some (call, vintage)) :
    call ≠ [] ∧ call.length ≤ 12 ∧ ∀ b ∈ call, isCallsignChar b := by
  obtain ⟨key, -, hlooks, hsplit⟩ := keyOf_eq_some_iff.mp h
  rw [call_of_splitKey hsplit]
  simpa [looksLikeKey, and_assoc] using hlooks

/-- The prefilter passes a segment with a key exactly for the call of its key. -/
theorem segmentMatches_iff_of_keyOf (h : keyOf defaultKey segment = some (call, vintage))
    {callsign : Str} (hcallsign : ∀ b ∈ callsign, isCallsignChar b) :
    segmentMatches defaultKey callsign segment ↔ call = callsign := by
  have hne := stripSentinel_ne_nil_of_keyOf h
  have hchars := (callsign_of_keyOf h).2.2
  obtain ⟨key, hkey, -, hsplit⟩ := keyOf_eq_some_iff.mp h
  have hcall := call_of_splitKey hsplit
  rw [← asciiEqIgnoreCase_iff hchars hcallsign, hcall]
  obtain ⟨hprint, ⟨hcolon, rfl⟩ | ⟨hcolon, default, rfl, hprint', rfl⟩⟩ :=
    segmentKey_eq_some_iff.mp hkey
  · simp only [segmentMatches, hne, if_false, List.all_eq_true.mpr hprint, not_true_eq_false,
      hcolon]
  · -- a key that is a bare colon has no vintage and is not split
    obtain ⟨rest, hrest⟩ : ∃ rest, trimAscii (keyBytes (stripSentinel segment)) = 0x3a :: rest :=
      List.head?_eq_some_iff.mp hcolon
    have hsep := sep_notMem_beforeSep 0x3a (trimAscii default)
    have hrestne : rest ≠ [] := by
      rintro rfl
      rw [hrest, splitKey, splitOnce_append hsep] at hsplit
      simp [parseUnsigned] at hsplit
    rw [hrest] at hprint
    simp only [segmentMatches, hne, if_false, hrest, List.all_eq_true.mpr hprint, not_true_eq_false,
      List.head?_cons, if_true, List.tail_cons, hrestne, Option.map_some, beforeSep_append hsep]

end KeyOf

/-! ### What parsing keeps of the key -/

@[simp] lemma applyTag_callsign (snapshot : CallSnapshot) (tag : UInt8) (value : Str) :
    (applyTag snapshot tag value).callsign = snapshot.callsign := by
  unfold applyTag
  split <;> rfl

@[simp] lemma applyTag_vintage (snapshot : CallSnapshot) (tag : UInt8) (value : Str) :
    (applyTag snapshot tag value).vintage = snapshot.vintage := by
  unfold applyTag
  split <;> rfl

@[simp] lemma applyTag_sources (snapshot : CallSnapshot) (tag : UInt8) (value : Str) :
    (applyTag snapshot tag value).sources = snapshot.sources := by
  unfold applyTag
  split <;> rfl

/-- What every tag with a value preserves, the tag loop preserves. -/
lemma tagLoop_invariant {P : CallSnapshot → Prop}
    (h : ∀ snapshot tag value, value ≠ [] → P snapshot → P (applyTag snapshot tag value)) (fuel : ℕ)
    (rest : Bytes) {snapshot : CallSnapshot} (hsnapshot : P snapshot) :
    P (tagLoop fuel rest snapshot) := by
  induction fuel generalizing rest snapshot with
  | zero => exact hsnapshot
  | succ fuel ih =>
    cases rest with
    | nil => exact hsnapshot
    | cons tag rest =>
      simp only [tagLoop]
      split_ifs
      · split
        · exact ih _ hsnapshot
        · split_ifs with hblank
          · exact ih _ hsnapshot
          · exact ih _ (h _ _ _ hblank hsnapshot)
      · exact ih _ hsnapshot

/-- What every tag keeps, the tag loop keeps. -/
lemma tagLoop_keeps {β : Type*} (f : CallSnapshot → β)
    (h : ∀ snapshot tag value, f (applyTag snapshot tag value) = f snapshot) (fuel : ℕ)
    (rest : Bytes) (snapshot : CallSnapshot) : f (tagLoop fuel rest snapshot) = f snapshot :=
  tagLoop_invariant (P := fun s => f s = f snapshot)
    (fun s tag value _ hs => (h s tag value).trans hs) fuel rest rfl

/-- Without a country table nothing is located. -/
@[simp] lemma locate_none (snapshot : CallSnapshot) : locate none snapshot = .ok none := by
  unfold locate
  split
  · contradiction
  · rfl

/-- A country is located by the table, in a record that names none. -/
lemma lookup_of_locate {countries : Option CountryTable} {snapshot : CallSnapshot}
    {country : CountryMatch} (h : locate countries snapshot = .ok (some country)) :
    snapshot.country = none ∧
      ∃ table ∈ countries, table.lookup snapshot.callsign = .ok (some country) := by
  unfold locate at h
  split at h
  · rename_i hcountry
    exact ⟨hcountry, _, rfl, h⟩
  · cases h

lemma applyCountry_eq_ok_iff {countries : Option CountryTable} {snapshot located : CallSnapshot} :
    applyCountry countries snapshot = .ok located ↔
      ∃ country, locate countries snapshot = .ok country ∧ place snapshot country = located := by
  rw [applyCountry, Panic.bind_eq_ok_iff]
  simp only [pure, Except.pure, Except.ok.injEq]

@[simp] lemma applyCountry_none (snapshot : CallSnapshot) :
    applyCountry none snapshot = .ok (place snapshot none) :=
  applyCountry_eq_ok_iff.mpr ⟨none, locate_none snapshot, rfl⟩

/-- Giving a country changes the country and the jurisdiction only. -/
lemma applyCountry_frame {countries : Option CountryTable} {snapshot located : CallSnapshot}
    (h : applyCountry countries snapshot = .ok located) : ∃ country jurisdiction,
      located = { snapshot with country := country, jurisdiction := jurisdiction } := by
  obtain ⟨country, -, rfl⟩ := applyCountry_eq_ok_iff.mp h
  unfold place
  split
  · exact ⟨_, _, rfl⟩
  · split_ifs <;> exact ⟨_, _, rfl⟩

/-- Giving a country panics only where the country table is asked and panics. -/
lemma applyCountry_eq_error_iff {countries : Option CountryTable} {snapshot : CallSnapshot}
    {e : Panic} : applyCountry countries snapshot = .error e ↔
      snapshot.country = none ∧ ∃ table ∈ countries, table.lookup snapshot.callsign = .error e := by
  have hplace : applyCountry countries snapshot = .error e ↔
      locate countries snapshot = .error e := by
    rw [applyCountry]
    cases locate countries snapshot <;> simp [bind, Except.bind, pure, Except.pure]
  rw [hplace]
  unfold locate
  split
  · rename_i hcountry
    simp [hcountry]
  · rename_i hother
    simp only [reduceCtorEq, false_iff, not_and]
    rintro hcountry ⟨table, htable, -⟩
    exact hother table hcountry htable

lemma applyCountry_keeps {countries : Option CountryTable} {snapshot located : CallSnapshot}
    (h : applyCountry countries snapshot = .ok located) :
    located.callsign = snapshot.callsign ∧ located.vintage = snapshot.vintage ∧
      located.sources = snapshot.sources := by
  obtain ⟨_, _, rfl⟩ := applyCountry_frame h
  exact ⟨rfl, rfl, rfl⟩

lemma applyInterests_keeps (interests : Option InterestTable) (snapshot : CallSnapshot) :
    (applyInterests interests snapshot).callsign = snapshot.callsign ∧
      (applyInterests interests snapshot).vintage = snapshot.vintage ∧
      (applyInterests interests snapshot).sources = snapshot.sources := by
  unfold applyInterests
  split <;> exact ⟨rfl, rfl, rfl⟩

section Parse

variable {defaultKey : Option Bytes} {source : SnapshotSource} {countries : Option CountryTable}
  {interests : Option InterestTable} {segment : Bytes} {snapshot : CallSnapshot}

/-- A segment without a key is passed over. -/
lemma parseSegment_of_keyOf_eq_none (h : keyOf defaultKey segment = none) :
    parseSegment defaultKey source countries interests segment = .ok none := by
  simp only [parseSegment]
  split_ifs with hempty
  · rfl
  · rw [keyOf] at h
    cases hkey : segmentKey (stripSentinel segment) defaultKey with
    | none => rfl
    | some key =>
      rw [hkey, Option.bind_eq_bind, Option.bind_some] at h
      by_cases hlooks : looksLikeKey key
      · rw [if_pos hlooks] at h
        simp only [hlooks, not_true_eq_false, if_false, h]
      · simp [hlooks]

/-- A segment with a key is parsed from its key on. -/
lemma parseSegment_of_keyOf {call : Str} {vintage : Option ℕ}
    (h : keyOf defaultKey segment = some (call, vintage)) :
    parseSegment defaultKey source countries interests segment =
      (applyCountry countries (tagLoop (stripSentinel segment).length
        (tagBytes (stripSentinel segment)) (.new call vintage source))).map fun located =>
          some (applyInterests interests located) := by
  obtain ⟨key, hkey, hlooks, hsplit⟩ := keyOf_eq_some_iff.mp h
  simp only [parseSegment, stripSentinel_ne_nil_of_keyOf h, if_false, hkey, hlooks,
    not_true_eq_false, hsplit]
  cases applyCountry countries _ <;> rfl

/-- The country table is asked for the call in the key of a segment, because the tags of the segment
name no country, and it panics. -/
def PanicsOn (defaultKey : Option Bytes) (source : SnapshotSource)
    (countries : Option CountryTable) (segment : Bytes) (call : Str) : Prop :=
  (∃ vintage, keyOf defaultKey segment = some (call, vintage) ∧
    (tagLoop (stripSentinel segment).length (tagBytes (stripSentinel segment))
      (.new call vintage source)).country = none) ∧
  ∃ table ∈ countries, ∃ e, table.lookup call = .error e

/-- A segment is aborted exactly by the country table, on the call of its key. -/
theorem exists_parseSegment_eq_error_iff :
    (∃ e, parseSegment defaultKey source countries interests segment = .error e) ↔
      ∃ call, PanicsOn defaultKey source countries segment call := by
  cases hkey : keyOf defaultKey segment with
  | none => simp [PanicsOn, hkey, parseSegment_of_keyOf_eq_none hkey]
  | some parts =>
    obtain ⟨call, vintage⟩ := parts
    simp only [parseSegment_of_keyOf hkey, Panic.map_eq_error_iff, applyCountry_eq_error_iff,
      tagLoop_keeps (·.callsign) applyTag_callsign, PanicsOn, hkey, Option.some.injEq,
      Prod.mk.injEq]
    constructor
    · rintro ⟨e, hcountry, table, htable, hlookup⟩
      exact ⟨call, ⟨vintage, ⟨rfl, rfl⟩, hcountry⟩, table, htable, e, hlookup⟩
    · rintro ⟨_, ⟨_, ⟨rfl, rfl⟩, hcountry⟩, table, htable, e, hlookup⟩
      exact ⟨e, hcountry, table, htable, hlookup⟩

lemma exists_parseSegment_eq_ok_iff :
    (∃ parsed, parseSegment defaultKey source countries interests segment = .ok parsed) ↔
      ∀ call, ¬ PanicsOn defaultKey source countries segment call := by
  rw [← not_exists, ← @exists_parseSegment_eq_error_iff _ _ _ interests _]
  cases parseSegment defaultKey source countries interests segment <;> simp

/-- The snapshot of a segment, from its key on. -/
lemma parseSegment_eq_ok_some_iff :
    parseSegment defaultKey source countries interests segment = .ok (some snapshot) ↔
      ∃ key call vintage located, segmentKey (stripSentinel segment) defaultKey = some key ∧
        looksLikeKey key ∧ splitKey key = some (call, vintage) ∧
        applyCountry countries (tagLoop (stripSentinel segment).length
          (tagBytes (stripSentinel segment)) (.new call vintage source)) = .ok located ∧
        snapshot = applyInterests interests located := by
  cases hkeyOf : keyOf defaultKey segment with
  | none =>
    rw [parseSegment_of_keyOf_eq_none hkeyOf]
    constructor
    · rintro ⟨⟩
    · rintro ⟨key, call, vintage, _, hkey, hlooks, hsplit, -⟩
      rw [keyOf_eq_some_iff.mpr ⟨key, hkey, hlooks, hsplit⟩] at hkeyOf
      cases hkeyOf
  | some parts =>
    obtain ⟨key, hkey, hlooks, hsplit⟩ := keyOf_eq_some_iff.mp hkeyOf
    rw [parseSegment_of_keyOf hkeyOf, Panic.map_eq_ok_iff]
    simp only [Option.some.injEq]
    constructor
    · rintro ⟨located, hlocated, rfl⟩
      exact ⟨key, parts.1, parts.2, located, hkey, hlooks, hsplit, hlocated, rfl⟩
    · rintro ⟨key', call, vintage, located, hkey', hlooks', hsplit', hlocated, rfl⟩
      rw [keyOf_eq_some_iff.mpr ⟨key', hkey', hlooks', hsplit'⟩, Option.some.injEq] at hkeyOf
      exact ⟨located, by rwa [← hkeyOf], rfl⟩

/-- A parsed snapshot has the call and the vintage of its key and its one source. -/
lemma keyOf_of_parseSegment
    (h : parseSegment defaultKey source countries interests segment = .ok (some snapshot)) :
    keyOf defaultKey segment = some (snapshot.callsign, snapshot.vintage) ∧
      snapshot.sources = [source] := by
  obtain ⟨key, call, vintage, located, hkey, hlooks, hsplit, hlocated, rfl⟩ :=
    parseSegment_eq_ok_some_iff.mp h
  obtain ⟨hcall, hvintage, hsources⟩ := applyCountry_keeps hlocated
  obtain ⟨hcall', hvintage', hsources'⟩ := applyInterests_keeps interests located
  rw [tagLoop_keeps (·.callsign) applyTag_callsign] at hcall
  rw [tagLoop_keeps (·.vintage) applyTag_vintage] at hvintage
  rw [tagLoop_keeps (·.sources) applyTag_sources] at hsources
  refine ⟨keyOf_eq_some_iff.mpr ⟨key, hkey, hlooks, ?_⟩, hsources'.trans hsources⟩
  rw [hcall', hcall, hvintage', hvintage]
  exact hsplit

/-- A segment with a key that is parsed at all is parsed to a snapshot of that key. -/
lemma exists_of_parseSegment {call : Str} {vintage : Option ℕ} {parsed : Option CallSnapshot}
    (hkey : keyOf defaultKey segment = some (call, vintage))
    (h : parseSegment defaultKey source countries interests segment = .ok parsed) :
    ∃ snapshot, parsed = some snapshot ∧ snapshot.callsign = call ∧
      snapshot.vintage = vintage := by
  have hparse := h
  rw [parseSegment_of_keyOf hkey, Panic.map_eq_ok_iff] at h
  obtain ⟨located, -, rfl⟩ := h
  have hkey' := (keyOf_of_parseSegment hparse).1
  rw [hkey, Option.some.injEq, Prod.mk.injEq] at hkey'
  exact ⟨_, rfl, hkey'.1.symm, hkey'.2.symm⟩

/-- The prefilter passes a segment that parses exactly for the callsign it parses to. -/
theorem segmentMatches_iff_of_parseSegment
    (h : parseSegment defaultKey source countries interests segment = .ok (some snapshot))
    {callsign : Str} (hcallsign : ∀ b ∈ callsign, isCallsignChar b) :
    segmentMatches defaultKey callsign segment ↔ snapshot.callsign = callsign :=
  segmentMatches_iff_of_keyOf (keyOf_of_parseSegment h).1 hcallsign

end Parse

end V2Record

end Callbook
