import Callbook.Library.Tally
import Callbook.Record.Properties
import Callbook.Scan.Basic

/-!
# The tag inventory

One pass over the DAT file counts the values of every tag. It holds the key, the last tag and its
value, and counts a value when the next tag, the next record or the end of the file closes it. What
it counts are the fields of the decoded file, as they stand in it.
-/

namespace Callbook

open Text V2Record

/-- Count and sample values for one DAT tag. -/
structure ModernTagCount where
  tag : UInt8
  /-- Stable field name when the tag is mapped. -/
  fieldName : Option String
  occurrences : ℕ
  currentOccurrences : ℕ
  archiveOccurrences : ℕ
  /-- Up to three observed values. -/
  sampleValues : List Str
  deriving DecidableEq, Repr

/-- Modern DAT tag inventory. -/
structure ModernTagStatistics where
  tags : List ModernTagCount
  deriving DecidableEq, Repr

/-- `modern_tag_name`. -/
def modernTagName (tag : UInt8) : Option String :=
  if tag = 0xb6 then some "license_class"
  else if tag = 0xb7 then some "record_code"
  else if tag = 0xb8 then some "first_name"
  else if tag = 0xb9 then some "middle_name"
  else if tag = 0xba then some "last_name"
  else if tag = 0xbb then some "suffix"
  else if 0xbc ≤ tag ∧ tag ≤ 0xbe then some "address"
  else if tag = 0xbf then some "city"
  else if tag = 0xc0 then some "state_or_province"
  else if tag = 0xc1 then some "postal_code"
  else if tag = 0xc2 then some "birth_date"
  else if tag = 0xc3 then some "first_issued"
  else if tag = 0xc4 then some "expires"
  else if tag = 0xc5 then some "last_changed"
  else if tag = 0xc6 then some "county"
  else if tag = 0xc7 then some "gmt_offset"
  else if tag = 0xc8 then some "latitude"
  else if tag = 0xc9 then some "longitude"
  else if tag = 0xca then some "grid"
  else if tag = 0xcb then some "area_code"
  else if tag = 0xcc then some "previous_call"
  else if tag = 0xcd then some "previous_class"
  else if tag = 0xce then some "fcc_transaction_type"
  else if tag = 0xcf then some "email"
  else if tag = 0xd0 then some "qsl"
  else if tag = 0xd1 then some "country"
  else if tag = 0xd2 then some "url"
  else if tag = 0xd4 then some "fax_number"
  else if tag = 0xd5 then some "interest_codes"
  else if tag = 0xd7 then some "license_id"
  else if tag = 0xd9 then some "frn"
  else if tag = 0xda then some "iota"
  else if tag = 0xde then some "numeric_id"
  else none

/-- The vintage of a record with these key bytes; a key that is not accepted has none. -/
def recordVintage (key : Bytes) : Option ℕ := (interestRecordKey key).bind Prod.snd

structure TagAccumulator where
  occurrences : ℕ
  currentOccurrences : ℕ
  archiveOccurrences : ℕ
  sampleValues : List Str
  deriving DecidableEq, Repr

namespace TagAccumulator

def zero : TagAccumulator := ⟨0, 0, 0, []⟩

/-- Count a value, and keep it as a sample when it is new and there are fewer than three. -/
def count (acc : TagAccumulator) (vintage : Option ℕ) (value : Str) : TagAccumulator where
  occurrences := acc.occurrences + 1
  currentOccurrences := acc.currentOccurrences + if vintage.isNone then 1 else 0
  archiveOccurrences := acc.archiveOccurrences + if vintage.isNone then 0 else 1
  sampleValues :=
    if acc.sampleValues.length < 3 ∧ value ∉ acc.sampleValues then acc.sampleValues ++ [value]
    else acc.sampleValues

end TagAccumulator

/-- The state of the pass. -/
structure TagScan where
  key : Bytes
  value : Bytes
  currentTag : Option UInt8
  inRecord : Bool
  keyComplete : Bool
  vintage : Option ℕ
  tags : Std.ExtTreeMap UInt8 TagAccumulator

namespace TagScan

/-- `TagScan::default`. -/
def new : TagScan := ⟨[], [], none, false, false, none, ∅⟩

/-- `start_record`. -/
def startRecord (scan : TagScan) : TagScan :=
  { scan with
    inRecord := true
    keyComplete := false
    currentTag := none
    vintage := none
    key := []
    value := [] }

/-- `finish_value`. -/
def finishValue (scan : TagScan) : TagScan :=
  match scan.currentTag with
  | none =>
    if scan.inRecord ∧ ¬ scan.keyComplete then { scan with vintage := recordVintage scan.key }
    else scan
  | some tag =>
    let vintage := if scan.vintage.isNone then recordVintage scan.key else scan.vintage
    let value := trimAsciiLossy scan.value
    let tags :=
      if value = [] then scan.tags
      else Tally.update .zero tag (·.count vintage value) scan.tags
    { scan with currentTag := none, vintage, tags }

/-- One byte of `scan_dat`. -/
def scanByte (scan : TagScan) (decoded : UInt8) : TagScan :=
  if isSentinel decoded then scan.finishValue.startRecord
  else if isTag decoded ∧ scan.inRecord then
    { scan.finishValue with keyComplete := true, currentTag := some decoded, value := [] }
  else if scan.inRecord ∧ ¬ scan.keyComplete then { scan with key := scan.key ++ [decoded] }
  else if scan.inRecord ∧ scan.currentTag.isSome then
    { scan with value := scan.value ++ [decoded] }
  else scan

/-- `scan_dat`. -/
def scanDat (scan : TagScan) (encoded : Bytes) : TagScan :=
  ((decodeDat encoded).foldl scanByte scan).finishValue

/-- `finish`. -/
def finish (scan : TagScan) : ModernTagStatistics where
  tags := scan.tags.toList.map fun p =>
    { tag := p.1
      fieldName := modernTagName p.1
      occurrences := p.2.occurrences
      currentOccurrences := p.2.currentOccurrences
      archiveOccurrences := p.2.archiveOccurrences
      sampleValues := p.2.sampleValues }

end TagScan

/-- `CallBook::modern_tag_statistics`. -/
def CallBook.modernTagStatistics (db : CallBook) : ModernTagStatistics :=
  match db.v2 with
  | none => ⟨[]⟩
  | some v2 => (TagScan.new.scanDat v2.datMmap).finish

/-! ### The fields of a file -/

/-- A field of a record: its tag, its value, and the key bytes of the record. -/
structure ScannedField where
  tag : UInt8
  value : Bytes
  key : Bytes
  deriving DecidableEq, Repr

/-- What stands behind the last record start. -/
def openRecord (front : Bytes) : Bytes := front.rtakeWhile (!isSentinel ·)

/-- The field that `b` opens: a tag behind a record start, with the bytes up to the next tag or
record start. -/
def fieldAt (front : Bytes) (b : UInt8) (rest : Bytes) : List ScannedField :=
  if isTag b ∧ ∃ c ∈ front, isSentinel c then
    [⟨b, rest.takeWhile (!endsValue ·), (openRecord front).takeWhile (!isTag ·)⟩]
  else []

lemma fieldAt_of_not_isTag {b : UInt8} (h : isTag b = false) (front rest : Bytes) :
    fieldAt front b rest = [] := by
  rw [fieldAt, if_neg fun hb => by simp [h] at hb]

/-- The fields in a stretch of bytes with `front` in front of it. -/
def fieldsFrom (front : Bytes) : Bytes → List ScannedField
  | [] => []
  | b :: rest => fieldAt front b rest ++ fieldsFrom (front ++ [b]) rest

/-- The fields of a decoded file. -/
def tagFields (decoded : Bytes) : List ScannedField := fieldsFrom [] decoded

lemma isTag_of_mem_fieldsFrom {front rest : Bytes} {field : ScannedField}
    (h : field ∈ fieldsFrom front rest) : isTag field.tag := by
  induction rest generalizing front with
  | nil => simp [fieldsFrom] at h
  | cons b rest ih =>
    rw [fieldsFrom, List.mem_append, fieldAt] at h
    rcases h with h | h
    · split_ifs at h with htag
      · rw [List.mem_singleton.mp h]
        exact htag.1
      · cases h
    · exact ih h

/-- The value is more than white space and NUL. -/
def ScannedField.Filled (field : ScannedField) : Prop := trimAscii field.value ≠ []

instance (field : ScannedField) : Decidable field.Filled := inferInstanceAs (Decidable (_ ≠ _))

lemma trimAsciiLossy_eq_nil_iff {bytes : Bytes} :
    trimAsciiLossy bytes = [] ↔ trimAscii bytes = [] := by
  rw [trimAsciiLossy]
  constructor
  · intro h
    have hself := Utf8.eq_of_fromUtf8Lossy_ascii (s := trimAscii bytes) (by simp [h])
    rw [← hself, h]
  · intro h
    rw [h]
    rfl

/-! ### The pass over a file -/

section Rtake

variable {front : Bytes} {b : UInt8}

lemma openRecord_concat_sentinel (h : isSentinel b) : openRecord (front ++ [b]) = [] := by
  rw [openRecord, List.rtakeWhile_concat_neg _ _ _ (by simp [h])]

lemma openRecord_concat (h : isSentinel b = false) :
    openRecord (front ++ [b]) = openRecord front ++ [b] := by
  rw [openRecord, List.rtakeWhile_concat_pos _ _ _ (by simp [h])]
  rfl

end Rtake

namespace TagScan

/-- Count a field. -/
def countField (acc : TagAccumulator) (field : ScannedField) : TagAccumulator :=
  acc.count (recordVintage field.key) (trimAsciiLossy field.value)

/-- Enter fields under their tags, leaving out the blank ones. -/
def enter (tags : Std.ExtTreeMap UInt8 TagAccumulator) (fields : List ScannedField) :
    Std.ExtTreeMap UInt8 TagAccumulator :=
  Tally.tally .zero ScannedField.tag countField tags (fields.filter ScannedField.Filled)

/-- The field that the scan is in, whose value goes on in `rest`. -/
def pending (scan : TagScan) (rest : Bytes) : List ScannedField :=
  scan.currentTag.toList.map fun tag =>
    ⟨tag, scan.value ++ rest.takeWhile (!endsValue ·), scan.key⟩

/-- What the scan holds of the bytes that it has read. -/
structure Holds (scan : TagScan) (front : Bytes) : Prop where
  inRecord : scan.inRecord ↔ ∃ b ∈ front, isSentinel b
  key : scan.inRecord → scan.key = (openRecord front).takeWhile (!isTag ·)
  keyComplete : scan.keyComplete ↔ scan.inRecord ∧ ∃ b ∈ openRecord front, isTag b
  currentTag : scan.currentTag.isSome → scan.keyComplete
  vintage : scan.keyComplete → scan.vintage = recordVintage scan.key

lemma holds_new : new.Holds [] where
  inRecord := by simp [new]
  key := by simp [new]
  keyComplete := by simp [new]
  currentTag := by simp [new]
  vintage := by simp [new]

lemma enter_append (tags : Std.ExtTreeMap UInt8 TagAccumulator)
    (fields fields' : List ScannedField) :
    enter tags (fields ++ fields') = enter (enter tags fields) fields' := by
  rw [enter, List.filter_append, Tally.tally, List.foldl_append]
  rfl

variable {scan : TagScan} {front : Bytes}

lemma endsValue_eq (b : UInt8) : endsValue b = (isSentinel b || isTag b) := by
  revert b
  decide +kernel

/-- A byte that closes a value closes the field that the scan is in. -/
lemma pending_cons_of_endsValue {b : UInt8} (h : endsValue b) (rest : Bytes) :
    scan.pending (b :: rest) = scan.pending [] := by
  simp [pending, h]

/-- Flushing counts the field that the scan is in. -/
lemma tags_finishValue (h : scan.Holds front) :
    scan.finishValue.tags = enter scan.tags (scan.pending []) := by
  rw [finishValue]
  cases htag : scan.currentTag with
  | none =>
    simp only [pending, htag]
    split_ifs <;> rfl
  | some tag =>
    have hvintage := h.vintage (h.currentTag (by rw [htag]; rfl))
    have hkept : (if scan.vintage.isNone then recordVintage scan.key else scan.vintage) =
        recordVintage scan.key := by
      rw [hvintage, ite_self]
    simp only [pending, htag, Option.toList_some, List.map_cons, List.map_nil,
      List.takeWhile_nil, List.append_nil, hkept, enter, trimAsciiLossy_eq_nil_iff]
    by_cases hblank : trimAscii scan.value = []
    · rw [if_pos hblank, List.filter_cons_of_neg (by
        rw [decide_eq_true_eq]
        exact not_not.mpr hblank)]
      rfl
    · rw [if_neg hblank, List.filter_cons_of_pos (by
        rw [decide_eq_true_eq]
        exact hblank)]
      rfl

lemma finishValue_frame (scan : TagScan) : scan.finishValue.key = scan.key ∧
    scan.finishValue.inRecord = scan.inRecord ∧
    scan.finishValue.keyComplete = scan.keyComplete := by
  rw [finishValue]
  cases scan.currentTag with
  | none => simp only; split_ifs <;> exact ⟨rfl, rfl, rfl⟩
  | some tag => exact ⟨rfl, rfl, rfl⟩

/-- Behind the key of a record, flushing leaves the vintage of the key. -/
lemma vintage_finishValue (h : scan.Holds front) (hin : scan.inRecord) :
    scan.finishValue.vintage = recordVintage scan.key := by
  rw [finishValue]
  cases htag : scan.currentTag with
  | none =>
    simp only
    split_ifs with hkey
    · rfl
    · exact h.vintage (by simpa [hin] using hkey)
  | some tag =>
    have hvintage := h.vintage (h.currentTag (by rw [htag]; rfl))
    simp only [hvintage, ite_self]

/-! ### One byte -/

variable {b : UInt8}

/-- What a byte does: the scan holds it with what it has read, and counts what it closes. -/
structure ReadsByte (scan : TagScan) (front : Bytes) (b : UInt8) (rest : Bytes) : Prop where
  holds : (scan.scanByte b).Holds (front ++ [b])
  counts : enter (scan.scanByte b).tags ((scan.scanByte b).pending rest) =
    enter scan.tags (scan.pending (b :: rest) ++ fieldAt front b rest)

/-- Only a record start changes whether the scan is in a record. -/
lemma Holds.inRecord_concat (h : scan.Holds front) (hb : isSentinel b = false) :
    scan.inRecord ↔ ∃ c ∈ front ++ [b], isSentinel c := by
  rw [h.inRecord]
  constructor
  · rintro ⟨c, hc, hs⟩
    exact ⟨c, List.mem_append_left _ hc, hs⟩
  · rintro ⟨c, hc, hs⟩
    rcases List.mem_append.mp hc with hc | hc
    · exact ⟨c, hc, hs⟩
    · rw [List.mem_singleton.mp hc, hb] at hs
      cases hs

/-- The scan is not in a field before the key is complete. -/
lemma Holds.currentTag_eq_none (h : scan.Holds front) (hkey : ¬ scan.keyComplete) :
    scan.currentTag = none := by
  rw [← Option.not_isSome_iff_eq_none]
  exact fun htag => hkey (h.currentTag htag)

lemma step_sentinel (h : scan.Holds front) (hb : isSentinel b) (rest : Bytes) :
    scan.ReadsByte front b rest := by
  have hstep : scan.scanByte b = scan.finishValue.startRecord := by rw [scanByte, if_pos hb]
  have htag : isTag b = false := by
    rw [isSentinel, beq_iff_eq] at hb
    rw [hb]
    rfl
  constructor <;> rw [hstep]
  · exact
      { inRecord := by simp [startRecord, hb]
        key := by simp [startRecord, openRecord_concat_sentinel hb]
        keyComplete := by simp [startRecord, openRecord_concat_sentinel hb]
        currentTag := by simp [startRecord]
        vintage := by simp [startRecord] }
  · rw [pending_cons_of_endsValue (by rw [endsValue_eq, hb, Bool.true_or]),
      fieldAt_of_not_isTag htag, List.append_nil, ← tags_finishValue h]
    rfl

lemma step_tag (h : scan.Holds front) (hb : isTag b) (hin : scan.inRecord) (rest : Bytes) :
    scan.ReadsByte front b rest := by
  have hs : isSentinel b = false := by
    rw [← Bool.not_eq_true, isSentinel, beq_iff_eq]
    rintro rfl
    cases hb
  have hstep : scan.scanByte b =
      { scan.finishValue with keyComplete := true, currentTag := some b, value := [] } := by
    rw [scanByte, if_neg (by simp [hs]), if_pos ⟨hb, hin⟩]
  obtain ⟨hkey, hin', -⟩ := finishValue_frame scan
  have hopen := h.inRecord.mp hin
  have hkeyEq := h.key hin
  constructor <;> rw [hstep]
  · refine ⟨?_, ?_, ?_, fun _ => rfl, fun _ => ?_⟩
    · exact hin' ▸ h.inRecord_concat hs
    · intro _
      simp only [hkey, hkeyEq, openRecord_concat hs]
      rw [Lists.takeWhile_concat_of_stop (by simp [hb])]
    · simp [hin', hin, openRecord_concat hs, hb]
    · simp only [hkey]
      exact vintage_finishValue h hin
  · rw [pending_cons_of_endsValue (by rw [endsValue_eq, hb, Bool.or_true]), fieldAt,
      if_pos ⟨hb, hopen⟩, enter_append, ← tags_finishValue h]
    simp [pending, hkey, hkeyEq]

lemma step_outside (h : scan.Holds front) (hb : isSentinel b = false) (hin : ¬ scan.inRecord)
    (rest : Bytes) : scan.ReadsByte front b rest := by
  have hstep : scan.scanByte b = scan := by simp [scanByte, hb, hin]
  have hkey : ¬ scan.keyComplete := fun hkey => hin (h.keyComplete.mp hkey).1
  have htag := h.currentTag_eq_none hkey
  have hopen : ¬ ∃ c ∈ front, isSentinel c := fun hopen => hin (h.inRecord.mpr hopen)
  constructor <;> rw [hstep]
  · refine ⟨h.inRecord_concat hb, fun hin' => absurd hin' hin, ?_, h.currentTag, h.vintage⟩
    exact iff_of_false hkey fun h => hin h.1
  · rw [fieldAt, if_neg fun h => hopen h.2, List.append_nil]
    simp [pending, htag]

lemma step_key (h : scan.Holds front) (hb : isSentinel b = false) (hb' : isTag b = false)
    (hin : scan.inRecord) (hkey : ¬ scan.keyComplete) (rest : Bytes) :
    scan.ReadsByte front b rest := by
  have hstep : scan.scanByte b = { scan with key := scan.key ++ [b] } := by
    simp [scanByte, hb, hb', hin, hkey]
  have htag := h.currentTag_eq_none hkey
  have hclean : ∀ c ∈ openRecord front, (!isTag c) = true := by
    intro c hc
    rw [Bool.not_eq_true', ← Bool.not_eq_true]
    exact fun hc' => hkey (h.keyComplete.mpr ⟨hin, c, hc, hc'⟩)
  constructor <;> rw [hstep]
  · refine ⟨?_, fun _ => ?_, ?_, h.currentTag, fun hkey' => absurd hkey' hkey⟩
    · exact h.inRecord_concat hb
    · rw [openRecord_concat hb, List.takeWhile_append_of_pos hclean, h.key hin,
        List.takeWhile_eq_self_iff.mpr hclean]
      simp [hb']
    · refine iff_of_false hkey ?_
      rintro ⟨-, c, hc, htag'⟩
      rw [openRecord_concat hb, List.mem_append, List.mem_singleton] at hc
      rcases hc with hc | rfl
      · have hclean' := hclean c hc
        rw [htag'] at hclean'
        cases hclean'
      · rw [hb'] at htag'
        cases htag'
  · rw [fieldAt_of_not_isTag hb', List.append_nil]
    simp [pending, htag]

lemma step_value (h : scan.Holds front) (hb : isSentinel b = false) (hb' : isTag b = false)
    (hin : scan.inRecord) (hkey : scan.keyComplete) (rest : Bytes) :
    scan.ReadsByte front b rest := by
  have hstep : scan.scanByte b =
      { scan with value := if scan.currentTag.isSome then scan.value ++ [b] else scan.value } := by
    rw [scanByte, if_neg (by simp [hb]), if_neg (by simp [hb']), if_neg (by simp [hkey])]
    by_cases htag : scan.currentTag.isSome
    · rw [if_pos ⟨hin, htag⟩, if_pos htag]
    · rw [if_neg fun h => htag h.2, if_neg htag]
  obtain ⟨-, c, hc, hctag⟩ := h.keyComplete.mp hkey
  constructor <;> rw [hstep]
  · refine ⟨?_, fun _ => ?_, ?_, h.currentTag, h.vintage⟩
    · exact h.inRecord_concat hb
    · rw [openRecord_concat hb, Lists.takeWhile_append_of_exists ⟨c, hc, by simp [hctag]⟩]
      exact h.key hin
    · exact iff_of_true hkey
        ⟨hin, c, by rw [openRecord_concat hb]; exact List.mem_append_left _ hc, hctag⟩
  · have hend : endsValue b = false := by rw [endsValue_eq, hb, hb', Bool.or_self]
    rw [fieldAt_of_not_isTag hb', List.append_nil]
    cases htag : scan.currentTag <;> simp [pending, htag, hend]

/-- One byte: the scan goes on holding what it has read, and counts what it closes. -/
lemma step_scanByte (h : scan.Holds front) (b : UInt8) (rest : Bytes) :
    scan.ReadsByte front b rest := by
  by_cases hb : isSentinel b
  · exact step_sentinel h hb rest
  rw [Bool.not_eq_true] at hb
  by_cases hin : scan.inRecord
  · by_cases hb' : isTag b
    · exact step_tag h hb' hin rest
    · rw [Bool.not_eq_true] at hb'
      by_cases hkey : scan.keyComplete
      · exact step_value h hb hb' hin hkey rest
      · exact step_key h hb hb' hin hkey rest
  · exact step_outside h hb hin rest

/-- A run counts the field that the scan is in and those that follow. -/
theorem tags_foldl_scanByte (h : scan.Holds front) (rest : Bytes) :
    (rest.foldl scanByte scan).finishValue.tags =
      enter scan.tags (scan.pending rest ++ fieldsFrom front rest) := by
  induction rest generalizing scan front with
  | nil => rw [List.foldl_nil, tags_finishValue h, fieldsFrom, List.append_nil]
  | cons b rest ih =>
    obtain ⟨hholds, hcount⟩ := step_scanByte h b rest
    rw [List.foldl_cons, ih hholds, enter_append, hcount, ← enter_append, fieldsFrom,
      List.append_assoc]

/-- The pass enters the fields of the file. -/
lemma tags_scanDat (encoded : Bytes) :
    (new.scanDat encoded).tags = enter ∅ (tagFields (decodeDat encoded)) := by
  rw [scanDat, tags_foldl_scanByte holds_new]
  rfl

/-- What counting fields adds. -/
lemma foldl_countField (fields : List ScannedField) (acc : TagAccumulator) :
    (fields.foldl countField acc).occurrences = acc.occurrences + fields.length ∧
      (fields.foldl countField acc).currentOccurrences = acc.currentOccurrences +
        (fields.filter fun field => (recordVintage field.key).isNone).length ∧
      (fields.foldl countField acc).archiveOccurrences = acc.archiveOccurrences +
        (fields.filter fun field => (recordVintage field.key).isSome).length := by
  have hall := Tally.count_foldl (m := TagAccumulator.occurrences) (f := countField)
    (p := fun _ => True) (fun _ _ => rfl) fields acc
  have hcurrent := Tally.count_foldl (m := TagAccumulator.currentOccurrences) (f := countField)
    (p := fun field => (recordVintage field.key).isNone) (fun _ _ => rfl) fields acc
  have harchive := Tally.count_foldl (m := TagAccumulator.archiveOccurrences) (f := countField)
    (p := fun field => (recordVintage field.key).isSome) (fun _ field => by
      cases hvintage : recordVintage field.key <;>
        simp [countField, TagAccumulator.count, hvintage]) fields acc
  simp only [Bool.decide_eq_true] at hcurrent harchive
  exact ⟨by simpa using hall, hcurrent, harchive⟩

lemma foldl_countField_add (fields : List ScannedField) (acc : TagAccumulator)
    (h : acc.currentOccurrences + acc.archiveOccurrences = acc.occurrences) :
    (fields.foldl countField acc).currentOccurrences +
      (fields.foldl countField acc).archiveOccurrences =
        (fields.foldl countField acc).occurrences := by
  induction fields generalizing acc with
  | nil => exact h
  | cons field fields ih =>
    refine ih _ ?_
    simp only [countField, TagAccumulator.count]
    split_ifs <;> omega

end TagScan

/-- The inventory of a file counts its filled fields, tag by tag, split by whether the key of the
record has a year; a tag without one is absent. -/
theorem modernTagStatistics_counts (shard : V2Shard) :
    let fields := (tagFields (decodeDat shard.datMmap)).filter ScannedField.Filled
    let stats := CallBook.modernTagStatistics ⟨some shard⟩
    (stats.tags.map ModernTagCount.tag).Pairwise (· < ·) ∧
    (∀ tag, tag ∈ stats.tags.map ModernTagCount.tag ↔ ∃ field ∈ fields, field.tag = tag) ∧
    ∀ count ∈ stats.tags, isTag count.tag ∧
      count.occurrences = (fields.filter fun field => field.tag = count.tag).length ∧
      count.archiveOccurrences = (fields.filter fun field =>
        field.tag = count.tag ∧ (recordVintage field.key).isSome).length ∧
      count.currentOccurrences = (fields.filter fun field =>
        field.tag = count.tag ∧ (recordVintage field.key).isNone).length ∧
      count.currentOccurrences + count.archiveOccurrences = count.occurrences := by
  intro fields stats
  have htags : stats.tags = (TagScan.enter ∅ (tagFields (decodeDat shard.datMmap))).toList.map
      fun p => ⟨p.1, modernTagName p.1, p.2.occurrences, p.2.currentOccurrences,
        p.2.archiveOccurrences, p.2.sampleValues⟩ := by
    rw [← TagScan.tags_scanDat]
    rfl
  have hkeys : stats.tags.map ModernTagCount.tag =
      (TagScan.enter ∅ (tagFields (decodeDat shard.datMmap))).keys := by
    rw [htags, List.map_map, ← Std.ExtTreeMap.map_fst_toList_eq_keys]
    rfl
  refine ⟨?_, fun tag => ?_, fun count hcount => ?_⟩
  · rw [hkeys]
    exact Std.ExtTreeMap.ordered_keys.imp compare_lt_iff_lt.mp
  · rw [hkeys]
    exact Tally.mem_keys_tally
  · rw [htags, TagScan.enter, Tally.toList_tally, List.map_map, List.mem_map] at hcount
    obtain ⟨tag, hkey, rfl⟩ := hcount
    obtain ⟨field, hfield, rfl⟩ := Tally.mem_keys_tally.mp hkey
    obtain ⟨hall, hcurrent, harchive⟩ := TagScan.foldl_countField
      (fields.filter fun f => f.tag = field.tag) .zero
    have hand : ∀ p : ScannedField → Bool,
        (fields.filter fun f => f.tag = field.tag).filter p =
          fields.filter fun f => f.tag = field.tag ∧ p f := by
      intro p
      rw [List.filter_filter]
      exact List.filter_congr fun f _ => by simp [Bool.and_comm]
    rw [hand] at hcurrent harchive
    exact ⟨isTag_of_mem_fieldsFrom (List.mem_filter.mp hfield).1, hall.trans (Nat.zero_add _),
      harchive.trans (Nat.zero_add _), hcurrent.trans (Nat.zero_add _),
      TagScan.foldl_countField_add _ _ rfl⟩

end Callbook
