import Callbook.Counts.Search

/-!
# Writing the counts table

Records are written as slots of 33 bytes in fixed columns, the whole file encoded. The slots stand
alone or between a prologue and a last slot; the reader tells the two layouts apart and returns the
records that were written.
-/

namespace Callbook

open Text

namespace LookupCountFile

/-! ### Slots -/

/-- A text at the start of a column. -/
def column (width : ℕ) (text : Bytes) : Bytes :=
  text ++ List.replicate (width - text.length) 0x20

def dateText (date : Option ℕ) : Bytes := (date.map decimal).getD []

/-- One slot: key, count, date, status and CR LF. -/
def slotText (r : LookupCountRecord) : Bytes :=
  column 15 r.key ++ (column 7 (decimal r.count) ++ (column 8 (dateText r.updatedYyyymmdd) ++
    [r.status.getD 0x20, 0x0d, 0x0a]))

/-- Records that fit a slot. -/
structure Storable (r : LookupCountRecord) : Prop where
  key_ne : r.key ≠ []
  key_length : r.key.length ≤ 15
  key_chars : ∀ b ∈ r.key, isAsciiGraphic b
  count_le : r.count ≤ 9999999
  date : ∀ d ∈ r.updatedYyyymmdd, 19900101 ≤ d ∧ d ≤ 21000101
  status : ∀ b ∈ r.status, isAsciiGraphic b

/-- A slot of white space. -/
def IsBlankSlot (slot : Bytes) : Prop :=
  slot.length = 33 ∧ ∀ b ∈ slot, isAsciiWhitespace b || b == 0

/-- A slot whose key is a run of one letter. -/
def IsRunSlot (byte : UInt8) (slot : Bytes) : Prop :=
  slot.length = 33 ∧ ∃ n, 1 ≤ n ∧ n ≤ 15 ∧ slot.take 15 = column 15 (List.replicate n byte)

lemma length_column {width : ℕ} {text : Bytes} (h : text.length ≤ width) :
    (column width text).length = width := by
  rw [column, List.length_append, List.length_replicate]
  omega

lemma not_blank_of_isAsciiGraphic {b : UInt8} (h : isAsciiGraphic b) :
    (isAsciiWhitespace b || b == 0) = false := by
  grind [isAsciiGraphic, isAsciiWhitespace]

lemma isAsciiGraphic_of_isAsciiDigit {b : UInt8} (h : isAsciiDigit b) : isAsciiGraphic b := by
  grind [isAsciiGraphic, isAsciiDigit]

/-- Reading a column gives its text. -/
lemma trimAsciiLossy_column (width : ℕ) {text : Bytes} (h : ∀ b ∈ text, isAsciiGraphic b) :
    trimAsciiLossy (column width text) = text := by
  have hpad : ∀ b ∈ List.replicate (width - text.length) (0x20 : UInt8),
      (isAsciiWhitespace b || b == 0) = true := by
    intro b hb
    rw [List.eq_of_mem_replicate hb]
    rfl
  rw [trimAsciiLossy, column,
    trimBy_append_of_forall (fun b hb => not_blank_of_isAsciiGraphic (h b hb)) hpad]
  apply Utf8.fromUtf8Lossy_eq_self
  intro b hb
  exact lt_128_of_isPrintable (isPrintable_of_isAsciiGraphic (h b hb))

lemma isAsciiGraphic_of_mem_decimal {n : ℕ} : ∀ b ∈ decimal n, isAsciiGraphic b :=
  fun b hb => isAsciiGraphic_of_isAsciiDigit (isAsciiDigit_of_mem_decimal b hb)

lemma isAsciiGraphic_of_mem_dateText {date : Option ℕ} : ∀ b ∈ dateText date, isAsciiGraphic b := by
  intro b hb
  cases date with
  | none => cases hb
  | some d => exact isAsciiGraphic_of_mem_decimal b hb

lemma parseUnsigned_decimal {max n : ℕ} (h : n ≤ max) : parseUnsigned max (decimal n) = some n := by
  rw [parseUnsigned_eq_parseDigits (decimal_ne_nil n), parseDigits_decimal h]
  intro b hb
  have hdigit := isAsciiDigit_of_mem_decimal b (List.mem_of_mem_head? hb)
  grind [isAsciiDigit]

variable {r : LookupCountRecord}

lemma Storable.length_count (h : Storable r) : (decimal r.count).length ≤ 7 := by
  apply length_decimal_le
  have hcount := h.count_le
  omega

lemma Storable.length_date (h : Storable r) : (dateText r.updatedYyyymmdd).length ≤ 8 := by
  cases hdate : r.updatedYyyymmdd with
  | none => exact Nat.zero_le _
  | some d =>
    have hrange := h.date d hdate
    apply length_decimal_le
    omega

lemma Storable.length_slotText (h : Storable r) : (slotText r).length = 33 := by
  rw [slotText, List.length_append, List.length_append, List.length_append,
    length_column h.key_length, length_column h.length_count, length_column h.length_date]
  rfl

/-- The columns of a slot. -/
lemma Storable.columns (h : Storable r) : (slotText r).take countKeyLen = column 15 r.key ∧
    Framing.slice (slotText r) countKeyLen countFieldEnd = column 7 (decimal r.count) ∧
    Framing.slice (slotText r) countFieldEnd countDateEnd =
      column 8 (dateText r.updatedYyyymmdd) ∧
    (slotText r)[countDateEnd]? = some (r.status.getD 0x20) := by
  have hkey := length_column h.key_length
  have hcount := length_column h.length_count
  have hdate := length_column h.length_date
  have hfield : (slotText r).drop countFieldEnd = column 8 (dateText r.updatedYyyymmdd) ++
      [r.status.getD 0x20, 0x0d, 0x0a] := by
    rw [show countFieldEnd = 15 + 7 from rfl, ← List.drop_drop, slotText, List.drop_left' hkey,
      List.drop_left' hcount]
  refine ⟨?_, ?_, ?_, ?_⟩
  · exact List.take_left' hkey
  · rw [Framing.slice, slotText, countKeyLen, List.drop_left' hkey]
    exact List.take_left' hcount
  · rw [Framing.slice, hfield]
    exact List.take_left' hdate
  · rw [show countDateEnd = countFieldEnd + 8 from rfl, ← List.getElem?_drop, hfield,
      List.getElem?_append_right hdate.le, hdate]
    rfl

/-- Reading a slot undoes writing it. -/
theorem parseCountRecord_slotText (h : Storable r) : parseCountRecord (slotText r) = some r := by
  obtain ⟨hkey, hcount, hdate, hstatus⟩ := h.columns
  have hupdated : (parseUnsigned (2 ^ 32 - 1) (dateText r.updatedYyyymmdd)).filter
      (fun date => 19900101 ≤ date && date ≤ 21000101) = r.updatedYyyymmdd := by
    cases hd : r.updatedYyyymmdd with
    | none => rfl
    | some d =>
      have hrange := h.date d hd
      have hfit : d ≤ 2 ^ 32 - 1 := by omega
      rw [dateText, Option.map_some, Option.getD_some, parseUnsigned_decimal hfit,
        Option.filter_some, if_pos (by simpa using hrange)]
  have hgraphic : (some (r.status.getD 0x20)).filter isAsciiGraphic = r.status := by
    cases hs : r.status with
    | none => rfl
    | some b =>
      rw [Option.getD_some, Option.filter_some, if_pos (h.status b hs)]
  have hfit : r.count ≤ 2 ^ 32 - 1 := h.count_le.trans (by decide)
  simp only [parseCountRecord, hkey, hcount, hdate, hstatus, trimAsciiLossy_column _ h.key_chars,
    trimAsciiLossy_column _ isAsciiGraphic_of_mem_decimal,
    trimAsciiLossy_column _ isAsciiGraphic_of_mem_dateText, h.key_ne, if_false, hupdated, hgraphic,
    parseUnsigned_decimal hfit, Option.bind_eq_bind, Option.bind_some]

/-! ### Files -/

/-- A file of the slots, encoded at their positions. -/
def ofSlots (slots : List Bytes) : LookupCountFile :=
  .open (Keystream.applyFrom decodeV2SidecarByte 0 slots.flatten)

variable {slots : List Bytes}

lemma length_flatten_slots (h : ∀ slot ∈ slots, slot.length = 33) :
    slots.flatten.length = 33 * slots.length := by
  rw [List.length_flatten, List.map_congr_left h, List.map_const', List.sum_replicate,
    smul_eq_mul, Nat.mul_comm]

lemma records_ofSlots (h : ∀ slot ∈ slots, slot.length = 33) :
    (ofSlots slots).records = slots.length := by
  rw [(ofSlots slots).records_eq, ofSlots, LookupCountFile.open, Keystream.length_applyFrom,
    length_flatten_slots h, Nat.mul_div_cancel_left _ (by decide)]

/-- The reader finds the slots that were written. -/
lemma decodedSlot_ofSlots (h : ∀ slot ∈ slots, slot.length = 33) (i : ℕ) :
    (ofSlots slots).decodedSlot i = slots[i]? := by
  have hcut : chunksExact 33 slots.flatten = slots := by
    have hpieces := chunksExact_flatMap (f := id) (by decide : 0 < 33) h
    rwa [List.flatMap_id, List.map_id] at hpieces
  have hpiece := chunksExact_getElem? (n := 33) (by decide) slots.flatten i
  rw [hcut, length_flatten_slots h] at hpiece
  rw [decodedSlot, records_ofSlots h]
  split_ifs with hle
  · exact (List.getElem?_eq_none hle).symm
  · rw [hpiece, if_pos (by omega), ofSlots, LookupCountFile.open]
    have hself : ∀ i b, decodeV2SidecarByte i (decodeV2SidecarByte i b) = b :=
      fun i b => Keystream.xor_xor_cancel b 7 _
    dsimp only
    rw [Framing.slice, Keystream.drop_applyFrom, Keystream.take_applyFrom, Nat.zero_add,
      Keystream.applyFrom_applyFrom hself, Nat.add_sub_cancel_left]
    rfl

lemma decodedKey_ofSlots (h : ∀ slot ∈ slots, slot.length = 33) (i : ℕ) :
    (ofSlots slots).decodedKey i = slots[i]?.bind fun slot =>
      if trimAsciiLossy (slot.take countKeyLen) = [] then none
      else some (trimAsciiLossy (slot.take countKeyLen)) := by
  rw [decodedKey, decodedSlot_ofSlots h]
  rfl

lemma IsBlankSlot.trim_eq_nil {slot : Bytes} (h : IsBlankSlot slot) :
    trimAsciiLossy (slot.take countKeyLen) = [] := by
  have hblank : ∀ b ∈ slot.take countKeyLen, (isAsciiWhitespace b || b == 0) = true :=
    fun b hb => h.2 b (List.mem_of_mem_take hb)
  have hnil : ∀ b ∈ ([] : Bytes), (isAsciiWhitespace b || b == 0) = false := by simp
  rw [trimAsciiLossy, ← List.nil_append (slot.take countKeyLen),
    trimBy_append_of_forall hnil hblank]
  rfl

lemma IsRunSlot.trim_eq {byte : UInt8} {slot : Bytes} (h : IsRunSlot byte slot)
    (hbyte : isAsciiGraphic byte) : ∃ n, 1 ≤ n ∧
      trimAsciiLossy (slot.take countKeyLen) = List.replicate n byte := by
  obtain ⟨-, n, hn, -, htake⟩ := h
  refine ⟨n, hn, ?_⟩
  rw [countKeyLen, htake]
  apply trimAsciiLossy_column
  intro b hb
  rwa [List.eq_of_mem_replicate hb]

lemma repeatedKey_replicate {n : ℕ} (hn : 1 ≤ n) (byte : UInt8) :
    repeatedKey (List.replicate n byte) byte := by
  have hne : n ≠ 0 := by omega
  simp [repeatedKey, hne]

end LookupCountFile

namespace LookupCounts

open LookupCountFile

/-- The two layouts of a file with the given records. -/
inductive Layout (records : List LookupCountRecord) : LookupCounts → Prop
  | bare : Layout records ⟨ofSlots (records.map slotText)⟩
  | wrapped {blank any first last : Bytes} (hblank : IsBlankSlot blank) (hany : any.length = 33)
      (hfirst : IsRunSlot 0x21 first) (hlast : IsRunSlot 0x7a last) :
      Layout records ⟨ofSlots (blank :: any :: first :: (records.map slotText ++ [last]))⟩

variable {records : List LookupCountRecord} {counts : LookupCounts}

lemma length_of_mem_slotTexts (h : ∀ r ∈ records, Storable r) :
    ∀ slot ∈ records.map slotText, slot.length = 33 := by
  intro slot hslot
  obtain ⟨r, hr, rfl⟩ := List.mem_map.mp hslot
  exact (h r hr).length_slotText

/-- A file that starts with a record has no prologue. -/
lemma hasPrologueAndSentinels_bare (h : ∀ r ∈ records, Storable r) :
    (ofSlots (records.map slotText)).hasPrologueAndSentinels = false := by
  have hlen := length_of_mem_slotTexts h
  rw [hasPrologueAndSentinels, records_ofSlots hlen, decodedKey_ofSlots hlen, List.getElem?_map]
  cases hr : records[0]? with
  | none =>
    have hnil : records.length = 0 := by
      rw [List.getElem?_eq_none_iff] at hr
      omega
    simp [hnil]
  | some r =>
    have hstorable := h r (List.mem_of_getElem? hr)
    have hkey : trimAsciiLossy ((slotText r).take countKeyLen) = r.key := by
      rw [hstorable.columns.1, trimAsciiLossy_column _ hstorable.key_chars]
    simp [hkey, hstorable.key_ne]

section Wrapped

variable {blank any first last : Bytes} {texts : List Bytes}

lemma getElem?_wrapped {i : ℕ} (hi : i < texts.length) :
    (blank :: any :: first :: (texts ++ [last]))[3 + i]? = texts[i]? := by
  rw [Nat.add_comm 3 i, List.getElem?_cons_succ, List.getElem?_cons_succ,
    List.getElem?_cons_succ, List.getElem?_append_left hi]

lemma getElem?_wrapped_last :
    (blank :: any :: first :: (texts ++ [last]))[texts.length + 3]? = some last := by
  rw [List.getElem?_cons_succ, List.getElem?_cons_succ, List.getElem?_cons_succ,
    List.getElem?_append_right le_rfl, Nat.sub_self]
  rfl

lemma length_of_mem_wrapped (hblank : IsBlankSlot blank) (hany : any.length = 33)
    (hfirst : IsRunSlot 0x21 first) (hlast : IsRunSlot 0x7a last)
    (htexts : ∀ slot ∈ texts, slot.length = 33) :
    ∀ slot ∈ blank :: any :: first :: (texts ++ [last]), slot.length = 33 := by
  rw [List.forall_mem_cons, List.forall_mem_cons, List.forall_mem_cons, List.forall_mem_append,
    List.forall_mem_singleton]
  exact ⟨hblank.1, hany, hfirst.1, htexts, hlast.1⟩

/-- A blank slot in front and the runs around the records are the prologue and the sentinels. -/
lemma hasPrologueAndSentinels_wrapped (hblank : IsBlankSlot blank) (hany : any.length = 33)
    (hfirst : IsRunSlot 0x21 first) (hlast : IsRunSlot 0x7a last)
    (htexts : ∀ slot ∈ texts, slot.length = 33) :
    (ofSlots (blank :: any :: first :: (texts ++ [last]))).hasPrologueAndSentinels = true := by
  have hlen := length_of_mem_wrapped hblank hany hfirst hlast htexts
  obtain ⟨n, hn, hbangs⟩ := hfirst.trim_eq (by decide)
  obtain ⟨m, hm, hzs⟩ := hlast.trim_eq (by decide)
  have hn' : List.replicate n (0x21 : UInt8) ≠ [] := by simp; omega
  have hm' : List.replicate m (0x7a : UInt8) ≠ [] := by simp; omega
  have hcount : (blank :: any :: first :: (texts ++ [last])).length = texts.length + 4 := by simp
  have hzero : (blank :: any :: first :: (texts ++ [last]))[0]? = some blank := rfl
  have htwo : (blank :: any :: first :: (texts ++ [last]))[2]? = some first := rfl
  simp only [hasPrologueAndSentinels, records_ofSlots hlen, hcount, decodedKey_ofSlots hlen, hzero,
    htwo, show texts.length + 4 - 1 = texts.length + 3 by omega, getElem?_wrapped_last,
    Option.bind_some, hblank.trim_eq_nil, if_true, hbangs, hzs, hn', hm', if_false,
    Option.any_some, repeatedKey_replicate hn, repeatedKey_replicate hm]
  simp

end Wrapped

/-- The searchable slots are those of the records. -/
lemma Layout.searchable (hlayout : Layout records counts) (h : ∀ r ∈ records, Storable r) :
    ∃ low, counts.file.searchableRecordRange = (low, low + records.length) ∧
      ∀ i < records.length, counts.file.record (low + i) = records[i]? := by
  have hlen := length_of_mem_slotTexts h
  have hread : ∀ i : ℕ, (records[i]?.map slotText).bind parseCountRecord = records[i]? := by
    intro i
    cases hr : records[i]? with
    | none => rfl
    | some r => exact parseCountRecord_slotText (h r (List.mem_of_getElem? hr))
  cases hlayout with
  | bare =>
    refine ⟨0, ?_, fun i _ => ?_⟩
    · rw [searchableRecordRange, hasPrologueAndSentinels_bare h, records_ofSlots hlen,
        List.length_map, Nat.zero_add]
      rfl
    · rw [Nat.zero_add, record, decodedSlot_ofSlots hlen, List.getElem?_map]
      exact hread i
  | wrapped hblank hany hfirst hlast =>
    have hslots := length_of_mem_wrapped hblank hany hfirst hlast hlen
    refine ⟨3, ?_, fun i hi => ?_⟩
    · rw [searchableRecordRange, hasPrologueAndSentinels_wrapped hblank hany hfirst hlast hlen,
        records_ofSlots hslots]
      simp only [List.length_cons, List.length_append, List.length_map, List.length_nil, if_true,
        Prod.mk.injEq, true_and]
      omega
    · rw [record, decodedSlot_ofSlots hslots, getElem?_wrapped (by rwa [List.length_map]),
        List.getElem?_map]
      exact hread i

/-- Iterating over a written file yields what was written. -/
lemma Layout.iter_eq (hlayout : Layout records counts) (h : ∀ r ∈ records, Storable r) :
    counts.iter = records := by
  obtain ⟨low, hrange, hrecord⟩ := hlayout.searchable h
  have hlen : counts.len = records.length := by
    rw [len, hrange, Nat.add_sub_cancel_left]
  have hslots : counts.slots = (List.range records.length).map (low + ·) := by
    rw [slots, hrange, hlen, List.range'_eq_map_range]
  rw [iter, hslots, List.filterMap_map]
  conv_rhs => rw [← Lists.filterMap_range_getElem? records]
  apply List.filterMap_congr
  intro i hi
  exact hrecord i (List.mem_range.mp hi)

lemma mem_iter_of_lookup {callsign : Str} {r : LookupCountRecord}
    (h : counts.lookup callsign = some r) : r ∈ counts.iter := by
  simp only [lookup, LookupCountFile.lookup] at h
  split_ifs at h
  rw [lookupLoop_eq, Option.bind_eq_some_iff] at h
  obtain ⟨m, hm, hr⟩ := h
  obtain ⟨hlow, hhigh, -⟩ := Bisect.searchLoop_eq_some hm
  exact List.mem_filterMap.mpr ⟨m, mem_slots.mpr ⟨hlow, hhigh⟩, hr⟩

/-- With no skipped slot every record under a key in normal form is found. -/
lemma lookup_of_no_skipped (h : counts.Increasing)
    (hfull : ∀ m ∈ counts.slots, counts.file.record m ≠ none) {r : LookupCountRecord}
    (hr : r ∈ counts.iter) (hnormal : lookupKey r.key = r.key) : counts.lookup r.key = some r := by
  obtain ⟨i, hi, hrecord⟩ := List.mem_filterMap.mp hr
  rw [lookup_eq_some_iff_steer h hi hrecord hnormal]
  intro m hm
  rw [steer_iff_of_probe h hi hrecord hm]
  intro hnone
  have hbounds := Bisect.mem_probes_bounds hm
  exact absurd hnone (hfull m (mem_slots.mpr ⟨hbounds.1, hbounds.2.1⟩))

/-- Iterating over a written file yields what was written; when the keys are uppercase and
increasing, looking a listed key up yields its record, and anything else nothing. -/
theorem roundTrip_of_layout (hlayout : Layout records counts) (h : ∀ r ∈ records, Storable r) :
    counts.iter = records ∧
      ((∀ r ∈ records, toAsciiUppercase r.key = r.key) →
        records.Pairwise (fun a b => a.key < b.key) →
        (∀ r ∈ records, counts.lookup r.key = some r) ∧
          ∀ callsign, (∀ r ∈ records, r.key ≠ toAsciiUppercase (Utf8.trim callsign)) →
            counts.lookup callsign = none) := by
  have hiter := hlayout.iter_eq h
  refine ⟨hiter, ?_⟩
  intro hupper hsorted
  have hincreasing : counts.Increasing := by
    rwa [Increasing, hiter]
  have hfull : ∀ m ∈ counts.slots, counts.file.record m ≠ none := by
    obtain ⟨low, hrange, hrecord⟩ := hlayout.searchable h
    intro m hm
    rw [mem_slots, hrange] at hm
    obtain ⟨i, rfl⟩ := Nat.exists_eq_add_of_le hm.1
    have hi : i < records.length := Nat.lt_of_add_lt_add_left hm.2
    rw [hrecord i hi, List.getElem?_eq_getElem hi]
    exact Option.some_ne_none _
  constructor
  · intro r hr
    have hnormal : lookupKey r.key = r.key := by
      rw [lookupKey, Utf8.trim_eq_self (h r hr).key_chars, hupper r hr]
    exact lookup_of_no_skipped hincreasing hfull (hiter ▸ hr) hnormal
  · intro callsign hlisted
    rw [Option.eq_none_iff_forall_ne_some]
    intro r hr
    have hmem := mem_iter_of_lookup hr
    rw [hiter] at hmem
    exact hlisted r hmem (counts.file.key_of_lookup hr)

/-- Two records, one without a date or a status. -/
def sampleRecords : List LookupCountRecord :=
  [⟨ascii "K0AB", 7, some 20260509, some 0x4e⟩, ⟨ascii "W1AW:1999", 9999999, none, none⟩]

theorem roundTrip_of_layout_sampleRecords :
    LookupCounts.iter ⟨ofSlots (sampleRecords.map slotText)⟩ = sampleRecords ∧
      LookupCounts.lookup ⟨ofSlots (sampleRecords.map slotText)⟩ (ascii "K0AB") =
        some ⟨ascii "K0AB", 7, some 20260509, some 0x4e⟩ := by
  have h : ∀ r ∈ sampleRecords, Storable r := by
    rw [sampleRecords, List.forall_mem_cons, List.forall_mem_singleton]
    constructor
    · exact ⟨by decide +kernel, by decide +kernel, by decide +kernel, by decide +kernel,
        by decide +kernel, by decide +kernel⟩
    · exact ⟨by decide +kernel, by decide +kernel, by decide +kernel, by decide +kernel,
        by decide +kernel, by decide +kernel⟩
  obtain ⟨hiter, hlookup⟩ := roundTrip_of_layout Layout.bare h
  have hupper : ∀ r ∈ sampleRecords, toAsciiUppercase r.key = r.key := by decide +kernel
  have hsorted : sampleRecords.Pairwise fun a b => a.key < b.key := by decide +kernel
  have hfound := (hlookup hupper hsorted).1 ⟨ascii "K0AB", 7, some 20260509, some 0x4e⟩
    List.mem_cons_self
  exact ⟨hiter, hfound⟩

end LookupCounts

end Callbook
