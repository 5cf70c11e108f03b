import Callbook.Record.Fields

/-!
# Encoded records

A record is written as `0xb5`, its key, and each tag followed by its value. What is parsed from the
written bytes has the key and the values that were written.
-/

namespace Callbook

open Text

/-- A record of the DAT file before it is written. -/
structure DatRecord where
  call : Bytes
  year : Option Bytes
  tags : List (UInt8 × Bytes)
  call_ne : call ≠ []
  call_length : call.length ≤ 12
  call_chars : ∀ b ∈ call, isCallsignChar b
  year_digits : ∀ y ∈ year, y.length = 4 ∧ ∀ b ∈ y, isAsciiDigit b
  /-- A tag has one value, -/
  tags_nodup : (tags.map Prod.fst).Nodup
  /-- and the address has at most one of its three tags. -/
  tags_address : (tags.map Prod.fst).countP TagField.isAddressTag ≤ 1
  tags_range : ∀ p ∈ tags, V2Record.isTag p.1
  /-- Values are printable, and no space surrounds them. -/
  values : ∀ p ∈ tags, p.2 ≠ [] ∧ (∀ b ∈ p.2, isPrintable b) ∧ p.2.head? ≠ some 0x20 ∧
    p.2.getLast? ≠ some 0x20

namespace DatRecord

variable (R : DatRecord)

/-- `CALL` or `CALL:YYYY`. -/
def key : Bytes := R.call ++ R.year.elim [] (0x3a :: ·)

/-- The tags with their values. -/
def tagged : Bytes := R.tags.flatMap fun p => p.1 :: p.2

/-- The record as it is written. -/
def bytes : Bytes := 0xb5 :: (R.key ++ R.tagged)

def vintage : Option ℕ := R.year.map decimalValue

/-- The value that was written for a field. -/
def field (f : TagField) : Option Str :=
  (R.tags.find? fun p => TagField.ofTag p.1 = f).map Prod.snd

/-- The snapshot has the key and the values of the record. -/
structure Shows (s : CallSnapshot) : Prop where
  callsign : s.callsign = R.call
  vintage : s.vintage = R.vintage
  sources : s.sources = [.hamCallDatIdx]
  fields : ∀ f : TagField, f.get s = R.field f

variable {R}

/-! ### Keys and tags -/

lemma isKey : V2Record.IsKey R.call R.year :=
  ⟨R.call_ne, R.call_length, R.call_chars, R.year_digits⟩

lemma isTagged : V2Record.IsTagged R.tags := ⟨R.tags_range, R.values⟩

lemma isPrintable_key : ∀ b ∈ R.key, isPrintable b ∧ b ≠ 0x20 := isKey.isPrintable

lemma colon_notMem_call : 0x3a ∉ R.call := isKey.colon_notMem_call

lemma key_ne_nil : R.key ≠ [] := isKey.ne_nil

/-- A field of distinct fields reads back what it was given. -/
lemma get_applyTags (f : TagField) {l : List (UInt8 × Bytes)}
    (hfields : (l.map fun p => TagField.ofTag p.1).Nodup) (s : CallSnapshot) :
    f.get (V2Record.applyTags s l) =
      ((l.find? fun p => TagField.ofTag p.1 = f).map Prod.snd).or (f.get s) := by
  induction l generalizing s with
  | nil => rfl
  | cons p l ih =>
    rw [List.map_cons, List.nodup_cons] at hfields
    rw [V2Record.applyTags, List.foldl_cons, ← V2Record.applyTags, ih hfields.2,
      TagField.get_applyTag, List.find?_cons]
    by_cases hf : f = TagField.ofTag p.1
    · have hnone : (l.find? fun q => TagField.ofTag q.1 = f) = none := by
        rw [List.find?_eq_none]
        intro q hq heq
        rw [decide_eq_true_eq] at heq
        exact hfields.1 (List.mem_map.mpr ⟨q, hq, heq.trans hf⟩)
      rw [hnone, if_pos hf]
      simp [hf]
    · rw [if_neg hf]
      simp [Ne.symm hf]

lemma nodup_fields : (R.tags.map fun p => TagField.ofTag p.1).Nodup := by
  have hnodup := R.tags_nodup
  have haddress := R.tags_address
  rw [← Function.comp_def, ← List.map_map]
  generalize R.tags.map Prod.fst = tags at hnodup haddress
  induction tags with
  | nil => exact List.nodup_nil
  | cons tag tags ih =>
    rw [List.nodup_cons] at hnodup
    rw [List.countP_cons] at haddress
    rw [List.map_cons, List.nodup_cons]
    refine ⟨?_, ih hnodup.2 (by omega)⟩
    rintro hmem
    obtain ⟨tag', htag', heq⟩ := List.mem_map.mp hmem
    rcases TagField.eq_or_isAddressTag_of_ofTag_eq heq with rfl | ⟨h', h⟩
    · exact hnodup.1 htag'
    · have hpos : 0 < tags.countP TagField.isAddressTag := List.countP_pos_iff.mpr ⟨tag', htag', h'⟩
      rw [if_pos h] at haddress
      omega

/-! ### Parsing what was written -/

/-- The snapshot of a record, without sidecars. -/
def snapshot (R : DatRecord) : CallSnapshot :=
  V2Record.applyInterests none (V2Record.place
    (R.tags.foldl (fun s p => V2Record.applyTag s p.1 p.2) (.new R.call R.vintage .hamCallDatIdx))
    none)

lemma keyOf_bytes (defaultKey : Option Bytes) :
    V2Record.keyOf defaultKey R.bytes = some (R.call, R.vintage) :=
  V2Record.keyOf_written isKey isTagged defaultKey

/-- Parsing undoes writing. -/
theorem parseSegment_bytes (defaultKey : Option Bytes) :
    V2Record.parseSegment defaultKey .hamCallDatIdx none none R.bytes = .ok (some R.snapshot) := by
  rw [bytes, key, tagged, ← V2Record.writtenKey, ← V2Record.writtenTags,
    V2Record.parseSegment_written isKey isTagged, V2Record.applyCountry_none]
  rfl

/-- The parsed snapshot has what was written. -/
theorem shows_snapshot : R.Shows R.snapshot := by
  obtain ⟨hkey, hsources⟩ := V2Record.keyOf_of_parseSegment (R.parseSegment_bytes none)
  rw [keyOf_bytes, Option.some.injEq, Prod.mk.injEq] at hkey
  refine ⟨hkey.1.symm, hkey.2.symm, hsources, fun f => ?_⟩
  have hnew : f.get (.new R.call R.vintage .hamCallDatIdx) = none := by
    cases f with
    | raw tag => exact Std.ExtTreeMap.getElem?_empty
    | _ => rfl
  rw [snapshot, V2Record.get_applyInterests, V2Record.get_place, get_applyTags f nodup_fields, hnew,
    Option.or_none, field]

/-- A written record holds no other record. -/
lemma segments_bytes : Framing.segments isSentinel R.bytes = [R.bytes] := by
  apply Framing.segments_singleton
  intro b hb
  rw [List.mem_append] at hb
  rcases hb with hb | hb
  · exact (V2Record.not_endsValue_of_isPrintable (isPrintable_key b hb).1).2.2
  · exact isTagged.isSentinel_eq_false b hb

end DatRecord

end Callbook
