import Callbook.UsCsv.Basic
import Callbook.Library.Maps

/-!
# Iterating the current-US catalog

The catalog keeps a record under its uppercase callsign, so its order is that of the uppercase
callsigns, and the record it keeps is the one of the last row with that callsign.
-/

namespace Callbook

open Text

namespace UsCsv

/-- The record of a row. -/
def rowRecord (row : List Bytes) : UsCsvRecord where
  callsign := field row 0
  «class» := field row 1
  name := field row 2
  address := field row 3
  city := field row 4
  state := field row 5
  zip := field row 6
  county := field row 7
  licenseIssueDate := field row 8
  fccTransactionType := field row 9

/-- The row stands under the key `key`. -/
def IsRowOf (key : Str) (row : List Bytes) : Prop :=
  field row 0 ≠ [] ∧ toAsciiUppercase (field row 0) = key

lemma getElem?_insertRow_of_isRowOf {records : UsCsvRecords} {key : Str} {row : List Bytes}
    (h : IsRowOf key row) : (insertRow records row)[key]? = some (rowRecord row) := by
  obtain ⟨hne, rfl⟩ := h
  rw [insertRow, if_neg hne, Std.ExtTreeMap.getElem?_insert_self]
  rfl

lemma getElem?_insertRow_of_not_isRowOf {records : UsCsvRecords} {key : Str} {row : List Bytes}
    (h : ¬ IsRowOf key row) : (insertRow records row)[key]? = records[key]? := by
  rw [insertRow]
  split_ifs with hempty
  · rfl
  · rw [Std.ExtTreeMap.getElem?_insert, if_neg]
    intro heq
    exact h ⟨hempty, Std.LawfulEqCmp.eq_of_compare heq⟩

/-- A catalog has under a key the record of the last row of that key. -/
lemma getElem?_readCsv {rows : List (List Bytes)} {key : Str} {r : UsCsvRecord} :
    (readCsv rows)[key]? = some r ↔ ∃ front row back, rows = front ++ row :: back ∧
      IsRowOf key row ∧ r = rowRecord row ∧ ∀ later ∈ back, ¬ IsRowOf key later := by
  induction rows using List.reverseRecOn with
  | nil => simp [readCsv]
  | append_singleton rows row ih =>
    have hstep : readCsv (rows ++ [row]) = insertRow (readCsv rows) row := by
      simp [readCsv]
    rw [hstep]
    simp only [Lists.concat_eq_append_cons_iff]
    by_cases hrow : IsRowOf key row
    · rw [getElem?_insertRow_of_isRowOf hrow, Option.some.injEq]
      constructor
      · rintro rfl
        exact ⟨rows, row, [], .inl ⟨rfl, rfl, rfl⟩, hrow, rfl, by simp⟩
      · rintro ⟨front, row', back, ⟨rfl, rfl, rfl⟩ | ⟨rest, rfl, rfl⟩, -, rfl, hlater⟩
        · rfl
        · exact absurd hrow (hlater row (by simp))
    · rw [getElem?_insertRow_of_not_isRowOf hrow, ih]
      constructor
      · rintro ⟨front, row', back, rfl, hrow', rfl, hlater⟩
        refine ⟨front, row', back ++ [row], .inr ⟨back, rfl, rfl⟩, hrow', rfl, ?_⟩
        intro later hmem
        rcases List.mem_append.mp hmem with hmem | hmem
        · exact hlater later hmem
        · rwa [List.mem_singleton.mp hmem]
      · rintro ⟨front, row', back, ⟨rfl, rfl, rfl⟩ | ⟨rest, rfl, rfl⟩, hrow', rfl, hlater⟩
        · exact absurd hrow' hrow
        · exact ⟨front, row', rest, rfl, hrow', rfl,
            fun later hmem => hlater later (by simp [hmem])⟩

end UsCsv

namespace UsCsvFile

open UsCsv

/-- `UsCsvFile::len`. -/
def len (file : UsCsvFile) : ℕ := file.records.size

/-- `UsCsvFile::records`: the records in the order of their keys. -/
def recordList (file : UsCsvFile) : List UsCsvRecord :=
  file.callsigns.filterMap fun callsign => file.records[callsign]?

lemma recordList_eq (file : UsCsvFile) : file.recordList = file.records.toList.map Prod.snd := by
  rw [recordList, file.callsigns_eq, Maps.filterMap_keys]

lemma map_callsign_recordList (file : UsCsvFile) :
    file.recordList.map (fun r => toAsciiUppercase r.callsign) = file.callsigns := by
  rw [recordList_eq, file.callsigns_eq, ← Std.ExtTreeMap.map_fst_toList_eq_keys, List.map_map]
  refine List.map_congr_left fun p hp => ?_
  exact (file.keyed p.1 p.2 (Std.ExtTreeMap.mem_toList_iff_getElem?_eq_some.mp hp)).symm

lemma mem_recordList {file : UsCsvFile} {r : UsCsvRecord} :
    r ∈ file.recordList ↔ file.records[toAsciiUppercase r.callsign]? = some r := by
  rw [recordList_eq, List.mem_map]
  constructor
  · rintro ⟨p, hp, rfl⟩
    have hget := Std.ExtTreeMap.mem_toList_iff_getElem?_eq_some.mp hp
    rwa [← file.keyed p.1 p.2 hget]
  · intro hget
    exact ⟨(_, r), Std.ExtTreeMap.mem_toList_iff_getElem?_eq_some.mpr hget, rfl⟩

/-- A record of the catalog is found under its own callsign exactly when looking up leaves the
callsign as it is: it has no colon, and no Unicode white space at its ends. -/
lemma get_callsign_iff {file : UsCsvFile} {r : UsCsvRecord} (h : r ∈ file.recordList)
    (hne : r.callsign ≠ []) : file.get r.callsign = some r ↔
      0x3a ∉ r.callsign ∧ Utf8.trim r.callsign = r.callsign := by
  rw [mem_recordList] at h
  have hcolon : ∀ {s : Str}, 0x3a ∈ toAsciiUppercase s ↔ 0x3a ∈ s := by
    intro s
    have hbyte : ∀ b, toAsciiUppercaseByte b = 0x3a ↔ b = 0x3a := by decide +kernel
    simp [toAsciiUppercase, hbyte]
  simp only [get, normalizedLookupKey, Option.bind_eq_bind]
  constructor
  · intro hget
    split_ifs at hget with htarget
    · have hkey : toAsciiUppercase (Utf8.trim r.callsign) = toAsciiUppercase r.callsign :=
        file.keyed _ _ hget
      rw [hkey, hcolon] at htarget
      refine ⟨htarget.2, (Utf8.trim_infix r.callsign).eq_of_length ?_⟩
      simpa [toAsciiUppercase] using congrArg List.length hkey
    · cases hget
  · rintro ⟨hsep, htrim⟩
    have htarget : toAsciiUppercase r.callsign ≠ [] ∧ 0x3a ∉ toAsciiUppercase r.callsign := by
      rw [hcolon]
      exact ⟨by simpa [toAsciiUppercase] using hne, hsep⟩
    rw [htrim, if_pos htarget, Option.bind_some, h]

/-- The records come in the strict order of their uppercase callsigns, the keys they stand under,
and each is the record of the last row of its key. -/
theorem recordList_open (rows : List (List Bytes)) :
    («open» rows).recordList.length = («open» rows).len ∧
      (((«open» rows).recordList.map fun r => toAsciiUppercase r.callsign).Pairwise (· < ·)) ∧
      ((«open» rows).recordList.map fun r => toAsciiUppercase r.callsign) =
        («open» rows).callsigns ∧
      ∀ r ∈ («open» rows).recordList,
        («open» rows).records[toAsciiUppercase r.callsign]? = some r ∧
        (∃ front row back, rows = front ++ row :: back ∧ r.callsign ≠ [] ∧ r = rowRecord row ∧
          ∀ later ∈ back, toAsciiUppercase (field later 0) ≠ toAsciiUppercase r.callsign) ∧
        ((«open» rows).get r.callsign = some r ↔
          0x3a ∉ r.callsign ∧ Utf8.trim r.callsign = r.callsign) := by
  refine ⟨?_, ?_, map_callsign_recordList _, fun r hr => ?_⟩
  · rw [recordList_eq, List.length_map, Std.ExtTreeMap.length_toList, len]
  · rw [map_callsign_recordList, («open» rows).callsigns_eq]
    exact Std.ExtTreeMap.ordered_keys.imp ByteOrder.compare_eq_lt_iff.mp
  · have hget := mem_recordList.mp hr
    obtain ⟨front, row, back, hrows, hrow, hrec, hlater⟩ := getElem?_readCsv.mp hget
    have hne : r.callsign ≠ [] := by
      rw [hrec]
      exact hrow.1
    refine ⟨hget, ⟨front, row, back, hrows, hne, hrec, fun later hmem heq => ?_⟩,
      get_callsign_iff hr hne⟩
    -- a later row with this uppercase callsign has a callsign, so it would stand under the key
    refine hlater later hmem ⟨?_, heq⟩
    rintro hempty
    rw [hempty] at heq
    exact hne (List.map_eq_nil_iff.mp heq.symm)

theorem recordList_lowerCase :
    ¬ ((«open» [[ascii "k1ab"], [ascii "K2AB"], [ascii "K3:A"]]).recordList.map
        UsCsvRecord.callsign).Pairwise (· < ·) ∧
      (∃ r ∈ («open» [[ascii "k1ab"], [ascii "K2AB"], [ascii "K3:A"]]).recordList,
        («open» [[ascii "k1ab"], [ascii "K2AB"], [ascii "K3:A"]]).records[r.callsign]? ≠ some r) ∧
      ∃ r ∈ («open» [[ascii "k1ab"], [ascii "K2AB"], [ascii "K3:A"]]).recordList,
        («open» [[ascii "k1ab"], [ascii "K2AB"], [ascii "K3:A"]]).get r.callsign ≠ some r := by
  decide +kernel

end UsCsvFile

end Callbook
