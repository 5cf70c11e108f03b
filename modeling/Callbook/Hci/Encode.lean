import Callbook.Hci.Index

/-!
# Writing an HCI pair

`hci.dat` is written as a lead byte and the records one behind the other, each encoded for the
position where it starts; `hciindex.dat` as the positions. Opening what was written and looking a
key up yields the postings that were written under it.
-/

namespace Callbook

open Text

/-- A record to write. -/
structure HciRecord where
  key : Bytes
  postings : List HciPosting
  separator : UInt8

namespace Hci

/-! ### Encoding -/

/-- `u32::to_be_bytes`. -/
def u32ToBeBytes (n : ℕ) : Bytes :=
  [n / 2 ^ 24, n / 2 ^ 16, n / 2 ^ 8, n].map UInt8.ofNat

/-- Five raw bytes. -/
def encodePosting (posting : HciPosting) : Bytes :=
  u32ToBeBytes posting.datOffset ++ [posting.position]

/-- The key and its terminator in the code of the position, raw postings, a separator. -/
def encodeRecord (datOffset : ℕ) (record : HciRecord) : Bytes :=
  decoded datOffset (record.key ++ [0xb5]) ++ record.postings.flatMap encodePosting ++
    [record.separator]

def recordSize (record : HciRecord) : ℕ := record.key.length + 1 + 5 * record.postings.length + 1

/-- The records with the positions they have from `pos` on. -/
def placeRecords : ℕ → List HciRecord → List (ℕ × HciRecord)
  | _, [] => []
  | pos, record :: records => (pos, record) :: placeRecords (pos + recordSize record) records

def datText (lead : UInt8) (records : List HciRecord) : Bytes :=
  lead :: (placeRecords 1 records).flatMap fun r => encodeRecord r.1 r.2

def indexText (records : List HciRecord) : Bytes :=
  (placeRecords 1 records).flatMap fun r => u32ToBeBytes r.1

/-- Records that fit the format. -/
structure Encodable (record : HciRecord) : Prop where
  key_ne : record.key ≠ []
  key_length : record.key.length ≤ 99
  key_chars : ∀ b ∈ record.key, isPrintable b
  datOffset_lt : ∀ posting ∈ record.postings, posting.datOffset < 2 ^ 32

/-! ### Decoding what was encoded -/

lemma u32FromBeBytes_u32ToBeBytes {n : ℕ} (hn : n < 2 ^ 32) :
    u32FromBeBytes (u32ToBeBytes n) = n := by
  simp only [u32FromBeBytes, u32ToBeBytes, List.map_cons, List.map_nil, List.foldl_cons,
    List.foldl_nil, UInt8.toNat_ofNat']
  omega

@[simp] lemma length_u32ToBeBytes (n : ℕ) : (u32ToBeBytes n).length = 4 := rfl

@[simp] lemma length_encodePosting (posting : HciPosting) :
    (encodePosting posting).length = 5 := rfl

lemma length_flatMap_encodePosting (postings : List HciPosting) :
    (postings.flatMap encodePosting).length = 5 * postings.length := by
  induction postings with
  | nil => rfl
  | cons posting postings ih =>
    rw [List.flatMap_cons, List.length_append, ih, length_encodePosting, List.length_cons]
    omega

@[simp] lemma length_encodeRecord (datOffset : ℕ) (record : HciRecord) :
    (encodeRecord datOffset record).length = recordSize record := by
  simp only [encodeRecord, decoded, recordSize, List.length_append, Keystream.length_applyFrom,
    length_flatMap_encodePosting, List.length_singleton]

/-- The code of a position undoes itself. -/
lemma decoded_decoded (datOffset : ℕ) (bytes : Bytes) :
    decoded datOffset (decoded datOffset bytes) = bytes := by
  apply Keystream.applyFrom_applyFrom
  intro i b
  exact Keystream.xor_xor_cancel b 7 _

lemma Encodable.terminator_notMem {record : HciRecord} (h : Encodable record) :
    0xb5 ∉ record.key := by
  intro hmem
  have hlt := lt_128_of_isPrintable (h.key_chars _ hmem)
  exact absurd hlt (by decide)

/-- A written record has the header of its own key only. -/
lemma hasHeader_encodeRecord_iff {record : HciRecord} (h : Encodable record) {key : Bytes}
    (hkey : 0xb5 ∉ key) (datOffset : ℕ) :
    HasHeader datOffset (encodeRecord datOffset record) key ↔ key = record.key := by
  have hlen : (record.key ++ [0xb5]).length ≤ 100 := by
    rw [List.length_append, List.length_singleton]
    exact Nat.succ_le_succ h.key_length
  obtain ⟨rest, hrest⟩ : ∃ rest, decoded datOffset (encodeRecord datOffset record) =
      record.key ++ [0xb5] ++ rest := by
    rw [encodeRecord, List.append_assoc, decoded, Keystream.applyFrom_append, ← decoded,
      decoded_decoded]
    exact ⟨_, rfl⟩
  rw [HasHeader, hrest, List.take_append, List.take_of_length_le hlen, List.append_assoc,
    List.singleton_append]
  exact Lists.append_sentinel_prefix_iff hkey h.terminator_notMem

/-- The postings of a written record. -/
lemma visitPostings_encodeRecord {record : HciRecord} (h : Encodable record) (datOffset : ℕ) :
    visitPostings ((encodeRecord datOffset record).drop (record.key.length + 1)) =
      record.postings := by
  have hheader : (decoded datOffset (record.key ++ [0xb5])).length = record.key.length + 1 := by
    rw [decoded, Keystream.length_applyFrom, List.length_append, List.length_singleton]
  have hbytes : (encodeRecord datOffset record).drop (record.key.length + 1) =
      record.postings.flatMap encodePosting ++ [record.separator] := by
    rw [encodeRecord, List.append_assoc, ← hheader, List.drop_left]
  have hfive : ∀ posting ∈ record.postings, (encodePosting posting).length = 5 :=
    fun posting _ => length_encodePosting posting
  rw [hbytes, visitPostings, List.length_append, List.length_singleton, Nat.add_sub_cancel,
    List.take_left, chunksExact_flatMap (by decide) hfive, List.map_map]
  conv_rhs => rw [← List.map_id record.postings]
  apply List.map_congr_left
  intro posting hposting
  have hoffset := u32FromBeBytes_u32ToBeBytes (h.datOffset_lt posting hposting)
  have htake : (encodePosting posting).take 4 = u32ToBeBytes posting.datOffset :=
    List.take_left' (length_u32ToBeBytes _)
  have hlast : (encodePosting posting).getD 4 0 = posting.position := rfl
  simp only [Function.comp_apply, htake, hlast, hoffset, id_eq]

/-! ### Positions -/

lemma getElem?_placeRecords (records : List HciRecord) (pos i : ℕ) :
    (placeRecords pos records)[i]? = records[i]?.map fun record =>
      (pos + ((records.map recordSize).take i).sum, record) := by
  induction records generalizing pos i with
  | nil => simp [placeRecords]
  | cons record records ih =>
    cases i with
    | zero => simp [placeRecords]
    | succ i =>
      rw [placeRecords, List.getElem?_cons_succ, ih, List.getElem?_cons_succ, List.map_cons,
        List.take_succ_cons, List.sum_cons]
      simp only [Nat.add_assoc]

@[simp] lemma length_placeRecords (pos : ℕ) (records : List HciRecord) :
    (placeRecords pos records).length = records.length := by
  induction records generalizing pos with
  | nil => rfl
  | cons record records ih => rw [placeRecords, List.length_cons, ih, List.length_cons]

lemma map_size_placeRecords (pos : ℕ) (records : List HciRecord) :
    (placeRecords pos records).map (fun r => (encodeRecord r.1 r.2).length) =
      records.map recordSize := by
  induction records generalizing pos with
  | nil => rfl
  | cons record records ih =>
    rw [placeRecords, List.map_cons, ih, length_encodeRecord, List.map_cons]

lemma length_datText (lead : UInt8) (records : List HciRecord) :
    (datText lead records).length = 1 + (records.map recordSize).sum := by
  rw [datText, List.length_cons, List.length_flatMap, map_size_placeRecords, Nat.add_comm]

/-- A record stands in the file at its position. -/
lemma slice_datText (lead : UInt8) {records : List HciRecord} {i : ℕ} {record : HciRecord}
    (h : records[i]? = some record) :
    Framing.slice (datText lead records) (1 + ((records.map recordSize).take i).sum)
        (1 + ((records.map recordSize).take (i + 1)).sum) =
      encodeRecord (1 + ((records.map recordSize).take i).sum) record := by
  set pieces := [lead] :: (placeRecords 1 records).map fun r => encodeRecord r.1 r.2 with hpieces
  have hflat : pieces.flatten = datText lead records := by
    rw [hpieces, List.flatten_cons, ← List.flatMap_def, datText, List.singleton_append]
  have hsizes : pieces.map List.length = 1 :: records.map recordSize := by
    rw [hpieces, List.map_cons, List.map_map, ← map_size_placeRecords 1 records]
    rfl
  have hlt : i < records.length := (List.getElem?_eq_some_iff.mp h).1
  have hlt' : i + 1 < pieces.length := by
    rw [hpieces, List.length_cons, List.length_map, length_placeRecords]
    omega
  have hpiece := List.drop_take_succ_flatten_eq_getElem pieces (i + 1) hlt'
  rw [hflat, hsizes, List.take_succ_cons, List.take_succ_cons, List.sum_cons, List.sum_cons,
    List.drop_take] at hpiece
  rw [Framing.slice, hpiece]
  have hget : pieces[i + 1]? =
      some (encodeRecord (1 + ((records.map recordSize).take i).sum) record) := by
    rw [hpieces, List.getElem?_cons_succ, List.getElem?_map, getElem?_placeRecords, h]
    rfl
  exact (List.getElem?_eq_some_iff.mp hget).2

lemma sum_take_le (sizes : List ℕ) (i : ℕ) : (sizes.take i).sum ≤ sizes.sum := by
  conv_rhs => rw [← List.take_append_drop i sizes, List.sum_append]
  exact Nat.le_add_right _ _

lemma sum_take_succ_recordSize {records : List HciRecord} {i : ℕ} {record : HciRecord}
    (h : records[i]? = some record) : ((records.map recordSize).take (i + 1)).sum =
      ((records.map recordSize).take i).sum + recordSize record := by
  rw [List.take_add_one, List.getElem?_map, h, List.sum_append]
  rfl

end Hci

namespace HciFile

open Hci

variable {records : List HciRecord} {lead : UInt8} {file : HciFile}

/-! ### Reading a written pair -/

lemma offset_indexText (hindex : file.indexMmap = indexText records)
    (hlen : (datText lead records).length < 2 ^ 32) (i : ℕ) :
    file.offset i = (placeRecords 1 records)[i]?.map Prod.fst := by
  rw [offset_eq, hindex, indexText, chunksExact_flatMap (by decide) fun r _ =>
    length_u32ToBeBytes r.1, List.map_map, List.getElem?_map]
  cases hr : (placeRecords 1 records)[i]? with
  | none => rfl
  | some r =>
    have hpos := hr
    rw [getElem?_placeRecords, Option.map_eq_some_iff] at hpos
    obtain ⟨record, -, rfl⟩ := hpos
    have hle := sum_take_le (records.map recordSize) i
    rw [length_datText] at hlen
    simp only [Option.map_some, Function.comp_apply]
    rw [u32FromBeBytes_u32ToBeBytes (by omega)]

/-- The records of a written pair are those that were written. -/
lemma rawRecord_datText (hindex : file.indexMmap = indexText records)
    (hdat : file.datMmap = datText lead records)
    (hlen : (datText lead records).length < 2 ^ 32) (i : ℕ) :
    file.rawRecord i = records[i]?.map fun record =>
      ⟨i, 1 + ((records.map recordSize).take i).sum, recordSize record,
        encodeRecord (1 + ((records.map recordSize).take i).sum) record⟩ := by
  rw [rawRecord, offset_indexText hindex hlen, getElem?_placeRecords]
  cases hrecord : records[i]? with
  | none => rfl
  | some record =>
    have hend : (file.offset (i + 1)).getD file.datMmap.length =
        1 + ((records.map recordSize).take (i + 1)).sum := by
      rw [offset_indexText hindex hlen, getElem?_placeRecords]
      cases hnext : records[i + 1]? with
      | some next => rfl
      | none =>
        have hle : records.length ≤ i + 1 := List.getElem?_eq_none_iff.mp hnext
        rw [List.take_of_length_le (by rwa [List.length_map]), hdat, length_datText]
        rfl
    have hstart := sum_take_le (records.map recordSize) i
    have hstop := sum_take_le (records.map recordSize) (i + 1)
    have hsucc := sum_take_succ_recordSize hrecord
    simp only [Option.map_some, Option.bind_eq_bind, Option.bind_some, hend]
    rw [hdat, slice_datText lead hrecord, length_datText, if_neg (by omega), length_encodeRecord]

/-- A written record contributes its postings to its own key. -/
lemma postingsAt_datText (hindex : file.indexMmap = indexText records)
    (hdat : file.datMmap = datText lead records) (hlen : (datText lead records).length < 2 ^ 32)
    (hrecords : ∀ record ∈ records, Encodable record) {key : Bytes} (hkey : 0xb5 ∉ key) (i : ℕ) :
    file.postingsAt key i = records[i]?.toList.flatMap fun record =>
      if record.key = key then record.postings else [] := by
  rw [postingsAt, rawRecord_datText hindex hdat hlen]
  cases hrecord : records[i]? with
  | none => rfl
  | some record =>
    have h := hrecords record (List.mem_of_getElem? hrecord)
    simp only [Option.map_some, Option.toList_some, List.flatMap_cons, List.flatMap_nil,
      List.append_nil, hasHeader_encodeRecord_iff h hkey]
    split_ifs with heq hne
    · rw [heq, visitPostings_encodeRecord h]
    · exact absurd heq.symm hne
    · rename_i heq'
      exact absurd heq'.symm heq
    · rfl

lemma len_eq_of_indexText (hindex : file.indexMmap = indexText records) :
    file.len = records.length := by
  have hoffsets : (indexText records).length = 4 * records.length := by
    rw [indexText, List.length_flatMap, ← length_placeRecords 1 records]
    simp [Nat.mul_comm]
  rw [len, hindex, hoffsets]
  omega

lemma length_le_length_datText : records.length ≤ (datText lead records).length := by
  have hsizes : ∀ n ∈ records.map recordSize, 1 ≤ n := by
    intro n hn
    obtain ⟨record, -, rfl⟩ := List.mem_map.mp hn
    exact Nat.le_add_left 1 _
  have hle := List.length_le_sum_of_one_le _ hsizes
  rw [List.length_map] at hle
  rw [length_datText]
  omega

/-- Looking a key up in a written pair. -/
lemma postingsForKey_datText (hindex : file.indexMmap = indexText records)
    (hdat : file.datMmap = datText lead records) (hlen : (datText lead records).length < 2 ^ 32)
    (hrecords : ∀ record ∈ records, Encodable record) {key : Bytes} (hkey : 0xb5 ∉ key) :
    file.postingsForKey key =
      (records.filter fun record => record.key = key).flatMap HciRecord.postings := by
  have hat := postingsAt_datText hindex hdat hlen hrecords hkey
  by_cases hlisted : ∃ record ∈ records, record.key = key
  · obtain ⟨record, hrecord, rfl⟩ := hlisted
    have h := hrecords record hrecord
    have hcount : file.len < 2 ^ 32 := by
      rw [len_eq_of_indexText hindex]
      exact length_le_length_datText.trans_lt hlen
    rw [postingsForKey_eq_scan file hcount h.key_ne h.key_chars, len_eq_of_indexText hindex,
      List.flatMap_congr fun i _ => hat i, Lists.flatMap_range_getElem?,
      Lists.flatMap_filter]
    simp only [decide_eq_true_eq]
  · have hnone : ∀ i, file.postingsAt key i = [] := by
      intro i
      rw [hat, List.flatMap_eq_nil_iff]
      intro record hrecord
      rw [if_neg]
      intro heq
      exact hlisted ⟨record, List.mem_of_getElem? (Option.mem_toList.mp hrecord), heq⟩
    have hfilter : (records.filter fun record => record.key = key) = [] := by
      rw [List.filter_eq_nil_iff]
      intro record hrecord heq
      exact hlisted ⟨record, hrecord, by simpa using heq⟩
    rw [hfilter, List.flatMap_nil, postingsForKey, List.flatMap_eq_nil_iff]
    intro entry _
    rw [entryPostings_eq, hnone]

lemma exists_open_indexText (hne : records ≠ []) (datMmap : Bytes) :
    ∃ file, HciFile.open (indexText records) datMmap = .ok file ∧
      file.indexMmap = indexText records ∧ file.datMmap = datMmap := by
  have hwhole : (indexText records).length % 4 = 0 := by
    rw [indexText, List.length_flatMap]
    simp
  have hindex : indexText records ≠ [] := by
    obtain ⟨record, rest, rfl⟩ := List.exists_cons_of_ne_nil hne
    exact List.cons_ne_nil _ _
  rw [HciFile.open, dif_neg (not_not.mpr hwhole), dif_neg hindex]
  exact ⟨_, rfl, rfl, rfl⟩

/-- Opening a written pair and looking a key up yields the postings written under it, in order. -/
theorem postingsForKey_open (hne : records ≠ []) (hrecords : ∀ record ∈ records, Encodable record)
    (lead : UInt8) (hlen : (datText lead records).length < 2 ^ 32) :
    ∃ file, HciFile.open (indexText records) (datText lead records) = .ok file ∧
      ∀ key, 0xb5 ∉ key → file.postingsForKey key =
        (records.filter fun record => record.key = key).flatMap HciRecord.postings := by
  obtain ⟨file, hopen, hindex, hdat⟩ := exists_open_indexText hne (datText lead records)
  refine ⟨file, hopen, ?_⟩
  intro key hkey
  exact postingsForKey_datText hindex hdat hlen hrecords hkey

/-- Two records under one key, the second with two postings, and one under another key. -/
def sampleRecords : List HciRecord :=
  [⟨ascii "W1AW", [⟨7, 1⟩], 0⟩, ⟨ascii "K0AB:1999", [], 10⟩, ⟨ascii "W1AW", [⟨256, 2⟩, ⟨7, 3⟩], 0⟩]

theorem postingsForKey_open_sampleRecords :
    ∃ file, HciFile.open (indexText sampleRecords) (datText 0 sampleRecords) = .ok file ∧
      ∀ key, 0xb5 ∉ key → file.postingsForKey key =
        (sampleRecords.filter fun record => record.key = key).flatMap HciRecord.postings := by
  have hrecords : ∀ record ∈ sampleRecords, Encodable record := by
    rw [sampleRecords, List.forall_mem_cons, List.forall_mem_cons, List.forall_mem_singleton]
    refine ⟨?_, ?_, ?_⟩
    all_goals exact ⟨by decide, by decide, by decide +kernel, by decide⟩
  exact postingsForKey_open (by simp [sampleRecords]) hrecords 0 (by decide +kernel)

end HciFile

end Callbook
