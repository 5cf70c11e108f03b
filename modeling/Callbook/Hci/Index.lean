import Callbook.Hci.Basic

/-!
# The hash index and a linear scan

The index built at opening time reads headers with one decoder, the lookup checks them with another.
Both accept a record for a key exactly when its decoded bytes begin with the key and `0xb5`, so the
postings found through the hash are those of a scan over all records.
-/

namespace Callbook

open Text

namespace Hci

/-- The decoded bytes of a stretch of `hci.dat`. -/
def decoded (datOffset : ℕ) (rawBytes : Bytes) : Bytes :=
  Keystream.applyFrom (decodeHciByte datOffset) 0 rawBytes

/-- The decoded bytes begin with the key and its terminator, within the first 100 of them. -/
def HasHeader (datOffset : ℕ) (rawBytes key : Bytes) : Prop :=
  key ++ [0xb5] <+: (decoded datOffset rawBytes).take 100

instance (datOffset : ℕ) (rawBytes key : Bytes) : Decidable (HasHeader datOffset rawBytes key) :=
  inferInstanceAs (Decidable (_ <+: _))

/-! ### The two header decoders -/

lemma headerMatchesLoop_eq_some_iff {datOffset : ℕ} {key : Bytes} {zeroBased : ℕ} {rest : Bytes}
    {n : ℕ} (hle : zeroBased ≤ key.length) :
    headerMatchesLoop datOffset key zeroBased rest = some n ↔
      key.drop zeroBased ++ [0xb5] <+:
        Keystream.applyFrom (decodeHciByte datOffset) zeroBased rest ∧ n = key.length + 1 := by
  induction rest generalizing zeroBased with
  | nil => simp [headerMatchesLoop]
  | cons encoded rest ih =>
    rw [headerMatchesLoop, Keystream.applyFrom_cons]
    rcases hle.eq_or_lt with rfl | hlt
    · by_cases hend : decodeHciByte datOffset key.length encoded = 0xb5
      · simp [hend, eq_comm]
      · simp [hend, Ne.symm hend]
    · rw [List.drop_eq_getElem_cons hlt, List.getElem?_eq_getElem hlt, List.cons_append,
        List.cons_prefix_cons]
      by_cases heq : decodeHciByte datOffset zeroBased encoded = key[zeroBased]
      · simp only [heq, ne_eq, not_true_eq_false, if_false, true_and]
        exact ih hlt
      · simp [heq, Ne.symm heq]

/-- The check at lookup time. -/
lemma decodedHeaderMatches_eq_some_iff {datOffset : ℕ} {rawBytes key : Bytes} {n : ℕ} :
    decodedHeaderMatches datOffset rawBytes key = some n ↔
      HasHeader datOffset rawBytes key ∧ n = key.length + 1 := by
  rw [decodedHeaderMatches, headerMatchesLoop_eq_some_iff (Nat.zero_le _), List.drop_zero]
  unfold HasHeader
  rw [decoded, Keystream.take_applyFrom]

/-- Reading a whole key. -/
def HeaderScan.pushAll (scan : HeaderScan) (zeroBased : ℕ) : Bytes → HeaderScan
  | [] => scan
  | b :: key => (scan.push zeroBased b).pushAll (zeroBased + 1) key

@[simp] lemma HeaderScan.push_hash (scan : HeaderScan) (zeroBased : ℕ) (b : UInt8) :
    (scan.push zeroBased b).hash = hashByte scan.hash b := by
  simp only [HeaderScan.push]
  split_ifs <;> rfl

@[simp] lemma HeaderScan.push_key (scan : HeaderScan) (zeroBased : ℕ) (b : UInt8) :
    (scan.push zeroBased b).key = scan.key ++ [b] := by
  simp only [HeaderScan.push]
  split_ifs <;> rfl

lemma HeaderScan.pushAll_hash (scan : HeaderScan) (zeroBased : ℕ) (key : Bytes) :
    (scan.pushAll zeroBased key).hash = key.foldl hashByte scan.hash := by
  induction key generalizing scan zeroBased with
  | nil => rfl
  | cons b key ih => rw [HeaderScan.pushAll, ih, push_hash, List.foldl_cons]

lemma HeaderScan.pushAll_key (scan : HeaderScan) (zeroBased : ℕ) (key : Bytes) :
    (scan.pushAll zeroBased key).key = scan.key ++ key := by
  induction key generalizing scan zeroBased with
  | nil => simp [HeaderScan.pushAll]
  | cons b key ih => rw [HeaderScan.pushAll, ih, push_key, List.append_assoc, List.singleton_append]

lemma HeaderScan.pushAll_append (scan : HeaderScan) (zeroBased : ℕ) (key key' : Bytes) :
    scan.pushAll zeroBased (key ++ key') =
      (scan.pushAll zeroBased key).pushAll (zeroBased + key.length) key' := by
  induction key generalizing scan zeroBased with
  | nil => rfl
  | cons b key ih =>
    rw [List.cons_append, HeaderScan.pushAll, ih, HeaderScan.pushAll, List.length_cons]
    congr 1
    omega

/-- Four digits behind a colon are the year of a key, whatever stands in front. -/
lemma archiveYear_of_suffix (base : Bytes) {year : Bytes} (hlen : year.length = 4)
    (hdigits : ∀ b ∈ year, isAsciiDigit b) :
    (HeaderScan.start.pushAll 0 (base ++ 0x3a :: year)).archiveYear = some (decimalValue year) := by
  obtain ⟨a, b, c, d, rfl⟩ := List.length_eq_four.mp hlen
  have hcolon : ∀ x : UInt8, isAsciiDigit x → x ≠ 0x3a := by grind [isAsciiDigit]
  simp only [List.forall_mem_cons, List.not_mem_nil, false_imp_iff, implies_true, and_true]
    at hdigits
  obtain ⟨ha, hb, hc, hd⟩ := hdigits
  rw [HeaderScan.pushAll_append]
  generalize HeaderScan.start.pushAll 0 base = scan
  simp [HeaderScan.pushAll, HeaderScan.push, HeaderScan.archiveYear, decimalValue, digitValue, ha,
    hb, hc, hd, hcolon]

lemma decodeHeaderLoop_of_prefix {datOffset zeroBased : ℕ} {rest key : Bytes} (scan : HeaderScan)
    (hkey : ∀ b ∈ key, isPrintable b) (hpos : 0 < zeroBased + key.length)
    (h : key ++ [0xb5] <+: Keystream.applyFrom (decodeHciByte datOffset) zeroBased rest) :
    decodeHeaderLoop datOffset zeroBased rest scan =
      some ⟨(scan.pushAll zeroBased key).hash, (scan.pushAll zeroBased key).key,
        (scan.pushAll zeroBased key).archiveYear, zeroBased + key.length + 1⟩ := by
  induction rest generalizing zeroBased key scan with
  | nil => simp at h
  | cons encoded rest ih =>
    rw [Keystream.applyFrom_cons] at h
    rw [decodeHeaderLoop]
    cases key with
    | nil =>
      rw [List.nil_append, List.cons_prefix_cons] at h
      have hne : zeroBased ≠ 0 := by simpa [Nat.pos_iff_ne_zero] using hpos
      simp [← h.1, hne, HeaderScan.pushAll]
    | cons b key =>
      rw [List.cons_append, List.cons_prefix_cons] at h
      rw [List.forall_mem_cons] at hkey
      have hlt := lt_128_of_isPrintable hkey.1
      have hb : b ≠ 0xb5 ∧ ¬ (0xb4 < b ∨ ¬ isPrintable b) := by grind
      simp only [← h.1, hb.1, hb.2, if_false, HeaderScan.pushAll]
      rw [ih _ hkey.2 (by omega) h.2, List.length_cons]
      congr 2
      omega

/-- The decoder at opening time reads the same headers, for every printable key. -/
lemma decodeHeaderKey_of_hasHeader {datOffset : ℕ} {rawBytes key : Bytes} (hne : key ≠ [])
    (hkey : ∀ b ∈ key, isPrintable b) (h : HasHeader datOffset rawBytes key) :
    decodeHeaderKey datOffset rawBytes =
      some ⟨hashKey key, key, (HeaderScan.start.pushAll 0 key).archiveYear, key.length + 1⟩ := by
  rw [HasHeader, decoded, Keystream.take_applyFrom] at h
  rw [decodeHeaderKey, decodeHeaderLoop_of_prefix _ hkey
    (by rw [Nat.zero_add]; exact List.length_pos_of_ne_nil hne) h, HeaderScan.pushAll_hash,
    HeaderScan.pushAll_key, Nat.zero_add]
  rfl

/-! ### The key index -/

instance : Std.TransCmp keyRefOrder :=
  inferInstanceAs (Std.TransCmp (compareLex (compareOn HciKeyRef.hash) (compareOn HciKeyRef.index)))

lemma notGreater_keyRefOrder_iff {a b : HciKeyRef} :
    StableSort.NotGreater keyRefOrder a b ↔
      a.hash < b.hash ∨ a.hash = b.hash ∧ a.index ≤ b.index := by
  have hgt : keyRefOrder a b = .gt ↔ b.hash < a.hash ∨ a.hash = b.hash ∧ b.index < a.index := by
    rw [keyRefOrder, Ordering.then_eq_gt, Std.compare_eq_gt, Std.compare_eq_iff_eq,
      Nat.compare_eq_gt]
  rw [StableSort.NotGreater, Ne, hgt]
  simp only [UInt64.lt_iff_toNat_lt, ← UInt64.toNat_inj]
  omega

/-- The records of a table from ordinal `index` on: each one ends where the next one starts. -/
def spans (last : ℕ) : ℕ → List ℕ → List (ℕ × ℕ × ℕ)
  | _, [] => []
  | index, start :: rest => (index, start, rest.head?.getD last) :: spans last (index + 1) rest

/-- The key references and years of a list of records. -/
def spanRefs (datMmap : Bytes) (records : List (ℕ × ℕ × ℕ)) : List (HciKeyRef × Option ℕ) :=
  records.filterMap fun r => keyRef datMmap r.1 r.2.1 r.2.2

lemma pushHciKeyRef_eq (datMmap : Bytes) (index start «end» : ℕ) (build : KeyIndexBuild) :
    pushHciKeyRef datMmap index start «end» build =
      { build with
        entries := build.entries ++ (spanRefs datMmap [(index, start, «end»)]).map Prod.fst
        years := build.years ++
          (spanRefs datMmap [(index, start, «end»)]).flatMap (·.2.toList) } := by
  rw [pushHciKeyRef]
  cases h : keyRef datMmap index start «end» <;> simp [spanRefs, h]

/-- The pass over the offsets collects the references of the records in order. -/
lemma finishKeyIndex_foldl (datMmap : Bytes) (index start : ℕ) (rest : List ℕ)
    (build : KeyIndexBuild) (h : build.previous = some (index, start)) :
    let refs := spanRefs datMmap (spans datMmap.length index (start :: rest))
    let finished := finishKeyIndex datMmap
      ((rest.zipIdx (index + 1)).foldl (keyIndexStep datMmap) build)
    finished.entries = build.entries ++ refs.map Prod.fst ∧
      finished.years = build.years ++ refs.flatMap (·.2.toList) := by
  induction rest generalizing index start build with
  | nil => simp [finishKeyIndex, h, spans, pushHciKeyRef_eq]
  | cons next rest ih =>
    have hstep : keyIndexStep datMmap build (next, index + 1) =
        { pushHciKeyRef datMmap index start next build with
          previous := some (index + 1, next) } := by
      simp [keyIndexStep, h]
    have hrefs : spanRefs datMmap (spans datMmap.length index (start :: next :: rest)) =
        spanRefs datMmap [(index, start, next)] ++
          spanRefs datMmap (spans datMmap.length (index + 1) (next :: rest)) := by
      rw [spanRefs, spanRefs, spanRefs, ← List.filterMap_append]
      rfl
    simp only [List.zipIdx_cons, List.foldl_cons, hstep, hrefs]
    obtain ⟨hentries, hyears⟩ := ih (index + 1) next
      { pushHciKeyRef datMmap index start next build with previous := some (index + 1, next) } rfl
    rw [hentries, hyears, pushHciKeyRef_eq]
    simp

lemma spans_eq (last index : ℕ) (offsets : List ℕ) :
    spans last index offsets = (List.range offsets.length).map fun i =>
      (index + i, offsets.getD i 0, (offsets[i + 1]?).getD last) := by
  induction offsets generalizing index with
  | nil => rfl
  | cons start rest ih =>
    rw [spans, ih, List.length_cons, List.range_succ_eq_map, List.map_cons, List.map_map]
    refine congrArg₂ List.cons (by simp [List.head?_eq_getElem?]) ?_
    refine List.map_congr_left fun i _ => ?_
    simp only [Function.comp_apply, Nat.succ_eq_add_one, List.getD_cons_succ,
      List.getElem?_cons_succ]
    rw [Nat.add_assoc, Nat.add_comm 1]

end Hci

namespace HciFile

open Hci

variable (file : HciFile)

/-- The key reference and the year that record `i` is entered with. -/
def headerRef (i : ℕ) : Option (HciKeyRef × Option ℕ) := do
  let raw ← file.rawRecord i
  let header ← decodeHeaderKey raw.datOffset raw.rawBytes
  if i < 2 ^ 32 then some (⟨header.hash, i⟩, header.year) else none

/-- The references of all records, in ordinal order. -/
def headerRefs : List (HciKeyRef × Option ℕ) := (List.range file.len).filterMap file.headerRef

lemma offset_eq (i : ℕ) :
    file.offset i = ((chunksExact 4 file.indexMmap).map u32FromBeBytes)[i]? := by
  rw [List.getElem?_map, chunksExact_getElem? (by omega), offset, Hci.offset, Framing.slice]
  split_ifs <;> simp

lemma spanRefs_eq_headerRefs :
    spanRefs file.datMmap (spans file.datMmap.length 0
      ((chunksExact 4 file.indexMmap).map u32FromBeBytes)) = file.headerRefs := by
  rw [spanRefs, spans_eq, List.filterMap_map, headerRefs, List.length_map,
    length_chunksExact (by omega), ← len]
  refine List.filterMap_congr fun i hi => ?_
  have hlt : i < ((chunksExact 4 file.indexMmap).map u32FromBeBytes).length := by
    rw [List.length_map, length_chunksExact (by omega)]
    exact List.mem_range.mp hi
  have hoffset : file.offset i =
      some (((chunksExact 4 file.indexMmap).map u32FromBeBytes).getD i 0) := by
    rw [offset_eq, List.getD_eq_getElem?_getD, List.getElem?_eq_getElem hlt, Option.getD_some]
  simp only [Function.comp_apply, Nat.zero_add, headerRef, rawRecord, hoffset, ← offset_eq,
    Option.bind_eq_bind, Option.bind_some, keyRef]
  split_ifs <;> rfl

/-- What opening a pair has built. -/
lemma built_eq : file.keyIndex = StableSort.sortBy keyRefOrder (file.headerRefs.map Prod.fst) ∧
    file.publicationYears =
      (StableSort.sortBy compare (file.headerRefs.flatMap (·.2.toList))).destutter (· ≠ ·) := by
  have h := file.built
  rw [buildKeyIndex, Prod.mk.injEq] at h
  rw [← spanRefs_eq_headerRefs]
  cases hoffsets : (chunksExact 4 file.indexMmap).map u32FromBeBytes with
  | nil => simpa [hoffsets, spans, spanRefs, finishKeyIndex] using h
  | cons start rest =>
    obtain ⟨hentries, hyears⟩ := finishKeyIndex_foldl file.datMmap 0 start rest
      ⟨some (0, start), [], []⟩ rfl
    simp only [hoffsets, List.zipIdx_cons, List.foldl_cons] at h
    rw [h.1, h.2]
    simp only [List.nil_append] at hentries hyears
    exact ⟨congrArg _ hentries, by rw [← hyears]; rfl⟩

/-! ### Lookups -/

lemma sorted_keyIndex : file.keyIndex.Pairwise (StableSort.NotGreater keyRefOrder) := by
  rw [file.built_eq.1]
  exact StableSort.sorted_sortBy _ _

/-- The stretch of the key index that a lookup reads: the references with the hash of the key. -/
lemma slice_keyIndex (hash : UInt64) :
    Framing.slice file.keyIndex
        (Bisect.partitionPoint (fun entry => entry.hash < hash) file.keyIndex)
        (Bisect.partitionPoint (fun entry => entry.hash ≤ hash) file.keyIndex) =
      file.keyIndex.filter fun entry => entry.hash = hash := by
  rw [Framing.slice, Bisect.take_drop_partitionPoint file.sorted_keyIndex]
  · refine List.filter_congr fun a _ => ?_
    simp only [UInt64.le_iff_toNat_le, UInt64.lt_iff_toNat_lt, ← UInt64.toNat_inj]
    grind
  all_goals
    simp only [notGreater_keyRefOrder_iff, UInt64.le_iff_toNat_le, UInt64.lt_iff_toNat_lt,
      ← UInt64.toNat_inj, decide_eq_true_eq]
    omega

lemma index_of_headerRef {i : ℕ} {ref : HciKeyRef × Option ℕ} (h : file.headerRef i = some ref) :
    ref.1.index = i ∧ i < 2 ^ 32 := by
  simp only [headerRef, Option.bind_eq_bind, Option.bind_eq_some_iff,
    Option.ite_none_right_eq_some] at h
  obtain ⟨_, -, _, -, hi, h⟩ := h
  cases h
  exact ⟨rfl, hi⟩

/-- With equal hashes the index keeps ordinal order. -/
lemma filter_keyIndex (hash : UInt64) :
    file.keyIndex.filter (fun entry => entry.hash = hash) =
      (file.headerRefs.map Prod.fst).filter fun entry => entry.hash = hash := by
  have hordinals : (file.headerRefs.map Prod.fst).Pairwise fun a b => a.index < b.index := by
    rw [List.pairwise_map, headerRefs]
    refine List.Pairwise.filterMap _ (fun i j hij a ha b hb => ?_) List.pairwise_lt_range
    rw [(file.index_of_headerRef ha).1, (file.index_of_headerRef hb).1]
    exact hij
  have hperm : (file.keyIndex.filter fun entry => entry.hash = hash).Perm
      ((file.headerRefs.map Prod.fst).filter fun entry => entry.hash = hash) := by
    rw [file.built_eq.1]
    exact (StableSort.sortBy_perm _ _).filter _
  refine hperm.eq_of_pairwise (fun a b _ _ hab hba => ?_) (file.sorted_keyIndex.filter _) ?_
  · rw [notGreater_keyRefOrder_iff] at hab hba
    simp only [UInt64.lt_iff_toNat_lt, ← UInt64.toNat_inj] at hab hba
    exact HciKeyRef.ext (UInt64.toNat_inj.mp (by omega)) (by omega)
  · rw [List.pairwise_filter]
    refine hordinals.imp fun {a b} hab ha hb => ?_
    rw [decide_eq_true_eq] at ha hb
    exact notGreater_keyRefOrder_iff.mpr (Or.inr ⟨ha.trans hb.symm, hab.le⟩)

/-- The postings of record `i` for a key, read without the index. -/
def postingsAt (key : Bytes) (i : ℕ) : List HciPosting :=
  match file.rawRecord i with
  | none => []
  | some raw =>
    if HasHeader raw.datOffset raw.rawBytes key then
      visitPostings (raw.rawBytes.drop (key.length + 1))
    else []

lemma entryPostings_eq (key : Bytes) (entry : HciKeyRef) :
    file.entryPostings key entry = file.postingsAt key entry.index := by
  rw [entryPostings, postingsAt]
  cases file.rawRecord entry.index with
  | none => rfl
  | some raw =>
    by_cases h : HasHeader raw.datOffset raw.rawBytes key
    · simp only [h, if_true, decodedHeaderMatches_eq_some_iff.mpr ⟨h, rfl⟩]
    · have hnone : decodedHeaderMatches raw.datOffset raw.rawBytes key = none := by
        rw [Option.eq_none_iff_forall_ne_some]
        exact fun n hn => h (decodedHeaderMatches_eq_some_iff.mp hn).1
      simp only [h, if_false, hnone]

/-- A record with the header is entered under the hash of the key. -/
lemma headerRef_of_hasHeader {key : Bytes} (hne : key ≠ []) (hkey : ∀ b ∈ key, isPrintable b)
    {i : ℕ} (hi : i < 2 ^ 32) {raw : RawHciRecord} (hraw : file.rawRecord i = some raw)
    (h : HasHeader raw.datOffset raw.rawBytes key) :
    file.headerRef i =
      some (⟨hashKey key, i⟩, (HeaderScan.start.pushAll 0 key).archiveYear) := by
  simp only [headerRef, hraw, Option.bind_eq_bind, Option.bind_some,
    decodeHeaderKey_of_hasHeader hne hkey h, if_pos hi]

/-- Record `i` and the length of its header, when its header is the key. -/
def recordAt (key : Bytes) (i : ℕ) : Option (RawHciRecord × ℕ) := do
  let raw ← file.rawRecord i
  if HasHeader raw.datOffset raw.rawBytes key then some (raw, key.length + 1) else none

lemma entryRecord_eq (key : Bytes) (entry : HciKeyRef) :
    file.entryRecord key entry = file.recordAt key entry.index := by
  ext found
  simp only [entryRecord, recordAt, Option.bind_eq_bind, Option.bind_eq_some_iff,
    decodedHeaderMatches_eq_some_iff, Option.ite_none_right_eq_some]
  grind

lemma postingsAt_eq (key : Bytes) (i : ℕ) : file.postingsAt key i =
    (file.recordAt key i).toList.flatMap fun found =>
      visitPostings (found.1.rawBytes.drop found.2) := by
  rw [postingsAt, recordAt]
  cases file.rawRecord i with
  | none => rfl
  | some raw =>
    simp only [Option.bind_eq_bind, Option.bind_some]
    split_ifs <;> simp

/-- Looking a key up goes through its records that the index can address, in ordinal order. -/
lemma recordsForKey_eq {key : Bytes} (hne : key ≠ []) (hkey : ∀ b ∈ key, isPrintable b) :
    file.recordsForKey key = (List.range file.len).filterMap fun i =>
      if i < 2 ^ 32 then file.recordAt key i else none := by
  rw [recordsForKey, slice_keyIndex, filter_keyIndex, headerRefs, List.map_filterMap,
    List.filter_filterMap, List.filterMap_filterMap]
  refine List.filterMap_congr fun i _ => ?_
  by_cases hi : i < 2 ^ 32
  · rw [if_pos hi]
    cases hrecord : file.recordAt key i with
    | none =>
      rw [Option.bind_eq_none_iff]
      intro entry hentry
      rw [Option.filter_eq_some_iff, Option.map_eq_some_iff] at hentry
      obtain ⟨⟨ref, href, rfl⟩, -⟩ := hentry
      rw [entryRecord_eq, (file.index_of_headerRef href).1, hrecord]
    | some found =>
      have hfound := hrecord
      simp only [recordAt, Option.bind_eq_bind, Option.bind_eq_some_iff,
        Option.ite_none_right_eq_some] at hfound
      obtain ⟨raw, hraw, hheader, -⟩ := hfound
      rw [file.headerRef_of_hasHeader hne hkey hi hraw hheader]
      simp [Option.filter_some, entryRecord_eq, hrecord]
  · rw [if_neg hi, Option.bind_eq_none_iff]
    intro entry hentry
    rw [Option.filter_eq_some_iff, Option.map_eq_some_iff] at hentry
    obtain ⟨⟨ref, href, -⟩, -⟩ := hentry
    exact absurd (file.index_of_headerRef href).2 hi

/-- The postings of a key are those of its records. -/
lemma postingsForKey_eq_flatMap (key : Bytes) :
    file.postingsForKey key = (file.recordsForKey key).flatMap fun found =>
      Hci.visitPostings (found.1.rawBytes.drop found.2) := by
  have hentry : ∀ entry, file.entryPostings key entry = (file.entryRecord key entry).toList.flatMap
      fun found => Hci.visitPostings (found.1.rawBytes.drop found.2) := by
    intro entry
    rw [entryPostings, entryRecord]
    cases file.rawRecord entry.index with
    | none => rfl
    | some raw =>
      simp only [Option.bind_eq_bind, Option.bind_some]
      cases Hci.decodedHeaderMatches raw.datOffset raw.rawBytes key with
      | none => rfl
      | some headerLen => exact (List.append_nil _).symm
  rw [postingsForKey, recordsForKey]
  simp only [List.filterMap_eq_flatMap_toList, List.flatMap_assoc]
  exact congrArg (List.flatMap · _) (funext hentry)

/-- Looking a key up yields the postings of the records that the index can address. -/
lemma postingsForKey_eq {key : Bytes} (hne : key ≠ []) (hkey : ∀ b ∈ key, isPrintable b) :
    file.postingsForKey key = (List.range file.len).flatMap fun i =>
      if i < 2 ^ 32 then file.postingsAt key i else [] := by
  rw [postingsForKey_eq_flatMap, file.recordsForKey_eq hne hkey, List.filterMap_eq_flatMap_toList,
    List.flatMap_assoc]
  refine List.flatMap_congr fun i _ => ?_
  split_ifs
  · rw [postingsAt_eq]
  · rfl

/-- Looking a key up through the hash index yields what a scan of all records in ordinal order
yields. -/
theorem postingsForKey_eq_scan (hlen : file.len < 2 ^ 32) {key : Bytes} (hne : key ≠ [])
    (hkey : ∀ b ∈ key, isPrintable b) :
    file.postingsForKey key = (List.range file.len).flatMap (file.postingsAt key) := by
  rw [file.postingsForKey_eq hne hkey]
  refine List.flatMap_congr fun i hi => ?_
  rw [if_pos ((List.mem_range.mp hi).trans hlen)]

/-- An encoded record: its key, its postings and the separator. -/
def sampleRecord (datOffset : ℕ) (key postings : Bytes) : Bytes :=
  decoded datOffset (key ++ [0xb5]) ++ postings ++ [0]

/-- Two records under one key and one under another, with an unsorted table. -/
def samplePair : HciFile where
  indexMmap := [0, 0, 0, 12, 0, 0, 0, 1, 0, 0, 0, 12, 0, 0, 0, 23]
  datMmap := [0] ++ sampleRecord 1 (ascii "W1AW") [0, 0, 0, 7, 1] ++
    sampleRecord 12 (ascii "K0AB") [0, 0, 0, 9, 0] ++
    sampleRecord 23 (ascii "W1AW") [0, 0, 1, 0, 2, 0, 0, 0, 7, 3]
  keyIndex := _
  publicationYears := _
  whole := by decide
  nonempty := by decide
  built := rfl

theorem postingsForKey_eq_scan_samplePair :
    samplePair.postingsForKey (ascii "W1AW") = [⟨7, 1⟩, ⟨256, 2⟩, ⟨7, 3⟩] := by
  have hlen : samplePair.len < 2 ^ 32 := by decide +kernel
  have hkey : ∀ b ∈ ascii "W1AW", isPrintable b := by decide +kernel
  rw [samplePair.postingsForKey_eq_scan hlen (by decide +kernel) hkey]
  decide +kernel

end HciFile

end Callbook
