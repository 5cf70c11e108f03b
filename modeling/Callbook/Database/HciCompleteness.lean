import Callbook.Database.HciProvenance
import Callbook.Database.Merge
import Callbook.Database.Total
import Callbook.Hci.Index

/-!
# What the HCI files lead to is found

A station is listed in the HCI files under its call or the call without its first character, alone
or with a publication year. The years of all headers are collected when the files are opened, so
a lookup tries every key under which the station is listed.
-/

namespace Callbook

open Text

/-! ### Header years -/

namespace HciFile

variable {file : HciFile}

/-- The year of a header is one of the collected years. -/
lemma mem_publicationYears {key : Bytes} (hne : key ≠ []) (hkey : ∀ b ∈ key, isPrintable b) {i : ℕ}
    (hi : i < 2 ^ 32) (hlen : i < file.len) {raw : RawHciRecord}
    (hraw : file.rawRecord i = some raw)
    (h : Hci.HasHeader raw.datOffset raw.rawBytes key) {year : ℕ}
    (hyear : (Hci.HeaderScan.start.pushAll 0 key).archiveYear = some year) :
    year ∈ file.publicationYears := by
  rw [file.built_eq.2, StableSort.mem_destutter_ne, StableSort.mem_sortBy, List.mem_flatMap]
  refine ⟨_, List.mem_filterMap.mpr ⟨i, List.mem_range.mpr hlen,
    file.headerRef_of_hasHeader hne hkey hi hraw h⟩, ?_⟩
  rw [hyear]
  exact List.mem_singleton_self year

lemma lt_len_of_rawRecord {i : ℕ} {raw : RawHciRecord} (h : file.rawRecord i = some raw) :
    i < file.len := by
  simp only [rawRecord, Option.bind_eq_bind, Option.bind_eq_some_iff] at h
  obtain ⟨start, hstart, -⟩ := h
  simp only [offset, Hci.offset, Option.ite_none_right_eq_some] at hstart
  rw [len]
  omega

/-- Every record that the index can address gives its postings under its key. -/
lemma mem_postingsForKey {key : Bytes} (hne : key ≠ []) (hkey : ∀ b ∈ key, isPrintable b) {i : ℕ}
    (hi : i < 2 ^ 32) {raw : RawHciRecord} (hraw : file.rawRecord i = some raw)
    (h : Hci.HasHeader raw.datOffset raw.rawBytes key) {posting : HciPosting}
    (hposting : posting ∈ Hci.visitPostings (raw.rawBytes.drop (key.length + 1))) :
    posting ∈ file.postingsForKey key := by
  rw [file.postingsForKey_eq hne hkey, List.mem_flatMap]
  refine ⟨i, List.mem_range.mpr (lt_len_of_rawRecord hraw), ?_⟩
  simp only [if_pos hi, postingsAt, hraw, if_pos h]
  exact hposting

end HciFile

/-! ### Lookup keys -/

/-- A key under which a call is listed: the call or the call without its first character, alone or
with four digits behind a colon. -/
def IsHeaderKey (call key : Bytes) : Prop :=
  ∃ base, (base = call ∨ 1 < call.length ∧ base = call.tail) ∧
    (key = base ∨ ∃ year : Bytes, year.length = 4 ∧ (∀ b ∈ year, isAsciiDigit b) ∧
      key = base ++ 0x3a :: year)

/-- The archive key is printed with the digits it was read with. -/
lemma hciArchiveKey_decimalValue {base year : Bytes} (hbase : base.length ≤ 27)
    (hlen : year.length = 4) (hdigits : ∀ b ∈ year, isAsciiDigit b) :
    hciArchiveKey base (decimalValue year) = some (base ++ 0x3a :: year) := by
  obtain ⟨a, b, c, d, rfl⟩ := List.length_eq_four.mp hlen
  have hdigit : ∀ x : UInt8, isAsciiDigit x → digitValue x < 10 ∧
      0x30 + UInt8.ofNat (digitValue x) = x := by
    intro x hx
    simp only [isAsciiDigit, Bool.and_eq_true, decide_eq_true_eq, UInt8.le_iff_toNat_le] at hx
    have hlow : 48 ≤ x.toNat := hx.1
    have hhigh : x.toNat ≤ 57 := hx.2
    refine ⟨by rw [digitValue]; omega, ?_⟩
    have hzero : (0x30 : UInt8).toNat = 48 := rfl
    rw [digitValue, ← UInt8.toNat_inj, UInt8.toNat_add, UInt8.toNat_ofNat', hzero]
    omega
  simp only [List.forall_mem_cons, List.not_mem_nil, false_imp_iff, implies_true, and_true]
    at hdigits
  obtain ⟨⟨ha, ha'⟩, ⟨hb, hb'⟩, ⟨hc, hc'⟩, hd, hd'⟩ :=
    hdigits.imp (hdigit a) (And.imp (hdigit b) (And.imp (hdigit c) (hdigit d)))
  have hvalue : decimalValue [a, b, c, d] =
      digitValue a * 1000 + digitValue b * 100 + digitValue c * 10 + digitValue d := by
    simp only [decimalValue, List.foldl_cons, List.foldl_nil]
    omega
  rw [hciArchiveKey, if_neg (by omega), hvalue]
  simp only [show (digitValue a * 1000 + digitValue b * 100 + digitValue c * 10 + digitValue d) /
      1000 % 10 = digitValue a by omega,
    show (digitValue a * 1000 + digitValue b * 100 + digitValue c * 10 + digitValue d) / 100 % 10 =
      digitValue b by omega,
    show (digitValue a * 1000 + digitValue b * 100 + digitValue c * 10 + digitValue d) / 10 % 10 =
      digitValue c by omega,
    show (digitValue a * 1000 + digitValue b * 100 + digitValue c * 10 + digitValue d) % 10 =
      digitValue d by omega, ha', hb', hc', hd']

section Keys

variable {key : Callsign}

lemma hciLookupKeys_eq (years : List ℕ) :
    hciLookupKeys key.asStr years =
      let suffix := if 1 < key.asStr.length then key.asStr.drop 1 else key.asStr
      (key.asStr :: if suffix ≠ key.asStr then [suffix] else []) ++
        years.flatMap (hciYearKeys key.asStr suffix) := by
  have hchars := key.asStr_spec.2.2
  have htrim : Utf8.trim key.asStr = key.asStr :=
    Utf8.trim_eq_self fun b hb => Callsign.isAsciiGraphic_of_isCallsignChar (hchars b hb)
  have hupper : toAsciiUppercase key.asStr = key.asStr := by
    refine toAsciiUppercase_eq_self fun b hb => ?_
    have := hchars b hb
    grind [isCallsignChar, isAsciiUppercase, isAsciiDigit, isAsciiLowercase]
  rw [hciLookupKeys, htrim, hupper]

lemma tail_ne_self {call : Bytes} (h : 1 < call.length) : call.tail ≠ call := by
  intro heq
  have := congrArg List.length heq
  rw [List.length_tail] at this
  omega

/-- A key without a year is tried. -/
lemma mem_hciLookupKeys_base {base : Bytes} {years : List ℕ}
    (hbase : base = key.asStr ∨ 1 < key.asStr.length ∧ base = key.asStr.tail) :
    base ∈ hciLookupKeys key.asStr years := by
  rw [hciLookupKeys_eq]
  rcases hbase with rfl | ⟨hlt, rfl⟩
  · simp
  · simp [hlt, tail_ne_self hlt]

/-- A key with a collected year is tried. -/
lemma mem_hciLookupKeys_year {base year : Bytes} {years : List ℕ}
    (hbase : base = key.asStr ∨ 1 < key.asStr.length ∧ base = key.asStr.tail)
    (hlen : year.length = 4) (hdigits : ∀ b ∈ year, isAsciiDigit b)
    (hyear : decimalValue year ∈ years) :
    base ++ 0x3a :: year ∈ hciLookupKeys key.asStr years := by
  have hle : key.asStr.length ≤ 26 := key.asStr_spec.2.1
  rw [hciLookupKeys_eq]
  refine List.mem_append_right _ (List.mem_flatMap.mpr ⟨_, hyear, ?_⟩)
  rw [hciYearKeys, hciArchiveKey_decimalValue (by omega) hlen hdigits]
  rcases hbase with rfl | ⟨hlt, rfl⟩
  · exact List.mem_cons_self
  · have hsuffix : hciArchiveKey key.asStr.tail (decimalValue year) =
        some (key.asStr.tail ++ 0x3a :: year) :=
      hciArchiveKey_decimalValue (by rw [List.length_tail]; omega) hlen hdigits
    simp [hlt, tail_ne_self hlt, hsuffix]

lemma isPrintable_of_isHeaderKey {headerKey : Bytes} (h : IsHeaderKey key.asStr headerKey) :
    headerKey ≠ [] ∧ ∀ b ∈ headerKey, isPrintable b := by
  have hne := key.asStr_spec.1
  have hcall := key.isPrintable_asStr
  obtain ⟨base, hbase, hkey⟩ := h
  have hbasechars : ∀ b ∈ base, isPrintable b := by
    rcases hbase with rfl | ⟨-, rfl⟩
    · exact hcall
    · exact fun b hb => hcall b (List.mem_of_mem_tail hb)
  rcases hkey with rfl | ⟨year, -, hdigits, rfl⟩
  · refine ⟨?_, hbasechars⟩
    rcases hbase with rfl | ⟨hlt, rfl⟩
    · exact hne
    · intro hnil
      have := congrArg List.length hnil
      rw [List.length_tail, List.length_nil] at this
      omega
  · refine ⟨by simp, fun b hb => ?_⟩
    rw [List.mem_append, List.mem_cons] at hb
    rcases hb with hb | rfl | hb
    · exact hbasechars b hb
    · decide
    · have := hdigits b hb
      grind [isAsciiDigit, isPrintable, isAsciiGraphic]

end Keys

/-! ### Completeness -/

/-- The HCI record `ordinal` is listed under the call, and one of its postings is the offset of a
record that parses to the snapshot of the call. -/
def LeadsTo (shard : V2Shard) (hci : HciFile) (call : Str) (ordinal : ℕ) (s : CallSnapshot) :
    Prop :=
  ∃ raw headerKey posting, hci.rawRecord ordinal = some raw ∧ IsHeaderKey call headerKey ∧
    Hci.HasHeader raw.datOffset raw.rawBytes headerKey ∧
    posting ∈ Hci.visitPostings (raw.rawBytes.drop (headerKey.length + 1)) ∧
    ∃ stop, Framing.IsFrame isSentinel (decodeDat shard.datMmap) posting.datOffset stop ∧
      shard.ReadsAs call (Framing.slice (decodeDat shard.datMmap) posting.datOffset stop) s

section Completeness

variable {db : CallBook} {shard : V2Shard} {hci : HciFile} {key : Callsign} {ordinal : ℕ}
  {s : CallSnapshot}

/-- The posting is among those that the lookup visits. -/
lemma exists_mem_hciPostings (hhci : shard.hci = some hci) (hordinal : ordinal < 2 ^ 32)
    (h : LeadsTo shard hci key.asStr ordinal s) :
    ∃ posting ∈ shard.hciPostings key.asStr, ∃ record,
      shard.IsRecordAround posting.datOffset record ∧ shard.ReadsAs key.asStr record s := by
  obtain ⟨raw, headerKey, posting, hraw, hheader, hhas, hposting, stop, hframe, hreads⟩ := h
  obtain ⟨hne, hprintable⟩ := isPrintable_of_isHeaderKey hheader
  have hmem := HciFile.mem_postingsForKey hne hprintable hordinal hraw hhas hposting
  have hkey : headerKey ∈ hciLookupKeys key.asStr hci.publicationYears := by
    obtain ⟨base, hbase, rfl | ⟨year, hlen, hdigits, rfl⟩⟩ := hheader
    · exact mem_hciLookupKeys_base hbase
    · exact mem_hciLookupKeys_year hbase hlen hdigits (HciFile.mem_publicationYears hne hprintable
        hordinal (HciFile.lt_len_of_rawRecord hraw) hraw hhas
        (Hci.archiveYear_of_suffix base hlen hdigits))
  refine ⟨posting, ?_, _, ⟨_, stop, hframe, le_rfl, hframe.lt, rfl⟩, hreads⟩
  rw [V2Shard.hciPostings, hhci]
  exact List.mem_flatMap.mpr ⟨headerKey, hkey, hmem⟩

/-- The record at the offset answers, so no window is read. -/
lemma mem_of_hciSnapshotsAt {datOffset : ℕ} {record : Bytes} {found : List CallSnapshot}
    (h : shard.hciSnapshotsAt key.asStr datOffset = .ok found)
    (haround : shard.IsRecordAround datOffset record)
    (hreads : shard.ReadsAs key.asStr record s) : s ∈ found := by
  rw [V2Shard.hciSnapshotsAt] at h
  cases hrun : shard.decodeAndParseHciOffset datOffset key.asStr [] with
  | error e =>
    rw [hrun] at h
    cases h
  | ok result =>
    rw [hrun] at h
    cases h
    exact V2Shard.mem_of_isRecordAround hrun haround hreads

/-- A lookup that returns lists the HCI source for every snapshot that the HCI files lead to, and
it returns when the callsign can be located. -/
theorem lists_of_leadsTo (hshard : db.v2 = some shard) (hhci : shard.hci = some hci)
    {callsign : Str} (hkey : Callsign.parse callsign = .ok key) (hordinal : ordinal < 2 ^ 32)
    (h : LeadsTo shard hci key.asStr ordinal s) :
    (∀ r, db.lookupReport callsign = .ok (.ok r) →
      Lists r.current r.history s.vintage .hamCallHci) ∧
    (shard.Locates key.asStr → ∃ r, db.lookupReport callsign = .ok (.ok r)) := by
  constructor
  · intro r hr
    obtain ⟨posting, hposting, record, haround, hreads⟩ := exists_mem_hciPostings hhci hordinal h
    obtain ⟨key', snapshots, hkey', hsnapshots, -⟩ := CallBook.lookupReport_eq_ok_iff.mp hr
    obtain rfl : key' = key := Except.ok.inj (hkey'.symm.trans hkey)
    have hall := hsnapshots
    simp only [CallBook.shardSnapshots, hshard, Panic.bind_eq_ok_iff] at hall
    obtain ⟨fromIdx, -, fromHci, hfromHci, hall⟩ := hall
    cases hall
    obtain ⟨found, hfound⟩ := V2Shard.exists_hciSnapshotsAt_of_lookupHci hfromHci hposting
    have hs : s ∈ fromIdx ++ fromHci := by
      refine List.mem_append_right _ ((V2Shard.mem_of_lookupHci_eq_ok _ hfromHci).mpr ?_)
      exact ⟨posting, hposting, found, hfound, mem_of_hciSnapshotsAt hfound haround hreads⟩
    have hsources : s.sources = [.hamCallHci] := (V2Record.keyOf_of_parseSegment hreads.1).2
    exact CallBook.lists_of_lookupReport hr hkey hsnapshots hs
      (hsources ▸ List.mem_singleton_self _)
  · intro hlocates
    refine (CallBook.exists_lookupReport_eq_ok_iff hkey).mpr fun v2 hv2 => ?_
    rw [hshard, Option.mem_some_iff] at hv2
    exact hv2 ▸ hlocates.locatesRead

end Completeness

/-! ### Sample trees -/

/-- A shard on one record, which its IDX file does not list. -/
def listedShard (record : Bytes) (hci : HciFile) : V2Shard where
  idx := ⟨ascii "K0AB 0\r\n", [⟨0, 4, 0, 0⟩], [0], 1, 256, by decide +kernel⟩
  datMmap := decodeDat record
  hci := some hci
  usCsv := none
  countries := none
  pcCountries := none
  interests := none

/-- The only posting of a list leads to the only record of the shard. -/
lemma leadsTo_listedShard {record : Bytes} {hci : HciFile} {call headerKey : Bytes} {ordinal : ℕ}
    {raw : RawHciRecord} {s : CallSnapshot} (hraw : hci.rawRecord ordinal = some raw)
    (hkey : IsHeaderKey call headerKey) (hhas : Hci.HasHeader raw.datOffset raw.rawBytes headerKey)
    {position : UInt8}
    (hposting : ⟨0, position⟩ ∈ Hci.visitPostings (raw.rawBytes.drop (headerKey.length + 1)))
    (hbounds : (recordBoundsForHciPosting (decodeDat record) 0).any fun bounds =>
      bounds.start = 0 ∧ bounds.end = record.length)
    (hreads : (listedShard record hci).ReadsAs call record s) :
    LeadsTo (listedShard record hci) hci call ordinal s := by
  simp only [Option.any_eq_true, decide_eq_true_eq] at hbounds
  obtain ⟨bounds, hfound, hstart, hend⟩ := hbounds
  obtain ⟨hframe, -, -⟩ := isFrame_of_recordBoundsForHciPosting hfound
  rw [hstart, hend] at hframe
  refine ⟨raw, headerKey, _, hraw, hkey, hhas, hposting, record.length, hframe, ?_⟩
  have hslice : Framing.slice (decodeDat (decodeDat record)) 0 record.length = record := by
    rw [decodeDat_decodeDat, Framing.slice, List.drop_zero, Nat.sub_zero, List.take_length]
  change (listedShard record hci).ReadsAs call
    (Framing.slice (decodeDat (decodeDat record)) 0 record.length) s
  rw [hslice]
  exact hreads

/-- An archive record. -/
def archiveRecord : Bytes := 0xb5 :: ascii "W1AW:1999" ++ 0xb8 :: ascii "Bob"

/-- Its posting, listed under the call without its first character and the year. -/
def archivePair : HciFile where
  indexMmap := [0, 0, 0, 1]
  datMmap := [0] ++ HciFile.sampleRecord 1 (ascii "1AW:1999") [0, 0, 0, 0, 1]
  keyIndex := _
  publicationYears := _
  whole := by decide
  nonempty := by decide
  built := rfl

theorem lists_of_leadsTo_archiveRecord : ∃ r,
    (⟨some (listedShard archiveRecord archivePair)⟩ : CallBook).lookupReport (ascii "W1AW") =
      .ok (.ok r) ∧ Lists r.current r.history (some 1999) .hamCallHci := by
  have hparse : (Callsign.parse (ascii "W1AW")).toOption.any (·.asStr == ascii "W1AW") := by
    decide +kernel
  have hread : ((listedShard archiveRecord archivePair).readHci archiveRecord).toOption.any
      fun s => s.any fun s => s.callsign == ascii "W1AW" && s.vintage == some 1999 := by
    decide +kernel
  have hraw : (archivePair.rawRecord 0).any fun raw =>
      decide (Hci.HasHeader raw.datOffset raw.rawBytes (ascii "1AW:1999")) &&
      decide ((⟨0, 1⟩ : HciPosting) ∈
        Hci.visitPostings (raw.rawBytes.drop ((ascii "1AW:1999").length + 1))) := by decide +kernel
  have hheader : IsHeaderKey (ascii "W1AW") (ascii "1AW:1999") :=
    ⟨ascii "1AW", .inr ⟨by decide +kernel, by decide +kernel⟩,
      .inr ⟨ascii "1999", by decide +kernel, by decide +kernel, by decide +kernel⟩⟩
  simp only [Option.any_eq_true, beq_iff_eq, Bool.and_eq_true, Panic.toOption_eq_some_iff,
    decide_eq_true_eq] at hparse hread hraw
  obtain ⟨key, hkey, hcall⟩ := hparse
  obtain ⟨_, hread, s, rfl, hs, hvintage⟩ := hread
  obtain ⟨raw, hraw, hhas, hposting⟩ := hraw
  have hleads : LeadsTo (listedShard archiveRecord archivePair) archivePair key.asStr 0 s := by
    rw [hcall]
    exact leadsTo_listedShard hraw hheader hhas hposting (by decide +kernel)
      ⟨hread, hs⟩
  obtain ⟨hall, hreturns⟩ := lists_of_leadsTo rfl rfl hkey (by norm_num) hleads
  obtain ⟨r, hr⟩ := hreturns fun table htable => by cases htable
  exact ⟨r, hr, hvintage ▸ hall r hr⟩

/-- An index of `n` empty records and the one with the posting behind them. -/
def farPair (n : ℕ) : HciFile where
  indexMmap := List.replicate (4 * (n + 1)) 0
  datMmap := HciFile.sampleRecord 0 (ascii "W1AW") [0, 0, 0, 0, 0]
  keyIndex := (Hci.buildKeyIndex (List.replicate (4 * (n + 1)) 0)
    (HciFile.sampleRecord 0 (ascii "W1AW") [0, 0, 0, 0, 0])).1
  publicationYears := (Hci.buildKeyIndex (List.replicate (4 * (n + 1)) 0)
    (HciFile.sampleRecord 0 (ascii "W1AW") [0, 0, 0, 0, 0])).2
  whole := by rw [List.length_replicate, Nat.mul_mod_right]
  nonempty := List.ne_nil_of_length_pos (by rw [List.length_replicate]; omega)
  built := rfl

section FarPair

variable (n : ℕ)

lemma offset_farPair (i : ℕ) : (farPair n).offset i = if i < n + 1 then some 0 else none := by
  have hlen : (farPair n).indexMmap.length = 4 * (n + 1) := List.length_replicate
  rw [HciFile.offset, Hci.offset, hlen]
  refine if_ctx_congr (by omega) (fun hlt => ?_) (fun _ => rfl)
  have hslice : Framing.slice (farPair n).indexMmap (i * 4) (i * 4 + 4) = List.replicate 4 0 := by
    rw [farPair, Framing.slice, List.drop_replicate, List.take_replicate]
    congr 1
    omega
  rw [hslice]
  rfl

lemma rawRecord_farPair_of_lt {i : ℕ} (h : i < n) :
    (farPair n).rawRecord i = some ⟨i, 0, 0, []⟩ := by
  have hi : (farPair n).offset i = some 0 := by rw [offset_farPair, if_pos (by omega)]
  have hnext : (farPair n).offset (i + 1) = some 0 := by rw [offset_farPair, if_pos (by omega)]
  simp [HciFile.rawRecord, hi, hnext, Framing.slice]

lemma rawRecord_farPair : (farPair n).rawRecord n =
    some ⟨n, 0, (farPair 0).datMmap.length, (farPair 0).datMmap⟩ := by
  have hn : (farPair n).offset n = some 0 := by rw [offset_farPair, if_pos (by omega)]
  have hnext : (farPair n).offset (n + 1) = none := by rw [offset_farPair, if_neg (by omega)]
  have hdat : (farPair n).datMmap = (farPair 0).datMmap := rfl
  simp [HciFile.rawRecord, hn, hnext, Framing.slice, hdat]

/-- No record of the pair is entered when the only one with a header stands too far behind. -/
lemma postingsForKey_farPair (hn : 2 ^ 32 ≤ n) (key : Bytes) :
    (farPair n).postingsForKey key = [] := by
  have hrefs : (farPair n).headerRefs = [] := by
    rw [HciFile.headerRefs, List.filterMap_eq_nil_iff]
    intro i _
    rw [HciFile.headerRef]
    by_cases hi : i < 2 ^ 32
    · rw [rawRecord_farPair_of_lt n (by omega)]
      rfl
    · cases (farPair n).rawRecord i with
      | none => rfl
      | some raw =>
        simp only [Option.bind_eq_bind, Option.bind_some, if_neg hi]
        cases Hci.decodeHeaderKey raw.datOffset raw.rawBytes <;> rfl
  have hindex : (farPair n).keyIndex = [] := by
    rw [(farPair n).built_eq.1, hrefs]
    rfl
  rw [HciFile.postingsForKey, hindex]
  rfl

end FarPair

/-- A current record. -/
def currentRecord : Bytes := 0xb5 :: ascii "W1AW" ++ 0xb8 :: ascii "Bob"

/-- The record of ordinal 2 ^ 32 leads to a snapshot that no lookup returns. -/
theorem not_lists_farPair : ∃ (key : Callsign) (s : CallSnapshot) (r : LookupResult),
    Callsign.parse (ascii "W1AW") = .ok key ∧
    LeadsTo (listedShard currentRecord (farPair (2 ^ 32))) (farPair (2 ^ 32)) key.asStr (2 ^ 32) s ∧
    (⟨some (listedShard currentRecord (farPair (2 ^ 32)))⟩ : CallBook).lookupReport
      (ascii "W1AW") = .ok (.ok r) ∧
    ¬ Lists r.current r.history s.vintage .hamCallHci := by
  generalize hn : 2 ^ 32 = n
  have hparse : (Callsign.parse (ascii "W1AW")).toOption.any (·.asStr == ascii "W1AW") := by
    decide +kernel
  have hread : ((listedShard currentRecord archivePair).readHci currentRecord).toOption.any
      fun s => s.any fun s => s.callsign == ascii "W1AW" && s.vintage == none := by
    decide +kernel
  have hentries :
      (listedShard currentRecord archivePair).idx.findCallsignAll (ascii "W1AW") = [] := by
    decide +kernel
  have hhas : Hci.HasHeader 0 (farPair 0).datMmap (ascii "W1AW") ∧ (⟨0, 0⟩ : HciPosting) ∈
      Hci.visitPostings ((farPair 0).datMmap.drop ((ascii "W1AW").length + 1)) := by decide +kernel
  simp only [Option.any_eq_true, beq_iff_eq, Bool.and_eq_true, Panic.toOption_eq_some_iff]
    at hparse hread
  obtain ⟨key, hkey, hcall⟩ := hparse
  obtain ⟨_, hread, s, rfl, hs, hvintage⟩ := hread
  refine ⟨key, s, CallBook.report key.asStr (none, []), hkey, ?_, ?_, ?_⟩
  · rw [hcall]
    exact leadsTo_listedShard (rawRecord_farPair n) ⟨_, .inl rfl, .inl rfl⟩ hhas.1 hhas.2
      (by decide +kernel) ⟨hread, hs⟩
  · have hidx : (listedShard currentRecord (farPair n)).lookupDatIdx key.asStr = .ok [] := by
      have hentries : (listedShard currentRecord (farPair n)).idx.findCallsignAll key.asStr = [] :=
        hcall ▸ hentries
      rw [V2Shard.lookupDatIdx, hentries]
      rfl
    have hpostings : (listedShard currentRecord (farPair n)).hciPostings key.asStr = [] := by
      refine List.flatMap_eq_nil_iff.mpr fun headerKey _ => ?_
      exact postingsForKey_farPair n hn.le headerKey
    have hhci : (listedShard currentRecord (farPair n)).lookupHci key.asStr = .ok [] := by
      rw [V2Shard.lookupHci, hpostings]
      rfl
    refine CallBook.lookupReport_eq_ok_iff.mpr ⟨key, [], hkey, ?_, rfl⟩
    simp only [CallBook.shardSnapshots, hidx, hhci]
    rfl
  · rw [hvintage]
    rintro ⟨_, hnone, -⟩
    cases hnone

end Callbook
