import Callbook.Database.HciCompleteness
import Callbook.Hci.Statistics

/-!
# The headers of HCI records

A header is a printable key in front of `0xb5`, within the first 100 decoded bytes; its year is the
four digits behind the last colon. The years of the records that the key index can address are the
publication years, and an archive key carries the year it is made with.
-/

namespace Callbook

open Text

namespace Hci

/-! ### The grammar -/

/-- What the loop accepts: printable bytes and the terminator, with at least one byte in front. -/
lemma prefix_of_decodeHeaderLoop {datOffset zeroBased : ℕ} {rest : Bytes} {scan : HeaderScan}
    {header : HciHeaderKey} (h : decodeHeaderLoop datOffset zeroBased rest scan = some header) :
    ∃ key : Bytes, (∀ b ∈ key, isPrintable b) ∧ 0 < zeroBased + key.length ∧
      key ++ [0xb5] <+: Keystream.applyFrom (decodeHciByte datOffset) zeroBased rest := by
  induction rest generalizing zeroBased scan with
  | nil => simp [decodeHeaderLoop] at h
  | cons encoded rest ih =>
    rw [Keystream.applyFrom_cons]
    rw [decodeHeaderLoop] at h
    split_ifs at h with hend hzero hchar
    · refine ⟨[], by simp, Nat.pos_of_ne_zero hzero, ?_⟩
      rw [hend, List.nil_append, List.cons_prefix_cons]
      exact ⟨rfl, List.nil_prefix⟩
    · obtain ⟨key, hkey, -, hprefix⟩ := ih h
      rw [not_or, not_not] at hchar
      refine ⟨decodeHciByte datOffset zeroBased encoded :: key, ?_, ?_, ?_⟩
      · exact List.forall_mem_cons.mpr ⟨hchar.2, hkey⟩
      · rw [List.length_cons]
        omega
      · exact List.cons_prefix_cons.mpr ⟨rfl, hprefix⟩

/-- A record is decoded exactly when it has a header with a printable key. -/
lemma decodeHeaderKey_eq_some_iff {datOffset : ℕ} {rawBytes : Bytes} {header : HciHeaderKey} :
    decodeHeaderKey datOffset rawBytes = some header ↔ ∃ key, key ≠ [] ∧
      (∀ b ∈ key, isPrintable b) ∧ HasHeader datOffset rawBytes key ∧
        header = ⟨hashKey key, key, keyYear key, key.length + 1⟩ := by
  constructor
  · intro h
    obtain ⟨key, hkey, hpos, hprefix⟩ := prefix_of_decodeHeaderLoop h
    rw [Nat.zero_add] at hpos
    have hne : key ≠ [] := List.ne_nil_of_length_pos hpos
    have hheader : HasHeader datOffset rawBytes key := by
      rwa [HasHeader, decoded, Keystream.take_applyFrom]
    refine ⟨key, hne, hkey, hheader, ?_⟩
    rw [decodeHeaderKey_of_hasHeader hne hkey hheader, archiveYear_pushAll] at h
    exact (Option.some.inj h).symm
  · rintro ⟨key, hne, hkey, hheader, rfl⟩
    rw [decodeHeaderKey_of_hasHeader hne hkey hheader, archiveYear_pushAll]

/-- A header in terms of the position of its terminator. -/
lemma hasHeader_iff {datOffset : ℕ} {rawBytes key : Bytes} :
    HasHeader datOffset rawBytes key ↔
      ((decoded datOffset rawBytes).take 100)[key.length]? = some 0xb5 ∧
        ((decoded datOffset rawBytes).take 100).take key.length = key := by
  rw [HasHeader]
  generalize (decoded datOffset rawBytes).take 100 = d
  constructor
  · rintro ⟨back, rfl⟩
    simp
  · rintro ⟨hend, htake⟩
    obtain ⟨hlt, hget⟩ := List.getElem?_eq_some_iff.mp hend
    refine ⟨d.drop (key.length + 1), ?_⟩
    conv_rhs =>
      rw [← List.take_append_drop key.length d, List.drop_eq_getElem_cons hlt, hget, htake]
    rw [List.append_assoc, List.singleton_append]

/-- `header` is the header of the decoded bytes `d`: what stands in front of the terminator at some
position but the first, with the four digits behind its last colon. -/
structure IsHeader (d : Bytes) (header : HciHeaderKey) : Prop where
  position : ∃ n, 1 ≤ n ∧ d[n]? = some 0xb5 ∧ header.key = d.take n ∧ header.headerLen = n + 1
  printable : ∀ b ∈ header.key, isPrintable b
  hash : header.hash = hashKey header.key
  year : ∀ y, header.year = some y ↔ ∃ base digits : Bytes, header.key = base ++ 0x3a :: digits ∧
    digits.length = 4 ∧ (∀ b ∈ digits, isAsciiDigit b) ∧ y = decimalValue digits

lemma isHeader_iff {d : Bytes} {header : HciHeaderKey} : IsHeader d header ↔
    ∃ n, 1 ≤ n ∧ d[n]? = some 0xb5 ∧ (∀ b ∈ d.take n, isPrintable b) ∧
      header = ⟨hashKey (d.take n), d.take n, keyYear (d.take n), n + 1⟩ := by
  constructor
  · rintro ⟨⟨n, hpos, hend, hkey, hlen⟩, hprintable, hhash, hyear⟩
    refine ⟨n, hpos, hend, hkey ▸ hprintable, ?_⟩
    have hsame : header.year = keyYear header.key := by
      ext y
      rw [hyear, keyYear_eq_some_iff]
    rw [← hkey, ← hsame, ← hhash, ← hlen]
  · rintro ⟨n, hpos, hend, hprintable, rfl⟩
    exact ⟨⟨n, hpos, hend, rfl, rfl⟩, hprintable, rfl, fun y => keyYear_eq_some_iff⟩

lemma decodeHeaderKey_eq_some_iff_isHeader {datOffset : ℕ} {rawBytes : Bytes}
    {header : HciHeaderKey} : decodeHeaderKey datOffset rawBytes = some header ↔
      IsHeader ((decoded datOffset rawBytes).take 100) header := by
  rw [decodeHeaderKey_eq_some_iff, isHeader_iff]
  simp only [hasHeader_iff]
  generalize (decoded datOffset rawBytes).take 100 = d
  constructor
  · rintro ⟨key, hne, hkey, ⟨hend, htake⟩, rfl⟩
    refine ⟨key.length, List.length_pos_of_ne_nil hne, hend, ?_, ?_⟩
    · rwa [htake]
    · rw [htake]
  · rintro ⟨n, hpos, hend, hprintable, rfl⟩
    have hlen : (d.take n).length = n := by
      rw [List.length_take]
      have := (List.getElem?_eq_some_iff.mp hend).1
      omega
    refine ⟨d.take n, List.ne_nil_of_length_pos (by omega), hprintable, ⟨?_, ?_⟩, ?_⟩
    · rwa [hlen]
    · rw [hlen]
    · rw [hlen]

end Hci

/-! ### The years of a pair -/

namespace HciFile

variable (file : HciFile)

/-- The collected years are those of the records with an ordinal below 2 ^ 32, in order. -/
lemma publicationYears_spec : file.publicationYears.Pairwise (· < ·) ∧
    ∀ y, y ∈ file.publicationYears ↔ ∃ i raw header, i < 2 ^ 32 ∧ file.rawRecord i = some raw ∧
      Hci.decodeHeaderKey raw.datOffset raw.rawBytes = some header ∧ header.year = some y := by
  rw [file.built_eq.2]
  refine ⟨?_, fun y => ?_⟩
  · exact (StableSort.pairwise_lt_destutter (StableSort.sorted_sortBy compare _)).imp
      fun h => Nat.compare_eq_lt.mp h
  · rw [StableSort.mem_destutter_ne, StableSort.mem_sortBy, List.mem_flatMap]
    simp only [headerRefs, List.mem_filterMap, List.mem_range, headerRef, Option.bind_eq_bind,
      Option.bind_eq_some_iff, Option.ite_none_right_eq_some, Option.mem_toList]
    constructor
    · rintro ⟨_, ⟨i, -, raw, hraw, header, hheader, hi, h⟩, hyear⟩
      cases h
      exact ⟨i, raw, header, hi, hraw, hheader, hyear⟩
    · rintro ⟨i, raw, header, hi, hraw, hheader, hyear⟩
      exact ⟨_, ⟨i, lt_len_of_rawRecord hraw, raw, hraw, header, hheader, hi, rfl⟩, hyear⟩

end HciFile

/-! ### Archive keys -/

/-- An archive key is the call, a colon and four digits that mean the year. -/
lemma exists_hciArchiveKey {call : Bytes} (hlen : call.length ≤ 27) {year : ℕ}
    (hyear : year < 10000) :
    ∃ digits : Bytes, hciArchiveKey call year = some (call ++ 0x3a :: digits) ∧
      digits.length = 4 ∧ (∀ b ∈ digits, isAsciiDigit b) ∧ decimalValue digits = year := by
  refine ⟨_, by rw [hciArchiveKey, if_neg (by omega)], rfl, ?_, ?_⟩
  · simp only [List.forall_mem_cons, digit_spec, List.not_mem_nil, false_imp_iff, implies_true,
      and_self]
  · simp only [decimalValue, List.foldl_cons, List.foldl_nil, digit_spec]
    omega

/-- Headers are decoded by their grammar; the publication years are those of the records that the
key index can address; the key made for a call and a year is decoded with that year. -/
theorem hciHeaders_spec (file : HciFile) :
    (∀ (datOffset : ℕ) (rawBytes : Bytes),
      ((Hci.decodeHeaderKey datOffset rawBytes).isSome ↔ ∃ n, 1 ≤ n ∧
        ((Hci.decoded datOffset rawBytes).take 100)[n]? = some 0xb5 ∧
        ∀ b ∈ ((Hci.decoded datOffset rawBytes).take 100).take n, isPrintable b) ∧
      ∀ header, Hci.decodeHeaderKey datOffset rawBytes = some header ↔
        Hci.IsHeader ((Hci.decoded datOffset rawBytes).take 100) header) ∧
    (file.publicationYears.Pairwise (· < ·) ∧
      ∀ y, y ∈ file.publicationYears ↔ ∃ i raw header, i < 2 ^ 32 ∧ file.rawRecord i = some raw ∧
        Hci.decodeHeaderKey raw.datOffset raw.rawBytes = some header ∧ header.year = some y) ∧
    ∀ (call : Bytes) (year : ℕ), call.length ≤ 26 → (∀ b ∈ call, isPrintable b) → year ≤ 9999 →
      ∃ key, hciArchiveKey call year = some key ∧ Hci.keyYear key = some year ∧
        ∀ datOffset rawBytes, Hci.HasHeader datOffset rawBytes key →
          ∃ header, Hci.decodeHeaderKey datOffset rawBytes = some header ∧ header.key = key ∧
            header.year = some year := by
  refine ⟨fun datOffset rawBytes => ⟨?_, fun header =>
    Hci.decodeHeaderKey_eq_some_iff_isHeader⟩, file.publicationYears_spec, ?_⟩
  · rw [Option.isSome_iff_exists]
    simp only [Hci.decodeHeaderKey_eq_some_iff_isHeader, Hci.isHeader_iff]
    constructor
    · rintro ⟨header, n, hpos, hend, hprintable, -⟩
      exact ⟨n, hpos, hend, hprintable⟩
    · rintro ⟨n, hpos, hend, hprintable⟩
      exact ⟨_, n, hpos, hend, hprintable, rfl⟩
  · intro call year hlen hcall hyear
    obtain ⟨digits, hkey, hfour, hdigits, hvalue⟩ :=
      exists_hciArchiveKey (by omega : call.length ≤ 27) (by omega : year < 10000)
    have hkeyYear : Hci.keyYear (call ++ 0x3a :: digits) = some year :=
      Hci.keyYear_eq_some_iff.mpr ⟨call, digits, rfl, hfour, hdigits, hvalue.symm⟩
    have hprintable : ∀ b ∈ call ++ 0x3a :: digits, isPrintable b := by
      rw [List.forall_mem_append, List.forall_mem_cons]
      refine ⟨hcall, by decide, fun b hb => ?_⟩
      have hdigit := hdigits b hb
      grind [isAsciiDigit, isPrintable, isAsciiGraphic]
    refine ⟨_, hkey, hkeyYear, fun datOffset rawBytes hheader => ?_⟩
    exact ⟨_, Hci.decodeHeaderKey_eq_some_iff.mpr ⟨_, by simp, hprintable, hheader, rfl⟩, rfl,
      hkeyYear⟩

/-- An index of `n` empty records and an archive record behind them. -/
def farArchivePair (n : ℕ) : HciFile where
  indexMmap := (farPair n).indexMmap
  datMmap := HciFile.sampleRecord 0 (ascii "W1AW:1999") []
  keyIndex := (Hci.buildKeyIndex (farPair n).indexMmap
    (HciFile.sampleRecord 0 (ascii "W1AW:1999") [])).1
  publicationYears := (Hci.buildKeyIndex (farPair n).indexMmap
    (HciFile.sampleRecord 0 (ascii "W1AW:1999") [])).2
  whole := (farPair n).whole
  nonempty := (farPair n).nonempty
  built := rfl

section FarArchivePair

variable (n : ℕ)

lemma rawRecord_farArchivePair_of_lt {i : ℕ} (h : i < n) :
    (farArchivePair n).rawRecord i = some ⟨i, 0, 0, []⟩ := by
  have hi : (farArchivePair n).offset i = some 0 :=
    (offset_farPair n i).trans (if_pos (by omega))
  have hnext : (farArchivePair n).offset (i + 1) = some 0 :=
    (offset_farPair n (i + 1)).trans (if_pos (by omega))
  simp [HciFile.rawRecord, hi, hnext, Framing.slice]

lemma rawRecord_farArchivePair : (farArchivePair n).rawRecord n =
    some ⟨n, 0, (farArchivePair 0).datMmap.length, (farArchivePair 0).datMmap⟩ := by
  have hn : (farArchivePair n).offset n = some 0 :=
    (offset_farPair n n).trans (if_pos (by omega))
  have hnext : (farArchivePair n).offset (n + 1) = none :=
    (offset_farPair n (n + 1)).trans (if_neg (by omega))
  have hdat : (farArchivePair n).datMmap = (farArchivePair 0).datMmap := rfl
  simp [HciFile.rawRecord, hn, hnext, Framing.slice, hdat]

end FarArchivePair

/-- The year of the record of ordinal 2 ^ 32 is not collected. -/
theorem not_publicationYears_farArchivePair : ¬ ∀ (file : HciFile) (y : ℕ),
    y ∈ file.publicationYears ↔ ∃ i raw header, file.rawRecord i = some raw ∧
      Hci.decodeHeaderKey raw.datOffset raw.rawBytes = some header ∧ header.year = some y := by
  intro h
  have hyear : (Hci.decodeHeaderKey 0 (farArchivePair 0).datMmap).bind Hci.HciHeaderKey.year =
      some 1999 := by decide +kernel
  obtain ⟨header, hheader, hyear⟩ := Option.bind_eq_some_iff.mp hyear
  have hmem := (h (farArchivePair (2 ^ 32)) 1999).mpr
    ⟨2 ^ 32, _, header, rawRecord_farArchivePair (2 ^ 32), hheader, hyear⟩
  rw [(farArchivePair (2 ^ 32)).publicationYears_spec.2] at hmem
  obtain ⟨i, raw, header', hi, hraw, hheader', -⟩ := hmem
  rw [rawRecord_farArchivePair_of_lt (2 ^ 32) hi] at hraw
  cases hraw
  cases hheader'

end Callbook
