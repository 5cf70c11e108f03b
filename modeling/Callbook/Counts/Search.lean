import Callbook.Counts.Basic

/-!
# Lookups and iteration of the counts table

A lookup bisects the raw slots, so a slot that iteration skips still steers the search. Lookups find
what iteration shows exactly when no skipped slot on the way to a record steers away from it.
-/

namespace Callbook

open Text

namespace LookupCountFile

variable (file : LookupCountFile)

/-- How slot `m` steers the search for a key. -/
def steer (key : Str) (m : ℕ) : Ordering :=
  (file.decodedKey m).elim .lt (compare · key)

lemma lookupLoop_eq (key : Str) (fuel low high : ℕ) :
    file.lookupLoop key fuel low high =
      (Bisect.searchLoop (file.steer key) fuel low high).bind file.record := by
  induction fuel generalizing low high with
  | zero => rfl
  | succ fuel ih =>
    rw [lookupLoop, Bisect.searchLoop]
    split_ifs
    · simp only [steer]
      cases file.decodedKey (low + (high - low) / 2) with
      | none => exact ih _ _
      | some recordKey =>
        simp only [Option.elim_some]
        cases compare recordKey key with
        | lt => exact ih _ _
        | gt => exact ih _ _
        | eq => rfl
    · rfl

/-- A record has the key of its slot. -/
lemma decodedKey_of_record {m : ℕ} {r : LookupCountRecord} (h : file.record m = some r) :
    file.decodedKey m = some r.key := by
  rw [record, Option.bind_eq_bind, Option.bind_eq_some_iff] at h
  obtain ⟨slot, hslot, hparse⟩ := h
  simp only [parseCountRecord] at hparse
  split_ifs at hparse with hkey
  simp only [Option.bind_eq_bind, Option.bind_eq_some_iff] at hparse
  obtain ⟨count, -, hr⟩ := hparse
  cases hr
  simp [decodedKey, hslot, hkey]

lemma key_ne_nil_of_record {m : ℕ} {r : LookupCountRecord} (h : file.record m = some r) :
    r.key ≠ [] := by
  have hkey := file.decodedKey_of_record h
  simp only [decodedKey, Option.bind_eq_bind, Option.bind_eq_some_iff,
    Option.ite_none_left_eq_some] at hkey
  obtain ⟨_, -, hne, hk⟩ := hkey
  rw [Option.some.injEq] at hk
  rwa [hk] at hne

lemma steer_eq_eq_iff {key : Str} {m : ℕ} :
    file.steer key m = .eq ↔ file.decodedKey m = some key := by
  rw [steer]
  cases file.decodedKey m with
  | none => simp
  | some k => simp

/-- A record found by a lookup has the key that was searched. -/
lemma key_of_lookup {callsign : Str} {r : LookupCountRecord} (h : file.lookup callsign = some r) :
    r.key = lookupKey callsign := by
  simp only [lookup] at h
  split_ifs at h
  rw [lookupLoop_eq, Option.bind_eq_some_iff] at h
  obtain ⟨m, hm, hr⟩ := h
  have hsteer := (Bisect.searchLoop_eq_some hm).2.2
  rw [steer_eq_eq_iff, file.decodedKey_of_record hr, Option.some.injEq] at hsteer
  exact hsteer

end LookupCountFile

namespace LookupCounts

open LookupCountFile

variable (counts : LookupCounts)

/-- The keys that iteration shows are strictly increasing. -/
def Increasing : Prop := counts.iter.Pairwise fun a b => a.key < b.key

/-- The slots that the bisection towards slot `i` probes before it reaches it. -/
def probes (i : ℕ) : List ℕ :=
  Bisect.probes i counts.len counts.file.searchableRecordRange.1
    counts.file.searchableRecordRange.2

/-- A skipped slot `m` steers the search for `key` towards slot `i`: a blank one only forwards, one
with a key as that key compares. -/
def SkippedSteers (m i : ℕ) (key : Str) : Prop :=
  match counts.file.decodedKey m with
  | none => m < i
  | some skipped => (m < i → skipped < key) ∧ (i < m → key < skipped)

/-- Every skipped slot on the way to a record whose key is in normal form steers towards it. -/
def Steered : Prop :=
  ∀ i ∈ counts.slots, ∀ r, counts.file.record i = some r → lookupKey r.key = r.key →
    ∀ m ∈ counts.probes i, counts.file.record m = none → counts.SkippedSteers m i r.key

variable {counts}

lemma mem_slots {i : ℕ} : i ∈ counts.slots ↔
    counts.file.searchableRecordRange.1 ≤ i ∧ i < counts.file.searchableRecordRange.2 := by
  rw [slots, List.mem_range'_1, len]
  omega

lemma Increasing.key_lt (h : counts.Increasing) {i j : ℕ} (hi : i ∈ counts.slots)
    (hj : j ∈ counts.slots) (hij : i < j) {a b : LookupCountRecord}
    (ha : counts.file.record i = some a) (hb : counts.file.record j = some b) : a.key < b.key := by
  rw [Increasing, iter, List.pairwise_filterMap] at h
  rw [slots, List.mem_range'_1] at hi hj
  obtain ⟨di, rfl⟩ := Nat.exists_eq_add_of_le hi.1
  obtain ⟨dj, rfl⟩ := Nat.exists_eq_add_of_le hj.1
  have hget := List.pairwise_iff_getElem.mp h di dj (by simp [slots]; omega)
    (by simp [slots]; omega) (by omega)
  simp only [slots, List.getElem_range', Nat.one_mul] at hget
  exact hget a ha b hb

/-- A record is found exactly when every slot on the way to it steers towards it. -/
lemma lookup_eq_some_iff_steer (h : counts.Increasing) {i : ℕ} (hi : i ∈ counts.slots)
    {r : LookupCountRecord} (hr : counts.file.record i = some r)
    (hnormal : lookupKey r.key = r.key) :
    counts.lookup r.key = some r ↔ ∀ m ∈ counts.probes i,
      (m < i → counts.file.steer r.key m = .lt) ∧ (i < m → counts.file.steer r.key m = .gt) := by
  obtain ⟨hlow, hhigh⟩ := mem_slots.mp hi
  have heq : counts.file.steer r.key i = .eq :=
    (counts.file.steer_eq_eq_iff).mpr (counts.file.decodedKey_of_record hr)
  rw [probes, len, ← Bisect.searchLoop_eq_some_iff hlow hhigh le_rfl heq]
  simp only [lookup, LookupCountFile.lookup, hnormal, counts.file.key_ne_nil_of_record hr, if_false,
    lookupLoop_eq, Option.bind_eq_some_iff]
  constructor
  · rintro ⟨m, hm, hrm⟩
    have hbounds := Bisect.searchLoop_eq_some hm
    have hslot : m ∈ counts.slots := mem_slots.mpr ⟨hbounds.1, hbounds.2.1⟩
    rcases lt_trichotomy m i with hlt | rfl | hlt
    · exact absurd (h.key_lt hslot hi hlt hrm hr) (lt_irrefl _)
    · exact hm
    · exact absurd (h.key_lt hi hslot hlt hr hrm) (lt_irrefl _)
  · exact fun hm => ⟨i, hm, hr⟩

/-- A slot with a record steers as the order of the table says. -/
lemma steer_iff_of_probe (h : counts.Increasing) {i m : ℕ} (hi : i ∈ counts.slots)
    {r : LookupCountRecord} (hr : counts.file.record i = some r) (hm : m ∈ counts.probes i) :
    ((m < i → counts.file.steer r.key m = .lt) ∧ (i < m → counts.file.steer r.key m = .gt)) ↔
      (counts.file.record m = none → counts.SkippedSteers m i r.key) := by
  have hbounds := Bisect.mem_probes_bounds hm
  cases hrm : counts.file.record m with
  | some a =>
    have hslot : m ∈ counts.slots := mem_slots.mpr ⟨hbounds.1, hbounds.2.1⟩
    simp only [steer, counts.file.decodedKey_of_record hrm, Option.elim_some,
      ByteOrder.compare_eq_lt_iff, Std.OrientedCmp.gt_iff_lt, reduceCtorEq, false_imp_iff,
      iff_true]
    exact ⟨fun hlt => h.key_lt hslot hi hlt hrm hr, fun hlt => h.key_lt hi hslot hlt hr hrm⟩
  | none =>
    simp only [forall_const, SkippedSteers, steer]
    cases counts.file.decodedKey m with
    | none =>
      simp only [Option.elim_none, implies_true, true_and, reduceCtorEq, imp_false]
      omega
    | some skipped =>
      simp only [Option.elim_some, ByteOrder.compare_eq_lt_iff, Std.OrientedCmp.gt_iff_lt]

/-- What the counts table promises: every record that iteration shows under a key in normal form is
found, and what is found has the key that was asked for. -/
def FindsWhatIterShows (counts : LookupCounts) : Prop :=
  (counts.Increasing → ∀ r ∈ counts.iter, lookupKey r.key = r.key → counts.lookup r.key = some r) ∧
    ∀ callsign r, counts.lookup callsign = some r → r.key = lookupKey callsign

/-- Lookups find what iteration shows exactly when no skipped slot on the way steers away. -/
theorem findsWhatIterShows_iff (counts : LookupCounts) :
    counts.FindsWhatIterShows ↔ (counts.Increasing → counts.Steered) := by
  have hsecond : ∀ callsign r, counts.lookup callsign = some r → r.key = lookupKey callsign :=
    fun callsign r h => counts.file.key_of_lookup h
  rw [FindsWhatIterShows, and_iff_left hsecond]
  refine imp_congr_right fun h => ?_
  simp only [Steered, iter, List.mem_filterMap]
  constructor
  · intro hfound i hi r hr hnormal m hm
    have hlookup := hfound r ⟨i, hi, hr⟩ hnormal
    rw [lookup_eq_some_iff_steer h hi hr hnormal] at hlookup
    exact (steer_iff_of_probe h hi hr hm).mp (hlookup m hm)
  · rintro hsteered r ⟨i, hi, hr⟩ hnormal
    rw [lookup_eq_some_iff_steer h hi hr hnormal]
    exact fun m hm => (steer_iff_of_probe h hi hr hm).mpr (hsteered i hi r hr hnormal m hm)

/-- One record in front of two blank slots. -/
def sampleCounts : LookupCounts :=
  .open (Keystream.applyFrom decodeV2SidecarByte 0
    (ascii "K0AB                12         \r\n" ++ List.replicate 66 0x20))

/-- The bisection probes the blank slot behind the record and goes on forwards. -/
theorem not_findsWhatIterShows_sampleCounts : ¬ sampleCounts.FindsWhatIterShows := by
  rintro ⟨hfound, -⟩
  have hiter : sampleCounts.iter = [⟨ascii "K0AB", 12, none, none⟩] := by decide +kernel
  have hincreasing : sampleCounts.Increasing := by
    rw [Increasing, hiter]
    exact List.pairwise_singleton _ _
  have hlookup : sampleCounts.lookup (ascii "K0AB") = none := by decide +kernel
  have hnormal : lookupKey (ascii "K0AB") = ascii "K0AB" := by decide +kernel
  have := hfound hincreasing ⟨ascii "K0AB", 12, none, none⟩ (by simp [hiter]) hnormal
  rw [hlookup] at this
  cases this

end LookupCounts

end Callbook
