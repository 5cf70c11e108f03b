import Callbook.Hci.Index
import Callbook.Library.Panic
import Callbook.Library.Usize

/-!
# Ordinals

The byte position of an ordinal is found in machine arithmetic: the multiplication is checked, the
additions are not. The only ordinal whose position overflows is the last one whose product fits.
-/

namespace Callbook

namespace HciFile

open Hci

variable (file : HciFile)

/-! ### The machine's reading -/

/-- `HciFile::offset`, in machine arithmetic. -/
def offsetAt (index : ℕ) : Except Overflow (Option ℕ) :=
  match Usize.checkedMul index 4 with
  | none => .ok none
  | some start => do
    let stop ← Usize.add start 4
    if start ≤ stop ∧ stop ≤ file.indexMmap.length then
      .ok (some (u32FromBeBytes (Framing.slice file.indexMmap start stop)))
    else .ok none

/-- `HciFile::raw_record`, in machine arithmetic. -/
def rawRecordAt (index : ℕ) : Except Overflow (Option RawHciRecord) := do
  match ← file.offsetAt index with
  | none => .ok none
  | some start =>
    let next ← Usize.add index 1
    let «end» := (← file.offsetAt next).getD file.datMmap.length
    if file.datMmap.length < start ∨ file.datMmap.length < «end» ∨ «end» < start then .ok none
    else
      let rawBytes := Framing.slice file.datMmap start «end»
      .ok (some ⟨index, start, rawBytes.length, rawBytes⟩)

/-- What an ordinal may ask for: neither reading overflows, none yields anything from the number of
offsets on, and a record lies inside `hci.dat`. -/
structure OrdinalSafe (index : ℕ) : Prop where
  offset : ∃ found, file.offsetAt index = .ok found ∧ (file.len ≤ index → found = none)
  rawRecord : ∃ found, file.rawRecordAt index = .ok found ∧ (file.len ≤ index → found = none) ∧
    ∀ raw ∈ found, raw.datOffset + raw.rawLen ≤ file.datMmap.length ∧
      raw.rawBytes = Framing.slice file.datMmap raw.datOffset (raw.datOffset + raw.rawLen)

/-! ### The overflow -/

variable {file} {index : ℕ}

lemma offset_eq_none (h : file.len ≤ index) : file.offset index = none := by
  have hwhole := file.whole
  rw [len] at h
  exact if_neg (by omega)

/-- No position overflows but the one of the last ordinal whose product fits. -/
lemma offsetAt_eq (hne : index ≠ 2 ^ 62 - 1) (hmap : file.indexMmap.length < 2 ^ 63) :
    file.offsetAt index = .ok (file.offset index) := by
  rw [offsetAt, offset, Hci.offset]
  rcases lt_or_ge index (2 ^ 62) with hlt | hge
  · have hmul : index * 4 ≤ Usize.max := by
      rw [Usize.max]
      omega
    have hadd : index * 4 + 4 ≤ Usize.max := by
      rw [Usize.max]
      omega
    simp only [Usize.checkedMul_eq_some hmul, Usize.add_eq_ok hadd, Panic.ok_bind,
      Nat.le_add_right, true_and]
    split_ifs <;> rfl
  · have hmul : Usize.max < index * 4 := by
      rw [Usize.max]
      omega
    rw [Usize.checkedMul_eq_none hmul, if_neg (by omega)]

/-- The ordinal behind which no product fits: its position has no room for four bytes. -/
lemma offsetAt_eq_error (file : HciFile) : file.offsetAt (2 ^ 62 - 1) = .error .add := by
  rw [offsetAt, Usize.checkedMul_eq_some (by decide)]
  dsimp only
  rw [Usize.add_eq_error (by decide)]
  rfl

lemma rawRecordAt_eq (hne : index ≠ 2 ^ 62 - 1) (hmap : file.indexMmap.length < 2 ^ 63) :
    file.rawRecordAt index = .ok (file.rawRecord index) := by
  rw [rawRecordAt, offsetAt_eq hne hmap, rawRecord]
  cases hoffset : file.offset index with
  | none => rfl
  | some start =>
    -- an ordinal with an offset is far from the edge
    have hlt : index * 4 + 4 ≤ file.indexMmap.length := by
      by_contra hgt
      rw [offset, Hci.offset, if_neg hgt] at hoffset
      cases hoffset
    have hnext : index + 1 ≤ Usize.max := by
      rw [Usize.max]
      omega
    simp only [Panic.ok_bind, Usize.add_eq_ok hnext, offsetAt_eq (by omega : index + 1 ≠ 2 ^ 62 - 1)
      hmap, Option.bind_eq_bind, Option.bind_some]
    split_ifs <;> rfl

lemma rawRecord_inside {raw : RawHciRecord} (h : file.rawRecord index = some raw) :
    raw.datOffset + raw.rawLen ≤ file.datMmap.length ∧
      raw.rawBytes = Framing.slice file.datMmap raw.datOffset (raw.datOffset + raw.rawLen) := by
  simp only [rawRecord, Option.bind_eq_bind, Option.bind_eq_some_iff] at h
  obtain ⟨start, -, h⟩ := h
  split_ifs at h with hcut
  cases h
  generalize (file.offset (index + 1)).getD file.datMmap.length = stop at hcut
  have hlen : (Framing.slice file.datMmap start stop).length = stop - start := by
    rw [Framing.slice, List.length_take, List.length_drop]
    omega
  dsimp only
  rw [hlen, Nat.add_sub_cancel' (by omega)]
  exact ⟨by omega, rfl⟩

/-- The last ordinal whose product fits is the only one that overflows, and every other one is
answered as it should be. No mapping has more bytes than `isize::MAX`. -/
theorem ordinalSafe_iff (file : HciFile) (hmap : file.indexMmap.length < 2 ^ 63) (index : UInt64) :
    file.OrdinalSafe index.toNat ↔ index.toNat ≠ 2 ^ 62 - 1 := by
  constructor
  · rintro ⟨⟨found, hfound, -⟩, -⟩ heq
    rw [heq, offsetAt_eq_error] at hfound
    cases hfound
  · intro hne
    refine ⟨⟨_, offsetAt_eq hne hmap, offset_eq_none⟩, ⟨_, rawRecordAt_eq hne hmap, ?_, ?_⟩⟩
    · intro hle
      rw [rawRecord, offset_eq_none hle]
      rfl
    · exact fun raw hraw => rawRecord_inside hraw

theorem ordinalSafe_samplePair : samplePair.OrdinalSafe (0 : UInt64).toNat :=
  (ordinalSafe_iff samplePair (by decide +kernel) 0).mpr (by decide)

/-- No pair answers every ordinal. -/
theorem not_forall_ordinalSafe : ¬ ∀ (file : HciFile) (index : UInt64),
    file.indexMmap.length < 2 ^ 63 → file.OrdinalSafe index.toNat := by
  intro h
  obtain ⟨⟨found, hfound, -⟩, -⟩ := h samplePair (2 ^ 62 - 1) (by decide +kernel)
  have hindex : (2 ^ 62 - 1 : UInt64).toNat = 2 ^ 62 - 1 := by decide +kernel
  rw [hindex, offsetAt_eq_error] at hfound
  cases hfound

end HciFile

end Callbook
