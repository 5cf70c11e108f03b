import Callbook.Database.Records
import Callbook.Idx.Verify

/-!
# The slices of the IDX entries

The slice of an entry runs up to the offset of the next greater key, or to the end of the DAT file.
On a table whose keys and offsets increase, the slices stand one behind the other: none overlap,
and nothing is left out from the first offset on.
-/

namespace Callbook

open IdxText

/-! ### Slices of sorted entries -/

/-- Where the slice in front of `back` ends. -/
def sliceStop (dat : Bytes) (back : List TextEntry) : ℕ :=
  min ((back.head?.map TextEntry.datOffset).getD dat.length) dat.length

/-- The slices of entries, each up to the next entry. -/
def slicesOf (dat : Bytes) : List TextEntry → List RawV2Record
  | [] => []
  | e :: back =>
    if dat.length ≤ e.datOffset then slicesOf dat back
    else ⟨e.key, e.datOffset, sliceStop dat back - e.datOffset,
      Framing.slice dat e.datOffset (sliceStop dat back)⟩ :: slicesOf dat back

section Sorted

variable {dat : Bytes} {e : TextEntry} {back : List TextEntry}

lemma slicesOf_eq_nil (h : ∀ e ∈ back, dat.length ≤ e.datOffset) : slicesOf dat back = [] := by
  induction back with
  | nil => rfl
  | cons e back ih =>
    rw [List.forall_mem_cons] at h
    rw [slicesOf, if_pos h.1, ih h.2]

lemma le_sliceStop (h : (e :: back).Pairwise fun a b => a.datOffset < b.datOffset)
    (hlt : e.datOffset < dat.length) : e.datOffset ≤ sliceStop dat back := by
  cases back with
  | nil => simp [sliceStop, hlt.le]
  | cons f back =>
    have hef := (List.pairwise_cons.mp h).1 f List.mem_cons_self
    simp [sliceStop, hef.le, hlt.le]

/-- Behind an entry there is another slice, which starts where the one of the entry ends, or none,
and then that one ends with the file. -/
lemma slicesOf_cases (dat : Bytes) (h : back.Pairwise fun a b => a.datOffset < b.datOffset) :
    slicesOf dat back = [] ∧ sliceStop dat back = dat.length ∨
      ∃ raw slices, slicesOf dat back = raw :: slices ∧ raw.datOffset = sliceStop dat back ∧
        ∃ f ∈ back.head?, f.datOffset = sliceStop dat back := by
  cases back with
  | nil => exact .inl ⟨rfl, by simp [sliceStop]⟩
  | cons f back =>
    rcases le_or_gt dat.length f.datOffset with hle | hlt
    · left
      rw [List.pairwise_cons] at h
      have hall : ∀ g ∈ f :: back, dat.length ≤ g.datOffset := by
        rw [List.forall_mem_cons]
        exact ⟨hle, fun g hg => hle.trans (h.1 g hg).le⟩
      exact ⟨slicesOf_eq_nil hall, by simp [sliceStop, hle]⟩
    · right
      have hstop : f.datOffset = sliceStop dat (f :: back) := by simp [sliceStop, hlt.le]
      refine ⟨_, _, by rw [slicesOf, if_neg hlt.not_ge], hstop, f, rfl, hstop⟩

/-- Each slice ends where the next one starts, and the last one with the file. -/
lemma slicesOf_adjacent (dat : Bytes) (h : back.Pairwise fun a b => a.datOffset < b.datOffset) :
    (slicesOf dat back).IsChain (fun a b => a.datOffset + a.rawLen = b.datOffset) ∧
      ∀ raw ∈ (slicesOf dat back).getLast?, raw.datOffset + raw.rawLen = dat.length := by
  induction back with
  | nil => simp [slicesOf]
  | cons e back ih =>
    have hback := (List.pairwise_cons.mp h).2
    obtain ⟨hchain, hlast⟩ := ih hback
    rw [slicesOf]
    split_ifs with hle
    · exact ⟨hchain, hlast⟩
    · have hstop : e.datOffset + (sliceStop dat back - e.datOffset) = sliceStop dat back :=
        Nat.add_sub_cancel' (le_sliceStop h (not_le.mp hle))
      rcases slicesOf_cases dat hback with ⟨hnil, hend⟩ | ⟨raw, slices, hcons, hstart, -⟩
      · rw [hnil]
        refine ⟨List.isChain_singleton _, fun raw hraw => ?_⟩
        rw [List.getLast?_singleton, Option.mem_some_iff] at hraw
        rw [← hraw, hstop, hend]
      · rw [hcons] at hchain hlast ⊢
        refine ⟨List.isChain_cons_cons.mpr ⟨by rw [hstop, hstart], hchain⟩, fun raw' hraw => ?_⟩
        rw [List.getLast?_cons_cons] at hraw
        exact hlast raw' hraw

/-- The slices together are the file from the first offset on. -/
lemma flatMap_rawBytes_slicesOf (h : (e :: back).Pairwise fun a b => a.datOffset < b.datOffset) :
    (slicesOf dat (e :: back)).flatMap RawV2Record.rawBytes = dat.drop e.datOffset := by
  induction back generalizing e with
  | nil =>
    rw [slicesOf]
    split_ifs with hle
    · rw [slicesOf, List.flatMap_nil, List.drop_eq_nil_of_le hle]
    · simp [slicesOf, sliceStop, Framing.slice]
  | cons f back ih =>
    have hback := (List.pairwise_cons.mp h).2
    have hef := (List.pairwise_cons.mp h).1 f List.mem_cons_self
    rw [slicesOf]
    split_ifs with hle
    · rw [ih hback, List.drop_eq_nil_of_le hle, List.drop_eq_nil_of_le (hle.trans hef.le)]
    · rw [List.flatMap_cons, ih hback]
      rcases slicesOf_cases dat hback with ⟨hnil, hend⟩ | ⟨-, -, -, -, g, hg, hstop⟩
      · have hrest : dat.drop f.datOffset = [] := by
          rw [← ih hback, hnil, List.flatMap_nil]
        simp [hend, hrest, Framing.slice]
      · rw [List.head?_cons, Option.mem_some_iff] at hg
        subst hg
        rw [← hstop]
        exact Framing.slice_append_drop dat hef.le

end Sorted

/-! ### Slices of the table -/

namespace V2Shard

variable {shard : V2Shard}

/-- The keys and the offsets of the table increase. -/
structure SortedTable (idx : TextIdxFile) : Prop where
  keys : idx.table.Pairwise fun a b => a.key < b.key
  offsets : idx.table.Pairwise fun a b => a.datOffset < b.datOffset

lemma sortedTable_of_isClean {idx : TextIdxFile} (hclean : (verify idx).isClean)
    (hkeys : (idx.iter.map TextEntry.key).Nodup) : SortedTable idx := by
  obtain ⟨-, -, -, hle, hlt⟩ := (isClean_verify_iff idx).mp hclean
  have hne : idx.iter.Pairwise fun a b => a.key ≠ b.key := List.pairwise_map.mp hkeys
  refine ⟨List.Pairwise.sublist idx.table_sublist_iter ?_, hlt.sublist idx.table_sublist_iter⟩
  exact hle.imp₂ (fun a b hab hne => lt_of_le_of_ne hab hne) hne

/-- Behind a key of the table stands the entry that follows it. -/
lemma nextEntryAfterKey_of_table {idx : TextIdxFile} (h : SortedTable idx)
    {front back : List TextEntry} {e : TextEntry} (htable : idx.table = front ++ e :: back) :
    idx.nextEntryAfterKey e.key = back.head? := by
  have hsorted : idx.Sorted := h.keys.imp fun hlt => hlt.le
  have hkeys := h.keys
  rw [htable, List.pairwise_append, List.pairwise_cons] at hkeys
  obtain ⟨-, ⟨hback, -⟩, hfront⟩ := hkeys
  have hnone : (front.find? fun a => e.key < a.key) = none := by
    rw [List.find?_eq_none]
    intro a ha
    simpa using (hfront a ha e List.mem_cons_self).le
  rw [TextIdxFile.nextEntryAfterKey_eq hsorted, htable, List.find?_append, hnone, Option.none_or,
    List.find?_cons_of_neg (by simp)]
  cases back with
  | nil => rfl
  | cons f back => exact List.find?_cons_of_pos (by simpa using hback f List.mem_cons_self)

lemma rawRecordFor_of_table (h : SortedTable shard.idx) {front back : List TextEntry}
    {e : TextEntry} (htable : shard.idx.table = front ++ e :: back) :
    shard.rawRecordFor e = if shard.datMmap.length ≤ e.datOffset then none
      else some ⟨e.key, e.datOffset, sliceStop shard.datMmap back - e.datOffset,
        Framing.slice shard.datMmap e.datOffset (sliceStop shard.datMmap back)⟩ := by
  have hoffsets := h.offsets
  rw [htable, List.pairwise_append] at hoffsets
  simp only [rawRecordFor, nextEntryAfterKey_of_table h htable]
  rw [← sliceStop]
  split_ifs with hnone hle hle
  · rfl
  · -- the slice of an entry inside the file does not end before it starts
    have hstop := le_sliceStop hoffsets.2.1 (not_le.mp hle)
    omega
  · exact absurd (.inl hle) hnone
  · rfl

lemma filterMap_rawRecordFor (h : SortedTable shard.idx) {front back : List TextEntry}
    (htable : shard.idx.table = front ++ back) :
    back.filterMap shard.rawRecordFor = slicesOf shard.datMmap back := by
  induction back generalizing front with
  | nil => rfl
  | cons e back ih =>
    rw [List.filterMap_cons, rawRecordFor_of_table h htable, slicesOf,
      @ih (front ++ [e]) (by rw [htable, List.append_assoc, List.singleton_append])]
    split_ifs <;> rfl

/-- On a clean IDX file with distinct keys, the entries inside the DAT file have a slice each, and
the slices tile the file from the first offset on. -/
theorem rawRecordFor_tiles (shard : V2Shard) (hclean : (verify shard.idx).isClean)
    (hkeys : (shard.idx.iter.map TextEntry.key).Nodup) :
    (∀ e ∈ shard.idx.table,
      ((shard.rawRecordFor e).isSome ↔ e.datOffset < shard.datMmap.length) ∧
      ∀ raw ∈ shard.rawRecordFor e, raw.key = e.key ∧ raw.datOffset = e.datOffset ∧
        raw.rawBytes =
          Framing.slice shard.datMmap raw.datOffset (raw.datOffset + raw.rawLen)) ∧
    (shard.idx.table.filterMap shard.rawRecordFor).IsChain
      (fun a b => a.datOffset + a.rawLen = b.datOffset) ∧
    (∀ raw ∈ (shard.idx.table.filterMap shard.rawRecordFor).getLast?,
      raw.datOffset + raw.rawLen = shard.datMmap.length) ∧
    ∀ e ∈ shard.idx.table.head?,
      (shard.idx.table.filterMap shard.rawRecordFor).flatMap RawV2Record.rawBytes =
        shard.datMmap.drop e.datOffset := by
  have hsorted := sortedTable_of_isClean hclean hkeys
  have hslices := filterMap_rawRecordFor hsorted (List.nil_append shard.idx.table).symm
  obtain ⟨hchain, hlast⟩ := slicesOf_adjacent shard.datMmap hsorted.offsets
  refine ⟨fun e he => ?_, by rw [hslices]; exact hchain, by rw [hslices]; exact hlast, ?_⟩
  · obtain ⟨front, back, htable⟩ := List.append_of_mem he
    have hoffsets := hsorted.offsets
    rw [htable, List.pairwise_append] at hoffsets
    rw [rawRecordFor_of_table hsorted htable]
    split_ifs with hle
    · simp [hle]
    · refine ⟨iff_of_true rfl (not_le.mp hle), fun raw hraw => ?_⟩
      rw [Option.mem_some_iff] at hraw
      subst hraw
      have hstop := le_sliceStop hoffsets.2.1 (not_le.mp hle)
      exact ⟨rfl, rfl, by rw [Nat.add_sub_cancel' hstop]⟩
  · intro e he
    obtain ⟨back, htable⟩ := List.head?_eq_some_iff.mp he
    have hoffsets := hsorted.offsets
    rw [hslices]
    rw [htable] at hoffsets ⊢
    exact flatMap_rawBytes_slicesOf hoffsets

/-- Two entries inside the DAT file, and the sentinel behind its end. -/
def twoSlices : V2Shard :=
  { sampleShard (ascii "abcdefgh") with
    idx := ⟨ascii "K0A 1\r\nK1B 4\r\nZZ 13\r\n", [⟨0, 3, 0, 1⟩, ⟨7, 3, 7, 4⟩, ⟨14, 2, 14, 13⟩],
      [0], 3, 256, by decide +kernel⟩ }

theorem rawRecordFor_twoSlices :
    (twoSlices.idx.table.filterMap twoSlices.rawRecordFor).flatMap RawV2Record.rawBytes =
      twoSlices.datMmap.drop 1 := by
  refine (rawRecordFor_tiles twoSlices ?_ ?_).2.2.2 ⟨ascii "K0A", 1⟩ ?_
  · decide +kernel
  · decide +kernel
  · decide +kernel

end V2Shard

end Callbook
