import Callbook.Idx.Verify

/-!
# The searches of an IDX file

On a table whose keys are sorted, a search by bisection finds the row that a scan from the front
finds first, with the position of its line.
-/

namespace Callbook

open Text

namespace TextIdxFile

open IdxText

/-- The rows of the table, each with the position of its line. -/
def tableLines (file : TextIdxFile) : List (ℕ × TextEntry) := file.entryLines.filter Indexable

lemma tableLines_eq (file : TextIdxFile) :
    file.entries.map (fun entry => (entry.lineStart, file.textEntry entry)) = file.tableLines := by
  rw [entries_eq, List.map_filterMap, tableLines, entryLines, List.filter_filterMap]
  refine List.filterMap_congr fun l hl => ?_
  rw [file.map_parseIndexLine hl]
  cases parseLine l.2 with
  | none => rfl
  | some e =>
    rw [Option.map_some, Option.filter_some, Option.filter_some, Option.map_if]
    rfl

variable {file : TextIdxFile}

/-- The row at the first position whose key is not below `target`. -/
lemma bind_getElem?_findEntryIndexGe (h : file.Sorted) (target : Bytes) :
    (file.findEntryIndexGe target).bind (file.entries[·]?) =
      file.entries.find? fun entry => target ≤ file.entryKey entry := by
  have hget := Bisect.getElem?_partitionPoint h.entries
    (p := fun entry => decide (file.entryKey entry < target)) fun a b hab hb => by
      simpa using lt_of_le_of_lt hab (by simpa using hb)
  simp only [← decide_not, not_lt] at hget
  rw [findEntryIndexGe, ← hget]
  split_ifs with hlt
  · rfl
  · rw [List.getElem?_eq_none (by omega)]
    rfl

lemma findFirstKeyAtLeast_eq (h : file.Sorted) (target : Bytes) :
    file.findFirstKeyAtLeast target =
      (file.tableLines.find? fun l => target ≤ l.2.key).map Prod.fst := by
  have hscan := bind_getElem?_findEntryIndexGe h target
  rw [← tableLines_eq, List.find?_map, Option.map_map]
  have hrow : (fun l : ℕ × TextEntry => decide (target ≤ l.2.key)) ∘
      (fun entry => (entry.lineStart, file.textEntry entry)) =
        fun entry => decide (target ≤ file.entryKey entry) := rfl
  rw [hrow, ← hscan, findFirstKeyAtLeast]
  cases file.findEntryIndexGe target with
  | none => rfl
  | some index => cases h : file.entries[index]? <;> simp [h]

/-- The searches find what a scan of the table finds first. -/
theorem searches_eq_scan (file : TextIdxFile) (h : file.Sorted) (k : Bytes) :
    file.findExact k = (file.table.find? fun e => e.key = k) ∧
    file.nextEntryAfterKey k = (file.table.find? fun e => k < e.key) ∧
    file.findFirstKeyAtLeast k =
      (file.tableLines.find? fun l => k ≤ l.2.key).map Prod.fst ∧
    file.tableLines.map Prod.snd = file.table :=
  ⟨findExact_eq h k, nextEntryAfterKey_eq h k, findFirstKeyAtLeast_eq h k,
    file.table_eq_entryLines.symm⟩

/-- Three lines, the last two with one key. -/
def threeLineFile : TextIdxFile :=
  ⟨ascii "K0A 1\r\nK1B 4\r\nK1B 9\r\n", [⟨0, 3, 0, 1⟩, ⟨7, 3, 7, 4⟩, ⟨14, 3, 14, 9⟩],
    [0], 3, 256, by decide +kernel⟩

theorem searches_threeLineFile :
    threeLineFile.findFirstKeyAtLeast (ascii "K0B") =
      (threeLineFile.tableLines.find? fun l => ascii "K0B" ≤ l.2.key).map Prod.fst := by
  have hsorted : threeLineFile.Sorted := by
    unfold Sorted
    decide +kernel
  exact (searches_eq_scan threeLineFile hsorted _).2.2.1

end TextIdxFile

end Callbook
