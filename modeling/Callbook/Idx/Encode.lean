import Callbook.Idx.Lines

/-!
# Writing an IDX file

A line is written as the key, spaces, the decimal offset and trailing spaces. The table of a
written file has the written entries, as far as their lines start within 4 GiB.
-/

namespace Callbook

open Text

namespace IdxText

/-! ### Lines -/

/-- One line: the key, `gap + 1` spaces, the offset and `trail` spaces. -/
def idxLine (e : TextEntry) (gap trail : ℕ) : Bytes :=
  e.key ++ List.replicate (gap + 1) 0x20 ++ decimal e.datOffset ++ List.replicate trail 0x20

/-- Keys and offsets that can be written. -/
structure Writable (e : TextEntry) : Prop where
  key_ne : e.key ≠ []
  key_length : e.key.length < 2 ^ 16
  key_chars : ∀ b ∈ e.key, isPrintable b ∧ b ≠ 0x20
  datOffset : e.datOffset ≤ u64Max

/-- Keys and offsets that a line can hold; a key may have spaces inside. -/
structure Printed (e : TextEntry) : Prop where
  key_ne : e.key ≠ []
  key_chars : ∀ b ∈ e.key, isPrintable b
  key_last : e.key.getLast? ≠ some 0x20
  datOffset : e.datOffset ≤ u64Max

lemma Writable.printed {e : TextEntry} (h : Writable e) : Printed e where
  key_ne := h.key_ne
  key_chars b hb := (h.key_chars b hb).1
  key_last hlast := (h.key_chars _ (List.mem_of_getLast? hlast)).2 rfl
  datOffset := h.datOffset

/-- A written line has the form that the readers expect. -/
lemma Printed.isLine {e : TextEntry} (h : Printed e) (gap trail : ℕ) :
    IsLine (idxLine e gap trail) e where
  key_ne := h.key_ne
  key_last := h.key_last
  datOffset_le := h.datOffset
  parts := ⟨gap, decimal e.datOffset, trail, decimal_ne_nil _, isAsciiDigit_of_mem_decimal,
    (parseDigits_eq_some_iff.mp (parseDigits_decimal h.datOffset)).2.1, rfl⟩

/-- Reading a line undoes writing it. -/
lemma parseLine_idxLine {e : TextEntry} (h : Printed e) (gap trail : ℕ) :
    parseLine (idxLine e gap trail) = some e :=
  parseLine_eq_some_iff.mpr (h.isLine gap trail)

lemma Printed.cr_notMem {e : TextEntry} (h : Printed e) (gap trail : ℕ) :
    0x0d ∉ idxLine e gap trail := by
  intro hmem
  simp only [idxLine, List.mem_append, List.mem_replicate] at hmem
  rcases hmem with ((hmem | ⟨-, hmem⟩) | hmem) | ⟨-, hmem⟩
  · have hprint := h.key_chars _ hmem
    revert hprint
    decide
  · revert hmem
    decide
  · have hdigit := isAsciiDigit_of_mem_decimal _ hmem
    revert hdigit
    decide
  · revert hmem
    decide

lemma Printed.not_crlf_infix_idxLine {e : TextEntry} (h : Printed e) (gap trail : ℕ) :
    ¬ crlf <:+: idxLine e gap trail := by
  intro hin
  exact h.cr_notMem gap trail (hin.subset List.mem_cons_self)

/-! ### Files -/

/-- A file of the lines of the entries. -/
def idxText (gap trail : TextEntry → ℕ) (entries : List TextEntry) : Bytes :=
  entries.flatMap fun e => idxLine e (gap e) (trail e) ++ crlf

/-- The lines with their positions. -/
def placedLines (gap trail : TextEntry → ℕ) : ℕ → List TextEntry → List (ℕ × TextEntry)
  | _, [] => []
  | pos, e :: entries =>
    (pos, e) :: placedLines gap trail (pos + (idxLine e (gap e) (trail e)).length + 2) entries

variable {gap trail : TextEntry → ℕ} {entries : List TextEntry}

@[simp] lemma map_snd_placedLines (pos : ℕ) :
    (placedLines gap trail pos entries).map Prod.snd = entries := by
  induction entries generalizing pos with
  | nil => rfl
  | cons e entries ih => rw [placedLines, List.map_cons, ih]

lemma idxText_eq_joinLines :
    idxText gap trail entries = joinLines (entries.map fun e => idxLine e (gap e) (trail e)) := by
  rw [joinLines, List.flatMap_map]
  rfl

lemma not_crlf_infix_of_mem (h : ∀ e ∈ entries, Printed e) :
    ∀ line ∈ entries.map fun e => idxLine e (gap e) (trail e), ¬ crlf <:+: line := by
  intro line hline
  obtain ⟨e, he, rfl⟩ := List.mem_map.mp hline
  exact (h e he).not_crlf_infix_idxLine _ _

lemma placeLines_eq (pos : ℕ) :
    placeLines pos (entries.map fun e => idxLine e (gap e) (trail e)) =
      (placedLines gap trail pos entries).map fun l =>
        (l.1, idxLine l.2 (gap l.2) (trail l.2)) := by
  induction entries generalizing pos with
  | nil => rfl
  | cons e entries ih => rw [List.map_cons, placeLines, placedLines, List.map_cons, ih]

lemma not_crlf_infix_nil : ¬ crlf <:+: [] := by
  simp [crlf]

lemma length_le_length_idxText : entries.length ≤ (idxText gap trail entries).length := by
  rw [idxText_eq_joinLines]
  exact (List.length_map _).symm.le.trans (length_le_length_joinLines _)

/-- The lines of a written file are those that were written. -/
lemma crlfLines_idxText (h : ∀ e ∈ entries, Printed e) (fuel pos : ℕ)
    (hfuel : entries.length ≤ fuel) : crlfLines fuel pos (idxText gap trail entries) =
      (placedLines gap trail pos entries).map fun l =>
        (l.1, idxLine l.2 (gap l.2) (trail l.2)) := by
  rw [← placeLines_eq, idxText_eq_joinLines, ← List.append_nil (joinLines _)]
  apply crlfLines_joinLines (not_crlf_infix_of_mem h) not_crlf_infix_nil
  rwa [List.length_map]

lemma length_crlfLines_idxText (h : ∀ e ∈ entries, Printed e) (pos : ℕ) :
    (crlfLines (idxText gap trail entries).length pos (idxText gap trail entries)).length =
      entries.length := by
  rw [crlfLines_idxText h _ _ length_le_length_idxText, List.length_map,
    ← List.length_map (f := Prod.snd), map_snd_placedLines]

lemma lt_of_mem_placedLines {pos : ℕ} {l : ℕ × TextEntry}
    (h : l ∈ placedLines gap trail pos entries) :
    l.1 < pos + (idxText gap trail entries).length := by
  induction entries generalizing pos with
  | nil => simp [placedLines] at h
  | cons e entries ih =>
    rw [placedLines, List.mem_cons] at h
    rw [idxText, List.flatMap_cons, ← idxText, List.length_append, List.length_append]
    rcases h with rfl | h
    · simp [crlf]
    · have hlt := ih h
      have hcrlf : crlf.length = 2 := rfl
      omega

end IdxText

namespace TextIdxFile

open IdxText

variable {gap trail : TextEntry → ℕ} {entries : List TextEntry}

/-- The table of a written file has the entries whose lines start within 4 GiB. -/
lemma table_idxText {file : TextIdxFile} (hfile : file.mmap = idxText gap trail entries)
    (h : ∀ e ∈ entries, Writable e) :
    file.table = ((placedLines gap trail 0 entries).filter fun l => l.1 < 2 ^ 32).map Prod.snd := by
  have hlines : file.fileLines = (placedLines gap trail 0 entries).map fun l =>
      (l.1, idxLine l.2 (gap l.2) (trail l.2)) := by
    rw [fileLines, hfile]
    exact crlfLines_idxText (fun e he => (h e he).printed) _ _ length_le_length_idxText
  rw [table_eq, hlines, List.filterMap_map, ← List.filterMap_eq_map, List.filterMap_filter]
  refine List.filterMap_congr fun l hl => ?_
  have hwritable : Writable l.2 := by
    refine h l.2 ?_
    have hmem := List.mem_map_of_mem (f := Prod.snd) hl
    rwa [map_snd_placedLines] at hmem
  have hkey := hwritable.key_length
  simp only [Function.comp_apply, parseLine_idxLine hwritable.printed, Option.filter_some, hkey,
    decide_true, Bool.and_true]

/-- The table of a file within 4 GiB has the written entries. -/
theorem table_of_length_le {file : TextIdxFile} (hfile : file.mmap = idxText gap trail entries)
    (h : ∀ e ∈ entries, Writable e) (hlen : (idxText gap trail entries).length ≤ 2 ^ 32) :
    file.table = entries := by
  rw [table_idxText hfile h, List.filter_eq_self.mpr fun l hl => ?_, map_snd_placedLines]
  have hlt := lt_of_mem_placedLines hl
  simp only [decide_eq_true_eq]
  omega

lemma exists_open_of_indexed (hne : entries ≠ []) (h : ∀ e ∈ entries, Writable e)
    (hbuild : ∃ build, buildLoop (idxText gap trail entries) defaultDirectoryStride
      (idxText gap trail entries).length 0 ⟨[], 0, []⟩ = .ok build) :
    ∃ file, TextIdxFile.open (idxText gap trail entries) = .ok file ∧
      file.mmap = idxText gap trail entries := by
  have hlines : idxText gap trail entries =
      joinLines (entries.map fun e => idxLine e (gap e) (trail e)) ++ [] := by
    rw [List.append_nil, idxText_eq_joinLines]
  apply exists_open_of_buildLoop (by decide) hlines _ _ not_crlf_infix_nil hbuild
  · rwa [ne_eq, List.map_eq_nil_iff]
  · exact not_crlf_infix_of_mem fun e he => (h e he).printed

/-- A written file within 4 GiB opens. -/
theorem exists_open_of_length_le (hne : entries ≠ []) (h : ∀ e ∈ entries, Writable e)
    (hlen : (idxText gap trail entries).length ≤ 2 ^ 32) :
    ∃ file, TextIdxFile.open (idxText gap trail entries) = .ok file ∧
      file.mmap = idxText gap trail entries :=
  exists_open_of_indexed hne h (exists_buildLoop_eq_ok hlen _ _ _ _)

/-- A written file of few lines opens, whatever its size. -/
theorem exists_open_of_few (hne : entries ≠ []) (h : ∀ e ∈ entries, Writable e)
    (hfew : entries.length < defaultDirectoryStride) :
    ∃ file, TextIdxFile.open (idxText gap trail entries) = .ok file ∧
      file.mmap = idxText gap trail entries := by
  apply exists_open_of_indexed hne h
  apply exists_buildLoop_eq_ok_of_few
  · intro _
    decide
  · rwa [List.drop_zero, length_crlfLines_idxText fun e he => (h e he).printed, Nat.zero_add]

end TextIdxFile

/-! ### Round trip -/

namespace IdxText

/-- A line to write, with its own spaces. -/
structure Row where
  entry : TextEntry
  gap : ℕ
  trail : ℕ

def Row.line (row : Row) : Bytes := idxLine row.entry row.gap row.trail

/-- A file of the lines of the rows. -/
def rowsText (rows : List Row) : Bytes := joinLines (rows.map Row.line)

variable {rows : List Row}

lemma not_crlf_infix_of_mem_rows (h : ∀ row ∈ rows, Printed row.entry) :
    ∀ line ∈ rows.map Row.line, ¬ crlf <:+: line := by
  intro line hline
  obtain ⟨row, hrow, rfl⟩ := List.mem_map.mp hline
  exact (h row hrow).not_crlf_infix_idxLine _ _

lemma fileLines_rowsText {file : TextIdxFile} (hfile : file.mmap = rowsText rows)
    (h : ∀ row ∈ rows, Printed row.entry) :
    file.fileLines = placeLines 0 (rows.map Row.line) := by
  apply TextIdxFile.fileLines_eq _ (not_crlf_infix_of_mem_rows h) not_crlf_infix_nil
  rw [hfile, rowsText, List.append_nil]

/-- Iterating over a written file yields what was written. -/
lemma iter_rowsText {file : TextIdxFile} (hfile : file.mmap = rowsText rows)
    (h : ∀ row ∈ rows, Printed row.entry) : file.iter = rows.map Row.entry := by
  have hlines : file.mmap = joinLines (rows.map Row.line) ++ [] := by
    rw [hfile, rowsText, List.append_nil]
  rw [TextIdxFile.iter_eq hlines (not_crlf_infix_of_mem_rows h) not_crlf_infix_nil,
    List.filterMap_map, ← List.filterMap_eq_map]
  apply List.filterMap_congr
  intro row hrow
  exact parseLine_idxLine (h row hrow) _ _

/-- A written file within 4 GiB opens. -/
lemma exists_open_rowsText (hne : rows ≠ []) (h : ∀ row ∈ rows, Printed row.entry)
    (hlen : (rowsText rows).length < 2 ^ 32) :
    ∃ file, TextIdxFile.open (rowsText rows) = .ok file ∧ file.mmap = rowsText rows := by
  have hlines : rowsText rows = joinLines (rows.map Row.line) ++ [] := by
    rw [rowsText, List.append_nil]
  apply TextIdxFile.exists_open_of_buildLoop (by decide) hlines _
    (not_crlf_infix_of_mem_rows h) not_crlf_infix_nil (exists_buildLoop_eq_ok hlen.le _ _ _ _)
  rwa [ne_eq, List.map_eq_nil_iff]

/-- Opening a written file within 4 GiB and iterating over it yields what was written. -/
theorem iter_open_rowsText (hne : rows ≠ []) (h : ∀ row ∈ rows, Printed row.entry)
    (hlen : (rowsText rows).length < 2 ^ 32) :
    ∃ file, TextIdxFile.open (rowsText rows) = .ok file ∧
      file.iter = rows.map Row.entry ∧ file.len = rows.length := by
  obtain ⟨file, hopen, hfile⟩ := exists_open_rowsText hne h hlen
  refine ⟨file, hopen, iter_rowsText hfile h, ?_⟩
  rw [TextIdxFile.len, TextIdxFile.lineCount_eq, fileLines_rowsText hfile h,
    ← List.length_map (f := Prod.snd), map_snd_placeLines, List.length_map]

/-- A key with a space and digits inside, and one that ends in digits. -/
def sampleRows : List Row := [⟨⟨ascii "A 12", 7⟩, 0, 0⟩, ⟨⟨ascii "B:2015", 90⟩, 3, 1⟩]

theorem iter_open_sampleRows :
    ∃ file, TextIdxFile.open (rowsText sampleRows) = .ok file ∧
      file.iter = sampleRows.map Row.entry ∧ file.len = sampleRows.length := by
  have hrows : ∀ row ∈ sampleRows, Printed row.entry := by
    rw [sampleRows, List.forall_mem_cons, List.forall_mem_singleton]
    constructor
    · exact ⟨by decide, by decide +kernel, by decide, by decide⟩
    · exact ⟨by decide, by decide +kernel, by decide, by decide⟩
  exact iter_open_rowsText (by decide) hrows (by decide +kernel)

end IdxText

end Callbook
