import Callbook.Idx.Basic

/-!
# Properties of the IDX table

The table has the entries of the lines that fit it, in file order. On a table whose keys are sorted
the searches return what a linear scan would.
-/

namespace Callbook

open Text

namespace IdxText

/-! ### Lines -/

/-- The lines that end with CR LF, with their positions. -/
def crlfLines : ℕ → ℕ → Bytes → List (ℕ × Bytes)
  | 0, _, _ => []
  | fuel + 1, pos, rest =>
    if rest = [] then []
    else
      match findText crlf rest with
      | none => []
      | some lineEnd =>
        (pos, rest.take lineEnd) :: crlfLines fuel (pos + lineEnd + 2) (rest.drop (lineEnd + 2))

lemma iterFrom_eq (fuel pos : ℕ) (rest : Bytes) :
    TextIdxFile.iterFrom fuel rest = (crlfLines fuel pos rest).filterMap (parseLine ·.2) := by
  induction fuel generalizing pos rest with
  | zero => rfl
  | succ fuel ih =>
    rw [TextIdxFile.iterFrom, crlfLines]
    split_ifs
    · rfl
    · cases findText crlf rest with
      | none => rfl
      | some lineEnd =>
        simp only [ih (pos + lineEnd + 2), List.filterMap_cons]
        cases parseLine (rest.take lineEnd) <;> rfl

lemma anchor_eq_ok {stride pos : ℕ} {build build' : Build}
    (h : build.anchor stride pos = .ok build') :
    build'.lineCount = build.lineCount ∧ build'.entries = build.entries := by
  unfold Build.anchor at h
  split_ifs at h <;> cases h <;> exact ⟨rfl, rfl⟩

lemma exists_anchor_eq_ok (stride : ℕ) {pos : ℕ} (hpos : pos < 2 ^ 32) (build : Build) :
    ∃ build', build.anchor stride pos = .ok build' := by
  unfold Build.anchor
  split_ifs
  · exact ⟨_, rfl⟩
  · exact ⟨_, rfl⟩

/-- The loop adds the lines from its position on. -/
lemma buildLoop_eq_ok {mmap : Bytes} {stride fuel pos : ℕ} {build build' : Build}
    (h : buildLoop mmap stride fuel pos build = .ok build') :
    build'.lineCount = build.lineCount + (crlfLines fuel pos (mmap.drop pos)).length ∧
      build'.entries = build.entries ++
        (crlfLines fuel pos (mmap.drop pos)).filterMap fun l => parseIndexLine l.1 l.2 := by
  induction fuel generalizing pos build with
  | zero =>
    cases h
    simp [crlfLines]
  | succ fuel ih =>
    rw [buildLoop] at h
    split_ifs at h with hlt
    · rw [Panic.bind_eq_ok_iff] at h
      obtain ⟨anchored, hanchor, h⟩ := h
      obtain ⟨hcount, hentries⟩ := anchor_eq_ok hanchor
      have hne : mmap.drop pos ≠ [] := by simpa using hlt
      rw [crlfLines, if_neg hne]
      cases hend : findText crlf (mmap.drop pos) with
      | none =>
        simp only [hend, pure, Except.pure] at h
        cases h
        simp [hcount, hentries]
      | some lineEnd =>
        simp only [hend] at h
        obtain ⟨hcount', hentries'⟩ := ih h
        have hdrop : (mmap.drop pos).drop (lineEnd + 2) = mmap.drop (pos + lineEnd + 2) := by
          rw [List.drop_drop, Nat.add_assoc]
        refine ⟨?_, ?_⟩
        · simp only [hcount', Build.line, hdrop, List.length_cons, hcount]
          omega
        · simp only [hentries', Build.line, hdrop, List.filterMap_cons, hentries]
          cases parseIndexLine pos ((mmap.drop pos).take lineEnd) <;> simp
    · cases h
      have hnil : mmap.drop pos = [] := List.drop_eq_nil_of_le (by omega)
      simp [crlfLines, hnil]

/-- A file within 4 GiB is indexed to its end. -/
lemma exists_buildLoop_eq_ok {mmap : Bytes} (hlen : mmap.length ≤ 2 ^ 32) (stride fuel pos : ℕ)
    (build : Build) : ∃ build', buildLoop mmap stride fuel pos build = .ok build' := by
  induction fuel generalizing pos build with
  | zero => exact ⟨build, rfl⟩
  | succ fuel ih =>
    rw [buildLoop]
    split_ifs with hlt
    · obtain ⟨anchored, hanchor⟩ := exists_anchor_eq_ok stride (by omega : pos < 2 ^ 32) build
      simp only [hanchor]
      cases findText crlf (mmap.drop pos) with
      | none => exact ⟨anchored, rfl⟩
      | some lineEnd => exact ih _ _
    · exact ⟨build, rfl⟩

/-- A file with fewer lines than the directory skips is indexed to its end, whatever its size. -/
lemma exists_buildLoop_eq_ok_of_few {mmap : Bytes} {stride fuel pos : ℕ} {build : Build}
    (hfirst : build.lineCount = 0 → pos < 2 ^ 32)
    (hfew : build.lineCount + (crlfLines fuel pos (mmap.drop pos)).length < stride) :
    ∃ build', buildLoop mmap stride fuel pos build = .ok build' := by
  induction fuel generalizing pos build with
  | zero => exact ⟨build, rfl⟩
  | succ fuel ih =>
    rw [buildLoop]
    split_ifs with hlt
    · obtain ⟨anchored, hanchor⟩ : ∃ anchored, build.anchor stride pos = .ok anchored := by
        by_cases hzero : build.lineCount = 0
        · exact exists_anchor_eq_ok stride (hfirst hzero) build
        · refine ⟨build, ?_⟩
          rw [Build.anchor, Nat.mod_eq_of_lt (by omega), if_neg hzero]
      have hcount := (anchor_eq_ok hanchor).1
      have hne : mmap.drop pos ≠ [] := by simpa using hlt
      rw [crlfLines, if_neg hne] at hfew
      simp only [hanchor]
      cases hend : findText crlf (mmap.drop pos) with
      | none => exact ⟨anchored, rfl⟩
      | some lineEnd =>
        have hdrop : (mmap.drop pos).drop (lineEnd + 2) = mmap.drop (pos + lineEnd + 2) := by
          rw [List.drop_drop, Nat.add_assoc]
        simp only [hend, List.length_cons, hdrop] at hfew
        apply ih
        · intro hzero
          simp [Build.line] at hzero
        · simp only [Build.line, hcount]
          omega
    · exact ⟨build, rfl⟩

/-! ### Entries of one line -/

/-- What splitting a line finds: the key in front, then spaces, digits and trailing spaces. -/
lemma splitLine_eq_some {line key digits : Bytes} (h : splitLine line = some (key, digits)) :
    key <+: line ∧ digits ≠ [] ∧ ∀ b ∈ digits, isAsciiDigit b := by
  simp only [splitLine] at h
  split_ifs at h with hsplit hkey
  cases h
  rw [not_or] at hsplit
  refine ⟨?_, hsplit.1, fun b hb => List.mem_rtakeWhile_imp hb⟩
  exact (List.rdropWhile_prefix _ _).trans
    ((List.rdropWhile_prefix _ _).trans (List.rdropWhile_prefix _ _))

lemma parseUnsigned_digits {digits : Bytes} (hne : digits ≠ []) (h : ∀ b ∈ digits, isAsciiDigit b)
    (max : ℕ) : parseUnsigned max digits = parseDigits max digits := by
  refine parseUnsigned_eq_parseDigits hne fun b hb => ?_
  have := h b (List.mem_of_mem_head? hb)
  grind [isAsciiDigit]

/-- A line that fits the table has the same entry in both readers. -/
lemma parseIndexLine_eq_some_iff {lineStart : ℕ} {line : Bytes} {entry : TextIndexEntry} :
    parseIndexLine lineStart line = some entry ↔ ∃ e, parseLine line = some e ∧
      lineStart < 2 ^ 32 ∧ e.key.length < 2 ^ 16 ∧
      entry = ⟨lineStart, e.key.length, lineStart, e.datOffset⟩ := by
  simp only [parseIndexLine, parseLine, Option.bind_eq_bind, Option.bind_eq_some_iff,
    Option.ite_none_right_eq_some, Option.some.injEq]
  constructor
  · rintro ⟨⟨key, digits⟩, hsplit, offset, hoffset, ⟨hstart, hkey⟩, rfl⟩
    obtain ⟨-, hne, hdigits⟩ := splitLine_eq_some hsplit
    refine ⟨⟨key, offset⟩, ⟨_, hsplit, offset, ?_, rfl⟩, hstart, hkey, rfl⟩
    rwa [parseUnsigned_digits hne hdigits]
  · rintro ⟨_, ⟨⟨key, digits⟩, hsplit, offset, hoffset, rfl⟩, hstart, hkey, rfl⟩
    obtain ⟨-, hne, hdigits⟩ := splitLine_eq_some hsplit
    rw [parseUnsigned_digits hne hdigits] at hoffset
    exact ⟨_, hsplit, offset, hoffset, ⟨hstart, hkey⟩, rfl⟩

lemma key_prefix_of_parseLine {line : Bytes} {e : TextEntry} (h : parseLine line = some e) :
    e.key <+: line := by
  simp only [parseLine, Option.bind_eq_bind, Option.bind_eq_some_iff] at h
  obtain ⟨⟨key, digits⟩, hsplit, offset, -, h⟩ := h
  cases h
  exact (splitLine_eq_some hsplit).1

/-- A line stands in the file at its position. -/
lemma prefix_of_mem_crlfLines {fuel pos : ℕ} {mmap : Bytes} {l : ℕ × Bytes}
    (h : l ∈ crlfLines fuel pos (mmap.drop pos)) : l.2 <+: mmap.drop l.1 := by
  induction fuel generalizing pos with
  | zero => simp [crlfLines] at h
  | succ fuel ih =>
    rw [crlfLines] at h
    split_ifs at h
    · simp at h
    · cases hend : findText crlf (mmap.drop pos) with
      | none => simp [hend] at h
      | some lineEnd =>
        simp only [hend, List.mem_cons] at h
        rcases h with rfl | h
        · exact List.take_prefix _ _
        · rw [List.drop_drop, ← Nat.add_assoc] at h
          exact ih h

end IdxText

namespace TextIdxFile

open IdxText

variable (file : TextIdxFile)

/-- The table in the form of entries. -/
def table : List TextEntry := file.entries.map file.textEntry

/-- The lines of the file. -/
def fileLines : List (ℕ × Bytes) := crlfLines file.mmap.length 0 file.mmap

lemma entries_eq : file.entries =
    file.fileLines.filterMap fun l => parseIndexLine l.1 l.2 := by
  have h := file.built
  rw [buildIndex, Panic.bind_eq_ok_iff] at h
  obtain ⟨build, hloop, h⟩ := h
  split_ifs at h
  cases h
  simpa [fileLines] using (buildLoop_eq_ok hloop).2

lemma textEntry_eq {l : ℕ × Bytes} (hl : l ∈ file.fileLines) {entry : TextIndexEntry}
    {e : TextEntry} (h : parseIndexLine l.1 l.2 = some entry) (he : parseLine l.2 = some e) :
    file.textEntry entry = e := by
  obtain ⟨e', he', -, -, rfl⟩ := parseIndexLine_eq_some_iff.mp h
  rw [he, Option.some.injEq] at he'
  subst he'
  have hprefix : e.key <+: file.mmap.drop l.1 := by
    rw [fileLines, ← List.drop_zero (l := file.mmap), List.length_drop] at hl
    exact (key_prefix_of_parseLine he).trans (prefix_of_mem_crlfLines hl)
  simp only [textEntry, entryKey, Framing.slice, Nat.add_sub_cancel_left]
  rw [← List.prefix_iff_eq_take.mp hprefix]

/-- The row of a line, with its position: the entry of the line when it fits the table. -/
lemma map_parseIndexLine {l : ℕ × Bytes} (hl : l ∈ file.fileLines) :
    (parseIndexLine l.1 l.2).map (fun entry => (entry.lineStart, file.textEntry entry)) =
      ((parseLine l.2).filter fun e => l.1 < 2 ^ 32 && e.key.length < 2 ^ 16).map (l.1, ·) := by
  cases hentry : parseIndexLine l.1 l.2 with
  | some entry =>
    obtain ⟨e, he, hstart, hkey, rfl⟩ := parseIndexLine_eq_some_iff.mp hentry
    have hfits : decide (l.1 < 2 ^ 32) && decide (e.key.length < 2 ^ 16) := by
      simpa using ⟨hstart, hkey⟩
    rw [Option.map_some, he, Option.filter_some, if_pos hfits, Option.map_some,
      file.textEntry_eq hl hentry he]
  | none =>
    cases he : parseLine l.2 with
    | none => rfl
    | some e =>
      have hfits : ¬ (decide (l.1 < 2 ^ 32) && decide (e.key.length < 2 ^ 16)) := by
        rw [Bool.and_eq_true, decide_eq_true_eq, decide_eq_true_eq]
        rintro ⟨hstart, hkey⟩
        have hsome := parseIndexLine_eq_some_iff.mpr ⟨e, he, hstart, hkey, rfl⟩
        rw [hentry] at hsome
        cases hsome
      rw [Option.map_none, Option.filter_some, if_neg hfits, Option.map_none]

/-- The table holds the entries of the lines that fit it. -/
lemma table_eq : file.table = file.fileLines.filterMap fun l =>
    (parseLine l.2).filter fun e => l.1 < 2 ^ 32 && e.key.length < 2 ^ 16 := by
  rw [table, entries_eq, List.map_filterMap]
  refine List.filterMap_congr fun l hl => ?_
  have hrow := congrArg (Option.map Prod.snd) (file.map_parseIndexLine hl)
  rw [Option.map_map, Option.map_map] at hrow
  exact hrow.trans Option.map_id'

/-- What the iterator yields and fits the table is the table. -/
lemma table_sublist_iter : file.table.Sublist file.iter := by
  rw [table_eq, iter, iterFrom_eq _ 0, ← fileLines]
  induction file.fileLines with
  | nil => exact List.Sublist.refl _
  | cons l ls ih =>
    simp only [List.filterMap_cons]
    cases parseLine l.2 with
    | none => exact ih
    | some e =>
      rw [Option.filter_some]
      split_ifs
      · exact ih.cons_cons e
      · exact ih.cons e

/-- Whatever the order of the table, what is found for a callsign are rows of it. -/
lemma mem_iter_of_mem_findCallsignAll {callsign : Bytes} {e : TextEntry}
    (h : e ∈ file.findCallsignAll callsign) : e ∈ file.iter := by
  refine file.table_sublist_iter.subset (List.mem_map.mpr ?_)
  rw [findCallsignAll, List.mem_append, Option.mem_toList] at h
  rcases h with h | h
  · simp only [findExact, textEntryAt, Option.bind_eq_bind, Option.bind_eq_some_iff,
      Option.map_eq_some_iff] at h
    obtain ⟨index, -, _, ⟨entry, hentry, rfl⟩, hkey⟩ := h
    split_ifs at hkey
    exact ⟨entry, List.mem_of_getElem? hentry, Option.some.inj hkey⟩
  · split at h
    · cases h
    · obtain ⟨entry, hentry, heq⟩ := List.mem_map.mp ((List.takeWhile_sublist _).subset h)
      exact ⟨entry, List.mem_of_mem_drop hentry, heq⟩

/-! ### Searches on a sorted table -/

/-- The keys of the table do not decrease. -/
def Sorted : Prop := file.table.Pairwise fun a b => a.key ≤ b.key

variable {file}

lemma Sorted.entries (h : file.Sorted) :
    file.entries.Pairwise fun a b => file.entryKey a ≤ file.entryKey b := by
  rw [Sorted, table, List.pairwise_map] at h
  exact h

lemma textEntryAt_partitionPoint (h : file.Sorted) (pred : Bytes → Bool)
    (hpred : ∀ a b, a ≤ b → pred b → pred a) :
    (let index := Bisect.partitionPoint (fun entry => pred (file.entryKey entry)) file.entries
      if index < file.entries.length then file.textEntryAt index else none) =
      file.table.find? fun e => !pred e.key := by
  have hget := Bisect.getElem?_partitionPoint h.entries
    (p := fun entry => pred (file.entryKey entry)) fun a b hab hb => hpred _ _ hab hb
  simp only [textEntryAt, hget, table, List.find?_map]
  split_ifs with hlt
  · rfl
  · rw [List.getElem?_eq_none (by omega)] at hget
    rw [eq_comm, Option.map_eq_none_iff]
    exact hget.symm

/-- The entry at the first position whose key is not below `target`. -/
lemma bind_findEntryIndexGe (h : file.Sorted) (target : Bytes) :
    (file.findEntryIndexGe target).bind file.textEntryAt =
      file.table.find? fun e => target ≤ e.key := by
  have := textEntryAt_partitionPoint h (fun k => k < target)
    fun a b hab hb => by simpa using lt_of_le_of_lt hab (by simpa using hb)
  simp only [← decide_not, not_lt] at this
  rw [← this]
  simp only [findEntryIndexGe]
  split_ifs <;> rfl

lemma find?_eq_of_sorted (h : file.Sorted) (key : Bytes) :
    ((file.table.find? fun e => key ≤ e.key).filter fun e => e.key = key) =
      file.table.find? fun e => e.key = key := by
  unfold Sorted at h
  revert h
  induction file.table with
  | nil => exact fun _ => rfl
  | cons e es ih =>
    intro h
    rw [List.pairwise_cons] at h
    by_cases heq : e.key = key
    · simp [heq]
    · by_cases hle : key ≤ e.key
      · have hnone : ∀ e' ∈ es, e'.key ≠ key := by
          rintro e' he' rfl
          exact heq (le_antisymm (h.1 e' he') hle)
        have hfind : es.find? (fun e => decide (e.key = key)) = none := by
          rw [List.find?_eq_none]
          simpa using hnone
        rw [List.find?_cons_of_pos (by simpa using hle),
          List.find?_cons_of_neg (by simpa using heq), hfind, Option.filter_some]
        simp [heq]
      · simpa [hle, heq] using ih h.2

/-- `find_exact` finds the first entry with the key. -/
theorem findExact_eq (h : file.Sorted) (key : Bytes) :
    file.findExact key = file.table.find? fun e => e.key = key := by
  rw [← find?_eq_of_sorted h, ← bind_findEntryIndexGe h, findExact]
  cases file.findEntryIndexGe key with
  | none => rfl
  | some index =>
    simp only [Option.bind_eq_bind, Option.bind_some]
    cases file.textEntryAt index with
    | none => rfl
    | some e => simp [Option.filter_some]

/-- `next_entry_after_key` finds the first entry with a greater key. -/
theorem nextEntryAfterKey_eq (h : file.Sorted) (key : Bytes) :
    file.nextEntryAfterKey key = file.table.find? fun e => key < e.key := by
  have := textEntryAt_partitionPoint h (fun k => k ≤ key)
    fun a b hab hb => by simpa using le_trans hab (by simpa using hb)
  simp only [← decide_not, not_le] at this
  rw [← this]
  simp only [nextEntryAfterKey, findEntryIndexGt]
  split_ifs <;> rfl

/-- `find_callsign_all` finds the first entry with the bare callsign and all with a year. -/
theorem findCallsignAll_eq (h : file.Sorted) (callsign : Bytes) :
    file.findCallsignAll callsign =
      (file.table.find? fun e => e.key = callsign).toList ++
        file.table.filter fun e => (callsign ++ [0x3a]).isPrefixOf e.key := by
  rw [findCallsignAll, findExact_eq h]
  congr 1
  have hfilter := Bisect.takeWhile_dropWhile_eq_filter (l := file.table)
    (p := fun e => e.key < callsign ++ [0x3a])
    (q := fun e => (callsign ++ [0x3a]).isPrefixOf e.key) h
    (fun a b hab hb => by simpa using lt_of_le_of_lt hab (by simpa using hb))
    (fun a ha => by
      rw [List.isPrefixOf_iff_prefix] at ha
      simpa using ByteOrder.le_of_prefix ha)
    (fun a b hab hpred hkeep => by
      simp only [decide_eq_false_iff_not, not_lt] at hpred
      rw [← Bool.not_eq_true, List.isPrefixOf_iff_prefix] at hkeep ⊢
      exact fun hb => (ByteOrder.lt_of_not_prefix hpred hkeep hb).not_ge hab)
  rw [← hfilter]
  have hdrop : file.table.dropWhile (fun e => e.key < callsign ++ [0x3a]) =
      (file.entries.drop (Bisect.partitionPoint
        (fun entry => file.entryKey entry < callsign ++ [0x3a]) file.entries)).map
          file.textEntry := by
    rw [Bisect.drop_partitionPoint h.entries
      fun a b hab hb => by simpa using lt_of_le_of_lt hab (by simpa using hb), table,
      List.dropWhile_map]
    rfl
  simp only [hdrop, findEntryIndexGe]
  split_ifs with hlt
  · rfl
  · rw [List.drop_eq_nil_of_le (by omega)]
    rfl

end TextIdxFile

end Callbook
