import Callbook.Idx.Encode

/-!
# Verifying an IDX file

The table that the searches use has the iterator's entries, except those whose line starts beyond
4 GiB or whose key has 64 KiB or more. The verifier sees every line that CR LF ends; what stands
behind the last one is only checked for its bytes.
-/

namespace Callbook

open Text

namespace TextIdxFile

open IdxText

variable (file : TextIdxFile)

/-! ### The two readers -/

/-- The lines with an entry, with their positions. -/
def entryLines : List (ℕ × TextEntry) :=
  file.fileLines.filterMap fun l => (parseLine l.2).map (l.1, ·)

/-- The table has room for the line: it starts within 4 GiB, its key has less than 64 KiB. -/
def Indexable (l : ℕ × TextEntry) : Bool := l.1 < 2 ^ 32 && l.2.key.length < 2 ^ 16

lemma iter_eq_entryLines : file.iter = file.entryLines.map Prod.snd := by
  rw [iter_eq_filterMap, entryLines, List.map_filterMap]
  apply List.filterMap_congr
  intro l _
  cases parseLine l.2 <;> rfl

lemma table_eq_entryLines : file.table = (file.entryLines.filter Indexable).map Prod.snd := by
  rw [table_eq, entryLines, List.filter_filterMap, List.map_filterMap]
  apply List.filterMap_congr
  intro l _
  cases parseLine l.2 with
  | none => rfl
  | some e =>
    rw [Option.map_some, Option.filter_some, Option.filter_some]
    show _ = Option.map Prod.snd (if Indexable (l.1, e) then some (l.1, e) else none)
    rw [Option.map_if]
    rfl

/-- The table has all entries exactly when it has room for their lines. -/
lemma table_eq_iter_iff_indexable :
    file.table = file.iter ↔ ∀ l ∈ file.entryLines, Indexable l := by
  rw [table_eq_entryLines, iter_eq_entryLines]
  constructor
  · intro h
    rw [← List.filter_eq_self]
    apply List.Sublist.eq_of_length List.filter_sublist
    simpa using congrArg List.length h
  · intro h
    rw [List.filter_eq_self.mpr h]

/-- A table row starts where its line stands in the file. -/
lemma exists_line_of_mem_entries {entry : TextIndexEntry} (h : entry ∈ file.entries) :
    ∃ front line back, file.mmap = joinLines front ++ line ++ crlf ++ back ∧
      (∀ l ∈ front, ¬ crlf <:+: l) ∧ ¬ crlf <:+: line ∧
      parseLine line = some (file.textEntry entry) ∧
      entry.lineStart = (joinLines front).length := by
  obtain ⟨lines, rest, hmmap, hlines, hrest⟩ := exists_joinLines file.mmap
  rw [entries_eq, List.mem_filterMap] at h
  obtain ⟨l, hl, hentry⟩ := h
  obtain ⟨e, he, -, -, heq⟩ := parseIndexLine_eq_some_iff.mp hentry
  have htext := file.textEntry_eq hl hentry he
  rw [fileLines_eq hmmap hlines hrest] at hl
  obtain ⟨front, back, hsplit⟩ := List.append_of_mem hl
  have hstart := placeLines_split hsplit
  have hall : lines = front.map Prod.snd ++ l.2 :: back.map Prod.snd := by
    rw [← map_snd_placeLines 0 lines, hsplit, List.map_append, List.map_cons]
  rw [hall, List.forall_mem_append, List.forall_mem_cons] at hlines
  refine ⟨front.map Prod.snd, l.2, joinLines (back.map Prod.snd) ++ rest, ?_, hlines.1,
    hlines.2.1, by rw [htext, he], ?_⟩
  · rw [hmmap, hall, joinLines_append, joinLines_cons]
    simp only [List.append_assoc]
  · rw [heq, hstart, Nat.zero_add]

/-- The table has the iterator's entries in order, without those it has no room for, and every row
knows where its line starts. -/
theorem table_and_iter : file.iter = file.entryLines.map Prod.snd ∧
    file.table = (file.entryLines.filter Indexable).map Prod.snd ∧
    (file.table = file.iter ↔ ∀ l ∈ file.entryLines, Indexable l) ∧
    ∀ entry ∈ file.entries, ∃ front line back,
      file.mmap = joinLines front ++ line ++ crlf ++ back ∧ (∀ l ∈ front, ¬ crlf <:+: l) ∧
        ¬ crlf <:+: line ∧ parseLine line = some (file.textEntry entry) ∧
        entry.lineStart = (joinLines front).length :=
  ⟨file.iter_eq_entryLines, file.table_eq_entryLines, file.table_eq_iter_iff_indexable,
    fun _ => file.exists_line_of_mem_entries⟩

end TextIdxFile

namespace IdxText

/-- One line with a key of `n` letters. -/
def longKeyRow (n : ℕ) : Row := ⟨⟨List.replicate n 0x41, 1⟩, 0, 0⟩

lemma length_longKeyRow (n : ℕ) : (longKeyRow n).entry.key.length = n := List.length_replicate

lemma printed_longKeyRow {n : ℕ} (hn : 0 < n) : Printed (longKeyRow n).entry where
  key_ne := by
    rw [← List.length_pos_iff, length_longKeyRow]
    exact hn
  key_chars b hb := by
    rw [List.eq_of_mem_replicate hb]
    decide
  key_last hlast := by
    have hmem := List.eq_of_mem_replicate (List.mem_of_getLast? hlast)
    exact absurd hmem (by decide)
  datOffset := (by decide : 1 ≤ u64Max)

lemma length_rowsText_longKeyRow (n : ℕ) : (rowsText [longKeyRow n]).length = n + 4 := by
  have hoffset : (decimal (longKeyRow n).entry.datOffset).length = 1 := rfl
  have htrail : (longKeyRow n).trail = 0 := rfl
  have hgap : (longKeyRow n).gap = 0 := rfl
  simp only [rowsText, joinLines, List.map_cons, List.map_nil, List.flatMap_cons,
    List.flatMap_nil, Row.line, idxLine, List.length_append, List.length_replicate,
    length_longKeyRow, hoffset, htrail, hgap, crlf, List.length_cons, List.length_nil]

lemma table_ne_iter_longKeyRow {n : ℕ} (hn : 2 ^ 16 ≤ n) (hlen : n + 4 < 2 ^ 32) :
    ∃ file, TextIdxFile.open (rowsText [longKeyRow n]) = .ok file ∧ file.table ≠ file.iter := by
  have hprinted : ∀ row ∈ [longKeyRow n], Printed row.entry := by
    rw [List.forall_mem_singleton]
    exact printed_longKeyRow (lt_of_lt_of_le (by decide) hn)
  rw [← length_rowsText_longKeyRow] at hlen
  obtain ⟨file, hopen, hfile⟩ := exists_open_rowsText (by simp) hprinted hlen
  refine ⟨file, hopen, ?_⟩
  rw [ne_eq, TextIdxFile.table_eq_iter_iff_indexable]
  intro h
  have hmem : (longKeyRow n).entry ∈ file.iter := by
    rw [iter_rowsText hfile hprinted]
    exact List.mem_cons_self
  rw [file.iter_eq_entryLines, List.mem_map] at hmem
  obtain ⟨l, hl, heq⟩ := hmem
  have hfits := h l hl
  rw [TextIdxFile.Indexable, Bool.and_eq_true, decide_eq_true_eq, decide_eq_true_eq, heq,
    length_longKeyRow] at hfits
  exact absurd hfits.2 (not_lt.mpr hn)

/-- The table leaves out a line that the iterator yields. -/
theorem not_table_eq_iter_longKey :
    ¬ ∀ mmap stride file, 1 ≤ stride → TextIdxFile.openWithStride mmap stride = .ok file →
      file.table = file.iter := by
  intro h
  obtain ⟨file, hopen, hne⟩ := table_ne_iter_longKeyRow le_rfl (by decide)
  exact hne (h _ _ file (by decide) hopen)

end IdxText

/-! ### Clean files -/

namespace IdxText

/-- The on-disk model: lines of the right form, allowed bytes, keys that do not decrease and offsets
that increase. -/
def WellFormed (s : Bytes) : Prop := ∃ lines entries, lines ≠ [] ∧ s = joinLines lines ∧
  (∀ line ∈ lines, ¬ crlf <:+: line) ∧ List.Forall₂ IsLine lines entries ∧
  (∀ b ∈ s, isIdxByte b) ∧ entries.Pairwise (fun a b => a.key ≤ b.key) ∧
  entries.Pairwise fun a b => a.datOffset < b.datOffset

/-- A well-formed file with a rest of allowed bytes behind its last line. -/
def HasLooseEnd (s : Bytes) : Prop := ∃ body rest, s = body ++ rest ∧ WellFormed body ∧
  rest ≠ [] ∧ ¬ crlf <:+: rest ∧ ∀ b ∈ rest, isIdxByte b

/-- The walk counts the entries, and no violation exactly when neighbours are in order. -/
lemma foldl_verifyStep (rep : VerifyReport) (entries : List TextEntry) :
    (entries.foldl verifyStep rep).entries = rep.entries + entries.length ∧
      (entries.foldl verifyStep rep).nonAsciiBytes = rep.nonAsciiBytes ∧
      ((entries.foldl verifyStep rep).keyOrderViolations = 0 ↔ rep.keyOrderViolations = 0 ∧
        (rep.lastKey.toList ++ entries.map TextEntry.key).IsChain (· ≤ ·)) ∧
      ((entries.foldl verifyStep rep).offsetMonotonicityViolations = 0 ↔
        rep.offsetMonotonicityViolations = 0 ∧
          (rep.lastOffset.toList ++ entries.map TextEntry.datOffset).IsChain (· < ·)) := by
  induction entries generalizing rep with
  | nil => cases rep.lastKey <;> cases rep.lastOffset <;> simp
  | cons e entries ih =>
    obtain ⟨hcount, hbytes, hkeys, hoffsets⟩ := ih (verifyStep rep e)
    rw [List.foldl_cons, hcount, hbytes, hkeys, hoffsets]
    refine ⟨?_, rfl, ?_, ?_⟩
    · show rep.entries + 1 + entries.length = rep.entries + (entries.length + 1)
      omega
    · simp only [verifyStep, Option.toList_some, List.map_cons, List.singleton_append]
      cases rep.lastKey with
      | none => simp
      | some prev =>
        simp only [Option.any_some, decide_eq_true_eq, Option.toList_some, List.singleton_append,
          List.isChain_cons_cons, ← not_lt]
        split_ifs with hlt <;> simp [hlt]
    · simp only [verifyStep, Option.toList_some, List.map_cons, List.singleton_append]
      cases rep.lastOffset with
      | none => simp
      | some prev =>
        simp only [Option.any_some, decide_eq_true_eq, Option.toList_some, List.singleton_append,
          List.isChain_cons_cons, ← not_le]
        split_ifs with hle <;> simp [hle]

/-- What a clean report says. -/
lemma isClean_verify_iff (file : TextIdxFile) :
    (verify file).isClean ↔ (∀ b ∈ file.mmap, isIdxByte b) ∧
      file.fileLines.length ≤ file.iter.length ∧ file.iter ≠ [] ∧
      file.iter.Pairwise (fun a b => a.key ≤ b.key) ∧
      file.iter.Pairwise fun a b => a.datOffset < b.datOffset := by
  obtain ⟨hcount, hbytes, hkeys, hoffsets⟩ := foldl_verifyStep
    ⟨0, file.mmap.countP (!isIdxByte ·), 0, 0, 0, none, none, none, none⟩ file.iter
  have hnone : (file.mmap.countP (!isIdxByte ·) = 0) ↔ ∀ b ∈ file.mmap, isIdxByte b := by
    simp [List.countP_eq_zero]
  have hparse : ∀ n m : ℕ, (if n < m then m - n else 0) = 0 ↔ m ≤ n := by
    intro n m
    split_ifs <;> omega
  simp only [Option.toList_none, List.nil_append, true_and] at hkeys hoffsets
  rw [List.isChain_map, List.isChain_iff_pairwise] at hkeys hoffsets
  simp only [VerifyReport.isClean, verify, Bool.and_eq_true, decide_eq_true_eq, hcount, hbytes,
    hkeys, hoffsets, hnone, hparse, Nat.zero_add, TextIdxFile.lineCount_eq, List.length_pos_iff]
  tauto

/-- A file is well formed when it is clean and nothing stands behind its last line. -/
lemma wellFormed_joinLines_iff {file : TextIdxFile} {lines : List Bytes} {rest : Bytes}
    (h : file.mmap = joinLines lines ++ rest) (hlines : ∀ line ∈ lines, ¬ crlf <:+: line)
    (hrest : ¬ crlf <:+: rest) :
    (verify file).isClean ↔ WellFormed (joinLines lines) ∧ ∀ b ∈ rest, isIdxByte b := by
  have hiter := TextIdxFile.iter_eq h hlines hrest
  have hlen : file.fileLines.length = lines.length := by
    rw [TextIdxFile.fileLines_eq h hlines hrest, ← List.length_map (f := Prod.snd),
      map_snd_placeLines]
  have hforms : ∀ entries, List.Forall₂ IsLine lines entries ↔
      lines.filterMap parseLine = entries ∧ lines.length ≤ entries.length := by
    intro entries
    rw [← Lists.forall₂_eq_some_iff]
    simp only [parseLine_eq_some_iff]
  rw [isClean_verify_iff, h, hiter, hlen, List.forall_mem_append]
  constructor
  · rintro ⟨⟨hbytes, htail⟩, hall, hne, hkeys, hoffsets⟩
    refine ⟨⟨lines, lines.filterMap parseLine, ?_, rfl, hlines, ?_, hbytes, hkeys, hoffsets⟩, htail⟩
    · rintro rfl
      exact hne rfl
    · exact (hforms _).mpr ⟨rfl, hall⟩
  · rintro ⟨⟨lines', entries, hne, heq, hlines', hform, hbytes, hkeys, hoffsets⟩, htail⟩
    have hsame := joinLines_inj (congrArg (· ++ []) heq) hlines not_crlf_infix_nil hlines'
      not_crlf_infix_nil
    obtain ⟨rfl, -⟩ := hsame
    obtain ⟨rfl, hall⟩ := (hforms _).mp hform
    refine ⟨⟨hbytes, htail⟩, hall, ?_, hkeys, hoffsets⟩
    rw [← List.length_pos_iff] at hne ⊢
    exact hne.trans_le hall

/-- A clean report certifies the whole file unless something is left behind its last line. -/
theorem isClean_verify_iff_wellFormed_iff (file : TextIdxFile) :
    ((verify file).isClean ↔ WellFormed file.mmap) ↔ ¬ HasLooseEnd file.mmap := by
  obtain ⟨lines, rest, h, hlines, hrest⟩ := exists_joinLines file.mmap
  have hclean := wellFormed_joinLines_iff h hlines hrest
  have hwhole : WellFormed file.mmap ↔ WellFormed (joinLines lines) ∧ rest = [] := by
    constructor
    · intro hform
      obtain ⟨lines', entries, hne, heq, hlines', hothers⟩ := hform
      rw [h, ← List.append_nil (joinLines lines')] at heq
      obtain ⟨rfl, rfl⟩ := joinLines_inj heq hlines hrest hlines' not_crlf_infix_nil
      rw [h, List.append_nil] at hothers
      exact ⟨⟨lines, entries, hne, rfl, hlines, hothers⟩, rfl⟩
    · rintro ⟨hform, rfl⟩
      rwa [h, List.append_nil]
  have hloose : HasLooseEnd file.mmap ↔
      (WellFormed (joinLines lines) ∧ ∀ b ∈ rest, isIdxByte b) ∧ rest ≠ [] := by
    constructor
    · rintro ⟨body, rest', heq, hbody, hne, hfree, hbytes⟩
      obtain ⟨lines', entries, hne', rfl, hlines', hothers⟩ := hbody
      rw [h] at heq
      obtain ⟨rfl, rfl⟩ := joinLines_inj heq hlines hrest hlines' hfree
      exact ⟨⟨⟨lines, entries, hne', rfl, hlines, hothers⟩, hbytes⟩, hne⟩
    · rintro ⟨⟨hform, hbytes⟩, hne⟩
      exact ⟨_, rest, h, hform, hne, hrest, hbytes⟩
  rw [hclean, hwhole, hloose]
  constructor
  · rintro hiff ⟨hgood, hne⟩
    exact hne (hiff.mp hgood).2
  · intro hnot
    constructor
    · intro hgood
      refine ⟨hgood.1, ?_⟩
      by_contra hne
      exact hnot ⟨hgood, hne⟩
    · rintro ⟨hform, rfl⟩
      exact ⟨hform, by simp⟩

/-- A line, and a second one that breaks off in its offset. -/
def cutOffText : Bytes := ascii "A 1" ++ crlf ++ ascii "B 2"

lemma getLast?_joinLines {lines : List Bytes} (h : lines ≠ []) :
    (joinLines lines).getLast? = some 0x0a := by
  induction lines using List.reverseRecOn with
  | nil => exact absurd rfl h
  | append_singleton lines line =>
    rw [joinLines_append, joinLines_cons, joinLines_nil, List.append_nil,
      List.getLast?_append_of_ne_nil _ (by simp [crlf]), List.getLast?_append_of_ne_nil _ (by
        simp [crlf])]
    rfl

/-- A file cut off in the middle of a line is reported clean. -/
theorem isClean_cutOffText : ∃ file, TextIdxFile.open cutOffText = .ok file ∧
    (verify file).isClean ∧ ¬ WellFormed file.mmap := by
  have hok : (TextIdxFile.open cutOffText).isOk := by decide +kernel
  obtain ⟨file, hopen⟩ := Panic.exists_of_isOk hok
  have hclean :
      ((TextIdxFile.open cutOffText).map fun file => (verify file).isClean) = .ok true := by
    decide +kernel
  have hmmap : ((TextIdxFile.open cutOffText).map fun file => file.mmap) = .ok cutOffText := by
    decide +kernel
  rw [hopen, Except.map, Except.ok.injEq] at hclean hmmap
  refine ⟨file, hopen, hclean, ?_⟩
  rintro ⟨lines, entries, hne, heq, -⟩
  have hlast := getLast?_joinLines hne
  rw [← heq, hmmap] at hlast
  revert hlast
  decide +kernel

end IdxText

/-! ### All entries of a callsign -/

namespace TextIdxFile

open IdxText

variable {file : TextIdxFile}

/-- The callsign part of the key is `callsign`. -/
def HasCallsign (callsign key : Bytes) : Prop := key = callsign ∨ callsign ++ [0x3a] <+: key

instance (callsign key : Bytes) : Decidable (HasCallsign callsign key) :=
  inferInstanceAs (Decidable (_ ∨ _))

/-- The table has all entries of one kind exactly when it has room for their lines. -/
lemma filter_table_eq_iff {p : TextEntry → Bool} :
    file.table.filter p = file.iter.filter p ↔ ∀ l ∈ file.entryLines, p l.2 → Indexable l := by
  have hkinds : file.table.filter p =
      ((file.entryLines.filter fun l => p l.2).filter Indexable).map Prod.snd := by
    rw [table_eq_entryLines, List.filter_map, List.filter_comm]
    rfl
  have hall : (∀ l ∈ file.entryLines, p l.2 → Indexable l) ↔
      ∀ l ∈ file.entryLines.filter fun l => p l.2, Indexable l := by
    simp only [List.mem_filter, and_imp]
  rw [hkinds, hall, iter_eq_entryLines, List.filter_map]
  constructor
  · intro h
    rw [← List.filter_eq_self]
    apply List.Sublist.eq_of_length List.filter_sublist
    have hlen := congrArg List.length h
    rwa [List.length_map, List.length_map] at hlen
  · intro h
    rw [List.filter_eq_self.mpr h]
    rfl

/-- The first entry of a kind is the only one. -/
lemma toList_find?_eq_iff {p : TextEntry → Bool} :
    (file.table.find? p).toList = file.iter.filter p ↔
      file.iter.countP p ≤ 1 ∧ file.table.filter p = file.iter.filter p := by
  have hsub : (file.table.find? p).toList.Sublist (file.table.filter p) := by
    rw [← List.head?_filter]
    cases file.table.filter p with
    | nil => exact List.Sublist.refl _
    | cons e es => exact (List.nil_sublist es).cons_cons e
  have htable : (file.table.filter p).Sublist (file.iter.filter p) :=
    file.table_sublist_iter.filter p
  constructor
  · intro h
    have hlen : (file.iter.filter p).length ≤ 1 := by
      rw [← h]
      exact Option.length_toList_le
    rw [List.countP_eq_length_filter]
    refine ⟨hlen, ?_⟩
    apply htable.eq_of_length_le
    rw [← h]
    exact hsub.length_le
  · rintro ⟨hcount, h⟩
    rw [List.countP_eq_length_filter, ← h] at hcount
    rw [← h, ← List.head?_filter]
    cases hf : file.table.filter p with
    | nil => rfl
    | cons e es =>
      rw [hf, List.length_cons] at hcount
      have hnil : es = [] := List.eq_nil_of_length_eq_zero (by omega)
      rw [hnil]
      rfl

/-- The key of a year comes behind the bare key. -/
lemma lt_of_prefix_year {callsign key : Bytes} (h : callsign ++ [0x3a] <+: key) :
    callsign < key := by
  have hfront : callsign <+: key := (List.prefix_append _ _).trans h
  apply lt_of_le_of_ne (ByteOrder.le_of_prefix hfront)
  rintro rfl
  have hlen := h.length_le
  simp at hlen

lemma decide_hasCallsign (callsign key : Bytes) : decide (HasCallsign callsign key) =
    (decide (key = callsign) || (callsign ++ [0x3a]).isPrefixOf key) := by
  rw [Bool.eq_iff_iff, decide_eq_true_iff, Bool.or_eq_true, decide_eq_true_iff,
    List.isPrefixOf_iff_prefix]
  rfl

/-- In the order of the keys the entries of a callsign are the one with the bare key and then those
with a year. -/
lemma filter_hasCallsign {entries : List TextEntry}
    (hkeys : entries.Pairwise fun a b => a.key ≤ b.key) (callsign : Bytes) :
    entries.filter (fun e => HasCallsign callsign e.key) =
      entries.filter (fun e => e.key = callsign) ++
        entries.filter fun e => (callsign ++ [0x3a]).isPrefixOf e.key := by
  have hdisj : ∀ e : TextEntry, decide (e.key = callsign) →
      (callsign ++ [0x3a]).isPrefixOf e.key = false := by
    intro e he
    rw [decide_eq_true_eq] at he
    rw [← Bool.not_eq_true, List.isPrefixOf_iff_prefix]
    intro hyear
    exact absurd he (lt_of_prefix_year hyear).ne'
  have horder : entries.Pairwise fun a b => (callsign ++ [0x3a]).isPrefixOf a.key →
      decide (b.key = callsign) = false := by
    apply hkeys.imp
    intro a b hab ha
    rw [List.isPrefixOf_iff_prefix] at ha
    rw [decide_eq_false_iff_not]
    exact ((lt_of_prefix_year ha).trans_le hab).ne'
  simp only [decide_hasCallsign]
  exact Lists.filter_or_eq_append hdisj horder

/-- On a clean file all entries of a callsign are found exactly when at most one has the bare key
and the table has room for the lines of all of them. -/
theorem findCallsignAll_eq_iter_iff (hclean : (verify file).isClean) (callsign : Bytes) :
    file.findCallsignAll callsign = file.iter.filter (fun e => HasCallsign callsign e.key) ↔
      file.iter.countP (fun e => e.key = callsign) ≤ 1 ∧
        ∀ l ∈ file.entryLines, HasCallsign callsign l.2.key → Indexable l := by
  obtain ⟨-, -, -, hkeys, -⟩ := (isClean_verify_iff file).mp hclean
  have hsorted : file.Sorted := hkeys.sublist file.table_sublist_iter
  set bare : TextEntry → Bool := fun e => e.key = callsign
  set year : TextEntry → Bool := fun e => (callsign ++ [0x3a]).isPrefixOf e.key
  have hsplit : file.iter.filter (fun e => HasCallsign callsign e.key) =
      file.iter.filter bare ++ file.iter.filter year := filter_hasCallsign hkeys callsign
  have hlines : (∀ l ∈ file.entryLines, HasCallsign callsign l.2.key → Indexable l) ↔
      (∀ l ∈ file.entryLines, bare l.2 → Indexable l) ∧
        ∀ l ∈ file.entryLines, year l.2 → Indexable l := by
    have hkind : ∀ l : ℕ × TextEntry, HasCallsign callsign l.2.key ↔ bare l.2 ∨ year l.2 := by
      intro l
      rw [← decide_eq_true_iff (p := HasCallsign _ _), decide_hasCallsign, Bool.or_eq_true]
    simp only [hkind, or_imp, forall_and]
  have hfirst : (file.table.find? bare).toList.length ≤ (file.iter.filter bare).length := by
    rw [← List.head?_filter]
    apply le_trans _ (file.table_sublist_iter.filter bare).length_le
    cases file.table.filter bare <;> simp
  have hothers := (file.table_sublist_iter.filter year).length_le
  rw [findCallsignAll_eq hsorted, hsplit, hlines, ← filter_table_eq_iff, ← filter_table_eq_iff,
    ← and_assoc, ← toList_find?_eq_iff]
  exact Lists.append_eq_append_iff_of_length_le hfirst hothers

end TextIdxFile

namespace IdxText

/-- Two entries with the same bare key. -/
def repeatedKeyText : Bytes := ascii "A 1" ++ crlf ++ ascii "A 2" ++ crlf

/-- A bare key and one with a year, another callsign between them. -/
def yearKeysText : Bytes :=
  ascii "A 1" ++ crlf ++ ascii "A/1 2" ++ crlf ++ ascii "A:2015 3" ++ crlf

/-- Of two entries with the bare key the search returns the first. -/
theorem findCallsignAll_repeatedKey : ∃ file, TextIdxFile.open repeatedKeyText = .ok file ∧
    (verify file).isClean ∧ file.findCallsignAll (ascii "A") ≠
      file.iter.filter fun e => TextIdxFile.HasCallsign (ascii "A") e.key := by
  have hok : (TextIdxFile.open repeatedKeyText).isOk := by decide +kernel
  obtain ⟨file, hopen⟩ := Panic.exists_of_isOk hok
  have hrun : ((TextIdxFile.open repeatedKeyText).map fun file => ((verify file).isClean,
      decide (file.findCallsignAll (ascii "A") =
        file.iter.filter fun e => TextIdxFile.HasCallsign (ascii "A") e.key))) =
          .ok (true, false) := by decide +kernel
  rw [hopen, Except.map, Except.ok.injEq, Prod.mk.injEq, decide_eq_false_iff_not] at hrun
  exact ⟨file, hopen, hrun⟩

theorem findCallsignAll_yearKeys : ∃ file, TextIdxFile.open yearKeysText = .ok file ∧
    file.findCallsignAll (ascii "A") =
      file.iter.filter fun e => TextIdxFile.HasCallsign (ascii "A") e.key := by
  have hok : (TextIdxFile.open yearKeysText).isOk := by decide +kernel
  obtain ⟨file, hopen⟩ := Panic.exists_of_isOk hok
  have hrun : ((TextIdxFile.open yearKeysText).map fun file => ((verify file).isClean,
      decide (file.iter.countP (fun e => e.key = ascii "A") ≤ 1 ∧
        ∀ l ∈ file.entryLines, TextIdxFile.Indexable l))) = .ok (true, true) := by decide +kernel
  rw [hopen, Except.map, Except.ok.injEq, Prod.mk.injEq, decide_eq_true_eq] at hrun
  obtain ⟨hclean, hcount, hall⟩ := hrun
  refine ⟨file, hopen, (TextIdxFile.findCallsignAll_eq_iter_iff hclean _).mpr ⟨hcount, ?_⟩⟩
  intro l hl _
  exact hall l hl

end IdxText

end Callbook
