import Callbook.Idx.Properties

/-!
# The lines of an IDX file

A file is a list of CR LF terminated lines and an unterminated rest, in one way only. The readers
go through these lines; a line has an entry exactly when it is a key, spaces, a decimal offset and
trailing spaces.
-/

namespace Callbook

open Text

namespace IdxText

/-! ### Lines and rest -/

/-- The terminated lines one behind the other. -/
def joinLines (lines : List Bytes) : Bytes := lines.flatMap (· ++ crlf)

/-- Lines with the positions they have from `pos` on. -/
def placeLines : ℕ → List Bytes → List (ℕ × Bytes)
  | _, [] => []
  | pos, line :: lines => (pos, line) :: placeLines (pos + line.length + 2) lines

@[simp] lemma joinLines_nil : joinLines [] = [] := rfl

@[simp] lemma joinLines_cons (line : Bytes) (lines : List Bytes) :
    joinLines (line :: lines) = line ++ crlf ++ joinLines lines := rfl

@[simp] lemma joinLines_append (lines lines' : List Bytes) :
    joinLines (lines ++ lines') = joinLines lines ++ joinLines lines' := List.flatMap_append

@[simp] lemma map_snd_placeLines (pos : ℕ) (lines : List Bytes) :
    (placeLines pos lines).map Prod.snd = lines := by
  induction lines generalizing pos with
  | nil => rfl
  | cons line lines ih => rw [placeLines, List.map_cons, ih]

/-- A line starts behind the lines in front of it. -/
lemma placeLines_split {pos : ℕ} {lines : List Bytes} {front back : List (ℕ × Bytes)}
    {l : ℕ × Bytes} (h : placeLines pos lines = front ++ l :: back) :
    l.1 = pos + (joinLines (front.map Prod.snd)).length := by
  induction front generalizing pos lines with
  | nil =>
    cases lines with
    | nil => cases h
    | cons line lines =>
      obtain ⟨rfl, -⟩ := List.cons.inj h
      rfl
  | cons l' front ih =>
    cases lines with
    | nil => cases h
    | cons line lines =>
      obtain ⟨hfirst, hothers⟩ := List.cons.inj h
      rw [ih hothers, ← hfirst, List.map_cons, joinLines_cons, List.length_append,
        List.length_append]
      show pos + line.length + 2 + _ = pos + (line.length + 2 + _)
      omega

lemma length_le_length_joinLines (lines : List Bytes) :
    lines.length ≤ (joinLines lines).length := by
  induction lines with
  | nil => exact le_rfl
  | cons line lines ih =>
    rw [joinLines_cons, List.length_append, List.length_append, List.length_cons]
    show lines.length + 1 ≤ line.length + 2 + _
    omega

/-- A line that CR LF does not stand in ends at the first CR LF. -/
lemma findText_crlf {line : Bytes} (h : ¬ crlf <:+: line) (rest : Bytes) :
    findText crlf (line ++ crlf ++ rest) = some line.length := by
  induction line with
  | nil =>
    rw [List.nil_append, crlf, List.cons_append, findText, if_pos]
    · rfl
    · rw [List.isPrefixOf_iff_prefix]
      exact List.prefix_append [0x0d, 0x0a] rest
  | cons b line ih =>
    have hstart : ¬ crlf.isPrefixOf (b :: (line ++ crlf ++ rest)) := by
      rw [List.isPrefixOf_iff_prefix, crlf, List.cons_prefix_cons]
      rintro ⟨rfl, hnext⟩
      cases line with
      | nil =>
        rw [List.nil_append, List.cons_append, List.cons_prefix_cons] at hnext
        exact absurd hnext.1 (by decide)
      | cons c line =>
        rw [List.cons_append, List.cons_append, List.cons_prefix_cons] at hnext
        obtain ⟨rfl, -⟩ := hnext
        exact h (List.prefix_append [0x0d, 0x0a] line).isInfix
    have hline : ¬ crlf <:+: line := fun hin => h (List.infix_cons hin)
    rw [List.cons_append, List.cons_append, findText, if_neg hstart, ih hline]
    rfl

/-- The lines of a file are those it is made of. -/
lemma crlfLines_joinLines {lines : List Bytes} {rest : Bytes}
    (hlines : ∀ line ∈ lines, ¬ crlf <:+: line) (hrest : ¬ crlf <:+: rest) {fuel : ℕ} (pos : ℕ)
    (hfuel : lines.length ≤ fuel) :
    crlfLines fuel pos (joinLines lines ++ rest) = placeLines pos lines := by
  induction lines generalizing fuel pos with
  | nil =>
    cases fuel with
    | zero => rfl
    | succ fuel =>
      rw [crlfLines, joinLines_nil, List.nil_append, findText_eq_none_iff.mpr hrest, ite_self]
      rfl
  | cons line lines ih =>
    rw [List.forall_mem_cons] at hlines
    cases fuel with
    | zero => cases hfuel
    | succ fuel =>
      have hend := findText_crlf hlines.1 (joinLines lines ++ rest)
      have htake : (line ++ crlf ++ (joinLines lines ++ rest)).take line.length = line := by
        rw [List.append_assoc, List.take_left]
      have hdrop : (line ++ crlf ++ (joinLines lines ++ rest)).drop (line.length + 2) =
          joinLines lines ++ rest := List.drop_left' (by rw [List.length_append]; rfl)
      rw [crlfLines, joinLines_cons, List.append_assoc, if_neg (by simp [crlf]), hend]
      simp only [htake, hdrop]
      rw [ih hlines.2 _ (Nat.le_of_succ_le_succ hfuel), placeLines]

/-- Every file is made of lines and a rest. -/
lemma exists_joinLines (s : Bytes) : ∃ lines rest, s = joinLines lines ++ rest ∧
    (∀ line ∈ lines, ¬ crlf <:+: line) ∧ ¬ crlf <:+: rest := by
  induction hn : s.length using Nat.strong_induction_on generalizing s with
  | _ n ih =>
    cases hend : findText crlf s with
    | none => exact ⟨[], s, rfl, by simp, findText_eq_none_iff.mp hend⟩
    | some i =>
      have hsplit : s = s.take i ++ crlf ++ s.drop (i + 2) := by
        obtain ⟨back, hback⟩ := prefix_drop_of_findText hend
        have hdrop : s.drop (i + 2) = back := by
          rw [← List.drop_drop, ← hback]
          rfl
        rw [hdrop, List.append_assoc, hback, List.take_append_drop]
      have hline : ¬ crlf <:+: s.take i := not_infix_take_of_findText (by simp [crlf]) hend
      have hlt : (s.drop (i + 2)).length < n := by
        rw [← hn]
        conv_rhs => rw [hsplit]
        simp only [List.length_append, crlf, List.length_cons]
        omega
      obtain ⟨lines, rest, hrest, hlines, hfree⟩ := ih _ hlt (s.drop (i + 2)) rfl
      refine ⟨s.take i :: lines, rest, ?_, List.forall_mem_cons.mpr ⟨hline, hlines⟩, hfree⟩
      rw [joinLines_cons, List.append_assoc, ← hrest]
      exact hsplit

/-- The lines and the rest are determined. -/
lemma joinLines_inj {lines lines' : List Bytes} {rest rest' : Bytes}
    (h : joinLines lines ++ rest = joinLines lines' ++ rest')
    (hlines : ∀ line ∈ lines, ¬ crlf <:+: line) (hrest : ¬ crlf <:+: rest)
    (hlines' : ∀ line ∈ lines', ¬ crlf <:+: line) (hrest' : ¬ crlf <:+: rest') :
    lines = lines' ∧ rest = rest' := by
  have hplaced := crlfLines_joinLines hlines hrest 0 (le_max_left _ lines'.length)
  rw [h, crlfLines_joinLines hlines' hrest' 0 (le_max_right _ _)] at hplaced
  have heq := congrArg (List.map Prod.snd) hplaced
  rw [map_snd_placeLines, map_snd_placeLines] at heq
  subst heq
  exact ⟨rfl, List.append_cancel_left h⟩

/-! ### The form of a line -/

/-- A line with an entry: the key, at least one space, the decimal offset and trailing spaces. -/
structure IsLine (line : Bytes) (e : TextEntry) : Prop where
  key_ne : e.key ≠ []
  key_last : e.key.getLast? ≠ some 0x20
  datOffset_le : e.datOffset ≤ u64Max
  parts : ∃ gap digits trail, digits ≠ [] ∧ (∀ b ∈ digits, isAsciiDigit b) ∧
    decimalValue digits = e.datOffset ∧
    line = e.key ++ List.replicate (gap + 1) 0x20 ++ digits ++ List.replicate trail 0x20

lemma isAsciiDigit_ne_space {b : UInt8} (h : isAsciiDigit b) : (b == 0x20) = false := by
  grind [isAsciiDigit]

/-- The trailing spaces of a text. -/
lemma exists_replicate_of_rdropWhile (s : Bytes) :
    ∃ n, s = s.rdropWhile (· == 0x20) ++ List.replicate n 0x20 := by
  refine ⟨(s.rtakeWhile (· == 0x20)).length, ?_⟩
  have hspaces : s.rtakeWhile (· == 0x20) = List.replicate (s.rtakeWhile (· == 0x20)).length 0x20 :=
    List.eq_replicate_of_mem fun b hb => by simpa using List.mem_rtakeWhile_imp hb
  rw [← hspaces, List.rdropWhile_append_rtakeWhile]

/-- Splitting a line finds the parts it is made of. -/
lemma splitLine_of_parts {key digits : Bytes} (hkey : key ≠ []) (hlast : key.getLast? ≠ some 0x20)
    (hne : digits ≠ []) (hdigits : ∀ b ∈ digits, isAsciiDigit b) (gap trail : ℕ) :
    splitLine (key ++ List.replicate (gap + 1) 0x20 ++ digits ++ List.replicate trail 0x20) =
      some (key, digits) := by
  have hspaces : ∀ n : ℕ, ∀ b ∈ List.replicate n (0x20 : UInt8), (b == 0x20) = true := by
    intro n b hb
    rw [List.eq_of_mem_replicate hb]
    rfl
  have hgap : (key ++ List.replicate (gap + 1) 0x20).getLast? = some 0x20 := by
    rw [List.replicate_succ', ← List.append_assoc, List.getLast?_concat]
  obtain ⟨htrimmed, -⟩ := rdropWhile_append
    (l := key ++ List.replicate (gap + 1) 0x20 ++ digits) (fun b hb => by
      rw [List.getLast?_append_of_ne_nil _ hne] at hb
      exact isAsciiDigit_ne_space (hdigits b (List.mem_of_mem_getLast? hb))) (hspaces trail)
  obtain ⟨hbefore, hafter⟩ := rdropWhile_append (p := isAsciiDigit)
    (l := key ++ List.replicate (gap + 1) 0x20) (fun b hb => by
      rw [hgap, Option.mem_some_iff] at hb
      exact hb ▸ by decide) hdigits
  obtain ⟨hfront, -⟩ := rdropWhile_append (l := key) (fun b hb => by
    have hspace : b ≠ 0x20 := fun h => hlast (h ▸ hb)
    simpa using hspace) (hspaces (gap + 1))
  simp only [splitLine, htrimmed, hbefore, hafter, hne, hgap, ne_eq, not_true_eq_false, or_self,
    if_false, hfront, hkey]

/-- The parts that splitting a line finds. -/
lemma parts_of_splitLine {line key digits : Bytes} (h : splitLine line = some (key, digits)) :
    key ≠ [] ∧ key.getLast? ≠ some 0x20 ∧ digits ≠ [] ∧ (∀ b ∈ digits, isAsciiDigit b) ∧
      ∃ gap trail, line =
        key ++ List.replicate (gap + 1) 0x20 ++ digits ++ List.replicate trail 0x20 := by
  obtain ⟨-, hne, hdigits⟩ := splitLine_eq_some h
  simp only [splitLine] at h
  split_ifs at h with hsplit hkey
  cases h
  rw [not_or, not_not] at hsplit
  set trimmed := line.rdropWhile (· == 0x20)
  set before := trimmed.rdropWhile isAsciiDigit
  obtain ⟨trail, htrail⟩ := exists_replicate_of_rdropWhile line
  obtain ⟨gap, hgap⟩ := exists_replicate_of_rdropWhile before
  have hlast : (before.rdropWhile (· == 0x20)).getLast? ≠ some 0x20 := by
    intro hspace
    have hend := List.rdropWhile_last_not (· == 0x20) before hkey
    rw [List.getLast?_eq_some_getLast hkey, Option.some.injEq] at hspace
    exact hend (by rw [hspace]; rfl)
  refine ⟨hkey, hlast, hne, hdigits, ?_⟩
  cases gap with
  | zero =>
    rw [List.replicate_zero, List.append_nil] at hgap
    rw [← hgap] at hlast
    exact absurd hsplit.2 hlast
  | succ gap =>
    refine ⟨gap, trail, ?_⟩
    rw [← hgap, List.rdropWhile_append_rtakeWhile]
    exact htrail

/-- Exactly the lines of this form have an entry. -/
theorem parseLine_eq_some_iff {line : Bytes} {e : TextEntry} :
    parseLine line = some e ↔ IsLine line e := by
  simp only [parseLine, Option.bind_eq_bind, Option.bind_eq_some_iff, Option.some.injEq]
  constructor
  · rintro ⟨⟨key, digits⟩, hsplit, offset, hoffset, rfl⟩
    obtain ⟨hkey, hlast, hne, hdigits, gap, trail, hline⟩ := parts_of_splitLine hsplit
    rw [parseUnsigned_digits hne hdigits, parseDigits_eq_some_iff] at hoffset
    exact ⟨hkey, hlast, hoffset.2.2, gap, digits, trail, hne, hdigits, hoffset.2.1, hline⟩
  · rintro ⟨hkey, hlast, hle, gap, digits, trail, hne, hdigits, hvalue, rfl⟩
    refine ⟨_, splitLine_of_parts hkey hlast hne hdigits gap trail, e.datOffset, ?_, rfl⟩
    rw [parseUnsigned_digits hne hdigits, parseDigits_eq_some_iff]
    exact ⟨hdigits, hvalue, hle⟩

end IdxText

namespace TextIdxFile

open IdxText

variable {file : TextIdxFile} {lines : List Bytes} {rest : Bytes}

/-! ### The readers of a file -/

/-- A file is read as the lines it is made of. -/
lemma fileLines_eq (h : file.mmap = joinLines lines ++ rest)
    (hlines : ∀ line ∈ lines, ¬ crlf <:+: line) (hrest : ¬ crlf <:+: rest) :
    file.fileLines = placeLines 0 lines := by
  rw [fileLines, h]
  apply crlfLines_joinLines hlines hrest
  rw [List.length_append]
  exact (length_le_length_joinLines lines).trans (Nat.le_add_right _ _)

lemma iter_eq_filterMap (file : TextIdxFile) :
    file.iter = file.fileLines.filterMap (parseLine ·.2) := iterFrom_eq _ 0 _

lemma lineCount_eq (file : TextIdxFile) : file.lineCount = file.fileLines.length := by
  have h := file.built
  rw [buildIndex, Panic.bind_eq_ok_iff] at h
  obtain ⟨build, hloop, h⟩ := h
  split_ifs at h
  cases h
  simpa [fileLines] using (buildLoop_eq_ok hloop).1

lemma iter_eq (h : file.mmap = joinLines lines ++ rest)
    (hlines : ∀ line ∈ lines, ¬ crlf <:+: line) (hrest : ¬ crlf <:+: rest) :
    file.iter = lines.filterMap parseLine := by
  rw [iter_eq_filterMap, fileLines_eq h hlines hrest]
  conv_rhs => rw [← map_snd_placeLines 0 lines, List.filterMap_map]
  rfl

/-- A file that is indexed to its end and has a line opens. -/
lemma exists_open_of_buildLoop {mmap : Bytes} {stride : ℕ} (hstride : 1 ≤ stride)
    (h : mmap = joinLines lines ++ rest) (hne : lines ≠ [])
    (hlines : ∀ line ∈ lines, ¬ crlf <:+: line) (hrest : ¬ crlf <:+: rest)
    (hbuild : ∃ build, buildLoop mmap stride mmap.length 0 ⟨[], 0, []⟩ = .ok build) :
    ∃ file, openWithStride mmap stride = .ok file ∧ file.mmap = mmap := by
  obtain ⟨build, hbuild⟩ := hbuild
  have hfuel : lines.length ≤ mmap.length := by
    rw [h, List.length_append]
    exact (length_le_length_joinLines lines).trans (Nat.le_add_right _ _)
  have hcount : build.lineCount = lines.length := by
    have hplaced := crlfLines_joinLines hlines hrest 0 hfuel
    rw [← h] at hplaced
    rw [(buildLoop_eq_ok hbuild).1, List.drop_zero, hplaced, Nat.zero_add,
      ← List.length_map (f := Prod.snd), map_snd_placeLines]
  have hindex : buildIndex mmap stride = .ok build := by
    rw [buildIndex, hbuild]
    refine if_neg ?_
    rw [hcount]
    exact (List.length_pos_of_ne_nil hne).ne'
  rw [openWithStride, if_neg (by omega)]
  split
  · rename_i hfail
    rw [hindex] at hfail
    cases hfail
  · exact ⟨_, rfl, rfl⟩

end TextIdxFile

end Callbook
