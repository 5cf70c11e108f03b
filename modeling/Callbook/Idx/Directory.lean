import Callbook.Idx.Lines
import Callbook.Library.Sampling

/-!
# The directory of an IDX file

The directory holds the start of every line whose number is a multiple of the stride. The start of
what stands behind the last complete line is entered as well when its number is one.
-/

namespace Callbook

open Text

namespace IdxText

/-- Where the build loop stops: at the lines, and at what stands behind the last of them. -/
def lineStarts (pos : ℕ) (lines : List Bytes) (rest : Bytes) : List ℕ :=
  (placeLines pos lines).map Prod.fst ++
    if rest = [] then [] else [pos + (joinLines lines).length]

lemma lineStarts_cons (pos : ℕ) (line : Bytes) (lines : List Bytes) (rest : Bytes) :
    lineStarts pos (line :: lines) rest =
      pos :: lineStarts (pos + line.length + 2) lines rest := by
  have hend : pos + (joinLines (line :: lines)).length =
      pos + line.length + 2 + (joinLines lines).length := by
    rw [joinLines_cons, List.length_append, List.length_append]
    show pos + (line.length + 2 + _) = _
    omega
  rw [lineStarts, placeLines, List.map_cons, List.cons_append, hend, ← lineStarts]

/-- The starts increase. -/
lemma pairwise_lineStarts (pos : ℕ) (lines : List Bytes) (rest : Bytes) :
    (lineStarts pos lines rest).Pairwise (· < ·) ∧
      ∀ start ∈ lineStarts pos lines rest, pos ≤ start := by
  induction lines generalizing pos with
  | nil =>
    rw [lineStarts, placeLines, List.map_nil, List.nil_append]
    split_ifs <;> simp
  | cons line lines ih =>
    obtain ⟨hpairwise, hle⟩ := ih (pos + line.length + 2)
    rw [lineStarts_cons, List.pairwise_cons, List.forall_mem_cons]
    refine ⟨⟨fun start hstart => ?_, hpairwise⟩, le_rfl, fun start hstart => ?_⟩
    · have := hle start hstart
      omega
    · have := hle start hstart
      omega

/-! ### The build loop -/

lemma directory_of_anchor {stride pos : ℕ} {build build' : Build}
    (h : build.anchor stride pos = .ok build') :
    build'.directory = build.directory ++ Sampling.every stride build.lineCount [pos] := by
  rw [Build.anchor] at h
  rw [Sampling.every, Sampling.every]
  split_ifs at h ⊢
  · cases h
    rfl
  · cases h
    exact (List.append_nil _).symm

/-- The loop enters the starts at which its line count is a multiple of the stride. -/
lemma directory_of_buildLoop {mmap : Bytes} {stride fuel pos : ℕ} {lines : List Bytes}
    {rest : Bytes} {build build' : Build} (hmmap : mmap.drop pos = joinLines lines ++ rest)
    (hlines : ∀ line ∈ lines, ¬ crlf <:+: line) (hrest : ¬ crlf <:+: rest)
    (hfuel : (mmap.drop pos).length ≤ fuel)
    (h : buildLoop mmap stride fuel pos build = .ok build') :
    build'.directory = build.directory ++
      Sampling.every stride build.lineCount (lineStarts pos lines rest) := by
  induction lines generalizing fuel pos build with
  | nil =>
    rw [joinLines_nil, List.nil_append] at hmmap
    have hstarts : lineStarts pos [] rest = if rest = [] then [] else [pos] := rfl
    rw [hstarts]
    cases fuel with
    | zero =>
      have hnil : rest = [] := by
        rw [← hmmap]
        exact List.length_eq_zero_iff.mp (Nat.le_zero.mp hfuel)
      cases h
      rw [if_pos hnil, Sampling.every, List.append_nil]
    | succ fuel =>
      rw [buildLoop] at h
      split_ifs at h with hlt
      · have hne : rest ≠ [] := by
          rw [← hmmap]
          simpa using hlt
        rw [hmmap, findText_eq_none_iff.mpr hrest, Panic.bind_eq_ok_iff] at h
        obtain ⟨anchored, hanchor, h⟩ := h
        cases h
        rw [if_neg hne, directory_of_anchor hanchor]
      · have hnil : rest = [] := by
          rw [← hmmap]
          exact List.drop_eq_nil_of_le (not_lt.mp hlt)
        cases h
        rw [if_pos hnil, Sampling.every, List.append_nil]
  | cons line lines ih =>
    rw [List.forall_mem_cons] at hlines
    have hend := findText_crlf hlines.1 (joinLines lines ++ rest)
    rw [joinLines_cons, List.append_assoc] at hmmap
    have hlen : (mmap.drop pos).length = line.length + 2 + (joinLines lines ++ rest).length := by
      rw [hmmap, List.length_append, List.length_append]
      rfl
    have hdrop : mmap.drop (pos + line.length + 2) = joinLines lines ++ rest := by
      rw [Nat.add_assoc, ← List.drop_drop, hmmap]
      exact List.drop_left' (by rw [List.length_append]; rfl)
    cases fuel with
    | zero => omega
    | succ fuel =>
      have hlt : pos < mmap.length := by
        rw [List.length_drop] at hlen
        omega
      rw [buildLoop, if_pos hlt, hmmap, hend, Panic.bind_eq_ok_iff] at h
      obtain ⟨anchored, hanchor, h⟩ := h
      have hfuel' : (mmap.drop (pos + line.length + 2)).length ≤ fuel := by
        rw [hdrop]
        omega
      rw [ih hdrop hlines.2 hfuel' h, lineStarts_cons]
      simp only [Build.line, directory_of_anchor hanchor, (anchor_eq_ok hanchor).1]
      rw [List.append_assoc]
      exact congrArg _ (Sampling.every_append _ [pos] _).symm

lemma exists_joinLines_eq {lines : List Bytes} (hne : lines ≠ []) :
    ∃ front, joinLines lines = front ++ crlf := by
  obtain ⟨front, line, rfl⟩ := (List.eq_nil_or_concat' lines).resolve_left hne
  refine ⟨joinLines front ++ line, ?_⟩
  rw [joinLines_append, joinLines_cons, joinLines_nil, List.append_nil, List.append_assoc]

/-- A file ends with CR LF exactly when nothing stands behind its last complete line. -/
lemma crlf_suffix_iff {lines : List Bytes} {rest : Bytes} (hne : lines ≠ [])
    (hrest : ¬ crlf <:+: rest) : crlf <:+ joinLines lines ++ rest ↔ rest = [] := by
  obtain ⟨front, hfront⟩ := exists_joinLines_eq hne
  rw [hfront]
  constructor
  · intro h
    rcases List.suffix_or_suffix_of_suffix h (List.suffix_append _ rest) with hin | hin
    · exact absurd hin.isInfix hrest
    · rw [crlf, List.suffix_cons_iff, List.suffix_cons_iff, List.suffix_nil] at hin
      rcases hin with rfl | rfl | rfl
      · exact absurd List.infix_rfl hrest
      · -- a lone line feed stands behind another one
        obtain ⟨back, hback⟩ := h
        have hsplit : back ++ [0x0d] ++ [0x0a] = front ++ crlf ++ [0x0a] := by
          rw [← hback, crlf, List.append_assoc]
          rfl
        have hcut := (List.append_inj' hsplit rfl).1
        have hcut' : back ++ [0x0d] = front ++ [0x0d] ++ [0x0a] := by
          rw [hcut, crlf, List.append_assoc]
          rfl
        exact absurd (List.append_inj' hcut' rfl).2 (by decide)
      · rfl
  · rintro rfl
    rw [List.append_nil]
    exact List.suffix_append _ _

end IdxText

namespace TextIdxFile

open IdxText

variable {file : TextIdxFile} {lines : List Bytes} {rest : Bytes}

lemma openWithStride_eq_ok {mmap : Bytes} {stride : ℕ} (h : openWithStride mmap stride = .ok file) :
    1 ≤ stride ∧ file.mmap = mmap ∧ file.stride = stride := by
  rw [openWithStride] at h
  split_ifs at h with hstride
  split at h
  · cases h
  · cases h
    exact ⟨not_lt.mp hstride, rfl, rfl⟩

lemma lineCount_ne_zero (file : TextIdxFile) : file.lineCount ≠ 0 := by
  have h := file.built
  rw [buildIndex, Panic.bind_eq_ok_iff] at h
  obtain ⟨build, -, h⟩ := h
  split_ifs at h with hzero
  cases h
  exact hzero

lemma directory_eq (h : file.mmap = joinLines lines ++ rest)
    (hlines : ∀ line ∈ lines, ¬ crlf <:+: line) (hrest : ¬ crlf <:+: rest) :
    file.directory = Sampling.every file.stride 0 (lineStarts 0 lines rest) := by
  have hbuilt := file.built
  rw [buildIndex, Panic.bind_eq_ok_iff] at hbuilt
  obtain ⟨build, hloop, hbuilt⟩ := hbuilt
  split_ifs at hbuilt
  cases hbuilt
  rw [← List.drop_zero (l := file.mmap)] at h
  exact directory_of_buildLoop h hlines hrest (by rw [List.drop_zero]) hloop

/-- The directory holds the start of every line whose number is a multiple of the stride, and
nothing else. -/
structure DirectoryExact (file : TextIdxFile) : Prop where
  size : file.directory.length = (file.len + file.stride - 1) / file.stride
  anchor : ∀ (i anchor : ℕ), file.directory[i]? = some anchor →
    ∃ line, file.fileLines[i * file.stride]? = some (anchor, line)
  increasing : file.directory.Pairwise (· < ·)
  first : file.directory.head? = some 0
  unit : file.stride = 1 → file.directory.length = file.len

/-- The anchors of a file with something behind its last complete line, and of one without. -/
lemma length_directory (hstride : 1 ≤ file.stride) (h : file.mmap = joinLines lines ++ rest)
    (hlines : ∀ line ∈ lines, ¬ crlf <:+: line) (hrest : ¬ crlf <:+: rest) :
    file.directory.length =
      if rest ≠ [] ∧ file.stride ∣ lines.length then
        (lines.length + file.stride - 1) / file.stride + 1
      else (lines.length + file.stride - 1) / file.stride := by
  have hplaced : ((placeLines 0 lines).map Prod.fst).length = lines.length := by
    rw [List.length_map, ← List.length_map (f := Prod.snd), map_snd_placeLines]
  rw [directory_eq h hlines hrest, lineStarts]
  by_cases hnil : rest = []
  · rw [if_pos hnil, List.append_nil, Sampling.length_every_zero hstride, hplaced,
      if_neg fun hand => hand.1 hnil]
  · rw [if_neg hnil, Sampling.length_every_concat, Sampling.length_every_zero hstride, hplaced]
    simp only [ne_eq, hnil, not_false_eq_true, true_and]

lemma exists_line_of_anchor (hstride : 1 ≤ file.stride) (h : file.mmap = joinLines lines ++ rest)
    (hlines : ∀ line ∈ lines, ¬ crlf <:+: line) (hrest : ¬ crlf <:+: rest)
    (hend : rest = [] ∨ ¬ file.stride ∣ lines.length) {i anchor : ℕ}
    (hanchor : file.directory[i]? = some anchor) :
    ∃ line, file.fileLines[i * file.stride]? = some (anchor, line) := by
  have hplaced : ((placeLines 0 lines).map Prod.fst).length = lines.length := by
    rw [List.length_map, ← List.length_map (f := Prod.snd), map_snd_placeLines]
  rw [directory_eq h hlines hrest, Sampling.getElem?_every_zero hstride, lineStarts] at hanchor
  rw [fileLines_eq h hlines hrest]
  rcases lt_or_ge (i * file.stride) lines.length with hlt | hge
  · rw [List.getElem?_append_left (by rwa [hplaced]), List.getElem?_map, Option.map_eq_some_iff]
      at hanchor
    obtain ⟨⟨_, line⟩, hline, rfl⟩ := hanchor
    exact ⟨line, hline⟩
  · -- what stands behind the last line has a number that is no multiple of the stride
    rw [List.getElem?_append_right (by rwa [hplaced]), hplaced] at hanchor
    split_ifs at hanchor with hnil
    · cases hanchor
    · obtain ⟨hzero, -⟩ := List.getElem?_eq_some_iff.mp hanchor
      rw [List.length_singleton] at hzero
      have hdvd : file.stride ∣ lines.length := ⟨i, by rw [Nat.mul_comm]; omega⟩
      exact absurd hdvd (hend.resolve_left hnil)

/-- The directory is exact unless something stands behind the last complete line and the number of
complete lines is a multiple of the stride. -/
theorem directoryExact_iff {mmap : Bytes} {stride : ℕ} {file : TextIdxFile}
    (hopen : openWithStride mmap stride = .ok file) :
    file.DirectoryExact ↔ crlf <:+ mmap ∨ ¬ stride ∣ file.fileLines.length := by
  obtain ⟨hstride, rfl, rfl⟩ := openWithStride_eq_ok hopen
  obtain ⟨lines, rest, hsplit, hlines, hrest⟩ := exists_joinLines file.mmap
  have hcount : file.fileLines.length = lines.length := by
    rw [fileLines_eq hsplit hlines hrest, ← List.length_map (f := Prod.snd), map_snd_placeLines]
  have hlen : file.len = lines.length := by rw [len, lineCount_eq, hcount]
  have hne : lines ≠ [] := by
    rw [← List.length_pos_iff, ← hlen, Nat.pos_iff_ne_zero]
    exact file.lineCount_ne_zero
  have hlength := length_directory hstride hsplit hlines hrest
  have hsuffix := crlf_suffix_iff hne hrest
  rw [← hsplit] at hsuffix
  rw [hsuffix, hcount]
  constructor
  · intro hexact
    have hsize := hexact.size
    rw [hlen, hlength] at hsize
    by_contra hboth
    rw [not_or, not_not] at hboth
    rw [if_pos hboth] at hsize
    omega
  · intro hend
    have hboth : ¬ (rest ≠ [] ∧ file.stride ∣ lines.length) := by tauto
    rw [if_neg hboth, ← hlen] at hlength
    refine ⟨hlength, fun i anchor => exists_line_of_anchor hstride hsplit hlines hrest hend, ?_, ?_,
      fun hunit => ?_⟩
    · rw [directory_eq hsplit hlines hrest]
      exact (pairwise_lineStarts 0 lines rest).1.sublist (Sampling.every_sublist _ _ _)
    · obtain ⟨line, lines, rfl⟩ := List.exists_cons_of_ne_nil hne
      rw [directory_eq hsplit hlines hrest, lineStarts_cons, Sampling.every, Nat.zero_mod,
        if_pos rfl, List.head?_cons]
    · rw [hlength, hunit, Nat.div_one, Nat.add_sub_cancel]

lemma openWithStride_self (file : TextIdxFile) (hstride : 1 ≤ file.stride) :
    openWithStride file.mmap file.stride = .ok file := by
  rw [openWithStride, if_neg (by omega)]
  split
  · rename_i hfail
    rw [file.built] at hfail
    cases hfail
  · rename_i build hbuild
    rw [file.built] at hbuild
    cases hbuild
    rfl

/-- One line, and one byte behind it. -/
def looseEndFile : TextIdxFile :=
  ⟨ascii "K0A 1\r\nx", [⟨0, 3, 0, 1⟩], [0, 7], 1, 1, by decide +kernel⟩

/-- Three lines, of which every second one has an anchor. -/
def everySecondFile : TextIdxFile :=
  ⟨ascii "K0A 1\r\nK0B 4\r\nK0C 9\r\n", [⟨0, 3, 0, 1⟩, ⟨7, 3, 7, 4⟩, ⟨14, 3, 14, 9⟩],
    [0, 14], 3, 2, by decide +kernel⟩

theorem directoryExact_everySecondFile : everySecondFile.DirectoryExact :=
  (directoryExact_iff (openWithStride_self everySecondFile (by decide))).mpr
    (.inl (by decide +kernel))

/-- The byte behind the last line gets an anchor of its own. -/
theorem not_directoryExact_looseEndFile : ¬ ∀ (mmap : Bytes) (stride : ℕ) (file : TextIdxFile),
    1 ≤ stride → openWithStride mmap stride = .ok file → file.DirectoryExact := by
  intro h
  have hexact := h _ _ looseEndFile le_rfl (openWithStride_self looseEndFile le_rfl)
  exact absurd hexact.size (by decide +kernel)

end TextIdxFile

end Callbook
