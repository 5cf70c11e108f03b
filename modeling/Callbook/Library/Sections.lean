import Callbook.Library.Framing

/-!
# Files in sections

A file of lines where a header opens a section that runs up to the next header. A malformed header
opens none, and lines in front of the first header belong to none. The reader goes through the lines
with the section that is open; what it returns is described by cutting the file in front of its
headers.
-/

namespace Sections

/-- How the lines of a file are read: `header` tells a header from another line and gives the
section that it opens, `body` enters a line in the open section, `close` completes it. -/
structure Reader (α σ : Type*) where
  header : α → Option (Option σ)
  body : σ → α → σ
  close : σ → σ

namespace Reader

variable {α σ : Type*} (r : Reader α σ)

/-- One line: the sections that are complete, and the one that is open. -/
def step (state : List σ × Option σ) (a : α) : List σ × Option σ :=
  match r.header a with
  | some opened => (state.1 ++ (state.2.map r.close).toList, opened)
  | none => (state.1, state.2.map (r.body · a))

/-- The complete sections with the one that is open at the end of the file. -/
def finish (state : List σ × Option σ) : List σ := state.1 ++ (state.2.map r.close).toList

/-- Read a file. -/
def read (l : List α) : List σ := r.finish (l.foldl r.step ([], none))

def isHeader (a : α) : Bool := (r.header a).isSome

/-- The section of a header and the lines below it. -/
def section? : List α → Option σ
  | [] => none
  | a :: lines => (r.header a).join.map fun opened => r.close (lines.foldl r.body opened)

/-! ### Sections as the file is cut -/

variable {r}

/-- Lines that are no headers go to the open section. -/
lemma foldl_step_body {lines : List α} (h : ∀ a ∈ lines, r.isHeader a = false)
    (state : List σ × Option σ) :
    lines.foldl r.step state = (state.1, state.2.map fun opened => lines.foldl r.body opened) := by
  induction lines generalizing state with
  | nil => simp
  | cons a lines ih =>
    rw [List.forall_mem_cons, isHeader, Option.isSome_eq_false_iff, Option.isNone_iff_eq_none] at h
    rw [List.foldl_cons, step, h.1, ih h.2]
    simp [Option.map_map, Function.comp_def]

/-- What is complete already does not matter for the rest. -/
lemma finish_foldl_step (l : List α) (done : List σ) (opened : Option σ) :
    r.finish (l.foldl r.step (done, opened)) =
      done ++ r.finish (l.foldl r.step ([], opened)) := by
  induction l generalizing done opened with
  | nil => simp [finish]
  | cons a l ih =>
    rw [List.foldl_cons, List.foldl_cons, step, step]
    cases r.header a with
    | none => exact ih _ _
    | some next =>
      simp only [List.nil_append]
      rw [ih, ih (opened.map r.close).toList, List.append_assoc]

/-- The reader completes an open section at the next header. -/
lemma finish_foldl_step_open {lines rest : List α} (hlines : ∀ a ∈ lines, r.isHeader a = false)
    (hrest : ∀ a ∈ rest.head?, r.isHeader a) (opened : Option σ) :
    r.finish ((lines ++ rest).foldl r.step ([], opened)) =
      (opened.map fun begun => r.close (lines.foldl r.body begun)).toList ++ r.read rest := by
  rw [List.foldl_append, foldl_step_body hlines, read]
  cases rest with
  | nil => simp [finish, Option.map_map, Function.comp_def]
  | cons a rest =>
    obtain ⟨next, hnext⟩ := Option.isSome_iff_exists.mp (hrest a rfl)
    rw [List.foldl_cons, List.foldl_cons, step, step, hnext]
    simp only [List.nil_append, Option.map_map, Function.comp_def, Option.map_none,
      Option.toList_none]
    exact finish_foldl_step _ _ _

/-- The sections are those of the headers that open one, each with the lines up to the next
header. -/
theorem read_eq (l : List α) : r.read l = (Framing.segments r.isHeader l).filterMap r.section? := by
  induction hn : l.length using Nat.strongRecOn generalizing l with
  | _ n ih =>
    cases l with
    | nil => rfl
    | cons a l =>
      have hsplit := List.takeWhile_append_dropWhile (p := (!r.isHeader ·)) (l := l)
      have hlines : ∀ b ∈ l.takeWhile (!r.isHeader ·), r.isHeader b = false :=
        fun b hb => by simpa using List.mem_takeWhile_imp hb
      have hrest : ∀ b ∈ (l.dropWhile (!r.isHeader ·)).head?, r.isHeader b := by
        intro b hb
        have := List.head?_dropWhile_not (!r.isHeader ·) l
        rw [Option.mem_def.mp hb] at this
        simpa using this
      have hlength : (l.dropWhile (!r.isHeader ·)).length < n := by
        have := (List.dropWhile_suffix (!r.isHeader ·) (l := l)).length_le
        rw [List.length_cons] at hn
        omega
      rw [Framing.segments_cons, List.filterMap_cons, section?, ← ih _ hlength _ rfl, read,
        List.foldl_cons, step]
      nth_rewrite 1 [← hsplit]
      cases hheader : r.header a with
      | none =>
        simp only [Option.map_none, Option.join_none]
        exact finish_foldl_step_open hlines hrest none
      | some opened =>
        simp only [Option.map_none, Option.toList_none, List.append_nil, Option.join_some]
        rw [finish_foldl_step_open hlines hrest]
        cases opened <;> rfl

/-- The headers that open a section, each with what it opens and the lines up to the next header. -/
def headed (r : Reader α σ) (l : List α) : List (σ × List α) :=
  (Framing.segments r.isHeader l).filterMap fun
    | [] => none
    | a :: lines => (r.header a).join.map fun opened => (opened, lines)

lemma read_eq_map_headed (l : List α) :
    r.read l = (r.headed l).map fun s => r.close (s.2.foldl r.body s.1) := by
  rw [read_eq, headed, List.map_filterMap]
  refine List.filterMap_congr fun seg _ => ?_
  cases seg with
  | nil => rfl
  | cons a lines =>
    rw [section?, Option.map_map]
    rfl

lemma exists_header_of_mem_headed {l lines : List α} {opened : σ}
    (h : (opened, lines) ∈ r.headed l) : ∃ a ∈ l, r.header a = some (some opened) := by
  obtain ⟨seg, hmem, hseg⟩ := List.mem_filterMap.mp h
  cases seg with
  | nil => cases hseg
  | cons a rest =>
    obtain ⟨found, hfound, heq⟩ := Option.map_eq_some_iff.mp hseg
    cases heq
    refine ⟨a, ?_, Option.join_eq_some_iff.mp hfound⟩
    rw [← Framing.flatten_segments r.isHeader l]
    exact List.mem_flatten_of_mem hmem List.mem_cons_self

/-- A file that starts with a header can be read by itself behind another one. -/
theorem read_append (l : List α) {m : List α} (h : ∀ a ∈ m.head?, r.isHeader a) :
    r.read (l ++ m) = r.read l ++ r.read m := by
  rw [read_eq, read_eq, read_eq, Framing.segments_append _ l h, List.filterMap_append]

/-- Lines without a header hold no section. -/
lemma read_of_forall {l : List α} (h : ∀ a ∈ l, r.isHeader a = false) : r.read l = [] := by
  rw [read, foldl_step_body h]
  rfl

/-- Every file is cut into headers, each with the lines below it. -/
lemma exists_frames (r : Reader α σ) (l : List α) : ∃ frames : List (α × List α),
    l = l.takeWhile (!r.isHeader ·) ++ frames.flatMap (fun f => f.1 :: f.2) ∧
      ∀ f ∈ frames, r.isHeader f.1 ∧ ∀ a ∈ f.2, r.isHeader a = false := by
  induction l with
  | nil => exact ⟨[], rfl, by simp⟩
  | cons a l ih =>
    obtain ⟨frames, hl, hframes⟩ := ih
    by_cases ha : r.isHeader a
    · refine ⟨(a, l.takeWhile (!r.isHeader ·)) :: frames, ?_, ?_⟩
      · rw [List.takeWhile_cons_of_neg (by simpa using ha), List.flatMap_cons, List.nil_append,
          List.cons_append, ← hl]
      · rw [List.forall_mem_cons]
        exact ⟨⟨ha, fun b hb => by simpa using List.mem_takeWhile_imp hb⟩, hframes⟩
    · refine ⟨frames, ?_, hframes⟩
      rw [List.takeWhile_cons_of_pos (by simpa using ha), List.cons_append, ← hl]

/-- A file that is cut into headers and lines is read header by header. -/
theorem read_frames {front : List α} (hfront : ∀ a ∈ front, r.isHeader a = false)
    {frames : List (α × List α)}
    (h : ∀ f ∈ frames, r.isHeader f.1 ∧ ∀ a ∈ f.2, r.isHeader a = false) :
    r.read (front ++ frames.flatMap fun f => f.1 :: f.2) =
      frames.filterMap fun f => r.section? (f.1 :: f.2) := by
  have hhead : ∀ {frames : List (α × List α)},
      (∀ f ∈ frames, r.isHeader f.1 ∧ ∀ a ∈ f.2, r.isHeader a = false) →
        ∀ a ∈ (frames.flatMap fun f => f.1 :: f.2).head?, r.isHeader a := by
    intro frames h a ha
    cases frames with
    | nil => cases ha
    | cons f frames =>
      cases ha
      exact (h f List.mem_cons_self).1
  rw [read_append _ (hhead h), read_of_forall hfront, List.nil_append]
  induction frames with
  | nil => rfl
  | cons f frames ih =>
    rw [List.forall_mem_cons] at h
    rw [List.flatMap_cons, read_append _ (hhead h.2), ih h.2, read_eq,
      Framing.segments_singleton _ f.1 h.1.2, List.filterMap_cons, List.filterMap_cons]
    cases r.section? (f.1 :: f.2) <;> rfl

/-- One section is read back. -/
lemma read_cons {a : α} {opened : σ} (ha : r.header a = some (some opened)) {lines : List α}
    (h : ∀ b ∈ lines, r.isHeader b = false) :
    r.read (a :: lines) = [r.close (lines.foldl r.body opened)] := by
  rw [read_eq, Framing.segments_singleton _ a h]
  simp [section?, ha]

/-- Sections that are written one behind the other are read back. -/
theorem read_flatMap {β : Type*} {write : β → List α} {value : β → σ} {l : List β}
    (hhead : ∀ b ∈ l, ∀ a ∈ (write b).head?, r.isHeader a)
    (hread : ∀ b ∈ l, r.read (write b) = [value b]) : r.read (l.flatMap write) = l.map value := by
  induction l with
  | nil => rfl
  | cons b l ih =>
    rw [List.forall_mem_cons] at hhead hread
    have hnext : ∀ a ∈ (l.flatMap write).head?, r.isHeader a := by
      intro a ha
      cases l with
      | nil => cases ha
      | cons c l =>
        rw [List.flatMap_cons] at ha
        have hne : write c ≠ [] := by
          intro hnil
          have := hread.2 c List.mem_cons_self
          rw [hnil] at this
          cases this
        rw [List.head?_append_of_ne_nil _ hne] at ha
        exact hhead.2 c List.mem_cons_self a ha
    rw [List.flatMap_cons, read_append _ hnext, hread.1, ih hhead.2 hread.2, List.map_cons,
      List.singleton_append]

end Reader

end Sections
