import Callbook.Library.Framing

/-!
# Scanning a framed stream

A scanner reads a stream symbol by symbol. At a sentinel it closes the record it is in and starts
the next one, and at the end it closes the last. Its cursor holds what it has read of the record,
and its output changes only when a record is closed. What it puts out are then the records of the
stream, one after the other; nothing is put out in front of the first sentinel.
-/

namespace Scanner

variable {α σ κ τ : Type*}

/-- One symbol. -/
def step (p : α → Bool) (push : σ → α → σ) (start close : σ → σ) (s : σ) (a : α) : σ :=
  if p a then start (close s) else push s a

/-- The whole stream. -/
def scan (p : α → Bool) (push : σ → α → σ) (start close : σ → σ) (s : σ) (l : List α) : σ :=
  close (l.foldl (step p push start close) s)

/-- The records of a stream, without their sentinels. -/
def bodies (p : α → Bool) (l : List α) : List (List α) :=
  (Framing.segments p (l.dropWhile (!p ·))).map List.tail

/-- A scanner whose cursor goes from symbol to symbol on its own, and whose output changes only when
a record is closed: `record` says how. -/
structure Reads (push : σ → α → σ) (start close : σ → σ) (cursor : σ → κ) (out : σ → τ)
    (pushCursor : κ → α → κ) (startCursor : κ → κ) (record : τ → List α → τ) : Prop where
  cursor_push : ∀ s a, cursor (push s a) = pushCursor (cursor s) a
  cursor_start : ∀ s, cursor (start s) = startCursor (cursor s)
  out_push : ∀ s a, out (push s a) = out s
  out_start : ∀ s, out (start s) = out s
  out_close : ∀ s k body, cursor s = body.foldl pushCursor (startCursor k) →
    out (close s) = record (out s) body

variable {p : α → Bool} {push : σ → α → σ} {start close : σ → σ}

/-- What stands in a record is not a sentinel, so it is pushed. -/
lemma foldl_step {body : List α} (h : ∀ a ∈ body, p a = false) (s : σ) :
    body.foldl (step p push start close) s = body.foldl push s := by
  induction body generalizing s with
  | nil => rfl
  | cons a body ih =>
    rw [List.forall_mem_cons] at h
    rw [List.foldl_cons, List.foldl_cons, step, if_neg (by simp [h.1]), ih h.2]

lemma exists_of_mem_segments {l g : List α}
    (h : g ∈ Framing.segments p (l.dropWhile (!p ·))) :
    ∃ a body, g = a :: body ∧ p a ∧ ∀ b ∈ body, p b = false := by
  obtain ⟨a, body, rfl, hbody⟩ := Framing.exists_cons_of_mem_segments p h
  have hhead : ∀ b ∈ (l.dropWhile (!p ·)).head?, p b := by
    intro b hb
    have hnot := List.head?_dropWhile_not (!p ·) l
    rw [Option.mem_def.mp hb] at hnot
    simpa using hnot
  exact ⟨a, body, rfl, Framing.opened_of_mem_segments hhead h a rfl, hbody⟩

namespace Reads

variable {cursor : σ → κ} {out : σ → τ} {pushCursor : κ → α → κ} {startCursor : κ → κ}
  {record : τ → List α → τ}
  (h : Reads push start close cursor out pushCursor startCursor record)

include h

lemma foldl_push (body : List α) (s : σ) :
    cursor (body.foldl push s) = body.foldl pushCursor (cursor s) ∧
      out (body.foldl push s) = out s := by
  induction body generalizing s with
  | nil => exact ⟨rfl, rfl⟩
  | cons a body ih =>
    obtain ⟨hcursor, hout⟩ := ih (push s a)
    exact ⟨hcursor.trans (by rw [h.cursor_push, List.foldl_cons]), hout.trans (h.out_push s a)⟩

/-- A run over records puts out each of them. -/
lemma out_foldl_segments {segs : List (List α)}
    (hsegs : ∀ g ∈ segs, ∃ a body, g = a :: body ∧ p a ∧ ∀ b ∈ body, p b = false) (s : σ) :
    out (close (segs.flatten.foldl (step p push start close) s)) =
      (segs.map List.tail).foldl record (out (close s)) := by
  induction segs generalizing s with
  | nil => rfl
  | cons g segs ih =>
    rw [List.forall_mem_cons] at hsegs
    obtain ⟨⟨a, body, rfl, ha, hbody⟩, hsegs⟩ := hsegs
    have hstep : step p push start close s a = start (close s) := if_pos ha
    obtain ⟨hcursor, hout⟩ := h.foldl_push body (start (close s))
    rw [h.cursor_start] at hcursor
    rw [List.flatten_cons, List.foldl_append, ih hsegs, List.foldl_cons, hstep, foldl_step hbody,
      h.out_close _ _ _ hcursor, hout, h.out_start]
    rfl

/-- A scan from a state outside any record puts out the records of the stream. -/
theorem out_scan {s : σ} (houtside : ∀ s' (head : List α),
      cursor s' = head.foldl pushCursor (cursor s) → out (close s') = out s') (l : List α) :
    out (scan p push start close s l) = (bodies p l).foldl record (out s) := by
  have hclean : ∀ a ∈ l.takeWhile (!p ·), p a = false := by
    intro a ha
    simpa using List.mem_takeWhile_imp ha
  obtain ⟨hcursor, hout⟩ := h.foldl_push (l.takeWhile (!p ·)) s
  have hscan : l.foldl (step p push start close) s =
      (Framing.segments p (l.dropWhile (!p ·))).flatten.foldl (step p push start close)
        ((l.takeWhile (!p ·)).foldl push s) := by
    conv_lhs => rw [← List.takeWhile_append_dropWhile (p := (!p ·)) (l := l), List.foldl_append,
      foldl_step hclean]
    rw [Framing.flatten_segments]
  rw [scan, hscan, h.out_foldl_segments fun g hg => exists_of_mem_segments hg,
    houtside _ _ hcursor, hout]
  rfl

end Reads

end Scanner
