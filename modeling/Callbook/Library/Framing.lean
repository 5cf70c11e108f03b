import Callbook.Library.ByteOrder

/-!
# Sentinel framing

A stream in which every record opens with a sentinel symbol and runs up to the next one. The
predicate `p` recognises the sentinels. `segments` cuts a stream in front of every sentinel; only
its first segment may lack one, when the stream starts in the middle of a record.
-/

namespace Framing

variable {α : Type*} (p : α → Bool)

/-- Put a symbol in front of a cut stream: it opens a segment of its own before a sentinel and
joins the first segment otherwise. -/
def attach (a : α) : List (List α) → List (List α)
  | [] => [[a]]
  | seg :: segs => if seg.head?.any p then [a] :: seg :: segs else (a :: seg) :: segs

/-- Cut a stream in front of every sentinel. -/
def segments : List α → List (List α)
  | [] => []
  | a :: l => attach p a (segments l)

/-- The segments that a later sentinel closes. -/
def closedSegments (l : List α) : List (List α) := (segments p l).dropLast

/-- The stretch of `l` from `s` up to `e`. -/
def slice (l : List α) (s e : ℕ) : List α := (l.drop s).take (e - s)

/-- Lists that stand one behind the other from `start` on, with their positions. -/
def located : ℕ → List (List α) → List (ℕ × List α)
  | _, [] => []
  | start, seg :: segs => (start, seg) :: located (start + seg.length) segs

/-- A stretch is what stands between two ends of the list. -/
lemma slice_append_drop (l : List α) {s e : ℕ} (h : s ≤ e) :
    slice l s e ++ l.drop e = l.drop s := by
  rw [slice, ← Nat.add_sub_cancel' h, ← List.drop_drop, Nat.add_sub_cancel_left,
    List.take_append_drop]

/-- The stretch `[s, e)` of `l` opens with a sentinel and runs to the next one or to the end. -/
structure IsFrame (l : List α) (s e : ℕ) : Prop where
  lt : s < e
  le : e ≤ l.length
  opened : ∀ a, l[s]? = some a → p a
  body : ∀ i a, s < i → i < e → l[i]? = some a → p a = false
  closed : ∀ a, l[e]? = some a → p a

/-- `g` is one complete frame of `l`, in terms of what stands around it. -/
def HasFrame (l g : List α) : Prop :=
  ∃ l₁ a t l₂, l = l₁ ++ (a :: t) ++ l₂ ∧ g = a :: t ∧ p a ∧ (∀ b ∈ t, p b = false) ∧
    ∀ b ∈ l₂.head?, p b

/-! ### Segments -/

variable {p} in
/-- What stands in front of the first sentinel, and what stands from it on. -/
lemma takeWhile_append_eq {l m : List α} (hl : ∀ a ∈ l, p a = false) (hm : ∀ a ∈ m.head?, p a) :
    (l ++ m).takeWhile (!p ·) = l ∧ (l ++ m).dropWhile (!p ·) = m := by
  have hall : ∀ a ∈ l, (!p a) = true := fun a ha => by simp [hl a ha]
  have htake : m.takeWhile (!p ·) = [] ∧ m.dropWhile (!p ·) = m := by
    cases m with
    | nil => exact ⟨rfl, rfl⟩
    | cons a m => simp [hm a rfl]
  rw [List.takeWhile_append_of_pos hall, List.dropWhile_append_of_pos hall, htake.1, htake.2,
    List.append_nil]
  exact ⟨rfl, rfl⟩

variable {p} in
/-- What remains behind the symbols in front of the first sentinel opens with it. -/
lemma head?_dropWhile_not {l : List α} : ∀ a ∈ (l.dropWhile (!p ·)).head?, p a := by
  intro a ha
  have hhead := List.head?_dropWhile_not (fun a => !p a) l
  rw [Option.mem_def.mp ha] at hhead
  simpa using hhead

@[simp] lemma segments_nil : segments p [] = [] := rfl

lemma head_attach (a : α) (segs : List (List α)) :
    (attach p a segs).head?.bind List.head? = some a := by
  cases segs with
  | nil => rfl
  | cons seg segs => simp only [attach]; split_ifs <;> rfl

lemma segments_ne_nil {l : List α} (h : l ≠ []) : segments p l ≠ [] := by
  obtain ⟨a, l, rfl⟩ := List.exists_cons_of_ne_nil h
  intro hnil
  have := head_attach p a (segments p l)
  rw [segments] at hnil
  simp [hnil] at this

lemma flatten_attach (a : α) (segs : List (List α)) :
    (attach p a segs).flatten = a :: segs.flatten := by
  cases segs with
  | nil => rfl
  | cons seg segs => simp only [attach]; split_ifs <;> simp

@[simp] lemma flatten_segments (l : List α) : (segments p l).flatten = l := by
  induction l with
  | nil => rfl
  | cons a l ih => rw [segments, flatten_attach, ih]

/-- A segment is its first symbol and the run of non-sentinels after it. -/
lemma segments_cons (a : α) (l : List α) :
    segments p (a :: l) = (a :: l.takeWhile (!p ·)) :: segments p (l.dropWhile (!p ·)) := by
  induction l generalizing a with
  | nil => simp [segments, attach]
  | cons b l ih =>
    rw [segments, ih b]
    by_cases hb : p b
    · simp [attach, hb, ih b]
    · simp [attach, hb]

lemma segments_singleton (a : α) {l : List α} (h : ∀ b ∈ l, p b = false) :
    segments p (a :: l) = [a :: l] := by
  have ht : l.takeWhile (!p ·) = l := by
    rw [List.takeWhile_eq_self_iff]; simpa using h
  have hd : l.dropWhile (!p ·) = [] := by
    rw [List.dropWhile_eq_nil_iff]; simpa using h
  rw [segments_cons, ht, hd, segments_nil]

/-- A sentinel starts a new segment, so cutting splits there. -/
lemma segments_append (l : List α) {m : List α} (h : ∀ a ∈ m.head?, p a) :
    segments p (l ++ m) = segments p l ++ segments p m := by
  induction l with
  | nil => rfl
  | cons a l ih =>
    rw [List.cons_append, segments, ih, segments]
    cases hl : segments p l with
    | cons seg segs => simp only [List.cons_append, attach]; split_ifs <;> rfl
    | nil =>
      cases m with
      | nil => simp
      | cons b m =>
        have hb : p b := h b rfl
        rw [List.nil_append, segments_cons]
        simp [attach, hb]

lemma mem_attach {a : α} {segs : List (List α)} {g : List α} (h : g ∈ attach p a segs) :
    g = [a] ∨ g ∈ segs ∨ ∃ seg ∈ segs, seg.head?.any p = false ∧ g = a :: seg := by
  cases segs with
  | nil => exact Or.inl (by simpa [attach] using h)
  | cons seg segs =>
    simp only [attach] at h
    split_ifs at h with hs
    · rcases List.mem_cons.mp h with rfl | h
      · exact Or.inl rfl
      · exact Or.inr (Or.inl h)
    · rcases List.mem_cons.mp h with rfl | h
      · exact Or.inr (Or.inr ⟨seg, List.mem_cons_self, by simpa using hs, rfl⟩)
      · exact Or.inr (Or.inl (List.mem_cons_of_mem _ h))

/-- Inside a segment there is no sentinel after its first symbol. -/
lemma exists_cons_of_mem_segments {l g : List α} (h : g ∈ segments p l) :
    ∃ a t, g = a :: t ∧ ∀ b ∈ t, p b = false := by
  induction l generalizing g with
  | nil => simp at h
  | cons a l ih =>
    rcases mem_attach p h with rfl | h | ⟨seg, hseg, hp, rfl⟩
    · exact ⟨a, [], rfl, by simp⟩
    · exact ih h
    · obtain ⟨b, t, rfl, ht⟩ := ih hseg
      have hb : p b = false := by simpa using hp
      exact ⟨a, b :: t, rfl, by simpa [hb] using ht⟩

/-- Every segment but the first opens with a sentinel. -/
lemma opened_of_mem_tail {l g : List α} (h : g ∈ (segments p l).tail) : ∀ a ∈ g.head?, p a := by
  induction l with
  | nil => simp at h
  | cons a l ih =>
    rw [segments] at h
    cases hl : segments p l with
    | nil => simp [hl, attach] at h
    | cons seg segs =>
      rw [hl] at h ih
      simp only [attach] at h
      split_ifs at h with hs
      · rcases List.mem_cons.mp h with rfl | h
        · intro b hb
          simpa [Option.mem_def.mp hb] using hs
        · exact ih h
      · exact ih h

/-- A list of nonempty sentinel-free-tailed pieces, all but the first opened by a sentinel. -/
def Cut (segs : List (List α)) : Prop :=
  (∀ g ∈ segs, ∃ a t, g = a :: t ∧ ∀ b ∈ t, p b = false) ∧
    ∀ g ∈ segs.tail, ∀ a ∈ g.head?, p a

lemma cut_segments (l : List α) : Cut p (segments p l) :=
  ⟨fun _ => exists_cons_of_mem_segments p, fun _ => opened_of_mem_tail p⟩

variable {p}

lemma Cut.of_append {segs segs' : List (List α)} (h : Cut p (segs ++ segs')) :
    Cut p segs ∧ Cut p segs' := by
  obtain ⟨hclean, hopen⟩ := h
  refine ⟨⟨fun g hg => hclean g (by simp [hg]), fun g hg => hopen g ?_⟩,
    ⟨fun g hg => hclean g (by simp [hg]), fun g hg => hopen g ?_⟩⟩
  · cases segs with
    | nil => simp at hg
    | cons s segs => simp at hg ⊢; exact Or.inl hg
  · cases segs with
    | nil => simpa using hg
    | cons s segs => simp [List.mem_of_mem_tail hg]

/-- Behind the first piece, what remains opens with a sentinel. -/
lemma Cut.head_flatten {g : List α} {segs : List (List α)} (h : Cut p (g :: segs)) :
    ∀ a ∈ segs.flatten.head?, p a := by
  cases segs with
  | nil => simp
  | cons g' segs =>
    obtain ⟨b, t, rfl, -⟩ := h.1 g' (by simp)
    simpa using h.2 (b :: t) (by simp)

/-- Cutting what a cut list came from gives that list back. -/
lemma Cut.segments_flatten {segs : List (List α)} (h : Cut p segs) :
    segments p segs.flatten = segs := by
  induction segs with
  | nil => rfl
  | cons g segs ih =>
    obtain ⟨a, t, rfl, ht⟩ := h.1 g (by simp)
    rw [List.flatten_cons, segments_append p _ h.head_flatten, segments_singleton p a ht,
      ih (@Cut.of_append _ p [a :: t] segs h).2, List.singleton_append]

variable (p)

/-! ### Frames -/

/-- The complete frames of a stream are its segments that open with a sentinel. -/
lemma hasFrame_iff_mem_segments {l g : List α} :
    HasFrame p l g ↔ g ∈ segments p l ∧ ∀ a ∈ g.head?, p a := by
  constructor
  · rintro ⟨l₁, a, t, l₂, rfl, rfl, ha, ht, hl₂⟩
    refine ⟨?_, by simpa using ha⟩
    rw [List.append_assoc, segments_append p l₁ (by simpa using ha), segments_append p _ hl₂,
      segments_singleton p a ht]
    simp
  · rintro ⟨hg, ha⟩
    obtain ⟨a, t, rfl, ht⟩ := exists_cons_of_mem_segments p hg
    obtain ⟨segs, segs', hsegs⟩ := List.append_of_mem hg
    have hcut : Cut p ((a :: t) :: segs') :=
      (Cut.of_append (hsegs ▸ cut_segments p l)).2
    refine ⟨segs.flatten, a, t, segs'.flatten, ?_, rfl, by simpa using ha, ht,
      hcut.head_flatten⟩
    conv_lhs => rw [← flatten_segments p l, hsegs]
    simp

variable {p} in
/-- What is surrounded as a frame is one, where it stands. -/
lemma isFrame_append {l₁ l₂ t : List α} {a : α} (ha : p a) (ht : ∀ b ∈ t, p b = false)
    (hl₂ : ∀ b ∈ l₂.head?, p b) :
    IsFrame p (l₁ ++ (a :: t) ++ l₂) l₁.length (l₁.length + (a :: t).length) := by
  refine ⟨by simp, by simp, ?_, ?_, ?_⟩
  · simp [ha]
  · intro i b hi hi' hb
    apply ht
    have hb' : (a :: t)[i - l₁.length]? = some b := by
      rwa [List.append_assoc, List.getElem?_append_right (by omega),
        List.getElem?_append_left (by omega)] at hb
    obtain ⟨j, hj⟩ : ∃ j, i - l₁.length = j + 1 := ⟨i - l₁.length - 1, by omega⟩
    rw [hj, List.getElem?_cons_succ] at hb'
    exact List.mem_of_getElem? hb'
  · intro b hb
    apply hl₂
    rw [List.getElem?_append_right (by simp)] at hb
    rw [Option.mem_def, List.head?_eq_getElem?]
    simpa using hb

lemma slice_append (l₁ m l₂ : List α) :
    slice (l₁ ++ m ++ l₂) l₁.length (l₁.length + m.length) = m := by
  simp [slice]

/-- A stretch of `l` is a frame exactly when it is surrounded as one. -/
lemma hasFrame_iff_isFrame {l g : List α} :
    HasFrame p l g ↔ ∃ s e, IsFrame p l s e ∧ g = slice l s e := by
  constructor
  · rintro ⟨l₁, a, t, l₂, rfl, rfl, ha, ht, hl₂⟩
    exact ⟨_, _, isFrame_append ha ht hl₂, (slice_append _ _ _).symm⟩
  · rintro ⟨s, e, h, rfl⟩
    have hs : s < l.length := h.lt.trans_le h.le
    have hslice : slice l s e = l[s] :: (l.drop (s + 1)).take (e - s - 1) := by
      obtain ⟨k, hk⟩ : ∃ k, e - s = k + 1 := ⟨e - s - 1, by have := h.lt; omega⟩
      rw [slice, List.drop_eq_getElem_cons hs, hk, List.take_succ_cons, Nat.add_sub_cancel]
    refine ⟨l.take s, l[s], (l.drop (s + 1)).take (e - s - 1), l.drop e, ?_, hslice,
      h.opened _ (by simp), ?_, ?_⟩
    · rw [← hslice, slice, List.append_assoc]
      conv_lhs => rw [← List.take_append_drop s l, ← List.take_append_drop (e - s) (l.drop s)]
      rw [List.drop_drop, Nat.add_sub_cancel' h.lt.le]
    · intro b hb
      obtain ⟨i, hi, rfl⟩ := List.mem_iff_getElem.mp hb
      simp only [List.length_take, List.length_drop] at hi
      rw [List.getElem_take, List.getElem_drop]
      exact h.body (s + 1 + i) _ (by omega) (by omega) (by simp)
    · intro b hb
      apply h.closed
      simpa [List.head?_drop] using hb

/-! ### Positions -/

@[simp] lemma map_snd_located (start : ℕ) (segs : List (List α)) :
    (located start segs).map Prod.snd = segs := by
  induction segs generalizing start with
  | nil => rfl
  | cons seg segs ih => rw [located, List.map_cons, ih]

/-- A located list stands behind the lists in front of it. -/
lemma mem_located_iff {start i : ℕ} {segs : List (List α)} {seg : List α} :
    (i, seg) ∈ located start segs ↔
      ∃ front back, segs = front ++ seg :: back ∧ i = start + front.flatten.length := by
  induction segs generalizing start with
  | nil => simp [located]
  | cons first segs ih =>
    rw [located, List.mem_cons, ih]
    constructor
    · rintro (h | ⟨front, back, rfl, rfl⟩)
      · obtain ⟨rfl, rfl⟩ := Prod.mk.inj h
        exact ⟨[], segs, rfl, rfl⟩
      · exact ⟨first :: front, back, rfl, by
          rw [List.flatten_cons, List.length_append, Nat.add_assoc]⟩
    · rintro ⟨front, back, hsegs, rfl⟩
      cases front with
      | nil =>
        obtain ⟨rfl, rfl⟩ := List.cons.inj hsegs
        exact .inl rfl
      | cons first' front =>
        obtain ⟨rfl, rfl⟩ := List.cons.inj hsegs
        exact .inr ⟨front, back, rfl, by
          rw [List.flatten_cons, List.length_append, Nat.add_assoc]⟩

/-- Every list has a position. -/
lemma exists_mem_located {start : ℕ} {segs : List (List α)} {seg : List α} (h : seg ∈ segs) :
    ∃ i, (i, seg) ∈ located start segs := by
  rw [← map_snd_located start segs, List.mem_map] at h
  obtain ⟨⟨i, seg⟩, hmem, rfl⟩ := h
  exact ⟨i, hmem⟩

/-! ### Closed segments and longer streams -/

variable {p}

lemma closedSegments_append_getLast {l : List α} (h : l ≠ []) :
    ∃ g, segments p l = closedSegments p l ++ [g] :=
  ⟨(segments p l).getLast (segments_ne_nil p h), (List.dropLast_append_getLast _).symm⟩

/-- Lengthening a stream keeps its closed segments and goes on from its last one. -/
lemma segments_append_of_last {l : List α} {segs : List (List α)} {g : List α}
    (h : segments p l = segs ++ [g]) (m : List α) :
    segments p (l ++ m) = segs ++ segments p (g ++ m) := by
  have hcut : Cut p (segs ++ [g]) := h ▸ cut_segments p l
  have hl : l = segs.flatten ++ g := by
    conv_lhs => rw [← flatten_segments p l, h]
    simp
  cases segs with
  | nil => simp [hl]
  | cons s segs =>
    obtain ⟨a, t, rfl, -⟩ := hcut.1 g (by simp)
    have ha : p a := hcut.2 (a :: t) (by simp) a rfl
    rw [hl, List.append_assoc, segments_append p _ (by simpa using ha),
      hcut.of_append.1.segments_flatten]

/-- A window that grows never loses a segment it had closed. -/
lemma closedSegments_prefix_append (l m : List α) :
    closedSegments p l <+: closedSegments p (l ++ m) := by
  rcases eq_or_ne l [] with rfl | hl
  · exact List.nil_prefix
  · obtain ⟨g, hg⟩ := closedSegments_append_getLast (p := p) hl
    have hgm : g ++ m ≠ [] := by
      obtain ⟨a, t, rfl, -⟩ := exists_cons_of_mem_segments p (l := l) (g := g) (by simp [hg])
      simp
    have hlast : closedSegments p (l ++ m) = closedSegments p l ++ closedSegments p (g ++ m) := by
      rw [closedSegments, segments_append_of_last hg, List.dropLast_append_of_ne_nil
        (segments_ne_nil p hgm)]
      rfl
    rw [hlast]
    exact List.prefix_append _ _

lemma closedSegments_prefix_segments (l m : List α) :
    closedSegments p l <+: segments p (l ++ m) :=
  (closedSegments_prefix_append l m).trans (List.dropLast_prefix _)

/-- Only the first segment can lack a sentinel; then it is what stands before the first one. -/
lemma head?_eq_or_opened {l g : List α} (h : g ∈ segments p l) :
    (∀ a ∈ g.head?, p a) ∨ g = l.takeWhile (!p ·) ∧ (segments p l).head? = some g := by
  cases l with
  | nil => simp at h
  | cons a l =>
    rw [segments_cons, List.mem_cons] at h
    rcases h with rfl | h
    · by_cases ha : p a
      · exact .inl (by simpa using ha)
      · refine .inr ⟨by simp [ha], by rw [segments_cons]; rfl⟩
    · refine .inl (opened_of_mem_tail p (l := a :: l) ?_)
      rwa [segments_cons, List.tail_cons]

/-- A stream that starts with a record has no segment without its sentinel. -/
lemma opened_of_mem_segments {l g : List α} (hl : ∀ a ∈ l.head?, p a) (h : g ∈ segments p l) :
    ∀ a ∈ g.head?, p a := by
  rcases head?_eq_or_opened h with hopen | ⟨rfl, -⟩
  · exact hopen
  · cases l with
    | nil => simp
    | cons a l => simp [hl a rfl]

/-- What stands before the first sentinel is the first segment. -/
lemma head?_segments_of_takeWhile_ne_nil {l : List α} (h : l.takeWhile (!p ·) ≠ []) :
    (segments p l).head? = some (l.takeWhile (!p ·)) := by
  cases l with
  | nil => simp at h
  | cons a l =>
    by_cases ha : p a
    · simp [ha] at h
    · rw [segments_cons]
      simp [ha]

/-- No frame around a position starts behind one that holds it. -/
lemma IsFrame.start_le {l : List α} {s e s' e' i : ℕ} (h : IsFrame p l s e)
    (h' : IsFrame p l s' e') (he : i < e) (hs' : s' ≤ i) (he' : i < e') : s' ≤ s := by
  by_contra hlt
  have hin : s' < l.length := by
    have := h'.le
    omega
  have hclean := h.body s' _ (by omega) (by omega) (List.getElem?_eq_getElem hin)
  rw [h'.opened _ (List.getElem?_eq_getElem hin)] at hclean
  cases hclean

/-- No frame around a position ends before one that holds it. -/
lemma IsFrame.end_le {l : List α} {s e s' e' i : ℕ} (h : IsFrame p l s e)
    (h' : IsFrame p l s' e') (he : i < e) (hs' : s' ≤ i) : e' ≤ e := by
  by_contra hlt
  have hin : e < l.length := by
    have := h'.le
    omega
  have hclean := h'.body e _ (by omega) (by omega) (List.getElem?_eq_getElem hin)
  rw [h.closed _ (List.getElem?_eq_getElem hin)] at hclean
  cases hclean

/-- Two frames around one position are the same. -/
lemma IsFrame.unique {l : List α} {s e s' e' i : ℕ} (h : IsFrame p l s e) (h' : IsFrame p l s' e')
    (hs : s ≤ i) (he : i < e) (hs' : s' ≤ i) (he' : i < e') : s = s' ∧ e = e' := by
  constructor
  · exact le_antisymm (h'.start_le h he' hs he) (h.start_le h' he hs' he')
  · exact le_antisymm (h'.end_le h he' hs) (h.end_le h' he hs')

end Framing
