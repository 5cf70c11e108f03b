import Callbook.Library.Utf8

/-!
# Computations that may panic

A Rust panic is an exception that no caller of the modelled code catches. `collect` runs a fallible
step over the selected elements of a list and keeps what the steps yield.
-/

universe u

/-- Why a computation was aborted. -/
inductive Panic where
  /-- A string slice was cut inside a character. -/
  | charBoundary
  /-- An index was not below the length. -/
  | indexOutOfBounds
  deriving DecidableEq, Repr

namespace Panic

/-- `&s[..n]` on a string. -/
def strTake (s : Bytes) (n : ℕ) : Except Panic Bytes :=
  if n ≤ s.length ∧ Utf8.isCharBoundary s n then .ok (s.take n) else .error .charBoundary

/-- `&s[n..]` on a string. -/
def strDrop (s : Bytes) (n : ℕ) : Except Panic Bytes :=
  if n ≤ s.length ∧ Utf8.isCharBoundary s n then .ok (s.drop n) else .error .charBoundary

/-- `s.get(i..j)` on a string. -/
def strGet (s : Bytes) (i j : ℕ) : Option Bytes :=
  if i ≤ j ∧ j ≤ s.length ∧ Utf8.isCharBoundary s i ∧ Utf8.isCharBoundary s j then
    some ((s.drop i).take (j - i))
  else none

lemma strGet_infix {s t : Bytes} {i j : ℕ} (h : strGet s i j = some t) : t <:+: s := by
  rw [strGet] at h
  split_ifs at h
  cases h
  exact (List.take_prefix _ _).isInfix.trans (List.drop_suffix _ _).isInfix

/-- The middle of three texts. -/
lemma strGet_append {s t r : Bytes} (ht : ∀ b ∈ (t ++ r).head?, Utf8.isContinuation b = false)
    (hr : ∀ b ∈ r.head?, Utf8.isContinuation b = false) :
    strGet (s ++ t ++ r) s.length (s.length + t.length) = some t := by
  have hfirst : Utf8.isCharBoundary (s ++ t ++ r) s.length := by
    rw [List.append_assoc]
    exact Utf8.isCharBoundary_append ht
  have hsecond : Utf8.isCharBoundary (s ++ t ++ r) (s.length + t.length) := by
    rw [← List.length_append]
    exact Utf8.isCharBoundary_append hr
  rw [strGet, if_pos ⟨Nat.le_add_right _ _, by simp, hfirst, hsecond⟩]
  simp

lemma le_length_of_isCharBoundary {s : Bytes} {n : ℕ} (h : Utf8.isCharBoundary s n) :
    n ≤ s.length := by
  simp only [Utf8.isCharBoundary, Bool.or_eq_true, beq_iff_eq, Option.any_eq_true] at h
  rcases h with (h | h) | ⟨b, hb, -⟩
  · omega
  · omega
  · exact (List.getElem?_eq_some_iff.mp hb).1.le

lemma strTake_eq_ok {s : Bytes} {n : ℕ} (h : Utf8.isCharBoundary s n) :
    strTake s n = .ok (s.take n) := if_pos ⟨le_length_of_isCharBoundary h, h⟩

lemma strDrop_eq_ok {s : Bytes} {n : ℕ} (h : Utf8.isCharBoundary s n) :
    strDrop s n = .ok (s.drop n) := if_pos ⟨le_length_of_isCharBoundary h, h⟩

@[simp] lemma ok_bind {ε : Type*} {α β : Type u} (a : α) (f : α → Except ε β) :
    Except.ok a >>= f = f a := rfl

/-- A bind returns exactly when both computations do. -/
lemma bind_eq_ok_iff {ε : Type*} {α β : Type u} {x : Except ε α} {f : α → Except ε β} {b : β} :
    x >>= f = .ok b ↔ ∃ a, x = .ok a ∧ f a = .ok b := by
  cases x <;> simp [bind, Except.bind]

lemma map_eq_ok_iff {ε α β : Type*} {x : Except ε α} {f : α → β} {b : β} :
    x.map f = .ok b ↔ ∃ a, x = .ok a ∧ f a = b := by
  cases x <;> simp [Except.map]

lemma map_eq_error_iff {ε α β : Type*} {x : Except ε α} {f : α → β} {e : ε} :
    x.map f = .error e ↔ x = .error e := by
  cases x <;> simp [Except.map]

lemma exists_of_isOk {ε α : Type*} {x : Except ε α} (h : x.isOk) : ∃ a, x = .ok a := by
  cases x with
  | error e => simp [Except.isOk, Except.toBool] at h
  | ok a => exact ⟨a, rfl⟩

lemma toOption_eq_some_iff {ε α : Type*} {x : Except ε α} {a : α} :
    x.toOption = some a ↔ x = .ok a := by
  cases x <;> simp [Except.toOption]

/-- A fold of fallible steps commutes with a map of the states that every step commutes with. -/
lemma map_foldlM {ε : Type*} {α : Type*} {σ τ : Type u} {f : σ → α → Except ε σ}
    {g : τ → α → Except ε τ} {φ : σ → τ} (hstep : ∀ s a, (f s a).map φ = g (φ s) a) (l : List α)
    (s : σ) : (l.foldlM f s).map φ = l.foldlM g (φ s) := by
  induction l generalizing s with
  | nil => rfl
  | cons a l ih =>
    rw [List.foldlM_cons, List.foldlM_cons, ← hstep s a]
    cases f s a with
    | error e => rfl
    | ok s' => exact ih s'

lemma exists_foldlM_eq_ok {ε : Type*} {α : Type*} {σ : Type u} {f : σ → α → Except ε σ} {l : List α}
    (h : ∀ s, ∀ a ∈ l, ∃ s', f s a = .ok s') (s : σ) : ∃ s', l.foldlM f s = .ok s' := by
  induction l generalizing s with
  | nil => exact ⟨s, rfl⟩
  | cons a l ih =>
    obtain ⟨s', hs'⟩ := h s a List.mem_cons_self
    obtain ⟨s'', hs''⟩ := ih (fun s b hb => h s b (List.mem_cons_of_mem _ hb)) s'
    refine ⟨s'', ?_⟩
    rw [List.foldlM_cons, hs']
    exact hs''

/-- When the states of a fold keep an invariant, and steps from such states finish on their
element's condition alone, the fold finishes on the condition of every element. -/
lemma exists_foldlM_eq_ok_iff {ε α : Type*} {σ : Type u} {f : σ → α → Except ε σ}
    {inv : σ → Prop} {ok : α → Prop} (hstep : ∀ s a, inv s → ((∃ s', f s a = .ok s') ↔ ok a))
    (hinv : ∀ s a s', inv s → f s a = .ok s' → inv s') {l : List α} {s : σ} (hs : inv s) :
    (∃ s', l.foldlM f s = .ok s') ↔ ∀ a ∈ l, ok a := by
  induction l generalizing s with
  | nil => simp [pure, Except.pure]
  | cons a l ih =>
    rw [List.forall_mem_cons, ← hstep s a hs]
    constructor
    · rintro ⟨s'', h⟩
      rw [List.foldlM_cons, bind_eq_ok_iff] at h
      obtain ⟨s', ha, hl⟩ := h
      exact ⟨⟨s', ha⟩, (ih (hinv s a s' hs ha)).mp ⟨s'', hl⟩⟩
    · rintro ⟨⟨s', ha⟩, hl⟩
      obtain ⟨s'', hl'⟩ := (ih (hinv s a s' hs ha)).mpr hl
      refine ⟨s'', ?_⟩
      rw [List.foldlM_cons, bind_eq_ok_iff]
      exact ⟨s', ha, hl'⟩

/-- When each step finishes on its element's condition alone, with what `g` makes of the state, the
fold finishes on all conditions, with the fold of `g`. -/
lemma foldlM_eq_ok_iff {ε α : Type*} {σ : Type u} {f : σ → α → Except ε σ} {g : σ → α → σ}
    {ok : α → Prop} (hstep : ∀ s a s', f s a = .ok s' ↔ ok a ∧ s' = g s a) {l : List α}
    {s s' : σ} : l.foldlM f s = .ok s' ↔ (∀ a ∈ l, ok a) ∧ s' = l.foldl g s := by
  induction l generalizing s with
  | nil => simp [pure, Except.pure, eq_comm]
  | cons a l ih =>
    rw [List.foldlM_cons, bind_eq_ok_iff, List.forall_mem_cons, List.foldl_cons]
    constructor
    · rintro ⟨s₁, ha, hl⟩
      obtain ⟨hok, rfl⟩ := (hstep s a s₁).mp ha
      obtain ⟨hrest, heq⟩ := ih.mp hl
      exact ⟨⟨hok, hrest⟩, heq⟩
    · rintro ⟨⟨hok, hrest⟩, heq⟩
      exact ⟨g s a, (hstep s a _).mpr ⟨hok, rfl⟩, ih.mpr ⟨hrest, heq⟩⟩

/-- What holds before the first step, and what each step carries on to one element more, holds of
all elements at the end of a fold. -/
lemma holds_of_foldlM_eq_ok {ε α : Type*} {σ : Type u} {f : σ → α → Except ε σ}
    {holds : List α → σ → Prop}
    (hstep : ∀ l a s s', holds l s → f s a = .ok s' → holds (l ++ [a]) s') {l : List α} {s s' : σ}
    (hs : holds [] s) (h : l.foldlM f s = .ok s') : holds l s' := by
  suffices hrun : ∀ front s, holds front s → l.foldlM f s = .ok s' → holds (front ++ l) s' by
    exact hrun [] s hs h
  clear hs h
  induction l with
  | nil =>
    intro front s hs h
    cases h
    rwa [List.append_nil]
  | cons a l ih =>
    intro front s hs h
    rw [List.foldlM_cons, bind_eq_ok_iff] at h
    obtain ⟨s₁, ha, hl⟩ := h
    rw [← List.singleton_append, ← List.append_assoc]
    exact ih (front ++ [a]) s₁ (hstep front a s s₁ hs ha) hl

lemma inv_of_foldlM_eq_ok {ε α : Type*} {σ : Type u} {f : σ → α → Except ε σ} {inv : σ → Prop}
    (hinv : ∀ s a s', inv s → f s a = .ok s' → inv s') {l : List α} {s s' : σ} (hs : inv s)
    (h : l.foldlM f s = .ok s') : inv s' :=
  @holds_of_foldlM_eq_ok _ _ _ _ (fun _ => inv) (fun _ a s s' => hinv s a s') _ _ _ hs h

variable {α β ε : Type*} (sel : α → Bool) (f : α → Except ε (Option β))

/-- One step: `f` runs on a selected element only. -/
def keep (a : α) : Except ε (Option β) := if sel a then f a else .ok none

/-- Run `f` on the selected elements in order and keep what it yields. -/
def collect : List α → Except ε (List β)
  | [] => .ok []
  | a :: l => do
    let found ← keep sel f a
    let rest ← collect l
    pure (found.toList ++ rest)

/-- Run `g` on the elements in order and join what it yields. -/
def collectMany (g : α → Except ε (List β)) : List α → Except ε (List β)
  | [] => .ok []
  | a :: l => do
    let found ← g a
    let rest ← collectMany g l
    pure (found ++ rest)

variable {sel f}

/-- What a finished run returns is what its steps return. -/
lemma mem_of_collectMany_eq_ok {g : α → Except ε (List β)} {l : List α} {bs : List β}
    (h : collectMany g l = .ok bs) {b : β} :
    b ∈ bs ↔ ∃ a ∈ l, ∃ found, g a = .ok found ∧ b ∈ found := by
  induction l generalizing bs with
  | nil =>
    cases h
    simp
  | cons a l ih =>
    simp only [collectMany, bind_eq_ok_iff, pure, Except.pure, Except.ok.injEq] at h
    obtain ⟨found, hfound, rest, hrest, rfl⟩ := h
    rw [List.mem_append, ih hrest, List.exists_mem_cons_iff]
    simp [hfound]

lemma exists_of_collectMany_eq_ok {g : α → Except ε (List β)} {l : List α} {bs : List β}
    (h : collectMany g l = .ok bs) : ∀ a ∈ l, ∃ found, g a = .ok found := by
  induction l generalizing bs with
  | nil => simp
  | cons a l ih =>
    simp only [collectMany, bind_eq_ok_iff] at h
    obtain ⟨found, hfound, rest, hrest, -⟩ := h
    exact List.forall_mem_cons.mpr ⟨⟨found, hfound⟩, ih hrest⟩

lemma exists_collectMany_eq_ok {g : α → Except ε (List β)} {l : List α}
    (h : ∀ a ∈ l, ∃ found, g a = .ok found) : ∃ bs, collectMany g l = .ok bs := by
  induction l with
  | nil => exact ⟨[], rfl⟩
  | cons a l ih =>
    rw [List.forall_mem_cons] at h
    obtain ⟨found, hfound⟩ := h.1
    obtain ⟨rest, hrest⟩ := ih h.2
    refine ⟨found ++ rest, ?_⟩
    rw [collectMany, hfound, hrest]
    rfl

/-- Steps that yield one result each. -/
lemma collectMany_map_eq_ok {γ : Type*} {g : γ → Except ε (List β)} {key : α → γ} {value : α → β}
    {l : List α} (h : ∀ a ∈ l, g (key a) = .ok [value a]) :
    collectMany g (l.map key) = .ok (l.map value) := by
  induction l with
  | nil => rfl
  | cons a l ih =>
    rw [List.forall_mem_cons] at h
    rw [List.map_cons, collectMany, h.1, ih h.2]
    rfl

/-- A finished `mapM` has run every step, and holds what the steps returned. -/
lemma mem_of_mapM_eq_ok {g : α → Except ε β} {l : List α} {bs : List β}
    (h : l.mapM g = .ok bs) {b : β} : b ∈ bs ↔ ∃ a ∈ l, g a = .ok b := by
  induction l generalizing bs with
  | nil =>
    cases h
    simp
  | cons a l ih =>
    rw [List.mapM_cons] at h
    simp only [bind_eq_ok_iff, pure, Except.pure, Except.ok.injEq] at h
    obtain ⟨found, hfound, rest, hrest, rfl⟩ := h
    rw [List.mem_cons, ih hrest, List.exists_mem_cons_iff, hfound, Except.ok.injEq, eq_comm]

/-- What every step copies from its element, the results have in the order of the elements. -/
lemma map_of_mapM_eq_ok {γ : Type*} {g : α → Except ε β} {read : β → γ} {origin : α → γ}
    (hg : ∀ a b, g a = .ok b → read b = origin a) {l : List α} {bs : List β}
    (h : l.mapM g = .ok bs) : bs.map read = l.map origin := by
  induction l generalizing bs with
  | nil =>
    cases h
    rfl
  | cons a l ih =>
    rw [List.mapM_cons] at h
    simp only [bind_eq_ok_iff, pure, Except.pure, Except.ok.injEq] at h
    obtain ⟨found, hfound, rest, hrest, rfl⟩ := h
    rw [List.map_cons, List.map_cons, hg a found hfound, ih hrest]

lemma exists_of_mapM_eq_ok {g : α → Except ε β} {l : List α} {bs : List β}
    (h : l.mapM g = .ok bs) : ∀ a ∈ l, ∃ b ∈ bs, g a = .ok b := by
  induction l generalizing bs with
  | nil => simp
  | cons a l ih =>
    rw [List.mapM_cons] at h
    simp only [bind_eq_ok_iff, pure, Except.pure, Except.ok.injEq] at h
    obtain ⟨found, hfound, rest, hrest, rfl⟩ := h
    refine List.forall_mem_cons.mpr ⟨⟨found, List.mem_cons_self, hfound⟩, ?_⟩
    intro a' ha'
    obtain ⟨b, hb, hab⟩ := ih hrest a' ha'
    exact ⟨b, List.mem_cons_of_mem _ hb, hab⟩

lemma exists_mapM_eq_ok {g : α → Except ε β} {l : List α} (h : ∀ a ∈ l, ∃ b, g a = .ok b) :
    ∃ bs, l.mapM g = .ok bs := by
  induction l with
  | nil => exact ⟨[], rfl⟩
  | cons a l ih =>
    rw [List.forall_mem_cons] at h
    obtain ⟨found, hfound⟩ := h.1
    obtain ⟨rest, hrest⟩ := ih h.2
    refine ⟨found :: rest, ?_⟩
    rw [List.mapM_cons, hfound, hrest]
    rfl

lemma collect_cons_eq_ok_iff {a : α} {l : List α} {bs : List β} :
    collect sel f (a :: l) = .ok bs ↔ ∃ found rest, keep sel f a = .ok found ∧
      collect sel f l = .ok rest ∧ bs = found.toList ++ rest := by
  simp only [collect, bind_eq_ok_iff, pure, Except.pure, Except.ok.injEq]
  constructor
  · rintro ⟨found, hfound, rest, hrest, rfl⟩
    exact ⟨found, rest, hfound, hrest, rfl⟩
  · rintro ⟨found, rest, hfound, hrest, rfl⟩
    exact ⟨found, hfound, rest, hrest, rfl⟩

/-- When every step of a run has a step beside it that yields as much, so have the runs. -/
lemma exists_collect_of_collectMany {γ δ : Type*} {g : α → Except ε (List γ)} {l : List α}
    {cs : List γ} {left : β → List δ} {right : γ → δ} (h : collectMany g l = .ok cs)
    (hstep : ∀ a found, g a = .ok found →
      ∃ o, f a = .ok o ∧ o.toList.flatMap left = found.map right) :
    ∃ bs, collect (fun _ => true) f l = .ok bs ∧ bs.flatMap left = cs.map right := by
  induction l generalizing cs with
  | nil =>
    cases h
    exact ⟨[], rfl, rfl⟩
  | cons a l ih =>
    simp only [collectMany, bind_eq_ok_iff, pure, Except.pure, Except.ok.injEq] at h
    obtain ⟨found, hfound, rest, hrest, rfl⟩ := h
    obtain ⟨o, ho, hleft⟩ := hstep a found hfound
    obtain ⟨bs, hbs, hall⟩ := ih hrest
    refine ⟨o.toList ++ bs, collect_cons_eq_ok_iff.mpr ⟨o, bs, ho, hbs, rfl⟩, ?_⟩
    rw [List.flatMap_append, hleft, hall, List.map_append]

/-- A run of steps that all return is a pure one. -/
lemma collect_eq_ok_filterMap {g : α → Option β} {l : List α} (h : ∀ a ∈ l, f a = .ok (g a)) :
    collect (fun _ => true) f l = .ok (l.filterMap g) := by
  induction l with
  | nil => rfl
  | cons a l ih =>
    rw [List.forall_mem_cons] at h
    rw [collect_cons_eq_ok_iff]
    refine ⟨g a, l.filterMap g, h.1, ih h.2, ?_⟩
    cases hg : g a <;> simp [hg]

/-- A run whose results carry more along, with that left out. -/
lemma map_collect {γ δ : Type*} {key : γ → α} {g : γ → Except ε (Option δ)} {value : δ → β}
    (hg : ∀ c, (g c).map (Option.map value) = f (key c)) (l : List γ) :
    (collect (fun c => sel (key c)) g l).map (List.map value) = collect sel f (l.map key) := by
  induction l with
  | nil => rfl
  | cons c l ih =>
    have hkeep : (keep (fun c => sel (key c)) g c).map (Option.map value) =
        keep sel f (key c) := by
      rw [keep, keep]
      split_ifs
      · exact hg c
      · rfl
    rw [List.map_cons, collect, collect, ← ih, ← hkeep]
    cases keep (fun c => sel (key c)) g c with
    | error e => rfl
    | ok found =>
      cases collect (fun c => sel (key c)) g l with
      | error e => rfl
      | ok rest => cases found <;> rfl

/-- What a finished run returns is what its steps yield. -/
lemma mem_of_collect_eq_ok {l : List α} {bs : List β} (h : collect sel f l = .ok bs) {b : β} :
    b ∈ bs ↔ ∃ a ∈ l, sel a ∧ f a = .ok (some b) := by
  induction l generalizing bs with
  | nil =>
    rw [collect, Except.ok.injEq] at h
    simp [← h]
  | cons a l ih =>
    obtain ⟨found, rest, hfound, hrest, rfl⟩ := collect_cons_eq_ok_iff.mp h
    rw [List.mem_append, ih hrest, List.exists_mem_cons_iff]
    refine or_congr_left ?_
    simp only [keep] at hfound
    split_ifs at hfound with hsel
    · rw [hfound]
      simp [hsel]
    · rw [Except.ok.injEq] at hfound
      simp [← hfound, hsel]

/-- A selection that agrees with the results keeps the selected results of a run over all. -/
lemma collect_eq_ok_filter {q : β → Bool} {l : List α} {bs : List β}
    (h : collect (fun _ => true) f l = .ok bs)
    (hsel : ∀ a ∈ l, ∀ b, f a = .ok (some b) → (sel a ↔ q b)) :
    collect sel f l = .ok (bs.filter q) := by
  induction l generalizing bs with
  | nil =>
    cases h
    rfl
  | cons a l ih =>
    rw [List.forall_mem_cons] at hsel
    obtain ⟨found, rest, hfound, hrest, rfl⟩ := collect_cons_eq_ok_iff.mp h
    rw [keep, if_pos rfl] at hfound
    refine collect_cons_eq_ok_iff.mpr ⟨found.filter q, _, ?_, ih hrest hsel.2, ?_⟩
    · rw [keep, hfound]
      cases found with
      | none => split_ifs <;> rfl
      | some b =>
        have hb := hsel.1 b hfound
        cases hq : q b with
        | true => rw [if_pos (hb.mpr hq), Option.filter_some_pos hq]
        | false =>
          have hnot : ¬ sel a := fun hselected => by simp [hb.mp hselected] at hq
          rw [if_neg hnot, Option.filter_some_neg hq]
    · rw [List.filter_append]
      cases found with
      | none => rfl
      | some b =>
        cases hq : q b with
        | true => simp [Option.filter_some_pos hq, hq]
        | false => simp [Option.filter_some_neg hq, hq]

/-- A run over a part at the front finishes when the whole run does, and returns the front of what
the whole run returns. -/
lemma exists_collect_of_prefix {l₁ l₂ : List α} {bs : List β} (hfront : l₁ <+: l₂)
    (h : collect sel f l₂ = .ok bs) : ∃ front, collect sel f l₁ = .ok front ∧ front <+: bs := by
  induction l₁ generalizing l₂ bs with
  | nil => exact ⟨[], rfl, List.nil_prefix⟩
  | cons a l₁ ih =>
    obtain ⟨l, rfl⟩ := hfront
    obtain ⟨found, rest, hfound, hrest, rfl⟩ := collect_cons_eq_ok_iff.mp h
    obtain ⟨front, hcollect, hle⟩ := ih (List.prefix_append l₁ l) hrest
    exact ⟨_, collect_cons_eq_ok_iff.mpr ⟨found, front, hfound, hcollect, rfl⟩,
      (List.prefix_append_right_inj _).mpr hle⟩

/-- A run finishes exactly when all its steps do. -/
lemma exists_collect_eq_ok_iff {l : List α} :
    (∃ bs, collect sel f l = .ok bs) ↔ ∀ a ∈ l, sel a → ∃ o, f a = .ok o := by
  induction l with
  | nil => simp [collect]
  | cons a l ih =>
    rw [List.forall_mem_cons, ← ih]
    constructor
    · rintro ⟨bs, h⟩
      obtain ⟨found, rest, hfound, hrest, -⟩ := collect_cons_eq_ok_iff.mp h
      exact ⟨fun hsel => ⟨found, by rwa [keep, if_pos hsel] at hfound⟩, rest, hrest⟩
    · rintro ⟨hstep, rest, hrest⟩
      by_cases hsel : sel a
      · obtain ⟨o, ho⟩ := hstep hsel
        exact ⟨_, collect_cons_eq_ok_iff.mpr ⟨o, rest, by rwa [keep, if_pos hsel], hrest, rfl⟩⟩
      · exact ⟨_, collect_cons_eq_ok_iff.mpr ⟨none, rest, by rw [keep, if_neg hsel], hrest, rfl⟩⟩

end Panic
