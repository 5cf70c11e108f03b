import Mathlib.Data.List.Count
import Mathlib.Logic.Function.Basic

/-!
# Caches behind locks

Threads ask for values that are loaded from an environment, such as files, and kept. A thread looks
whether its value is there at all, takes the lock of the cache, loads the value if the cache is
empty, and gives the lock back. The environment may change between any two of these steps, and the
steps of the threads may be interleaved in any way.
-/

/-- Where the values of some caches come from. -/
structure CacheSource (Env ε : Type*) {Key : Type*} (Value : Key → Type*) where
  present : Env → Key → Bool
  load : Env → (k : Key) → Except ε (Value k)

namespace CacheSource

/-! ### States and steps -/

/-- What a thread is told. -/
inductive Answer (ε α : Type*) where
  | absent
  | value (a : α)
  | failed (e : ε)
  deriving DecidableEq, Repr

/-- How far a thread has come. -/
inductive Stage (ε α : Type*) where
  | looking
  | waiting
  | holding
  | loading
  | storing (a : α)
  | leaving (answer : Answer ε α)
  deriving DecidableEq, Repr

/-- The stages in which a thread has the lock. -/
def Stage.critical {ε α : Type*} : Stage ε α → Bool
  | .looking | .waiting => false
  | .holding | .loading | .storing _ | .leaving _ => true

variable {Env ε Key : Type*} {Value : Key → Type*} {Thread : Type*}

/-- What a thread would be told by an environment that does not change. -/
def ask (source : CacheSource Env ε Value) (env : Env) (k : Key) : Answer ε (Value k) :=
  if source.present env k then
    match source.load env k with
    | .ok a => .value a
    | .error e => .failed e
  else .absent

/-- The caches with their locks, and the threads with what they were told so far, the last answer
first. -/
structure State (Env ε : Type*) {Key : Type*} (Value : Key → Type*) (Thread : Type*) where
  env : Env
  cell : (k : Key) → Option (Value k)
  holder : Key → Option Thread
  pc : Thread → Option (Σ k, Stage ε (Value k))
  answers : List (Σ k, Answer ε (Value k))

inductive Action (Env Key Thread : Type*) where
  | change (env : Env)
  | call (t : Thread) (k : Key)
  | run (t : Thread)
  deriving DecidableEq, Repr

def Action.isCall : Action Env Key Thread → Bool
  | .call _ _ => true
  | .change _ | .run _ => false

/-- A step of the thread. -/
def Action.isRunOf [DecidableEq Thread] (t : Thread) : Action Env Key Thread → Bool
  | .run u => u = t
  | .change _ | .call _ _ => false

namespace State

/-- No cache is filled and no thread asks. -/
def initial (env : Env) : State Env ε Value Thread :=
  ⟨env, fun _ => none, fun _ => none, fun _ => none, []⟩

/-- The thread has the lock of the cache. -/
def Critical (s : State Env ε Value Thread) (k : Key) (t : Thread) : Prop :=
  ∃ stage, s.pc t = some ⟨k, stage⟩ ∧ stage.critical

end State

section Steps

variable [DecidableEq Thread]

namespace State

/-- A thread goes on to a stage. -/
def goto (s : State Env ε Value Thread) (t : Thread) (k : Key) (stage : Stage ε (Value k)) :
    State Env ε Value Thread :=
  { s with pc := Function.update s.pc t (some ⟨k, stage⟩) }

/-- A thread is told its answer. -/
def finish (s : State Env ε Value Thread) (t : Thread) (k : Key) (answer : Answer ε (Value k)) :
    State Env ε Value Thread :=
  { s with pc := Function.update s.pc t none, answers := ⟨k, answer⟩ :: s.answers }

variable [DecidableEq Key]

def setHolder (s : State Env ε Value Thread) (k : Key) (holder : Option Thread) :
    State Env ε Value Thread :=
  { s with holder := Function.update s.holder k holder }

def setCell (s : State Env ε Value Thread) (k : Key) (a : Value k) : State Env ε Value Thread :=
  { s with cell := Function.update s.cell k (some a) }

end State

variable [DecidableEq Key]

/-- The next step of a thread from the stage that it has reached. -/
def advance (source : CacheSource Env ε Value) (s : State Env ε Value Thread) (t : Thread)
    (k : Key) : Stage ε (Value k) → Option (State Env ε Value Thread)
  | .looking =>
    if source.present s.env k then some (s.goto t k .waiting) else some (s.finish t k .absent)
  | .waiting =>
    if s.holder k = none then some ((s.setHolder k (some t)).goto t k .holding) else none
  | .holding =>
    match s.cell k with
    | some a => some (s.goto t k (.leaving (.value a)))
    | none => some (s.goto t k .loading)
  | .loading =>
    match source.load s.env k with
    | .ok a => some (s.goto t k (.storing a))
    | .error e => some (s.goto t k (.leaving (.failed e)))
  | .storing a => some ((s.setCell k a).goto t k (.leaving (.value a)))
  | .leaving answer => some ((s.setHolder k none).finish t k answer)

/-- One step of the environment or of a thread. -/
def step (source : CacheSource Env ε Value) (s : State Env ε Value Thread) :
    Action Env Key Thread → Option (State Env ε Value Thread)
  | .change env => some { s with env }
  | .call t k => if (s.pc t).isNone then some (s.goto t k .looking) else none
  | .run t =>
    match s.pc t with
    | none => none
    | some ⟨k, stage⟩ => source.advance s t k stage

/-- The steps of a schedule, one after the other. -/
def runs (source : CacheSource Env ε Value) (s : State Env ε Value Thread) :
    List (Action Env Key Thread) → Option (State Env ε Value Thread)
  | [] => some s
  | action :: schedule => (source.step s action).bind fun s => source.runs s schedule

end Steps

/-! ### The invariant -/

section Invariant

/-- A step changes the environment to one of the given ones at most. -/
def Action.Within (allowed : Env → Prop) : Action Env Key Thread → Prop
  | .change env => allowed env
  | .call _ _ | .run _ => True

variable (source : CacheSource Env ε Value) (allowed : Env → Prop)

/-- An environment had the value. -/
def Found (k : Key) : Prop := ∃ env, allowed env ∧ source.present env k

/-- The value was not there in an environment. -/
def Missing (k : Key) : Prop := ∃ env, allowed env ∧ source.present env k = false

def Loaded {k : Key} (a : Value k) : Prop := ∃ env, allowed env ∧ source.load env k = .ok a

def Failed (k : Key) (e : ε) : Prop := ∃ env, allowed env ∧ source.load env k = .error e

/-- An answer is that of some environment, and a value is the one of the cache. -/
def Justified {k : Key} (cell : Option (Value k)) : Answer ε (Value k) → Prop
  | .absent => source.Missing allowed k
  | .value a => source.Found allowed k ∧ cell = some a
  | .failed e => source.Found allowed k ∧ source.Failed allowed k e

/-- What is known of a thread in a stage. -/
def StageInv {k : Key} (cell : Option (Value k)) : Stage ε (Value k) → Prop
  | .looking => True
  | .waiting | .holding => source.Found allowed k
  | .loading => source.Found allowed k ∧ cell = none
  | .storing a => source.Found allowed k ∧ cell = none ∧ source.Loaded allowed a
  | .leaving .absent => False
  | .leaving (.value a) => source.Found allowed k ∧ cell = some a
  | .leaving (.failed e) => source.Found allowed k ∧ cell = none ∧ source.Failed allowed k e

/-- What holds in every state. -/
structure Inv (s : State Env ε Value Thread) : Prop where
  env : allowed s.env
  cell : ∀ k a, s.cell k = some a → source.Loaded allowed a
  holder : ∀ k t, s.holder k = some t ↔ s.Critical k t
  pc : ∀ t k stage, s.pc t = some ⟨k, stage⟩ → source.StageInv allowed (s.cell k) stage
  answers : ∀ p ∈ s.answers, source.Justified allowed (s.cell p.1) p.2

variable {source allowed} {s s' : State Env ε Value Thread} {t u : Thread} {j k : Key}

lemma inv_initial {env : Env} (h : allowed env) :
    source.Inv allowed (State.initial env : State Env ε Value Thread) where
  env := h
  cell := by simp [State.initial]
  holder := by simp [State.initial, State.Critical]
  pc := by simp [State.initial]
  answers := by simp [State.initial]

/-- Two threads do not have one lock. -/
lemma Inv.eq_of_critical (h : source.Inv allowed s) (ht : s.Critical k t) (hu : s.Critical k u) :
    t = u := by
  have hholder := (h.holder k t).mpr ht
  rw [(h.holder k u).mpr hu, Option.some.injEq] at hholder
  exact hholder.symm

lemma critical_iff {stage : Stage ε (Value k)} (hpc : s.pc t = some ⟨k, stage⟩) :
    s.Critical j t ↔ j = k ∧ stage.critical := by
  rw [State.Critical, hpc]
  constructor
  · rintro ⟨stage', hstage, hc⟩
    cases hstage
    exact ⟨rfl, hc⟩
  · rintro ⟨rfl, hc⟩
    exact ⟨stage, rfl, hc⟩

lemma not_critical_of_none (hpc : s.pc t = none) : ¬ s.Critical j t := by
  rw [State.Critical, hpc]
  rintro ⟨stage, hstage, -⟩
  cases hstage

/-- An answer of a thread that leaves can be accounted for. -/
lemma Inv.justified_of_leaving (h : source.Inv allowed s) {answer : Answer ε (Value k)}
    (hpc : s.pc t = some ⟨k, .leaving answer⟩) :
    source.Justified allowed (s.cell k) answer := by
  have hinv := h.pc t k _ hpc
  cases answer with
  | absent => exact hinv.elim
  | value a => exact hinv
  | failed e => exact ⟨hinv.1, hinv.2.2⟩

/-! ### The steps keep the invariant -/

variable [DecidableEq Thread] {pc : Option (Σ k, Stage ε (Value k))}

lemma pc_self (hpc : s'.pc = Function.update s.pc t pc) : s'.pc t = pc := by
  rw [hpc, Function.update_self]

lemma critical_of_ne (hpc : s'.pc = Function.update s.pc t pc) (hu : u ≠ t) :
    s'.Critical j u ↔ s.Critical j u := by
  rw [State.Critical, State.Critical, hpc, Function.update_of_ne hu]

/-- A thread goes on, and the caches keep their values. -/
lemma Inv.of_pc (h : source.Inv allowed s) (henv : s'.env = s.env) (hcell : s'.cell = s.cell)
    (hpc : s'.pc = Function.update s.pc t pc)
    (hholder : ∀ j u, s'.holder j = some u ↔ s'.Critical j u)
    (hinv : ∀ j stage, pc = some ⟨j, stage⟩ → source.StageInv allowed (s.cell j) stage)
    (hanswers : ∀ p ∈ s'.answers, source.Justified allowed (s.cell p.1) p.2) :
    source.Inv allowed s' where
  env := henv ▸ h.env
  cell := hcell ▸ h.cell
  holder := hholder
  pc u j stage hu := by
    rw [hcell]
    by_cases hut : u = t
    · subst hut
      exact hinv j stage ((pc_self hpc).symm.trans hu)
    · rw [hpc, Function.update_of_ne hut] at hu
      exact h.pc u j stage hu
  answers := hcell ▸ hanswers

/-- The holders stay right if the thread has the locks that it had. -/
lemma Inv.holder_of_same (h : source.Inv allowed s) (hpc : s'.pc = Function.update s.pc t pc)
    (hholder : s'.holder j = s.holder j) (hsame : s'.Critical j t ↔ s.Critical j t) (u : Thread) :
    s'.holder j = some u ↔ s'.Critical j u := by
  rw [hholder, h.holder]
  by_cases hu : u = t
  · rw [hu, hsame]
  · rw [critical_of_ne hpc hu]

lemma Inv.goto (h : source.Inv allowed s) {stage stage' : Stage ε (Value k)}
    (hpc : s.pc t = some ⟨k, stage⟩) (hcritical : stage'.critical = stage.critical)
    (hinv : source.StageInv allowed (s.cell k) stage') : source.Inv allowed (s.goto t k stage') := by
  have hpc' : (s.goto t k stage').pc t = some ⟨k, stage'⟩ := pc_self rfl
  refine h.of_pc rfl rfl rfl (fun j => h.holder_of_same rfl rfl ?_) ?_ h.answers
  · rw [critical_iff hpc, critical_iff hpc', hcritical]
  · rintro j stage ⟨⟩
    exact hinv

lemma Inv.call (h : source.Inv allowed s) (hpc : s.pc t = none) (k : Key) :
    source.Inv allowed (s.goto t k .looking) := by
  have hpc' : (s.goto t k .looking).pc t = some ⟨k, .looking⟩ := pc_self rfl
  refine h.of_pc rfl rfl rfl (fun j => h.holder_of_same rfl rfl ?_) ?_ h.answers
  · rw [critical_iff hpc', iff_false_right (not_critical_of_none hpc)]
    rintro ⟨-, ⟨⟩⟩
  · rintro j stage ⟨⟩
    trivial

lemma Inv.absent (h : source.Inv allowed s) (hpc : s.pc t = some ⟨k, .looking⟩)
    (habsent : source.present s.env k = false) : source.Inv allowed (s.finish t k .absent) := by
  have hpc' : (s.finish t k .absent).pc t = none := pc_self rfl
  refine h.of_pc rfl rfl rfl (fun j => h.holder_of_same rfl rfl ?_) ?_ ?_
  · rw [critical_iff hpc, iff_false_left (not_critical_of_none hpc')]
    rintro ⟨-, ⟨⟩⟩
  · rintro j stage ⟨⟩
  · rw [State.finish, List.forall_mem_cons]
    exact ⟨⟨s.env, h.env, habsent⟩, h.answers⟩

variable [DecidableEq Key]

lemma Inv.lock (h : source.Inv allowed s) (hpc : s.pc t = some ⟨k, .waiting⟩)
    (hfree : s.holder k = none) :
    source.Inv allowed ((s.setHolder k (some t)).goto t k .holding) := by
  have hpc' : ((s.setHolder k (some t)).goto t k .holding).pc t = some ⟨k, .holding⟩ := pc_self rfl
  have hself : ((s.setHolder k (some t)).goto t k .holding).holder k = some t :=
    Function.update_self _ _ _
  refine h.of_pc rfl rfl rfl (fun j u => ?_) ?_ h.answers
  · by_cases hj : j = k
    · subst hj
      rw [hself, Option.some.injEq]
      by_cases hu : t = u
      · subst hu
        exact iff_of_true rfl ((critical_iff hpc').mpr ⟨rfl, rfl⟩)
      · rw [iff_false_left hu]
        intro hcritical
        rw [critical_of_ne rfl (Ne.symm hu)] at hcritical
        have hholder := (h.holder j u).mpr hcritical
        rw [hfree] at hholder
        cases hholder
    · refine h.holder_of_same rfl (Function.update_of_ne hj _ _) ?_ u
      rw [critical_iff hpc, critical_iff hpc', iff_false_left (hj ·.1)]
      exact (hj ·.1)
  · rintro j stage ⟨⟩
    exact (h.pc t k .waiting hpc : source.StageInv allowed (s.cell k) .waiting)

lemma Inv.unlock (h : source.Inv allowed s) {answer : Answer ε (Value k)}
    (hpc : s.pc t = some ⟨k, .leaving answer⟩) :
    source.Inv allowed ((s.setHolder k none).finish t k answer) := by
  have hpc' : ((s.setHolder k none).finish t k answer).pc t = none := pc_self rfl
  have hself : ((s.setHolder k none).finish t k answer).holder k = none :=
    Function.update_self _ _ _
  refine h.of_pc rfl rfl rfl (fun j u => ?_) ?_ ?_
  · by_cases hj : j = k
    · subst hj
      rw [hself, iff_false_left (nomatch ·)]
      intro hcritical
      by_cases hu : u = t
      · rw [hu] at hcritical
        exact not_critical_of_none hpc' hcritical
      · rw [critical_of_ne rfl hu] at hcritical
        exact hu (h.eq_of_critical hcritical ((critical_iff hpc).mpr ⟨rfl, rfl⟩))
    · refine h.holder_of_same rfl (Function.update_of_ne hj _ _) ?_ u
      rw [critical_iff hpc, iff_false_left (not_critical_of_none hpc')]
      exact (hj ·.1)
  · rintro j stage ⟨⟩
  · rw [State.finish, List.forall_mem_cons]
    exact ⟨h.justified_of_leaving hpc, h.answers⟩

omit [DecidableEq Thread] [DecidableEq Key] in
lemma StageInv.of_not_critical {cell cell' : Option (Value k)} {stage : Stage ε (Value k)}
    (h : source.StageInv allowed cell stage) (hstage : ¬ stage.critical) :
    source.StageInv allowed cell' stage := by
  cases stage with
  | looking => trivial
  | waiting => exact h
  | holding | loading | storing _ | leaving _ => exact absurd rfl hstage

omit [DecidableEq Thread] [DecidableEq Key] in
lemma Justified.of_none {cell : Option (Value k)} {answer : Answer ε (Value k)}
    (h : source.Justified allowed none answer) : source.Justified allowed cell answer := by
  cases answer with
  | absent => exact h
  | value a => cases h.2
  | failed e => exact h

lemma Inv.store (h : source.Inv allowed s) {a : Value k} (hpc : s.pc t = some ⟨k, .storing a⟩) :
    source.Inv allowed ((s.setCell k a).goto t k (.leaving (.value a))) := by
  obtain ⟨hfound, hnone, hloaded⟩ := h.pc t k _ hpc
  have hpc' : ((s.setCell k a).goto t k (.leaving (.value a))).pc t =
      some ⟨k, .leaving (.value a)⟩ := pc_self rfl
  have hself : ((s.setCell k a).goto t k (.leaving (.value a))).cell k = some a :=
    Function.update_self _ _ _
  have hother : ∀ j ≠ k, ((s.setCell k a).goto t k (.leaving (.value a))).cell j = s.cell j :=
    fun j hj => Function.update_of_ne hj _ _
  refine ⟨h.env, fun j b hb => ?_, fun j => h.holder_of_same rfl rfl ?_, fun u j stage hu => ?_,
    fun p hp => ?_⟩
  · by_cases hj : j = k
    · subst hj
      rw [hself] at hb
      cases hb
      exact hloaded
    · rw [hother j hj] at hb
      exact h.cell j b hb
  · rw [critical_iff hpc, critical_iff hpc']
    rfl
  · by_cases hut : u = t
    · subst hut
      rw [hpc'] at hu
      cases hu
      exact ⟨hfound, hself⟩
    · have hu' : s.pc u = some ⟨j, stage⟩ := (Function.update_of_ne hut _ _).symm.trans hu
      by_cases hj : j = k
      · subst hj
        -- No other thread is at work on the cache.
        refine (h.pc u j stage hu').of_not_critical fun hcritical => hut ?_
        exact h.eq_of_critical ⟨stage, hu', hcritical⟩ ⟨_, hpc, rfl⟩
      · rw [hother j hj]
        exact h.pc u j stage hu'
  · obtain ⟨j, answer⟩ := p
    have hanswer := h.answers _ hp
    by_cases hj : j = k
    · subst hj
      simp only [hnone] at hanswer
      exact hanswer.of_none
    · simp only [hother j hj]
      exact hanswer

/-- What a run adds: a cache keeps its value, and from then on the answers do not contradict it. -/
structure Extends (s s' : State Env ε Value Thread) : Prop where
  cell : ∀ k a, s.cell k = some a → s'.cell k = some a
  answers : ∃ told, s'.answers = told ++ s.answers ∧
    ∀ p ∈ told, ∀ a, s.cell p.1 = some a → p.2 = .absent ∨ p.2 = .value a

omit [DecidableEq Thread] [DecidableEq Key] in
lemma Extends.of_eq (hcell : s'.cell = s.cell) (hanswers : s'.answers = s.answers) :
    Extends s s' :=
  ⟨fun _ _ h => hcell ▸ h, [], hanswers, fun _ h => nomatch h⟩

omit [DecidableEq Thread] [DecidableEq Key] in
lemma Extends.trans {s'' : State Env ε Value Thread} (h : Extends s s') (h' : Extends s' s'') :
    Extends s s'' := by
  obtain ⟨told, htold, hvalues⟩ := h.answers
  obtain ⟨told', htold', hvalues'⟩ := h'.answers
  refine ⟨fun k a ha => h'.cell k a (h.cell k a ha), told' ++ told, ?_, ?_⟩
  · rw [htold', htold, List.append_assoc]
  · rw [List.forall_mem_append]
    exact ⟨fun p hp a ha => hvalues' p hp a (h.cell p.1 a ha), hvalues⟩

omit [DecidableEq Thread] [DecidableEq Key] in
lemma Extends.of_cons (hcell : s'.cell = s.cell) {answer : Answer ε (Value k)}
    (hanswers : s'.answers = ⟨k, answer⟩ :: s.answers)
    (h : ∀ a, s.cell k = some a → answer = .absent ∨ answer = .value a) : Extends s s' := by
  refine ⟨fun _ _ h => hcell ▸ h, [⟨k, answer⟩], hanswers, ?_⟩
  rw [List.forall_mem_singleton]
  exact h

/-- A thread goes on. -/
lemma Inv.advance (h : source.Inv allowed s) {stage : Stage ε (Value k)}
    (hpc : s.pc t = some ⟨k, stage⟩) (hstep : source.advance s t k stage = some s') :
    source.Inv allowed s' ∧ Extends s s' := by
  have hinv := h.pc t k stage hpc
  cases stage with
  | looking =>
    rw [CacheSource.advance] at hstep
    split_ifs at hstep with hpresent
    · cases hstep
      exact ⟨h.goto hpc rfl ⟨s.env, h.env, hpresent⟩, .of_eq rfl rfl⟩
    · cases hstep
      refine ⟨h.absent hpc (by simpa using hpresent), .of_cons rfl rfl fun _ _ => .inl rfl⟩
  | waiting =>
    rw [CacheSource.advance] at hstep
    split_ifs at hstep with hfree
    cases hstep
    exact ⟨h.lock hpc hfree, .of_eq rfl rfl⟩
  | holding =>
    rw [CacheSource.advance] at hstep
    split at hstep
    next a ha =>
      cases hstep
      exact ⟨h.goto hpc rfl ⟨hinv, ha⟩, .of_eq rfl rfl⟩
    next hnone =>
      cases hstep
      exact ⟨h.goto hpc rfl ⟨hinv, hnone⟩, .of_eq rfl rfl⟩
  | loading =>
    rw [CacheSource.advance] at hstep
    split at hstep
    next a ha =>
      cases hstep
      exact ⟨h.goto hpc rfl ⟨hinv.1, hinv.2, s.env, h.env, ha⟩, .of_eq rfl rfl⟩
    next e he =>
      cases hstep
      exact ⟨h.goto hpc rfl ⟨hinv.1, hinv.2, s.env, h.env, he⟩, .of_eq rfl rfl⟩
  | storing a =>
    cases hstep
    refine ⟨h.store hpc, fun j b hb => ?_, [], rfl, fun _ h => nomatch h⟩
    by_cases hj : j = k
    · subst hj
      rw [hinv.2.1] at hb
      cases hb
    · exact (Function.update_of_ne hj _ _).trans hb
  | leaving answer =>
    cases hstep
    refine ⟨h.unlock hpc, .of_cons rfl rfl fun a ha => ?_⟩
    cases answer with
    | absent => exact hinv.elim
    | value b =>
      rw [ha] at hinv
      cases hinv.2
      exact .inr rfl
    | failed e =>
      rw [ha] at hinv
      cases hinv.2.1

/-- One step. -/
lemma Inv.step (h : source.Inv allowed s) {action : Action Env Key Thread}
    (haction : action.Within allowed) (hstep : source.step s action = some s') :
    source.Inv allowed s' ∧ Extends s s' := by
  cases action with
  | change env =>
    cases hstep
    exact ⟨⟨haction, h.cell, h.holder, h.pc, h.answers⟩, .of_eq rfl rfl⟩
  | call t k =>
    rw [CacheSource.step] at hstep
    split_ifs at hstep with hpc
    cases hstep
    exact ⟨h.call (Option.isNone_iff_eq_none.mp hpc) k, .of_eq rfl rfl⟩
  | run t =>
    rw [CacheSource.step] at hstep
    split at hstep
    next => cases hstep
    next k stage hpc => exact h.advance hpc hstep

/-- All steps of a schedule. -/
theorem Inv.runs (h : source.Inv allowed s) {schedule : List (Action Env Key Thread)}
    (hschedule : ∀ action ∈ schedule, action.Within allowed)
    (hruns : source.runs s schedule = some s') : source.Inv allowed s' ∧ Extends s s' := by
  induction schedule generalizing s with
  | nil =>
    cases hruns
    exact ⟨h, .of_eq rfl rfl⟩
  | cons action schedule ih =>
    rw [List.forall_mem_cons] at hschedule
    obtain ⟨s₁, hstep, hrest⟩ := Option.bind_eq_some_iff.mp hruns
    obtain ⟨h₁, hextends⟩ := h.step hschedule.1 hstep
    obtain ⟨h', hextends'⟩ := ih h₁ hschedule.2 hrest
    exact ⟨h', hextends.trans hextends'⟩

/-- What a cache has kept is kept for the rest of the run, whatever the environment was. -/
theorem extends_of_runs {env : Env} {schedule schedule' : List (Action Env Key Thread)}
    (h : source.runs (.initial env) schedule = some s)
    (h' : source.runs s schedule' = some s') :
    source.Inv (fun _ => True) s' ∧ Extends s s' := by
  have hwithin : ∀ action : Action Env Key Thread, action.Within fun _ => True := by
    intro action
    cases action <;> trivial
  have hinv := ((inv_initial trivial).runs (fun action _ => hwithin action) h).1
  exact hinv.runs (fun action _ => hwithin action) h'

omit [DecidableEq Thread] [DecidableEq Key] in
/-- In an environment that does not change every answer is that of the environment. -/
lemma Inv.eq_ask {env : Env} (h : source.Inv (fun env' => env' = env) s)
    {answer : Answer ε (Value k)} (hanswer : ⟨k, answer⟩ ∈ s.answers) :
    answer = source.ask env k := by
  have hjustified := h.answers _ hanswer
  rw [ask]
  cases answer with
  | absent =>
    obtain ⟨_, rfl, habsent⟩ := hjustified
    rw [habsent]
    rfl
  | value a =>
    obtain ⟨⟨_, rfl, hpresent⟩, hcell⟩ := hjustified
    obtain ⟨_, rfl, hload⟩ := h.cell k a hcell
    rw [if_pos hpresent, hload]
  | failed e =>
    obtain ⟨⟨_, rfl, hpresent⟩, _, rfl, hload⟩ := hjustified
    rw [if_pos hpresent, hload]

/-! ### Every call comes to an end -/

/-- Not all threads that ask wait for each other. -/
lemma Inv.exists_run (h : source.Inv allowed s) (hpc : s.pc t ≠ none) :
    ∃ u, (source.step s (.run u)).isSome := by
  obtain ⟨⟨k, stage⟩, hpc⟩ := Option.ne_none_iff_exists'.mp hpc
  have hcritical : ∀ {u : Thread} {stage : Stage ε (Value k)}, s.pc u = some ⟨k, stage⟩ →
      stage ≠ .waiting → (source.step s (.run u)).isSome := by
    intro u stage hpc hstage
    rw [CacheSource.step, hpc]
    cases stage with
    | waiting => exact absurd rfl hstage
    | looking =>
      simp only [CacheSource.advance]
      split_ifs <;> rfl
    | holding =>
      simp only [CacheSource.advance]
      split <;> rfl
    | loading =>
      simp only [CacheSource.advance]
      split <;> rfl
    | storing a => rfl
    | leaving answer => rfl
  by_cases hstage : stage = .waiting
  · subst hstage
    cases hholder : s.holder k with
    | none =>
      refine ⟨t, ?_⟩
      rw [CacheSource.step, hpc]
      simp only [CacheSource.advance, if_pos hholder, Option.isSome_some]
    | some u =>
      -- The thread that has the lock is not waiting for one.
      obtain ⟨stage, hu, hc⟩ := (h.holder k u).mp hholder
      refine ⟨u, hcritical hu ?_⟩
      rintro rfl
      cases hc
  · exact ⟨t, hcritical hpc hstage⟩

/-- The steps that a thread has to take. -/
def Stage.remaining {ε α : Type*} : Stage ε α → ℕ
  | .looking => 6
  | .waiting => 5
  | .holding => 4
  | .loading => 3
  | .storing _ => 2
  | .leaving _ => 1

def remaining : Option (Σ k, Stage ε (Value k)) → ℕ
  | none => 0
  | some ⟨_, stage⟩ => stage.remaining

lemma exists_pc_of_advance {stage : Stage ε (Value k)}
    (hstep : source.advance s t k stage = some s') :
    ∃ pc, s'.pc = Function.update s.pc t pc ∧ remaining pc < stage.remaining := by
  cases stage with
  | looking =>
    rw [CacheSource.advance] at hstep
    split_ifs at hstep
    · cases hstep
      exact ⟨_, rfl, by simp [remaining, Stage.remaining]⟩
    · cases hstep
      exact ⟨_, rfl, by simp [remaining, Stage.remaining]⟩
  | waiting =>
    rw [CacheSource.advance] at hstep
    split_ifs at hstep
    cases hstep
    exact ⟨_, rfl, by simp [remaining, Stage.remaining]⟩
  | holding =>
    rw [CacheSource.advance] at hstep
    split at hstep
    · cases hstep
      exact ⟨_, rfl, by simp [remaining, Stage.remaining]⟩
    · cases hstep
      exact ⟨_, rfl, by simp [remaining, Stage.remaining]⟩
  | loading =>
    rw [CacheSource.advance] at hstep
    split at hstep
    · cases hstep
      exact ⟨_, rfl, by simp [remaining, Stage.remaining]⟩
    · cases hstep
      exact ⟨_, rfl, by simp [remaining, Stage.remaining]⟩
  | storing a =>
    cases hstep
    exact ⟨_, rfl, by simp [remaining, Stage.remaining]⟩
  | leaving answer =>
    cases hstep
    exact ⟨_, rfl, by simp [remaining, Stage.remaining]⟩

omit [DecidableEq Thread] [DecidableEq Key] in
lemma remaining_le (pc : Option (Σ k, Stage ε (Value k))) : remaining pc ≤ 6 := by
  match pc with
  | none => exact Nat.zero_le 6
  | some ⟨_, stage⟩ => cases stage <;> simp [remaining, Stage.remaining]

/-- A step that is no call brings its own thread nearer to its end, and no thread further away. -/
lemma remaining_of_step {action : Action Env Key Thread} (hcall : action.isCall = false)
    (hstep : source.step s action = some s') (t : Thread) :
    (if action.isRunOf t then 1 else 0) + remaining (s'.pc t) ≤ remaining (s.pc t) := by
  cases action with
  | change env =>
    cases hstep
    simp [Action.isRunOf]
  | call t k => cases hcall
  | run u =>
    rw [CacheSource.step] at hstep
    split at hstep
    next => cases hstep
    next k stage hpc =>
      obtain ⟨pc, hpc', hlt⟩ := exists_pc_of_advance hstep
      by_cases hu : t = u
      · subst hu
        rw [pc_self hpc', hpc]
        have hone : remaining (some ⟨k, stage⟩ : Option (Σ k, Stage ε (Value k))) =
            stage.remaining := rfl
        rw [hone, if_pos (by simp [Action.isRunOf])]
        omega
      · rw [hpc', Function.update_of_ne hu]
        simp [Action.isRunOf, Ne.symm hu]

/-- However the threads are scheduled and the environment changes, each thread stops after at most
six steps. -/
theorem countP_isRunOf_le {schedule : List (Action Env Key Thread)}
    (hcalls : ∀ action ∈ schedule, action.isCall = false)
    (hruns : source.runs s schedule = some s') (t : Thread) :
    schedule.countP (·.isRunOf t) ≤ 6 := by
  have hrun : schedule.countP (·.isRunOf t) + remaining (s'.pc t) ≤ remaining (s.pc t) := by
    induction schedule generalizing s with
    | nil =>
      cases hruns
      simp
    | cons action schedule ih =>
      rw [List.forall_mem_cons] at hcalls
      obtain ⟨s₁, hstep, hrest⟩ := Option.bind_eq_some_iff.mp hruns
      have hone := remaining_of_step hcalls.1 hstep t
      have hle := ih hcalls.2 hrest
      rw [List.countP_cons]
      omega
  have hle := remaining_le (s.pc t)
  omega

/-- A schedule of the threads that cannot go on has ended all calls. -/
theorem Inv.idle_of_stuck (h : source.Inv allowed s) (hstuck : ∀ t, source.step s (.run t) = none)
    (t : Thread) : s.pc t = none := by
  by_contra hpc
  obtain ⟨u, hu⟩ := h.exists_run hpc
  rw [hstuck u] at hu
  cases hu

end Invariant

end CacheSource
