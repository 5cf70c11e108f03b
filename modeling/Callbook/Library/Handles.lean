import Mathlib.Data.Finmap
import Mathlib.Data.Fintype.EquivFin
import Mathlib.Data.List.NodupEquivFin
import Mathlib.Data.List.Perm.Basic

/-!
# Handles

A library behind a pointer interface allocates objects and hands out their addresses. The program
on the other side keeps owners that hold an address each, or null. To look behind an address that
holds no object of the right kind, or to free it, is undefined. What the objects are made of is asked
from outside, where the answers change from moment to moment.
-/

namespace Handles

/-- The objects at their addresses. -/
abbrev Heap (Obj : Type) := Finmap fun _ : ℕ => Obj

/-- Chooses the addresses of new objects: never null and never in use, but maybe in use before. The
number counts the requests, so that the choice may depend on all that happened. -/
structure Allocator (Obj : Type) where
  malloc : ℕ → Heap Obj → ℕ
  ne_zero : ∀ n heap, malloc n heap ≠ 0
  notMem : ∀ n heap, malloc n heap ∉ heap

variable {Obj : Type}

lemma exists_free (heap : Heap Obj) : ∃ a, a ≠ 0 ∧ a ∉ heap := by
  obtain ⟨a, ha⟩ := Infinite.exists_notMem_finset (insert 0 heap.keys)
  rw [Finset.mem_insert, Finmap.mem_keys, not_or] at ha
  exact ⟨a, ha⟩

lemma erase_of_notMem {heap : Heap Obj} {a : ℕ} (h : a ∉ heap) : heap.erase a = heap := by
  refine Finmap.ext_lookup fun b => ?_
  by_cases hb : b = a
  · rw [hb, Finmap.lookup_erase, Finmap.lookup_eq_none.mpr h]
  · rw [Finmap.lookup_erase_ne hb]

/-- What was allocated last can be freed without a trace. -/
lemma erase_insert {heap : Heap Obj} {a : ℕ} (h : a ∉ heap) (o : Obj) :
    (heap.insert a o).erase a = heap := by
  refine Finmap.ext_lookup fun b => ?_
  by_cases hb : b = a
  · rw [hb, Finmap.lookup_erase, Finmap.lookup_eq_none.mpr h]
  · rw [Finmap.lookup_erase_ne hb, Finmap.lookup_insert_of_ne _ hb]

lemma keys_insert (heap : Heap Obj) (a : ℕ) (o : Obj) :
    (heap.insert a o).keys = insert a heap.keys := by
  ext b
  simp [Finmap.mem_keys]

/-- The first free address, which is soon used again. -/
instance : Inhabited (Allocator Obj) where
  default :=
    { malloc := fun _ heap => Nat.find (exists_free heap)
      ne_zero := fun _ heap => (Nat.find_spec (exists_free heap)).1
      notMem := fun _ heap => (Nat.find_spec (exists_free heap)).2 }

/-! ### Reading -/

/-- What only looks at the heap; `none` is undefined. -/
abbrev Read (Obj : Type) := ReaderT (Heap Obj) Option

namespace Read

variable {α β : Type} {heap : Heap Obj}

@[simp]
lemma pure_apply (a : α) : (pure a : Read Obj α) heap = some a := rfl

@[simp]
lemma bind_apply (x : Read Obj α) (f : α → Read Obj β) :
    (x >>= f) heap = (x heap).bind fun a => f a heap := rfl

@[simp]
lemma map_apply (f : α → β) (x : Read Obj α) : (f <$> x) heap = (x heap).map f := rfl

lemma mapM_apply {f : α → Read Obj β} {g : α → β} {l : List α}
    (h : ∀ a ∈ l, f a heap = some (g a)) : l.mapM f heap = some (l.map g) := by
  induction l with
  | nil => rfl
  | cons a l ih =>
    rw [List.forall_mem_cons] at h
    rw [List.mapM_cons, bind_apply, h.1, Option.bind_some, bind_apply, ih h.2]
    rfl

end Read

/-- A pointer to an object or to a part of it; the address of null is 0. -/
structure Pointer (Obj α : Type) where
  address : ℕ
  part : Obj → Option α

namespace Pointer

variable {α β : Type}

def null : Pointer Obj α := ⟨0, fun _ => none⟩

/-- What is behind a pointer, and nothing behind null. -/
def asRef (p : Pointer Obj α) : Read Obj (Option α) := fun heap =>
  if p.address = 0 then some none
  else (heap.lookup p.address).bind fun o => (p.part o).map some

/-- A value read from behind a pointer, with another one for null. -/
def read (p : Pointer Obj α) (default : β) (f : α → β) : Read Obj β := do
  match ← p.asRef with
  | none => pure default
  | some a => pure (f a)

/-- A pointer to a part of what is behind a pointer, or null if there is no such part. -/
def borrow (p : Pointer Obj α) (f : α → Option β) : Read Obj (Pointer Obj β) := do
  match ← p.asRef with
  | none => pure null
  | some a => pure (if (f a).isSome then ⟨p.address, fun o => (p.part o).bind f⟩ else null)

variable {p : Pointer Obj α} {heap : Heap Obj} {a : Option α}

@[simp]
lemma asRef_null : (null : Pointer Obj α).asRef heap = some none := if_pos rfl

lemma read_of_asRef (h : p.asRef heap = some a) (default : β) (f : α → β) :
    p.read default f heap = some (a.elim default f) := by
  show (p.asRef heap).bind _ = _
  rw [h]
  cases a <;> rfl

lemma asRef_of_borrow (h : p.asRef heap = some a) (f : α → Option β) :
    ∃ q, p.borrow f heap = some q ∧ q.asRef heap = some (a.bind f) := by
  have hborrow : p.borrow f heap = (p.asRef heap).bind fun a =>
      match a with
      | none => some null
      | some a =>
        some (if (f a).isSome then ⟨p.address, fun o => (p.part o).bind f⟩ else null) := by
    show (p.asRef heap).bind _ = _
    congr 1
    funext a
    cases a <;> rfl
  rw [hborrow, h]
  cases a with
  | none => exact ⟨_, rfl, asRef_null⟩
  | some a =>
    refine ⟨_, rfl, ?_⟩
    cases hf : f a with
    | none => simp [hf]
    | some b =>
      rw [asRef] at h ⊢
      split_ifs at h with hzero
      · simp at h
      · obtain ⟨o, ho, ha⟩ := Option.bind_eq_some_iff.mp h
        obtain ⟨a', ha', heq⟩ := Option.map_eq_some_iff.mp ha
        obtain rfl := Option.some.inj heq
        simp [hzero, ho, ha', hf]

lemma address_eq_zero_iff (h : p.asRef heap = some a) : p.address = 0 ↔ a = none := by
  rw [asRef] at h
  split_ifs at h with hzero
  · simpa [hzero] using h.symm
  · obtain ⟨o, -, ha⟩ := Option.bind_eq_some_iff.mp h
    obtain ⟨a', -, rfl⟩ := Option.map_eq_some_iff.mp ha
    simp [hzero]

end Pointer

/-! ### Questions -/

/-- What is computed from answers to questions; it may be aborted. The state is the moment. -/
abbrev Timed (ε : Type) := StateT ℕ (Except ε)

namespace Timed

variable {ε α β : Type}

/-- A question, with its answer at each moment. An answer takes a moment, so the same question may
be answered otherwise the next time. -/
def ask (question : ℕ → Except ε α) : Timed ε α := fun moment =>
  match question moment with
  | .error e => .error e
  | .ok a => .ok (a, moment + 1)

variable {x : Timed ε α} {f : α → Timed ε β} {moment moment' : ℕ}

lemma bind_of_ok {a : α} (h : x moment = .ok (a, moment')) : (x >>= f) moment = f a moment' := by
  show (x moment).bind _ = _
  rw [h]
  rfl

lemma bind_of_error {e : ε} (h : x moment = .error e) : (x >>= f) moment = .error e := by
  show (x moment).bind _ = _
  rw [h]
  rfl

end Timed

/-! ### Programs -/

/-- The heap and the owners, with the number of objects allocated so far, and the moment. -/
structure State (Obj Owner : Type) where
  heap : Heap Obj
  owners : List Owner
  allocated : ℕ
  moment : ℕ

/-- Why a program does not come to its end. -/
inductive Fault (ε : Type) where
  | undefined
  | aborted (e : ε)
  deriving DecidableEq, Repr

abbrev Program (Obj Owner ε : Type) := StateT (State Obj Owner) (Except (Fault ε))

namespace Program

variable {Owner ε α β : Type}

def ofRead (x : Read Obj α) : Program Obj Owner ε α := fun s =>
  match x s.heap with
  | none => .error .undefined
  | some a => .ok (a, s)

/-- What is asked may abort the whole process. -/
def ofTimed (x : Timed ε α) : Program Obj Owner ε α := fun s =>
  match x s.moment with
  | .error e => .error (.aborted e)
  | .ok (a, moment) => .ok (a, { s with moment := moment })

/-- Hand out the address of a new object. -/
def intoRaw (A : Allocator Obj) (o : Obj) : Program Obj Owner ε ℕ := fun s =>
  let a := A.malloc s.allocated s.heap
  .ok (a, { s with heap := s.heap.insert a o, allocated := s.allocated + 1 })

/-- Free an object of a kind; null is passed over. -/
def free (kind : Obj → Bool) (a : ℕ) : Program Obj Owner ε Unit := fun s =>
  if a = 0 then .ok ((), s)
  else if (s.heap.lookup a).any kind then .ok ((), { s with heap := s.heap.erase a })
  else .error .undefined

/-- A new owner, with its index. -/
def push (w : Owner) : Program Obj Owner ε ℕ := fun s =>
  .ok (s.owners.length, { s with owners := s.owners ++ [w] })

def setOwner (i : ℕ) (w : Owner) : Program Obj Owner ε Unit := fun s =>
  .ok ((), { s with owners := s.owners.set i w })

def owner? (i : ℕ) : Program Obj Owner ε (Option Owner) := fun s => .ok (s.owners[i]?, s)

/-- The program is not undefined: it returns with `post`, or it aborts with `abort`. -/
def Ensures (x : Program Obj Owner ε α) (s : State Obj Owner) (post : α → State Obj Owner → Prop)
    (abort : ε → Prop) : Prop :=
  match x s with
  | .ok (a, s') => post a s'
  | .error (.aborted e) => abort e
  | .error .undefined => False

section Rules

variable {s : State Obj Owner} {post : α → State Obj Owner → Prop}
  {post' : β → State Obj Owner → Prop} {abort : ε → Prop}

@[simp]
lemma ensures_bind (x : Program Obj Owner ε α) (f : α → Program Obj Owner ε β) :
    Ensures (x >>= f) s post' abort ↔
      Ensures x s (fun a s' => Ensures (f a) s' post' abort) abort := by
  have hbind : (x >>= f) s = (x s).bind fun r => f r.1 r.2 := rfl
  rw [Ensures, Ensures, hbind]
  cases x s with
  | ok r => rfl
  | error e => cases e <;> rfl

lemma ensures_ofRead {x : Read Obj α} {a : α} (h : x s.heap = some a) :
    Ensures (ofRead x) s post abort ↔ post a s := by
  rw [Ensures, ofRead, h]

lemma ensures_ofTimed (x : Timed ε α) :
    Ensures (ofTimed x) s post abort ↔
      match x s.moment with
      | .error e => abort e
      | .ok (a, moment) => post a { s with moment := moment } := by
  rw [Ensures, ofTimed]
  cases x s.moment <;> rfl

lemma ensures_free {kind : Obj → Bool} {a : ℕ} {post : Unit → State Obj Owner → Prop}
    (hzero : 0 ∉ s.heap) (hkind : a ≠ 0 → (s.heap.lookup a).any kind) :
    Ensures (free kind a) s post abort ↔ post () { s with heap := s.heap.erase a } := by
  rw [Ensures, free]
  by_cases ha : a = 0
  · rw [if_pos ha, ha, erase_of_notMem hzero]
  · rw [if_neg ha, if_pos (hkind ha)]

@[simp]
lemma ensures_owner? (i : ℕ) (post : Option Owner → State Obj Owner → Prop) :
    Ensures (owner? i) s post abort ↔ post s.owners[i]? s := Iff.rfl

end Rules

end Program

/-! ### Ownership -/

section Ownership

variable {Owner V : Type} (pointer : Owner → ℕ) (Rel : Option Obj → Owner → V → Prop)

/-- The owners stand for some values, each with the object that it holds, and hold all objects
between them, each once. -/
structure Refines (s : State Obj Owner) (vs : List V) : Prop where
  rel : List.Forall₂ (fun w v => Rel (s.heap.lookup (pointer w)) w v) s.owners vs
  keys : (((s.owners.map pointer).filter (· ≠ 0) : List ℕ) : Multiset ℕ) = s.heap.keys.val

variable {pointer Rel} {s : State Obj Owner} {vs : List V}

/-! ### Lists -/

lemma perm_cons_eraseIdx {α : Type} {l : List α} {i : ℕ} {a : α} (h : l[i]? = some a) :
    l.Perm (a :: l.eraseIdx i) := by
  obtain ⟨hi, rfl⟩ := List.getElem?_eq_some_iff.mp h
  exact (List.getElem_cons_eraseIdx_perm hi).symm

lemma forall₂_set {α β : Type} {R R' : α → β → Prop} {l : List α} {l' : List β} {i : ℕ} {a : α}
    {b : β} (h : List.Forall₂ R l l') (hnew : R' a b)
    (hold : ∀ (j : ℕ) x y, j ≠ i → l[j]? = some x → R x y → R' x y) :
    List.Forall₂ R' (l.set i a) (l'.set i b) := by
  refine List.forall₂_of_length_eq_of_get (by simp [h.length_eq]) fun j hj hj' => ?_
  rw [List.length_set] at hj hj'
  simp only [List.get_eq_getElem, List.getElem_set]
  split_ifs with hij
  · exact hnew
  · exact hold j _ _ (Ne.symm hij) (List.getElem?_eq_getElem hj) (h.get hj hj')

lemma forall₂_mono {α β : Type} {R R' : α → β → Prop} {l : List α} {l' : List β}
    (h : List.Forall₂ R l l') (himp : ∀ (j : ℕ) x y, l[j]? = some x → R x y → R' x y) :
    List.Forall₂ R' l l' :=
  List.forall₂_of_length_eq_of_get h.length_eq fun j hj hj' =>
    himp j _ _ (List.getElem?_eq_getElem hj) (h.get hj hj')

lemma refines_nil : Refines pointer Rel (⟨∅, [], 0, 0⟩ : State Obj Owner) [] := ⟨.nil, rfl⟩

namespace Refines

lemma zero_notMem (h : Refines pointer Rel s vs) : 0 ∉ s.heap := by
  rw [← Finmap.mem_keys, ← Finset.mem_val, ← h.keys]
  simp

/-- There are as many objects as owners that hold one. -/
lemma card_keys (h : Refines pointer Rel s vs) :
    s.heap.keys.card = s.owners.countP (pointer · ≠ 0) := by
  rw [Finset.card_def, ← h.keys, Multiset.coe_card, List.filter_map, List.length_map,
    List.countP_eq_length_filter]
  rfl

lemma getElem? (h : Refines pointer Rel s vs) {i : ℕ} {w : Owner} (hw : s.owners[i]? = some w) :
    ∃ v, vs[i]? = some v ∧ Rel (s.heap.lookup (pointer w)) w v := by
  obtain ⟨hi, rfl⟩ := List.getElem?_eq_some_iff.mp hw
  have hi' : i < vs.length := h.rel.length_eq ▸ hi
  exact ⟨vs[i], List.getElem?_eq_getElem hi', h.rel.get hi hi'⟩

/-- No two owners hold the same object. -/
lemma pointer_ne (h : Refines pointer Rel s vs) {i j : ℕ} {w w' : Owner}
    (hw : s.owners[i]? = some w) (hw' : s.owners[j]? = some w') (hij : j ≠ i)
    (hne : pointer w ≠ 0) : pointer w' ≠ pointer w := by
  intro heq
  have hperm : ((s.owners.map pointer).filter (· ≠ 0)).Perm
      (pointer w :: ((s.owners.map pointer).eraseIdx i).filter (· ≠ 0)) := by
    have hsplit := (perm_cons_eraseIdx (l := s.owners.map pointer) (a := pointer w)
      (by rw [List.getElem?_map, hw, Option.map_some])).filter (· ≠ 0)
    rwa [List.filter_cons_of_pos (by simpa using hne)] at hsplit
  have hnodup : ((s.owners.map pointer).filter (· ≠ 0)).Nodup := by
    rw [← Multiset.coe_nodup, h.keys]
    exact s.heap.keys.nodup
  refine (List.nodup_cons.mp (hperm.nodup_iff.mp hnodup)).1 (List.mem_filter.mpr ⟨?_, by simpa⟩)
  rw [List.mem_eraseIdx_iff_getElem?]
  exact ⟨j, hij, by rw [List.getElem?_map, hw', Option.map_some, heq]⟩

lemma pointer_ne_of_notMem (h : Refines pointer Rel s vs) {i a : ℕ} {w : Owner}
    (hw : s.owners[i]? = some w) (ha : a ∉ s.heap) (hne : a ≠ 0) : pointer w ≠ a := by
  rintro rfl
  rw [← Finmap.mem_keys, ← Finset.mem_val, ← h.keys, Multiset.mem_coe, List.mem_filter] at ha
  exact ha ⟨List.mem_map_of_mem (List.mem_of_getElem? hw), by simpa⟩

/-- An owner gives its object back. -/
lemma free (h : Refines pointer Rel s vs) {i : ℕ} {w w' : Owner} {v' : V}
    (hw : s.owners[i]? = some w) (hrel : Rel none w' v') (hnull : pointer w' = 0) :
    Refines pointer Rel
      { s with heap := s.heap.erase (pointer w), owners := s.owners.set i w' } (vs.set i v') := by
  have hmap : (s.owners.map pointer)[i]? = some (pointer w) := by
    rw [List.getElem?_map, hw, Option.map_some]
  constructor
  · refine forall₂_set h.rel ?_ fun j u v hj hu huv => ?_
    · rwa [hnull, Finmap.lookup_eq_none.mpr fun hmem => h.zero_notMem (Finmap.mem_erase.mp hmem).2]
    · by_cases hzero : pointer w = 0
      · rwa [hzero, erase_of_notMem h.zero_notMem]
      · rwa [Finmap.lookup_erase_ne (h.pointer_ne hw hu hj hzero)]
  · have hold := (perm_cons_eraseIdx hmap).filter (· ≠ 0)
    have hnew := (List.set_perm_cons_eraseIdx (List.getElem?_eq_some_iff.mp hmap).1 0).filter
      (· ≠ 0)
    rw [List.filter_cons_of_neg (by simp)] at hnew
    rw [List.map_set, hnull, Finmap.keys_erase, Finset.erase_val, ← h.keys,
      Multiset.coe_eq_coe.mpr hnew, Multiset.coe_eq_coe.mpr hold]
    by_cases hzero : pointer w = 0
    · rw [List.filter_cons_of_neg (by simpa), Multiset.erase_of_notMem (by simp [hzero])]
    · rw [List.filter_cons_of_pos (by simpa using hzero), ← Multiset.cons_coe,
        Multiset.erase_cons_head]

/-- An owner without an object takes a new one. -/
lemma take (h : Refines pointer Rel s vs) {A : Allocator Obj} {i n n' m : ℕ} {o : Obj}
    {w w' : Owner} {v' : V} (hw : s.owners[i]? = some w) (hnull : pointer w = 0)
    (hrel : Rel (some o) w' v')
    (hnew : pointer w' = A.malloc n s.heap) :
    Refines pointer Rel
      { heap := s.heap.insert (A.malloc n s.heap) o, owners := s.owners.set i w', allocated := n'
        moment := m }
      (vs.set i v') := by
  have hmap : (s.owners.map pointer)[i]? = some (pointer w) := by
    rw [List.getElem?_map, hw, Option.map_some]
  have hfresh := A.notMem n s.heap
  constructor
  · refine forall₂_set h.rel ?_ fun j u v _ hu huv => ?_
    · rwa [hnew, Finmap.lookup_insert]
    · rwa [Finmap.lookup_insert_of_ne _ (h.pointer_ne_of_notMem hu hfresh (A.ne_zero n s.heap))]
  · have hold := (perm_cons_eraseIdx hmap).filter (· ≠ 0)
    have hset := (List.set_perm_cons_eraseIdx (List.getElem?_eq_some_iff.mp hmap).1
      (A.malloc n s.heap)).filter (· ≠ 0)
    rw [hnull, List.filter_cons_of_neg (by simp)] at hold
    rw [List.filter_cons_of_pos (by simpa using A.ne_zero n s.heap)] at hset
    rw [List.map_set, hnew, keys_insert, Finset.insert_val_of_notMem (by rwa [Finmap.mem_keys]),
      ← h.keys, Multiset.coe_eq_coe.mpr hset, Multiset.coe_eq_coe.mpr hold, Multiset.cons_coe]

/-- An owner of nothing changes. -/
lemma setNull (h : Refines pointer Rel s vs) {i : ℕ} {w w' : Owner} {v' : V}
    (hw : s.owners[i]? = some w) (hnull : pointer w = 0) (hrel : Rel none w' v')
    (hnull' : pointer w' = 0) :
    Refines pointer Rel { s with owners := s.owners.set i w' } (vs.set i v') := by
  have hfree := h.free hw hrel hnull'
  rwa [hnull, erase_of_notMem h.zero_notMem] at hfree

/-- A new owner of nothing. -/
lemma pushNull (h : Refines pointer Rel s vs) {w : Owner} {v : V} (hnull : pointer w = 0)
    (hrel : Rel none w v) :
    Refines pointer Rel { s with owners := s.owners ++ [w] } (vs ++ [v]) := by
  constructor
  · refine List.rel_append h.rel (.cons ?_ .nil)
    rwa [hnull, Finmap.lookup_eq_none.mpr h.zero_notMem]
  · rw [List.map_append, List.filter_append, List.map_singleton, hnull,
      List.filter_cons_of_neg (by simp), List.filter_nil, List.append_nil, h.keys]

/-- A new owner of a new object. -/
lemma push (h : Refines pointer Rel s vs) {A : Allocator Obj} {n n' m : ℕ} {o : Obj} {w : Owner}
    {v : V} (hnew : pointer w = A.malloc n s.heap) (hrel : Rel (some o) w v) :
    Refines pointer Rel
      { heap := s.heap.insert (A.malloc n s.heap) o, owners := s.owners ++ [w], allocated := n'
        moment := m }
      (vs ++ [v]) := by
  have hfresh := A.notMem n s.heap
  constructor
  · refine List.rel_append (forall₂_mono h.rel fun j u v hu huv => ?_) (.cons ?_ .nil)
    · rwa [Finmap.lookup_insert_of_ne _ (h.pointer_ne_of_notMem hu hfresh (A.ne_zero n s.heap))]
    · rwa [hnew, Finmap.lookup_insert]
  · rw [List.map_append, List.filter_append, List.map_singleton, hnew,
      List.filter_cons_of_pos (by simpa using A.ne_zero n s.heap), List.filter_nil, keys_insert,
      Finset.insert_val_of_notMem (by rwa [Finmap.mem_keys]), ← h.keys, ← Multiset.coe_add,
      Multiset.coe_singleton, Multiset.add_comm, Multiset.singleton_add]

lemma mem_heap (h : Refines pointer Rel s vs) {i : ℕ} {w : Owner} (hw : s.owners[i]? = some w)
    (hne : pointer w ≠ 0) : pointer w ∈ s.heap := by
  rw [← Finmap.mem_keys, ← Finset.mem_val, ← h.keys, Multiset.mem_coe, List.mem_filter]
  exact ⟨List.mem_map_of_mem (List.mem_of_getElem? hw), by simpa⟩

lemma lookup_isSome (h : Refines pointer Rel s vs) {i : ℕ} {w : Owner}
    (hw : s.owners[i]? = some w) : (s.heap.lookup (pointer w)).isSome ↔ pointer w ≠ 0 := by
  rw [Finmap.lookup_isSome]
  refine ⟨fun hmem hzero => h.zero_notMem (hzero ▸ hmem), h.mem_heap hw⟩

/-- An owner can look at what it holds. -/
lemma asRef (h : Refines pointer Rel s vs) {i : ℕ} {w : Owner} (hw : s.owners[i]? = some w)
    {α β : Type} {part : Obj → Option β} {f : α → Obj} {g : α → β} {x : Option α}
    (hheld : s.heap.lookup (pointer w) = x.map f) (hpart : ∀ a, part (f a) = some (g a)) :
    (⟨pointer w, part⟩ : Pointer Obj β).asRef s.heap = some (x.map g) := by
  have hiff := h.lookup_isSome hw
  rw [Pointer.asRef]
  dsimp only
  cases x with
  | none =>
    rw [hheld] at hiff
    rw [if_pos (by simpa using hiff)]
    rfl
  | some a =>
    rw [hheld] at hiff
    rw [if_neg (by simpa using hiff), hheld]
    simp [hpart]

/-- An owner can free what it holds. -/
lemma ensures_free {ε : Type} (h : Refines pointer Rel s vs) {i : ℕ} {w : Owner}
    (hw : s.owners[i]? = some w) {kind : Obj → Bool}
    (hkind : ∀ o ∈ s.heap.lookup (pointer w), kind o)
    {post : Unit → State Obj Owner → Prop} {abort : ε → Prop} :
    Program.Ensures (Program.free kind (pointer w)) s post abort ↔
      post () { s with heap := s.heap.erase (pointer w) } := by
  refine Program.ensures_free h.zero_notMem fun hne => ?_
  obtain ⟨o, ho⟩ := Option.isSome_iff_exists.mp ((h.lookup_isSome hw).mpr hne)
  rw [ho]
  exact hkind o ho

/-- The count of the allocations and the moment have nothing to do with the owners. -/
lemma counts (h : Refines pointer Rel s vs) (n m : ℕ) :
    Refines pointer Rel { s with allocated := n, moment := m } vs := ⟨h.rel, h.keys⟩

end Refines

/-! ### Meanings -/

variable (pointer Rel)

/-- A program does to the owners what is said of the values: it comes to the same result at the same
moment, or it aborts with the same error. -/
def Simulates {ε α : Type} (x : Program Obj Owner ε α) (s : State Obj Owner)
    (y : Timed ε (α × List V)) : Prop :=
  x.Ensures s
    (fun a s' => ∃ vs', y s.moment = .ok ((a, vs'), s'.moment) ∧ Refines pointer Rel s' vs')
    fun e => y s.moment = .error e

variable {pointer Rel}

namespace Simulates

variable {ε α β : Type} {x : Program Obj Owner ε α} {y : Timed ε (α × List V)}

/-- One part after the other. -/
lemma bind (h : Simulates pointer Rel x s y) {f : α → Program Obj Owner ε β}
    {g : α × List V → Timed ε (β × List V)}
    (hf : ∀ a s' vs', Refines pointer Rel s' vs' → Simulates pointer Rel (f a) s' (g (a, vs'))) :
    Simulates pointer Rel (x >>= f) s (y >>= g) := by
  rw [Simulates, Program.ensures_bind]
  rw [Simulates, Program.Ensures] at h
  rw [Program.Ensures]
  cases hx : x s with
  | ok r =>
    rw [hx] at h
    obtain ⟨vs', hy, hrefines⟩ := h
    dsimp only
    rw [Timed.bind_of_ok hy]
    exact hf r.1 r.2 vs' hrefines
  | error e =>
    rw [hx] at h
    cases e with
    | undefined => exact h
    | aborted e => exact Timed.bind_of_error h

end Simulates

end Ownership

end Handles
