import Callbook.Python.Meaning

/-!
# The package refines its meaning

The objects of the package and the objects behind their pointers stand for the entities of the
meaning, and each call keeps it so. So a program that uses the package, whatever it calls and in
whatever order, never looks behind a pointer that is not its own, frees nothing twice, and is told
what the meaning says.
-/

namespace Callbook.Python

open Text Handles Ffi

/-! ### Objects and entities -/

section Stands

variable {Db : Type} (crate : Crate Db)

/-- The records that a generator frees. -/
def Listing.holds : Listing → Object Db → Bool
  | currentUsRecords, o => o.usRecord?.isSome
  | interestDefinitions, o => o.interestDefinition?.isSome

/-- An object of the package, with what is behind its pointer, stands for an entity. -/
inductive Stands : Option (Object Db) → Instance → Entity Db → Prop
  | callBook (p : ℕ) (db : Option Db) : Stands (db.map .db) (.callBook p) (.callBook db)
  | lookupResult (p : ℕ) (result : Option Callbook.LookupResult) :
    Stands (result.map fun r => .lookupResult (.ofLookupResult r)) (.lookupResult p)
      (.lookupResult result)
  | stationProfile (p : ℕ) (profile : Option Callbook.StationProfile) :
    Stands (profile.map fun x => .profile (.ofStationProfile crate.pathText x)) (.stationProfile p)
      (.stationProfile profile)
  | interestSearch (p : ℕ) (search : Option Callbook.InterestSearch) :
    Stands (search.map fun x => .interestSearch (.ofInterestSearch x)) (.interestSearch p)
      (.interestSearch search)
  | created (listing : Listing) (self : ℕ) :
    Stands none (.generator listing self .created) (.generator listing self .created)
  | suspended {listing : Listing} {self out : ℕ} {rest : List ℕ} {o : Object Db}
      (h : listing.holds o) :
    Stands (some o) (.generator listing self (.suspended rest out))
      (.generator listing self (.suspended rest))
  | finished (listing : Listing) (self : ℕ) :
    Stands none (.generator listing self .finished) (.generator listing self .finished)

/-- The state of the package stands for some entities. -/
abbrev Holds (s : State (Object Db) Instance) (vs : List (Entity Db)) : Prop :=
  Refines Instance.pointer (Stands crate) s vs

/-- A part of the package does what its meaning says. -/
abbrev Does (x : Script Db Outcome) (s : State (Object Db) Instance)
    (y : Timed Panic (Outcome × List (Entity Db))) : Prop :=
  Simulates Instance.pointer (Stands crate) x s y

variable {crate}

/-- An entity is open when its object holds something. -/
lemma Stands.isOpen {held : Option (Object Db)} {w : Instance} {v : Entity Db}
    (h : Stands crate held w v) : v.isOpen = held.isSome := by
  cases h <;> simp [Entity.isOpen]

variable {s : State (Object Db) Instance} {vs : List (Entity Db)}

lemma Holds.length_eq (h : Holds crate s vs) : s.owners.length = vs.length := h.rel.length_eq

/-- An index is that of an object and its entity, or of neither. -/
lemma Holds.cases (h : Holds crate s vs) (i : ℕ) :
    (s.owners[i]? = none ∧ vs[i]? = none) ∨
      ∃ w v held, s.owners[i]? = some w ∧ vs[i]? = some v ∧ s.heap.lookup w.pointer = held ∧
        Stands crate held w v := by
  cases hw : s.owners[i]? with
  | none =>
    rw [List.getElem?_eq_none_iff, h.length_eq] at hw
    exact .inl ⟨rfl, List.getElem?_eq_none_iff.mpr hw⟩
  | some w =>
    obtain ⟨v, hv, hstands⟩ := h.getElem? hw
    exact .inr ⟨w, v, _, rfl, hv, rfl, hstands⟩

lemma Holds.asRef_callBook (h : Holds crate s vs) {i p : ℕ} {db : Option Db}
    (hw : s.owners[i]? = some (.callBook p)) (hheld : s.heap.lookup p = db.map .db) :
    (dbAt p).asRef s.heap = some db := by
  have href : (dbAt p).asRef s.heap = some (db.map id) := h.asRef hw hheld fun _ => rfl
  rwa [Option.map_id] at href

/-- There are as many objects as open entities. -/
lemma Holds.card_keys (h : Holds crate s vs) : s.heap.keys.card = vs.countP Entity.isOpen := by
  rw [Refines.card_keys h]
  have hopen : ∀ (i : ℕ) w v, s.owners[i]? = some w →
      Stands crate (s.heap.lookup w.pointer) w v →
      decide (w.pointer ≠ 0) = v.isOpen := by
    intro i w v hw hv
    rw [hv.isOpen, ← Bool.coe_iff_coe, h.lookup_isSome hw]
    simp
  have hrel := forall₂_mono h.rel hopen
  generalize s.owners = l at hrel
  clear h hopen
  induction hrel with
  | nil => rfl
  | cons hwv _ ih => rw [List.countP_cons, List.countP_cons, ih, hwv]

end Stands

/-! ### Objects that are handed out -/

section Methods

variable {Db α β : Type} {A : Allocator (Object Db)} {crate : Crate Db}
  {s : State (Object Db) Instance} {vs : List (Entity Db)}

lemma check_code (failure : Failure) (context : String) :
    check failure.code context = .error (.new failure.code context) :=
  if_neg (by cases failure <;> decide)

/-- A function hands out an object made from an answer, or the code of its failure. -/
def HandsOut (A : Allocator (Object Db)) (toObject : α → Object Db)
    (call : Script Db (Int32 × ℕ)) (s : State (Object Db) Instance)
    (answer : Timed Panic (Except Failure α)) : Prop :=
  ∀ post abort, call.Ensures s post abort ↔
    match answer s.moment with
    | .error e => abort e
    | .ok (.error failure, moment) => post (failure.code, 0) { s with moment := moment }
    | .ok (.ok a, moment) =>
      post (0, A.malloc s.allocated s.heap)
        { s with
          heap := s.heap.insert (A.malloc s.allocated s.heap) (toObject a)
          allocated := s.allocated + 1
          moment := moment }

lemma handsOut_answer (toObject : α → Object Db) (answer : Timed Panic (Except Failure α)) :
    HandsOut A toObject (do
      let x ← Program.ofTimed answer
      handOut A toObject x) s answer := by
  intro post abort
  rw [Program.ensures_bind, Program.ensures_ofTimed]
  rcases answer s.moment with e | ⟨failure | a, moment⟩ <;> rfl

/-- A database that is closed is a wrong argument. -/
lemma handsOut_withDb {p : ℕ} {db : Option Db} (hdb : (dbAt p).asRef s.heap = some db)
    (toObject : α → Object Db) (answer : Db → Timed Panic (Except Failure α)) :
    HandsOut A toObject (withDb A toObject p answer) s (answerOf db answer) := by
  intro post abort
  rw [withDb, Program.ensures_bind, Program.ensures_ofRead hdb]
  cases db with
  | none => rfl
  | some handle => exact handsOut_answer toObject (answer handle) post abort

/-- An object is made around what is handed out. -/
lemma does_wrap (h : Holds crate s vs) {toObject : α → Object Db} {call : Script Db (Int32 × ℕ)}
    {answer : Timed Panic (Except Failure α)} (hcall : HandsOut A toObject call s answer)
    {make : ℕ → Instance} {entity : α → Entity Db} (hpointer : ∀ p, (make p).pointer = p)
    (hstands : ∀ a p, Stands crate (some (toObject a)) (make p) (entity a)) (context : String) :
    Does crate (wrap make call context) s (do
      let x ← answer
      pure (created vs entity context x)) := by
  rw [Does, Simulates, wrap, Program.ensures_bind, hcall]
  rcases hanswer : answer s.moment with e | ⟨failure | a, moment⟩
  · exact Timed.bind_of_error hanswer
  · simp only [check_code]
    exact ⟨vs, Timed.bind_of_ok hanswer, h.counts _ _⟩
  · have hne := A.ne_zero s.allocated s.heap
    simp only [check, if_true, if_neg hne]
    refine ⟨vs ++ [entity a], ?_, h.push (hpointer _) (hstands a _)⟩
    rw [h.length_eq]
    exact Timed.bind_of_ok hanswer

/-- What is handed out is read and freed again. -/
lemma does_fetch (h : Holds crate s vs) {γ : Type} {toObject : α → Object Db}
    {call : Script Db (Int32 × ℕ)} {answer : Timed Panic (Except Failure α)}
    (hcall : HandsOut A toObject call s answer) {part : Object Db → Option β} {c : α → β}
    (hpart : ∀ a, part (toObject a) = some (c a))
    {fromPtr : Pointer (Object Db) β → Read (Object Db) (Except CallBookError (Option γ))}
    {record : α → γ} (hfrom : ∀ a (heap : Heap (Object Db)) (p : Pointer (Object Db) β),
      p.asRef heap = some ((some a).map c) → fromPtr p heap = some (.ok ((some a).map record)))
    {kind : Object Db → Bool} (hkind : ∀ a, kind (toObject a)) (value : Option γ → Value)
    (context : String) :
    Does crate (fetch call part fromPtr (Program.free kind) value context) s (do
      let x ← answer
      pure (found record value context x, vs)) := by
  rw [Does, Simulates, fetch, Program.ensures_bind, hcall]
  rcases hanswer : answer s.moment with e | ⟨failure | a, moment⟩
  · exact Timed.bind_of_error hanswer
  · have hfailed := h.counts s.allocated moment
    cases failure with
    | notFound => exact ⟨vs, Timed.bind_of_ok hanswer, hfailed⟩
    | usage => exact ⟨vs, Timed.bind_of_ok hanswer, hfailed⟩
    | openFailed => exact ⟨vs, Timed.bind_of_ok hanswer, hfailed⟩
  · have hne := A.ne_zero s.allocated s.heap
    have hfresh := A.notMem s.allocated s.heap
    set out := A.malloc s.allocated s.heap
    have href : (⟨out, part⟩ : Pointer (Object Db) β).asRef (s.heap.insert out (toObject a)) =
        some ((some a).map c) := by
      simp [Pointer.asRef, hne, hpart]
    have hzero : 0 ∉ s.heap.insert out (toObject a) := by
      rw [Finmap.mem_insert, not_or]
      exact ⟨hne.symm, h.zero_notMem⟩
    have hcode : (0 : Int32) ≠ callbookENotFound := by decide
    simp only [check, if_true, if_neg hcode, if_neg hne]
    rw [Program.ensures_bind, Program.ensures_ofRead (hfrom a _ _ href), Program.ensures_bind,
      Program.ensures_free hzero fun _ => by simp [hkind]]
    refine ⟨vs, Timed.bind_of_ok hanswer, ?_⟩
    dsimp only
    rw [erase_insert hfresh]
    exact h.counts _ _

/-! ### Methods of a database -/

/-- The database of an object, if it is one. -/
lemma Holds.cases_callBook (h : Holds crate s vs) (self : ℕ) :
    (∃ p db, s.owners[self]? = some (.callBook p) ∧ vs[self]? = some (.callBook db) ∧
      (dbAt p).asRef s.heap = some db) ∨
    (∀ p, s.owners[self]? ≠ some (.callBook p)) ∧ ∀ db, vs[self]? ≠ some (.callBook db) := by
  rcases h.cases self with ⟨hw, hv⟩ | ⟨w, v, held, hw, hv, hheld, hstands⟩
  · exact .inr ⟨by simp [hw], by simp [hv]⟩
  · cases hstands with
    | callBook p db => exact .inl ⟨p, db, hw, hv, h.asRef_callBook hw hheld⟩
    | _ => exact .inr ⟨by simp [hw], by simp [hv]⟩

lemma does_onCallBook (h : Holds crate s vs) {self : ℕ} {method : ℕ → Script Db Outcome}
    {meaning : Option Db → Timed Panic (Outcome × List (Entity Db))}
    (hmethod : ∀ p db, (dbAt p).asRef s.heap = some db → Does crate (method p) s (meaning db)) :
    Does crate (onCallBook self method) s
      (match vs[self]? with
      | some (.callBook db) => meaning db
      | _ => pure (.attributeError, vs)) := by
  rw [Does, Simulates, onCallBook, Program.ensures_bind, Program.ensures_owner?]
  rcases h.cases_callBook self with ⟨p, db, hw, hv, hdb⟩ | ⟨hw, hv⟩
  · rw [hw, hv]
    exact hmethod p db hdb
  · have hmeaning : (match vs[self]? with
        | some (.callBook db) => meaning db
        | _ => pure (.attributeError, vs)) = pure (.attributeError, vs) := by
      split
      · next db hdb => exact absurd hdb (hv db)
      · rfl
    split
    · next p hp => exact absurd hp (hw p)
    · exact ⟨vs, congrFun hmeaning s.moment, h⟩

/-- The pointer of the database of a generator. -/
lemma ensures_selfPointer (h : Holds crate s vs) (self : ℕ) :
    ∃ p, (dbAt p).asRef s.heap = some (dbOf vs self) ∧ ∀ post abort,
      (selfPointer self : Script Db ℕ).Ensures s post abort ↔ post p s := by
  rcases h.cases_callBook self with ⟨p, db, hw, hv, hdb⟩ | ⟨hw, hv⟩
  · refine ⟨p, ?_, fun post abort => ?_⟩
    · rw [hdb, dbOf, hv]
    · rw [selfPointer, Program.ensures_bind, Program.ensures_owner?, hw]
      rfl
  · refine ⟨0, ?_, fun post abort => ?_⟩
    · rw [dbOf]
      split
      · next db hdb => exact absurd hdb (hv db)
      · rfl
    · rw [selfPointer, Program.ensures_bind, Program.ensures_owner?]
      split
      · next p hp => exact absurd hp (hw p)
      · rfl

/-- A method that makes an object. -/
lemma does_making (h : Holds crate s vs) {self : ℕ} {toObject : α → Object Db}
    {answer : Db → Timed Panic (Except Failure α)} {make : ℕ → Instance} {entity : α → Entity Db}
    (hpointer : ∀ p, (make p).pointer = p)
    (hstands : ∀ a p, Stands crate (some (toObject a)) (make p) (entity a)) (context : String) :
    Does crate (onCallBook self fun db => wrap make (withDb A toObject db answer) context) s
      (making vs self answer entity context) :=
  does_onCallBook h fun _ _ hdb =>
    does_wrap h (handsOut_withDb hdb toObject answer) hpointer hstands context

/-- A method that reads a record. -/
lemma does_asked (h : Holds crate s vs) {self : ℕ} {γ : Type} {toObject : α → Object Db}
    {answer : Db → Timed Panic (Except Failure α)} {part : Object Db → Option β} {c : α → β}
    (hpart : ∀ a, part (toObject a) = some (c a))
    {fromPtr : Pointer (Object Db) β → Read (Object Db) (Except CallBookError (Option γ))}
    {record : α → γ} (hfrom : ∀ a (heap : Heap (Object Db)) (p : Pointer (Object Db) β),
      p.asRef heap = some ((some a).map c) → fromPtr p heap = some (.ok ((some a).map record)))
    {kind : Object Db → Bool} (hkind : ∀ a, kind (toObject a)) (value : Option γ → Value)
    (context : String) :
    Does crate (onCallBook self fun db =>
        fetch (withDb A toObject db answer) part fromPtr (Program.free kind) value context) s
      (asked vs self answer (found record value context)) :=
  does_onCallBook h fun _ _ hdb =>
    does_fetch h (handsOut_withDb hdb toObject answer) hpart hfrom hkind value context

/-! ### Generators -/

/-- What an object holds is of the kind that is freed. -/
lemma forall_mem_of_map {held : Option (Object Db)} {x : Option α} {f : α → Object Db}
    (hheld : held = x.map f) {kind : Object Db → Bool} (hkind : ∀ a, kind (f a)) :
    ∀ o ∈ held, kind o := by
  intro o ho
  obtain ⟨a, -, rfl⟩ := Option.map_eq_some_iff.mp (hheld ▸ ho)
  exact hkind a

lemma len_eq (listing : Listing) {p : ℕ} {db : Option Db} (hdb : (dbAt p).asRef s.heap = some db) :
    listing.len crate p s.heap = some (listing.count crate db : ℤ) := by
  cases listing with
  | currentUsRecords =>
    rw [Listing.len, callbookCurrentUsRecordCount, Pointer.read_of_asRef hdb, Listing.count]
    rcases db with _ | handle
    · rfl
    · cases hcatalog : crate.currentUsCatalog handle with
      | none => simp [hcatalog]
      | some catalog => simp [hcatalog, toInt_clampLen, maxLen, Nat.min_comm]
  | interestDefinitions =>
    rw [Listing.len, callbookInterestCatalogLen, Pointer.read_of_asRef hdb, Listing.count]
    rcases db with _ | handle
    · rfl
    · cases hcatalog : crate.interestCatalog handle with
      | none => simp [hcatalog]
      | some catalog => simp [hcatalog, toInt_clampLen, maxLen, Nat.min_comm]

lemma free_eq (listing : Listing) (out : ℕ) :
    (listing.free out : Script Db Unit) = Program.free listing.holds out := by
  cases listing <;> rfl

/-- What a generator reads at an index, and frees later. -/
lemma exists_handsOut (A : Allocator (Object Db)) (crate : Crate Db) (listing : Listing)
    (index : ℕ) :
    ∃ (α : Type) (toObject : α → Object Db) (answer : Db → Timed Panic (Except Failure α))
      (value : α → Value),
      (∀ s p db, (dbAt p).asRef s.heap = some db →
        HandsOut A toObject (listing.getAt A crate p index) s (answerOf db answer)) ∧
      (∀ handle, listing.answer crate index handle = (do
        let x ← answer handle
        pure (x.map value))) ∧
      ∀ a, listing.holds (toObject a) ∧ ∀ (heap : Heap (Object Db)) out, out ≠ 0 →
        heap.lookup out = some (toObject a) → listing.record out heap = some (some (value a)) := by
  cases listing with
  | currentUsRecords =>
    refine ⟨_, fun r => .usRecord (.ofUsCsvRecord r), crate.usRecordAnswer index,
      fun r => .usRecord (some (.ofUsCsvRecord r)), fun _ _ _ hdb => handsOut_withDb hdb _ _,
      fun _ => rfl, fun a => ⟨rfl, fun heap out hne hlookup => ?_⟩⟩
    have href : (⟨out, Object.usRecord?⟩ : Pointer (Object Db) CallbookUsRecord).asRef heap =
        some ((some a).map .ofUsCsvRecord) := by
      simp [Pointer.asRef, hne, hlookup, Object.usRecord?]
    rw [Listing.record, Read.bind_apply, UsRecord.fromPtr_eq href]
    rfl
  | interestDefinitions =>
    refine ⟨_, fun d => .interestDefinition (.ofInterestDefinition d),
      crate.definitionAtAnswer index, fun d => .definition (some (.ofInterestDefinition d)),
      fun _ _ _ hdb => handsOut_withDb hdb _ _, fun _ => rfl,
      fun a => ⟨rfl, fun heap out hne hlookup => ?_⟩⟩
    have href : (⟨out, Object.interestDefinition?⟩ :
        Pointer (Object Db) CallbookInterestDefinition).asRef heap =
          some ((some a).map .ofInterestDefinition) := by
      simp [Pointer.asRef, hne, hlookup, Object.interestDefinition?]
    rw [Listing.record, Read.bind_apply, InterestDefinition.fromPtr_eq href]
    rfl

/-- A generator that owns nothing goes on to the next record. -/
lemma does_resume (h : Holds crate s vs) {listing : Listing} {self i : ℕ} {state : Generator}
    (hw : s.owners[i]? = some (.generator listing self state))
    (hnull : (Instance.generator listing self state).pointer = 0) (indices : List ℕ) :
    Does crate (listing.resume A crate self i indices) s (do
      let (outcome, progress) ← listing.advance crate (dbOf vs self) indices
      pure (outcome, vs.set i (.generator listing self progress))) := by
  have hfinished := h.setNull hw hnull (Stands.finished listing self) rfl
  cases indices with
  | nil => exact ⟨_, rfl, hfinished⟩
  | cons index rest =>
    obtain ⟨p, hdb, hself⟩ := ensures_selfPointer h self
    obtain ⟨α, toObject, answer, value, hgetAt, hanswer, hvalue⟩ :=
      exists_handsOut A crate listing index
    have hadvance : answerOf (dbOf vs self) (listing.answer crate index) = (do
        let x ← answerOf (dbOf vs self) answer
        pure (x.map value)) := by
      cases dbOf vs self with
      | none => rfl
      | some handle => exact hanswer handle
    rw [Does, Simulates, Listing.resume, Program.ensures_bind, hself, Program.ensures_bind,
      hgetAt s p _ hdb, Listing.advance, hadvance, bind_assoc, bind_assoc]
    rcases hx : answerOf (dbOf vs self) answer s.moment with e | ⟨failure | a, moment⟩
    · exact Timed.bind_of_error hx
    · simp only [check_code]
      exact ⟨_, Timed.bind_of_ok hx, hfinished.counts _ _⟩
    · obtain ⟨hholds, hrecord⟩ := hvalue a
      have hread := hrecord (s.heap.insert (A.malloc s.allocated s.heap) (toObject a)) _
        (A.ne_zero s.allocated s.heap) (Finmap.lookup_insert _)
      simp only [check, if_true, if_neg (A.ne_zero s.allocated s.heap)]
      rw [Program.ensures_bind, Program.ensures_ofRead hread]
      exact ⟨_, Timed.bind_of_ok hx, h.take hw hnull (Stands.suspended hholds) rfl⟩

/-- A generator has a database, or none, whatever becomes of itself. -/
lemma dbOf_set {i self self' : ℕ} {listing : Listing} {progress progress' : Progress}
    (hv : vs[i]? = some (.generator listing self' progress)) :
    dbOf (vs.set i (.generator listing self' progress')) self = dbOf vs self := by
  rw [dbOf, dbOf]
  by_cases hself : i = self
  · obtain ⟨hi, -⟩ := List.getElem?_eq_some_iff.mp hv
    rw [← hself, List.getElem?_set_self hi, hv]
  · rw [List.getElem?_set_ne hself]

lemma does_next (h : Holds crate s vs) (i : ℕ) :
    Does crate (next A crate i) s (advanced crate vs i) := by
  rw [Does, Simulates, next, Program.ensures_bind, Program.ensures_owner?, advanced]
  rcases h.cases i with ⟨hw, hv⟩ | ⟨w, v, held, hw, hv, hheld, hstands⟩
  · rw [hw, hv]
    exact ⟨vs, rfl, h⟩
  · rw [hw, hv]
    cases hstands with
    | created listing self =>
      obtain ⟨p, hdb, hself⟩ := ensures_selfPointer h self
      dsimp only
      rw [Program.ensures_bind, hself, Program.ensures_bind,
        Program.ensures_ofRead (len_eq listing hdb), Int.toNat_natCast]
      exact does_resume h hw rfl _
    | @suspended listing self out rest o hholds =>
      -- the last record is freed first, and the generator owns nothing while it runs
      have hfree := h.free hw (Stands.finished listing self) rfl
      have hset : (s.owners.set i (.generator listing self .finished))[i]? =
          some (.generator listing self .finished) :=
        List.getElem?_set_self (List.getElem?_eq_some_iff.mp hw).1
      have hresume := does_resume (A := A) hfree hset rfl rest
      rw [dbOf_set hv] at hresume
      simp only [List.set_set] at hresume
      dsimp only
      rw [Program.ensures_bind, free_eq]
      exact (h.ensures_free hw (forall_mem_of_map (x := some ()) hheld fun _ => hholds)).mpr hresume
    | _ => exact ⟨vs, rfl, h⟩

/-! ### Closing -/

/-- An object that frees what it holds, and forgets it, is closed. -/
lemma does_free (h : Holds crate s vs) {i : ℕ} {w w' : Instance} {v' : Entity Db}
    (hw : s.owners[i]? = some w) {kind : Object Db → Bool}
    (hkind : ∀ o ∈ s.heap.lookup w.pointer, kind o) (hstands : Stands crate none w' v')
    (hnull : w'.pointer = 0) :
    Does crate (do
      Program.free kind w.pointer
      Program.setOwner i w'
      pure .none) s (pure (.none, vs.set i v')) := by
  rw [Does, Simulates, Program.ensures_bind, h.ensures_free hw hkind]
  exact ⟨_, rfl, h.free hw hstands hnull⟩

lemma does_close (h : Holds crate s vs) (i : ℕ) :
    Does crate (close i) s
      (match vs[i]? with
      | some entity => pure (.none, vs.set i entity.closed)
      | none => pure (.attributeError, vs)) := by
  rw [Does, Simulates, close, Program.ensures_bind, Program.ensures_owner?]
  rcases h.cases i with ⟨hw, hv⟩ | ⟨w, v, held, hw, hv, hheld, hstands⟩
  · rw [hw, hv]
    exact ⟨vs, rfl, h⟩
  · rw [hw, hv]
    cases hstands with
    | callBook p db =>
      exact does_free h hw (forall_mem_of_map hheld fun _ => rfl) (Stands.callBook 0 none) rfl
    | lookupResult p result =>
      exact does_free h hw (forall_mem_of_map hheld fun _ => rfl) (Stands.lookupResult 0 none) rfl
    | stationProfile p profile =>
      exact does_free h hw (forall_mem_of_map hheld fun _ => rfl) (Stands.stationProfile 0 none) rfl
    | interestSearch p search =>
      exact does_free h hw (forall_mem_of_map hheld fun _ => rfl) (Stands.interestSearch 0 none) rfl
    | created listing self =>
      exact ⟨_, rfl, h.setNull hw rfl (Stands.finished listing self) rfl⟩
    | @suspended listing self out rest o hholds =>
      dsimp only
      rw [free_eq]
      exact does_free h hw (forall_mem_of_map (x := some ()) hheld fun _ => hholds)
        (Stands.finished listing self) rfl
    | finished listing self =>
      exact ⟨_, rfl, h.setNull hw rfl (Stands.finished listing self) rfl⟩

/-! ### Attributes -/

/-- Reading an attribute yields its meaning. -/
abbrev Reads (heap : Heap (Object Db)) :
    Option (Read (Object Db) (Except CallBookError Value)) → Option Value → Prop :=
  Option.Rel fun read value => read heap = some (.ok value)

variable {heap : Heap (Object Db)} {p : ℕ}

lemma returns_apply {x : Read (Object Db) α} {a : α} (h : x heap = some a) (f : α → β) :
    returns f x heap = some (.ok (f a)) := by
  rw [returns, Read.bind_apply, h]
  rfl

/-- A part that a pointer leads to is read there. -/
lemma borrow_apply {γ δ : Type} {q : Pointer (Object Db) α} {a : Option α}
    (h : q.asRef heap = some a) {f : α → Option β} {x : Option γ} {c : γ → β}
    (hx : a.bind f = x.map c) {fromPtr : Pointer (Object Db) β → Read (Object Db) δ} {d : δ}
    (hfrom : ∀ r : Pointer (Object Db) β, r.asRef heap = some (x.map c) →
      fromPtr r heap = some d) :
    (do fromPtr (← q.borrow f)) heap = some d := by
  obtain ⟨r, hr, href⟩ := Pointer.asRef_of_borrow h f
  rw [Read.bind_apply, hr]
  exact hfrom r (href.trans (congrArg some hx))

lemma reads_result {result : Option Callbook.LookupResult}
    (h : (resultAt p).asRef heap = some (result.map .ofLookupResult)) (name : Attribute) :
    Reads heap (LookupResult.get p name) (resultAttribute result name) := by
  cases name with
  | query =>
    refine .some ((returns_apply (Pointer.read_of_asRef h _ _) _).trans ?_)
    cases result with
    | none => rfl
    | some r => exact congrArg (some ∘ Except.ok ∘ Value.text) (decode_toCstring r.query)
  | status =>
    refine .some ((returns_apply (Pointer.read_of_asRef h _ _) _).trans ?_)
    cases result with
    | none => rfl
    | some r =>
      exact congrArg (some ∘ Except.ok ∘ Value.status) (lookupStatusName_ffiStatus r.status)
  | current =>
    refine .some (returns_apply (borrow_apply (c := .ofCallSnapshot) h ?_ fun r hr =>
      CallSnapshot.fromPtr_eq hr) _)
    cases result <;> rfl
  | history =>
    refine .some (returns_apply (readList_eq h (by decide) (c := .ofCallSnapshot) ?_ fun x q hq =>
      CallSnapshot.fromPtr_eq (x := some x) hq) _)
    cases result <;> rfl
  | _ => exact .none

lemma reads_search {search : Option Callbook.InterestSearch}
    (h : (searchAt p).asRef heap = some (search.map .ofInterestSearch)) (name : Attribute) :
    Reads heap (InterestSearch.get p name) (searchAttribute search name) := by
  cases name with
  | code =>
    refine .some ((returns_apply (Pointer.read_of_asRef h _ _) _).trans ?_)
    cases search with
    | none => rfl
    | some x => exact congrArg (some ∘ Except.ok ∘ Value.text) (decode_toCstring x.code)
  | definition =>
    refine .some (returns_apply (borrow_apply (c := .ofInterestDefinition) h ?_ fun r hr =>
      InterestDefinition.fromPtr_eq hr) _)
    cases search <;> rfl
  | found =>
    refine .some (returns_apply (readList_eq h le_rfl (c := .ofInterestSearchMatch) ?_
      fun x q hq => InterestSearchMatch.fromPtr_eq (x := some x) hq) _)
    cases search <;> rfl
  | _ => exact .none

lemma historyVintages_apply {profile : Option Callbook.StationProfile}
    (h : (profileAt p).asRef heap = some (profile.map (.ofStationProfile crate.pathText))) :
    historyVintages (profileAt p) heap =
      some (((profile.elim [] (·.history.vintages)).take maxLen).map fun year : ℕ =>
        (year : ℤ)) := by
  rw [historyVintages, Read.bind_apply, callbookProfileHistoryVintageLen, listLen,
    Pointer.read_of_asRef h, Option.bind_some]
  cases profile with
  | none => rfl
  | some x =>
    have hlen : (clampLen
        (CallbookProfile.ofStationProfile crate.pathText x).historyVintages.length).toInt.toNat =
          min x.history.vintages.length (2 ^ 31 - 1) := by
      rw [toInt_clampLen, Int.toNat_natCast, CallbookProfile.ofStationProfile, List.length_map]
    have hitem : ∀ i ∈ List.range (min x.history.vintages.length (2 ^ 31 - 1)),
        callbookProfileHistoryVintageGet (profileAt p) (i : ℤ) heap =
          some ((x.history.vintages[i]?.getD 0 : ℕ) : ℤ) := by
      intro i hi
      have hlt : i < x.history.vintages.length := by
        rw [List.mem_range] at hi
        omega
      rw [callbookProfileHistoryVintageGet, Pointer.read_of_asRef h]
      simp [CallbookProfile.ofStationProfile, List.getElem?_eq_getElem hlt]
    rw [Option.map_some, Option.elim_some, hlen, Read.mapM_apply hitem]
    congr 1
    apply List.ext_getElem
    · simp [maxLen, Nat.min_comm]
    · intro i hi hi'
      simp only [List.length_map, List.length_range] at hi
      have hlt : i < x.history.vintages.length := by omega
      simp [List.getElem?_eq_getElem hlt]

lemma reads_profile {profile : Option Callbook.StationProfile}
    (h : (profileAt p).asRef heap = some (profile.map (.ofStationProfile crate.pathText)))
    (name : Attribute) :
    Reads heap (StationProfile.get p name) (profileAttribute crate profile name) := by
  cases name with
  | callsign =>
    refine .some ((returns_apply (Pointer.read_of_asRef h _ _) _).trans ?_)
    cases profile with
    | none => rfl
    | some x => exact congrArg (some ∘ Except.ok ∘ Value.text) (decode_toCstring x.callsign)
  | status =>
    refine .some ((returns_apply (Pointer.read_of_asRef h _ _) _).trans ?_)
    cases profile with
    | none => rfl
    | some x =>
      exact congrArg (some ∘ Except.ok ∘ Value.status) (lookupStatusName_ffiStatus x.status)
  | current =>
    refine .some (returns_apply (borrow_apply (c := .ofCallSnapshot) h ?_ fun r hr =>
      CallSnapshot.fromPtr_eq hr) _)
    cases profile <;> rfl
  | historySnapshotCount =>
    refine .some ((returns_apply (Pointer.read_of_asRef h _ _) _).trans ?_)
    cases profile with
    | none => rfl
    | some x => exact congrArg (some ∘ Except.ok ∘ Value.number) (toInt_clampLen _)
  | historyVintages => exact .some (returns_apply (historyVintages_apply h) _)
  | country =>
    refine .some ?_
    have hcountry : (do CountryInfo.fromPtr (← callbookProfileCountry (profileAt p))) heap =
        some (.ok ((profile.bind (·.country)).map .ofCountryInfo)) := by
      refine borrow_apply (c := .ofCountryInfo) h ?_ fun r hr => CountryInfo.fromPtr_eq hr
      cases profile <;> rfl
    rw [← bind_assoc, Read.bind_apply, hcountry]
    rfl
  | lookupCount =>
    refine .some (returns_apply (borrow_apply (c := .ofLookupCountRecord) h ?_ fun r hr =>
      LookupCount.fromPtr_eq hr) _)
    cases profile <;> rfl
  | assets =>
    refine .some (returns_apply (readList_eq h le_rfl (c := .ofAsset crate.pathText) ?_
      fun x q hq => Asset.fromPtr_eq (x := some x) hq) _)
    cases profile <;> rfl
  | _ => exact .none

/-- The attributes of an object are those of its entity. -/
lemma Holds.reads (h : Holds crate s vs) {i : ℕ} {w : Instance} {v : Entity Db}
    {held : Option (Object Db)} (hw : s.owners[i]? = some w)
    (hheld : s.heap.lookup w.pointer = held) (hstands : Stands crate held w v)
    (name : Attribute) : Reads s.heap (w.get name) (v.get crate name) := by
  cases hstands with
  | lookupResult p result => exact reads_result (h.asRef hw hheld fun _ => rfl) name
  | stationProfile p profile => exact reads_profile (h.asRef hw hheld fun _ => rfl) name
  | interestSearch p search => exact reads_search (h.asRef hw hheld fun _ => rfl) name
  | _ => exact .none

/-! ### Maps -/

/-- The value of a buffer that holds a text is the text up to its first NUL. -/
lemma bufferValue_eq {memory : Memory} {svg : Str} (h : HoldsCString memory svg) {len : Int32}
    (hlen : svg.length < len.toInt) : bufferValue len memory = svg.takeWhile (· ≠ 0) := by
  have hmap : (List.range svg.length).map memory = svg := by
    refine List.ext_getElem (by simp) fun i hi hi' => ?_
    rw [List.getElem_map, List.getElem_range]
    exact h.bytes i _ (List.getElem?_eq_getElem hi')
  obtain ⟨k, hk⟩ : ∃ k, len.toInt.toNat = svg.length + (k + 1) :=
    ⟨len.toInt.toNat - svg.length - 1, by omega⟩
  rw [bufferValue, hk, List.range_add, List.map_append, hmap, List.range_succ_eq_map,
    List.map_cons, List.map_cons, Nat.add_zero, h.nul, List.takeWhile_append]
  split_ifs with hall
  · rw [List.takeWhile_cons_of_neg (by simp), List.append_nil]
    exact ((List.takeWhile_prefix _).eq_of_length hall).symm
  · rfl

/-- Both functions go by what the renderer yields, also without a database or a text. -/
lemma svg_eq {db : Option Db} {callsign : Bytes} {x : Except Failure Str} {moment moment' : ℕ}
    (hanswer : answerOf db (crate.mapSvg callsign) moment = .ok (x, moment')) :
    callbookMapSvgRequiredLen (fun _ _ => x.mapError Failure.code) db (some (cString callsign)) =
      (match x with
      | .error failure => failure.code
      | .ok svg => clampLen (svg.length + 1)) ∧
    ∀ memory cap, callbookMapSvg (fun _ _ => x.mapError Failure.code) db
      (some (cString callsign)) (some memory) cap =
        match x with
        | .error failure => ⟨failure.code, some memory⟩
        | .ok svg => writeBuf (some memory) cap svg := by
  cases db with
  | none =>
    cases hanswer
    exact ⟨rfl, fun _ _ => rfl⟩
  | some handle =>
    rw [answerOf, Crate.mapSvg, withText] at hanswer
    simp only [callbookMapSvgRequiredLen, callbookMapSvg]
    cases hcall : readCstr (some (cString callsign)) with
    | none =>
      rw [hcall] at hanswer
      cases hanswer
      exact ⟨rfl, fun _ _ => rfl⟩
    | some call => cases x <;> exact ⟨rfl, fun _ _ => rfl⟩

/-- A function on a map runs with what the renderer yields. -/
lemma ensures_withSvg {p : ℕ} {db : Option Db} (hdb : (dbAt p).asRef s.heap = some db)
    (callsign : Bytes) (f : (Db → Str → Except Int32 Str) → Option Db → Option Bytes → α)
    {post : α → State (Object Db) Instance → Prop} {abort : Panic → Prop} :
    Program.Ensures (withSvg crate p callsign f : Script Db α) s post abort ↔
      match answerOf db (crate.mapSvg callsign) s.moment with
      | .error e => abort e
      | .ok (x, moment) =>
        post (f (fun _ _ => x.mapError Failure.code) db (some (cString callsign)))
          { s with moment := moment } := by
  rw [withSvg, Program.ensures_bind, Program.ensures_ofRead hdb, Program.ensures_bind,
    Program.ensures_ofTimed]
  cases answerOf db (crate.mapSvg callsign) s.moment <;> rfl

/-- What comes of a buffer with the size for one text, into which another is written. -/
lemma drawing_writeBuf (measured svg : Str) :
    drawing (clampLen (measured.length + 1))
      (writeBuf (some fun _ => 0) (clampLen (measured.length + 1)) svg) =
        drawn measured (.ok svg) := by
  have hlen : (clampLen (measured.length + 1)).toInt =
      (min (measured.length + 1) (2 ^ 31 - 1) : ℕ) := toInt_clampLen _
  rw [writeBuf_some, if_neg (by omega), drawn, maxLen]
  by_cases hfits : svg.length ≤ measured.length ∧ svg.length < 2 ^ 31 - 1
  · have hnonneg : ¬ clampLen svg.length < 0 := by
      rw [Int32.lt_iff_toInt_lt, toInt_clampLen, Int32.toInt_zero]
      omega
    rw [if_neg (by omega), if_pos hfits, drawing]
    simp only [if_neg hnonneg, Option.map_some]
    rw [bufferValue_eq (holdsCString_store _ svg) (by omega)]
    rfl
  · rw [if_pos (by omega), if_neg hfits]
    rfl

lemma drawing_error (required : Int32) (failure : Failure) (memory : Memory) (measured : Str) :
    drawing required ⟨failure.code, some memory⟩ = drawn measured (.error failure) := by
  have hneg : failure.code < 0 := by cases failure <;> decide
  rw [drawing, if_pos hneg, check_code, drawn]

lemma does_mapSvg (h : Holds crate s vs) {p : ℕ} {db : Option Db}
    (hdb : (dbAt p).asRef s.heap = some db) (callsign : Bytes) :
    Does crate (CallBook.mapSvg crate p callsign) s (do
      let outcome ← drawnTwice crate db callsign
      pure (outcome, vs)) := by
  rw [Does, Simulates, CallBook.mapSvg, Program.ensures_bind, ensures_withSvg hdb, drawnTwice,
    bind_assoc]
  rcases hfirst : answerOf db (crate.mapSvg callsign) s.moment with e | ⟨failure | measured, moment⟩
  · exact Timed.bind_of_error hfirst
  · have hfailed := h.counts s.allocated moment
    dsimp only
    rw [(svg_eq hfirst).1]
    cases failure with
    | notFound => exact ⟨vs, Timed.bind_of_ok hfirst, hfailed⟩
    | usage => exact ⟨vs, Timed.bind_of_ok hfirst, hfailed⟩
    | openFailed => exact ⟨vs, Timed.bind_of_ok hfirst, hfailed⟩
  · have hpos : ¬ clampLen (measured.length + 1) < 0 := by
      rw [Int32.lt_iff_toInt_lt, toInt_clampLen, Int32.toInt_zero]
      omega
    have hfound : clampLen (measured.length + 1) ≠ callbookENotFound := by
      intro heq
      rw [heq] at hpos
      exact hpos (by decide)
    rw [Timed.bind_of_ok hfirst, bind_assoc]
    dsimp only
    rw [(svg_eq hfirst).1]
    simp only [if_neg hfound, if_neg hpos, check, if_true]
    rw [Program.ensures_bind, @ensures_withSvg _ _ _ { s with moment := moment } _ _ hdb]
    -- the second answer need not be the first
    rcases hsecond : answerOf db (crate.mapSvg callsign) moment with e | ⟨x, moment'⟩
    · exact Timed.bind_of_error hsecond
    · have hdrawn : drawing (clampLen (measured.length + 1)) (callbookMapSvg
          (fun _ _ => x.mapError Failure.code) db (some (cString callsign)) (some fun _ => 0)
          (clampLen (measured.length + 1))) = drawn measured x := by
        rw [(svg_eq hsecond).2]
        cases x with
        | error failure => exact drawing_error _ failure _ measured
        | ok svg => exact drawing_writeBuf measured svg
      dsimp only
      rw [hdrawn]
      exact ⟨vs, Timed.bind_of_ok hsecond, h.counts _ _⟩

/-! ### Calls -/

/-- Every call does what it means. -/
lemma does_run (h : Holds crate s vs) (call : Call) :
    Does crate (run A crate call) s (step crate vs call) := by
  cases call with
  | «open» path =>
    exact does_wrap h (handsOut_answer _ _) (fun _ => rfl)
      (fun db p => Stands.callBook p (some db)) _
  | lookup self callsign =>
    exact does_making h (fun _ => rfl) (fun r p => Stands.lookupResult p (some r)) _
  | profile self callsign =>
    exact does_making h (fun _ => rfl) (fun x p => Stands.stationProfile p (some x)) _
  | searchInterest self code =>
    exact does_making h (fun _ => rfl) (fun x p => Stands.interestSearch p (some x)) _
  | countryInfo self callsign =>
    refine does_asked (c := .ofCountryInfo) h (fun _ => ?_) (fun a _ _ hp => ?_)
      (fun _ => ?_) _ _
    · rfl
    · exact CountryInfo.fromPtr_eq (x := some a) hp
    · rfl
  | lookupCount self callsign =>
    refine does_asked (c := .ofLookupCountRecord) h (fun _ => ?_) (fun a _ _ hp => ?_)
      (fun _ => ?_) _ _
    · rfl
    · rw [total, Read.bind_apply, LookupCount.fromPtr_eq (x := some a) hp]
      rfl
    · rfl
  | currentUsLookup self callsign =>
    refine does_asked (c := .ofUsCsvRecord) h (fun _ => ?_) (fun a _ _ hp => ?_)
      (fun _ => ?_) _ _
    · rfl
    · rw [total, Read.bind_apply, UsRecord.fromPtr_eq (x := some a) hp]
      rfl
    · rfl
  | interestDefinition self code =>
    refine does_asked (c := .ofInterestDefinition) h (fun _ => ?_) (fun a _ _ hp => ?_)
      (fun _ => ?_) _ _
    · rfl
    · rw [total, Read.bind_apply, InterestDefinition.fromPtr_eq (x := some a) hp]
      rfl
    · rfl
  | mapSvg self callsign => exact does_onCallBook h fun _ _ hdb => does_mapSvg h hdb callsign
  | list listing self =>
    refine does_onCallBook h fun _ _ _ => ?_
    refine ⟨_, ?_, h.pushNull rfl (Stands.created listing self)⟩
    rw [h.length_eq]
    rfl
  | next self => exact does_next h self
  | get self name =>
    rw [Does, Simulates, run, Program.ensures_bind, Program.ensures_owner?, step]
    rcases h.cases self with ⟨hw, hv⟩ | ⟨w, v, held, hw, hv, hheld, hstands⟩
    · rw [hw, hv]
      exact ⟨vs, rfl, h⟩
    · have hreads := h.reads hw hheld hstands name
      rw [hw, hv, Option.bind_some]
      dsimp only
      generalize (w.get name : Option (Read (Object Db) _)) = read at hreads ⊢
      generalize v.get crate name = value at hreads ⊢
      cases hreads with
      | none => exact ⟨vs, rfl, h⟩
      | some hread =>
        dsimp only
        rw [Program.ensures_bind, Program.ensures_ofRead hread]
        exact ⟨vs, rfl, h⟩
  | close self => exact does_close h self

/-- So does every program. -/
lemma does_runs (h : Holds crate s vs) (calls : List Call) :
    Simulates Instance.pointer (Stands crate) (runs A crate calls) s (steps crate vs calls) := by
  -- the state and the entities change with every call, so both are general
  induction calls generalizing s vs with
  | nil => exact ⟨vs, rfl, h⟩
  | cons call rest ih =>
    refine (does_run h call).bind fun outcome s' vs' h' => ?_
    exact (ih h').bind fun outcomes s'' vs'' h'' => ⟨vs'', rfl, h''⟩

/-- Whatever a program calls, in whatever order and with whatever allocator, and whatever the crate
answers from moment to moment, it never looks behind a pointer that is not its own and frees nothing
twice. It is told what its calls mean, and at its end there is one object in memory for each entity
that is still open. -/
theorem runs_refines_steps (A : Allocator (Object Db)) (crate : Crate Db) (calls : List Call) :
    (runs A crate calls ⟨∅, [], 0, 0⟩ ≠ .error .undefined) ∧
    (∀ e, runs A crate calls ⟨∅, [], 0, 0⟩ = .error (.aborted e) ↔
      steps crate [] calls 0 = .error e) ∧
    (∀ outcomes s, runs A crate calls ⟨∅, [], 0, 0⟩ = .ok (outcomes, s) →
      ∃ vs, steps crate [] calls 0 = .ok ((outcomes, vs), s.moment) ∧
        s.heap.keys.card = vs.countP Entity.isOpen) := by
  have h : Simulates Instance.pointer (Stands crate) (runs A crate calls) ⟨∅, [], 0, 0⟩
      (steps crate [] calls) := does_runs refines_nil calls
  rw [Simulates, Program.Ensures] at h
  cases hrun : runs A crate calls ⟨∅, [], 0, 0⟩ with
  | ok r =>
    rw [hrun] at h
    obtain ⟨vs, hsteps, hholds⟩ := h
    refine ⟨by simp, fun e => by simp [hsteps], fun outcomes s heq => ?_⟩
    obtain rfl := Except.ok.inj heq
    exact ⟨vs, hsteps, Holds.card_keys hholds⟩
  | error fault =>
    rw [hrun] at h
    cases fault with
    | undefined => exact h.elim
    | aborted e =>
      have hsteps : steps crate [] calls 0 = .error e := h
      exact ⟨by simp, fun e' => by simp [hsteps], by simp⟩

end Methods

end Callbook.Python
