import Callbook.Library.Maps
import Callbook.Record.Tags

/-!
# Merging two snapshots

A merge fills each text field that is absent or empty, takes over the raw tags of the other
snapshot, and may replace the last name. Merging the same snapshot again changes nothing.
-/

namespace Callbook

/-! ### Sources -/

instance : Std.TransOrd SnapshotSource where
  eq_swap {a b} := by cases a <;> cases b <;> rfl
  isLE_trans {a b c} := by cases a <;> cases b <;> cases c <;> decide

instance : Std.LawfulEqOrd SnapshotSource where
  eq_of_compare {a b} := by cases a <;> cases b <;> decide
  compare_self {a} := by cases a <;> decide

/-- At least one source, in strictly increasing order. -/
def SourcesOrdered (sources : List SnapshotSource) : Prop :=
  sources ≠ [] ∧ sources.Pairwise fun a b => compare a b = .lt

lemma sourcesOrdered_singleton (source : SnapshotSource) : SourcesOrdered [source] :=
  ⟨by simp, List.pairwise_singleton _ _⟩

namespace CallSnapshot

/-- Add the sources of another snapshot that are not listed yet. -/
abbrev addSources (sources other : List SnapshotSource) : List SnapshotSource :=
  other.foldl (fun acc s => if s ∈ acc then acc else acc ++ [s]) sources

lemma mem_addSources {sources other : List SnapshotSource} {s : SnapshotSource} :
    s ∈ addSources sources other ↔ s ∈ sources ∨ s ∈ other := by
  induction other generalizing sources with
  | nil => simp
  | cons a other ih =>
    rw [addSources, List.foldl_cons]
    split_ifs with ha
    · rw [ih, List.mem_cons]
      constructor
      · tauto
      · rintro (hs | rfl | hs)
        · exact .inl hs
        · exact .inl ha
        · exact .inr hs
    · rw [ih, List.mem_append, List.mem_singleton, List.mem_cons, or_assoc]

lemma nodup_addSources {sources : List SnapshotSource} (h : sources.Nodup)
    (other : List SnapshotSource) : (addSources sources other).Nodup := by
  induction other generalizing sources with
  | nil => exact h
  | cons a other ih =>
    rw [addSources, List.foldl_cons]
    split_ifs with ha
    · exact ih h
    · apply ih
      rw [List.nodup_append]
      exact ⟨h, List.nodup_singleton _, fun x hx y hy hxy => ha (by simp_all)⟩

lemma addSources_eq_self {sources other : List SnapshotSource} (h : ∀ s ∈ other, s ∈ sources) :
    addSources sources other = sources := by
  induction other with
  | nil => rfl
  | cons a other ih =>
    rw [List.forall_mem_cons] at h
    rw [addSources, List.foldl_cons, if_pos h.1]
    exact ih h.2

/-- A merge lists the sources of both. -/
lemma mem_mergeSources {sources other : List SnapshotSource} {s : SnapshotSource} :
    s ∈ mergeSources sources other ↔ s ∈ sources ∨ s ∈ other := by
  rw [mergeSources, StableSort.mem_sortBy, mem_addSources]

lemma nodup_of_pairwise_lt {sources : List SnapshotSource}
    (h : sources.Pairwise fun a b => compare a b = .lt) : sources.Nodup :=
  h.imp fun {a b} hab heq => by
    rw [heq, Std.compare_self] at hab
    cases hab

/-- A merge lists each source once, in order. -/
lemma pairwise_mergeSources {sources : List SnapshotSource} (h : sources.Nodup)
    (other : List SnapshotSource) :
    (mergeSources sources other).Pairwise fun a b => compare a b = .lt := by
  have hsorted := StableSort.sorted_sortBy compare (addSources sources other)
  have hdistinct : (mergeSources sources other).Nodup :=
    (StableSort.sortBy_perm compare _).nodup_iff.mpr (nodup_addSources h other)
  refine (hsorted.and hdistinct).imp fun {a b} hab => ?_
  cases hc : compare a b with
  | lt => rfl
  | eq => exact absurd (Std.LawfulEqOrd.eq_of_compare hc) hab.2
  | gt => exact absurd hc hab.1

lemma sourcesOrdered_mergeSources {sources other : List SnapshotSource}
    (h : SourcesOrdered sources) : SourcesOrdered (mergeSources sources other) := by
  constructor
  · obtain ⟨s, hs⟩ := List.exists_mem_of_ne_nil _ h.1
    exact List.ne_nil_of_mem (mem_mergeSources.mpr (.inl hs))
  · exact pairwise_mergeSources (nodup_of_pairwise_lt h.2) other

lemma mergeSources_mergeSources (sources other : List SnapshotSource) :
    mergeSources (mergeSources sources other) other = mergeSources sources other := by
  have hlisted : addSources (mergeSources sources other) other = mergeSources sources other :=
    addSources_eq_self fun s hs => mem_mergeSources.mpr (.inr hs)
  rw [mergeSources, show List.foldl _ _ _ = _ from hlisted]
  exact StableSort.sortBy_eq_self compare (StableSort.sorted_sortBy compare _)

/-! ### Merging again -/

@[simp] lemma fill_self (value : Option Str) : fill value value = value := ite_self _

@[simp] lemma fill_fill (dst src : Option Str) : fill (fill dst src) src = fill dst src := by
  simp only [fill]
  split_ifs with h
  · rfl
  · rfl
  · rfl

/-- A value that is filled in where it is the empty one is not filled in again. -/
lemma ite_ite_self {α : Type*} [DecidableEq α] (x y empty : α) :
    (if (if x = empty then y else x) = empty then y else if x = empty then y else x) =
      if x = empty then y else x := by
  by_cases hx : x = empty
  · simp [hx]
  · simp [hx]

/-- The last name that a merge has chosen, it chooses again. -/
lemma mergeLastName_mergeMissingFrom (a b : CallSnapshot) :
    mergeLastName (a.mergeMissingFrom b) b (fill a.firstName b.firstName) =
      mergeLastName a b (fill a.firstName b.firstName) := by
  simp only [mergeLastName, mergeMissingFrom]
  split_ifs
  · rfl
  · rfl
  · rw [fill_fill]

lemma mergeMissingFrom_mergeMissingFrom (a b : CallSnapshot) :
    (a.mergeMissingFrom b).mergeMissingFrom b = a.mergeMissingFrom b := by
  have hlast := mergeLastName_mergeMissingFrom a b
  have htags := Maps.extend_extend_self a.rawTags b.rawTags
  simp only [mergeMissingFrom] at hlast
  simp only [mergeMissingFrom, fill_fill, mergeSources_mergeSources, hlast, mk.injEq, true_and]
  exact ⟨ite_ite_self _ _ _, ite_ite_self _ _ _, ite_ite_self _ _ _, htags⟩

/-- Merging a snapshot into itself, with whatever sources, merges the sources. -/
lemma mergeMissingFrom_self (s : CallSnapshot) (sources : List SnapshotSource) :
    s.mergeMissingFrom { s with sources := sources } =
      { s with sources := mergeSources s.sources sources } := by
  have hlast : ∀ firstName, mergeLastName s { s with sources := sources } firstName =
      s.lastName := by
    intro firstName
    simp only [mergeLastName]
    split_ifs
    · rfl
    · rfl
    · exact fill_self _
  simp only [mergeMissingFrom, fill_self, ite_self, hlast, mk.injEq, true_and]
  exact Maps.extend_self s.rawTags

/-- Merging again changes nothing; merging the same data from other sources lists the sources of
both, each once and in order. -/
theorem mergeMissingFrom_absorbs :
    (∀ a b : CallSnapshot, (a.mergeMissingFrom b).mergeMissingFrom b = a.mergeMissingFrom b) ∧
    ∀ (s : CallSnapshot) (sources : List SnapshotSource),
      (s.sources.Pairwise fun a b => compare a b = .lt) →
        ∃ union, s.mergeMissingFrom { s with sources := sources } = { s with sources := union } ∧
          (union.Pairwise fun a b => compare a b = .lt) ∧
          ∀ source, source ∈ union ↔ source ∈ s.sources ∨ source ∈ sources := by
  refine ⟨mergeMissingFrom_mergeMissingFrom, fun s sources h => ?_⟩
  exact ⟨_, mergeMissingFrom_self s sources, pairwise_mergeSources (nodup_of_pairwise_lt h) sources,
    fun source => mem_mergeSources⟩

/-! ### What a merge keeps -/

/-- A text field that is there and not empty. -/
def Filled (value : Option Str) : Prop := ∃ text, value = some text ∧ text ≠ []

lemma fill_of_filled {dst : Option Str} (h : Filled dst) (src : Option Str) :
    fill dst src = dst := by
  obtain ⟨text, rfl, hne⟩ := h
  exact if_neg (by simpa using hne)

lemma fill_of_not_filled {dst : Option Str} (h : ¬ Filled dst) (src : Option Str) :
    fill dst src = src := by
  apply if_pos
  rw [Option.all_eq_true]
  intro text htext
  by_contra hne
  exact h ⟨text, htext, by simpa using hne⟩

/-- The text fields other than the last name are filled in. -/
lemma get_mergeMissingFrom {f : TagField} (hlast : f ≠ .lastName) (hraw : ∀ tag, f ≠ .raw tag)
    (a b : CallSnapshot) : f.get (a.mergeMissingFrom b) = fill (f.get a) (f.get b) := by
  cases f with
  | lastName => exact absurd rfl hlast
  | raw tag => exact absurd rfl (hraw tag)
  | _ => rfl

/-- Beside a first name, another name with a split last name brings its last name. -/
lemma lastName_of_filled {a : CallSnapshot} (h : Filled a.firstName) (b : CallSnapshot) :
    (a.mergeMissingFrom b).lastName =
      if b.firstName ≠ none ∨ b.middleName ≠ none then b.lastName.or a.lastName
      else fill a.lastName b.lastName := by
  obtain ⟨first, hfirst, -⟩ := id h
  have hsome : (fill a.firstName b.firstName).isSome := by
    rw [fill_of_filled h, hfirst]
    rfl
  simp only [mergeMissingFrom, mergeLastName, hsome, Bool.and_true, Bool.or_eq_true,
    Option.isSome_iff_ne_none]
  split_ifs with hsplit hlast
  · obtain ⟨last, hlast⟩ := Option.ne_none_iff_exists'.mp hlast
    rw [hlast, Option.some_or]
  · rw [not_not.mp hlast, Option.none_or]
  · rfl

/-- Without a first name, another first name brings its last name along. -/
lemma lastName_of_not_filled {a : CallSnapshot} (h : ¬ Filled a.firstName) (b : CallSnapshot) :
    (a.mergeMissingFrom b).lastName =
      if b.firstName ≠ none then b.lastName.or a.lastName
      else fill a.lastName b.lastName := by
  simp only [mergeMissingFrom, mergeLastName, fill_of_not_filled h, Bool.and_eq_true,
    Bool.or_eq_true, Option.isSome_iff_ne_none]
  by_cases hfirst : b.firstName = none
  · rw [if_neg fun hsplit => hsplit.2 hfirst, if_neg (not_not.mpr hfirst)]
  · rw [if_pos ⟨.inl hfirst, hfirst⟩, if_pos hfirst]
    split_ifs with hlast
    · obtain ⟨last, hlast⟩ := Option.ne_none_iff_exists'.mp hlast
      rw [hlast, Option.some_or]
    · rw [not_not.mp hlast, Option.none_or]

/-- The data of a snapshot is still there: its text fields, the last name beside a first name, and
the raw tags. -/
structure Keeps (a merged : CallSnapshot) : Prop where
  fields : ∀ f : TagField, f ≠ .lastName → (∀ tag, f ≠ .raw tag) → Filled (f.get a) →
    f.get merged = f.get a
  lastName : Filled a.firstName → Filled a.lastName → merged.lastName = a.lastName
  rawTags : ∀ (tag : UInt8) (value : Str), a.rawTags[tag]? = some value →
    merged.rawTags[tag]? = some value

/-- First and last name stand together in one of the two snapshots. -/
def NameFromOne (a b merged : CallSnapshot) : Prop :=
  Filled merged.firstName → Filled merged.lastName →
    (merged.firstName = a.firstName ∧ merged.lastName = a.lastName) ∨
      (merged.firstName = b.firstName ∧ merged.lastName = b.lastName)

/-- What is merged in says nothing else about the data that is there, and completes no name. -/
structure Compatible (a b : CallSnapshot) : Prop where
  /-- No raw tag has two values. -/
  rawTags : ∀ (tag : UInt8) (value value' : Str), a.rawTags[tag]? = some value →
    b.rawTags[tag]? = some value' → value' = value
  /-- No full name meets a split name with another last name, -/
  lastName : Filled a.firstName → Filled a.lastName →
    (b.firstName ≠ none ∨ b.middleName ≠ none) → b.lastName ≠ none → b.lastName = a.lastName
  /-- no first name meets the last name of another first name, -/
  firstAlone : Filled a.firstName → ¬ Filled a.lastName → Filled b.lastName →
    b.firstName = a.firstName
  /-- and no last name meets a first name that has none. -/
  lastAlone : ¬ Filled a.firstName → Filled a.lastName → Filled b.firstName → b.lastName ≠ none

lemma Compatible.keeps {a b : CallSnapshot} (h : Compatible a b) :
    Keeps a (a.mergeMissingFrom b) where
  fields f hlast hraw hfilled := by
    rw [get_mergeMissingFrom hlast hraw, fill_of_filled hfilled]
  lastName hfirst hlast := by
    rw [lastName_of_filled hfirst]
    split_ifs with hsplit
    · cases hb : b.lastName with
      | none => rfl
      | some last =>
        have hsame := h.lastName hfirst hlast hsplit (by simp [hb])
        rw [Option.some_or, ← hsame, hb]
    · exact fill_of_filled hlast _
  rawTags := Maps.extend_keeps_iff.mpr h.rawTags

lemma Compatible.nameFromOne {a b : CallSnapshot} (h : Compatible a b) :
    NameFromOne a b (a.mergeMissingFrom b) := by
  intro hfirst hlast
  have hfill : (a.mergeMissingFrom b).firstName = fill a.firstName b.firstName := rfl
  by_cases hafirst : Filled a.firstName
  · rw [hfill, fill_of_filled hafirst]
    by_cases halast : Filled a.lastName
    · exact .inl ⟨rfl, h.keeps.lastName hafirst halast⟩
    · by_cases hblast : Filled b.lastName
      · refine .inr ⟨(h.firstAlone hafirst halast hblast).symm, ?_⟩
        obtain ⟨last, hb, -⟩ := hblast
        rw [lastName_of_filled hafirst, fill_of_not_filled halast, hb, Option.some_or, ite_self]
      · -- neither has a last name, so the merged one has none
        rw [lastName_of_filled hafirst, fill_of_not_filled halast] at hlast
        split_ifs at hlast
        · cases hb : b.lastName with
          | none =>
            rw [hb, Option.none_or] at hlast
            exact absurd hlast halast
          | some last =>
            rw [hb, Option.some_or] at hlast
            exact absurd (hb ▸ hlast) hblast
        · exact absurd hlast hblast
  · rw [hfill, fill_of_not_filled hafirst] at hfirst ⊢
    obtain ⟨first, hb, -⟩ := id hfirst
    have hne : b.firstName ≠ none := by simp [hb]
    rw [lastName_of_not_filled hafirst, if_pos hne] at hlast ⊢
    refine .inr ⟨rfl, ?_⟩
    cases hblast : b.lastName with
    | some last => rfl
    | none =>
      rw [hblast, Option.none_or] at hlast
      exact absurd hblast (h.lastAlone hafirst hlast hfirst)

lemma compatible_of_keeps {a b : CallSnapshot} (hkeeps : Keeps a (a.mergeMissingFrom b))
    (hname : NameFromOne a b (a.mergeMissingFrom b)) : Compatible a b where
  rawTags := Maps.extend_keeps_iff.mp hkeeps.rawTags
  lastName hfirst hlast hsplit hne := by
    have hmerged := hkeeps.lastName hfirst hlast
    obtain ⟨last, hb⟩ := Option.ne_none_iff_exists'.mp hne
    rw [lastName_of_filled hfirst, if_pos hsplit, hb, Option.some_or] at hmerged
    rw [hb, hmerged]
  firstAlone hfirst halast hblast := by
    have hmergedFirst : (a.mergeMissingFrom b).firstName = a.firstName := fill_of_filled hfirst _
    have hmergedLast : (a.mergeMissingFrom b).lastName = b.lastName := by
      obtain ⟨last, hb, -⟩ := hblast
      rw [lastName_of_filled hfirst, fill_of_not_filled halast, hb, Option.some_or, ite_self]
    have hone := hname (hmergedFirst ▸ hfirst) (hmergedLast ▸ hblast)
    rw [hmergedFirst, hmergedLast] at hone
    rcases hone with ⟨-, hsame⟩ | ⟨hsame, -⟩
    · exact absurd (hsame ▸ hblast) halast
    · exact hsame.symm
  lastAlone hafirst halast hbfirst hblast := by
    have hmergedFirst : (a.mergeMissingFrom b).firstName = b.firstName :=
      fill_of_not_filled hafirst _
    have hmergedLast : (a.mergeMissingFrom b).lastName = a.lastName := by
      obtain ⟨first, hb, -⟩ := hbfirst
      rw [lastName_of_not_filled hafirst, if_pos (by simp [hb]), hblast, Option.none_or]
    have hone := hname (hmergedFirst ▸ hbfirst) (hmergedLast ▸ halast)
    rw [hmergedFirst, hmergedLast] at hone
    rcases hone with ⟨hsame, -⟩ | ⟨-, hsame⟩
    · exact hafirst (hsame ▸ hbfirst)
    · obtain ⟨last, halast, -⟩ := halast
      rw [halast, hblast] at hsame
      cases hsame

/-- A merge keeps the data that is there and takes the name from one snapshot exactly when the two
are compatible. -/
theorem keeps_mergeMissingFrom_iff (a b : CallSnapshot) :
    Keeps a (a.mergeMissingFrom b) ∧ NameFromOne a b (a.mergeMissingFrom b) ↔ Compatible a b :=
  ⟨fun h => compatible_of_keeps h.1 h.2, fun h => ⟨h.keeps, h.nameFromOne⟩⟩

/-- A record with a name and a raw tag. -/
def janeDoe : CallSnapshot :=
  { new (ascii "K0AB") none .hamCallDatIdx with
    firstName := some (ascii "Jane")
    lastName := some (ascii "Doe")
    rawTags := (∅ : Std.ExtTreeMap UInt8 Str).insert 0xd3 (ascii "A") }

/-- Another record of the station. -/
def bobRoe : CallSnapshot :=
  { new (ascii "K0AB") none .hamCallHci with
    firstName := some (ascii "Bob")
    lastName := some (ascii "Roe")
    rawTags := (∅ : Std.ExtTreeMap UInt8 Str).insert 0xd3 (ascii "B") }

/-- The merged record is of Jane Roe, and the raw tag has been replaced. -/
theorem not_keeps_janeDoe : ¬ Keeps janeDoe (janeDoe.mergeMissingFrom bobRoe) ∧
    ¬ NameFromOne janeDoe bobRoe (janeDoe.mergeMissingFrom bobRoe) ∧
    ¬ ∀ (tag : UInt8) (value : Str), janeDoe.rawTags[tag]? = some value →
      (janeDoe.mergeMissingFrom bobRoe).rawTags[tag]? = some value := by
  have hfirst : Filled janeDoe.firstName := ⟨ascii "Jane", rfl, by decide⟩
  refine ⟨fun h => ?_, fun h => ?_, fun h => ?_⟩
  · have hlast := h.lastName hfirst ⟨ascii "Doe", rfl, by decide⟩
    revert hlast
    decide
  · have hone := h hfirst ⟨ascii "Roe", rfl, by decide⟩
    revert hone
    decide
  · have hagree := Maps.extend_keeps_iff.mp h 0xd3 (ascii "A") (ascii "B")
      Std.ExtTreeMap.getElem?_insert_self Std.ExtTreeMap.getElem?_insert_self
    revert hagree
    decide

end CallSnapshot

end Callbook
