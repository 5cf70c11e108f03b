import Callbook.Library.Upsert

/-!
# Merging many elements

A run of upserts merges the elements of each key, in their order. Where merging fills in a field
that is blank, the first value that is not blank stays; a field that is derived from another one
then follows it only when the first value to stay decides both.
-/

variable {α κ : Type*}

namespace Upsert

variable [DecidableEq κ] {key : α → κ} {merge : α → α → α}

/-! ### The elements of one key -/

/-- Merge all elements into the first. -/
def mergeAll (merge : α → α → α) : List α → Option α
  | [] => none
  | a :: l => some (l.foldl merge a)

section Groups

variable (hmerge : ∀ a b, key (merge a b) = key a)

include hmerge

lemma find?_upsert (l : List α) (a : α) (k : κ) : (upsert key merge l a).find? (key · = k) =
    if key a = k then some ((l.find? (key · = k)).elim a (merge · a))
    else l.find? (key · = k) := by
  induction l with
  | nil =>
    rw [upsert, List.find?_singleton]
    by_cases hk : key a = k
    · simp [hk]
    · simp [hk]
  | cons b l ih =>
    rw [upsert]
    by_cases hkey : key b = key a
    · rw [if_pos hkey, List.find?_cons, List.find?_cons, hmerge, hkey]
      by_cases hk : key a = k
      · simp [hk]
      · simp [hk]
    · rw [if_neg hkey, List.find?_cons, List.find?_cons, ih]
      by_cases hk : key b = k
      · have hne : key a ≠ k := fun h => hkey (hk.trans h.symm)
        simp [hk, hne]
      · simp [hk]

/-- Under a key stands what the elements of the key were merged to. -/
theorem find?_foldl_upsert (l as : List α) (k : κ) :
    (as.foldl (upsert key merge) l).find? (key · = k) =
      mergeAll merge ((l.find? (key · = k)).toList ++ as.filter (key · = k)) := by
  induction as generalizing l with
  | nil => cases hfind : l.find? (key · = k) <;> simp [hfind, mergeAll]
  | cons a as ih =>
    rw [List.foldl_cons, ih, find?_upsert hmerge, List.filter_cons]
    by_cases hk : key a = k
    · cases l.find? (key · = k) <;> simp [hk, mergeAll]
    · simp [hk]

/-- A run of upserts merges the elements of each key, in their order. -/
theorem mergeAll_of_mem_foldl {as : List α} {b : α} (h : b ∈ as.foldl (upsert key merge) []) :
    mergeAll merge (as.filter (key · = key b)) = some b := by
  have hnodup : ((as.foldl (upsert key merge) []).map key).Nodup :=
    nodup_map_key_foldl hmerge (by simp) as
  have hfind : (as.foldl (upsert key merge) []).find? (key · = key b) = some b := by
    have hsome : ((as.foldl (upsert key merge) []).find? (key · = key b)).isSome :=
      List.find?_isSome.mpr ⟨b, h, by simp⟩
    obtain ⟨c, hc⟩ := Option.isSome_iff_exists.mp hsome
    have hkey := List.find?_some hc
    rw [decide_eq_true_eq] at hkey
    rw [hc, List.inj_on_of_nodup_map hnodup (List.mem_of_find?_eq_some hc) h hkey]
  rw [find?_foldl_upsert hmerge, List.find?_nil, Option.toList_none, List.nil_append] at hfind
  exact hfind

end Groups

section Fill

variable {β : Type*} {f : α → β} {blank : β → Bool}
  (hfill : ∀ a b, f (merge a b) = if blank (f a) then f b else f a)

include hfill

lemma foldl_of_not_blank {a : α} (h : blank (f a) = false) (l : List α) :
    f (l.foldl merge a) = f a := by
  induction l generalizing a with
  | nil => rfl
  | cons b l ih =>
    have hkeep : f (merge a b) = f a := by
      rw [hfill, h]
      rfl
    rw [List.foldl_cons, ih (hkeep ▸ h), hkeep]

/-- Merging keeps the first value that is not blank. -/
theorem find?_of_mergeAll {l : List α} {m : α} (h : mergeAll merge l = some m) :
    (∀ v, (l.map f).find? (!blank ·) = some v → f m = v) ∧
      ((l.map f).find? (!blank ·) = none → blank (f m)) := by
  cases l with
  | nil => cases h
  | cons a l =>
    obtain rfl := Option.some.inj h
    induction l generalizing a with
    | nil => cases hblank : blank (f a) <;> simp [hblank]
    | cons b l ih =>
      cases hblank : blank (f a) with
      | false =>
        rw [foldl_of_not_blank hfill hblank]
        simp [hblank]
      | true =>
        -- the first value is filled in with the next one
        have hstep : f (merge a b) = f b := by rw [hfill, hblank, if_pos rfl]
        have hrest := ih (merge a b) rfl
        rw [List.map_cons, hstep, ← List.map_cons] at hrest
        rw [List.foldl_cons, List.map_cons, List.find?_cons_of_neg (by simp [hblank])]
        exact hrest

end Fill

/-- Merging keeps the first value that is there, when only absent values are filled in. -/
theorem findSome?_of_mergeAll {β : Type*} {f : α → Option β} {blank : Option β → Bool}
    (hfill : ∀ a b, f (merge a b) = if blank (f a) then f b else f a) {l : List α} {m : α}
    (hblank : ∀ a ∈ l, blank (f a) = (f a).isNone) (h : mergeAll merge l = some m) :
    f m = l.findSome? f := by
  cases l with
  | nil => cases h
  | cons a l =>
    obtain rfl := Option.some.inj h
    induction l generalizing a with
    | nil => simp
    | cons b l ih =>
      rw [List.forall_mem_cons] at hblank
      cases hfa : f a with
      | some v =>
        rw [foldl_of_not_blank hfill (hblank.1.trans (by rw [hfa]; rfl)), hfa,
          List.findSome?_cons, hfa]
      | none =>
        have hstep : f (merge a b) = f b := by
          rw [hfill, hblank.1, hfa]
          rfl
        have hrest := ih (merge a b) (by
          rw [List.forall_mem_cons] at hblank ⊢
          exact ⟨hstep ▸ hblank.2.1, hblank.2.2⟩) rfl
        rw [List.foldl_cons, hrest, List.findSome?_cons, hstep, List.findSome?_cons, hfa,
          ← List.findSome?_cons]

/-- Where no element has a list, the merge has none. -/
lemma nil_of_mergeAll {γ : Type*} {f : α → List γ}
    (hfill : ∀ a b, f (merge a b) = if (f a).isEmpty then f b else f a) {l : List α} {m : α}
    (h : mergeAll merge l = some m) (hall : ∀ a ∈ l, f a = []) : f m = [] := by
  have hnone : (l.map f).find? (!List.isEmpty ·) = none := by
    rw [List.find?_eq_none]
    intro v hv
    obtain ⟨a, ha, rfl⟩ := List.mem_map.mp hv
    simp [hall a ha]
  simpa using (find?_of_mergeAll hfill h).2 hnone

/-- A list that each element derives from its own value is, after the merge, the list of the value
that stays exactly when that list is not empty or all lists are. -/
theorem derived_of_mergeAll {β γ : Type*} {raw : α → Option β} {derive : β → List γ}
    {f : α → List γ} {l : List α} (hderive : ∀ a ∈ l, f a = (raw a).elim [] derive)
    (hfill : ∀ a b, f (merge a b) = if (f a).isEmpty then f b else f a) {m : α}
    (h : mergeAll merge l = some m) {value : β} (hvalue : l.findSome? raw = some value) :
    f m = derive value ↔
      (derive value = [] → ∀ a ∈ l, ∀ other ∈ raw a, derive other = []) := by
  have hfirst := (find?_of_mergeAll hfill h).1
  obtain ⟨front, x, back, hl, hx, hfront⟩ := List.findSome?_eq_some_iff.mp hvalue
  have hfx : f x = derive value := by
    rw [hderive x (by simp [hl]), hx]
    rfl
  by_cases hempty : derive value = []
  · simp only [hempty, forall_const]
    constructor
    · intro hm a ha other hother
      have hnone : (l.map f).find? (!List.isEmpty ·) = none := by
        rw [Option.eq_none_iff_forall_ne_some]
        intro v hv
        have hv' := List.find?_some hv
        rw [← hfirst v hv, hm] at hv'
        cases hv'
      have hfa := List.find?_eq_none.mp hnone (f a) (List.mem_map_of_mem ha)
      rw [hderive a ha, Option.mem_def.mp hother] at hfa
      simpa using hfa
    · intro hall
      refine nil_of_mergeAll hfill h fun a ha => ?_
      rw [hderive a ha]
      cases hraw : raw a with
      | none => rfl
      | some other => exact hall a ha other hraw
  · -- no element in front of the one with the value has a list
    have hfind : (l.map f).find? (!List.isEmpty ·) = some (derive value) := by
      have hnone : (front.map f).find? (!List.isEmpty ·) = none := by
        rw [List.find?_eq_none]
        intro v hv
        obtain ⟨a, ha, rfl⟩ := List.mem_map.mp hv
        rw [hderive a (by simp [hl, ha]), hfront a ha]
        simp
      rw [hl, List.map_append, List.find?_append, hnone, Option.none_or, List.map_cons, hfx,
        List.find?_cons_of_pos (by simpa using hempty)]
    simp only [hfirst _ hfind, hempty, false_imp_iff]

/-- The same whether or not there is a value that stays. -/
theorem derived_of_mergeAll_iff {β γ : Type*} {raw : α → Option β} {derive : β → List γ}
    {f : α → List γ} {l : List α} (hderive : ∀ a ∈ l, f a = (raw a).elim [] derive)
    (hfill : ∀ a b, f (merge a b) = if (f a).isEmpty then f b else f a) {m : α}
    (h : mergeAll merge l = some m) :
    f m = (l.findSome? raw).elim [] derive ↔ ∀ value, l.findSome? raw = some value →
      derive value = [] → ∀ a ∈ l, ∀ other ∈ raw a, derive other = [] := by
  cases hvalue : l.findSome? raw with
  | none =>
    have hnone := List.findSome?_eq_none_iff.mp hvalue
    have hnil : f m = [] := by
      refine nil_of_mergeAll hfill h fun a ha => ?_
      rw [hderive a ha, hnone a ha]
      rfl
    simpa using hnil
  | some value => simpa using derived_of_mergeAll hderive hfill h hvalue

end Upsert
