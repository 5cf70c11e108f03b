import Mathlib

/-!
# Extending a map

`Maps.extend m other` inserts the entries of an ordered map into another one, one by one. Where both
have a key, the entry that is inserted later stays.
-/

namespace Maps

variable {α β : Type*} {cmp : α → α → Ordering} [Std.TransCmp cmp]

/-- Insert the entries of `other` into `m`. -/
abbrev extend (m other : Std.ExtTreeMap α β cmp) : Std.ExtTreeMap α β cmp :=
  other.foldl (fun acc k v => acc.insert k v) m

variable [Std.LawfulEqCmp cmp]

/-- A key that is not inserted keeps its entry. -/
lemma getElem?_foldl_insert_of_notMem {l : List (α × β)} {k : α} (h : ∀ v, (k, v) ∉ l)
    (m : Std.ExtTreeMap α β cmp) : (l.foldl (fun acc p => acc.insert p.1 p.2) m)[k]? = m[k]? := by
  induction l generalizing m with
  | nil => rfl
  | cons p l ih =>
    have hne : p.1 ≠ k := fun hk => h p.2 (by rw [← hk]; exact List.mem_cons_self)
    rw [List.foldl_cons, ih fun v hv => h v (List.mem_cons_of_mem _ hv),
      Std.ExtTreeMap.getElem?_insert, if_neg fun heq => hne (Std.LawfulEqCmp.eq_of_compare heq)]

/-- Among entries with distinct keys, each is found where it was inserted. -/
lemma getElem?_foldl_insert_of_mem {l : List (α × β)} (hl : l.Pairwise fun p q => p.1 ≠ q.1)
    {k : α} {v : β} (h : (k, v) ∈ l) (m : Std.ExtTreeMap α β cmp) :
    (l.foldl (fun acc p => acc.insert p.1 p.2) m)[k]? = some v := by
  induction l generalizing m with
  | nil => cases h
  | cons p l ih =>
    rw [List.pairwise_cons] at hl
    rw [List.foldl_cons]
    rcases List.mem_cons.mp h with rfl | h
    · rw [getElem?_foldl_insert_of_notMem fun v hv => hl.1 _ hv rfl,
        Std.ExtTreeMap.getElem?_insert_self]
    · exact ih hl.2 h _

/-- An extended map has the entries of the other map, and its own under all other keys. -/
theorem getElem?_extend (m other : Std.ExtTreeMap α β cmp) (k : α) :
    (extend m other)[k]? = other[k]?.or m[k]? := by
  have hdistinct : other.toList.Pairwise fun p q => p.1 ≠ q.1 :=
    Std.ExtTreeMap.distinct_keys_toList.imp fun hne heq =>
      hne (Std.LawfulEqCmp.compare_eq_iff_eq.mpr heq)
  rw [extend, Std.ExtTreeMap.foldl_eq_foldl_toList]
  cases hk : other[k]? with
  | none =>
    rw [Option.none_or, getElem?_foldl_insert_of_notMem]
    intro v hv
    rw [Std.ExtTreeMap.mem_toList_iff_getElem?_eq_some, hk] at hv
    cases hv
  | some v =>
    rw [Option.some_or]
    exact getElem?_foldl_insert_of_mem hdistinct
      (Std.ExtTreeMap.mem_toList_iff_getElem?_eq_some.mpr hk) m

/-- Extending keeps the entries of a map exactly when the two agree where both have a key. -/
lemma extend_keeps_iff {m other : Std.ExtTreeMap α β cmp} :
    (∀ (k : α) (v : β), m[k]? = some v → (extend m other)[k]? = some v) ↔
      ∀ (k : α) (v w : β), m[k]? = some v → other[k]? = some w → w = v := by
  constructor
  · intro hkeeps k v w hv hw
    have hk := hkeeps k v hv
    rw [getElem?_extend, hw, Option.some_or, Option.some.injEq] at hk
    exact hk
  · intro hagree k v hv
    rw [getElem?_extend, hv]
    cases hw : other[k]? with
    | none => rfl
    | some w => rw [Option.some_or, hagree k v w hv hw]

lemma extend_self (m : Std.ExtTreeMap α β cmp) : extend m m = m := by
  apply Std.ExtTreeMap.ext_getElem?
  intro k
  rw [getElem?_extend, Option.or_self]

lemma extend_extend_self (m other : Std.ExtTreeMap α β cmp) :
    extend (extend m other) other = extend m other := by
  apply Std.ExtTreeMap.ext_getElem?
  intro k
  rw [getElem?_extend, getElem?_extend, ← Option.or_assoc, Option.or_self]

/-- Looking up the keys of a map in their order gives its values. -/
lemma filterMap_keys (m : Std.ExtTreeMap α β cmp) :
    (m.keys.filterMap fun k => m[k]?) = m.toList.map Prod.snd := by
  rw [← Std.ExtTreeMap.map_fst_toList_eq_keys, List.filterMap_map, ← List.filterMap_eq_map]
  refine List.filterMap_congr fun p hp => ?_
  exact Std.ExtTreeMap.mem_toList_iff_getElem?_eq_some.mp hp

/-- Inserting keys that are new gives them their values and keeps all other entries. -/
lemma getElem?_foldl_insertIfNew [DecidableEq α] (f : α → β) (l : List α)
    (m : Std.ExtTreeMap α β cmp) (k : α) :
    (l.foldl (fun m k => m.insertIfNew k (f k)) m)[k]? =
      m[k]?.or (if k ∈ l then some (f k) else none) := by
  induction l generalizing m with
  | nil => simp
  | cons c l ih =>
    rw [List.foldl_cons, ih, Std.ExtTreeMap.getElem?_insertIfNew]
    simp only [Std.LawfulEqCmp.compare_eq_iff_eq, Std.ExtTreeMap.mem_iff_isSome_getElem?,
      List.mem_cons]
    by_cases hc : c = k
    · subst hc
      cases m[c]? <;> simp
    · simp [hc, Ne.symm hc]

/-- The selected entries of a map are as many as their keys. -/
lemma length_filter_toList [DecidableEq α] (m : Std.ExtTreeMap α β cmp) (q : α × β → Bool)
    {s : Finset α} (h : ∀ k, k ∈ s ↔ ∃ v, m[k]? = some v ∧ q (k, v)) :
    (m.toList.filter q).length = s.card := by
  have hnodup : ((m.toList.filter q).map Prod.fst).Nodup := by
    refine (List.filter_sublist.map Prod.fst).nodup ?_
    rw [Std.ExtTreeMap.map_fst_toList_eq_keys]
    exact Std.ExtTreeMap.nodup_keys
  have hset : ((m.toList.filter q).map Prod.fst).toFinset = s := by
    ext k
    rw [List.mem_toFinset, List.mem_map, h]
    constructor
    · rintro ⟨⟨_, v⟩, hp, rfl⟩
      obtain ⟨hp, hq⟩ := List.mem_filter.mp hp
      exact ⟨v, Std.ExtTreeMap.mem_toList_iff_getElem?_eq_some.mp hp, hq⟩
    · rintro ⟨v, hk, hq⟩
      exact ⟨(k, v), List.mem_filter.mpr
        ⟨Std.ExtTreeMap.mem_toList_iff_getElem?_eq_some.mpr hk, hq⟩, rfl⟩
  rw [← hset, List.toFinset_card_of_nodup hnodup, List.length_map]

end Maps
