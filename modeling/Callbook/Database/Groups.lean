import Callbook.Database.Merge
import Callbook.Library.MergeAll

/-!
# Groups of snapshots

A run of merges merges the snapshots of one station and vintage, in their order.
-/

namespace Callbook

open CallSnapshot

/-- The snapshots that a run of merges merges into `s`. -/
def groupOf (snapshots : List CallSnapshot) (s : CallSnapshot) : List CallSnapshot :=
  match s.vintage with
  | none => snapshots.filter (·.vintage = none)
  | some year => snapshots.filter fun t => t.callsign = s.callsign ∧ t.vintage = some year

lemma mem_of_mem_groupOf {snapshots : List CallSnapshot} {s t : CallSnapshot}
    (h : t ∈ groupOf snapshots s) : t ∈ snapshots := by
  unfold groupOf at h
  split at h
  · exact List.mem_of_mem_filter h
  · exact List.mem_of_mem_filter h

/-- A run of merges is one for the current snapshots and one for the history. -/
lemma foldl_mergeSnapshot (snapshots : List CallSnapshot) (state : MergeState) :
    snapshots.foldl mergeSnapshot state =
      (Upsert.mergeAll mergeMissingFrom (state.1.toList ++ snapshots.filter (·.vintage = none)),
        (snapshots.filter (·.vintage ≠ none)).foldl
          (upsert (fun s => (s.callsign, s.vintage)) mergeMissingFrom) state.2) := by
  induction snapshots generalizing state with
  | nil =>
    obtain ⟨current, history⟩ := state
    cases current <;> rfl
  | cons s snapshots ih =>
    obtain ⟨current, history⟩ := state
    rw [List.foldl_cons, ih, mergeSnapshot]
    by_cases hvintage : s.vintage = none
    · rw [if_pos hvintage, List.filter_cons_of_pos (by simpa using hvintage),
        List.filter_cons_of_neg (by simpa using hvintage)]
      cases current <;> rfl
    · rw [if_neg hvintage, List.filter_cons_of_neg (by simpa using hvintage),
        List.filter_cons_of_pos (by simpa using hvintage), List.foldl_cons, mergeHistory_eq_upsert]

lemma vintage_of_mergeAll {snapshots : List CallSnapshot} {s : CallSnapshot}
    (h : Upsert.mergeAll mergeMissingFrom snapshots = some s) :
    ∃ t ∈ snapshots, s.vintage = t.vintage := by
  cases snapshots with
  | nil => cases h
  | cons t snapshots =>
    obtain rfl := Option.some.inj h
    exact ⟨t, List.mem_cons_self, @Upsert.foldl_of_not_blank _ mergeMissingFrom _
      CallSnapshot.vintage (fun _ => false) (fun _ _ => rfl) t rfl snapshots⟩

/-- Each snapshot of the result is its group, merged. -/
theorem mergeAll_groupOf {snapshots : List CallSnapshot} {s : CallSnapshot}
    (h : s ∈ (snapshots.foldl mergeSnapshot (none, [])).1 ∨
      s ∈ (snapshots.foldl mergeSnapshot (none, [])).2) :
    Upsert.mergeAll mergeMissingFrom (groupOf snapshots s) = some s := by
  rw [foldl_mergeSnapshot] at h
  rcases h with h | h
  · rw [Option.mem_def, Option.toList_none, List.nil_append] at h
    obtain ⟨t, ht, hvintage⟩ := vintage_of_mergeAll h
    rw [List.mem_filter, decide_eq_true_eq] at ht
    rw [groupOf, hvintage, ht.2]
    exact h
  · have hgroup := Upsert.mergeAll_of_mem_foldl mergeMissingFrom_key h
    obtain ⟨t, ht, hvintage⟩ := vintage_of_mergeAll hgroup
    rw [List.mem_filter, List.mem_filter] at ht
    have hsome : s.vintage ≠ none := by
      rw [hvintage]
      simpa using ht.1.2
    obtain ⟨year, hyear⟩ := Option.ne_none_iff_exists'.mp hsome
    rw [List.filter_filter] at hgroup
    rw [groupOf, hyear, ← hgroup]
    congr 1
    apply List.filter_congr
    intro t _
    by_cases hkey : t.callsign = s.callsign ∧ t.vintage = some year
    · simp [hkey, hyear]
    · simp only [Prod.mk.injEq, hyear, hkey, decide_false, Bool.false_and]

/-- A report is what the catalog and the shard contribute, merged. -/
lemma CallBook.exists_merged_of_lookupReport {db : CallBook} {callsign : Str} {r : LookupResult}
    (h : db.lookupReport callsign = .ok (.ok r)) : ∃ key snapshots,
      Callsign.parse callsign = .ok key ∧ db.shardSnapshots key.asStr = .ok snapshots ∧
      ∀ s ∈ r.current.toList ++ r.history,
        s ∈ ((((db.lookupUsCurrent key.asStr).map fromUsCsv).toList ++ snapshots).foldl
            mergeSnapshot (none, [])).1 ∨
          s ∈ ((((db.lookupUsCurrent key.asStr).map fromUsCsv).toList ++ snapshots).foldl
            mergeSnapshot (none, [])).2 := by
  obtain ⟨key, snapshots, hkey, hsnapshots, rfl⟩ := lookupReport_eq_ok_iff.mp h
  refine ⟨key, snapshots, hkey, hsnapshots, fun s hs => ?_⟩
  have hstart : ((db.lookupUsCurrent key.asStr).map fromUsCsv).toList.foldl mergeSnapshot
      (none, []) = ((db.lookupUsCurrent key.asStr).map fromUsCsv, []) := by
    cases db.lookupUsCurrent key.asStr <;> rfl
  rw [List.foldl_append, hstart]
  rw [report, List.mem_append, Option.mem_toList, StableSort.mem_sortBy] at hs
  exact hs

end Callbook
