import Callbook.Database.Groups
import Callbook.Record.Fields
import Callbook.Record.Sidecars

/-!
# Derived fields after a merge

In a record the interests follow from the raw interest field, and the jurisdiction goes with the
country. A merge fills these fields in one by one: what one record derives may be joined with the
raw field or the country of another.
-/

namespace Callbook

open CallSnapshot V2Record

/-- A snapshot of a record, parsed with one of the country tables or with none, or of the
catalog. -/
inductive Produced (tables : Set CountryTable) (interests : Option InterestTable) :
    CallSnapshot → Prop
  | record {defaultKey : Option Bytes} {source : SnapshotSource} {countries : Option CountryTable}
      {segment : Bytes} {s : CallSnapshot} (hcountries : ∀ table ∈ countries, table ∈ tables)
      (h : parseSegment defaultKey source countries interests segment = .ok (some s)) :
      Produced tables interests s
  | usCsv (record : UsCsvRecord) : Produced tables interests (fromUsCsv record)

section Produced

variable {tables : Set CountryTable} {interests : Option InterestTable} {s : CallSnapshot}

lemma Produced.interestsAgree (h : Produced tables interests s) :
    s.InterestsAgree interests ∧ s.interestCodesRaw ≠ some [] := by
  cases h with
  | record _ hparse => exact interestsAgree_of_parseSegment hparse
  | usCsv record => exact ⟨⟨rfl, rfl⟩, (Option.some_ne_none _).symm⟩

lemma Produced.placed (h : Produced {table | table.Loaded} interests s) : s.Placed := by
  cases h with
  | record hcountries hparse => exact placed_of_parseSegment hcountries hparse
  | usCsv record =>
    refine ⟨?_, fun _ => Jurisdiction.noConfusion, fun hnone => ?_⟩
    · show some (ascii "United States") ≠ some []
      decide
    · cases hnone

end Produced

/-! ### Fields of a merge -/

/-- A field that a merge fills in is the first one of the group. -/
lemma findSome?_of_fill {f : CallSnapshot → Option Str}
    (hf : ∀ a b : CallSnapshot, f (a.mergeMissingFrom b) = fill (f a) (f b))
    {group : List CallSnapshot} {m : CallSnapshot} (hne : ∀ s ∈ group, f s ≠ some [])
    (h : Upsert.mergeAll mergeMissingFrom group = some m) : f m = group.findSome? f := by
  have hblank : ∀ s ∈ group, (f s).all (· = []) = (f s).isNone := by
    intro s hs
    have hs' := hne s hs
    cases hvalue : f s with
    | none => rfl
    | some v =>
      rw [hvalue] at hs'
      simpa using hs'
  exact Upsert.findSome?_of_mergeAll hf hblank h

/-! ### Two records -/

lemma exists_of_parsed {run : Except Panic (Option CallSnapshot)} {p : CallSnapshot → Bool}
    (h : run.toOption.join.any p) : ∃ s, run = .ok (some s) ∧ p s := by
  rw [Option.any_eq_true] at h
  obtain ⟨s, hs, hp⟩ := h
  exact ⟨s, Panic.toOption_eq_some_iff.mp (Option.join_eq_some_iff.mp hs), hp⟩

lemma foldl_mergeSnapshot_pair {a b : CallSnapshot} (ha : a.vintage = none)
    (hb : b.vintage = none) :
    ([a, b].foldl mergeSnapshot (none, [])).1 = some (a.mergeMissingFrom b) := by
  simp [mergeSnapshot, ha, hb]

lemma groupOf_pair {a b : CallSnapshot} (ha : a.vintage = none) (hb : b.vintage = none) :
    groupOf [a, b] (a.mergeMissingFrom b) = [a, b] := by
  have hvintage : (a.mergeMissingFrom b).vintage = none := ha
  simp [groupOf, hvintage, ha, hb]

/-! ### Interests -/

/-- The first raw interest field of a group has codes, and has interests, if any of the group
has. -/
def FirstRawDecides (interests : Option InterestTable) (group : List CallSnapshot) : Prop :=
  ∀ raw, group.findSome? (·.interestCodesRaw) = some raw →
    (InterestTable.codes raw = [] →
      ∀ s ∈ group, ∀ other ∈ s.interestCodesRaw, InterestTable.codes other = []) ∧
    (resolved interests raw = [] →
      ∀ s ∈ group, ∀ other ∈ s.interestCodesRaw, resolved interests other = [])

lemma interestsAgree_mergeAll_iff {interests : Option InterestTable} {group : List CallSnapshot}
    {m : CallSnapshot}
    (hgroup : ∀ s ∈ group, s.InterestsAgree interests ∧ s.interestCodesRaw ≠ some [])
    (h : Upsert.mergeAll mergeMissingFrom group = some m) :
    m.InterestsAgree interests ↔ FirstRawDecides interests group := by
  have hraw : m.interestCodesRaw = group.findSome? (·.interestCodesRaw) :=
    findSome?_of_fill (fun _ _ => rfl) (fun s hs => (hgroup s hs).2) h
  have hcodes : ∀ a b : CallSnapshot, (a.mergeMissingFrom b).interestCodes =
      if a.interestCodes.isEmpty then b.interestCodes else a.interestCodes := by
    intro a b
    simp [mergeMissingFrom]
  have hinterests : ∀ a b : CallSnapshot, (a.mergeMissingFrom b).interests =
      if a.interests.isEmpty then b.interests else a.interests := by
    intro a b
    simp [mergeMissingFrom]
  have hcodesIff := Upsert.derived_of_mergeAll_iff (fun s hs => (hgroup s hs).1.codes) hcodes h
  have hinterestsIff :=
    Upsert.derived_of_mergeAll_iff (fun s hs => (hgroup s hs).1.interests) hinterests h
  rw [← hraw] at hcodesIff hinterestsIff
  constructor
  · rintro ⟨hc, hi⟩ raw hfirst
    rw [← hraw] at hfirst
    exact ⟨hcodesIff.mp hc raw hfirst, hinterestsIff.mp hi raw hfirst⟩
  · intro hdecides
    rw [FirstRawDecides, ← hraw] at hdecides
    exact ⟨hcodesIff.mpr fun raw hfirst => (hdecides raw hfirst).1,
      hinterestsIff.mpr fun raw hfirst => (hdecides raw hfirst).2⟩

/-- A merge of snapshots produced with one interest table has the interests of its raw field exactly
when the first raw field of its group decides; and every snapshot of a report is such a merge. -/
theorem interestsAgree_merged_iff (interests : Option InterestTable) :
    (∀ snapshots : List CallSnapshot, (∀ s ∈ snapshots, Produced Set.univ interests s) →
      ∀ s, s ∈ (snapshots.foldl mergeSnapshot (none, [])).1 ∨
        s ∈ (snapshots.foldl mergeSnapshot (none, [])).2 →
          (s.InterestsAgree interests ↔ FirstRawDecides interests (groupOf snapshots s))) ∧
    ∀ (db : CallBook) (callsign : Str) (r : LookupResult),
      db.v2.bind V2Shard.interests = interests → db.lookupReport callsign = .ok (.ok r) →
      ∃ snapshots : List CallSnapshot, (∀ s ∈ snapshots, Produced Set.univ interests s) ∧
        ∀ s ∈ r.current.toList ++ r.history,
          s ∈ (snapshots.foldl mergeSnapshot (none, [])).1 ∨
            s ∈ (snapshots.foldl mergeSnapshot (none, [])).2 := by
  constructor
  · intro snapshots hproduced s hs
    refine interestsAgree_mergeAll_iff (fun t ht => ?_) (mergeAll_groupOf hs)
    exact (hproduced t (mem_of_mem_groupOf ht)).interestsAgree
  · rintro db callsign r rfl hr
    obtain ⟨key, snapshots, -, hsnapshots, hmerged⟩ := CallBook.exists_merged_of_lookupReport hr
    refine ⟨_, fun s hs => ?_, hmerged⟩
    rw [List.mem_append, Option.mem_toList, Option.map_eq_some_iff] at hs
    rcases hs with ⟨record, -, rfl⟩ | hs
    · exact .usCsv record
    · obtain ⟨shard, hshard, source, defaultKey, segment, -, hparse⟩ :=
        CallBook.parsed_of_shardSnapshots hsnapshots s hs
      rw [Option.mem_def.mp hshard]
      exact .record (fun _ _ => Set.mem_univ _) hparse

/-- A record with an interest field. -/
def interestRecord (raw : Str) : Bytes := 0xb5 :: (ascii "K0AB" ++ writtenTags [(0xd5, raw)])

/-- A raw field without codes stays, beside the codes of the next record. -/
theorem not_interestsAgree_laterCodes : ∃ a b m,
    parseSegment none .hamCallDatIdx none none (interestRecord (ascii "abcd")) = .ok (some a) ∧
    parseSegment none .hamCallHci none none (interestRecord (ascii "0010")) = .ok (some b) ∧
    ([a, b].foldl mergeSnapshot (none, [])).1 = some m ∧ ¬ m.InterestsAgree none := by
  refine ⟨_, _, _, rfl, rfl, rfl, ?_⟩
  rintro ⟨hcodes, -⟩
  revert hcodes
  decide

lemma parseSegment_interestRecord : ∃ s,
    parseSegment none .hamCallDatIdx none none (interestRecord (ascii "0010")) = .ok (some s) ∧
      decide (s.vintage = none ∧ s.interestCodesRaw = some (ascii "0010")) :=
  exists_of_parsed (by decide +kernel)

/-- With the codes first, raw field and codes are those of one record. -/
theorem interestsAgree_codesFirst : ∃ a b m,
    parseSegment none .hamCallDatIdx none none (interestRecord (ascii "0010")) = .ok (some a) ∧
    parseSegment none .hamCallHci none none (interestRecord (ascii "abcd")) = .ok (some b) ∧
    ([a, b].foldl mergeSnapshot (none, [])).1 = some m ∧ m.InterestsAgree none := by
  obtain ⟨a, ha, hafields⟩ := parseSegment_interestRecord
  obtain ⟨havintage, haraw⟩ := of_decide_eq_true hafields
  obtain ⟨b, hb, hbvintage⟩ : ∃ b,
      parseSegment none .hamCallHci none none (interestRecord (ascii "abcd")) = .ok (some b) ∧
        b.vintage = none := ⟨_, rfl, rfl⟩
  have hmerged := foldl_mergeSnapshot_pair havintage hbvintage
  have hproduced : ∀ s ∈ [a, b], Produced Set.univ none s := by
    rw [List.forall_mem_cons, List.forall_mem_singleton]
    exact ⟨.record (by simp) ha, .record (by simp) hb⟩
  have hiff := (interestsAgree_merged_iff none).1 [a, b] hproduced _ (.inl hmerged)
  rw [groupOf_pair havintage hbvintage] at hiff
  refine ⟨a, b, _, ha, hb, hmerged, hiff.mpr fun raw hraw => ?_⟩
  rw [List.findSome?_cons, haraw, Option.some.injEq] at hraw
  subst hraw
  exact ⟨fun hnil => absurd hnil (by decide), fun _ _ _ _ _ => rfl⟩

/-! ### Country and jurisdiction -/

/-- The jurisdiction is that of the snapshot that gives the country. -/
def CountryPaired (group : List CallSnapshot) (merged : CallSnapshot) : Prop :=
  ∀ s, group.find? (·.country.isSome) = some s →
    merged.country = s.country ∧ merged.jurisdiction = s.jurisdiction

/-- In front of the first snapshot with a country, unless that is one of the United States, none has
a state and a postal code. -/
def NoStateBefore (group : List CallSnapshot) : Prop :=
  ∀ s, group.find? (·.country.isSome) = some s → s.jurisdiction ≠ .unitedStates →
    ∀ t ∈ group.takeWhile (·.country.isNone), ¬ HasState t

/-- Snapshots without a country give the United States or no jurisdiction. -/
lemma find?_jurisdiction {front : List CallSnapshot} (hplaced : ∀ t ∈ front, t.Placed)
    (hnone : ∀ t ∈ front, t.country = none) :
    (front.map CallSnapshot.jurisdiction).find? (fun j => !decide (j = .unknown)) =
      if ∃ t ∈ front, HasState t then some .unitedStates else none := by
  induction front with
  | nil => simp
  | cons t front ih =>
    rw [List.forall_mem_cons] at hplaced hnone
    have hinferred := hplaced.1.inferred hnone.1
    rw [List.map_cons, List.find?_cons, ih hplaced.2 hnone.2, hinferred]
    by_cases hstate : HasState t
    · have hex : ∃ u ∈ t :: front, HasState u := ⟨t, List.mem_cons_self, hstate⟩
      rw [if_pos hstate, if_pos hex]
      rfl
    · rw [if_neg hstate]
      simp [hstate]

lemma countryPaired_mergeAll_iff {group : List CallSnapshot} {m : CallSnapshot}
    (hgroup : ∀ s ∈ group, s.Placed) (h : Upsert.mergeAll mergeMissingFrom group = some m) :
    CountryPaired group m ↔ NoStateBefore group := by
  have hcountry : m.country = group.findSome? (·.country) :=
    findSome?_of_fill (fun _ _ => rfl) (fun s hs => (hgroup s hs).country_ne) h
  have hjurisdiction := (@Upsert.find?_of_mergeAll _ mergeMissingFrom _ CallSnapshot.jurisdiction
    (fun j => j = .unknown) (by simp [mergeMissingFrom]) group m h).1
  refine forall₂_congr fun s hs => ?_
  obtain ⟨hsome, front, back, rfl, hfront⟩ := List.find?_eq_some_iff_append.mp hs
  have hnone : ∀ t ∈ front, t.country = none := by
    intro t ht
    simpa using hfront t ht
  have htake : (front ++ s :: back).takeWhile (·.country.isNone) = front := by
    rw [List.takeWhile_append_of_pos fun t ht => by rw [hnone t ht]; rfl,
      List.takeWhile_cons_of_neg (by simpa [Option.isSome_iff_ne_none] using hsome),
      List.append_nil]
  have hfirst : m.country = s.country := by
    obtain ⟨country, hs'⟩ := Option.isSome_iff_exists.mp hsome
    rw [hcountry, List.findSome?_append, List.findSome?_eq_none_iff.mpr hnone, Option.none_or,
      List.findSome?_cons, hs']
  have hknown : s.jurisdiction ≠ .unknown := by
    apply (hgroup s (by simp)).known
    rwa [← Option.isSome_iff_ne_none]
  have hfind := find?_jurisdiction (fun t ht => hgroup t (by simp [ht])) hnone
  rw [htake, and_iff_right hfirst]
  by_cases hstate : ∃ t ∈ front, HasState t
  · have hmerged : m.jurisdiction = .unitedStates := by
      apply hjurisdiction
      rw [List.map_append, List.find?_append, hfind, if_pos hstate, Option.some_or]
    obtain ⟨t, ht, htstate⟩ := hstate
    rw [hmerged]
    constructor
    · exact fun heq hne => absurd heq.symm hne
    · intro hbefore
      by_contra hne
      exact hbefore (Ne.symm hne) t ht htstate
  · have hmerged : m.jurisdiction = s.jurisdiction := by
      apply hjurisdiction
      rw [List.map_append, List.find?_append, hfind, if_neg hstate, Option.none_or, List.map_cons,
        List.find?_cons_of_pos (by simpa using hknown)]
    exact iff_of_true hmerged fun _ t ht htstate => hstate ⟨t, ht, htstate⟩

/-- A merge of produced snapshots has the jurisdiction of the snapshot that gave the country exactly
when no snapshot with a state and a postal code comes before that one, or it is of the United
States. -/
theorem countryPaired_merged_iff {snapshots : List CallSnapshot}
    (hproduced : ∀ s ∈ snapshots, ∃ interests, Produced {table | table.Loaded} interests s)
    {s : CallSnapshot} (hs : s ∈ (snapshots.foldl mergeSnapshot (none, [])).1 ∨
      s ∈ (snapshots.foldl mergeSnapshot (none, [])).2) :
    CountryPaired (groupOf snapshots s) s ↔ NoStateBefore (groupOf snapshots s) := by
  refine countryPaired_mergeAll_iff (fun t ht => ?_) (mergeAll_groupOf hs)
  obtain ⟨interests, hplaced⟩ := hproduced t (mem_of_mem_groupOf ht)
  exact hplaced.placed

/-- A record with a state and a postal code, and no country. -/
def stateRecord : Bytes :=
  0xb5 :: (ascii "K0AB" ++ writtenTags [(0xc0, ascii "CA"), (0xc1, ascii "94110")])

/-- A record with a country. -/
def canadaRecord : Bytes := 0xb5 :: (ascii "K0AB" ++ writtenTags [(0xd1, ascii "CANADA")])

lemma parseSegment_stateRecord : ∃ s,
    parseSegment none .hamCallDatIdx none none stateRecord = .ok (some s) ∧
      decide (s.vintage = none ∧ s.country = none ∧ s.jurisdiction = .unitedStates) :=
  exists_of_parsed (by decide +kernel)

lemma parseSegment_canadaRecord : ∃ s,
    parseSegment none .hamCallHci none none canadaRecord = .ok (some s) ∧
      decide (s.vintage = none ∧ s.country = some (ascii "CANADA") ∧ s.jurisdiction = .canada) :=
  exists_of_parsed (by decide +kernel)

/-- The country of one record with the jurisdiction of another. -/
theorem not_countryPaired_stateFirst : ∃ a b m,
    parseSegment none .hamCallDatIdx none none stateRecord = .ok (some a) ∧
    parseSegment none .hamCallHci none none canadaRecord = .ok (some b) ∧
    ([a, b].foldl mergeSnapshot (none, [])).1 = some m ∧ ¬ CountryPaired [a, b] m ∧
    m.country = some (ascii "CANADA") ∧ m.jurisdiction = .unitedStates := by
  obtain ⟨a, ha, hafields⟩ := parseSegment_stateRecord
  obtain ⟨b, hb, hbfields⟩ := parseSegment_canadaRecord
  obtain ⟨havintage, hacountry, hajurisdiction⟩ := of_decide_eq_true hafields
  obtain ⟨hbvintage, hbcountry, hbjurisdiction⟩ := of_decide_eq_true hbfields
  have hcountry : (a.mergeMissingFrom b).country = some (ascii "CANADA") := by
    rw [mergeMissingFrom, hacountry, hbcountry]
    rfl
  have hjurisdiction : (a.mergeMissingFrom b).jurisdiction = .unitedStates := by
    rw [mergeMissingFrom, hajurisdiction]
    rfl
  refine ⟨a, b, _, ha, hb, foldl_mergeSnapshot_pair havintage hbvintage, fun hpaired => ?_,
    hcountry, hjurisdiction⟩
  have hfirst : [a, b].find? (·.country.isSome) = some b := by simp [hacountry, hbcountry]
  rw [CountryPaired] at hpaired
  have hsame := (hpaired b hfirst).2
  rw [hjurisdiction, hbjurisdiction] at hsame
  cases hsame

/-- The other way round they stay together. -/
theorem countryPaired_canadaFirst : ∃ a b m,
    parseSegment none .hamCallHci none none canadaRecord = .ok (some a) ∧
    parseSegment none .hamCallDatIdx none none stateRecord = .ok (some b) ∧
    ([a, b].foldl mergeSnapshot (none, [])).1 = some m ∧ CountryPaired [a, b] m := by
  obtain ⟨a, ha, hafields⟩ := parseSegment_canadaRecord
  obtain ⟨b, hb, hbfields⟩ := parseSegment_stateRecord
  obtain ⟨havintage, hacountry, -⟩ := of_decide_eq_true hafields
  obtain ⟨hbvintage, -, -⟩ := of_decide_eq_true hbfields
  have hmerged := foldl_mergeSnapshot_pair havintage hbvintage
  have hproduced : ∀ s ∈ [a, b], ∃ interests, Produced {table | table.Loaded} interests s := by
    rw [List.forall_mem_cons, List.forall_mem_singleton]
    exact ⟨⟨none, .record (by simp) ha⟩, ⟨none, .record (by simp) hb⟩⟩
  have hiff := countryPaired_merged_iff hproduced (.inl hmerged)
  rw [groupOf_pair havintage hbvintage] at hiff
  refine ⟨a, b, _, ha, hb, hmerged, hiff.mpr fun s _ _ => ?_⟩
  rw [List.takeWhile_cons_of_neg (by simp [hacountry])]
  simp

end Callbook
