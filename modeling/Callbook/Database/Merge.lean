import Callbook.Database.Properties
import Callbook.Library.Upsert
import Callbook.Modern.Properties
import Callbook.Record.Properties

/-!
# Merging snapshots

What the merge of any number of snapshots of one station keeps: one current record, one item for
each vintage, and sources that are listed once and in their order.
-/

namespace Callbook

open Text

instance : Std.TransCmp historyOrder :=
  inferInstanceAs (Std.TransCmp (compareLex (compareOn CallSnapshot.vintage)
    (compareOn CallSnapshot.callsign)))

/-! ### One merge -/

/-- Merging into the history is an insertion by station and vintage. -/
lemma mergeHistory_eq_upsert (history : List CallSnapshot) (snapshot : CallSnapshot) :
    mergeHistory history snapshot =
      upsert (fun s => (s.callsign, s.vintage)) CallSnapshot.mergeMissingFrom history snapshot := by
  induction history with
  | nil => rfl
  | cons item rest ih => simp only [mergeHistory, upsert, ih, Prod.mk.injEq]

/-- What is merged into the history stands there, alone or merged. -/
lemma exists_mem_mergeHistory (history : List CallSnapshot) (snapshot : CallSnapshot) :
    snapshot ∈ mergeHistory history snapshot ∨
      ∃ item ∈ history, item.vintage = snapshot.vintage ∧
        item.mergeMissingFrom snapshot ∈ mergeHistory history snapshot := by
  rw [mergeHistory_eq_upsert]
  refine (Upsert.exists_mem_upsert _ _).imp_right ?_
  rintro ⟨item, hitem, hkey, hmem⟩
  rw [Prod.mk.injEq] at hkey
  exact ⟨item, hitem, hkey.2, hmem⟩

/-- What stood in the history stands there, alone or merged. -/
lemma mem_or_merge_mem_mergeHistory {history : List CallSnapshot} {item : CallSnapshot}
    (h : item ∈ history) (snapshot : CallSnapshot) :
    item ∈ mergeHistory history snapshot ∨
      item.mergeMissingFrom snapshot ∈ mergeHistory history snapshot := by
  rw [mergeHistory_eq_upsert]
  exact (Upsert.mem_or_merge_mem_upsert h snapshot).imp_right And.right

/-- A snapshot of the query. -/
structure Answers (query : Str) (s : CallSnapshot) : Prop where
  callsign : s.callsign = query
  sources : SourcesOrdered s.sources

lemma mergeMissingFrom_key (a b : CallSnapshot) :
    ((a.mergeMissingFrom b).callsign, (a.mergeMissingFrom b).vintage) = (a.callsign, a.vintage) :=
  rfl

/-- What every merge keeps. -/
structure Merged (query : Str) (state : MergeState) : Prop where
  current : ∀ s ∈ state.1, s.vintage = none ∧ toAsciiUppercase s.callsign = toAsciiUppercase query ∧
    SourcesOrdered s.sources
  history : ∀ s ∈ state.2, s.vintage ≠ none ∧ Answers query s
  distinct : (state.2.map CallSnapshot.vintage).Nodup

/-- In the history of one station, the vintage is the key. -/
lemma map_key_of_answers {query : Str} {history : List CallSnapshot}
    (h : ∀ s ∈ history, s.callsign = query) :
    history.map (fun s => (s.callsign, s.vintage)) =
      (history.map CallSnapshot.vintage).map (Prod.mk query) := by
  rw [List.map_map]
  exact List.map_congr_left fun s hs => by simp [h s hs]

lemma merged_mergeSnapshot {query : Str} {state : MergeState} {snapshot : CallSnapshot}
    (h : Merged query state) (hs : Answers query snapshot) :
    Merged query (mergeSnapshot state snapshot) := by
  obtain ⟨current, history⟩ := state
  rw [mergeSnapshot]
  split_ifs with hvintage
  · cases current with
    | none =>
      refine ⟨fun s hmem => ?_, h.history, h.distinct⟩
      rw [Option.mem_some_iff] at hmem
      subst hmem
      exact ⟨hvintage, by rw [hs.callsign], hs.sources⟩
    | some existing =>
      refine ⟨fun s hmem => ?_, h.history, h.distinct⟩
      rw [Option.mem_some_iff] at hmem
      subst hmem
      obtain ⟨hnone, hcall, hsources⟩ := h.current existing rfl
      exact ⟨hnone, hcall, CallSnapshot.sourcesOrdered_mergeSources hsources⟩
  · have hanswers : ∀ s ∈ mergeHistory history snapshot, s.vintage ≠ none ∧ Answers query s := by
      intro s hmem
      rw [mergeHistory_eq_upsert] at hmem
      rcases Upsert.mem_upsert hmem with rfl | hmem | ⟨item, hitem, -, rfl⟩
      · exact ⟨hvintage, hs⟩
      · exact h.history s hmem
      · obtain ⟨hsome, hcall, hsources⟩ := h.history item hitem
        exact ⟨hsome, hcall, CallSnapshot.sourcesOrdered_mergeSources hsources⟩
    refine ⟨h.current, hanswers, ?_⟩
    have hkeys : (history.map fun s => (s.callsign, s.vintage)).Nodup := by
      rw [map_key_of_answers fun s hmem => (h.history s hmem).2.callsign]
      exact h.distinct.map (Prod.mk_right_injective query)
    have hmerged := Upsert.nodup_map_key_upsert mergeMissingFrom_key hkeys snapshot
    rw [← mergeHistory_eq_upsert, map_key_of_answers fun s hmem => (hanswers s hmem).2.callsign]
      at hmerged
    exact hmerged.of_map

/-- A run of merges keeps the invariant. -/
theorem merged_foldl {query : Str} {snapshots : List CallSnapshot} {state : MergeState}
    (h : Merged query state) (hs : ∀ s ∈ snapshots, Answers query s) :
    Merged query (snapshots.foldl mergeSnapshot state) := by
  induction snapshots generalizing state with
  | nil => exact h
  | cons snapshot rest ih =>
    rw [List.forall_mem_cons] at hs
    exact ih (merged_mergeSnapshot h hs.1) hs.2

/-! ### The vintages of a merge -/

/-- A snapshot of the vintage has been merged. -/
def HasVintage (state : MergeState) (vintage : Option ℕ) : Prop :=
  match vintage with
  | none => state.1.isSome
  | some year => some year ∈ state.2.map CallSnapshot.vintage

lemma mem_map_vintage_mergeHistory {history : List CallSnapshot} {snapshot : CallSnapshot}
    {vintage : Option ℕ} : vintage ∈ (mergeHistory history snapshot).map CallSnapshot.vintage ↔
      vintage ∈ history.map CallSnapshot.vintage ∨ snapshot.vintage = vintage := by
  have hkeys : ∀ l : List CallSnapshot, l.map CallSnapshot.vintage =
      (l.map fun s => (s.callsign, s.vintage)).map Prod.snd := by
    intro l
    rw [List.map_map]
    rfl
  rw [hkeys, hkeys, mergeHistory_eq_upsert, List.mem_map, List.mem_map]
  constructor
  · rintro ⟨key, hkey, rfl⟩
    rcases (Upsert.mem_map_key_upsert mergeMissingFrom_key).mp hkey with hkey | rfl
    · exact .inl ⟨key, hkey, rfl⟩
    · exact .inr rfl
  · rintro (⟨key, hkey, rfl⟩ | rfl)
    · exact ⟨key, (Upsert.mem_map_key_upsert mergeMissingFrom_key).mpr (.inl hkey), rfl⟩
    · exact ⟨_, (Upsert.mem_map_key_upsert mergeMissingFrom_key).mpr (.inr rfl), rfl⟩

lemma hasVintage_mergeSnapshot {state : MergeState} {snapshot : CallSnapshot}
    {vintage : Option ℕ} : HasVintage (mergeSnapshot state snapshot) vintage ↔
      HasVintage state vintage ∨ snapshot.vintage = vintage := by
  obtain ⟨current, history⟩ := state
  rw [mergeSnapshot]
  cases vintage with
  | none =>
    simp only [HasVintage]
    split_ifs with hnone
    · cases current <;> simp [hnone]
    · simp [hnone]
  | some year =>
    simp only [HasVintage]
    split_ifs with hnone
    · cases current <;> simp [hnone]
    · exact mem_map_vintage_mergeHistory

/-- A run of merges has the vintages of all snapshots. -/
theorem hasVintage_foldl {snapshots : List CallSnapshot} {state : MergeState}
    {vintage : Option ℕ} : HasVintage (snapshots.foldl mergeSnapshot state) vintage ↔
      HasVintage state vintage ∨ vintage ∈ snapshots.map CallSnapshot.vintage := by
  induction snapshots generalizing state with
  | nil => simp
  | cons snapshot rest ih =>
    rw [List.foldl_cons, ih, hasVintage_mergeSnapshot, or_assoc, List.map_cons, List.mem_cons,
      eq_comm]

/-! ### What a merge loses nothing of -/

/-- A snapshot of the vintage lists the source. -/
def Lists (current : Option CallSnapshot) (history : List CallSnapshot) (vintage : Option ℕ)
    (source : SnapshotSource) : Prop :=
  match vintage with
  | none => ∃ s ∈ current, source ∈ s.sources
  | some year => ∃ s ∈ history, s.vintage = some year ∧ source ∈ s.sources

section Lists

variable {state : MergeState} {snapshot : CallSnapshot} {source : SnapshotSource}

/-- What is merged is listed. -/
lemma lists_mergeSnapshot_self (hsource : source ∈ snapshot.sources) :
    Lists (mergeSnapshot state snapshot).1 (mergeSnapshot state snapshot).2 snapshot.vintage
      source := by
  obtain ⟨current, history⟩ := state
  rw [mergeSnapshot]
  cases hvintage : snapshot.vintage with
  | none =>
    rw [if_pos rfl]
    cases current with
    | none => exact ⟨snapshot, rfl, hsource⟩
    | some existing => exact ⟨_, rfl, CallSnapshot.mem_mergeSources.mpr (.inr hsource)⟩
  | some year =>
    rw [if_neg (by simp)]
    rcases exists_mem_mergeHistory history snapshot with hmem | ⟨item, hitem, hyear, hmem⟩
    · exact ⟨snapshot, hmem, hvintage, hsource⟩
    · exact ⟨_, hmem, hyear.trans hvintage, CallSnapshot.mem_mergeSources.mpr (.inr hsource)⟩

/-- What was listed stays listed. -/
lemma lists_mergeSnapshot {vintage : Option ℕ}
    (hlists : Lists state.1 state.2 vintage source) :
    Lists (mergeSnapshot state snapshot).1 (mergeSnapshot state snapshot).2 vintage source := by
  obtain ⟨current, history⟩ := state
  rw [mergeSnapshot]
  split_ifs with hnone
  · cases current with
    | none =>
      cases vintage with
      | none => simp [Lists] at hlists
      | some year => exact hlists
    | some existing =>
      cases vintage with
      | none =>
        obtain ⟨item, hitem, hsource⟩ := hlists
        obtain rfl := Option.mem_some_iff.mp hitem
        exact ⟨_, rfl, CallSnapshot.mem_mergeSources.mpr (.inl hsource)⟩
      | some year => exact hlists
  · cases vintage with
    | none => exact hlists
    | some year =>
      obtain ⟨item, hitem, hyear, hsource⟩ := hlists
      rcases mem_or_merge_mem_mergeHistory hitem snapshot with hmem | hmem
      · exact ⟨item, hmem, hyear, hsource⟩
      · exact ⟨_, hmem, hyear, CallSnapshot.mem_mergeSources.mpr (.inl hsource)⟩

variable (state) in
/-- A run of merges lists every source of every snapshot. -/
theorem lists_foldl {snapshots : List CallSnapshot} {vintage : Option ℕ}
    (hlists : Lists state.1 state.2 vintage source ∨
      ∃ s ∈ snapshots, s.vintage = vintage ∧ source ∈ s.sources) :
    Lists (snapshots.foldl mergeSnapshot state).1 (snapshots.foldl mergeSnapshot state).2 vintage
      source := by
  induction snapshots generalizing state with
  | nil => simpa using hlists
  | cons snapshot rest ih =>
    apply ih
    rcases hlists with hlists | ⟨s, hs, hvintage, hsource⟩
    · exact .inl (lists_mergeSnapshot hlists)
    · rw [List.mem_cons] at hs
      rcases hs with rfl | hs
      · exact .inl (hvintage ▸ lists_mergeSnapshot_self hsource)
      · exact .inr ⟨s, hs, hvintage, hsource⟩

end Lists

/-! ### Reports -/

/-- What a report promises. -/
structure LookupResult.Invariant (r : LookupResult) : Prop where
  /-- Archive snapshots are of the station asked for. -/
  history_callsign : ∀ s ∈ r.history, s.callsign = r.query
  /-- Archive snapshots have vintages that increase strictly, and the summary lists them. -/
  history_vintages : ∃ years : List ℕ, r.history.map CallSnapshot.vintage = years.map some ∧
    years.Pairwise (· < ·) ∧ historySummary r = ⟨years.length, years⟩
  /-- The current snapshot has no vintage and is of the station asked for, up to case. -/
  current : ∀ s ∈ r.current, s.vintage = none ∧
    toAsciiUppercase s.callsign = toAsciiUppercase r.query
  sources : ∀ s ∈ r.current.toList ++ r.history, SourcesOrdered s.sources

/-- A history whose vintages are given lists their years. -/
lemma exists_years {history : List CallSnapshot} (h : ∀ s ∈ history, s.vintage ≠ none) :
    history.map CallSnapshot.vintage = (history.filterMap CallSnapshot.vintage).map some := by
  induction history with
  | nil => rfl
  | cons s history ih =>
    rw [List.forall_mem_cons] at h
    obtain ⟨year, hyear⟩ := Option.ne_none_iff_exists'.mp h.1
    rw [List.map_cons, List.filterMap_cons_some hyear, List.map_cons, ih h.2, hyear]

lemma historySummary_eq {r : LookupResult} {years : List ℕ}
    (hyears : r.history.filterMap CallSnapshot.vintage = years)
    (hlen : r.history.length = years.length) (hlt : years.Pairwise (· < ·)) :
    historySummary r = ⟨years.length, years⟩ := by
  have hsort : StableSort.sortBy compare years = years :=
    StableSort.sortBy_eq_self _ (hlt.imp fun {a b} hab => by
      rw [StableSort.NotGreater, Nat.compare_eq_lt.mpr hab]
      decide)
  rw [historySummary, hyears, hsort, hlen,
    List.destutter_of_isChain _ _ ((hlt.imp fun h => ne_of_lt h).isChain)]

theorem invariant_report {query : Str} {state : MergeState} (h : Merged query state) :
    (CallBook.report query state).Invariant := by
  have hperm := StableSort.sortBy_perm historyOrder state.2
  have hhistory : ∀ s ∈ StableSort.sortBy historyOrder state.2,
      s.vintage ≠ none ∧ Answers query s :=
    fun s hs => h.history s (hperm.mem_iff.mp hs)
  have hyears := exists_years fun s hs => (hhistory s hs).1
  refine ⟨fun s hs => (hhistory s hs).2.callsign, ?_,
    fun s hs => ⟨(h.current s hs).1, (h.current s hs).2.1⟩, fun s hs => ?_⟩
  · set years := (StableSort.sortBy historyOrder state.2).filterMap CallSnapshot.vintage
    have hdistinct : (years.map some).Nodup := by
      rw [← hyears]
      exact (hperm.map _).nodup_iff.mpr h.distinct
    -- sorted by vintage first, and no vintage stands twice
    have hsorted : (years.map some).Pairwise fun a b => compare a b ≠ .gt := by
      rw [← hyears, List.pairwise_map]
      refine (StableSort.sorted_sortBy historyOrder state.2).imp fun {a b} hab hgt => ?_
      exact hab (by rw [historyOrder, hgt]; rfl)
    have hlt : years.Pairwise (· < ·) := by
      rw [List.pairwise_map] at hsorted
      refine (hsorted.and hdistinct.of_map).imp fun {a b} hab => ?_
      have hle : ¬ b < a := fun hba => hab.1 (Nat.compare_eq_gt.mpr hba)
      exact lt_of_le_of_ne (not_lt.mp hle) hab.2
    exact ⟨years, hyears, hlt, historySummary_eq rfl
      (by rw [← List.length_map (f := CallSnapshot.vintage), CallBook.report, hyears,
        List.length_map]) hlt⟩
  · rw [List.mem_append, Option.mem_toList] at hs
    rcases hs with hs | hs
    · exact (h.current s hs).2.2
    · exact (hhistory s hs).2.sources

/-! ### What the shard contributes -/

/-- A snapshot that the shard parses for a callsign, with its own tables. -/
def V2Shard.Parsed (shard : V2Shard) (callsign : Str) (source : SnapshotSource)
    (s : CallSnapshot) : Prop :=
  ∃ defaultKey segment, V2Record.segmentMatches defaultKey callsign segment ∧
    V2Record.parseSegment defaultKey source shard.countries shard.interests segment = .ok (some s)

namespace V2Shard

variable {shard : V2Shard} {callsign : Str}

/-- The prefilter and the parser agree on the callsign. -/
lemma Parsed.answers {source : SnapshotSource} {s : CallSnapshot}
    (h : shard.Parsed callsign source s) (hcallsign : ∀ b ∈ callsign, isCallsignChar b) :
    Answers callsign s := by
  obtain ⟨defaultKey, segment, hmatches, hparse⟩ := h
  have hsources := (V2Record.keyOf_of_parseSegment hparse).2
  exact ⟨(V2Record.segmentMatches_iff_of_parseSegment hparse hcallsign).mp hmatches,
    hsources ▸ sourcesOrdered_singleton source⟩

lemma parsed_of_collect {defaultKey : Option Bytes} {source : SnapshotSource}
    {segments : List Bytes} {snapshots : List CallSnapshot}
    (h : Panic.collect (V2Record.segmentMatches defaultKey callsign)
      (V2Record.parseSegment defaultKey source shard.countries shard.interests) segments =
        .ok snapshots) : ∀ s ∈ snapshots, shard.Parsed callsign source s := by
  intro s hs
  obtain ⟨segment, -, hmatches, hparse⟩ := (Panic.mem_of_collect_eq_ok h).mp hs
  exact ⟨defaultKey, segment, hmatches, hparse⟩

lemma parsed_of_lookupDatIdx {snapshots : List CallSnapshot}
    (h : shard.lookupDatIdx callsign = .ok snapshots) :
    ∀ s ∈ snapshots, shard.Parsed callsign .hamCallDatIdx s := by
  intro s hs
  obtain ⟨entry, -, found, hfound, hs⟩ := (Panic.mem_of_collectMany_eq_ok h).mp hs
  rw [datIdxSnapshots] at hfound
  split at hfound
  · cases hfound
    simp at hs
  · split at hfound
    · cases hfound
      simp at hs
    · rw [parseAndFilter, V2Record.parseMatchingSnapshots] at hfound
      exact parsed_of_collect hfound s hs

/-- Every window is parsed for the callsign. -/
lemma parsed_of_windowLoop {datOffset : ℕ} {windows : List ℕ} {decoded decoded' : Bytes}
    {snapshots : List CallSnapshot}
    (h : shard.windowLoop datOffset callsign windows decoded = .ok (snapshots, decoded')) :
    ∀ s ∈ snapshots, shard.Parsed callsign .hamCallHci s := by
  induction windows generalizing decoded with
  | nil =>
    rw [windowLoop, Panic.bind_eq_ok_iff] at h
    obtain ⟨found, hfound, h⟩ := h
    cases h
    exact parsed_of_collect hfound
  | cons maxLen rest ih =>
    rw [windowLoop, Panic.bind_eq_ok_iff] at h
    obtain ⟨found, hfound, h⟩ := h
    split_ifs at h with hne
    · cases h
      exact parsed_of_collect hfound
    · exact ih h

lemma parsed_of_decodeAndParseHciOffset {datOffset : ℕ} {decoded decoded' : Bytes}
    {snapshots : List CallSnapshot}
    (h : shard.decodeAndParseHciOffset datOffset callsign decoded = .ok (snapshots, decoded')) :
    ∀ s ∈ snapshots, shard.Parsed callsign .hamCallHci s := by
  rw [decodeAndParseHciOffset, Panic.bind_eq_ok_iff] at h
  obtain ⟨found, hfound, h⟩ := h
  split_ifs at h with hne
  · cases h
    exact parsed_of_collect hfound
  · exact parsed_of_windowLoop h

lemma parsed_of_hciSnapshotsAt {datOffset : ℕ} {snapshots : List CallSnapshot}
    (h : shard.hciSnapshotsAt callsign datOffset = .ok snapshots) :
    ∀ s ∈ snapshots, shard.Parsed callsign .hamCallHci s := by
  rw [hciSnapshotsAt] at h
  cases hrun : shard.decodeAndParseHciOffset datOffset callsign [] with
  | error e =>
    rw [hrun] at h
    cases h
  | ok found =>
    rw [hrun] at h
    cases h
    exact parsed_of_decodeAndParseHciOffset hrun

end V2Shard

namespace CallBook

variable {db : CallBook}

/-- Every snapshot of a lookup is parsed from a record of the shard. -/
theorem parsed_of_shardSnapshots {query : Str} {snapshots : List CallSnapshot}
    (h : db.shardSnapshots query = .ok snapshots) :
    ∀ s ∈ snapshots, ∃ shard ∈ db.v2, ∃ source, shard.Parsed query source s := by
  rw [shardSnapshots] at h
  split at h
  · cases h
    simp
  · rename_i shard hshard
    simp only [Panic.bind_eq_ok_iff] at h
    obtain ⟨fromIdx, hidx, fromHci, hhci, h⟩ := h
    cases h
    intro s hs
    rw [List.mem_append] at hs
    rcases hs with hs | hs
    · exact ⟨shard, hshard, _, V2Shard.parsed_of_lookupDatIdx hidx s hs⟩
    · obtain ⟨posting, -, found, hfound, hs⟩ := (V2Shard.mem_of_lookupHci_eq_ok _ hhci).mp hs
      exact ⟨shard, hshard, _, V2Shard.parsed_of_hciSnapshotsAt hfound s hs⟩

theorem answers_of_shardSnapshots {query : Str} {snapshots : List CallSnapshot}
    (hquery : ∀ b ∈ query, isCallsignChar b) (h : db.shardSnapshots query = .ok snapshots) :
    ∀ s ∈ snapshots, Answers query s := by
  intro s hs
  obtain ⟨shard, -, source, hparsed⟩ := parsed_of_shardSnapshots h s hs
  exact hparsed.answers hquery

/-- The catalog returns a record of the station asked for, up to case. -/
lemma callsign_of_lookupUsCurrent {query : Str} {record : UsCsvRecord}
    (hquery : ∀ b ∈ query, isCallsignChar b) (h : db.lookupUsCurrent query = some record) :
    toAsciiUppercase record.callsign = toAsciiUppercase query := by
  simp only [lookupUsCurrent, Option.bind_eq_bind, Option.bind_eq_some_iff] at h
  obtain ⟨v2, -, usCsv, -, h⟩ := h
  simp only [UsCsvFile.get, Option.bind_eq_bind, Option.bind_eq_some_iff,
    UsCsvFile.normalizedLookupKey, Option.ite_none_right_eq_some, Option.some.injEq] at h
  obtain ⟨target, ⟨-, rfl⟩, h⟩ := h
  rw [← usCsv.keyed _ _ h, Utf8.trim_eq_self]
  exact fun b hb => Callsign.isAsciiGraphic_of_isCallsignChar (hquery b hb)

/-- A report comes from the snapshots of the shard, merged into the current-US record. -/
lemma lookupReport_eq_ok_iff {callsign : Str} {r : LookupResult} :
    db.lookupReport callsign = .ok (.ok r) ↔ ∃ key snapshots, Callsign.parse callsign = .ok key ∧
      db.shardSnapshots key.asStr = .ok snapshots ∧
      r = report key.asStr (snapshots.foldl mergeSnapshot
        ((db.lookupUsCurrent key.asStr).map CallSnapshot.fromUsCsv, [])) := by
  rw [lookupReport_eq_answer, answer]
  cases Callsign.parse callsign with
  | error e => simp
  | ok key =>
    cases hs : db.shardSnapshots key.asStr with
    | error e => simp [Except.map, hs]
    | ok snapshots => simp [Except.map, hs, eq_comm]

/-- A lookup starts from the current-US record alone. -/
lemma merged_lookupUsCurrent {query : Str} (hquery : ∀ b ∈ query, isCallsignChar b) :
    Merged query ((db.lookupUsCurrent query).map CallSnapshot.fromUsCsv, []) := by
  refine ⟨fun s hs => ?_, by simp, List.nodup_nil⟩
  rw [Option.mem_def, Option.map_eq_some_iff] at hs
  obtain ⟨record, hrecord, rfl⟩ := hs
  exact ⟨rfl, callsign_of_lookupUsCurrent hquery hrecord, sourcesOrdered_singleton .usCsv⟩

/-- A report lists every source of every snapshot that the shard contributes. -/
theorem lists_of_lookupReport {callsign : Str} {r : LookupResult} {key : Callsign}
    {snapshots : List CallSnapshot} (h : db.lookupReport callsign = .ok (.ok r))
    (hkey : Callsign.parse callsign = .ok key)
    (hsnapshots : db.shardSnapshots key.asStr = .ok snapshots) {s : CallSnapshot}
    (hs : s ∈ snapshots) {source : SnapshotSource} (hsource : source ∈ s.sources) :
    Lists r.current r.history s.vintage source := by
  obtain ⟨key', snapshots', hkey', hsnapshots', rfl⟩ := lookupReport_eq_ok_iff.mp h
  obtain rfl : key' = key := Except.ok.inj (hkey'.symm.trans hkey)
  obtain rfl : snapshots' = snapshots := Except.ok.inj (hsnapshots'.symm.trans hsnapshots)
  have hlists := lists_foldl ((db.lookupUsCurrent key'.asStr).map CallSnapshot.fromUsCsv, [])
    (.inr ⟨s, hs, rfl, hsource⟩)
  rw [report]
  cases hvintage : s.vintage with
  | none => rwa [hvintage] at hlists
  | some year =>
    rw [hvintage] at hlists
    obtain ⟨item, hitem, hyear, hsource⟩ := hlists
    exact ⟨item, (StableSort.mem_sortBy _).mpr hitem, hyear, hsource⟩

/-- Every report keeps its promises. -/
theorem invariant_of_lookupReport {callsign : Str} {r : LookupResult}
    (h : db.lookupReport callsign = .ok (.ok r)) :
    r.Invariant ∧ ∃ key, Callsign.parse callsign = .ok key ∧ r.query = key.asStr := by
  obtain ⟨key, snapshots, hkey, hsnapshots, rfl⟩ := lookupReport_eq_ok_iff.mp h
  have hquery := key.asStr_spec.2.2
  exact ⟨invariant_report (merged_foldl (merged_lookupUsCurrent hquery)
    (answers_of_shardSnapshots hquery hsnapshots)), key, hkey, rfl⟩

/-- A tree with a current and an archive record of one station. -/
def sampleFiles : Files where
  idx := ascii "W1AW 1\r\nW1AW:1999 11\r\n"
  dat := decodeDat (0 :: (0xb5 :: ascii "W1AW" ++ 0xba :: ascii "ARRL") ++
    (0xb5 :: ascii "W1AW:1999" ++ 0xba :: ascii "HQ"))
  hci := none
  usCsv := none
  countries := none
  pcCountries := none
  interests := none

theorem invariant_of_lookupReport_sampleFiles :
    ∃ db r, CallBook.open sampleFiles = .ok (.ok db) ∧
      db.lookupReport (ascii "w1aw") = .ok (.ok r) ∧ r.history.length = 1 ∧ r.current.isSome ∧
      r.Invariant ∧ ∃ key, Callsign.parse (ascii "w1aw") = .ok key ∧ r.query = key.asStr := by
  have hrun : (returned (CallBook.open sampleFiles)).any fun db =>
      (returned (db.lookupReport (ascii "w1aw"))).any fun r =>
        r.history.length == 1 && r.current.isSome := by decide +kernel
  simp only [Option.any_eq_true, returned_eq_some_iff, Bool.and_eq_true, beq_iff_eq] at hrun
  obtain ⟨db, hopen, r, hr, hlen, hcurrent⟩ := hrun
  exact ⟨db, r, hopen, hr, hlen, hcurrent, invariant_of_lookupReport hr⟩

end CallBook

end Callbook
