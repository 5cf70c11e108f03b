import Callbook.Database.Basic
import Callbook.Library.Panic

/-!
# What a lookup returns

A lookup hands a buffer and two lists from step to step. Its answer does not depend on what they
hold at the start: `lookupHci` and `answer` say what it is without them.
-/

namespace Callbook

namespace V2Shard

variable (shard : V2Shard)

/-! ### One posting -/

/-- The buffer handed in is cleared before it is filled. -/
lemma decodeAndParseHciOffset_buffer (datOffset : ℕ) (callsign : Str) (decoded decoded' : Bytes) :
    shard.decodeAndParseHciOffset datOffset callsign decoded =
      shard.decodeAndParseHciOffset datOffset callsign decoded' := by
  have hbuffer : shard.decodeHciPostingRecordInto datOffset decoded =
      shard.decodeHciPostingRecordInto datOffset decoded' := rfl
  rw [decodeAndParseHciOffset, decodeAndParseHciOffset, hbuffer]

/-- The snapshots that a posting leads to. -/
def hciSnapshotsAt (callsign : Str) (datOffset : ℕ) : Except Panic (List CallSnapshot) :=
  (shard.decodeAndParseHciOffset datOffset callsign []).map Prod.fst

/-- `visitPosting` without the buffer. -/
def collectPosting (callsign : Str) (lists : Finset ℕ × List CallSnapshot) (posting : HciPosting) :
    Except Panic (Finset ℕ × List CallSnapshot) :=
  if posting.datOffset ∈ lists.1 then .ok lists
  else do
    let snapshots ← shard.hciSnapshotsAt callsign posting.datOffset
    pure (insert posting.datOffset lists.1, lists.2 ++ snapshots)

/-- The lists of a scratch. -/
def lists (scratch : LookupScratch) : Finset ℕ × List CallSnapshot :=
  (scratch.hciSeenOffsets, scratch.hciSnapshots)

lemma map_visitPosting (callsign : Str) (scratch : LookupScratch) (posting : HciPosting) :
    (shard.visitPosting callsign scratch posting).map lists =
      shard.collectPosting callsign (lists scratch) posting := by
  rw [visitPosting, collectPosting, hciSnapshotsAt,
    shard.decodeAndParseHciOffset_buffer _ _ scratch.hciDecoded []]
  have hlists : (lists scratch).1 = scratch.hciSeenOffsets := rfl
  rw [hlists]
  by_cases hseen : posting.datOffset ∈ scratch.hciSeenOffsets
  · rw [if_pos hseen, if_pos hseen]
    rfl
  · rw [if_neg hseen, if_neg hseen]
    cases shard.decodeAndParseHciOffset posting.datOffset callsign [] <;> rfl

/-! ### All postings -/

/-- The postings that a lookup visits. -/
def hciPostings (callsign : Str) : List HciPosting :=
  match shard.hci with
  | none => []
  | some hci => (hciLookupKeys callsign hci.publicationYears).flatMap hci.postingsForKey

/-- `lookupHciInto` without a scratch. -/
def lookupHci (callsign : Str) : Except Panic (List CallSnapshot) :=
  ((shard.hciPostings callsign).foldlM (shard.collectPosting callsign) (∅, [])).map Prod.snd

theorem map_lookupHciInto (callsign : Str) (scratch : LookupScratch) :
    (shard.lookupHciInto callsign scratch).map LookupScratch.hciSnapshots =
      shard.lookupHci callsign := by
  rw [lookupHciInto, lookupHci, hciPostings]
  cases shard.hci with
  | none => rfl
  | some hci =>
    have hfold := Panic.map_foldlM (shard.map_visitPosting callsign)
      ((hciLookupKeys callsign hci.publicationYears).flatMap hci.postingsForKey)
      ⟨scratch.hciDecoded, ∅, []⟩
    simp only [lists] at hfold
    simp only [← hfold]
    cases List.foldlM (shard.visitPosting callsign) ⟨scratch.hciDecoded, ∅, []⟩
      ((hciLookupKeys callsign hci.publicationYears).flatMap hci.postingsForKey) <;> rfl

/-- The lists after some postings: all of these were read, and the snapshots are theirs. -/
structure Collected (callsign : Str) (postings : List HciPosting)
    (lists : Finset ℕ × List CallSnapshot) : Prop where
  seen : ∀ offset ∈ lists.1, ∃ posting ∈ postings, posting.datOffset = offset
  read : ∀ posting ∈ postings, ∃ found,
    shard.hciSnapshotsAt callsign posting.datOffset = .ok found ∧ ∀ s ∈ found, s ∈ lists.2
  origin : ∀ s ∈ lists.2, ∃ posting ∈ postings, ∃ found,
    shard.hciSnapshotsAt callsign posting.datOffset = .ok found ∧ s ∈ found

variable {shard}

/-- A posting is read unless one with its offset was. -/
lemma Collected.collectPosting {callsign : Str} {postings : List HciPosting} {posting : HciPosting}
    {before after : Finset ℕ × List CallSnapshot} (h : shard.Collected callsign postings before)
    (hstep : shard.collectPosting callsign before posting = .ok after) :
    shard.Collected callsign (postings ++ [posting]) after := by
  have hlast : posting ∈ postings ++ [posting] := List.mem_append_right _ List.mem_cons_self
  rw [V2Shard.collectPosting] at hstep
  split_ifs at hstep with hseen
  · cases hstep
    obtain ⟨other, hother, hoffset⟩ := h.seen _ hseen
    refine ⟨fun offset hoff => ?_, fun p hp => ?_, fun s hs => ?_⟩
    · obtain ⟨p, hp, heq⟩ := h.seen offset hoff
      exact ⟨p, List.mem_append_left _ hp, heq⟩
    · rcases List.mem_append.mp hp with hp | hp
      · exact h.read p hp
      · rw [List.mem_singleton.mp hp, ← hoffset]
        exact h.read other hother
    · obtain ⟨p, hp, hfound⟩ := h.origin s hs
      exact ⟨p, List.mem_append_left _ hp, hfound⟩
  · rw [Panic.bind_eq_ok_iff] at hstep
    obtain ⟨found, hfound, hafter⟩ := hstep
    cases hafter
    refine ⟨fun offset hoff => ?_, fun p hp => ?_, fun s hs => ?_⟩
    · rcases Finset.mem_insert.mp hoff with rfl | hoff
      · exact ⟨posting, hlast, rfl⟩
      · obtain ⟨p, hp, heq⟩ := h.seen offset hoff
        exact ⟨p, List.mem_append_left _ hp, heq⟩
    · rcases List.mem_append.mp hp with hp | hp
      · obtain ⟨old, hold, hin⟩ := h.read p hp
        exact ⟨old, hold, fun s hs => List.mem_append_left _ (hin s hs)⟩
      · rw [List.mem_singleton.mp hp]
        exact ⟨found, hfound, fun s hs => List.mem_append_right _ hs⟩
    · rcases List.mem_append.mp hs with hs | hs
      · obtain ⟨p, hp, hfrom⟩ := h.origin s hs
        exact ⟨p, List.mem_append_left _ hp, hfrom⟩
      · exact ⟨posting, hlast, found, hfound, hs⟩

lemma exists_collected_of_lookupHci {callsign : Str} {snapshots : List CallSnapshot}
    (h : shard.lookupHci callsign = .ok snapshots) :
    ∃ seen, shard.Collected callsign (shard.hciPostings callsign) (seen, snapshots) := by
  obtain ⟨⟨seen, _⟩, hfold, rfl⟩ := Panic.map_eq_ok_iff.mp h
  have hstart : shard.Collected callsign [] (∅, []) := ⟨by simp, by simp, by simp⟩
  exact ⟨seen, Panic.holds_of_foldlM_eq_ok (fun _ _ _ _ hbefore => hbefore.collectPosting) hstart
    hfold⟩

variable (shard)

/-- A finished HCI lookup returns what the postings lead to. -/
theorem mem_of_lookupHci_eq_ok {callsign : Str} {snapshots : List CallSnapshot}
    (h : shard.lookupHci callsign = .ok snapshots) {s : CallSnapshot} :
    s ∈ snapshots ↔ ∃ posting ∈ shard.hciPostings callsign, ∃ found,
      shard.hciSnapshotsAt callsign posting.datOffset = .ok found ∧ s ∈ found := by
  obtain ⟨seen, hcollected⟩ := exists_collected_of_lookupHci h
  constructor
  · exact hcollected.origin s
  · rintro ⟨posting, hposting, found, hfound, hs⟩
    obtain ⟨found', hfound', hin⟩ := hcollected.read posting hposting
    rw [hfound, Except.ok.injEq] at hfound'
    exact hin s (hfound' ▸ hs)

/-- A finished HCI lookup has read every posting. -/
lemma exists_hciSnapshotsAt_of_lookupHci {shard : V2Shard} {callsign : Str}
    {snapshots : List CallSnapshot} (h : shard.lookupHci callsign = .ok snapshots)
    {posting : HciPosting} (hposting : posting ∈ shard.hciPostings callsign) :
    ∃ found, shard.hciSnapshotsAt callsign posting.datOffset = .ok found := by
  obtain ⟨seen, hcollected⟩ := exists_collected_of_lookupHci h
  obtain ⟨found, hfound, -⟩ := hcollected.read posting hposting
  exact ⟨found, hfound⟩

end V2Shard

namespace CallBook

/-- The value of a run that neither panicked nor failed. -/
def returned {α : Type*} (run : Except Panic (Except Error α)) : Option α :=
  run.toOption.bind Except.toOption

lemma returned_eq_some_iff {α : Type*} {run : Except Panic (Except Error α)} {a : α} :
    returned run = some a ↔ run = .ok (.ok a) := by
  rcases run with _ | _ | _ <;> simp [returned, Except.toOption]

variable (db : CallBook)

/-- The snapshots that a lookup merges, in their order. -/
def shardSnapshots (query : Str) : Except Panic (List CallSnapshot) :=
  match db.v2 with
  | none => .ok []
  | some v2 => do
    let fromIdx ← v2.lookupDatIdx query
    let fromHci ← v2.lookupHci query
    pure (fromIdx ++ fromHci)

lemma map_mergeShard (query : Str) (state : MergeState) (scratch : LookupScratch) :
    (db.mergeShard query state scratch).map Prod.fst =
      (db.shardSnapshots query).map fun snapshots => snapshots.foldl mergeSnapshot state := by
  rw [mergeShard, shardSnapshots]
  cases db.v2 with
  | none => rfl
  | some v2 =>
    simp only [← v2.map_lookupHciInto query scratch]
    cases v2.lookupDatIdx query with
    | error e => rfl
    | ok fromIdx =>
      cases v2.lookupHciInto query scratch with
      | error e => rfl
      | ok after => exact congrArg Except.ok List.foldl_append.symm

/-- `lookup_report` without a scratch. -/
def answer (callsign : Str) : Except Panic (Except Error LookupResult) :=
  match Callsign.parse callsign with
  | .error e => .ok (.error e)
  | .ok key =>
    (db.shardSnapshots key.asStr).map fun snapshots =>
      .ok (report key.asStr (snapshots.foldl mergeSnapshot
        ((db.lookupUsCurrent key.asStr).map CallSnapshot.fromUsCsv, [])))

theorem map_lookupReportWithScratch (callsign : Str) (scratch : LookupScratch) :
    (db.lookupReportWithScratch callsign scratch).map Prod.fst = db.answer callsign := by
  rw [lookupReportWithScratch, answer]
  cases Callsign.parse callsign with
  | error e => rfl
  | ok key =>
    have hmerge := db.map_mergeShard key.asStr
      ((db.lookupUsCurrent key.asStr).map CallSnapshot.fromUsCsv, []) scratch
    revert hmerge
    simp only
    cases db.mergeShard key.asStr
        ((db.lookupUsCurrent key.asStr).map CallSnapshot.fromUsCsv, []) scratch with
    | error e =>
      cases db.shardSnapshots key.asStr with
      | error e' => exact fun h => congrArg Except.error (Except.error.inj h)
      | ok snapshots => exact fun h => nomatch h
    | ok merged =>
      cases db.shardSnapshots key.asStr with
      | error e' => exact fun h => nomatch h
      | ok snapshots =>
        intro h
        simp only [Except.map, Except.ok.injEq] at h
        simp [bind, Except.bind, pure, Except.pure, Except.map, h]

theorem lookupReport_eq_answer (callsign : Str) :
    db.lookupReport callsign = db.answer callsign := by
  rw [← db.map_lookupReportWithScratch callsign .empty, lookupReport]
  cases db.lookupReportWithScratch callsign .empty <;> rfl

end CallBook

namespace BatchLookup

/-- A batch answers each query as a lookup of its own does, whatever scratch it starts with. -/
theorem run_eq_mapM_lookupReport (batch : BatchLookup) (queries : List Str) :
    (batch.run queries).map Prod.fst = queries.mapM batch.db.lookupReport := by
  induction queries generalizing batch with
  | nil => rfl
  | cons callsign rest ih =>
    rw [List.mapM_cons, run, lookup, CallBook.lookupReport_eq_answer,
      ← batch.db.map_lookupReportWithScratch callsign batch.scratch]
    cases batch.db.lookupReportWithScratch callsign batch.scratch with
    | error e => rfl
    | ok found =>
      have hrest := ih { batch with scratch := found.2 }
      simp only at hrest
      simp only [bind, Except.bind, pure, Except.pure, Except.map, ← hrest]
      cases run { batch with scratch := found.2 } rest <;> rfl

end BatchLookup

end Callbook
