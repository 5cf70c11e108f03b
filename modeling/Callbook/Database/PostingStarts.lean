import Callbook.Database.TraceEntries
import Callbook.Dat.Properties
import Callbook.Hci.Statistics
import Callbook.Library.Firsts
import Callbook.Library.Tally

/-!
# Postings and record starts

The HCI postings under callsign-looking keys should point at the starts of DAT records. The database
counts those that do not and keeps the first few of them.
-/

namespace Callbook

open Text

/-- One callsign-looking HCI posting that does not point at a DAT record start. -/
structure HciPostingStartInvariantSample where
  hciKey : Str
  datOffset : ℕ
  position : UInt8
  decodedByte : Option UInt8
  deriving DecidableEq, Repr

/-- Invariant check for callsign-looking HCI postings into `hamcall.dat`. -/
structure HciPostingStartInvariant where
  totalPostings : ℕ
  recordStartPostings : ℕ
  nonRecordStartPostings : ℕ
  outOfBoundsPostings : ℕ
  samples : List HciPostingStartInvariantSample
  deriving DecidableEq, Repr

/-- The sample of a posting. -/
def postingStartSample (key : Bytes) (posting : HciPosting) (decodedByte : Option UInt8) :
    HciPostingStartInvariantSample :=
  ⟨Utf8.fromUtf8Lossy key, posting.datOffset, posting.position, decodedByte⟩

/-- `push_hci_posting_start_sample`. -/
def pushHciPostingStartSample (report : HciPostingStartInvariant) (key : Bytes)
    (posting : HciPosting) (decodedByte : Option UInt8) : HciPostingStartInvariant :=
  if 20 ≤ report.samples.length then report
  else { report with samples := report.samples ++ [postingStartSample key posting decodedByte] }

/-- The decoded byte that a posting points at. -/
def decodedByteAt (encoded : Bytes) (datOffset : ℕ) : Option UInt8 :=
  encoded[datOffset]?.map (decodeDatByte datOffset)

namespace V2Shard

variable (shard : V2Shard)

/-- One visit of `callsign_hci_posting_start_invariant`. -/
def visitPostingStart (report : HciPostingStartInvariant) (visited : Bytes × HciPosting) :
    HciPostingStartInvariant :=
  let report := { report with totalPostings := report.totalPostings + 1 }
  match decodedByteAt shard.datMmap visited.2.datOffset with
  | some b =>
    if isSentinel b then { report with recordStartPostings := report.recordStartPostings + 1 }
    else
      pushHciPostingStartSample
        { report with nonRecordStartPostings := report.nonRecordStartPostings + 1 }
        visited.1 visited.2 (some b)
  | none =>
    pushHciPostingStartSample
      { report with outOfBoundsPostings := report.outOfBoundsPostings + 1 }
      visited.1 visited.2 none

/-- `V2Shard::callsign_hci_posting_start_invariant`. -/
def callsignHciPostingStartInvariant : Option HciPostingStartInvariant :=
  shard.hci.map fun hci => hci.visitCallsignPostings.foldl shard.visitPostingStart ⟨0, 0, 0, 0, []⟩

/-! ### What is counted -/

/-- A posting points at the start of the record that is found for it. -/
def PointsAtStart (posting : HciPosting) : Prop :=
  ∃ bounds, recordBoundsForHciPosting shard.datMmap posting.datOffset = some bounds ∧
    bounds.start = posting.datOffset

variable {shard}

lemma pointsAtStart_iff {posting : HciPosting} : shard.PointsAtStart posting ↔
    ∃ b, decodedByteAt shard.datMmap posting.datOffset = some b ∧ isSentinel b := by
  rw [decodedByteAt, ← getElem?_decodeDat, ← opensRecord_iff]
  constructor
  · rintro ⟨bounds, hbounds, hstart⟩
    have hspec := (recordBoundsForHciPosting_spec shard.datMmap posting.datOffset).2.1
    rw [← hstart]
    exact (hspec bounds hbounds).1.1.2
  · intro hopen
    obtain ⟨b, hb, -⟩ := opensRecord_iff.mp hopen
    have hlt := (List.getElem?_eq_some_iff.mp hb).1
    rw [length_decodeDat] at hlt
    refine ⟨⟨posting.datOffset, scanForward shard.datMmap shard.datMmap.length
      (posting.datOffset + 1), .hciPostingStart, none, none⟩, ?_, rfl⟩
    rw [recordBoundsForHciPosting, recordBoundsFromHciPostingStart,
      if_neg (by simpa [hlt] using hopen)]
    rfl

/-- The trace of a posting says whether it points at a start. -/
lemma postingMatchesRecordStart_iff {posting : HciPosting} {callsign : Str} {limit : ℕ}
    {trace : HciPostingTrace} (h : shard.traceHciPosting callsign limit posting = .ok trace) :
    trace.postingMatchesRecordStart = some true ↔ shard.PointsAtStart posting := by
  rw [traceHciPosting, Panic.bind_eq_ok_iff] at h
  obtain ⟨⟨snapshots, decoded⟩, -, h⟩ := h
  rw [PointsAtStart]
  cases hbounds : recordBoundsForHciPosting shard.datMmap posting.datOffset with
  | none =>
    simp only [hbounds] at h
    cases h
    simp
  | some bounds =>
    simp only [hbounds] at h
    cases h
    simp only [Option.some.injEq, beq_iff_eq, exists_eq_left']
    exact eq_comm

open scoped Classical in
/-- One visit. -/
lemma visitPostingStart_spec (report : HciPostingStartInvariant) (visited : Bytes × HciPosting) :
    let next := shard.visitPostingStart report visited
    next.totalPostings = report.totalPostings + 1 ∧
      next.recordStartPostings =
        report.recordStartPostings + (if shard.PointsAtStart visited.2 then 1 else 0) ∧
      next.nonRecordStartPostings = report.nonRecordStartPostings +
        (if visited.2.datOffset < shard.datMmap.length ∧ ¬ shard.PointsAtStart visited.2 then 1
          else 0) ∧
      next.outOfBoundsPostings = report.outOfBoundsPostings +
        (if shard.datMmap.length ≤ visited.2.datOffset then 1 else 0) ∧
      next.samples =
        if report.samples.length < 20 then
          report.samples ++
            (if shard.PointsAtStart visited.2 then none
              else some (postingStartSample visited.1 visited.2
                (decodedByteAt shard.datMmap visited.2.datOffset))).toList
        else report.samples := by
  rw [pointsAtStart_iff, visitPostingStart]
  cases hbyte : decodedByteAt shard.datMmap visited.2.datOffset with
  | none =>
    have hlength : shard.datMmap.length ≤ visited.2.datOffset := by
      simpa [decodedByteAt] using hbyte
    by_cases hfull : 20 ≤ report.samples.length
    · simp [pushHciPostingStartSample, hfull, hlength]
    · simp [pushHciPostingStartSample, hfull, hlength, not_le.mp hfull]
  | some b =>
    have hlength : visited.2.datOffset < shard.datMmap.length := by
      by_contra hle
      simp [decodedByteAt, not_lt.mp hle] at hbyte
    by_cases hsentinel : isSentinel b
    · simp [hsentinel, hlength]
    · by_cases hfull : 20 ≤ report.samples.length
      · simp [pushHciPostingStartSample, hsentinel, hfull, hlength]
      · simp [pushHciPostingStartSample, hsentinel, hfull, hlength, not_le.mp hfull]

lemma PointsAtStart.lt {posting : HciPosting} (h : shard.PointsAtStart posting) :
    posting.datOffset < shard.datMmap.length := by
  obtain ⟨b, hb, -⟩ := pointsAtStart_iff.mp h
  by_contra hle
  simp [decodedByteAt, not_lt.mp hle] at hb

open scoped Classical in
/-- A posting is counted in one of three ways. -/
lemma length_eq_filters (visited : List (Bytes × HciPosting)) :
    visited.length = (visited.filter fun v => shard.PointsAtStart v.2).length +
      (visited.filter fun v =>
        v.2.datOffset < shard.datMmap.length ∧ ¬ shard.PointsAtStart v.2).length +
      (visited.filter fun v => shard.datMmap.length ≤ v.2.datOffset).length := by
  induction visited with
  | nil => rfl
  | cons v visited ih =>
    rw [List.length_cons, ih, List.filter_cons, List.filter_cons, List.filter_cons]
    by_cases hstart : shard.PointsAtStart v.2
    · rw [if_pos (by simpa using hstart), if_neg (by simp [hstart]),
        if_neg (by simpa using hstart.lt), List.length_cons]
      omega
    · rcases lt_or_ge v.2.datOffset shard.datMmap.length with hlt | hle
      · rw [if_neg (by simpa using hstart), if_pos (by simp [hstart, hlt]),
          if_neg (by simpa using hlt), List.length_cons]
        omega
      · rw [if_neg (by simpa using hstart), if_neg (by simp [hle]), if_pos (by simpa using hle),
          List.length_cons]
        omega

open scoped Classical in
/-- The report counts every posting under a callsign-looking key once: as one that points at the
start of its record, as one that points elsewhere into the file, or as one that points behind it.
Its samples are the first twenty that point at no start, and a trace agrees with it on every
posting. -/
theorem callsignHciPostingStartInvariant_spec {hci : HciFile} (hhci : shard.hci = some hci) :
    ∃ report, shard.callsignHciPostingStartInvariant = some report ∧
      report.totalPostings = hci.visitCallsignPostings.length ∧
      report.totalPostings = report.recordStartPostings + report.nonRecordStartPostings +
        report.outOfBoundsPostings ∧
      report.recordStartPostings =
        (hci.visitCallsignPostings.filter fun v => shard.PointsAtStart v.2).length ∧
      report.outOfBoundsPostings = (hci.visitCallsignPostings.filter fun v =>
        shard.datMmap.length ≤ v.2.datOffset).length ∧
      report.samples = ((hci.visitCallsignPostings.filter fun v =>
        ¬ shard.PointsAtStart v.2).take 20).map (fun v =>
          postingStartSample v.1 v.2 (decodedByteAt shard.datMmap v.2.datOffset)) ∧
      ∀ callsign limit posting trace, shard.traceHciPosting callsign limit posting = .ok trace →
        (trace.postingMatchesRecordStart = some true ↔ shard.PointsAtStart posting) := by
  have hvisit := @visitPostingStart_spec shard
  have htotal := Tally.measure_foldl (m := HciPostingStartInvariant.totalPostings)
    (w := fun _ => 1) (fun r v => (hvisit r v).1)
    hci.visitCallsignPostings ⟨0, 0, 0, 0, []⟩
  have hstart := Tally.count_foldl (m := HciPostingStartInvariant.recordStartPostings)
    (fun r v => (hvisit r v).2.1)
    hci.visitCallsignPostings ⟨0, 0, 0, 0, []⟩
  have hother := Tally.count_foldl (m := HciPostingStartInvariant.nonRecordStartPostings)
    (fun r v => (hvisit r v).2.2.1)
    hci.visitCallsignPostings ⟨0, 0, 0, 0, []⟩
  have hbehind := Tally.count_foldl (m := HciPostingStartInvariant.outOfBoundsPostings)
    (fun r v => (hvisit r v).2.2.2.1)
    hci.visitCallsignPostings ⟨0, 0, 0, 0, []⟩
  have hsamples := take_foldl (m := HciPostingStartInvariant.samples)
    (fun r v => (hvisit r v).2.2.2.2)
    hci.visitCallsignPostings (s := ⟨0, 0, 0, 0, []⟩) (Nat.zero_le 20)
  simp only [Nat.zero_add, List.map_const', List.sum_replicate, smul_eq_mul, Nat.mul_one,
    List.nil_append] at htotal hstart hother hbehind hsamples
  rw [callsignHciPostingStartInvariant, hhci]
  refine ⟨_, rfl, htotal, ?_, hstart, hbehind, ?_,
    fun _ _ _ _ => postingMatchesRecordStart_iff⟩
  · rw [htotal, hstart, hother, hbehind]
    exact length_eq_filters _
  · rw [hsamples, List.map_take, ← List.filterMap_eq_filter, List.map_filterMap]
    congr 1
    refine List.filterMap_congr fun v _ => ?_
    by_cases h : shard.PointsAtStart v.2 <;> simp [h, Option.guard]

theorem callsignHciPostingStartInvariant_sharedPair : ∃ report,
    (hciShard .sharedPair).callsignHciPostingStartInvariant = some report ∧
      report.totalPostings = report.recordStartPostings + report.nonRecordStartPostings +
        report.outOfBoundsPostings := by
  obtain ⟨report, hreport, -, hsum, -⟩ :=
    @callsignHciPostingStartInvariant_spec (hciShard .sharedPair) _ rfl
  exact ⟨report, hreport, hsum⟩

end V2Shard

/-- `CallBook::callsign_hci_posting_start_invariant`. -/
def CallBook.callsignHciPostingStartInvariant (db : CallBook) : Option HciPostingStartInvariant :=
  db.v2.bind V2Shard.callsignHciPostingStartInvariant

end Callbook
