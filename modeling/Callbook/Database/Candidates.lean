import Callbook.Dat.Scores
import Callbook.Database.Basic

/-!
# Decode candidates

A slice can be read with any of 101 phases, and the candidates are ranked by a score of their text.
The best candidate is the one with the phase of the offset, which reads the slice as the file is
read, whatever the others score. On a slice that this phase reads as text and tags only, no other
phase scores more by its bytes.
-/

namespace Callbook

open Text

namespace V2Dat

/-- The candidate of a phase. -/
def candidate (datOffset : ℕ) (rawBytes idxKey : Bytes) (phase : UInt8) : DecodedV2Candidate :=
  let bytes := decodePhase datOffset rawBytes phase
  ⟨phase, bytes, scoreCandidate bytes idxKey⟩

/-- Higher scores first, then smaller phases. -/
def candidateOrder (a b : DecodedV2Candidate) : Ordering :=
  (compare b.score a.score).then (compare a.phase b.phase)

/-- `decode_candidates`. -/
def decodeCandidates (datOffset : ℕ) (rawBytes idxKey : Bytes) : List DecodedV2Candidate :=
  StableSort.sortBy candidateOrder
    ((List.range 101).map fun phase => candidate datOffset rawBytes idxKey (UInt8.ofNat phase))

instance : Std.TransCmp candidateOrder :=
  haveI : Std.TransCmp (compareOn DecodedV2Candidate.score) := inferInstance
  inferInstanceAs (Std.TransCmp (compareLex (fun a b => compareOn DecodedV2Candidate.score b a)
    (compareOn DecodedV2Candidate.phase)))

lemma notGreater_candidateOrder_iff {a b : DecodedV2Candidate} :
    StableSort.NotGreater candidateOrder a b ↔
      b.score < a.score ∨ a.score = b.score ∧ a.phase ≤ b.phase := by
  have hgt : candidateOrder a b = .gt ↔
      a.score < b.score ∨ b.score = a.score ∧ b.phase < a.phase := by
    rw [candidateOrder, Ordering.then_eq_gt, Std.compare_eq_gt, Std.compare_eq_iff_eq,
      Std.compare_eq_gt]
  rw [StableSort.NotGreater, Ne, hgt]
  simp only [Int32.lt_iff_toInt_lt, UInt8.lt_iff_toNat_lt, UInt8.le_iff_toNat_le, ← Int32.toInt_inj]
  omega

/-! ### Readings of a slice -/

section Readings

variable (datOffset : ℕ) (rawBytes idxKey : Bytes)

/-- The phase of the offset reads a slice as the file is read. -/
lemma bestCandidate_eq : bestCandidate datOffset rawBytes idxKey =
    some ⟨phaseForDatOffset datOffset, Keystream.applyFrom decodeDatByte datOffset rawBytes,
      scoreCandidate (Keystream.applyFrom decodeDatByte datOffset rawBytes) idxKey⟩ := by
  rw [bestCandidate, decodePhase, decodePhaseInto_phaseForDatOffset]

lemma mem_decodeCandidates {c : DecodedV2Candidate} :
    c ∈ decodeCandidates datOffset rawBytes idxKey ↔
      ∃ phase < 101, candidate datOffset rawBytes idxKey (UInt8.ofNat phase) = c := by
  rw [decodeCandidates, StableSort.mem_sortBy, List.mem_map]
  simp only [List.mem_range]

variable {datOffset rawBytes idxKey} in
/-- A candidate is determined by its phase. -/
lemma candidate_phase {c : DecodedV2Candidate}
    (h : c ∈ decodeCandidates datOffset rawBytes idxKey) :
    candidate datOffset rawBytes idxKey c.phase = c := by
  obtain ⟨phase, -, rfl⟩ := (mem_decodeCandidates _ _ _).mp h
  rfl

/-- There is one candidate for each phase. -/
lemma length_decodeCandidates : (decodeCandidates datOffset rawBytes idxKey).length = 101 := by
  rw [decodeCandidates, (StableSort.sortBy_perm _ _).length_eq, List.length_map, List.length_range]

/-- The first candidate is the one that stands before all others. -/
lemma head?_decodeCandidates_iff {best : DecodedV2Candidate}
    (hbest : best ∈ decodeCandidates datOffset rawBytes idxKey) :
    (decodeCandidates datOffset rawBytes idxKey).head? = some best ↔
      ∀ c ∈ decodeCandidates datOffset rawBytes idxKey,
        c.score < best.score ∨ best.score = c.score ∧ best.phase ≤ c.phase := by
  have hsorted := StableSort.sorted_sortBy candidateOrder
    ((List.range 101).map fun phase => candidate datOffset rawBytes idxKey (UInt8.ofNat phase))
  rw [← decodeCandidates] at hsorted
  cases hcandidates : decodeCandidates datOffset rawBytes idxKey with
  | nil =>
    rw [hcandidates] at hbest
    cases hbest
  | cons first rest =>
    rw [hcandidates, List.pairwise_cons] at hsorted
    rw [List.head?_cons, Option.some.injEq]
    constructor
    · rintro rfl c hc
      rcases List.mem_cons.mp hc with rfl | hc
      · exact .inr ⟨rfl, UInt8.le_refl _⟩
      · exact notGreater_candidateOrder_iff.mp (hsorted.1 c hc)
    · intro h
      have hfirst := h first List.mem_cons_self
      have hbest' : best ∈ first :: rest := hcandidates ▸ hbest
      rcases List.mem_cons.mp hbest' with rfl | hrest
      · rfl
      · -- neither stands behind the other, so they have one phase
        have hback := notGreater_candidateOrder_iff.mp (hsorted.1 best hrest)
        have hphase : first.phase = best.phase := by
          simp only [Int32.lt_iff_toInt_lt, UInt8.le_iff_toNat_le, ← Int32.toInt_inj,
            ← UInt8.toNat_inj] at hfirst hback ⊢
          omega
        have hmem : first ∈ decodeCandidates datOffset rawBytes idxKey := by
          rw [hcandidates]
          exact List.mem_cons_self
        rw [← candidate_phase hmem, ← candidate_phase hbest, hphase]

end Readings

/-- The phase of the offset reads a slice as text and tags only, and shows every part of the key
that another phase shows. -/
structure ReadsCleanly (datOffset : ℕ) (rawBytes idxKey : Bytes) : Prop where
  length_le : rawBytes.length ≤ 2 ^ 28
  clean : IsClean (decodePhase datOffset rawBytes (phaseForDatOffset datOffset))
  showsMost : ∀ phase < 101, ∀ part,
    shows idxKey (decodePhase datOffset rawBytes (UInt8.ofNat phase)) part →
      shows idxKey (decodePhase datOffset rawBytes (phaseForDatOffset datOffset)) part

/-- A phase reads some byte as neither text nor a tag, or it does not show a part of the key that
the phase of the offset shows. -/
def FallsShort (datOffset : ℕ) (rawBytes idxKey : Bytes) (phase : ℕ) : Prop :=
  ¬ IsClean (decodePhase datOffset rawBytes (UInt8.ofNat phase)) ∨
    ∃ part, shows idxKey (decodePhase datOffset rawBytes (phaseForDatOffset datOffset)) part ∧
      ¬ shows idxKey (decodePhase datOffset rawBytes (UInt8.ofNat phase)) part

section Scores

variable {datOffset : ℕ} {rawBytes idxKey : Bytes}

lemma toInt_scoreCandidate_decodePhase (hlen : rawBytes.length ≤ 2 ^ 28) (phase : UInt8) :
    (scoreCandidate (decodePhase datOffset rawBytes phase) idxKey).toInt =
      ((decodePhase datOffset rawBytes phase).map byteScore).sum +
        keyScore idxKey (decodePhase datOffset rawBytes phase) := by
  apply toInt_scoreCandidate
  rwa [decodePhase, (decodePhaseInto_spec datOffset rawBytes phase []).1]

/-- On a slice that the phase of the offset reads cleanly, no phase scores more, and those that fall
short score less. -/
lemma ReadsCleanly.score_le (h : ReadsCleanly datOffset rawBytes idxKey) {phase : ℕ}
    (hphase : phase < 101) :
    let own := scoreCandidate (decodePhase datOffset rawBytes (phaseForDatOffset datOffset)) idxKey
    let score := scoreCandidate (decodePhase datOffset rawBytes (UInt8.ofNat phase)) idxKey
    score.toInt ≤ own.toInt ∧
      (score.toInt < own.toInt ↔ FallsShort datOffset rawBytes idxKey phase) := by
  obtain ⟨hbytes, hclean⟩ :=
    sum_byteScore_decodePhase_le datOffset rawBytes (UInt8.ofNat phase)
  have hown := (sum_byteScore_decodePhase_le datOffset rawBytes
    (phaseForDatOffset datOffset)).2.mpr h.clean
  obtain ⟨hparts, hmore⟩ := keyScore_le (h.showsMost phase hphase)
  simp only [toInt_scoreCandidate_decodePhase h.length_le, FallsShort, ← hclean, ← hmore]
  omega

end Scores

end V2Dat

/-- `RawV2Record::decoded_candidates`. -/
def RawV2Record.decodedCandidates (raw : RawV2Record) : List DecodedV2Candidate :=
  V2Dat.decodeCandidates raw.datOffset raw.rawBytes raw.key

/-- The best candidate scores at least as high as every candidate, and is the first of them. -/
def RawV2Record.BestIsFirst (raw : RawV2Record) : Prop :=
  ∃ best, raw.bestDecodedCandidate = some best ∧
    (∀ c ∈ raw.decodedCandidates, c.score ≤ best.score) ∧
    raw.decodedCandidates.head? = some best

/-- The best candidate is the first where its score is the highest, and higher than those of
smaller phases. -/
lemma bestIsFirst_iff_scores (raw : RawV2Record) : raw.BestIsFirst ↔
    ∀ phase < 101,
      let own := V2Dat.scoreCandidate (V2Dat.decodePhase raw.datOffset raw.rawBytes
        (V2Dat.phaseForDatOffset raw.datOffset)) raw.key
      let score := V2Dat.scoreCandidate
        (V2Dat.decodePhase raw.datOffset raw.rawBytes (UInt8.ofNat phase)) raw.key
      score.toInt < own.toInt ∨ own.toInt = score.toInt ∧
        (V2Dat.phaseForDatOffset raw.datOffset).toNat ≤ phase := by
  have hlt : (raw.datOffset % 101 * 2 + 3) % 101 < 101 := Nat.mod_lt _ (by decide)
  have hmem : V2Dat.candidate raw.datOffset raw.rawBytes raw.key
      (V2Dat.phaseForDatOffset raw.datOffset) ∈ raw.decodedCandidates :=
    (V2Dat.mem_decodeCandidates _ _ _).mpr ⟨_, hlt, rfl⟩
  have hhead := V2Dat.head?_decodeCandidates_iff _ _ _ hmem
  rw [← RawV2Record.decodedCandidates] at hhead
  have hscores : raw.BestIsFirst ↔ ∀ c ∈ raw.decodedCandidates,
      c.score < (V2Dat.candidate raw.datOffset raw.rawBytes raw.key
          (V2Dat.phaseForDatOffset raw.datOffset)).score ∨
        (V2Dat.candidate raw.datOffset raw.rawBytes raw.key
            (V2Dat.phaseForDatOffset raw.datOffset)).score = c.score ∧
          V2Dat.phaseForDatOffset raw.datOffset ≤ c.phase := by
    constructor
    · rintro ⟨best, hbest, -, hfirst⟩
      cases hbest
      exact hhead.mp hfirst
    · intro h
      refine ⟨_, rfl, fun c hc => ?_, hhead.mpr h⟩
      have hc := h c hc
      simp only [Int32.lt_iff_toInt_lt, Int32.le_iff_toInt_le, ← Int32.toInt_inj] at hc ⊢
      exact hc.elim (fun h => h.le) fun h => h.1.ge
  rw [hscores]
  simp only [RawV2Record.decodedCandidates, V2Dat.mem_decodeCandidates, forall_exists_index,
    and_imp]
  constructor
  · intro h phase hphase
    have hc := h _ phase hphase rfl
    simp only [V2Dat.candidate, Int32.lt_iff_toInt_lt, UInt8.le_iff_toNat_le, ← Int32.toInt_inj,
      UInt8.toNat_ofNat'] at hc
    rwa [Nat.mod_eq_of_lt (by omega : phase < 2 ^ 8)] at hc
  · rintro h c phase hphase rfl
    have hc := h phase hphase
    simp only [V2Dat.candidate, Int32.lt_iff_toInt_lt, UInt8.le_iff_toNat_le, ← Int32.toInt_inj,
      UInt8.toNat_ofNat']
    rwa [Nat.mod_eq_of_lt (by omega : phase < 2 ^ 8)]

/-- On a slice that the phase of its offset reads cleanly, the best candidate is the best exactly
when all smaller phases fall short. -/
theorem bestIsFirst_iff_fallsShort (raw : RawV2Record)
    (h : V2Dat.ReadsCleanly raw.datOffset raw.rawBytes raw.key) :
    raw.BestIsFirst ↔ ∀ phase < (V2Dat.phaseForDatOffset raw.datOffset).toNat,
      V2Dat.FallsShort raw.datOffset raw.rawBytes raw.key phase := by
  have hown : (V2Dat.phaseForDatOffset raw.datOffset).toNat < 101 := by
    have hlt := Nat.mod_lt (raw.datOffset % 101 * 2 + 3) (by decide : 0 < 101)
    rw [V2Dat.phaseForDatOffset, UInt8.toNat_ofNat', Nat.mod_eq_of_lt (by omega)]
    exact hlt
  rw [bestIsFirst_iff_scores]
  constructor
  · intro hscores phase hphase
    have hscore := h.score_le (hphase.trans hown)
    have hbest := hscores phase (hphase.trans hown)
    simp only at hscore hbest
    rw [← hscore.2]
    omega
  · intro hshort phase hphase
    have hscore := h.score_le hphase
    simp only at hscore ⊢
    by_cases hsmaller : phase < (V2Dat.phaseForDatOffset raw.datOffset).toNat
    · exact .inl (hscore.2.mpr (hshort phase hsmaller))
    · omega

/-- An archive record behind its callsign, as the file has it at offset 48. -/
def suffixSlice : RawV2Record :=
  ⟨ascii "N0CALL:2010", 48, 11,
    V2Dat.decodePhase 48 (ascii ":2010" ++ 0xb6 :: ascii "A" ++ 0xba :: ascii "Bob") 99⟩

theorem bestIsFirst_iff_fallsShort_suffixSlice : suffixSlice.BestIsFirst := by
  have hshort : V2Dat.shows suffixSlice.key (V2Dat.decodePhase suffixSlice.datOffset
      suffixSlice.rawBytes (V2Dat.phaseForDatOffset suffixSlice.datOffset)) .suffix ∧
      ∀ phase < 101, phase ≠ 99 → ∀ part ∈ [.whole, .call, .suffix],
        ¬ V2Dat.shows suffixSlice.key (V2Dat.decodePhase suffixSlice.datOffset
          suffixSlice.rawBytes (UInt8.ofNat phase)) part := by decide +kernel
  have hparts : ∀ part : V2Dat.KeyPart, part ∈ [.whole, .call, .suffix] := by
    rintro (_ | _ | _) <;> decide
  refine (bestIsFirst_iff_fallsShort suffixSlice ⟨by decide +kernel, by decide +kernel, ?_⟩).mpr ?_
  · intro phase hphase part hpart
    by_cases hown : phase = 99
    · rwa [hown] at hpart
    · exact absurd hpart (hshort.2 phase hphase hown part (hparts part))
  · intro phase hphase
    have hlt : phase < 99 := hphase
    exact .inr ⟨.suffix, hshort.1, hshort.2 phase (by omega) (by omega) _ (hparts _)⟩

/-- One byte that the file has as a control character, and other phases read as text. -/
def controlSlice : RawV2Record := ⟨ascii "W1AW", 0, 1, [2]⟩

/-- The best candidate of this slice scores less than another one. -/
theorem not_bestIsFirst_controlSlice : ¬ ∀ raw : RawV2Record, raw.datOffset < 2 ^ 62 →
    raw.BestIsFirst := by
  intro h
  obtain ⟨best, hbest, hscores, -⟩ := h controlSlice (by decide)
  rw [RawV2Record.bestDecodedCandidate, V2Dat.bestCandidate_eq, Option.some.injEq] at hbest
  have hmem : V2Dat.candidate 0 [2] (ascii "W1AW") 35 ∈ controlSlice.decodedCandidates :=
    (V2Dat.mem_decodeCandidates _ _ _).mpr ⟨35, by decide, rfl⟩
  have hle := hscores _ hmem
  rw [← hbest] at hle
  exact absurd hle (by decide +kernel)

end Callbook
