import Callbook.Dat.Basic

/-!
# The chunked decoder and the record bounds

The chunked decoder starts its key cycle from the offset and the phase of a slice; byte by byte it
is the decoder of absolute positions. The bounds that the two scans find are the nearest record
starts around an offset.
-/

namespace Callbook

namespace V2Dat

/-! ### The chunked decoder -/

/-- Whatever the buffer held, a slice is decoded by one stream. -/
lemma decodePhaseInto_eq_applyFrom (datOffset : ℕ) (rawBytes : Bytes) (phase : UInt8)
    (out : Bytes) :
    decodePhaseInto datOffset rawBytes phase out =
      Keystream.applyFrom (fun i b => (b ^^^ 7) ^^^ UInt8.ofNat (i % 101))
        ((1 - (datOffset : ℤ) + phase.toNat) % 101).toNat rawBytes := by
  rw [decodePhaseInto, decodeRounds_eq _ _ _ _ le_rfl (by omega), clear, List.nil_append]

/-- The chunked decoder is the per-byte stream, and with the phase of its offset it is the decoder
of absolute positions. -/
theorem decodePhaseInto_spec (datOffset : ℕ) (rawBytes : Bytes) (phase : UInt8) (out : Bytes) :
    (decodePhaseInto datOffset rawBytes phase out).length = rawBytes.length ∧
      ∀ (i : ℕ) (encoded : UInt8), rawBytes[i]? = some encoded →
        (decodePhaseInto datOffset rawBytes phase out)[i]? =
            some ((encoded ^^^ 7) ^^^
              UInt8.ofNat ((1 - (datOffset : ℤ) + phase.toNat + i) % 101).toNat) ∧
          (decodePhaseInto datOffset rawBytes (phaseForDatOffset datOffset) out)[i]? =
            some (decodeDatByte (datOffset + i) encoded) := by
  constructor
  · rw [decodePhaseInto_eq_applyFrom, Keystream.length_applyFrom]
  · intro i encoded hencoded
    constructor
    · have hkey : (((1 - (datOffset : ℤ) + phase.toNat) % 101).toNat + i) % 101 =
          ((1 - (datOffset : ℤ) + phase.toNat + i) % 101).toNat := by omega
      rw [decodePhaseInto_eq_applyFrom, Keystream.getElem?_applyFrom, hencoded, Option.map_some,
        hkey]
    · rw [decodePhaseInto_phaseForDatOffset, Keystream.getElem?_applyFrom, hencoded,
        Option.map_some]

end V2Dat

/-! ### Record bounds -/

section Bounds

variable {encoded : Bytes} {datOffset : ℕ}

/-- The bounds of a record around an offset are the nearest record starts. -/
lemma nearest_of_isFrame {start «end» : ℕ}
    (h : Framing.IsFrame isSentinel (decodeDat encoded) start «end») (hstart : start ≤ datOffset)
    (hend : datOffset < «end») :
    IsGreatest {i | i ≤ datOffset ∧ opensRecord encoded i} start ∧
      IsLeast {i | start < i ∧ (opensRecord encoded i ∨ i = encoded.length)} «end» := by
  have hle : «end» ≤ encoded.length := by
    rw [← length_decodeDat]
    exact h.le
  have hbody : ∀ i, start < i → i < «end» → opensRecord encoded i = false := fun i hi hlt =>
    opensRecord_eq_false_iff.mpr fun b hb => h.body i b hi hlt hb
  refine ⟨⟨⟨hstart, ?_⟩, ?_⟩, ⟨h.lt, ?_⟩, ?_⟩
  · have hlt : start < (decodeDat encoded).length := h.lt.trans_le h.le
    exact opensRecord_iff.mpr ⟨_, List.getElem?_eq_getElem hlt,
      h.opened _ (List.getElem?_eq_getElem hlt)⟩
  · rintro i ⟨hi, hopen⟩
    by_contra hlt
    rw [hbody i (not_le.mp hlt) (hi.trans_lt hend)] at hopen
    cases hopen
  · rcases hle.lt_or_eq with hlt | heq
    · have hlt' : «end» < (decodeDat encoded).length := by rwa [length_decodeDat]
      exact .inl (opensRecord_iff.mpr ⟨_, List.getElem?_eq_getElem hlt',
        h.closed _ (List.getElem?_eq_getElem hlt')⟩)
    · exact .inr heq
  · rintro i ⟨hi, hopen | rfl⟩
    · by_contra hlt
      rw [hbody i hi (not_le.mp hlt)] at hopen
      cases hopen
    · exact hle

/-- Where the posting starts a record, the scan from it finds the same bounds. -/
lemma recordBoundsContainingOffset_of_fromHciPostingStart {fast : RecordBoundsTrace}
    (h : recordBoundsFromHciPostingStart encoded datOffset = some fast) :
    ∃ scan, recordBoundsContainingOffset encoded datOffset = some scan ∧
      scan.start = fast.start ∧ scan.end = fast.end := by
  simp only [recordBoundsFromHciPostingStart, Option.ite_none_left_eq_some, not_or, not_not,
    not_le, Option.some.injEq] at h
  obtain ⟨⟨hlt, hopen⟩, rfl⟩ := h
  have hback : scanBack encoded datOffset = datOffset := by
    cases datOffset with
    | zero => rfl
    | succ position => exact if_pos hopen
  refine ⟨_, if_neg (not_le.mpr hlt) |>.trans (if_neg ?_), hback, ?_⟩
  · rw [hback]
    exact not_not.mpr hopen
  · simp only [hback]

/-- Bounds are found exactly where a record start is at or before the offset; they are the nearest
ones, and the start of a posting is a short cut to them. -/
theorem recordBoundsForHciPosting_spec (encoded : Bytes) (datOffset : ℕ) :
    ((∃ bounds, recordBoundsForHciPosting encoded datOffset = some bounds) ↔
      datOffset < encoded.length ∧ ∃ i ≤ datOffset, opensRecord encoded i) ∧
    (∀ bounds, recordBoundsForHciPosting encoded datOffset = some bounds →
      IsGreatest {i | i ≤ datOffset ∧ opensRecord encoded i} bounds.start ∧
      IsLeast {i | bounds.start < i ∧ (opensRecord encoded i ∨ i = encoded.length)} bounds.end ∧
      bounds.start ≤ datOffset ∧ datOffset < bounds.end) ∧
    ∀ fast, recordBoundsFromHciPostingStart encoded datOffset = some fast →
      ∃ scan, recordBoundsContainingOffset encoded datOffset = some scan ∧
        scan.start = fast.start ∧ scan.end = fast.end := by
  refine ⟨exists_recordBoundsForHciPosting_iff, ?_,
    fun _ => recordBoundsContainingOffset_of_fromHciPostingStart⟩
  intro bounds hbounds
  obtain ⟨hframe, hstart, hend⟩ := isFrame_of_recordBoundsForHciPosting hbounds
  obtain ⟨hgreatest, hleast⟩ := nearest_of_isFrame hframe hstart hend
  exact ⟨hgreatest, hleast, hstart, hend⟩

end Bounds

end Callbook
