import Callbook.Library.Framing
import Callbook.Library.Keystream
import Callbook.Modern.Basic

/-!
# The encoded DAT file

`hamcall.dat` is encoded with a position-dependent XOR stream. Its decoded bytes are records that
open with `0xb5` and run to the next `0xb5` or to the end of the file.
-/

namespace Callbook

open Text

/-- `decode_dat_byte`. -/
def decodeDatByte (offset : ℕ) (encoded : UInt8) : UInt8 :=
  (encoded ^^^ 7) ^^^ UInt8.ofNat ((offset + 4) % 101)

/-- One decoded phase candidate for a DAT slice. -/
structure DecodedV2Candidate where
  phase : UInt8
  bytes : Bytes
  score : Int32
  deriving DecidableEq

namespace V2Dat

/-- The rounds of `decode_phase_into`: each one runs to the end of the key cycle. -/
def decodeRounds : ℕ → ℕ → Bytes → Bytes → Bytes
  | 0, _, _, out => out
  | fuel + 1, key, remaining, out =>
    if remaining = [] then out
    else
      let n := min (101 - key) remaining.length
      decodeRounds fuel 0 (remaining.drop n)
        (out ++ (remaining.take n).mapIdx fun i encoded =>
          (encoded ^^^ 7) ^^^ UInt8.ofNat (key + i))

/-- `Vec::clear`. -/
def clear (_ : Bytes) : Bytes := []

/-- `decode_phase_into`. -/
def decodePhaseInto (datOffset : ℕ) (rawBytes : Bytes) (phase : UInt8) (out : Bytes) : Bytes :=
  let out := clear out
  let key := ((1 - (datOffset : ℤ) + phase.toNat) % 101).toNat
  decodeRounds rawBytes.length key rawBytes out

def decodePhase (datOffset : ℕ) (rawBytes : Bytes) (phase : UInt8) : Bytes :=
  decodePhaseInto datOffset rawBytes phase []

def phaseForDatOffset (datOffset : ℕ) : UInt8 := UInt8.ofNat ((datOffset % 101 * 2 + 3) % 101)

def containsSubslice (haystack needle : Bytes) : Bool :=
  needle ≠ [] && haystack.tails.any needle.isPrefixOf

/-- The bytes of `bytes` in a class, as an `i32`. -/
def countOf (p : UInt8 → Bool) (bytes : Bytes) : Int32 := Int32.ofNat (bytes.countP p)

/-- `score_candidate`. -/
def scoreCandidate (bytes idxKey : Bytes) : Int32 :=
  let text := countOf (fun b => b == 0x09 || b == 0x0a || b == 0x0d || isPrintable b) bytes
  let controls := countOf (fun b => b < 0x09 || (0x0d < b && b < 0x20)) bytes
  let tags := countOf (fun b => 0xb5 ≤ b && b ≤ 0xdf) bytes
  let upper := toAsciiUppercase bytes
  let keyUpper := toAsciiUppercase idxKey
  let whole := if containsSubslice upper keyUpper then 200 else 0
  let parts :=
    match splitOnce 0x3a keyUpper with
    | none => 0
    | some (call, suffix) =>
      (if containsSubslice upper call then 100 else 0) +
        (if suffix.isPrefixOf bytes || (keyUpper.drop call.length).isPrefixOf bytes then 150 else 0)
  text - controls * 3 + tags * 5 + whole + parts

/-- `best_candidate`. -/
def bestCandidate (datOffset : ℕ) (rawBytes idxKey : Bytes) : Option DecodedV2Candidate :=
  let phase := phaseForDatOffset datOffset
  let bytes := decodePhase datOffset rawBytes phase
  some ⟨phase, bytes, scoreCandidate bytes idxKey⟩

end V2Dat

/-! ### Record bounds -/

/-- The byte that opens a record. -/
def isSentinel (b : UInt8) : Bool := b == 0xb5

/-- Source used to infer a DAT record's byte range. -/
inductive RecordBoundarySource where
  | hciPostingStart
  | scanFallback
  deriving DecidableEq, Repr

structure RecordBoundsTrace where
  start : ℕ
  «end» : ℕ
  source : RecordBoundarySource
  backwardScanBytes : Option ℕ
  forwardScanBytes : Option ℕ
  deriving DecidableEq, Repr

/-- Whether the byte at `position` decodes to `0xb5`. -/
def opensRecord (encoded : Bytes) (position : ℕ) : Bool :=
  encoded[position]?.any fun b => isSentinel (decodeDatByte position b)

/-- Step back to a record start, or to the start of the file. -/
def scanBack (encoded : Bytes) : ℕ → ℕ
  | 0 => 0
  | position + 1 =>
    if opensRecord encoded (position + 1) then position + 1 else scanBack encoded position

/-- Step on to the next record start, or to the end of the file. -/
def scanForward (encoded : Bytes) : ℕ → ℕ → ℕ
  | 0, position => position
  | fuel + 1, position =>
    if position < encoded.length ∧ ¬ opensRecord encoded position then
      scanForward encoded fuel (position + 1)
    else position

/-- `record_bounds_containing_offset_in`. -/
def recordBoundsContainingOffset (encoded : Bytes) (datOffset : ℕ) : Option RecordBoundsTrace :=
  if encoded.length ≤ datOffset then none
  else
    let start := scanBack encoded datOffset
    if ¬ opensRecord encoded start then none
    else
      let «end» := scanForward encoded encoded.length (start + 1)
      some ⟨start, «end», .scanFallback, some (datOffset - start), some («end» - datOffset)⟩

/-- `record_bounds_from_hci_posting_start_in`. -/
def recordBoundsFromHciPostingStart (encoded : Bytes) (datOffset : ℕ) :
    Option RecordBoundsTrace :=
  if encoded.length ≤ datOffset ∨ ¬ opensRecord encoded datOffset then none
  else
    let «end» := scanForward encoded encoded.length (datOffset + 1)
    some ⟨datOffset, «end», .hciPostingStart, none, none⟩

/-- `record_bounds_for_hci_posting`. -/
def recordBoundsForHciPosting (encoded : Bytes) (datOffset : ℕ) : Option RecordBoundsTrace :=
  recordBoundsFromHciPostingStart encoded datOffset <|>
    recordBoundsContainingOffset encoded datOffset

/-! ### The decoded file -/

/-- The whole file, decoded byte by byte. -/
def decodeDat (encoded : Bytes) : Bytes := Keystream.applyFrom decodeDatByte 0 encoded

@[simp] lemma length_decodeDat (encoded : Bytes) : (decodeDat encoded).length = encoded.length :=
  Keystream.length_applyFrom _ _ _

lemma getElem?_decodeDat (encoded : Bytes) (i : ℕ) :
    (decodeDat encoded)[i]? = encoded[i]?.map (decodeDatByte i) := by
  simp [decodeDat, Keystream.getElem?_applyFrom]

lemma slice_decodeDat (encoded : Bytes) (s e : ℕ) :
    Framing.slice (decodeDat encoded) s e =
      Keystream.applyFrom decodeDatByte s (Framing.slice encoded s e) := by
  simp [Framing.slice, decodeDat, Keystream.drop_applyFrom, Keystream.take_applyFrom]

lemma decodeDatByte_decodeDatByte (offset : ℕ) (b : UInt8) :
    decodeDatByte offset (decodeDatByte offset b) = b := by
  rw [decodeDatByte, decodeDatByte]
  generalize UInt8.ofNat ((offset + 4) % 101) = k
  rw [UInt8.xor_assoc (b ^^^ 7) k 7, UInt8.xor_comm k 7, ← UInt8.xor_assoc (b ^^^ 7) 7 k,
    UInt8.xor_assoc b 7 7, UInt8.xor_self, UInt8.xor_zero, UInt8.xor_assoc, UInt8.xor_self,
    UInt8.xor_zero]

/-- Encoding is decoding. -/
@[simp] lemma decodeDat_decodeDat (bytes : Bytes) : decodeDat (decodeDat bytes) = bytes :=
  Keystream.applyFrom_applyFrom decodeDatByte_decodeDatByte 0 bytes

lemma decodeRounds_eq (fuel key : ℕ) (remaining out : Bytes) (hfuel : remaining.length ≤ fuel)
    (hkey : key < 101) :
    V2Dat.decodeRounds fuel key remaining out = out ++
      Keystream.applyFrom (fun i b => (b ^^^ 7) ^^^ UInt8.ofNat (i % 101)) key remaining := by
  induction fuel generalizing key remaining out with
  | zero =>
    rw [List.length_eq_zero_iff.mp (Nat.le_zero.mp hfuel)]
    simp [V2Dat.decodeRounds]
  | succ fuel ih =>
    rw [V2Dat.decodeRounds]
    split_ifs with hempty
    · simp [hempty]
    · set n := min (101 - key) remaining.length with hn
      have hpos : 0 < remaining.length := List.length_pos_of_ne_nil hempty
      rw [ih 0 _ _ (by rw [List.length_drop]; omega) (by omega), List.append_assoc]
      congr 1
      conv_rhs => rw [← List.take_append_drop n remaining, Keystream.applyFrom_append]
      congr 1
      · apply List.ext_getElem?
        intro i
        rw [List.getElem?_mapIdx, Keystream.getElem?_applyFrom]
        by_cases hi : i < n
        · rw [Nat.mod_eq_of_lt (by omega : key + i < 101)]
        · rw [List.getElem?_eq_none (by rw [List.length_take]; omega)]
          rfl
      · -- the key starts over exactly when the round ended at the end of the cycle
        have htake : (remaining.take n).length = n := by rw [List.length_take]; omega
        rw [htake]
        apply Keystream.applyFrom_congr
        intro k hk b
        have hcycle : key + n = 101 := by
          rw [List.length_drop] at hk
          omega
        rw [Nat.zero_add, hcycle, Nat.add_mod_left]

/-- With the phase of its offset, a slice decodes like the file. -/
theorem decodePhaseInto_phaseForDatOffset (datOffset : ℕ) (rawBytes out : Bytes) :
    V2Dat.decodePhaseInto datOffset rawBytes (V2Dat.phaseForDatOffset datOffset) out =
      Keystream.applyFrom decodeDatByte datOffset rawBytes := by
  have hphase : (V2Dat.phaseForDatOffset datOffset).toNat = (datOffset % 101 * 2 + 3) % 101 := by
    rw [V2Dat.phaseForDatOffset, UInt8.toNat_ofNat']
    omega
  rw [V2Dat.decodePhaseInto, hphase, decodeRounds_eq _ _ _ _ le_rfl (by omega), V2Dat.clear,
    List.nil_append]
  apply Keystream.applyFrom_congr
  intro k _ b
  rw [decodeDatByte]
  congr 2
  omega

lemma bestCandidate_bytes (datOffset : ℕ) (rawBytes idxKey : Bytes) :
    (V2Dat.bestCandidate datOffset rawBytes idxKey).map DecodedV2Candidate.bytes =
      some (Keystream.applyFrom decodeDatByte datOffset rawBytes) := by
  simp only [V2Dat.bestCandidate, Option.map_some, V2Dat.decodePhase,
    decodePhaseInto_phaseForDatOffset]

/-! ### Bounds and frames -/

lemma opensRecord_iff {encoded : Bytes} {i : ℕ} :
    opensRecord encoded i ↔ ∃ b, (decodeDat encoded)[i]? = some b ∧ isSentinel b := by
  rw [getElem?_decodeDat, opensRecord]
  cases encoded[i]? <;> simp

lemma opensRecord_eq_false_iff {encoded : Bytes} {i : ℕ} :
    opensRecord encoded i = false ↔
      ∀ b, (decodeDat encoded)[i]? = some b → isSentinel b = false := by
  rw [getElem?_decodeDat, opensRecord]
  cases encoded[i]? <;> simp

lemma scanBack_le (encoded : Bytes) (position : ℕ) : scanBack encoded position ≤ position := by
  induction position with
  | zero => simp [scanBack]
  | succ position ih =>
    rw [scanBack]
    split_ifs
    · exact le_rfl
    · omega

/-- Nothing that was stepped over opens a record. -/
lemma opensRecord_of_scanBack_lt {encoded : Bytes} {position i : ℕ}
    (h : scanBack encoded position < i) (hi : i ≤ position) : opensRecord encoded i = false := by
  induction position with
  | zero => omega
  | succ position ih =>
    rw [scanBack] at h
    split_ifs at h with hopen
    · omega
    · rcases Nat.lt_or_eq_of_le hi with hlt | rfl
      · exact ih h (by omega)
      · simpa using hopen

lemma scanForward_bounds (encoded : Bytes) (fuel position : ℕ)
    (hfuel : encoded.length ≤ position + fuel) (hle : position ≤ encoded.length) :
    position ≤ scanForward encoded fuel position ∧
      scanForward encoded fuel position ≤ encoded.length ∧
      (∀ i, position ≤ i → i < scanForward encoded fuel position → opensRecord encoded i = false) ∧
      (scanForward encoded fuel position < encoded.length →
        opensRecord encoded (scanForward encoded fuel position)) := by
  induction fuel generalizing position with
  | zero => simp only [scanForward]; grind
  | succ fuel ih =>
    rw [scanForward]
    split_ifs with hstep
    · obtain ⟨hlow, hhigh, hbody, hclosed⟩ := ih (position + 1) (by omega) (by omega)
      refine ⟨by omega, hhigh, fun i hi hlt => ?_, hclosed⟩
      rcases Nat.lt_or_eq_of_le hi with hi | rfl
      · exact hbody i hi hlt
      · simpa using hstep.2
    · exact ⟨le_rfl, hle, fun i _ _ => by omega, fun hlt => by grind⟩

/-- A record start and the end that the forward scan finds bound a record of the file. -/
lemma isFrame_scanForward {encoded : Bytes} {start : ℕ} (h : opensRecord encoded start) :
    Framing.IsFrame isSentinel (decodeDat encoded) start
      (scanForward encoded encoded.length (start + 1)) := by
  obtain ⟨b, hb, hsentinel⟩ := opensRecord_iff.mp h
  have hlt : start < encoded.length := by
    rw [← length_decodeDat]
    exact (List.getElem?_eq_some_iff.mp hb).1
  obtain ⟨hlow, hhigh, hbody, hclosed⟩ :=
    scanForward_bounds encoded encoded.length (start + 1) (by omega) hlt
  refine ⟨hlow, by simpa using hhigh, fun a ha => ?_, fun i a hi hie ha => ?_, fun a ha => ?_⟩
  · rw [hb, Option.some.injEq] at ha
    exact ha ▸ hsentinel
  · exact opensRecord_eq_false_iff.mp (hbody i hi hie) a ha
  · have hend := (List.getElem?_eq_some_iff.mp ha).1
    rw [length_decodeDat] at hend
    obtain ⟨c, hc, hsentinel'⟩ := opensRecord_iff.mp (hclosed hend)
    rw [hc, Option.some.injEq] at ha
    exact ha ▸ hsentinel'

/-- The bounds found for an offset are those of the record around it. -/
theorem isFrame_of_recordBoundsForHciPosting {encoded : Bytes} {datOffset : ℕ}
    {bounds : RecordBoundsTrace} (h : recordBoundsForHciPosting encoded datOffset = some bounds) :
    Framing.IsFrame isSentinel (decodeDat encoded) bounds.start bounds.end ∧
      bounds.start ≤ datOffset ∧ datOffset < bounds.end := by
  rw [recordBoundsForHciPosting, Option.orElse_eq_orElse, Option.orElse_eq_or,
    Option.or_eq_some_iff] at h
  rcases h with h | ⟨-, h⟩
  · simp only [recordBoundsFromHciPostingStart, Option.ite_none_left_eq_some, not_or, not_not,
      Option.some.injEq] at h
    obtain ⟨⟨-, hopen⟩, rfl⟩ := h
    have hframe := isFrame_scanForward hopen
    exact ⟨hframe, le_rfl, hframe.lt⟩
  · simp only [recordBoundsContainingOffset, Option.ite_none_left_eq_some, not_not, not_le,
      Option.some.injEq] at h
    obtain ⟨hlt, hopen, rfl⟩ := h
    have hframe := isFrame_scanForward hopen
    refine ⟨hframe, scanBack_le _ _, ?_⟩
    by_contra hle
    have hend : scanForward encoded encoded.length (scanBack encoded datOffset + 1)
        ≤ datOffset := by simpa using hle
    -- the scan would have stopped at a record start that the backward scan stepped over
    have hclosed := (scanForward_bounds encoded encoded.length (scanBack encoded datOffset + 1)
      (by omega) (by have := scanBack_le encoded datOffset; omega)).2.2.2 (by omega)
    rw [opensRecord_of_scanBack_lt hframe.lt hend] at hclosed
    cases hclosed

lemma opensRecord_scanBack_iff {encoded : Bytes} {position : ℕ} :
    opensRecord encoded (scanBack encoded position) ↔
      ∃ i ≤ position, opensRecord encoded i := by
  constructor
  · exact fun h => ⟨_, scanBack_le _ _, h⟩
  · rintro ⟨i, hi, hopen⟩
    induction position with
    | zero => simpa [scanBack, Nat.le_zero.mp hi] using hopen
    | succ position ih =>
      rw [scanBack]
      split_ifs with hpos
      · exact hpos
      · have hne : i ≠ position + 1 := fun h => hpos (h ▸ hopen)
        exact ih (by omega)

/-- Bounds are found exactly for the offsets at or behind a record start. -/
theorem exists_recordBoundsForHciPosting_iff {encoded : Bytes} {datOffset : ℕ} :
    (∃ bounds, recordBoundsForHciPosting encoded datOffset = some bounds) ↔
      datOffset < encoded.length ∧ ∃ i ≤ datOffset, opensRecord encoded i := by
  rw [← opensRecord_scanBack_iff]
  simp only [recordBoundsForHciPosting, Option.orElse_eq_orElse, Option.orElse_eq_or,
    Option.or_eq_some_iff, recordBoundsFromHciPostingStart, recordBoundsContainingOffset,
    Option.ite_none_left_eq_some, not_or, not_not, not_le]
  constructor
  · rintro ⟨bounds, ⟨⟨hlt, hopen⟩, -⟩ | ⟨-, hlt, hopen, -⟩⟩
    · exact ⟨hlt, opensRecord_scanBack_iff.mpr ⟨_, le_rfl, hopen⟩⟩
    · exact ⟨hlt, hopen⟩
  · rintro ⟨hlt, hopen⟩
    by_cases hstart : opensRecord encoded datOffset
    · exact ⟨_, Or.inl ⟨⟨hlt, hstart⟩, rfl⟩⟩
    · exact ⟨_, Or.inr ⟨by simp [hstart], hlt, hopen, rfl⟩⟩

end Callbook
