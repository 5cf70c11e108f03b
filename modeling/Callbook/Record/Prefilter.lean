import Callbook.Country.Priority
import Callbook.Record.Properties

/-!
# The prefilter and longer windows

The matching parser passes over segments by their raw key bytes; it returns what parsing everything
returns for the callsign. The complete parser reads the segments that a later one closes, so a
longer window adds to the end of its answer. What stands in the way of both is the country table,
which may panic on a segment that the other run does not parse.
-/

namespace Callbook

open Text

namespace V2Record

variable (defaultKey : Option Bytes) (source : SnapshotSource) (countries : Option CountryTable)
  (interests : Option InterestTable)

/-! ### The prefilter -/

lemma parseSnapshots_eq (decoded : Bytes) :
    parseSnapshots defaultKey source countries interests decoded =
      Panic.collect (fun _ => true) (parseSegment defaultKey source countries interests)
        (Framing.segments isSentinel decoded) := by
  rw [parseSnapshots, segmentLoop_eq_segments _ _ _ (by omega), List.drop_zero]

/-- Parsing everything returns exactly when the country table panics on no segment. -/
lemma exists_parseSnapshots_eq_ok_iff (decoded : Bytes) :
    (∃ snapshots, parseSnapshots defaultKey source countries interests decoded = .ok snapshots) ↔
      ∀ segment ∈ Framing.segments isSentinel decoded,
        ∀ call, ¬ PanicsOn defaultKey source countries segment call := by
  rw [parseSnapshots_eq, Panic.exists_collect_eq_ok_iff]
  simp only [exists_parseSegment_eq_ok_iff, true_implies]

/-- Parsing the segments of a callsign returns exactly when the country table panics on none of
them. -/
lemma exists_collect_segmentMatches_eq_ok_iff (key : Callsign) (segments : List Bytes) :
    (∃ snapshots, Panic.collect (segmentMatches defaultKey key.asStr)
      (parseSegment defaultKey source countries interests) segments = .ok snapshots) ↔
      ∀ segment ∈ segments, ¬ PanicsOn defaultKey source countries segment key.asStr := by
  rw [Panic.exists_collect_eq_ok_iff]
  refine forall₂_congr fun segment _ => ?_
  rw [exists_parseSegment_eq_ok_iff]
  constructor
  · intro h hpanics
    obtain ⟨vintage, hkey, -⟩ := hpanics.1
    exact h ((segmentMatches_iff_of_keyOf hkey key.asStr_spec.2.2).mpr rfl) _ hpanics
  · intro h hmatches call hpanics
    obtain ⟨vintage, hkey, -⟩ := hpanics.1
    rw [(segmentMatches_iff_of_keyOf hkey key.asStr_spec.2.2).mp hmatches] at hpanics
    exact h hpanics

lemma exists_parseMatchingSnapshots_eq_ok_iff (key : Callsign) (decoded : Bytes) :
    (∃ snapshots, parseMatchingSnapshots defaultKey source countries interests key.asStr decoded =
      .ok snapshots) ↔
      ∀ segment ∈ Framing.segments isSentinel decoded,
        ¬ PanicsOn defaultKey source countries segment key.asStr := by
  rw [parseMatchingSnapshots_eq]
  exact exists_collect_segmentMatches_eq_ok_iff _ _ _ _ key _

/-- The matching parser returns the snapshots of the callsign, in their order. -/
theorem parseMatchingSnapshots_eq_filter (key : Callsign) {decoded : Bytes}
    {snapshots : List CallSnapshot}
    (h : parseSnapshots defaultKey source countries interests decoded = .ok snapshots) :
    parseMatchingSnapshots defaultKey source countries interests key.asStr decoded =
      .ok (snapshots.filter fun s => s.callsign = key.asStr) := by
  rw [parseSnapshots_eq] at h
  rw [parseMatchingSnapshots_eq]
  apply Panic.collect_eq_ok_filter h
  intro segment _ s hparse
  rw [segmentMatches_iff_of_parseSegment hparse key.asStr_spec.2.2, decide_eq_true_iff]

/-- The two parsers give one answer exactly when the country table panics on no segment that the
matching parser passes over, or panics on one of the callsign as well. -/
theorem parseMatchingSnapshots_eq_filter_iff (key : Callsign) (decoded : Bytes) :
    (parseMatchingSnapshots defaultKey source countries interests key.asStr decoded).toOption =
        (parseSnapshots defaultKey source countries interests decoded).toOption.map
          (List.filter fun s => s.callsign = key.asStr) ↔
      (∀ segment ∈ Framing.segments isSentinel decoded, ∀ call,
        PanicsOn defaultKey source countries segment call → call = key.asStr) ∨
      ∃ segment ∈ Framing.segments isSentinel decoded,
        PanicsOn defaultKey source countries segment key.asStr := by
  have hall := exists_parseSnapshots_eq_ok_iff defaultKey source countries interests decoded
  have hsome := exists_parseMatchingSnapshots_eq_ok_iff defaultKey source countries interests key
    decoded
  cases hparse : parseSnapshots defaultKey source countries interests decoded with
  | ok snapshots =>
    rw [parseMatchingSnapshots_eq_filter _ _ _ _ key hparse]
    have hnone := hall.mp ⟨snapshots, hparse⟩
    exact iff_of_true rfl (.inl fun segment hsegment call hpanics =>
      absurd hpanics (hnone segment hsegment call))
  | error e =>
    have hpanic : ∃ segment ∈ Framing.segments isSentinel decoded, ∃ call,
        PanicsOn defaultKey source countries segment call := by
      by_contra hnone
      push Not at hnone
      obtain ⟨snapshots, h⟩ := hall.mpr hnone
      rw [hparse] at h
      cases h
    cases hmatching :
        parseMatchingSnapshots defaultKey source countries interests key.asStr decoded with
    | ok found =>
      -- no segment of the callsign panics, so the one that does is passed over
      have hkey := hsome.mp ⟨found, hmatching⟩
      refine iff_of_false (by simp [Except.toOption]) ?_
      rintro (hcall | ⟨segment, hsegment, hpanics⟩)
      · obtain ⟨segment, hsegment, call, hpanics⟩ := hpanic
        exact hkey segment hsegment (hcall segment hsegment call hpanics ▸ hpanics)
      · exact hkey segment hsegment hpanics
    | error e' =>
      refine iff_of_true rfl (.inr ?_)
      by_contra hnone
      push Not at hnone
      obtain ⟨found, h⟩ := hsome.mpr hnone
      rw [hmatching] at h
      cases h

/-- Two records; the table of `accentedRange` panics on the call of the first one. -/
def panickingNeighbour : Bytes :=
  (0xb5 :: ascii "A1" ++ 0xb8 :: ascii "Ann") ++ (0xb5 :: ascii "W1AW" ++ 0xb8 :: ascii "Bob")

/-- The matching parser returns the second record, and parsing everything panics on the first. -/
theorem parseMatchingSnapshots_ne_panickingNeighbour : ∃ (table : CountryTable) (key : Callsign),
    CountryTable.parseWithSource accentedRange .unknown = .ok table ∧
      Callsign.parse (ascii "W1AW") = .ok key ∧
      (parseMatchingSnapshots none .hamCallHci (some table) none key.asStr
        panickingNeighbour).toOption ≠
      (parseSnapshots none .hamCallHci (some table) none panickingNeighbour).toOption.map
        (List.filter fun s => s.callsign = key.asStr) := by
  have hrun : (CountryTable.parseWithSource accentedRange .unknown).toOption.any fun table =>
      (Callsign.parse (ascii "W1AW")).toOption.any fun key =>
        (parseMatchingSnapshots none .hamCallHci (some table) none key.asStr
          panickingNeighbour).isOk &&
        !(parseSnapshots none .hamCallHci (some table) none panickingNeighbour).isOk := by
    decide +kernel
  simp only [Option.any_eq_true, Bool.and_eq_true, Bool.not_eq_true', Panic.toOption_eq_some_iff]
    at hrun
  obtain ⟨table, htable, key, hkey, hmatching, hall⟩ := hrun
  refine ⟨table, key, htable, hkey, ?_⟩
  obtain ⟨found, hfound⟩ := Panic.exists_of_isOk hmatching
  cases hparse : parseSnapshots none .hamCallHci (some table) none panickingNeighbour with
  | ok snapshots => simp [hparse, Except.isOk, Except.toBool] at hall
  | error e => simp [hfound, Except.toOption]

/-! ### Longer windows -/

/-- What a window has completed, a longer window begins with. -/
theorem parseCompleteMatchingSnapshots_prefix (callsign : Str) (decoded rest : Bytes) :
    (∀ longer, parseMatchingSnapshots defaultKey source countries interests callsign
        (decoded ++ rest) = .ok longer →
      ∃ shorter, parseCompleteMatchingSnapshots defaultKey source countries interests callsign
        decoded = .ok shorter ∧ shorter <+: longer) ∧
    ∀ longer, parseCompleteMatchingSnapshots defaultKey source countries interests callsign
        (decoded ++ rest) = .ok longer →
      ∃ shorter, parseCompleteMatchingSnapshots defaultKey source countries interests callsign
        decoded = .ok shorter ∧ shorter <+: longer := by
  rw [parseMatchingSnapshots_eq, parseCompleteMatchingSnapshots_eq,
    parseCompleteMatchingSnapshots_eq]
  exact ⟨fun _ => Panic.exists_collect_of_prefix (Framing.closedSegments_prefix_segments _ _),
    fun _ => Panic.exists_collect_of_prefix (Framing.closedSegments_prefix_append _ _)⟩

variable {defaultKey source countries interests}

/-- A longer window returns what the shorter one completed, and more, exactly when the country
table panics on no segment of the callsign behind those that the shorter window completed. -/
theorem parseCompleteMatchingSnapshots_prefix_iff {callsign : Str} {decoded : Bytes}
    {shorter : List CallSnapshot} (h : parseCompleteMatchingSnapshots defaultKey source countries
      interests callsign decoded = .ok shorter) (rest : Bytes) :
    ((∃ longer, parseMatchingSnapshots defaultKey source countries interests callsign
        (decoded ++ rest) = .ok longer ∧ shorter <+: longer) ∧
      ∃ longer, parseCompleteMatchingSnapshots defaultKey source countries interests callsign
        (decoded ++ rest) = .ok longer ∧ shorter <+: longer) ↔
      ∀ segment ∈ (Framing.segments isSentinel (decoded ++ rest)).drop
          (Framing.closedSegments isSentinel decoded).length,
        segmentMatches defaultKey callsign segment →
          ∀ call, ¬ PanicsOn defaultKey source countries segment call := by
  obtain ⟨behind, hsegments⟩ := Framing.closedSegments_prefix_segments (p := isSentinel)
    decoded rest
  rw [← hsegments, List.drop_left]
  have hmatching : (∃ longer, parseMatchingSnapshots defaultKey source countries interests callsign
      (decoded ++ rest) = .ok longer) ↔ ∀ segment ∈ behind,
        segmentMatches defaultKey callsign segment →
          ∀ call, ¬ PanicsOn defaultKey source countries segment call := by
    rw [parseMatchingSnapshots_eq, Panic.exists_collect_eq_ok_iff, ← hsegments]
    simp only [exists_parseSegment_eq_ok_iff]
    rw [parseCompleteMatchingSnapshots_eq] at h
    have hclosed := Panic.exists_collect_eq_ok_iff.mp ⟨shorter, h⟩
    simp only [exists_parseSegment_eq_ok_iff] at hclosed
    simp only [List.mem_append, or_imp, forall_and]
    exact and_iff_right hclosed
  rw [← hmatching]
  constructor
  · rintro ⟨⟨longer, hlonger, -⟩, -⟩
    exact ⟨longer, hlonger⟩
  · rintro ⟨longer, hlonger⟩
    have hprefix := parseCompleteMatchingSnapshots_prefix defaultKey source countries interests
      callsign decoded rest
    obtain ⟨complete, hcomplete⟩ : ∃ complete, parseCompleteMatchingSnapshots defaultKey source
        countries interests callsign (decoded ++ rest) = .ok complete := by
      rw [parseMatchingSnapshots_eq] at hlonger
      obtain ⟨front, hfront, -⟩ := Panic.exists_collect_of_prefix (List.dropLast_prefix _) hlonger
      exact ⟨front, by rw [parseCompleteMatchingSnapshots_eq]; exact hfront⟩
    obtain ⟨front, hfront, hle⟩ := hprefix.1 longer hlonger
    obtain ⟨front', hfront', hle'⟩ := hprefix.2 complete hcomplete
    rw [h, Except.ok.injEq] at hfront hfront'
    subst hfront
    subst hfront'
    exact ⟨⟨longer, hlonger, hle⟩, complete, hcomplete, hle'⟩

/-- A record, and one more that is cut off inside its key. -/
def cutInKey : Bytes := 0xb5 :: ascii "W1AW" ++ 0xb8 :: ascii "Bob" ++ 0xb5 :: ascii "W1"

theorem parseCompleteMatchingSnapshots_prefix_iff_cutInKey :
    ∃ shorter, parseCompleteMatchingSnapshots none .hamCallHci none none (ascii "W1AW") cutInKey =
        .ok shorter ∧ shorter ≠ [] ∧
      (∃ longer, parseMatchingSnapshots none .hamCallHci none none (ascii "W1AW")
        (cutInKey ++ ascii "AW") = .ok longer ∧ shorter <+: longer) ∧
      ∃ longer, parseCompleteMatchingSnapshots none .hamCallHci none none (ascii "W1AW")
        (cutInKey ++ ascii "AW") = .ok longer ∧ shorter <+: longer := by
  have hrun : (parseCompleteMatchingSnapshots none .hamCallHci none none (ascii "W1AW")
      cutInKey).toOption.any fun shorter => !shorter.isEmpty := by decide +kernel
  simp only [Option.any_eq_true, Bool.not_eq_true', List.isEmpty_eq_false_iff,
    Panic.toOption_eq_some_iff] at hrun
  obtain ⟨shorter, hshorter, hne⟩ := hrun
  refine ⟨shorter, hshorter, hne, (parseCompleteMatchingSnapshots_prefix_iff hshorter _).mpr ?_⟩
  rintro segment - - call ⟨-, table, htable, -⟩
  cases htable

/-- A complete record that names its country, and the first byte of the next record. -/
def completedRecord : Bytes := 0xb5 :: ascii "A1" ++ 0xd1 :: ascii "USA" ++ [0xb5]

/-- The shorter window returns the record. The rest makes another one, on which the table panics. -/
theorem not_prefix_completedRecord : ∃ (table : CountryTable) (shorter : List CallSnapshot),
    CountryTable.parseWithSource accentedRange .unknown = .ok table ∧
      parseCompleteMatchingSnapshots none .hamCallHci (some table) none (ascii "A1")
        completedRecord = .ok shorter ∧ shorter ≠ [] ∧
      ¬ ∃ longer, parseMatchingSnapshots none .hamCallHci (some table) none (ascii "A1")
        (completedRecord ++ (ascii "A1" ++ 0xb8 :: ascii "Bob")) = .ok longer ∧
          shorter <+: longer := by
  have hrun : (CountryTable.parseWithSource accentedRange .unknown).toOption.any fun table =>
      ((parseCompleteMatchingSnapshots none .hamCallHci (some table) none (ascii "A1")
        completedRecord).toOption.any fun shorter => !shorter.isEmpty) &&
      !(parseMatchingSnapshots none .hamCallHci (some table) none (ascii "A1")
        (completedRecord ++ (ascii "A1" ++ 0xb8 :: ascii "Bob"))).isOk := by decide +kernel
  simp only [Option.any_eq_true, Bool.and_eq_true, Bool.not_eq_true', List.isEmpty_eq_false_iff,
    Panic.toOption_eq_some_iff] at hrun
  obtain ⟨table, htable, ⟨shorter, hshorter, hne⟩, hpanic⟩ := hrun
  refine ⟨table, shorter, htable, hshorter, hne, ?_⟩
  rintro ⟨longer, hlonger, -⟩
  rw [hlonger] at hpanic
  cases hpanic

end V2Record

end Callbook
