import Callbook.Country.Priority
import Callbook.Record.Interests

/-!
# What the sidecars add to a record

The tags fill the text fields of a snapshot. The country table and the interest table then derive
the other fields, from the fields of the same record.
-/

namespace Callbook

open Text

/-! ### Countries of a table -/

/-- A table that was loaded from a text. -/
def CountryTable.Loaded (table : CountryTable) : Prop :=
  ∃ text source, CountryTable.parseWithSource text source = .ok table

lemma classify_ne_unknown (name : Str) (code : Option Str) : classify name code ≠ .unknown := by
  unfold classify
  split_ifs <;> decide

lemma country_of_parseRule {source : CountryInfoSource} {line : Str} {rule : CountryRule}
    (h : parseRule source line = some rule) :
    rule.country.name ≠ [] ∧ rule.country.jurisdiction ≠ .unknown := by
  simp only [parseRule] at h
  split_ifs at h with hskip hempty hname
  cases h
  exact ⟨hname, classify_ne_unknown _ _⟩

/-- What a loaded table finds has a name and a jurisdiction. -/
lemma CountryTable.Loaded.of_lookup {table : CountryTable} (h : table.Loaded) {callsign : Str}
    {country : CountryMatch} (hlookup : table.lookup callsign = .ok (some country)) :
    country.name ≠ [] ∧ country.jurisdiction ≠ .unknown := by
  obtain ⟨text, source, hload⟩ := h
  rw [lookup, Panic.bind_eq_ok_iff] at hlookup
  obtain ⟨info, hinfo, heq⟩ := hlookup
  cases info with
  | none => cases heq
  | some info =>
    cases heq
    rw [lookupInfo_eq, firstMatch_eq_ok_some_iff] at hinfo
    obtain ⟨front, rule, back, hrules, -, -, rfl⟩ := hinfo
    have hrule : rule ∈ table.rules := List.mem_of_mem_filter (by rw [hrules]; simp)
    rw [rules_of_parseWithSource hload, StableSort.mem_sortBy, fileRules,
      List.mem_filterMap] at hrule
    obtain ⟨line, -, hline⟩ := hrule
    exact country_of_parseRule hline

namespace V2Record

/-! ### Before the sidecars -/

@[simp] lemma jurisdiction_applyTag (snapshot : CallSnapshot) (tag : UInt8) (value : Str) :
    (applyTag snapshot tag value).jurisdiction = snapshot.jurisdiction := by
  unfold applyTag
  split <;> rfl

@[simp] lemma interests_applyTag (snapshot : CallSnapshot) (tag : UInt8) (value : Str) :
    (applyTag snapshot tag value).interests = snapshot.interests := by
  unfold applyTag
  split <;> rfl

/-- A snapshot with the text fields alone, none of them empty. -/
structure Tagged (s : CallSnapshot) : Prop where
  jurisdiction : s.jurisdiction = .unknown
  interestCodes : s.interestCodes = []
  interests : s.interests = []
  fields : ∀ f : TagField, f.get s ≠ some []

lemma tagged_new (call : Str) (vintage : Option ℕ) (source : SnapshotSource) :
    Tagged (.new call vintage source) := by
  refine ⟨rfl, rfl, rfl, fun f => ?_⟩
  cases f with
  | raw tag => simp [TagField.get, CallSnapshot.new]
  | _ => simp [TagField.get, CallSnapshot.new]

lemma Tagged.applyTag {s : CallSnapshot} (h : Tagged s) (tag : UInt8) {value : Str}
    (hvalue : value ≠ []) : Tagged (applyTag s tag value) where
  jurisdiction := by simp [h.jurisdiction]
  interestCodes := by simp [h.interestCodes]
  interests := by simp [h.interests]
  fields f := by
    rw [TagField.get_applyTag]
    split_ifs
    · simpa using hvalue
    · exact h.fields f

/-- The tag loop fills text fields only, and with no empty text. -/
lemma tagged_tagLoop (fuel : ℕ) (rest : Bytes) (call : Str) (vintage : Option ℕ)
    (source : SnapshotSource) : Tagged (tagLoop fuel rest (.new call vintage source)) :=
  tagLoop_invariant (fun _ tag _ hvalue h => h.applyTag tag hvalue) fuel rest
    (tagged_new call vintage source)

end V2Record

/-! ### Countries of a snapshot -/

/-- A state and a postal code, which without a country are taken for the United States. -/
def CallSnapshot.HasState (s : CallSnapshot) : Prop :=
  s.stateOrProvince.isSome ∧ s.postalCode.isSome

instance : DecidablePred CallSnapshot.HasState := fun s =>
  inferInstanceAs (Decidable (s.stateOrProvince.isSome ∧ s.postalCode.isSome))

/-- The jurisdiction goes with the country, or else with the state and the postal code. -/
structure CallSnapshot.Placed (s : CallSnapshot) : Prop where
  country_ne : s.country ≠ some []
  known : s.country ≠ none → s.jurisdiction ≠ .unknown
  inferred : s.country = none →
    s.jurisdiction = if s.HasState then .unitedStates else .unknown

namespace V2Record

lemma Tagged.placed {s located : CallSnapshot} (h : Tagged s) {countries : Option CountryTable}
    (hcountries : ∀ table ∈ countries, table.Loaded)
    (hlocated : applyCountry countries s = .ok located) : located.Placed := by
  obtain ⟨country, hlocate, rfl⟩ := applyCountry_eq_ok_iff.mp hlocated
  cases country with
  | some country =>
    obtain ⟨-, table, htable, hlookup⟩ := lookup_of_locate hlocate
    obtain ⟨hname, hknown⟩ := (hcountries table htable).of_lookup hlookup
    exact ⟨by simpa [place] using hname, fun _ => hknown, by simp [place]⟩
  | none =>
    rw [place, if_pos h.jurisdiction]
    refine ⟨h.fields .country, fun hsome => ?_, fun hnone => ?_⟩
    · obtain ⟨country, hcountry⟩ := Option.ne_none_iff_exists'.mp hsome
      have hs : s.country = some country := hcountry
      simp only [inferJurisdiction, hs]
      split_ifs <;> decide
    · have hs : s.country = none := hnone
      simp only [inferJurisdiction, hs]
      rfl

end V2Record

/-! ### Interests of a snapshot -/

/-- The interests that the table, if there is one, gives a raw field. -/
def resolved (interests : Option InterestTable) (raw : Str) : List ResolvedInterest :=
  interests.elim [] (·.resolveRaw raw)

/-- The interest codes and the interests are those of the raw field. -/
structure CallSnapshot.InterestsAgree (interests : Option InterestTable) (s : CallSnapshot) :
    Prop where
  codes : s.interestCodes = s.interestCodesRaw.elim [] InterestTable.codes
  interests : s.interests = s.interestCodesRaw.elim [] (resolved interests)

namespace V2Record

/-- Interests are derived from the raw field of the same record. -/
lemma interestsAgree_applyInterests {s : CallSnapshot} (hcodes : s.interestCodes = [])
    (hinterests : s.interests = []) (interests : Option InterestTable) :
    (applyInterests interests s).InterestsAgree interests := by
  unfold applyInterests
  split
  · rename_i hraw
    exact ⟨by rw [hcodes, hraw]; rfl, by rw [hinterests, hraw]; rfl⟩
  · rename_i raw hraw
    constructor
    · rw [hraw]
      rfl
    · cases interests with
      | none => simp [hraw, hinterests, resolved]
      | some table => simp [hraw, resolved]

section Parse

variable {defaultKey : Option Bytes} {source : SnapshotSource} {countries : Option CountryTable}
  {interests : Option InterestTable} {segment : Bytes} {s : CallSnapshot}

/-- A parsed record has the interests of its own raw field, which is not empty. -/
theorem interestsAgree_of_parseSegment
    (h : parseSegment defaultKey source countries interests segment = .ok (some s)) :
    s.InterestsAgree interests ∧ s.interestCodesRaw ≠ some [] := by
  obtain ⟨key, call, vintage, located, -, -, -, hlocated, rfl⟩ :=
    parseSegment_eq_ok_some_iff.mp h
  have htagged := tagged_tagLoop (stripSentinel segment).length (tagBytes (stripSentinel segment))
    call vintage source
  obtain ⟨hcodes, hraw, hinterests⟩ := applyCountry_keeps_interests hlocated
  constructor
  · exact interestsAgree_applyInterests (hcodes.trans htagged.interestCodes)
      (hinterests.trans htagged.interests) interests
  · have hfield := htagged.fields .interestCodesRaw
    rw [TagField.get, ← hraw] at hfield
    unfold applyInterests
    split <;> exact hfield

/-- A parsed record has the jurisdiction of its own country. -/
theorem placed_of_parseSegment (hcountries : ∀ table ∈ countries, table.Loaded)
    (h : parseSegment defaultKey source countries interests segment = .ok (some s)) : s.Placed := by
  obtain ⟨key, call, vintage, located, -, -, -, hlocated, rfl⟩ :=
    parseSegment_eq_ok_some_iff.mp h
  have hplaced := (tagged_tagLoop (stripSentinel segment).length
    (tagBytes (stripSentinel segment)) call vintage source).placed hcountries hlocated
  unfold applyInterests
  split
  · exact hplaced
  · exact ⟨hplaced.country_ne, hplaced.known, hplaced.inferred⟩

end Parse

end V2Record

end Callbook
