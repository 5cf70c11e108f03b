import Callbook.Country.Catalog
import Callbook.Database.Records
import Callbook.Record.Fields

/-!
# The default country

Parsing a record, the country catalog and the statistics each decide which country a callsign
belongs to. Parsing asks the primary table only, so it agrees with the other two except where only
the fallback table has a rule.
-/

namespace Callbook

open Text V2Record

/-- `CallBook::country_catalog`; the name table is handed in. -/
def CallBook.countryCatalog (db : CallBook) (names : Option CountryNameTable) : CountryCatalog :=
  match db.v2 with
  | none => ⟨none, none, none⟩
  | some v2 => ⟨v2.countries, v2.pcCountries, names⟩

/-- `V2Shard::classify_callsign`. -/
def V2Shard.classifyCallsign (shard : V2Shard) (callsign : Str) : Except Panic Jurisdiction := do
  let country ← CountryTable.askOrElse shard.countries shard.pcCountries (·.lookup callsign)
  pure (country.elim .unknown CountryMatch.jurisdiction)

/-! ### Records without a country tag -/

namespace V2Record

lemma country_applyTag {s : CallSnapshot} {tag : UInt8} {value : Str} (h : tag ≠ 0xd1) :
    (applyTag s tag value).country = s.country := by
  have hget := TagField.get_applyTag .country s tag value
  rwa [if_neg fun heq => h (ofTag_eq_country_iff.mp heq.symm)] at hget

lemma country_applyInterests (interests : Option InterestTable) (s : CallSnapshot) :
    (applyInterests interests s).country = s.country ∧
      (applyInterests interests s).jurisdiction = s.jurisdiction := by
  unfold applyInterests
  split <;> exact ⟨rfl, rfl⟩

lemma stripSentinel_suffix {segment : Bytes} : stripSentinel segment <:+ segment := by
  rw [stripSentinel]
  split_ifs
  · exact List.tail_suffix segment
  · exact List.suffix_rfl

lemma country_tagLoop {fuel : ℕ} {tagged : Bytes} (h : 0xd1 ∉ tagged) (s : CallSnapshot) :
    (tagLoop fuel tagged s).country = s.country := by
  induction fuel generalizing tagged s with
  | zero => rfl
  | succ fuel ih =>
    cases tagged with
    | nil => rfl
    | cons tag rest =>
      rw [List.mem_cons, not_or] at h
      have hrest : 0xd1 ∉ rest.dropWhile (!endsValue ·) :=
        fun hmem => h.2 ((List.dropWhile_sublist _).subset hmem)
      simp only [tagLoop]
      split_ifs
      · split
        · exact ih hrest s
        · split_ifs
          · exact ih hrest s
          · rw [ih hrest, country_applyTag (Ne.symm h.1)]
      · exact ih h.2 s

variable {defaultKey : Option Bytes} {source : SnapshotSource} {countries : Option CountryTable}
  {interests : Option InterestTable} {segment : Bytes} {s : CallSnapshot}

/-- A record without a country tag has the country that the table gives its callsign, if any. -/
theorem country_of_parseSegment
    (h : parseSegment defaultKey source countries interests segment = .ok (some s))
    (htag : 0xd1 ∉ segment) : ∃ country,
      CountryTable.askOptional countries (·.lookup s.callsign) = .ok country ∧
      s.country = country.map CountryMatch.name ∧
      ∀ c ∈ country, s.jurisdiction = c.jurisdiction := by
  obtain ⟨key, call, vintage, located, -, -, -, hlocated, rfl⟩ := parseSegment_eq_ok_some_iff.mp h
  obtain ⟨hcall, -, -⟩ := applyCountry_keeps hlocated
  obtain ⟨hcall', -, -⟩ := applyInterests_keeps interests located
  have htags : 0xd1 ∉ tagBytes (stripSentinel segment) := by
    rw [tagBytes_eq]
    exact fun hmem => htag (stripSentinel_suffix.subset ((List.dropWhile_sublist _).subset hmem))
  obtain ⟨country, hlocate, rfl⟩ := applyCountry_eq_ok_iff.mp hlocated
  generalize htagged : tagLoop (stripSentinel segment).length (tagBytes (stripSentinel segment))
    (.new call vintage source) = tagged at hlocate hcall hcall' ⊢
  have hnone : tagged.country = none := by
    rw [← htagged, country_tagLoop htags]
    rfl
  have hlookup : CountryTable.askOptional countries (·.lookup tagged.callsign) = .ok country := by
    unfold locate at hlocate
    rw [hnone] at hlocate
    cases countries <;> exact hlocate
  rw [hcall', hcall]
  refine ⟨country, hlookup, ?_⟩
  rw [(country_applyInterests interests _).1, (country_applyInterests interests _).2]
  cases country with
  | some country =>
    refine ⟨rfl, ?_⟩
    rintro c hc
    cases hc
    rfl
  | none =>
    refine ⟨?_, fun c hc => nomatch hc⟩
    rw [place]
    split_ifs <;> exact hnone

end V2Record

/-! ### The catalog and the classification -/

lemma CountryTable.lookup_eq_map (table : CountryTable) (callsign : Str) :
    table.lookup callsign = (table.lookupInfo callsign).map (Option.map CountryInfo.toMatch) := by
  rw [lookup]
  cases table.lookupInfo callsign <;> rfl

namespace V2Shard

variable {shard : V2Shard} {names : Option CountryNameTable} {callsign : Str} {segment : Bytes}
  {s : CallSnapshot}

/-- The catalog shows what the tables have, with coordinates filled in. -/
lemma countryCatalog_lookupInfo_eq_ok_some_iff {info : CountryInfo} :
    (CallBook.countryCatalog ⟨some shard⟩ names).lookupInfo callsign = .ok (some info) ↔
      ∃ found, CountryTable.askOrElse shard.countries shard.pcCountries (·.lookupInfo callsign) =
        .ok (some found) ∧ enrichCountryInfo found names = info := by
  rw [CountryCatalog.lookupInfo, CallBook.countryCatalog, Panic.bind_eq_ok_iff]
  constructor
  · rintro ⟨found, hfound, h⟩
    cases found with
    | none => cases h
    | some found => exact ⟨found, hfound, Option.some.inj (Except.ok.inj h)⟩
  · rintro ⟨found, hfound, rfl⟩
    exact ⟨_, hfound, rfl⟩

/-- The statistics classify by the rule that the catalog shows. -/
lemma classifyCallsign_of_askOrElse {found : CountryInfo}
    (h : CountryTable.askOrElse shard.countries shard.pcCountries (·.lookupInfo callsign) =
      .ok (some found)) : shard.classifyCallsign callsign = .ok found.jurisdiction := by
  rw [classifyCallsign, funext fun table => CountryTable.lookup_eq_map table callsign,
    CountryTable.askOrElse_map, h]
  rfl

/-- `parse_and_filter` reads the snapshot in a record of its input. -/
def ParsedFrom (shard : V2Shard) (segment : Bytes) (s : CallSnapshot) : Prop :=
  ∃ decoded defaultKey callsign source snapshots,
    shard.parseAndFilter decoded defaultKey callsign source = .ok snapshots ∧ s ∈ snapshots ∧
      segment ∈ segmentLoop decoded decoded.length 0 ∧
      parseSegment defaultKey source shard.countries shard.interests segment = .ok (some s)

/-- Where the catalog knows the country of a snapshot, the snapshot and the statistics agree. -/
def AgreesOnCountry (shard : V2Shard) (names : Option CountryNameTable) (s : CallSnapshot) : Prop :=
  ∀ info, (CallBook.countryCatalog ⟨some shard⟩ names).lookupInfo s.callsign = .ok (some info) →
    s.country = some info.name ∧ s.jurisdiction = info.jurisdiction ∧
      shard.classifyCallsign s.callsign = .ok info.jurisdiction

/-- Only the fallback table has a rule for the callsign. -/
def OnlyFallback (shard : V2Shard) (callsign : Str) : Prop :=
  (∀ table ∈ shard.countries, table.lookupInfo callsign = .ok none) ∧
    ∃ table ∈ shard.pcCountries, ∃ info, table.lookupInfo callsign = .ok (some info)

/-- A snapshot of a record without a country tag agrees with the catalog exactly when its country
does not come from the fallback table. -/
theorem agreesOnCountry_iff (h : shard.ParsedFrom segment s) (htag : 0xd1 ∉ segment) :
    shard.AgreesOnCountry names s ↔ ¬ shard.OnlyFallback s.callsign := by
  obtain ⟨decoded, defaultKey, callsign, source, snapshots, -, -, -, hparse⟩ := h
  obtain ⟨country, hlookup, hcountry, hjurisdiction⟩ := country_of_parseSegment hparse htag
  constructor
  · rintro hagrees ⟨hprimary, table, htable, found, hfound⟩
    have hcatalog : (CallBook.countryCatalog ⟨some shard⟩ names).lookupInfo s.callsign =
        .ok (some (enrichCountryInfo found names)) :=
      countryCatalog_lookupInfo_eq_ok_some_iff.mpr ⟨found,
        CountryTable.askOrElse_eq_ok_some_iff.mpr (.inr ⟨hprimary, table, htable, hfound⟩), rfl⟩
    have hnone : CountryTable.askOptional shard.countries (·.lookup s.callsign) = .ok none := by
      rw [CountryTable.askOptional_eq_ok_none_iff]
      intro table htable
      rw [CountryTable.lookup_eq_map, hprimary table htable]
      rfl
    obtain rfl : country = none := Except.ok.inj (hlookup.symm.trans hnone)
    have hsome := (hagrees _ hcatalog).1
    rw [hcountry] at hsome
    cases hsome
  · intro hnot info hinfo
    obtain ⟨found, hask, rfl⟩ := countryCatalog_lookupInfo_eq_ok_some_iff.mp hinfo
    obtain ⟨latitude, longitude, henrich⟩ := enrichCountryInfo_frame found names
    rw [henrich]
    have hclass := classifyCallsign_of_askOrElse hask
    rcases CountryTable.askOrElse_eq_ok_some_iff.mp hask with
      ⟨table, htable, hfound⟩ | ⟨hprimary, table, htable, hfound⟩
    · have hsome : CountryTable.askOptional shard.countries (·.lookup s.callsign) =
          .ok (some found.toMatch) := by
        rw [CountryTable.askOptional_eq_ok_some_iff]
        exact ⟨table, htable, by rw [CountryTable.lookup_eq_map, hfound]; rfl⟩
      obtain rfl : country = some found.toMatch := Except.ok.inj (hlookup.symm.trans hsome)
      exact ⟨hcountry, hjurisdiction _ rfl, hclass⟩
    · exact absurd ⟨hprimary, table, htable, found, hfound⟩ hnot

/-- A current record with a name. -/
def namedRecord : Bytes := 0xb5 :: ascii "1A0AA" ++ 0xb8 :: ascii "Ann"

/-- A shard whose primary and fallback tables have these texts. -/
def countryShard (primary fallback : Str) : V2Shard :=
  { sampleShard namedRecord with
    countries := (CountryTable.parseWithSource primary .countrys).toOption
    pcCountries := (CountryTable.parseWithSource fallback .countrysPc).toOption }

/-- A snapshot that the record is read as. -/
lemma exists_parsedFrom_countryShard {primary fallback : Str} {q : CallSnapshot → Bool}
    (h : ((countryShard primary fallback).parseAndFilter namedRecord none (ascii "1A0AA")
      .hamCallDatIdx).toOption.any fun snapshots => snapshots.any q) :
    ∃ s, (countryShard primary fallback).ParsedFrom namedRecord s ∧ q s := by
  simp only [Option.any_eq_true, List.any_eq_true, Panic.toOption_eq_some_iff] at h
  obtain ⟨snapshots, hsnapshots, s, hs, hq⟩ := h
  obtain ⟨segment, hsegment, -, hparse⟩ := (Panic.mem_of_collect_eq_ok hsnapshots).mp hs
  have hsegments : segmentLoop namedRecord namedRecord.length 0 = [namedRecord] := by
    decide +kernel
  obtain rfl : segment = namedRecord := by
    rw [hsegments] at hsegment
    exact List.mem_singleton.mp hsegment
  exact ⟨s, ⟨namedRecord, none, ascii "1A0AA", .hamCallDatIdx, snapshots, hsnapshots, hs, hsegment,
    hparse⟩, hq⟩

/-- A rule for the callsign. -/
def maltaRule : Str := ascii "1A    1A    SOV. MIL. ORDER OF MALTA"

theorem agreesOnCountry_iff_primaryRule :
    ∃ s, (countryShard maltaRule []).ParsedFrom namedRecord s ∧ 0xd1 ∉ namedRecord ∧
      ((countryShard maltaRule []).AgreesOnCountry none s ↔
        ¬ (countryShard maltaRule []).OnlyFallback s.callsign) := by
  have htag : 0xd1 ∉ namedRecord := by decide +kernel
  have hrun : ((countryShard maltaRule []).parseAndFilter namedRecord none (ascii "1A0AA")
      .hamCallDatIdx).toOption.any fun snapshots => snapshots.any fun _ => true := by
    decide +kernel
  obtain ⟨s, hs, -⟩ := exists_parsedFrom_countryShard hrun
  exact ⟨s, hs, htag, agreesOnCountry_iff hs htag⟩

/-- With the rule in the fallback table, the catalog knows a country and the snapshot has none. -/
theorem not_agreesOnCountry_fallbackRule :
    ∃ s, (countryShard [] maltaRule).ParsedFrom namedRecord s ∧ 0xd1 ∉ namedRecord ∧
      ¬ (countryShard [] maltaRule).AgreesOnCountry none s := by
  have hrun : ((countryShard [] maltaRule).parseAndFilter namedRecord none (ascii "1A0AA")
      .hamCallDatIdx).toOption.any fun snapshots => snapshots.any fun s =>
        s.callsign == ascii "1A0AA" && s.country.isNone := by decide +kernel
  have hcatalog : ((CallBook.countryCatalog ⟨some (countryShard [] maltaRule)⟩ none).lookupInfo
      (ascii "1A0AA")).toOption.any Option.isSome := by decide +kernel
  obtain ⟨s, hs, hq⟩ := exists_parsedFrom_countryShard hrun
  rw [Bool.and_eq_true, beq_iff_eq, Option.isNone_iff_eq_none] at hq
  rw [Option.any_eq_true] at hcatalog
  obtain ⟨info, hinfo, hsome⟩ := hcatalog
  obtain ⟨info, rfl⟩ := Option.isSome_iff_exists.mp hsome
  refine ⟨s, hs, by decide +kernel, fun hagrees => ?_⟩
  rw [Panic.toOption_eq_some_iff, ← hq.1] at hinfo
  have hcountry := (hagrees info hinfo).1
  rw [hq.2] at hcountry
  cases hcountry

end V2Shard

end Callbook
