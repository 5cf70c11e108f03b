import Callbook.Database.Caches
import Callbook.Database.Merge
import Callbook.Photos.Assets

/-!
# Profiles and maps of stations

A profile puts the report on a callsign together with its country, its lookup count and its assets.
A map also takes a location from the report, which needs a snapshot with finite coordinates.
-/

namespace Callbook

open Text CacheSource

/-! ### Locations -/

/-- `f64::is_finite`: the value does not round to infinity. -/
def F64.isFinite (x : F64) : Bool :=
  match x.value with
  | some (some (some q)) => |q| < 2 ^ 1024 - 2 ^ 970
  | _ => false

def snapshotLocation (snapshot : CallSnapshot) : Option GeoPoint := do
  let lat ← F64.parse (Utf8.trim (← snapshot.latitude))
  let lon ← F64.parse (Utf8.trim (← snapshot.longitude))
  if lat.isFinite && lon.isFinite then some { lon, lat } else none

def bestMappableSnapshot (report : LookupResult) : Option CallSnapshot :=
  (report.current.filter fun snapshot => (snapshotLocation snapshot).isSome).or
    (report.history.reverse.find? fun snapshot => (snapshotLocation snapshot).isSome)

/-! ### Profiles and maps -/

/-- Compact, UI-oriented station profile. -/
structure StationProfile where
  /-- Normalized callsign. -/
  callsign : Str
  status : LookupStatus
  current : Option CallSnapshot
  history : HistorySummary
  country : Option CountryInfo
  lookupCount : Option LookupCountRecord
  assets : ProfileAssets

/-- Map context of a station, without the database that it borrows its layers from. -/
structure StationMap where
  callsign : Str
  mappableSnapshot : Option CallSnapshot
  country : Option CountryInfo
  assets : ProfileAssets

/-- `StationMap::station_location`. -/
def StationMap.stationLocation (map : StationMap) : Option GeoPoint :=
  map.mappableSnapshot.bind snapshotLocation

/-- What a profile can fail with. -/
inductive ProfileError where
  | lookup (e : Error)
  | io (e : IoError)
  deriving DecidableEq, Repr

/-- An opened database with what its directory holds besides the tables of a lookup. -/
structure CallBookDir (Target : Type) extends CallBook where
  countryNames : Option CountryNameTable
  tree : AssetTree Target

namespace CallBookDir

variable {Target : Type} (dir : CallBookDir Target)
  (told : (sidecar : CachedSidecar) → Answer IoError sidecar.Value)

/-- `CallBook::country_catalog`. -/
def countryCatalog : CountryCatalog :=
  match dir.v2 with
  | none => ⟨none, none, none⟩
  | some v2 => ⟨v2.countries, v2.pcCountries, dir.countryNames⟩

/-- `CallBook::country_info`. -/
def countryInfo (callsign : Str) : Except Panic (Option CountryInfo) :=
  dir.countryCatalog.lookupInfo callsign

/-- `CallBook::lookup_count`, with what it is told of `counts.dat`. -/
def lookupCount (callsign : Str) : Except IoError (Option LookupCountRecord) := do
  let counts : Option LookupCounts ← toResult (told .lookupCounts)
  pure (counts.bind (·.lookup callsign))

/-- `CallBook::profile_assets`; a manifest that cannot be read is passed over. -/
def profileAssets (callsign : Str) (country : Option CountryInfo) : ProfileAssets :=
  let catalog : Option PhotoCatalog := (toResult (told .photoCatalog)).toOption.join
  match dir.v2 with
  | none => ⟨[], none, none, none⟩
  | some _ => dir.tree.profileAssets callsign catalog country

/-- `CallBook::profile_from_report`. -/
def profileFromReport (report : LookupResult) :
    Except Panic (Except ProfileError StationProfile) := do
  let country ← dir.countryInfo report.query
  match lookupCount told report.query with
  | .error e => pure (.error (.io e))
  | .ok lookupCount =>
    pure (.ok
      { callsign := report.query
        status := report.status
        current := report.current
        history := historySummary report
        country
        lookupCount
        assets := dir.profileAssets told report.query country })

/-- `CallBook::profile_for_callsign`. -/
def profileForCallsign (callsign : Str) : Except Panic (Except ProfileError StationProfile) := do
  match ← dir.lookupReport callsign with
  | .error e => pure (.error (.lookup e))
  | .ok report => dir.profileFromReport told report

/-- `CallBook::map_from_report`. -/
def mapFromReport (report : LookupResult) : Except Panic StationMap := do
  let country ← dir.countryInfo report.query
  pure
    { callsign := report.query
      mappableSnapshot := bestMappableSnapshot report
      country
      assets := dir.profileAssets told report.query country }

/-- `CallBook::map_for_callsign`. -/
def mapForCallsign (callsign : Str) : Except Panic (Except Error (Option StationMap)) := do
  match ← dir.lookupReport callsign with
  | .error e => pure (.error e)
  | .ok report =>
    if report.status = .notFound then pure (.ok none)
    else do
      let map ← dir.mapFromReport told report
      pure (.ok (some map))

end CallBookDir

/-! ### Where a map puts a station -/

/-- The current snapshot if it has a location, and else the one of the last vintage that has. -/
def LookupResult.Locates (report : LookupResult) : Option CallSnapshot → Prop
  | none => ∀ s ∈ report.current.toList ++ report.history, snapshotLocation s = none
  | some s => (snapshotLocation s).isSome ∧ (s ∈ report.current ∨
      (∀ t ∈ report.current, snapshotLocation t = none) ∧ s ∈ report.history ∧
        ∀ t ∈ report.history, (snapshotLocation t).isSome → t = s ∨ t.vintage < s.vintage)

lemma vintage_lt_of_invariant {report : LookupResult} (h : report.Invariant) :
    report.history.Pairwise fun s t => s.vintage < t.vintage := by
  obtain ⟨years, hyears, hlt, -⟩ := h.history_vintages
  rw [← List.pairwise_map (f := CallSnapshot.vintage) (R := (· < ·)), hyears, List.pairwise_map]
  exact hlt.imp fun hab => hab

lemma locates_bestMappableSnapshot {report : LookupResult} (h : report.Invariant) :
    report.Locates (bestMappableSnapshot report) := by
  rw [bestMappableSnapshot]
  cases hcurrent : report.current.filter fun snapshot => (snapshotLocation snapshot).isSome with
  | some s =>
    obtain ⟨hs, hlocated⟩ := Option.filter_eq_some_iff.mp hcurrent
    exact ⟨hlocated, .inl hs⟩
  | none =>
    have hnone : ∀ t ∈ report.current, snapshotLocation t = none := by
      simpa using Option.filter_eq_none_iff.mp hcurrent
    rw [Option.none_or]
    cases hfind : report.history.reverse.find? fun s => (snapshotLocation s).isSome with
    | none =>
      have hhistory : ∀ t ∈ report.history, snapshotLocation t = none := by
        simpa using hfind
      intro t ht
      rw [List.mem_append, Option.mem_toList] at ht
      exact ht.elim (hnone t) (hhistory t)
    | some s =>
      obtain ⟨hlocated, later, earlier, hsplit, hlater⟩ := List.find?_eq_some_iff_append.mp hfind
      have hhistory : report.history = earlier.reverse ++ s :: later.reverse := by
        rw [← List.reverse_reverse report.history, hsplit]
        simp
      refine ⟨hlocated, .inr ⟨hnone, by simp [hhistory], fun t ht hlocatedt => ?_⟩⟩
      have hlt := (vintage_lt_of_invariant h)
      rw [hhistory] at ht hlt
      rcases List.mem_append.mp ht with ht | ht
      · exact .inr ((List.pairwise_append.mp hlt).2.2 t ht s List.mem_cons_self)
      · rcases List.mem_cons.mp ht with rfl | ht
        · exact .inl rfl
        · have hunlocated := hlater t (List.mem_reverse.mp ht)
          simp [hlocatedt] at hunlocated

/-- A snapshot with a location is found if there is one. -/
lemma LookupResult.Locates.isSome_iff {report : LookupResult} {best : Option CallSnapshot}
    (h : report.Locates best) : (best.bind snapshotLocation).isSome ↔
      ∃ s ∈ report.current.toList ++ report.history, (snapshotLocation s).isSome := by
  cases best with
  | none =>
    refine iff_of_false (by simp) fun ⟨s, hs, hlocated⟩ => ?_
    rw [h s hs] at hlocated
    cases hlocated
  | some s =>
    refine iff_of_true (by simpa using h.1) ⟨s, ?_, h.1⟩
    rw [List.mem_append, Option.mem_toList]
    exact h.2.imp id fun hhistory => hhistory.2.1

namespace CallBookDir

variable {Target : Type} {dir : CallBookDir Target}
  {told : (sidecar : CachedSidecar) → Answer IoError sidecar.Value}

lemma exists_merged_of_report {db : CallBook} {callsign : Str} {r : LookupResult}
    (h : db.lookupReport callsign = .ok (.ok r)) : ∃ query state, Merged query state ∧
      r = CallBook.report query state := by
  obtain ⟨key, snapshots, -, hsnapshots, rfl⟩ := CallBook.lookupReport_eq_ok_iff.mp h
  have hquery := key.asStr_spec.2.2
  exact ⟨_, _, merged_foldl (CallBook.merged_lookupUsCurrent hquery)
    (CallBook.answers_of_shardSnapshots hquery hsnapshots), rfl⟩

lemma status_report {query : Str} {state : MergeState} :
    (CallBook.report query state).status = .notFound ↔
      (CallBook.report query state).current = none ∧
        (CallBook.report query state).history = [] := by
  simp only [CallBook.report]
  split_ifs with hcurrent hhistory
  · simp [Option.isSome_iff_ne_none.mp hcurrent]
  · simpa [hhistory] using hcurrent
  · simp [hhistory]

lemma mapFromReport_eq_ok_iff {report : LookupResult} {map : StationMap} :
    dir.mapFromReport told report = .ok map ↔
      ∃ country, dir.countryInfo report.query = .ok country ∧
        map = ⟨report.query, bestMappableSnapshot report, country,
          dir.profileAssets told report.query country⟩ := by
  rw [mapFromReport, Panic.bind_eq_ok_iff]
  refine exists_congr fun country => and_congr_right fun _ => ?_
  exact ⟨fun h => (Except.ok.inj h).symm, fun h => congrArg Except.ok h.symm⟩

lemma profileFromReport_eq_ok_iff {report : LookupResult} {profile : StationProfile} :
    dir.profileFromReport told report = .ok (.ok profile) ↔
      ∃ country lookupCount, dir.countryInfo report.query = .ok country ∧
        CallBookDir.lookupCount told report.query = .ok lookupCount ∧
        profile = ⟨report.query, report.status, report.current, historySummary report, country,
          lookupCount, dir.profileAssets told report.query country⟩ := by
  rw [profileFromReport, Panic.bind_eq_ok_iff]
  refine exists_congr fun country => ?_
  cases CallBookDir.lookupCount told report.query with
  | error e => simp [pure, Except.pure]
  | ok lookupCount => simp [pure, Except.pure, eq_comm]

/-- A callsign has a map unless nothing is known of it. The map puts the station where its current
snapshot says, or else the one of the last vintage with a location, and agrees with the profile. -/
theorem mapForCallsign_spec {callsign : Str} {answer : Option StationMap}
    (h : dir.mapForCallsign told callsign = .ok (.ok answer)) :
    ∃ report, dir.lookupReport callsign = .ok (.ok report) ∧
      (answer = none ↔ report.current = none ∧ report.history = []) ∧
      ∀ map ∈ answer, report.Locates map.mappableSnapshot ∧
        (map.stationLocation.isSome ↔
          ∃ s ∈ report.current.toList ++ report.history, (snapshotLocation s).isSome) ∧
        ∀ profile, dir.profileForCallsign told callsign = .ok (.ok profile) →
          profile.callsign = map.callsign ∧ profile.status ≠ .notFound ∧
            profile.country = map.country ∧ profile.assets = map.assets := by
  rw [mapForCallsign] at h
  obtain ⟨result, hlookup, h⟩ := Panic.bind_eq_ok_iff.mp h
  cases result with
  | error e => cases h
  | ok report =>
    obtain ⟨query, state, hmerged, rfl⟩ := exists_merged_of_report hlookup
    refine ⟨_, hlookup, ?_⟩
    rw [← status_report]
    dsimp only at h
    split_ifs at h with hstatus
    · obtain rfl := Except.ok.inj (Except.ok.inj h)
      exact ⟨by simp [hstatus], by simp⟩
    · obtain ⟨map, hmap, h⟩ := Panic.bind_eq_ok_iff.mp h
      obtain rfl := Except.ok.inj (Except.ok.inj h)
      obtain ⟨country, hcountry, rfl⟩ := mapFromReport_eq_ok_iff.mp hmap
      have hlocates := locates_bestMappableSnapshot (invariant_report hmerged)
      refine ⟨by simp [hstatus], fun map hmap => ?_⟩
      obtain rfl := Option.some.inj hmap
      refine ⟨hlocates, hlocates.isSome_iff, fun profile hprofile => ?_⟩
      rw [profileForCallsign, hlookup] at hprofile
      obtain ⟨country', lookupCount, hcountry', -, rfl⟩ :=
        profileFromReport_eq_ok_iff.mp hprofile
      obtain rfl := Except.ok.inj (hcountry.symm.trans hcountry')
      exact ⟨rfl, hstatus, rfl, rfl⟩

/-- A station whose current record has no coordinates and whose archive record has. -/
def movedFiles : CallBook.Files :=
  { CallBook.sampleFiles with
    dat := decodeDat (0 :: (0xb5 :: ascii "W1AW" ++ 0xba :: ascii "ARRL") ++
      (0xb5 :: ascii "W1AW:1999" ++ 0xc8 :: ascii "41.71" ++ 0xc9 :: ascii "-72.73")) }

lemma wellFormed_of_mem_none (_ : Unit) :
    ∀ l ∈ (none : Option (Listing Bytes Unit)), l.WellFormed IsFileName := by simp

def emptyTree : AssetTree Unit where
  dir := [.normal (ascii "ham0")]
  listing := .empty
  follow := fun _ => none
  isFileTarget := fun _ => false
  wellFormed := trivial
  follow_wellFormed := wellFormed_of_mem_none

theorem mapForCallsign_movedFiles : ∃ db map, CallBook.open movedFiles = .ok (.ok db) ∧
    mapForCallsign ⟨db, none, emptyTree⟩ (fun _ => .absent) (ascii "w1aw") = .ok (.ok (some map)) ∧
      map.mappableSnapshot.bind CallSnapshot.vintage = some 1999 ∧
      ∃ report, db.lookupReport (ascii "w1aw") = .ok (.ok report) ∧
        report.Locates map.mappableSnapshot := by
  have hrun : (CallBook.returned (CallBook.open movedFiles)).any fun db =>
      (CallBook.returned
        (mapForCallsign ⟨db, none, emptyTree⟩ (fun _ => .absent) (ascii "w1aw"))).any fun answer =>
          answer.any fun map =>
            map.mappableSnapshot.bind CallSnapshot.vintage == some 1999 := by decide +kernel
  simp only [Option.any_eq_true, CallBook.returned_eq_some_iff, beq_iff_eq] at hrun
  obtain ⟨db, hopen, _, hmap, map, rfl, hvintage⟩ := hrun
  obtain ⟨report, hreport, -, hlocates⟩ := mapForCallsign_spec hmap
  exact ⟨db, map, hopen, hmap, hvintage, report, hreport, (hlocates map rfl).1⟩

end CallBookDir

end Callbook
