import Callbook.Country.Basic

/-!
# The country catalog

The catalog asks the primary prefix table and, where that has no rule, the fallback table. The name
table only fills in coordinates.
-/

namespace Callbook

open Text

/-! ### Names -/

/-- One longitude/latitude coordinate. -/
structure GeoPoint where
  lon : F64
  lat : F64
  deriving DecidableEq, Repr

structure CountryNameCentroid where
  name : Str
  location : GeoPoint
  deriving DecidableEq, Repr

/-- The centroids of `countrys.nam` by uppercase name. -/
structure CountryNameTable where
  centroids : Std.ExtTreeMap Str CountryNameCentroid

/-- `CountryNameTable::lookup`. -/
def CountryNameTable.lookup (table : CountryNameTable) (name : Str) : Option CountryNameCentroid :=
  table.centroids[toAsciiUppercase (Utf8.trim name)]?

/-- `enrich_country_info`. -/
def enrichCountryInfo (info : CountryInfo) (countryNames : Option CountryNameTable) : CountryInfo :=
  if info.latitude.isNone ∨ info.longitude.isNone then
    match countryNames.bind (·.lookup info.name) with
    | none => info
    | some centroid =>
      { info with
        latitude := some (info.latitude.getD centroid.location.lat)
        longitude := some (info.longitude.getD centroid.location.lon) }
  else info

/-- A centroid changes the coordinates at most. -/
lemma enrichCountryInfo_frame (info : CountryInfo) (countryNames : Option CountryNameTable) :
    ∃ latitude longitude,
      enrichCountryInfo info countryNames = { info with latitude, longitude } := by
  rw [enrichCountryInfo]
  split_ifs
  · split
    · exact ⟨_, _, rfl⟩
    · exact ⟨_, _, rfl⟩
  · exact ⟨_, _, rfl⟩

/-! ### Two tables -/

namespace CountryTable

variable {α : Type} {primary fallback : Option CountryTable}
  {ask : CountryTable → Except Panic (Option α)}

/-- Ask a table, if there is one. -/
def askOptional (table : Option CountryTable) (ask : CountryTable → Except Panic (Option α)) :
    Except Panic (Option α) :=
  match table with
  | none => .ok none
  | some table => ask table

/-- Ask the primary table, and the fallback where it has no answer. -/
def askOrElse (primary fallback : Option CountryTable)
    (ask : CountryTable → Except Panic (Option α)) : Except Panic (Option α) := do
  match ← askOptional primary ask with
  | some found => pure (some found)
  | none => askOptional fallback ask

lemma askOptional_eq_ok_some_iff {a : α} :
    askOptional primary ask = .ok (some a) ↔ ∃ table ∈ primary, ask table = .ok (some a) := by
  cases primary <;> simp [askOptional]

lemma askOptional_eq_ok_none_iff :
    askOptional primary ask = .ok none ↔ ∀ table ∈ primary, ask table = .ok none := by
  cases primary <;> simp [askOptional]

/-- What is found comes from the primary table, or from the fallback when the primary table has
nothing. -/
theorem askOrElse_eq_ok_some_iff {a : α} : askOrElse primary fallback ask = .ok (some a) ↔
    (∃ table ∈ primary, ask table = .ok (some a)) ∨
      (∀ table ∈ primary, ask table = .ok none) ∧
        ∃ table ∈ fallback, ask table = .ok (some a) := by
  rw [← askOptional_eq_ok_some_iff, ← askOptional_eq_ok_none_iff, ← askOptional_eq_ok_some_iff,
    askOrElse]
  cases askOptional primary ask with
  | error e => simp [bind, Except.bind]
  | ok found => cases found <;> simp [pure, Except.pure]

/-- A question that only reads off what another one finds. -/
lemma askOrElse_map {β : Type} (f : α → β) :
    askOrElse primary fallback (fun table => (ask table).map (Option.map f)) =
      (askOrElse primary fallback ask).map (Option.map f) := by
  have hask : ∀ table : Option CountryTable,
      askOptional table (fun table => (ask table).map (Option.map f)) =
        (askOptional table ask).map (Option.map f) := by
    intro table
    cases table <;> rfl
  rw [askOrElse, askOrElse, hask, hask]
  cases askOptional primary ask with
  | error e => rfl
  | ok found => cases found <;> rfl

end CountryTable

/-- Unified country lookup model spanning prefix, fallback, and name sidecars. -/
structure CountryCatalog where
  primary : Option CountryTable
  fallback : Option CountryTable
  names : Option CountryNameTable

/-- `CountryCatalog::lookup_info`. -/
def CountryCatalog.lookupInfo (catalog : CountryCatalog) (callsign : Str) :
    Except Panic (Option CountryInfo) := do
  let info ← CountryTable.askOrElse catalog.primary catalog.fallback (·.lookupInfo callsign)
  pure (info.map (enrichCountryInfo · catalog.names))

end Callbook
