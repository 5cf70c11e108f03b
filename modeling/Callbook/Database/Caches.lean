import Callbook.Boundary.Basic
import Callbook.Boundary.StateMap
import Callbook.Counts.Basic
import Callbook.Database.Records
import Callbook.Library.SharedCaches
import Callbook.Photos.Basic

/-!
# Cached sidecar files

A database keeps six sidecar files once they were read. Several threads may ask one database for
them, and the files may be changed meanwhile.
-/

namespace Callbook

open Text CacheSource

/-! ### The files -/

/-- `std::io::Error`. -/
inductive IoError where
  | notFound
  | invalidData
  deriving DecidableEq, Repr

/-- The contents of the regular files below `ham0`. A change of the files puts other files in their
place: the map of `counts.dat` keeps showing the file that was opened. -/
abbrev SidecarFiles := Str → Option Bytes

namespace SidecarFiles

variable (files : SidecarFiles)

/-- `std::fs::read`, and a memory map of the file, which is taken for its bytes: nothing writes into
a mapped file. -/
def read (path : Str) : Except IoError Bytes :=
  match files path with
  | none => .error .notFound
  | some bytes => .ok bytes

/-- `std::fs::read_to_string`, and the lines of a reader. -/
def readToString (path : Str) : Except IoError Str := do
  let bytes ← files.read path
  if Utf8.Valid bytes then pure bytes else throw .invalidData

end SidecarFiles

/-- The sidecar files that a database caches. -/
inductive CachedSidecar where
  | lookupCounts
  | photoCatalog
  | worldBoundaries
  | countyBoundaries
  | usCountyBoundaries
  | stateVectors
  deriving DecidableEq, Repr

namespace CachedSidecar

def path : CachedSidecar → Str
  | lookupCounts => ascii "counts.dat"
  | photoCatalog => ascii "photos/PHOTOS.TXT"
  | worldBoundaries => ascii "wc.dat"
  | countyBoundaries => ascii "cb.dat"
  | usCountyBoundaries => ascii "USCOUN.DAT"
  | stateVectors => ascii "state.dat"

/-- What is kept. -/
def Value : CachedSidecar → Type
  | lookupCounts => LookupCounts
  | photoCatalog => PhotoCatalog
  | worldBoundaries => BoundaryDataset
  | countyBoundaries => BoundaryDataset
  | usCountyBoundaries => UsCountyBoundaryDataset
  | stateVectors => StateVectorDataset

/-- The `open` of a file that is not cached. -/
def load (files : SidecarFiles) : (sidecar : CachedSidecar) → Except IoError sidecar.Value
  | lookupCounts => do
    let mmap ← files.read lookupCounts.path
    pure (LookupCounts.open mmap)
  | photoCatalog => do
    let text ← files.readToString photoCatalog.path
    pure (PhotoCatalog.parse text)
  | worldBoundaries => do
    let text ← files.readToString worldBoundaries.path
    pure (BoundaryDataset.open text .world)
  | countyBoundaries => do
    let text ← files.readToString countyBoundaries.path
    pure (BoundaryDataset.open text .county)
  | usCountyBoundaries => do
    let text ← files.readToString usCountyBoundaries.path
    pure (UsCountyBoundaryDataset.open text)
  | stateVectors => do
    let bytes ← files.read stateVectors.path
    pure (PackedStateMap.open bytes).vectorDataset

end CachedSidecar

/-- The functions `lookup_counts`, `photo_catalog`, `world_boundary_dataset`,
`county_boundary_dataset`, `us_county_boundaries` and `state_vector_dataset` of a database: without a
shard or without the file there is nothing, and the file is read when the cache is empty. -/
def CallBook.sidecars (db : CallBook) :
    CacheSource SidecarFiles IoError CachedSidecar.Value where
  present files sidecar := db.v2.isSome && (files sidecar.path).isSome
  load := CachedSidecar.load

/-- A database with its caches, and the threads that use it. -/
abbrev CachesState (Thread : Type*) := State SidecarFiles IoError CachedSidecar.Value Thread

abbrev CachesAction (Thread : Type*) := Action SidecarFiles CachedSidecar Thread

/-- The files at the start or after some step of a schedule. -/
def WasOnDisk {Thread : Type*} (files₀ : SidecarFiles) (schedule : List (CachesAction Thread))
    (files : SidecarFiles) : Prop :=
  files = files₀ ∨ .change files ∈ schedule

namespace CallBook

variable {db : CallBook} {Thread : Type*} [DecidableEq Thread] {files₀ : SidecarFiles}
  {schedule schedule' : List (CachesAction Thread)} {s s' : CachesState Thread}
  {sidecar : CachedSidecar}

lemma inv_sidecars (h : db.sidecars.runs (.initial files₀) schedule = some s) :
    db.sidecars.Inv (WasOnDisk files₀ schedule) s := by
  refine ((inv_initial (.inl rfl)).runs (fun action haction => ?_) h).1
  cases action with
  | change files => exact .inr haction
  | call t sidecar => trivial
  | run t => trivial

/-- However threads are interleaved and files are changed: no two threads are at work on one cache,
what a thread is told about a file is what was on the disk at some moment, and all threads are told
the same value of it. -/
theorem sidecar_answers (h : db.sidecars.runs (.initial files₀) schedule = some s) :
    (∀ sidecar t u, s.Critical sidecar t → s.Critical sidecar u → t = u) ∧
      (∀ sidecar a b, ⟨sidecar, .value a⟩ ∈ s.answers → ⟨sidecar, .value b⟩ ∈ s.answers → a = b) ∧
      ∀ p ∈ s.answers, ∃ files, WasOnDisk files₀ schedule files ∧
        match p.2 with
        | .absent => db.sidecars.present files p.1 = false
        | .value a => CachedSidecar.load files p.1 = .ok a
        | .failed e => CachedSidecar.load files p.1 = .error e := by
  have hinv := inv_sidecars h
  refine ⟨fun _ _ _ => hinv.eq_of_critical, fun sidecar a b ha hb => ?_, fun p hp => ?_⟩
  · have ha' := (hinv.answers _ ha).2
    have hb' := (hinv.answers _ hb).2
    exact Option.some.inj (ha'.symm.trans hb')
  · obtain ⟨sidecar, answer⟩ := p
    have hanswer := hinv.answers _ hp
    cases answer with
    | absent => exact hanswer
    | value a => exact hinv.cell sidecar a hanswer.2
    | failed e => exact hanswer.2

/-! ### A replaced file -/

/-- A database whose sidecars are those of the given files. -/
def sampleDb : CallBook := ⟨some (V2Shard.sampleShard [])⟩

/-- A boundary file and nothing else. -/
def worldFile (text : Str) : SidecarFiles :=
  fun path => if path = CachedSidecar.worldBoundaries.path then some text else none

/-- Two threads ask for the boundaries, and one of them reads and stores them. -/
def oneReads : List (CachesAction Bool) :=
  [.call true .worldBoundaries, .call false .worldBoundaries, .run true, .run false, .run true,
    .run true, .run true, .run true]

/-- The file is replaced before the other one has the lock. -/
def otherReads : List (CachesAction Bool) :=
  [.change (worldFile [0xff]), .run true, .run false, .run false, .run false]

theorem sidecar_answers_replaced : ∃ s : CachesState Bool,
    sampleDb.sidecars.runs (.initial (worldFile [])) (oneReads ++ otherReads) = some s ∧
      ∀ sidecar a b, ⟨sidecar, .value a⟩ ∈ s.answers → ⟨sidecar, .value b⟩ ∈ s.answers → a = b := by
  have hruns : ∃ s : CachesState Bool,
      sampleDb.sidecars.runs (.initial (worldFile [])) (oneReads ++ otherReads) = some s := ⟨_, rfl⟩
  obtain ⟨s, h⟩ := hruns
  exact ⟨s, h, (sidecar_answers h).2.1⟩

/-- Once a file is kept it stays what it is, whatever happens to the files: from then on no thread is
told an error or another value. -/
theorem sidecar_kept (h : db.sidecars.runs (.initial files₀) schedule = some s)
    (h' : db.sidecars.runs s schedule' = some s') {a : sidecar.Value}
    (ha : s.cell sidecar = some a) :
    s'.cell sidecar = some a ∧ ∃ told, s'.answers = told ++ s.answers ∧
      ∀ answer, ⟨sidecar, answer⟩ ∈ told → answer = .absent ∨ answer = .value a := by
  obtain ⟨-, hextends⟩ := extends_of_runs h h'
  obtain ⟨told, htold, hvalues⟩ := hextends.answers
  exact ⟨hextends.cell sidecar a ha, told, htold, fun answer hmem => hvalues _ hmem a ha⟩

theorem sidecar_kept_replaced : ∃ (s s' : CachesState Bool) (a : BoundaryDataset),
    sampleDb.sidecars.runs (.initial (worldFile [])) oneReads = some s ∧
      sampleDb.sidecars.runs s otherReads = some s' ∧ s'.cell .worldBoundaries = some a := by
  have hruns : ∃ (s s' : CachesState Bool) (a : BoundaryDataset),
      sampleDb.sidecars.runs (.initial (worldFile [])) oneReads = some s ∧
        sampleDb.sidecars.runs s otherReads = some s' ∧ s.cell .worldBoundaries = some a :=
    ⟨_, _, _, rfl, rfl, rfl⟩
  obtain ⟨s, s', a, h, h', ha⟩ := hruns
  exact ⟨s, s', a, h, h', (sidecar_kept h h' ha).1⟩

/-- The calls come to an end: without new calls each thread takes at most six steps, however the
threads are scheduled and the files are changed, and if none of them can go on then none is in a
call. -/
theorem sidecar_calls_end (h : db.sidecars.runs (.initial files₀) schedule = some s)
    (hcalls : ∀ action ∈ schedule', action.isCall = false)
    (h' : db.sidecars.runs s schedule' = some s') :
    (∀ t, schedule'.countP (·.isRunOf t) ≤ 6) ∧
      ((∀ t, db.sidecars.step s' (.run t) = none) → ∀ t, s'.pc t = none) :=
  ⟨countP_isRunOf_le hcalls h', (extends_of_runs h h').1.idle_of_stuck⟩

theorem sidecar_calls_end_replaced : ∃ s s' : CachesState Bool,
    sampleDb.sidecars.runs (.initial (worldFile [])) oneReads = some s ∧
      sampleDb.sidecars.runs s otherReads = some s' ∧
        ((∀ t, sampleDb.sidecars.step s' (.run t) = none) → ∀ t, s'.pc t = none) := by
  have hruns : ∃ s s' : CachesState Bool,
      sampleDb.sidecars.runs (.initial (worldFile [])) oneReads = some s ∧
        sampleDb.sidecars.runs s otherReads = some s' := ⟨_, _, rfl, rfl⟩
  obtain ⟨s, s', h, h'⟩ := hruns
  refine ⟨s, s', h, h', (sidecar_calls_end h ?_ h').2⟩
  simp [otherReads, Action.isCall]

/-- As long as the files are not changed, the caches and the other threads make no difference. -/
theorem sidecar_answers_eq_ask (h : db.sidecars.runs (.initial files₀) schedule = some s)
    (hfiles : ∀ files, .change files ∈ schedule → files = files₀) :
    ∀ p ∈ s.answers, p.2 = db.sidecars.ask files₀ p.1 := by
  have hinit : db.sidecars.Inv (fun files => files = files₀)
      (.initial files₀ : CachesState Thread) := inv_initial rfl
  have hinv := hinit.runs (fun action haction => ?_) h
  · rintro ⟨sidecar, answer⟩ hp
    exact hinv.1.eq_ask hp
  · cases action with
    | change files => exact hfiles files haction
    | call t sidecar => trivial
    | run t => trivial

theorem sidecar_answers_eq_ask_world : ∃ s : CachesState Bool,
    sampleDb.sidecars.runs (.initial (worldFile [])) oneReads = some s ∧
      ∀ p ∈ s.answers, p.2 = sampleDb.sidecars.ask (worldFile []) p.1 := by
  have hruns : ∃ s : CachesState Bool,
      sampleDb.sidecars.runs (.initial (worldFile [])) oneReads = some s := ⟨_, rfl⟩
  obtain ⟨s, h⟩ := hruns
  exact ⟨s, h, sidecar_answers_eq_ask h (by simp [oneReads])⟩

end CallBook

/-! ### Map layers -/

/-- The `Result` of a function that asks a cache. -/
def toResult {α : Type} : Answer IoError α → Except IoError (Option α)
  | .absent => .ok none
  | .value a => .ok (some a)
  | .failed e => .error e

/-- Coverage counts for map sidecar layers. -/
structure MapLayerStatistics where
  worldSegments : ℕ
  worldPoints : ℕ
  countySegments : ℕ
  countyPoints : ℕ
  usCounties : ℕ
  usCountyPoints : ℕ
  stateSegments : ℕ
  statePoints : ℕ
  deriving DecidableEq, Repr

/-- `MapLayers::statistics`, with what it is told of the layers. -/
def mapLayerStatistics (told : (sidecar : CachedSidecar) → Answer IoError sidecar.Value) :
    Except IoError MapLayerStatistics := do
  let world : Option BoundaryDataset ← toResult (told .worldBoundaries)
  let county : Option BoundaryDataset ← toResult (told .countyBoundaries)
  let usCounty : Option UsCountyBoundaryDataset ← toResult (told .usCountyBoundaries)
  let state : Option StateVectorDataset ← toResult (told .stateVectors)
  pure
    { worldSegments := world.elim 0 (·.segments.length)
      worldPoints := world.elim 0 (·.pointCount)
      countySegments := county.elim 0 (·.segments.length)
      countyPoints := county.elim 0 (·.pointCount)
      usCounties := usCounty.elim 0 (·.counties.length)
      usCountyPoints := usCounty.elim 0 fun layer =>
        (layer.counties.map fun county => county.points.length).sum
      stateSegments := state.elim 0 (·.segments.length)
      statePoints := state.elim 0 (·.pointCount) }

/-- The files of the map layers. -/
def mapLayers : List CachedSidecar :=
  [.worldBoundaries, .countyBoundaries, .usCountyBoundaries, .stateVectors]

lemma toResult_eq_ok {α : Type} {answer : Answer IoError α} {value : Option α}
    (h : toResult answer = .ok value) (habsent : answer ≠ .absent) : ∃ a, answer = .value a := by
  cases answer with
  | absent => exact absurd rfl habsent
  | value a => exact ⟨a, rfl⟩
  | failed e => cases h

lemma toResult_ne_error {told : (sidecar : CachedSidecar) → Answer IoError sidecar.Value}
    {x : MapLayerStatistics} (h : mapLayerStatistics told = .ok x) :
    ∀ sidecar ∈ mapLayers, ∃ value, toResult (told sidecar) = .ok value := by
  rw [mapLayerStatistics] at h
  obtain ⟨world, hworld, h⟩ := Panic.bind_eq_ok_iff.mp h
  obtain ⟨county, hcounty, h⟩ := Panic.bind_eq_ok_iff.mp h
  obtain ⟨usCounty, husCounty, h⟩ := Panic.bind_eq_ok_iff.mp h
  obtain ⟨state, hstate, h⟩ := Panic.bind_eq_ok_iff.mp h
  simp only [mapLayers, List.forall_mem_cons]
  exact ⟨⟨_, hworld⟩, ⟨_, hcounty⟩, ⟨_, husCounty⟩, ⟨_, hstate⟩, fun _ h => nomatch h⟩

/-- Statistics only depend on what is told of the layers. -/
lemma mapLayerStatistics_congr
    {told told' : (sidecar : CachedSidecar) → Answer IoError sidecar.Value}
    (h : ∀ sidecar ∈ mapLayers, told sidecar = told' sidecar) :
    mapLayerStatistics told = mapLayerStatistics told' := by
  simp only [mapLayers, List.forall_mem_cons] at h
  rw [mapLayerStatistics, mapLayerStatistics, h.1, h.2.1, h.2.2.1, h.2.2.2.1]

/-- Statistics that are taken twice from the files of all layers are the same, however the files are
changed in between and whichever threads read them first. -/
theorem CallBook.mapLayerStatistics_eq {db : CallBook} {Thread : Type*} [DecidableEq Thread]
    {files₀ : SidecarFiles} {schedule : List (CachesAction Thread)} {s : CachesState Thread}
    (h : db.sidecars.runs (.initial files₀) schedule = some s)
    {told told' : (sidecar : CachedSidecar) → Answer IoError sidecar.Value}
    (htold : ∀ sidecar ∈ mapLayers, ⟨sidecar, told sidecar⟩ ∈ s.answers ∧ told sidecar ≠ .absent)
    (htold' : ∀ sidecar ∈ mapLayers,
      ⟨sidecar, told' sidecar⟩ ∈ s.answers ∧ told' sidecar ≠ .absent)
    {x y : MapLayerStatistics} (hx : mapLayerStatistics told = .ok x)
    (hy : mapLayerStatistics told' = .ok y) : x = y := by
  have heq : ∀ sidecar ∈ mapLayers, told sidecar = told' sidecar := by
    intro sidecar hsidecar
    obtain ⟨hmem, habsent⟩ := htold sidecar hsidecar
    obtain ⟨hmem', habsent'⟩ := htold' sidecar hsidecar
    obtain ⟨value, hvalue⟩ := toResult_ne_error hx sidecar hsidecar
    obtain ⟨value', hvalue'⟩ := toResult_ne_error hy sidecar hsidecar
    obtain ⟨a, ha⟩ := toResult_eq_ok hvalue habsent
    obtain ⟨b, hb⟩ := toResult_eq_ok hvalue' habsent'
    rw [ha] at hmem ⊢
    rw [hb] at hmem' ⊢
    have hinv := inv_sidecars h
    rw [Option.some.inj ((hinv.answers _ hmem).2.symm.trans (hinv.answers _ hmem').2)]
  rw [mapLayerStatistics_congr heq, hy] at hx
  exact (Except.ok.inj hx).symm

end Callbook
