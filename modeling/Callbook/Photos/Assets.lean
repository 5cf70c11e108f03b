import Callbook.Library.Firsts
import Callbook.Library.StableClasses
import Callbook.Library.Usize
import Callbook.Country.Basic
import Callbook.Photos.Basic

/-!
# Assets

Below `ham0` lie biographies and photos that are found by callsign, and flags and maps that are
found by country code. A profile puts them in an order of its own: photos by their rank in the
manifest, everything else by its path.
-/

namespace Callbook

open Text

/-! ### Orders -/

/-- `AssetKind::cmp_rank`. -/
def AssetKind.cmpRank : AssetKind → ℕ
  | .biography => 0
  | .photo => 1
  | .flag => 2
  | .map => 3
  | .sidecarData => 4

namespace Component

/-- The place of a component's variant. -/
def variant : Component → ℕ
  | .rootDir => 0
  | .curDir => 1
  | .parentDir => 2
  | .normal _ => 3

/-- The name in a component. -/
def text : Component → Bytes
  | .normal name => name
  | _ => []

/-- `Component::cmp`: by variant, then by name. -/
def order : Component → Component → Ordering := compareLex (compareOn variant) (compareOn text)

end Component

/-- `Path::cmp`. -/
def Path.order : Path → Path → Ordering := List.compareLex Component.order

/-- The comparison of `callsign_assets`, `country_assets_for_callsign` and `profile_assets`. -/
def assetOrder : AssetMetadata → AssetMetadata → Ordering :=
  compareLex (compareOn fun asset => asset.kind.cmpRank) fun a b => Path.order a.path b.path

/-- `Path::file_stem` of a file name. -/
def Path.fileStem (name : Bytes) : Bytes :=
  if 0x2e ∉ name ∨ name = ascii ".." then name
  else
    let before := (name.rdropWhile (· != 0x2e)).dropLast
    if before = [] then name else before

/-! ### Below `ham0` -/

/-- The tree below `ham0`; a link leads to a directory, to a file, or nowhere. -/
structure AssetTree (Target : Type*) where
  dir : Path
  listing : Listing Bytes Target
  follow : Target → Option (Listing Bytes Target)
  isFileTarget : Target → Bool
  wellFormed : listing.WellFormed IsFileName
  follow_wellFormed : ∀ target, ∀ l ∈ follow target, l.WellFormed IsFileName

/-- Reference to a file for workflow APIs; `AssetRef` and `TextAssetRef` take over the fields of the
metadata. -/
abbrev AssetRef := AssetMetadata

/-- Profile asset collection. -/
structure ProfileAssets where
  photos : List AssetRef
  bio : Option AssetRef
  countryFlag : Option AssetRef
  countryMap : Option AssetRef
  deriving DecidableEq, Repr

/-- Whether an upper-case stem is one of the callsign, as `collect_callsign_assets` tests it. -/
def stemMatches (kind : AssetKind) (callsign stem : Str) : Bool :=
  match kind with
  | .biography => stem = callsign
  | .photo => stem = callsign ∨ callsign <+: stem
  | .flag | .map | .sidecarData => false

/-- `collect_callsign_assets`. -/
def collectCallsignAssets {Target : Type*} (root : Path) (l : Listing Bytes Target)
    (kind : AssetKind) (callsign : Str) : List AssetMetadata :=
  let paths := l.walk (fun names =>
    match ((Path.fileName (root ++ names.map .normal)).map Path.fileStem).bind toStr with
    | none => false
    | some stem => stemMatches kind callsign (toAsciiUppercase stem)) []
  paths.map fun names => assetMetadata kind callsign (root ++ names.map .normal)

/-- `collect_country_assets`. -/
def collectCountryAssets {Target : Type*} (root : Path) (l : Listing Bytes Target)
    (kind : AssetKind) (code : Str) : List AssetMetadata :=
  let names := l.files.filter fun name =>
    match toStr (Path.fileStem name) with
    | none => false
    | some stem => toAsciiUppercase (beforeSep 0x2d stem) = toAsciiUppercase code
  names.map fun name => assetMetadata kind code (root ++ [.normal name])

/-- `dedup_assets_by_path`. -/
def dedupAssetsByPath (assets : List AssetRef) : List AssetRef :=
  firstsBy (fun asset => asset.path) ∅ assets

/-- The file name of a manifest entry, where it is text. -/
def PhotoManifestEntry.fileName (entry : PhotoManifestEntry) : Option Str :=
  entry.file.bind fun file => (Path.fileName (Path.components file)).bind toStr

/-- `photo_manifest_rank`. -/
def photoManifestRank (asset : AssetRef) (manifest : List PhotoManifestEntry) : ℕ :=
  match (Path.fileName asset.path).bind toStr with
  | none => Usize.max
  | some fileName =>
    (manifest.findIdx? fun entry =>
      match entry.fileName with
      | none => false
      | some manifestName => toAsciiLowercase manifestName = toAsciiLowercase fileName).getD
      Usize.max

/-- The comparison that puts the photos of a profile in the order of the manifest. -/
def photoOrder (manifest : List PhotoManifestEntry) : AssetRef → AssetRef → Ordering :=
  compareLex (compareOn fun asset => photoManifestRank asset manifest) fun a b =>
    Path.order a.path b.path

namespace AssetTree

variable {Target : Type*} (tree : AssetTree Target) (callsign : Str)

/-- What `read_dir` reads in a directory below `ham0`; a name that cannot be read gives nothing. -/
def readDir? (name : Bytes) : Option (Listing Bytes Target) :=
  match tree.listing.find? name with
  | some (.dir children) => some children
  | some (.link target) => tree.follow target
  | _ => none

def readDir (name : Bytes) : Listing Bytes Target := (tree.readDir? name).getD .empty

/-- The path of a directory below `ham0`. -/
def join (name : Bytes) : Path := tree.dir ++ [.normal name]

/-- `Path::is_file` of a path below `ham0`, which follows links to the end. -/
def isFile (names : List Bytes) : Bool :=
  match tree.listing.resolve tree.follow names with
  | some .file => true
  | some (.link target) => tree.isFileTarget target
  | _ => false

lemma readDir?_wellFormed {name : Bytes} {l : Listing Bytes Target}
    (h : tree.readDir? name = some l) : l.WellFormed IsFileName := by
  rw [readDir?] at h
  split at h
  next children hfind =>
    cases h
    exact tree.wellFormed.of_find? hfind
  next target hfind => exact tree.follow_wellFormed target l h
  next => cases h

lemma readDir_wellFormed (name : Bytes) : (tree.readDir name).WellFormed IsFileName := by
  rw [readDir]
  cases h : tree.readDir? name with
  | none => trivial
  | some l => exact tree.readDir?_wellFormed h

/-- The photos directory. -/
def photos : PhotoTree Target where
  dir := tree.join (ascii "photos")
  listing := tree.readDir (ascii "photos")
  follow := tree.follow
  wellFormed := tree.readDir_wellFormed _

/-- The files of a callsign in one of the asset directories. -/
def callsignFiles (name : Bytes) (kind : AssetKind) (key : Str) : List AssetMetadata :=
  collectCallsignAssets (tree.join name) (tree.readDir name) kind key

/-- The files of a country code in one of the asset directories. -/
def countryFiles (name : Bytes) (kind : AssetKind) (code : Str) : List AssetMetadata :=
  collectCountryAssets (tree.join name) (tree.readDir name) kind code

/-- `CallBook::callsign_assets`. -/
def callsignAssets : List AssetMetadata :=
  match Callsign.parse callsign with
  | .error _ => []
  | .ok callsign =>
    let key := callsign.asStr
    StableSort.sortBy assetOrder
      (tree.callsignFiles (ascii "bios") .biography key ++
        tree.callsignFiles (ascii "photos") .photo key)

/-- `CallBook::country_assets_for_callsign`, the country already looked up. -/
def countryAssetsForCallsign (country : Option CountryInfo) : List AssetMetadata :=
  match country.bind CountryInfo.code with
  | none => []
  | some code =>
    StableSort.sortBy assetOrder
      (tree.countryFiles (ascii "flags") .flag code ++ tree.countryFiles (ascii "maps") .map code)

/-- The assets that `profile_assets` collects, in the order in which it finds them. -/
def profileFiles (catalog : Option PhotoCatalog) (country : Option CountryInfo) :
    List AssetMetadata :=
  let assets := tree.callsignAssets callsign
  let assets :=
    match catalog with
    | none => assets
    | some catalog => tree.photos.collectManifestPhotos callsign catalog assets
  match country.bind CountryInfo.code with
  | none => assets
  | some code =>
    assets ++ tree.countryFiles (ascii "flags") .flag code ++
      tree.countryFiles (ascii "maps") .map code

/-- `CallBook::profile_assets`, the manifest already read. -/
def profileAssets (catalog : Option PhotoCatalog) (country : Option CountryInfo) : ProfileAssets :=
  let assets := StableSort.sortBy assetOrder (tree.profileFiles callsign catalog country)
  let photos := dedupAssetsByPath (assets.filter fun asset => asset.kind = .photo)
  { photos :=
      match catalog with
      | none => photos
      | some catalog => StableSort.sortBy (photoOrder (catalog.lookup callsign)) photos
    bio := assets.find? fun asset => asset.kind = .biography
    countryFlag := assets.find? fun asset => asset.kind = .flag
    countryMap := assets.find? fun asset => asset.kind = .map }

/-! ### Diagnostics -/

/-- The names that `sidecar_files` looks for. -/
def sidecarNames : List String :=
  ["COUNTRYS.PC", "USCOUN.DAT", "countrys", "countrys.nam", "gcmcountrys", "counts.dat", "cb.dat",
    "wc.dat", "state.dat", "interest", "usa.csv.zip", "photos/PHOTOS.TXT"]

/-- `CallBook::sidecar_files`. -/
def sidecarFiles : List AssetMetadata :=
  sidecarNames.filterMap fun name =>
    let names := (ascii name).splitOn 0x2f
    if tree.isFile names then
      some (assetMetadata .sidecarData (ascii name) (tree.dir ++ names.map .normal))
    else none

/-- `manifest_photo_exists`. -/
def manifestPhotoExists (callsign file : Str) : Bool :=
  match safeManifestPhotoPath file with
  | none => false
  | some relative =>
    if tree.photos.isRegularFileNoSymlink relative then true
    else tree.photos.collectManifestPhotoFallback callsign relative ≠ []

end AssetTree

/-- Asset sidecar coverage diagnostics. -/
structure AssetCatalogDiagnostics where
  sidecarFiles : ℕ
  photoManifestEntries : ℕ
  photoManifestEntriesWithFile : ℕ
  photoManifestFilesFound : ℕ
  photoManifestFilesMissing : ℕ
  biosDirPresent : Bool
  photosDirPresent : Bool
  flagsDirPresent : Bool
  mapsDirPresent : Bool
  deriving DecidableEq, Repr

namespace AssetTree

variable {Target : Type*} (tree : AssetTree Target)

/-- One entry of `asset_catalog_diagnostics`. -/
def countEntry (diagnostics : AssetCatalogDiagnostics) (entry : PhotoManifestEntry) :
    AssetCatalogDiagnostics :=
  match entry.file with
  | none => diagnostics
  | some file =>
    let diagnostics := { diagnostics with
      photoManifestEntriesWithFile := diagnostics.photoManifestEntriesWithFile + 1 }
    if tree.manifestPhotoExists entry.callsign file then
      { diagnostics with photoManifestFilesFound := diagnostics.photoManifestFilesFound + 1 }
    else
      { diagnostics with photoManifestFilesMissing := diagnostics.photoManifestFilesMissing + 1 }

/-- `CallBook::asset_catalog_diagnostics`, the manifest already read. -/
def assetCatalogDiagnostics (catalog : Option PhotoCatalog) : AssetCatalogDiagnostics :=
  let diagnostics : AssetCatalogDiagnostics :=
    { sidecarFiles := tree.sidecarFiles.length
      photoManifestEntries := 0
      photoManifestEntriesWithFile := 0
      photoManifestFilesFound := 0
      photoManifestFilesMissing := 0
      biosDirPresent := (tree.readDir? (ascii "bios")).isSome
      photosDirPresent := (tree.readDir? (ascii "photos")).isSome
      flagsDirPresent := (tree.readDir? (ascii "flags")).isSome
      mapsDirPresent := (tree.readDir? (ascii "maps")).isSome }
  match catalog with
  | none => diagnostics
  | some catalog =>
    catalog.entries.foldl tree.countEntry
      { diagnostics with photoManifestEntries := catalog.entries.length }

end AssetTree

end Callbook
