import Callbook.Library.FileTree
import Callbook.Callsign

/-!
# Manifest photos

`PHOTOS.TXT` names a photo of a callsign by its path below the photos directory. An entry is looked
for at its own path first, then anywhere in the tree by its name or by the end of its path.
-/

namespace Callbook

open Text

/-! ### Paths -/

/-- `std::path::Component` on Unix, where no path has a prefix. -/
inductive Component where
  | rootDir
  | curDir
  | parentDir
  | normal (name : Bytes)
  deriving DecidableEq, Repr

/-- A path, as its components. -/
abbrev Path := List Component

namespace Path

/-- One part between slashes; empty parts and dots are left out. -/
def partComponent (part : Bytes) : Option Component :=
  if part = [] ∨ part = ascii "." then none
  else if part = ascii ".." then some .parentDir
  else some (.normal part)

/-- `Path::components`: a dot is kept only where a relative path starts with it. -/
def components (path : Bytes) : Path :=
  let parts := path.splitOn 0x2f
  let start : Path :=
    if path.head? = some 0x2f then [.rootDir]
    else if parts.head? = some (ascii ".") then [.curDir]
    else []
  start ++ parts.filterMap partComponent

/-- `Path::file_name`. -/
def fileName (path : Path) : Option Bytes :=
  match path.getLast? with
  | some (.normal name) => some name
  | _ => none

/-- `Path::extension` of a file name. -/
def extension (name : Bytes) : Option Bytes :=
  if 0x2e ∉ name ∨ name = ascii ".." then none
  else
    let before := (name.rdropWhile (· != 0x2e)).dropLast
    if before = [] then none else some (name.rtakeWhile (· != 0x2e))

end Path

/-- `OsStr::to_str`. -/
def toStr (name : Bytes) : Option Str := if Utf8.Valid name then some name else none

/-! ### The manifest -/

/-- One photo manifest entry from `photos/PHOTOS.TXT`. -/
structure PhotoManifestEntry where
  callsign : Str
  file : Option Str
  deriving DecidableEq, Repr

/-- Parsed photo manifest. -/
structure PhotoCatalog where
  entries : List PhotoManifestEntry
  deriving DecidableEq, Repr

namespace PhotoCatalog

def isManifestSeparator (b : UInt8) : Bool := isAsciiWhitespace b || b == 0x2c || b == 0x7c

/-- One line of `parse_photo_manifest`. -/
def parseLine (line : Str) : Option PhotoManifestEntry :=
  let line := Utf8.trim line
  if line = [] ∨ line.head? = some 0x23 then none
  else
    match line.splitOnP isManifestSeparator with
    | [] => none
    | callsign :: parts =>
      let callsign := toAsciiUppercase (Utf8.trim callsign)
      if callsign = [] then none
      else some ⟨callsign, (parts.find? fun part => Utf8.trim part ≠ []).map Utf8.trim⟩

/-- `parse_photo_manifest`. -/
def parse (text : Str) : PhotoCatalog := ⟨(lines text).filterMap parseLine⟩

/-- `PhotoCatalog::lookup`. -/
def lookup (catalog : PhotoCatalog) (callsign : Str) : List PhotoManifestEntry :=
  let callsign := toAsciiUppercase (Utf8.trim callsign)
  catalog.entries.filter fun entry => entry.callsign = callsign

end PhotoCatalog

/-! ### Assets -/

inductive AssetKind where
  | biography
  | photo
  | flag
  | map
  | sidecarData
  deriving DecidableEq, Repr

/-- Lightweight asset metadata from non-core HamCall sidecar files. -/
structure AssetMetadata where
  kind : AssetKind
  key : Str
  mediaType : String
  path : Path
  deriving DecidableEq, Repr

/-- The media types by extension. -/
def mediaTypes : List (Bytes × String) :=
  [(ascii "txt", "text/plain"), (ascii "zip", "application/zip"),
    (ascii "dat", "application/octet-stream"), (ascii "jpg", "image/jpeg"),
    (ascii "jpeg", "image/jpeg"), (ascii "gif", "image/gif"), (ascii "bmp", "image/bmp"),
    (ascii "png", "image/png")]

/-- `asset_metadata`. -/
def assetMetadata (kind : AssetKind) (key : Str) (path : Path) : AssetMetadata where
  kind
  key
  mediaType :=
    let extension := (path.fileName.bind Path.extension).bind toStr
    ((extension.map toAsciiLowercase).bind fun e => mediaTypes.lookup e).getD
      "application/octet-stream"
  path

/-! ### The photos tree -/

/-- A name that a directory can hold. -/
def IsFileName (name : Bytes) : Prop :=
  name ≠ [] ∧ name ≠ ascii "." ∧ name ≠ ascii ".." ∧ 0x2f ∉ name

/-- The tree below `ham0/photos`; `follow` is the directory that the operating system comes to from
a link, which may lie outside. -/
structure PhotoTree (Target : Type*) where
  dir : Path
  listing : Listing Bytes Target
  follow : Target → Option (Listing Bytes Target)
  wellFormed : listing.WellFormed IsFileName

/-- `safe_manifest_photo_path`: the names of a path that goes down only. -/
def safeManifestPhotoPath (file : Str) : Option (List Bytes) :=
  let names := (Path.components file).foldlM (fun names component =>
    match component with
    | .normal part => some (names ++ [part])
    | .curDir => some names
    | .rootDir | .parentDir => none) []
  names.filter fun names => names ≠ []

/-- The lower-case texts of the names of a path; names that are no text are left out. -/
def lowerNames (path : Path) : List Str :=
  path.filterMap fun component =>
    match component with
    | .normal value => (toStr value).map toAsciiLowercase
    | _ => none

def pathEndsWithComponentsIgnoreAsciiCase (path suffix : Path) : Bool :=
  lowerNames suffix ≠ [] && (lowerNames suffix).isSuffixOf (lowerNames path)

namespace PhotoTree

variable {Target : Type*} (tree : PhotoTree Target) (callsign : Str)

/-- A path below the photos directory. -/
def pathOf (names : List Bytes) : Path := tree.dir ++ names.map .normal

/-- `is_regular_file_no_symlink` on a path below the photos directory. -/
def isRegularFileNoSymlink (names : List Bytes) : Bool :=
  match tree.listing.resolve tree.follow names with
  | some .file => true
  | _ => false

/-- The photos that a walk over the tree selects. -/
def collectPhotoAssets (select : List Bytes → Bool) : List AssetMetadata :=
  (tree.listing.walk select []).map fun names => assetMetadata .photo callsign (tree.pathOf names)

/-- `collect_named_photo_assets`. -/
def collectNamedPhotoAssets (fileName : Str) : List AssetMetadata :=
  tree.collectPhotoAssets callsign fun names =>
    match (Path.fileName (tree.pathOf names)).bind toStr with
    | none => false
    | some name => toAsciiLowercase name = toAsciiLowercase fileName

/-- `collect_relative_suffix_photo_assets`. -/
def collectRelativeSuffixPhotoAssets (relative : Path) : List AssetMetadata :=
  tree.collectPhotoAssets callsign fun names =>
    pathEndsWithComponentsIgnoreAsciiCase (tree.pathOf names) relative

/-- `collect_manifest_photo_fallback`. -/
def collectManifestPhotoFallback (relative : List Bytes) : List AssetMetadata :=
  let components : Path := relative.map .normal
  if components.length = 1 then
    match (Path.fileName components).bind toStr with
    | none => []
    | some fileName => tree.collectNamedPhotoAssets callsign fileName
  else tree.collectRelativeSuffixPhotoAssets callsign components

/-- What `collect_manifest_photos` adds for one entry. -/
def manifestEntryPhotos (entry : PhotoManifestEntry) : List AssetMetadata :=
  match entry.file.bind safeManifestPhotoPath with
  | none => []
  | some relative =>
    if tree.isRegularFileNoSymlink relative then
      [assetMetadata .photo callsign (tree.pathOf relative)]
    else tree.collectManifestPhotoFallback callsign relative

/-- `CallBook::collect_manifest_photos`. -/
def collectManifestPhotos (catalog : PhotoCatalog) (assets : List AssetMetadata) :
    List AssetMetadata :=
  (catalog.lookup callsign).foldl (fun assets entry =>
    assets ++ tree.manifestEntryPhotos callsign entry) assets

end PhotoTree

end Callbook
