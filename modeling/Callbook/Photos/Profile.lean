import Callbook.Library.Tally
import Callbook.Photos.Links
import Callbook.Photos.Order

/-!
# What a profile shows

The photos of a profile are the files that are named after the callsign and those that the manifest
names, each once, in the order of the manifest and then of their paths. The biography, the flag and
the map are the first of their files by path.
-/

namespace Callbook

open Text StableSort

/-! ### Which files match -/

lemma Path.fileName_append_map (root : Path) (names : List Bytes) (last : Bytes) :
    Path.fileName (root ++ (names ++ [last]).map .normal) = some last := by
  simp [Path.fileName]

/-- A path that stands for a file has a last name. -/
lemma Listing.exists_last {Target : Type*} {l : Listing Bytes Target} {path : List Bytes}
    (h : l.nodeAt path = some .file) : ∃ names last, path = names ++ [last] := by
  rcases List.eq_nil_or_concat path with rfl | ⟨names, last, hpath⟩
  · cases h
  · exact ⟨names, last, by rw [hpath, List.concat_eq_append]⟩

namespace AssetTree

variable {Target : Type*} (tree : AssetTree Target)

/-- The path of a file below one of the asset directories whose stem, in upper case, is as `p`
says. -/
def IsStemPath (name : Bytes) (p : Str → Bool) (path : Path) : Prop :=
  ∃ names last, (tree.readDir name).nodeAt (names ++ [last]) = some .file ∧
    Utf8.Valid (Path.fileStem last) ∧ p (toAsciiUppercase (Path.fileStem last)) ∧
    path = tree.join name ++ (names ++ [last]).map .normal

/-- The path of a file directly in one of the asset directories whose stem, up to its first hyphen,
is the country code in any case. -/
def IsCodePath (name : Bytes) (code : Str) (path : Path) : Prop :=
  ∃ file, (tree.readDir name).nodeAt [file] = some .file ∧ Utf8.Valid (Path.fileStem file) ∧
    toAsciiUppercase (beforeSep 0x2d (Path.fileStem file)) = toAsciiUppercase code ∧
    path = tree.join name ++ [.normal file]

variable {tree}

lemma mem_callsignFiles {name : Bytes} {kind : AssetKind} {key : Str} {path : Path} :
    path ∈ (tree.callsignFiles name kind key).map AssetMetadata.path ↔
      tree.IsStemPath name (stemMatches kind key) path := by
  simp only [callsignFiles, collectCallsignAssets, List.map_map, List.mem_map,
    Listing.mem_walk_iff (tree.readDir_wellFormed name), List.nil_append]
  constructor
  · rintro ⟨found, ⟨_, rfl, hnode, hselect⟩, rfl⟩
    obtain ⟨names, last, rfl⟩ := Listing.exists_last hnode
    rw [Path.fileName_append_map, Option.map_some, Option.bind_some, toStr] at hselect
    split_ifs at hselect with hvalid
    · exact ⟨names, last, hnode, hvalid, hselect, rfl⟩
  · rintro ⟨names, last, hnode, hvalid, hmatches, rfl⟩
    refine ⟨names ++ [last], ⟨_, rfl, hnode, ?_⟩, rfl⟩
    rw [Path.fileName_append_map, Option.map_some, Option.bind_some, toStr, if_pos hvalid]
    exact hmatches

lemma mem_countryFiles {name : Bytes} {kind : AssetKind} {code : Str} {path : Path} :
    path ∈ (tree.countryFiles name kind code).map AssetMetadata.path ↔
      tree.IsCodePath name code path := by
  simp only [countryFiles, collectCountryAssets, List.map_map, List.mem_map, List.mem_filter,
    Listing.mem_files_iff (tree.readDir_wellFormed name)]
  constructor
  · rintro ⟨file, ⟨hnode, hselect⟩, rfl⟩
    rw [toStr] at hselect
    split_ifs at hselect with hvalid
    · exact ⟨file, hnode, hvalid, by simpa using hselect, rfl⟩
  · rintro ⟨file, hnode, hvalid, hcode, rfl⟩
    refine ⟨file, ⟨hnode, ?_⟩, rfl⟩
    rw [toStr, if_pos hvalid]
    simpa using hcode

end AssetTree

namespace PhotoTree

variable {Target : Type*} (tree : PhotoTree Target)

/-- The entry names the file of a path. Where its own path is a file, it names that one; else it
names every file of the tree with its name or, if it has directories, with its names at the end. -/
def NamesPhoto (entry : PhotoManifestEntry) (path : Path) : Prop :=
  ∃ relative, entry.file.bind safeManifestPhotoPath = some relative ∧
    if tree.isRegularFileNoSymlink relative then path = tree.pathOf relative
    else ∃ names last, tree.listing.nodeAt (names ++ [last]) = some .file ∧
      path = tree.pathOf (names ++ [last]) ∧
      match relative with
      | [name] => Utf8.Valid name ∧ Utf8.Valid last ∧ toAsciiLowercase last = toAsciiLowercase name
      | _ => pathEndsWithComponentsIgnoreAsciiCase path (relative.map .normal)

variable {tree} {callsign : Str}

lemma mem_collectPhotoAssets {select : List Bytes → Bool} {path : Path} :
    path ∈ (tree.collectPhotoAssets callsign select).map AssetMetadata.path ↔
      ∃ names last, tree.listing.nodeAt (names ++ [last]) = some .file ∧
        path = tree.pathOf (names ++ [last]) ∧ select (names ++ [last]) := by
  simp only [collectPhotoAssets, List.map_map, List.mem_map, Listing.mem_walk_iff tree.wellFormed,
    List.nil_append]
  constructor
  · rintro ⟨found, ⟨_, rfl, hnode, hselect⟩, rfl⟩
    obtain ⟨names, last, rfl⟩ := Listing.exists_last hnode
    exact ⟨names, last, hnode, rfl, hselect⟩
  · rintro ⟨names, last, hnode, rfl, hselect⟩
    exact ⟨_, ⟨_, rfl, hnode, hselect⟩, rfl⟩

/-- What an entry brings in are the files that it names. -/
lemma mem_manifestEntryPhotos {entry : PhotoManifestEntry} {path : Path} :
    path ∈ (tree.manifestEntryPhotos callsign entry).map AssetMetadata.path ↔
      tree.NamesPhoto entry path := by
  rw [manifestEntryPhotos, NamesPhoto]
  cases hsafe : entry.file.bind safeManifestPhotoPath with
  | none => simp
  | some relative =>
    simp only [Option.some.injEq, exists_eq_left']
    have hne : relative ≠ [] := by
      obtain ⟨file, -, hfile⟩ := Option.bind_eq_some_iff.mp hsafe
      rw [safeManifestPhotoPath, Option.filter_eq_some_iff] at hfile
      exact of_decide_eq_true hfile.2
    split_ifs with hdirect
    · exact List.mem_singleton
    · simp only [collectManifestPhotoFallback, List.length_map]
      obtain ⟨name, tail, rfl⟩ := List.exists_cons_of_ne_nil hne
      cases tail with
      | nil =>
        rw [List.length_singleton, if_pos rfl, Path.fileName, List.map_singleton,
          List.getLast?_singleton, Option.bind_some, toStr]
        split_ifs with hvalid
        · show path ∈ (tree.collectNamedPhotoAssets callsign name).map AssetMetadata.path ↔ _
          rw [collectNamedPhotoAssets, mem_collectPhotoAssets]
          refine exists₂_congr fun names last => and_congr_right' (and_congr_right' ?_)
          rw [pathOf, Path.fileName_append_map, Option.bind_some, toStr]
          split_ifs with hlast
          · simp [hvalid, hlast]
          · simp [hlast]
        · simp [hvalid]
      | cons next rest =>
        rw [if_neg (by simp), collectRelativeSuffixPhotoAssets, mem_collectPhotoAssets]
        refine exists₂_congr fun names last => and_congr_right' ?_
        constructor
        · rintro ⟨rfl, hsuffix⟩
          exact ⟨rfl, hsuffix⟩
        · rintro ⟨rfl, hsuffix⟩
          exact ⟨rfl, hsuffix⟩

end PhotoTree

/-! ### What a profile is to show -/

namespace AssetTree

variable {Target : Type*}

/-- The path of a file of a callsign. -/
def IsCallsignPath (tree : AssetTree Target) (callsign : Str) (name : Bytes) (kind : AssetKind)
    (path : Path) : Prop :=
  ∃ c, Callsign.parse callsign = .ok c ∧ tree.IsStemPath name (stemMatches kind c.asStr) path

/-- The path of a file of a country. -/
def IsCountryPath (tree : AssetTree Target) (country : Option CountryInfo) (name : Bytes)
    (path : Path) : Prop :=
  ∃ code, country.bind CountryInfo.code = some code ∧ tree.IsCodePath name code path

/-- The manifest entries of a callsign. -/
def manifestOf (catalog : Option PhotoCatalog) (callsign : Str) : List PhotoManifestEntry :=
  catalog.elim [] (·.lookup callsign)

/-- The path of a file that a profile is to show. -/
def IsProfilePath (tree : AssetTree Target) (callsign : Str) (catalog : Option PhotoCatalog)
    (country : Option CountryInfo) (kind : AssetKind) (path : Path) : Prop :=
  match kind with
  | .biography => tree.IsCallsignPath callsign (ascii "bios") .biography path
  | .photo => tree.IsCallsignPath callsign (ascii "photos") .photo path ∨
      ∃ entry ∈ manifestOf catalog callsign, tree.photos.NamesPhoto entry path
  | .flag => tree.IsCountryPath country (ascii "flags") path
  | .map => tree.IsCountryPath country (ascii "maps") path
  | .sidecarData => False

/-- The first path of those with a property, if there is one. -/
def IsLeastPath (p : Path → Prop) : Option Path → Prop
  | none => ∀ path, ¬ p path
  | some path => p path ∧ ∀ other, p other → Path.order path other ≠ .gt

/-- The assets of a profile are what it is to show: the photos strictly in the order of their ranks
and paths, the others each the first by path. -/
structure Shows (tree : AssetTree Target) (callsign : Str) (catalog : Option PhotoCatalog)
    (country : Option CountryInfo) (assets : ProfileAssets) : Prop where
  photos : ∀ path, path ∈ assets.photos.map AssetMetadata.path ↔
    tree.IsProfilePath callsign catalog country .photo path
  sorted : assets.photos.Pairwise fun a b => photoOrder (manifestOf catalog callsign) a b = .lt
  bio : IsLeastPath (tree.IsProfilePath callsign catalog country .biography)
    (assets.bio.map AssetMetadata.path)
  flag : IsLeastPath (tree.IsProfilePath callsign catalog country .flag)
    (assets.countryFlag.map AssetMetadata.path)
  map : IsLeastPath (tree.IsProfilePath callsign catalog country .map)
    (assets.countryMap.map AssetMetadata.path)

variable {tree : AssetTree Target} {callsign : Str} {catalog : Option PhotoCatalog}
  {country : Option CountryInfo}

/-- The paths of one kind among assets that are all of a kind. -/
lemma exists_of_allOf {kind kind' : AssetKind} {key : Str} {assets : List AssetMetadata}
    (h : AllOf kind' key assets) {path : Path} :
    (∃ asset ∈ assets, asset.kind = kind ∧ asset.path = path) ↔
      kind = kind' ∧ path ∈ assets.map AssetMetadata.path := by
  have hkind : ∀ asset ∈ assets, asset.kind = kind' := by
    intro asset hasset
    rw [h asset hasset]
    rfl
  rw [List.mem_map]
  constructor
  · rintro ⟨asset, hasset, rfl, rfl⟩
    exact ⟨hkind asset hasset, asset, hasset, rfl⟩
  · rintro ⟨rfl, asset, hasset, rfl⟩
    exact ⟨asset, hasset, hkind asset hasset, rfl⟩

lemma exists_append {l l' : List AssetMetadata} {p : AssetMetadata → Prop} :
    (∃ asset ∈ l ++ l', p asset) ↔ (∃ asset ∈ l, p asset) ∨ ∃ asset ∈ l', p asset := by
  simp only [List.mem_append, or_and_right, exists_or]

lemma exists_callsignAssets {kind : AssetKind} {path : Path} :
    (∃ asset ∈ tree.callsignAssets callsign, asset.kind = kind ∧ asset.path = path) ↔
      kind = .biography ∧ tree.IsCallsignPath callsign (ascii "bios") .biography path ∨
        kind = .photo ∧ tree.IsCallsignPath callsign (ascii "photos") .photo path := by
  simp only [callsignAssets, IsCallsignPath]
  cases hparse : Callsign.parse callsign with
  | error e => simp
  | ok c =>
    simp only [mem_sortBy, exists_append, exists_of_allOf (allOf_callsignFiles _ _ _),
      mem_callsignFiles, Except.ok.injEq, exists_eq_left']

lemma exists_profileFiles {kind : AssetKind} {path : Path} :
    (∃ asset ∈ tree.profileFiles callsign catalog country,
      asset.kind = kind ∧ asset.path = path) ↔
      tree.IsProfilePath callsign catalog country kind path := by
  have hmanifest : AllOf .photo callsign ((manifestOf catalog callsign).flatMap
      (tree.photos.manifestEntryPhotos callsign)) :=
    allOf_flatMap fun entry _ => tree.photos.allOf_manifestEntryPhotos callsign entry
  have hcountry : (∃ asset ∈ (country.bind CountryInfo.code).elim [] fun code =>
      tree.countryFiles (ascii "flags") .flag code ++ tree.countryFiles (ascii "maps") .map code,
        asset.kind = kind ∧ asset.path = path) ↔
      kind = .flag ∧ tree.IsCountryPath country (ascii "flags") path ∨
        kind = .map ∧ tree.IsCountryPath country (ascii "maps") path := by
    simp only [IsCountryPath]
    cases country.bind CountryInfo.code with
    | none => simp
    | some code =>
      simp only [Option.elim_some, exists_append, exists_of_allOf (allOf_countryFiles _ _ _),
        mem_countryFiles, Option.some.injEq, exists_eq_left']
  have hnames : path ∈ ((manifestOf catalog callsign).flatMap
      (tree.photos.manifestEntryPhotos callsign)).map AssetMetadata.path ↔
        ∃ entry ∈ manifestOf catalog callsign, tree.photos.NamesPhoto entry path := by
    simp only [List.map_flatMap, List.mem_flatMap, PhotoTree.mem_manifestEntryPhotos]
  rw [profileFiles_eq, exists_append, exists_append, exists_callsignAssets, hcountry]
  rw [← manifestOf, exists_of_allOf hmanifest, hnames]
  cases kind <;> simp [IsProfilePath]

/-! ### What a profile shows -/

/-- A sorted list of assets with different paths is strictly sorted where equals have one path. -/
lemma pairwise_lt_of_nodup {cmp : AssetMetadata → AssetMetadata → Ordering}
    {assets : List AssetMetadata} (hsorted : assets.Pairwise (NotGreater cmp))
    (hnodup : (assets.map AssetMetadata.path).Nodup)
    (h : ∀ a b, cmp a b = .eq → a.path = b.path) : assets.Pairwise (cmp · · = .lt) := by
  rw [List.nodup_iff_pairwise_ne, List.pairwise_map] at hnodup
  refine (hsorted.and hnodup).imp fun {a b} hab => ?_
  cases hcmp : cmp a b with
  | lt => rfl
  | eq => exact absurd (h a b hcmp) hab.2
  | gt => exact absurd hcmp hab.1

lemma path_eq_of_photoOrder {manifest : List PhotoManifestEntry} {a b : AssetMetadata}
    (h : photoOrder manifest a b = .eq) : a.path = b.path := by
  rw [photoOrder, compareLex, Ordering.then_eq_eq] at h
  exact Std.LawfulEqCmp.eq_of_compare h.2

/-- Without a manifest, photos are in the order of their paths. -/
lemma photoOrder_nil (a b : AssetMetadata) : photoOrder [] a b = Path.order a.path b.path := by
  have hrank : ∀ asset, photoManifestRank asset [] = Usize.max := by
    intro asset
    rw [photoManifestRank]
    split
    · rfl
    · rfl
  simp [photoOrder, compareLex, compareOn, hrank]

lemma assetOrder_of_kind {a b : AssetMetadata} (h : a.kind = b.kind) :
    assetOrder a b = Path.order a.path b.path := by
  simp [assetOrder, compareLex, compareOn, h]

/-- The first asset of a kind has the first path. -/
lemma isLeastPath_find? (kind : AssetKind) :
    IsLeastPath (tree.IsProfilePath callsign catalog country kind)
      (((sortBy assetOrder (tree.profileFiles callsign catalog country)).find? fun asset =>
        asset.kind = kind).map AssetMetadata.path) := by
  cases hfind : (sortBy assetOrder (tree.profileFiles callsign catalog country)).find? fun asset =>
    asset.kind = kind with
  | none =>
    rw [List.find?_eq_none] at hfind
    intro path hpath
    obtain ⟨asset, hasset, hkind, -⟩ := exists_profileFiles.mpr hpath
    exact hfind asset ((mem_sortBy _).mpr hasset) (by simpa using hkind)
  | some asset =>
    obtain ⟨hasset, hkind, hleast⟩ := notGreater_of_find?_sortBy hfind
    have hkind : asset.kind = kind := by simpa using hkind
    refine ⟨exists_profileFiles.mp ⟨asset, hasset, hkind, rfl⟩, fun other hother => ?_⟩
    obtain ⟨asset', hasset', hkind', rfl⟩ := exists_profileFiles.mpr hother
    have hle := hleast asset' hasset' (by simpa using hkind')
    rwa [NotGreater, assetOrder_of_kind (hkind.trans hkind'.symm)] at hle

/-- The photos before they are put in the order of the manifest. -/
lemma dedup_photos (tree : AssetTree Target) (callsign : Str) (catalog : Option PhotoCatalog)
    (country : Option CountryInfo) : ∃ photos : List AssetRef,
      dedupAssetsByPath ((sortBy assetOrder (tree.profileFiles callsign catalog country)).filter
        fun asset => asset.kind = .photo) = photos ∧
      (photos.map AssetMetadata.path).Nodup ∧
      photos.Pairwise (fun a b => Path.order a.path b.path ≠ .gt) ∧
      ∀ path, path ∈ photos.map AssetMetadata.path ↔
        tree.IsProfilePath callsign catalog country .photo path := by
  have hsub : List.Sublist (dedupAssetsByPath ((sortBy assetOrder (tree.profileFiles callsign
      catalog country)).filter fun asset => asset.kind = .photo)) _ := firstsBy_sublist _ _ _
  refine ⟨_, rfl, ?_, ?_, fun path => ?_⟩
  · rw [dedupAssetsByPath, map_firstsBy]
    exact nodup_firsts _ _
  · have hphotos := (sorted_sortBy assetOrder (tree.profileFiles callsign catalog country)).sublist
      (hsub.trans List.filter_sublist)
    refine hphotos.imp_of_mem fun {a b} ha hb hab => ?_
    have ha := List.of_mem_filter (hsub.subset ha)
    have hb := List.of_mem_filter (hsub.subset hb)
    rw [decide_eq_true_eq] at ha hb
    rwa [NotGreater, assetOrder_of_kind (ha.trans hb.symm)] at hab
  · rw [← exists_profileFiles, dedupAssetsByPath, map_firstsBy, mem_firsts, List.mem_map]
    simp [and_assoc]

/-- A profile shows what it is to show. -/
theorem shows_profileAssets (tree : AssetTree Target) (callsign : Str)
    (catalog : Option PhotoCatalog) (country : Option CountryInfo) :
    tree.Shows callsign catalog country (tree.profileAssets callsign catalog country) := by
  obtain ⟨photos, hphotos, hnodup, hsorted, hmem⟩ := dedup_photos tree callsign catalog country
  simp only [profileAssets, hphotos]
  refine ⟨fun path => ?_, ?_, isLeastPath_find? _, isLeastPath_find? _, isLeastPath_find? _⟩
  · cases catalog with
    | none => exact hmem path
    | some catalog =>
      rw [← hmem]
      exact ((sortBy_perm _ photos).map _).mem_iff
  · cases catalog with
    | none =>
      refine pairwise_lt_of_nodup (hsorted.imp fun {a b} hab => ?_) hnodup
        fun _ _ => path_eq_of_photoOrder
      show photoOrder [] a b ≠ .gt
      rwa [photoOrder_nil]
    | some catalog =>
      refine pairwise_lt_of_nodup (sorted_sortBy _ photos) ?_ fun _ _ => path_eq_of_photoOrder
      exact ((sortBy_perm _ photos).map _).nodup_iff.mpr hnodup

/-! ### Diagnostics -/

/-- The callsign of a parsed entry is in the form that a lookup brings a callsign to. -/
lemma mem_lookup_of_mem_parse {text : Str} {entry : PhotoManifestEntry}
    (h : entry ∈ (PhotoCatalog.parse text).entries) :
    entry ∈ (PhotoCatalog.parse text).lookup entry.callsign := by
  have hcallsign : toAsciiUppercase (Utf8.trim entry.callsign) = entry.callsign := by
    obtain ⟨line, -, hline⟩ := List.mem_filterMap.mp h
    simp only [PhotoCatalog.parseLine] at hline
    split_ifs at hline
    split at hline
    · cases hline
    · split_ifs at hline
      cases hline
      rw [Utf8.trim_toAsciiUppercase (Utf8.trim_trim _), toAsciiUppercase_toAsciiUppercase]
  rw [PhotoCatalog.lookup, hcallsign]
  exact List.mem_filter.mpr ⟨h, by simp⟩

/-- An entry names a file exactly when the profile of its callsign shows one that it names. -/
lemma exists_namesPhoto_iff {text : Str} {entry : PhotoManifestEntry}
    (h : entry ∈ (PhotoCatalog.parse text).entries) : (∃ path, tree.photos.NamesPhoto entry path) ↔
      ∃ asset ∈ (tree.profileAssets entry.callsign (some (.parse text)) country).photos,
        tree.photos.NamesPhoto entry asset.path := by
  constructor
  · rintro ⟨path, hpath⟩
    have hshown :=
      (shows_profileAssets tree entry.callsign (some (.parse text)) country).photos path
    obtain ⟨asset, hasset, rfl⟩ := List.mem_map.mp
      (hshown.mpr (.inr ⟨entry, mem_lookup_of_mem_parse h, hpath⟩))
    exact ⟨asset, hasset, hpath⟩
  · rintro ⟨asset, -, hpath⟩
    exact ⟨_, hpath⟩

/-- The photo of an entry exists where the entry names a file. -/
lemma manifestPhotoExists_iff_namesPhoto {entry : PhotoManifestEntry} {file : Str}
    (hfile : entry.file = some file) : tree.manifestPhotoExists entry.callsign file ↔
      ∃ path, tree.photos.NamesPhoto entry path := by
  rw [manifestPhotoExists_iff hfile entry.callsign]
  simp only [← @PhotoTree.mem_manifestEntryPhotos _ tree.photos entry.callsign]
  constructor
  · intro hne
    obtain ⟨asset, hasset⟩ := List.exists_mem_of_ne_nil _ hne
    exact ⟨_, List.mem_map_of_mem hasset⟩
  · rintro ⟨path, hpath⟩ hnil
    rw [hnil] at hpath
    cases hpath

/-- An entry without a file names none. -/
lemma not_namesPhoto_of_file {entry : PhotoManifestEntry} (hfile : entry.file = none)
    (path : Path) : ¬ tree.photos.NamesPhoto entry path := by
  rintro ⟨relative, hsafe, -⟩
  rw [hfile] at hsafe
  cases hsafe

open scoped Classical in
/-- What one entry adds to the counts. -/
lemma countEntry_spec (tree : AssetTree Target) (d : AssetCatalogDiagnostics)
    (entry : PhotoManifestEntry) :
    (tree.countEntry d entry).photoManifestEntries = d.photoManifestEntries ∧
      (tree.countEntry d entry).photoManifestEntriesWithFile =
        d.photoManifestEntriesWithFile + (if entry.file.isSome then 1 else 0) ∧
      (tree.countEntry d entry).photoManifestFilesFound = d.photoManifestFilesFound +
        (if ∃ path, tree.photos.NamesPhoto entry path then 1 else 0) ∧
      (tree.countEntry d entry).photoManifestFilesMissing = d.photoManifestFilesMissing +
        (if entry.file.isSome ∧ ¬ ∃ path, tree.photos.NamesPhoto entry path then 1 else 0) := by
  rw [countEntry]
  cases hfile : entry.file with
  | none => simp [not_namesPhoto_of_file hfile]
  | some file =>
    simp only [← manifestPhotoExists_iff_namesPhoto hfile]
    by_cases hexists : tree.manifestPhotoExists entry.callsign file
    · simp [hexists]
    · simp [hexists]

open scoped Classical in
/-- The diagnostics count an entry of the manifest that has a file as found exactly when the profile
of its callsign shows a file that the entry names, and as missing otherwise. -/
theorem assetCatalogDiagnostics_spec (tree : AssetTree Target) (text : Str)
    (country : Option CountryInfo) :
    let catalog := PhotoCatalog.parse text
    let shown (entry : PhotoManifestEntry) : Prop :=
      ∃ asset ∈ (tree.profileAssets entry.callsign (some catalog) country).photos,
        tree.photos.NamesPhoto entry asset.path
    let diagnostics := tree.assetCatalogDiagnostics (some catalog)
    diagnostics.photoManifestEntries = catalog.entries.length ∧
      diagnostics.photoManifestEntriesWithFile =
        (catalog.entries.filter fun entry => entry.file.isSome).length ∧
      diagnostics.photoManifestFilesFound =
        (catalog.entries.filter fun entry => shown entry).length ∧
      diagnostics.photoManifestFilesMissing =
        (catalog.entries.filter fun entry => entry.file.isSome ∧ ¬ shown entry).length := by
  intro catalog shown diagnostics
  have hshown : ∀ entry ∈ catalog.entries,
      (∃ path, tree.photos.NamesPhoto entry path) ↔ shown entry :=
    fun entry hentry => exists_namesPhoto_iff hentry
  have hentries := Tally.measure_foldl (m := AssetCatalogDiagnostics.photoManifestEntries)
    (w := fun _ => 0) (fun d entry => (tree.countEntry_spec d entry).1) catalog.entries
  have hwith := Tally.count_foldl (m := AssetCatalogDiagnostics.photoManifestEntriesWithFile)
    (fun d entry => (tree.countEntry_spec d entry).2.1) catalog.entries
  have hfound := Tally.count_foldl (m := AssetCatalogDiagnostics.photoManifestFilesFound)
    (fun d entry => (tree.countEntry_spec d entry).2.2.1) catalog.entries
  have hmissing := Tally.count_foldl (m := AssetCatalogDiagnostics.photoManifestFilesMissing)
    (fun d entry => (tree.countEntry_spec d entry).2.2.2) catalog.entries
  refine ⟨(hentries _).trans ?_, (hwith _).trans ?_, (hfound _).trans ?_, (hmissing _).trans ?_⟩
  · simp
  · simp
  · rw [Nat.zero_add]
    refine congrArg List.length (List.filter_congr fun entry hentry => ?_)
    simp only [hshown entry hentry]
  · rw [Nat.zero_add]
    refine congrArg List.length (List.filter_congr fun entry hentry => ?_)
    simp only [hshown entry hentry]

end AssetTree

end Callbook
