import Callbook.Photos.Assets

/-!
# Assets and the order of a directory

The operating system lists a directory in any order. What the asset functions return depends on the
entries alone: the walks collect the same files, and the stable sorts behind them only see files of
one path in one order.
-/

namespace Callbook

open Text StableSort

/-! ### The comparisons are orders -/

instance : Std.TransCmp Component.order :=
  inferInstanceAs (Std.TransCmp (compareLex (compareOn Component.variant)
    (compareOn Component.text)))

instance : Std.LawfulEqCmp Component.order where
  eq_of_compare {a b} h := by
    rw [Component.order, compareLex, Ordering.then_eq_eq] at h
    have hvariant : a.variant = b.variant := Std.LawfulEqCmp.eq_of_compare h.1
    have htext : a.text = b.text := Std.LawfulEqCmp.eq_of_compare h.2
    cases a <;> cases b <;> simp_all [Component.variant, Component.text]

instance : Std.TransCmp Path.order := inferInstanceAs (Std.TransCmp (List.compareLex _))

instance : Std.LawfulEqCmp Path.order := inferInstanceAs (Std.LawfulEqCmp (List.compareLex _))

/-- Paths compared through the assets that have them. -/
instance : Std.TransCmp fun a b : AssetMetadata => Path.order a.path b.path where
  eq_swap {_ _} := @Std.OrientedCmp.eq_swap _ Path.order _ _ _
  isLE_trans {_ _ _} := @Std.TransCmp.isLE_trans _ Path.order _ _ _ _

instance : Std.TransCmp assetOrder :=
  inferInstanceAs (Std.TransCmp (compareLex _ _))

instance (manifest : List PhotoManifestEntry) : Std.TransCmp (photoOrder manifest) :=
  inferInstanceAs (Std.TransCmp (compareLex _ _))

/-! ### Files of one kind -/

/-- The assets are the metadata of their paths, for one kind and key. -/
def AllOf (kind : AssetKind) (key : Str) (assets : List AssetMetadata) : Prop :=
  ∀ asset ∈ assets, asset = assetMetadata kind key asset.path

/-- Among the assets of one kind and key, those that compare equal are the same. -/
lemma AllOf.eq_of_order {kind : AssetKind} {key : Str} {assets : List AssetMetadata}
    (h : AllOf kind key assets) :
    ∀ a ∈ assets, ∀ b ∈ assets, assetOrder a b = .eq → a = b := by
  intro a ha b hb hab
  rw [assetOrder, compareLex, Ordering.then_eq_eq] at hab
  have hpath : a.path = b.path := Std.LawfulEqCmp.eq_of_compare hab.2
  rw [h a ha, h b hb, hpath]

lemma allOf_map {α : Type*} (kind : AssetKind) (key : Str) (path : α → Path) (l : List α) :
    AllOf kind key (l.map fun a => assetMetadata kind key (path a)) := by
  intro asset hasset
  obtain ⟨a, -, rfl⟩ := List.mem_map.mp hasset
  rfl

lemma allOf_flatMap {α : Type*} {kind : AssetKind} {key : Str} {f : α → List AssetMetadata}
    {l : List α} (h : ∀ a ∈ l, AllOf kind key (f a)) : AllOf kind key (l.flatMap f) := by
  intro asset hasset
  obtain ⟨a, ha, hasset⟩ := List.mem_flatMap.mp hasset
  exact h a ha asset hasset

lemma PhotoTree.allOf_collectPhotoAssets {Target : Type*} (tree : PhotoTree Target)
    (callsign : Str) (select : List Bytes → Bool) :
    AllOf .photo callsign (tree.collectPhotoAssets callsign select) := allOf_map _ _ _ _

lemma PhotoTree.allOf_manifestEntryPhotos {Target : Type*} (tree : PhotoTree Target)
    (callsign : Str) (entry : PhotoManifestEntry) :
    AllOf .photo callsign (tree.manifestEntryPhotos callsign entry) := by
  rw [manifestEntryPhotos]
  split
  next => exact fun _ h => nomatch h
  next relative _ =>
    split_ifs
    · exact allOf_map .photo callsign tree.pathOf [relative]
    · simp only [collectManifestPhotoFallback]
      split_ifs
      · split
        · exact fun _ h => nomatch h
        · exact tree.allOf_collectPhotoAssets callsign _
      · exact tree.allOf_collectPhotoAssets callsign _

/-- What the manifest adds to the assets before it. -/
lemma PhotoTree.collectManifestPhotos_eq {Target : Type*} (tree : PhotoTree Target)
    (callsign : Str) (catalog : PhotoCatalog) (assets : List AssetMetadata) :
    tree.collectManifestPhotos callsign catalog assets =
      assets ++ (catalog.lookup callsign).flatMap (tree.manifestEntryPhotos callsign) := by
  rw [collectManifestPhotos]
  generalize catalog.lookup callsign = entries
  induction entries generalizing assets with
  | nil => simp
  | cons entry entries ih => rw [List.foldl_cons, ih, List.flatMap_cons, List.append_assoc]

/-! ### The same files in another order -/

/-- Two trees hold the same files, in whatever order their directories are read. -/
structure AssetTree.SameFiles {Target : Type*} (tree tree' : AssetTree Target) : Prop where
  dir : tree.dir = tree'.dir
  listing : tree.listing.SameEntries tree'.listing
  follow : ∀ target, Option.Rel Listing.SameEntries (tree.follow target) (tree'.follow target)
  isFileTarget : tree.isFileTarget = tree'.isFileTarget

/-- Two photo trees hold the same files. -/
structure PhotoTree.SameFiles {Target : Type*} (tree tree' : PhotoTree Target) : Prop where
  dir : tree.dir = tree'.dir
  listing : tree.listing.SameEntries tree'.listing
  follow : ∀ target, Option.Rel Listing.SameEntries (tree.follow target) (tree'.follow target)

namespace PhotoTree

variable {Target : Type*} {tree tree' : PhotoTree Target} {callsign : Str}

lemma SameFiles.isRegularFileNoSymlink_eq (h : tree.SameFiles tree') (names : List Bytes) :
    tree.isRegularFileNoSymlink names = tree'.isRegularFileNoSymlink names := by
  have hresolve := h.listing.resolve h.follow names
  rw [isRegularFileNoSymlink, isRegularFileNoSymlink]
  revert hresolve
  generalize tree.listing.resolve tree.follow names = found
  generalize tree'.listing.resolve tree'.follow names = found'
  intro hresolve
  cases hresolve with
  | none => rfl
  | some hnode => cases hnode <;> rfl

lemma SameFiles.collectPhotoAssets_perm (h : tree.SameFiles tree') (select : List Bytes → Bool) :
    (tree.collectPhotoAssets callsign select).Perm (tree'.collectPhotoAssets callsign select) := by
  rw [collectPhotoAssets, collectPhotoAssets]
  have hpath : tree.pathOf = tree'.pathOf := by
    funext names
    rw [pathOf, pathOf, h.dir]
  rw [hpath]
  exact (h.listing.walk_perm tree.wellFormed tree'.wellFormed select []).map _

lemma SameFiles.manifestEntryPhotos_perm (h : tree.SameFiles tree') (entry : PhotoManifestEntry) :
    (tree.manifestEntryPhotos callsign entry).Perm
      (tree'.manifestEntryPhotos callsign entry) := by
  have hpath : tree.pathOf = tree'.pathOf := by
    funext names
    rw [pathOf, pathOf, h.dir]
  rw [manifestEntryPhotos, manifestEntryPhotos]
  split
  next => exact .refl _
  next relative _ =>
    rw [h.isRegularFileNoSymlink_eq, hpath]
    split_ifs
    · exact .refl _
    · simp only [collectManifestPhotoFallback, collectNamedPhotoAssets,
        collectRelativeSuffixPhotoAssets, hpath]
      split_ifs
      · split
        · exact .refl _
        · exact h.collectPhotoAssets_perm _
      · exact h.collectPhotoAssets_perm _

end PhotoTree

namespace AssetTree

variable {Target : Type*} {tree tree' : AssetTree Target}

lemma SameFiles.join_eq (h : tree.SameFiles tree') (name : Bytes) :
    tree.join name = tree'.join name := by
  rw [join, join, h.dir]

lemma SameFiles.readDir?_rel (h : tree.SameFiles tree') (name : Bytes) :
    Option.Rel Listing.SameEntries (tree.readDir? name) (tree'.readDir? name) := by
  have hfind := h.listing.find? name
  rw [readDir?, readDir?]
  revert hfind
  generalize tree.listing.find? name = found
  generalize tree'.listing.find? name = found'
  intro hfind
  cases hfind with
  | none => exact .none
  | some hnode =>
    cases hnode with
    | file => exact .none
    | link target => exact h.follow target
    | dir hchildren => exact .some hchildren

lemma SameFiles.readDir (h : tree.SameFiles tree') (name : Bytes) :
    (tree.readDir name).SameEntries (tree'.readDir name) := by
  have hrel := h.readDir?_rel name
  rw [AssetTree.readDir, AssetTree.readDir]
  revert hrel
  generalize tree.readDir? name = found
  generalize tree'.readDir? name = found'
  intro hrel
  cases hrel with
  | none => exact .refl _
  | some hentries => exact hentries

lemma SameFiles.isSome_readDir?_eq (h : tree.SameFiles tree') (name : Bytes) :
    (tree.readDir? name).isSome = (tree'.readDir? name).isSome := by
  have hrel := h.readDir?_rel name
  revert hrel
  generalize tree.readDir? name = found
  generalize tree'.readDir? name = found'
  intro hrel
  cases hrel <;> rfl

lemma SameFiles.isFile_eq (h : tree.SameFiles tree') (names : List Bytes) :
    tree.isFile names = tree'.isFile names := by
  have hresolve := h.listing.resolve h.follow names
  rw [isFile, isFile, h.isFileTarget]
  revert hresolve
  generalize tree.listing.resolve tree.follow names = found
  generalize tree'.listing.resolve tree'.follow names = found'
  intro hresolve
  cases hresolve with
  | none => rfl
  | some hnode => cases hnode <;> rfl

lemma SameFiles.photos (h : tree.SameFiles tree') : tree.photos.SameFiles tree'.photos where
  dir := h.join_eq _
  listing := h.readDir _
  follow := h.follow

lemma allOf_callsignFiles (name : Bytes) (kind : AssetKind) (key : Str) :
    AllOf kind key (tree.callsignFiles name kind key) := allOf_map _ _ _ _

lemma allOf_countryFiles (name : Bytes) (kind : AssetKind) (code : Str) :
    AllOf kind code (tree.countryFiles name kind code) := allOf_map _ _ _ _

lemma SameFiles.callsignFiles_perm (h : tree.SameFiles tree') (name : Bytes) (kind : AssetKind)
    (key : Str) : (tree.callsignFiles name kind key).Perm (tree'.callsignFiles name kind key) := by
  rw [callsignFiles, callsignFiles, h.join_eq]
  exact ((h.readDir name).walk_perm (tree.readDir_wellFormed name) (tree'.readDir_wellFormed name)
    _ _).map _

lemma SameFiles.countryFiles_perm (h : tree.SameFiles tree') (name : Bytes) (kind : AssetKind)
    (code : Str) : (tree.countryFiles name kind code).Perm (tree'.countryFiles name kind code) := by
  rw [countryFiles, countryFiles, h.join_eq]
  exact (((h.readDir name).files_perm (tree.readDir_wellFormed name)
    (tree'.readDir_wellFormed name)).filter _).map _

lemma SameFiles.classOf_callsignFiles (h : tree.SameFiles tree') (name : Bytes)
    (kind : AssetKind) (key : Str) (c : AssetMetadata) :
    classOf assetOrder c (tree.callsignFiles name kind key) =
      classOf assetOrder c (tree'.callsignFiles name kind key) :=
  classOf_eq_of_perm (h.callsignFiles_perm name kind key)
    (allOf_callsignFiles name kind key).eq_of_order c

lemma SameFiles.classOf_countryFiles (h : tree.SameFiles tree') (name : Bytes)
    (kind : AssetKind) (code : Str) (c : AssetMetadata) :
    classOf assetOrder c (tree.countryFiles name kind code) =
      classOf assetOrder c (tree'.countryFiles name kind code) :=
  classOf_eq_of_perm (h.countryFiles_perm name kind code)
    (allOf_countryFiles name kind code).eq_of_order c

lemma SameFiles.classOf_manifestPhotos (h : tree.SameFiles tree') (callsign : Str)
    (entries : List PhotoManifestEntry) (c : AssetMetadata) :
    classOf assetOrder c (entries.flatMap (tree.photos.manifestEntryPhotos callsign)) =
      classOf assetOrder c (entries.flatMap (tree'.photos.manifestEntryPhotos callsign)) :=
  classOf_eq_of_perm
    (List.Perm.flatMap_left entries fun entry _ => h.photos.manifestEntryPhotos_perm entry)
    (allOf_flatMap fun entry _ => tree.photos.allOf_manifestEntryPhotos callsign entry).eq_of_order
    c

/-! ### What is returned -/

lemma SameFiles.callsignAssets_eq (h : tree.SameFiles tree') (callsign : Str) :
    tree.callsignAssets callsign = tree'.callsignAssets callsign := by
  rw [callsignAssets, callsignAssets]
  split
  · rfl
  · refine sortBy_eq_of_classOf_eq fun c => ?_
    rw [classOf_append, classOf_append, h.classOf_callsignFiles, h.classOf_callsignFiles]

lemma SameFiles.countryAssetsForCallsign_eq (h : tree.SameFiles tree')
    (country : Option CountryInfo) :
    tree.countryAssetsForCallsign country = tree'.countryAssetsForCallsign country := by
  rw [countryAssetsForCallsign, countryAssetsForCallsign]
  split
  · rfl
  · refine sortBy_eq_of_classOf_eq fun c => ?_
    rw [classOf_append, classOf_append, h.classOf_countryFiles, h.classOf_countryFiles]

/-- What the files of a profile are made of: by callsign, by manifest, and by country. -/
lemma profileFiles_eq (callsign : Str) (catalog : Option PhotoCatalog)
    (country : Option CountryInfo) : tree.profileFiles callsign catalog country =
      tree.callsignAssets callsign ++
        ((catalog.elim [] (·.lookup callsign)).flatMap
          (tree.photos.manifestEntryPhotos callsign) ++
        (country.bind CountryInfo.code).elim [] fun code =>
          tree.countryFiles (ascii "flags") .flag code ++
            tree.countryFiles (ascii "maps") .map code) := by
  simp only [profileFiles]
  cases catalog with
  | none => cases country.bind CountryInfo.code <;> simp
  | some catalog =>
    cases country.bind CountryInfo.code <;> simp [PhotoTree.collectManifestPhotos_eq]

lemma SameFiles.profileAssets_eq (h : tree.SameFiles tree') (callsign : Str)
    (catalog : Option PhotoCatalog) (country : Option CountryInfo) :
    tree.profileAssets callsign catalog country = tree'.profileAssets callsign catalog country := by
  have hsorted : sortBy assetOrder (tree.profileFiles callsign catalog country) =
      sortBy assetOrder (tree'.profileFiles callsign catalog country) := by
    refine sortBy_eq_of_classOf_eq fun c => ?_
    rw [profileFiles_eq, profileFiles_eq, h.callsignAssets_eq, classOf_append, classOf_append,
      classOf_append, classOf_append, h.classOf_manifestPhotos]
    cases country.bind CountryInfo.code with
    | none => rfl
    | some code =>
      simp only [Option.elim_some]
      rw [classOf_append, classOf_append, h.classOf_countryFiles, h.classOf_countryFiles]
  simp only [profileAssets, hsorted]

/-- A manifest photo exists where its entry brings in a photo. -/
lemma manifestPhotoExists_iff {entry : PhotoManifestEntry} {file : Str}
    (hfile : entry.file = some file) (callsign : Str) : tree.manifestPhotoExists callsign file ↔
      tree.photos.manifestEntryPhotos callsign entry ≠ [] := by
  rw [manifestPhotoExists, PhotoTree.manifestEntryPhotos, hfile, Option.bind_some]
  cases safeManifestPhotoPath file with
  | none => simp
  | some relative =>
    simp only
    split_ifs <;> simp

lemma SameFiles.manifestPhotoExists_eq (h : tree.SameFiles tree') (callsign file : Str) :
    tree.manifestPhotoExists callsign file = tree'.manifestPhotoExists callsign file := by
  have hfile : (⟨callsign, some file⟩ : PhotoManifestEntry).file = some file := rfl
  rw [Bool.eq_iff_iff, manifestPhotoExists_iff hfile, manifestPhotoExists_iff hfile, not_iff_not,
    ← List.length_eq_zero_iff, ← List.length_eq_zero_iff,
    (h.photos.manifestEntryPhotos_perm _).length_eq]

lemma SameFiles.sidecarFiles_eq (h : tree.SameFiles tree') :
    tree.sidecarFiles = tree'.sidecarFiles := by
  simp only [sidecarFiles, h.isFile_eq, h.dir]

lemma SameFiles.assetCatalogDiagnostics_eq (h : tree.SameFiles tree')
    (catalog : Option PhotoCatalog) :
    tree.assetCatalogDiagnostics catalog = tree'.assetCatalogDiagnostics catalog := by
  have hentry : tree.countEntry = tree'.countEntry := by
    funext diagnostics entry
    simp only [countEntry, h.manifestPhotoExists_eq]
  simp only [assetCatalogDiagnostics, h.sidecarFiles_eq, h.isSome_readDir?_eq, hentry]

/-- What the asset functions return depends on the files of the tree, not on the order in which the
operating system lists its directories. -/
theorem assets_eq_of_sameFiles (h : tree.SameFiles tree') (callsign : Str)
    (catalog : Option PhotoCatalog) (country : Option CountryInfo) :
    tree.callsignAssets callsign = tree'.callsignAssets callsign ∧
      tree.countryAssetsForCallsign country = tree'.countryAssetsForCallsign country ∧
      tree.profileAssets callsign catalog country = tree'.profileAssets callsign catalog country ∧
      tree.assetCatalogDiagnostics catalog = tree'.assetCatalogDiagnostics catalog :=
  ⟨h.callsignAssets_eq callsign, h.countryAssetsForCallsign_eq country,
    h.profileAssets_eq callsign catalog country, h.assetCatalogDiagnostics_eq catalog⟩

/-! ### Two photos the other way round -/

/-- Two photos of `K0AB`, in one order and in the other. -/
def photoPair (first second : Bytes) : Listing Bytes Unit :=
  .dir (ascii "photos") (.file first (.file second .empty)) .empty

lemma photoPair_wellFormed {first second : Bytes} (h : IsFileName first) (h' : IsFileName second)
    (hne : first ≠ second) : (photoPair first second).WellFormed IsFileName := by
  have hphotos : IsFileName (ascii "photos") := by
    unfold IsFileName
    decide
  exact ⟨hphotos, List.not_mem_nil,
    ⟨h, by simpa [Listing.names] using hne, h', List.not_mem_nil, trivial⟩, trivial⟩

def photoPairTree (listing : Listing Bytes Unit) (h : listing.WellFormed IsFileName) :
    AssetTree Unit where
  dir := [.normal (ascii "ham0")]
  listing
  follow := fun _ => none
  isFileTarget := fun _ => false
  wellFormed := h
  follow_wellFormed := fun _ _ h => nomatch h

lemma sameFiles_photoPairTree {l l' : Listing Bytes Unit} (h : l.WellFormed IsFileName)
    (h' : l'.WellFormed IsFileName) (hsame : l.SameEntries l') :
    (photoPairTree l h).SameFiles (photoPairTree l' h') :=
  ⟨rfl, hsame, fun _ => .none, rfl⟩

theorem assets_eq_photoPair : ∃ tree tree' : AssetTree Unit,
    tree.listing = photoPair (ascii "k0ab.jpg") (ascii "k0ab-1.jpg") ∧
      tree'.listing = photoPair (ascii "k0ab-1.jpg") (ascii "k0ab.jpg") ∧
      tree.profileAssets (ascii "K0AB") none none =
        tree'.profileAssets (ascii "K0AB") none none := by
  have hfirst : IsFileName (ascii "k0ab.jpg") := by
    unfold IsFileName
    decide
  have hsecond : IsFileName (ascii "k0ab-1.jpg") := by
    unfold IsFileName
    decide
  have hne : ascii "k0ab.jpg" ≠ ascii "k0ab-1.jpg" := by decide
  refine ⟨photoPairTree _ (photoPair_wellFormed hfirst hsecond hne),
    photoPairTree _ (photoPair_wellFormed hsecond hfirst hne.symm), rfl, rfl, ?_⟩
  exact (assets_eq_of_sameFiles (sameFiles_photoPairTree _ _
    ((Listing.sameEntries_swap hne).dir _ _)) (ascii "K0AB") none none).2.2.1

end AssetTree

end Callbook
