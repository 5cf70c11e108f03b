import Callbook.Photos.Basic

/-!
# Where manifest photos lie

The walks over the photos tree leave links alone, so what they find lies in the tree. The path of an
entry is also tried directly, and there the operating system follows the links on the way.
-/

namespace Callbook

open Text

/-! ### Safe paths -/

lemma isFileName_of_partComponent {part name : Bytes} (hpart : 0x2f ∉ part)
    (h : Path.partComponent part = some (.normal name)) : IsFileName name := by
  rw [Path.partComponent] at h
  split_ifs at h with hskip hparent
  · cases h
  · cases h
    rw [not_or] at hskip
    exact ⟨hskip.1, hskip.2, hparent, hpart⟩

/-- Every name of a path is one that a directory can hold. -/
lemma isFileName_of_mem_components {path : Bytes} {name : Bytes}
    (h : Component.normal name ∈ Path.components path) : IsFileName name := by
  rw [Path.components, List.mem_append, List.mem_filterMap] at h
  rcases h with h | ⟨part, hpart, h⟩
  · split_ifs at h <;> simp at h
  · exact isFileName_of_partComponent (notMem_of_mem_splitOn hpart) h

/-- A safe path keeps the names of its components. -/
lemma mem_components_of_safeLoop {components : Path} {before names : List Bytes}
    (h : components.foldlM (fun names component =>
      match component with
      | .normal part => some (names ++ [part])
      | .curDir => some names
      | .rootDir | .parentDir => none) before = some names) :
    ∀ name ∈ names, name ∈ before ∨ Component.normal name ∈ components := by
  induction components generalizing before with
  | nil =>
    cases h
    exact fun name hname => .inl hname
  | cons component components ih =>
    rw [List.foldlM_cons, Option.bind_eq_bind, Option.bind_eq_some_iff] at h
    obtain ⟨middle, hstep, h⟩ := h
    intro name hname
    rcases ih h name hname with hmiddle | hlater
    · cases component with
      | rootDir => cases hstep
      | parentDir => cases hstep
      | curDir =>
        cases hstep
        exact .inl hmiddle
      | normal part =>
        cases hstep
        rw [List.mem_append, List.mem_singleton] at hmiddle
        rcases hmiddle with hbefore | rfl
        · exact .inl hbefore
        · exact .inr List.mem_cons_self
    · exact .inr (List.mem_cons_of_mem _ hlater)

lemma isFileName_of_safeManifestPhotoPath {file : Str} {names : List Bytes}
    (h : safeManifestPhotoPath file = some names) : ∀ name ∈ names, IsFileName name := by
  rw [safeManifestPhotoPath, Option.filter_eq_some_iff] at h
  intro name hname
  rcases mem_components_of_safeLoop h.1 name hname with hnil | hname
  · cases hnil
  · exact isFileName_of_mem_components hname

/-! ### Real files of the tree -/

namespace PhotoTree

variable {Target : Type*} (tree : PhotoTree Target)

/-- The path is that of a regular file that is reached from the photos directory through real
directories only. -/
def Contains (path : Path) : Prop :=
  ∃ names, path = tree.pathOf names ∧ tree.listing.nodeAt names = some .file ∧
    ∀ name ∈ names, IsFileName name

/-- The path of an entry names a regular file, but only because the operating system follows a link
on the way to it. -/
def ReachedThroughLink (entry : PhotoManifestEntry) : Prop :=
  ∃ names, entry.file.bind safeManifestPhotoPath = some names ∧
    tree.listing.resolve tree.follow names = some .file ∧ tree.listing.PassesLink names

variable {tree} {callsign : Str}

lemma pathOf_injective : Function.Injective tree.pathOf := by
  intro names names' h
  rw [pathOf, pathOf, List.append_cancel_left_eq] at h
  exact List.map_injective_iff.mpr (fun _ _ => Component.normal.inj) h

lemma isRegularFileNoSymlink_iff {names : List Bytes} :
    tree.isRegularFileNoSymlink names ↔ tree.listing.resolve tree.follow names = some .file := by
  rw [isRegularFileNoSymlink]
  split
  next h => exact iff_of_true rfl h
  next h => exact iff_of_false Bool.false_ne_true h

/-- What the walks find lies in the tree. -/
lemma contains_of_mem_collectPhotoAssets {select : List Bytes → Bool} {asset : AssetMetadata}
    (h : asset ∈ tree.collectPhotoAssets callsign select) : tree.Contains asset.path := by
  obtain ⟨found, hfound, rfl⟩ := List.mem_map.mp h
  obtain ⟨names, rfl, hnode, hnames⟩ := Listing.exists_of_mem_walk tree.wellFormed hfound
  exact ⟨_, rfl, hnode, hnames⟩

lemma contains_of_mem_collectManifestPhotoFallback {relative : List Bytes} {asset : AssetMetadata}
    (h : asset ∈ tree.collectManifestPhotoFallback callsign relative) :
    tree.Contains asset.path := by
  simp only [collectManifestPhotoFallback] at h
  split_ifs at h
  · split at h
    · cases h
    · exact contains_of_mem_collectPhotoAssets h
  · exact contains_of_mem_collectPhotoAssets h

/-- A file at the path of an entry lies in the tree exactly when no link leads to it. -/
lemma contains_pathOf_iff {names : List Bytes} (hnames : ∀ name ∈ names, IsFileName name)
    (hfile : tree.listing.resolve tree.follow names = some .file) :
    tree.Contains (tree.pathOf names) ↔ ¬ tree.listing.PassesLink names := by
  constructor
  · rintro ⟨names', heq, hnode, -⟩ hlink
    obtain rfl := pathOf_injective heq
    rw [Listing.nodeAt_eq_none_of_passesLink hlink] at hnode
    cases hnode
  · intro hlink
    rw [Listing.resolve_eq_nodeAt tree.follow hlink] at hfile
    exact ⟨names, rfl, hfile, hnames⟩

/-- The photos of an entry lie in the tree exactly when its path does not lead to a file through a
link. -/
theorem contains_manifestEntryPhotos_iff (tree : PhotoTree Target) (callsign : Str)
    (entry : PhotoManifestEntry) :
    (∀ asset ∈ tree.manifestEntryPhotos callsign entry, tree.Contains asset.path) ↔
      ¬ tree.ReachedThroughLink entry := by
  rw [manifestEntryPhotos, ReachedThroughLink]
  cases hfile : entry.file.bind safeManifestPhotoPath with
  | none => simp
  | some names =>
    obtain ⟨file, -, hsafe⟩ := Option.bind_eq_some_iff.mp hfile
    have hnames := isFileName_of_safeManifestPhotoPath hsafe
    simp only [Option.some.injEq, exists_eq_left']
    split_ifs with hdirect
    · rw [isRegularFileNoSymlink_iff] at hdirect
      rw [List.forall_mem_singleton]
      show tree.Contains (tree.pathOf names) ↔ _
      rw [contains_pathOf_iff hnames hdirect]
      simp [hdirect]
    · rw [isRegularFileNoSymlink_iff] at hdirect
      simp only [hdirect, false_and, not_false_eq_true, iff_true]
      intro asset hasset
      exact contains_of_mem_collectManifestPhotoFallback hasset

/-- A photos directory whose `album` is a link to a directory elsewhere. -/
def linkedTree : PhotoTree Unit where
  dir := [.normal (ascii "ham0"), .normal (ascii "photos")]
  listing := .link (ascii "album") () .empty
  follow := fun _ => some (.file (ascii "x.jpg") .empty)
  wellFormed := ⟨⟨by decide, by decide, by decide, by decide⟩, List.not_mem_nil, trivial⟩

def linkedManifest : PhotoCatalog := .parse (ascii "K0AB album/x.jpg")

/-- A manifest entry brings in a file from behind a link. -/
theorem not_contains_linkedTree : ∃ entry ∈ linkedManifest.lookup (ascii "K0AB"),
    ∃ asset ∈ linkedTree.manifestEntryPhotos (ascii "K0AB") entry,
      ¬ linkedTree.Contains asset.path := by
  have hlookup : linkedManifest.lookup (ascii "K0AB") =
      [⟨ascii "K0AB", some (ascii "album/x.jpg")⟩] := by decide +kernel
  have hphotos : linkedTree.manifestEntryPhotos (ascii "K0AB")
      ⟨ascii "K0AB", some (ascii "album/x.jpg")⟩ = [assetMetadata .photo (ascii "K0AB")
        (linkedTree.pathOf [ascii "album", ascii "x.jpg"])] := by decide +kernel
  rw [hlookup]
  refine ⟨_, List.mem_singleton_self _, _, hphotos ▸ List.mem_singleton_self _, ?_⟩
  have hnames : ∀ name ∈ [ascii "album", ascii "x.jpg"], IsFileName name := by
    intro name hname
    rw [List.mem_cons, List.mem_singleton] at hname
    rcases hname with rfl | rfl
    · exact ⟨by decide, by decide, by decide, by decide⟩
    · exact ⟨by decide, by decide, by decide, by decide⟩
  show ¬ linkedTree.Contains (linkedTree.pathOf [ascii "album", ascii "x.jpg"])
  rw [contains_pathOf_iff hnames (by decide +kernel), not_not]
  exact List.cons_ne_nil _ _

end PhotoTree

end Callbook
