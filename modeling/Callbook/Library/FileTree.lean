import Mathlib.Data.List.Nodup

/-!
# File trees

A directory is the listing of its entries: files, symbolic links and directories. A path below a
directory is a list of names. `nodeAt` goes along a path through directories only; `resolve` also
goes through the links in front of the last name, as the operating system does; `walk` collects the
files of a tree and leaves the links alone.
-/

universe u v

/-- The entries of a directory, in the order in which they are read. -/
inductive Listing (Name : Type u) (Target : Type v) where
  | empty
  | file (name : Name) (rest : Listing Name Target)
  | link (name : Name) (target : Target) (rest : Listing Name Target)
  | dir (name : Name) (children rest : Listing Name Target)
  deriving DecidableEq, Repr

/-- What a name stands for. -/
inductive Node (Name : Type u) (Target : Type v) where
  | file
  | link (target : Target)
  | dir (children : Listing Name Target)
  deriving DecidableEq, Repr

/-- What a name stands for, a directory without its entries. -/
def Node.shape {Name : Type u} {Target : Type v} : Node Name Target → Node Name Target
  | .dir _ => .dir .empty
  | node => node

namespace Listing

variable {Name : Type u} {Target : Type v}

/-- The names of the entries. -/
def names : Listing Name Target → List Name
  | .empty => []
  | .file name rest => name :: rest.names
  | .link name _ rest => name :: rest.names
  | .dir name _ rest => name :: rest.names

/-- In every directory the names are distinct and satisfy `ok`. -/
def WellFormed (ok : Name → Prop) : Listing Name Target → Prop
  | .empty => True
  | .file name rest => ok name ∧ name ∉ rest.names ∧ rest.WellFormed ok
  | .link name _ rest => ok name ∧ name ∉ rest.names ∧ rest.WellFormed ok
  | .dir name children rest =>
    ok name ∧ name ∉ rest.names ∧ children.WellFormed ok ∧ rest.WellFormed ok

variable [DecidableEq Name]

/-- The entry of a name. -/
def find? (name : Name) : Listing Name Target → Option (Node Name Target)
  | .empty => none
  | .file name' rest => if name' = name then some .file else rest.find? name
  | .link name' target rest => if name' = name then some (.link target) else rest.find? name
  | .dir name' children rest => if name' = name then some (.dir children) else rest.find? name

/-- What a path stands for that goes through directories only. -/
def nodeAt (l : Listing Name Target) : List Name → Option (Node Name Target)
  | [] => some (.dir l)
  | name :: path =>
    match l.find? name with
    | some (.dir children) => children.nodeAt path
    | some node => if path = [] then some node else none
    | none => none

/-- What a path stands for when the links in front of its last name are followed. -/
def resolve (follow : Target → Option (Listing Name Target)) (l : Listing Name Target) :
    List Name → Option (Node Name Target)
  | [] => some (.dir l)
  | name :: path =>
    match l.find? name with
    | some (.dir children) => children.resolve follow path
    | some (.link target) =>
      if path = [] then some (.link target)
      else
        match follow target with
        | none => none
        | some children => children.resolve follow path
    | some .file => if path = [] then some .file else none
    | none => none

/-- A path meets a link in front of its last name. -/
def PassesLink (l : Listing Name Target) : List Name → Prop
  | [] => False
  | name :: path =>
    match l.find? name with
    | some (.dir children) => children.PassesLink path
    | some (.link _) => path ≠ []
    | _ => False

/-- The files that a walk selects; it goes into every directory and leaves the links alone. -/
def walk (select : List Name → Bool) (root : List Name) : Listing Name Target → List (List Name)
  | .empty => []
  | .file name rest =>
    if select (root ++ [name]) then (root ++ [name]) :: rest.walk select root
    else rest.walk select root
  | .link _ _ rest => rest.walk select root
  | .dir name children rest =>
    children.walk select (root ++ [name]) ++ rest.walk select root

/-! ### Links -/

variable {l rest : Listing Name Target} {name : Name} {path : List Name}

/-- Without a link in front of the last name, following links makes no difference. -/
lemma resolve_eq_nodeAt (follow : Target → Option (Listing Name Target))
    (h : ¬ l.PassesLink path) : l.resolve follow path = l.nodeAt path := by
  induction path generalizing l with
  | nil => rfl
  | cons name path ih =>
    rw [PassesLink] at h
    rw [resolve, nodeAt]
    cases hfind : l.find? name with
    | none => rfl
    | some node =>
      rw [hfind] at h
      cases node with
      | file => rfl
      | link target =>
        have hlast : path = [] := not_not.mp h
        subst hlast
        rfl
      | dir children => exact ih h

/-- A path that meets a link in front of its last name stands for nothing by itself. -/
lemma nodeAt_eq_none_of_passesLink (h : l.PassesLink path) : l.nodeAt path = none := by
  induction path generalizing l with
  | nil => exact absurd h id
  | cons name path ih =>
    rw [PassesLink] at h
    rw [nodeAt]
    cases hfind : l.find? name with
    | none => rfl
    | some node =>
      rw [hfind] at h
      cases node with
      | file => exact absurd h id
      | link target => exact if_neg h
      | dir children => exact ih h

/-! ### Names and the walk -/

lemma mem_names_of_find? {node : Node Name Target} (h : l.find? name = some node) :
    name ∈ l.names := by
  induction l with
  | empty => cases h
  | file name' rest ih =>
    rw [find?] at h
    split_ifs at h with hname
    · exact hname ▸ List.mem_cons_self
    · exact List.mem_cons_of_mem _ (ih h)
  | link name' target rest ih =>
    rw [find?] at h
    split_ifs at h with hname
    · exact hname ▸ List.mem_cons_self
    · exact List.mem_cons_of_mem _ (ih h)
  | dir name' children rest _ ih =>
    rw [find?] at h
    split_ifs at h with hname
    · exact hname ▸ List.mem_cons_self
    · exact List.mem_cons_of_mem _ (ih h)

/-- A longer listing stands for as much where its first names are found alike. -/
lemma nodeAt_of_find? (h : ∀ name ∈ rest.names, l.find? name = rest.find? name)
    (hnode : rest.nodeAt path = some .file) : l.nodeAt path = some .file := by
  cases path with
  | nil => cases hnode
  | cons name path =>
    have hfound : ∃ node, rest.find? name = some node := by
      rw [nodeAt] at hnode
      cases hfind : rest.find? name with
      | none =>
        rw [hfind] at hnode
        cases hnode
      | some node => exact ⟨node, rfl⟩
    obtain ⟨node, hfound⟩ := hfound
    rw [nodeAt, h name (mem_names_of_find? hfound)]
    exact hnode

/-- What a walk collects is a file that a path through directories stands for. -/
theorem exists_of_mem_walk {ok : Name → Prop} {select : List Name → Bool} {root found : List Name}
    (hl : l.WellFormed ok) (h : found ∈ l.walk select root) :
    ∃ path, found = root ++ path ∧ l.nodeAt path = some .file ∧ ∀ name ∈ path, ok name := by
  induction l generalizing root with
  | empty => cases h
  | file name rest ih =>
    obtain ⟨hok, hnew, hrest⟩ := hl
    have hskip : found ∈ rest.walk select root →
        ∃ path, found = root ++ path ∧ (Listing.file name rest).nodeAt path = some .file ∧
          ∀ name ∈ path, ok name := by
      intro hmem
      obtain ⟨path, rfl, hnode, hpath⟩ := ih hrest hmem
      refine ⟨path, rfl, nodeAt_of_find? ?_ hnode, hpath⟩
      intro name' hname'
      rw [find?, if_neg (ne_of_mem_of_not_mem hname' hnew).symm]
    rw [walk] at h
    split_ifs at h
    · rw [List.mem_cons] at h
      rcases h with rfl | h
      · refine ⟨[name], rfl, ?_, List.forall_mem_singleton.mpr hok⟩
        simp [nodeAt, find?]
      · exact hskip h
    · exact hskip h
  | link name target rest ih =>
    obtain ⟨-, hnew, hrest⟩ := hl
    obtain ⟨path, rfl, hnode, hpath⟩ := ih hrest h
    refine ⟨path, rfl, nodeAt_of_find? ?_ hnode, hpath⟩
    intro name' hname'
    rw [find?, if_neg (ne_of_mem_of_not_mem hname' hnew).symm]
  | dir name children rest ihchildren ih =>
    obtain ⟨hok, hnew, hchildren, hrest⟩ := hl
    rw [walk, List.mem_append] at h
    rcases h with h | h
    · obtain ⟨path, rfl, hnode, hpath⟩ := ihchildren hchildren h
      refine ⟨name :: path, by simp, ?_, List.forall_mem_cons.mpr ⟨hok, hpath⟩⟩
      rw [nodeAt, find?, if_pos rfl]
      exact hnode
    · obtain ⟨path, rfl, hnode, hpath⟩ := ih hrest h
      refine ⟨path, rfl, nodeAt_of_find? ?_ hnode, hpath⟩
      intro name' hname'
      rw [find?, if_neg (ne_of_mem_of_not_mem hname' hnew).symm]

/-! ### What a walk finds -/

lemma nodeAt_cons_file {name' : Name} : (Listing.file name rest).nodeAt (name' :: path) =
    if name = name' then (if path = [] then some .file else none)
    else rest.nodeAt (name' :: path) := by
  rw [nodeAt, nodeAt, find?]
  split_ifs <;> simp_all

lemma nodeAt_cons_link {target : Target} {name' : Name} :
    (Listing.link name target rest).nodeAt (name' :: path) =
      if name = name' then (if path = [] then some (.link target) else none)
      else rest.nodeAt (name' :: path) := by
  rw [nodeAt, nodeAt, find?]
  split_ifs <;> simp_all

lemma nodeAt_cons_dir {children : Listing Name Target} {name' : Name} :
    (Listing.dir name children rest).nodeAt (name' :: path) =
      if name = name' then children.nodeAt path else rest.nodeAt (name' :: path) := by
  rw [nodeAt, nodeAt, find?]
  split_ifs <;> simp_all

/-- The first name of a path that stands for a file is a name of the listing. -/
lemma head_mem_names_of_nodeAt (h : l.nodeAt (name :: path) = some .file) : name ∈ l.names := by
  rw [nodeAt] at h
  cases hfind : l.find? name with
  | none =>
    rw [hfind] at h
    cases h
  | some node => exact mem_names_of_find? hfind

omit [DecidableEq Name] in
/-- A walk collects what it selects. -/
lemma select_of_mem_walk {select : List Name → Bool} {root found : List Name}
    (h : found ∈ l.walk select root) : select found := by
  induction l generalizing root with
  | empty => cases h
  | file name rest ih =>
    rw [walk] at h
    split_ifs at h with hselect
    · rcases List.mem_cons.mp h with rfl | h
      · exact hselect
      · exact ih h
    · exact ih h
  | link name target rest ih => exact ih h
  | dir name children rest ihchildren ih =>
    rw [walk, List.mem_append] at h
    exact h.elim ihchildren ih

/-- A walk comes to every file that a path through directories stands for. -/
lemma mem_walk_of_nodeAt {select : List Name → Bool} {root : List Name}
    (hnode : l.nodeAt path = some .file) (hselect : select (root ++ path)) :
    root ++ path ∈ l.walk select root := by
  cases path with
  | nil => cases hnode
  | cons name' path =>
    induction l generalizing root name' path with
    | empty => cases hnode
    | file name rest ih =>
      rw [nodeAt_cons_file] at hnode
      rw [walk]
      split_ifs at hnode with hname hlast
      · subst hname hlast
        rw [if_pos hselect]
        exact List.mem_cons_self
      · split_ifs
        · exact List.mem_cons_of_mem _ (ih _ _ hnode hselect)
        · exact ih _ _ hnode hselect
    | link name target rest ih =>
      rw [nodeAt_cons_link] at hnode
      split_ifs at hnode
      · cases hnode
      · exact ih _ _ hnode hselect
    | dir name children rest ihchildren ih =>
      rw [nodeAt_cons_dir] at hnode
      rw [walk, List.mem_append]
      split_ifs at hnode with hname
      · subst hname
        cases path with
        | nil => cases hnode
        | cons next path =>
          have := @ihchildren (root ++ [name]) next path hnode (by simpa using hselect)
          exact .inl (by simpa using this)
      · exact .inr (ih _ _ hnode hselect)

/-- A walk collects the files of the tree that it selects, and nothing else. -/
theorem mem_walk_iff {ok : Name → Prop} {select : List Name → Bool} {root found : List Name}
    (hl : l.WellFormed ok) : found ∈ l.walk select root ↔
      ∃ path, found = root ++ path ∧ l.nodeAt path = some .file ∧ select found := by
  constructor
  · intro h
    obtain ⟨path, hfound, hnode, -⟩ := exists_of_mem_walk hl h
    exact ⟨path, hfound, hnode, select_of_mem_walk h⟩
  · rintro ⟨path, rfl, hnode, hselect⟩
    exact mem_walk_of_nodeAt hnode hselect

/-- A walk comes to a file once. -/
lemma nodup_walk {ok : Name → Prop} (hl : l.WellFormed ok) (select : List Name → Bool)
    (root : List Name) : (l.walk select root).Nodup := by
  induction l generalizing root with
  | empty => exact List.nodup_nil
  | file name rest ih =>
    obtain ⟨-, hnew, hrest⟩ := hl
    rw [walk]
    split_ifs
    · refine List.nodup_cons.mpr ⟨fun h => ?_, ih hrest root⟩
      obtain ⟨path, hfound, hnode, -⟩ := exists_of_mem_walk hrest h
      obtain rfl := List.append_cancel_left hfound
      exact hnew (head_mem_names_of_nodeAt hnode)
    · exact ih hrest root
  | link name target rest ih => exact ih hl.2.2 root
  | dir name children rest ihchildren ih =>
    obtain ⟨-, hnew, hchildren, hrest⟩ := hl
    refine List.nodup_append.mpr ⟨ihchildren hchildren _, ih hrest root, ?_⟩
    rintro found hbelow _ hbeside rfl
    obtain ⟨below, hfound, -, -⟩ := exists_of_mem_walk hchildren hbelow
    obtain ⟨beside, rfl, hnode, -⟩ := exists_of_mem_walk hrest hbeside
    rw [List.append_assoc] at hfound
    obtain rfl := List.append_cancel_left hfound
    exact hnew (head_mem_names_of_nodeAt hnode)

/-! ### The files of one directory -/

/-- The names of the files of a directory itself. -/
def files : Listing Name Target → List Name
  | .empty => []
  | .file name rest => name :: rest.files
  | .link _ _ rest => rest.files
  | .dir _ _ rest => rest.files

omit [DecidableEq Name] in
lemma mem_names_of_mem_files (h : name ∈ l.files) : name ∈ l.names := by
  induction l with
  | empty => cases h
  | file name' rest ih =>
    rcases List.mem_cons.mp h with rfl | h
    · exact List.mem_cons_self
    · exact List.mem_cons_of_mem _ (ih h)
  | link name' target rest ih => exact List.mem_cons_of_mem _ (ih h)
  | dir name' children rest _ ih => exact List.mem_cons_of_mem _ (ih h)

omit [DecidableEq Name] in
lemma nodup_files {ok : Name → Prop} (hl : l.WellFormed ok) : l.files.Nodup := by
  induction l with
  | empty => exact List.nodup_nil
  | file name rest ih =>
    exact List.nodup_cons.mpr ⟨fun h => hl.2.1 (mem_names_of_mem_files h), ih hl.2.2⟩
  | link name target rest ih => exact ih hl.2.2
  | dir name children rest _ ih => exact ih hl.2.2.2

/-- The files of a directory are the names that stand for one. -/
lemma mem_files_iff {ok : Name → Prop} (hl : l.WellFormed ok) :
    name ∈ l.files ↔ l.nodeAt [name] = some .file := by
  induction l with
  | empty => simp [files, nodeAt, find?]
  | file name' rest ih =>
    rw [files, nodeAt_cons_file, List.mem_cons, ih hl.2.2]
    by_cases hname : name' = name
    · simp [hname]
    · simp [hname, Ne.symm hname]
  | link name' target rest ih =>
    rw [files, nodeAt_cons_link]
    by_cases hname : name' = name
    · subst hname
      exact iff_of_false (fun h => hl.2.1 (mem_names_of_mem_files h)) (by simp)
    · rw [if_neg hname]
      exact ih hl.2.2
  | dir name' children rest _ ih =>
    rw [files, nodeAt_cons_dir]
    by_cases hname : name' = name
    · subst hname
      exact iff_of_false (fun h => hl.2.1 (mem_names_of_mem_files h)) (by simp [nodeAt])
    · rw [if_neg hname]
      exact ih hl.2.2.2

/-! ### The same directory in another order -/

/-- Two listings hold the same entries, here and in every directory below, in whatever order they
are read. -/
def SameEntries (l l' : Listing Name Target) : Prop :=
  ∀ path, (l.nodeAt path).map Node.shape = (l'.nodeAt path).map Node.shape

/-- Two names stand for the same. -/
inductive SameNode : Node Name Target → Node Name Target → Prop
  | file : SameNode .file .file
  | link (target : Target) : SameNode (.link target) (.link target)
  | dir {children children' : Listing Name Target} (h : children.SameEntries children') :
    SameNode (.dir children) (.dir children')

variable {l' : Listing Name Target}

lemma SameEntries.refl (l : Listing Name Target) : l.SameEntries l := fun _ => rfl

lemma nodeAt_singleton : l.nodeAt [name] = l.find? name := by
  rw [nodeAt]
  cases l.find? name with
  | none => rfl
  | some node => cases node <;> rfl

/-- In the same directory a name stands for the same. -/
lemma SameEntries.find? (h : l.SameEntries l') (name : Name) :
    Option.Rel SameNode (l.find? name) (l'.find? name) := by
  have hname := h [name]
  rw [nodeAt_singleton, nodeAt_singleton] at hname
  cases hfind : l.find? name with
  | none =>
    rw [hfind, Option.map_none, eq_comm, Option.map_eq_none_iff] at hname
    rw [hname]
    exact .none
  | some node =>
    rw [hfind, Option.map_some, eq_comm, Option.map_eq_some_iff] at hname
    obtain ⟨node', hfind', hshape⟩ := hname
    rw [hfind']
    refine .some ?_
    cases node with
    | file =>
      cases node' with
      | file => exact .file
      | link _ => cases hshape
      | dir _ => cases hshape
    | link target =>
      cases node' with
      | file => cases hshape
      | link _ =>
        cases hshape
        exact .link target
      | dir _ => cases hshape
    | dir children =>
      cases node' with
      | file => cases hshape
      | link _ => cases hshape
      | dir children' =>
        refine .dir fun path => ?_
        simpa only [nodeAt, hfind, hfind'] using h (name :: path)

/-- Two files of a directory may be read in either order. -/
lemma sameEntries_swap {name' : Name} (h : name ≠ name') :
    (Listing.file name (.file name' rest)).SameEntries (.file name' (.file name rest)) := by
  have hfind : ∀ found, (Listing.file name (.file name' rest)).find? found =
      (Listing.file name' (.file name rest)).find? found := by
    intro found
    rw [Listing.find?, Listing.find?, Listing.find?, Listing.find?]
    split_ifs <;> simp_all
  rintro (_ | ⟨found, path⟩)
  · rfl
  · rw [nodeAt, nodeAt, hfind]

/-- The order may differ in a directory below. -/
lemma SameEntries.dir {children children' : Listing Name Target}
    (h : children.SameEntries children') (name : Name) (rest : Listing Name Target) :
    (Listing.dir name children rest).SameEntries (.dir name children' rest) := by
  rintro (_ | ⟨found, path⟩)
  · rfl
  · rw [nodeAt_cons_dir, nodeAt_cons_dir]
    split_ifs
    · exact h path
    · rfl

lemma SameEntries.nodeAt_eq_file_iff (h : l.SameEntries l') :
    l.nodeAt path = some .file ↔ l'.nodeAt path = some .file := by
  have hfile : ∀ l : Listing Name Target,
      l.nodeAt path = some .file ↔ (l.nodeAt path).map Node.shape = some .file := by
    intro l
    cases l.nodeAt path with
    | none => simp
    | some node => cases node <;> simp [Node.shape]
  rw [hfile, hfile, h]

/-- The operating system comes to the same along a path. -/
lemma SameEntries.resolve {follow follow' : Target → Option (Listing Name Target)}
    (hfollow : ∀ target, Option.Rel SameEntries (follow target) (follow' target))
    (h : l.SameEntries l') (path : List Name) :
    Option.Rel SameNode (l.resolve follow path) (l'.resolve follow' path) := by
  induction path generalizing l l' with
  | nil => exact .some (.dir h)
  | cons name path ih =>
    rw [Listing.resolve, Listing.resolve]
    have hname := h.find? name
    revert hname
    generalize l.find? name = found
    generalize l'.find? name = found'
    intro hname
    cases hname with
    | none => exact .none
    | some hnode =>
      cases hnode with
      | file =>
        simp only
        split_ifs
        · exact .some .file
        · exact .none
      | link target =>
        simp only
        split_ifs
        · exact .some (.link target)
        · have htarget := hfollow target
          revert htarget
          generalize follow target = below
          generalize follow' target = below'
          intro htarget
          cases htarget with
          | none => exact .none
          | some hbelow => exact ih hbelow
      | dir hchildren => exact ih hchildren

/-- A walk over the same directory collects the same files. -/
theorem SameEntries.walk_perm {ok : Name → Prop} (h : l.SameEntries l') (hl : l.WellFormed ok)
    (hl' : l'.WellFormed ok) (select : List Name → Bool) (root : List Name) :
    (l.walk select root).Perm (l'.walk select root) := by
  refine (List.perm_ext_iff_of_nodup (nodup_walk hl _ _) (nodup_walk hl' _ _)).mpr fun found => ?_
  simp only [mem_walk_iff hl, mem_walk_iff hl', h.nodeAt_eq_file_iff]

lemma SameEntries.files_perm {ok : Name → Prop} (h : l.SameEntries l') (hl : l.WellFormed ok)
    (hl' : l'.WellFormed ok) : l.files.Perm l'.files := by
  refine (List.perm_ext_iff_of_nodup (nodup_files hl) (nodup_files hl')).mpr fun name => ?_
  rw [mem_files_iff hl, mem_files_iff hl', h.nodeAt_eq_file_iff]

/-! ### Well-formed parts -/

lemma WellFormed.of_find? {ok : Name → Prop} {children : Listing Name Target}
    (hl : l.WellFormed ok) (h : l.find? name = some (.dir children)) : children.WellFormed ok := by
  induction l with
  | empty => cases h
  | file name' rest ih =>
    rw [Listing.find?] at h
    split_ifs at h
    · cases h
    · exact ih hl.2.2 h
  | link name' target rest ih =>
    rw [Listing.find?] at h
    split_ifs at h
    · cases h
    · exact ih hl.2.2 h
  | dir name' children' rest _ ih =>
    rw [Listing.find?] at h
    split_ifs at h
    · cases h
      exact hl.2.2.1
    · exact ih hl.2.2.2 h

end Listing
