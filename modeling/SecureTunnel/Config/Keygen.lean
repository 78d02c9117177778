import SecureTunnel.Config.Keys
import SecureTunnel.Config.Path
import SecureTunnel.General.FileTree

/-!
# Making a private key

`keygen` of client and server, on a file tree, where the system may fail at any of
its steps. Nothing is undone after a failure. What a failed `write_private_key`
leaves is exactly determined (`failed_keygen_leaves`): nothing, if it fails before it
makes anything; a directory that is in nobody's way, in most other cases; but a
directory in which the next attempt is refused, if it cannot be given its mode; and a
file where the key should be, if that cannot be written.

The nodes have owners and modes: a process sees the entries of the directories that it
may search (`Process.see`), and makes entries in those that it may write to as well.
-/

namespace SecureTunnel

/-- What `stat` tells of a node, beside its type. -/
structure Attributes where
  mode : ℕ
  uid : ℕ
  gid : ℕ
  deriving DecidableEq

/-- A file tree with text for names and for contents. -/
abbrev Tree := FileTree Attributes Text Text

def Node.metadata : Node Attributes Text Text → Metadata
  | .file a _ => ⟨.file, a.mode⟩
  | .directory a _ => ⟨.directory, a.mode⟩
  | .link _ => ⟨.symlink, 0o777⟩
  | .other a => ⟨.other, a.mode⟩

/-! ## The system -/

/-- The user that a process runs as, and its groups, the first of which is that of the
    nodes that it makes. -/
structure User where
  uid : ℕ
  gid : ℕ
  groups : List ℕ
  deriving DecidableEq

namespace User

def root : User := ⟨0, 0, []⟩

/-- The permission bits that are the user's: those of the owner, of the group, or of
    the others. -/
def bits (u : User) (a : Attributes) : ℕ :=
  if u.uid = a.uid then a.mode >>> 6
  else if a.gid = u.gid ∨ a.gid ∈ u.groups then a.mode >>> 3
  else a.mode

/-- All the bits that are wanted are set: 4 to read, 2 to write, 1 to search. Root needs
    none. -/
def may (u : User) (wanted : ℕ) (a : Attributes) : Bool :=
  u.uid = 0 ∨ u.bits a &&& wanted = wanted

/-- The attributes of a node that the user makes. -/
def own (u : User) (mode : ℕ) : Attributes := ⟨mode, u.uid, u.gid⟩

theorem root_may (wanted : ℕ) (a : Attributes) : root.may wanted a = true := rfl

/-- Who may write to a directory and search it, may search it. -/
theorem may_search {u : User} {a : Attributes} (h : u.may 3 a = true) : u.may 1 a = true := by
  rw [may, decide_eq_true_iff] at h ⊢
  refine h.imp_right fun hbits => ?_
  have hmask : (3 : ℕ) &&& 1 = 1 := rfl
  rw [← hmask, ← Nat.and_assoc, hbits]

end User

/-- The user may change the mode of the node. -/
def Node.ownedBy (u : User) : Node Attributes Text Text → Bool
  | .file a _ | .directory a _ | .other a => u.uid = 0 ∨ u.uid = a.uid
  | .link _ => false

/-- The steps at which the system may fail. -/
inductive KeyStep
  /-- `exists` of the path of the key, which is false then. -/
  | probeKey
  /-- `exists` of its parent. -/
  | probe
  | metadata
  | createDir
  | setPermissions
  | create
  /-- Writing, after so many letters. -/
  | write (n : ℕ)
  | sync
  deriving DecidableEq

/-- The process that makes a key, and what the system does to it. -/
structure Process where
  cwd : ℕ
  umask : ℕ
  user : User
  fault : Option KeyStep
  /-- The texts of the errors of the system. -/
  display : KeyStep → Text

/-- A name that is free in a directory to which the user may write. -/
structure Place (u : User) (t : Tree) where
  dir : ℕ
  name : Text
  admits : t.admits (u.may 3) dir = true
  free : t.entry dir name = none

namespace Place

variable {u : User} {t : Tree} (place : Place u t)

theorem isDirectory : t.isDirectory place.dir = true := FileTree.isDirectory_of_admits place.admits

def makeFile (mode : ℕ) (content : Text) : Tree :=
  t.add place.dir place.name (.file (u.own mode) content) nofun

/-- The only entry of a new directory, but for itself, leads up. -/
def makeDirectory (mode : ℕ) : Tree :=
  t.add place.dir place.name
    (.directory (u.own mode) fun name => if name = ['.', '.'] then some place.dir else none)
    fun _ _ h => by
      obtain ⟨-, rfl⟩ := Option.ite_some_none_eq_some.1 h
      exact FileTree.isSome_of_isDirectory place.isDirectory

theorem extends_makeFile {mode : ℕ} {content : Text} : t.Extends (place.makeFile mode content) :=
  FileTree.extends_add place.free

theorem extends_makeDirectory {mode : ℕ} : t.Extends (place.makeDirectory mode) :=
  FileTree.extends_add place.free

end Place

/-- `MAXSYMLINKS` -/
def maxLinks : ℕ := 40

namespace Process

variable (p : Process) (t : Tree) (path : Text)

/-- The tree as the process sees it. -/
def see : Tree := t.restrict (p.user.may 1)

/-- The directory where the names lead. -/
def walk (names : List Text) : Option ℕ :=
  (p.see t).walk maxLinks (if isAbsolute path then t.root else p.cwd) names

/-- What `stat` finds. -/
def locate : Option ℕ :=
  if path = [] then none
  else (p.walk t path (names path)).filter fun i =>
    (!isSlashed path || t.isDirectory i) && (!isDotted path || t.admits (p.user.may 1) i)

/-- `symlink_metadata` -/
def symlinkMetadata : Option Metadata :=
  if isSlashed path then (p.locate t path).bind fun i => (t.node i).map Node.metadata
  else
    (names path).getLast?.bind fun name => (p.walk t path (names path).dropLast).bind fun d =>
      ((p.see t).entry d name).bind fun i => (t.node i).map Node.metadata

/-- Where an entry can be made. -/
def place : Option (Place p.user t) :=
  if isSlashed path then none
  else
    (names path).getLast?.bind fun name => (p.walk t path (names path).dropLast).bind fun dir =>
      if h : t.admits (p.user.may 3) dir = true ∧ t.entry dir name = none then
        some ⟨dir, name, h.1, h.2⟩
      else none

/-- The mode of a new node. -/
def masked (mode : ℕ) : ℕ := mode &&& (0o777 ^^^ (p.umask &&& 0o777))

def createDir : Option Tree :=
  (p.place t path).map fun place => place.makeDirectory (p.masked 0o777)

/-- `chmod`, which is up to the owner. -/
def setPermissions (mode : ℕ) : Option Tree :=
  (p.locate t path).bind fun i =>
    if (t.node i).any (Node.ownedBy p.user) then
      some (t.modify i (Node.change fun a => { a with mode }) (Node.entry_change _))
    else none

/-- `open` with `create_new`: the tree, and the file that is open. -/
def createNew (mode : ℕ) : Option (Tree × ℕ) :=
  (p.place t path).map fun place => (place.makeFile (p.masked mode) [], t.next)

def write (file : ℕ) (content : Text) : Tree :=
  t.modify file (Node.setContent content) (Node.entry_setContent content)

/-- A step, which fails if the system says so. -/
def attempt {α : Type} (step : KeyStep) (result : Option α) : Option α :=
  if p.fault = some step then none else result

/-! ## The code -/

/-- `enforce_private_parent_permissions` -/
def enforcePrivateParentPermissions : Except (List Text) Unit :=
  match p.attempt .metadata (p.symlinkMetadata t path) with
  | none => .error [p.display .metadata]
  | some metadata =>
    if metadata.fileType ≠ .directory then
      .error ["private-key parent directory ".toList ++ path ++ " must be a real directory".toList]
    else if sharedBits metadata.mode ≠ 0 then
      .error ["private-key parent directory ".toList ++ path ++
        " must not grant group/world access (mode ".toList ++
        Nat.toDigits 8 (metadata.mode &&& 0o777) ++ ")".toList]
    else .ok ()

def preparePrivateKeyParent : Except (List Text) Unit × Tree :=
  if p.fault ≠ some .probe ∧ (p.locate t (parent path)).isSome then
    (p.enforcePrivateParentPermissions t (parent path), t)
  else
    match p.attempt .createDir (p.createDir t (parent path)) with
    | none =>
      (.error ["could not create dedicated private-key parent directory ".toList ++ parent path,
        p.display .createDir], t)
    | some t =>
      match p.attempt .setPermissions (p.setPermissions t (parent path) 0o700) with
      | none => (.error [p.display .setPermissions], t)
      | some t => (.ok (), t)

/-- `write_private_key`, once its parent is prepared. -/
def createPrivateKey (key : StaticKey) : Except (List Text) Unit × Tree :=
  match p.attempt .create (p.createNew t path 0o600) with
  | none => (.error ["could not create private key ".toList ++ path, p.display .create], t)
  | some (t, file) =>
    match p.fault with
    | some (.write n) =>
      (.error [p.display (.write n)], write t file ((Base64.encode key.1).take n))
    | some .sync => (.error [p.display .sync], write t file (Base64.encode key.1))
    | _ => (.ok (), write t file (Base64.encode key.1))

def writePrivateKey (key : StaticKey) : Except (List Text) Unit × Tree :=
  match p.preparePrivateKeyParent t path with
  | (.error e, t) => (.error e, t)
  | (.ok (), t) => p.createPrivateKey t path key

/-- `keygen`, with the context of an error of `generate_keypair`, and the private key
    that it generates. -/
def keygen (context : List Text) (generated : Except TunnelError StaticKey) :
    Except (List Text) Unit × Tree :=
  if p.fault ≠ some .probeKey ∧ (p.locate t path).isSome then
    (.error ["refusing to overwrite existing private key ".toList ++ path], t)
  else
    match generated with
    | .error e => (.error (context ++ e.chain), t)
    | .ok key => p.writePrivateKey t path key

/-- `keygen` of the client, and of the server. -/
def Client.keygen : Except TunnelError StaticKey → Except (List Text) Unit × Tree :=
  p.keygen t path ["could not generate Noise identity".toList]

def Server.keygen : Except TunnelError StaticKey → Except (List Text) Unit × Tree :=
  p.keygen t path []

/-! ## Seeing -/

/-- The other process starts from the same directory, and may do what this one may. -/
structure Within (q : Process) : Prop where
  start : isAbsolute path = true ∨ q.cwd = p.cwd
  may : ∀ wanted a, p.user.may wanted a = true → q.user.may wanted a = true

/-- The process, run by root. -/
def asRoot : Process := { p with user := .root }

section

variable {p t path} {q : Process} {t' : Tree} {i : ℕ}

variable (p t path) in
theorem within_refl : p.Within path p := ⟨.inr rfl, fun _ _ h => h⟩

theorem Within.asRoot (hstart : isAbsolute path = true ∨ q.cwd = p.cwd) :
    p.Within path q.asRoot :=
  ⟨hstart, fun wanted a _ => User.root_may wanted a⟩

theorem Within.see (h : p.Within path q) (ht : t.Extends t') :
    (p.see t).Extends (q.see t') :=
  ht.restrict (h.may 1)

/-- What the one process found, the other finds there, also later. -/
theorem Within.walk (h : p.Within path q) (ht : t.Extends t') {names : List Text}
    (hwalk : p.walk t path names = some i) : q.walk t' path names = some i := by
  have hstart : (if isAbsolute path then t.root else p.cwd) =
      if isAbsolute path then t'.root else q.cwd := by
    rw [ht.root]
    obtain habsolute | hcwd := h.start
    · rw [if_pos habsolute, if_pos habsolute]
    · rw [hcwd]
  rw [Process.walk, hstart] at hwalk
  exact (h.see ht).walk hwalk

theorem Within.locate (h : p.Within path q) (ht : t.Extends t')
    (hi : p.locate t path = some i) : q.locate t' path = some i := by
  rw [Process.locate] at hi ⊢
  split at hi
  · cases hi
  rename_i hne
  obtain ⟨hwalk, hfound⟩ := Option.filter_eq_some_iff.1 hi
  rw [if_neg hne]
  refine Option.filter_eq_some_iff.2 ⟨h.walk ht hwalk, ?_⟩
  rw [Bool.and_eq_true, Bool.or_eq_true, Bool.or_eq_true] at hfound ⊢
  refine hfound.imp (.imp_right ht.isDirectory) (.imp_right fun hadmits => ?_)
  exact FileTree.admits_mono (h.may 1) (ht.admits hadmits)

/-- A walk goes by the names, and by whether the path is absolute. -/
theorem walk_congr {path' : Text} (h : isAbsolute path' = isAbsolute path) (names : List Text) :
    p.walk t path' names = p.walk t path names := by
  rw [walk, walk, h]

theorem isSlashed_of_names_eq_nil (h : names path = []) : isSlashed path = true := by
  have hblank : ∀ piece ∈ pieces path, isBlank piece = true := by
    simpa [names, List.filter_eq_nil_iff] using h
  obtain ⟨piece, hpiece⟩ := Option.isSome_iff_exists.1
    (List.getLast?_isSome.2 (pieces_ne_nil path))
  rw [isSlashed, hpiece, Option.any_some]
  exact hblank piece (List.mem_of_getLast? hpiece)

/-- What is found is there. -/
theorem isSome_of_locate (h : p.locate t path = some i) : (t.node i).isSome := by
  rw [Process.locate] at h
  split at h
  · cases h
  obtain ⟨hwalk, hfound⟩ := Option.filter_eq_some_iff.1 h
  cases hnames : names path with
  | nil =>
    rw [isSlashed_of_names_eq_nil hnames, Bool.and_eq_true] at hfound
    exact FileTree.isSome_of_isDirectory hfound.1
  | cons name rest =>
    rw [hnames] at hwalk
    have hnode := FileTree.isSome_of_walk hwalk (FileTree.isSome_of_walk_cons hwalk)
    rwa [Process.see, FileTree.node_restrict, Option.isSome_map] at hnode

end

/-! ## Finding and making -/

/-- By the path, the process gets to the place. -/
structure Sees {u : User} {t : Tree} (place : Place u t) : Prop where
  slashed : isSlashed path = false
  walk : ∃ init, names path = init ++ [place.name] ∧ p.walk t path init = some place.dir
  admits : t.admits (p.user.may 1) place.dir = true

section

variable {p t path} {i : ℕ} {u : User} {place : Place u t}

/-- What `place` finds: a directory where all names but the last lead. -/
theorem sees_of_place {place : Place p.user t} (h : p.place t path = some place) :
    p.Sees path place := by
  rw [Process.place] at h
  split at h
  · cases h
  rename_i hslashed
  obtain ⟨name, hname, h⟩ := Option.bind_eq_some_iff.1 h
  obtain ⟨dir, hdir, h⟩ := Option.bind_eq_some_iff.1 h
  split at h
  · rename_i hplace
    cases h
    obtain ⟨init, hinit⟩ := List.getLast?_eq_some_iff.1 hname
    rw [hinit, List.dropLast_concat] at hdir
    exact ⟨Bool.eq_false_iff.2 hslashed, ⟨init, hinit, hdir⟩,
      FileTree.admits_mono (fun _ => User.may_search) hplace.1⟩
  · cases h

theorem Sees.within {q : Process} (h : p.Sees path place) (hwithin : p.Within path q) :
    q.Sees path place := by
  obtain ⟨init, hnames, hwalk⟩ := h.walk
  exact ⟨h.slashed, ⟨init, hnames, hwithin.walk (.refl t) hwalk⟩,
    FileTree.admits_mono (hwithin.may 1) h.admits⟩

/-- Nothing is found where an entry can be made. -/
theorem Sees.walk_none (h : p.Sees path place) : p.walk t path (names path) = none := by
  obtain ⟨init, hnames, hwalk⟩ := h.walk
  rw [hnames]
  exact FileTree.walk_concat_none hwalk (FileTree.entry_restrict_none place.free)

theorem Sees.locate_none (h : p.Sees path place) : p.locate t path = none := by
  rw [Process.locate, h.walk_none, Option.filter_none, ite_self]

theorem locate_of_place {place : Place p.user t} (h : p.place t path = some place) :
    p.locate t path = none :=
  (sees_of_place h).locate_none

section Adding

variable {n : Node Attributes Text Text} {hn : ∀ name i, n.entry name = some i → (t.node i).isSome}

/-- The process sees the new entry. -/
theorem Sees.entry_add (h : p.Sees path place) :
    (p.see (t.add place.dir place.name n hn)).entry place.dir place.name = some t.next := by
  rw [Process.see, FileTree.entry_restrict,
    if_pos ((FileTree.extends_add place.free).admits h.admits),
    FileTree.entry_add place.isDirectory]

/-- A new node is found by the path it was made for. -/
theorem Sees.walk_add (h : p.Sees path place) (hlink : n.target? = none) :
    p.walk (t.add place.dir place.name n hn) path (names path) = some t.next := by
  obtain ⟨init, hnames, hwalk⟩ := h.walk
  have hextends : t.Extends (t.add place.dir place.name n hn) := FileTree.extends_add place.free
  have hlater := (within_refl p path).walk hextends hwalk
  rw [hnames]
  refine FileTree.walk_concat hlater h.entry_add ?_
  rw [Process.see, FileTree.target?_restrict, FileTree.target?_add_next, hlink]

theorem Sees.locate_add (h : p.Sees path place) (hlink : n.target? = none) :
    p.locate (t.add place.dir place.name n hn) path = some t.next := by
  have hne : path ≠ [] := by
    rintro rfl
    cases h.slashed
  rw [Process.locate, if_neg hne, h.walk_add hlink, h.slashed,
    isDotted_of_not_isSlashed h.slashed]
  rfl

/-- The metadata of an entry is that of its node, with links not followed. -/
theorem symlinkMetadata_of_entry {init : List Text} {name : Text} {d : ℕ}
    {n : Node Attributes Text Text} (hslashed : isSlashed path = false)
    (hnames : names path = init ++ [name]) (hd : p.walk t path init = some d)
    (hi : (p.see t).entry d name = some i) (hn : t.node i = some n) :
    p.symlinkMetadata t path = some (Node.metadata n) := by
  rw [symlinkMetadata, hslashed, if_neg Bool.false_ne_true, hnames, List.getLast?_concat,
    List.dropLast_concat, Option.bind_some, hd, Option.bind_some, hi, Option.bind_some, hn,
    Option.map_some]

theorem Sees.symlinkMetadata_add (h : p.Sees path place) :
    p.symlinkMetadata (t.add place.dir place.name n hn) path = some (Node.metadata n) := by
  obtain ⟨init, hnames, hwalk⟩ := h.walk
  have hextends : t.Extends (t.add place.dir place.name n hn) := FileTree.extends_add place.free
  have hlater := (within_refl p path).walk hextends hwalk
  exact symlinkMetadata_of_entry h.slashed hnames hlater h.entry_add FileTree.node_add_next

end Adding

theorem setPermissions_makeDirectory {place : Place p.user t} (h : p.place t path = some place)
    (mode mode' : ℕ) : p.setPermissions (place.makeDirectory mode) path mode' =
      some (place.makeDirectory mode') := by
  have hlocate : p.locate (place.makeDirectory mode) path = some t.next :=
    (sees_of_place h).locate_add rfl
  have howned : ((place.makeDirectory mode).node t.next).any (Node.ownedBy p.user) = true := by
    rw [Place.makeDirectory, FileTree.node_add_next, Option.any_some]
    exact decide_eq_true (.inr rfl)
  rw [setPermissions, hlocate, Option.bind_some, if_pos howned, Place.makeDirectory,
    FileTree.modify_add]
  rfl

theorem write_makeFile (mode : ℕ) (content content' : Text) :
    write (place.makeFile mode content) t.next content' = place.makeFile mode content' := by
  rw [write, Place.makeFile, FileTree.modify_add]
  rfl

end

/-! ## The parent -/

section

variable {p t path} {i : ℕ} {u : User} {q : Place u t}

/-- The last name of the path, in a new directory. -/
def Fits (path : Text) : Prop :=
  isSlashed path = false ∧ (names path).getLast? ≠ some ['.', '.']

instance (path : Text) : Decidable (Fits path) := inferInstanceAs (Decidable (_ ∧ _))

variable (p) in
/-- A directory of the mode is a parent that the process accepts, and can write to. -/
def Usable (mode : ℕ) : Prop := sharedBits mode = 0 ∧ p.user.may 3 (p.user.own mode) = true

instance (mode : ℕ) : Decidable (p.Usable mode) := inferInstanceAs (Decidable (_ ∧ _))

variable (p) in
theorem usable_private : p.Usable 0o700 := by
  have howner : p.user.uid = (p.user.own 0o700).uid := rfl
  refine ⟨rfl, decide_eq_true (.inr ?_)⟩
  rw [User.bits, if_pos howner]
  change (0o700 : ℕ) >>> 6 &&& 3 = 3
  decide

/-- Where the parent can be made, all names of the path but the last are its. -/
theorem Sees.names_parent (h : p.Sees (parent path) q) :
    ∃ name, names path = names (parent path) ++ [name] ∧
      isAbsolute (parent path) = isAbsolute path := by
  obtain ⟨init, hinit, -⟩ := h.walk
  have hdrop := SecureTunnel.names_parent path
  have hne : names path ≠ [] := by
    intro hnil
    rw [hnil, hinit] at hdrop
    exact absurd hdrop (by simp)
  refine ⟨(names path).getLast hne, ?_, ?_⟩
  · rw [hdrop, List.dropLast_append_getLast]
  · rw [isAbsolute_parent, List.isEmpty_eq_false_iff.2 hne, Bool.not_false, Bool.and_true]

/-- While the parent is missing, so is the path. -/
theorem Sees.locate_none_of_parent (h : p.Sees (parent path) q) : p.locate t path = none := by
  obtain ⟨name, hnames, habsolute⟩ := h.names_parent
  have hmissing := h.walk_none
  rw [walk_congr habsolute] at hmissing
  refine Option.eq_none_iff_forall_ne_some.2 fun i hi => ?_
  rw [Process.locate] at hi
  split at hi
  · cases hi
  obtain ⟨hwalk, -⟩ := Option.filter_eq_some_iff.1 hi
  rw [hnames] at hwalk
  obtain ⟨j, hj, -⟩ := FileTree.walk_init hwalk
  rw [Process.walk] at hmissing
  rw [hj] at hmissing
  cases hmissing

/-- The new parent is found on the way to the path. -/
theorem Sees.walk_makeDirectory (h : p.Sees (parent path) q)
    (habsolute : isAbsolute (parent path) = isAbsolute path) (mode : ℕ) :
    p.walk (q.makeDirectory mode) path (names (parent path)) = some t.next := by
  rw [← walk_congr habsolute]
  exact h.walk_add rfl

/-- In a new parent, there is nothing under the path, unless it leads up again. -/
theorem Sees.locate_makeDirectory (h : p.Sees (parent path) q) {mode : ℕ}
    (hi : p.locate (q.makeDirectory mode) path = some i) : i = q.dir := by
  obtain ⟨name, hnames, habsolute⟩ := h.names_parent
  have hparent := h.walk_makeDirectory habsolute mode
  rw [Process.locate] at hi
  split at hi
  · cases hi
  obtain ⟨hwalk, -⟩ := Option.filter_eq_some_iff.1 hi
  rw [hnames] at hwalk
  have hentry : (q.makeDirectory mode).entry t.next name =
      if name = ['.', '.'] then some q.dir else none := FileTree.entry_add_next name
  have hseen : (p.see (q.makeDirectory mode)).entry t.next name = none ∨
      (p.see (q.makeDirectory mode)).entry t.next name = some q.dir := by
    rw [Process.see, FileTree.entry_restrict, hentry]
    split
    · split
      · exact .inr rfl
      · exact .inl rfl
    · exact .inl rfl
  obtain hnone | hup := hseen
  · have hstuck := FileTree.walk_concat_none hparent hnone
    cases hstuck.symm.trans hwalk
  · have hdirectory : (p.see (q.makeDirectory mode)).target? q.dir = none := by
      rw [Process.see, FileTree.target?_restrict]
      exact FileTree.target?_of_isDirectory
        (q.extends_makeDirectory.isDirectory q.isDirectory)
    have hthere := FileTree.walk_concat hparent hup hdirectory
    exact Option.some.inj (hwalk.symm.trans hthere)

/-- And there is a place under the path, if its last name fits and the parent is no
    obstacle to its owner. -/
theorem place_makeDirectory {q : Place p.user t} (h : p.place t (parent path) = some q)
    (mode : ℕ) : (p.place (q.makeDirectory mode) path).isSome = true ↔
      Fits path ∧ p.user.may 3 (p.user.own mode) = true := by
  obtain ⟨name, hnames, habsolute⟩ := (sees_of_place h).names_parent
  have hparent := (sees_of_place h).walk_makeDirectory habsolute mode
  have hentry : (q.makeDirectory mode).entry t.next name =
      if name = ['.', '.'] then some q.dir else none := FileTree.entry_add_next name
  have hadmits : (q.makeDirectory mode).admits (p.user.may 3) t.next =
      p.user.may 3 (p.user.own mode) := FileTree.admits_add_next _
  rw [Process.place, Fits, hnames, List.getLast?_concat, List.dropLast_concat, Option.bind_some,
    hparent, Option.bind_some]
  simp only [hadmits, hentry]
  cases isSlashed path with
  | true => simp
  | false =>
    by_cases hup : name = ['.', '.'] <;>
      by_cases hmay : p.user.may 3 (p.user.own mode) = true <;> simp [hup, hmay]

end

/-! ## What a failure leaves -/

/-- The parent is there, and private. -/
def Ready : Prop := (p.locate t (parent path)).isSome ∧
  ∃ mode, p.symlinkMetadata t (parent path) = some ⟨.directory, mode⟩ ∧ sharedBits mode = 0

/-- The parent is missing, but can be made. -/
def Makeable : Prop := (p.place t (parent path)).isSome

instance : Decidable (p.Makeable t path) := inferInstanceAs (Decidable (_ = true))

/-- There is a place for the key. -/
def Opens : Prop :=
  p.Ready t path ∧ (p.place t path).isSome ∨ p.Makeable t path ∧ Fits path

/-- The system fails while the key is written. -/
def failsLate : Bool :=
  match p.fault with
  | some (.write _) | some .sync => true
  | _ => false

/-- What a `write_private_key` that failed can leave. -/
inductive Left : Tree → Prop
  /-- It failed before it made anything. -/
  | nothing : ¬(p.Makeable t path ∧ p.fault ≠ some .createDir) →
      ¬(p.Ready t path ∧ (p.place t path).isSome ∧ p.failsLate) → Left t
  /-- The parent was made, with the mode that the umask leaves. -/
  | masked {q : Place p.user t} : p.place t (parent path) = some q →
      p.fault = some .setPermissions →
      Left (q.makeDirectory (p.masked 0o777))
  /-- The parent was made. -/
  | parent {q : Place p.user t} : p.place t (parent path) = some q →
      p.fault = some .create ∨ ¬Fits path → p.fault ≠ some .createDir →
      p.fault ≠ some .setPermissions → Left (q.makeDirectory 0o700)
  /-- The file was made, in a parent that was there or was made. -/
  | file {s : Tree} {r : Place p.user s} {mode : ℕ} {content : Text} :
      (s = t ∧ p.Ready t path ∨ ∃ q : Place p.user t, p.place t (parent path) = some q ∧
        s = q.makeDirectory 0o700) →
      p.place s path = some r → p.failsLate → Left (r.makeFile mode content)

section

variable {p t path} {i : ℕ} {q : Place p.user t}

theorem Ready.not_makeable (h : p.Ready t path) : ¬p.Makeable t path := by
  intro hmakeable
  obtain ⟨q, hq⟩ := Option.isSome_iff_exists.1 hmakeable
  rw [Ready, locate_of_place hq] at h
  cases h.1

/-- In a parent that is in order, the place of the key decides. -/
theorem Ready.opens_iff (h : p.Ready t path) :
    p.Opens t path ↔ (p.place t path).isSome = true :=
  ⟨fun hopens => hopens.elim And.right fun hmake => absurd hmake.1 h.not_makeable,
    fun hplace => .inl ⟨h, hplace⟩⟩

/-- In a parent that is to be made, the last name of the path decides. -/
theorem Makeable.opens_iff (h : p.Makeable t path) : p.Opens t path ↔ Fits path :=
  ⟨fun hopens => hopens.elim (fun hready => absurd h hready.1.not_makeable) And.right,
    fun hfits => .inr ⟨h, hfits⟩⟩

theorem enforcePrivateParentPermissions_eq_ok :
    p.enforcePrivateParentPermissions t path = .ok () ↔ p.fault ≠ some .metadata ∧
      ∃ mode, p.symlinkMetadata t path = some ⟨.directory, mode⟩ ∧ sharedBits mode = 0 := by
  rw [enforcePrivateParentPermissions, attempt]
  by_cases hfault : p.fault = some .metadata
  · rw [if_pos hfault]
    exact ⟨nofun, fun h => absurd hfault h.1⟩
  rw [if_neg hfault]
  cases p.symlinkMetadata t path with
  | none => exact ⟨nofun, by rintro ⟨-, _, ⟨⟩, -⟩⟩
  | some metadata =>
    obtain ⟨fileType, mode⟩ := metadata
    simp only [ite_error_eq_ok, ne_eq, not_not]
    constructor
    · rintro ⟨rfl, hmode, -⟩
      exact ⟨hfault, mode, rfl, hmode⟩
    · rintro ⟨-, _, ⟨⟩, hmode⟩
      exact ⟨rfl, hmode, trivial⟩

variable (p t path) in
/-- All that preparing the parent can do. -/
theorem prepare_cases :
    (∃ e, p.preparePrivateKeyParent t path = (.error e, t) ∧
      ¬(p.Makeable t path ∧ p.fault ≠ some .createDir) ∧
      (p.Ready t path → p.fault = some .probe ∨ p.fault = some .metadata)) ∨
    (∃ e q, p.preparePrivateKeyParent t path = (.error e, q.makeDirectory (p.masked 0o777)) ∧
      p.place t (SecureTunnel.parent path) = some q ∧ p.fault = some .setPermissions) ∨
    (p.preparePrivateKeyParent t path = (.ok (), t) ∧ p.Ready t path) ∨
    ∃ q, p.preparePrivateKeyParent t path = (.ok (), q.makeDirectory 0o700) ∧
      p.place t (SecureTunnel.parent path) = some q ∧ p.fault ≠ some .createDir ∧
      p.fault ≠ some .setPermissions := by
  rw [preparePrivateKeyParent]
  split
  · -- The parent is there.
    rename_i hthere
    cases hcheck : p.enforcePrivateParentPermissions t (SecureTunnel.parent path) with
    | error e =>
      refine .inl ⟨e, rfl, fun ⟨hmakeable, _⟩ => ?_, fun hready => .inr ?_⟩
      · obtain ⟨q, hq⟩ := Option.isSome_iff_exists.1 hmakeable
        rw [locate_of_place hq] at hthere
        cases hthere.2
      · by_contra hfault
        rw [enforcePrivateParentPermissions_eq_ok.2 ⟨hfault, hready.2⟩] at hcheck
        cases hcheck
    | ok =>
      have hprivate := (enforcePrivateParentPermissions_eq_ok.1 hcheck).2
      exact .inr (.inr (.inl ⟨rfl, hthere.2, hprivate⟩))
  · -- It is not, or the system does not say so.
    rename_i hmissing
    have hprobe : p.Ready t path → p.fault = some .probe := fun hready =>
      not_not.1 fun hfault => hmissing ⟨hfault, hready.1⟩
    by_cases hfault : p.fault = some .createDir
    · rw [attempt, if_pos hfault]
      exact .inl ⟨_, rfl, fun h => h.2 hfault, fun hready => .inl (hprobe hready)⟩
    rw [attempt, if_neg hfault, createDir]
    cases hq : p.place t (SecureTunnel.parent path) with
    | none =>
      refine .inl ⟨_, rfl, fun ⟨hmakeable, _⟩ => ?_, fun hready => .inl (hprobe hready)⟩
      rw [Makeable, hq] at hmakeable
      cases hmakeable
    | some q =>
      rw [Option.map_some]
      dsimp only
      by_cases hfault' : p.fault = some .setPermissions
      · rw [attempt, if_pos hfault']
        exact .inr (.inl ⟨_, q, rfl, rfl, hfault'⟩)
      · rw [attempt, if_neg hfault', setPermissions_makeDirectory hq]
        exact .inr (.inr (.inr ⟨q, rfl, rfl, hfault, hfault'⟩))

variable (p t path) in
/-- All that making the file can do. -/
theorem create_cases (key : StaticKey) :
    (∃ e, p.createPrivateKey t path key = (.error e, t) ∧
      (p.fault = some .create ∨ p.place t path = none)) ∨
    (∃ e r content, p.createPrivateKey t path key =
        (.error e, r.makeFile (p.masked 0o600) content) ∧
      p.place t path = some r ∧ p.failsLate = true) ∨
    ∃ r, p.createPrivateKey t path key =
        (.ok (), r.makeFile (p.masked 0o600) (Base64.encode key.1)) ∧
      p.place t path = some r ∧ p.fault ≠ some .create ∧ p.failsLate = false := by
  rw [createPrivateKey, attempt]
  by_cases hfault : p.fault = some .create
  · rw [if_pos hfault]
    exact .inl ⟨_, rfl, .inl hfault⟩
  rw [if_neg hfault, createNew]
  cases hr : p.place t path with
  | none => exact .inl ⟨_, rfl, .inr rfl⟩
  | some r =>
    simp only [Option.map_some, write_makeFile]
    rw [failsLate]
    split
    · exact .inr (.inl ⟨_, r, _, rfl, rfl, rfl⟩)
    · exact .inr (.inl ⟨_, r, _, rfl, rfl, rfl⟩)
    · exact .inr (.inr ⟨r, rfl, rfl, hfault, rfl⟩)

/-- All that a failed `write_private_key` can leave. -/
theorem left_of_error {key : StaticKey} {e : List Text} {t' : Tree}
    (h : p.writePrivateKey t path key = (.error e, t')) : p.Left t path t' := by
  rw [writePrivateKey] at h
  obtain ⟨e, hprepare, hmakeable, hready⟩ | ⟨e, q, hprepare, hq, hfault⟩ | ⟨hprepare, hready⟩ |
    ⟨q, hprepare, hq, hdir, hmode⟩ := prepare_cases p t path
  · rw [hprepare] at h
    cases h
    refine .nothing hmakeable fun ⟨hready', _, hlate⟩ => ?_
    rw [failsLate] at hlate
    obtain hfault | hfault := hready hready' <;> rw [hfault] at hlate <;> cases hlate
  · rw [hprepare] at h
    cases h
    exact .masked hq hfault
  · -- The file is to be made in a parent that was there.
    rw [hprepare] at h
    obtain ⟨_, hcreate, hwhy⟩ | ⟨_, r, _, hcreate, hr, hlate⟩ | ⟨r, hcreate, -⟩ :=
      create_cases p t path key
    · cases hcreate.symm.trans h
      refine .nothing (fun ⟨hmakeable, _⟩ => hready.not_makeable hmakeable)
        fun ⟨_, hplace, hlate⟩ => ?_
      obtain hfault | hnone := hwhy
      · rw [failsLate, hfault] at hlate
        cases hlate
      · rw [hnone] at hplace
        cases hplace
    · cases hcreate.symm.trans h
      exact .file (.inl ⟨rfl, hready⟩) hr hlate
    · cases hcreate.symm.trans h
  · -- And here in one that was made.
    rw [hprepare] at h
    obtain ⟨_, hcreate, hwhy⟩ | ⟨_, r, _, hcreate, hr, hlate⟩ | ⟨r, hcreate, -⟩ :=
      create_cases p (q.makeDirectory 0o700) path key
    · cases hcreate.symm.trans h
      refine .parent hq (hwhy.imp_right fun hnone hfits => ?_) hdir hmode
      have hplace := (place_makeDirectory hq 0o700).2 ⟨hfits, (usable_private p).2⟩
      rw [hnone] at hplace
      cases hplace
    · cases hcreate.symm.trans h
      exact .file (.inr ⟨q, hq, rfl⟩) hr hlate
    · cases hcreate.symm.trans h

/-! ## Another attempt -/

/-- The fault is gone. -/
def calm (p : Process) : Process := { p with fault := none }

/-- Without a fault, a file is made wherever there is a place for it. -/
theorem createPrivateKey_calm {key : StaticKey} :
    (p.calm.createPrivateKey t path key).1 = .ok () ↔ (p.place t path).isSome = true := by
  obtain ⟨_, hcreate, hwhy⟩ | ⟨_, _, _, -, -, hlate⟩ | ⟨r, hcreate, hr, -⟩ :=
    create_cases p.calm t path key
  · have hnone : p.place t path = none := hwhy.resolve_left nofun
    rw [hcreate, hnone]
    exact ⟨nofun, nofun⟩
  · cases hlate
  · have hsome : p.place t path = some r := hr
    rw [hcreate, hsome]
    exact ⟨fun _ => rfl, fun _ => rfl⟩

/-- Without a fault, a key is written exactly if there is a place for it. -/
theorem writePrivateKey_calm {key : StaticKey} :
    (p.calm.writePrivateKey t path key).1 = .ok () ↔ p.Opens t path := by
  rw [writePrivateKey]
  obtain ⟨e, hprepare, hmakeable, hready⟩ | ⟨e, q, -, -, hfault⟩ | ⟨hprepare, hready⟩ |
    ⟨q, hprepare, hq, -, -⟩ := prepare_cases p.calm t path
  · rw [hprepare]
    refine ⟨nofun, ?_⟩
    rintro (⟨hready', -⟩ | ⟨hmakeable', -⟩)
    · obtain hfault | hfault := hready hready' <;> cases hfault
    · exact absurd ⟨hmakeable', nofun⟩ hmakeable
  · cases hfault
  · -- The parent was there.
    have hready : p.Ready t path := hready
    rw [hprepare, hready.opens_iff]
    exact createPrivateKey_calm
  · -- The parent was made.
    have hq : p.place t (SecureTunnel.parent path) = some q := hq
    have hmakeable : p.Makeable t path := Option.isSome_iff_exists.2 ⟨q, hq⟩
    have hplace : (p.place (q.makeDirectory 0o700) path).isSome = true ↔ Fits path :=
      (place_makeDirectory hq 0o700).trans (and_iff_left (usable_private p).2)
    rw [hprepare, hmakeable.opens_iff]
    exact createPrivateKey_calm.trans hplace

theorem Opens.locate (h : p.Opens t path) : p.locate t path = none := by
  obtain ⟨-, hplace⟩ | ⟨hmakeable, -⟩ := h
  · obtain ⟨r, hr⟩ := Option.isSome_iff_exists.1 hplace
    exact locate_of_place hr
  · obtain ⟨q, hq⟩ := Option.isSome_iff_exists.1 hmakeable
    exact (sees_of_place hq).locate_none_of_parent

/-- And so is one generated. -/
theorem keygen_calm {context : List Text} {generated : Except TunnelError StaticKey} :
    (p.calm.keygen t path context generated).1 = .ok () ↔
      (∃ key, generated = .ok key) ∧ p.Opens t path := by
  rw [keygen.eq_def]
  split
  · rename_i hthere
    refine ⟨nofun, fun ⟨_, hopens⟩ => ?_⟩
    have hnone : p.calm.locate t path = none := hopens.locate
    rw [hnone] at hthere
    cases hthere.2
  · cases generated with
    | error e => exact ⟨nofun, fun ⟨⟨_, h⟩, _⟩ => nomatch h⟩
    | ok key => exact writePrivateKey_calm.trans ⟨fun h => ⟨⟨key, rfl⟩, h⟩, And.right⟩

/-- In a parent that was made, there is a place for the key if the parent can be used. -/
theorem opens_makeDirectory (hq : p.place t (SecureTunnel.parent path) = some q) {mode : ℕ} :
    p.Opens (q.makeDirectory mode) path ↔ p.Usable mode ∧ Fits path := by
  have hsees := sees_of_place hq
  have hlocate : p.locate (q.makeDirectory mode) (SecureTunnel.parent path) = some t.next :=
    hsees.locate_add rfl
  have hready : p.Ready (q.makeDirectory mode) path ↔ sharedBits mode = 0 := by
    have hmetadata : p.symlinkMetadata (q.makeDirectory mode) (SecureTunnel.parent path) =
        some ⟨.directory, mode⟩ := hsees.symlinkMetadata_add
    rw [Ready, hlocate, hmetadata]
    refine ⟨?_, fun h => ⟨rfl, mode, rfl, h⟩⟩
    rintro ⟨-, _, ⟨⟩, h⟩
    exact h
  have hmakeable : ¬p.Makeable (q.makeDirectory mode) path := fun h => by
    obtain ⟨q', hq'⟩ := Option.isSome_iff_exists.1 h
    rw [locate_of_place hq'] at hlocate
    cases hlocate
  rw [Opens, hready, place_makeDirectory hq, or_iff_left fun h => hmakeable h.1]
  exact ⟨fun h => ⟨⟨h.1, h.2.2⟩, h.2.1⟩, fun h => ⟨h.1.1, h.2, h.1.2⟩⟩

end

/-! ## Harm -/

/-- What a failed `write_private_key` left does no harm: at the path of the key root
    finds no node that was not there before, nothing that was there before has changed
    its content or mode, except that directories may have more entries, and `keygen`
    is not refused where it was not before. -/
structure Harmless (t' : Tree) : Prop where
  absent : ∀ i, p.asRoot.locate t' path = some i → (t.node i).isSome
  grown : t.Extends t'
  again : ∀ context generated, (p.calm.keygen t path context generated).1 = .ok () →
    (p.calm.keygen t' path context generated).1 = .ok ()

/-- And no directory has more entries. -/
structure LeavesNothing (t' : Tree) : Prop extends p.Harmless t path t' where
  kept : ∀ {i n}, t.node i = some n → t'.node i = some n

section

variable {p t path} {i : ℕ} {q : Place p.user t} {t' : Tree}

theorem leavesNothing_refl : p.LeavesNothing t path t where
  absent _ := isSome_of_locate
  grown := .refl t
  again _ _ := id
  kept := id

theorem harmless_makeDirectory (hq : p.place t (SecureTunnel.parent path) = some q) {mode : ℕ} :
    p.Harmless t path (q.makeDirectory mode) ↔ (Fits path → p.Usable mode) := by
  have hroot := (sees_of_place hq).within (Within.asRoot (.inr rfl))
  have hmakeable : p.Makeable t path := Option.isSome_iff_exists.2 ⟨q, hq⟩
  constructor
  · intro h hfits
    have hagain := h.again [] (.ok ⟨List.replicate 32 0, List.length_replicate⟩)
    rw [keygen_calm, keygen_calm, opens_makeDirectory hq] at hagain
    exact (hagain ⟨⟨_, rfl⟩, .inr ⟨hmakeable, hfits⟩⟩).2.1
  · intro hmode
    refine ⟨fun i hi => ?_, q.extends_makeDirectory, fun context generated => ?_⟩
    · rw [hroot.locate_makeDirectory hi]
      exact FileTree.isSome_of_isDirectory q.isDirectory
    · rw [keygen_calm, keygen_calm, opens_makeDirectory hq]
      rintro ⟨hgenerated, ⟨hready, -⟩ | ⟨-, hfits⟩⟩
      · exact absurd hmakeable hready.not_makeable
      · exact ⟨hgenerated, hmode hfits, hfits⟩

/-- Where the file was made, there was a place for it. -/
theorem opens_of_place {s : Tree} {r : Place p.user s}
    (hwhere : s = t ∧ p.Ready t path ∨ ∃ q : Place p.user t,
      p.place t (SecureTunnel.parent path) = some q ∧ s = q.makeDirectory 0o700)
    (hr : p.place s path = some r) : p.Opens t path := by
  obtain ⟨rfl, hready⟩ | ⟨q, hq, rfl⟩ := hwhere
  · exact .inl ⟨hready, Option.isSome_iff_exists.2 ⟨r, hr⟩⟩
  · refine .inr ⟨Option.isSome_iff_exists.2 ⟨q, hq⟩, ?_⟩
    exact ((place_makeDirectory hq 0o700).1 (Option.isSome_iff_exists.2 ⟨r, hr⟩)).1

/-- A file where the key should be does harm. -/
theorem not_harmless_makeFile {s : Tree} {r : Place p.user s} (hr : p.place s path = some r)
    (hnext : t.next ≤ s.next) {mode : ℕ} {content : Text} :
    ¬p.Harmless t path (r.makeFile mode content) := by
  intro h
  have hroot := (sees_of_place hr).within (Within.asRoot (.inr rfl))
  have hlocate : p.asRoot.locate (r.makeFile mode content) path = some s.next :=
    hroot.locate_add rfl
  have hold := h.absent _ hlocate
  rw [t.unused hnext] at hold
  cases hold

/-- A parent that was made is something. -/
theorem not_kept_makeDirectory {mode : ℕ} : ¬p.LeavesNothing t path (q.makeDirectory mode) := by
  intro h
  obtain ⟨n, hn⟩ := Option.isSome_iff_exists.1 (FileTree.isSome_of_isDirectory q.isDirectory)
  exact FileTree.node_add_ne q.isDirectory q.free ((h.kept hn).trans hn.symm)

/-- What is left does no harm unless it is a file, or a parent that cannot be used. -/
theorem Left.harmless_iff (h : p.Left t path t') : p.Harmless t path t' ↔
    ¬(p.Opens t path ∧ (p.failsLate = true ∨ p.fault = some .setPermissions ∧
      p.Makeable t path ∧ ¬p.Usable (p.masked 0o777))) := by
  cases h with
  | nothing hparent hfile =>
    refine ⟨fun _ => ?_, fun _ => leavesNothing_refl.toHarmless⟩
    rintro ⟨hopens, hlate | ⟨hfault, hmakeable, -⟩⟩
    · -- A late failure in a ready parent, or in one to be made, would have left something.
      obtain ⟨hready, hplace⟩ | ⟨hmakeable, -⟩ := hopens
      · exact hfile ⟨hready, hplace, hlate⟩
      · refine hparent ⟨hmakeable, fun hfault => ?_⟩
        rw [failsLate, hfault] at hlate
        cases hlate
    · exact hparent ⟨hmakeable, by rw [hfault]; decide⟩
  | @masked q hq hfault =>
    have hmakeable : p.Makeable t path := Option.isSome_iff_exists.2 ⟨q, hq⟩
    -- The mode that the umask leaves may do all the same.
    rw [harmless_makeDirectory hq, hmakeable.opens_iff]
    refine ⟨fun h hharm => ?_, fun h hfits => ?_⟩
    · obtain ⟨hfits, hlate | ⟨-, -, hunusable⟩⟩ := hharm
      · rw [failsLate, hfault] at hlate
        cases hlate
      · exact hunusable (h hfits)
    · by_contra hunusable
      exact h ⟨hfits, .inr ⟨hfault, hmakeable, hunusable⟩⟩
  | @parent q hq hwhy _ hmode =>
    have hmakeable : p.Makeable t path := Option.isSome_iff_exists.2 ⟨q, hq⟩
    refine ⟨fun _ => ?_, fun _ => (harmless_makeDirectory hq).2 fun _ => usable_private p⟩
    rintro ⟨hopens, hlate | ⟨hfault, -⟩⟩
    · obtain hfault | hfits := hwhy
      · rw [failsLate, hfault] at hlate
        cases hlate
      · exact hfits (hmakeable.opens_iff.1 hopens)
    · exact hmode hfault
  | @file s r mode content hwhere hr hlate =>
    -- A file in the place of the key always does harm.
    have hopens := opens_of_place hwhere hr
    have hnext : t.next ≤ s.next := by
      obtain ⟨rfl, -⟩ | ⟨q, -, rfl⟩ := hwhere
      · exact Nat.le_refl _
      · exact Nat.le_succ _
    exact ⟨fun h => absurd h (not_harmless_makeFile hr hnext),
      fun h => absurd ⟨hopens, .inl hlate⟩ h⟩

/-- And it is nothing unless it is one of these, or a private parent. -/
theorem Left.leavesNothing_iff (h : p.Left t path t') : p.LeavesNothing t path t' ↔
    ¬(p.Makeable t path ∧ p.fault ≠ some .createDir) ∧
      ¬(p.Opens t path ∧ p.failsLate = true) := by
  have hharmless := h.harmless_iff
  cases h with
  | nothing hparent hfile =>
    have hnone := hharmless.1 leavesNothing_refl.toHarmless
    exact ⟨fun _ => ⟨hparent, fun h => hnone ⟨h.1, .inl h.2⟩⟩, fun _ => leavesNothing_refl⟩
  | @masked q hq hfault =>
    refine ⟨fun h => absurd h not_kept_makeDirectory, fun h => absurd ?_ h.1⟩
    exact ⟨Option.isSome_iff_exists.2 ⟨q, hq⟩, by rw [hfault]; decide⟩
  | @parent q hq hwhy hdir hmode =>
    refine ⟨fun h => absurd h not_kept_makeDirectory, fun h => absurd ?_ h.1⟩
    exact ⟨Option.isSome_iff_exists.2 ⟨q, hq⟩, hdir⟩
  | file hwhere hr hlate =>
    have hopens := opens_of_place hwhere hr
    exact ⟨fun h => absurd ⟨hopens, .inl hlate⟩ (hharmless.1 h.toHarmless),
      fun h => absurd ⟨hopens, hlate⟩ h.2⟩

end

end Process

/-- If `write_private_key` returns an error, it has left nothing behind exactly if it
    made no parent (that was there, or there was no place for it, or making it is what
    failed) and the system did not fail while it wrote the key to a new file. Where a
    parent may be left, it has done no harm exactly if the system did not fail then,
    nor on giving its mode to a parent that the umask leaves open to others, or closed to
    its owner. In no case is a node lost or changed, but that directories get entries. -/
theorem failed_keygen_leaves {p : Process} {t t' : Tree} {path : Text} {key : StaticKey}
    {e : List Text} (h : p.writePrivateKey t path key = (.error e, t')) :
    (p.LeavesNothing t path t' ↔ ¬(p.Makeable t path ∧ p.fault ≠ some .createDir) ∧
      ¬(p.Opens t path ∧ p.failsLate = true)) ∧
    (p.Harmless t path t' ↔ ¬(p.Opens t path ∧ (p.failsLate = true ∨
      p.fault = some .setPermissions ∧ p.Makeable t path ∧ ¬p.Usable (p.masked 0o777)))) ∧
    t.Extends t' := by
  have hleft := Process.left_of_error h
  refine ⟨hleft.leavesNothing_iff, hleft.harmless_iff, ?_⟩
  cases hleft with
  | nothing => exact .refl t
  | @masked q | @parent q => exact q.extends_makeDirectory
  | @file s r mode content hwhere =>
    obtain ⟨rfl, -⟩ | ⟨q, -, rfl⟩ := hwhere
    · exact r.extends_makeFile
    · exact q.extends_makeDirectory.trans r.extends_makeFile

/-! ## A key that cannot be written -/

/-- A root directory with a private directory `keys`, of an ordinary user. -/
def Tree.keys : Tree where
  node
    | 0 => some (.directory ⟨0o755, 1000, 1000⟩ fun name =>
      if name = ['.', '.'] then some 0 else if name = "keys".toList then some 1 else none)
    | 1 => some (.directory ⟨0o700, 1000, 1000⟩ fun name =>
      if name = ['.', '.'] then some 0 else none)
    | _ => none
  root := 0
  next := 2
  unused {i} h := by
    match i, h with
    | i + 2, _ => rfl
  rooted := rfl
  closed {d n name i} hn hentry := by
    match d with
    | 0 =>
      cases hn
      rw [Node.entry] at hentry
      split at hentry
      · cases hentry
        rfl
      · obtain ⟨-, rfl⟩ := Option.ite_some_none_eq_some.1 hentry
        rfl
    | 1 =>
      cases hn
      obtain ⟨-, rfl⟩ := Option.ite_some_none_eq_some.1 hentry
      rfl

/-- A process of that user at the root directory, with an error at a step. -/
def Process.failing (step : KeyStep) : Process where
  cwd := 0
  umask := 0o022
  user := ⟨1000, 1000, []⟩
  fault := some step
  display _ := "Input/output error (os error 5)".toList

/-- A umask that takes the parent from its owner: once its mode cannot be set, the next
    attempt finds no place in it. -/
example :
    let p := { Process.failing .setPermissions with umask := 0o277 }
    (p.calm.keygen (p.writePrivateKey .keys "new/server.key".toList zeroKey).2
      "new/server.key".toList [] (.ok zeroKey)).1 =
        .error ["could not create private key new/server.key".toList,
          "Input/output error (os error 5)".toList] := by decide +kernel

/-- The file cannot be made, in a parent that was. -/
theorem failed_keygen_leaves_parent :
    let p := Process.failing .create
    ∃ e t', p.writePrivateKey .keys "new/server.key".toList zeroKey = (.error e, t') ∧
      p.Harmless .keys "new/server.key".toList t' ∧
      ¬p.LeavesNothing .keys "new/server.key".toList t' := by
  intro p
  have herror : (p.writePrivateKey .keys "new/server.key".toList zeroKey).1 =
      .error ["could not create private key new/server.key".toList,
        "Input/output error (os error 5)".toList] := by decide +kernel
  have hleaves := failed_keygen_leaves (Prod.ext herror rfl)
  refine ⟨_, _, Prod.ext herror rfl, hleaves.2.1.2 ?_, fun h => (hleaves.1.1 h).1 ?_⟩
  · rintro ⟨-, hlate | ⟨hfault, -⟩⟩
    · cases hlate
    · cases hfault
  · exact ⟨by decide +kernel, by decide⟩

/-- The key cannot be written. Its file is there and empty, and in the way of the next
    attempt. -/
theorem failed_keygen_leaves_file :
    let p := Process.failing (.write 0)
    let path := "keys/server.key".toList
    ∃ e t', p.writePrivateKey .keys path zeroKey = (.error e, t') ∧
      p.locate .keys path = none ∧ (p.locate t' path).isSome ∧
      (p.calm.keygen .keys path [] (.ok zeroKey)).1 = .ok () ∧
      (p.calm.keygen t' path [] (.ok zeroKey)).1 =
        .error ["refusing to overwrite existing private key keys/server.key".toList] ∧
      ¬p.Harmless .keys path t' := by
  intro p path
  have herror : (p.writePrivateKey .keys path zeroKey).1 =
      .error ["Input/output error (os error 5)".toList] := by decide +kernel
  have hfresh : (p.calm.keygen .keys path [] (.ok zeroKey)).1 = .ok () := by decide +kernel
  have hagain : (p.calm.keygen (p.writePrivateKey .keys path zeroKey).2 path []
      (.ok zeroKey)).1 =
        .error ["refusing to overwrite existing private key keys/server.key".toList] := by
    decide +kernel
  refine ⟨_, (p.writePrivateKey .keys path zeroKey).2, Prod.ext herror rfl, by decide +kernel,
    by decide +kernel, hfresh, hagain, fun h => ?_⟩
  have hok := h.again [] (.ok zeroKey) hfresh
  cases hagain.symm.trans hok

end SecureTunnel
