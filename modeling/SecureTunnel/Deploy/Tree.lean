import SecureTunnel.Config.Keygen
import SecureTunnel.Deploy.Vetting

/-!
# Installations on a file tree

A file tree with links, seen from a directory, is a machine (`Process.machine`): what
`test` finds behind a path is a file, or a link leads to it
(`Process.symlinkMetadata_of_file`). Links have mode `0777` there, and no key file that
the script accepts is one.

* `Process.inOrder_iff`: what is left for the server to find in order where the script
  accepts.
* `Process.written_key_accepted`: a key that `write_private_key` has written passes the
  checks of the script and of the server, which reads the same key.
-/

namespace SecureTunnel

/-- What a tree does not tell: the texts of errors, by the path that led to them, and the
    words that a shell expands a pattern to. -/
structure Surroundings where
  display : Text → Text
  expand : Text → List Text
  expand_plain : ∀ word, (∀ c ∈ word, isGlob c = false) → expand word = [word]

namespace Process

variable (p : Process) (t : Tree) (around : Surroundings)

/-! ## Trees as machines -/

/-- What is found behind a path, links followed. -/
def found (path : Text) : Option (Node Attributes Text Text) := (p.locate t path).bind t.node

/-- `test -f` -/
def isFile (path : Text) : Bool :=
  match p.found t path with
  | some (.file ..) => true
  | _ => false

/-- What the server is answered on a file tree. -/
def files : Files where
  symlinkMetadata path :=
    match p.symlinkMetadata t path with
    | some metadata => .ok metadata
    | none => .error (around.display path)
  readToString path :=
    match p.found t path with
    | some (.file a content) => if p.user.may 4 a then .ok content else .error (around.display path)
    | _ => .error (around.display path)

variable {p t around} {path : Text} {metadata : Metadata}

theorem files_symlinkMetadata :
    (p.files t around).symlinkMetadata path = .ok metadata ↔
      p.symlinkMetadata t path = some metadata := by
  simp only [files]
  cases p.symlinkMetadata t path with
  | none =>
    refine ⟨fun h => ?_, fun h => ?_⟩
    · cases h
    · cases h
  | some metadata' => rw [Except.ok.injEq, Option.some.injEq]

theorem found_of_isFile (h : p.isFile t path = true) :
    ∃ a content, p.found t path = some (.file a content) := by
  rw [isFile] at h
  split at h
  · rename_i a content hfound
    exact ⟨a, content, hfound⟩
  · cases h

/-- Where a file is found, it is itself at the path, or a link is. -/
theorem symlinkMetadata_of_file (h : p.isFile t path = true) :
    ∃ metadata, p.symlinkMetadata t path = some metadata ∧
      (metadata.fileType = .file ∨ metadata.fileType = .symlink) := by
  obtain ⟨a, content, hfound⟩ := found_of_isFile h
  obtain ⟨i, hi, hnode⟩ := Option.bind_eq_some_iff.1 hfound
  rw [locate] at hi
  split at hi
  · cases hi
  obtain ⟨hwalk, hthere⟩ := Option.filter_eq_some_iff.1 hi
  -- A path that ends with a separator would have led to a directory.
  have hslashed : isSlashed path = false := by
    have hfile : t.isDirectory i = false := by
      rw [FileTree.isDirectory, hnode]
      rfl
    rw [hfile, Bool.or_false, Bool.and_eq_true, Bool.not_eq_true'] at hthere
    exact hthere.1
  have hne : names path ≠ [] := by
    intro hnil
    rw [isSlashed_of_names_eq_nil hnil] at hslashed
    cases hslashed
  have hnames := (List.dropLast_append_getLast hne).symm
  rw [hnames] at hwalk
  obtain ⟨d, hd, hentry⟩ := FileTree.walk_init hwalk
  obtain ⟨j, hj⟩ := Option.isSome_iff_exists.1 hentry
  have hsome := FileTree.isSome_of_entry hj
  rw [see, FileTree.node_restrict, Option.isSome_map] at hsome
  obtain ⟨n, hn⟩ := Option.isSome_iff_exists.1 hsome
  refine ⟨_, symlinkMetadata_of_entry hslashed hnames hd hj hn, ?_⟩
  cases htarget : t.target? j with
  | some target =>
    rw [FileTree.target?, hn, Option.bind_some] at htarget
    cases n with
    | link => exact .inr rfl
    | _ => cases htarget
  | none =>
    -- The last name is not that of a link, so the walk ends there.
    have hlink : (p.see t).target? j = none := FileTree.target?_restrict.trans htarget
    have hlast := FileTree.walk_concat hd hj hlink
    obtain rfl := Option.some.inj (hlast.symm.trans hwalk)
    obtain rfl := Option.some.inj (hn.symm.trans hnode)
    exact .inl rfl

/-- Links have a mode of their own. -/
theorem mode_of_link {mode : ℕ} (h : p.symlinkMetadata t path = some ⟨.symlink, mode⟩) :
    mode = 0o777 := by
  have hnode : ∃ n : Node Attributes Text Text, Node.metadata n = ⟨.symlink, mode⟩ := by
    rw [symlinkMetadata] at h
    split at h
    · obtain ⟨i, -, hi⟩ := Option.bind_eq_some_iff.1 h
      obtain ⟨n, -, hn⟩ := Option.map_eq_some_iff.1 hi
      exact ⟨n, hn⟩
    · obtain ⟨name, -, h⟩ := Option.bind_eq_some_iff.1 h
      obtain ⟨d, -, h⟩ := Option.bind_eq_some_iff.1 h
      obtain ⟨i, -, hi⟩ := Option.bind_eq_some_iff.1 h
      obtain ⟨n, -, hn⟩ := Option.map_eq_some_iff.1 hi
      exact ⟨n, hn⟩
  obtain ⟨n, hn⟩ := hnode
  cases n with
  | link => exact (Metadata.mk.inj hn).2.symm
  | _ => cases hn

variable (p t around) in
/-- The machine of a tree. -/
def machine : Machine :=
  .linux (p.files t around) (p.isFile t) around.expand
    (fun _ h =>
      let ⟨metadata, hmetadata, htype⟩ := symlinkMetadata_of_file h
      ⟨metadata, files_symlinkMetadata.2 hmetadata, htype⟩)
    around.expand_plain

/-! ## What the script leaves open -/

/-- On a tree, links need not be thought of: the server finds an installation in order
    that the script accepts exactly if the script has looked at the address of the
    destination, or had no need to, and the key files that it has not looked at pass. -/
theorem inOrder_iff {config : Text} {doc : Toml.Document} {c : ServerConfig}
    (haccepted : (p.machine t around).Accepts .server config)
    (hread : (p.files t around).readToString config = .ok doc.text)
    (hconfig : doc.serverConfig = some c) :
    c.InOrder (p.files t around) ↔
      ((doc.valuesOf "address".toList)[1]? = doc.lookup "destination".toList "address".toList ∨
        c.destination.ip.isLoopback = true) ∧
      ∀ path ∈ c.keyFiles, ¬doc.Lists path →
        (p.files t around).enforcePrivatePermissions path = .ok () := by
  constructor
  · intro h
    have hmeets := haccepted.meets hread h
    exact ⟨hmeets.destination, hmeets.unlisted⟩
  · rintro ⟨hdestination, hunlisted⟩
    refine haccepted.inOrder_of_meets hread hconfig ?_
    constructor
    case destination => exact hdestination
    case listed =>
      intro path _ hlists
      refine haccepted.not_isLink hread hlists fun mode hlink => ?_
      rw [mode_of_link (files_symlinkMetadata.1 hlink)]
      decide
    case unlisted => exact hunlisted

/-! ## What keygen writes -/

/-- What `write_private_key` leaves when it succeeds: the key is at the path. -/
theorem exists_of_writePrivateKey {key : StaticKey} {t' : Tree}
    (h : p.writePrivateKey t path key = (.ok (), t')) :
    p.symlinkMetadata t' path = some ⟨.file, p.masked 0o600⟩ ∧
      p.found t' path =
        some (.file (p.user.own (p.masked 0o600)) (Base64.encode key.1)) := by
  -- Whatever the parent, the file is made in a place under the path.
  obtain ⟨s, r, hr, rfl⟩ : ∃ (s : Tree) (r : Place p.user s), p.place s path = some r ∧
      t' = r.makeFile (p.masked 0o600) (Base64.encode key.1) := by
    rw [writePrivateKey] at h
    split at h
    · cases h
    rename_i s hprepare
    obtain ⟨_, hcreate, -⟩ | ⟨_, _, _, hcreate, -⟩ | ⟨r, hcreate, hr, -⟩ :=
      create_cases p s path key
    · cases hcreate.symm.trans h
    · cases hcreate.symm.trans h
    · exact ⟨s, r, hr, (Prod.mk.inj (hcreate.symm.trans h)).2.symm⟩
  have hsees := sees_of_place hr
  refine ⟨hsees.symlinkMetadata_add, ?_⟩
  rw [found, Place.makeFile, hsees.locate_add rfl, Option.bind_some, FileTree.node_add_next]

/-- No letter of a key is blank. -/
theorem isKey_encode (key : StaticKey) : IsKey (Base64.encode key.1) key := by
  have hletters : (Base64.alphabet ++ ['=']).all (!isWhitespace ·) = true := by decide +kernel
  refine trim_eq_self fun c hc => ?_
  have hmem : c ∈ Base64.alphabet ++ ['='] := by
    rw [List.mem_append, List.mem_singleton]
    exact Base64.mem_encode hc
  simpa using List.all_eq_true.1 hletters c hmem

variable (p) in
/-- The owner may read a file of mode 0600. -/
theorem may_read_private : p.user.may 4 (p.user.own 0o600) = true := by
  have howner : p.user.uid = (p.user.own 0o600).uid := rfl
  refine decide_eq_true (.inr ?_)
  rw [User.bits, if_pos howner]
  change (0o600 : ℕ) >>> 6 &&& 4 = 4
  decide

/-- A file of mode 0600 with the letters of a key passes the checks of the script and of
    the server, which reads that key if it may. -/
theorem accepted_of_found {engine : Base64Engine} {key : StaticKey} {a : Attributes}
    (hmetadata : p.symlinkMetadata t path = some ⟨.file, 0o600⟩)
    (hfound : p.found t path = some (.file a (Base64.encode key.1)))
    (hmay : p.user.may 4 a = true) (hflag : path.head? ≠ some '-') :
    (p.machine t around).checkMode0600 path = [] ∧
      readPrivateKey engine (p.files t around) path = .ok key := by
  have hmetadata : (p.files t around).symlinkMetadata path = .ok ⟨.file, 0o600⟩ :=
    files_symlinkMetadata.2 hmetadata
  constructor
  · have hfile : (p.machine t around).isFile path = true := by
      show p.isFile t path = true
      rw [isFile, hfound]
    have hmode : (p.machine t around).modeOf path = "600".toList := by
      rw [machine, Machine.modeOf_linux hflag, Files.stat, hmetadata]
      decide
    rw [Machine.checkMode0600, hfile, hmode, if_neg (by decide : ¬true = false), if_pos rfl,
      ite_self]
  · have hread : (p.files t around).readToString path = .ok (Base64.encode key.1) := by
      simp only [files, hfound, hmay, if_true]
    have hguarded : (p.files t around).enforcePrivatePermissions path = .ok () :=
      Files.enforcePrivatePermissions_eq_ok.2 ⟨_, hmetadata, by decide⟩
    rw [readPrivateKey, hguarded, hread]
    dsimp only
    rw [engine.decode_eq_ok.2 (isKey_encode key)]
    exact keyOfBytes_eq_ok.2 rfl

/-- A key that `write_private_key` has written, under a umask that leaves the file to its
    user, passes the checks of the script and of the server, which reads the same key. -/
theorem written_key_accepted {engine : Base64Engine} {key : StaticKey} {t' : Tree}
    (h : p.writePrivateKey t path key = (.ok (), t')) (hmask : p.masked 0o600 = 0o600)
    (hflag : path.head? ≠ some '-') :
    (p.machine t' around).checkMode0600 path = [] ∧
      readPrivateKey engine (p.files t' around) path = .ok key := by
  obtain ⟨hmetadata, hfound⟩ := exists_of_writePrivateKey h
  rw [hmask] at hmetadata hfound
  exact accepted_of_found hmetadata hfound (may_read_private p) hflag

end Process

end SecureTunnel
