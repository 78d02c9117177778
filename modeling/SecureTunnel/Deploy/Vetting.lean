import SecureTunnel.Config.Document
import SecureTunnel.Deploy.Validate

/-!
# What the validation of an installation is worth

The script and the server check the same configuration: the one looks for keys on
lines, the other in sections. They meet on the lines of the text
(`Toml.Document.valueFor_text`): the script has the values of a key from all
sections, in the order of the file.

* `validation_vouches_iff`: what the script accepts passes the checks of the server
  exactly if the second address of the file is that of the destination, or of no
  consequence, the key files on lines of `private_key_file` are no links, and the
  others, which the script does not look at, pass by themselves.
* `validation_overlooks`: it accepts a destination that is not a loopback address,
  and a private key that everyone may read.
-/

namespace SecureTunnel

namespace Toml

/-! ## Lines, as the script reads them -/

theorem isSpace_of_isBare {c : Char} (h : isBare c = true) : isSpace c = false := by
  obtain ⟨hle, -, -, -⟩ := toNat_of_isBare h
  rw [isSpace, decide_eq_false_iff_not]
  rintro (rfl | ⟨-, hge⟩)
  · exact absurd hle (by decide)
  · omega

theorem ne_of_isBare {c d : Char} (h : isBare c = true) (hd : isBare d = false) : c ≠ d := by
  rintro rfl
  rw [h] at hd
  cases hd

/-- What `value_for` makes of what a line sets a key to. -/
def scanned (setting : Value × Option Comment) : Text :=
  unquote ((setting.1.text ++ behind setting.2).dropWhile isSpace)

theorem BareKey.head?_ne (name : BareKey) {d : Char} (hd : isBare d = false) :
    name.text.head? ≠ some d := by
  intro h
  have := name.bare d (List.mem_of_mem_head? h)
  rw [hd] at this
  cases this

/-- A line sets the key it begins with, and nothing else. -/
theorem assigned_line (name : BareKey) (line : Line) :
    (assigned isSpace '=' name.text line.text).map unquote =
      (line.sets name.text).map scanned := by
  cases line with
  | remark comment =>
    cases comment with
    | none =>
      have hnil : assigned isSpace '=' name.text [] = none := by
        rw [assigned, List.dropWhile_nil]
        cases hdrop : ([] : Text).dropPrefix? name.text with
        | none => rfl
        | some rest =>
          obtain ⟨word, happend, hbeq⟩ := List.dropPrefix?_eq_some_iff.1 hdrop
          obtain rfl := eq_of_beq hbeq
          exact absurd (List.append_eq_nil_iff.1 happend.symm).1 name.ne_nil
      rw [Line.text, remarkText, hnil]
      rfl
    | some comment =>
      rw [Line.text, remarkText,
        assigned_of_head (by decide) name.ne_nil (name.head?_ne (by decide))]
      rfl
  | entry key value comment =>
    have hkey : ∀ c ∈ key.text, isSpace c = false ∧ c ≠ '=' := fun c hc =>
      ⟨isSpace_of_isBare (key.bare c hc), ne_of_isBare (key.bare c hc) (by decide)⟩
    rw [Line.text, Line.sets, assigned_word (by decide) (by decide) hkey key.ne_nil
      fun c hc => isSpace_of_isBare (name.bare c hc)]
    split
    · rw [Option.map_some, Option.map_some, scanned, List.dropWhile_cons_of_pos (by decide)]
    · rfl

/-- The header of a section sets nothing. -/
theorem assigned_header (name : BareKey) (t : Table) :
    assigned isSpace '=' name.text t.header = none := by
  rw [Table.header]
  split
  · exact assigned_of_head (by decide) name.ne_nil (name.head?_ne (by decide))
  · exact assigned_of_head (by decide) name.ne_nil (name.head?_ne (by decide))

/-- The script has all the values that the lines of a document set a key to. -/
theorem Document.valueFor_text (doc : Document) (name : BareKey) :
    valueFor name.text doc.text = (doc.settings name.text).map scanned := by
  rw [valueFor, doc.records_text, lines, List.filterMap_append]
  have hpreamble : (doc.preamble.map remarkText).filterMap
      (fun line => (assigned isSpace '=' name.text line).map unquote) = [] := by
    refine List.filterMap_eq_nil_iff.2 fun line hline => ?_
    obtain ⟨comment, -, rfl⟩ := List.mem_map.1 hline
    exact assigned_line name (.remark comment)
  rw [hpreamble, List.nil_append, List.filterMap_flatMap, settings, List.map_flatMap]
  congr 1
  funext t
  rw [List.filterMap_cons, assigned_header, Option.map_none, List.filterMap_map,
    List.map_filterMap]
  exact List.filterMap_congr fun line _ => assigned_line name line

/-! ## Quoted values -/

theorem head?_dropWhile_append {text rest : Text} {c : Char} (hc : isSpace c = false) :
    ((text ++ c :: rest).dropWhile isSpace).head? =
      some (((text.dropWhile isSpace).head?).getD c) := by
  induction text with
  | nil => rw [List.nil_append, dropWhile_cons_of_not hc]; rfl
  | cons d text ih =>
    by_cases hd : isSpace d = true
    · rw [List.cons_append, List.dropWhile_cons_of_pos hd, List.dropWhile_cons_of_pos hd, ih]
    · rw [Bool.not_eq_true] at hd
      rw [List.cons_append, dropWhile_cons_of_not hd, dropWhile_cons_of_not hd]
      rfl

theorem closes_behind (comment : Option Comment) : closes (behind comment) = true := by
  cases comment with
  | none => rfl
  | some comment => rfl

theorem upToQuote_of_closes {text rest : Text} (h : ∀ c ∈ text, c ≠ '"')
    (hrest : closes rest = true) : upToQuote (text ++ '"' :: rest) = text := by
  induction text with
  | nil => rw [List.nil_append, upToQuote, if_pos ⟨rfl, hrest⟩]
  | cons c text ih =>
    obtain ⟨hc, h⟩ := List.forall_mem_cons.1 h
    rw [List.cons_append, upToQuote, if_neg fun hand => hc hand.1, ih h]

/-- A quoted value is read as it is, unless it looks like a comment: then the opening
    quote is taken for the closing one. -/
theorem scanned_string (p : PlainText) (comment : Option Comment) :
    scanned (.string p, comment) =
      if (p.text.dropWhile isSpace).head? = some '#' then [] else p.text := by
  have hquotes : ∀ c ∈ p.text, c ≠ '"' := by
    intro c hc
    have := p.plain c hc
    rw [isPlain, decide_eq_true_iff] at this
    exact this.2.1
  have hcloses : closes (p.text ++ '"' :: behind comment) = true ↔
      (p.text.dropWhile isSpace).head? = some '#' := by
    rw [closes, head?_dropWhile_append (by decide), Option.all_some, decide_eq_true_iff]
    cases (p.text.dropWhile isSpace).head? with
    | none =>
      rw [Option.getD_none]
      exact iff_of_false (by decide) (by decide)
    | some d => rw [Option.getD_some, Option.some.injEq]
  rw [scanned, Value.text, quoted, List.cons_append, List.append_assoc, List.singleton_append,
    dropWhile_cons_of_not (by decide), unquote, if_pos rfl,
    upToQuote_of_closes hquotes (closes_behind comment)]
  simp only [hcloses]

theorem scanned_string_of_ne_nil {p : PlainText} {comment : Option Comment}
    (h : scanned (.string p, comment) ≠ []) : scanned (.string p, comment) = p.text := by
  rw [scanned_string] at h ⊢
  split
  · rename_i hcomment
    exact absurd (if_pos hcomment) h
  · rfl

/-! ## The keys that matter -/

def keyAddress : BareKey := .ofText "address".toList (by decide +kernel)

def keyPrivateKeyFile : BareKey := .ofText "private_key_file".toList (by decide +kernel)

/-- A path that the script checks as it is: not empty, no flag, no pattern, and nothing
    that looks like a comment. -/
def isLegible (path : Text) : Bool :=
  path ≠ [] ∧ path.head? ≠ some '-' ∧ (path.dropWhile isSpace).head? ≠ some '#' ∧
    path.all (!isGlob ·)

/-- The path is on a line of `private_key_file`, of whatever section, and legible. -/
def Document.Lists (doc : Document) (path : Text) : Prop :=
  isLegible path = true ∧
    ∃ p : PlainText, p.text = path ∧ .string p ∈ doc.valuesOf "private_key_file".toList

end Toml

/-! ## The two checks -/

namespace ServerConfig

/-- The private key files of a configuration: those of its identities, and that of the
    outer TLS where it is enabled. -/
def keyFiles (c : ServerConfig) : List Text :=
  c.identityPaths ++ if c.outerTls.enabled then c.outerTls.privateKeyFile.toList else []

/-- Where all paths are legible, only additional key files are on no line of their own. -/
theorem lists_of_keyFiles {doc : Toml.Document} {c : ServerConfig} {path : Text}
    (hconfig : doc.serverConfig = some c) (hpath : path ∈ c.keyFiles)
    (hlegible : Toml.isLegible path = true) :
    path ∈ c.identity.additionalPrivateKeyFiles ∨ doc.Lists path := by
  obtain ⟨-, ⟨primary, hprimary, htext⟩, htls⟩ := Toml.Document.serverConfig_eq_some hconfig
  obtain hidentity | htlsPath := List.mem_append.1 hpath
  · obtain rfl | hadditional := List.mem_cons.1 hidentity
    · exact .inr ⟨hlegible, primary, htext, Toml.Document.mem_valuesOf_of_lookup hprimary⟩
    · exact .inl hadditional
  · split at htlsPath
    · obtain ⟨p, hp, htext⟩ := htls path (Option.mem_toList.1 htlsPath)
      exact .inr ⟨hlegible, p, htext, Toml.Document.mem_valuesOf_of_lookup hp⟩
    · cases htlsPath

/-- What the server is to find in order: the destination, and the key files. -/
structure InOrder (files : Files) (c : ServerConfig) : Prop where
  destination : ∀ address, c.validate ≠ .error (.destination address)
  keys : ∀ path ∈ c.keyFiles, files.enforcePrivatePermissions path = .ok ()

/-- The check of the destination is the first, and no other fails as it does. -/
theorem validate_ne_destination_iff {c : ServerConfig} :
    (∀ address, c.validate ≠ .error (.destination address)) ↔
      c.destination.ip.isLoopback = true := by
  constructor
  · intro h
    by_contra hnot
    refine h c.destination ?_
    rw [validate, if_pos (by simpa using hnot)]
  · intro hloopback address h
    rw [validate, if_neg (by simp [hloopback])] at h
    repeat'
      split at h
      · cases h
    cases h

end ServerConfig

namespace Machine

/-- The path leads to a link. -/
def IsLink (m : Machine) (path : Text) : Prop :=
  ∃ mode, m.files.symlinkMetadata path = .ok ⟨.symlink, mode⟩

/-- The script and the server look at the same. -/
structure Meets (m : Machine) (doc : Toml.Document) (c : ServerConfig) : Prop where
  destination :
    (doc.valuesOf "address".toList)[1]? =
      doc.lookup "destination".toList "address".toList ∨
    c.destination.ip.isLoopback = true
  listed : ∀ path ∈ c.keyFiles, doc.Lists path → ¬m.IsLink path
  unlisted : ∀ path ∈ c.keyFiles, ¬doc.Lists path →
    m.files.enforcePrivatePermissions path = .ok ()

variable {m : Machine} {config path : Text} {doc : Toml.Document} {c : ServerConfig}

/-- Where the second address is that of the destination, it is a loopback address. -/
theorem Accepts.isLoopback (haccepted : m.Accepts .server config)
    (hread : m.files.readToString config = .ok doc.text) (hconfig : doc.serverConfig = some c)
    (hsecond : (doc.valuesOf "address".toList)[1]? =
      doc.lookup "destination".toList "address".toList) :
    c.destination.ip.isLoopback = true := by
  obtain ⟨p, hlookup, hparse⟩ := (Toml.Document.serverConfig_eq_some hconfig).1
  obtain ⟨destination, hvalue, hbegins⟩ := haccepted.destination hread
  have hvalues : valueFor "address".toList doc.text =
      (doc.settings "address".toList).map Toml.scanned := doc.valueFor_text Toml.keyAddress
  rw [hvalues, List.getElem?_map, Option.map_eq_some_iff] at hvalue
  obtain ⟨⟨value, comment⟩, hsetting, rfl⟩ := hvalue
  -- What the script has in the second place is the address of the destination.
  obtain rfl : value = .string p := by
    rw [hlookup, Toml.Document.valuesOf, List.getElem?_map, hsetting] at hsecond
    exact Option.some.inj hsecond
  have hne : Toml.scanned (.string p, comment) ≠ [] := by
    intro hnil
    rw [hnil] at hbegins
    cases hbegins
  rw [Toml.scanned_string_of_ne_nil hne] at hbegins
  exact SocketAddr.isLoopback_of_begins hbegins hparse

/-- A listed path is checked: it is a file, or a link, with mode `0600`. -/
theorem Accepts.listed (haccepted : m.Accepts .server config)
    (hread : m.files.readToString config = .ok doc.text) (hlists : doc.Lists path) :
    ∃ metadata, m.files.symlinkMetadata path = .ok metadata ∧
      (metadata.fileType = .file ∨ metadata.fileType = .symlink) ∧
      metadata.mode &&& 0o777 = 0o600 := by
  obtain ⟨hlegible, p, rfl, hmem⟩ := hlists
  rw [Toml.isLegible, decide_eq_true_iff] at hlegible
  obtain ⟨hne, hflag, hcomment, hglob⟩ := hlegible
  have hplain : ∀ c ∈ p.text, isGlob c = false := by
    intro c hc
    have := List.all_eq_true.1 hglob c hc
    simpa using this
  have hvalues : valueFor "private_key_file".toList doc.text =
      (doc.settings "private_key_file".toList).map Toml.scanned :=
    doc.valueFor_text Toml.keyPrivateKeyFile
  have hvalue : p.text ∈ valueFor "private_key_file".toList doc.text := by
    obtain ⟨⟨value, comment⟩, hsetting, heq⟩ := List.mem_map.1 hmem
    obtain rfl : value = .string p := heq
    rw [hvalues]
    refine List.mem_map.2 ⟨_, hsetting, ?_⟩
    rw [Toml.scanned_string, if_neg hcomment]
  exact checkMode0600_eq_nil hne hflag (haccepted.key hread hvalue hne hplain)

theorem sharedBits_of_mode {mode : ℕ} (h : mode &&& 0o777 = 0o600) : sharedBits mode = 0 := by
  rw [sharedBits, h]
  decide

/-- A listed path passes the check of the server exactly if it is no link. -/
theorem Accepts.enforce_iff (haccepted : m.Accepts .server config)
    (hread : m.files.readToString config = .ok doc.text) (hlists : doc.Lists path) :
    m.files.enforcePrivatePermissions path = .ok () ↔ ¬m.IsLink path := by
  obtain ⟨⟨fileType, mode⟩, hmetadata, htype, hmode⟩ := haccepted.listed hread hlists
  rw [Files.enforcePrivatePermissions_eq_ok, IsLink, hmetadata]
  obtain rfl | rfl := htype
  · refine iff_of_true ⟨mode, rfl, sharedBits_of_mode hmode⟩ ?_
    rintro ⟨mode', h⟩
    cases h
  · refine iff_of_false ?_ (not_not_intro ⟨mode, rfl⟩)
    rintro ⟨mode', h, -⟩
    cases h

/-- Where the server finds everything in order, it looks at the same as the script. -/
theorem Accepts.meets (haccepted : m.Accepts .server config)
    (hread : m.files.readToString config = .ok doc.text) (h : c.InOrder m.files) :
    m.Meets doc c := by
  constructor
  case destination => exact .inr (ServerConfig.validate_ne_destination_iff.1 h.destination)
  case listed => exact fun path hpath hlists =>
    (haccepted.enforce_iff hread hlists).1 (h.keys path hpath)
  case unlisted => exact fun path hpath _ => h.keys path hpath

/-- And the other way round. -/
theorem Accepts.inOrder_of_meets (haccepted : m.Accepts .server config)
    (hread : m.files.readToString config = .ok doc.text) (hconfig : doc.serverConfig = some c)
    (h : m.Meets doc c) : c.InOrder m.files := by
  constructor
  case destination =>
    rw [ServerConfig.validate_ne_destination_iff]
    exact h.destination.elim (haccepted.isLoopback hread hconfig) id
  case keys =>
    intro path hpath
    by_cases hlists : doc.Lists path
    · exact (haccepted.enforce_iff hread hlists).2 (h.listed path hpath hlists)
    · exact h.unlisted path hpath hlists

/-- A link passes for a key file only if its own mode is `0600`. -/
theorem Accepts.not_isLink (haccepted : m.Accepts .server config)
    (hread : m.files.readToString config = .ok doc.text) (hlists : doc.Lists path)
    (hlink : ∀ mode, m.files.symlinkMetadata path = .ok ⟨.symlink, mode⟩ →
      mode &&& 0o777 ≠ 0o600) :
    ¬m.IsLink path := by
  rintro ⟨mode, hmode⟩
  obtain ⟨metadata, hmetadata, -, hbits⟩ := haccepted.listed hread hlists
  obtain rfl := Except.ok.inj (hmode.symm.trans hmetadata)
  exact hlink mode hmode hbits

/-- What the script does vouch for: the sections are in the order of the template, the
    paths of the key files are legible, and additional ones are on lines of their own as
    well. On Linux, links have mode `0777`. -/
theorem Accepts.inOrder (haccepted : m.Accepts .server config)
    (hread : m.files.readToString config = .ok doc.text) (hconfig : doc.serverConfig = some c)
    (hsecond : (doc.valuesOf "address".toList)[1]? =
      doc.lookup "destination".toList "address".toList)
    (hlegible : ∀ path ∈ c.keyFiles, Toml.isLegible path = true)
    (hadditional : ∀ path ∈ c.identity.additionalPrivateKeyFiles, doc.Lists path)
    (hlinks : ∀ path mode, m.files.symlinkMetadata path = .ok ⟨.symlink, mode⟩ →
      mode &&& 0o777 ≠ 0o600) :
    c.InOrder m.files := by
  refine haccepted.inOrder_of_meets hread hconfig ?_
  constructor
  case destination => exact .inl hsecond
  case listed => exact fun path _ hlists => haccepted.not_isLink hread hlists (hlinks path)
  case unlisted =>
    intro path hpath hnot
    refine absurd ?_ hnot
    obtain hmem | hlists := ServerConfig.lists_of_keyFiles hconfig hpath (hlegible path hpath)
    · exact hadditional path hmem
    · exact hlists

/-! ## What the script does not look at -/

/-- The machine without what is at a path. -/
def without (m : Machine) (path : Text) : Machine where
  files := {
    symlinkMetadata := fun p =>
      if p = path then .error "No such file or directory (os error 2)".toList
      else m.files.symlinkMetadata p
    readToString := m.files.readToString }
  uname := m.uname
  isFile p := if p = path then false else m.isFile p
  stat flag format p := if p = path then [] else m.stat flag format p
  expand := m.expand
  isFile_spec p h := by
    by_cases hp : p = path
    · simp [hp] at h
    · simpa only [hp, if_false] using m.isFile_spec p (by simpa only [hp, if_false] using h)
  stat_access p hflag := by
    by_cases hp : p = path
    · exact .inl (if_pos hp)
    · simpa only [hp, if_false] using m.stat_access p hflag
  stat_low p hflag := by
    by_cases hp : p = path
    · exact .inl (if_pos hp)
    · simpa only [hp, if_false] using m.stat_low p hflag
  expand_plain := m.expand_plain

theorem modeOf_without {p : Text} (h : p ≠ path) : (m.without path).modeOf p = m.modeOf p := by
  simp only [modeOf, without, if_neg h]

theorem checkMode0600_without {p : Text} (h : p ≠ path) :
    (m.without path).checkMode0600 p = m.checkMode0600 p := by
  rw [checkMode0600, shownMode, modeOf_without h]
  simp only [without, if_neg h]
  rfl

/-- The answer of the script depends on nothing but the configuration and the files that
    its lines lead to. -/
theorem validateInstall_without {role : InstallRole} {text : Text}
    (hread : m.files.readToString config = .ok text) (hconfig : config ≠ path)
    (hpath : path ∉ m.keyFiles text) :
    (m.without path).validateInstall role config = m.validateInstall role config := by
  have hkeys : (m.without path).keyErrors text = m.keyErrors text := by
    rw [keyErrors, keyErrors]
    congr 1
    refine List.flatMap_congr fun p hp => checkMode0600_without ?_
    rintro rfl
    exact hpath hp
  have hread' : (m.without path).files.readToString config = .ok text := hread
  have hfile : (m.without path).isFile config = m.isFile config := if_neg hconfig
  rw [validateInstall, validateInstall, hread, hread', hfile, shownMode, shownMode,
    modeOf_without hconfig]
  simp only [hkeys]

/-- A key file that no line leads to may as well be missing. -/
theorem Accepts.without (haccepted : m.Accepts .server config)
    (hread : m.files.readToString config = .ok doc.text) (hconfig : config ≠ path)
    (hkey : path ∈ c.keyFiles) (hpath : path ∉ m.keyFiles doc.text) :
    (m.without path).Accepts .server config ∧ ¬c.InOrder (m.without path).files := by
  refine ⟨(validateInstall_without hread hconfig hpath).trans haccepted, fun h => ?_⟩
  obtain ⟨mode, hmetadata, -⟩ := Files.enforcePrivatePermissions_eq_ok.1 (h.keys path hkey)
  simp only [Machine.without, if_true] at hmetadata
  cases hmetadata

end Machine

/-- Of a configuration that the script accepts, the server finds the destination and
    all private key files in order exactly if it looks at the same as the script: the
    second address in the file is that of the destination, unless that is a loopback
    address anyway; a key file on a line of `private_key_file` is no link; and one that
    is on no such line, or that the script does not take as it is, passes unseen. -/
theorem validation_vouches_iff {m : Machine} {config : Text} {doc : Toml.Document}
    {c : ServerConfig} (hread : m.files.readToString config = .ok doc.text)
    (hconfig : doc.serverConfig = some c) (haccepted : m.Accepts .server config) :
    c.InOrder m.files ↔ m.Meets doc c :=
  ⟨haccepted.meets hread, haccepted.inOrder_of_meets hread hconfig⟩

/-! ## Two installations -/

/-- Files, and nothing else, all with the same text, of which the modes are given. -/
def Files.ofModes (modes : Text → Option ℕ) (text : Text) : Files where
  symlinkMetadata path :=
    match modes path with
    | some mode => .ok ⟨.file, mode⟩
    | none => .error "No such file or directory (os error 2)".toList
  readToString _ := .ok text

theorem Files.symlinkMetadata_ofModes {modes : Text → Option ℕ} {text path : Text} {mode : ℕ}
    (h : modes path = some mode) :
    (Files.ofModes modes text).symlinkMetadata path = .ok ⟨.file, mode⟩ := by
  simp only [ofModes, h]

theorem Files.not_symlink_ofModes {modes : Text → Option ℕ} {text path : Text} {mode : ℕ} :
    (Files.ofModes modes text).symlinkMetadata path ≠ .ok ⟨.symlink, mode⟩ := by
  intro h
  simp only [ofModes] at h
  split at h
  · cases h
  · cases h

/-- A machine that has just these files. No word is a pattern of any of them. -/
def Machine.ofModes (modes : Text → Option ℕ) (text : Text) : Machine :=
  .linux (.ofModes modes text) (fun path => (modes path).isSome) (fun word => [word])
    (fun path h => by
      obtain ⟨mode, hmode⟩ := Option.isSome_iff_exists.1 h
      exact ⟨⟨.file, mode⟩, Files.symlinkMetadata_ofModes hmode, .inl rfl⟩)
    fun _ _ => rfl

namespace Toml

def keyName : BareKey := .ofText "name".toList (by decide +kernel)

def keyPublicKey : BareKey := .ofText "public_key".toList (by decide +kernel)

def keyAdditional : BareKey := .ofText "additional_private_key_files".toList (by decide +kernel)

def Line.string (key : BareKey) (text : Text) (h : text.all isPlain = true) : Line :=
  .entry key (.string (.ofText text h)) none

def listenSection : Table where
  name := .ofText "listen".toList (by decide +kernel)
  repeated := false
  lines := [.string keyAddress "127.0.0.1:8443".toList (by decide +kernel)]

def destinationSection (address : Text) (h : address.all isPlain = true) : Table where
  name := .ofText "destination".toList (by decide +kernel)
  repeated := false
  lines := [.string keyAddress address h]

def identitySection : Table where
  name := .ofText "identity".toList (by decide +kernel)
  repeated := false
  lines := [
    .string keyPrivateKeyFile "/keys/a".toList (by decide +kernel),
    .entry keyAdditional (.strings [.ofText "/keys/b".toList (by decide +kernel)]) none]

def clientSection : Table where
  name := .ofText "authorized_clients".toList (by decide +kernel)
  repeated := true
  lines := [
    .string keyName "mac".toList (by decide +kernel),
    .string keyPublicKey "AAAAAAAAAAAAAAAAAAAAAAAAAAAAAAAAAAAAAAAAAAA=".toList (by decide +kernel)]

/-- The sections in the order of the template. -/
def templateDocument : Document where
  preamble := []
  tables := [listenSection,
    destinationSection "127.0.0.1:9000".toList (by decide +kernel), identitySection, clientSection]

/-- The destination comes first, and is not a loopback address. -/
def misplacedDocument : Document where
  preamble := []
  tables := [destinationSection "10.0.0.5:9000".toList (by decide +kernel), listenSection,
    identitySection, clientSection]

example : misplacedDocument.lines = [
    "[destination]".toList,
    "address = \"10.0.0.5:9000\"".toList,
    "[listen]".toList,
    "address = \"127.0.0.1:8443\"".toList,
    "[identity]".toList,
    "private_key_file = \"/keys/a\"".toList,
    "additional_private_key_files = [\"/keys/b\"]".toList,
    "[[authorized_clients]]".toList,
    "name = \"mac\"".toList,
    "public_key = \"AAAAAAAAAAAAAAAAAAAAAAAAAAAAAAAAAAAAAAAAAAA=\"".toList] := by
  decide +kernel

/-- The configuration of either, with its destination. -/
def documentConfig (destination : SocketAddr) : ServerConfig where
  listen := ⟨.v4 127 0 0 1, 8443⟩
  destination
  identity := ⟨"/keys/a".toList, ["/keys/b".toList]⟩
  authorizedClients := [⟨"mac".toList, "AAAAAAAAAAAAAAAAAAAAAAAAAAAAAAAAAAAAAAAAAAA=".toList⟩]

end Toml

/-- The configuration and the first key have mode `0600`, the second key another one. -/
def installModes (mode : ℕ) (path : Text) : Option ℕ :=
  if path = "/server.toml".toList ∨ path = "/keys/a".toList then some 0o100600
  else if path = "/keys/b".toList then some mode
  else none

theorem validation_vouches_template :
    let m := Machine.ofModes (installModes 0o100600) Toml.templateDocument.text
    let c := Toml.documentConfig ⟨.v4 127 0 0 1, 9000⟩
    m.Accepts .server "/server.toml".toList ∧ c.InOrder m.files := by
  intro m c
  have haccepted : m.Accepts .server "/server.toml".toList := by decide +kernel
  have hconfig : Toml.templateDocument.serverConfig = some c := rfl
  refine ⟨haccepted, (validation_vouches_iff rfl hconfig haccepted).2 ?_⟩
  have hkeys : ∀ path ∈ c.keyFiles, m.files.enforcePrivatePermissions path = .ok () := by
    intro path hpath
    obtain rfl | hpath := List.mem_cons.1 hpath
    · decide +kernel
    · obtain rfl := List.mem_singleton.1 hpath
      decide +kernel
  constructor
  case destination => exact .inl (by decide +kernel)
  case listed =>
    rintro path - - ⟨mode, h⟩
    exact Files.not_symlink_ofModes h
  case unlisted => exact fun path hpath _ => hkeys path hpath

theorem validation_overlooks :
    let doc := Toml.misplacedDocument
    let m := Machine.ofModes (installModes 0o100644) doc.text
    let c := Toml.documentConfig ⟨.v4 10 0 0 5, 9000⟩
    m.files.readToString "/server.toml".toList = .ok doc.text ∧ doc.serverConfig = some c ∧
      m.Accepts .server "/server.toml".toList ∧
      c.validate = .error (.destination c.destination) ∧
      "/keys/b".toList ∈ c.keyFiles ∧
      m.files.enforcePrivatePermissions "/keys/b".toList ≠ .ok () := by
  refine ⟨rfl, rfl, by decide +kernel, by decide +kernel, by decide +kernel, by decide +kernel⟩

end SecureTunnel
