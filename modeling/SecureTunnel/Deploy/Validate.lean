import SecureTunnel.Config.Address
import SecureTunnel.Config.Keys
import SecureTunnel.General.Lines

/-!
# The validation of an installation

`deploy/validate-install.sh`, as the shell, `awk` and `grep` carry it out. It knows
nothing of sections: the values of a key are those of all lines that begin with the
key, in their order, and of two addresses the first is taken for that of the listener.
Its errors, here without their `error: `, are collected, but for those about the
configuration file itself.

What of the installation decides are the answers of the system (`Machine`): of
`uname`, `test`, `stat` and the expansion of unquoted words.
-/

namespace SecureTunnel

/-! ## The machine -/

/-- A character by which an unquoted word is a pattern, where no backslash is in it. -/
def isGlob (c : Char) : Bool := c = '*' ∨ c = '?' ∨ c = '['

/-- What `stat` prints of a mode, of which a format shows some bits. -/
def octal (mask : ℕ) (metadata : Metadata) : Text := Nat.toDigits 8 (metadata.mode &&& mask)

/-- A machine, as the script and the server meet it: they run in the same directory. -/
structure Machine where
  /-- What the server is answered. -/
  files : Files
  /-- `uname -s` -/
  uname : Text
  /-- `[ -f path ]` -/
  isFile : Text → Bool
  /-- What `stat` prints, given a flag, a format and a path. -/
  stat : Text → Text → Text → Text
  /-- The words that an unquoted word is expanded to. -/
  expand : Text → List Text
  /-- A file that is found is there, or a link to it is. -/
  isFile_spec : ∀ path, isFile path = true →
    ∃ metadata, files.symlinkMetadata path = .ok metadata ∧
      (metadata.fileType = .file ∨ metadata.fileType = .symlink)
  /-- The access rights of what is at the path, of a link its own, unless the path is
      taken for a flag. -/
  stat_access : ∀ path, path.head? ≠ some '-' → stat "-c".toList "%a".toList path = [] ∨
    ∃ metadata, files.symlinkMetadata path = .ok metadata ∧
      stat "-c".toList "%a".toList path = octal 0o7777 metadata
  /-- On Darwin, without the bits above those of the user. -/
  stat_low : ∀ path, path.head? ≠ some '-' → stat "-f".toList "%Lp".toList path = [] ∨
    ∃ metadata, files.symlinkMetadata path = .ok metadata ∧
      stat "-f".toList "%Lp".toList path = octal 0o777 metadata
  /-- A word that is no pattern stays as it is. -/
  expand_plain : ∀ word, (∀ c ∈ word, isGlob c = false) → expand word = [word]

/-- What `stat` prints of a path, given what the system answers. -/
def Files.stat (files : Files) (mask : ℕ) (path : Text) : Text :=
  match files.symlinkMetadata path with
  | .ok metadata => octal mask metadata
  | .error _ => []

theorem Files.stat_cases (files : Files) (mask : ℕ) (path : Text) :
    files.stat mask path = [] ∨
      ∃ metadata, files.symlinkMetadata path = .ok metadata ∧
        files.stat mask path = octal mask metadata := by
  rw [stat]
  cases files.symlinkMetadata path with
  | error display => exact .inl rfl
  | ok metadata => exact .inr ⟨metadata, rfl, rfl⟩

/-- A machine with the `stat` of Linux, which knows one of the formats. -/
def Machine.linux (files : Files) (isFile : Text → Bool) (expand : Text → List Text)
    (hisFile : ∀ path, isFile path = true →
      ∃ metadata, files.symlinkMetadata path = .ok metadata ∧
        (metadata.fileType = .file ∨ metadata.fileType = .symlink))
    (hexpand : ∀ word, (∀ c ∈ word, isGlob c = false) → expand word = [word]) : Machine where
  files
  uname := "Linux".toList
  isFile
  stat flag _ path :=
    if flag = "-f".toList ∨ path.head? = some '-' then [] else files.stat 0o7777 path
  expand
  isFile_spec := hisFile
  stat_access path hflag := by
    have hformat : ¬("-c".toList = "-f".toList ∨ path.head? = some '-') :=
      not_or.2 ⟨by decide, hflag⟩
    rw [if_neg hformat]
    exact files.stat_cases 0o7777 path
  stat_low path _ := .inl (if_pos (.inl rfl))
  expand_plain := hexpand

/-! ## The text of the configuration -/

/-- `[[:space:]]` -/
def isSpace (c : Char) : Bool := c = ' ' ∨ (9 ≤ c.toNat ∧ c.toNat ≤ 13)

/-- Behind a quote, there is nothing but blanks, or a comment. -/
def closes (rest : Text) : Bool := (rest.dropWhile isSpace).head?.all (· = '#')

/-- A text up to its closing quote. -/
def upToQuote : Text → Text
  | [] => []
  | c :: rest => if c = '"' ∧ closes rest then [] else c :: upToQuote rest

/-- The substitution of `gsub`, for a value that has no blank at its beginning. Of the
    patterns that match there, the longest is replaced. -/
def unquote : Text → Text
  | [] => []
  | c :: rest =>
    if c = '"' then if closes rest then [] else upToQuote rest
    else c :: upToQuote rest

/-- `value_for` -/
def valueFor (key text : Text) : List Text :=
  (records '\n' text).filterMap fun line => (assigned isSpace '=' key line).map unquote

/-- `<[^>]+>` -/
def bracketed : Text → Bool
  | [] => false
  | c :: rest => (c = '<' ∧ rest.head?.any (· ≠ '>') ∧ '>' ∈ rest) ∨ bracketed rest

/-- What a template has in place of a value. -/
def isPlaceholder (line : Text) : Bool :=
  "REPLACE_WITH".toList <:+: line ∨ bracketed line ∨ "CHANGE_ME".toList <:+: line ∨
    "example.invalid".toList <:+: line

/-! ## The script -/

/-- What is validated: `--client` or `--server`. -/
inductive InstallRole
  | client
  | server
  deriving DecidableEq

namespace Machine

variable (m : Machine)

/-- The mode of a path. -/
def modeOf (path : Text) : Text :=
  if m.uname = "Darwin".toList then m.stat "-f".toList "%Lp".toList path
  else m.stat "-c".toList "%a".toList path

theorem modeOf_linux {files : Files} {isFile : Text → Bool} {expand : Text → List Text}
    {hisFile : ∀ path, isFile path = true →
      ∃ metadata, files.symlinkMetadata path = .ok metadata ∧
        (metadata.fileType = .file ∨ metadata.fileType = .symlink)}
    {hexpand : ∀ word, (∀ c ∈ word, isGlob c = false) → expand word = [word]} {path : Text}
    (hflag : path.head? ≠ some '-') :
    (linux files isFile expand hisFile hexpand).modeOf path = files.stat 0o7777 path := by
  have hdarwin : "Linux".toList ≠ "Darwin".toList := by decide
  have hformat : ¬("-c".toList = "-f".toList ∨ path.head? = some '-') :=
    not_or.2 ⟨by decide, hflag⟩
  exact (if_neg hdarwin).trans (if_neg hformat)

/-- `${mode:-unknown}` -/
def shownMode (path : Text) : Text :=
  if m.modeOf path = [] then "unknown".toList else m.modeOf path

/-- `check_mode_0600` -/
def checkMode0600 (path : Text) : List Text :=
  if path = [] then []
  else if m.isFile path = false then ["private key not found: ".toList ++ path]
  else if m.modeOf path = "600".toList then []
  else ["private key must have mode 0600: ".toList ++ path ++ " (found ".toList ++
    m.shownMode path ++ ")".toList]

/-- The paths that are checked: the shell splits the values at their lines, and expands
    each of them. -/
def keyFiles (text : Text) : List Text :=
  ((valueFor "private_key_file".toList text).filter (· ≠ [])).flatMap m.expand

def keyErrors (text : Text) : List Text :=
  (if (valueFor "private_key_file".toList text).all (· = []) then
    ["no private_key_file is configured".toList] else []) ++
    (m.keyFiles text).flatMap m.checkMode0600

end Machine

def placeholderErrors (text : Text) : List Text :=
  if (records '\n' text).any isPlaceholder then
    ["configuration still contains a deployment placeholder".toList] else []

/-- The checks of the role. Of a key, `sed` takes one value. -/
def roleErrors (text : Text) : InstallRole → List Text
  | .client =>
    let listen := ((valueFor "address".toList text)[0]?).getD []
    let remote := ((valueFor "address".toList text)[1]?).getD []
    let pinned := valueFor "server_public_key".toList text
    (if SocketAddr.beginsLoopback listen then []
      else ["client listener must use a loopback address".toList]) ++
    (if remote = [] then ["client remote address is missing".toList] else []) ++
    (if pinned.all (· = []) then ["client pinned server_public_key is missing".toList] else [])
  | .server =>
    let listen := ((valueFor "address".toList text)[0]?).getD []
    let destination := ((valueFor "address".toList text)[1]?).getD []
    let clients := valueFor "public_key".toList text
    (if listen = [] then ["server listen address is missing".toList] else []) ++
    (if SocketAddr.beginsLoopback destination then []
      else ["server destination must be loopback-only".toList]) ++
    (if clients.all (· = []) then
      ["server requires at least one authorized client public key".toList] else [])

namespace Machine

variable (m : Machine)

/-- The errors of the script, or the one with which it stops at once. -/
def validateInstall (role : InstallRole) (config : Text) : Except Text (List Text) :=
  if m.isFile config = false then .error ("configuration not found: ".toList ++ config)
  else if m.modeOf config ≠ "600".toList then
    .error ("configuration must have mode 0600: ".toList ++ config ++ " (found ".toList ++
      m.shownMode config ++ ")".toList)
  else
    -- Of a file that cannot be read, `grep` and `awk` print nothing.
    let text :=
      match m.files.readToString config with
      | .ok text => text
      | .error _ => []
    .ok (placeholderErrors text ++ m.keyErrors text ++ roleErrors text role)

/-- The script ends with `ok`. -/
def Accepts (role : InstallRole) (config : Text) : Prop := m.validateInstall role config = .ok []

instance (role : InstallRole) (config : Text) : Decidable (m.Accepts role config) :=
  inferInstanceAs (Decidable (_ = _))

variable {m}

/-! ## What is accepted -/

theorem Accepts.errors {role : InstallRole} {config text : Text} (haccepted : m.Accepts role config)
    (hread : m.files.readToString config = .ok text) :
    placeholderErrors text = [] ∧ m.keyErrors text = [] ∧ roleErrors text role = [] := by
  rw [Accepts, validateInstall, hread] at haccepted
  split at haccepted
  · cases haccepted
  split at haccepted
  · cases haccepted
  have herrors := Except.ok.inj haccepted
  rw [List.append_eq_nil_iff, List.append_eq_nil_iff] at herrors
  exact ⟨herrors.1.1, herrors.1.2, herrors.2⟩

/-- Of an accepted server, the second address begins as a loopback address does. -/
theorem Accepts.destination {config text : Text} (haccepted : m.Accepts .server config)
    (hread : m.files.readToString config = .ok text) :
    ∃ destination, (valueFor "address".toList text)[1]? = some destination ∧
      SocketAddr.beginsLoopback destination = true := by
  have hrole := (haccepted.errors hread).2.2
  rw [roleErrors, List.append_eq_nil_iff, List.append_eq_nil_iff] at hrole
  have hbegins := hrole.1.2
  cases hsecond : (valueFor "address".toList text)[1]? with
  | none =>
    rw [hsecond] at hbegins
    cases hbegins
  | some destination =>
    refine ⟨destination, rfl, ?_⟩
    rw [hsecond, Option.getD_some] at hbegins
    by_contra hnot
    rw [if_neg hnot] at hbegins
    cases hbegins

/-- What is printed as `600` is the mode `0600`. -/
theorem mode_of_modeOf {path : Text} (hflag : path.head? ≠ some '-')
    (hmode : m.modeOf path = "600".toList) :
    ∃ metadata, m.files.symlinkMetadata path = .ok metadata ∧
      metadata.mode &&& 0o777 = 0o600 := by
  have hdigits : ∀ {mask : ℕ} {metadata : Metadata}, octal mask metadata = "600".toList →
      metadata.mode &&& mask = 0o600 := by
    intro mask metadata heq
    rw [← Nat.ofDigitChars_toDigits (n := metadata.mode &&& mask) (by decide : 1 < 8) (by decide),
      ← octal, heq]
    decide
  rw [modeOf] at hmode
  split at hmode
  · obtain hnil | ⟨metadata, hmetadata, heq⟩ := m.stat_low path hflag
    · exact absurd (hnil.symm.trans hmode) (by decide)
    · exact ⟨metadata, hmetadata, hdigits (heq.symm.trans hmode)⟩
  · obtain hnil | ⟨metadata, hmetadata, heq⟩ := m.stat_access path hflag
    · exact absurd (hnil.symm.trans hmode) (by decide)
    · refine ⟨metadata, hmetadata, ?_⟩
      -- The rights of the user, group and world are among those that are printed.
      have hmask : metadata.mode &&& 0o777 = (metadata.mode &&& 0o7777) &&& 0o777 :=
        (Nat.and_assoc metadata.mode 0o7777 0o777).symm
      rw [hmask, hdigits (heq.symm.trans hmode)]
      decide

/-- A path that is checked, and is no flag, leads to a file or a link with mode `0600`. -/
theorem checkMode0600_eq_nil {path : Text} (hne : path ≠ []) (hflag : path.head? ≠ some '-')
    (hcheck : m.checkMode0600 path = []) :
    ∃ metadata, m.files.symlinkMetadata path = .ok metadata ∧
      (metadata.fileType = .file ∨ metadata.fileType = .symlink) ∧
      metadata.mode &&& 0o777 = 0o600 := by
  rw [checkMode0600, if_neg hne] at hcheck
  split at hcheck
  · cases hcheck
  rename_i hfile
  split at hcheck
  · rename_i hmode
    obtain ⟨metadata, hmetadata, hbits⟩ := mode_of_modeOf hflag hmode
    obtain ⟨metadata', hmetadata', htype⟩ := m.isFile_spec path (by simpa using hfile)
    obtain rfl := Except.ok.inj (hmetadata.symm.trans hmetadata')
    exact ⟨metadata, hmetadata, htype, hbits⟩
  · cases hcheck

/-- The values of the key that are no patterns are checked. -/
theorem Accepts.key {role : InstallRole} {config text path : Text}
    (haccepted : m.Accepts role config) (hread : m.files.readToString config = .ok text)
    (hvalue : path ∈ valueFor "private_key_file".toList text) (hne : path ≠ [])
    (hplain : ∀ c ∈ path, isGlob c = false) : m.checkMode0600 path = [] := by
  have hkeys := (haccepted.errors hread).2.1
  rw [keyErrors, List.append_eq_nil_iff] at hkeys
  refine List.flatMap_eq_nil_iff.1 hkeys.2 path ?_
  refine List.mem_flatMap.2 ⟨path, List.mem_filter.2 ⟨hvalue, decide_eq_true hne⟩, ?_⟩
  rw [m.expand_plain path hplain]
  exact List.mem_singleton_self path

end Machine

end SecureTunnel
