import SecureTunnel.Config.Server
import SecureTunnel.General.Base64
import SecureTunnel.Server.Session

/-!
# From a configuration to a session

Before it reads anything, every session of the server reads the private keys from
their files, and decodes the public keys of the authorised clients. What a
configuration must hold for that is more than what `validate` asks
(`accepted_config_served`): an accepted one can be served exactly if the public
keys are keys, and a single one that is not makes the server reject every client.
-/

namespace SecureTunnel

/-- The engine `STANDARD` of `base64`. The texts of its errors are its own. -/
structure Base64Engine where
  decode : Text → Except Text Bytes
  /-- It is strict: what it accepts is the encoding of what it gives. -/
  decode_eq_ok : ∀ {text bytes}, decode text = .ok bytes ↔ text = Base64.encode bytes

/-- One that tells nothing in its errors. -/
def Base64Engine.silent : Base64Engine where
  decode text :=
    match Base64.decode text with
    | some bytes => .ok bytes
    | none => .error []
  decode_eq_ok {text bytes} := by
    rw [← Base64.decode_eq_some]
    cases Base64.decode text with
    | none => exact ⟨nofun, nofun⟩
    | some bytes' => exact ⟨fun h => congrArg some (Except.ok.inj h), fun h => by cases h; rfl⟩

/-! ## Files -/

inductive FileType
  | file
  | directory
  | symlink
  | other
  deriving DecidableEq

structure Metadata where
  fileType : FileType
  mode : ℕ

/-- What the file system answers to the server. -/
structure Files where
  symlinkMetadata : Text → Except Text Metadata
  readToString : Text → Except Text Text

/-- What group and world may do. -/
def sharedBits (mode : ℕ) : ℕ := (mode &&& 0o777) &&& 0o077

/-- `enforce_sensitive_permissions` -/
def Files.enforceSensitivePermissions (files : Files) (path kind : Text) :
    Except (List Text) Unit :=
  match files.symlinkMetadata path with
  | .error display => .error [display]
  | .ok metadata =>
    if metadata.fileType ≠ .file then
      .error [kind ++ ' ' :: path ++ " must be a regular non-symlink file".toList]
    else if sharedBits metadata.mode ≠ 0 then
      .error [kind ++ ' ' :: path ++ " must not be group/world readable (mode ".toList ++
        Nat.toDigits 8 (metadata.mode &&& 0o777) ++ ")".toList]
    else .ok ()

/-- `enforce_private_permissions` -/
def Files.enforcePrivatePermissions (files : Files) (path : Text) : Except (List Text) Unit :=
  files.enforceSensitivePermissions path "private key".toList

/-- What passes is a file itself, of which group and world may do nothing. -/
theorem Files.enforcePrivatePermissions_eq_ok {files : Files} {path : Text} :
    files.enforcePrivatePermissions path = .ok () ↔
      ∃ mode, files.symlinkMetadata path = .ok ⟨.file, mode⟩ ∧ sharedBits mode = 0 := by
  rw [enforcePrivatePermissions, enforceSensitivePermissions]
  cases files.symlinkMetadata path with
  | error display =>
    refine ⟨nofun, ?_⟩
    rintro ⟨mode, h, -⟩
    exact nomatch h
  | ok metadata =>
    obtain ⟨fileType, mode⟩ := metadata
    simp only [ite_error_eq_ok, ne_eq, Decidable.not_not]
    constructor
    · rintro ⟨htype, hmode, -⟩
      exact ⟨mode, by rw [htype], hmode⟩
    · rintro ⟨mode', h, hmode⟩
      obtain ⟨rfl, rfl⟩ := Metadata.mk.inj (Except.ok.inj h)
      exact ⟨rfl, hmode, trivial⟩

/-! ## Keys -/

variable (engine : Base64Engine) (files : Files)

/-- `try_into` of decoded bytes. -/
def keyOfBytes (bytes : Bytes) (e : Text) : Except (List Text) StaticKey :=
  if h : bytes.length = 32 then .ok ⟨bytes, h⟩ else .error [e]

def decodePublicKey (value : Text) : Except (List Text) StaticKey :=
  match engine.decode (trim value) with
  | .error display => .error ["invalid base64 public key".toList, display]
  | .ok bytes => keyOfBytes bytes "Noise public key must be 32 bytes".toList

def readPrivateKey (path : Text) : Except (List Text) StaticKey :=
  match files.enforcePrivatePermissions path with
  | .error cause => .error cause
  | .ok () =>
    match files.readToString path with
    | .error display => .error [display]
    | .ok text =>
      match engine.decode (trim text) with
      | .error display => .error [display]
      | .ok bytes => keyOfBytes bytes "Noise private key must be 32 bytes".toList

/-- `read_server_private_keys`: the first file that fails is told. -/
def readServerPrivateKeys : List Text → Except (Text × List Text) (List StaticKey)
  | [] => .ok []
  | path :: paths =>
    match readPrivateKey engine files path with
    | .error cause => .error (path, cause)
    | .ok key => (readServerPrivateKeys paths).map (key :: ·)

/-- The public keys of the authorised clients, collected into one result. -/
def decodeClients : List Server.AuthorisedClient → Except (List Text) (List StaticKey)
  | [] => .ok []
  | client :: clients =>
    match decodePublicKey engine client.publicKey with
    | .error cause => .error cause
    | .ok key => (decodeClients clients).map (key :: ·)

/-- What the sessions of a configured server go by. -/
def ServerConfig.setup (c : ServerConfig) : Setup SocketAddr where
  outerTls := c.outerTls.enabled
  privateKeys := readServerPrivateKeys engine files c.identityPaths
  clients := decodeClients engine c.authorizedClients
  destination := c.destination

variable {engine files}

/-- The text is a key, in base64. -/
def IsKey (text : Text) (key : StaticKey) : Prop := trim text = Base64.encode key.1

instance (text : Text) (key : StaticKey) : Decidable (IsKey text key) :=
  inferInstanceAs (Decidable (_ = _))

/-- The file is there, protected, and holds a key. -/
structure Files.Holds (files : Files) (path : Text) : Prop where
  guarded : ∃ mode, files.symlinkMetadata path = .ok ⟨.file, mode⟩ ∧ sharedBits mode = 0
  key : ∃ text key, files.readToString path = .ok text ∧ IsKey text key

theorem keyOfBytes_eq_ok {bytes : Bytes} {e : Text} {key : StaticKey} :
    keyOfBytes bytes e = .ok key ↔ bytes = key.1 := by
  rw [keyOfBytes]
  split
  · rename_i h
    exact ⟨fun heq => congrArg Subtype.val (Except.ok.inj heq), fun heq => by subst heq; rfl⟩
  · rename_i h
    exact ⟨nofun, fun heq => absurd (heq ▸ key.2) h⟩

/-- A public key decodes exactly if it is a key. -/
theorem decodePublicKey_eq_ok {value : Text} {key : StaticKey} :
    decodePublicKey engine value = .ok key ↔ IsKey value key := by
  rw [decodePublicKey, IsKey, ← engine.decode_eq_ok]
  cases engine.decode (trim value) with
  | error display => exact ⟨nofun, nofun⟩
  | ok bytes =>
    rw [keyOfBytes_eq_ok, Except.ok.injEq]

variable (engine) in
theorem readPrivateKey_of_holds {path : Text} (h : files.Holds path) :
    ∃ key, readPrivateKey engine files path = .ok key := by
  obtain ⟨text, key, htext, hkey⟩ := h.key
  refine ⟨key, ?_⟩
  rw [readPrivateKey, Files.enforcePrivatePermissions_eq_ok.2 h.guarded]
  simp only [htext, engine.decode_eq_ok.2 hkey]
  exact keyOfBytes_eq_ok.2 rfl

variable (engine) in
/-- Files that hold keys are read, one key for each. -/
theorem readServerPrivateKeys_of_holds {paths : List Text} (h : ∀ path ∈ paths, files.Holds path) :
    ∃ keys, readServerPrivateKeys engine files paths = .ok keys ∧ keys.length = paths.length := by
  induction paths with
  | nil => exact ⟨[], rfl, rfl⟩
  | cons path paths ih =>
    obtain ⟨hpath, hpaths⟩ := List.forall_mem_cons.1 h
    obtain ⟨key, hkey⟩ := readPrivateKey_of_holds engine hpath
    obtain ⟨keys, hkeys, hlength⟩ := ih hpaths
    refine ⟨key :: keys, ?_, congrArg (· + 1) hlength⟩
    rw [readServerPrivateKeys, hkey, hkeys]
    rfl

variable (engine) in
/-- The clients are collected exactly if every one has a key. -/
theorem exists_decodeClients {clients : List Server.AuthorisedClient} :
    (∃ keys, decodeClients engine clients = .ok keys) ↔
      ∀ client ∈ clients, ∃ key, IsKey client.publicKey key := by
  induction clients with
  | nil => exact ⟨nofun, fun _ => ⟨[], rfl⟩⟩
  | cons client clients ih =>
    rw [List.forall_mem_cons, ← ih, decodeClients]
    cases hkey : decodePublicKey engine client.publicKey with
    | error cause =>
      refine ⟨nofun, ?_⟩
      rintro ⟨⟨key, h⟩, -⟩
      rw [decodePublicKey_eq_ok.2 h] at hkey
      cases hkey
    | ok key =>
      constructor
      · rintro ⟨keys, hkeys⟩
        refine ⟨⟨key, decodePublicKey_eq_ok.1 hkey⟩, ?_⟩
        cases hrest : decodeClients engine clients with
        | error cause =>
          rw [hrest] at hkeys
          cases hkeys
        | ok keys => exact ⟨keys, rfl⟩
      · rintro ⟨-, keys, hkeys⟩
        rw [hkeys]
        exact ⟨_, rfl⟩

namespace ServerConfig

variable {c : ServerConfig}

/-- The setup of a session cannot fail. -/
structure Served (engine : Base64Engine) (files : Files) (c : ServerConfig) : Prop where
  decodes : ∀ client ∈ c.authorizedClients, ∃ key, decodePublicKey engine client.publicKey = .ok key
  constructs : ∃ privateKeys clients handshake,
    (c.setup engine files).privateKeys = .ok privateKeys ∧
    (c.setup engine files).clients = .ok clients ∧
    ServerHandshake.newWithStaticIdentities privateKeys clients = .ok handshake

/-- One private key for each path is neither none nor too many. -/
theorem Valid.exists_handshake (h : c.Valid) {privateKeys : List StaticKey}
    (hlength : privateKeys.length = c.identityPaths.length) (clients : List StaticKey) :
    ∃ handshake, ServerHandshake.newWithStaticIdentities privateKeys clients = .ok handshake := by
  have hempty : privateKeys ≠ [] := by
    rintro rfl
    cases hlength
  have hmany : ¬maxServerStaticIdentities < privateKeys.length :=
    Nat.not_lt.2 (hlength ▸ h.identities)
  rw [ServerHandshake.newWithStaticIdentities, dif_neg hempty, dif_neg hmany]
  exact ⟨_, rfl⟩

/-- Where the private key files hold keys, it is the public keys that decide. -/
theorem Valid.served_iff (h : c.Valid) (hheld : ∀ path ∈ c.identityPaths, files.Holds path) :
    c.Served engine files ↔ ∀ client ∈ c.authorizedClients, ∃ key, IsKey client.publicKey key := by
  constructor
  · intro hserved client hclient
    obtain ⟨key, hkey⟩ := hserved.decodes client hclient
    exact ⟨key, decodePublicKey_eq_ok.1 hkey⟩
  · intro hkeys
    obtain ⟨privateKeys, hprivateKeys, hlength⟩ :=
      readServerPrivateKeys_of_holds engine hheld
    obtain ⟨clients, hclients⟩ := (exists_decodeClients engine).2 hkeys
    obtain ⟨handshake, hhandshake⟩ := h.exists_handshake hlength clients
    refine ⟨fun client hclient => ?_, privateKeys, clients, handshake, hprivateKeys, hclients,
      hhandshake⟩
    obtain ⟨key, hkey⟩ := hkeys client hclient
    exact ⟨key, decodePublicKey_eq_ok.2 hkey⟩

/-- A session that is served gets to the preface of its client, and past it if that is
    the preface of version 1.0. -/
theorem Served.runNoise {HS Key : Type*} (h : c.Served engine files)
    (x : ServerSession SocketAddr HS Key) :
    x.runNoise (c.setup engine files) = x.goto (.preface []) ∧
      ∃ handshake,
        x.afterPreface (c.setup engine files) prefaceBytes = x.goto (.first handshake []) := by
  obtain ⟨privateKeys, clients, handshake, hprivateKeys, hclients, hhandshake⟩ := h.constructs
  constructor
  · rw [ServerSession.runNoise]
    simp only [hprivateKeys, hclients]
  · have hfresh : handshake.prefaceAccepted = false := by
      rw [ServerHandshake.newWithStaticIdentities] at hhandshake
      split at hhandshake
      · cases hhandshake
      split at hhandshake
      · cases hhandshake
      · cases hhandshake
        rfl
    refine ⟨{ handshake with prefaceAccepted := true }, ?_⟩
    simp only [ServerSession.afterPreface, hprivateKeys, hclients, hhandshake,
      ServerHandshake.acceptPreface, hfresh]
    rfl

/-- Without keys for all, a session says nothing to anyone. -/
theorem effects_of_not_keys {HS Key : Type*} {snow : Snow HS Key}
    (h : ¬∀ client ∈ c.authorizedClients, ∃ key, IsKey client.publicKey key)
    {x : ServerSession SocketAddr HS Key}
    (hreach : (serverSession snow (c.setup engine files)).Reachable EventSystem.always x) :
    x.effects = [] := by
  refine (ServerSession.inv_of_reachable hreach).spoken.resolve_right ?_
  rintro ⟨⟨_, _, _, clients, _, _, _, hclients, _⟩, -⟩
  exact h ((exists_decodeClients engine).1 ⟨clients, hclients⟩)

end ServerConfig

/-- A configuration that `validate` accepts, and whose private key files hold keys,
    gives the semaphore a number from 1 to 1024, and the setup of its sessions
    cannot fail exactly if the public key of every authorised client is the base64
    of 32 bytes, up to blanks around it. If one is not, no client is answered. -/
theorem accepted_config_served {engine : Base64Engine} {files : Files} {c : ServerConfig}
    (haccepted : c.validate = .ok ()) (hheld : ∀ path ∈ c.identityPaths, files.Holds path) :
    (1 ≤ c.limits.maxConnections ∧ c.limits.maxConnections ≤ 1024) ∧
    (c.Served engine files ↔
      ∀ client ∈ c.authorizedClients, ∃ key, IsKey client.publicKey key) ∧
    ((¬∀ client ∈ c.authorizedClients, ∃ key, IsKey client.publicKey key) →
      ∀ (HS Key : Type) (snow : Snow HS Key) (x : ServerSession SocketAddr HS Key),
        (serverSession snow (c.setup engine files)).Reachable EventSystem.always x →
        x.effects = []) := by
  have hvalid := ServerConfig.validate_eq_ok.1 haccepted
  exact ⟨hvalid.connections, hvalid.served_iff hheld,
    fun hnot _ _ _ _ hreach => ServerConfig.effects_of_not_keys hnot hreach⟩

/-- A configuration with these public keys. -/
def ServerConfig.allowing (publicKeys : List Text) : ServerConfig where
  listen := ⟨.v4 127 0 0 1, 8443⟩
  destination := ⟨.v4 127 0 0 1, 8787⟩
  identity := ⟨"/tmp/server.key".toList, []⟩
  authorizedClients := publicKeys.map (⟨"mac".toList, ·⟩)

/-- A file system whose files all hold the same key. -/
def Files.uniform (key : StaticKey) : Files where
  symlinkMetadata _ := .ok ⟨.file, 0o600⟩
  readToString _ := .ok (Base64.encode key.1)

def zeroKey : StaticKey := ⟨List.replicate 32 0, List.length_replicate⟩

theorem Files.uniform_holds (path : Text) : (Files.uniform zeroKey).Holds path :=
  ⟨⟨0o600, rfl, by decide⟩, _, zeroKey, rfl, by decide +kernel⟩

theorem accepted_config_served_one :
    let c := ServerConfig.allowing ["AAAAAAAAAAAAAAAAAAAAAAAAAAAAAAAAAAAAAAAAAAA=".toList]
    c.Served .silent (.uniform zeroKey) := by
  intro c
  have hkeys : ∀ client ∈ c.authorizedClients, ∃ key, IsKey client.publicKey key := by
    intro client hclient
    obtain rfl := List.mem_singleton.1 hclient
    exact ⟨zeroKey, by decide +kernel⟩
  exact (accepted_config_served (by decide +kernel) fun path _ => Files.uniform_holds path).2.1.2
    hkeys

/-- An accepted configuration, with a second client whose public key is not a key. -/
theorem accepted_config_not_served :
    let c := ServerConfig.allowing
      ["AAAAAAAAAAAAAAAAAAAAAAAAAAAAAAAAAAAAAAAAAAA=".toList, "not a key".toList]
    c.validate = .ok () ∧ (∀ path ∈ c.identityPaths, (Files.uniform zeroKey).Holds path) ∧
      (∃ client ∈ c.authorizedClients, IsKey client.publicKey zeroKey) ∧
      ∀ engine, ¬c.Served engine (.uniform zeroKey) ∧
        ∀ (HS Key : Type) (snow : Snow HS Key) (x : ServerSession SocketAddr HS Key),
          (serverSession snow (c.setup engine (.uniform zeroKey))).Reachable EventSystem.always x →
          x.effects = [] := by
  intro c
  have hbad : ¬∀ client ∈ c.authorizedClients, ∃ key, IsKey client.publicKey key := by
    intro hall
    obtain ⟨key, hkey⟩ := hall ⟨"mac".toList, "not a key".toList⟩
      (by simp [c, ServerConfig.allowing])
    have hnone : Base64.decode (trim "not a key".toList) = none := by decide +kernel
    rw [hkey, Base64.decode_encode] at hnone
    cases hnone
  have haccepted : c.validate = .ok () := by decide +kernel
  have hvalid := ServerConfig.validate_eq_ok.1 haccepted
  refine ⟨haccepted, fun path _ => Files.uniform_holds path,
    ⟨_, List.mem_cons_self, by decide +kernel⟩, fun engine => ⟨?_, ?_⟩⟩
  · rw [hvalid.served_iff fun path _ => Files.uniform_holds path]
    exact hbad
  · exact fun _ _ _ _ hreach => ServerConfig.effects_of_not_keys hbad hreach

end SecureTunnel
