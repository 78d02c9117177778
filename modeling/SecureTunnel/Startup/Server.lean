import SecureTunnel.Startup.Premises

/-!
# Starting the server

`serve` checks before it listens that the private key files are protected, but it
does not read them; every session reads them again, and decodes the public keys of
the clients. `doctor` does all of this once, and connects to the destination.

* `ServerPremises.start`, `ServerPremises.doctor`: the two commands.
* `server_doctor_decides`: `doctor` approves exactly the configurations with which
  `serve` listens, whose destination answers, and of which no session ever fails for
  its setup; where it disapproves of one that `serve` listens with, no session ever
  does anything for anyone.
-/

namespace SecureTunnel

/-! ## The commands -/

/-- What the commands of the server find outside of them. -/
structure ServerPremises (File Cert TlsKey Acceptor : Type) extends
    Premises ServerConfig File Cert where
  /-- `rustls_pemfile::private_key` -/
  tlsKey : File → Except Text (Option TlsKey)
  /-- `with_single_cert` -/
  singleCert : List Cert → TlsKey → Except Text Acceptor
  connect : SocketAddr → Except Text Unit

namespace ServerPremises

variable {File Cert TlsKey Acceptor : Type} (here : ServerPremises File Cert TlsKey Acceptor)

/-- `ServerConfig::load` -/
def loadConfig (path : Text) : Except (List Text) ServerConfig :=
  here.load "server".toList (fun c => c.validate.mapError (·.display here.shown)) path

/-- A file that the outer TLS needs. -/
def required (field : Text) : Option Text → Except (List Text) Text
  | none => .error [field ++ " is required when outer TLS is enabled".toList]
  | some path => .ok path

/-- `tls_acceptor` -/
def tlsAcceptor (c : Server.OuterTlsConfig) : Except (List Text) Acceptor := do
  let certificatePath ← required "outer_tls.certificate_file".toList c.certificateFile
  let privateKeyPath ← required "outer_tls.private_key_file".toList c.privateKeyFile
  here.files.enforcePrivatePermissions privateKeyPath
  let file ← withContext ("could not open TLS certificate ".toList ++ certificatePath)
    (here.openFile certificatePath)
  let certificates ← withContext ("could not parse TLS certificate ".toList ++ certificatePath)
    (here.certs file)
  if certificates.isEmpty then
    throw ["TLS certificate ".toList ++ certificatePath ++ " contains no certificates".toList]
  let file ← withContext ("could not open TLS private key ".toList ++ privateKeyPath)
    (here.openFile privateKeyPath)
  let privateKey? ← withContext ("could not parse TLS private key ".toList ++ privateKeyPath)
    (here.tlsKey file)
  match privateKey? with
  | none =>
    throw ["TLS private key ".toList ++ privateKeyPath ++ " contains no private key".toList]
  | some privateKey =>
    told here.tls13
    withContext "TLS certificate and private key do not match".toList
      (here.singleCert certificates privateKey)

/-- The acceptor of a server, if the outer TLS is enabled. -/
def acceptor (c : Server.OuterTlsConfig) : Except (List Text) (Option Acceptor) :=
  if c.enabled then (here.tlsAcceptor c).map some else .ok none

/-- `serve`, until it listens. -/
def start (path : Text) : Except (List Text) (ServerConfig × Option Acceptor) := do
  here.files.enforceConfigPermissions path
  let config ← here.loadConfig path
  forM config.identityPaths here.files.enforcePrivatePermissions
  let tls ← here.acceptor config.outerTls
  told (here.bind config.listen)
  return (config, tls)

/-- What `doctor` prints in the end. -/
def approval : List Text :=
  ["[ok] configuration valid".toList,
    "[ok] server private key readable with protected permissions".toList,
    "[ok] authorised client keys configured".toList,
    "[ok] listen socket and compatibility destination available".toList]

/-- The check of a client's public key. -/
def checkClient (client : Server.AuthorisedClient) : Except (List Text) Unit :=
  match decodePublicKey here.engine client.publicKey with
  | .error cause => .error (("invalid key for ".toList ++ client.name) :: cause)
  | .ok _ => .ok ()

def doctor (path : Text) : Except (List Text) (List Text) := do
  here.files.enforceConfigPermissions path
  let config ← here.loadConfig path
  let _ ← (readServerPrivateKeys here.engine here.files config.identityPaths).mapError
    fun (file, cause) => ("could not read server private key ".toList ++ file) :: cause
  let _ ← here.acceptor config.outerTls
  forM config.authorizedClients here.checkClient
  told (here.bind config.listen)
  withContext "compatibility destination unavailable".toList (here.connect config.destination)
  return approval

/-! ## What they check -/

variable {here} {path : Text} {c : ServerConfig} {tls : Option Acceptor}

/-- The configuration file is protected, and this is what it says. -/
structure Configured (here : ServerPremises File Cert TlsKey Acceptor) (path : Text)
    (c : ServerConfig) : Prop where
  guarded : here.files.enforceConfigPermissions path = .ok ()
  loaded : here.loadConfig path = .ok c

theorem Configured.valid (h : here.Configured path c) : c.Valid := by
  obtain ⟨text, -, -, hvalid⟩ := Premises.load_eq_ok.1 h.loaded
  exact ServerConfig.validate_eq_ok.1 (mapError_eq_ok.1 hvalid)

theorem start_eq_ok : here.start path = .ok (c, tls) ↔
    here.Configured path c ∧
    (∀ file ∈ c.identityPaths, here.files.enforcePrivatePermissions file = .ok ()) ∧
    here.acceptor c.outerTls = .ok tls ∧ here.bind c.listen = .ok () := by
  simp only [start, bind_eq_ok, forM_eq_ok, told_eq_ok]
  constructor
  · rintro ⟨⟨⟩, hguarded, c', hloaded, ⟨⟩, hfiles, tls', htls, ⟨⟩, hbind, h⟩
    cases h
    exact ⟨⟨hguarded, hloaded⟩, hfiles, htls, hbind⟩
  · rintro ⟨⟨hguarded, hloaded⟩, hfiles, htls, hbind⟩
    exact ⟨(), hguarded, c, hloaded, (), hfiles, tls, htls, (), hbind, rfl⟩

theorem checkClient_eq_ok {client : Server.AuthorisedClient} :
    here.checkClient client = .ok () ↔ ∃ key, IsKey client.publicKey key := by
  rw [checkClient]
  cases h : decodePublicKey here.engine client.publicKey with
  | error cause =>
    constructor
    · intro hfailed
      cases hfailed
    · rintro ⟨key, hkey⟩
      rw [decodePublicKey_eq_ok.2 hkey] at h
      cases h
  | ok key => exact ⟨fun _ => ⟨key, decodePublicKey_eq_ok.1 h⟩, fun _ => rfl⟩

end ServerPremises

/-! ## What a setup is for a session -/

section Keys

variable {engine : Base64Engine} {files : Files}

/-- The private keys are read exactly if every file holds one. -/
theorem exists_readServerPrivateKeys {paths : List Text} :
    (∃ keys, readServerPrivateKeys engine files paths = .ok keys) ↔
      ∀ file ∈ paths, files.Holds file := by
  constructor
  · induction paths with
    | nil => exact fun _ file hfile => absurd hfile List.not_mem_nil
    | cons path paths ih =>
      rintro ⟨keys, hkeys⟩
      rw [readServerPrivateKeys] at hkeys
      split at hkeys
      · cases hkeys
      rename_i key hkey
      refine List.forall_mem_cons.2 ⟨holds_of_readPrivateKey hkey, ih ?_⟩
      cases hrest : readServerPrivateKeys engine files paths with
      | error e =>
        rw [hrest] at hkeys
        cases hkeys
      | ok rest => exact ⟨rest, rfl⟩
  · intro h
    obtain ⟨keys, hkeys, -⟩ := readServerPrivateKeys_of_holds engine h
    exact ⟨keys, hkeys⟩

namespace ServerConfig

variable {c : ServerConfig}

/-- The setup of the sessions is that every file and every public key is a key. -/
theorem Valid.served_iff_keys (h : c.Valid) : c.Served engine files ↔
    (∀ file ∈ c.identityPaths, files.Holds file) ∧
      ∀ client ∈ c.authorizedClients, ∃ key, IsKey client.publicKey key := by
  constructor
  · intro hserved
    obtain ⟨privateKeys, clients, handshake, hprivateKeys, -⟩ := hserved.constructs
    have hheld := exists_readServerPrivateKeys.1 ⟨privateKeys, hprivateKeys⟩
    exact ⟨hheld, (h.served_iff hheld).1 hserved⟩
  · rintro ⟨hheld, hkeys⟩
    exact (h.served_iff hheld).2 hkeys

end ServerConfig

end Keys

/-- The errors of a session that come of its setup alone. -/
def SessionError.ofSetup : SessionError → Bool
  | privateKey .. | publicKey _ | construct _ => true
  | _ => false

namespace ServerSession

variable {Addr HS Key : Type*} {snow : Snow HS Key} {setup : Setup Addr}
  {x x' : ServerSession Addr HS Key} {e : SessionEvent} {err : SessionError}

/-- The setup of a session does not fail. -/
def Prepared (setup : Setup Addr) : Prop :=
  ∃ privateKeys clients handshake, setup.privateKeys = .ok privateKeys ∧
    setup.clients = .ok clients ∧
    ServerHandshake.newWithStaticIdentities privateKeys clients = .ok handshake

theorem ofSetup_runNoise (h : Prepared setup)
    (herr : (x.runNoise setup).phase = .ended (.error err)) : err.ofSetup = false := by
  obtain ⟨privateKeys, clients, handshake, hprivateKeys, hclients, -⟩ := h
  simp only [runNoise, hprivateKeys, hclients] at herr
  cases herr

theorem ofSetup_afterPreface (h : Prepared setup) {preface : Bytes}
    (herr : (x.afterPreface setup preface).phase = .ended (.error err)) :
    err.ofSetup = false := by
  obtain ⟨privateKeys, clients, handshake, hprivateKeys, hclients, hnew⟩ := h
  simp only [afterPreface, hprivateKeys, hclients, hnew] at herr
  split at herr <;> cases herr
  rfl

theorem ofSetup_afterFirst {handshake : ServerHandshake} {first : Bytes}
    (herr : (x.afterFirst snow handshake first).phase = .ended (.error err)) :
    err.ofSetup = false := by
  rw [afterFirst] at herr
  split at herr
  · cases herr
  · cases herr
    rfl
  · split at herr <;> cases herr
    rfl

theorem ofSetup_afterFlush {reply : ServerReply HS}
    (herr : (x.afterFlush snow setup reply).phase = .ended (.error err)) :
    err.ofSetup = false := by
  rw [afterFlush] at herr
  split at herr <;> cases herr
  rfl

theorem ofSetup_step (h : Prepared setup) (hstep : x.step snow setup e = some x')
    (herr : x'.phase = .ended (.error err)) : err.ofSetup = false := by
  rw [step.eq_def] at hstep
  split at hstep
  any_goals
    -- What a session awaits fails, or it goes on.
    obtain rfl := Option.some.inj hstep
    cases herr <;> rfl
  · rename_i hphase
    obtain rfl := Option.some.inj hstep
    split at herr
    · cases herr
    · exact ofSetup_runNoise h herr
  · obtain rfl := Option.some.inj hstep
    exact ofSetup_runNoise h herr
  · rename_i got piece hphase
    split at hstep
    · obtain rfl := Option.some.inj hstep
      cases herr
      rfl
    split at hstep
    · dsimp only at hstep
      split at hstep
      · obtain rfl := Option.some.inj hstep
        cases herr
      · obtain rfl := Option.some.inj hstep
        exact ofSetup_afterPreface h herr
    · cases hstep
  · rename_i handshake got piece hphase
    split at hstep
    · obtain rfl := Option.some.inj hstep
      cases herr
      rfl
    split at hstep
    · dsimp only at hstep
      split at hstep
      · obtain rfl := Option.some.inj hstep
        cases herr
      · obtain rfl := Option.some.inj hstep
        cases herr
        rfl
      · obtain rfl := Option.some.inj hstep
        exact ofSetup_afterFirst herr
    · cases hstep
  · obtain ⟨-, rfl⟩ := Option.ite_some_none_eq_some.1 hstep
    dsimp only at herr
    split at herr <;> cases herr
  · obtain rfl := Option.some.inj hstep
    exact ofSetup_afterFlush herr
  · rename_i hphase
    obtain rfl := Option.some.inj hstep
    cases hphase.symm.trans herr
  · rename_i hphase
    obtain rfl := Option.some.inj hstep
    cases hphase.symm.trans herr
  · rename_i result hphase
    obtain rfl := Option.some.inj hstep
    cases result <;> cases herr
    rfl
  · cases hstep

theorem ofSetup_of_reachable (h : Prepared setup)
    (hreach : (serverSession snow setup).Reachable EventSystem.always x)
    (herr : x.phase = .ended (.error err)) : err.ofSetup = false := by
  cases hreach with
  | init hinit =>
    obtain rfl : x = .initial := hinit
    cases herr
  | step _ _ hstep => exact ofSetup_step h hstep herr

end ServerSession

/-! ## What the two commands decide -/

namespace ServerPremises

variable {File Cert TlsKey Acceptor : Type} {here : ServerPremises File Cert TlsKey Acceptor}
  {path : Text} {c : ServerConfig} {tls : Option Acceptor}

theorem doctor_eq_ok {lines : List Text} : here.doctor path = .ok lines ↔
    lines = approval ∧ ∃ c, here.Configured path c ∧
      (∀ file ∈ c.identityPaths, here.files.Holds file) ∧
      (∃ tls, here.acceptor c.outerTls = .ok tls) ∧
      (∀ client ∈ c.authorizedClients, ∃ key, IsKey client.publicKey key) ∧
      here.bind c.listen = .ok () ∧ here.connect c.destination = .ok () := by
  simp only [doctor, bind_eq_ok, forM_eq_ok, told_eq_ok, withContext_eq_ok, mapError_eq_ok]
  constructor
  · rintro ⟨⟨⟩, hguarded, c, hloaded, keys, hkeys, tls, htls, ⟨⟩, hclients, ⟨⟩, hbind, ⟨⟩,
      hconnect, h⟩
    cases h
    exact ⟨rfl, c, ⟨hguarded, hloaded⟩, exists_readServerPrivateKeys.1 ⟨keys, hkeys⟩,
      ⟨tls, htls⟩, fun client hclient => checkClient_eq_ok.1 (hclients client hclient), hbind,
      hconnect⟩
  · rintro ⟨rfl, c, ⟨hguarded, hloaded⟩, hheld, ⟨tls, htls⟩, hkeys, hbind, hconnect⟩
    obtain ⟨keys, hread⟩ := exists_readServerPrivateKeys.2 hheld
    exact ⟨(), hguarded, c, hloaded, keys, hread, tls, htls, (),
      fun client hclient => checkClient_eq_ok.2 (hkeys client hclient), (), hbind, (), hconnect,
      rfl⟩

theorem doctor_iff : (∃ lines, here.doctor path = .ok lines) ↔
    ∃ c tls, here.start path = .ok (c, tls) ∧ c.Served here.engine here.files ∧
      here.connect c.destination = .ok () := by
  simp only [doctor_eq_ok, start_eq_ok]
  constructor
  · rintro ⟨lines, rfl, c, hconfigured, hheld, ⟨tls, htls⟩, hkeys, hbind, hconnect⟩
    exact ⟨c, tls, ⟨hconfigured, fun file hfile =>
      Files.enforcePrivatePermissions_eq_ok.2 (hheld file hfile).guarded, htls, hbind⟩,
      hconfigured.valid.served_iff_keys.2 ⟨hheld, hkeys⟩, hconnect⟩
  · rintro ⟨c, tls, ⟨hconfigured, -, htls, hbind⟩, hserved, hconnect⟩
    obtain ⟨hheld, hkeys⟩ := hconfigured.valid.served_iff_keys.1 hserved
    exact ⟨approval, rfl, c, hconfigured, hheld, ⟨tls, htls⟩, hkeys, hbind, hconnect⟩

/-- The configuration that a file holds is one. -/
theorem Configured.unique {c' : ServerConfig} (h : here.Configured path c)
    (h' : here.Configured path c') : c = c' :=
  Except.ok.inj (h.loaded.symm.trans h'.loaded)

end ServerPremises

/-- A session that has done anything was prepared. -/
theorem ServerConfig.Valid.served_of_effects {engine : Base64Engine} {files : Files}
    {c : ServerConfig} (h : c.Valid) {HS Key : Type*} {snow : Snow HS Key}
    {x : ServerSession SocketAddr HS Key}
    (hreach : (serverSession snow (c.setup engine files)).Reachable EventSystem.always x)
    (hne : x.effects ≠ []) : c.Served engine files := by
  obtain ⟨⟨_, _, privateKeys, clients, _, _, hprivateKeys, hclients, _⟩, -⟩ :=
    (ServerSession.inv_of_reachable hreach).spoken.resolve_left hne
  exact h.served_iff_keys.2 ⟨exists_readServerPrivateKeys.1 ⟨privateKeys, hprivateKeys⟩,
    (exists_decodeClients engine).1 ⟨clients, hclients⟩⟩

/-- `doctor` approves exactly the configurations with which `serve` listens, whose
    destination answers, and with which the setup of a session cannot fail. Of one that
    `serve` listens with, and whose destination answers: where `doctor` approves, no
    session ever ends for its setup, whatever its peer sends and whatever intervenes;
    where it does not, no session ever writes to the stream that Noise is spoken on, or
    connects to the destination. The files and the destination are taken to answer
    `doctor`, `serve` and the sessions alike. -/
theorem server_doctor_decides {File Cert TlsKey Acceptor : Type}
    (here : ServerPremises File Cert TlsKey Acceptor) (path : Text) :
    ((∃ lines, here.doctor path = .ok lines) ↔
      ∃ c tls, here.start path = .ok (c, tls) ∧ c.Served here.engine here.files ∧
        here.connect c.destination = .ok ()) ∧
    ∀ c tls, here.start path = .ok (c, tls) → here.connect c.destination = .ok () →
      ∀ (HS Key : Type) (snow : Snow HS Key) (x : ServerSession SocketAddr HS Key),
        (serverSession snow (c.setup here.engine here.files)).Reachable EventSystem.always x →
        ((∃ lines, here.doctor path = .ok lines) →
          ∀ e, x.phase = .ended (.error e) → e.ofSetup = false) ∧
        ((¬∃ lines, here.doctor path = .ok lines) → x.effects = []) := by
  refine ⟨ServerPremises.doctor_iff, fun c tls hstart hconnect HS Key snow x hreach => ?_⟩
  obtain ⟨hconfigured, -⟩ := ServerPremises.start_eq_ok.1 hstart
  constructor
  · intro hdoctor e he
    obtain ⟨c', tls', hstart', hserved, -⟩ := ServerPremises.doctor_iff.1 hdoctor
    obtain rfl := hconfigured.unique (ServerPremises.start_eq_ok.1 hstart').1
    exact ServerSession.ofSetup_of_reachable hserved.constructs hreach he
  · intro hdoctor
    by_contra hne
    have hserved := hconfigured.valid.served_of_effects hreach hne
    exact hdoctor (ServerPremises.doctor_iff.2 ⟨c, tls, hstart, hserved, hconnect⟩)

/-- Premises where everything answers, and every file holds the same key. -/
def ServerPremises.uniform (c : ServerConfig) : ServerPremises Unit Unit Unit Unit where
  engine := .silent
  files := .uniform zeroKey
  toml _ := .ok c
  shown _ := []
  openFile _ := .ok ()
  certs _ := .ok [()]
  tls13 := .ok ()
  bind _ := .ok ()
  tlsKey _ := .ok (some ())
  singleCert _ _ := .ok ()
  connect _ := .ok ()

theorem ServerPremises.uniform_starts {c : ServerConfig} (hvalid : c.validate = .ok ())
    (htls : c.outerTls.enabled = false) : (uniform c).start [] = .ok (c, none) := by
  refine start_eq_ok.2 ⟨⟨rfl, ?_⟩, fun file _ => ?_, ?_, rfl⟩
  · exact Premises.load_eq_ok.2 ⟨_, rfl, rfl, mapError_eq_ok.2 hvalid⟩
  · exact Files.enforcePrivatePermissions_eq_ok.2 (Files.uniform_holds file).guarded
  · rw [acceptor, htls]
    rfl

/-- The public key of `zeroKey`, where it is its own. -/
def zeroText : Text := "AAAAAAAAAAAAAAAAAAAAAAAAAAAAAAAAAAAAAAAAAAA=".toList

theorem ServerConfig.allowing_zero_served :
    (allowing [zeroText]).Served .silent (.uniform zeroKey) := by
  have hvalid : (allowing [zeroText]).validate = .ok () := by decide +kernel
  refine (validate_eq_ok.1 hvalid).served_iff_keys.2
    ⟨fun file _ => Files.uniform_holds file, fun client hclient => ?_⟩
  obtain rfl := List.mem_singleton.1 hclient
  exact ⟨zeroKey, by decide +kernel⟩

/-- With a second client whose public key is not a key, `serve` listens all the same. -/
theorem server_doctor_decides_two :
    let one := ServerPremises.uniform (.allowing [zeroText])
    let two := ServerPremises.uniform (.allowing [zeroText, "not a key".toList])
    (∃ lines, one.doctor [] = .ok lines) ∧ (¬∃ lines, two.doctor [] = .ok lines) ∧
      ∃ c tls, two.start [] = .ok (c, tls) := by
  intro one two
  have hone := ServerPremises.uniform_starts (c := .allowing [zeroText]) (by decide +kernel) rfl
  have htwo := ServerPremises.uniform_starts (c := .allowing [zeroText, "not a key".toList])
    (by decide +kernel) rfl
  refine ⟨(server_doctor_decides one []).1.2
    ⟨_, _, hone, ServerConfig.allowing_zero_served, rfl⟩, fun hdoctor => ?_, _, _, htwo⟩
  obtain ⟨c, tls, hstart, hserved, -⟩ := (server_doctor_decides two []).1.1 hdoctor
  have hconfigured := (ServerPremises.start_eq_ok.1 htwo).1
  obtain rfl := hconfigured.unique (ServerPremises.start_eq_ok.1 hstart).1
  obtain ⟨zero, hzero⟩ := (hconfigured.valid.served_iff_keys.1 hserved).2
    ⟨"mac".toList, "not a key".toList⟩ (List.mem_cons_of_mem _ List.mem_cons_self)
  have hnone : Base64.decode (trim "not a key".toList) = none := by decide +kernel
  rw [hzero, Base64.decode_encode] at hnone
  cases hnone

end SecureTunnel
