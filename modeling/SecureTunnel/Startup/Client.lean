import SecureTunnel.Client.Session
import SecureTunnel.General.Simulation
import SecureTunnel.Startup.Premises

/-!
# Starting the client

The `doctor` of the client reads its keys, binds its listener, and then shakes hands
with the remote server by code of its own, `verify_remote_noise`, where a session has
`handle_local` and `run_noise`. Both end in `complete_noise_handshake`.

* `ClientPremises.start`, `ClientPremises.examine`, `clientDoctor`: the two commands.
* `client_doctor_rehearses`: over the same events, `doctor` succeeds exactly where a
  session gets to its relay.
* `client_doctor_honest`: what `doctor` prints of the configuration, the keys and the
  server is true, and it sends nothing but a handshake.
-/

namespace SecureTunnel

/-! ## The commands -/

/-- What the commands of the client find outside of them. -/
structure ClientPremises (File Cert : Type) extends Premises ClientConfig File Cert where
  /-- `load_native_certs`: its errors, and its certificates. -/
  nativeErrors : List Text
  nativeCerts : List Cert
  /-- How a list of errors is shown by `{:?}`. -/
  debug : List Text → Text
  /-- `add_parsable_certificates` takes the certificate. -/
  usable : Cert → Bool
  /-- `ServerName::try_from` -/
  dnsName : Text → Bool

namespace ClientPremises

variable {File Cert : Type} (here : ClientPremises File Cert)

/-- `ClientConfig::load` -/
def loadConfig (path : Text) : Except (List Text) ClientConfig :=
  here.load "client".toList (fun c => c.validate.mapError (·.display here.shown)) path

/-- The certificates of an additional CA that are usable. -/
def additionalRoots (path : Text) : Except (List Text) (List Cert) := do
  let file ← withContext ("could not open additional TLS CA ".toList ++ path) (here.openFile path)
  let certificates ← withContext ("could not parse additional TLS CA ".toList ++ path)
    (here.certs file)
  if certificates.isEmpty then
    throw ["additional TLS CA ".toList ++ path ++ " contains no certificates".toList]
  if (certificates.filter here.usable).isEmpty then
    throw ["additional TLS CA ".toList ++ path ++ " contained no usable certificates".toList]
  return certificates.filter here.usable

/-- `tls_connector`, with the roots that it trusts. -/
def tlsConnector (c : Client.OuterTlsConfig) : Except (List Text) (List Cert) := do
  if here.nativeErrors ≠ [] then
    throw ["could not load all system TLS trust roots: ".toList ++ here.debug here.nativeErrors]
  if here.nativeCerts.isEmpty then
    throw ["system TLS trust store is empty".toList]
  let added ← c.additionalCaFile.elim (pure []) here.additionalRoots
  told here.tls13
  return here.nativeCerts.filter here.usable ++ added

/-- The connector of a client, if the outer TLS is enabled. -/
def connector (c : Client.OuterTlsConfig) : Except (List Text) (Option (List Cert)) :=
  if c.enabled then (here.tlsConnector c).map some else .ok none

/-- `serve`, until it listens. -/
def start (path : Text) : Except (List Text) (ClientConfig × Option (List Cert)) := do
  here.files.enforceConfigPermissions path
  let config ← here.loadConfig path
  here.files.enforcePrivatePermissions config.privateKeyFile
  let tls ← here.connector config.outerTls
  withContext ("could not bind local listener ".toList ++ here.shown config.listen)
    (here.bind config.listen)
  return (config, tls)

/-- `doctor`, before it binds its listener. -/
def examine (path : Text) : Except (List Text) ClientConfig := do
  here.files.enforceConfigPermissions path
  let config ← here.loadConfig path
  let _ ← readPrivateKey here.engine here.files config.privateKeyFile
  let _ ← decodePublicKey here.engine config.serverPublicKey
  return config

/-- The setup of the client, for `doctor` as for its sessions. -/
def setup (c : ClientConfig) : ClientSetup := c.setup here.engine here.files here.dnsName

end ClientPremises

/-- The errors of `doctor`, once it binds its listener. -/
inductive DoctorError
  | bind (display : Text)
  | connectTimeout
  | connect (display : Text)
  | nodelay (display : Text)
  | keepalive (display : Text)
  | connector (cause : List Text)
  | serverName (cause : List Text)
  | tlsTimeout
  | tls (display : Text)
  /-- `complete_noise_handshake` -/
  | handshake (e : ClientSessionError)

def DoctorError.chain : DoctorError → List Text
  | bind display => [display]
  | connectTimeout => ["remote connect timed out".toList, elapsed]
  | connect display => [display]
  | nodelay display => [display]
  | keepalive display => ["could not enable TCP keepalive".toList, display]
  | connector cause => cause
  | serverName cause => cause
  | tlsTimeout => ["outer TLS handshake timed out".toList, elapsed]
  | tls display => [display]
  | handshake e => e.chain

/-- The places of `doctor`: what it awaits. -/
inductive DoctorPhase
  | binding
  | connecting
  | nodelay
  | keepalive
  | tls
  | shaking
  | ended (result : Except DoctorError Unit)

structure ClientDoctor (HS Key : Type*) where
  phase : DoctorPhase
  /-- What `complete_noise_handshake` is at. -/
  noise : ClientSession HS Key
  printed : List Text

namespace ClientDoctor

variable {HS Key : Type*} {File Cert : Type}

/-- What is printed after the examination. -/
def examined (c : ClientConfig) : List Text :=
  ["[ok] configuration valid".toList,
    "[ok] client private key readable with protected permissions".toList,
    "[ok] pinned server identity configured".toList] ++
  if c.outerTls.enabled then ["[ok] outer TLS 1.3 trust roots and server name configured".toList]
  else []

def available : Text := "[ok] local listener available".toList

def authenticated : Text :=
  "[ok] remote tunnel reachable and pinned Noise identity authenticated".toList

/-- `complete_noise_handshake`, before its first write. -/
def unspoken : ClientSession HS Key := ⟨.preface prefaceBytes, [], [], false⟩

/-- `doctor`, after its examination. -/
def initial (c : ClientConfig) : ClientDoctor HS Key := ⟨.binding, unspoken, examined c⟩

def goto (x : ClientDoctor HS Key) (phase : DoctorPhase) : ClientDoctor HS Key := { x with phase }

def fail (x : ClientDoctor HS Key) (e : DoctorError) : ClientDoctor HS Key :=
  x.goto (.ended (.error e))

/-- `verify_remote_noise`, after the keepalive is set. -/
def afterKeepalive (here : ClientPremises File Cert) (c : ClientConfig)
    (x : ClientDoctor HS Key) : ClientDoctor HS Key :=
  if c.outerTls.enabled then
    match here.tlsConnector c.outerTls with
    | .error cause => x.fail (.connector cause)
    | .ok _ =>
      match c.outerTls.tlsServerName here.dnsName with
      | .error cause => x.fail (.serverName cause)
      | .ok () => x.goto .tls
  else x.goto .shaking

/-- A step of `complete_noise_handshake` is taken. -/
def follow (x : ClientDoctor HS Key) (noise : ClientSession HS Key) : ClientDoctor HS Key :=
  match noise.phase with
  | .relaying _ => ⟨.ended (.ok ()), noise, x.printed ++ [authenticated]⟩
  | .ended (.error e) => ⟨.ended (.error (.handshake e)), noise, x.printed⟩
  | _ => { x with noise }

def step (snow : Snow HS Key) (here : ClientPremises File Cert) (c : ClientConfig)
    (x : ClientDoctor HS Key) (e : SessionEvent) : Option (ClientDoctor HS Key) :=
  match x.phase, e with
  | .binding, .fail display => some (x.fail (.bind display))
  | .binding, .proceed => some { x with phase := .connecting, printed := x.printed ++ [available] }
  -- `verify_remote_noise`
  | .connecting, .timeout => some (x.fail .connectTimeout)
  | .connecting, .fail display => some (x.fail (.connect display))
  | .connecting, .proceed => some (x.goto .nodelay)
  | .nodelay, .fail display => some (x.fail (.nodelay display))
  | .nodelay, .proceed => some (x.goto .keepalive)
  | .keepalive, .fail display => some (x.fail (.keepalive display))
  | .keepalive, .proceed => some (x.afterKeepalive here c)
  | .tls, .timeout => some (x.fail .tlsTimeout)
  | .tls, .fail display => some (x.fail (.tls display))
  | .tls, .proceed => some (x.goto .shaking)
  | .shaking, e => (x.noise.step snow (here.setup c) e).map x.follow
  | _, _ => none

def hasSucceeded (x : ClientDoctor HS Key) : Bool :=
  match x.phase with
  | .ended (.ok ()) => true
  | _ => false

theorem hasSucceeded_eq_true {x : ClientDoctor HS Key} :
    x.hasSucceeded = true ↔ x.phase = .ended (.ok ()) := by
  rw [hasSucceeded]
  split
  · rename_i hphase
    exact iff_of_true rfl hphase
  · rename_i hphase
    exact iff_of_false Bool.false_ne_true hphase

end ClientDoctor

/-- `doctor`, from its examination on. -/
def clientDoctor {HS Key : Type*} {File Cert : Type} (snow : Snow HS Key)
    (here : ClientPremises File Cert) (c : ClientConfig) :
    EventSystem (ClientDoctor HS Key) SessionEvent where
  init x := x = .initial c
  step := ClientDoctor.step snow here c

/-! ## What they check -/

namespace ClientPremises

variable {File Cert : Type} {here : ClientPremises File Cert} {path : Text} {c : ClientConfig}

theorem start_eq_ok {tls : Option (List Cert)} : here.start path = .ok (c, tls) ↔
    here.files.enforceConfigPermissions path = .ok () ∧ here.loadConfig path = .ok c ∧
    here.files.enforcePrivatePermissions c.privateKeyFile = .ok () ∧
    here.connector c.outerTls = .ok tls ∧ here.bind c.listen = .ok () := by
  simp only [start, bind_eq_ok, withContext_eq_ok]
  constructor
  · rintro ⟨⟨⟩, hguarded, c', hloaded, ⟨⟩, hkey, tls', htls, ⟨⟩, hbind, h⟩
    cases h
    exact ⟨hguarded, hloaded, hkey, htls, hbind⟩
  · rintro ⟨hguarded, hloaded, hkey, htls, hbind⟩
    exact ⟨(), hguarded, c, hloaded, (), hkey, tls, htls, (), hbind, rfl⟩

/-- What `doctor` has examined: the configuration is valid, and its keys are keys. -/
structure Examined (here : ClientPremises File Cert) (path : Text) (c : ClientConfig) : Prop where
  guarded : here.files.enforceConfigPermissions path = .ok ()
  loaded : here.loadConfig path = .ok c
  privateKey : ∃ key, (here.setup c).privateKey = .ok key
  serverKey : ∃ key, (here.setup c).serverKey = .ok key

theorem examine_eq_ok : here.examine path = .ok c ↔ here.Examined path c := by
  simp only [examine, bind_eq_ok]
  constructor
  · rintro ⟨⟨⟩, hguarded, c', hloaded, key, hkey, server, hserver, h⟩
    cases h
    exact ⟨hguarded, hloaded, ⟨key, hkey⟩, server, hserver⟩
  · rintro ⟨hguarded, hloaded, ⟨key, hkey⟩, server, hserver⟩
    exact ⟨(), hguarded, c, hloaded, key, hkey, server, hserver, rfl⟩

theorem Examined.valid (h : here.Examined path c) : c.Valid := by
  obtain ⟨text, -, -, hvalid⟩ := Premises.load_eq_ok.1 h.loaded
  exact ClientConfig.validate_eq_ok.1 (mapError_eq_ok.1 hvalid)

/-- A client that listens has its roots. -/
theorem exists_connector {tls : Option (List Cert)} (h : here.connector c.outerTls = .ok tls)
    (henabled : c.outerTls.enabled = true) : ∃ roots, here.tlsConnector c.outerTls = .ok roots := by
  rw [connector, if_pos henabled] at h
  cases hroots : here.tlsConnector c.outerTls with
  | error e =>
    rw [hroots] at h
    cases h
  | ok roots => exact ⟨roots, rfl⟩

end ClientPremises

/-! ## The handshake of the doctor -/

namespace ClientSession

variable {HS Key : Type*} {snow : Snow HS Key} {setup : ClientSetup}
  {x x' : ClientSession HS Key}

/-- The session is in `complete_noise_handshake`. -/
def Shaking : ClientPhase HS Key → Prop
  | .preface _ | .first .. | .flush _ | .reply .. => True
  | _ => False

theorem Shaking.not_quiet {phase : ClientPhase HS Key} (h : Shaking phase) : ¬Quiet phase := by
  cases phase <;> first | exact h.elim | exact id

/-- From within `complete_noise_handshake` a step leads within it, to the relay, or to
    an error. -/
theorem Move.shaking (h : x.Move snow setup x') (hshaking : Shaking x.phase) :
    Shaking x'.phase ∨ (∃ transport, x'.phase = .relaying transport) ∨
      ∃ e, x'.phase = .ended (.error e) := by
  cases h with
  | fail e => exact .inr (.inr ⟨e, rfl⟩)
  | quiet hquiet => exact absurd hquiet hshaking.not_quiet
  | runNoise hquiet => exact absurd hquiet hshaking.not_quiet
  | writePreface => exact .inl trivial
  | preface hphase =>
    rw [afterPreface]
    split
    · split
      · exact .inr (.inr ⟨_, rfl⟩)
      split
      · exact .inr (.inr ⟨_, rfl⟩)
      · exact .inl trivial
    · exact .inl hshaking
  | @writeFirst handshake rest n =>
    by_cases hrest : (rest.drop n).isEmpty
    · simp only [hrest, if_true]
      exact .inl trivial
    · simp only [hrest]
      exact .inl trivial
  | flush => exact .inl trivial
  | readReply => exact .inl trivial
  | refuseReply => exact .inr (.inr ⟨_, rfl⟩)
  | reply =>
    rw [afterReply]
    split
    · exact .inr (.inr ⟨_, rfl⟩)
    · exact .inr (.inl ⟨_, rfl⟩)
  | relayRead hphase =>
    rw [hphase] at hshaking
    exact hshaking.elim
  | relayWrite => exact .inl hshaking
  | relayEnd hphase =>
    rw [hphase] at hshaking
    exact hshaking.elim

end ClientSession

namespace ClientDoctor

variable {HS Key : Type*} {File Cert : Type} {snow : Snow HS Key}
  {here : ClientPremises File Cert} {c : ClientConfig} {x x' : ClientDoctor HS Key}
  {e : SessionEvent}

/-- What a step of the handshake makes of `doctor`. -/
theorem follow_cases {noise : ClientSession HS Key}
    (h : ClientSession.Shaking noise.phase ∨ (∃ transport, noise.phase = .relaying transport) ∨
      ∃ e, noise.phase = .ended (.error e)) :
    ClientSession.Shaking noise.phase ∧ x.follow noise = { x with noise } ∨
    (∃ transport, noise.phase = .relaying transport) ∧
      x.follow noise = ⟨.ended (.ok ()), noise, x.printed ++ [authenticated]⟩ ∨
    ∃ e, noise.phase = .ended (.error e) ∧
      x.follow noise = ⟨.ended (.error (.handshake e)), noise, x.printed⟩ := by
  obtain hshaking | ⟨transport, hphase⟩ | ⟨e, hphase⟩ := h
  · refine .inl ⟨hshaking, ?_⟩
    rw [follow]
    split
    · rename_i hphase
      rw [hphase] at hshaking
      exact hshaking.elim
    · rename_i hphase
      rw [hphase] at hshaking
      exact hshaking.elim
    · rfl
  · refine .inr (.inl ⟨⟨transport, hphase⟩, ?_⟩)
    rw [follow, hphase]
  · refine .inr (.inr ⟨e, hphase, ?_⟩)
    rw [follow, hphase]

/-! ### What it has printed and sent -/

/-- What is printed, and where the handshake is, at each place of `doctor`. -/
def At (c : ClientConfig) (noise : ClientPhase HS Key) (printed : List Text) :
    DoctorPhase → Prop
  | .binding => ClientSession.Shaking noise ∧ printed = examined c
  | .connecting | .nodelay | .keepalive | .tls | .shaking =>
    ClientSession.Shaking noise ∧ printed = examined c ++ [available]
  | .ended (.ok ()) =>
    (∃ transport, noise = .relaying transport) ∧ printed = examined c ++ [available, authenticated]
  | .ended (.error _) => printed = examined c ∨ printed = examined c ++ [available]

structure Inv (snow : Snow HS Key) (here : ClientPremises File Cert) (c : ClientConfig)
    (x : ClientDoctor HS Key) : Prop where
  noise : x.noise.Inv snow (here.setup c)
  place : At c x.noise.phase x.printed x.phase

theorem inv_initial {path : Text} (h : here.Examined path c) :
    (initial c : ClientDoctor HS Key).Inv snow here c := by
  obtain ⟨privateKey, hprivate⟩ := h.privateKey
  obtain ⟨serverKey, hserver⟩ := h.serverKey
  exact ⟨⟨rfl, rfl, rfl, privateKey, serverKey, hprivate, hserver⟩, trivial, rfl⟩

theorem Inv.printed (h : x.Inv snow here c) (hended : ∀ result, x.phase ≠ .ended result) :
    x.printed = examined c ∨ x.printed = examined c ++ [available] := by
  obtain ⟨phase, noise, printed⟩ := x
  cases phase with
  | binding => exact .inl h.place.2
  | connecting | nodelay | keepalive | tls | shaking => exact .inr h.place.2
  | ended result => exact absurd rfl (hended result)

theorem Inv.fail (h : x.Inv snow here c) (hended : ∀ result, x.phase ≠ .ended result)
    (e : DoctorError) : (x.fail e).Inv snow here c :=
  ⟨h.noise, h.printed hended⟩

theorem Inv.afterKeepalive (h : x.Inv snow here c) (hphase : x.phase = .keepalive) :
    (x.afterKeepalive here c).Inv snow here c := by
  have hplace := h.place
  rw [hphase] at hplace
  have hended : ∀ result, x.phase ≠ .ended result := fun result heq => by
    cases hphase.symm.trans heq
  rw [ClientDoctor.afterKeepalive]
  split
  · split
    · exact h.fail hended _
    split
    · exact h.fail hended _
    · exact ⟨h.noise, hplace⟩
  · exact ⟨h.noise, hplace⟩

theorem Inv.follow (h : x.Inv snow here c) (hphase : x.phase = .shaking)
    {noise : ClientSession HS Key} (hmove : x.noise.Move snow (here.setup c) noise) :
    (x.follow noise).Inv snow here c := by
  have hplace := h.place
  rw [hphase] at hplace
  have hnoise := h.noise.move hmove
  obtain ⟨hshaking, heq⟩ | ⟨hrelaying, heq⟩ | ⟨e, -, heq⟩ :=
    follow_cases (x := x) (hmove.shaking hplace.1)
  · rw [heq]
    refine ⟨hnoise, ?_⟩
    rw [hphase]
    exact ⟨hshaking, hplace.2⟩
  · rw [heq]
    exact ⟨hnoise, hrelaying, by rw [hplace.2, List.append_assoc]; rfl⟩
  · rw [heq]
    exact ⟨hnoise, .inr hplace.2⟩

theorem Inv.step (h : x.Inv snow here c) (hstep : x.step snow here c e = some x') :
    x'.Inv snow here c := by
  have hplace := h.place
  rw [ClientDoctor.step.eq_def] at hstep
  split at hstep
  any_goals
    -- What `doctor` awaits completes, or it fails.
    rename_i hphase
    rw [hphase] at hplace
    obtain rfl := Option.some.inj hstep
    first
      | exact ⟨h.noise, hplace⟩
      | exact h.fail (fun result heq => by cases hphase.symm.trans heq) _
  · rename_i hphase
    rw [hphase] at hplace
    obtain rfl := Option.some.inj hstep
    exact ⟨h.noise, hplace.1, by rw [hplace.2]⟩
  · rename_i hphase
    obtain rfl := Option.some.inj hstep
    exact h.afterKeepalive hphase
  · rename_i hphase
    obtain ⟨noise, hnoise, rfl⟩ := Option.map_eq_some_iff.1 hstep
    exact h.follow hphase (ClientSession.step_move hnoise)
  · cases hstep

theorem inv_of_reachable {path : Text} (hexamined : here.Examined path c)
    (h : (clientDoctor snow here c).Reachable EventSystem.always x) : x.Inv snow here c := by
  refine h.invariant ?_ fun _ hinv _ hstep => hinv.step hstep
  rintro s rfl
  exact inv_initial hexamined

/-- The lines of the examination are printed before all else. -/
theorem Inv.examined_prefix (h : x.Inv snow here c) : examined c <+: x.printed := by
  have hplace := h.place
  obtain ⟨phase, noise, printed⟩ := x
  cases phase with
  | binding => exact ⟨[], by rw [List.append_nil]; exact hplace.2.symm⟩
  | connecting | nodelay | keepalive | tls | shaking => exact ⟨_, hplace.2.symm⟩
  | ended result =>
    cases result with
    | ok => exact ⟨_, hplace.2.symm⟩
    | error e =>
      rcases hplace with hplace | hplace
      · exact ⟨[], by rw [List.append_nil]; exact hplace.symm⟩
      · exact ⟨_, hplace.symm⟩

theorem authenticated_not_mem (c : ClientConfig) : authenticated ∉ examined c ++ [available] := by
  rw [examined]
  split <;> decide +kernel

/-- The server is told to be authenticated in the end of a success, and never else. -/
theorem Inv.authenticated_iff (h : x.Inv snow here c) :
    authenticated ∈ x.printed ↔ x.phase = .ended (.ok ()) := by
  have hnot := authenticated_not_mem c
  have hnot' : authenticated ∉ examined c := fun hmem => hnot (List.mem_append_left _ hmem)
  have hplace := h.place
  obtain ⟨phase, noise, printed⟩ := x
  cases phase with
  | binding => exact iff_of_false (hplace.2 ▸ hnot') DoctorPhase.noConfusion
  | connecting | nodelay | keepalive | tls | shaking =>
    exact iff_of_false (hplace.2 ▸ hnot) DoctorPhase.noConfusion
  | ended result =>
    rcases result with e | ⟨⟩
    · refine iff_of_false ?_ fun heq => by cases heq
      obtain hprinted | hprinted := hplace
      · exact hprinted ▸ hnot'
      · exact hprinted ▸ hnot
    · refine iff_of_true ?_ rfl
      obtain ⟨-, rfl⟩ : _ ∧ printed = examined c ++ [available, authenticated] := hplace
      simp

end ClientDoctor

/-- A configuration without outer TLS. -/
def ClientConfig.listening : ClientConfig where
  listen := ⟨.v4 127 0 0 1, 8080⟩
  remote := "tunnel.example:443".toList
  privateKeyFile := "/tmp/client.key".toList
  serverPublicKey := "AAAAAAAAAAAAAAAAAAAAAAAAAAAAAAAAAAAAAAAAAAA=".toList

/-- Premises where everything answers, and every file holds the same key. -/
def ClientPremises.uniform : ClientPremises Unit Unit where
  engine := .silent
  files := .uniform zeroKey
  toml _ := .ok .listening
  shown _ := []
  openFile _ := .ok ()
  certs _ := .ok [()]
  tls13 := .ok ()
  bind _ := .ok ()
  nativeErrors := []
  nativeCerts := [()]
  debug _ := []
  usable _ := true
  dnsName _ := true

theorem ClientPremises.uniform_starts :
    uniform.examine [] = .ok .listening ∧ uniform.start [] = .ok (.listening, none) := by
  have hloaded : uniform.loadConfig [] = .ok .listening :=
    Premises.load_eq_ok.2 ⟨_, rfl, rfl, mapError_eq_ok.2 (by decide +kernel)⟩
  have hheld := Files.uniform_holds ClientConfig.listening.privateKeyFile
  have hkey : IsKey ClientConfig.listening.serverPublicKey zeroKey := by decide +kernel
  have hserver : decodePublicKey uniform.engine ClientConfig.listening.serverPublicKey =
      .ok zeroKey := decodePublicKey_eq_ok.2 hkey
  constructor
  · exact examine_eq_ok.2 ⟨rfl, hloaded, readPrivateKey_of_holds Base64Engine.silent hheld,
      zeroKey, hserver⟩
  · exact start_eq_ok.2 ⟨rfl, hloaded, Files.enforcePrivatePermissions_eq_ok.2 hheld.guarded, rfl,
      rfl⟩

/-- One that writes a message of one byte, and reads every message. -/
def Snow.ofOneByte : Snow Unit Unit where
  buildInitiator _ _ := .ok ()
  buildResponder _ := .ok ()
  writeMessage _ := .ok (⟨[7], by decide⟩, ())
  readMessage _ _ := .ok ()
  remoteStatic _ := none
  intoTransport _ := .ok (.fresh () ())

/-- The `doctor` of the client, at any moment of any of its runs. It has printed the lines
    of its examination, of which the first three are true: the configuration is valid, the
    private key file is protected and holds a key, the server's public key is a key. It
    prints that the server is authenticated exactly when it succeeds, and then `snow` has
    read that server's reply to the one message it sent. Whatever happens, it sends no more
    than the preface and that message, inside the outer TLS if there is one. (Whether the
    outer TLS can be set up it only learns once it is connected.) -/
theorem client_doctor_honest {HS Key : Type*} {File Cert : Type} {snow : Snow HS Key}
    {here : ClientPremises File Cert} {path : Text} {c : ClientConfig}
    (hexamine : here.examine path = .ok c) {x : ClientDoctor HS Key}
    (hreach : (clientDoctor snow here c).Reachable EventSystem.always x) :
    (ClientDoctor.examined c <+: x.printed ∧ c.Valid ∧ here.files.Holds c.privateKeyFile ∧
      ∃ key, IsKey c.serverPublicKey key) ∧
    ClientSession.Spoken snow (here.setup c) x.noise.sent ∧
    (ClientDoctor.authenticated ∈ x.printed ↔ x.phase = .ended (.ok ())) ∧
    (x.phase = .ended (.ok ()) →
      ClientSession.Shaken snow (here.setup c) x.noise.received x.noise.sent) := by
  have hexamined := ClientPremises.examine_eq_ok.1 hexamine
  have hinv := ClientDoctor.inv_of_reachable hexamined hreach
  obtain ⟨privateKey, hprivate⟩ := hexamined.privateKey
  obtain ⟨serverKey, hserver⟩ := hexamined.serverKey
  refine ⟨⟨hinv.examined_prefix, hexamined.valid, holds_of_readPrivateKey hprivate, serverKey,
    decodePublicKey_eq_ok.1 hserver⟩, hinv.noise.spoken.1, hinv.authenticated_iff, fun hphase => ?_⟩
  have hplace := hinv.place
  rw [hphase] at hplace
  obtain ⟨⟨transport, hrelaying⟩, -⟩ := hplace
  have hnoise := hinv.noise
  rw [ClientSession.Inv, hrelaying] at hnoise
  exact hnoise

/-- What happens on the remote connection of a handshake that succeeds. -/
def wholeHandshake : List SessionEvent :=
  [.proceed, .proceed, .proceed, .write 4, .write 2, .write 3, .proceed, .read [0], .read [1],
    .read [8]]

theorem client_doctor_honest_whole :
    ∃ x, (clientDoctor .ofOneByte .uniform .listening).Reachable EventSystem.always x ∧
      x.phase = .ended (.ok ()) ∧ ClientDoctor.authenticated ∈ x.printed ∧
      ClientSession.Shaken .ofOneByte (ClientPremises.uniform.setup .listening) x.noise.received
        x.noise.sent := by
  let x := ((clientDoctor .ofOneByte .uniform .listening).run EventSystem.always
    (.initial .listening) (.proceed :: wholeHandshake)).get (by decide +kernel)
  have hreach : (clientDoctor .ofOneByte .uniform .listening).Reachable EventSystem.always x :=
    EventSystem.reachable_of_run rfl (Option.some_get _).symm
  have hmem : ClientDoctor.authenticated ∈ x.printed := by decide +kernel
  have hhonest := client_doctor_honest ClientPremises.uniform_starts.1 hreach
  have hphase := hhonest.2.2.1.1 hmem
  exact ⟨x, hreach, hphase, hmem, hhonest.2.2.2 hphase⟩

/-! ## The doctor and a session -/

/-- The events that `complete_noise_handshake`, and what precedes it, can await in
    `doctor` as in a session. -/
def SessionEvent.ofHandshake : SessionEvent → Bool
  | shutdown | relayRead _ | relayWrite _ | relayEnd _ => false
  | _ => true

namespace ClientDoctor

variable {HS Key : Type*} {File Cert : Type} {snow : Snow HS Key}
  {here : ClientPremises File Cert} {path : Text} {c : ClientConfig} {x x' : ClientDoctor HS Key}
  {s s' : ClientSession HS Key} {e : SessionEvent}

/-- A session that has done nothing to the remote stream yet. -/
def before (phase : ClientPhase HS Key) : ClientSession HS Key := ⟨phase, [], [], false⟩

/-- Where a session is when `doctor` is at a place, and at what: of an error, `doctor`
    tells the end of the chain. -/
def Rehearses (x : ClientDoctor HS Key) (s : ClientSession HS Key) : Prop :=
  match x.phase with
  | .binding => False
  | .connecting => x.noise = unspoken ∧ s = before .connecting
  | .nodelay => x.noise = unspoken ∧ s = before .remoteNodelay
  | .keepalive => x.noise = unspoken ∧ s = before .remoteKeepalive
  | .tls => x.noise = unspoken ∧ s = before .tls
  | .shaking => ClientSession.Shaking x.noise.phase ∧ s = x.noise
  | .ended (.ok ()) => (∃ transport, x.noise.phase = .relaying transport) ∧ s = x.noise
  | .ended (.error e) => ∃ e', s.phase = .ended (.error e') ∧ e.chain <:+ e'.chain

theorem Rehearses.failed {e : DoctorError} {e' : ClientSessionError} (h : e.chain <:+ e'.chain) :
    (x.fail e).Rehearses (s.fail e') :=
  ⟨e', rfl, h⟩

/-- Both begin `complete_noise_handshake`, with the keys that were examined. -/
theorem rehearses_runNoise (hexamined : here.Examined path c) (hnoise : x.noise = unspoken)
    (phase : ClientPhase HS Key) :
    (x.goto .shaking).Rehearses ((before phase).runNoise (here.setup c)) := by
  obtain ⟨privateKey, hprivate⟩ := hexamined.privateKey
  obtain ⟨serverKey, hserver⟩ := hexamined.serverKey
  rw [ClientSession.runNoise, hprivate, hserver]
  refine ⟨?_, hnoise.symm⟩
  rw [goto, hnoise]
  trivial

/-- Once both have set the keepalive of the remote connection. -/
theorem rehearses_afterKeepalive (hexamined : here.Examined path c)
    (hroots : c.outerTls.enabled = true → ∃ roots, here.tlsConnector c.outerTls = .ok roots)
    (hnoise : x.noise = unspoken) :
    (x.afterKeepalive here c).Rehearses
      ((before .remoteKeepalive).afterKeepalive (here.setup c)) := by
  rw [afterKeepalive, ClientSession.afterKeepalive]
  by_cases henabled : c.outerTls.enabled = true
  · have houter : (here.setup c).outerTls = true := henabled
    obtain ⟨roots, hroots⟩ := hroots henabled
    rw [if_pos henabled, if_pos houter, hroots]
    have hname : (here.setup c).serverName = c.outerTls.tlsServerName here.dnsName := rfl
    rw [hname]
    cases c.outerTls.tlsServerName here.dnsName with
    | error cause => exact .failed List.suffix_rfl
    | ok => exact ⟨hnoise, rfl⟩
  · have houter : ¬(here.setup c).outerTls = true := henabled
    rw [if_neg henabled, if_neg houter]
    exact rehearses_runNoise hexamined hnoise _

/-- A step of both. -/
theorem Rehearses.step (hexamined : here.Examined path c)
    (hroots : c.outerTls.enabled = true → ∃ roots, here.tlsConnector c.outerTls = .ok roots)
    (h : x.Rehearses s) (he : e.ofHandshake = true) :
    Option.Rel Rehearses (x.step snow here c e) (s.step snow (here.setup c) e) := by
  obtain ⟨phase, noise, printed⟩ := x
  cases phase with
  | binding => exact h.elim
  | connecting =>
    obtain ⟨hnoise, rfl⟩ := h
    cases e with
    | proceed => exact .some ⟨hnoise, rfl⟩
    | fail display => exact .some (.failed List.suffix_rfl)
    | timeout => exact .some (.failed List.suffix_rfl)
    | read | write => exact .none
    | _ => cases he
  | nodelay =>
    obtain ⟨hnoise, rfl⟩ := h
    cases e with
    | proceed => exact .some ⟨hnoise, rfl⟩
    | fail display => exact .some (.failed (List.suffix_cons ..))
    | timeout | read | write => exact .none
    | _ => cases he
  | keepalive =>
    obtain ⟨hnoise, rfl⟩ := h
    cases e with
    | proceed => exact .some (rehearses_afterKeepalive hexamined hroots hnoise)
    | fail display => exact .some (.failed (List.suffix_cons ..))
    | timeout | read | write => exact .none
    | _ => cases he
  | tls =>
    obtain ⟨hnoise, rfl⟩ := h
    cases e with
    | proceed => exact .some (rehearses_runNoise hexamined hnoise _)
    | fail display => exact .some (.failed List.suffix_rfl)
    | timeout => exact .some (.failed List.suffix_rfl)
    | read | write => exact .none
    | _ => cases he
  | shaking =>
    obtain ⟨hshaking, rfl⟩ := h
    change Option.Rel Rehearses ((s.step snow (here.setup c) e).map _)
      (s.step snow (here.setup c) e)
    cases hstep : s.step snow (here.setup c) e with
    | none => exact .none
    | some s' =>
      refine .some ?_
      obtain ⟨hshaking', heq⟩ | ⟨hrelaying, heq⟩ | ⟨e', hphase, heq⟩ :=
        follow_cases (x := ⟨.shaking, s, printed⟩)
          ((ClientSession.step_move hstep).shaking hshaking)
      · exact heq ▸ ⟨hshaking', rfl⟩
      · exact heq ▸ ⟨hrelaying, rfl⟩
      · exact heq ▸ ⟨e', hphase, List.suffix_rfl⟩
  | ended result =>
    -- Neither goes on, but for a relay.
    obtain ⟨phase, received, sent, succeeded⟩ := s
    rcases result with e | ⟨⟩
    · obtain ⟨e', hphase, -⟩ := h
      obtain rfl : phase = .ended (.error e') := hphase
      exact .none
    · obtain ⟨⟨transport, hphase⟩, heq⟩ := h
      obtain rfl : phase = .relaying transport := by rw [← hphase, ← heq]
      cases e with
      | proceed | fail | timeout | read | write => exact .none
      | _ => cases he

/-- `doctor` has succeeded where the session relays, at the end of the same handshake. -/
theorem Rehearses.ok_iff (h : x.Rehearses s) :
    x.phase = .ended (.ok ()) ↔ x.noise = s ∧ ∃ transport, s.phase = .relaying transport := by
  obtain ⟨phase, noise, printed⟩ := x
  cases phase with
  | binding => exact h.elim
  | connecting | nodelay | keepalive | tls =>
    obtain ⟨-, rfl⟩ := h
    refine iff_of_false DoctorPhase.noConfusion ?_
    rintro ⟨-, transport, hphase⟩
    cases hphase
  | shaking =>
    obtain ⟨hshaking, rfl⟩ := h
    refine iff_of_false DoctorPhase.noConfusion ?_
    rintro ⟨-, transport, hphase⟩
    rw [hphase] at hshaking
    exact hshaking
  | ended result =>
    rcases result with e | ⟨⟩
    · obtain ⟨e', hphase, -⟩ := h
      refine iff_of_false (fun heq => by cases heq) ?_
      rintro ⟨-, transport, hphase'⟩
      cases hphase.symm.trans hphase'
    · obtain ⟨hrelaying, rfl⟩ := h
      exact iff_of_true rfl ⟨rfl, hrelaying⟩

/-- `doctor` has failed where the session has. -/
theorem Rehearses.error_iff (h : x.Rehearses s) :
    (∃ e, x.phase = .ended (.error e)) ↔ ∃ e, s.phase = .ended (.error e) := by
  obtain ⟨phase, noise, printed⟩ := x
  cases phase with
  | binding => exact h.elim
  | connecting | nodelay | keepalive | tls =>
    obtain ⟨-, rfl⟩ := h
    constructor <;> rintro ⟨e, hphase⟩ <;> cases hphase
  | shaking =>
    obtain ⟨hshaking, rfl⟩ := h
    constructor <;> rintro ⟨e, hphase⟩
    · cases hphase
    · rw [hphase] at hshaking
      exact hshaking.elim
  | ended result =>
    rcases result with e | ⟨⟩
    · obtain ⟨e', hphase, -⟩ := h
      exact iff_of_true ⟨e, rfl⟩ ⟨e', hphase⟩
    · obtain ⟨⟨transport, hphase⟩, rfl⟩ := h
      refine iff_of_false ?_ ?_
      · rintro ⟨e, heq⟩
        cases heq
      · rintro ⟨e, heq⟩
        cases hphase.symm.trans heq

theorem Rehearses.suffix (h : x.Rehearses s) {e : DoctorError} {e' : ClientSessionError}
    (hx : x.phase = .ended (.error e)) (hs : s.phase = .ended (.error e')) :
    e.chain <:+ e'.chain := by
  rw [Rehearses, hx] at h
  obtain ⟨e'', hs', hsuffix⟩ := h
  cases hs.symm.trans hs'
  exact hsuffix

/-- After its listener, the doctor goes on as a session does after its local connection. -/
def rehearsal (snow : Snow HS Key) (hexamined : here.Examined path c)
    (hroots : c.outerTls.enabled = true → ∃ roots, here.tlsConnector c.outerTls = .ok roots) :
    (clientDoctor snow here c).Lockstep (clientSession snow (here.setup c))
      (·.ofHandshake = true) where
  rel := Rehearses
  step h he := h.step hexamined hroots he

end ClientDoctor

/-- The `doctor` of the client rehearses a session. For a client that listens, and whose
    examination by `doctor` has passed: over the same events on the remote connection (the
    connect, the outer TLS, every cut of the streams, every timeout and error), `doctor`
    succeeds exactly where a session gets to its relay, with the same bytes sent and
    received, and fails exactly where a session fails; of the error it tells the end of
    the chain that the session has. -/
theorem client_doctor_rehearses {HS Key : Type*} {File Cert : Type} (snow : Snow HS Key)
    {here : ClientPremises File Cert} {path : Text} {c : ClientConfig} {tls : Option (List Cert)}
    (hexamine : here.examine path = .ok c) (hstart : here.start path = .ok (c, tls))
    (es : List SessionEvent) :
    let doctor := (clientDoctor snow here c).run (fun _ e => e.ofHandshake = true) (.initial c)
      (.proceed :: es)
    let session := (clientSession snow (here.setup c)).run (fun _ e => e.ofHandshake = true)
      .initial (.proceed :: .proceed :: es)
    doctor.isSome = session.isSome ∧ ∀ x s, doctor = some x → session = some s →
      (x.phase = .ended (.ok ()) ↔ x.noise = s ∧ ∃ transport, s.phase = .relaying transport) ∧
      ((∃ e, x.phase = .ended (.error e)) ↔ ∃ e, s.phase = .ended (.error e)) ∧
      ∀ e e', x.phase = .ended (.error e) → s.phase = .ended (.error e') →
        e.chain <:+ e'.chain := by
  intro doctor session
  have hexamined := ClientPremises.examine_eq_ok.1 hexamine
  obtain ⟨-, -, -, htls, -⟩ := ClientPremises.start_eq_ok.1 hstart
  have hbegin : ClientDoctor.Rehearses
      ⟨.connecting, ClientDoctor.unspoken, ClientDoctor.examined c ++ [ClientDoctor.available]⟩
      (ClientDoctor.before .connecting : ClientSession HS Key) := ⟨rfl, rfl⟩
  have hrel : Option.Rel ClientDoctor.Rehearses doctor session :=
    (ClientDoctor.rehearsal snow hexamined (ClientPremises.exists_connector htls)).run es hbegin
  clear_value doctor session
  cases hrel with
  | none => exact ⟨rfl, fun x s hx => by cases hx⟩
  | some hrehearses =>
    refine ⟨rfl, fun x s hx hs => ?_⟩
    obtain rfl := Option.some.inj hx
    obtain rfl := Option.some.inj hs
    exact ⟨hrehearses.ok_iff, hrehearses.error_iff, fun _ _ => hrehearses.suffix⟩

theorem client_doctor_rehearses_whole :
    let setup := ClientPremises.uniform.setup .listening
    ∃ s transport, (clientSession .ofOneByte setup).run (fun _ e => e.ofHandshake = true) .initial
        (.proceed :: .proceed :: wholeHandshake) = some s ∧ s.phase = .relaying transport := by
  intro setup
  obtain ⟨hexamine, hstart⟩ := ClientPremises.uniform_starts
  obtain ⟨hsome, hends⟩ := client_doctor_rehearses .ofOneByte hexamine hstart wholeHandshake
  let doctor := (clientDoctor .ofOneByte .uniform .listening).run (fun _ e => e.ofHandshake = true)
    (.initial .listening) (.proceed :: wholeHandshake)
  have hdoctor : doctor.any (·.hasSucceeded) = true := by decide +kernel
  obtain ⟨x, hx, hsucceeded⟩ := (Option.any_eq_true _ _).1 hdoctor
  obtain ⟨s, hs⟩ := Option.isSome_iff_exists.1 (hsome.symm.trans (Option.isSome_of_mem hx))
  obtain ⟨-, transport, hrelaying⟩ :=
    (hends x s hx hs).1.1 (ClientDoctor.hasSucceeded_eq_true.1 hsucceeded)
  exact ⟨s, transport, hs, hrelaying⟩

end SecureTunnel
