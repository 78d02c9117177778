import SecureTunnel.Config.Client
import SecureTunnel.Config.Keys

/-!
# A client session

`handle_local`, `run_noise` and `complete_noise_handshake`: what the client does
with a local connection, in the same terms as a session of the server. Only two of
its operations are in a `select` with the shutdown, the connect and the outer TLS
handshake; the Noise handshake has a timeout and no more.

* `ClientSessionError`: the errors, by the place that raises them.
* `ClientSession.Inv`: what has been written and read, at each place of a session.
* `ClientSession.shaken_of_reachable`: a client relays only after the whole
  handshake with the pinned server.
-/

namespace SecureTunnel

/-! ## Errors -/

/-- The errors of a session of the client. -/
inductive ClientSessionError
  | shutdownRequested
  | localNodelay (display : Text)
  | localKeepalive (display : Text)
  | connectTimeout
  | connect (display : Text)
  | remoteNodelay (display : Text)
  | remoteKeepalive (display : Text)
  /-- `tls_server_name` -/
  | serverName (cause : List Text)
  | tlsTimeout
  | tls (display : Text)
  | privateKey (cause : List Text)
  | publicKey (cause : List Text)
  /-- `write_all` and `flush`, of the preface and of the first message. -/
  | write (display : Text)
  | construct (e : TunnelError)
  | firstMessage (e : TunnelError)
  | replyTimeout
  | replyRead (e : StreamError)
  | finish (e : TunnelError)
  | relay (e : RelayError)
  deriving DecidableEq, Repr

/-- The chain of an error, likewise. -/
def ClientSessionError.chain : ClientSessionError → List Text
  | shutdownRequested => ["shutdown requested".toList]
  | localNodelay display => ["local TCP nodelay setup failed".toList, display]
  | localKeepalive display =>
    ["local TCP keepalive setup failed".toList, "could not enable TCP keepalive".toList, display]
  | connectTimeout => ["remote connect timed out".toList, elapsed]
  | connect display => [display]
  | remoteNodelay display => ["remote TCP nodelay setup failed".toList, display]
  | remoteKeepalive display =>
    ["remote TCP keepalive setup failed".toList, "could not enable TCP keepalive".toList, display]
  | serverName cause => cause
  | tlsTimeout => ["outer TLS handshake timed out".toList, elapsed]
  | tls display => [display]
  | privateKey cause => cause
  | publicKey cause => cause
  | write display => [display]
  | construct e => e.chain
  | firstMessage e => "Noise handshake failed".toList :: e.chain
  | replyTimeout => ["Noise handshake timed out".toList, elapsed]
  | replyRead e => [e.display]
  | finish e => "Noise handshake failed".toList :: e.chain
  | relay e => e.chain

/-! ## State -/

/-- What a session of the client is configured with. -/
structure ClientSetup where
  outerTls : Bool
  serverName : Except (List Text) Unit
  privateKey : Except (List Text) StaticKey
  serverKey : Except (List Text) StaticKey

/-- `tls_server_name`, where `valid` says what is a DNS name. -/
def Client.OuterTlsConfig.tlsServerName (valid : Text → Bool) (c : Client.OuterTlsConfig) :
    Except (List Text) Unit :=
  match c.serverName with
  | none => .error ["outer_tls.server_name is required when outer TLS is enabled".toList]
  | some name =>
    if valid name then .ok ()
    else .error ["outer_tls.server_name is not a valid DNS name".toList]

def ClientConfig.setup (engine : Base64Engine) (files : Files) (valid : Text → Bool)
    (c : ClientConfig) : ClientSetup where
  outerTls := c.outerTls.enabled
  serverName := c.outerTls.tlsServerName valid
  privateKey := readPrivateKey engine files c.privateKeyFile
  serverKey := decodePublicKey engine c.serverPublicKey

/-- The places of a session: what it awaits. -/
inductive ClientPhase (HS Key : Type*)
  | localNodelay
  | localKeepalive
  | connecting
  | remoteNodelay
  | remoteKeepalive
  | tls
  | preface (rest : Bytes)
  | first (handshake : ClientHandshake HS) (rest : Bytes)
  | flush (handshake : ClientHandshake HS)
  | reply (handshake : ClientHandshake HS) (got : Bytes)
  | relaying (transport : TransportState Key)
  | ended (result : Except ClientSessionError Unit)
  deriving DecidableEq

structure ClientSession (HS Key : Type*) where
  phase : ClientPhase HS Key
  /-- All that was read from the remote stream. -/
  received : Bytes
  /-- All that was written to it before the relay. -/
  sent : Bytes
  handshakeSucceeded : Bool
  deriving DecidableEq

namespace ClientSession

variable {HS Key : Type*}

def initial : ClientSession HS Key := ⟨.localNodelay, [], [], false⟩

def goto (x : ClientSession HS Key) (phase : ClientPhase HS Key) : ClientSession HS Key :=
  { x with phase }

def fail (x : ClientSession HS Key) (e : ClientSessionError) : ClientSession HS Key :=
  x.goto (.ended (.error e))

/-- `run_noise`, up to its first write. -/
def runNoise (setup : ClientSetup) (x : ClientSession HS Key) : ClientSession HS Key :=
  match setup.privateKey with
  | .error cause => x.fail (.privateKey cause)
  | .ok _ =>
    match setup.serverKey with
    | .error cause => x.fail (.publicKey cause)
    | .ok _ => x.goto (.preface prefaceBytes)

/-- The keepalive of the remote connection is set. -/
def afterKeepalive (setup : ClientSetup) (x : ClientSession HS Key) : ClientSession HS Key :=
  if setup.outerTls then
    match setup.serverName with
    | .error cause => x.fail (.serverName cause)
    | .ok () => x.goto .tls
  else x.runNoise setup

/-- The preface is written. -/
def afterPreface (snow : Snow HS Key) (setup : ClientSetup) (x : ClientSession HS Key) :
    ClientSession HS Key :=
  match setup.privateKey, setup.serverKey with
  | .ok clientPrivate, .ok pinnedServer =>
    match ClientHandshake.new snow clientPrivate pinnedServer with
    | .error e => x.fail (.construct e)
    | .ok handshake =>
      match handshake.firstMessage snow with
      | (.error e, _) => x.fail (.firstMessage e)
      | (.ok frame, handshake) => x.goto (.first handshake frame)
  | _, _ => x

/-- The reply of the server is read. -/
def afterReply (snow : Snow HS Key) (x : ClientSession HS Key) (handshake : ClientHandshake HS)
    (reply : Bytes) : ClientSession HS Key :=
  match handshake.finish snow reply with
  | (.error e, _) => x.fail (.finish e)
  | (.ok transport, _) => { x with phase := .relaying transport, handshakeSucceeded := true }

def step (snow : Snow HS Key) (setup : ClientSetup) (x : ClientSession HS Key)
    (e : SessionEvent) : Option (ClientSession HS Key) :=
  match x.phase, e with
  -- `handle_local`
  | .localNodelay, .shutdown => some (x.fail .shutdownRequested)
  | .localNodelay, .fail display => some (x.fail (.localNodelay display))
  | .localNodelay, .proceed => some (x.goto .localKeepalive)
  | .localKeepalive, .fail display => some (x.fail (.localKeepalive display))
  | .localKeepalive, .proceed => some (x.goto .connecting)
  | .connecting, .timeout => some (x.fail .connectTimeout)
  | .connecting, .shutdown => some (x.fail .shutdownRequested)
  | .connecting, .fail display => some (x.fail (.connect display))
  | .connecting, .proceed => some (x.goto .remoteNodelay)
  | .remoteNodelay, .fail display => some (x.fail (.remoteNodelay display))
  | .remoteNodelay, .proceed => some (x.goto .remoteKeepalive)
  | .remoteKeepalive, .fail display => some (x.fail (.remoteKeepalive display))
  | .remoteKeepalive, .proceed => some (x.afterKeepalive setup)
  | .tls, .timeout => some (x.fail .tlsTimeout)
  | .tls, .shutdown => some (x.fail .shutdownRequested)
  | .tls, .fail display => some (x.fail (.tls display))
  | .tls, .proceed => some (x.runNoise setup)
  -- `complete_noise_handshake`, which does not look at the shutdown.
  | .preface _, .fail display => some (x.fail (.write display))
  | .preface rest, .write n =>
    if 0 < n ∧ n ≤ rest.length then
      let x := { x with sent := x.sent ++ rest.take n }
      if (rest.drop n).isEmpty then some (x.afterPreface snow setup)
      else some (x.goto (.preface (rest.drop n)))
    else none
  | .first .., .fail display => some (x.fail (.write display))
  | .first handshake rest, .write n =>
    if 0 < n ∧ n ≤ rest.length then
      some { x with
        phase := if (rest.drop n).isEmpty then .flush handshake else .first handshake (rest.drop n)
        sent := x.sent ++ rest.take n }
    else none
  | .flush _, .fail display => some (x.fail (.write display))
  | .flush handshake, .proceed => some (x.goto (.reply handshake []))
  | .reply .., .timeout => some (x.fail .replyTimeout)
  | .reply .., .fail display => some (x.fail (.replyRead (.io display)))
  | .reply handshake got, .read piece =>
    if piece.isEmpty then some (x.fail (.replyRead .eof))
    else if piece.length ≤ handshakeFormat.room got then
      let x := { x with received := x.received ++ piece }
      match handshakeFormat.progress (got ++ piece) with
      | .more => some (x.goto (.reply handshake (got ++ piece)))
      | .refused => some (x.fail (.replyRead .oversized))
      | .whole => some (x.afterReply snow handshake (got ++ piece))
    else none
  | .relaying _, .relayRead piece => some { x with received := x.received ++ piece }
  | .relaying _, .relayWrite _ => some x
  | .relaying _, .relayEnd result => some (x.goto (.ended (result.mapError .relay)))
  | _, _ => none

end ClientSession

/-- A session of the client. -/
def clientSession {HS Key : Type*} (snow : Snow HS Key) (setup : ClientSetup) :
    EventSystem (ClientSession HS Key) SessionEvent where
  init x := x = .initial
  step := ClientSession.step snow setup

/-! ## What a session has written and read -/

namespace ClientSession

variable {HS Key : Type*} {snow : Snow HS Key} {setup : ClientSetup}
  {x x' : ClientSession HS Key} {e : SessionEvent}

/-- The handshake object has written its first message, to the pinned server, and
    this is all that is sent before the relay. -/
def Greets (snow : Snow HS Key) (setup : ClientSetup) (handshake : ClientHandshake HS)
    (sent : Bytes) : Prop :=
  ∃ clientPrivate pinnedServer s message s',
    setup.privateKey = .ok clientPrivate ∧ setup.serverKey = .ok pinnedServer ∧
    snow.buildInitiator clientPrivate pinnedServer = .ok s ∧
    snow.writeMessage s = .ok (message, s') ∧ handshake = ⟨some s', true⟩ ∧
    sent = prefaceBytes ++ handshakeFrame message.1

/-- The handshake is complete: `snow` has read a reply to what was sent. -/
def Shaken (snow : Snow HS Key) (setup : ClientSetup) (received sent : Bytes) : Prop :=
  ∃ s reply s' transport more, Greets snow setup ⟨some s, true⟩ sent ∧
    received = handshakeFrame reply ++ more ∧ snow.readMessage s reply = .ok s' ∧
    snow.intoTransport s' = .ok transport

/-- What is sent begins the preface, or one first message after it. -/
def Spoken (snow : Snow HS Key) (setup : ClientSetup) (sent : Bytes) : Prop :=
  sent <+: prefaceBytes ∨ ∃ handshake whole, Greets snow setup handshake whole ∧ sent <+: whole

/-- What has been written and read, at each place of a session. -/
def At (snow : Snow HS Key) (setup : ClientSetup) (received sent : Bytes) (succeeded : Bool) :
    ClientPhase HS Key → Prop
  | .localNodelay | .localKeepalive | .connecting | .remoteNodelay | .remoteKeepalive | .tls =>
    received = [] ∧ sent = [] ∧ succeeded = false
  | .preface rest => received = [] ∧ sent ++ rest = prefaceBytes ∧ succeeded = false ∧
    ∃ clientPrivate pinnedServer,
      setup.privateKey = .ok clientPrivate ∧ setup.serverKey = .ok pinnedServer
  | .first handshake rest =>
    received = [] ∧ Greets snow setup handshake (sent ++ rest) ∧ succeeded = false
  | .flush handshake => received = [] ∧ Greets snow setup handshake sent ∧ succeeded = false
  | .reply handshake got => received = got ∧ Greets snow setup handshake sent ∧ succeeded = false
  | .relaying _ => Shaken snow setup received sent
  | .ended _ => Spoken snow setup sent ∧ (succeeded = true → Shaken snow setup received sent)

def Inv (snow : Snow HS Key) (setup : ClientSetup) (x : ClientSession HS Key) : Prop :=
  At snow setup x.received x.sent x.handshakeSucceeded x.phase

theorem inv_initial : (initial : ClientSession HS Key).Inv snow setup := ⟨rfl, rfl, rfl⟩

theorem Shaken.append {received sent : Bytes} (h : Shaken snow setup received sent)
    (more : Bytes) : Shaken snow setup (received ++ more) sent := by
  obtain ⟨s, reply, s', transport, rest, hgreets, rfl, hread, hinto⟩ := h
  exact ⟨s, reply, s', transport, rest ++ more, hgreets, List.append_assoc .., hread, hinto⟩

/-- At every place, one thing was said, and a successful handshake is complete. -/
theorem Inv.spoken (h : x.Inv snow setup) : Spoken snow setup x.sent ∧
    (x.handshakeSucceeded = true → Shaken snow setup x.received x.sent) := by
  obtain ⟨phase, received, sent, succeeded⟩ := x
  cases phase with
  | localNodelay | localKeepalive | connecting | remoteNodelay | remoteKeepalive | tls =>
    obtain ⟨-, rfl, rfl⟩ := h
    exact ⟨.inl List.nil_prefix, nofun⟩
  | preface rest =>
    obtain ⟨-, hpreface, rfl, -⟩ := h
    exact ⟨.inl ⟨rest, hpreface⟩, nofun⟩
  | first handshake rest =>
    obtain ⟨-, hgreets, rfl⟩ := h
    exact ⟨.inr ⟨handshake, _, hgreets, rest, rfl⟩, nofun⟩
  | flush handshake | reply handshake =>
    obtain ⟨-, hgreets, rfl⟩ := h
    exact ⟨.inr ⟨handshake, _, hgreets, List.prefix_rfl⟩, nofun⟩
  | relaying =>
    obtain ⟨s, reply, s', transport, more, hgreets, -⟩ := id h
    exact ⟨.inr ⟨_, _, hgreets, List.prefix_rfl⟩, fun _ => h⟩
  | ended => exact h

theorem Inv.fail (h : x.Inv snow setup) (e : ClientSessionError) : (x.fail e).Inv snow setup :=
  h.spoken

/-! ### Moves -/

/-- The session has not touched the remote stream. -/
def Quiet : ClientPhase HS Key → Prop
  | .localNodelay | .localKeepalive | .connecting | .remoteNodelay | .remoteKeepalive | .tls => True
  | _ => False

/-- All that an event can do to a session. -/
inductive Move (snow : Snow HS Key) (setup : ClientSetup) (x : ClientSession HS Key) :
    ClientSession HS Key → Prop
  | fail (e : ClientSessionError) : Move snow setup x (x.fail e)
  | quiet {phase : ClientPhase HS Key} : Quiet x.phase → Quiet phase →
      Move snow setup x (x.goto phase)
  | runNoise : Quiet x.phase → Move snow setup x (x.runNoise setup)
  | writePreface {rest : Bytes} {n : ℕ} : x.phase = .preface rest → Move snow setup x
      { x with phase := .preface (rest.drop n), sent := x.sent ++ rest.take n }
  | preface {rest : Bytes} {n : ℕ} : x.phase = .preface rest → rest.drop n = [] →
      Move snow setup x (afterPreface snow setup { x with sent := x.sent ++ rest.take n })
  | writeFirst {handshake : ClientHandshake HS} {rest : Bytes} {n : ℕ} :
      x.phase = .first handshake rest → Move snow setup x { x with
        phase := if (rest.drop n).isEmpty then .flush handshake else .first handshake (rest.drop n)
        sent := x.sent ++ rest.take n }
  | flush {handshake : ClientHandshake HS} : x.phase = .flush handshake →
      Move snow setup x (x.goto (.reply handshake []))
  | readReply {handshake : ClientHandshake HS} {got piece : Bytes} :
      x.phase = .reply handshake got → Move snow setup x
        { x with phase := .reply handshake (got ++ piece), received := x.received ++ piece }
  /-- The header announces more than a handshake message may have. -/
  | refuseReply {handshake : ClientHandshake HS} {got piece : Bytes} :
      x.phase = .reply handshake got → Move snow setup x
        (fail { x with received := x.received ++ piece } (.replyRead .oversized))
  | reply {handshake : ClientHandshake HS} {got piece : Bytes} :
      x.phase = .reply handshake got → Move snow setup x
        (afterReply snow { x with received := x.received ++ piece } handshake (got ++ piece))
  | relayRead {transport : TransportState Key} {piece : Bytes} : x.phase = .relaying transport →
      Move snow setup x { x with received := x.received ++ piece }
  | relayWrite : Move snow setup x x
  | relayEnd {transport : TransportState Key} {result : Except RelayError Unit} :
      x.phase = .relaying transport →
      Move snow setup x (x.goto (.ended (result.mapError .relay)))

theorem afterKeepalive_move (hphase : x.phase = .remoteKeepalive) :
    x.Move snow setup (x.afterKeepalive setup) := by
  have hquiet : Quiet x.phase := hphase ▸ trivial
  rw [afterKeepalive]
  split
  · split
    · exact .fail _
    · exact .quiet hquiet trivial
  · exact .runNoise hquiet

theorem step_move (h : x.step snow setup e = some x') : x.Move snow setup x' := by
  rw [step.eq_def] at h
  split at h
  any_goals
    -- What a session awaits fails, times out, or is overtaken by the shutdown.
    obtain rfl := Option.some.inj h
    exact .fail _
  iterate 4
    · rename_i hphase
      exact Option.some.inj h ▸ .quiet (hphase ▸ trivial) trivial
  · rename_i hphase
    exact Option.some.inj h ▸ afterKeepalive_move hphase
  · rename_i hphase
    exact Option.some.inj h ▸ .runNoise (hphase ▸ trivial)
  · rename_i rest n hphase
    split at h
    · dsimp only at h
      split at h
      · rename_i hrest
        exact Option.some.inj h ▸ .preface hphase (List.isEmpty_iff.1 hrest)
      · exact Option.some.inj h ▸ .writePreface hphase
    · cases h
  · rename_i handshake rest n hphase
    obtain ⟨-, rfl⟩ := Option.ite_some_none_eq_some.1 h
    exact .writeFirst hphase
  · rename_i handshake hphase
    exact Option.some.inj h ▸ .flush hphase
  · rename_i handshake got piece hphase
    split at h
    · exact Option.some.inj h ▸ .fail _
    split at h
    · dsimp only at h
      split at h
      · exact Option.some.inj h ▸ .readReply hphase
      · exact Option.some.inj h ▸ .refuseReply hphase
      · exact Option.some.inj h ▸ .reply hphase
    · cases h
  · rename_i transport piece hphase
    exact Option.some.inj h ▸ .relayRead hphase
  · exact Option.some.inj h ▸ .relayWrite
  · rename_i transport result hphase
    exact Option.some.inj h ▸ .relayEnd hphase
  · cases h

/-! ### Over whole runs -/

theorem Inv.quiet (h : x.Inv snow setup) (hquiet : Quiet x.phase) :
    x.received = [] ∧ x.sent = [] ∧ x.handshakeSucceeded = false := by
  obtain ⟨phase, received, sent, succeeded⟩ := x
  cases phase with
  | localNodelay | localKeepalive | connecting | remoteNodelay | remoteKeepalive | tls => exact h
  | _ => exact absurd hquiet not_false

theorem inv_quiet {phase : ClientPhase HS Key} (hreceived : x.received = []) (hsent : x.sent = [])
    (hfailed : x.handshakeSucceeded = false) (hquiet : Quiet phase) :
    (x.goto phase).Inv snow setup := by
  cases phase with
  | localNodelay | localKeepalive | connecting | remoteNodelay | remoteKeepalive | tls =>
    exact ⟨hreceived, hsent, hfailed⟩
  | _ => exact absurd hquiet not_false

theorem inv_runNoise (hreceived : x.received = []) (hsent : x.sent = [])
    (hfailed : x.handshakeSucceeded = false) : (x.runNoise setup).Inv snow setup := by
  have hended : Spoken snow setup x.sent ∧
      (x.handshakeSucceeded = true → Shaken snow setup x.received x.sent) := by
    rw [hsent, hfailed]
    exact ⟨.inl List.nil_prefix, nofun⟩
  rw [runNoise]
  split
  · exact hended
  rename_i clientPrivate hprivate
  split
  · exact hended
  rename_i pinnedServer hserver
  exact ⟨hreceived, by rw [goto, hsent]; rfl, hfailed, clientPrivate, pinnedServer, hprivate,
    hserver⟩

/-- After the preface, the first message to the pinned server is to be written. -/
theorem inv_afterPreface {clientPrivate pinnedServer : StaticKey} (hreceived : x.received = [])
    (hsent : x.sent = prefaceBytes) (hfailed : x.handshakeSucceeded = false)
    (hprivate : setup.privateKey = .ok clientPrivate)
    (hserver : setup.serverKey = .ok pinnedServer) :
    (x.afterPreface snow setup).Inv snow setup := by
  have hended : Spoken snow setup x.sent ∧
      (x.handshakeSucceeded = true → Shaken snow setup x.received x.sent) := by
    rw [hsent, hfailed]
    exact ⟨.inl List.prefix_rfl, nofun⟩
  simp only [afterPreface, hprivate, hserver]
  split
  · exact hended
  rename_i handshake hnew
  obtain ⟨s, hbuild, rfl⟩ := ClientHandshake.new_ok hnew
  split
  · exact hended
  rename_i frame handshake' hfirst
  simp only [ClientHandshake.firstMessage, Prod.mk.injEq] at hfirst
  obtain ⟨hframe, rfl⟩ := hfirst
  obtain ⟨s₀, message, s', hs₀, hwrite, rfl, hflag, hstate⟩ := writeOnce_ok (Prod.ext hframe rfl)
  cases hs₀
  exact ⟨hreceived, ⟨clientPrivate, pinnedServer, s, message, s', hprivate, hserver, hbuild, hwrite,
    by rw [hflag, hstate], by rw [goto, hsent]⟩, hfailed⟩

/-- A reply that `snow` reads completes the handshake. -/
theorem inv_afterReply {handshake : ClientHandshake HS} {reply : Bytes}
    (hreceived : x.received = reply) (hgreets : Greets snow setup handshake x.sent)
    (hfailed : x.handshakeSucceeded = false) :
    (x.afterReply snow handshake reply).Inv snow setup := by
  rw [afterReply]
  split
  · refine ⟨.inr ⟨handshake, _, hgreets, List.prefix_rfl⟩, fun hsucceeded => ?_⟩
    exact Bool.noConfusion (hfailed.symm.trans hsucceeded)
  rename_i transport handshake' hfinish
  obtain ⟨message, s, s', hframe, hstate, hread, hinto⟩ := ClientHandshake.finish_ok hfinish
  have hwhole : x.received = handshakeFrame message ++ [] := by
    rw [List.append_nil, hreceived, hframe]
  obtain ⟨clientPrivate, pinnedServer, s₀, first, s₁, hprivate, hserver, hbuild, hwrite, rfl,
    hsent⟩ := hgreets
  cases hstate
  exact ⟨s, message, s', transport, [], ⟨clientPrivate, pinnedServer, s₀, first, s, hprivate,
    hserver, hbuild, hwrite, rfl, hsent⟩, hwhole, hread, hinto⟩

/-- What is sent and what is still to be sent stay the same together. -/
theorem Inv.move (h : x.Inv snow setup) (hmove : x.Move snow setup x') : x'.Inv snow setup := by
  have hplace : At snow setup x.received x.sent x.handshakeSucceeded x.phase := h
  cases hmove with
  | fail e => exact h.fail e
  | quiet hquiet hquiet' =>
    obtain ⟨hreceived, hsent, hfailed⟩ := h.quiet hquiet
    exact inv_quiet hreceived hsent hfailed hquiet'
  | runNoise hquiet =>
    obtain ⟨hreceived, hsent, hfailed⟩ := h.quiet hquiet
    exact inv_runNoise hreceived hsent hfailed
  | @writePreface rest n hphase =>
    rw [hphase] at hplace
    obtain ⟨hreceived, hpreface, hfailed, hkeys⟩ := hplace
    refine ⟨hreceived, ?_, hfailed, hkeys⟩
    rw [List.append_assoc, List.take_append_drop, hpreface]
  | @preface rest n hphase hrest =>
    rw [hphase] at hplace
    obtain ⟨hreceived, hpreface, hfailed, clientPrivate, pinnedServer, hprivate, hserver⟩ := hplace
    refine inv_afterPreface hreceived ?_ hfailed hprivate hserver
    rw [← hpreface, List.take_of_length_le (List.drop_eq_nil_iff.1 hrest)]
  | @writeFirst handshake rest n hphase =>
    rw [hphase] at hplace
    obtain ⟨hreceived, hgreets, hfailed⟩ := hplace
    -- A piece of the first message moves from what is left to what was sent.
    rw [← List.take_append_drop n rest, ← List.append_assoc] at hgreets
    by_cases hrest : (rest.drop n).isEmpty
    · rw [List.isEmpty_iff.1 hrest, List.append_nil] at hgreets
      simp only [Inv, hrest, if_true]
      exact ⟨hreceived, hgreets, hfailed⟩
    · simp only [Inv, hrest]
      exact ⟨hreceived, hgreets, hfailed⟩
  | flush hphase =>
    rw [hphase] at hplace
    exact hplace
  | readReply hphase =>
    rw [hphase] at hplace
    obtain ⟨hreceived, hgreets, hfailed⟩ := hplace
    exact ⟨by rw [hreceived], hgreets, hfailed⟩
  | refuseReply hphase =>
    rw [hphase] at hplace
    obtain ⟨-, hgreets, hfailed⟩ := hplace
    refine ⟨.inr ⟨_, _, hgreets, List.prefix_rfl⟩, fun hsucceeded => ?_⟩
    exact Bool.noConfusion (hfailed.symm.trans hsucceeded)
  | reply hphase =>
    rw [hphase] at hplace
    obtain ⟨hreceived, hgreets, hfailed⟩ := hplace
    exact inv_afterReply (by rw [hreceived]) hgreets hfailed
  | relayRead hphase =>
    rw [hphase] at hplace
    simp only [Inv, hphase]
    exact hplace.append _
  | relayWrite => exact h
  | relayEnd hphase => exact h.spoken

theorem inv_of_reachable (h : (clientSession snow setup).Reachable EventSystem.always x) :
    x.Inv snow setup := by
  refine h.invariant ?_ fun _ hinv _ hs => hinv.move (step_move hs)
  rintro s rfl
  exact inv_initial

/-- A session that relays, or whose handshake counts as successful, has sent its first
    message to the pinned server, and `snow` has read the reply to it. -/
theorem shaken_of_reachable (h : (clientSession snow setup).Reachable EventSystem.always x)
    (hshaken : (∃ transport, x.phase = .relaying transport) ∨ x.handshakeSucceeded = true) :
    Shaken snow setup x.received x.sent := by
  have hinv : At snow setup x.received x.sent x.handshakeSucceeded x.phase := inv_of_reachable h
  obtain ⟨transport, hphase⟩ | hsucceeded := hshaken
  · rw [hphase] at hinv
    exact hinv
  · exact (inv_of_reachable h).spoken.2 hsucceeded

end ClientSession

end SecureTunnel
