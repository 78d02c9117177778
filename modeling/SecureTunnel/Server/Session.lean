import SecureTunnel.Core.Handshake
import SecureTunnel.General.Transition
import SecureTunnel.Relay.Reader
import SecureTunnel.Relay.Tunnel

/-!
# A server session

`handle_outer` and `run_noise`: what the server does with an accepted connection,
one awaited operation after the other, until the session ends. Which operation
completes, and how, is carried by the events: every cut of the stream into reads,
every timeout, end of stream, error of the operating system and shutdown.

`snow` reads and writes as an oracle on identities and messages. The relay is
represented by what it can do to the outer stream; `SecureTunnel.Relay` is about
what it does.

* `SessionError`: the errors of a session, one constructor for each place that
  raises them, with the chain of texts of each.
* `ServerSession.Inv`: what has been read and done, at each place of a session.
* `unauthenticated_reach_nothing`: without an authenticated first message, a
  session writes nothing and connects to nothing.
-/

namespace SecureTunnel

/-! ## Errors -/

/-- `tokio::time::error::Elapsed` -/
def elapsed : Text := "deadline has elapsed".toList

/-- The errors of a session, by the place that raises them. -/
inductive SessionError
  | shutdownRequested
  /-- `set_nodelay`, on either socket. -/
  | nodelay (display : Text)
  /-- `enable_tcp_keepalive`, on either socket. -/
  | keepalive (display : Text)
  | tlsTimeout
  | tls (display : Text)
  | privateKey (path : Text) (cause : List Text)
  | publicKey (cause : List Text)
  | prefaceTimeout
  | prefaceRead (e : StreamError)
  /-- `new_with_static_identities` -/
  | construct (e : TunnelError)
  | acceptPreface (e : TunnelError)
  | firstTimeout
  | firstRead (e : StreamError)
  | receiveClient (e : TunnelError)
  | message (e : TunnelError)
  | replyWrite (display : Text)
  | intoSession (e : TunnelError)
  | connectTimeout
  | connect (display : Text)
  | relay (e : RelayError)
  deriving DecidableEq, Repr

/-- The chain of an error: its contexts, outermost first, and its sources. -/
def SessionError.chain : SessionError → List Text
  | shutdownRequested => ["shutdown requested".toList]
  | nodelay display => [display]
  | keepalive display => ["could not enable TCP keepalive".toList, display]
  | tlsTimeout => ["outer TLS handshake timed out".toList, elapsed]
  | tls display => [display]
  | privateKey path cause => ("could not read server private key ".toList ++ path) :: cause
  | publicKey cause => cause
  | prefaceTimeout => ["preface timeout".toList, elapsed]
  | prefaceRead e => [e.display]
  | construct e => e.chain
  | acceptPreface e => e.chain
  | firstTimeout => ["Noise handshake timeout".toList, elapsed]
  | firstRead e => [e.display]
  | receiveClient e => "Noise handshake failed".toList :: e.chain
  | message e => e.chain
  | replyWrite display => [display]
  | intoSession e => e.chain
  | connectTimeout => ["destination connect timeout".toList, elapsed]
  | connect display => [display]
  | relay e => e.chain

/-! ## State -/

/-- What a session is configured with. The keys come from files and texts, which
    can fail to be read. -/
structure Setup (Addr : Type*) where
  outerTls : Bool
  /-- `read_server_private_keys`: an error has the path of a file, and its cause. -/
  privateKeys : Except (Text × List Text) (List StaticKey)
  /-- `decode_public_key` of the authorised clients. -/
  clients : Except (List Text) (List StaticKey)
  destination : Addr

/-- What a session does to its surroundings. -/
inductive Effect (Addr : Type*)
  /-- A piece of the responder frame is written to the outer stream. -/
  | reply (piece : Bytes)
  | connect (address : Addr)
  /-- The relay writes to the outer stream. -/
  | relay (bytes : Bytes)
  deriving DecidableEq

/-- The places of a session: what it awaits. -/
inductive SessionPhase (HS Key : Type*)
  | nodelay
  | keepalive
  | tls
  | preface (got : Bytes)
  | first (handshake : ServerHandshake) (got : Bytes)
  | reply (reply : ServerReply HS) (rest : Bytes)
  | flush (reply : ServerReply HS)
  | connecting (transport : TransportState Key)
  | destinationNodelay (transport : TransportState Key)
  | destinationKeepalive (transport : TransportState Key)
  | relaying (transport : TransportState Key)
  /-- A panic unwinds the task of the session. -/
  | panicked
  | ended (result : Except SessionError Unit)

structure ServerSession (Addr HS Key : Type*) where
  phase : SessionPhase HS Key
  /-- All that was read from the outer stream. -/
  received : Bytes
  effects : List (Effect Addr)
  handshakeSucceeded : Bool

/-- How what a session awaits completes. -/
inductive SessionEvent
  | proceed
  /-- An error of the operating system, or of the outer TLS. -/
  | fail (display : Text)
  | timeout
  | shutdown
  /-- A read; an empty one is the end of the stream. -/
  | read (piece : Bytes)
  | write (n : ℕ)
  | relayRead (piece : Bytes)
  | relayWrite (bytes : Bytes)
  | relayEnd (result : Except RelayError Unit)
  deriving DecidableEq

/-- What a session awaits in its relay. -/
def SessionEvent.ofRelay : SessionEvent → Bool
  | relayRead _ | relayWrite _ | relayEnd _ => true
  | _ => false

namespace SessionPhase

variable {HS Key : Type*}

def isRelaying : SessionPhase HS Key → Bool
  | relaying _ => true
  | _ => false

def isOver : SessionPhase HS Key → Bool
  | panicked | ended _ => true
  | _ => false

end SessionPhase

namespace ServerSession

variable {Addr HS Key : Type*}

def initial : ServerSession Addr HS Key := ⟨.nodelay, [], [], false⟩

def goto (x : ServerSession Addr HS Key) (phase : SessionPhase HS Key) :
    ServerSession Addr HS Key :=
  { x with phase }

def fail (x : ServerSession Addr HS Key) (e : SessionError) : ServerSession Addr HS Key :=
  x.goto (.ended (.error e))

/-- `run_noise`, up to its first read. -/
def runNoise (setup : Setup Addr) (x : ServerSession Addr HS Key) : ServerSession Addr HS Key :=
  match setup.privateKeys with
  | .error (path, cause) => x.fail (.privateKey path cause)
  | .ok _ =>
    match setup.clients with
    | .error cause => x.fail (.publicKey cause)
    | .ok _ => x.goto (.preface [])

/-- The preface is read. -/
def afterPreface (setup : Setup Addr) (x : ServerSession Addr HS Key) (preface : Bytes) :
    ServerSession Addr HS Key :=
  match setup.privateKeys, setup.clients with
  | .ok privateKeys, .ok clients =>
    match ServerHandshake.newWithStaticIdentities privateKeys clients with
    | .error e => x.fail (.construct e)
    | .ok handshake =>
      match handshake.acceptPreface preface with
      | (.error e, _) => x.fail (.acceptPreface e)
      | (.ok _, handshake) => x.goto (.first handshake [])
  | _, _ => x

/-- The first handshake frame is read. -/
def afterFirst (snow : Snow HS Key) (x : ServerSession Addr HS Key) (handshake : ServerHandshake)
    (first : Bytes) : ServerSession Addr HS Key :=
  match (handshake.receiveClient (fun _ => snow) first).result with
  | .error .panic => x.goto .panicked
  | .error (.error e) => x.fail (.receiveClient e)
  | .ok reply =>
    match reply.message snow with
    | (.error e, _) => x.fail (.message e)
    | (.ok frame, reply) => x.goto (.reply reply frame)

/-- The responder frame is flushed. -/
def afterFlush (snow : Snow HS Key) (setup : Setup Addr) (x : ServerSession Addr HS Key)
    (reply : ServerReply HS) : ServerSession Addr HS Key :=
  match reply.intoSession snow with
  | .error e => x.fail (.intoSession e)
  | .ok transport =>
    { x with
      phase := .connecting transport
      effects := x.effects ++ [.connect setup.destination]
      handshakeSucceeded := true }

def step (snow : Snow HS Key) (setup : Setup Addr) (x : ServerSession Addr HS Key)
    (e : SessionEvent) : Option (ServerSession Addr HS Key) :=
  match x.phase, e with
  -- `handle_outer`
  | .nodelay, .shutdown => some (x.fail .shutdownRequested)
  | .nodelay, .fail display => some (x.fail (.nodelay display))
  | .nodelay, .proceed => some (x.goto .keepalive)
  | .keepalive, .fail display => some (x.fail (.keepalive display))
  | .keepalive, .proceed => some (if setup.outerTls then x.goto .tls else x.runNoise setup)
  | .tls, .timeout => some (x.fail .tlsTimeout)
  | .tls, .shutdown => some (x.fail .shutdownRequested)
  | .tls, .fail display => some (x.fail (.tls display))
  | .tls, .proceed => some (x.runNoise setup)
  -- `run_noise`
  | .preface _, .timeout => some (x.fail .prefaceTimeout)
  | .preface _, .shutdown => some (x.fail .shutdownRequested)
  | .preface _, .fail display => some (x.fail (.prefaceRead (.io display)))
  | .preface got, .read piece =>
    if piece.isEmpty then some (x.fail (.prefaceRead .eof))
    else if (got ++ piece).length ≤ prefaceBytes.length then
      let x := { x with received := x.received ++ piece }
      if (got ++ piece).length < prefaceBytes.length then some (x.goto (.preface (got ++ piece)))
      else some (x.afterPreface setup (got ++ piece))
    else none
  | .first .., .timeout => some (x.fail .firstTimeout)
  | .first .., .shutdown => some (x.fail .shutdownRequested)
  | .first .., .fail display => some (x.fail (.firstRead (.io display)))
  | .first handshake got, .read piece =>
    if piece.isEmpty then some (x.fail (.firstRead .eof))
    else if piece.length ≤ handshakeFormat.room got then
      let x := { x with received := x.received ++ piece }
      match handshakeFormat.progress (got ++ piece) with
      | .more => some (x.goto (.first handshake (got ++ piece)))
      | .refused => some (x.fail (.firstRead .oversized))
      | .whole => some (x.afterFirst snow handshake (got ++ piece))
    else none
  | .reply .., .fail display => some (x.fail (.replyWrite display))
  | .reply reply rest, .write n =>
    if 0 < n ∧ n ≤ rest.length then
      some { x with
        phase := if (rest.drop n).isEmpty then .flush reply else .reply reply (rest.drop n)
        effects := x.effects ++ [.reply (rest.take n)] }
    else none
  | .flush _, .fail display => some (x.fail (.replyWrite display))
  | .flush reply, .proceed => some (x.afterFlush snow setup reply)
  | .connecting _, .timeout => some (x.fail .connectTimeout)
  | .connecting _, .shutdown => some (x.fail .shutdownRequested)
  | .connecting _, .fail display => some (x.fail (.connect display))
  | .connecting transport, .proceed => some (x.goto (.destinationNodelay transport))
  | .destinationNodelay _, .fail display => some (x.fail (.nodelay display))
  | .destinationNodelay transport, .proceed => some (x.goto (.destinationKeepalive transport))
  | .destinationKeepalive _, .fail display => some (x.fail (.keepalive display))
  | .destinationKeepalive transport, .proceed => some (x.goto (.relaying transport))
  | .relaying _, .relayRead piece => some { x with received := x.received ++ piece }
  | .relaying _, .relayWrite bytes => some { x with effects := x.effects ++ [.relay bytes] }
  | .relaying _, .relayEnd result => some (x.goto (.ended (result.mapError .relay)))
  | _, _ => none

end ServerSession

/-- A session of the server. -/
def serverSession {Addr HS Key : Type*} (snow : Snow HS Key) (setup : Setup Addr) :
    EventSystem (ServerSession Addr HS Key) SessionEvent where
  init x := x = .initial
  step := ServerSession.step snow setup

/-! ## What a session has done -/

namespace ServerSession

variable {Addr HS Key : Type*} {snow : Snow HS Key} {setup : Setup Addr}
  {x x' : ServerSession Addr HS Key} {e : SessionEvent}

/-- The bytes are the preface, and the frame of a message that `snow` accepts under
    one of the configured identities from an authorised client, and more. -/
def Authenticated (snow : Snow HS Key) (setup : Setup Addr) (received : Bytes) : Prop :=
  ∃ message rest privateKeys clients,
    received = prefaceBytes ++ handshakeFrame message ++ rest ∧
    message.length ≤ maxHandshakeMessage ∧
    setup.privateKeys = .ok privateKeys ∧ setup.clients = .ok clients ∧
    ∃ identity ∈ privateKeys, ∃ remote ∈ clients, snow.Accepts identity message remote.1

theorem Authenticated.append {received : Bytes} (h : Authenticated snow setup received)
    (more : Bytes) : Authenticated snow setup (received ++ more) := by
  obtain ⟨message, rest, privateKeys, clients, rfl, haccepted⟩ := h
  exact ⟨message, rest ++ more, privateKeys, clients, by simp, haccepted⟩

/-- What a session does, in order: it writes pieces of one responder frame, connects
    to the destination once that is written, and then relays. -/
def Spoken (destination : Addr) (effects : List (Effect Addr)) : Prop :=
  ∃ (message : Bytes) (pieces : List Bytes) (rest : List (Effect Addr)),
    effects = pieces.map .reply ++ rest ∧
    pieces.flatten <+: handshakeFrame message ∧
    (rest = [] ∨ pieces.flatten = handshakeFrame message ∧
      ∃ relayed : List Bytes, rest = .connect destination :: relayed.map .relay)

/-- What has been read and done, at each place of a session. -/
def At (snow : Snow HS Key) (setup : Setup Addr) (received : Bytes)
    (effects : List (Effect Addr)) : SessionPhase HS Key → Prop
  | .nodelay | .keepalive | .tls => received = [] ∧ effects = []
  | .preface got => received = got ∧ effects = [] ∧
    ∃ privateKeys clients, setup.privateKeys = .ok privateKeys ∧ setup.clients = .ok clients
  | .first handshake got => received = prefaceBytes ++ got ∧ effects = [] ∧
    ∃ privateKeys clients, setup.privateKeys = .ok privateKeys ∧ setup.clients = .ok clients ∧
      (handshake.staticIdentities.map (·.1)) = some privateKeys ∧ handshake.allowList = clients
  | .reply _ rest => Authenticated snow setup received ∧
    ∃ (message : Bytes) (pieces : List Bytes), effects = pieces.map .reply ∧
      pieces.flatten ++ rest = handshakeFrame message
  | .flush _ => Authenticated snow setup received ∧
    ∃ (message : Bytes) (pieces : List Bytes), effects = pieces.map .reply ∧
      pieces.flatten = handshakeFrame message
  | .connecting _ | .destinationNodelay _ | .destinationKeepalive _ | .relaying _ =>
    Authenticated snow setup received ∧
    ∃ (message : Bytes) (pieces relayed : List Bytes), effects = pieces.map .reply ++
      .connect setup.destination :: relayed.map .relay ∧
      pieces.flatten = handshakeFrame message
  | .panicked | .ended _ =>
    effects = [] ∨ Authenticated snow setup received ∧ Spoken setup.destination effects

def Inv (snow : Snow HS Key) (setup : Setup Addr) (x : ServerSession Addr HS Key) : Prop :=
  At snow setup x.received x.effects x.phase

/-- At every place, nothing was done, or an authenticated message has been read. -/
theorem Inv.spoken (h : x.Inv snow setup) : x.effects = [] ∨
    Authenticated snow setup x.received ∧ Spoken setup.destination x.effects := by
  obtain ⟨phase, received, effects, succeeded⟩ := x
  cases phase with
  | nodelay | keepalive | tls => exact .inl h.2
  | preface | first => exact .inl h.2.1
  | reply reply rest =>
    obtain ⟨hauth, message, pieces, rfl, hframe⟩ := h
    exact .inr ⟨hauth, message, pieces, [], (List.append_nil _).symm, ⟨rest, hframe⟩, .inl rfl⟩
  | flush =>
    obtain ⟨hauth, message, pieces, rfl, hframe⟩ := h
    exact .inr ⟨hauth, message, pieces, [], (List.append_nil _).symm, ⟨[], by simp [hframe]⟩,
      .inl rfl⟩
  | connecting | destinationNodelay | destinationKeepalive | relaying =>
    obtain ⟨hauth, message, pieces, relayed, rfl, hframe⟩ := h
    exact .inr ⟨hauth, message, pieces, _, rfl, ⟨[], by simp [hframe]⟩,
      .inr ⟨hframe, relayed, rfl⟩⟩
  | panicked | ended => exact h

theorem inv_initial : (initial : ServerSession Addr HS Key).Inv snow setup := ⟨rfl, rfl⟩

theorem Inv.fail (h : x.Inv snow setup) (e : SessionError) : (x.fail e).Inv snow setup := h.spoken

theorem inv_runNoise (hreceived : x.received = []) (heffects : x.effects = []) :
    (x.runNoise setup).Inv snow setup := by
  rw [runNoise]
  split
  · exact .inl heffects
  rename_i privateKeys hprivateKeys
  split
  · exact .inl heffects
  rename_i clients hclients
  exact ⟨hreceived, heffects, privateKeys, clients, hprivateKeys, hclients⟩

/-- Only the preface of version 1.0 is accepted, and it changes nothing else. -/
theorem acceptPreface_ok {handshake handshake' : ServerHandshake} {preface : Bytes}
    (h : handshake.acceptPreface preface = (.ok (), handshake')) :
    preface = prefaceBytes ∧ handshake' = { handshake with prefaceAccepted := true } := by
  rw [ServerHandshake.acceptPreface] at h
  split at h
  · cases h
  split at h
  · cases h
  · rename_i p hparse
    cases h
    exact ⟨Preface.parse_eq_ok.1 hparse, rfl⟩

theorem newWithStaticIdentities_ok {privateKeys clients : List StaticKey}
    {handshake : ServerHandshake}
    (h : ServerHandshake.newWithStaticIdentities privateKeys clients = .ok handshake) :
    (handshake.staticIdentities.map (·.1)) = some privateKeys ∧ handshake.allowList = clients := by
  rw [ServerHandshake.newWithStaticIdentities] at h
  split at h
  · cases h
  split at h
  · cases h
  · cases h
    exact ⟨rfl, rfl⟩

theorem inv_afterPreface {preface : Bytes} {privateKeys clients : List StaticKey}
    (hreceived : x.received = preface) (heffects : x.effects = [])
    (hprivateKeys : setup.privateKeys = .ok privateKeys) (hclients : setup.clients = .ok clients) :
    (x.afterPreface setup preface).Inv snow setup := by
  simp only [afterPreface, hprivateKeys, hclients]
  split
  · exact .inl heffects
  rename_i handshake hnew
  split
  · exact .inl heffects
  rename_i p handshake' haccept
  obtain ⟨rfl, rfl⟩ := acceptPreface_ok haccept
  obtain ⟨hidentities, hallow⟩ := newWithStaticIdentities_ok hnew
  exact ⟨by rw [List.append_nil]; exact hreceived, heffects, privateKeys, clients,
    hprivateKeys, hclients, hidentities, hallow⟩

/-- A reply is written only to a client whose message `snow` accepts. -/
theorem inv_afterFirst {handshake : ServerHandshake} {first : Bytes}
    {privateKeys clients : List StaticKey} (hreceived : x.received = prefaceBytes ++ first)
    (heffects : x.effects = []) (hprivateKeys : setup.privateKeys = .ok privateKeys)
    (hclients : setup.clients = .ok clients)
    (hidentities : handshake.staticIdentities.map (·.1) = some privateKeys)
    (hallow : handshake.allowList = clients) :
    (x.afterFirst snow handshake first).Inv snow setup := by
  rw [afterFirst]
  split
  · exact .inl heffects
  · exact .inl heffects
  rename_i reply hreceive
  obtain ⟨message, identities, rfl, hlen, hsome, haccepts⟩ :=
    ServerHandshake.receiveClient_ok hreceive
  rw [hsome, Option.map_some, Option.some.injEq] at hidentities
  rw [hidentities, hallow] at haccepts
  split
  · exact .inl heffects
  rename_i frame reply' hmessage
  obtain ⟨response, rfl⟩ := ServerReply.message_ok hmessage
  exact ⟨⟨message, [], privateKeys, clients, by rw [List.append_nil]; exact hreceived, hlen,
    hprivateKeys, hclients, haccepts⟩, response, [], heffects, rfl⟩

theorem inv_afterFlush {reply : ServerReply HS} (hauth : Authenticated snow setup x.received)
    {message : Bytes} {pieces : List Bytes} (heffects : x.effects = pieces.map .reply)
    (hframe : pieces.flatten = handshakeFrame message) :
    (x.afterFlush snow setup reply).Inv snow setup := by
  rw [afterFlush]
  split
  · exact .inr ⟨hauth, message, pieces, [], by simpa [fail, goto] using heffects,
      ⟨[], by simp [hframe]⟩, .inl rfl⟩
  · exact ⟨hauth, message, pieces, [], by simp [heffects], hframe⟩

/-! ## Moves -/

/-- All that an event can do to a session. -/
inductive Move (snow : Snow HS Key) (setup : Setup Addr) (x : ServerSession Addr HS Key) :
    ServerSession Addr HS Key → Prop
  | fail (e : SessionError) : Move snow setup x (x.fail e)
  | keepalive : x.phase = .nodelay → Move snow setup x (x.goto .keepalive)
  | tls : x.phase = .keepalive → Move snow setup x (x.goto .tls)
  | runNoise : x.phase = .keepalive ∨ x.phase = .tls → Move snow setup x (x.runNoise setup)
  | readPreface {got piece : Bytes} : x.phase = .preface got →
      Move snow setup x { x with phase := .preface (got ++ piece), received := x.received ++ piece }
  | preface {got piece : Bytes} : x.phase = .preface got → Move snow setup x
      (afterPreface setup { x with received := x.received ++ piece } (got ++ piece))
  | readFirst {handshake : ServerHandshake} {got piece : Bytes} : x.phase = .first handshake got →
      Move snow setup x
        { x with phase := .first handshake (got ++ piece), received := x.received ++ piece }
  /-- The header announces more than a handshake message may have. -/
  | refuseFirst {handshake : ServerHandshake} {got piece : Bytes} :
      x.phase = .first handshake got → Move snow setup x
        (fail { x with received := x.received ++ piece } (.firstRead .oversized))
  | first {handshake : ServerHandshake} {got piece : Bytes} : x.phase = .first handshake got →
      Move snow setup x
        (afterFirst snow { x with received := x.received ++ piece } handshake (got ++ piece))
  | write {reply : ServerReply HS} {rest : Bytes} {n : ℕ} : x.phase = .reply reply rest →
      Move snow setup x { x with
        phase := if (rest.drop n).isEmpty then .flush reply else .reply reply (rest.drop n)
        effects := x.effects ++ [.reply (rest.take n)] }
  | flush {reply : ServerReply HS} : x.phase = .flush reply →
      Move snow setup x (x.afterFlush snow setup reply)
  | connected {transport : TransportState Key} : x.phase = .connecting transport →
      Move snow setup x (x.goto (.destinationNodelay transport))
  | destinationKeepalive {transport : TransportState Key} :
      x.phase = .destinationNodelay transport →
      Move snow setup x (x.goto (.destinationKeepalive transport))
  | relay {transport : TransportState Key} : x.phase = .destinationKeepalive transport →
      Move snow setup x (x.goto (.relaying transport))
  | relayRead {transport : TransportState Key} {piece : Bytes} : x.phase = .relaying transport →
      Move snow setup x { x with received := x.received ++ piece }
  | relayWrite {transport : TransportState Key} {bytes : Bytes} : x.phase = .relaying transport →
      Move snow setup x { x with effects := x.effects ++ [.relay bytes] }
  | relayEnd {transport : TransportState Key} {result : Except RelayError Unit} :
      x.phase = .relaying transport →
      Move snow setup x (x.goto (.ended (result.mapError .relay)))

theorem step_move (h : x.step snow setup e = some x') : x.Move snow setup x' := by
  rw [step.eq_def] at h
  split at h
  any_goals
    -- What a session awaits fails, times out, or is overtaken by the shutdown.
    obtain rfl := Option.some.inj h
    exact .fail _
  · rename_i hphase
    exact Option.some.inj h ▸ .keepalive hphase
  · rename_i hphase
    split at h
    · exact Option.some.inj h ▸ .tls hphase
    · exact Option.some.inj h ▸ .runNoise (.inl hphase)
  · rename_i hphase
    exact Option.some.inj h ▸ .runNoise (.inr hphase)
  · rename_i got piece hphase
    split at h
    · exact Option.some.inj h ▸ .fail _
    split at h
    · dsimp only at h
      split at h
      · exact Option.some.inj h ▸ .readPreface hphase
      · exact Option.some.inj h ▸ .preface hphase
    · cases h
  · rename_i handshake got piece hphase
    split at h
    · exact Option.some.inj h ▸ .fail _
    split at h
    · dsimp only at h
      split at h
      · exact Option.some.inj h ▸ .readFirst hphase
      · exact Option.some.inj h ▸ .refuseFirst hphase
      · exact Option.some.inj h ▸ .first hphase
    · cases h
  · rename_i reply rest n hphase
    obtain ⟨-, rfl⟩ := Option.ite_some_none_eq_some.1 h
    exact .write hphase
  · rename_i reply hphase
    exact Option.some.inj h ▸ .flush hphase
  · rename_i transport hphase
    exact Option.some.inj h ▸ .connected hphase
  · rename_i transport hphase
    exact Option.some.inj h ▸ .destinationKeepalive hphase
  · rename_i transport hphase
    exact Option.some.inj h ▸ .relay hphase
  · rename_i transport piece hphase
    exact Option.some.inj h ▸ .relayRead hphase
  · rename_i transport bytes hphase
    exact Option.some.inj h ▸ .relayWrite hphase
  · rename_i transport result hphase
    exact Option.some.inj h ▸ .relayEnd hphase
  · cases h

/-- Reading more does not take back what was authenticated. -/
theorem Inv.move (h : x.Inv snow setup) (hmove : x.Move snow setup x') : x'.Inv snow setup := by
  have hplace : At snow setup x.received x.effects x.phase := h
  cases hmove with
  | fail e => exact h.fail e
  | keepalive hphase | tls hphase =>
    rw [hphase] at hplace
    exact hplace
  | runNoise hphase =>
    obtain ⟨hreceived, heffects⟩ : x.received = [] ∧ x.effects = [] := by
      rcases hphase with hphase | hphase <;> simpa only [hphase, At] using hplace
    exact inv_runNoise hreceived heffects
  | readPreface hphase =>
    rw [hphase] at hplace
    obtain ⟨hreceived, heffects, hkeys⟩ := hplace
    exact ⟨by simp [hreceived], heffects, hkeys⟩
  | preface hphase =>
    rw [hphase] at hplace
    obtain ⟨hreceived, heffects, privateKeys, clients, hprivateKeys, hclients⟩ := hplace
    exact inv_afterPreface (by simp [hreceived]) heffects hprivateKeys hclients
  | readFirst hphase =>
    rw [hphase] at hplace
    obtain ⟨hreceived, heffects, hkeys⟩ := hplace
    exact ⟨by simp [hreceived], heffects, hkeys⟩
  | refuseFirst hphase =>
    rw [hphase] at hplace
    exact .inl hplace.2.1
  | first hphase =>
    rw [hphase] at hplace
    obtain ⟨hreceived, heffects, privateKeys, clients, hprivateKeys, hclients, hidentities,
      hallow⟩ := hplace
    exact inv_afterFirst (by simp [hreceived]) heffects hprivateKeys hclients hidentities hallow
  | @write reply rest n hphase =>
    rw [hphase] at hplace
    obtain ⟨hauth, message, pieces, heffects, hframe⟩ := hplace
    -- A piece of the reply moves from what is left to what was sent.
    have heffects' : x.effects ++ [.reply (rest.take n)] =
        (pieces ++ [rest.take n]).map Effect.reply := by simp [heffects]
    have hframe' : (pieces ++ [rest.take n]).flatten ++ rest.drop n = handshakeFrame message := by
      simp [← hframe]
    by_cases hrest : (rest.drop n).isEmpty
    · rw [List.isEmpty_iff.1 hrest, List.append_nil] at hframe'
      simp only [Inv, hrest, if_true]
      exact ⟨hauth, message, _, heffects', hframe'⟩
    · simp only [Inv, hrest]
      exact ⟨hauth, message, _, heffects', hframe'⟩
  | flush hphase =>
    rw [hphase] at hplace
    obtain ⟨hauth, message, pieces, heffects, hframe⟩ := hplace
    exact inv_afterFlush hauth heffects hframe
  | connected hphase | destinationKeepalive hphase | relay hphase =>
    rw [hphase] at hplace
    exact hplace
  | relayRead hphase =>
    rw [hphase] at hplace
    simp only [Inv, hphase]
    exact ⟨hplace.1.append _, hplace.2⟩
  | @relayWrite transport bytes hphase =>
    rw [hphase] at hplace
    obtain ⟨hauth, message, pieces, relayed, heffects, hframe⟩ := hplace
    simp only [Inv, hphase]
    exact ⟨hauth, message, pieces, relayed ++ [bytes], by simp [heffects], hframe⟩
  | relayEnd hphase => exact h.spoken

theorem inv_of_reachable (h : (serverSession snow setup).Reachable EventSystem.always x) :
    x.Inv snow setup := by
  refine h.invariant ?_ fun _ hinv _ hs => hinv.move (step_move hs)
  rintro s rfl
  exact inv_initial

theorem Spoken.connect {destination address : Addr} {effects : List (Effect Addr)}
    (h : Spoken destination effects) (hmem : .connect address ∈ effects) :
    address = destination := by
  obtain ⟨message, pieces, rest, rfl, -, rfl | ⟨-, relayed, rfl⟩⟩ := h
  · simp at hmem
  · simpa using hmem

/-! ## Before and after the relay -/

/-- If the session has ended, it is by an error of its own. -/
def OwnEnd (x : ServerSession Addr HS Key) : Prop :=
  ∀ result, x.phase = .ended result → ∃ e, result = .error e ∧ ∀ r, e ≠ .relay r

theorem ownEnd_fail {e : SessionError} (he : ∀ r, e ≠ .relay r) : (x.fail e).OwnEnd := by
  intro result hresult
  cases hresult
  exact ⟨e, rfl, he⟩

theorem ownEnd_of_not_over (h : x.phase.isOver = false) : x.OwnEnd := by
  intro result hresult
  rw [hresult] at h
  cases h

theorem ownEnd_runNoise : (x.runNoise setup).OwnEnd := by
  rw [runNoise]
  split
  · exact ownEnd_fail nofun
  split
  · exact ownEnd_fail nofun
  · exact ownEnd_of_not_over rfl

theorem ownEnd_afterPreface {preface : Bytes} (hover : x.phase.isOver = false) :
    (x.afterPreface setup preface).OwnEnd := by
  rw [afterPreface]
  split
  · split
    · exact ownEnd_fail nofun
    split
    · exact ownEnd_fail nofun
    · exact ownEnd_of_not_over rfl
  · exact ownEnd_of_not_over hover

theorem ownEnd_afterFirst {handshake : ServerHandshake} {first : Bytes} :
    (x.afterFirst snow handshake first).OwnEnd := by
  rw [afterFirst]
  split
  · exact nofun
  · exact ownEnd_fail nofun
  split
  · exact ownEnd_fail nofun
  · exact ownEnd_of_not_over rfl

theorem ownEnd_afterFlush {reply : ServerReply HS} : (x.afterFlush snow setup reply).OwnEnd := by
  rw [afterFlush]
  split
  · exact ownEnd_fail nofun
  · exact ownEnd_of_not_over rfl

/-- Before its relay, a session awaits nothing of the relay's, and once it is over it
    awaits nothing. -/
theorem step_phase {e : SessionEvent} (he : e.ofRelay = false)
    (h : x.step snow setup e = some x') :
    x.phase.isRelaying = false ∧ x.phase.isOver = false := by
  rw [step.eq_def] at h
  cases hphase : x.phase with
  | relaying transport =>
    rw [hphase] at h
    cases e with
    | relayRead piece | relayWrite bytes | relayEnd result => cases he
    | _ => cases h
  | panicked | ended result =>
    rw [hphase] at h
    cases h
  | _ => exact ⟨rfl, rfl⟩

/-- Before its relay, a session ends only by an error of its own. -/
theorem step_ownEnd {e : SessionEvent} (he : e.ofRelay = false)
    (h : x.step snow setup e = some x') : x'.OwnEnd := by
  obtain ⟨-, hover⟩ := step_phase he h
  rw [step.eq_def] at h
  split at h
  any_goals
    -- What a session awaits fails, times out, or is overtaken by the shutdown.
    obtain rfl := Option.some.inj h
    exact ownEnd_fail nofun
  any_goals
    -- It completes, and the session goes on.
    obtain rfl := Option.some.inj h
    exact ownEnd_of_not_over rfl
  · split at h
    · exact Option.some.inj h ▸ ownEnd_of_not_over rfl
    · exact Option.some.inj h ▸ ownEnd_runNoise
  · exact Option.some.inj h ▸ ownEnd_runNoise
  · rename_i got piece hphase
    split at h
    · exact Option.some.inj h ▸ ownEnd_fail nofun
    split at h
    · dsimp only at h
      split at h
      · exact Option.some.inj h ▸ ownEnd_of_not_over rfl
      · exact Option.some.inj h ▸ ownEnd_afterPreface hover
    · cases h
  · rename_i handshake got piece hphase
    split at h
    · exact Option.some.inj h ▸ ownEnd_fail nofun
    split at h
    · dsimp only at h
      split at h
      · exact Option.some.inj h ▸ ownEnd_of_not_over rfl
      · exact Option.some.inj h ▸ ownEnd_fail nofun
      · exact Option.some.inj h ▸ ownEnd_afterFirst
    · cases h
  · rename_i reply rest n hphase
    obtain ⟨-, rfl⟩ := Option.ite_some_none_eq_some.1 h
    refine ownEnd_of_not_over ?_
    dsimp only
    split <;> rfl
  · exact Option.some.inj h ▸ ownEnd_afterFlush
  · cases he
  · cases he
  · cases he
  · cases h

/-- The session got to its relay: it relays, or ended with what the relay returned. -/
def hasRelayed (x : ServerSession Addr HS Key) : Bool :=
  match x.phase with
  | .relaying _ | .ended (.ok _) | .ended (.error (.relay _)) => true
  | _ => false

/-- A session that got to its relay has done all that comes before it. -/
theorem relayed_of_reachable (h : (serverSession snow setup).Reachable EventSystem.always x)
    (hrelayed : x.hasRelayed = true) :
    Authenticated snow setup x.received ∧
    ∃ (message : Bytes) (pieces relayed : List Bytes), x.effects = pieces.map .reply ++
      .connect setup.destination :: relayed.map .relay ∧
      pieces.flatten = handshakeFrame message := by
  cases h with
  | init hinit =>
    subst hinit
    cases hrelayed
  | @step y _ e hy _ hstep =>
    have hinv : At snow setup x.received x.effects x.phase :=
      (inv_of_reachable hy).move (step_move hstep)
    have hbefore : At snow setup y.received y.effects y.phase := inv_of_reachable hy
    cases he : e.ofRelay with
    | false =>
      have hown := step_ownEnd he hstep
      rw [hasRelayed] at hrelayed
      split at hrelayed
      · rename_i transport hphase
        rw [hphase] at hinv
        exact hinv
      · rename_i hphase
        obtain ⟨_, herror, -⟩ := hown _ hphase
        cases herror
      · rename_i r hphase
        obtain ⟨_, herror, hne⟩ := hown _ hphase
        exact absurd (Except.error.inj herror).symm (hne r)
      · cases hrelayed
    | true =>
      -- Only a session that relays awaits its relay, which takes nothing back.
      obtain ⟨phase, received, effects, succeeded⟩ := y
      cases e with
      | relayRead | relayWrite =>
        cases phase with
        | relaying transport => cases hstep; exact hinv
        | _ => cases hstep
      | relayEnd =>
        cases phase with
        | relaying transport => cases hstep; exact hbefore
        | _ => cases hstep
      | _ => cases he

end ServerSession

/-! ## What a session does for whom -/

variable {Addr HS Key : Type*} {snow : Snow HS Key} {setup : Setup Addr}
  {x : ServerSession Addr HS Key}

/-- An unauthenticated peer reaches nothing. Whatever it sends, however that is cut
    into reads, and whenever a timeout, the end of the stream or the shutdown
    intervenes: a session has written or connected only if what its peer sends
    begins with the preface and the frame of a message that `snow` accepts under a
    configured identity, from an authorised client. It writes pieces of at most one
    responder frame, connects at most once and after that frame, and nowhere but
    to its destination. -/
theorem unauthenticated_reach_nothing
    (h : (serverSession snow setup).Reachable EventSystem.always x)
    {stream : Bytes} (hstream : x.received <+: stream) :
    (x.effects ≠ [] → ∃ message rest privateKeys clients,
      stream = [0x43, 0x44, 0x58, 0x54, 1, 0] ++ (bigEndian 2 message.length ++ message) ++ rest ∧
      message.length ≤ 4096 ∧ setup.privateKeys = .ok privateKeys ∧ setup.clients = .ok clients ∧
      ∃ identity ∈ privateKeys, ∃ remote ∈ clients, snow.Accepts identity message remote.1) ∧
    (x.effects = [] ∨ ServerSession.Spoken setup.destination x.effects) ∧
    ∀ address, .connect address ∈ x.effects → address = setup.destination := by
  have hspoken := (ServerSession.inv_of_reachable h).spoken
  refine ⟨fun hne => ?_, hspoken.imp_right And.right, fun address hmem => ?_⟩
  · obtain ⟨hauth, -⟩ := hspoken.resolve_left hne
    obtain ⟨more, rfl⟩ := hstream
    exact hauth.append more
  · have hne := List.ne_nil_of_mem hmem
    exact (hspoken.resolve_left hne).2.connect hmem

/-- A client that `snow` accepts, and that is authorised. -/
theorem unauthenticated_reach_nothing_accepted :
    let key (b : UInt8) : StaticKey := ⟨List.replicate 32 b, List.length_replicate⟩
    let snow : Snow Bytes Unit := ⟨fun _ _ => .error .decrypt, fun _ => .ok [],
      fun s => .ok (⟨[8], by decide⟩, s), fun _ message => .ok (message ++ message), some,
      fun _ => .ok (.fresh () ())⟩
    let setup : Setup ℕ := ⟨false, .ok [key 1], .ok [key 7], 9⟩
    let first : Bytes := [0, 16] ++ List.replicate 16 7
    ∃ x, (serverSession snow setup).Reachable EventSystem.always x ∧
      x.received = prefaceBytes ++ first ∧
      x.effects = [.reply [0], .reply [1, 8], .connect 9] ∧
      ∃ message rest privateKeys clients,
        prefaceBytes ++ first = [0x43, 0x44, 0x58, 0x54, 1, 0] ++
          (bigEndian 2 message.length ++ message) ++ rest ∧
        message.length ≤ 4096 ∧ setup.privateKeys = .ok privateKeys ∧
        setup.clients = .ok clients ∧
        ∃ identity ∈ privateKeys, ∃ remote ∈ clients, snow.Accepts identity message remote.1 := by
  intro key snow setup first
  let x := ((serverSession snow setup).run EventSystem.always .initial
    [.proceed, .proceed, .read (prefaceBytes.take 4), .read (prefaceBytes.drop 4),
      .read (first.take 1), .read (first.drop 1 |>.take 1), .read (first.drop 2), .write 1,
      .write 2, .proceed]).get (by decide +kernel)
  have hreach : (serverSession snow setup).Reachable EventSystem.always x :=
    EventSystem.reachable_of_run rfl (Option.some_get _).symm
  have hreceived : x.received = prefaceBytes ++ first := by decide +kernel
  have heffects : x.effects = [.reply [0], .reply [1, 8], .connect 9] := by decide +kernel
  refine ⟨x, hreach, hreceived, heffects, (unauthenticated_reach_nothing hreach ?_).1 ?_⟩
  · rw [hreceived]
  · rw [heffects]
    exact List.cons_ne_nil _ _

end SecureTunnel
