import SecureTunnel.Client.Session
import SecureTunnel.Server.Session

/-!
# The exchange of a client and a server

What the sessions of a client and of a server do with each other's bytes, where their
keys match: each at the places of its own code, and as long as what it reads begins
what the other writes.

* `Exchange`: what `snow` is taken to do for two parties whose keys match.
* `ClientSession.Honest`, `ServerSession.Honest`: what a session has read and written
  of the exchange; every event keeps them (`Honest.step`).
* `Streams`: what an event reads and writes.
-/

namespace SecureTunnel

/-! ## The exchange -/

/-- What `snow` does for a client and a server whose keys match, and that agree on the
    outer TLS: the client's first message is read under one of the server's identities,
    and not under those before it, as coming from a client that the server authorises;
    the client reads the reply. -/
structure Exchange {Addr HS Key : Type*} (dialer responder : Snow HS Key)
    (clientSetup : ClientSetup) (serverSetup : Setup Addr) where
  clientPrivate : StaticKey
  pinnedServer : StaticKey
  before : List StaticKey
  identity : StaticKey
  after : List StaticKey
  clients : List StaticKey
  client : StaticKey
  initiator : HS
  greeted : HS
  responding : HS
  heard : HS
  answered : HS
  finished : HS
  first : Filled maxHandshakeMessage
  reply : Filled maxHandshakeMessage
  clientTransport : TransportState Key
  serverTransport : TransportState Key
  privateKey : clientSetup.privateKey = .ok clientPrivate
  serverKey : clientSetup.serverKey = .ok pinnedServer
  outerTls : clientSetup.outerTls = serverSetup.outerTls
  serverName : clientSetup.outerTls = true → clientSetup.serverName = .ok ()
  privateKeys : serverSetup.privateKeys = .ok (before ++ identity :: after)
  few : (before ++ identity :: after).length ≤ maxServerStaticIdentities
  allowed : serverSetup.clients = .ok clients
  authorised : client ∈ clients
  dial : dialer.buildInitiator clientPrivate pinnedServer = .ok initiator
  greet : dialer.writeMessage initiator = .ok (first, greeted)
  others : ∀ key ∈ before, ∃ s e, responder.buildResponder key = .ok s ∧
    responder.readMessage s first.1 = .error e
  respond : responder.buildResponder identity = .ok responding
  hear : responder.readMessage responding first.1 = .ok heard
  recognise : responder.remoteStatic heard = some client.1
  answer : responder.writeMessage heard = .ok (reply, answered)
  serve : responder.intoTransport answered = .ok serverTransport
  finish : dialer.readMessage greeted reply.1 = .ok finished
  conclude : dialer.intoTransport finished = .ok clientTransport

/-- The loop over the identities passes over those that cannot read the message. -/
theorem tryIdentities_heard {HS Key : Type*} {snow : Snow HS Key} {allowList : List StaticKey}
    {message : Bytes} {before after : List StaticKey} {identity client : StaticKey}
    {responding heard : HS} (hothers : ∀ key ∈ before, ∃ s e,
      snow.buildResponder key = .ok s ∧ snow.readMessage s message = .error e)
    (hrespond : snow.buildResponder identity = .ok responding)
    (hhear : snow.readMessage responding message = .ok heard)
    (hrecognise : snow.remoteStatic heard = some client.1) (hmem : client ∈ allowList) (i : ℕ)
    (lastError : Option SnowError) :
    (tryIdentities (fun _ => snow) allowList message i (before ++ identity :: after) false
      lastError).1 = .ok ⟨some heard, false⟩ := by
  induction before generalizing i lastError with
  | nil =>
    have hallowed : (allowList.map (·.1)).contains client.1 = true :=
      List.contains_iff_mem.2 (List.mem_map_of_mem hmem)
    simp only [List.nil_append, tryIdentities, hrespond, hhear, hrecognise, client.2, ne_eq,
      not_true_eq_false, if_false, hallowed, if_true]
  | cons key before ih =>
    obtain ⟨⟨s, e, hbuild, hread⟩, hothers⟩ := List.forall_mem_cons.1 hothers
    simp only [List.cons_append, tryIdentities, hbuild, hread]
    exact ih hothers (i + 1) (some e)

theorem encodeHandshakeFrame_of_le {message : Bytes} (h : message.length ≤ maxHandshakeMessage) :
    encodeHandshakeFrame message = .ok (handshakeFrame message) := by
  have hlt : ¬2 ^ 16 ≤ message.length := by
    simp only [maxHandshakeMessage] at h
    omega
  simp [-Nat.reducePow, encodeHandshakeFrame, Nat.not_lt.2 h, hlt, handshakeFrame]

/-- A handshake frame is a frame of its format. -/
theorem isFrame_handshakeFrame (message : Filled maxHandshakeMessage) :
    handshakeFormat.IsFrame (handshakeFrame message.1) :=
  (decodeHandshakeFrame_eq_ok.1 (decodeHandshakeFrame_iff.2 ⟨rfl, message.2⟩)).1

theorem writeOnce_of_write {HS Key : Type*} {snow : Snow HS Key} {s s' : HS}
    {message : Filled maxHandshakeMessage} (h : snow.writeMessage s = .ok (message, s')) :
    writeOnce snow false (some s) = (.ok (handshakeFrame message.1), true, some s') := by
  simp [writeOnce, h, encodeHandshakeFrame_of_le message.2]

namespace Exchange

variable {Addr HS Key : Type*} {dialer responder : Snow HS Key} {clientSetup : ClientSetup}
  {serverSetup : Setup Addr} (X : Exchange dialer responder clientSetup serverSetup)

/-- What the client writes before its relay. -/
def greeting : Bytes := prefaceBytes ++ handshakeFrame X.first.1

/-- What the server writes before its relay. -/
def response : Bytes := handshakeFrame X.reply.1

/-- The client's handshake object, once its first message is written. -/
def dialing : ClientHandshake HS := ⟨some X.greeted, true⟩

/-- The server's handshake object, once the preface is accepted. -/
def listening : ServerHandshake where
  staticIdentities := some ⟨X.before ++ X.identity :: X.after, by simp, X.few⟩
  allowList := X.clients
  prefaceAccepted := true

/-- The server's reply object, once its message is written. -/
def replying : ServerReply HS := ⟨some X.answered, true⟩

/-! ### The calls of the sessions -/

include X in
theorem runNoise_client (x : ClientSession HS Key) :
    x.runNoise clientSetup = x.goto (.preface prefaceBytes) := by
  simp only [ClientSession.runNoise, X.privateKey, X.serverKey]

theorem afterPreface_client (x : ClientSession HS Key) :
    x.afterPreface dialer clientSetup = x.goto (.first X.dialing (handshakeFrame X.first.1)) := by
  simp only [ClientSession.afterPreface, X.privateKey, X.serverKey, ClientHandshake.new, X.dial,
    ClientHandshake.firstMessage, writeOnce_of_write X.greet]
  rfl

theorem afterReply_client (x : ClientSession HS Key) :
    x.afterReply dialer X.dialing X.response =
      { x with phase := .relaying X.clientTransport, handshakeSucceeded := true } := by
  have hdecode : decodeHandshakeFrame X.response = .ok X.reply.1 :=
    decodeHandshakeFrame_iff.2 ⟨rfl, X.reply.2⟩
  simp [ClientSession.afterReply, ClientHandshake.finish, dialing, hdecode, X.finish, X.conclude]

include X in
theorem runNoise_server (x : ServerSession Addr HS Key) :
    x.runNoise serverSetup = x.goto (.preface []) := by
  simp only [ServerSession.runNoise, X.privateKeys, X.allowed]

theorem afterPreface_server (x : ServerSession Addr HS Key) :
    x.afterPreface serverSetup prefaceBytes = x.goto (.first X.listening []) := by
  have hparse : Preface.parse prefaceBytes = .ok .v1 := Preface.parse_eq_ok.2 rfl
  simp only [ServerSession.afterPreface, X.privateKeys, X.allowed,
    ServerHandshake.newWithStaticIdentities]
  rw [dif_neg (by simp), dif_neg (Nat.not_lt.2 X.few)]
  simp only [ServerHandshake.acceptPreface, hparse]
  rfl

theorem afterFirst_server (x : ServerSession Addr HS Key) :
    x.afterFirst responder X.listening (handshakeFrame X.first.1) =
      x.goto (.reply X.replying X.response) := by
  have hdecode : decodeHandshakeFrame (handshakeFrame X.first.1) = .ok X.first.1 :=
    decodeHandshakeFrame_iff.2 ⟨rfl, X.first.2⟩
  have hheard : (tryIdentities (fun _ => responder) X.clients X.first.1 0
      (X.before ++ X.identity :: X.after) false none).1 = .ok ⟨some X.heard, false⟩ :=
    tryIdentities_heard X.others X.respond X.hear X.recognise X.authorised 0 none
  simp only [ServerSession.afterFirst, ServerHandshake.receiveClient, listening, Bool.not_true,
    Bool.false_eq_true, if_false, hdecode, hheard, ServerReply.message,
    writeOnce_of_write X.answer]
  rfl

theorem afterFlush_server (x : ServerSession Addr HS Key) :
    x.afterFlush responder serverSetup X.replying =
      { x with
        phase := .connecting X.serverTransport
        effects := x.effects ++ [.connect serverSetup.destination]
        handshakeSucceeded := true } := by
  simp [ServerSession.afterFlush, ServerReply.intoSession, replying, X.serve]

end Exchange

/-! ## What is no fault of the surroundings -/

/-- The errors of a session that come of its configuration, or of what its peer has
    written. -/
def ClientSessionError.fault : ClientSessionError → Bool
  | serverName _ | privateKey _ | publicKey _ | construct _ | firstMessage _ | finish _ => true
  | replyRead (.invalidLength _) | replyRead .oversized => true
  | _ => false

def SessionError.fault : SessionError → Bool
  | privateKey .. | publicKey _ | construct _ | acceptPreface _ | receiveClient _ | message _
  | intoSession _ => true
  | prefaceRead (.invalidLength _) | prefaceRead .oversized => true
  | firstRead (.invalidLength _) | firstRead .oversized => true
  | _ => false

/-! ## What an event reads and writes -/

namespace SessionEvent

def reads : SessionEvent → Bool
  | read _ | relayRead _ => true
  | _ => false

/-- What an event has read. -/
def piece : SessionEvent → Bytes
  | read piece | relayRead piece => piece
  | _ => []

/-- What the relay writes in an event. -/
def relayed : SessionEvent → Bytes
  | relayWrite bytes => bytes
  | _ => []

theorem piece_of_not_reads {e : SessionEvent} (h : e.reads = false) : e.piece = [] := by
  cases e with
  | read | relayRead => cases h
  | _ => rfl

end SessionEvent

/-! ## The client's side -/

namespace ClientSession

variable {Addr HS Key : Type*} {dialer responder : Snow HS Key} {clientSetup : ClientSetup}
  {serverSetup : Setup Addr} {X : Exchange dialer responder clientSetup serverSetup}
  {x x' : ClientSession HS Key} {e : SessionEvent}

/-- What the client has written and read of the exchange, at each place of its session. -/
def Honest (X : Exchange dialer responder clientSetup serverSetup) (x : ClientSession HS Key) :
    Prop :=
  match x.phase with
  | .localNodelay | .localKeepalive | .connecting | .remoteNodelay | .remoteKeepalive | .tls =>
    x.sent = [] ∧ x.received = []
  | .preface rest => x.sent ++ rest = prefaceBytes ∧ rest ≠ [] ∧ x.received = []
  | .first handshake rest =>
    handshake = X.dialing ∧ x.sent ++ rest = X.greeting ∧ rest ≠ [] ∧ x.received = []
  | .flush handshake => handshake = X.dialing ∧ x.sent = X.greeting ∧ x.received = []
  | .reply handshake got =>
    handshake = X.dialing ∧ x.sent = X.greeting ∧ x.received = got ∧ handshakeFormat.IsPart got
  | .relaying transport =>
    transport = X.clientTransport ∧ x.sent = X.greeting ∧ X.response <+: x.received
  | .ended result => (∀ e, result = .error e → e.fault = false) ∧ x.sent <+: X.greeting

theorem honest_initial : (initial : ClientSession HS Key).Honest X := ⟨rfl, rfl⟩

/-- What the client has written is the beginning of its greeting. -/
theorem Honest.sent_isPrefix (h : x.Honest X) : x.sent <+: X.greeting := by
  obtain ⟨phase, received, sent, succeeded⟩ := x
  cases phase with
  | localNodelay | localKeepalive | connecting | remoteNodelay | remoteKeepalive | tls =>
    obtain ⟨rfl, -⟩ := h
    exact List.nil_prefix
  | preface rest =>
    obtain ⟨hpreface, -⟩ := h
    exact (hpreface ▸ List.prefix_append sent rest).trans (List.prefix_append ..)
  | first handshake rest =>
    obtain ⟨-, hgreeting, -⟩ := h
    exact hgreeting ▸ List.prefix_append sent rest
  | flush | reply | relaying =>
    obtain ⟨-, hgreeting, -⟩ := h
    exact hgreeting ▸ List.prefix_rfl
  | ended => exact h.2

theorem Honest.fail (h : x.Honest X) {e : ClientSessionError} (hfault : e.fault = false) :
    (x.fail e).Honest X := by
  refine ⟨fun e' he' => ?_, h.sent_isPrefix⟩
  cases he'
  exact hfault

theorem honest_runNoise (h : x.sent = [] ∧ x.received = []) :
    (x.goto (.preface prefaceBytes)).Honest X := by
  obtain ⟨hsent, hreceived⟩ := h
  exact ⟨by rw [goto, hsent]; rfl, by simp [prefaceBytes], hreceived⟩

theorem received_afterReply (snow : Snow HS Key) (x : ClientSession HS Key)
    (handshake : ClientHandshake HS) (reply : Bytes) :
    (x.afterReply snow handshake reply).received = x.received := by
  rw [afterReply]
  split <;> rfl

theorem sent_afterReply (snow : Snow HS Key) (x : ClientSession HS Key)
    (handshake : ClientHandshake HS) (reply : Bytes) :
    (x.afterReply snow handshake reply).sent = x.sent := by
  rw [afterReply]
  split <;> rfl

theorem afterKeepalive_streams (setup : ClientSetup) (x : ClientSession HS Key) :
    (x.afterKeepalive setup).received = x.received ∧ (x.afterKeepalive setup).sent = x.sent ∧
      (x.runNoise setup).received = x.received ∧ (x.runNoise setup).sent = x.sent := by
  have hrun : (x.runNoise setup).received = x.received ∧ (x.runNoise setup).sent = x.sent := by
    rw [runNoise]
    split
    · exact ⟨rfl, rfl⟩
    · split <;> exact ⟨rfl, rfl⟩
  rw [afterKeepalive]
  split
  · split <;> exact ⟨rfl, rfl, hrun⟩
  · exact ⟨hrun.1, hrun.2, hrun⟩

theorem afterPreface_streams (snow : Snow HS Key) (setup : ClientSetup)
    (x : ClientSession HS Key) : (x.afterPreface snow setup).received = x.received ∧
      (x.afterPreface snow setup).sent = x.sent := by
  rw [afterPreface]
  split
  · split
    · exact ⟨rfl, rfl⟩
    · split <;> exact ⟨rfl, rfl⟩
  · exact ⟨rfl, rfl⟩

/-- What an event does to the streams of a client: it reads its piece, and may write. -/
structure Streams (e : SessionEvent) (x x' : ClientSession HS Key) : Prop where
  received : x'.received = x.received ++ e.piece
  sent : ∃ bytes, x'.sent = x.sent ++ bytes
  reading : e.reads = true → x'.sent = x.sent
  relaying : e.relayed ≠ [] → ∃ transport, x.phase = .relaying transport

theorem Streams.of_sent_eq (hreceived : x'.received = x.received ++ e.piece)
    (hsent : x'.sent = x.sent) (hrelayed : e.relayed = []) : Streams e x x' :=
  ⟨hreceived, ⟨[], by rw [hsent, List.append_nil]⟩, fun _ => hsent,
    fun hne => absurd hrelayed hne⟩

/-- What an event does that neither reads nor writes. -/
theorem Streams.quiet (hreceived : x'.received = x.received) (hsent : x'.sent = x.sent)
    (hpiece : e.piece = []) (hrelayed : e.relayed = []) : Streams e x x' :=
  .of_sent_eq (by rw [hreceived, hpiece, List.append_nil]) hsent hrelayed

theorem Streams.write {n : ℕ} {bytes : Bytes} (hreceived : x'.received = x.received)
    (hsent : x'.sent = x.sent ++ bytes) : Streams (.write n) x x' where
  received := hreceived.trans (List.append_nil _).symm
  sent := ⟨bytes, hsent⟩
  reading hreads := by cases hreads
  relaying hne := absurd rfl hne

theorem step_streams {snow : Snow HS Key} {setup : ClientSetup}
    (hstep : x.step snow setup e = some x') : Streams e x x' := by
  rw [step.eq_def] at hstep
  split at hstep
  any_goals
    -- Nothing is read or written.
    obtain rfl := Option.some.inj hstep
    exact .quiet rfl rfl rfl rfl
  · obtain rfl := Option.some.inj hstep
    obtain ⟨hreceived, hsent, -⟩ := afterKeepalive_streams setup x
    exact .quiet hreceived hsent rfl rfl
  · obtain rfl := Option.some.inj hstep
    obtain ⟨-, -, hreceived, hsent⟩ := afterKeepalive_streams setup x
    exact .quiet hreceived hsent rfl rfl
  · rename_i rest n hphase
    split at hstep
    · dsimp only at hstep
      split at hstep
      · obtain rfl := Option.some.inj hstep
        obtain ⟨hreceived, hsent⟩ := afterPreface_streams snow setup
          { x with sent := x.sent ++ rest.take n }
        exact .write hreceived hsent
      · obtain rfl := Option.some.inj hstep
        exact .write rfl (show _ = x.sent ++ rest.take n from rfl)
    · cases hstep
  · rename_i handshake rest n hphase
    obtain ⟨-, rfl⟩ := Option.ite_some_none_eq_some.1 hstep
    exact .write rfl (show _ = x.sent ++ rest.take n from rfl)
  · rename_i handshake got piece hphase
    split at hstep
    · rename_i hempty
      obtain rfl := Option.some.inj hstep
      exact .quiet rfl rfl (List.isEmpty_iff.1 hempty) rfl
    split at hstep
    · dsimp only at hstep
      split at hstep
      · obtain rfl := Option.some.inj hstep
        exact .of_sent_eq rfl rfl rfl
      · obtain rfl := Option.some.inj hstep
        exact .of_sent_eq rfl rfl rfl
      · obtain rfl := Option.some.inj hstep
        exact .of_sent_eq (received_afterReply ..) (sent_afterReply ..) rfl
    · cases hstep
  · obtain rfl := Option.some.inj hstep
    exact .of_sent_eq rfl rfl rfl
  · rename_i transport bytes hphase
    obtain rfl := Option.some.inj hstep
    exact ⟨(List.append_nil _).symm, ⟨[], (List.append_nil _).symm⟩, fun _ => rfl,
      fun _ => ⟨transport, hphase⟩⟩
  · cases hstep

/-- The client goes on honestly, whatever it awaits, as long as what it reads begins the
    server's response. -/
theorem Honest.step (h : x.Honest X) (hstep : x.step dialer clientSetup e = some x')
    (hread : ∃ more, x'.received <+: X.response ++ more) : x'.Honest X := by
  have hplace := h
  rw [Honest.eq_def] at hplace
  rw [step.eq_def] at hstep
  split at hstep
  any_goals
    obtain rfl := Option.some.inj hstep
    exact h.fail rfl
  iterate 4
    · rename_i hphase
      obtain rfl := Option.some.inj hstep
      rw [hphase] at hplace
      exact hplace
  · rename_i hphase
    obtain rfl := Option.some.inj hstep
    rw [hphase] at hplace
    rw [afterKeepalive]
    split
    · rename_i htls
      rw [X.serverName htls]
      exact hplace
    · rw [X.runNoise_client]
      exact honest_runNoise hplace
  · rename_i hphase
    obtain rfl := Option.some.inj hstep
    rw [hphase] at hplace
    rw [X.runNoise_client]
    exact honest_runNoise hplace
  · rename_i rest n hphase
    rw [hphase] at hplace
    obtain ⟨hpreface, -, hreceived⟩ := hplace
    split at hstep
    · dsimp only at hstep
      split at hstep
      · rename_i hrest
        obtain rfl := Option.some.inj hstep
        have hsent : x.sent ++ rest.take n = prefaceBytes := by
          have hle := List.drop_eq_nil_iff.1 (List.isEmpty_iff.1 hrest)
          rw [← hpreface, List.take_of_length_le hle]
        rw [X.afterPreface_client]
        exact ⟨rfl, by rw [goto, hsent]; rfl, (isFrame_handshakeFrame X.first).ne_nil, hreceived⟩
      · rename_i hrest
        obtain rfl := Option.some.inj hstep
        exact ⟨by rw [goto, List.append_assoc, List.take_append_drop, hpreface],
          by simpa using hrest, hreceived⟩
    · cases hstep
  · rename_i handshake rest n hphase
    obtain ⟨-, rfl⟩ := Option.ite_some_none_eq_some.1 hstep
    rw [hphase] at hplace
    obtain ⟨hhandshake, hgreeting, -, hreceived⟩ := hplace
    rw [← List.take_append_drop n rest, ← List.append_assoc] at hgreeting
    by_cases hrest : rest.drop n = []
    · rw [hrest, List.append_nil] at hgreeting
      simp only [Honest, hrest, List.isEmpty_nil, if_true]
      exact ⟨hhandshake, hgreeting, hreceived⟩
    · simp only [Honest, List.isEmpty_iff, hrest, if_false]
      exact ⟨hhandshake, hgreeting, hrest, hreceived⟩
  · rename_i handshake hphase
    obtain rfl := Option.some.inj hstep
    rw [hphase] at hplace
    obtain ⟨hhandshake, hsent, hreceived⟩ := hplace
    exact ⟨hhandshake, hsent, hreceived, FrameFormat.isPart_nil⟩
  · rename_i handshake got piece hphase
    rw [hphase] at hplace
    obtain ⟨hhandshake, hsent, hreceived, hpart⟩ := hplace
    split at hstep
    · obtain rfl := Option.some.inj hstep
      exact h.fail rfl
    split at hstep
    · rename_i hroom
      dsimp only at hstep
      -- What is read goes on to the response, and ends with it.
      have hprogress : (∃ more, x.received ++ piece <+: X.response ++ more) →
          handshakeFormat.progress (got ++ piece) = .more ∧ handshakeFormat.IsPart (got ++ piece) ∨
            handshakeFormat.progress (got ++ piece) = .whole ∧ got ++ piece = X.response := by
        rintro ⟨more, hmore⟩
        rw [hreceived] at hmore
        exact FrameFormat.progress_of_isPrefix (isFrame_handshakeFrame X.reply) hpart hroom hmore
      split at hstep
      · rename_i hmore
        obtain rfl := Option.some.inj hstep
        exact ⟨hhandshake, hsent, by rw [goto, hreceived], hmore⟩
      · rename_i hrefused
        obtain rfl := Option.some.inj hstep
        rcases hprogress hread with ⟨hmore, -⟩ | ⟨hwhole, -⟩
        · rw [hrefused] at hmore
          cases hmore
        · rw [hrefused] at hwhole
          cases hwhole
      · rename_i hwhole
        obtain rfl := Option.some.inj hstep
        rw [received_afterReply] at hread
        rcases hprogress hread with ⟨hmore, -⟩ | ⟨-, hframe⟩
        · rw [hwhole] at hmore
          cases hmore
        · rw [hhandshake, hframe, X.afterReply_client]
          exact ⟨rfl, hsent, by rw [hreceived, hframe]⟩
    · cases hstep
  · rename_i transport piece hphase
    obtain rfl := Option.some.inj hstep
    rw [hphase] at hplace
    obtain ⟨htransport, hsent, hresponse⟩ := hplace
    simp only [Honest, hphase]
    exact ⟨htransport, hsent, hresponse.trans (List.prefix_append ..)⟩
  · obtain rfl := Option.some.inj hstep
    exact h
  · rename_i transport result hphase
    obtain rfl := Option.some.inj hstep
    refine ⟨fun e he => ?_, h.sent_isPrefix⟩
    cases result with
    | ok => cases he
    | error => cases he; rfl
  · cases hstep

end ClientSession

/-! ## The server's side -/

/-- What an effect writes to the outer stream before the relay. -/
def Effect.replied {Addr : Type*} : Effect Addr → Bytes
  | reply piece => piece
  | _ => []

/-- What an effect writes to the outer stream in the relay. -/
def Effect.relayed {Addr : Type*} : Effect Addr → Bytes
  | relay bytes => bytes
  | _ => []

namespace ServerSession

variable {Addr HS Key : Type*} {dialer responder : Snow HS Key} {clientSetup : ClientSetup}
  {serverSetup : Setup Addr} {X : Exchange dialer responder clientSetup serverSetup}
  {x x' : ServerSession Addr HS Key} {e : SessionEvent}

/-- What the session has written of its response. -/
def replied (x : ServerSession Addr HS Key) : Bytes := (x.effects.map Effect.replied).flatten

/-- What its relay has written. -/
def relayed (x : ServerSession Addr HS Key) : Bytes := (x.effects.map Effect.relayed).flatten

section Effects

variable (phase : SessionPhase HS Key) (received : Bytes) (succeeded : Bool) (piece : Bytes)

theorem replied_reply : replied ⟨phase, received, x.effects ++ [.reply piece], succeeded⟩ =
    x.replied ++ piece := by
  simp [replied, Effect.replied]

theorem relayed_reply : relayed ⟨phase, received, x.effects ++ [.reply piece], succeeded⟩ =
    x.relayed := by
  simp [relayed, Effect.relayed]

theorem replied_relay : replied ⟨phase, received, x.effects ++ [.relay piece], succeeded⟩ =
    x.replied := by
  simp [replied, Effect.replied]

theorem relayed_relay : relayed ⟨phase, received, x.effects ++ [.relay piece], succeeded⟩ =
    x.relayed ++ piece := by
  simp [relayed, Effect.relayed]

end Effects

/-- What the server has read and written of the exchange, at each place of its session. -/
def Honest (X : Exchange dialer responder clientSetup serverSetup)
    (x : ServerSession Addr HS Key) : Prop :=
  match x.phase with
  | .nodelay | .keepalive | .tls => x.received = [] ∧ x.effects = []
  | .preface got => x.received = got ∧ got.length < prefaceBytes.length ∧ x.effects = []
  | .first handshake got => handshake = X.listening ∧ x.received = prefaceBytes ++ got ∧
    handshakeFormat.IsPart got ∧ x.effects = []
  | .reply reply rest => reply = X.replying ∧ x.received = X.greeting ∧
    x.replied ++ rest = X.response ∧ rest ≠ [] ∧ x.relayed = []
  | .flush reply => reply = X.replying ∧ x.received = X.greeting ∧ x.replied = X.response ∧
    x.relayed = []
  | .connecting transport | .destinationNodelay transport | .destinationKeepalive transport =>
    transport = X.serverTransport ∧ x.received = X.greeting ∧ x.replied = X.response ∧
      x.relayed = []
  | .relaying transport =>
    transport = X.serverTransport ∧ X.greeting <+: x.received ∧ x.replied = X.response
  | .panicked => False
  | .ended result => (∀ e, result = .error e → e.fault = false) ∧ x.replied <+: X.response ∧
    (x.relayed = [] ∨ x.replied = X.response)

theorem honest_initial : (initial : ServerSession Addr HS Key).Honest X := ⟨rfl, rfl⟩

/-- What the server has written is the beginning of its response, and then its relay's. -/
theorem Honest.written (h : x.Honest X) :
    x.replied <+: X.response ∧ (x.relayed = [] ∨ x.replied = X.response) := by
  obtain ⟨phase, received, effects, succeeded⟩ := x
  cases phase with
  | nodelay | keepalive | tls =>
    obtain ⟨-, rfl⟩ := h
    exact ⟨List.nil_prefix, .inl rfl⟩
  | preface =>
    obtain ⟨-, -, rfl⟩ := h
    exact ⟨List.nil_prefix, .inl rfl⟩
  | first =>
    obtain ⟨-, -, -, rfl⟩ := h
    exact ⟨List.nil_prefix, .inl rfl⟩
  | reply reply rest =>
    obtain ⟨-, -, hresponse, -, hrelayed⟩ := h
    exact ⟨hresponse ▸ List.prefix_append .., .inl hrelayed⟩
  | flush | connecting | destinationNodelay | destinationKeepalive =>
    obtain ⟨-, -, hresponse, hrelayed⟩ := h
    exact ⟨hresponse ▸ List.prefix_rfl, .inl hrelayed⟩
  | relaying =>
    obtain ⟨-, -, hresponse⟩ := h
    exact ⟨hresponse ▸ List.prefix_rfl, .inr hresponse⟩
  | panicked => exact h.elim
  | ended => exact h.2

theorem Honest.fail (h : x.Honest X) {e : SessionError} (hfault : e.fault = false) :
    (x.fail e).Honest X := by
  refine ⟨fun e' he' => ?_, h.written⟩
  cases he'
  exact hfault

theorem received_afterFirst (snow : Snow HS Key) (x : ServerSession Addr HS Key)
    (handshake : ServerHandshake) (first : Bytes) :
    (x.afterFirst snow handshake first).received = x.received := by
  rw [afterFirst]
  split
  · rfl
  · rfl
  · split <;> rfl

theorem received_afterPreface (setup : Setup Addr) (x : ServerSession Addr HS Key)
    (preface : Bytes) : (x.afterPreface setup preface).received = x.received := by
  rw [afterPreface]
  split
  · split
    · rfl
    · split <;> rfl
  · rfl

theorem runNoise_streams (setup : Setup Addr) (x : ServerSession Addr HS Key) :
    (x.runNoise setup).received = x.received ∧ (x.runNoise setup).effects = x.effects := by
  rw [runNoise]
  split
  · exact ⟨rfl, rfl⟩
  · split <;> exact ⟨rfl, rfl⟩

theorem effects_afterPreface (setup : Setup Addr) (x : ServerSession Addr HS Key)
    (preface : Bytes) : (x.afterPreface setup preface).effects = x.effects := by
  rw [afterPreface]
  split
  · split
    · rfl
    · split <;> rfl
  · rfl

theorem effects_afterFirst (snow : Snow HS Key) (x : ServerSession Addr HS Key)
    (handshake : ServerHandshake) (first : Bytes) :
    (x.afterFirst snow handshake first).effects = x.effects := by
  rw [afterFirst]
  split
  · rfl
  · rfl
  · split <;> rfl

/-- What an event does to the streams of a server: it reads its piece, and may write. -/
structure Streams (e : SessionEvent) (x x' : ServerSession Addr HS Key) : Prop where
  received : x'.received = x.received ++ e.piece
  written : ∃ bytes, x'.replied ++ x'.relayed = x.replied ++ x.relayed ++ bytes
  reading : e.reads = true → x'.effects = x.effects

theorem Streams.of_effects_eq (hreceived : x'.received = x.received ++ e.piece)
    (heffects : x'.effects = x.effects) : Streams e x x' :=
  ⟨hreceived, ⟨[], by rw [replied, relayed, heffects, List.append_nil]; rfl⟩, fun _ => heffects⟩

/-- What an event does that neither reads nor writes. -/
theorem Streams.quiet (hreceived : x'.received = x.received) (heffects : x'.effects = x.effects)
    (hpiece : e.piece = []) : Streams e x x' :=
  .of_effects_eq (by rw [hreceived, hpiece, List.append_nil]) heffects

theorem Honest.step_streams (h : x.Honest X)
    (hstep : x.step responder serverSetup e = some x') : Streams e x x' := by
  have hplace := h
  rw [Honest.eq_def] at hplace
  rw [step.eq_def] at hstep
  split at hstep
  any_goals
    -- Nothing is read or written.
    obtain rfl := Option.some.inj hstep
    exact .quiet rfl rfl rfl
  · obtain rfl := Option.some.inj hstep
    split
    · exact .quiet rfl rfl rfl
    · obtain ⟨hreceived, heffects⟩ := runNoise_streams serverSetup x
      exact .quiet hreceived heffects rfl
  · obtain rfl := Option.some.inj hstep
    obtain ⟨hreceived, heffects⟩ := runNoise_streams serverSetup x
    exact .quiet hreceived heffects rfl
  · rename_i got piece hphase
    split at hstep
    · rename_i hempty
      obtain rfl := Option.some.inj hstep
      exact .quiet rfl rfl (List.isEmpty_iff.1 hempty)
    split at hstep
    · dsimp only at hstep
      split at hstep
      · obtain rfl := Option.some.inj hstep
        exact .of_effects_eq rfl rfl
      · obtain rfl := Option.some.inj hstep
        exact .of_effects_eq (received_afterPreface ..) (effects_afterPreface ..)
    · cases hstep
  · rename_i handshake got piece hphase
    split at hstep
    · rename_i hempty
      obtain rfl := Option.some.inj hstep
      exact .quiet rfl rfl (List.isEmpty_iff.1 hempty)
    split at hstep
    · dsimp only at hstep
      split at hstep
      · obtain rfl := Option.some.inj hstep
        exact .of_effects_eq rfl rfl
      · obtain rfl := Option.some.inj hstep
        exact .of_effects_eq rfl rfl
      · obtain rfl := Option.some.inj hstep
        exact .of_effects_eq (received_afterFirst ..) (effects_afterFirst ..)
    · cases hstep
  · rename_i reply rest n hphase
    obtain ⟨-, rfl⟩ := Option.ite_some_none_eq_some.1 hstep
    rw [hphase] at hplace
    obtain ⟨-, -, -, -, hrelayed⟩ := hplace
    refine ⟨(List.append_nil _).symm, ⟨rest.take n, ?_⟩, fun hreads => by cases hreads⟩
    rw [replied_reply, relayed_reply, hrelayed, List.append_nil, List.append_nil]
  · rename_i reply hphase
    obtain rfl := Option.some.inj hstep
    rw [afterFlush]
    split
    · exact .quiet rfl rfl rfl
    · refine ⟨(List.append_nil _).symm, ⟨[], ?_⟩, fun hreads => by cases hreads⟩
      simp [replied, relayed, Effect.replied, Effect.relayed]
  · obtain rfl := Option.some.inj hstep
    exact .of_effects_eq rfl rfl
  · rename_i transport bytes hphase
    obtain rfl := Option.some.inj hstep
    refine ⟨(List.append_nil _).symm, ⟨bytes, ?_⟩, fun hreads => by cases hreads⟩
    rw [replied_relay, relayed_relay, List.append_assoc]
  · cases hstep

/-- The server goes on honestly, whatever it awaits, as long as what it reads begins the
    client's greeting. -/
theorem Honest.step (h : x.Honest X) (hstep : x.step responder serverSetup e = some x')
    (hread : ∃ more, x'.received <+: X.greeting ++ more) : x'.Honest X := by
  have hplace := h
  rw [Honest.eq_def] at hplace
  rw [step.eq_def] at hstep
  split at hstep
  any_goals
    obtain rfl := Option.some.inj hstep
    exact h.fail rfl
  · rename_i hphase
    obtain rfl := Option.some.inj hstep
    rw [hphase] at hplace
    exact hplace
  · rename_i hphase
    obtain rfl := Option.some.inj hstep
    rw [hphase] at hplace
    split
    · exact hplace
    · rw [X.runNoise_server]
      exact ⟨hplace.1, by decide, hplace.2⟩
  · rename_i hphase
    obtain rfl := Option.some.inj hstep
    rw [hphase] at hplace
    rw [X.runNoise_server]
    exact ⟨hplace.1, by decide, hplace.2⟩
  · rename_i got piece hphase
    rw [hphase] at hplace
    obtain ⟨hreceived, -, heffects⟩ := hplace
    split at hstep
    · obtain rfl := Option.some.inj hstep
      exact h.fail rfl
    split at hstep
    · rename_i hle
      dsimp only at hstep
      split at hstep
      · rename_i hlt
        obtain rfl := Option.some.inj hstep
        exact ⟨by rw [goto, hreceived], hlt, heffects⟩
      · rename_i hge
        obtain rfl := Option.some.inj hstep
        rw [received_afterPreface] at hread
        have hpreface : got ++ piece = prefaceBytes := by
          obtain ⟨more, hmore⟩ := hread
          rw [hreceived, Exchange.greeting, List.append_assoc] at hmore
          exact (List.prefix_of_prefix_length_le hmore (List.prefix_append ..) hle).eq_of_length
            (Nat.le_antisymm hle (Nat.not_lt.1 hge))
        rw [hpreface, X.afterPreface_server]
        exact ⟨rfl, by rw [goto, hreceived, hpreface, List.append_nil], FrameFormat.isPart_nil,
          heffects⟩
    · cases hstep
  · rename_i handshake got piece hphase
    rw [hphase] at hplace
    obtain ⟨hhandshake, hreceived, hpart, heffects⟩ := hplace
    split at hstep
    · obtain rfl := Option.some.inj hstep
      exact h.fail rfl
    split at hstep
    · rename_i hroom
      dsimp only at hstep
      -- What is read goes on to the client's first message, and ends with it.
      have hprogress : (∃ more, x.received ++ piece <+: X.greeting ++ more) →
          handshakeFormat.progress (got ++ piece) = .more ∧ handshakeFormat.IsPart (got ++ piece) ∨
            handshakeFormat.progress (got ++ piece) = .whole ∧
              got ++ piece = handshakeFrame X.first.1 := by
        rintro ⟨more, hmore⟩
        rw [hreceived, Exchange.greeting, List.append_assoc, List.append_assoc,
          List.prefix_append_right_inj] at hmore
        exact FrameFormat.progress_of_isPrefix (isFrame_handshakeFrame X.first) hpart hroom hmore
      split at hstep
      · rename_i hmore
        obtain rfl := Option.some.inj hstep
        exact ⟨hhandshake, by rw [goto, hreceived, List.append_assoc], hmore, heffects⟩
      · rename_i hrefused
        obtain rfl := Option.some.inj hstep
        rcases hprogress hread with ⟨hmore, -⟩ | ⟨hwhole, -⟩
        · rw [hrefused] at hmore
          cases hmore
        · rw [hrefused] at hwhole
          cases hwhole
      · rename_i hwhole
        obtain rfl := Option.some.inj hstep
        rw [received_afterFirst] at hread
        rcases hprogress hread with ⟨hmore, -⟩ | ⟨-, hframe⟩
        · rw [hwhole] at hmore
          cases hmore
        · rw [hhandshake, hframe, X.afterFirst_server]
          refine ⟨rfl, ?_, ?_, (isFrame_handshakeFrame X.reply).ne_nil, ?_⟩
          · rw [goto, hreceived, List.append_assoc, hframe, Exchange.greeting]
          · simp [replied, goto, heffects]
          · simp [relayed, goto, heffects]
    · cases hstep
  · rename_i reply rest n hphase
    obtain ⟨-, rfl⟩ := Option.ite_some_none_eq_some.1 hstep
    rw [hphase] at hplace
    obtain ⟨hreply, hreceived, hresponse, -, hrelayed⟩ := hplace
    rw [← List.take_append_drop n rest, ← List.append_assoc] at hresponse
    by_cases hrest : rest.drop n = []
    · rw [hrest, List.append_nil] at hresponse
      simp only [Honest, hrest, List.isEmpty_nil, if_true]
      exact ⟨hreply, hreceived, by rw [replied_reply, hresponse], by rw [relayed_reply, hrelayed]⟩
    · simp only [Honest, List.isEmpty_iff, hrest, if_false]
      exact ⟨hreply, hreceived, by rw [replied_reply, hresponse], hrest,
        by rw [relayed_reply, hrelayed]⟩
  · rename_i reply hphase
    obtain rfl := Option.some.inj hstep
    rw [hphase] at hplace
    obtain ⟨hreply, hreceived, hresponse, hrelayed⟩ := hplace
    rw [hreply, X.afterFlush_server]
    refine ⟨rfl, hreceived, ?_, ?_⟩
    · rw [← hresponse]
      simp [replied, Effect.replied]
    · rw [← hrelayed]
      simp [relayed, Effect.relayed]
  iterate 2
    · rename_i transport hphase
      obtain rfl := Option.some.inj hstep
      rw [hphase] at hplace
      exact hplace
  · rename_i transport hphase
    obtain rfl := Option.some.inj hstep
    rw [hphase] at hplace
    obtain ⟨htransport, hreceived, hresponse, -⟩ := hplace
    exact ⟨htransport, by rw [goto, hreceived], hresponse⟩
  · rename_i transport piece hphase
    obtain rfl := Option.some.inj hstep
    rw [hphase] at hplace
    obtain ⟨htransport, hgreeting, hresponse⟩ := hplace
    simp only [Honest, hphase]
    exact ⟨htransport, hgreeting.trans (List.prefix_append ..), hresponse⟩
  · rename_i transport bytes hphase
    obtain rfl := Option.some.inj hstep
    rw [hphase] at hplace
    obtain ⟨htransport, hgreeting, hresponse⟩ := hplace
    simp only [Honest, hphase]
    exact ⟨htransport, hgreeting, by rw [replied_relay, hresponse]⟩
  · rename_i transport result hphase
    obtain rfl := Option.some.inj hstep
    refine ⟨fun e he => ?_, h.written⟩
    cases result with
    | ok => cases he
    | error => cases he; rfl
  · cases hstep

end ServerSession

end SecureTunnel
