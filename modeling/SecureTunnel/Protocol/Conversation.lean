import SecureTunnel.General.Pipe
import SecureTunnel.General.Transition
import SecureTunnel.Protocol.Exchange
import SecureTunnel.Protocol.Noise

/-!
# A client and a server in conversation

The session of a client and the session of the server that it has connected to, with
the two byte streams of their connection between them: the network cuts what is
written into reads as it likes, and may break off.

* `honest_conversation`: neither handshake fails but for its surroundings; once both
  relay, they hold the two halves of one exchange, and what a relay reads is exactly
  what the relay at the other end has written.
* `handshake_possible`: as long as nothing fails, both sessions can get to their
  relays; they never wait for each other.
-/

namespace SecureTunnel

/-! ## The conversation -/

/-- Both sessions, and the two streams between them. What the client's relay writes is
    kept. -/
structure Conversation (Addr HS Key : Type*) where
  client : ClientSession HS Key
  server : ServerSession Addr HS Key
  /-- From the client to the server. -/
  up : Pipe UInt8
  /-- From the server to the client. -/
  down : Pipe UInt8
  relayed : Bytes

/-- What can happen to a conversation: what a session awaits completes, and a read with
    what its stream has; a session closes its stream; the network cuts one. -/
inductive ConversationEvent
  | client (e : SessionEvent)
  | server (e : SessionEvent)
  | clientRead (count : ℕ)
  | serverRead (count : ℕ)
  | clientClose
  | serverClose
  | cutUp (n : ℕ)
  | cutDown (n : ℕ)
  deriving DecidableEq

/-- A read brings a piece: to the handshake, or to the relay. -/
def ClientSession.reading {HS Key : Type*} (x : ClientSession HS Key) (piece : Bytes) :
    SessionEvent :=
  match x.phase with
  | .relaying _ => .relayRead piece
  | _ => .read piece

def ServerSession.reading {Addr HS Key : Type*} (x : ServerSession Addr HS Key) (piece : Bytes) :
    SessionEvent :=
  match x.phase with
  | .relaying _ => .relayRead piece
  | _ => .read piece

section Reading

variable {Addr HS Key : Type*} (piece : Bytes)

theorem ClientSession.reading_spec (x : ClientSession HS Key) :
    (x.reading piece).reads = true ∧ (x.reading piece).piece = piece := by
  rw [reading]
  split <;> exact ⟨rfl, rfl⟩

theorem ServerSession.reading_spec (x : ServerSession Addr HS Key) :
    (x.reading piece).reads = true ∧ (x.reading piece).piece = piece := by
  rw [reading]
  split <;> exact ⟨rfl, rfl⟩

end Reading

/-- A relay shuts its side down, and a session that has ended drops its connection. -/
def ClientSession.closes {HS Key : Type*} (x : ClientSession HS Key) : Bool :=
  match x.phase with
  | .relaying _ | .ended _ => true
  | _ => false

def ServerSession.closes {Addr HS Key : Type*} (x : ServerSession Addr HS Key) : Bool :=
  match x.phase with
  | .relaying _ | .panicked | .ended _ => true
  | _ => false

namespace Conversation

variable {Addr HS Key : Type*}

def initial : Conversation Addr HS Key := ⟨.initial, .initial, .empty, .empty, []⟩

def step (dialer responder : Snow HS Key) (clientSetup : ClientSetup) (serverSetup : Setup Addr)
    (c : Conversation Addr HS Key) : ConversationEvent → Option (Conversation Addr HS Key)
  | .client e =>
    if e.reads then none
    else (c.client.step dialer clientSetup e).map fun client =>
      { c with
        client
        up := c.up.write (client.sent.drop c.client.sent.length ++ e.relayed)
        relayed := c.relayed ++ e.relayed }
  | .server e =>
    if e.reads then none
    else (c.server.step responder serverSetup e).map fun server =>
      { c with
        server
        down := c.down.write ((server.replied ++ server.relayed).drop
          (c.server.replied ++ c.server.relayed).length) }
  | .clientRead count =>
    (c.down.read count count).bind fun (piece, down) =>
      (c.client.step dialer clientSetup (c.client.reading piece)).map fun client =>
        { c with client, down }
  | .serverRead count =>
    (c.up.read count count).bind fun (piece, up) =>
      (c.server.step responder serverSetup (c.server.reading piece)).map fun server =>
        { c with server, up }
  | .clientClose => if c.client.closes then some { c with up := c.up.close } else none
  | .serverClose => if c.server.closes then some { c with down := c.down.close } else none
  | .cutUp n => some { c with up := c.up.sever n }
  | .cutDown n => some { c with down := c.down.sever n }

end Conversation

/-- A client and a server, and the network between them. -/
def conversation {Addr HS Key : Type*} (dialer responder : Snow HS Key)
    (clientSetup : ClientSetup) (serverSetup : Setup Addr) :
    EventSystem (Conversation Addr HS Key) ConversationEvent where
  init c := c = .initial
  step := Conversation.step dialer responder clientSetup serverSetup

namespace Conversation

variable {Addr HS Key : Type*} {dialer responder : Snow HS Key} {clientSetup : ClientSetup}
  {serverSetup : Setup Addr} {X : Exchange dialer responder clientSetup serverSetup}
  {c c' : Conversation Addr HS Key} {e : ConversationEvent}

/-- Both sessions are honest, and each has read what its stream gave it of what the
    other has written. -/
structure Inv (X : Exchange dialer responder clientSetup serverSetup)
    (c : Conversation Addr HS Key) : Prop where
  client : c.client.Honest X
  server : c.server.Honest X
  up_written : c.up.written = c.client.sent ++ c.relayed
  up_taken : c.up.taken = c.server.received
  down_written : c.down.written = c.server.replied ++ c.server.relayed
  down_taken : c.down.taken = c.client.received
  /-- A relay begins with the whole greeting written. -/
  greeted : c.relayed = [] ∨ c.client.sent = X.greeting

theorem inv_initial : (initial : Conversation Addr HS Key).Inv X where
  client := ClientSession.honest_initial
  server := ServerSession.honest_initial
  up_written := rfl
  up_taken := rfl
  down_written := rfl
  down_taken := rfl
  greeted := .inl rfl

namespace Inv

/-- The server reads the client's greeting, and what its relay writes. -/
theorem up_isPrefix (h : c.Inv X) : ∃ more, c.up.written <+: X.greeting ++ more := by
  rw [h.up_written]
  rcases h.greeted with hnone | hsent
  · rw [hnone, List.append_nil]
    exact ⟨[], by simpa using h.client.sent_isPrefix⟩
  · exact ⟨c.relayed, by rw [hsent]⟩

/-- The client reads the server's response, and what its relay writes. -/
theorem down_isPrefix (h : c.Inv X) : ∃ more, c.down.written <+: X.response ++ more := by
  rw [h.down_written]
  obtain ⟨hreplied, hnone | hresponse⟩ := h.server.written
  · rw [hnone, List.append_nil]
    exact ⟨[], by simpa using hreplied⟩
  · exact ⟨c.server.relayed, by rw [hresponse]⟩

theorem client_reads (h : c.Inv X) : ∃ more, c.client.received <+: X.response ++ more := by
  obtain ⟨more, hmore⟩ := h.down_isPrefix
  exact ⟨more, h.down_taken ▸ c.down.taken_isPrefix.trans hmore⟩

theorem server_reads (h : c.Inv X) : ∃ more, c.server.received <+: X.greeting ++ more := by
  obtain ⟨more, hmore⟩ := h.up_isPrefix
  exact ⟨more, h.up_taken ▸ c.up.taken_isPrefix.trans hmore⟩

/-- An event of the client that does not read. -/
theorem clientStep (h : c.Inv X) {e : SessionEvent} {client : ClientSession HS Key}
    (hreads : e.reads = false) (hstep : c.client.step dialer clientSetup e = some client) :
    Inv X { c with
      client
      up := c.up.write (client.sent.drop c.client.sent.length ++ e.relayed)
      relayed := c.relayed ++ e.relayed } := by
  obtain ⟨hreceived, ⟨bytes, hsent⟩, -, hrelaying⟩ := ClientSession.step_streams hstep
  rw [SessionEvent.piece_of_not_reads hreads, List.append_nil] at hreceived
  have hhonest := h.client.step hstep (hreceived ▸ h.client_reads)
  -- The whole greeting is written once.
  have hbytes : c.client.sent = X.greeting → bytes = [] := by
    intro hgreeting
    have hle := hhonest.sent_isPrefix.length_le
    rw [hsent, hgreeting, List.length_append] at hle
    exact List.length_eq_zero_iff.1 (by omega)
  have hgreeted : c.relayed ++ e.relayed = [] ∨ client.sent = X.greeting := by
    have hwhole : c.client.sent = X.greeting → client.sent = X.greeting := by
      intro hgreeting
      rw [hsent, hbytes hgreeting, hgreeting, List.append_nil]
    by_cases hrelayed : e.relayed = []
    · rw [hrelayed, List.append_nil]
      exact h.greeted.imp_right hwhole
    · obtain ⟨transport, hphase⟩ := hrelaying hrelayed
      have hplace := h.client
      rw [ClientSession.Honest.eq_def, hphase] at hplace
      exact .inr (hwhole hplace.2.1)
  exact {
    client := hhonest
    server := h.server
    up_written := by
      rw [Pipe.written_write, h.up_written, hsent, List.drop_left]
      rcases h.greeted with hnone | hgreeting
      · rw [hnone]
        simp
      · rw [hbytes hgreeting]
        simp
    up_taken := by rw [Pipe.taken_write, h.up_taken]
    down_written := h.down_written
    down_taken := h.down_taken.trans hreceived.symm
    greeted := hgreeted }

/-- An event of the server that does not read. -/
theorem serverStep (h : c.Inv X) {e : SessionEvent} {server : ServerSession Addr HS Key}
    (hreads : e.reads = false) (hstep : c.server.step responder serverSetup e = some server) :
    Inv X { c with
      server
      down := c.down.write ((server.replied ++ server.relayed).drop
        (c.server.replied ++ c.server.relayed).length) } := by
  obtain ⟨hreceived, ⟨bytes, hwritten⟩, -⟩ := h.server.step_streams hstep
  rw [SessionEvent.piece_of_not_reads hreads, List.append_nil] at hreceived
  exact {
    client := h.client
    server := h.server.step hstep (hreceived ▸ h.server_reads)
    up_written := h.up_written
    up_taken := h.up_taken.trans hreceived.symm
    down_written := by rw [Pipe.written_write, h.down_written, hwritten, List.drop_left]
    down_taken := by rw [Pipe.taken_write, h.down_taken]
    greeted := h.greeted }

theorem clientRead (h : c.Inv X) {count : ℕ} {piece : Bytes} {down : Pipe UInt8}
    {client : ClientSession HS Key} (hread : c.down.read count count = some (piece, down))
    (hstep : c.client.step dialer clientSetup (c.client.reading piece) = some client) :
    Inv X { c with client, down } := by
  obtain ⟨hreads, hpiece⟩ := ClientSession.reading_spec piece c.client
  obtain ⟨hreceived, -, hsent, -⟩ := ClientSession.step_streams hstep
  obtain ⟨htaken, hwritten⟩ := Pipe.of_read hread
  rw [hpiece, ← h.down_taken, ← htaken] at hreceived
  obtain ⟨more, hmore⟩ := h.down_isPrefix
  exact {
    client := h.client.step hstep
      ⟨more, hreceived ▸ down.taken_isPrefix.trans (hwritten ▸ hmore)⟩
    server := h.server
    up_written := by rw [hsent hreads, h.up_written]
    up_taken := h.up_taken
    down_written := hwritten.trans h.down_written
    down_taken := hreceived.symm
    greeted := h.greeted.imp_right (hsent hreads).trans }

theorem serverRead (h : c.Inv X) {count : ℕ} {piece : Bytes} {up : Pipe UInt8}
    {server : ServerSession Addr HS Key} (hread : c.up.read count count = some (piece, up))
    (hstep : c.server.step responder serverSetup (c.server.reading piece) = some server) :
    Inv X { c with server, up } := by
  obtain ⟨hreads, hpiece⟩ := ServerSession.reading_spec piece c.server
  obtain ⟨hreceived, -, heffects⟩ := h.server.step_streams hstep
  obtain ⟨htaken, hwritten⟩ := Pipe.of_read hread
  rw [hpiece, ← h.up_taken, ← htaken] at hreceived
  obtain ⟨more, hmore⟩ := h.up_isPrefix
  exact {
    client := h.client
    server := h.server.step hstep
      ⟨more, hreceived ▸ up.taken_isPrefix.trans (hwritten ▸ hmore)⟩
    up_written := hwritten.trans h.up_written
    up_taken := hreceived.symm
    down_written := by
      rw [ServerSession.replied, ServerSession.relayed, heffects hreads]
      exact h.down_written
    down_taken := h.down_taken
    greeted := h.greeted }

theorem step (h : c.Inv X) (hstep : c.step dialer responder clientSetup serverSetup e = some c') :
    c'.Inv X := by
  cases e with
  | client e =>
    rw [Conversation.step] at hstep
    split at hstep
    · cases hstep
    · rename_i hreads
      obtain ⟨client, hclient, rfl⟩ := Option.map_eq_some_iff.1 hstep
      exact h.clientStep (Bool.eq_false_iff.2 hreads) hclient
  | server e =>
    rw [Conversation.step] at hstep
    split at hstep
    · cases hstep
    · rename_i hreads
      obtain ⟨server, hserver, rfl⟩ := Option.map_eq_some_iff.1 hstep
      exact h.serverStep (Bool.eq_false_iff.2 hreads) hserver
  | clientRead count =>
    obtain ⟨⟨piece, down⟩, hread, hstep⟩ := Option.bind_eq_some_iff.1 hstep
    obtain ⟨client, hclient, rfl⟩ := Option.map_eq_some_iff.1 hstep
    exact h.clientRead hread hclient
  | serverRead count =>
    obtain ⟨⟨piece, up⟩, hread, hstep⟩ := Option.bind_eq_some_iff.1 hstep
    obtain ⟨server, hserver, rfl⟩ := Option.map_eq_some_iff.1 hstep
    exact h.serverRead hread hserver
  | clientClose =>
    obtain ⟨-, rfl⟩ := Option.ite_some_none_eq_some.1 hstep
    exact ⟨h.client, h.server, h.up_written, h.up_taken, h.down_written, h.down_taken, h.greeted⟩
  | serverClose =>
    obtain ⟨-, rfl⟩ := Option.ite_some_none_eq_some.1 hstep
    exact ⟨h.client, h.server, h.up_written, h.up_taken, h.down_written, h.down_taken, h.greeted⟩
  | cutUp n =>
    obtain rfl := Option.some.inj hstep
    exact ⟨h.client, h.server, (Pipe.written_sever ..).trans h.up_written, h.up_taken,
      h.down_written, h.down_taken, h.greeted⟩
  | cutDown n =>
    obtain rfl := Option.some.inj hstep
    exact ⟨h.client, h.server, h.up_written, h.up_taken,
      (Pipe.written_sever ..).trans h.down_written, h.down_taken, h.greeted⟩

end Inv

theorem inv_of_reachable {allow : Conversation Addr HS Key → ConversationEvent → Prop}
    (X : Exchange dialer responder clientSetup serverSetup)
    (h : (conversation dialer responder clientSetup serverSetup).Reachable allow c) : c.Inv X := by
  refine h.invariant ?_ fun _ hinv _ hstep => hinv.step hstep
  rintro c rfl
  exact inv_initial

/-- What is read beyond the whole opening of a stream, and what is still to be read, is
    what was written beyond it. -/
theorem beyond {opening said relayed read rest : Bytes} (hsaid : said <+: opening)
    (hwhole : relayed = [] ∨ said = opening)
    (hwritten : opening ++ read ++ rest = said ++ relayed) : read ++ rest = relayed := by
  rcases hwhole with rfl | rfl
  · have hle := hsaid.length_le
    have hlen := congrArg List.length hwritten
    simp only [List.length_append, List.append_nil] at hlen
    rw [List.append_eq_nil_iff]
    exact ⟨List.length_eq_zero_iff.1 (by omega), List.length_eq_zero_iff.1 (by omega)⟩
  · rw [List.append_assoc] at hwritten
    exact List.append_cancel_left hwritten

end Conversation

variable {Addr HS Key : Type*} {dialer responder : Snow HS Key} {clientSetup : ClientSetup}
  {serverSetup : Setup Addr} {c : Conversation Addr HS Key}

/-- A client and a server whose keys match, under every interleaving of their sessions,
    every cut of their streams into reads, and whatever fails around them: neither
    handshake fails for its configuration or for what the other wrote, and the server does
    not panic. A session that relays holds its half of their one exchange, its relay starts exactly
    where the handshake ends, and what it has read, with what it can still read or has
    lost, is what the relay at the other end wrote. -/
theorem honest_conversation (X : Exchange dialer responder clientSetup serverSetup)
    (h : (conversation dialer responder clientSetup serverSetup).Reachable EventSystem.always c) :
    (∀ e, c.client.phase = .ended (.error e) → e.fault = false) ∧
    (∀ e, c.server.phase = .ended (.error e) → e.fault = false) ∧ c.server.phase ≠ .panicked ∧
    (∀ transport, c.client.phase = .relaying transport → transport = X.clientTransport ∧
      ∃ read, c.client.received = X.response ++ read ∧
        read ++ (c.down.transit ++ c.down.lost) = c.server.relayed) ∧
    ∀ transport, c.server.phase = .relaying transport → transport = X.serverTransport ∧
      ∃ read, c.server.received = X.greeting ++ read ∧
        read ++ (c.up.transit ++ c.up.lost) = c.relayed := by
  have hinv := Conversation.inv_of_reachable X h
  have hclient := hinv.client
  have hserver := hinv.server
  rw [ClientSession.Honest.eq_def] at hclient
  rw [ServerSession.Honest.eq_def] at hserver
  refine ⟨fun e hphase => ?_, fun e hphase => ?_, fun hphase => ?_, fun transport hphase => ?_,
    fun transport hphase => ?_⟩
  · rw [hphase] at hclient
    exact hclient.1 e rfl
  · rw [hphase] at hserver
    exact hserver.1 e rfl
  · rw [hphase] at hserver
    exact hserver
  · rw [hphase] at hclient
    obtain ⟨htransport, -, read, hread⟩ := hclient
    refine ⟨htransport, read, hread.symm, ?_⟩
    obtain ⟨hreplied, hwhole⟩ := hinv.server.written
    refine Conversation.beyond hreplied hwhole ?_
    rw [hread, ← hinv.down_taken, ← hinv.down_written]
    rfl
  · rw [hphase] at hserver
    obtain ⟨htransport, ⟨read, hread⟩, -⟩ := hserver
    refine ⟨htransport, read, hread.symm, ?_⟩
    refine Conversation.beyond hinv.client.sent_isPrefix hinv.greeted ?_
    rw [hread, ← hinv.up_taken, ← hinv.up_written]
    rfl

/-! ## The ideal exchange -/

/-- The ideal `snow` of the one exchange in its world, at an end that writes this message. -/
def ideally (K : KeyRing) (t : Transcript) (message : Filled maxHandshakeMessage) :
    Snow IK (Transcript × Side) :=
  noise K (⟨[((), t.greeting)], [((), t)]⟩ : HandshakeLedger Unit) ⟨none, message, none⟩

/-- Under the ideal `snow`, the exchange of a client with a server that has the identity
    it pins, and authorises it. -/
def idealExchange (K : KeyRing) {clientPrivate identity : StaticKey}
    (before after : List StaticKey) {clients : List StaticKey}
    (first reply : Filled maxHandshakeMessage)
    {t : Transcript}
    (ht : t = ⟨(K.publicKey clientPrivate).1, (K.publicKey identity).1, first.1, reply.1⟩)
    (hprivate : clientSetup.privateKey = .ok clientPrivate)
    (hpinned : clientSetup.serverKey = .ok (K.publicKey identity))
    (htls : clientSetup.outerTls = serverSetup.outerTls)
    (hname : clientSetup.outerTls = true → clientSetup.serverName = .ok ())
    (hkeys : serverSetup.privateKeys = .ok (before ++ identity :: after))
    (hfew : (before ++ identity :: after).length ≤ maxServerStaticIdentities)
    (hclients : serverSetup.clients = .ok clients)
    (hauthorised : K.publicKey clientPrivate ∈ clients)
    (hothers : ∀ key ∈ before, (K.publicKey key).1 ≠ (K.publicKey identity).1) :
    Exchange (ideally K t first) (ideally K t reply) clientSetup serverSetup where
  clientPrivate
  pinnedServer := K.publicKey identity
  before
  identity
  after
  clients
  client := K.publicKey clientPrivate
  initiator := .initiator clientPrivate (K.publicKey identity).1
  greeted := .greeted clientPrivate (K.publicKey identity).1 first.1
  responding := .responder identity
  heard := .heard identity (K.publicKey clientPrivate).1 first.1
  answered := .finished t .server
  finished := .finished t .client
  first
  reply
  clientTransport := .fresh (t, .client) (t, .server)
  serverTransport := .fresh (t, .server) (t, .client)
  privateKey := hprivate
  serverKey := hpinned
  outerTls := htls
  serverName := hname
  privateKeys := hkeys
  few := hfew
  allowed := hclients
  authorised := hauthorised
  dial := rfl
  greet := rfl
  others key hkey := ⟨.responder key, .decrypt, rfl, by
    simp [ideally, noise, HandshakeLedger.sender, ht, Transcript.greeting,
      (hothers key hkey).symm]⟩
  respond := rfl
  hear := by
    simp [ideally, noise, HandshakeLedger.sender, ht, Transcript.greeting, Chance.attempt]
  recognise := rfl
  answer := by simp [ideally, noise, ht, Chance.attempt]
  serve := rfl
  finish := by simp [ideally, noise, HandshakeLedger.replied, ht, Chance.attempt]
  conclude := rfl

/-- A server that keeps an old identity before the one that the client pins, and a client
    whose relay gets the first byte of the other. -/
theorem honest_conversation_rotated :
    let K : KeyRing := ⟨id, fun _ => true⟩
    let key (n : UInt8) : StaticKey := ⟨List.replicate 32 n, List.length_replicate⟩
    let t : Transcript := ⟨(key 1).1, (key 3).1, [7], [8]⟩
    ∃ c : Conversation Unit IK (Transcript × Side),
      (conversation (ideally K t ⟨[7], by decide⟩) (ideally K t ⟨[8], by decide⟩)
        ⟨false, .ok (), .ok (key 1), .ok (key 3)⟩
        ⟨false, .ok [key 2, key 3], .ok [key 1], ()⟩).Reachable EventSystem.always c ∧
      (∃ transport, c.client.phase = .relaying transport ∧
        transport = .fresh (t, .client) (t, .server)) ∧
      ∃ read, c.client.received = handshakeFrame [8] ++ read ∧
        read ++ (c.down.transit ++ c.down.lost) = [9] := by
  intro K key t
  let events : List ConversationEvent :=
    [.client .proceed, .client .proceed, .client .proceed, .client .proceed, .client .proceed,
      .client (.write 6), .client (.write 3), .client .proceed, .server .proceed,
      .server .proceed, .serverRead 4, .serverRead 2, .serverRead 2, .serverRead 1,
      .server (.write 3), .server .proceed, .clientRead 2, .clientRead 1, .server .proceed,
      .server .proceed, .server .proceed, .server (.relayWrite [9]), .clientRead 1]
  let c := ((conversation (ideally K t ⟨[7], by decide⟩) (ideally K t ⟨[8], by decide⟩)
    ⟨false, .ok (), .ok (key 1), .ok (key 3)⟩
    ⟨false, .ok [key 2, key 3], .ok [key 1], ()⟩).run EventSystem.always .initial events).get
      (by decide +kernel)
  have hreach : (conversation (ideally K t ⟨[7], by decide⟩) (ideally K t ⟨[8], by decide⟩)
      ⟨false, .ok (), .ok (key 1), .ok (key 3)⟩
      ⟨false, .ok [key 2, key 3], .ok [key 1], ()⟩).Reachable EventSystem.always c :=
    EventSystem.reachable_of_run rfl (Option.some_get _).symm
  let X : Exchange (ideally K t ⟨[7], by decide⟩) (ideally K t ⟨[8], by decide⟩)
      ⟨false, .ok (), .ok (key 1), .ok (key 3)⟩
      (⟨false, .ok [key 2, key 3], .ok [key 1], ()⟩ : Setup Unit) :=
    idealExchange K [key 2] [] _ _ rfl rfl rfl rfl (fun _ => rfl) rfl (by decide) rfl
      (by decide) (by decide)
  have hphase : ∃ transport, c.client.phase = .relaying transport := by
    have hrelaying : (match c.client.phase with | .relaying _ => true | _ => false) = true := by
      decide +kernel
    cases hphase : c.client.phase with
    | relaying transport => exact ⟨transport, rfl⟩
    | _ =>
      rw [hphase] at hrelaying
      cases hrelaying
  obtain ⟨transport, hphase⟩ := hphase
  obtain ⟨htransport, read, hreceived, hread⟩ :=
    (honest_conversation X hreach).2.2.2.1 transport hphase
  have hrelayed : c.server.relayed = [9] := by decide +kernel
  exact ⟨c, hreach, ⟨transport, hphase, htransport⟩, read, hreceived, hread.trans hrelayed⟩

/-! ## Progress -/

namespace ClientSession

variable {X : Exchange dialer responder clientSetup serverSetup} {x : ClientSession HS Key}

def isEnded (x : ClientSession HS Key) : Bool :=
  match x.phase with
  | .ended _ => true
  | _ => false

/-- How many events a client has before it until it relays, at most. -/
def toGo (X : Exchange dialer responder clientSetup serverSetup) (x : ClientSession HS Key) : ℕ :=
  match x.phase with
  | .localNodelay => X.greeting.length + X.response.length + 8
  | .localKeepalive => X.greeting.length + X.response.length + 7
  | .connecting => X.greeting.length + X.response.length + 6
  | .remoteNodelay => X.greeting.length + X.response.length + 5
  | .remoteKeepalive => X.greeting.length + X.response.length + 4
  | .tls => X.greeting.length + X.response.length + 3
  | .preface rest => rest.length + (handshakeFrame X.first.1).length + X.response.length + 2
  | .first _ rest => rest.length + X.response.length + 1
  | .flush _ => X.response.length + 1
  | .reply _ got => X.response.length - got.length
  | .relaying _ | .ended _ => 0

/-- A session goes on: it does not read, and nothing fails. -/
def Advances (X : Exchange dialer responder clientSetup serverSetup) (x : ClientSession HS Key) :
    Prop :=
  ∃ e x', (e = .proceed ∨ ∃ n, e = .write n) ∧ x.step dialer clientSetup e = some x' ∧
    x'.isEnded = false ∧ x'.toGo X < x.toGo X

/-- A client goes on by itself until it has written its greeting, and then waits for the
    response. -/
theorem Honest.advances_or (h : x.Honest X) (hlive : x.isEnded = false) : x.Advances X ∨
    x.sent = X.greeting ∧ ((∃ handshake got, x.phase = .reply handshake got) ∨
      ∃ transport, x.phase = .relaying transport) := by
  rw [Honest.eq_def] at h
  cases hphase : x.phase with
  | localNodelay =>
    exact .inl ⟨.proceed, x.goto .localKeepalive, .inl rfl, by rw [step.eq_def, hphase], rfl,
      by simp only [toGo, hphase, goto]; omega⟩
  | localKeepalive =>
    exact .inl ⟨.proceed, x.goto .connecting, .inl rfl, by rw [step.eq_def, hphase], rfl,
      by simp only [toGo, hphase, goto]; omega⟩
  | connecting =>
    exact .inl ⟨.proceed, x.goto .remoteNodelay, .inl rfl, by rw [step.eq_def, hphase], rfl,
      by simp only [toGo, hphase, goto]; omega⟩
  | remoteNodelay =>
    exact .inl ⟨.proceed, x.goto .remoteKeepalive, .inl rfl, by rw [step.eq_def, hphase], rfl,
      by simp only [toGo, hphase, goto]; omega⟩
  | remoteKeepalive =>
    refine .inl ⟨.proceed, x.afterKeepalive clientSetup, .inl rfl, by rw [step.eq_def, hphase], ?_⟩
    rw [afterKeepalive]
    split
    · rename_i htls
      rw [X.serverName htls]
      exact ⟨rfl, by simp only [toGo, hphase, goto]; omega⟩
    · rw [X.runNoise_client]
      exact ⟨rfl, by simp only [toGo, hphase, goto, Exchange.greeting, List.length_append]; omega⟩
  | tls =>
    refine .inl ⟨.proceed, x.runNoise clientSetup, .inl rfl, by rw [step.eq_def, hphase], ?_⟩
    rw [X.runNoise_client]
    exact ⟨rfl, by simp only [toGo, hphase, goto, Exchange.greeting, List.length_append]; omega⟩
  | preface rest =>
    rw [hphase] at h
    obtain ⟨-, hrest, -⟩ := h
    have hpos := List.length_pos_iff.2 hrest
    refine .inl ⟨.write rest.length, afterPreface dialer clientSetup
      { x with sent := x.sent ++ rest.take rest.length }, .inr ⟨_, rfl⟩, ?_, ?_⟩
    · simp only [step.eq_def, hphase]
      rw [if_pos ⟨hpos, Nat.le_refl _⟩, List.drop_length]
      rfl
    · rw [X.afterPreface_client]
      exact ⟨rfl, by simp only [toGo, hphase, goto]; omega⟩
  | first handshake rest =>
    rw [hphase] at h
    obtain ⟨-, -, hrest, -⟩ := h
    have hpos := List.length_pos_iff.2 hrest
    refine .inl ⟨.write rest.length,
      { x with phase := .flush handshake, sent := x.sent ++ rest.take rest.length },
      .inr ⟨_, rfl⟩, ?_, rfl, by simp only [toGo, hphase]; omega⟩
    simp only [step.eq_def, hphase]
    rw [if_pos ⟨hpos, Nat.le_refl _⟩, List.drop_length]
    rfl
  | flush handshake =>
    exact .inl ⟨.proceed, x.goto (.reply handshake []), .inl rfl, by rw [step.eq_def, hphase], rfl,
      by simp [toGo, hphase, goto]⟩
  | reply handshake got =>
    rw [hphase] at h
    exact .inr ⟨h.2.1, .inl ⟨handshake, got, rfl⟩⟩
  | relaying transport =>
    rw [hphase] at h
    exact .inr ⟨h.2.1, .inr ⟨transport, rfl⟩⟩
  | ended result =>
    rw [isEnded, hphase] at hlive
    cases hlive

/-- A byte of the response brings the client nearer to its relay. -/
theorem Honest.advances_read (h : x.Honest X) {handshake : ClientHandshake HS} {got : Bytes}
    (hphase : x.phase = .reply handshake got) {b : UInt8}
    (hread : ∃ more, x.received ++ [b] <+: X.response ++ more) :
    ∃ x', x.step dialer clientSetup (x.reading [b]) = some x' ∧ x'.isEnded = false ∧
      x'.toGo X < x.toGo X := by
  have hplace := h
  rw [Honest.eq_def, hphase] at hplace
  obtain ⟨rfl, hsent, hreceived, hpart⟩ := hplace
  obtain ⟨more, hmore⟩ := hread
  rw [hreceived] at hmore
  have hroom : [b].length ≤ handshakeFormat.room got := FrameFormat.room_pos hpart
  have hlt : got.length < X.response.length := by
    by_contra hge
    refine FrameFormat.not_isPrefix_of_isPart (isFrame_handshakeFrame X.reply) hpart ?_
    exact List.prefix_of_prefix_length_le (List.prefix_append X.response more)
      ((List.prefix_append got [b]).trans hmore) (Nat.not_lt.1 hge)
  rw [reading, step.eq_def, hphase]
  simp only [List.isEmpty_cons, Bool.false_eq_true, if_false]
  rw [if_pos hroom]
  rcases FrameFormat.progress_of_isPrefix (isFrame_handshakeFrame X.reply) hpart hroom hmore with
    ⟨hprogress, -⟩ | ⟨hprogress, hframe⟩
  · rw [hprogress]
    refine ⟨_, rfl, rfl, ?_⟩
    simp only [toGo, goto, hphase, List.length_append, List.length_singleton]
    omega
  · rw [hprogress]
    refine ⟨_, rfl, ?_⟩
    have hreply : got ++ [b] = X.response := hframe
    rw [hreply, X.afterReply_client]
    refine ⟨rfl, ?_⟩
    simp only [toGo, hphase]
    omega

end ClientSession

namespace ServerSession

variable {X : Exchange dialer responder clientSetup serverSetup} {x : ServerSession Addr HS Key}

def isEnded (x : ServerSession Addr HS Key) : Bool :=
  match x.phase with
  | .panicked | .ended _ => true
  | _ => false

/-- How many events a server has before it until it relays, at most. -/
def toGo (X : Exchange dialer responder clientSetup serverSetup)
    (x : ServerSession Addr HS Key) : ℕ :=
  match x.phase with
  | .nodelay => X.greeting.length + X.response.length + 8
  | .keepalive => X.greeting.length + X.response.length + 7
  | .tls => X.greeting.length + X.response.length + 6
  | .preface got => X.greeting.length + X.response.length + 5 - got.length
  | .first _ got =>
    (handshakeFrame X.first.1).length + X.response.length + 5 - got.length
  | .reply _ rest => rest.length + 4
  | .flush _ => 4
  | .connecting _ => 3
  | .destinationNodelay _ => 2
  | .destinationKeepalive _ => 1
  | .relaying _ | .panicked | .ended _ => 0

/-- A session goes on: it does not read, and nothing fails. -/
def Advances (X : Exchange dialer responder clientSetup serverSetup)
    (x : ServerSession Addr HS Key) : Prop :=
  ∃ e x', (e = .proceed ∨ ∃ n, e = .write n) ∧ x.step responder serverSetup e = some x' ∧
    x'.isEnded = false ∧ x'.toGo X < x.toGo X

/-- A server goes on by itself but where it waits for the greeting. -/
theorem Honest.advances_or (h : x.Honest X) (hlive : x.isEnded = false) : x.Advances X ∨
    (∃ got, x.phase = .preface got) ∨ (∃ handshake got, x.phase = .first handshake got) ∨
      ∃ transport, x.phase = .relaying transport := by
  rw [Honest.eq_def] at h
  cases hphase : x.phase with
  | nodelay =>
    exact .inl ⟨.proceed, x.goto .keepalive, .inl rfl, by rw [step.eq_def, hphase], rfl,
      by simp only [toGo, hphase, goto]; omega⟩
  | keepalive =>
    refine .inl ⟨.proceed, _, .inl rfl, by rw [step.eq_def, hphase], ?_⟩
    split
    · exact ⟨rfl, by simp only [toGo, hphase, goto]; omega⟩
    · rw [X.runNoise_server]
      exact ⟨rfl, by simp only [toGo, hphase, goto]; omega⟩
  | tls =>
    refine .inl ⟨.proceed, _, .inl rfl, by rw [step.eq_def, hphase], ?_⟩
    rw [X.runNoise_server]
    exact ⟨rfl, by simp only [toGo, hphase, goto]; omega⟩
  | preface got => exact .inr (.inl ⟨got, rfl⟩)
  | first handshake got => exact .inr (.inr (.inl ⟨handshake, got, rfl⟩))
  | reply reply rest =>
    rw [hphase] at h
    obtain ⟨-, -, -, hrest, -⟩ := h
    have hpos := List.length_pos_iff.2 hrest
    refine .inl ⟨.write rest.length,
      { x with phase := .flush reply, effects := x.effects ++ [.reply (rest.take rest.length)] },
      .inr ⟨_, rfl⟩, ?_, rfl, by simp only [toGo, hphase]; omega⟩
    simp only [step.eq_def, hphase]
    rw [if_pos ⟨hpos, Nat.le_refl _⟩, List.drop_length]
    rfl
  | flush reply =>
    rw [hphase] at h
    obtain ⟨rfl, -⟩ := h
    refine .inl ⟨.proceed, _, .inl rfl, by rw [step.eq_def, hphase], ?_⟩
    rw [X.afterFlush_server]
    exact ⟨rfl, by simp only [toGo, hphase]; omega⟩
  | connecting transport =>
    exact .inl ⟨.proceed, x.goto (.destinationNodelay transport), .inl rfl,
      by rw [step.eq_def, hphase], rfl, by simp only [toGo, hphase, goto]; omega⟩
  | destinationNodelay transport =>
    exact .inl ⟨.proceed, x.goto (.destinationKeepalive transport), .inl rfl,
      by rw [step.eq_def, hphase], rfl, by simp only [toGo, hphase, goto]; omega⟩
  | destinationKeepalive transport =>
    exact .inl ⟨.proceed, x.goto (.relaying transport), .inl rfl,
      by rw [step.eq_def, hphase], rfl, by simp only [toGo, hphase, goto]; omega⟩
  | relaying transport => exact .inr (.inr (.inr ⟨transport, rfl⟩))
  | panicked | ended =>
    rw [isEnded, hphase] at hlive
    cases hlive

/-- A byte of the greeting brings the server nearer to its relay. -/
theorem Honest.advances_read (h : x.Honest X) (hphase : (∃ got, x.phase = .preface got) ∨
    ∃ handshake got, x.phase = .first handshake got) {b : UInt8}
    (hread : ∃ more, x.received ++ [b] <+: X.greeting ++ more) :
    ∃ x', x.step responder serverSetup (x.reading [b]) = some x' ∧ x'.isEnded = false ∧
      x'.toGo X < x.toGo X := by
  have hplace := h
  obtain ⟨more, hmore⟩ := hread
  obtain ⟨got, hphase⟩ | ⟨handshake, got, hphase⟩ := hphase
  · rw [Honest.eq_def, hphase] at hplace
    obtain ⟨hreceived, hlt, -⟩ := hplace
    rw [hreceived] at hmore
    rw [reading, step.eq_def, hphase]
    simp only [List.isEmpty_cons, Bool.false_eq_true, if_false]
    rw [if_pos (by rw [List.length_append]; exact hlt)]
    split
    · refine ⟨_, rfl, rfl, ?_⟩
      simp only [toGo, goto, hphase, List.length_append, List.length_singleton,
        Exchange.greeting]
      omega
    · rename_i hwhole
      have hpreface : got ++ [b] = prefaceBytes := by
        rw [Exchange.greeting, List.append_assoc] at hmore
        have hle : (got ++ [b]).length ≤ prefaceBytes.length := by
          rw [List.length_append]
          exact hlt
        exact (List.prefix_of_prefix_length_le hmore (List.prefix_append ..) hle).eq_of_length
          (Nat.le_antisymm hle (Nat.not_lt.1 hwhole))
      refine ⟨_, rfl, ?_⟩
      rw [hpreface, X.afterPreface_server]
      refine ⟨rfl, ?_⟩
      simp only [toGo, goto, hphase, Exchange.greeting, List.length_append, List.length_nil]
      omega
  · rw [Honest.eq_def, hphase] at hplace
    obtain ⟨rfl, hreceived, hpart, -⟩ := hplace
    rw [hreceived, Exchange.greeting, List.append_assoc, List.append_assoc,
      List.prefix_append_right_inj] at hmore
    have hroom : [b].length ≤ handshakeFormat.room got := FrameFormat.room_pos hpart
    have hlt : got.length < (handshakeFrame X.first.1).length := by
      by_contra hge
      refine FrameFormat.not_isPrefix_of_isPart (isFrame_handshakeFrame X.first) hpart ?_
      exact List.prefix_of_prefix_length_le (List.prefix_append _ more)
        ((List.prefix_append got [b]).trans hmore) (Nat.not_lt.1 hge)
    rw [reading, step.eq_def, hphase]
    simp only [List.isEmpty_cons, Bool.false_eq_true, if_false]
    rw [if_pos hroom]
    rcases FrameFormat.progress_of_isPrefix (isFrame_handshakeFrame X.first) hpart hroom hmore with
      ⟨hprogress, -⟩ | ⟨hprogress, hframe⟩
    · rw [hprogress]
      refine ⟨_, rfl, rfl, ?_⟩
      simp only [toGo, goto, hphase, List.length_append, List.length_singleton]
      omega
    · rw [hprogress]
      refine ⟨_, rfl, ?_⟩
      rw [hframe, X.afterFirst_server]
      refine ⟨rfl, ?_⟩
      simp only [toGo, goto, hphase]
      omega

end ServerSession

namespace Conversation

variable {X : Exchange dialer responder clientSetup serverSetup}

/-- The events of sessions that go on: nothing fails, and a read brings something. -/
def Goes (_ : Conversation Addr HS Key) : ConversationEvent → Prop
  | .client e | .server e => e = .proceed ∨ ∃ n, e = .write n
  | .clientRead count | .serverRead count => count ≠ 0
  | _ => False

/-- Neither session has ended, and the network has cut neither stream. -/
structure Stands (c : Conversation Addr HS Key) : Prop where
  client : c.client.isEnded = false
  server : c.server.isEnded = false
  up : c.up.cut = false
  down : c.down.cut = false

def toGo (X : Exchange dialer responder clientSetup serverSetup) (c : Conversation Addr HS Key) :
    ℕ :=
  c.client.toGo X + c.server.toGo X

/-- An event of sessions that go on, after which less is left to do. -/
def Advances (X : Exchange dialer responder clientSetup serverSetup)
    (c : Conversation Addr HS Key) : Prop :=
  ∃ e c', Goes c e ∧ c.step dialer responder clientSetup serverSetup e = some c' ∧ c'.Stands ∧
    c'.toGo X < c.toGo X

theorem not_reads {e : SessionEvent} (h : e = .proceed ∨ ∃ n, e = .write n) : e.reads = false := by
  obtain rfl | ⟨n, rfl⟩ := h <;> rfl

theorem Stands.client_advances (h : c.Stands) (hadvances : c.client.Advances X) :
    c.Advances X := by
  obtain ⟨e, client, he, hstep, hlive, hlt⟩ := hadvances
  refine ⟨.client e, { c with
    client
    up := c.up.write (client.sent.drop c.client.sent.length ++ e.relayed)
    relayed := c.relayed ++ e.relayed }, he, ?_,
    ⟨hlive, h.server, (Pipe.cut_write ..).trans h.up, h.down⟩, Nat.add_lt_add_right hlt _⟩
  rw [step, if_neg (Bool.eq_false_iff.1 (not_reads he)), hstep]
  rfl

theorem Stands.server_advances (h : c.Stands) (hadvances : c.server.Advances X) :
    c.Advances X := by
  obtain ⟨e, server, he, hstep, hlive, hlt⟩ := hadvances
  refine ⟨.server e, { c with
    server
    down := c.down.write ((server.replied ++ server.relayed).drop
      (c.server.replied ++ c.server.relayed).length) }, he, ?_,
    ⟨h.client, hlive, h.up, (Pipe.cut_write ..).trans h.down⟩, Nat.add_lt_add_left hlt _⟩
  rw [step, if_neg (Bool.eq_false_iff.1 (not_reads he)), hstep]
  rfl

/-- The server waits for bytes of the greeting, and they are in transit. -/
theorem Stands.server_reads (h : c.Stands) (hinv : c.Inv X) (hsent : c.client.sent = X.greeting)
    (hphase : (∃ got, c.server.phase = .preface got) ∨
      ∃ handshake got, c.server.phase = .first handshake got) : c.Advances X := by
  have hwritten := hinv.up_written
  rw [Pipe.written_of_not_cut h.up, hinv.up_taken, hsent] at hwritten
  have hserver := hinv.server
  rw [ServerSession.Honest.eq_def] at hserver
  rcases htransit : c.up.transit with _ | ⟨b, rest⟩
  · -- The whole greeting is read, which the server would not wait for.
    rw [htransit, List.append_nil] at hwritten
    obtain ⟨got, hphase⟩ | ⟨handshake, got, hphase⟩ := hphase
    · rw [hphase] at hserver
      obtain ⟨hreceived, hlt, -⟩ := hserver
      have hlen := congrArg List.length hwritten
      rw [hreceived, Exchange.greeting] at hlen
      simp only [List.length_append] at hlen
      omega
    · rw [hphase] at hserver
      obtain ⟨-, hreceived, hpart, -⟩ := hserver
      rw [hreceived, Exchange.greeting, List.append_assoc] at hwritten
      refine absurd ?_ (FrameFormat.not_isPrefix_of_isPart (isFrame_handshakeFrame X.first) hpart)
      rw [List.append_cancel_left hwritten]
      exact List.prefix_append ..
  · rw [htransit] at hwritten
    have hread : ∃ more, c.server.received ++ [b] <+: X.greeting ++ more :=
      ⟨c.relayed, rest, by rw [← hwritten, List.append_assoc, List.singleton_append]⟩
    obtain ⟨server, hstep, hlive, hlt⟩ := hinv.server.advances_read hphase hread
    have hnext : c.up.read 1 1 = some ([b], { c.up with
        taken := c.up.taken ++ [b], transit := rest }) :=
      Pipe.read_next (List.singleton_append ▸ htransit) (List.cons_ne_nil _ _)
    refine ⟨.serverRead 1, { c with
      server, up := { c.up with taken := c.up.taken ++ [b], transit := rest } },
      Nat.one_ne_zero, ?_, ⟨h.client, hlive, h.up, h.down⟩, Nat.add_lt_add_left hlt _⟩
    simp only [step, hnext, Option.bind_some, hstep, Option.map_some]

/-- The client waits for bytes of the response, and they are in transit. -/
theorem Stands.client_reads (h : c.Stands) (hinv : c.Inv X) {handshake : ClientHandshake HS}
    {got : Bytes} (hphase : c.client.phase = .reply handshake got)
    (hreplied : c.server.replied = X.response) : c.Advances X := by
  have hwritten := hinv.down_written
  rw [Pipe.written_of_not_cut h.down, hinv.down_taken, hreplied] at hwritten
  have hclient := hinv.client
  rw [ClientSession.Honest.eq_def, hphase] at hclient
  obtain ⟨-, -, hreceived, hpart⟩ := hclient
  rcases htransit : c.down.transit with _ | ⟨b, rest⟩
  · rw [htransit, List.append_nil, hreceived] at hwritten
    refine absurd ?_ (FrameFormat.not_isPrefix_of_isPart (isFrame_handshakeFrame X.reply) hpart)
    rw [hwritten]
    exact List.prefix_append ..
  · rw [htransit] at hwritten
    have hread : ∃ more, c.client.received ++ [b] <+: X.response ++ more :=
      ⟨c.server.relayed, rest, by rw [← hwritten, List.append_assoc, List.singleton_append]⟩
    obtain ⟨client, hstep, hlive, hlt⟩ := hinv.client.advances_read hphase hread
    have hnext : c.down.read 1 1 = some ([b], { c.down with
        taken := c.down.taken ++ [b], transit := rest }) :=
      Pipe.read_next (List.singleton_append ▸ htransit) (List.cons_ne_nil _ _)
    refine ⟨.clientRead 1, { c with
      client, down := { c.down with taken := c.down.taken ++ [b], transit := rest } },
      Nat.one_ne_zero, ?_, ⟨hlive, h.server, h.up, h.down⟩, Nat.add_lt_add_right hlt _⟩
    simp only [step, hnext, Option.bind_some, hstep, Option.map_some]

/-- Both sessions relay. -/
def Relays (c : Conversation Addr HS Key) : Prop :=
  (∃ transport, c.client.phase = .relaying transport) ∧
    ∃ transport, c.server.phase = .relaying transport

/-- Until both sessions relay, one of them advances: they never wait for each other. -/
theorem Stands.advances (h : c.Stands) (hinv : c.Inv X) (hleft : ¬c.Relays) :
    c.Advances X := by
  rcases hinv.client.advances_or h.client with hclient | ⟨hsent, hclient⟩
  · exact h.client_advances hclient
  rcases hinv.server.advances_or h.server with hserver | hpreface | hfirst | hserver
  · exact h.server_advances hserver
  · exact h.server_reads hinv hsent (.inl hpreface)
  · exact h.server_reads hinv hsent (.inr hfirst)
  · rcases hclient with ⟨handshake, got, hphase⟩ | hclient
    · obtain ⟨transport, hserver⟩ := hserver
      have hplace := hinv.server
      rw [ServerSession.Honest.eq_def, hserver] at hplace
      exact h.client_reads hinv hphase hplace.2.2
    · exact absurd ⟨hclient, hserver⟩ hleft

/-- Two sessions that stand get to relay, without any further failure. -/
theorem exists_relays (X : Exchange dialer responder clientSetup serverSetup) (hinv : c.Inv X)
    (hstands : c.Stands) :
    ∃ c', (conversation dialer responder clientSetup serverSetup).Path Goes c c' ∧ c'.Inv X ∧
      c'.Relays := by
  have hprogress : ∀ c₁ : Conversation Addr HS Key, (c₁.Inv X ∧ c₁.Stands) → ¬c₁.Relays →
      ∃ e c₂, Goes c₁ e ∧
        (conversation dialer responder clientSetup serverSetup).step c₁ e = some c₂ ∧
        (c₂.Inv X ∧ c₂.Stands) ∧ c₂.toGo X < c₁.toGo X := by
    rintro c₁ ⟨hinv₁, hstands₁⟩ hleft
    obtain ⟨e, c₂, hgoes, hstep, hstands₂, hlt⟩ := hstands₁.advances hinv₁ hleft
    exact ⟨e, c₂, hgoes, hstep, ⟨hinv₁.step hstep, hstands₂⟩, hlt⟩
  obtain ⟨c', hpath, ⟨hinv', -⟩, hrelays⟩ :=
    EventSystem.exists_path_of_measure (toGo X) hprogress ⟨hinv, hstands⟩
  exact ⟨c', hpath, hinv', hrelays⟩

/-- They relay with the two halves of the exchange. -/
theorem Inv.relaying (h : c.Inv X) (hrelays : c.Relays) :
    c.client.phase = .relaying X.clientTransport ∧
      c.server.phase = .relaying X.serverTransport := by
  obtain ⟨⟨transport, hclient⟩, transport', hserver⟩ := hrelays
  have hclientPlace := h.client
  have hserverPlace := h.server
  rw [ClientSession.Honest.eq_def, hclient] at hclientPlace
  rw [ServerSession.Honest.eq_def, hserver] at hserverPlace
  exact ⟨hclientPlace.1 ▸ hclient, hserverPlace.1 ▸ hserver⟩

end Conversation

/-- From every state that a client and a server with matching keys can get to, as long
    as neither has ended and no stream is cut, the two can complete their handshake
    without any further failure: both then relay, with the two halves of the exchange. -/
theorem handshake_possible (X : Exchange dialer responder clientSetup serverSetup)
    {allow : Conversation Addr HS Key → ConversationEvent → Prop}
    (h : (conversation dialer responder clientSetup serverSetup).Reachable allow c)
    (hstands : c.Stands) :
    ∃ c', (conversation dialer responder clientSetup serverSetup).Path Conversation.Goes c c' ∧
      c'.client.phase = .relaying X.clientTransport ∧
      c'.server.phase = .relaying X.serverTransport := by
  obtain ⟨c', hpath, hinv, hrelays⟩ :=
    Conversation.exists_relays X (Conversation.inv_of_reachable X h) hstands
  exact ⟨c', hpath, hinv.relaying hrelays⟩

/-- The same server and client, from the start. -/
theorem handshake_possible_rotated :
    let K : KeyRing := ⟨id, fun _ => true⟩
    let key (n : UInt8) : StaticKey := ⟨List.replicate 32 n, List.length_replicate⟩
    let t : Transcript := ⟨(key 1).1, (key 3).1, [7], [8]⟩
    ∃ c' : Conversation Unit IK (Transcript × Side),
      (conversation (ideally K t ⟨[7], by decide⟩) (ideally K t ⟨[8], by decide⟩)
        ⟨false, .ok (), .ok (key 1), .ok (key 3)⟩
        ⟨false, .ok [key 2, key 3], .ok [key 1], ()⟩).Path Conversation.Goes .initial c' ∧
      c'.client.phase = .relaying (.fresh (t, .client) (t, .server)) ∧
      c'.server.phase = .relaying (.fresh (t, .server) (t, .client)) := by
  intro K key t
  let X : Exchange (ideally K t ⟨[7], by decide⟩) (ideally K t ⟨[8], by decide⟩)
      ⟨false, .ok (), .ok (key 1), .ok (key 3)⟩
      (⟨false, .ok [key 2, key 3], .ok [key 1], ()⟩ : Setup Unit) :=
    idealExchange K [key 2] [] _ _ rfl rfl rfl rfl (fun _ => rfl) rfl (by decide) rfl
      (by decide) (by decide)
  have hreach : (conversation (ideally K t ⟨[7], by decide⟩) (ideally K t ⟨[8], by decide⟩)
      ⟨false, .ok (), .ok (key 1), .ok (key 3)⟩
      ⟨false, .ok [key 2, key 3], .ok [key 1], ()⟩).Reachable EventSystem.always .initial :=
    .init rfl
  exact handshake_possible X hreach ⟨rfl, rfl, rfl, rfl⟩

end SecureTunnel
