import Mathlib.Data.List.Nodup
import SecureTunnel.Core.Channel
import SecureTunnel.Protocol.Noise

/-!
# Peers over an open network

Any number of clients and servers, honest or not, that use the core over a network
that belongs to the attacker: it gives every call whatever bytes it picks, in any
order, so it replays, alters, drops and moves the messages of handshakes and the
records of sessions at will. The calls are those of the handshake objects and of the
sessions that they become. Among themselves the honest parties have the ideal `snow`
(`noise`, `guarded`); for all others it does anything.

* `Peers.Inv`: what every object holds, and what its peers must have done for it.
* `Peers.Move`, `Peers.step_move`: all that a call can do.
* `agreement`: a client that has finished its handshake shares it with exactly one
  server, the one it pins.
-/

namespace SecureTunnel

variable {ι : Type*}

/-- A client's handshake object, and the keys it was made of. -/
structure Dialer where
  clientPrivate : StaticKey
  pinnedServer : StaticKey
  handshake : ClientHandshake IK

/-- A server's handshake object, the keys it was made of, and the reply it has yielded,
    until that becomes a session. -/
structure Responder where
  serverPrivates : List StaticKey
  authorisedClients : List StaticKey
  handshake : ServerHandshake
  reply : Option (ServerReply IK)

/-- The objects of the peers, named by an index and a side. A session is kept with the
    exchange it came of; what was sealed and what was opened under a key, with the key. -/
structure Peers (ι : Type*) where
  clients : ι → Option Dialer
  servers : ι → Option Responder
  ledger : HandshakeLedger ι
  sessions : End ι → Option Transcript
  heap : Heap (End ι) (End Transcript)
  sealed : End Transcript → List Record
  opened : End Transcript → List Opened

/-- A call on an object, with what is left to chance in it. -/
inductive PeerEvent (ι : Type*)
  | newClient (i : ι) (clientPrivate pinnedServer : StaticKey) (chance : Chance)
  | firstMessage (i : ι) (chance : Chance)
  | finish (i : ι) (serverFrame : Bytes) (chance : Chance)
  | newServer (i : ι) (serverPrivates authorisedClients : List StaticKey)
  | acceptPreface (i : ι) (preface : Bytes)
  | receiveClient (i : ι) (clientFrame : Bytes) (chance : ℕ → Chance)
  | message (i : ι) (chance : Chance)
  | intoSession (i : ι) (chance : Chance)
  | encrypt (e : End ι) (plaintext : Bytes)
  | decrypt (e : End ι) (frame : Bytes)

/-- The cipher of the sessions: ideal under the keys of an exchange between honest
    parties, and of any kind under all others. -/
def guarded (K : KeyRing) (S : Sealing (End Transcript)) (weak : Aead (End Transcript))
    (sealed : End Transcript → List Record) : Aead (End Transcript) where
  encrypt key := if key.1.Secret K then (ideal S sealed).encrypt key else weak.encrypt key
  decrypt key := if key.1.Secret K then (ideal S sealed).decrypt key else weak.decrypt key

variable [DecidableEq ι] (K : KeyRing) (S : Sealing (End Transcript))
  (weak : Aead (End Transcript)) (split : End ι → Bool)

namespace Peers

def initial (ι : Type*) : Peers ι where
  clients _ := none
  servers _ := none
  ledger := ⟨[], []⟩
  sessions _ := none
  heap _ := ⟨false, none⟩
  sealed _ := []
  opened _ := []

/-- The client object of an index, after a call. -/
def setClient (w : Peers ι) (i : ι) (d : Dialer) : Peers ι :=
  { w with clients := Function.update w.clients i (some d) }

def setServer (w : Peers ι) (i : ι) (a : Responder) : Peers ι :=
  { w with servers := Function.update w.servers i (some a) }

/-- A completed handshake becomes a session. -/
def establish (w : Peers ι) (e : End ι) (transport : TransportState (End Transcript)) : Peers ι :=
  { w with
    sessions := Function.update w.sessions e (some transport.send.key.1)
    heap := (TransportSession.new w.heap e transport).2 }

section Objects

variable {w : Peers ι} {i j : ι} {e e' : End ι}

@[simp] theorem clients_setClient_self (d : Dialer) : (w.setClient i d).clients i = some d :=
  Function.update_self ..

theorem clients_setClient_of_ne (d : Dialer) (h : j ≠ i) :
    (w.setClient i d).clients j = w.clients j :=
  Function.update_of_ne h ..

@[simp] theorem servers_setServer_self (a : Responder) : (w.setServer i a).servers i = some a :=
  Function.update_self ..

theorem servers_setServer_of_ne (a : Responder) (h : j ≠ i) :
    (w.setServer i a).servers j = w.servers j :=
  Function.update_of_ne h ..

@[simp] theorem sessions_establish_self (transport : TransportState (End Transcript)) :
    (w.establish e transport).sessions e = some transport.send.key.1 :=
  Function.update_self ..

theorem sessions_establish_of_ne (transport : TransportState (End Transcript)) (h : e' ≠ e) :
    (w.establish e transport).sessions e' = w.sessions e' :=
  Function.update_of_ne h ..

@[simp] theorem heap_establish_self (transport : TransportState (End Transcript)) :
    (w.establish e transport).heap e = Cell.new transport :=
  Function.update_self ..

theorem heap_establish_of_ne (transport : TransportState (End Transcript)) (h : e' ≠ e) :
    (w.establish e transport).heap e' = w.heap e' :=
  Function.update_of_ne h ..

end Objects

def newClient (w : Peers ι) (i : ι) (clientPrivate pinnedServer : StaticKey) (chance : Chance) :
    Peers ι :=
  match ClientHandshake.new (noise K w.ledger chance) clientPrivate pinnedServer with
  | .error _ => w
  | .ok handshake => w.setClient i ⟨clientPrivate, pinnedServer, handshake⟩

/-- A first message that was written is on the ledger. -/
def firstMessage (w : Peers ι) (i : ι) (d : Dialer) (chance : Chance) : Peers ι :=
  match d.handshake.firstMessage (noise K w.ledger chance) with
  | (.error _, handshake) => w.setClient i { d with handshake }
  | (.ok _, handshake) =>
    { w.setClient i { d with handshake } with
      ledger.greetings := w.ledger.greetings ++
        (handshake.state.bind (IK.greeting K)).toList.map (i, ·) }

def finish (w : Peers ι) (i : ι) (d : Dialer) (serverFrame : Bytes) (chance : Chance) : Peers ι :=
  match d.handshake.finish (noise K w.ledger chance) serverFrame with
  | (.error _, handshake) => w.setClient i { d with handshake }
  | (.ok transport, handshake) =>
    (w.setClient i { d with handshake }).establish (i, .client) transport

def newServer (w : Peers ι) (i : ι) (serverPrivates authorisedClients : List StaticKey) :
    Peers ι :=
  match ServerHandshake.newWithStaticIdentities serverPrivates authorisedClients with
  | .error _ => w
  | .ok handshake => w.setServer i ⟨serverPrivates, authorisedClients, handshake, none⟩

def receiveClient (w : Peers ι) (i : ι) (a : Responder) (clientFrame : Bytes)
    (chance : ℕ → Chance) : Peers ι :=
  let received := a.handshake.receiveClient (fun n => noise K w.ledger (chance n)) clientFrame
  w.setServer i { a with
    handshake := received.handshake
    reply := match received.result with
      | .error _ => a.reply
      | .ok reply => some reply }

/-- A reply that was written is on the ledger. -/
def message (w : Peers ι) (i : ι) (a : Responder) (reply : ServerReply IK) (chance : Chance) :
    Peers ι :=
  match reply.message (noise K w.ledger chance) with
  | (.error _, reply) => w.setServer i { a with reply := some reply }
  | (.ok _, reply) =>
    { w.setServer i { a with reply := some reply } with
      ledger.replies := w.ledger.replies ++
        (reply.state.bind IK.transcript).toList.map (i, ·) }

def intoSession (w : Peers ι) (i : ι) (a : Responder) (reply : ServerReply IK) (chance : Chance) :
    Peers ι :=
  match reply.intoSession (noise K w.ledger chance) with
  | .error _ => w.setServer i { a with reply := none }
  | .ok transport =>
    (w.setServer i { a with reply := none }).establish (i, .server) transport

/-- A session seals a plaintext under the key of its side. -/
def encrypt (w : Peers ι) (e : End ι) (t : Transcript) (plaintext : Bytes) : Peers ι :=
  match ((TransportSession.mk e).handles (split e)).call (guarded K S weak w.sealed) w.heap
    (.encrypt plaintext) with
  | (.error _, heap) => { w with heap }
  | (.ok frame, heap) =>
    { w with
      heap
      sealed := Function.update w.sealed (t, e.2) (w.sealed (t, e.2) ++ [⟨plaintext, frame⟩]) }

/-- What `decrypt_record` returns to a session that is given a frame, and the mutexes
    after it. -/
def decryptRecord (w : Peers ι) (e : End ι) (frame : Bytes) :
    Except TunnelError Bytes × Heap (End ι) (End Transcript) :=
  ((TransportSession.mk e).handles (split e)).call (guarded K S weak w.sealed) w.heap
    (.decrypt frame)

/-- A session is given a frame. -/
def decrypt (w : Peers ι) (e : End ι) (t : Transcript) (frame : Bytes) : Peers ι :=
  match w.decryptRecord K S weak split e frame with
  | (.error _, heap) => { w with heap }
  | (.ok plaintext, heap) =>
    let nonce := (w.heap e).state.elim 0 (·.recv.nonce)
    { w with
      heap
      opened := Function.update w.opened (t, e.2.peer)
        (w.opened (t, e.2.peer) ++ [⟨nonce, plaintext, frame⟩]) }

end Peers

/-- The calls of all peers, in any order, on whatever bytes. -/
def peers : EventSystem (Peers ι) (PeerEvent ι) where
  init w := w = .initial ι
  step w
    | .newClient i clientPrivate pinnedServer chance =>
      if (w.clients i).isNone then some (w.newClient K i clientPrivate pinnedServer chance)
      else none
    | .firstMessage i chance => (w.clients i).map fun d => w.firstMessage K i d chance
    | .finish i serverFrame chance => (w.clients i).map fun d => w.finish K i d serverFrame chance
    | .newServer i serverPrivates authorisedClients =>
      if (w.servers i).isNone then some (w.newServer i serverPrivates authorisedClients)
      else none
    | .acceptPreface i preface => (w.servers i).map fun a =>
      w.setServer i { a with handshake := (a.handshake.acceptPreface preface).2 }
    | .receiveClient i clientFrame chance =>
      (w.servers i).map fun a => w.receiveClient K i a clientFrame chance
    | .message i chance => (w.servers i).bind fun a =>
      a.reply.map fun reply => w.message K i a reply chance
    | .intoSession i chance => (w.servers i).bind fun a =>
      a.reply.map fun reply => w.intoSession K i a reply chance
    | .encrypt e plaintext =>
      (w.sessions e).map fun t => w.encrypt K S weak split e t plaintext
    | .decrypt e frame => (w.sessions e).map fun t => w.decrypt K S weak split e t frame

/-- No message that `snow` writes repeats an earlier one: its ephemeral key is fresh. -/
def Fresh (w : Peers ι) : PeerEvent ι → Prop
  | .firstMessage _ chance => ∀ g ∈ w.ledger.greetings, g.2.message ≠ chance.message.1
  | .message _ chance => ∀ r ∈ w.ledger.replies, r.2.reply ≠ chance.message.1
  | _ => True

instance (w : Peers ι) : (event : PeerEvent ι) → Decidable (Fresh w event)
  | .firstMessage _ chance =>
    inferInstanceAs (Decidable (∀ g ∈ w.ledger.greetings, g.2.message ≠ chance.message.1))
  | .message _ chance =>
    inferInstanceAs (Decidable (∀ r ∈ w.ledger.replies, r.2.reply ≠ chance.message.1))
  | .newClient .. | .finish .. | .newServer .. | .acceptPreface .. | .receiveClient ..
  | .intoSession .. | .encrypt .. | .decrypt .. => .isTrue trivial

/-! ## The invariant -/

section Inv

variable {ι : Type*} (K : KeyRing)

/-- The greeting of a client's exchange. -/
def Dialer.greeting (d : Dialer) (first : Bytes) : Greeting :=
  ⟨(K.publicKey d.clientPrivate).1, d.pinnedServer.1, first⟩

/-- A handshake object of a client has written nothing, or its first message, which is
    on the ledger, or it is spent. -/
def Dialer.Inv (L : HandshakeLedger ι) (i : ι) (d : Dialer) : Prop :=
  d.handshake.state = none ∨
  d.handshake = ⟨some (.initiator d.clientPrivate d.pinnedServer.1), false⟩ ∨
  ∃ first, d.handshake = ⟨some (.greeted d.clientPrivate d.pinnedServer.1 first), true⟩ ∧
    (i, d.greeting K first) ∈ L.greetings

/-- An exchange is with one of a server's identities, and from a client that it
    authorises; an honest client began it. -/
structure HandshakeLedger.Serves (L : HandshakeLedger ι)
    (serverPrivates authorisedClients : List StaticKey) (g : Greeting) : Prop where
  identity : ∃ identity ∈ serverPrivates, (K.publicKey identity).1 = g.server
  authorised : g.client ∈ authorisedClients.map (·.1)
  honest : K.honest g.client = true → K.honest g.server = true → ∃ j, (j, g) ∈ L.greetings

/-- What the reply of a server holds: a first message that it has read, or the exchange
    that its answer has completed, which is on the ledger. -/
def Responder.Holds (L : HandshakeLedger ι) (i : ι) (a : Responder) (r : ServerReply IK) : Prop :=
  r.state = none ∨
  (∃ identity client first, r = ⟨some (.heard identity client first), false⟩ ∧
    L.Serves K a.serverPrivates a.authorisedClients ⟨client, (K.publicKey identity).1, first⟩) ∨
  ∃ t, r = ⟨some (.finished t .server), true⟩ ∧ (i, t) ∈ L.replies

/-- A handshake object of a server has its identities, or has tried them on a first
    message and may have yielded a reply. -/
structure Responder.Inv (L : HandshakeLedger ι) (i : ι) (a : Responder) : Prop where
  allowList : a.handshake.allowList = a.authorisedClients
  identities : a.handshake.staticIdentities = none ∨
    a.handshake.staticIdentities.map (·.1) = some a.serverPrivates ∧ a.reply = none
  reply : ∀ r, a.reply = some r → a.Holds K L i r

/-- What every object holds, and what its peers have done for it. -/
structure Peers.Inv (w : Peers ι) : Prop where
  greetings_nodup : (w.ledger.greetings.map (·.2.message)).Nodup
  replies_nodup : (w.ledger.replies.map (·.2.reply)).Nodup
  dialers : ∀ i d, w.clients i = some d → d.Inv K w.ledger i
  responders : ∀ i a, w.servers i = some a → a.Inv K w.ledger i
  /-- Who wrote a first message. -/
  greeted : ∀ i g, (i, g) ∈ w.ledger.greetings → ∃ d, w.clients i = some d ∧
    g = d.greeting K g.message
  /-- Who wrote a reply. -/
  replied : ∀ i t, (i, t) ∈ w.ledger.replies → ∃ a, w.servers i = some a ∧
    w.ledger.Serves K a.serverPrivates a.authorisedClients t.greeting
  clientSessions : ∀ i t, w.sessions (i, .client) = some t →
    (∃ d, w.clients i = some d ∧ d.handshake.state = none) ∧
      (i, t.greeting) ∈ w.ledger.greetings ∧ (t.Secret K → ∃ j, (j, t) ∈ w.ledger.replies)
  serverSessions : ∀ i t, w.sessions (i, .server) = some t →
    (∃ a, w.servers i = some a ∧ a.reply = none ∧ a.handshake.staticIdentities = none) ∧
      (i, t) ∈ w.ledger.replies
  sealed : ∀ t side, w.sealed (t, side) ≠ [] → ∃ i, w.sessions (i, side) = some t
  opened : ∀ t side, w.opened (t, side) ≠ [] → ∃ i, w.sessions (i, side.peer) = some t

/-! ## Moves -/

/-- All that a call on a handshake object can do. -/
inductive Peers.Move [DecidableEq ι] (w : Peers ι) : Peers ι → Prop
  | refused : Move w w
  /-- The call is refused, or `snow` fails and the client's object is spent. -/
  | client {i : ι} {d : Dialer} {h : ClientHandshake IK} : w.clients i = some d →
      (h = d.handshake ∨ h.state = none) → Move w (w.setClient i { d with handshake := h })
  | newClient {i : ι} {clientPrivate pinnedServer : StaticKey} : w.clients i = none →
      Move w (w.setClient i ⟨clientPrivate, pinnedServer,
        ⟨some (.initiator clientPrivate pinnedServer.1), false⟩⟩)
  | greet {i : ι} {d : Dialer} {first : Bytes} : w.clients i = some d →
      d.handshake = ⟨some (.initiator d.clientPrivate d.pinnedServer.1), false⟩ →
      (∀ g ∈ w.ledger.greetings, g.2.message ≠ first) →
      Move w { w.setClient i { d with
          handshake := ⟨some (.greeted d.clientPrivate d.pinnedServer.1 first), true⟩ } with
        ledger.greetings := w.ledger.greetings ++ [(i, d.greeting K first)] }
  | finish {i : ι} {d : Dialer} {t : Transcript} : w.clients i = some d →
      d.handshake = ⟨some (.greeted d.clientPrivate d.pinnedServer.1 t.first), true⟩ →
      t.greeting = d.greeting K t.first → (t.Secret K → ∃ j, (j, t) ∈ w.ledger.replies) →
      Move w ((w.setClient i { d with handshake := ⟨none, true⟩ }).establish (i, .client)
        (.fresh (t, .client) (t, .server)))
  | newServer {i : ι} {serverPrivates authorisedClients : List StaticKey}
      {identities : Identities} : w.servers i = none → identities.1 = serverPrivates →
      Move w (w.setServer i ⟨serverPrivates, authorisedClients,
        ⟨some identities, authorisedClients, false⟩, none⟩)
  /-- The call is refused, the first message is not accepted, or the reply is spent. -/
  | server {i : ι} {a : Responder} {h : ServerHandshake} {reply : Option (ServerReply IK)} :
      w.servers i = some a → h.allowList = a.handshake.allowList →
      (h.staticIdentities = a.handshake.staticIdentities ∨ h.staticIdentities = none) →
      (reply = a.reply ∨ reply = none ∨ a.reply ≠ none ∧ ∃ sent, reply = some ⟨none, sent⟩) →
      Move w (w.setServer i { a with handshake := h, reply })
  | hear {i : ι} {a : Responder} {identities : Identities} {identity : StaticKey}
      {client first : Bytes} : w.servers i = some a →
      a.handshake.staticIdentities = some identities → identity ∈ identities.1 →
      client ∈ a.handshake.allowList.map (·.1) →
      (K.honest client = true → K.honest (K.publicKey identity).1 = true →
        ∃ j, (j, ⟨client, (K.publicKey identity).1, first⟩) ∈ w.ledger.greetings) →
      Move w (w.setServer i { a with
        handshake := { a.handshake with staticIdentities := none }
        reply := some ⟨some (.heard identity client first), false⟩ })
  | answer {i : ι} {a : Responder} {identity : StaticKey} {t : Transcript} :
      w.servers i = some a →
      a.reply = some ⟨some (.heard identity t.client t.first), false⟩ →
      t.server = (K.publicKey identity).1 → (∀ r ∈ w.ledger.replies, r.2.reply ≠ t.reply) →
      Move w { w.setServer i { a with reply := some ⟨some (.finished t .server), true⟩ } with
        ledger.replies := w.ledger.replies ++ [(i, t)] }
  | serve {i : ι} {a : Responder} {t : Transcript} : w.servers i = some a →
      a.reply = some ⟨some (.finished t .server), true⟩ →
      Move w ((w.setServer i { a with reply := none }).establish (i, .server)
        (.fresh (t, .server) (t, .client)))

end Inv

namespace Peers

variable {K : KeyRing} {S : Sealing (End Transcript)} {weak : Aead (End Transcript)}
  {split : End ι → Bool} {w w' : Peers ι}

theorem writeOnce_error {HS Key : Type*} {snow : Snow HS Key} {sent sent' : Bool}
    {state state' : Option HS} {e : TunnelError}
    (h : writeOnce snow sent state = (.error e, sent', state')) :
    (sent' = sent ∧ state' = state) ∨ state' = none := by
  rcases writeOnce_cases snow sent state with
    ⟨-, h'⟩ | ⟨-, -, h'⟩ | ⟨-, e', h'⟩ | ⟨-, s, frame, s', -, h'⟩
  · cases h.symm.trans h'
    exact .inl ⟨rfl, rfl⟩
  · cases h.symm.trans h'
    exact .inl ⟨rfl, rfl⟩
  · cases h.symm.trans h'
    exact .inr rfl
  · cases h.symm.trans h'

/-- A call of `finish` is refused, or it takes the state out. -/
theorem finish_object {HS Key : Type*} {snow : Snow HS Key} {h h' : ClientHandshake HS}
    {serverFrame : Bytes} {result : Except TunnelError (TransportState Key)}
    (hfinish : h.finish snow serverFrame = (result, h')) :
    (h' = h ∧ ∃ e, result = .error e) ∨ h' = { h with state := none } := by
  rw [ClientHandshake.finish] at hfinish
  split at hfinish
  · cases hfinish
    exact .inl ⟨rfl, _, rfl⟩
  split at hfinish
  · cases hfinish
    exact .inl ⟨rfl, _, rfl⟩
  split at hfinish
  · cases hfinish
    exact .inl ⟨rfl, _, rfl⟩
  dsimp only at hfinish
  split at hfinish
  · cases hfinish
    exact .inr rfl
  split at hfinish
  · cases hfinish
    exact .inr rfl
  · cases hfinish
    exact .inr rfl

theorem newClient_move {i : ι} (hi : w.clients i = none) (clientPrivate pinnedServer : StaticKey)
    (chance : Chance) : w.Move K (w.newClient K i clientPrivate pinnedServer chance) := by
  rw [newClient]
  split
  · exact .refused
  rename_i handshake hnew
  obtain ⟨s, hbuild, rfl⟩ := ClientHandshake.new_ok hnew
  obtain rfl := (Chance.attempt_eq_ok.1 hbuild).2
  exact .newClient hi

/-- An unsent first message is written once, by a fresh object. -/
theorem firstMessage_move (hw : w.Inv K) {i : ι} {d : Dialer} {chance : Chance}
    (hi : w.clients i = some d)
    (hfresh : ∀ g ∈ w.ledger.greetings, g.2.message ≠ chance.message.1) :
    w.Move K (w.firstMessage K i d chance) := by
  have hd := hw.dialers i d hi
  rw [firstMessage, ClientHandshake.firstMessage]
  rcases hwrite : writeOnce (noise K w.ledger chance) d.handshake.sentFirst d.handshake.state with
    ⟨e | frame, sent, state⟩
  · refine .client hi ?_
    refine (writeOnce_error hwrite).imp_left ?_
    rintro ⟨rfl, rfl⟩
    rfl
  · obtain ⟨s, message, s', hstate, hmessage, -, rfl, rfl⟩ := writeOnce_ok hwrite
    obtain ⟨rfl, hcases⟩ := noise_writeMessage hmessage
    rcases hd with hnone | hinit | ⟨first, hgreeted, -⟩
    · rw [hnone] at hstate
      cases hstate
    · rw [hinit] at hstate
      cases hstate
      obtain ⟨clientPrivate, server, hs, rfl⟩ | ⟨identity, client, first, hs, -⟩ := hcases
      · cases hs
        exact .greet hi hinit hfresh
      · cases hs
    · -- A greeted object has sent, and refuses to write again.
      rw [hgreeted, writeOnce] at hwrite
      cases hwrite

theorem finish_move (hw : w.Inv K) {i : ι} {d : Dialer} (hi : w.clients i = some d)
    (serverFrame : Bytes) (chance : Chance) :
    w.Move K (w.finish K i d serverFrame chance) := by
  have hd := hw.dialers i d hi
  rw [finish]
  split
  · rename_i e handshake hfinish
    refine .client hi ((finish_object hfinish).imp And.left ?_)
    rintro rfl
    rfl
  rename_i transport handshake hfinish
  obtain ⟨message, s, s', -, hstate, hread, hinto⟩ := ClientHandshake.finish_ok hfinish
  rcases hd with hnone | hinit | ⟨first, hgreeted, -⟩
  · rw [hnone] at hstate
    cases hstate
  · rw [hinit] at hfinish
    cases hfinish
  · rw [hgreeted] at hstate
    cases hstate
    obtain ⟨rfl, hreplied⟩ := noise_readReply hread
    obtain ⟨t, side, ht, rfl⟩ := noise_intoTransport hinto
    cases ht
    obtain ⟨-, e, he⟩ | rfl := finish_object hfinish
    · cases he
    rw [hgreeted]
    exact .finish (t := ⟨(K.publicKey d.clientPrivate).1, d.pinnedServer.1, first, message⟩) hi
      hgreeted rfl hreplied

theorem newServer_move {i : ι} (hi : w.servers i = none)
    (serverPrivates authorisedClients : List StaticKey) :
    w.Move K (w.newServer i serverPrivates authorisedClients) := by
  rw [newServer, ServerHandshake.newWithStaticIdentities]
  split
  · exact .refused
  rename_i handshake hnew
  split at hnew
  · cases hnew
  split at hnew
  · cases hnew
  · cases hnew
    exact .newServer hi rfl

theorem acceptPreface_move {i : ι} {a : Responder} (hi : w.servers i = some a)
    (preface : Bytes) :
    w.Move K (w.setServer i { a with handshake := (a.handshake.acceptPreface preface).2 }) := by
  refine .server hi ?_ (.inl ?_) (.inl rfl) <;>
  · rw [ServerHandshake.acceptPreface]
    split
    · rfl
    split <;> rfl

/-- A server takes the first frame only once, and yields a reply to an honest client
    only for a message that it wrote. -/
theorem receiveClient_move {i : ι} {a : Responder} (hi : w.servers i = some a)
    (clientFrame : Bytes) (chance : ℕ → Chance) :
    w.Move K (w.receiveClient K i a clientFrame chance) := by
  rw [receiveClient]
  rcases hreceived : a.handshake.receiveClient (fun n => noise K w.ledger (chance n)) clientFrame
    with ⟨result, handshake, reads⟩
  rw [ServerHandshake.receiveClient] at hreceived
  split at hreceived
  · cases hreceived
    exact .server hi rfl (.inl rfl) (.inl rfl)
  split at hreceived
  · cases hreceived
    exact .server hi rfl (.inl rfl) (.inl rfl)
  rename_i message hdecode
  split at hreceived
  · cases hreceived
    exact .server hi rfl (.inl rfl) (.inl rfl)
  rename_i identities hidentities
  cases hreceived
  dsimp only
  split
  · exact .server hi rfl (.inr rfl) (.inl rfl)
  · rename_i reply htried
    obtain ⟨n, identity, hidentity, remote, hremote, s, ⟨s₀, hbuild, hread, hstatic⟩, rfl⟩ :=
      tryIdentities_reply htried
    obtain ⟨client, rfl, hhonest⟩ := noise_readFirst hbuild hread
    cases hstatic
    exact .hear hi hidentities hidentity hremote hhonest

theorem message_move (hw : w.Inv K) {i : ι} {a : Responder} {reply : ServerReply IK}
    {chance : Chance} (hi : w.servers i = some a) (hreply : a.reply = some reply)
    (hfresh : ∀ r ∈ w.ledger.replies, r.2.reply ≠ chance.message.1) :
    w.Move K (w.message K i a reply chance) := by
  have hholds := (hw.responders i a hi).reply reply hreply
  rw [message, ServerReply.message]
  rcases hwrite : writeOnce (noise K w.ledger chance) reply.sentReply reply.state with
    ⟨e | frame, sent, state⟩
  · refine .server hi rfl (.inl rfl) ?_
    obtain ⟨rfl, rfl⟩ | rfl := writeOnce_error hwrite
    · exact .inl hreply.symm
    · exact .inr (.inr ⟨by rw [hreply]; exact Option.some_ne_none _, sent, rfl⟩)
  · obtain ⟨s, message, s', hstate, hmessage, -, rfl, rfl⟩ := writeOnce_ok hwrite
    obtain ⟨rfl, hcases⟩ := noise_writeMessage hmessage
    rcases hholds with hnone | ⟨identity, client, first, rfl, -⟩ | ⟨t, rfl, -⟩
    · rw [hnone] at hstate
      cases hstate
    · cases hstate
      obtain ⟨clientPrivate, server, hs, -⟩ | ⟨identity', client', first', hs, rfl⟩ := hcases
      · cases hs
      · cases hs
        exact .answer (t := ⟨client, (K.publicKey identity).1, first, chance.message.1⟩) hi hreply
          rfl hfresh
    · -- A reply that has answered refuses to write again.
      rw [writeOnce] at hwrite
      cases hwrite

theorem intoSession_move (hw : w.Inv K) {i : ι} {a : Responder} {reply : ServerReply IK}
    (hi : w.servers i = some a) (hreply : a.reply = some reply) (chance : Chance) :
    w.Move K (w.intoSession K i a reply chance) := by
  have hholds := (hw.responders i a hi).reply reply hreply
  rw [intoSession, ServerReply.intoSession]
  rcases hholds with hnone | ⟨identity, client, first, rfl, -⟩ | ⟨t, rfl, -⟩
  · rw [hnone]
    cases reply.sentReply with
    | false => exact .server hi rfl (.inl rfl) (.inr (.inl rfl))
    | true => exact .server hi rfl (.inl rfl) (.inr (.inl rfl))
  · exact .server hi rfl (.inl rfl) (.inr (.inl rfl))
  · rcases hinto : (noise K w.ledger chance).intoTransport (.finished t .server) with
      e | transport
    · simp only [hinto]
      exact .server hi rfl (.inl rfl) (.inr (.inl rfl))
    · obtain ⟨t', side, ht, rfl⟩ := noise_intoTransport hinto
      cases ht
      simp only [hinto]
      exact .serve hi hreply

/-- Sealing changes the session, and what was sealed under its key. -/
theorem encrypt_frame (e : End ι) (t : Transcript) (plaintext : Bytes) : ∃ heap sealed,
    w.encrypt K S weak split e t plaintext = { w with heap, sealed } ∧
      (∀ e' ≠ e, heap e' = w.heap e') ∧ ∀ key ≠ (t, e.2), sealed key = w.sealed key := by
  rw [encrypt, Handles.call_eq]
  rcases Call.onCell (guarded K S weak w.sealed) (w.heap e) (.encrypt plaintext) with
    ⟨e' | frame, cell⟩
  · exact ⟨_, _, rfl, fun e' he' => Function.update_of_ne he' .., fun _ _ => rfl⟩
  · exact ⟨_, _, rfl, fun e' he' => Function.update_of_ne he' ..,
      fun key hkey => Function.update_of_ne hkey ..⟩

/-- Opening changes the session, and what was opened under the key of its peer. -/
theorem decrypt_frame (e : End ι) (t : Transcript) (frame : Bytes) : ∃ heap opened,
    w.decrypt K S weak split e t frame = { w with heap, opened } ∧
      (∀ e' ≠ e, heap e' = w.heap e') ∧ ∀ key ≠ (t, e.2.peer), opened key = w.opened key := by
  rw [decrypt, decryptRecord, Handles.call_eq]
  rcases Call.onCell (guarded K S weak w.sealed) (w.heap e) (.decrypt frame) with
    ⟨e' | plaintext, cell⟩
  · exact ⟨_, _, rfl, fun e' he' => Function.update_of_ne he' .., fun _ _ => rfl⟩
  · exact ⟨_, _, rfl, fun e' he' => Function.update_of_ne he' ..,
      fun key hkey => Function.update_of_ne hkey ..⟩

/-- A call is one of these moves, or it is on a session. -/
theorem step_move (hw : w.Inv K) {event : PeerEvent ι} (hfresh : Fresh w event)
    (hstep : (peers K S weak split).step w event = some w') :
    w.Move K w' ∨ ∃ e t, w.sessions e = some t ∧
      ((∃ plaintext, w' = w.encrypt K S weak split e t plaintext) ∨
        ∃ frame, w' = w.decrypt K S weak split e t frame) := by
  cases event with
  | newClient i clientPrivate pinnedServer chance =>
    obtain ⟨hi, rfl⟩ := Option.ite_some_none_eq_some.1 hstep
    exact .inl (newClient_move (Option.isNone_iff_eq_none.1 hi) ..)
  | firstMessage i chance =>
    obtain ⟨d, hi, rfl⟩ := Option.map_eq_some_iff.1 hstep
    exact .inl (firstMessage_move hw hi hfresh)
  | finish i serverFrame chance =>
    obtain ⟨d, hi, rfl⟩ := Option.map_eq_some_iff.1 hstep
    exact .inl (finish_move hw hi ..)
  | newServer i serverPrivates authorisedClients =>
    obtain ⟨hi, rfl⟩ := Option.ite_some_none_eq_some.1 hstep
    exact .inl (newServer_move (Option.isNone_iff_eq_none.1 hi) ..)
  | acceptPreface i preface =>
    obtain ⟨a, hi, rfl⟩ := Option.map_eq_some_iff.1 hstep
    exact .inl (acceptPreface_move hi preface)
  | receiveClient i clientFrame chance =>
    obtain ⟨a, hi, rfl⟩ := Option.map_eq_some_iff.1 hstep
    exact .inl (receiveClient_move hi ..)
  | message i chance =>
    obtain ⟨a, hi, hmap⟩ := Option.bind_eq_some_iff.1 hstep
    obtain ⟨reply, hreply, rfl⟩ := Option.map_eq_some_iff.1 hmap
    exact .inl (message_move hw hi hreply hfresh)
  | intoSession i chance =>
    obtain ⟨a, hi, hmap⟩ := Option.bind_eq_some_iff.1 hstep
    obtain ⟨reply, hreply, rfl⟩ := Option.map_eq_some_iff.1 hmap
    exact .inl (intoSession_move hw hi hreply chance)
  | encrypt e plaintext =>
    obtain ⟨t, he, rfl⟩ := Option.map_eq_some_iff.1 hstep
    exact .inr ⟨e, t, he, .inl ⟨plaintext, rfl⟩⟩
  | decrypt e frame =>
    obtain ⟨t, he, rfl⟩ := Option.map_eq_some_iff.1 hstep
    exact .inr ⟨e, t, he, .inr ⟨frame, rfl⟩⟩

end Peers

/-! ## Over whole runs -/

/-- The ledger has grown. -/
structure HandshakeLedger.Extends {ι : Type*} (L L' : HandshakeLedger ι) : Prop where
  greetings : ∀ {g}, g ∈ L.greetings → g ∈ L'.greetings
  replies : ∀ {r}, r ∈ L.replies → r ∈ L'.replies

section Extends

variable {ι : Type*} {K : KeyRing} {L L' : HandshakeLedger ι} {i : ι}

theorem Dialer.Inv.extends {d : Dialer} (h : d.Inv K L i) (hL : L.Extends L') : d.Inv K L' i :=
  h.imp_right (Or.imp_right fun ⟨first, hgreeted, hmem⟩ => ⟨first, hgreeted, hL.greetings hmem⟩)

theorem HandshakeLedger.Serves.extends {serverPrivates authorisedClients : List StaticKey}
    {g : Greeting} (h : L.Serves K serverPrivates authorisedClients g) (hL : L.Extends L') :
    L'.Serves K serverPrivates authorisedClients g :=
  ⟨h.identity, h.authorised, fun hclient hserver =>
    (h.honest hclient hserver).imp fun _ => hL.greetings⟩

theorem Responder.Holds.extends {a : Responder} {r : ServerReply IK} (h : a.Holds K L i r)
    (hL : L.Extends L') : a.Holds K L' i r := by
  rcases h with hnone | ⟨identity, client, first, hr, hserves⟩ | ⟨t, hr, hmem⟩
  · exact .inl hnone
  · exact .inr (.inl ⟨identity, client, first, hr, hserves.extends hL⟩)
  · exact .inr (.inr ⟨t, hr, hL.replies hmem⟩)

theorem Responder.Inv.extends {a : Responder} (h : a.Inv K L i) (hL : L.Extends L') :
    a.Inv K L' i :=
  ⟨h.allowList, h.identities, fun r hr => (h.reply r hr).extends hL⟩

end Extends

namespace Peers.Inv

variable {K : KeyRing} {w w' : Peers ι} {i : ι}

omit [DecidableEq ι] in
theorem initial : (initial ι).Inv K where
  greetings_nodup := List.nodup_nil
  replies_nodup := List.nodup_nil
  dialers _ _ h := by cases h
  responders _ _ h := by cases h
  greeted _ _ h := absurd h List.not_mem_nil
  replied _ _ h := absurd h List.not_mem_nil
  clientSessions _ _ h := by cases h
  serverSessions _ _ h := by cases h
  sealed _ _ h := absurd rfl h
  opened _ _ h := absurd rfl h

/-- A call changes an object of a client, and none of its keys. -/
theorem setClient (hw : w.Inv K) {d : Dialer} (hd : d.Inv K w.ledger i)
    (hkeys : ∀ d', w.clients i = some d' → d.clientPrivate = d'.clientPrivate ∧
      d.pinnedServer = d'.pinnedServer ∧ (d'.handshake.state = none → d.handshake.state = none)) :
    (w.setClient i d).Inv K where
  greetings_nodup := hw.greetings_nodup
  replies_nodup := hw.replies_nodup
  dialers j d' hj := by
    rcases eq_or_ne j i with rfl | hne
    · rw [clients_setClient_self] at hj
      obtain rfl := Option.some.inj hj
      exact hd
    · rw [clients_setClient_of_ne _ hne] at hj
      exact hw.dialers j d' hj
  responders := hw.responders
  greeted j g hg := by
    obtain ⟨d', hj, hgreeting⟩ := hw.greeted j g hg
    rcases eq_or_ne j i with rfl | hne
    · obtain ⟨hprivate, hserver, -⟩ := hkeys d' hj
      refine ⟨d, clients_setClient_self d, ?_⟩
      rw [hgreeting, Dialer.greeting, Dialer.greeting, hprivate, hserver]
    · exact ⟨d', (clients_setClient_of_ne d hne).trans hj, hgreeting⟩
  replied := hw.replied
  clientSessions j t ht := by
    obtain ⟨⟨d', hj, hspent⟩, hrest⟩ := hw.clientSessions j t ht
    refine ⟨?_, hrest⟩
    rcases eq_or_ne j i with rfl | hne
    · exact ⟨d, clients_setClient_self d, (hkeys d' hj).2.2 hspent⟩
    · exact ⟨d', (clients_setClient_of_ne d hne).trans hj, hspent⟩
  serverSessions := hw.serverSessions
  sealed := hw.sealed
  opened := hw.opened

/-- A call changes an object of a server, and none of its keys. -/
theorem setServer (hw : w.Inv K) {a : Responder} (ha : a.Inv K w.ledger i)
    (hkeys : ∀ a', w.servers i = some a' → a.serverPrivates = a'.serverPrivates ∧
      a.authorisedClients = a'.authorisedClients ∧
      (a'.reply = none ∧ a'.handshake.staticIdentities = none →
        a.reply = none ∧ a.handshake.staticIdentities = none)) :
    (w.setServer i a).Inv K where
  greetings_nodup := hw.greetings_nodup
  replies_nodup := hw.replies_nodup
  dialers := hw.dialers
  responders j a' hj := by
    rcases eq_or_ne j i with rfl | hne
    · rw [servers_setServer_self] at hj
      obtain rfl := Option.some.inj hj
      exact ha
    · rw [servers_setServer_of_ne _ hne] at hj
      exact hw.responders j a' hj
  greeted := hw.greeted
  replied j t ht := by
    obtain ⟨a', hj, hserves⟩ := hw.replied j t ht
    rcases eq_or_ne j i with rfl | hne
    · obtain ⟨hprivates, hclients, -⟩ := hkeys a' hj
      exact ⟨a, servers_setServer_self a, by rw [hprivates, hclients]; exact hserves⟩
    · exact ⟨a', (servers_setServer_of_ne a hne).trans hj, hserves⟩
  clientSessions := hw.clientSessions
  serverSessions j t ht := by
    obtain ⟨⟨a', hj, hspent⟩, hrest⟩ := hw.serverSessions j t ht
    refine ⟨?_, hrest⟩
    rcases eq_or_ne j i with rfl | hne
    · exact ⟨a, servers_setServer_self a, (hkeys a' hj).2.2 hspent⟩
    · exact ⟨a', (servers_setServer_of_ne a hne).trans hj, hspent⟩
  sealed := hw.sealed
  opened := hw.opened

omit [DecidableEq ι] in
/-- A client writes its first message. -/
theorem addGreeting (hw : w.Inv K) {d : Dialer} (hi : w.clients i = some d) {first : Bytes}
    (hfresh : ∀ g ∈ w.ledger.greetings, g.2.message ≠ first) :
    ({ w with ledger.greetings :=
      w.ledger.greetings ++ [(i, d.greeting K first)] } : Peers ι).Inv K := by
  have hL : w.ledger.Extends
      { w.ledger with greetings := w.ledger.greetings ++ [(i, d.greeting K first)] } :=
    ⟨fun h => List.mem_append_left _ h, fun h => h⟩
  exact {
    greetings_nodup := by
      rw [List.map_append]
      refine List.nodup_append.2 ⟨hw.greetings_nodup, List.pairwise_singleton _ _, ?_⟩
      rintro message hmem _ hmem' rfl
      obtain ⟨g, hg, rfl⟩ := List.mem_map.1 hmem
      exact hfresh g hg (List.mem_singleton.1 hmem')
    replies_nodup := hw.replies_nodup
    dialers := fun j d' hj => (hw.dialers j d' hj).extends hL
    responders := fun j a hj => (hw.responders j a hj).extends hL
    greeted := fun j g hg => by
      rcases List.mem_append.1 hg with hg | hg
      · exact hw.greeted j g hg
      · cases List.mem_singleton.1 hg
        exact ⟨d, hi, rfl⟩
    replied := fun j t ht => (hw.replied j t ht).imp fun _ => And.imp_right (·.extends hL)
    clientSessions := fun j t ht => by
      obtain ⟨hspent, hgreeting, hreplied⟩ := hw.clientSessions j t ht
      exact ⟨hspent, hL.greetings hgreeting, hreplied⟩
    serverSessions := hw.serverSessions
    sealed := hw.sealed
    opened := hw.opened }

omit [DecidableEq ι] in
/-- A server writes the reply that completes its exchange. -/
theorem addReply (hw : w.Inv K) {a : Responder} (hi : w.servers i = some a) {t : Transcript}
    (hserves : w.ledger.Serves K a.serverPrivates a.authorisedClients t.greeting)
    (hfresh : ∀ r ∈ w.ledger.replies, r.2.reply ≠ t.reply) :
    ({ w with ledger.replies := w.ledger.replies ++ [(i, t)] } : Peers ι).Inv K := by
  have hL : w.ledger.Extends { w.ledger with replies := w.ledger.replies ++ [(i, t)] } :=
    ⟨fun h => h, fun h => List.mem_append_left _ h⟩
  exact {
    greetings_nodup := hw.greetings_nodup
    replies_nodup := by
      rw [List.map_append]
      refine List.nodup_append.2 ⟨hw.replies_nodup, List.pairwise_singleton _ _, ?_⟩
      rintro reply hmem _ hmem' rfl
      obtain ⟨r, hr, rfl⟩ := List.mem_map.1 hmem
      exact hfresh r hr (List.mem_singleton.1 hmem')
    dialers := fun j d hj => (hw.dialers j d hj).extends hL
    responders := fun j a' hj => (hw.responders j a' hj).extends hL
    greeted := hw.greeted
    replied := fun j t' ht => by
      rcases List.mem_append.1 ht with ht | ht
      · exact (hw.replied j t' ht).imp fun _ => And.imp_right (·.extends hL)
      · cases List.mem_singleton.1 ht
        exact ⟨a, hi, hserves.extends hL⟩
    clientSessions := fun j t' ht => by
      obtain ⟨hspent, hgreeting, hreplied⟩ := hw.clientSessions j t' ht
      exact ⟨hspent, hgreeting, fun hsecret => (hreplied hsecret).imp fun _ => hL.replies⟩
    serverSessions := fun j t' ht => (hw.serverSessions j t' ht).imp_right hL.replies
    sealed := hw.sealed
    opened := hw.opened }

omit [DecidableEq ι] in
/-- A client's object that is not spent has no session yet. -/
theorem no_clientSession (hw : w.Inv K) {d : Dialer} (hi : w.clients i = some d)
    (hstate : d.handshake.state ≠ none) : w.sessions (i, .client) = none := by
  rw [Option.eq_none_iff_forall_ne_some]
  intro t ht
  obtain ⟨⟨d', hd', hnone⟩, -⟩ := hw.clientSessions i t ht
  obtain rfl := Option.some.inj (hi.symm.trans hd')
  exact hstate hnone

omit [DecidableEq ι] in
/-- A server's object that has a reply has no session yet. -/
theorem no_serverSession (hw : w.Inv K) {a : Responder} (hi : w.servers i = some a)
    (hreply : a.reply ≠ none) : w.sessions (i, .server) = none := by
  rw [Option.eq_none_iff_forall_ne_some]
  intro t ht
  obtain ⟨⟨a', ha', hnone, -⟩, -⟩ := hw.serverSessions i t ht
  obtain rfl := Option.some.inj (hi.symm.trans ha')
  exact hreply hnone

/-- A completed handshake becomes the first session of its object. -/
theorem establish (hw : w.Inv K) {e : End ι} {transport : TransportState (End Transcript)}
    {t : Transcript} (ht : transport.send.key.1 = t) (hnone : w.sessions e = none)
    (hclient : e.2 = .client → (∃ d, w.clients e.1 = some d ∧ d.handshake.state = none) ∧
      (e.1, t.greeting) ∈ w.ledger.greetings ∧ (t.Secret K → ∃ j, (j, t) ∈ w.ledger.replies))
    (hserver : e.2 = .server → (∃ a, w.servers e.1 = some a ∧ a.reply = none ∧
      a.handshake.staticIdentities = none) ∧ (e.1, t) ∈ w.ledger.replies) :
    (w.establish e transport).Inv K := by
  -- A session that was there before is another one.
  have hkept : ∀ {e' t'}, w.sessions e' = some t' →
      (w.establish e transport).sessions e' = some t' := by
    intro e' t' he'
    rw [sessions_establish_of_ne, he']
    rintro rfl
    rw [hnone] at he'
    cases he'
  exact {
    greetings_nodup := hw.greetings_nodup
    replies_nodup := hw.replies_nodup
    dialers := hw.dialers
    responders := hw.responders
    greeted := hw.greeted
    replied := hw.replied
    clientSessions := fun j t' ht' => by
      rcases eq_or_ne (j, Side.client) e with rfl | hne
      · rw [sessions_establish_self, ht] at ht'
        obtain rfl := Option.some.inj ht'
        exact hclient rfl
      · rw [sessions_establish_of_ne _ hne] at ht'
        exact hw.clientSessions j t' ht'
    serverSessions := fun j t' ht' => by
      rcases eq_or_ne (j, Side.server) e with rfl | hne
      · rw [sessions_establish_self, ht] at ht'
        obtain rfl := Option.some.inj ht'
        exact hserver rfl
      · rw [sessions_establish_of_ne _ hne] at ht'
        exact hw.serverSessions j t' ht'
    sealed := fun t' side hne => (hw.sealed t' side hne).imp fun _ => hkept
    opened := fun t' side hne => (hw.opened t' side hne).imp fun _ => hkept }

/-- Every move keeps the invariant. -/
theorem move (hw : w.Inv K) (hmove : w.Move K w') : w'.Inv K := by
  cases hmove with
  | refused => exact hw
  | @client i d h hi hspent =>
    refine hw.setClient ?_ fun d' hd' => ?_
    · have hd := hw.dialers i d hi
      rcases hspent with rfl | hnone
      · exact hd
      · exact .inl hnone
    · obtain rfl := Option.some.inj (hi.symm.trans hd')
      refine ⟨rfl, rfl, fun hnone => ?_⟩
      rcases hspent with rfl | hspent
      · exact hnone
      · exact hspent
  | newClient hi =>
    refine hw.setClient (.inr (.inl rfl)) fun d' hd' => ?_
    rw [hi] at hd'
    cases hd'
  | @greet i d first hi hinit hfresh =>
    refine (hw.addGreeting hi hfresh).setClient ?_ fun d' hd' => ?_
    · exact .inr (.inr ⟨first, rfl, List.mem_append_right _ (List.mem_singleton_self _)⟩)
    · obtain rfl := Option.some.inj (hi.symm.trans hd')
      refine ⟨rfl, rfl, fun hnone => ?_⟩
      rw [hinit] at hnone
      cases hnone
  | @finish i d t hi hgreeted ht hreplied =>
    have hspent : (w.setClient i { d with handshake := ⟨none, true⟩ }).Inv K := by
      refine hw.setClient (.inl rfl) fun d' hd' => ?_
      obtain rfl := Option.some.inj (hi.symm.trans hd')
      exact ⟨rfl, rfl, fun _ => rfl⟩
    refine hspent.establish (t := t) rfl ?_ (fun _ => ?_) fun h => by cases h
    · exact hw.no_clientSession hi (by rw [hgreeted]; exact Option.some_ne_none _)
    · refine ⟨⟨_, clients_setClient_self _, rfl⟩, ?_, hreplied⟩
      rcases hw.dialers i d hi with hnone | hinit | ⟨first, hgreeted', hmem⟩
      · rw [hgreeted] at hnone
        cases hnone
      · rw [hgreeted] at hinit
        cases hinit
      · rw [hgreeted] at hgreeted'
        cases hgreeted'
        rw [ht]
        exact hmem
  | @newServer i serverPrivates authorisedClients identities hi hidentities =>
    refine hw.setServer ⟨rfl, .inr ⟨congrArg some hidentities, rfl⟩, fun r hr => ?_⟩
      fun a' ha' => ?_
    · cases hr
    · rw [hi] at ha'
      cases ha'
  | @server i a h reply hi hallow hidentities hreply =>
    have ha := hw.responders i a hi
    refine hw.setServer ⟨hallow.trans ha.allowList, ?_, fun r hr => ?_⟩ fun a' ha' => ?_
    · rcases hidentities with hsame | hnone
      · dsimp only
        rw [hsame]
        refine ha.identities.imp_right fun ⟨hsome, hempty⟩ => ⟨hsome, ?_⟩
        rcases hreply with rfl | rfl | ⟨hne, -⟩
        · exact hempty
        · rfl
        · exact absurd hempty hne
      · exact .inl hnone
    · rcases hreply with rfl | rfl | ⟨-, sent, rfl⟩
      · exact ha.reply r hr
      · cases hr
      · cases hr
        exact .inl rfl
    · obtain rfl := Option.some.inj (hi.symm.trans ha')
      refine ⟨rfl, rfl, ?_⟩
      rintro ⟨hempty, htried⟩
      refine ⟨?_, hidentities.elim (fun hsame => hsame.trans htried) id⟩
      rcases hreply with rfl | rfl | ⟨hne, -⟩
      · exact hempty
      · rfl
      · exact absurd hempty hne
  | @hear i a identities identity client first hi hidentities hmem hclient hhonest =>
    have ha := hw.responders i a hi
    have hprivates : identities.1 = a.serverPrivates := by
      rcases ha.identities with hnone | ⟨hsome, -⟩
      · rw [hidentities] at hnone
        cases hnone
      · rw [hidentities] at hsome
        exact Option.some.inj hsome
    refine hw.setServer ⟨ha.allowList, .inl rfl, fun r hr => ?_⟩ fun a' ha' => ?_
    · obtain rfl := Option.some.inj hr
      exact .inr (.inl ⟨identity, client, first, rfl, ⟨identity, hprivates ▸ hmem, rfl⟩,
        ha.allowList ▸ hclient, hhonest⟩)
    · obtain rfl := Option.some.inj (hi.symm.trans ha')
      refine ⟨rfl, rfl, fun ⟨_, htried⟩ => ?_⟩
      rw [hidentities] at htried
      cases htried
  | @answer i a identity t hi hheard hserver hfresh =>
    have ha := hw.responders i a hi
    have hserves : w.ledger.Serves K a.serverPrivates a.authorisedClients t.greeting := by
      rcases ha.reply _ hheard with hnone | ⟨identity', client, first, hr, hserves⟩ | ⟨t', hr, -⟩
      · cases hnone
      · cases hr
        rw [Transcript.greeting, hserver]
        exact hserves
      · cases hr
    refine (hw.addReply hi hserves hfresh).setServer ⟨ha.allowList, ?_, fun r hr => ?_⟩
      fun a' ha' => ?_
    · exact .inl (ha.identities.resolve_right fun h => by rw [hheard] at h; cases h.2)
    · obtain rfl := Option.some.inj hr
      exact .inr (.inr ⟨t, rfl, List.mem_append_right _ (List.mem_singleton_self _)⟩)
    · obtain rfl := Option.some.inj (hi.symm.trans ha')
      refine ⟨rfl, rfl, fun ⟨hempty, _⟩ => ?_⟩
      rw [hheard] at hempty
      cases hempty
  | @serve i a t hi hfinished =>
    have ha := hw.responders i a hi
    have htried : a.handshake.staticIdentities = none :=
      ha.identities.resolve_right fun h => by rw [hfinished] at h; cases h.2
    have hspent : (w.setServer i { a with reply := none }).Inv K := by
      refine hw.setServer ⟨ha.allowList, .inl htried, fun r hr => by cases hr⟩ fun a' ha' => ?_
      obtain rfl := Option.some.inj (hi.symm.trans ha')
      exact ⟨rfl, rfl, fun ⟨_, h⟩ => ⟨rfl, h⟩⟩
    refine hspent.establish (t := t) rfl ?_ (fun h => by cases h) fun _ => ?_
    · exact hw.no_serverSession hi (by rw [hfinished]; exact Option.some_ne_none _)
    · refine ⟨⟨_, servers_setServer_self _, rfl, htried⟩, ?_⟩
      rcases ha.reply _ hfinished with hnone | ⟨identity, client, first, hr, -⟩ | ⟨t', hr, hmem⟩
      · cases hnone
      · cases hr
      · cases hr
        exact hmem

omit [DecidableEq ι] in
/-- A session that seals or opens is one that its key has. -/
theorem record (hw : w.Inv K) {e : End ι} {t : Transcript} (he : w.sessions e = some t)
    {heap : Heap (End ι) (End Transcript)} {sealed : End Transcript → List Record}
    {opened : End Transcript → List Opened}
    (hsealed : ∀ key ≠ (t, e.2), sealed key = w.sealed key)
    (hopened : ∀ key ≠ (t, e.2.peer), opened key = w.opened key) :
    ({ w with heap, sealed, opened } : Peers ι).Inv K :=
  { hw with
    sealed := fun t' side hne => by
      by_cases hkey : (t', side) = (t, e.2)
      · cases hkey
        exact ⟨e.1, he⟩
      · dsimp only at hne
        rw [hsealed _ hkey] at hne
        exact hw.sealed t' side hne
    opened := fun t' side hne => by
      by_cases hkey : (t', side) = (t, e.2.peer)
      · cases hkey
        exact ⟨e.1, by rw [Side.peer_peer]; exact he⟩
      · dsimp only at hne
        rw [hopened _ hkey] at hne
        exact hw.opened t' side hne }

variable {S : Sealing (End Transcript)} {weak : Aead (End Transcript)} {split : End ι → Bool}

theorem step (hw : w.Inv K) {event : PeerEvent ι} (hfresh : Fresh w event)
    (hstep : (peers K S weak split).step w event = some w') : w'.Inv K := by
  obtain hmove | ⟨e, t, he, ⟨plaintext, rfl⟩ | ⟨frame, rfl⟩⟩ := step_move hw hfresh hstep
  · exact hw.move hmove
  · obtain ⟨heap, sealed, heq, -, hsealed⟩ := encrypt_frame e t plaintext
    rw [heq]
    exact hw.record he hsealed fun _ _ => rfl
  · obtain ⟨heap, opened, heq, -, hopened⟩ := decrypt_frame e t frame
    rw [heq]
    exact hw.record he (fun _ _ => rfl) hopened

theorem of_reachable (h : (peers K S weak split).Reachable Fresh w) : w.Inv K :=
  h.invariant (P := Peers.Inv K) (fun hi => hi ▸ initial) fun _ hw hfresh hs => hw.step hfresh hs

omit [DecidableEq ι] in
/-- Only one client wrote a first message. -/
theorem greeting_unique (hw : w.Inv K) {j : ι} {g g' : Greeting}
    (hg : (i, g) ∈ w.ledger.greetings) (hg' : (j, g') ∈ w.ledger.greetings)
    (hmessage : g.message = g'.message) : i = j :=
  congrArg Prod.fst (List.inj_on_of_nodup_map hw.greetings_nodup hg hg' hmessage)

omit [DecidableEq ι] in
/-- Only one server wrote a reply. -/
theorem reply_unique (hw : w.Inv K) {j : ι} {t t' : Transcript} (ht : (i, t) ∈ w.ledger.replies)
    (ht' : (j, t') ∈ w.ledger.replies) (hreply : t.reply = t'.reply) : i = j :=
  congrArg Prod.fst (List.inj_on_of_nodup_map hw.replies_nodup ht ht' hreply)

omit [DecidableEq ι] in
/-- Only one object of each side has the session of an exchange. -/
theorem session_unique (hw : w.Inv K) {side : Side} {j : ι} {t : Transcript}
    (hi : w.sessions (i, side) = some t) (hj : w.sessions (j, side) = some t) : i = j := by
  cases side with
  | client =>
    exact hw.greeting_unique (hw.clientSessions i t hi).2.1 (hw.clientSessions j t hj).2.1 rfl
  | server => exact hw.reply_unique (hw.serverSessions i t hi).2 (hw.serverSessions j t hj).2 rfl

end Peers.Inv

/-! ## Agreement -/

variable {K : KeyRing} {S : Sealing (End Transcript)} {weak : Aead (End Transcript)}
  {split : End ι → Bool} {w : Peers ι}

/-- Whatever the attacker does, a client that has finished its handshake with an honest
    server agrees with it: it has the session of an exchange with the server that it
    pins, one server object has answered in this exchange, under that identity and for
    this client as one that it authorises, and no other client and no other server has
    its session. -/
theorem client_agreement (h : (peers K S weak split).Reachable Fresh w) {i : ι} {t : Transcript}
    (ht : w.sessions (i, .client) = some t) (hsecret : t.Secret K) :
    (∃ d, w.clients i = some d ∧ t.client = (K.publicKey d.clientPrivate).1 ∧
      t.server = d.pinnedServer.1) ∧
    (∃ j a, (j, t) ∈ w.ledger.replies ∧ w.servers j = some a ∧
      (∃ identity ∈ a.serverPrivates, (K.publicKey identity).1 = t.server) ∧
      t.client ∈ a.authorisedClients.map (·.1) ∧
      ∀ j', (j', t) ∈ w.ledger.replies ∨ w.sessions (j', .server) = some t → j' = j) ∧
    ∀ i', w.sessions (i', .client) = some t → i' = i := by
  have hw := Peers.Inv.of_reachable h
  obtain ⟨-, hgreeting, hreplied⟩ := hw.clientSessions i t ht
  refine ⟨?_, ?_, fun i' hi' => hw.session_unique hi' ht⟩
  · obtain ⟨d, hd, hgreets⟩ := hw.greeted i _ hgreeting
    exact ⟨d, hd, congrArg Greeting.client hgreets, congrArg Greeting.server hgreets⟩
  · obtain ⟨j, hj⟩ := hreplied hsecret
    obtain ⟨a, ha, hserves⟩ := hw.replied j t hj
    refine ⟨j, a, hj, ha, hserves.identity, hserves.authorised, ?_⟩
    rintro j' (hj' | hj')
    · exact hw.reply_unique hj' hj rfl
    · exact hw.reply_unique (hw.serverSessions j' t hj').2 hj rfl

/-- Keys to compute with, all of them honest. -/
def KeyRing.shifted : KeyRing where
  publicKey k := ⟨k.1.map (· + 1), (List.length_map _).trans k.2⟩
  honest _ := true

/-- A cipher that refuses to work. -/
def Aead.refusing {Key : Type*} : Aead Key :=
  ⟨fun _ _ _ _ => .error .decrypt, fun _ _ _ _ => .error .decrypt⟩

/-- A client greets a server, and the attacker gives its message to two objects of this
    server, one of which was not meant to have it. -/
def replayedGreeting : List (PeerEvent Bool) :=
  let key (b : UInt8) : StaticKey := ⟨List.replicate 32 b, List.length_replicate⟩
  let chance (b : UInt8) : Chance := ⟨none, ⟨[b], Nat.succ_pos 4095⟩, none⟩
  [.newClient false (key 7) (key 2) (chance 0), .firstMessage false (chance 1),
    .newServer false [key 1] [key 8], .newServer true [key 1] [key 8],
    .acceptPreface false prefaceBytes, .acceptPreface true prefaceBytes,
    .receiveClient false (handshakeFrame [1]) fun _ => chance 0,
    .receiveClient true (handshakeFrame [1]) fun _ => chance 0,
    .message false (chance 2), .message true (chance 3), .intoSession false (chance 0),
    .intoSession true (chance 0), .finish false (handshakeFrame [2]) (chance 0)]

/-- Both objects of the server have a session, and one of them is the client's. -/
theorem client_agreement_replayed :
    let S : Sealing (End Transcript) := .tagged fun _ nonce => UInt8.ofNat nonce
    let weak : Aead (End Transcript) := .refusing
    ∃ w : Peers Bool, (peers .shifted S weak fun _ => true).Reachable Fresh w ∧
      (∀ j, w.sessions (j, .server) ≠ none) ∧ ∃ t, w.sessions (false, .client) = some t ∧
      ∃ j a, w.servers j = some a ∧ t.client ∈ a.authorisedClients.map (·.1) ∧
        ∀ j', w.sessions (j', .server) = some t → j' = j := by
  intro S weak
  let w := ((peers .shifted S weak fun _ => true).run Fresh (.initial Bool)
    replayedGreeting).get (by decide +kernel)
  have hreach : (peers .shifted S weak fun _ => true).Reachable Fresh w :=
    EventSystem.reachable_of_run rfl (Option.some_get _).symm
  obtain ⟨t, ht⟩ := Option.isSome_iff_exists.1
    (show (w.sessions (false, .client)).isSome by decide +kernel)
  obtain ⟨-, ⟨j, a, -, ha, -, hclient, honly⟩, -⟩ := client_agreement hreach ht ⟨rfl, rfl⟩
  exact ⟨w, hreach, by decide +kernel, t, ht, j, a, ha, hclient, fun j' hj' => honly j' (.inr hj')⟩

/-- A server answers an honest client only where this client wrote the first message,
    for this server, and is one that it authorises. The message may be a replay, but
    only the client that wrote it can have the session of the exchange. -/
theorem server_agreement (h : (peers K S weak split).Reachable Fresh w) {j : ι} {t : Transcript}
    (ht : (j, t) ∈ w.ledger.replies ∨ w.sessions (j, .server) = some t) (hsecret : t.Secret K) :
    (∃ a, w.servers j = some a ∧ (∃ identity ∈ a.serverPrivates,
      (K.publicKey identity).1 = t.server) ∧ t.client ∈ a.authorisedClients.map (·.1)) ∧
    ∃ i d, (i, t.greeting) ∈ w.ledger.greetings ∧ w.clients i = some d ∧
      t.client = (K.publicKey d.clientPrivate).1 ∧ t.server = d.pinnedServer.1 ∧
      ∀ i' t', t'.first = t.first → w.sessions (i', .client) = some t' → i' = i := by
  have hw := Peers.Inv.of_reachable h
  obtain ⟨a, ha, hserves⟩ := hw.replied j t (ht.elim id fun hj => (hw.serverSessions j t hj).2)
  refine ⟨⟨a, ha, hserves.identity, hserves.authorised⟩, ?_⟩
  obtain ⟨i, hi⟩ := hserves.honest hsecret.1 hsecret.2
  obtain ⟨d, hd, hgreets⟩ := hw.greeted i _ hi
  refine ⟨i, d, hi, hd, congrArg Greeting.client hgreets, congrArg Greeting.server hgreets,
    fun i' t' hfirst hi' => ?_⟩
  exact hw.greeting_unique (hw.clientSessions i' t' hi').2.1 hi hfirst

/-- The session that came of the replayed message is of an exchange that no client has. -/
theorem server_agreement_replayed :
    let S : Sealing (End Transcript) := .tagged fun _ nonce => UInt8.ofNat nonce
    let weak : Aead (End Transcript) := .refusing
    ∃ w : Peers Bool, (peers .shifted S weak fun _ => true).Reachable Fresh w ∧
      ∃ t, w.sessions (true, .server) = some t ∧ (∀ i, w.sessions (i, .client) ≠ some t) ∧
      ∃ i d, (i, t.greeting) ∈ w.ledger.greetings ∧ w.clients i = some d ∧
        t.server = d.pinnedServer.1 := by
  intro S weak
  let w := ((peers .shifted S weak fun _ => true).run Fresh (.initial Bool)
    replayedGreeting).get (by decide +kernel)
  have hreach : (peers .shifted S weak fun _ => true).Reachable Fresh w :=
    EventSystem.reachable_of_run rfl (Option.some_get _).symm
  obtain ⟨t, ht⟩ := Option.isSome_iff_exists.1
    (show (w.sessions (true, .server)).isSome by decide +kernel)
  obtain ⟨-, i, d, hi, hd, -, hserver, -⟩ := server_agreement hreach (.inr ht) ⟨rfl, rfl⟩
  refine ⟨w, hreach, t, ht, ?_, i, d, hi, hd, hserver⟩
  rw [← ht]
  decide +kernel

end SecureTunnel
