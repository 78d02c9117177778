import SecureTunnel.Core.Handshake
import SecureTunnel.Core.Ideal

/-!
# The ideal handshake

The assumption under which a handshake authenticates its peer: what `snow` does
with Noise IK, in terms of the messages that the honest parties of the world have
written. A responder takes a first message as coming from an honest client, and an
initiator takes a reply as coming from an honest server, only where the ledger of
these messages has it. Between two parties of which one is not honest, `snow` may
read anything.

* `noise`: the ideal `snow`, one use for each `Chance`.
* `Transcript`: a completed exchange; the keys of a session are its two directions.
* `tryIdentities_reply`: the reply that the loop over the identities yields.
-/

namespace SecureTunnel

/-- The public key of each private key, and the public keys whose private key only
    their honest owner has. -/
structure KeyRing where
  publicKey : StaticKey → StaticKey
  honest : Bytes → Bool

/-- A first message, the public key of the client that wrote it, and the one of the
    server it was written for. -/
structure Greeting where
  client : Bytes
  server : Bytes
  message : Bytes
  deriving DecidableEq, Repr

/-- A completed exchange: the public keys of its two parties, and its messages. -/
structure Transcript where
  client : Bytes
  server : Bytes
  first : Bytes
  reply : Bytes
  deriving DecidableEq, Repr

/-- What the server has read of an exchange. -/
def Transcript.greeting (t : Transcript) : Greeting := ⟨t.client, t.server, t.first⟩

/-- Both parties of the exchange are honest. -/
def Transcript.Secret (K : KeyRing) (t : Transcript) : Prop :=
  K.honest t.client = true ∧ K.honest t.server = true

instance (K : KeyRing) (t : Transcript) : Decidable (t.Secret K) :=
  inferInstanceAs (Decidable (_ ∧ _))

/-- The handshake messages that were written, each by the object of this name. -/
structure HandshakeLedger (ι : Type*) where
  greetings : List (ι × Greeting)
  replies : List (ι × Transcript)

/-- What is left to chance, and to whoever made the message, in a use of `snow`. -/
structure Chance where
  fails : Option SnowError
  /-- The message it writes. -/
  message : Filled maxHandshakeMessage
  /-- The static key it reads in a message that no honest party wrote, if it reads it. -/
  claims : Option Bytes

/-- A use of `snow` that may fail. -/
def Chance.attempt {α : Type*} (chance : Chance) (a : α) : Except SnowError α :=
  match chance.fails with
  | none => .ok a
  | some e => .error e

theorem Chance.attempt_eq_ok {α : Type*} {chance : Chance} {a b : α} :
    chance.attempt a = .ok b ↔ chance.fails = none ∧ a = b := by
  rcases h : chance.fails with _ | e <;> simp [attempt, h]

/-- A handshake state of `snow`: of an initiator, of a responder, or of either once
    both messages are exchanged. -/
inductive IK
  | initiator (clientPrivate : StaticKey) (server : Bytes)
  | greeted (clientPrivate : StaticKey) (server first : Bytes)
  | responder (identity : StaticKey)
  | heard (identity : StaticKey) (client first : Bytes)
  | finished (t : Transcript) (side : Side)

/-- `StateProblem` -/
def SnowError.state : SnowError := .other "state error: NotTurnToRead".toList

section Ideal

variable {ι : Type*}

/-- The static key that a responder reads in a first message: the client's that wrote
    it, or whatever is claimed, but for an honest client at an honest server. -/
def HandshakeLedger.sender (L : HandshakeLedger ι) (K : KeyRing) (server message : Bytes)
    (claims : Option Bytes) : Option Bytes :=
  match L.greetings.find? fun g => g.2.server == server && g.2.message == message with
  | some g => some g.2.client
  | none => claims.filter fun client => !(K.honest client && K.honest server)

/-- An initiator reads a reply: it was written in this exchange, or is claimed to be,
    but not between honest parties. -/
def HandshakeLedger.replied [DecidableEq ι] (L : HandshakeLedger ι) (K : KeyRing)
    (t : Transcript) (claims : Option Bytes) : Bool :=
  L.replies.any (·.2 == t) || (claims.isSome && !decide (t.Secret K))

/-- The ideal `snow`, for the messages written so far. -/
def noise [DecidableEq ι] (K : KeyRing) (L : HandshakeLedger ι) (chance : Chance) :
    Snow IK (Transcript × Side) where
  buildInitiator clientPrivate server := chance.attempt (.initiator clientPrivate server.1)
  buildResponder identity := chance.attempt (.responder identity)
  writeMessage
    | .initiator clientPrivate server =>
      chance.attempt (chance.message, .greeted clientPrivate server chance.message.1)
    | .heard identity client first =>
      chance.attempt (chance.message,
        .finished ⟨client, (K.publicKey identity).1, first, chance.message.1⟩ .server)
    | _ => .error .state
  readMessage state message :=
    match state with
    | .responder identity =>
      match L.sender K (K.publicKey identity).1 message chance.claims with
      | some client => chance.attempt (.heard identity client message)
      | none => .error .decrypt
    | .greeted clientPrivate server first =>
      let t : Transcript := ⟨(K.publicKey clientPrivate).1, server, first, message⟩
      if L.replied K t chance.claims then chance.attempt (.finished t .client)
      else .error .decrypt
    | _ => .error .state
  remoteStatic
    | .initiator _ server | .greeted _ server _ => some server
    | .responder _ => none
    | .heard _ client _ => some client
    | .finished t .client => some t.server
    | .finished t .server => some t.client
  intoTransport
    | .finished t side => chance.attempt (.fresh (t, side) (t, side.peer))
    | _ => .error .state

end Ideal

/-! ## What the ideal `snow` does -/

/-- The first message that a state has written. -/
def IK.greeting (K : KeyRing) : IK → Option Greeting
  | greeted clientPrivate server first => some ⟨(K.publicKey clientPrivate).1, server, first⟩
  | _ => none

/-- The exchange that a state has completed. -/
def IK.transcript : IK → Option Transcript
  | finished t _ => some t
  | _ => none

section Ideal

variable {ι : Type*} [DecidableEq ι] {K : KeyRing} {L : HandshakeLedger ι} {chance : Chance}

omit [DecidableEq ι] in
/-- An honest client is taken for the sender only of a message that it wrote for this
    server. -/
theorem HandshakeLedger.sender_honest {server message client : Bytes} {claims : Option Bytes}
    (h : L.sender K server message claims = some client) (hclient : K.honest client = true)
    (hserver : K.honest server = true) : ∃ i, (i, ⟨client, server, message⟩) ∈ L.greetings := by
  rw [sender] at h
  split at h
  · rename_i g hfind
    obtain rfl := Option.some.inj h
    have hg := List.find?_some hfind
    simp only [Bool.and_eq_true, beq_iff_eq] at hg
    obtain ⟨rfl, rfl⟩ := hg
    exact ⟨g.1, List.mem_of_find?_eq_some hfind⟩
  · have hclaim := (Option.filter_eq_some_iff.1 h).2
    simp [hclient, hserver] at hclaim

theorem HandshakeLedger.replied_secret {t : Transcript} {claims : Option Bytes}
    (h : L.replied K t claims = true) (hsecret : t.Secret K) : ∃ i, (i, t) ∈ L.replies := by
  simp only [replied, hsecret, decide_true, Bool.not_true, Bool.and_false, Bool.or_false] at h
  obtain ⟨⟨i, t'⟩, hmem, ht⟩ := List.any_eq_true.1 h
  obtain rfl := beq_iff_eq.1 ht
  exact ⟨i, hmem⟩

theorem noise_writeMessage {s s' : IK} {message : Filled maxHandshakeMessage}
    (h : (noise K L chance).writeMessage s = .ok (message, s')) :
    message = chance.message ∧
      ((∃ clientPrivate server, s = .initiator clientPrivate server ∧
        s' = .greeted clientPrivate server chance.message.1) ∨
      ∃ identity client first, s = .heard identity client first ∧
        s' = .finished ⟨client, (K.publicKey identity).1, first, chance.message.1⟩ .server) := by
  cases s with
  | initiator clientPrivate server =>
    obtain ⟨rfl, rfl⟩ := Prod.mk.inj (Chance.attempt_eq_ok.1 h).2
    exact ⟨rfl, .inl ⟨_, _, rfl, rfl⟩⟩
  | heard identity client first =>
    obtain ⟨rfl, rfl⟩ := Prod.mk.inj (Chance.attempt_eq_ok.1 h).2
    exact ⟨rfl, .inr ⟨_, _, _, rfl, rfl⟩⟩
  | greeted | responder | finished => cases h

theorem noise_readReply {clientPrivate : StaticKey} {server first reply : Bytes} {s : IK}
    (h : (noise K L chance).readMessage (.greeted clientPrivate server first) reply = .ok s) :
    s = .finished ⟨(K.publicKey clientPrivate).1, server, first, reply⟩ .client ∧
      (Transcript.Secret K ⟨(K.publicKey clientPrivate).1, server, first, reply⟩ →
        ∃ i, (i, ⟨(K.publicKey clientPrivate).1, server, first, reply⟩) ∈ L.replies) := by
  simp only [noise] at h
  split at h
  · rename_i hreplied
    exact ⟨(Chance.attempt_eq_ok.1 h).2.symm, HandshakeLedger.replied_secret hreplied⟩
  · cases h

theorem noise_readFirst {identity : StaticKey} {message : Bytes} {s s' : IK}
    (hbuild : (noise K L chance).buildResponder identity = .ok s)
    (hread : (noise K L chance).readMessage s message = .ok s') :
    ∃ client, s' = .heard identity client message ∧
      (K.honest client = true → K.honest (K.publicKey identity).1 = true →
        ∃ i, (i, ⟨client, (K.publicKey identity).1, message⟩) ∈ L.greetings) := by
  obtain rfl := (Chance.attempt_eq_ok.1 hbuild).2
  simp only [noise] at hread
  split at hread
  · rename_i client hsender
    exact ⟨client, (Chance.attempt_eq_ok.1 hread).2.symm,
      HandshakeLedger.sender_honest hsender⟩
  · cases hread

theorem noise_intoTransport {s : IK} {transport : TransportState (Transcript × Side)}
    (h : (noise K L chance).intoTransport s = .ok transport) :
    ∃ t side, s = .finished t side ∧ transport = .fresh (t, side) (t, side.peer) := by
  cases s with
  | finished t side => exact ⟨t, side, rfl, (Chance.attempt_eq_ok.1 h).2.symm⟩
  | initiator | greeted | responder | heard => cases h

end Ideal

/-- Under an identity, `snow` reads a message into this state, and finds this static key
    of its sender. -/
def Snow.Hears {HS Key : Type*} (snow : Snow HS Key) (identity : StaticKey)
    (message remote : Bytes) (s' : HS) : Prop :=
  ∃ s, snow.buildResponder identity = .ok s ∧ snow.readMessage s message = .ok s' ∧
    snow.remoteStatic s' = some remote

/-- The reply that the loop over the identities yields is the state in which `snow` has
    read the message under one of them, from an allowed client. -/
theorem tryIdentities_reply {HS Key : Type*} {snow : ℕ → Snow HS Key}
    {allowList : List StaticKey} {message : Bytes} {i : ℕ} {keys : List StaticKey}
    {unauthorisedClient : Bool} {lastError : Option SnowError} {r : ServerReply HS}
    (h : (tryIdentities snow allowList message i keys unauthorisedClient lastError).1 = .ok r) :
    ∃ n, ∃ identity ∈ keys, ∃ remote ∈ allowList.map (·.1), ∃ s,
      (snow n).Hears identity message remote s ∧ r = ⟨some s, false⟩ := by
  induction keys generalizing i unauthorisedClient lastError with
  | nil =>
    simp only [tryIdentities] at h
    cases unauthorisedClient <;> cases lastError <;> cases h
  | cons key keys ih =>
    have hlater := fun {i unauthorisedClient lastError}
        (h : (tryIdentities snow allowList message i keys unauthorisedClient lastError).1 =
          .ok r) =>
      (ih h).imp fun n => Exists.imp fun identity hidentity =>
        And.imp_left (List.mem_cons_of_mem key) hidentity
    simp only [tryIdentities] at h
    split at h
    · cases h
    rename_i s hbuild
    split at h
    · rename_i s' hread
      split at h
      · cases h
      rename_i remote hremote
      split at h
      · cases h
      split at h
      · rename_i hallowed
        obtain rfl := Except.ok.inj h
        exact ⟨i, key, List.mem_cons_self, remote, List.contains_iff_mem.1 hallowed, s',
          ⟨s, hbuild, hread, hremote⟩, rfl⟩
      · exact hlater h
    · exact hlater h

end SecureTunnel
