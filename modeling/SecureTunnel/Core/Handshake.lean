import SecureTunnel.General.Ladder
import SecureTunnel.Core.Record

/-!
# Handshakes

The objects of the Noise IK handshake: the client's `ClientHandshake`, the
server's `ServerHandshake`, and the `ServerReply` it yields to an authorised
client. Each takes its state out before a fallible step and puts it back only
where the step succeeds.

`snow` is a parameter of every call (`Snow`): each use may have any outcome.

The calls on each object form a ladder of two rungs (`clientLadder`,
`serverLadder`, `replyLadder`), from which it follows that the objects are
one-shot and ordered (`handshakes_one_shot`). The one call that is rejected and
nevertheless changes its object is `into_session`, which takes the reply by value
(`intoSession_rejected_consumes`).
-/

namespace SecureTunnel

/-- A static X25519 key, private or public: `[u8; 32]`. -/
abbrev StaticKey := {key : Bytes // key.length = 32}

/-- One use of `snow`'s handshake: what it builds, writes, reads and turns into a
    transport. -/
structure Snow (HS Key : Type*) where
  buildInitiator : StaticKey → StaticKey → Except SnowError HS
  buildResponder : StaticKey → Except SnowError HS
  writeMessage : HS → Except SnowError (Filled maxHandshakeMessage × HS)
  readMessage : HS → Bytes → Except SnowError HS
  remoteStatic : HS → Option Bytes
  intoTransport : HS → Except SnowError (TransportState Key)

variable {HS Key : Type*}

/-- A panic, or an error. -/
inductive Failure
  | panic
  | error (e : TunnelError)
  deriving DecidableEq, Repr

/-- The call was rejected: for its order, for a bad preface or for a malformed frame. -/
def TunnelError.rejection : TunnelError → Bool
  | .handshakeOrder | .invalidPreface | .unsupportedVersion .. => true
  | e => e.malformed

/-! ## The client -/

structure ClientHandshake (HS : Type*) where
  state : Option HS
  sentFirst : Bool
  deriving DecidableEq

/-- `first_message` and `message`: the object's next handshake frame, with its
    flag and its state after the call. -/
def writeOnce (snow : Snow HS Key) (sent : Bool) (state : Option HS) :
    Except TunnelError Bytes × Bool × Option HS :=
  if sent then (.error .handshakeOrder, sent, state)
  else
    match state with
    | none => (.error .closedSession, sent, none)
    | some state =>
      match snow.writeMessage state with
      | .error e => (.error (.noise e), sent, none)
      | .ok (message, state) =>
        match encodeHandshakeFrame message.1 with
        | .error e => (.error e, true, none)
        | .ok frame => (.ok frame, true, some state)

namespace ClientHandshake

def new (snow : Snow HS Key) (clientPrivate pinnedServer : StaticKey) :
    Except TunnelError (ClientHandshake HS) :=
  match snow.buildInitiator clientPrivate pinnedServer with
  | .error e => .error (.noise e)
  | .ok state => .ok ⟨some state, false⟩

def firstMessage (snow : Snow HS Key) (h : ClientHandshake HS) :
    Except TunnelError Bytes × ClientHandshake HS :=
  let (result, sentFirst, state) := writeOnce snow h.sentFirst h.state
  (result, ⟨state, sentFirst⟩)

def finish (snow : Snow HS Key) (h : ClientHandshake HS) (serverFrame : Bytes) :
    Except TunnelError (TransportState Key) × ClientHandshake HS :=
  if !h.sentFirst then (.error .handshakeOrder, h)
  else
    match decodeHandshakeFrame serverFrame with
    | .error e => (.error e, h)
    | .ok message =>
      match h.state with
      | none => (.error .closedSession, h)
      | some state =>
        let taken := { h with state := none }
        match snow.readMessage state message with
        | .error e => (.error (.noise e), taken)
        | .ok state =>
          match snow.intoTransport state with
          | .error e => (.error (.noise e), taken)
          | .ok transport => (.ok transport, taken)

end ClientHandshake

/-! ## The server -/

/-- The static identities of a server: at least one, and at most eight. -/
abbrev Identities :=
  {keys : List StaticKey // keys ≠ [] ∧ keys.length ≤ maxServerStaticIdentities}

structure ServerHandshake where
  /-- Taken before the first handshake frame is tried. -/
  staticIdentities : Option Identities
  allowList : List StaticKey
  prefaceAccepted : Bool
  deriving DecidableEq

structure ServerReply (HS : Type*) where
  state : Option HS
  sentReply : Bool
  deriving DecidableEq

/-- What `receive_client` does: its result, the object after it, and the
    messages that `snow` read, each under an identity. -/
structure Received (HS : Type*) where
  result : Except Failure (ServerReply HS)
  handshake : ServerHandshake
  reads : List (StaticKey × Bytes)

/-- The loop of `receive_client` over the identities. -/
def tryIdentities (snow : ℕ → Snow HS Key) (allowList : List StaticKey) (message : Bytes) :
    ℕ → List StaticKey → Bool → Option SnowError →
      Except Failure (ServerReply HS) × List (StaticKey × Bytes)
  | _, [], unauthorisedClient, lastError =>
    (if unauthorisedClient then .error (.error .unauthorisedClient)
      else
        match lastError with
        | some e => .error (.error (.noise e))
        -- `expect("at least one bounded static identity was tried")`
        | none => .error .panic, [])
  | i, serverPrivate :: keys, unauthorisedClient, lastError =>
    match (snow i).buildResponder serverPrivate with
    | .error e => (.error (.error (.noise e)), [])
    | .ok state =>
      match (snow i).readMessage state message with
      | .ok state =>
        match (snow i).remoteStatic state with
        | none => (.error (.error .unauthorisedClient), [(serverPrivate, message)])
        | some remote =>
          if remote.length ≠ 32 then
            (.error (.error .unauthorisedClient), [(serverPrivate, message)])
          else if (allowList.map (·.1)).contains remote then
            (.ok ⟨some state, false⟩, [(serverPrivate, message)])
          else
            let more := tryIdentities snow allowList message (i + 1) keys true lastError
            (more.1, (serverPrivate, message) :: more.2)
      | .error e =>
        let more := tryIdentities snow allowList message (i + 1) keys unauthorisedClient (some e)
        (more.1, (serverPrivate, message) :: more.2)

namespace ServerHandshake

def newWithStaticIdentities (serverPrivates authorisedClients : List StaticKey) :
    Except TunnelError ServerHandshake :=
  if hempty : serverPrivates = [] then .error .missingServerStaticIdentity
  else if hmany : maxServerStaticIdentities < serverPrivates.length then
    .error (.tooManyServerStaticIdentities serverPrivates.length)
  else .ok ⟨some ⟨serverPrivates, hempty, Nat.not_lt.1 hmany⟩, authorisedClients, false⟩

def acceptPreface (h : ServerHandshake) (preface : Bytes) :
    Except TunnelError Unit × ServerHandshake :=
  if h.prefaceAccepted then (.error .handshakeOrder, h)
  else
    match Preface.parse preface with
    | .error e => (.error e, h)
    | .ok _ => (.ok (), { h with prefaceAccepted := true })

def receiveClient (snow : ℕ → Snow HS Key) (h : ServerHandshake) (clientFrame : Bytes) :
    Received HS :=
  if !h.prefaceAccepted then ⟨.error (.error .handshakeOrder), h, []⟩
  else
    match decodeHandshakeFrame clientFrame with
    | .error e => ⟨.error (.error e), h, []⟩
    | .ok message =>
      match h.staticIdentities with
      | none => ⟨.error (.error .closedSession), h, []⟩
      | some identities =>
        let tried := tryIdentities snow h.allowList message 0 identities.1 false none
        ⟨tried.1, { h with staticIdentities := none }, tried.2⟩

end ServerHandshake

namespace ServerReply

def message (snow : Snow HS Key) (r : ServerReply HS) :
    Except TunnelError Bytes × ServerReply HS :=
  let (result, sentReply, state) := writeOnce snow r.sentReply r.state
  (result, ⟨state, sentReply⟩)

/-- `into_session`, which takes the reply by value: there is none after it. -/
def intoSession (snow : Snow HS Key) (r : ServerReply HS) :
    Except TunnelError (TransportState Key) :=
  if !r.sentReply then .error .handshakeOrder
  else
    match r.state with
    | none => .error .closedSession
    | some state =>
      match snow.intoTransport state with
      | .error e => .error (.noise e)
      | .ok transport => .ok transport

end ServerReply

/-! ## What the steps do -/

/-- All that writing a handshake frame can do: a frame of at most 4096 bytes always encodes. -/
theorem writeOnce_cases (snow : Snow HS Key) (sent : Bool) (state : Option HS) :
    (sent = true ∧ writeOnce snow sent state = (.error .handshakeOrder, sent, state)) ∨
    (sent = false ∧ state = none ∧
      writeOnce snow sent state = (.error .closedSession, sent, state)) ∨
    (sent = false ∧ ∃ e, writeOnce snow sent state = (.error (.noise e), sent, none)) ∨
    (sent = false ∧ ∃ s frame s', state = some s ∧
      writeOnce snow sent state = (.ok frame, true, some s')) := by
  cases sent with
  | true => exact .inl ⟨rfl, rfl⟩
  | false =>
    rcases state with _ | s
    · exact .inr (.inl ⟨rfl, rfl, rfl⟩)
    rcases hw : snow.writeMessage s with e | ⟨⟨message, hlen⟩, s'⟩
    · exact .inr (.inr (.inl ⟨rfl, e, by simp [writeOnce, hw]⟩))
    · have hlt : ¬2 ^ 16 ≤ message.length := by
        simp only [maxHandshakeMessage] at hlen
        omega
      refine .inr (.inr (.inr ⟨rfl, s, bigEndian 2 message.length ++ message, s', rfl, ?_⟩))
      simp [-Nat.reducePow, writeOnce, hw, encodeHandshakeFrame, Nat.not_lt.2 hlen, hlt]

/-- What the loop over the identities can do: every read is of the one message,
    a reply is fresh, and an error is `UnauthorisedClient` or from `snow`. -/
theorem tryIdentities_spec (snow : ℕ → Snow HS Key) (allowList : List StaticKey) (message : Bytes)
    (i : ℕ) (keys : List StaticKey) (unauthorisedClient : Bool) (lastError : Option SnowError) :
    let tried := tryIdentities snow allowList message i keys unauthorisedClient lastError
    (∀ p ∈ tried.2, p.2 = message) ∧ (∀ r, tried.1 = .ok r → ∃ s, r = ⟨some s, false⟩) ∧
      ∀ e, tried.1 = .error (.error e) → e = .unauthorisedClient ∨ ∃ s, e = .noise s := by
  induction keys generalizing i unauthorisedClient lastError with
  | nil =>
    simp only [tryIdentities]
    refine ⟨fun p hp => absurd hp List.not_mem_nil, ?_, ?_⟩
    · cases unauthorisedClient <;> cases lastError <;> simp
    · cases unauthorisedClient <;> cases lastError <;> simp [eq_comm]
  | cons key keys ih =>
    simp only [tryIdentities]
    split
    · exact ⟨fun p hp => absurd hp List.not_mem_nil, by simp, by simp [eq_comm]⟩
    split
    · split
      · simp [eq_comm]
      split
      · simp [eq_comm]
      split
      · simp [eq_comm]
      · -- The client is not allowed under this identity.
        obtain ⟨hreads, hok, herr⟩ := ih (i + 1) true lastError
        exact ⟨List.forall_mem_cons.2 ⟨rfl, hreads⟩, hok, herr⟩
    · -- The message does not authenticate under this identity.
      obtain ⟨hreads, hok, herr⟩ := ih (i + 1) unauthorisedClient (some _)
      exact ⟨List.forall_mem_cons.2 ⟨rfl, hreads⟩, hok, herr⟩

/-- Under an identity, `snow` reads a message and finds this static key of its sender. -/
def Snow.Accepts (snow : Snow HS Key) (identity : StaticKey) (message remote : Bytes) : Prop :=
  ∃ s s', snow.buildResponder identity = .ok s ∧ snow.readMessage s message = .ok s' ∧
    snow.remoteStatic s' = some remote

/-- The loop yields a reply only where `snow` accepts the message under one of the
    identities, from an allowed client. -/
theorem tryIdentities_ok (snow : Snow HS Key) (allowList : List StaticKey) (message : Bytes)
    {i : ℕ} {keys : List StaticKey} {unauthorisedClient : Bool} {lastError : Option SnowError}
    {r : ServerReply HS} (h : (tryIdentities (fun _ => snow) allowList message i keys
      unauthorisedClient lastError).1 = .ok r) :
    ∃ identity ∈ keys, ∃ remote ∈ allowList, snow.Accepts identity message remote.1 := by
  induction keys generalizing i unauthorisedClient lastError with
  | nil =>
    simp only [tryIdentities] at h
    cases unauthorisedClient <;> cases lastError <;> cases h
  | cons key keys ih =>
    have hlater : (∃ identity ∈ keys, ∃ remote ∈ allowList,
        snow.Accepts identity message remote.1) → ∃ identity ∈ key :: keys,
        ∃ remote ∈ allowList, snow.Accepts identity message remote.1 :=
      fun ⟨identity, hmem, hrest⟩ => ⟨identity, List.mem_cons_of_mem _ hmem, hrest⟩
    simp only [tryIdentities] at h
    split at h
    · cases h
    rename_i state hbuild
    split at h
    · -- The message is authentic under this identity; the client may still be unknown.
      rename_i state' hread
      split at h
      · cases h
      rename_i remote hremote
      split at h
      · cases h
      split at h
      · rename_i hallowed
        obtain ⟨allowed, hmem, rfl⟩ := List.mem_map.1 (List.contains_iff_mem.1 hallowed)
        exact ⟨key, List.mem_cons_self, allowed, hmem, state, state', hbuild, hread, hremote⟩
      · exact hlater (ih h)
    · exact hlater (ih h)

theorem ServerHandshake.receiveClient_ok {snow : Snow HS Key} {h : ServerHandshake}
    {clientFrame : Bytes} {r : ServerReply HS}
    (hr : (h.receiveClient (fun _ => snow) clientFrame).result = .ok r) :
    ∃ message identities, clientFrame = handshakeFrame message ∧
      message.length ≤ maxHandshakeMessage ∧ h.staticIdentities = some identities ∧
      ∃ identity ∈ identities.1, ∃ remote ∈ h.allowList,
        snow.Accepts identity message remote.1 := by
  rw [receiveClient] at hr
  split at hr
  · cases hr
  split at hr
  · cases hr
  rename_i message hdecode
  split at hr
  · cases hr
  rename_i identities hidentities
  obtain ⟨hframe, hlen⟩ := decodeHandshakeFrame_iff.1 hdecode
  exact ⟨message, identities, hframe, hlen, hidentities, tryIdentities_ok snow _ _ hr⟩

/-- What is written is the frame of the message that `snow` writes, once. -/
theorem writeOnce_ok {snow : Snow HS Key} {sent sent' : Bool} {state state' : Option HS}
    {frame : Bytes} (h : writeOnce snow sent state = (.ok frame, sent', state')) :
    ∃ s message s', state = some s ∧ snow.writeMessage s = .ok (message, s') ∧
      frame = handshakeFrame message.1 ∧ sent' = true ∧ state' = some s' := by
  rw [writeOnce.eq_def] at h
  split at h
  · cases h
  split at h
  · cases h
  rename_i s
  split at h
  · cases h
  rename_i message s' hwrite
  split at h
  · cases h
  rename_i hencode
  cases h
  rw [encodeHandshakeFrame] at hencode
  split at hencode
  · cases hencode
  split at hencode
  · cases hencode
  · cases hencode
    exact ⟨s, message, s', rfl, hwrite, rfl, rfl, rfl⟩

theorem writeOnce_frame {snow : Snow HS Key} {sent : Bool} {state : Option HS} {frame : Bytes}
    (h : (writeOnce snow sent state).1 = .ok frame) :
    ∃ message, frame = handshakeFrame message := by
  obtain ⟨-, message, -, -, -, hframe, -⟩ := writeOnce_ok (Prod.ext h rfl)
  exact ⟨message.1, hframe⟩

theorem ClientHandshake.new_ok {snow : Snow HS Key} {clientPrivate pinnedServer : StaticKey}
    {h : ClientHandshake HS} (hnew : ClientHandshake.new snow clientPrivate pinnedServer = .ok h) :
    ∃ s, snow.buildInitiator clientPrivate pinnedServer = .ok s ∧ h = ⟨some s, false⟩ := by
  rw [new] at hnew
  split at hnew
  · cases hnew
  · rename_i s hbuild
    cases hnew
    exact ⟨s, hbuild, rfl⟩

/-- A client finishes with the frame of a message that `snow` reads. -/
theorem ClientHandshake.finish_ok {snow : Snow HS Key} {h h' : ClientHandshake HS}
    {serverFrame : Bytes} {transport : TransportState Key}
    (hfinish : h.finish snow serverFrame = (.ok transport, h')) :
    ∃ message s s', serverFrame = handshakeFrame message ∧ h.state = some s ∧
      snow.readMessage s message = .ok s' ∧ snow.intoTransport s' = .ok transport := by
  rw [finish] at hfinish
  split at hfinish
  · cases hfinish
  split at hfinish
  · cases hfinish
  rename_i message hdecode
  split at hfinish
  · cases hfinish
  rename_i s hstate
  dsimp only at hfinish
  split at hfinish
  · cases hfinish
  rename_i s' hread
  split at hfinish
  · cases hfinish
  · rename_i transport' hinto
    cases hfinish
    exact ⟨message, s, s', (decodeHandshakeFrame_iff.1 hdecode).1, hstate, hread, hinto⟩

theorem ServerReply.message_ok {snow : Snow HS Key} {r r' : ServerReply HS} {frame : Bytes}
    (h : r.message snow = (.ok frame, r')) : ∃ message, frame = handshakeFrame message :=
  writeOnce_frame (congrArg Prod.fst h)

/-! ## The ladders -/

/-- An error by which a call leaves its object as it was: a rejection, or the
    object was closed before. -/
def TunnelError.refusal (e : TunnelError) : Prop :=
  e.rejection ∨ e = .closedSession

theorem TunnelError.not_refusal_noise (e : SnowError) : ¬(TunnelError.noise e).refusal := by
  rintro (h | h)
  · exact absurd h (by simp [rejection, malformed])
  · cases h

theorem refusal_of_decodeHandshakeFrame {frame : Bytes} {e : TunnelError}
    (h : decodeHandshakeFrame frame = .error e) : e.refusal := by
  refine .inl ?_
  have hm := decodeFrame_error h
  cases e <;> first | rfl | exact hm

theorem Preface.rejection_of_parse {value : Bytes} {e : TunnelError}
    (h : Preface.parse value = .error e) : e.rejection := by
  rw [parse] at h
  split at h
  · cases h
    rfl
  split at h
  · cases h
    rfl
  split at h
  · cases h
    rfl
  · cases h

/-- A call on a client handshake. -/
inductive ClientCall (HS Key : Type*)
  | firstMessage (snow : Snow HS Key)
  | finish (snow : Snow HS Key) (serverFrame : Bytes)

/-- What a call on a client handshake, or on a reply, yields. -/
inductive HandshakeOut (Key : Type*)
  | frame (frame : Bytes)
  | session (transport : TransportState Key)

namespace ClientHandshake

def call (h : ClientHandshake HS) :
    ClientCall HS Key → Except TunnelError (HandshakeOut Key) × ClientHandshake HS
  | .firstMessage snow => ((h.firstMessage snow).1.map .frame, (h.firstMessage snow).2)
  | .finish snow serverFrame =>
    ((h.finish snow serverFrame).1.map .session, (h.finish snow serverFrame).2)

/-- All that a call can do: it is refused, `snow` fails, or it succeeds at its step. -/
theorem call_cases (h : ClientHandshake HS) (c : ClientCall HS Key) :
    (∃ e, e.refusal ∧ h.call c = (.error e, h)) ∨
    (∃ e sent, h.call c = (.error (.noise e), ⟨none, sent⟩)) ∨
    (∃ snow s frame s', c = .firstMessage snow ∧ h = ⟨some s, false⟩ ∧
      h.call c = (.ok (.frame frame), ⟨some s', true⟩)) ∨
    ∃ snow serverFrame s transport, c = .finish snow serverFrame ∧ h = ⟨some s, true⟩ ∧
      h.call c = (.ok (.session transport), ⟨none, true⟩) := by
  obtain ⟨state, sentFirst⟩ := h
  cases c with
  | firstMessage snow =>
    simp only [call, firstMessage]
    rcases writeOnce_cases snow sentFirst state with
      ⟨-, h⟩ | ⟨-, -, h⟩ | ⟨-, e, h⟩ | ⟨rfl, s, frame, s', rfl, h⟩
    · exact .inl ⟨_, .inl rfl, by rw [h]; rfl⟩
    · exact .inl ⟨_, .inr rfl, by rw [h]; rfl⟩
    · exact .inr (.inl ⟨e, sentFirst, by rw [h]; rfl⟩)
    · exact .inr (.inr (.inl ⟨snow, s, frame, s', rfl, rfl, by rw [h]; rfl⟩))
  | finish snow serverFrame =>
    simp only [call, finish]
    cases sentFirst with
    | false => exact .inl ⟨_, .inl rfl, rfl⟩
    | true =>
      rcases hd : decodeHandshakeFrame serverFrame with e | message
      · exact .inl ⟨e, refusal_of_decodeHandshakeFrame hd, rfl⟩
      rcases state with _ | s
      · exact .inl ⟨_, .inr rfl, rfl⟩
      rcases hr : snow.readMessage s message with e | s'
      · exact .inr (.inl ⟨e, true, by simp [hr, Except.map]⟩)
      rcases ht : snow.intoTransport s' with e | transport
      · exact .inr (.inl ⟨e, true, by simp [hr, ht, Except.map]⟩)
      · refine .inr (.inr (.inr ⟨snow, serverFrame, s, transport, rfl, rfl, ?_⟩))
        simp [hr, ht, Except.map]

end ClientHandshake

/-- The calls on a client handshake: its first message, then the session. -/
def clientLadder (HS Key : Type*) :
    Ladder (ClientHandshake HS) (ClientCall HS Key) TunnelError (HandshakeOut Key) where
  call := ClientHandshake.call
  rung
    | .firstMessage _ => 0
    | .finish .. => 1
  height h := if h.state.isNone then 2 else if h.sentFirst then 1 else 0
  top := 2
  rung_lt c := by cases c <;> simp
  height_le h := by grind
  ok_height {h c out} hout := by
    rcases h.call_cases c with ⟨e, -, h⟩ | ⟨e, sent, h⟩ | ⟨snow, s, frame, s', rfl, rfl, h⟩ |
      ⟨snow, serverFrame, s, transport, rfl, rfl, h⟩
    · simp [h] at hout
    · simp [h] at hout
    · simp [h]
    · simp [h]
  error_height {h c e} he := by
    rcases h.call_cases c with ⟨e, -, h⟩ | ⟨e, sent, h⟩ | ⟨snow, s, frame, s', rfl, rfl, h⟩ |
      ⟨snow, serverFrame, s, transport, rfl, rfl, h⟩
    · exact .inl (congrArg Prod.snd h)
    · exact .inr (by simp [h])
    · simp [h] at he
    · simp [h] at he

/-- A call on a server handshake; each identity has its own use of `snow`. -/
inductive ServerCall (HS Key : Type*)
  | acceptPreface (preface : Bytes)
  | receiveClient (snow : ℕ → Snow HS Key) (clientFrame : Bytes)

/-- What a call on a server handshake yields. -/
inductive ServerOut (HS : Type*)
  | preface
  | reply (reply : ServerReply HS)

namespace ServerHandshake

def call (h : ServerHandshake) :
    ServerCall HS Key → Except Failure (ServerOut HS) × ServerHandshake
  | .acceptPreface preface =>
    (((h.acceptPreface preface).1.mapError .error).map fun _ => .preface,
      (h.acceptPreface preface).2)
  | .receiveClient snow clientFrame =>
    ((h.receiveClient snow clientFrame).result.map .reply,
      (h.receiveClient snow clientFrame).handshake)

/-- All that a call can do: it is refused, the preface is accepted, or the
    identities are taken and tried on the frame. -/
theorem call_cases (h : ServerHandshake) (c : ServerCall HS Key) :
    (∃ e, e.refusal ∧ h.call c = (.error (.error e), h)) ∨
    (∃ preface, c = .acceptPreface preface ∧ h.prefaceAccepted = false ∧
      h.call c = (.ok .preface, { h with prefaceAccepted := true })) ∨
    ∃ snow clientFrame identities message, c = .receiveClient snow clientFrame ∧
      h.prefaceAccepted = true ∧ h.staticIdentities = some identities ∧
      decodeHandshakeFrame clientFrame = .ok message ∧
      h.call c = ((tryIdentities snow h.allowList message 0 identities.1 false none).1.map .reply,
        { h with staticIdentities := none }) := by
  obtain ⟨identities, allowList, prefaceAccepted⟩ := h
  cases c with
  | acceptPreface preface =>
    simp only [call, acceptPreface]
    cases prefaceAccepted with
    | true => exact .inl ⟨_, .inl rfl, rfl⟩
    | false =>
      rcases hp : Preface.parse preface with e | v
      · exact .inl ⟨e, .inl (Preface.rejection_of_parse hp), rfl⟩
      · exact .inr (.inl ⟨preface, rfl, rfl, rfl⟩)
  | receiveClient snow clientFrame =>
    simp only [call, receiveClient]
    cases prefaceAccepted with
    | false => exact .inl ⟨_, .inl rfl, rfl⟩
    | true =>
      rcases hd : decodeHandshakeFrame clientFrame with e | message
      · exact .inl ⟨e, refusal_of_decodeHandshakeFrame hd, rfl⟩
      rcases identities with _ | identities
      · exact .inl ⟨_, .inr rfl, rfl⟩
      · exact .inr (.inr ⟨snow, clientFrame, identities, message, rfl, rfl, rfl, hd, rfl⟩)

/-- The messages that `snow` reads in a call. -/
def reads (h : ServerHandshake) : ServerCall HS Key → List (StaticKey × Bytes)
  | .acceptPreface _ => []
  | .receiveClient snow clientFrame => (h.receiveClient snow clientFrame).reads

end ServerHandshake

/-- The calls on a server handshake: the preface, then the reply. -/
def serverLadder (HS Key : Type*) :
    Ladder ServerHandshake (ServerCall HS Key) Failure (ServerOut HS) where
  call := ServerHandshake.call
  rung
    | .acceptPreface _ => 0
    | .receiveClient .. => 1
  height h := if !h.prefaceAccepted then 0 else if h.staticIdentities.isSome then 1 else 2
  top := 2
  rung_lt c := by cases c <;> simp
  height_le h := by grind
  ok_height {h c out} hout := by
    rcases h.call_cases c with ⟨e, -, hc⟩ | ⟨preface, rfl, hp, hc⟩ |
      ⟨snow, frame, identities, message, rfl, hp, hi, -, hc⟩
    · simp [hc] at hout
    · simp only [hc, hp]
      grind
    · simp [hc, hp, hi]
  error_height {h c e} he := by
    rcases h.call_cases c with ⟨e, -, hc⟩ | ⟨preface, rfl, hp, hc⟩ |
      ⟨snow, frame, identities, message, rfl, hp, hi, -, hc⟩
    · exact .inl (congrArg Prod.snd hc)
    · simp [hc] at he
    · exact .inr (by simp [hc, hp])

/-- A call on a server's reply. -/
inductive ReplyCall (HS Key : Type*)
  | message (snow : Snow HS Key)
  | intoSession (snow : Snow HS Key)

/-- A call on a reply, if it was not moved by `into_session` before: a call on a
    moved value does not compile, which is the error `none` here. -/
def ServerReply.call : Option (ServerReply HS) → ReplyCall HS Key →
    Except (Option TunnelError) (HandshakeOut Key) × Option (ServerReply HS)
  | none, _ => (.error none, none)
  | some r, .message snow =>
    (((r.message snow).1.mapError some).map .frame, some (r.message snow).2)
  | some r, .intoSession snow => (((r.intoSession snow).mapError some).map .session, none)

/-- All that a call can do: `message` is refused, `snow` fails, the call succeeds
    at its step, or the reply is gone. -/
theorem ServerReply.call_cases (r : Option (ServerReply HS)) (c : ReplyCall HS Key) :
    (∃ snow e, c = .message snow ∧ e.refusal ∧ ServerReply.call r c = (.error (some e), r)) ∨
    (∃ snow e sent, c = .message snow ∧
      ServerReply.call r c = (.error (some (.noise e)), some ⟨none, sent⟩)) ∨
    (∃ snow s frame s', c = .message snow ∧ r = some ⟨some s, false⟩ ∧
      ServerReply.call r c = (.ok (.frame frame), some ⟨some s', true⟩)) ∨
    (∃ snow s transport, c = .intoSession snow ∧ r = some ⟨some s, true⟩ ∧
      ServerReply.call r c = (.ok (.session transport), none)) ∨
    ∃ e, ServerReply.call r c = (.error e, none) := by
  rcases r with _ | ⟨state, sentReply⟩
  · exact .inr (.inr (.inr (.inr ⟨none, rfl⟩)))
  cases c with
  | message snow =>
    simp only [call, message]
    rcases writeOnce_cases snow sentReply state with
      ⟨-, h⟩ | ⟨-, -, h⟩ | ⟨-, e, h⟩ | ⟨rfl, s, frame, s', rfl, h⟩
    · exact .inl ⟨snow, _, rfl, .inl rfl, by rw [h]; rfl⟩
    · exact .inl ⟨snow, _, rfl, .inr rfl, by rw [h]; rfl⟩
    · exact .inr (.inl ⟨snow, e, sentReply, rfl, by rw [h]; rfl⟩)
    · exact .inr (.inr (.inl ⟨snow, s, frame, s', rfl, rfl, by rw [h]; rfl⟩))
  | intoSession snow =>
    simp only [call, intoSession]
    cases sentReply with
    | false => exact .inr (.inr (.inr (.inr ⟨_, rfl⟩)))
    | true =>
      rcases state with _ | s
      · exact .inr (.inr (.inr (.inr ⟨_, rfl⟩)))
      rcases ht : snow.intoTransport s with e | transport
      · refine .inr (.inr (.inr (.inr ⟨some (.noise e), ?_⟩)))
        simp [ht, Except.mapError, Except.map]
      · refine .inr (.inr (.inr (.inl ⟨snow, s, transport, rfl, rfl, ?_⟩)))
        simp [ht, Except.mapError, Except.map]

/-- The calls on a reply: its message, then the session. -/
def replyLadder (HS Key : Type*) :
    Ladder (Option (ServerReply HS)) (ReplyCall HS Key) (Option TunnelError)
      (HandshakeOut Key) where
  call := ServerReply.call
  rung
    | .message _ => 0
    | .intoSession _ => 1
  height
    | none => 2
    | some r => if r.state.isNone then 2 else if r.sentReply then 1 else 0
  top := 2
  rung_lt c := by cases c <;> simp
  height_le r := by grind
  ok_height {r c out} hout := by
    rcases ServerReply.call_cases r c with ⟨snow, e, rfl, -, h⟩ | ⟨snow, e, sent, rfl, h⟩ |
      ⟨snow, s, frame, s', rfl, rfl, h⟩ | ⟨snow, s, transport, rfl, rfl, h⟩ | ⟨e, h⟩
    · simp [h] at hout
    · simp [h] at hout
    · simp [h]
    · simp [h]
    · simp [h] at hout
  error_height {r c e} he := by
    rcases ServerReply.call_cases r c with ⟨snow, e, rfl, -, h⟩ | ⟨snow, e, sent, rfl, h⟩ |
      ⟨snow, s, frame, s', rfl, rfl, h⟩ | ⟨snow, s, transport, rfl, rfl, h⟩ | ⟨e, h⟩
    · exact .inl (congrArg Prod.snd h)
    · exact .inr (by simp [h])
    · simp [h] at he
    · simp [h] at he
    · exact .inr (by simp [h])

/-! ## One-shot and ordered -/

namespace ClientHandshake

theorem height_new {snow : Snow HS Key} {clientPrivate pinnedServer : StaticKey}
    {h : ClientHandshake HS} (hnew : new snow clientPrivate pinnedServer = .ok h) :
    (clientLadder HS Key).height h = 0 := by
  rw [new] at hnew
  split at hnew
  · cases hnew
  · cases hnew
    rfl

/-- A call with an error leaves the object as it was if it is a rejection, and at
    the top of the ladder if `snow` failed. -/
theorem call_error {h : ClientHandshake HS} {c : ClientCall HS Key} {e : TunnelError}
    (he : ((clientLadder HS Key).call h c).1 = .error e) :
    (e.rejection → ((clientLadder HS Key).call h c).2 = h) ∧
      ∀ s, e = .noise s → (clientLadder HS Key).height ((clientLadder HS Key).call h c).2 = 2 := by
  change (h.call c).1 = .error e at he
  change (e.rejection → (h.call c).2 = h) ∧
    ∀ s, e = .noise s → (clientLadder HS Key).height (h.call c).2 = 2
  rcases h.call_cases c with ⟨e', hr, hc⟩ | ⟨s, sent, hc⟩ | ⟨snow, s, frame, s', rfl, -, hc⟩ |
    ⟨snow, serverFrame, s, transport, rfl, -, hc⟩
  · rw [hc] at he ⊢
    obtain rfl := Except.error.inj he
    refine ⟨fun _ => rfl, ?_⟩
    rintro s rfl
    exact absurd hr (TunnelError.not_refusal_noise s)
  · rw [hc] at he ⊢
    obtain rfl := Except.error.inj he
    exact ⟨fun hrej => absurd (.inl hrej) (TunnelError.not_refusal_noise s), fun _ _ => rfl⟩
  · rw [hc] at he
    cases he
  · rw [hc] at he
    cases he

end ClientHandshake

namespace ServerHandshake

theorem height_new {serverPrivates authorisedClients : List StaticKey} {h : ServerHandshake}
    (hnew : newWithStaticIdentities serverPrivates authorisedClients = .ok h) :
    (serverLadder HS Key).height h = 0 := by
  rw [newWithStaticIdentities] at hnew
  split at hnew
  · cases hnew
  split at hnew
  · cases hnew
  · cases hnew
    rfl

theorem call_error {h : ServerHandshake} {c : ServerCall HS Key} {e : TunnelError}
    (he : ((serverLadder HS Key).call h c).1 = .error (.error e)) :
    (e.rejection → ((serverLadder HS Key).call h c).2 = h) ∧
      ∀ s, e = .noise s → (serverLadder HS Key).height ((serverLadder HS Key).call h c).2 = 2 := by
  change (h.call c).1 = .error (.error e) at he
  change (e.rejection → (h.call c).2 = h) ∧
    ∀ s, e = .noise s → (serverLadder HS Key).height (h.call c).2 = 2
  rcases h.call_cases c with ⟨e', hr, hc⟩ | ⟨preface, rfl, hp, hc⟩ |
    ⟨snow, frame, identities, message, rfl, hp, hi, -, hc⟩
  · rw [hc] at he ⊢
    obtain rfl := Failure.error.inj (Except.error.inj he)
    refine ⟨fun _ => rfl, ?_⟩
    rintro s rfl
    exact absurd hr (TunnelError.not_refusal_noise s)
  · rw [hc] at he
    cases he
  · rw [hc] at he ⊢
    refine ⟨fun hrej => ?_, fun _ _ => by simp [serverLadder, hp]⟩
    -- The loop ends with `UnauthorisedClient` or an error of `snow`.
    obtain ⟨-, -, herr⟩ := tryIdentities_spec snow h.allowList message 0 identities.1 false none
    rcases ht : (tryIdentities snow h.allowList message 0 identities.1 false none).1 with f | r
    · rw [ht] at he
      obtain rfl := Except.error.inj he
      rcases herr e ht with rfl | ⟨s, rfl⟩
      · cases hrej
      · cases hrej
    · rw [ht] at he
      cases he

/-- A call in which `snow` reads takes the object to the top of its ladder, and
    reads only the message of its frame. -/
theorem call_reads {h : ServerHandshake} {c : ServerCall HS Key} (hne : h.reads c ≠ []) :
    (serverLadder HS Key).height h = 1 ∧
      (serverLadder HS Key).height ((serverLadder HS Key).call h c).2 = 2 ∧
      ∃ snow frame message, c = .receiveClient snow frame ∧
        decodeHandshakeFrame frame = .ok message ∧ ∀ p ∈ h.reads c, p.2 = message := by
  cases c with
  | acceptPreface preface => exact absurd rfl hne
  | receiveClient snow frame =>
    obtain ⟨identities, allowList, prefaceAccepted⟩ := h
    cases prefaceAccepted with
    | false => exact absurd rfl hne
    | true =>
      rcases hd : decodeHandshakeFrame frame with e | message
      · exact absurd (by simp [reads, receiveClient, hd]) hne
      rcases identities with _ | identities
      · exact absurd (by simp [reads, receiveClient, hd]) hne
      · refine ⟨rfl, ?_, snow, frame, message, rfl, hd, ?_⟩
        · simp [serverLadder, call, receiveClient, hd]
        · simp only [reads, receiveClient, hd]
          exact (tryIdentities_spec snow allowList message 0 identities.1 false none).1

/-- A reply is yielded fresh. -/
theorem reply_fresh {h : ServerHandshake} {c : ServerCall HS Key} {r : ServerReply HS}
    (hr : ((serverLadder HS Key).call h c).1 = .ok (.reply r)) : ∃ s, r = ⟨some s, false⟩ := by
  change (h.call c).1 = .ok (.reply r) at hr
  rcases h.call_cases c with ⟨e, -, hc⟩ | ⟨preface, rfl, -, hc⟩ |
    ⟨snow, frame, identities, message, rfl, -, -, -, hc⟩
  · rw [hc] at hr
    cases hr
  · rw [hc] at hr
    cases hr
  · rw [hc] at hr
    rcases ht : (tryIdentities snow h.allowList message 0 identities.1 false none).1 with f | r'
    · rw [ht] at hr
      cases hr
    · rw [ht] at hr
      cases hr
      exact (tryIdentities_spec snow h.allowList message 0 identities.1 false none).2.1 _ ht

end ServerHandshake

/-- A rejected `message` leaves the reply as it was; a failure of `snow`, in
    either call, leaves it at the top of its ladder. -/
theorem ServerReply.call_error {r : Option (ServerReply HS)} {c : ReplyCall HS Key}
    {e : TunnelError} (he : ((replyLadder HS Key).call r c).1 = .error (some e)) :
    (e.rejection → (∃ snow, c = .message snow) → ((replyLadder HS Key).call r c).2 = r) ∧
      ∀ s, e = .noise s → (replyLadder HS Key).height ((replyLadder HS Key).call r c).2 = 2 := by
  change (call r c).1 = .error (some e) at he
  change (e.rejection → (∃ snow, c = .message snow) → (call r c).2 = r) ∧
    ∀ s, e = .noise s → (replyLadder HS Key).height (call r c).2 = 2
  rcases call_cases r c with ⟨snow, e', rfl, hr, hc⟩ | ⟨snow, s, sent, rfl, hc⟩ |
    ⟨snow, s, frame, s', rfl, -, hc⟩ | ⟨snow, s, transport, rfl, -, hc⟩ | ⟨e', hc⟩
  · rw [hc] at he ⊢
    obtain rfl := Option.some.inj (Except.error.inj he)
    refine ⟨fun _ _ => rfl, ?_⟩
    rintro s rfl
    exact absurd hr (TunnelError.not_refusal_noise s)
  · rw [hc] at he ⊢
    obtain rfl := Option.some.inj (Except.error.inj he)
    exact ⟨fun hrej => absurd (.inl hrej) (TunnelError.not_refusal_noise s), fun _ _ => rfl⟩
  · rw [hc] at he
    cases he
  · rw [hc] at he
    cases he
  · -- The reply is gone: it was before, or the call was `into_session`.
    rw [hc]
    refine ⟨?_, fun _ _ => rfl⟩
    rintro - ⟨snow, rfl⟩
    cases r with
    | none => rfl
    | some r => exact absurd (congrArg Prod.snd hc) (by simp [call])

/-- For every sequence of calls and every outcome of `snow` at each use: no step
    of a handshake object succeeds twice, and the second only after the first; a
    failure that changes the object, and every failure of `snow`, ends it; a call
    rejected for its order, a bad preface or a malformed frame leaves it as it
    was, except that `into_session` takes the reply. A server handshake has
    `snow` read at most one frame, and the replies it yields climb likewise. -/
theorem handshakes_one_shot (HS Key : Type*) :
    (∀ (snow₀ : Snow HS Key) clientPrivate pinnedServer h,
      ClientHandshake.new snow₀ clientPrivate pinnedServer = .ok h →
      let L := clientLadder HS Key
      L.Climbs h ∧ ∀ cs c e, (L.call (L.after h cs) c).1 = .error e →
        (e.rejection → (L.call (L.after h cs) c).2 = L.after h cs) ∧
        ∀ s, e = .noise s → ∀ cs' c', ¬L.Ok (L.after h (cs ++ c :: cs')) c') ∧
    ∀ serverPrivates authorisedClients h,
      ServerHandshake.newWithStaticIdentities serverPrivates authorisedClients = .ok h →
      let L := serverLadder HS Key
      L.Climbs h ∧
      (∀ cs c e, (L.call (L.after h cs) c).1 = .error (.error e) →
        (e.rejection → (L.call (L.after h cs) c).2 = L.after h cs) ∧
        ∀ s, e = .noise s → ∀ cs' c', ¬L.Ok (L.after h (cs ++ c :: cs')) c') ∧
      (∀ cs c, (L.after h cs).reads c ≠ [] →
        (∃ snow frame message, c = .receiveClient snow frame ∧
          decodeHandshakeFrame frame = .ok message ∧
          ∀ p ∈ (L.after h cs).reads c, p.2 = message) ∧
        ∀ cs' (c' : ServerCall HS Key), (L.after h (cs ++ c :: cs')).reads c' = []) ∧
      ∀ cs c r, (L.call (L.after h cs) c).1 = .ok (.reply r) →
        let R := replyLadder HS Key
        R.Climbs (some r) ∧ ∀ cs c e, (R.call (R.after (some r) cs) c).1 = .error (some e) →
          (e.rejection → (∃ snow, c = .message snow) →
            (R.call (R.after (some r) cs) c).2 = R.after (some r) cs) ∧
          ∀ s, e = .noise s → ∀ cs' c', ¬R.Ok (R.after (some r) (cs ++ c :: cs')) c' := by
  constructor
  · intro snow₀ clientPrivate pinnedServer h hnew L
    refine ⟨Ladder.climbs (ClientHandshake.height_new hnew), fun cs c e he => ?_⟩
    obtain ⟨hrej, htop⟩ := ClientHandshake.call_error he
    refine ⟨hrej, fun s hs cs' c' => ?_⟩
    rw [Ladder.after_append]
    exact Ladder.not_ok_of_top (htop s hs) cs' c'
  · intro serverPrivates authorisedClients h hnew L
    refine ⟨Ladder.climbs (ServerHandshake.height_new hnew), fun cs c e he => ?_,
      fun cs c hne => ?_, fun cs c r hr => ?_⟩
    · obtain ⟨hrej, htop⟩ := ServerHandshake.call_error he
      refine ⟨hrej, fun s hs cs' c' => ?_⟩
      rw [Ladder.after_append]
      exact Ladder.not_ok_of_top (htop s hs) cs' c'
    · obtain ⟨-, htop, hframe⟩ := ServerHandshake.call_reads hne
      refine ⟨hframe, fun cs' c' => ?_⟩
      -- A second read would find the object below the top again.
      by_contra hne'
      obtain ⟨hone, -, -⟩ := ServerHandshake.call_reads hne'
      rw [Ladder.after_append] at hone
      have hle : L.height (L.call (L.after h cs) c).2 ≤
          L.height (L.after (L.after h cs) (c :: cs')) := Ladder.height_le_after _ cs'
      rw [hone, htop] at hle
      exact absurd hle (by decide)
    · intro R
      obtain ⟨s, rfl⟩ := ServerHandshake.reply_fresh hr
      refine ⟨Ladder.climbs rfl, fun cs' c' e he => ?_⟩
      obtain ⟨hrej, htop⟩ := ServerReply.call_error he
      refine ⟨hrej, fun s' hs cs'' c'' => ?_⟩
      rw [Ladder.after_append]
      exact Ladder.not_ok_of_top (htop s' hs) cs'' c''

/-- `into_session` before `message` is rejected for its order, and there is no
    reply after it. -/
theorem intoSession_rejected_consumes :
    let snow : Snow Unit Unit := ⟨fun _ _ => .ok (), fun _ => .ok (),
      fun _ => .ok (⟨[], by decide⟩, ()), fun _ _ => .ok (), fun _ => none,
      fun _ => .ok (.fresh () ())⟩
    let r : Option (ServerReply Unit) := some ⟨some (), false⟩
    ((replyLadder Unit Unit).call r (.intoSession snow)).1 = .error (some .handshakeOrder) ∧
      ((replyLadder Unit Unit).call r (.intoSession snow)).2 ≠ r := by
  exact ⟨rfl, by decide⟩

end SecureTunnel
