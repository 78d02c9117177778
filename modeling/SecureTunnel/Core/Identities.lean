import SecureTunnel.Core.Handshake

/-!
# The decision over several identities

During a key rotation a server has several static identities, and tries the first
message of a client under each of them. The loop of `receive_client` stops at the
first identity that accepts; what it decides does not depend on its order.

* `Decision.of`: the decision in terms of which identities and which clients there
  are, given whom each identity authenticates a message as coming from.
* `Decision.ofResult_receiveClient`: the loop takes this decision.
* `receiveClient_decides`: what follows for rotating the keys of servers and clients.
-/

namespace SecureTunnel

variable {HS Key : Type*}

/-- How the first message of a client is decided on. -/
inductive Decision
  | accepted
  | unauthorised
  /-- No identity authenticates the message. -/
  | noise
  | other
  deriving DecidableEq, Repr

namespace Decision

/-- The kind of a result of `receive_client`. -/
def ofResult : Except Failure (ServerReply HS) → Decision
  | .ok _ => accepted
  | .error (.error .unauthorisedClient) => unauthorised
  | .error (.error (.noise _)) => noise
  | .error _ => other

/-- Some identity authenticates the message as coming from a client of the list. -/
def Accepts (remote : StaticKey → Bytes → Option StaticKey) (identities clients : List StaticKey)
    (message : Bytes) : Prop :=
  ∃ identity ∈ identities, ∃ client ∈ clients, remote identity message = some client

/-- Some identity authenticates the message. -/
def Authenticates (remote : StaticKey → Bytes → Option StaticKey) (identities : List StaticKey)
    (message : Bytes) : Prop :=
  ∃ identity ∈ identities, remote identity message ≠ none

instance (remote : StaticKey → Bytes → Option StaticKey) (identities clients : List StaticKey)
    (message : Bytes) : Decidable (Accepts remote identities clients message) :=
  List.decidableBEx _ _

instance (remote : StaticKey → Bytes → Option StaticKey) (identities : List StaticKey)
    (message : Bytes) : Decidable (Authenticates remote identities message) :=
  List.decidableBEx _ _

/-- The decision, given whom each identity authenticates a message as coming from. -/
def of (remote : StaticKey → Bytes → Option StaticKey) (identities clients : List StaticKey)
    (message : Bytes) : Decision :=
  if Accepts remote identities clients message then accepted
  else if Authenticates remote identities message then unauthorised
  else noise

variable {remote : StaticKey → Bytes → Option StaticKey}
  {identities identities' clients clients' : List StaticKey} {message : Bytes}

theorem Accepts.mono (h : Accepts remote identities clients message)
    (hidentities : identities ⊆ identities') (hclients : clients ⊆ clients') :
    Accepts remote identities' clients' message := by
  obtain ⟨identity, hidentity, client, hclient, hremote⟩ := h
  exact ⟨identity, hidentities hidentity, client, hclients hclient, hremote⟩

theorem Authenticates.mono (h : Authenticates remote identities message)
    (hidentities : identities ⊆ identities') : Authenticates remote identities' message := by
  obtain ⟨identity, hidentity, hremote⟩ := h
  exact ⟨identity, hidentities hidentity, hremote⟩

theorem accepts_cons {key : StaticKey} : Accepts remote (key :: identities) clients message ↔
    (∃ client ∈ clients, remote key message = some client) ∨
      Accepts remote identities clients message :=
  List.exists_mem_cons_iff ..

theorem authenticates_cons {key : StaticKey} :
    Authenticates remote (key :: identities) message ↔
      remote key message ≠ none ∨ Authenticates remote identities message :=
  List.exists_mem_cons_iff ..

theorem Accepts.authenticates (h : Accepts remote identities clients message) :
    Authenticates remote identities message := by
  obtain ⟨identity, hidentity, client, -, hremote⟩ := h
  exact ⟨identity, hidentity, by simp [hremote]⟩

theorem of_eq_accepted : of remote identities clients message = accepted ↔
    Accepts remote identities clients message := by
  unfold of
  split_ifs <;> simp_all

theorem of_eq_unauthorised : of remote identities clients message = unauthorised ↔
    Authenticates remote identities message ∧ ¬Accepts remote identities clients message := by
  unfold of
  split_ifs <;> simp_all

theorem of_eq_noise : of remote identities clients message = noise ↔
    ¬Authenticates remote identities message := by
  unfold of
  split_ifs with haccepts hauthenticates
  · simp [haccepts.authenticates]
  · simp [hauthenticates]
  · simp [hauthenticates]

/-- The decision depends on which identities and clients there are, and not on
    their order or repetition. -/
theorem of_congr (hidentities : ∀ k, k ∈ identities ↔ k ∈ identities')
    (hclients : ∀ k, k ∈ clients ↔ k ∈ clients') :
    of remote identities clients message = of remote identities' clients' message := by
  simp only [of, Accepts, Authenticates, hidentities, hclients]

end Decision

/-! ## The loop -/

/-- `snow` builds a responder for every identity; it authenticates a message as
    coming from `remote`, or fails to read it. -/
structure Snow.Authenticates (snow : Snow HS Key)
    (remote : StaticKey → Bytes → Option StaticKey) : Prop where
  build : ∀ identity, ∃ state, snow.buildResponder identity = .ok state
  some_remote : ∀ {identity state message client}, snow.buildResponder identity = .ok state →
    remote identity message = some client →
    ∃ state', snow.readMessage state message = .ok state' ∧
      snow.remoteStatic state' = some client.1
  no_remote : ∀ {identity state message}, snow.buildResponder identity = .ok state →
    remote identity message = none → ∃ e, snow.readMessage state message = .error e

variable {snow : ℕ → Snow HS Key} {remote : StaticKey → Bytes → Option StaticKey}
  {allowList : List StaticKey} {message : Bytes}

/-- The loop, with what it has seen before: an identity that authenticated the
    message as coming from another client, or one under which `snow` failed. -/
theorem ofResult_tryIdentities (hsnow : ∀ i, (snow i).Authenticates remote) (i : ℕ)
    (keys : List StaticKey) (unauthorisedClient : Bool) (lastError : Option SnowError)
    (htried : unauthorisedClient = true ∨ lastError ≠ none ∨ keys ≠ []) :
    Decision.ofResult
        (tryIdentities snow allowList message i keys unauthorisedClient lastError).1 =
      if Decision.Accepts remote keys allowList message then .accepted
      else if unauthorisedClient ∨ Decision.Authenticates remote keys message then .unauthorised
      else .noise := by
  induction keys generalizing i unauthorisedClient lastError with
  | nil =>
    have hnone : ¬Decision.Accepts remote [] allowList message := by simp [Decision.Accepts]
    have hnone' : ¬Decision.Authenticates remote [] message := by simp [Decision.Authenticates]
    simp only [tryIdentities, hnone, hnone', if_false, or_false]
    cases unauthorisedClient with
    | true => rfl
    | false =>
      cases lastError with
      | some e => rfl
      | none => simp at htried
  | cons key keys ih =>
    obtain ⟨state, hbuild⟩ := (hsnow i).build key
    rw [tryIdentities, hbuild]
    cases hremote : remote key message with
    | none =>
      obtain ⟨e, hread⟩ := (hsnow i).no_remote hbuild hremote
      simp only [hread]
      rw [ih (i + 1) unauthorisedClient (some e) (.inr (.inl (Option.some_ne_none e)))]
      simp [Decision.accepts_cons, Decision.authenticates_cons, hremote]
    | some client =>
      obtain ⟨state', hread, hstatic⟩ := (hsnow i).some_remote hbuild hremote
      simp only [hread, hstatic, client.2, ne_eq, not_true_eq_false, if_false]
      by_cases hallowed : client ∈ allowList
      · -- The first identity that accepts decides.
        have hmem : (allowList.map (·.1)).contains client.1 = true := by
          rw [List.contains_iff_mem]
          exact List.mem_map_of_mem hallowed
        have haccepts : Decision.Accepts remote (key :: keys) allowList message :=
          ⟨key, List.mem_cons_self, client, hallowed, hremote⟩
        rw [if_pos hmem, if_pos haccepts]
        rfl
      · have hmem : ¬(allowList.map (·.1)).contains client.1 = true := by
          rw [List.contains_iff_mem, List.mem_map]
          rintro ⟨client', hmem, heq⟩
          exact hallowed (Subtype.ext heq ▸ hmem)
        have haccepts : Decision.Accepts remote (key :: keys) allowList message ↔
            Decision.Accepts remote keys allowList message := by
          rw [Decision.accepts_cons, hremote]
          refine or_iff_right ?_
          rintro ⟨client', hclient', heq⟩
          exact hallowed (Option.some.inj heq ▸ hclient')
        have hauthenticates : Decision.Authenticates remote (key :: keys) message :=
          Decision.authenticates_cons.2 (.inl (by simp [hremote]))
        rw [if_neg hmem]
        simp only [ih (i + 1) true lastError (.inl rfl), haccepts, hauthenticates, true_or, or_true]

/-- What `receive_client` returns on the frame of a message: the preface was accepted,
    and no frame was tried before. -/
def receiveFirst (snow : ℕ → Snow HS Key) (identities : Identities) (clients : List StaticKey)
    (message : Bytes) : Except Failure (ServerReply HS) :=
  ((⟨some identities, clients, true⟩ : ServerHandshake).receiveClient snow
    (handshakeFrame message)).result

theorem ofResult_receiveFirst (hsnow : ∀ i, (snow i).Authenticates remote)
    (identities : Identities) (clients : List StaticKey)
    (hlen : message.length ≤ maxHandshakeMessage) :
    Decision.ofResult (receiveFirst snow identities clients message) =
      Decision.of remote identities.1 clients message := by
  have hdecode := decodeHandshakeFrame_iff.2 ⟨rfl, hlen⟩
  simp only [receiveFirst, ServerHandshake.receiveClient, Bool.not_true, Bool.false_eq_true,
    if_false, hdecode]
  rw [ofResult_tryIdentities hsnow 0 identities.1 false none (.inr (.inr identities.2.1)),
    Decision.of]
  simp

namespace Decision

variable {result : Except Failure (ServerReply HS)}

theorem ofResult_eq_accepted : ofResult result = accepted ↔ ∃ reply, result = .ok reply := by
  unfold ofResult
  split <;> simp

theorem ofResult_eq_unauthorised :
    ofResult result = unauthorised ↔ result = .error (.error .unauthorisedClient) := by
  unfold ofResult
  split <;> simp_all

theorem ofResult_eq_noise : ofResult result = noise ↔ ∃ e, result = .error (.error (.noise e)) := by
  unfold ofResult
  split <;> simp_all

end Decision

/-- The decision on a first message: a reply exactly if some identity authenticates
    it as coming from an authorised client, `UnauthorisedClient` if only as coming
    from others, and an error of `snow` if none does; the `expect` never fails. It
    depends on which identities and clients there are: more of either never reject
    what was accepted, and removing a client rejects what was accepted from that
    client alone. -/
theorem receiveClient_decides (hsnow : ∀ i, (snow i).Authenticates remote)
    (hlen : message.length ≤ maxHandshakeMessage) (identities : Identities)
    (clients : List StaticKey) :
    ((∃ reply, receiveFirst snow identities clients message = .ok reply) ↔
      ∃ identity ∈ identities.1, ∃ client ∈ clients, remote identity message = some client) ∧
    (receiveFirst snow identities clients message = .error (.error .unauthorisedClient) ↔
      (∃ identity ∈ identities.1, remote identity message ≠ none) ∧
        ¬∃ identity ∈ identities.1, ∃ client ∈ clients, remote identity message = some client) ∧
    ((∃ e, receiveFirst snow identities clients message = .error (.error (.noise e))) ↔
      ∀ identity ∈ identities.1, remote identity message = none) ∧
    receiveFirst snow identities clients message ≠ .error .panic ∧
    ∀ (snow' : ℕ → Snow HS Key) (identities' : Identities) (clients' : List StaticKey),
      (∀ i, (snow' i).Authenticates remote) →
      ((∀ k, k ∈ identities.1 ↔ k ∈ identities'.1) → (∀ k, k ∈ clients ↔ k ∈ clients') →
        Decision.ofResult (receiveFirst snow' identities' clients' message) =
          Decision.ofResult (receiveFirst snow identities clients message)) ∧
      (identities.1 ⊆ identities'.1 → clients ⊆ clients' →
        (∃ reply, receiveFirst snow identities clients message = .ok reply) →
        ∃ reply, receiveFirst snow' identities' clients' message = .ok reply) ∧
      ∀ client, (∀ k, k ∈ clients' ↔ k ∈ clients ∧ k ≠ client) →
        (∀ identity ∈ identities.1, ∀ k ∈ clients, remote identity message = some k → k = client) →
        ¬∃ reply, receiveFirst snow' identities clients' message = .ok reply := by
  have hdecision := ofResult_receiveFirst hsnow identities clients hlen
  have hok : (∃ reply, receiveFirst snow identities clients message = .ok reply) ↔
      Decision.Accepts remote identities.1 clients message := by
    rw [← Decision.ofResult_eq_accepted, hdecision, Decision.of_eq_accepted]
  refine ⟨hok, ?_, ?_, fun hpanic => ?_, fun snow' identities' clients' hsnow' => ⟨?_, ?_, ?_⟩⟩
  · rw [← Decision.ofResult_eq_unauthorised, hdecision, Decision.of_eq_unauthorised]
    exact Iff.rfl
  · rw [← Decision.ofResult_eq_noise, hdecision, Decision.of_eq_noise]
    simp [Decision.Authenticates]
  · -- A failed `expect` is none of the three decisions.
    rw [hpanic, Decision.of] at hdecision
    split_ifs at hdecision <;> cases hdecision
  · -- The decision sees the identities and clients as sets.
    intro hidentities hclients
    rw [hdecision, ofResult_receiveFirst hsnow' identities' clients' hlen]
    exact (Decision.of_congr hidentities hclients).symm
  · intro hidentities hclients haccepted
    rw [← Decision.ofResult_eq_accepted, ofResult_receiveFirst hsnow' identities' clients' hlen,
      Decision.of_eq_accepted]
    exact (hok.1 haccepted).mono hidentities hclients
  · intro client hclients honly
    rw [← Decision.ofResult_eq_accepted, ofResult_receiveFirst hsnow' identities clients' hlen,
      Decision.of_eq_accepted]
    rintro ⟨identity, hidentity, k, hk, hremote⟩
    obtain ⟨hmem, hne⟩ := (hclients k).1 hk
    exact hne (honly identity hidentity k hmem hremote)

/-- A message that the second identity authenticates, during a rotation. -/
theorem receiveClient_decides_rotated :
    let key (b : UInt8) : StaticKey := ⟨List.replicate 32 b, List.length_replicate⟩
    let snow : ℕ → Snow Bytes Unit := fun _ => ⟨fun _ _ => .error .decrypt, fun k => .ok k.1,
      fun s => .ok (⟨[], by decide⟩, s),
      fun s m => if s = (key 2).1 ∧ m.length = 32 then .ok m else .error .decrypt, some,
      fun _ => .ok (.fresh () ())⟩
    let identities : Identities := ⟨[key 1, key 2], by decide⟩
    ∃ reply, receiveFirst snow identities [key 7] (key 7).1 = .ok reply := by
  intro key snow identities
  let remote : StaticKey → Bytes → Option StaticKey := fun k m =>
    if h : k = key 2 ∧ m.length = 32 then some ⟨m, h.2⟩ else none
  have hsnow : ∀ i, (snow i).Authenticates remote := by
    refine fun i => ⟨fun k => ⟨k.1, rfl⟩, ?_, ?_⟩
    · intro k s m client hbuild hremote
      obtain ⟨hk, rfl⟩ : ∃ h : k = key 2 ∧ m.length = 32, ⟨m, h.2⟩ = client := by
        simpa [remote] using hremote
      obtain rfl := Except.ok.inj hbuild
      exact ⟨m, if_pos ⟨congrArg Subtype.val hk.1, hk.2⟩, rfl⟩
    · intro k s m hbuild hremote
      have hnot : ¬(k = key 2 ∧ m.length = 32) := by simpa [remote] using hremote
      obtain rfl := Except.ok.inj hbuild
      exact ⟨.decrypt, if_neg fun h => hnot ⟨Subtype.ext h.1, h.2⟩⟩
  refine (receiveClient_decides hsnow (by decide) identities [key 7]).1.2 ?_
  exact ⟨key 2, by decide, key 7, by decide, rfl⟩

end SecureTunnel
