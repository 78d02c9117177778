import Mathlib.Data.List.Basic
import SecureTunnel.General.Transition
import SecureTunnel.Core.Ideal
import SecureTunnel.Core.Session

/-!
# The record channel under attack

Any number of completed sessions between honest peers, over a network that an
attacker owns: every frame that a peer seals becomes a packet of the network,
and between any two calls the attacker drops, duplicates, reorders, alters,
truncates and injects packets, reflects them to their sender, and moves them to
other sessions. A receiver is given whatever packet the attacker picks.

Under the ideal cipher the channel is safe (`record_channel_safety`): what a
receiver has opened is a prefix of what its peer has sealed for it, each record
once, and a receiver that was given a well-formed frame other than the next one
never opens anything again.
-/

namespace SecureTunnel

variable {ι : Type*}

/-- An end of a session. It also names the direction in which this end sends,
    the key of that direction, and the mutex of this end's cipher state. -/
abbrev End (ι : Type*) := ι × Side

/-- The other end of the same session. -/
def End.peer (e : End ι) : End ι := (e.1, e.2.peer)

@[simp] theorem End.peer_peer (e : End ι) : e.peer.peer = e := by
  simp [End.peer]

theorem End.peer_ne (e : End ι) : e.peer ≠ e := fun h => e.2.peer_ne (congrArg Prod.snd h)

/-- A frame in the network, on its way to an end. -/
structure Packet (ι : Type*) where
  receiver : End ι
  frame : Bytes
  deriving DecidableEq

/-! ## The attacker -/

/-- What the attacker does to the packets of the network, given by position. -/
inductive Attack (ι : Type*)
  | drop (i : ℕ)
  | duplicate (i : ℕ)
  | reorder (i j : ℕ)
  | alter (i : ℕ) (frame : Bytes)
  | truncate (i n : ℕ)
  | inject (packet : Packet ι)
  | reflect (i : ℕ)
  | move (i : ℕ) (session : ι)

/-- The packets after an action of the attacker. -/
def Attack.apply (network : List (Packet ι)) : Attack ι → List (Packet ι)
  | drop i => network.eraseIdx i
  | duplicate i => network ++ network[i]?.toList
  | reorder i j => (network.eraseIdx i).take j ++ network[i]?.toList ++ (network.eraseIdx i).drop j
  | alter i frame => network.modify i fun p => { p with frame }
  | truncate i n => network.modify i fun p => { p with frame := p.frame.take n }
  | inject packet => network ++ [packet]
  | reflect i => network.modify i fun p => { p with receiver := p.receiver.peer }
  | move i session => network.modify i fun p => { p with receiver := (session, p.receiver.2) }

/-! ## Sessions and network -/

/-- The sessions of the honest peers, and the network between them. What was
    sealed and what was opened in a direction is kept under its sending end. -/
structure World (ι : Type*) where
  heap : Heap (End ι) (End ι)
  sealed : End ι → List Record
  opened : End ι → List Opened
  network : List (Packet ι)

/-- An honest call, an action of the attacker, or the delivery of a packet. -/
inductive ChannelEvent (ι : Type*)
  | encrypt (sender : End ι) (plaintext : Bytes)
  | attack (attack : Attack ι)
  | deliver (i : ℕ)

variable [DecidableEq ι] (S : Sealing (End ι)) (split : End ι → Bool)

namespace World

/-- The transport session of an end, held whole or split. -/
def handles (e : End ι) : Handles (End ι) := (TransportSession.mk e).handles (split e)

/-- What `encrypt_record` returns to an end, and the mutexes after it. -/
def encryptRecord (w : World ι) (sender : End ι) (plaintext : Bytes) :
    Except TunnelError Bytes × Heap (End ι) (End ι) :=
  (handles split sender).call (ideal S w.sealed) w.heap (.encrypt plaintext)

/-- What `decrypt_record` returns to an end, and the mutexes after it. -/
def decryptRecord (w : World ι) (receiver : End ι) (frame : Bytes) :
    Except TunnelError Bytes × Heap (End ι) (End ι) :=
  (handles split receiver).call (ideal S w.sealed) w.heap (.decrypt frame)

/-- An end seals a plaintext, and the frame goes out to the other end. -/
def send (w : World ι) (sender : End ι) (plaintext : Bytes) : World ι :=
  match w.encryptRecord S split sender plaintext with
  | (.error _, heap) => { w with heap }
  | (.ok frame, heap) =>
    { w with
      heap
      sealed := Function.update w.sealed sender (w.sealed sender ++ [⟨plaintext, frame⟩])
      network := w.network ++ [⟨sender.peer, frame⟩] }

/-- An end is given a frame. -/
def receive (w : World ι) (receiver : End ι) (frame : Bytes) : World ι :=
  match w.decryptRecord S split receiver frame with
  | (.error _, heap) => { w with heap }
  | (.ok plaintext, heap) =>
    let nonce := (w.heap receiver).state.elim 0 (·.recv.nonce)
    { w with
      heap
      opened := Function.update w.opened receiver.peer
        (w.opened receiver.peer ++ [⟨nonce, plaintext, frame⟩]) }

/-- The sessions before their first record. -/
def initial (ι : Type*) [DecidableEq ι] : World ι where
  heap e := Cell.new (.fresh e e.peer)
  sealed _ := []
  opened _ := []
  network := []

/-- The frame that the receiver of a direction expects next, once it is sealed. -/
def expected (w : World ι) (sender : End ι) : Option Bytes :=
  (w.sealed sender)[(w.opened sender).length]?.map (·.frame)

end World

/-- Honest calls, the attacker and the deliveries, in any order. -/
def channel : EventSystem (World ι) (ChannelEvent ι) where
  init w := w = .initial ι
  step w
    | .encrypt sender plaintext => some (w.send S split sender plaintext)
    | .attack attack => some { w with network := attack.apply w.network }
    | .deliver i =>
      w.network[i]?.map fun p =>
        World.receive S split { w with network := w.network.eraseIdx i } p.receiver p.frame

/-! ## The invariant -/

/-- The counters of every cell are the lengths of what was sealed and opened, what
    was sealed is what `snow` encrypts to, and what was opened is a prefix of it. -/
structure World.Inv (S : Sealing (End ι)) (w : World ι) : Prop where
  produced : ∀ e, S.Produced e (w.sealed e)
  tracks : ∀ e, (w.heap e).Tracks e e.peer (w.sealed e).length (w.opened e.peer).length
  opens : ∀ e, Opens (w.sealed e) (w.opened e)

variable {S split}

namespace World

theorem inv_initial : (initial ι).Inv S where
  produced _ n r h := by simp [initial] at h
  tracks _ := .inr rfl
  opens _ := .nil _

variable (S split) in
/-- All that sending can do: it seals at the next nonce, or only leaves the
    sender's cell as it was or closed. -/
theorem send_cases {w : World ι} (hw : w.Inv S) (sender : End ι) (plaintext : Bytes) :
    (∃ frame, w.heap sender =
        Cell.new ⟨⟨sender, (w.sealed sender).length⟩,
          ⟨sender.peer, (w.opened sender.peer).length⟩⟩ ∧
      plaintext.length ≤ maxPlaintextRecord ∧
      frame = recordFrame (S.encrypt sender (w.sealed sender).length plaintext) ∧
      w.send S split sender plaintext =
        { w with
          heap := Function.update w.heap sender
            (Cell.new ⟨⟨sender, (w.sealed sender).length + 1⟩,
              ⟨sender.peer, (w.opened sender.peer).length⟩⟩)
          sealed := Function.update w.sealed sender (w.sealed sender ++ [⟨plaintext, frame⟩])
          network := w.network ++ [⟨sender.peer, frame⟩] }) ∨
    ∃ cell, (cell = w.heap sender ∨ cell = ⟨false, none⟩) ∧
      w.send S split sender plaintext = { w with heap := Function.update w.heap sender cell } := by
  have hcall := Handles.call_eq (ideal S w.sealed) ⟨sender⟩ (split sender) w.heap
    (.encrypt plaintext)
  unfold send encryptRecord handles
  rw [hcall]
  simp only [Call.onCell]
  -- On a live cell, the nonce is the number of records that were sealed.
  rcases sealRecord_ideal_cases S w.sealed plaintext
    (hw.tracks sender).live_or_closed with ⟨t, ht, hlen, hseal⟩ | ⟨e, hseal | hseal⟩
  · have htracks := hw.tracks sender
    rw [ht] at htracks
    obtain rfl := htracks.eq_of_live
    rw [hseal]
    exact .inl ⟨_, ht, hlen, rfl, rfl⟩
  · rw [hseal]
    exact .inr ⟨_, .inl rfl, rfl⟩
  · rw [hseal]
    exact .inr ⟨_, .inr rfl, rfl⟩

variable (S split) in
/-- All that receiving can do: it opens the next sealed record, or only leaves
    the receiver's cell as it was or closed. -/
theorem receive_cases {w : World ι} (hw : w.Inv S) (receiver : End ι) (frame : Bytes) :
    (∃ plaintext, w.heap receiver =
        Cell.new ⟨⟨receiver, (w.sealed receiver).length⟩,
          ⟨receiver.peer, (w.opened receiver.peer).length⟩⟩ ∧
      (w.sealed receiver.peer)[(w.opened receiver.peer).length]? = some ⟨plaintext, frame⟩ ∧
      w.receive S split receiver frame =
        { w with
          heap := Function.update w.heap receiver
            (Cell.new ⟨⟨receiver, (w.sealed receiver).length⟩,
              ⟨receiver.peer, (w.opened receiver.peer).length + 1⟩⟩)
          opened := Function.update w.opened receiver.peer
            (w.opened receiver.peer ++ [⟨(w.opened receiver.peer).length, plaintext, frame⟩]) }) ∨
    ∃ cell, (cell = w.heap receiver ∨ cell = ⟨false, none⟩) ∧
      w.receive S split receiver frame =
        { w with heap := Function.update w.heap receiver cell } := by
  have hcall := Handles.call_eq (ideal S w.sealed) ⟨receiver⟩ (split receiver) w.heap
    (.decrypt frame)
  unfold receive decryptRecord handles
  rw [hcall]
  simp only [Call.onCell]
  -- On a live cell, the nonce is the number of records that were opened.
  rcases openRecord_ideal_cases S w.sealed frame
    (hw.tracks receiver).live_or_closed with ⟨t, plaintext, ht, hr, hopen⟩ | ⟨e, hopen | hopen⟩
  · have htracks := hw.tracks receiver
    rw [ht] at htracks
    obtain rfl := htracks.eq_of_live
    rw [hopen, ht]
    exact .inl ⟨plaintext, rfl, hr, rfl⟩
  · rw [hopen]
    exact .inr ⟨_, .inl rfl, rfl⟩
  · rw [hopen]
    exact .inr ⟨_, .inr rfl, rfl⟩

/-- A cell that stays as it was or is closed still tracks the same numbers. -/
theorem Inv.update_cell {w : World ι} (hw : w.Inv S) {e : End ι} {cell : Cell (End ι)}
    (hcell : cell = w.heap e ∨ cell = ⟨false, none⟩) :
    ({ w with heap := Function.update w.heap e cell } : World ι).Inv S where
  tracks e' := by
    dsimp only
    rcases eq_or_ne e' e with rfl | hne
    · rw [Function.update_self]
      rcases hcell with rfl | rfl
      · exact hw.tracks e'
      · exact .inl rfl
    · rw [Function.update_of_ne hne]
      exact hw.tracks e'
  produced := hw.produced
  opens := hw.opens

theorem Inv.send {w : World ι} (hw : w.Inv S) (sender : End ι) (plaintext : Bytes) :
    (w.send S split sender plaintext).Inv S := by
  rcases send_cases S split hw sender plaintext with
    ⟨frame, -, hlen, rfl, heq⟩ | ⟨cell, hcell, heq⟩
  · rw [heq]
    constructor
    · intro e
      dsimp only
      rcases eq_or_ne e sender with rfl | hne
      · rw [Function.update_self]
        exact (hw.produced e).snoc hlen
      · rw [Function.update_of_ne hne]
        exact hw.produced e
    · intro e
      dsimp only
      rcases eq_or_ne e sender with rfl | hne
      · rw [Function.update_self, Function.update_self, List.length_append]
        exact .inr rfl
      · rw [Function.update_of_ne hne, Function.update_of_ne hne]
        exact hw.tracks e
    · intro e
      dsimp only
      rcases eq_or_ne e sender with rfl | hne
      · rw [Function.update_self]
        exact (hw.opens e).append _
      · rw [Function.update_of_ne hne]
        exact hw.opens e
  · rw [heq]
    exact hw.update_cell hcell

theorem Inv.receive {w : World ι} (hw : w.Inv S) (receiver : End ι) (frame : Bytes) :
    (w.receive S split receiver frame).Inv S := by
  rcases receive_cases S split hw receiver frame with
    ⟨plaintext, -, hr, heq⟩ | ⟨cell, hcell, heq⟩
  · rw [heq]
    refine ⟨hw.produced, ?_, ?_⟩
    · intro e
      dsimp only
      rcases eq_or_ne e receiver with rfl | hne
      · rw [Function.update_self, Function.update_self, List.length_append]
        exact .inr rfl
      · have hpeer : e.peer ≠ receiver.peer := fun h => hne (by simpa using congrArg End.peer h)
        rw [Function.update_of_ne hne, Function.update_of_ne hpeer]
        exact hw.tracks e
    · intro e
      dsimp only
      rcases eq_or_ne e receiver.peer with rfl | hne
      · rw [Function.update_self]
        exact (hw.opens _).snoc hr
      · rw [Function.update_of_ne hne]
        exact hw.opens e
  · rw [heq]
    exact hw.update_cell hcell

omit [DecidableEq ι] in
/-- The network is no part of the invariant. -/
theorem Inv.network {w : World ι} (hw : w.Inv S) (network : List (Packet ι)) :
    ({ w with network } : World ι).Inv S :=
  ⟨hw.produced, hw.tracks, hw.opens⟩

/-- Every step keeps the invariant. -/
theorem Inv.step {w w' : World ι} {event : ChannelEvent ι} (hw : w.Inv S)
    (h : (channel S split).step w event = some w') : w'.Inv S := by
  cases event with
  | encrypt sender plaintext =>
    obtain rfl := Option.some.inj h
    exact hw.send sender plaintext
  | attack attack =>
    obtain rfl := Option.some.inj h
    exact hw.network _
  | deliver i =>
    obtain ⟨p, -, rfl⟩ := Option.map_eq_some_iff.1 h
    exact (hw.network _).receive p.receiver p.frame

theorem Inv.of_reachable {w : World ι} (h : (channel S split).Reachable EventSystem.always w) :
    w.Inv S :=
  h.invariant (P := World.Inv S) (fun hi => hi ▸ inv_initial) fun _ hw _ hs => hw.step hs

/-! ## Closed ends -/

/-- A closed end stays closed. -/
theorem closed_step {w w' : World ι} {event : ChannelEvent ι} {e : End ι} (hw : w.Inv S)
    (hclosed : w.heap e = ⟨false, none⟩) (h : (channel S split).step w event = some w') :
    w'.heap e = ⟨false, none⟩ := by
  -- Of the two calls, only one at `e` itself could change the cell, and it is closed.
  have hcell : ∀ {e' : End ι} {cell : Cell (End ι)},
      (cell = w.heap e' ∨ cell = ⟨false, none⟩) → Function.update w.heap e' cell e =
        ⟨false, none⟩ := by
    intro e' cell hcell
    rcases eq_or_ne e e' with rfl | hne
    · rw [Function.update_self]
      rcases hcell with rfl | rfl
      · exact hclosed
      · rfl
    · rw [Function.update_of_ne hne]
      exact hclosed
  cases event with
  | encrypt sender plaintext =>
    obtain rfl := Option.some.inj h
    rcases send_cases S split hw sender plaintext with
      ⟨frame, hlive, -, -, heq⟩ | ⟨cell, hc, heq⟩
    · rw [heq]
      have hne : e ≠ sender := by
        rintro rfl
        rw [hclosed] at hlive
        cases hlive
      dsimp only
      rw [Function.update_of_ne hne]
      exact hclosed
    · rw [heq]
      exact hcell hc
  | attack attack =>
    obtain rfl := Option.some.inj h
    exact hclosed
  | deliver i =>
    obtain ⟨p, -, rfl⟩ := Option.map_eq_some_iff.1 h
    rcases receive_cases S split (hw.network (w.network.eraseIdx i)) p.receiver
      p.frame with ⟨plaintext, hlive, -, heq⟩ | ⟨cell, hc, heq⟩
    · rw [heq]
      have hne : e ≠ p.receiver := by
        rintro rfl
        rw [hclosed] at hlive
        cases hlive
      dsimp only
      rw [Function.update_of_ne hne]
      exact hclosed
    · rw [heq]
      exact hcell hc

/-- A closed end opens nothing. -/
theorem decryptRecord_of_closed {w : World ι} {receiver : End ι}
    (hclosed : w.heap receiver = ⟨false, none⟩) (frame plaintext : Bytes) :
    (w.decryptRecord S split receiver frame).1 ≠ .ok plaintext := by
  rw [decryptRecord, handles, Handles.call_eq, hclosed]
  simp only [Call.onCell, openRecord_closed]
  split <;> simp

variable (S split) in
/-- A well-formed frame that is not the expected one is refused, and closes the
    receiver. -/
theorem receive_unexpected {w : World ι} (hw : w.Inv S) {receiver : End ι} {frame body : Bytes}
    (hframe : decodeRecordFrame frame = .ok body) (hne : w.expected receiver.peer ≠ some frame) :
    (w.receive S split receiver frame).heap receiver = ⟨false, none⟩ ∧
      ∀ plaintext, (w.decryptRecord S split receiver frame).1 ≠ .ok plaintext := by
  obtain ⟨e, he⟩ := openRecord_ideal_of_unexpected S w.sealed
    (hw.tracks receiver).live_or_closed hframe (by
      intro t ht r hr hrf
      have htracks := hw.tracks receiver
      rw [ht] at htracks
      obtain rfl := htracks.eq_of_live
      refine hne ?_
      rw [expected, hr, Option.map_some, hrf])
  have hcall := Handles.call_eq (ideal S w.sealed) ⟨receiver⟩ (split receiver) w.heap
    (.decrypt frame)
  unfold receive decryptRecord handles
  rw [hcall]
  simp only [Call.onCell, he, Function.update_self]
  refine ⟨trivial, fun plaintext h => ?_⟩
  cases h

end World

/-- For any number of sessions and every order of calls, deliveries and attacks,
    in every direction: the plaintexts opened are a prefix of those sealed, no
    record was opened twice, and after a packet with a well-formed frame other
    than the expected one, the receiver never again opens anything. -/
theorem record_channel_safety {w : World ι} (h : (channel S split).Reachable EventSystem.always w)
    (sender : End ι) :
    (w.opened sender).map (·.record.plaintext) <+: (w.sealed sender).map (·.plaintext) ∧
    ((w.opened sender).map (·.nonce)).Nodup ∧
    (∀ o ∈ w.opened sender, (w.sealed sender)[o.nonce]? = some o.record) ∧
    ∀ i w₁ (p : Packet ι) body, (channel S split).step w (.deliver i) = some w₁ →
      w.network[i]? = some p → p.receiver = sender.peer → decodeRecordFrame p.frame = .ok body →
      w.expected sender ≠ some p.frame →
      (∀ plaintext, (w.decryptRecord S split sender.peer p.frame).1 ≠ .ok plaintext) ∧
      ∀ w', (channel S split).Path EventSystem.always w₁ w' → ∀ frame plaintext,
        (w'.decryptRecord S split sender.peer frame).1 ≠ .ok plaintext := by
  have hinv := World.Inv.of_reachable h
  have hopens := hinv.opens sender
  refine ⟨hopens.plaintexts, hopens.nodup, fun o ho => hopens.sealed_at ho, ?_⟩
  intro i w₁ p body hstep hp hrecv hframe hne
  obtain ⟨receiver, frame⟩ := p
  obtain rfl : receiver = sender.peer := hrecv
  have hw₁ : w₁ = World.receive S split { w with network := w.network.eraseIdx i } sender.peer
      frame := by
    simp only [channel, hp, Option.map_some, Option.some.injEq] at hstep
    exact hstep.symm
  obtain ⟨hclosed, hrefused⟩ := World.receive_unexpected S split
    (hinv.network (w.network.eraseIdx i)) hframe
    (by rwa [End.peer_peer])
  refine ⟨hrefused, fun w' hpath frame' plaintext => ?_⟩
  rw [← hw₁] at hclosed
  -- The closed receiver is kept by every step, beside the invariant.
  have hkept := hpath.invariant (P := fun w => w.Inv S ∧ w.heap sender.peer = ⟨false, none⟩)
    ⟨hinv.step hstep, hclosed⟩
    fun hw _ hs => ⟨hw.1.step hs, World.closed_step hw.1 hw.2 hs⟩
  exact World.decryptRecord_of_closed hkept.2 frame' plaintext

/-- A duplicated packet, delivered a second time, ends the direction. -/
theorem record_channel_safety_replayed :
    let S : Sealing (End Bool) := .tagged fun _ nonce => UInt8.ofNat nonce
    let split : End Bool → Bool := fun e => e.1
    ∃ w w₁, (channel S split).Reachable EventSystem.always w ∧
      (w.opened (true, .client)).length = 1 ∧ (channel S split).step w (.deliver 0) = some w₁ ∧
      ∀ w', (channel S split).Path EventSystem.always w₁ w' → ∀ frame plaintext,
        (w'.decryptRecord S split (true, .server) frame).1 ≠ .ok plaintext := by
  intro S split
  let w := ((channel S split).run EventSystem.always (.initial Bool)
    [.encrypt (true, .client) [1], .encrypt (true, .client) [2], .attack (.duplicate 0),
      .attack (.reorder 2 1), .deliver 0]).get (by decide +kernel)
  let w₁ := ((channel S split).step w (.deliver 0)).get (by decide +kernel)
  have hstep : (channel S split).step w (.deliver 0) = some w₁ := (Option.some_get _).symm
  have hreach : (channel S split).Reachable EventSystem.always w :=
    EventSystem.reachable_of_run rfl (Option.some_get _).symm
  have hsafe := (record_channel_safety hreach (true, .client)).2.2.2 0 w₁
    (w.network.get ⟨0, by decide +kernel⟩) ([1] ++ List.replicate tagLength 0) hstep
    (List.getElem?_eq_getElem _) (by decide +kernel) (by decide +kernel) (by decide +kernel)
  exact ⟨w, w₁, hreach, by decide +kernel, hstep, hsafe.2⟩

/-- The channel is live: while the receiver is not closed and its counter not
    exhausted, the frame that it expects yields the plaintext that was sealed. -/
theorem expected_record_opens {w : World ι} (h : (channel S split).Reachable EventSystem.always w)
    {sender : End ι} {r : Record} (hlive : w.heap sender.peer ≠ ⟨false, none⟩)
    (hnext : (w.sealed sender)[(w.opened sender).length]? = some r)
    (hlimit : (w.opened sender).length < nonceLimit) :
    (w.decryptRecord S split sender.peer r.frame).1 = .ok r.plaintext := by
  have hinv := World.Inv.of_reachable h
  obtain hcell := (hinv.tracks sender.peer).resolve_left hlive
  rw [End.peer_peer] at hcell
  rw [World.decryptRecord, World.handles, Handles.call_eq, hcell]
  simp only [Call.onCell, openRecord_live]
  rw [openOutcome_ideal_of_next (hinv.produced sender) hnext hlimit]
  rfl

end SecureTunnel
