import SecureTunnel.General.Simulation
import SecureTunnel.Protocol.Peers

/-!
# The sessions of honest peers

Between honest peers the open network is a record channel: the sessions that their
handshakes become are those of the channel that has one session for each exchange
(`peersSimulation`). An exchange that no object has completed is a session of the
channel that nobody has used.

* `Peers.Matches`: the sessions of the peers, and those of the channel.
* `sessions_secure`: what a session opens was sealed for it, in this order and in
  this exchange, by the one object that agrees with it; a session that came of a
  replayed first message opens nothing.
-/

namespace SecureTunnel

variable {ι : Type*} [DecidableEq ι] {K : KeyRing} {S : Sealing (End Transcript)}
  {weak : Aead (End Transcript)} {split : End ι → Bool}

/-! ## One call -/

section Congr

variable {Key : Type*} {aead aead' : Aead Key}

/-- Sealing depends on the cipher at the sending key only. -/
theorem sealRecord_congr {cell : Cell Key} (hcell : cell = ⟨false, none⟩ ∨ ∃ t, cell = Cell.new t)
    (h : ∀ t, cell = Cell.new t → aead.encrypt t.send.key = aead'.encrypt t.send.key)
    (plaintext : Bytes) : sealRecord aead cell plaintext = sealRecord aead' cell plaintext := by
  rcases hcell with rfl | ⟨t, rfl⟩
  · rw [sealRecord_closed, sealRecord_closed]
  · simp only [sealRecord_live, sealOutcome, CipherState.use, h t rfl]

/-- Opening depends on the cipher at the receiving key only. -/
theorem openRecord_congr {cell : Cell Key} (hcell : cell = ⟨false, none⟩ ∨ ∃ t, cell = Cell.new t)
    (h : ∀ t, cell = Cell.new t → aead.decrypt t.recv.key = aead'.decrypt t.recv.key)
    (frame : Bytes) : openRecord aead cell frame = openRecord aead' cell frame := by
  rcases hcell with rfl | ⟨t, rfl⟩
  · rw [openRecord_closed, openRecord_closed]
  · simp only [openRecord_live, openOutcome, CipherState.use, h t rfl]

end Congr

/-- Under the key of an honest exchange, the cipher of the peers is the ideal one. -/
theorem guarded_encrypt {sealed sealed' : End Transcript → List Record} {key : End Transcript}
    (hsecret : key.1.Secret K) :
    (guarded K S weak sealed).encrypt key = (ideal S sealed').encrypt key := by
  simp only [guarded, hsecret, if_true]
  rfl

theorem guarded_decrypt {sealed sealed' : End Transcript → List Record} {key : End Transcript}
    (hsecret : key.1.Secret K) (hsealed : sealed key = sealed' key) :
    (guarded K S weak sealed).decrypt key = (ideal S sealed').decrypt key := by
  simp only [guarded, hsecret, if_true, ideal, hsealed]

/-! ## The simulation -/

/-- The sessions of honest exchanges are those of the channel, and the channel's other
    sessions were not used. -/
structure Peers.Matches (K : KeyRing) (w : Peers ι) (v : World Transcript) : Prop where
  held : ∀ {i side t}, t.Secret K → w.sessions (i, side) = some t →
    v.heap (t, side) = w.heap (i, side)
  fresh : ∀ {t side}, t.Secret K → (∀ i, w.sessions (i, side) ≠ some t) →
    v.heap (t, side) = Cell.new (.fresh (t, side) (t, side.peer))
  sealed : ∀ {t side}, t.Secret K → v.sealed (t, side) = w.sealed (t, side)
  opened : ∀ {t side}, t.Secret K → v.opened (t, side) = w.opened (t, side)

namespace Peers.Matches

variable {w : Peers ι} {v : World Transcript} {i : ι} {side : Side} {t : Transcript}

omit [DecidableEq ι] in
theorem initial : (initial ι).Matches K (World.initial Transcript) where
  held _ h := by cases h
  fresh _ _ := rfl
  sealed _ := rfl
  opened _ := rfl

/-- A handshake that completes takes up a session of the channel that nobody has. -/
theorem establish (h : w.Matches K v) (hnone : w.sessions (i, side) = none)
    (hw' : (w.establish (i, side) (.fresh (t, side) (t, side.peer))).Inv K) :
    (w.establish (i, side) (.fresh (t, side) (t, side.peer))).Matches K v where
  held {j side' t'} hsecret ht' := by
    rcases eq_or_ne (j, side') (i, side) with heq | hne
    · cases heq
      rw [sessions_establish_self] at ht'
      obtain rfl := Option.some.inj ht'
      rw [heap_establish_self]
      refine h.fresh hsecret fun k hk => ?_
      have hk' : k ≠ i := by
        rintro rfl
        rw [hnone] at hk
        cases hk
      refine hk' (hw'.session_unique (t := t) ?_ (sessions_establish_self _))
      rwa [sessions_establish_of_ne _ fun heq => hk' (congrArg Prod.fst heq)]
    · rw [sessions_establish_of_ne _ hne] at ht'
      rw [heap_establish_of_ne _ hne]
      exact h.held hsecret ht'
  fresh {t' side'} hsecret hnobody := by
    refine h.fresh hsecret fun j hj => hnobody j ?_
    rw [sessions_establish_of_ne, hj]
    intro heq
    rw [heq, hnone] at hj
    cases hj
  sealed := h.sealed
  opened := h.opened

/-- Calls on handshake objects are not seen by the channel. -/
theorem move {w' : Peers ι} (h : w.Matches K v) (hw : w.Inv K) (hmove : w.Move K w') :
    w'.Matches K v := by
  have hw' := hw.move hmove
  cases hmove with
  | refused => exact h
  | client | newClient | greet | newServer | server | hear | answer =>
    exact ⟨h.held, h.fresh, h.sealed, h.opened⟩
  | @finish i d t hi hgreeted ht hreplied =>
    have hkept : (w.setClient i { d with handshake := ⟨none, true⟩ }).Matches K v :=
      ⟨h.held, h.fresh, h.sealed, h.opened⟩
    refine hkept.establish (hw.no_clientSession hi ?_) hw'
    rw [hgreeted]
    exact Option.some_ne_none _
  | @serve i a t hi hfinished =>
    have hkept : (w.setServer i { a with reply := none }).Matches K v :=
      ⟨h.held, h.fresh, h.sealed, h.opened⟩
    refine hkept.establish (hw.no_serverSession hi ?_) hw'
    rw [hfinished]
    exact Option.some_ne_none _

omit [DecidableEq ι] in
/-- A call on a session that is not of an honest exchange is not seen by the channel. -/
theorem weak_record (h : w.Matches K v) (ht : w.sessions (i, side) = some t)
    (hweak : ¬t.Secret K) {heap : Heap (End ι) (End Transcript)}
    {sealed : End Transcript → List Record} {opened : End Transcript → List Opened}
    (hheap : ∀ e ≠ (i, side), heap e = w.heap e)
    (hsealed : ∀ key ≠ (t, side), sealed key = w.sealed key)
    (hopened : ∀ key ≠ (t, side.peer), opened key = w.opened key) :
    ({ w with heap, sealed, opened } : Peers ι).Matches K v where
  held {j side' t'} hsecret ht' := by
    refine (h.held hsecret ht').trans (hheap _ fun heq => ?_).symm
    cases heq
    obtain rfl := Option.some.inj (ht.symm.trans ht')
    exact hweak hsecret
  fresh := h.fresh
  sealed {t' side'} hsecret := by
    refine (h.sealed hsecret).trans (hsealed _ fun heq => ?_).symm
    cases heq
    exact hweak hsecret
  opened {t' side'} hsecret := by
    refine (h.opened hsecret).trans (hopened _ fun heq => ?_).symm
    cases heq
    exact hweak hsecret

/-- The same change of a session of an honest exchange, on both levels. -/
theorem record (h : w.Matches K v) (hw : w.Inv K) (ht : w.sessions (i, side) = some t)
    {cell : Cell (End Transcript)} {sealed vsealed : End Transcript → List Record}
    {opened vopened : End Transcript → List Opened} {network : List (Packet Transcript)}
    (hsealed : ∀ t' side', t'.Secret K → vsealed (t', side') = sealed (t', side'))
    (hopened : ∀ t' side', t'.Secret K → vopened (t', side') = opened (t', side')) :
    Matches K
      { w with heap := Function.update w.heap (i, side) cell, sealed, opened }
      { v with
        heap := Function.update v.heap (t, side) cell, sealed := vsealed, opened := vopened
        network } where
  held {j side' t'} hsecret ht' := by
    dsimp only at ht' ⊢
    rcases eq_or_ne (j, side') (i, side) with heq | hne
    · cases heq
      obtain rfl := Option.some.inj (ht.symm.trans ht')
      rw [Function.update_self, Function.update_self]
    · have hne' : (t', side') ≠ (t, side) := by
        rintro heq
        cases heq
        exact hne (congrArg (·, side) (hw.session_unique ht' ht))
      rw [Function.update_of_ne hne, Function.update_of_ne hne']
      exact h.held hsecret ht'
  fresh {t' side'} hsecret hnobody := by
    have hne : (t', side') ≠ (t, side) := by
      rintro heq
      cases heq
      exact hnobody i ht
    dsimp only
    rw [Function.update_of_ne hne]
    exact h.fresh hsecret hnobody
  sealed hsecret := hsealed _ _ hsecret
  opened hsecret := hopened _ _ hsecret

variable {vsplit : End Transcript → Bool}

/-- Sealing is sealing on the channel. -/
theorem encrypt (h : w.Matches K v) (hw : w.Inv K) (hv : v.Inv S)
    (ht : w.sessions (i, side) = some t) (plaintext : Bytes) :
    ∃ v', (channel S vsplit).Path EventSystem.always v v' ∧
      (w.encrypt K S weak split (i, side) t plaintext).Matches K v' := by
  by_cases hsecret : t.Secret K
  · refine ⟨v.send S vsplit (t, side) plaintext,
      .tail (e := .encrypt (t, side) plaintext) (.refl v) trivial rfl, ?_⟩
    have hcell := h.held hsecret ht
    have hseal : sealRecord (guarded K S weak w.sealed) (w.heap (i, side)) plaintext =
        sealRecord (ideal S v.sealed) (v.heap (t, side)) plaintext := by
      rw [← hcell]
      refine sealRecord_congr (hv.tracks (t, side)).live_or_closed (fun t' ht' => ?_) plaintext
      have htracks := hv.tracks (t, side)
      rw [ht'] at htracks
      obtain rfl := htracks.eq_of_live
      exact guarded_encrypt hsecret
    unfold Peers.encrypt World.send World.encryptRecord World.handles
    rw [Handles.call_eq, Handles.call_eq]
    simp only [Call.onCell, hseal]
    rcases sealRecord (ideal S v.sealed) (v.heap (t, side)) plaintext with ⟨e | frame, cell⟩
    · exact h.record hw ht (fun _ _ => h.sealed) fun _ _ => h.opened
    · refine h.record hw ht (fun t' side' hsecret' => ?_) fun _ _ => h.opened
      simp only [Function.update_apply, h.sealed hsecret', h.sealed hsecret]
  · obtain ⟨heap, sealed, heq, hheap, hsealed⟩ := encrypt_frame (i, side) t plaintext
    rw [heq]
    exact ⟨v, .refl v, h.weak_record ht hsecret hheap hsealed fun _ _ => rfl⟩

/-- Opening is the delivery of a packet that the attacker injects. -/
theorem decrypt (h : w.Matches K v) (hw : w.Inv K) (hv : v.Inv S)
    (ht : w.sessions (i, side) = some t) (frame : Bytes) :
    ∃ v', (channel S vsplit).Path EventSystem.always v v' ∧
      (w.decrypt K S weak split (i, side) t frame).Matches K v' := by
  by_cases hsecret : t.Secret K
  · have hdeliver : (channel S vsplit).step
        { v with network := v.network ++ [⟨(t, side), frame⟩] } (.deliver v.network.length) =
          some (v.receive S vsplit (t, side) frame) := by
      simp only [channel, List.getElem?_concat_length, Option.map_some]
      rw [List.eraseIdx_append_of_length_le (Nat.le_refl _)]
      simp
    refine ⟨v.receive S vsplit (t, side) frame,
      .tail (.tail (e := .attack (.inject ⟨(t, side), frame⟩)) (.refl v) trivial rfl) trivial
        hdeliver, ?_⟩
    have hcell := h.held hsecret ht
    have hopen : openRecord (guarded K S weak w.sealed) (w.heap (i, side)) frame =
        openRecord (ideal S v.sealed) (v.heap (t, side)) frame := by
      rw [← hcell]
      refine openRecord_congr (hv.tracks (t, side)).live_or_closed (fun t' ht' => ?_) frame
      have htracks := hv.tracks (t, side)
      rw [ht'] at htracks
      obtain rfl := htracks.eq_of_live
      exact guarded_decrypt hsecret (h.sealed hsecret).symm
    unfold Peers.decrypt Peers.decryptRecord World.receive World.decryptRecord World.handles
    rw [Handles.call_eq, Handles.call_eq]
    simp only [Call.onCell, hopen, hcell]
    rcases openRecord (ideal S v.sealed) (w.heap (i, side)) frame with ⟨e | plaintext, cell⟩
    · exact h.record hw ht (fun _ _ => h.sealed) fun _ _ => h.opened
    · refine h.record hw ht (fun _ _ => h.sealed) fun t' side' hsecret' => ?_
      simp only [Function.update_apply, End.peer, h.opened hsecret', h.opened hsecret]
  · obtain ⟨heap, opened, heq, hheap, hopened⟩ := decrypt_frame (i, side) t frame
    rw [heq]
    exact ⟨v, .refl v, h.weak_record ht hsecret hheap (fun _ _ => rfl) hopened⟩

end Peers.Matches

variable (K S weak split) in
/-- Between honest peers, the open network is a record channel. -/
def peersSimulation (vsplit : End Transcript → Bool) :
    EventSystem.Simulation (peers (ι := ι) K S weak split) (channel S vsplit) Fresh
      EventSystem.always where
  rel := Peers.Matches K
  init hi := ⟨World.initial Transcript, rfl, hi ▸ Peers.Matches.initial⟩
  step hr hr' hrel hfresh hs := by
    have hw := Peers.Inv.of_reachable hr
    have hv := World.Inv.of_reachable hr'
    obtain hmove | ⟨⟨i, side⟩, t, ht, ⟨plaintext, rfl⟩ | ⟨frame, rfl⟩⟩ :=
      Peers.step_move hw hfresh hs
    · exact ⟨_, .refl _, hrel.move hw hmove⟩
    · exact hrel.encrypt hw hv ht plaintext
    · exact hrel.decrypt hw hv ht frame

variable {w : Peers ι}

/-- Whatever the attacker does to handshakes and records, every run of honest peers is
    matched by one of the record channel between as many sessions as there are honest
    exchanges: what it seals, what it opens and the cipher state of each session are
    those of the channel. -/
theorem peers_refine_channel (vsplit : End Transcript → Bool)
    (h : (peers K S weak split).Reachable Fresh w) :
    ∃ v, (channel S vsplit).Reachable EventSystem.always v ∧ w.Matches K v :=
  (peersSimulation K S weak split vsplit).reachable h

/-- The record that a client seals under the exchange of its handshake is one that the
    channel has sealed. -/
theorem peers_refine_channel_replayed :
    let S : Sealing (End Transcript) := .tagged fun _ nonce => UInt8.ofNat nonce
    ∃ w : Peers Bool, (peers .shifted S .refusing fun _ => true).Reachable Fresh w ∧
      ∃ (t : Transcript) (v : World Transcript),
        w.sessions (false, .client) = some t ∧ (v.sealed (t, .client)).length = 1 ∧
        (channel S fun _ => false).Reachable EventSystem.always v ∧ w.Matches .shifted v := by
  intro S
  let w := ((peers .shifted S .refusing fun _ => true).run Fresh (.initial Bool)
    (replayedGreeting ++ [.encrypt (false, .client) [5]])).get (by decide +kernel)
  have hreach : (peers .shifted S .refusing fun _ => true).Reachable Fresh w :=
    EventSystem.reachable_of_run rfl (Option.some_get _).symm
  obtain ⟨t, ht⟩ := Option.isSome_iff_exists.1
    (show (w.sessions (false, .client)).isSome by decide +kernel)
  obtain ⟨v, hv, hmatches⟩ := peers_refine_channel (fun _ => false) hreach
  have hsealed : (w.sessions (false, .client)).all
      fun t => (w.sealed (t, .client)).length = 1 := by decide +kernel
  rw [ht] at hsealed
  refine ⟨w, hreach, t, v, ht, ?_, hv, hmatches⟩
  rw [hmatches.sealed ⟨rfl, rfl⟩]
  simpa using hsealed

/-! ## Security of the sessions -/

/-- What a session opens next is the next record that was sealed for it. -/
theorem Peers.Matches.decryptRecord_ok {v : World Transcript} (h : w.Matches K v) (hv : v.Inv S)
    {i : ι} {side : Side} {t : Transcript} (hsecret : t.Secret K)
    (ht : w.sessions (i, side) = some t) {frame plaintext : Bytes}
    (hopen : (w.decryptRecord K S weak split (i, side) frame).1 = .ok plaintext) :
    (w.sealed (t, side.peer))[(w.opened (t, side.peer)).length]? = some ⟨plaintext, frame⟩ := by
  have htracks := hv.tracks (t, side)
  rw [h.held hsecret ht] at htracks
  rw [Peers.decryptRecord, Handles.call_eq] at hopen
  simp only [Call.onCell] at hopen
  have hcongr : openRecord (guarded K S weak w.sealed) (w.heap (i, side)) frame =
      openRecord (ideal S v.sealed) (w.heap (i, side)) frame := by
    refine openRecord_congr htracks.live_or_closed (fun t' ht' => ?_) frame
    rw [ht'] at htracks
    obtain rfl := htracks.eq_of_live
    exact guarded_decrypt hsecret (h.sealed hsecret).symm
  rw [hcongr] at hopen
  rcases openRecord_ideal_cases S v.sealed frame htracks.live_or_closed with
    ⟨t', plaintext', ht', hnext, heq⟩ | ⟨e, heq | heq⟩
  · rw [heq] at hopen
    obtain rfl := Except.ok.inj hopen
    rw [ht'] at htracks
    obtain rfl := htracks.eq_of_live
    rw [← h.sealed hsecret, ← h.opened hsecret]
    exact hnext
  · rw [heq] at hopen
    cases hopen
  · rw [heq] at hopen
    cases hopen

/-- Whatever the attacker does to handshakes and records: the session of an exchange
    between honest parties is the only one of its side, what it has opened is a prefix
    of what the other side of the same exchange has sealed, each record once, and it
    opens nothing but the next record, which one object on the other side has sealed,
    the only one with the session of this exchange. So a session that came of a
    replayed message, and has no such object, opens nothing. -/
theorem sessions_secure (h : (peers K S weak split).Reachable Fresh w) {i : ι} {side : Side}
    {t : Transcript} (ht : w.sessions (i, side) = some t) (hsecret : t.Secret K) :
    (∀ i', w.sessions (i', side) = some t → i' = i) ∧
    (w.opened (t, side.peer)).map (·.record.plaintext) <+:
      (w.sealed (t, side.peer)).map (·.plaintext) ∧
    ((w.opened (t, side.peer)).map (·.nonce)).Nodup ∧
    ∀ frame plaintext, (w.decryptRecord K S weak split (i, side) frame).1 = .ok plaintext →
      (w.sealed (t, side.peer))[(w.opened (t, side.peer)).length]? = some ⟨plaintext, frame⟩ ∧
      ∃ j, w.sessions (j, side.peer) = some t ∧
        ∀ j', w.sessions (j', side.peer) = some t → j' = j := by
  have hw := Peers.Inv.of_reachable h
  obtain ⟨v, hv, hmatches⟩ := (peersSimulation K S weak split fun _ => false).reachable h
  have hopens := (World.Inv.of_reachable hv).opens (t, side.peer)
  rw [hmatches.sealed hsecret, hmatches.opened hsecret] at hopens
  refine ⟨fun i' hi' => hw.session_unique hi' ht, hopens.plaintexts, hopens.nodup,
    fun frame plaintext hopen => ?_⟩
  have hnext := hmatches.decryptRecord_ok (World.Inv.of_reachable hv) hsecret ht hopen
  refine ⟨hnext, ?_⟩
  obtain ⟨j, hj⟩ := hw.sealed t side.peer fun hempty => by rw [hempty] at hnext; cases hnext
  exact ⟨j, hj, fun j' hj' => hw.session_unique hj' hj⟩

/-- Of the two sessions that a replayed message leads to, one opens what the client
    seals, and the other opens nothing. -/
theorem sessions_secure_replayed :
    let S : Sealing (End Transcript) := .tagged fun _ nonce => UInt8.ofNat nonce
    let weak : Aead (End Transcript) := .refusing
    ∃ w : Peers Bool, (peers .shifted S weak fun _ => true).Reachable Fresh w ∧
      (∃ t, w.sessions (false, .server) = some t ∧ (w.opened (t, .client)).length = 1) ∧
      w.sessions (true, .server) ≠ none ∧ ∀ frame plaintext,
        (w.decryptRecord .shifted S weak (fun _ => true) (true, .server) frame).1 ≠
          .ok plaintext := by
  intro S weak
  let w := ((peers .shifted S weak fun _ => true).run Fresh (.initial Bool)
    (replayedGreeting ++ [.encrypt (false, .client) [5], .decrypt (false, .server)
      (recordFrame ([5] ++ List.replicate 16 0))])).get (by decide +kernel)
  have hreach : (peers .shifted S weak fun _ => true).Reachable Fresh w :=
    EventSystem.reachable_of_run rfl (Option.some_get _).symm
  obtain ⟨t, ht⟩ := Option.isSome_iff_exists.1
    (show (w.sessions (true, .server)).isSome by decide +kernel)
  refine ⟨w, hreach, by decide +kernel, by rw [ht]; exact Option.some_ne_none _,
    fun frame plaintext hopen => ?_⟩
  obtain ⟨-, j, hj, -⟩ := (sessions_secure hreach ht ⟨rfl, rfl⟩).2.2.2 frame plaintext hopen
  revert j
  rw [← ht]
  decide +kernel

end SecureTunnel
