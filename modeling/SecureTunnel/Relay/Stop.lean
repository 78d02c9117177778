import SecureTunnel.Relay.Control

/-!
# After a relay has returned

The permit of a session is released, and its counters are read, once its relay
has returned. Whether its tasks have stopped by then depends on how it returns:
by `break` it requests the abortion of both, which takes effect once they are
not being polled; by `?` on a `JoinError` it requests nothing, and a task that
has not ended goes on, detached.

* `Control.Quiet`: the returns that leave no task behind.
* `returned_session_stopped`: after a quiet return no task of the session makes
  another operation, and after every other return one can.
-/

namespace SecureTunnel

/-- The task was cancelled, or has panicked: its handle reports a `JoinError`. -/
def Status.isJoinError : Status → Bool
  | ended (.cancelled _) | ended (.panicked _) => true
  | _ => false

namespace Control

/-- The branch reports a `JoinError`. -/
def unwinds (c : Control) (s : Side) : Branch → Bool
  | .request => (c.status (.request s)).isJoinError
  | .response => (c.status (.response s)).isJoinError
  | _ => false

/-- No task is in the middle of a poll, and where the branch reports a
    `JoinError`, both have ended. -/
def Quiet (c : Control) (s : Side) (branch : Branch) : Prop :=
  ∀ role, c.status role ≠ .running ∧ (c.unwinds s branch = true → (c.status role).isEnded = true)

/-- The task has ended, or will be cancelled before its next poll. -/
def Still (c : Control) (role : Role) : Prop :=
  (c.status role).isEnded = true ∨ c.status role = .parked ∧ c.aborting role = true

variable {c c' : Control} {s : Side} {e : TunnelEvent} {branch : Branch} {role : Role}

theorem Still.not_running (h : c.Still role) : c.status role ≠ .running := by
  intro hrun
  rcases h with hended | ⟨hparked, -⟩
  · rw [hrun] at hended
    cases hended
  · rw [hrun] at hparked
    cases hparked

/-- After the return, a task that is still remains so. -/
theorem Still.move (h : c.Still role) (hreturned : c.relay.isReturned = true)
    (hm : c.Move s e c') : c'.Still role ∧ c'.relay.isReturned = true := by
  -- A move that sets the status of the other task does not matter.
  have hset : ∀ {role' status}, (role' = role → status.isEnded = true) →
      (c.set role' status).Still role ∧ (c.set role' status).relay.isReturned = true := by
    intro role' status hstatus
    refine ⟨?_, hreturned⟩
    rcases eq_or_ne role role' with rfl | hne
    · exact .inl (by rw [set_status_self]; exact hstatus rfl)
    · rw [Still, set_status_of_ne c hne]
      exact h
  cases hm with
  | start hw | skip hw | goOn hw | leave hw | unwind hw =>
    rw [hw] at hreturned
    cases hreturned
  | poll hparked haborting =>
    refine hset ?_
    rintro rfl
    rcases h with hended | ⟨-, htrue⟩
    · rw [hparked] at hended
      cases hended
    · rw [haborting] at htrue
      cases htrue
  | task hrun | yield hrun | panic hrun =>
    refine hset ?_
    rintro rfl
    exact absurd hrun h.not_running
  | cancel => exact hset fun _ => rfl

theorem Unwinds.unwinds {requestComplete : Bool} {role : Role}
    (h : c.Unwinds s requestComplete branch role) : c.unwinds s branch = true := by
  have herror : ∀ {o : JoinOutcome}, (∀ result, o ≠ .returned result) → o ≠ .never →
      (Status.ended o).isJoinError = true := by
    intro o hreturned hnever
    cases o with
    | returned result => exact absurd rfl (hreturned result)
    | never => exact absurd rfl hnever
    | _ => rfl
  cases h with
  | request _ ho hreturned hnever | response ho hreturned hnever =>
    exact (congrArg Status.isJoinError ho).trans (herror hreturned hnever)

theorem Leaves.not_unwinds {requestComplete : Bool} (h : c.Leaves s requestComplete branch) :
    c.unwinds s branch = false := by
  cases h with
  | request _ ho | response ho => exact congrArg Status.isJoinError ho
  | idle | shutdown => rfl

/-- A quiet return leaves both tasks still. -/
theorem Quiet.still (h : c.Quiet s branch) (hordered : c.Ordered)
    (hm : c.Move s (.select s branch) c') (hreturned : c'.relay.isReturned = true) :
    c'.Still role := by
  cases hm with
  | goOn => cases hreturned
  | leave hs =>
    have hspawned := (hordered.selecting hs role).1
    have hnot := (h role).1
    rcases hstatus : c.status role with _ | _ | _ | o
    · rw [hstatus] at hspawned
      cases hspawned
    · exact .inr ⟨hstatus, rfl⟩
    · exact absurd hstatus hnot
    · exact .inl (congrArg Status.isEnded hstatus)
  | unwind hs hu =>
    exact .inl ((h role).2 hu.unwinds)

/-- After any other return, a task is in the middle of a poll, or waits for one
    that nothing prevents. -/
theorem exists_loose (hquiet : ¬c.Quiet s branch) (hordered : c.Ordered)
    (hm : c.Move s (.select s branch) c') (hreturned : c'.relay.isReturned = true) :
    ∃ role, c'.status role = .running ∨ c'.status role = .parked ∧ c'.aborting role = false := by
  -- The move changes no status, so that a task in the middle of a poll stays there.
  have hstatus : c'.status = c.status := by
    cases hm <;> rfl
  simp only [Quiet, not_forall, not_and_or, not_not] at hquiet
  obtain ⟨role, hrun | ⟨hunwinds, hlive⟩⟩ := hquiet
  · exact ⟨role, .inl (by rw [hstatus]; exact hrun)⟩
  · cases hm with
    | goOn => cases hreturned
    | leave _ hleaves =>
      rw [hleaves.not_unwinds] at hunwinds
      cases hunwinds
    | unwind hs =>
      obtain ⟨hspawned, haborting⟩ := hordered.selecting hs role
      rcases hrole : c.status role with _ | _ | _ | o
      · rw [hrole] at hspawned
        cases hspawned
      · exact ⟨role, .inr ⟨hrole, haborting⟩⟩
      · exact ⟨role, .inl hrole⟩
      · rw [hrole] at hlive
        exact absurd rfl hlive

/-- A relay returns through its loop. -/
theorem Move.exists_select (hm : c.Move s e c') (hnot : c.relay.isReturned = false)
    (hreturned : c'.relay.isReturned = true) : ∃ branch, e = .select s branch := by
  cases hm with
  | leave | unwind => exact ⟨_, rfl⟩
  | start | skip | goOn => cases hreturned
  | poll | task | yield | cancel | panic =>
    rw [Control.set] at hreturned
    rw [hreturned] at hnot
    cases hnot

end Control

namespace Tunnel

variable {S : Sealing Side} {idle : Side → ℕ} {t t' : Tunnel} {s : Side} {e : TunnelEvent}
  {allow : Tunnel → TunnelEvent → Prop}

/-- A task of the host can make an operation. -/
def Steps (S : Sealing Side) (t : Tunnel) (s : Side) : Prop :=
  ∃ role op, (t.taskStep S s role op).isSome = true

/-- Every relay that returns does so quietly. -/
def QuietReturns (S : Sealing Side) (idle : Side → ℕ) (t : Tunnel) (e : TunnelEvent) : Prop :=
  ∀ s branch t', e = .select s branch → step S idle t e = some t' → t'.returned s = true →
    (t.control s).Quiet s branch

/-- Only a task in the middle of a poll makes operations, and there it can always fail. -/
theorem steps_iff : t.Steps S s ↔ ∃ role, t.status s role = .running := by
  constructor
  · rintro ⟨role, op, hop⟩
    refine ⟨role, ?_⟩
    by_contra hrun
    rw [taskStep, Option.isSome_map] at hop
    cases role with
    | enc =>
      rw [Lane.taskStep, encStep_of_not_running _ _ hrun] at hop
      cases hop
    | dec =>
      rw [Lane.taskStep, decStep_of_not_running _ _ hrun] at hop
      cases hop
  · rintro ⟨role, hrun⟩
    refine ⟨role, .fail [], ?_⟩
    rw [taskStep, Option.isSome_map]
    cases role with
    | enc => exact encStep_fail (ideal S fun s => (t.lane s).sealed) _ hrun []
    | dec => exact decStep_fail (ideal S fun s => (t.lane s).sealed) _ hrun []

/-- The relay of the host has returned, and its tasks are still. -/
def Stopped (t : Tunnel) (s : Side) : Prop :=
  t.returned s = true ∧ ∀ role, (t.control s).Still role

theorem Stopped.not_steps (h : t.Stopped s) : ¬t.Steps S s := by
  rw [steps_iff]
  rintro ⟨role, hrun⟩
  exact (h.2 role).not_running hrun

/-- Once a session has stopped, nothing starts it again. -/
theorem Stopped.step (h : t.Stopped s) (hsound : t.Sound S)
    (hstep : Tunnel.step S idle t e = some t') : t'.Stopped s := by
  rcases control_step hsound.inv.sane hstep s with heq | hmove
  · have hrelay : (t'.host s).relay = (t.host s).relay := congrArg Control.relay heq
    refine ⟨?_, fun role => by rw [heq]; exact h.2 role⟩
    rw [returned, hrelay]
    exact h.1
  · exact ⟨((h.2 .enc).move h.1 hmove).2, fun role => ((h.2 role).move h.1 hmove).1⟩

theorem Stopped.path (h : t.Stopped s) (hsound : t.Sound S)
    (hpath : (tunnel S idle).Path allow t t') : t'.Stopped s := by
  refine (hpath.invariant (P := fun t => t.Sound S ∧ t.Stopped s) ⟨hsound, h⟩ ?_).2
  exact fun hP _ hstep => ⟨hP.1.step hstep, hP.2.step hP.1 hstep⟩

/-- The cipher state of a host and its two byte counters. -/
def account (t : Tunnel) (s : Side) : Cell Side × UInt64 × UInt64 :=
  ((t.host s).cell, (t.lane s).encBytes, (t.lane s.peer).decBytes)

theorem account_setLane {r : Side} {l : Lane}
    (henc : r = s → l.encBytes = (t.lane r).encBytes)
    (hdec : r = s.peer → l.decBytes = (t.lane r).decBytes) :
    (t.setLane r l).account s = t.account s := by
  rw [account, account, Prod.mk.injEq, Prod.mk.injEq]
  refine ⟨rfl, ?_, ?_⟩
  · rcases eq_or_ne s r with rfl | hne
    · rw [setLane_self, henc rfl]
    · rw [setLane_of_ne t hne]
  · rcases eq_or_ne s.peer r with rfl | hne
    · rw [setLane_self, hdec rfl]
    · rw [setLane_of_ne t hne]

theorem account_setHost {r : Side} {h : Host} (hcell : r = s → h.cell = (t.host r).cell) :
    (t.setHost r h).account s = t.account s := by
  rw [account, account, Prod.mk.injEq]
  refine ⟨?_, rfl⟩
  rcases eq_or_ne s r with rfl | hne
  · rw [setHost_self, hcell rfl]
  · rw [setHost_of_ne t hne]

theorem account_setStatus {r : Side} (role : Role) (status : Status) :
    (t.setStatus r role status).account s = t.account s := by
  cases role <;> exact account_setLane (fun _ => rfl) (fun _ => rfl)

theorem account_abort {r : Side} (role : Role) : (t.abort r role).account s = t.account s := by
  cases role <;> exact account_setLane (fun _ => rfl) (fun _ => rfl)

theorem account_goto {r : Side} (relay : RelayState) : (t.goto r relay).account s = t.account s :=
  account_setHost fun _ => rfl

theorem account_leave {r : Side} (result : Except RelayError Unit) :
    (t.leave r result).account s = t.account s := by
  rw [leave, account_goto, account_abort, account_abort]

theorem account_joined {r : Side} {role : Role} {goOn : Tunnel}
    (hgo : goOn.account s = t.account s) (h : t.joined r role goOn = some t') :
    t'.account s = t.account s := by
  rcases joined_cases h with ⟨-, rfl⟩ | ⟨e, -, rfl⟩ | ⟨o, e, -, -, -, rfl⟩
  · exact hgo
  · exact account_leave _
  · exact account_goto _

theorem account_select {r : Side} {requestComplete : Bool} {branch : Branch}
    (h : t.select idle r requestComplete branch = some t') : t'.account s = t.account s := by
  cases branch with
  | request =>
    rw [select] at h
    split at h
    · cases h
    · exact account_joined (account_goto _) h
  | response => exact account_joined (account_leave _) h
  | activity =>
    obtain ⟨-, rfl⟩ := Option.ite_some_none_eq_some.1 h
    exact account_setHost fun _ => rfl
  | idle | shutdown =>
    obtain ⟨-, rfl⟩ := Option.ite_some_none_eq_some.1 h
    exact account_leave _

/-- The cipher state and the counters of a host are up to tasks. -/
theorem account_step_of_not_task (htask : ∀ r role op, e ≠ .task r role op)
    (hstep : step S idle t e = some t') : t'.account s = t.account s := by
  cases e with
  | start r | skip r =>
    obtain ⟨-, rfl⟩ := Option.ite_some_none_eq_some.1 hstep
    refine (account_setHost ?_).trans ?_
    · exact fun _ => rfl
    · rw [account_setStatus, account_setStatus]
  | poll r role | yield r role | cancel r role display | panic r role display =>
    obtain ⟨-, rfl⟩ := Option.ite_some_none_eq_some.1 hstep
    exact account_setStatus ..
  | task r role op => exact absurd rfl (htask r role op)
  | select r branch =>
    obtain ⟨_, -, hselect⟩ := exists_of_select hstep
    exact account_select hselect
  | signal r =>
    cases hstep
    exact account_setHost fun _ => rfl
  | tick =>
    cases hstep
    rfl
  | drop r =>
    obtain ⟨-, rfl⟩ := Option.ite_some_none_eq_some.1 hstep
    refine (account_setHost ?_).trans (account_setLane ?_ ?_) <;> exact fun _ => rfl
  | write r bytes =>
    obtain ⟨-, rfl⟩ := open_of_write hstep
    exact account_setLane (fun _ => rfl) fun _ => rfl
  | finish r =>
    cases hstep
    exact account_setLane (fun _ => rfl) fun _ => rfl
  | close r =>
    cases hstep
    refine (account_setHost ?_).trans (account_setLane ?_ ?_) <;> exact fun _ => rfl
  | cut r n =>
    cases hstep
    exact account_setLane (fun _ => rfl) fun _ => rfl

/-- The cipher state and the counters of a host are only up to its own tasks. -/
theorem account_step (hsound : t.Sound S) (hsteps : ¬t.Steps S s)
    (hstep : step S idle t e = some t') : t'.account s = t.account s := by
  cases e with
  | task r role op =>
    have hne : r ≠ s := by
      rintro rfl
      exact hsteps ⟨role, op, Option.isSome_iff_exists.2 ⟨t', hstep⟩⟩
    obtain ⟨⟨l, cell, notice⟩, hl, rfl⟩ := Option.map_eq_some_iff.1 hstep
    refine (account_setHost fun heq => absurd heq hne).trans ?_
    have hcell := (hsound.inv.cells r).live_or_closed
    cases role with
    | enc =>
      obtain ⟨-, hmove⟩ := encStep_cases hcell hl
      exact account_setLane (fun heq => absurd heq hne) fun _ => hmove.decBytes_eq
    | dec =>
      obtain ⟨-, hmove⟩ := decStep_cases hcell hl
      exact account_setLane (fun _ => hmove.encBytes_eq)
        fun heq => absurd (Role.lane_injective .dec heq) hne
  | _ => exact account_step_of_not_task (by simp) hstep

/-- They stay as they are once the session has stopped. -/
theorem Stopped.account_eq (h : t.Stopped s) (hsound : t.Sound S)
    (hpath : (tunnel S idle).Path allow t t') : t'.account s = t.account s := by
  refine (hpath.invariant (P := fun t' => t'.Sound S ∧ t'.Stopped s ∧ t'.account s = t.account s)
    ⟨hsound, h, rfl⟩ ?_).2.2
  rintro t₁ e t₂ ⟨hs, hstopped, heq⟩ - hstep
  exact ⟨hs.step hstep, hstopped.step hs hstep,
    (account_step hs hstopped.not_steps hstep).trans heq⟩

/-- Where every relay returns quietly, every session that has returned has stopped. -/
theorem stopped_of_reachable (h : (tunnel S idle).Reachable (QuietReturns S idle) t)
    (hreturned : t.returned s = true) : t.Stopped s := by
  refine h.invariant (P := fun t => t.returned s = true → t.Stopped s) ?_ ?_ hreturned
  · rintro t rfl hinit
    cases hinit
  · intro t e t' hreach hstopped hquiet hstep hreturned
    have hsound := sound_of_reachable hreach
    rcases hbefore : t.returned s with _ | _
    · rcases control_step hsound.inv.sane hstep s with heq | hmove
      · have hrelay : t'.returned s = t.returned s := congrArg (·.relay.isReturned) heq
        rw [hrelay, hbefore] at hreturned
        cases hreturned
      · obtain ⟨branch, rfl⟩ := hmove.exists_select hbefore hreturned
        exact ⟨hreturned, fun _ => (hquiet s branch t' rfl hstep hreturned).still
          (hsound.ordered s) hmove hreturned⟩
    · exact (hstopped hbefore).step hsound hstep

/-- A branch through which the relay returns moves its control state. -/
theorem move_of_return (hsound : t.Sound S) {branch : Branch}
    (hstep : step S idle t (.select s branch) = some t') (hreturned : t'.returned s = true) :
    Control.Move s (t.control s) (.select s branch) (t'.control s) := by
  refine (control_step hsound.inv.sane hstep s).resolve_left fun heq => ?_
  have hrelay : (t'.host s).relay = (t.host s).relay := congrArg Control.relay heq
  rw [returned, hrelay] at hreturned
  -- The loop takes no branch any more once it was left.
  obtain ⟨requestComplete, hselecting, -⟩ := exists_of_select hstep
  rw [hselecting] at hreturned
  cases hreturned

/-- After a return that is not quiet, a task of the session can make an operation. -/
theorem exists_steps (hsound : t.Sound S) {branch : Branch}
    (hstep : step S idle t (.select s branch) = some t') (hreturned : t'.returned s = true)
    (hquiet : ¬(t.control s).Quiet s branch) :
    ∃ t'', (tunnel S idle).Path EventSystem.always t' t'' ∧ t''.Steps S s := by
  obtain ⟨role, hrun | ⟨hparked, haborting⟩⟩ := Control.exists_loose hquiet (hsound.ordered s)
    (move_of_return hsound hstep hreturned) hreturned
  · exact ⟨t', .refl t', steps_iff.2 ⟨role, hrun⟩⟩
  · -- The detached task is polled once more.
    refine ⟨t'.setStatus s role .running, .tail (e := .poll s role) (.refl t') trivial ?_,
      steps_iff.2 ⟨role, ?_⟩⟩
    · exact if_pos ⟨hparked, haborting⟩
    · have hstatus := congrFun (control_setStatus (t := t') (s := s) role .running) s
      rw [Function.update_self] at hstatus
      exact (congrFun (congrArg Control.status hstatus) role).trans (Control.set_status_self ..)

end Tunnel

open Tunnel

variable {S : Sealing Side} {idle : Side → ℕ}

/-- In every run whose relays return quietly, no task of a session makes another
    operation once its relay has returned, and the cipher state and the counters
    of the session stay as they are. Quietness is also what it takes: after any
    other return, the run can go on with an operation of such a task. -/
theorem returned_session_stopped :
    (∀ t, (tunnel S idle).Reachable (QuietReturns S idle) t → ∀ s, t.returned s = true →
      ¬t.Steps S s ∧ ∀ t', (tunnel S idle).Path (QuietReturns S idle) t t' →
        t'.account s = t.account s) ∧
    ∀ t t', (tunnel S idle).Reachable EventSystem.always t → ∀ s branch,
      step S idle t (.select s branch) = some t' → t'.returned s = true →
      ((∀ t'', (tunnel S idle).Path EventSystem.always t' t'' → ¬t''.Steps S s) ↔
        (t.control s).Quiet s branch) := by
  refine ⟨fun t h s hreturned => ?_, fun t t' h s branch hstep hreturned => ?_⟩
  · have hstopped := stopped_of_reachable h hreturned
    exact ⟨hstopped.not_steps, fun t' hpath => hstopped.account_eq (sound_of_reachable h) hpath⟩
  · have hsound := sound_of_reachable h
    constructor
    · intro hnever
      by_contra hquiet
      obtain ⟨t'', hpath, hsteps⟩ := exists_steps hsound hstep hreturned hquiet
      exact hnever t'' hpath hsteps
    · intro hquiet t'' hpath
      have hstopped : t'.Stopped s := ⟨hreturned, fun _ => hquiet.still (hsound.ordered s)
        (move_of_return hsound hstep hreturned) hreturned⟩
      exact (hstopped.path (hsound.step hstep) hpath).not_steps

/-- A relay that the shutdown ends while its tasks wait to be polled returns quietly. -/
theorem returned_session_stopped_shutdown :
    let S : Sealing Side := .tagged fun _ nonce => UInt8.ofNat nonce
    ∃ t, t.returned .server = true ∧ ¬t.Steps S .server ∧
      ∀ t', (tunnel S fun _ => 300).Path (QuietReturns S fun _ => 300) t t' →
        t'.account .server = t.account .server := by
  intro S
  let t₁ := ((tunnel S fun _ => 300).run EventSystem.always .initial
    [.start .server, .signal .server]).get (by decide +kernel)
  let t₂ := (step S (fun _ => 300) t₁ (.select .server .shutdown)).get (by decide +kernel)
  have h₁ : (tunnel S fun _ => 300).Reachable (QuietReturns S fun _ => 300) t₁ :=
    .step (e := .signal .server) (.step (e := .start .server) (.init rfl) nofun rfl) nofun rfl
  have h₂ : (tunnel S fun _ => 300).Reachable (QuietReturns S fun _ => 300) t₂ := by
    refine .step (e := .select .server .shutdown) h₁ ?_ (Option.some_get _).symm
    intro s branch t' he _ _ role
    cases he
    cases role <;> decide +kernel
  exact ⟨t₂, by decide +kernel, (returned_session_stopped).1 t₂ h₂ .server (by decide +kernel)⟩

/-- A relay that returns while its task is in the middle of a poll, and the bytes
    that the task counts afterwards; and one that returns with the `JoinError` of
    one task, while the other waits to write the rest of a record: it writes that
    afterwards, and counts it. (The task panics as it writes to the other stream. Where
    it panics in an operation on a stream that both tasks use, the mutex of the split
    stream is poisoned, and the other task panics as well once it uses that stream.) -/
theorem returned_session_goes_on :
    let S : Sealing Side := .tagged fun _ nonce => UInt8.ofNat nonce
    (∃ t t', (tunnel S fun _ => 300).Reachable EventSystem.always t ∧ t.returned .server = true ∧
      step S (fun _ => 300) t (.task .server .enc .flush) = some t' ∧
      (t.lane .server).encBytes = 0 ∧ (t'.lane .server).encBytes = 1) ∧
    ∃ t t', (tunnel S fun _ => 300).Reachable EventSystem.always t ∧ t.returned .client = true ∧
      (tunnel S fun _ => 300).Path EventSystem.always t t' ∧
      (t.lane .server).delivered = [7] ∧ (t.lane .server).decBytes = 0 ∧
      (t'.lane .server).delivered = [7, 8] ∧ (t'.lane .server).decBytes = 2 := by
  intro S
  let t₁ := ((tunnel S fun _ => 300).run EventSystem.always .initial
    [.start .server, .write .server [7], .poll .server .enc, .task .server .enc (.read 1),
      .task .server .enc (.write 21), .signal .server, .select .server .shutdown]).get
    (by decide +kernel)
  let t₂ := (step S (fun _ => 300) t₁ (.task .server .enc .flush)).get (by decide +kernel)
  let t₃ := ((tunnel S fun _ => 300).run EventSystem.always .initial
    [.start .server, .write .server [7, 8], .poll .server .enc, .task .server .enc (.read 2),
      .task .server .enc (.write 22), .start .client, .write .client [9], .poll .client .dec,
      .task .client .dec (.read 1), .task .client .dec (.read 3), .task .client .dec (.read 18),
      .task .client .dec (.write 1), .yield .client .dec, .poll .client .enc,
      .task .client .enc (.read 1), .panic .client .enc [], .select .client .request]).get
    (by decide +kernel)
  let t₄ := ((tunnel S fun _ => 300).run EventSystem.always t₃
    [.poll .client .dec, .task .client .dec (.write 1), .task .client .dec .flush]).get
    (by decide +kernel)
  exact ⟨⟨t₁, t₂, EventSystem.reachable_of_run rfl (Option.some_get _).symm, by decide +kernel,
    (Option.some_get _).symm, by decide +kernel, by decide +kernel⟩,
    ⟨t₃, t₄, EventSystem.reachable_of_run rfl (Option.some_get _).symm, by decide +kernel,
    EventSystem.path_of_run (Option.some_get _).symm, by decide +kernel, by decide +kernel,
    by decide +kernel, by decide +kernel⟩⟩

end SecureTunnel
