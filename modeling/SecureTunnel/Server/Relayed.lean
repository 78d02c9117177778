import SecureTunnel.Relay.Tamper
import SecureTunnel.Server.Accounting

/-!
# A session and its relay

A session of the server, together with the tunnel that its relay is one end of: the
relay starts once the session gets to it, and the session ends with what the relay
returned. A task of the relay that is being polled as it is aborted, or that was
detached, goes on after the session has ended.

A record that fails to authenticate does so in the task of the request direction.
The relay reports it if it leaves its loop by the branch of that task, and else the
session ends with another error, or none, and the record is *hidden*.

* `Reported`: what the relay returned, by the branch by which it left.
* `parts_of_reachable`: session and tunnel each run as they do by themselves.
* `failure_accounting`: a session is accounted for exactly if no record is hidden and
  its error is told, or chance has it.
* `unauthorised_not_counted`: no rejected client is counted as one.
-/

namespace SecureTunnel

variable {Addr HS Key : Type*}

/-! ## State -/

structure RelayedSession (Addr HS Key : Type*) where
  session : ServerSession Addr HS Key
  tunnel : Tunnel
  /-- The branch by which the relay left its loop. -/
  left : Option Branch

/-- What can happen to a session and to the tunnel. -/
inductive RelayedEvent
  /-- What the session awaits before its relay completes. -/
  | session (e : SessionEvent)
  | tunnel (e : TamperEvent)
  /-- The session ends with what its relay returned. -/
  | finish

/-- What a session that has ended returned. -/
def SessionPhase.result? : SessionPhase HS Key → Option (Except SessionError Unit)
  | .ended result => some result
  | _ => none

theorem SessionPhase.ended_of_result? {phase : SessionPhase HS Key}
    {result : Except SessionError Unit} (h : phase.result? = some result) :
    phase = .ended result := by
  cases phase with
  | ended => exact congrArg ended (Option.some.inj h)
  | _ => cases h

namespace RelayedSession

def initial : RelayedSession Addr HS Key := ⟨.initial, .initial, none⟩

/-- The relay of the server starts once its session gets there, and never starts if
    that is over. -/
def Admits (x : RelayedSession Addr HS Key) : TamperEvent → Bool
  | .tunnel (.start .server) => x.session.phase.isRelaying
  | .tunnel (.skip .server) => x.session.phase.isOver
  | _ => true

/-- The branch by which the relay of the server leaves, where it does. -/
def leaving (x : RelayedSession Addr HS Key) (e : TamperEvent) (tunnel : Tunnel) :
    Option Branch :=
  match e with
  | .tunnel (.select .server branch) => if tunnel.returned .server then some branch else x.left
  | _ => x.left

def step (snow : Snow HS Key) (setup : Setup Addr) (S : Sealing Side) (idle : Side → ℕ)
    (x : RelayedSession Addr HS Key) : RelayedEvent → Option (RelayedSession Addr HS Key)
  | .session e =>
    if e.ofRelay then none
    else (x.session.step snow setup e).map fun session => { x with session }
  | .tunnel e =>
    if x.Admits e then
      (x.tunnel.tamperStep S idle e).map fun tunnel =>
        { x with tunnel, left := x.leaving e tunnel }
    else none
  | .finish =>
    match (x.tunnel.host .server).relay with
    | .returned result =>
      (x.session.step snow setup (.relayEnd result)).map fun session => { x with session }
    | _ => none

/-- A record failed to authenticate: `copy_decrypt` has returned with it. -/
def rejected (x : RelayedSession Addr HS Key) : Bool :=
  x.tunnel.status .server .dec = .rejected

/-- A record failed to authenticate, in a task by whose branch the relay has not left. -/
def Hidden (x : RelayedSession Addr HS Key) : Prop :=
  x.rejected = true ∧ x.left ≠ some .request

instance (x : RelayedSession Addr HS Key) : Decidable x.Hidden :=
  inferInstanceAs (Decidable (_ ∧ _))

/-- When a session is told for what it is. A hidden record is told only by chance, by
    an error of the relay. -/
def Told (x : RelayedSession Addr HS Key) : Except SessionError Unit → Prop
  | .ok _ => ¬x.Hidden
  | .error e => if x.Hidden then ∃ r, e = .relay r ∧ r.Chance else e.Told

end RelayedSession

/-- A session of the server and the tunnel, over a network that tampers. -/
def relayedSession (snow : Snow HS Key) (setup : Setup Addr) (S : Sealing Side)
    (idle : Side → ℕ) : EventSystem (RelayedSession Addr HS Key) RelayedEvent where
  init x := x = .initial
  step := RelayedSession.step snow setup S idle

/-! ## What the relay returns -/

namespace Control

variable {c c' : Control} {s : Side} {e : TunnelEvent}

/-- A task that has ended stays as it ended. -/
theorem Ordered.status_move (h : c.Ordered) (hm : c.Move s e c') {role : Role} {o : JoinOutcome}
    (ho : c.status role = .ended o) : c'.status role = .ended o := by
  have hset : ∀ {role' status status'}, c.status role' = status' → status'.isEnded = false →
      (c.set role' status).status role = .ended o := by
    intro role' status status' hrole hlive
    rw [set_status_of_ne]
    · exact ho
    · rintro rfl
      rw [← hrole, ho] at hlive
      cases hlive
  cases hm with
  | start hw | skip hw =>
    rw [(h.waiting hw role).1] at ho
    cases ho
  | poll hstatus | task hstatus | yield hstatus | cancel hstatus | panic hstatus =>
    exact hset hstatus rfl
  | goOn | leave | unwind => exact ho

/-- Before it starts, a relay waits, or is skipped. -/
theorem Move.relay_waiting (hm : c.Move s e c') (hw : c.relay = .waiting) (hstart : e ≠ .start s) :
    c'.relay = .waiting ∨ e = .skip s ∧ c'.relay = .skipped := by
  cases hm with
  | start => exact absurd rfl hstart
  | skip => exact .inr ⟨rfl, rfl⟩
  | goOn hs | leave hs | unwind hs =>
    rw [hs] at hw
    cases hw
  | poll | task | yield | cancel | panic => exact .inl hw

/-- A relay that has returned, or was skipped, stays so. -/
theorem Move.relay_over (hm : c.Move s e c') (hover : c.relay.isReturned = true ∨
    c.relay = .skipped) : c'.relay = c.relay := by
  cases hm with
  | start hs | skip hs | goOn hs | leave hs | unwind hs =>
    rw [hs] at hover
    rcases hover with h | h <;> cases h
  | poll | task | yield | cancel | panic => rfl

end Control

/-- What the relay of the server returned, by the branch by which it left: a rejected
    record exactly by that of the task that it failed in. -/
structure Reported (left : Option Branch) (c : Control) : Prop where
  looping : c.relay.isReturned = false → left = none
  skipped : c.relay = .skipped → c.status .dec = .ended .never
  request : left = some .request → (c.status .dec).isEnded = true
  returned : ∀ result, c.relay = .returned result →
    (result = .error .rejected ↔ left = some .request ∧ c.status .dec = .rejected)

section Reported

variable {left : Option Branch} {c c' : Control} {s : Side} {e : TunnelEvent}

/-- Nothing but its loop decides what the relay returns. -/
theorem Reported.move (h : Reported left c) (hordered : c.Ordered) (hm : c.Move s e c')
    (hselect : ∀ branch, e ≠ .select s branch) : Reported left c' := by
  have hended : left = some .request → (c'.status .dec).isEnded = true :=
    fun hleft => hordered.isEnded_move hm (h.request hleft)
  -- What a task of the loop does is no matter of the relay.
  have hset : c'.relay = c.relay → c.relay ≠ .skipped ∨ c'.status .dec = .ended .never →
      Reported left c' := by
    intro hrelay hskipped
    refine ⟨fun hnot => h.looping (hrelay ▸ hnot), fun hs => ?_, hended, fun result hr => ?_⟩
    · exact hskipped.resolve_left fun hne => hne (hrelay ▸ hs)
    · rw [h.returned result (hrelay ▸ hr)]
      refine and_congr_right fun hleft => ?_
      obtain ⟨o, ho⟩ : ∃ o, c.status .dec = .ended o := by
        have hend := h.request hleft
        cases hdec : c.status .dec with
        | ended o => exact ⟨o, rfl⟩
        | _ =>
          rw [hdec] at hend
          cases hend
      rw [ho, hordered.status_move hm ho]
  by_cases hskipped : c.relay = .skipped
  · exact hset (hm.relay_over (.inr hskipped))
      (.inr (hordered.status_move hm (h.skipped hskipped)))
  cases hm with
  | start hw => exact ⟨fun _ => h.looping (by rw [hw]; rfl), nofun, hended, nofun⟩
  | skip hw => exact ⟨fun _ => h.looping (by rw [hw]; rfl), fun _ => rfl, hended, nofun⟩
  | poll | task | yield | cancel | panic => exact hset rfl (.inl hskipped)
  | goOn | leave | unwind => exact absurd rfl (hselect _)

/-- There is nothing to report before the relay has left its loop. -/
theorem reported_none (hreturned : c.relay.isReturned = false) (hskipped : c.relay ≠ .skipped) :
    Reported none c := by
  refine ⟨fun _ => rfl, fun h => absurd h hskipped, fun h => absurd h (by simp),
    fun result h => ?_⟩
  rw [h] at hreturned
  cases hreturned

/-- The relay leaves its loop. -/
theorem reported_return {branch : Branch} {result : Except RelayError Unit}
    (hrelay : c.relay = .returned result)
    (hrequest : branch = .request → (c.status .dec).isEnded = true)
    (hresult : result = .error .rejected ↔ branch = .request ∧ c.status .dec = .rejected) :
    Reported (some branch) c := by
  refine ⟨fun hnot => ?_, fun hskipped => ?_, fun heq => hrequest (Option.some.inj heq), ?_⟩
  · rw [hrelay] at hnot
    cases hnot
  · rw [hrelay] at hskipped
    cases hskipped
  · intro result' hresult'
    obtain rfl := RelayState.returned.inj (hrelay.symm.trans hresult')
    rw [hresult, Option.some.injEq]

end Reported

namespace Tunnel

variable {S : Sealing Side} {idle : Side → ℕ} {t t' : Tunnel} {s : Side}

/-- `copy_encrypt` returns no rejected record. -/
theorem encStep_ne_rejected {ledger : Side → List Record} {cell cell' : Cell Side} {l l' : Lane}
    {op : Op} {notice : Bool} (h : encStep (ideal S ledger) cell l op = some (l', cell', notice)) :
    l'.enc.status ≠ .rejected := by
  have hrun : l.enc.status = .running := by
    by_contra hnot
    rw [encStep_of_not_running _ _ hnot] at h
    cases h
  have hrunning : (Status.running) ≠ .rejected := nofun
  rw [encStep.eq_def, if_neg fun hnot => hnot hrun] at h
  split at h
  · obtain ⟨⟨piece, source⟩, -, hout⟩ := Option.map_eq_some_iff.1 h
    dsimp only at hout
    split at hout
    · cases hout
      exact hrun ▸ hrunning
    · have hne := sealRecord_ideal_ne_decrypt S ledger cell piece
      split at hout
      · rename_i e cell'' hseal
        cases hout
        rw [hseal] at hne
        simpa [Task.finish, Status.rejected] using hne
      · cases hout
        exact hrun ▸ hrunning
  · obtain ⟨-, heq⟩ := Option.ite_some_none_eq_some.1 h
    cases heq
    exact hrun ▸ hrunning
  · cases h
    exact hrun ▸ hrunning
  · cases h
    simp [Task.finish, Status.rejected]
  · cases h
    simp [Task.finish, Status.rejected]
  · cases h

theorem enc_step (hsane : t.Sane) {e : TunnelEvent} (hstep : step S idle t e = some t')
    (henc : t.status s .enc ≠ .rejected) : t'.status s .enc ≠ .rejected := by
  -- Another task than `copy_encrypt` moves, or it moves but does not return.
  have hset : ∀ {role status}, status ≠ .rejected →
      ((t.control s).set role status).status .enc ≠ .rejected := by
    intro role status hstatus
    rcases eq_or_ne Role.enc role with rfl | hne
    · rwa [Control.set_status_self]
    · rw [Control.set_status_of_ne _ hne]
      exact henc
  change (t'.control s).status .enc ≠ .rejected
  rcases control_step hsane hstep s with heq | hmove
  · rw [heq]
    exact henc
  by_cases htask : ∃ op, e = .task s .enc op
  · obtain ⟨op, rfl⟩ := htask
    obtain ⟨⟨l, cell, notice⟩, hl, rfl⟩ := Option.map_eq_some_iff.1 hstep
    change (((t.setLane s l).setHost s _).lane s).enc.status ≠ .rejected
    rw [setHost_lane, setLane_self]
    exact encStep_ne_rejected hl
  · generalize t'.control s = c' at hmove ⊢
    cases hmove with
    | start | skip => simp [Status.rejected]
    | @task role op status hrun hstatus =>
      cases role with
      | enc => exact absurd ⟨op, rfl⟩ htask
      | dec =>
        rw [Control.set_status_of_ne _ (by decide)]
        exact henc
    | poll | yield | cancel | panic => exact hset (by simp [Status.rejected])
    | goOn | leave | unwind => exact henc

theorem reported_initial : Reported none (initial.control s) :=
  reported_none rfl fun h => by cases h

theorem reported_leave {branch : Branch} {result : Except RelayError Unit}
    (hrequest : branch = .request → (t.status s .dec).isEnded = true)
    (hresult : result = .error .rejected ↔ branch = .request ∧ t.status s .dec = .rejected) :
    Reported (some branch) ((t.leave s result).control s) := by
  rw [control_leave, Function.update_self]
  exact reported_return rfl hrequest hresult

/-- It leaves by another branch than that of the task in which a record fails. -/
theorem reported_leave_of_ne {branch : Branch} {result : Except RelayError Unit}
    (hbranch : branch ≠ .request) (hresult : result ≠ .error .rejected) :
    Reported (some branch) ((t.leave s result).control s) :=
  reported_leave (fun h => absurd h hbranch) (iff_of_false hresult fun h => hbranch h.1)

theorem reported_goto {branch : Branch} {result : Except RelayError Unit}
    (hrequest : branch = .request → (t.status s .dec).isEnded = true)
    (hresult : result = .error .rejected ↔ branch = .request ∧ t.status s .dec = .rejected) :
    Reported (some branch) ((t.goto s (.returned result)).control s) := by
  rw [control_goto, Function.update_self]
  exact reported_return rfl hrequest hresult

/-- The loop reports a rejected record exactly by the branch of its task. -/
theorem reported_select {requestComplete : Bool} {branch : Branch}
    (h : Reported none (t.control .server))
    (hrelay : (t.host .server).relay = .selecting requestComplete)
    (henc : t.status .server .enc ≠ .rejected)
    (hselect : t.select idle .server requestComplete branch = some t') :
    Reported (if t'.returned .server then some branch else none) (t'.control .server) := by
  have hleave : ∀ result, (t.leave .server result).returned .server = true := fun result => by
    rw [returned, leave, goto, setHost_self]
    rfl
  have hgoto : ∀ result, (t.goto .server (.returned result)).returned .server = true :=
    fun result => by
      rw [returned, goto, setHost_self]
      rfl
  have hpanicked : ∀ context display,
      (.error (.panicked context display) : Except RelayError Unit) ≠ .error .rejected :=
    fun context display => by simp [RelayError.rejected]
  cases branch with
  | request =>
    rw [select] at hselect
    split at hselect
    · cases hselect
    rcases joined_cases hselect with ⟨-, rfl⟩ | ⟨e, he, rfl⟩ | ⟨o, display, ho, hreturned, -, rfl⟩
    · have hlooping : (t.goto .server (.selecting true)).returned .server = false := by
        rw [returned, goto, setHost_self]
        rfl
      rw [hlooping, control_goto, Function.update_self]
      exact reported_none rfl (by simp)
    · rw [hleave, if_pos rfl]
      refine reported_leave (fun _ => congrArg Status.isEnded he) ?_
      change t.status .server .dec = _ at he
      simp [he, Status.rejected, RelayError.rejected]
    · rw [hgoto, if_pos rfl]
      exact reported_goto (fun _ => congrArg Status.isEnded ho) (iff_of_false (hpanicked _ display)
        fun h => hreturned _ (Status.ended.inj (ho.symm.trans h.2)))
  | response =>
    rcases joined_cases hselect with ⟨-, rfl⟩ | ⟨e, he, rfl⟩ | ⟨o, display, -, -, -, rfl⟩
    · rw [hleave, if_pos rfl]
      exact reported_leave_of_ne (by decide) (by simp)
    · rw [hleave, if_pos rfl]
      refine reported_leave_of_ne (by decide) fun h => henc ?_
      obtain rfl : e = .tunnel (.noise .decrypt) := by simpa [RelayError.rejected] using h
      exact he
    · rw [hgoto, if_pos rfl]
      exact reported_goto (fun h => absurd h (by decide))
        (iff_of_false (hpanicked _ display) fun h => absurd h.1 (by decide))
  | activity =>
    obtain ⟨-, rfl⟩ := Option.ite_some_none_eq_some.1 hselect
    have hlooping : (t.setHost .server { t.host .server with
        activity := false, deadline := t.now + idle .server }).returned .server = false := by
      rw [returned, setHost_self]
      exact congrArg RelayState.isReturned hrelay
    rw [hlooping, control_setHost, Function.update_self]
    exact h
  | idle | shutdown =>
    obtain ⟨-, rfl⟩ := Option.ite_some_none_eq_some.1 hselect
    rw [hleave, if_pos rfl]
    exact reported_leave_of_ne (by decide) (by simp [RelayError.rejected])

end Tunnel

/-! ## The invariant -/

namespace RelayedSession

open Tunnel

variable {snow : Snow HS Key} {setup : Setup Addr} {S : Sealing Side} {idle : Side → ℕ}
  {x x' : RelayedSession Addr HS Key} {e : RelayedEvent}

/-- A session gets to its relay before that starts, and ends with what it returned. -/
structure Inv (x : RelayedSession Addr HS Key) : Prop where
  sane : x.tunnel.Sane
  ordered : (x.tunnel.control .server).Ordered
  enc : x.tunnel.status .server .enc ≠ .rejected
  reported : Reported x.left (x.tunnel.control .server)
  early : x.session.phase.isRelaying = false → x.session.phase.isOver = false →
    (x.tunnel.host .server).relay = .waiting
  ended : ∀ result, x.session.phase = .ended result →
    (∃ r, (x.tunnel.host .server).relay = .returned r ∧ result = r.mapError .relay) ∨
    ((x.tunnel.host .server).relay = .waiting ∨ (x.tunnel.host .server).relay = .skipped) ∧
      ∃ e, result = .error e ∧ ∀ r, e ≠ .relay r

theorem inv_initial : (initial : RelayedSession Addr HS Key).Inv :=
  ⟨(Tunnel.inv_initial (.tagged fun _ _ => 0)).sane, ordered_initial _, nofun, reported_initial,
    fun _ _ => rfl, nofun⟩

theorem Inv.session (h : x.Inv) {e : SessionEvent} (he : e.ofRelay = false)
    {session : ServerSession Addr HS Key} (hstep : x.session.step snow setup e = some session) :
    ({ x with session } : RelayedSession Addr HS Key).Inv := by
  obtain ⟨hrelaying, hover⟩ := ServerSession.step_phase he hstep
  have hwaiting := h.early hrelaying hover
  refine ⟨h.sane, h.ordered, h.enc, h.reported, fun _ _ => hwaiting, fun result hresult => ?_⟩
  exact .inr ⟨.inl hwaiting, ServerSession.step_ownEnd he hstep result hresult⟩

theorem Inv.finish (h : x.Inv) {result : Except RelayError Unit}
    (hrelay : (x.tunnel.host .server).relay = .returned result)
    {session : ServerSession Addr HS Key}
    (hstep : x.session.step snow setup (.relayEnd result) = some session) :
    ({ x with session } : RelayedSession Addr HS Key).Inv := by
  obtain rfl : x.session.goto (.ended (result.mapError .relay)) = session := by
    rw [ServerSession.step.eq_def] at hstep
    split at hstep <;> simp_all
  refine ⟨h.sane, h.ordered, h.enc, h.reported, fun _ hover => ?_, fun result' hresult => ?_⟩
  · cases hover
  · cases hresult
    exact .inl ⟨result, hrelay, rfl⟩

theorem leaving_of_not_select {e : TunnelEvent} {tunnel : Tunnel}
    (h : ∀ branch, e ≠ .select .server branch) : x.leaving (.tunnel e) tunnel = x.left := by
  cases e with
  | select s branch =>
    cases s with
    | client => rfl
    | server => exact absurd rfl (h branch)
  | _ => rfl

theorem Inv.tunnel (h : x.Inv) {e : TunnelEvent} (hadmits : x.Admits (.tunnel e) = true)
    {tunnel : Tunnel} (hstep : Tunnel.step S idle x.tunnel e = some tunnel) :
    ({ x with tunnel, left := x.leaving (.tunnel e) tunnel } : RelayedSession Addr HS Key).Inv := by
  have hcontrol := control_step h.sane hstep .server
  -- The relay is where it was, or has moved in its loop.
  have hstart : x.session.phase.isRelaying = false → e ≠ .start .server := by
    rintro hphase rfl
    rw [Admits, hphase] at hadmits
    cases hadmits
  have hwaiting : (x.tunnel.host .server).relay = .waiting → e ≠ .start .server →
      (tunnel.host .server).relay = .waiting ∨
        e = .skip .server ∧ (tunnel.host .server).relay = .skipped := by
    intro hw hne
    rcases hcontrol with heq | hmove
    · exact .inl ((congrArg Control.relay heq).trans hw)
    · exact hmove.relay_waiting hw hne
  have hover : (x.tunnel.host .server).relay.isReturned = true ∨
      (x.tunnel.host .server).relay = .skipped →
      (tunnel.host .server).relay = (x.tunnel.host .server).relay := by
    intro hover
    rcases hcontrol with heq | hmove
    · exact congrArg Control.relay heq
    · exact hmove.relay_over hover
  refine ⟨h.sane.step hstep, ?_, enc_step h.sane hstep h.enc, ?_, fun hrelaying hphase => ?_,
    fun result hresult => ?_⟩
  · rcases hcontrol with heq | hmove
    · rw [heq]
      exact h.ordered
    · exact h.ordered.move hmove
  · by_cases hselect : ∃ branch, e = .select .server branch
    · obtain ⟨branch, rfl⟩ := hselect
      obtain ⟨requestComplete, hrelay, hselect⟩ := exists_of_select hstep
      have hleft : x.left = none := h.reported.looping (congrArg RelayState.isReturned hrelay)
      have hreported := reported_select (hleft ▸ h.reported) hrelay h.enc hselect
      rwa [leaving, hleft]
    · push Not at hselect
      rw [leaving_of_not_select hselect]
      rcases hcontrol with heq | hmove
      · rw [heq]
        exact h.reported
      · exact h.reported.move h.ordered hmove hselect
  · rcases hwaiting (h.early hrelaying hphase) (hstart hrelaying) with hw | ⟨rfl, -⟩
    · exact hw
    · rw [Admits, hphase] at hadmits
      cases hadmits
  · have hphase : x.session.phase.isRelaying = false := by
      rw [hresult]
      rfl
    rcases h.ended result hresult with ⟨r, hr, rfl⟩ | ⟨hw | hs, hown⟩
    · exact .inl ⟨r, (hover (.inl (by rw [hr]; rfl))).trans hr, rfl⟩
    · exact .inr ⟨(hwaiting hw (hstart hphase)).imp_right And.right, hown⟩
    · exact .inr ⟨.inr ((hover (.inr hs)).trans hs), hown⟩

/-- What the network does on the wires is no matter of session and relay. -/
theorem Inv.tamper (h : x.Inv) (s : Side) (wire : Pipe UInt8) :
    ({ x with tunnel := x.tunnel.setLane s { x.tunnel.lane s with wire } } :
      RelayedSession Addr HS Key).Inv := by
  have hcontrol := control_tamper (s := .server) x.tunnel s wire
  refine ⟨h.sane, hcontrol ▸ h.ordered, ?_, hcontrol ▸ h.reported, h.early, h.ended⟩
  exact (congrFun (congrArg Control.status hcontrol) .enc).trans_ne h.enc

theorem Inv.step (h : x.Inv) (hstep : x.step snow setup S idle e = some x') : x'.Inv := by
  cases e with
  | session e =>
    obtain ⟨he, hstep⟩ := Option.ite_none_left_eq_some.1 hstep
    obtain ⟨session, hsession, rfl⟩ := Option.map_eq_some_iff.1 hstep
    exact h.session (Bool.eq_false_iff.2 he) hsession
  | tunnel e =>
    rw [RelayedSession.step] at hstep
    split at hstep
    · rename_i hadmits
      obtain ⟨tunnel, htunnel, rfl⟩ := Option.map_eq_some_iff.1 hstep
      cases e with
      | tunnel e => exact h.tunnel hadmits htunnel
      | tamper s wire =>
        cases htunnel
        exact h.tamper s wire
    · cases hstep
  | finish =>
    rw [RelayedSession.step] at hstep
    split at hstep
    · rename_i result hrelay
      obtain ⟨session, hsession, rfl⟩ := Option.map_eq_some_iff.1 hstep
      exact h.finish hrelay hsession
    · cases hstep

theorem inv_of_reachable
    (h : (relayedSession snow setup S idle).Reachable EventSystem.always x) : x.Inv := by
  refine h.invariant ?_ fun _ hinv _ hstep => hinv.step hstep
  rintro x rfl
  exact inv_initial

/-- A run of both is a run of the session, and one of the tunnel. -/
theorem parts_of_reachable
    (h : (relayedSession snow setup S idle).Reachable EventSystem.always x) :
    (serverSession snow setup).Reachable EventSystem.always x.session ∧
      (tampered S idle).Reachable EventSystem.always x.tunnel := by
  induction h with
  | init hinit =>
    cases hinit
    exact ⟨.init rfl, .init rfl⟩
  | @step y y' e _ _ hstep ih =>
  obtain ⟨hsession, htunnel⟩ := ih
  change y.step snow setup S idle e = some y' at hstep
  cases e with
  | session e =>
    obtain ⟨-, hstep⟩ := Option.ite_none_left_eq_some.1 hstep
    obtain ⟨session, hs, rfl⟩ := Option.map_eq_some_iff.1 hstep
    exact ⟨.step hsession trivial hs, htunnel⟩
  | tunnel e =>
    obtain ⟨-, hstep⟩ := Option.ite_none_right_eq_some.1 hstep
    obtain ⟨tunnel, ht, rfl⟩ := Option.map_eq_some_iff.1 hstep
    exact ⟨hsession, .step htunnel trivial ht⟩
  | finish =>
    rw [RelayedSession.step] at hstep
    split at hstep
    · obtain ⟨session, hs, rfl⟩ := Option.map_eq_some_iff.1 hstep
      exact ⟨.step hsession trivial hs, htunnel⟩
    · cases hstep

/-! ## What is accounted for -/

/-- A session that ended before its relay has no rejected record. -/
theorem Inv.not_rejected (h : x.Inv) (hrelay : (x.tunnel.host .server).relay = .waiting ∨
    (x.tunnel.host .server).relay = .skipped) : x.rejected = false := by
  rw [rejected, decide_eq_false_iff_not]
  intro hrejected
  rcases hrelay with hw | hs
  · have habsent : x.tunnel.status .server .dec = .absent := (h.ordered.waiting hw .dec).1
    exact absurd (habsent.symm.trans hrejected) nofun
  · have hnever : x.tunnel.status .server .dec = .ended .never := h.reported.skipped hs
    exact absurd (hnever.symm.trans hrejected) (by simp [Status.rejected])

/-- A rejected record is hidden exactly if the relay has returned something else. -/
theorem Inv.hidden_iff (h : x.Inv) {result : Except RelayError Unit}
    (hrelay : (x.tunnel.host .server).relay = .returned result) :
    x.Hidden ↔ x.rejected = true ∧ result ≠ .error .rejected := by
  refine and_congr_right fun hrejected => not_congr ?_
  rw [rejected, decide_eq_true_iff] at hrejected
  rw [h.reported.returned result hrelay]
  exact ⟨fun hleft => ⟨hleft, hrejected⟩, And.left⟩

theorem told_of_hidden (h : x.Hidden) {e : RelayError} :
    x.Told (.error (.relay e)) ↔ e.Chance := by
  refine (Iff.of_eq (if_pos h)).trans ⟨?_, fun hchance => ⟨e, rfl, hchance⟩⟩
  rintro ⟨r, hr, hchance⟩
  exact SessionError.relay.inj hr ▸ hchance

theorem told_of_not_hidden (h : ¬x.Hidden) {e : SessionError} : x.Told (.error e) ↔ e.Told :=
  Iff.of_eq (if_neg h)

end RelayedSession

theorem SessionError.rejection_relay (e : RelayError) :
    (SessionError.relay e).rejection = decide (e = .rejected) := by
  by_cases he : e = .rejected
  · subst he
    rfl
  · rw [decide_eq_false he, rejection.eq_def]
    split
    · rename_i heq
      exact absurd (SessionError.relay.inj heq) he
    · rfl

open RelayedSession in
/-- A session is accounted for exactly if it is told for what it is. -/
theorem failure_accounting {snow : Snow HS Key} {setup : Setup Addr} {S : Sealing Side}
    {idle : Side → ℕ} {x : RelayedSession Addr HS Key} {result : Except SessionError Unit}
    (h : (relayedSession snow setup S idle).Reachable EventSystem.always x)
    (hended : x.session.phase = .ended result) (m : TunnelMetrics) (id bytesIn bytesOut : UInt64)
    (elapsed : ℕ) :
    Accounted x.rejected result (finishReason (result.mapError (·.chain))) m
        (finishConnection m ⟨id, x.session.handshakeSucceeded, bytesIn, bytesOut⟩
          (result.mapError (·.chain)) elapsed) ↔
      x.Told result := by
  have hinv := inv_of_reachable h
  rcases hinv.ended result hended with ⟨result, hrelay, rfl⟩ | ⟨hrelay, e, rfl, he⟩
  · -- The session ended with what its relay returned.
    have hhidden := hinv.hidden_iff hrelay
    have hreported := hinv.reported.returned result hrelay
    cases result with
    | ok u =>
      have hvisible : x.Told (.ok ()) ↔ ¬(x.rejected = true) := by
        refine (not_congr hhidden).trans (not_congr (and_iff_left ?_))
        simp
      exact accounted_ok.trans (Bool.not_eq_true _ ▸ hvisible.symm)
    | error e =>
      refine accounted_error.trans ?_
      by_cases hhid : x.Hidden
      · rw [hhid.1]
        exact (named_hidden e).trans (told_of_hidden hhid).symm
      · -- The relay reports a rejected record exactly if there is one.
        have hrejection : x.rejected = (SessionError.relay e).rejection := by
          rw [SessionError.rejection_relay, rejected, decide_eq_decide]
          constructor
          · intro hrejected
            by_contra hne
            refine hhid (hhidden.2 ⟨decide_eq_true hrejected, ?_⟩)
            simpa using hne
          · rintro rfl
            exact (hreported.1 rfl).2
        rw [hrejection]
        exact (named_iff_told (.relay e)).trans (told_of_not_hidden hhid).symm
  · have hrejected := hinv.not_rejected hrelay
    have hvisible : ¬x.Hidden := fun hhidden => by
      rw [Hidden, hrejected] at hhidden
      cases hhidden.1
    have hrejection : e.rejection = false := by
      cases e with
      | relay r => exact absurd rfl (he r)
      | _ => rfl
    rw [hrejected, ← hrejection]
    exact accounted_error.trans ((named_iff_told e).trans (told_of_not_hidden hvisible).symm)

/-- The server opens a record that no one sealed. If its relay leaves by the branch of
    the inbound task, the session is accounted for as a decrypt failure. If meanwhile its
    destination has answered, and the relay leaves by that of the outbound task, it is not. -/
theorem failure_accounting_rejected :
    let key (b : UInt8) : StaticKey := ⟨List.replicate 32 b, List.length_replicate⟩
    let snow : Snow Bytes Unit := ⟨fun _ _ => .error .decrypt, fun _ => .ok [],
      fun s => .ok (⟨[8], by decide⟩, s), fun _ message => .ok (message ++ message), some,
      fun _ => .ok (.fresh () ())⟩
    let setup : Setup ℕ := ⟨false, .ok [key 1], .ok [key 7], 9⟩
    let system := relayedSession snow setup (.tagged fun _ nonce => UInt8.ofNat nonce) fun _ => 300
    let accounted (x : RelayedSession ℕ Bytes Unit) (e : RelayError) : Prop :=
      Accounted true (.error (.relay e)) (finishReason (.error e.chain)) .default
        (finishConnection .default ⟨1, x.session.handshakeSucceeded, 0, 0⟩ (.error e.chain) 5)
    (∃ x, system.Reachable EventSystem.always x ∧ x.rejected = true ∧
      x.session.phase = .ended (.error (.relay .rejected)) ∧ accounted x .rejected) ∧
    ∃ x, system.Reachable EventSystem.always x ∧ x.rejected = true ∧
      x.session.phase = .ended (.error (.relay (.copy (.tunnel .closedSession)))) ∧
      ¬accounted x (.copy (.tunnel .closedSession)) := by
  intro key snow setup system accounted
  let first : Bytes := [0, 16] ++ List.replicate 16 7
  let session : List SessionEvent := [.proceed, .proceed, .read prefaceBytes,
    .read (first.take 2), .read (first.drop 2), .write 3, .proceed, .proceed, .proceed, .proceed]
  let start : List TunnelEvent := [.start .server, .poll .server .dec]
  let record : List TunnelEvent := [.task .server .dec (.read 1), .task .server .dec (.read 3),
    .task .server .dec (.read 17)]
  let reported : List RelayedEvent := session.map .session ++ start.map (.tunnel ∘ .tunnel) ++
    .tunnel (.tamper .client (Pipe.empty.write forged)) :: record.map (.tunnel ∘ .tunnel) ++
    [.tunnel (.tunnel (.select .server .request)), .finish]
  let answer : List TunnelEvent := [.write .server [7], .poll .server .enc,
    .task .server .enc (.read 1), .select .server .response]
  let hidden : List RelayedEvent := session.map .session ++ start.map (.tunnel ∘ .tunnel) ++
    .tunnel (.tamper .client (Pipe.empty.write forged)) ::
      (record ++ answer).map (.tunnel ∘ .tunnel) ++ [.finish]
  have hrun : ∀ es result, ((system.run EventSystem.always .initial es).bind
      fun x => x.session.phase.result?) = some result → ∃ x,
        system.Reachable EventSystem.always x ∧ x.session.phase = .ended result ∧
        system.run EventSystem.always .initial es = some x := by
    intro es result hes
    obtain ⟨x, hx, hresult⟩ := Option.bind_eq_some_iff.1 hes
    exact ⟨x, EventSystem.reachable_of_run rfl hx, SessionPhase.ended_of_result? hresult, hx⟩
  obtain ⟨x, hx, hended, hreported⟩ := hrun reported (.error (.relay .rejected))
    (by decide +kernel)
  obtain ⟨y, hy, hended', hhidden⟩ := hrun hidden (.error (.relay (.copy (.tunnel .closedSession))))
    (by decide +kernel)
  have hx' : x.rejected = true ∧ ¬x.Hidden := by
    have hall : ∀ x ∈ system.run EventSystem.always .initial reported,
        x.rejected = true ∧ ¬x.Hidden := by decide +kernel
    exact hall x hreported
  have hy' : y.rejected = true ∧ y.Hidden := by
    have hall : ∀ x ∈ system.run EventSystem.always .initial hidden,
        x.rejected = true ∧ x.Hidden := by decide +kernel
    exact hall y hhidden
  refine ⟨⟨x, hx, hx'.1, hended, ?_⟩, y, hy, hy'.1, hended', fun haccounted => ?_⟩
  · have htold : x.Told (.error (.relay .rejected)) :=
      (RelayedSession.told_of_not_hidden hx'.2).2 (.inl rfl)
    have haccounted := (failure_accounting hx hended .default 1 0 0 5).2 htold
    rwa [hx'.1] at haccounted
  · have htold : y.Told (.error (.relay (.copy (.tunnel .closedSession)))) := by
      refine (failure_accounting hy hended' .default 1 0 0 5).1 ?_
      rw [hy'.1]
      exact haccounted
    obtain ⟨-, -, -, hsuggested⟩ := (RelayedSession.told_of_hidden hy'.2).1 htold
    exact not_suggested_nil hsuggested

/-- No rejected client is counted as one: the text of the error is `client static
    key is not authorised`, and what is looked for is `unauthorised client`. -/
theorem unauthorised_not_counted :
    let key (b : UInt8) : StaticKey := ⟨List.replicate 32 b, List.length_replicate⟩
    let snow : Snow Bytes Unit := ⟨fun _ _ => .error .decrypt, fun _ => .ok [],
      fun s => .ok (⟨[8], by decide⟩, s), fun _ message => .ok (message ++ message), some,
      fun _ => .ok (.fresh () ())⟩
    let setup : Setup ℕ := ⟨false, .ok [key 1], .ok [key 7], 9⟩
    let system := relayedSession snow setup (.tagged fun _ nonce => UInt8.ofNat nonce) fun _ => 300
    let e : SessionError := .receiveClient .unauthorisedClient
    ∃ x, system.Reachable EventSystem.always x ∧ x.session.phase = .ended (.error e) ∧
      (finishConnection .default ⟨1, x.session.handshakeSucceeded, 0, 0⟩ (.error e.chain) 5).count
        .unauthorizedClientTotal = 0 ∧
      ¬Accounted x.rejected (.error e) (finishReason (.error e.chain)) .default
        (finishConnection .default ⟨1, x.session.handshakeSucceeded, 0, 0⟩ (.error e.chain) 5) := by
  intro key snow setup system e
  let first : Bytes := [0, 16] ++ List.replicate 16 6
  let x := (system.run EventSystem.always .initial ([.proceed, .proceed, .read prefaceBytes,
    .read (first.take 2), .read (first.drop 2)].map .session)).get (by decide +kernel)
  have hreach : system.Reachable EventSystem.always x :=
    EventSystem.reachable_of_run rfl (Option.some_get _).symm
  have hcount : (finishConnection .default ⟨1, x.session.handshakeSucceeded, 0, 0⟩
      (.error e.chain) 5).count .unauthorizedClientTotal = 0 := by decide +kernel
  refine ⟨x, hreach, rfl, hcount, fun h => ?_⟩
  have hone := h.unauthorised
  rw [hcount] at hone
  exact absurd hone (by decide +kernel)

end SecureTunnel
