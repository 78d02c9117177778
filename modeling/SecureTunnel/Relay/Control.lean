import SecureTunnel.Relay.Tunnel

/-!
# A relay and its tasks

What a host's relay does depends on its tasks only through their status, and a
task ends on its own or through its relay. The *control state* of a host is
this part of a tunnel: its relay, and the status of its two tasks.

* `Tunnel.control_step`: an event changes the control state of at most one host,
  and `Control.Move` is all that it can do to it.
* `Control.Ordered`: tasks exist once the relay has started, and nothing disturbs
  them while it is in its loop.
* `Tunnel.sound_of_reachable`: the bytes of both directions are accounted for, in
  every reachable state.
-/

namespace SecureTunnel

/-- The control state of a host: its relay, and of each task the status and
    whether its abortion was requested. -/
structure Control where
  relay : RelayState
  status : Role → Status
  aborting : Role → Bool

namespace Control

/-- The status of a task changes. -/
def set (c : Control) (role : Role) (status : Status) : Control :=
  { c with status := Function.update c.status role status }

@[simp] theorem set_status_self (c : Control) (role : Role) (status : Status) :
    (c.set role status).status role = status := by
  simp only [set, Function.update_self]

theorem set_status_of_ne (c : Control) {role role' : Role} (h : role' ≠ role) (status : Status) :
    (c.set role status).status role' = c.status role' := by
  simp only [set, Function.update_of_ne h]

/-- Why a relay leaves its loop by `break`. -/
inductive Leaves (s : Side) (c : Control) (requestComplete : Bool) : Branch → Prop
  | request {e : CopyError} : requestComplete = false →
      c.status (.request s) = .ended (.returned (.error e)) → Leaves s c requestComplete .request
  | response {result : Except CopyError Unit} :
      c.status (.response s) = .ended (.returned result) → Leaves s c requestComplete .response
  | idle : Leaves s c requestComplete .idle
  | shutdown : Leaves s c requestComplete .shutdown

/-- A `JoinHandle` of the branch is ready with a `JoinError`. -/
inductive Unwinds (s : Side) (c : Control) (requestComplete : Bool) : Branch → Role → Prop
  | request {o : JoinOutcome} : requestComplete = false → c.status (.request s) = .ended o →
      (∀ result, o ≠ .returned result) → o ≠ .never →
      Unwinds s c requestComplete .request (.request s)
  | response {o : JoinOutcome} : c.status (.response s) = .ended o →
      (∀ result, o ≠ .returned result) → o ≠ .never →
      Unwinds s c requestComplete .response (.response s)

/-- All that an event can do to the control state of a host it concerns. -/
inductive Move (s : Side) (c : Control) : TunnelEvent → Control → Prop
  | start : c.relay = .waiting →
      Move s c (.start s) { c with relay := .selecting false, status := fun _ => .parked }
  | skip : c.relay = .waiting →
      Move s c (.skip s) { c with relay := .skipped, status := fun _ => .ended .never }
  | poll {role : Role} : c.status role = .parked → c.aborting role = false →
      Move s c (.poll s role) (c.set role .running)
  | task {role : Role} {op : Op} {status : Status} : c.status role = .running →
      (status = .running ∨ ∃ result, status = .ended (.returned result)) →
      Move s c (.task s role op) (c.set role status)
  | yield {role : Role} : c.status role = .running →
      Move s c (.yield s role) (c.set role .parked)
  | cancel {role : Role} {display : Text} : c.status role = .parked → c.aborting role = true →
      Move s c (.cancel s role display) (c.set role (.ended (.cancelled display)))
  | panic {role : Role} {display : Text} : c.status role = .running →
      Move s c (.panic s role display) (c.set role (.ended (.panicked display)))
  /-- The request task has returned `Ok`, and the relay waits for the response. -/
  | goOn : c.relay = .selecting false → c.status (.request s) = .ended (.returned (.ok ())) →
      Move s c (.select s .request) { c with relay := .selecting true }
  | leave {requestComplete : Bool} {branch : Branch} {result : Except RelayError Unit} :
      c.relay = .selecting requestComplete → c.Leaves s requestComplete branch →
      Move s c (.select s branch) { c with relay := .returned result, aborting := fun _ => true }
  | unwind {requestComplete : Bool} {branch : Branch} {role : Role} {e : RelayError} :
      c.relay = .selecting requestComplete → c.Unwinds s requestComplete branch role →
      Move s c (.select s branch) { c with relay := .returned (.error e) }

end Control

namespace Tunnel

variable {S : Sealing Side} {idle : Side → ℕ} {t t' : Tunnel} {s s' : Side} {e : TunnelEvent}
  {c : Control}

def control (t : Tunnel) (s : Side) : Control where
  relay := (t.host s).relay
  status := t.status s
  aborting role := (t.lane (role.lane s)).aborting role

/-- The tasks other than the one that a direction's change is about. -/
theorem lane_setLane {α : Type} (f : Lane → Role → α) {role role' : Role} {l : Lane}
    (hsame : ∀ r, r ≠ role → f l r = f (t.lane (role.lane s)) r)
    (hne : ¬(s' = s ∧ role' = role)) :
    f ((t.setLane (role.lane s) l).lane (role'.lane s')) role' =
      f (t.lane (role'.lane s')) role' := by
  by_cases hlane : role'.lane s' = role.lane s
  · have hrole : role' ≠ role := by
      rintro rfl
      exact hne ⟨role'.lane_injective hlane, rfl⟩
    rw [hlane, setLane_self, hsame role' hrole]
  · rw [setLane_of_ne t hlane]

/-- A change of one task of a direction changes the control state of one host. -/
theorem control_setLane {role : Role} {l : Lane}
    (hstatus : ∀ r, r ≠ role → l.status r = (t.lane (role.lane s)).status r)
    (haborting : ∀ r, r ≠ role → l.aborting r = (t.lane (role.lane s)).aborting r) :
    (t.setLane (role.lane s) l).control = Function.update t.control s
      { t.control s with
        status := Function.update (t.control s).status role (l.status role)
        aborting := Function.update (t.control s).aborting role (l.aborting role) } := by
  funext s'
  rcases eq_or_ne s' s with rfl | hne
  · rw [Function.update_self, control, Control.mk.injEq]
    refine ⟨rfl, funext fun role' => ?_, funext fun role' => ?_⟩
    · rcases eq_or_ne role' role with rfl | hrole
      · rw [Function.update_self, status, setLane_self]
      · rw [Function.update_of_ne hrole]
        exact lane_setLane Lane.status hstatus fun h => hrole h.2
    · rcases eq_or_ne role' role with rfl | hrole
      · rw [Function.update_self, setLane_self]
      · rw [Function.update_of_ne hrole]
        exact lane_setLane Lane.aborting haborting fun h => hrole h.2
  · rw [Function.update_of_ne hne, control, Control.mk.injEq]
    exact ⟨rfl, funext fun _ => lane_setLane Lane.status hstatus fun h => hne h.1,
      funext fun _ => lane_setLane Lane.aborting haborting fun h => hne h.1⟩

/-- A change of a direction that leaves its tasks alone. -/
theorem control_setLane_of_tasks {l : Lane} (henc : l.enc = (t.lane s).enc)
    (hdec : l.dec = (t.lane s).dec) : (t.setLane s l).control = t.control := by
  have hlane : ∀ s' role, ((t.setLane s l).lane s').status role = (t.lane s').status role ∧
      ((t.setLane s l).lane s').aborting role = (t.lane s').aborting role := by
    intro s' role
    rcases eq_or_ne s' s with rfl | hne
    · rw [setLane_self]
      cases role <;> simp [Lane.status, Lane.aborting, henc, hdec]
    · rw [setLane_of_ne t hne]
      exact ⟨rfl, rfl⟩
  funext s'
  rw [control, Control.mk.injEq]
  exact ⟨rfl, funext fun role => (hlane _ role).1, funext fun role => (hlane _ role).2⟩

theorem control_setHost {h : Host} : (t.setHost s h).control =
    Function.update t.control s { t.control s with relay := h.relay } := by
  funext s'
  rcases eq_or_ne s' s with rfl | hne
  · rw [Function.update_self, control, setHost_self]
    rfl
  · rw [Function.update_of_ne hne, control, setHost_of_ne t hne]
    rfl

/-- A change of a host that leaves its relay where it is. -/
theorem control_setHost_of_relay {h : Host} (hrelay : h.relay = (t.host s).relay) :
    (t.setHost s h).control = t.control := by
  rw [control_setHost, hrelay]
  exact Function.update_eq_self _ _

theorem control_setStatus (role : Role) (status : Status) : (t.setStatus s role status).control =
    Function.update t.control s ((t.control s).set role status) := by
  rw [setStatus, control_setLane (fun r hr => Lane.status_setStatus_of_ne _ _ hr)
    (fun r _ => Lane.aborting_setStatus ..), Lane.status_setStatus, Lane.aborting_setStatus]
  congr 1
  rw [Control.set, Control.mk.injEq]
  exact ⟨rfl, rfl, Function.update_eq_self _ _⟩

/-- Both tasks of a host, and its relay, change together. -/
theorem control_setBoth {h : Host} (status : Status) :
    (((t.setStatus s .enc status).setStatus s .dec status).setHost s h).control =
      Function.update t.control s ⟨h.relay, fun _ => status, (t.control s).aborting⟩ := by
  rw [control_setHost, control_setStatus, control_setStatus, Function.update_self,
    Function.update_self, Function.update_idem, Function.update_idem]
  congr 1
  rw [Control.set, Control.set, Control.mk.injEq]
  refine ⟨rfl, funext fun role => ?_, rfl⟩
  cases role <;> rfl

theorem control_abort (role : Role) : (t.abort s role).control =
    Function.update t.control s
      { t.control s with aborting := Function.update (t.control s).aborting role true } := by
  rw [abort, control_setLane (fun r _ => Lane.status_abort ..)
    (fun r hr => Lane.aborting_abort_of_ne _ hr), Lane.status_abort, Lane.aborting_abort]
  congr 1
  rw [Control.mk.injEq]
  exact ⟨rfl, Function.update_eq_self _ _, rfl⟩

theorem control_goto (relay : RelayState) : (t.goto s relay).control =
    Function.update t.control s { t.control s with relay } :=
  control_setHost

theorem control_leave (result : Except RelayError Unit) : (t.leave s result).control =
    Function.update t.control s
      { t.control s with relay := .returned result, aborting := fun _ => true } := by
  rw [leave, control_goto, control_abort, control_abort, Function.update_self,
    Function.update_self, Function.update_idem, Function.update_idem]
  congr 1
  rw [Control.mk.injEq]
  refine ⟨rfl, rfl, funext fun role => ?_⟩
  cases role <;> rfl

/-! ## Moves -/

theorem moved (hcontrol : t'.control = Function.update t.control s c)
    (hmove : Control.Move s (t.control s) e c) (s' : Side) :
    t'.control s' = t.control s' ∨ Control.Move s' (t.control s') e (t'.control s') := by
  rw [hcontrol]
  rcases eq_or_ne s' s with rfl | hne
  · rw [Function.update_self]
    exact .inr hmove
  · rw [Function.update_of_ne hne]
    exact .inl rfl

theorem joined_cases {role : Role} {goOn : Tunnel} (h : t.joined s role goOn = some t') :
    (t.status s role = .ended (.returned (.ok ())) ∧ t' = goOn) ∨
    (∃ e, t.status s role = .ended (.returned (.error e)) ∧ t' = t.leave s (.error (.copy e))) ∨
    ∃ o display, t.status s role = .ended o ∧ (∀ result, o ≠ .returned result) ∧ o ≠ .never ∧
      t' = t.goto s (.returned (.error (.panicked (role.context s) display))) := by
  rw [joined] at h
  split at h
  · rename_i hstatus
    cases h
    exact .inl ⟨hstatus, rfl⟩
  · rename_i e hstatus
    cases h
    exact .inr (.inl ⟨e, hstatus, rfl⟩)
  · rename_i display hstatus
    cases h
    exact .inr (.inr ⟨_, _, hstatus, by simp, by simp, rfl⟩)
  · rename_i display hstatus
    cases h
    exact .inr (.inr ⟨_, _, hstatus, by simp, by simp, rfl⟩)
  · cases h

/-- All that a branch of the loop can do to the control state of its host. -/
theorem select_move {requestComplete : Bool} {branch : Branch}
    (hrelay : (t.host s).relay = .selecting requestComplete)
    (h : t.select idle s requestComplete branch = some t') :
    t'.control = t.control ∨ ∃ c, t'.control = Function.update t.control s c ∧
      Control.Move s (t.control s) (.select s branch) c := by
  cases branch with
  | request =>
    rw [select] at h
    split at h
    · cases h
    · rename_i hrc
      obtain rfl : requestComplete = false := by simpa using hrc
      -- The task returned `Ok`, or an error, or was cancelled or panicked.
      rcases joined_cases h with ⟨hok, rfl⟩ | ⟨e, he, rfl⟩ | ⟨o, e, ho, hreturned, hnever, rfl⟩
      · exact .inr ⟨_, control_goto _, .goOn hrelay hok⟩
      · exact .inr ⟨_, control_leave _, .leave hrelay (.request rfl he)⟩
      · exact .inr ⟨_, control_goto _, .unwind hrelay (.request rfl ho hreturned hnever)⟩
  | response =>
    rcases joined_cases h with ⟨hok, rfl⟩ | ⟨e, he, rfl⟩ | ⟨o, e, ho, hreturned, hnever, rfl⟩
    · exact .inr ⟨_, control_leave _, .leave hrelay (.response hok)⟩
    · exact .inr ⟨_, control_leave _, .leave hrelay (.response he)⟩
    · exact .inr ⟨_, control_goto _, .unwind hrelay (.response ho hreturned hnever)⟩
  | activity =>
    rw [select] at h
    split at h
    · cases h
      exact .inl (control_setHost_of_relay rfl)
    · cases h
  | idle =>
    rw [select] at h
    split at h
    · cases h
      exact .inr ⟨_, control_leave _, .leave hrelay .idle⟩
    · cases h
  | shutdown =>
    rw [select] at h
    split at h
    · cases h
      exact .inr ⟨_, control_leave _, .leave hrelay .shutdown⟩
    · cases h

theorem task_move (hsane : t.Sane) {role : Role} {op : Op}
    (h : t.taskStep S s role op = some t') :
    ∃ c, t'.control = Function.update t.control s c ∧
      Control.Move s (t.control s) (.task s role op) c := by
  obtain ⟨⟨l, cell, notice⟩, hl, rfl⟩ := Option.map_eq_some_iff.1 h
  -- The other task of the direction belongs to the other host.
  have htasks : t.status s role = .running ∧
      (∀ r, r ≠ role → l.status r = (t.lane (role.lane s)).status r) ∧
      (∀ r, l.aborting r = (t.lane (role.lane s)).aborting r) ∧
      (l.status role = .running ∨ ∃ result, l.status role = .ended (.returned result)) := by
    cases role with
    | enc =>
      obtain ⟨hrun, hmove⟩ := encStep_cases (hsane s) hl
      obtain ⟨hdec, haborting, hstatus⟩ := hmove.tasks hrun
      refine ⟨hrun, fun r hr => ?_, fun r => ?_, hstatus⟩
      · cases r with
        | enc => exact absurd rfl hr
        | dec => exact congrArg Task.status hdec
      · cases r with
        | enc => exact haborting
        | dec => exact congrArg Task.aborting hdec
    | dec =>
      obtain ⟨hrun, hmove⟩ := decStep_cases (hsane s) hl
      obtain ⟨henc, haborting, hstatus⟩ := hmove.tasks hrun
      refine ⟨hrun, fun r hr => ?_, fun r => ?_, hstatus⟩
      · cases r with
        | enc => exact congrArg Task.status henc
        | dec => exact absurd rfl hr
      · cases r with
        | enc => exact congrArg Task.aborting henc
        | dec => exact haborting
  obtain ⟨hrun, hother, haborting, hstatus⟩ := htasks
  refine ⟨_, ?_, .task hrun hstatus⟩
  rw [control_setHost, control_setLane hother fun r _ => haborting r, Function.update_self,
    Function.update_idem, haborting role]
  congr 1
  rw [Control.set, Control.mk.injEq]
  exact ⟨rfl, rfl, Function.update_eq_self _ _⟩

/-- An event changes the control state of at most one host. -/
theorem control_step (hsane : t.Sane) (h : step S idle t e = some t') (s' : Side) :
    t'.control s' = t.control s' ∨ Control.Move s' (t.control s') e (t'.control s') := by
  have hsame : t'.control = t.control →
      t'.control s' = t.control s' ∨ Control.Move s' (t.control s') e (t'.control s') :=
    fun heq => .inl (congrFun heq s')
  cases e with
  | start s =>
    obtain ⟨hrelay, rfl⟩ := Option.ite_some_none_eq_some.1 h
    exact moved (control_setBoth _) (.start hrelay) s'
  | skip s =>
    obtain ⟨hrelay, rfl⟩ := Option.ite_some_none_eq_some.1 h
    exact moved (control_setBoth _) (.skip hrelay) s'
  | poll s role =>
    obtain ⟨⟨hparked, haborting⟩, rfl⟩ := Option.ite_some_none_eq_some.1 h
    exact moved (control_setStatus ..) (.poll hparked haborting) s'
  | task s role op =>
    obtain ⟨c, hc, hmove⟩ := task_move hsane h
    exact moved hc hmove s'
  | yield s role =>
    obtain ⟨hrun, rfl⟩ := Option.ite_some_none_eq_some.1 h
    exact moved (control_setStatus ..) (.yield hrun) s'
  | cancel s role display =>
    obtain ⟨⟨hparked, haborting⟩, rfl⟩ := Option.ite_some_none_eq_some.1 h
    exact moved (control_setStatus ..) (.cancel hparked haborting) s'
  | panic s role display =>
    obtain ⟨hrun, rfl⟩ := Option.ite_some_none_eq_some.1 h
    exact moved (control_setStatus ..) (.panic hrun) s'
  | select s branch =>
    obtain ⟨requestComplete, hrelay, hselect⟩ := exists_of_select h
    rcases select_move hrelay hselect with heq | ⟨c, hc, hmove⟩
    · exact hsame heq
    · exact moved hc hmove s'
  | signal s =>
    cases h
    exact hsame (control_setHost_of_relay rfl)
  | tick =>
    cases h
    exact hsame rfl
  | drop s =>
    obtain ⟨-, rfl⟩ := Option.ite_some_none_eq_some.1 h
    refine hsame (Eq.trans (control_setHost_of_relay ?_) (control_setLane_of_tasks ?_ ?_)) <;> rfl
  | write s bytes =>
    obtain ⟨-, rfl⟩ := open_of_write h
    exact hsame (control_setLane_of_tasks rfl rfl)
  | finish s =>
    cases h
    exact hsame (control_setLane_of_tasks rfl rfl)
  | close s =>
    cases h
    refine hsame (Eq.trans (control_setHost_of_relay ?_) (control_setLane_of_tasks ?_ ?_)) <;> rfl
  | cut s n =>
    cases h
    exact hsame (control_setLane_of_tasks rfl rfl)

end Tunnel

/-! ## Directions -/

namespace Tunnel

/-- All that an event can do to a direction. -/
inductive LaneMove (S : Sealing Side) (t : Tunnel) (r : Side) : TunnelEvent → Lane → Prop
  /-- At most the status of its tasks changes. -/
  | tasks {e : TunnelEvent} (enc dec : Status) (encAborting decAborting : Bool) :
      LaneMove S t r e
        { t.lane r with
          enc := ⟨(t.lane r).enc.phase, enc, encAborting⟩
          dec := ⟨(t.lane r).dec.phase, dec, decAborting⟩ }
  | enc {op : Op} {l : Lane} {cell : Cell Side} {notice : Bool} :
      (t.lane r).enc.status = .running →
      EncMove S (t.host r).cell (t.lane r) op l cell notice → LaneMove S t r (.task r .enc op) l
  | dec {op : Op} {l : Lane} {cell : Cell Side} {notice : Bool} :
      (t.lane r).dec.status = .running →
      DecMove (fun s => (t.lane s).sealed) (t.host r.peer).cell (t.lane r) op l cell notice →
      LaneMove S t r (.task r.peer .dec op) l
  | write {bytes : Bytes} : (t.lane r).source.ended = false →
      LaneMove S t r (.write r bytes) { t.lane r with source := (t.lane r).source.write bytes }
  | finish : LaneMove S t r (.finish r) { t.lane r with source := (t.lane r).source.close }
  | close : LaneMove S t r (.close r) { t.lane r with source := (t.lane r).source.close }
  | drop : (t.status r .enc).isEnded = true →
      LaneMove S t r (.drop r) { t.lane r with wire := (t.lane r).wire.close }
  | cut {n : ℕ} : LaneMove S t r (.cut r n) { t.lane r with wire := (t.lane r).wire.sever n }

variable {S : Sealing Side} {idle : Side → ℕ} {t t' : Tunnel} {r s : Side} {e : TunnelEvent}

/-- Nothing but the status of tasks changes. -/
def SameLanes (t t' : Tunnel) : Prop :=
  ∀ r, ∃ enc dec encAborting decAborting, t'.lane r =
    { t.lane r with
      enc := ⟨(t.lane r).enc.phase, enc, encAborting⟩
      dec := ⟨(t.lane r).dec.phase, dec, decAborting⟩ }

theorem SameLanes.refl (t : Tunnel) : t.SameLanes t := fun _ => ⟨_, _, _, _, rfl⟩

theorem SameLanes.trans {t'' : Tunnel} (h : t.SameLanes t') (h' : t'.SameLanes t'') :
    t.SameLanes t'' := by
  intro r
  obtain ⟨_, _, _, _, heq⟩ := h r
  obtain ⟨enc, dec, a, b, heq'⟩ := h' r
  refine ⟨enc, dec, a, b, ?_⟩
  rw [heq', heq]

theorem sameLanes_setStatus (t : Tunnel) (s : Side) (role : Role) (status : Status) :
    t.SameLanes (t.setStatus s role status) := by
  intro r
  rw [setStatus]
  rcases eq_or_ne r (role.lane s) with rfl | hne
  · rw [setLane_self]
    cases role <;> exact ⟨_, _, _, _, rfl⟩
  · rw [setLane_of_ne t hne]
    exact ⟨_, _, _, _, rfl⟩

theorem sameLanes_abort (t : Tunnel) (s : Side) (role : Role) : t.SameLanes (t.abort s role) := by
  intro r
  rw [abort]
  rcases eq_or_ne r (role.lane s) with rfl | hne
  · rw [setLane_self]
    cases role <;> exact ⟨_, _, _, _, rfl⟩
  · rw [setLane_of_ne t hne]
    exact ⟨_, _, _, _, rfl⟩

theorem sameLanes_goto (t : Tunnel) (s : Side) (relay : RelayState) :
    t.SameLanes (t.goto s relay) :=
  .refl t

theorem sameLanes_leave (t : Tunnel) (s : Side) (result : Except RelayError Unit) :
    t.SameLanes (t.leave s result) :=
  (sameLanes_abort t s .enc).trans (sameLanes_abort (t.abort s .enc) s .dec)

theorem sameLanes_select {requestComplete : Bool} {branch : Branch}
    (h : t.select idle s requestComplete branch = some t') : t.SameLanes t' := by
  have hjoined : ∀ {role goOn}, t.SameLanes goOn → t.joined s role goOn = some t' →
      t.SameLanes t' := by
    intro role goOn hgo hjoin
    rcases joined_cases hjoin with ⟨-, rfl⟩ | ⟨e, -, rfl⟩ | ⟨o, e, -, -, -, rfl⟩
    · exact hgo
    · exact sameLanes_leave _ _ _
    · exact sameLanes_goto _ _ _
  cases branch with
  | request =>
    rw [select] at h
    split at h
    · cases h
    · exact hjoined (sameLanes_goto _ _ _) h
  | response => exact hjoined (sameLanes_leave _ _ _) h
  | activity =>
    obtain ⟨-, rfl⟩ := Option.ite_some_none_eq_some.1 h
    exact .refl t
  | idle | shutdown =>
    obtain ⟨-, rfl⟩ := Option.ite_some_none_eq_some.1 h
    exact sameLanes_leave _ _ _

/-- A direction moves only as `LaneMove` says. -/
theorem lane_step (hinv : t.Inv S) (h : step S idle t e = some t') (r : Side) :
    LaneMove S t r e (t'.lane r) := by
  have hsame : t.SameLanes t' → LaneMove S t r e (t'.lane r) := by
    intro hlanes
    obtain ⟨enc, dec, a, b, heq⟩ := hlanes r
    rw [heq]
    exact .tasks enc dec a b
  -- A change of the direction of `s` is one of `r`, or leaves `r` as it is.
  have hlane : ∀ {s l}, (s = r → LaneMove S t r e l) →
      LaneMove S t r e ((t.setLane s l).lane r) := by
    intro s l hl
    rcases eq_or_ne r s with rfl | hne
    · rw [setLane_self]
      exact hl rfl
    · rw [setLane_of_ne t hne]
      exact .tasks _ _ _ _
  cases e with
  | start s | skip s =>
    obtain ⟨-, rfl⟩ := Option.ite_some_none_eq_some.1 h
    exact hsame ((sameLanes_setStatus t s .enc _).trans (sameLanes_setStatus _ s .dec _))
  | poll s role | yield s role | cancel s role display | panic s role display =>
    obtain ⟨-, rfl⟩ := Option.ite_some_none_eq_some.1 h
    exact hsame (sameLanes_setStatus t s role _)
  | task s role op =>
    obtain ⟨⟨l, cell, notice⟩, hl, rfl⟩ := Option.map_eq_some_iff.1 h
    have hcell := (hinv.cells s).live_or_closed
    cases role with
    | enc =>
      obtain ⟨hrun, hmove⟩ := encStep_cases hcell hl
      refine hlane ?_
      rintro rfl
      exact .enc hrun hmove
    | dec =>
      obtain ⟨hrun, hmove⟩ := decStep_cases hcell hl
      refine hlane ?_
      rintro rfl
      have hdec := LaneMove.dec (S := S) (r := s.peer) hrun (by rw [Side.peer_peer]; exact hmove)
      rwa [Side.peer_peer] at hdec
  | select s branch =>
    obtain ⟨_, -, hselect⟩ := exists_of_select h
    exact hsame (sameLanes_select hselect)
  | signal s =>
    cases h
    exact hsame (.refl t)
  | tick =>
    cases h
    exact hsame (.refl t)
  | drop s =>
    obtain ⟨⟨henc, -⟩, rfl⟩ := Option.ite_some_none_eq_some.1 h
    refine hlane ?_
    rintro rfl
    exact .drop henc
  | write s bytes =>
    obtain ⟨hopen, rfl⟩ := open_of_write h
    refine hlane ?_
    rintro rfl
    exact .write hopen
  | finish s =>
    cases h
    refine hlane ?_
    rintro rfl
    exact .finish
  | close s =>
    cases h
    refine hlane ?_
    rintro rfl
    exact .close
  | cut s n =>
    cases h
    refine hlane ?_
    rintro rfl
    exact .cut

/-- Neither are connections closed. -/
def SameConnections (t t' : Tunnel) : Prop :=
  ∀ s, (t'.host s).dropped = (t.host s).dropped ∧ (t'.host s).appClosed = (t.host s).appClosed

theorem sameConnections_setHost {h : Host} (hdropped : h.dropped = (t.host s).dropped)
    (happ : h.appClosed = (t.host s).appClosed) : t.SameConnections (t.setHost s h) := by
  intro r
  rcases eq_or_ne r s with rfl | hne
  · rw [setHost_self]
    exact ⟨hdropped, happ⟩
  · rw [setHost_of_ne t hne]
    exact ⟨rfl, rfl⟩

theorem sameConnections_goto (t : Tunnel) (s : Side) (relay : RelayState) :
    t.SameConnections (t.goto s relay) :=
  sameConnections_setHost rfl rfl

theorem sameConnections_leave (t : Tunnel) (s : Side) (result : Except RelayError Unit) :
    t.SameConnections (t.leave s result) :=
  sameConnections_setHost (t := (t.abort s .enc).abort s .dec) rfl rfl

theorem sameConnections_select {requestComplete : Bool} {branch : Branch}
    (h : t.select idle s requestComplete branch = some t') : t.SameConnections t' := by
  have hjoined : ∀ {role goOn}, t.SameConnections goOn → t.joined s role goOn = some t' →
      t.SameConnections t' := by
    intro role goOn hgo hjoin
    rcases joined_cases hjoin with ⟨-, rfl⟩ | ⟨e, -, rfl⟩ | ⟨o, e, -, -, -, rfl⟩
    · exact hgo
    · exact sameConnections_leave _ _ _
    · exact sameConnections_goto _ _ _
  cases branch with
  | request =>
    rw [select] at h
    split at h
    · cases h
    · exact hjoined (sameConnections_goto _ _ _) h
  | response => exact hjoined (sameConnections_leave _ _ _) h
  | activity =>
    obtain ⟨-, rfl⟩ := Option.ite_some_none_eq_some.1 h
    exact sameConnections_setHost rfl rfl
  | idle | shutdown =>
    obtain ⟨-, rfl⟩ := Option.ite_some_none_eq_some.1 h
    exact sameConnections_leave _ _ _

/-- Only their own events close the connections of a session, and of its application. -/
theorem connections_step (h : step S idle t e = some t') (r : Side) :
    ((t'.host r).dropped = true → (t.host r).dropped = true ∨ e = .drop r) ∧
    ((t'.host r).appClosed = true → (t.host r).appClosed = true ∨ e = .close r) := by
  have hsame : t.SameConnections t' → ((t'.host r).dropped = true → (t.host r).dropped = true ∨
      e = .drop r) ∧ ((t'.host r).appClosed = true → (t.host r).appClosed = true ∨ e = .close r) :=
    fun hs => ⟨fun hd => .inl ((hs r).1 ▸ hd), fun ha => .inl ((hs r).2 ▸ ha)⟩
  cases e with
  | start s =>
    obtain ⟨-, rfl⟩ := Option.ite_some_none_eq_some.1 h
    exact hsame (sameConnections_setHost rfl rfl)
  | skip s =>
    obtain ⟨-, rfl⟩ := Option.ite_some_none_eq_some.1 h
    exact hsame (sameConnections_setHost rfl rfl)
  | poll s role | yield s role | cancel s role display | panic s role display =>
    obtain ⟨-, rfl⟩ := Option.ite_some_none_eq_some.1 h
    exact hsame fun _ => ⟨rfl, rfl⟩
  | task s role op =>
    obtain ⟨⟨l, cell, notice⟩, -, rfl⟩ := Option.map_eq_some_iff.1 h
    exact hsame (sameConnections_setHost (t := t.setLane _ l) rfl rfl)
  | select s branch =>
    obtain ⟨_, -, hselect⟩ := exists_of_select h
    exact hsame (sameConnections_select hselect)
  | signal s =>
    cases h
    exact hsame (sameConnections_setHost rfl rfl)
  | tick =>
    cases h
    exact hsame fun _ => ⟨rfl, rfl⟩
  | drop s =>
    obtain ⟨-, rfl⟩ := Option.ite_some_none_eq_some.1 h
    rcases eq_or_ne r s with rfl | hne
    · rw [setHost_self]
      exact ⟨fun _ => .inr rfl, .inl⟩
    · rw [setHost_of_ne _ hne]
      exact ⟨.inl, .inl⟩
  | write s bytes =>
    obtain ⟨-, rfl⟩ := open_of_write h
    exact hsame fun _ => ⟨rfl, rfl⟩
  | close s =>
    cases h
    rcases eq_or_ne r s with rfl | hne
    · rw [setHost_self]
      exact ⟨.inl, fun _ => .inr rfl⟩
    · rw [setHost_of_ne _ hne]
      exact ⟨.inl, .inl⟩
  | finish s | cut s n =>
    cases h
    exact hsame fun _ => ⟨rfl, rfl⟩

end Tunnel

/-! ## Order -/

/-- A task that was spawned and runs on its own: nobody has cancelled it. -/
def Status.isSpawned : Status → Bool
  | absent | ended .never | ended (.cancelled _) => false
  | _ => true

namespace Control

/-- There are no tasks before the relay starts, and in its loop nobody but
    themselves has ended them. -/
structure Ordered (c : Control) : Prop where
  waiting : c.relay = .waiting → ∀ role, c.status role = .absent ∧ c.aborting role = false
  selecting : ∀ {requestComplete}, c.relay = .selecting requestComplete →
    ∀ role, (c.status role).isSpawned = true ∧ c.aborting role = false

variable {c c' : Control} {s : Side} {e : TunnelEvent}

theorem Ordered.set (h : c.Ordered) {role : Role} {status : Status}
    (hthere : c.status role ≠ .absent)
    (hspawned : status.isSpawned = true ∨ c.aborting role = true) :
    (c.set role status).Ordered := by
  refine ⟨fun hw => absurd (h.waiting hw role).1 hthere, fun hs role' => ?_⟩
  refine ⟨?_, (h.selecting hs role').2⟩
  rcases eq_or_ne role' role with rfl | hne
  · rw [set_status_self]
    refine hspawned.resolve_right ?_
    rw [(h.selecting hs role').2]
    decide
  · rw [set_status_of_ne c hne]
    exact (h.selecting hs role').1

/-- No event disturbs the order. -/
theorem Ordered.move (h : c.Ordered) (hm : c.Move s e c') : c'.Ordered := by
  cases hm with
  | start hw => exact ⟨nofun, fun _ role => ⟨rfl, (h.waiting hw role).2⟩⟩
  | skip => exact ⟨nofun, nofun⟩
  | poll hparked => exact h.set (by rw [hparked]; decide) (.inl rfl)
  | task hrun hstatus =>
    refine h.set (by rw [hrun]; decide) (.inl ?_)
    rcases hstatus with rfl | ⟨result, rfl⟩ <;> rfl
  | yield hrun => exact h.set (by rw [hrun]; decide) (.inl rfl)
  | cancel hparked haborting => exact h.set (by rw [hparked]; decide) (.inr haborting)
  | panic hrun => exact h.set (by rw [hrun]; decide) (.inl rfl)
  | goOn hs => exact ⟨nofun, fun _ role => h.selecting hs role⟩
  | leave => exact ⟨nofun, nofun⟩
  | unwind => exact ⟨nofun, nofun⟩

/-- A task that has ended stays so. -/
theorem Ordered.isEnded_move (h : c.Ordered) (hm : c.Move s e c') {role : Role}
    (hended : (c.status role).isEnded = true) : (c'.status role).isEnded = true := by
  have hset : ∀ {role' status status'}, c.status role' = status' → status'.isEnded = false →
      ((c.set role' status).status role).isEnded = true := by
    intro role' status status' hrole hlive
    rw [set_status_of_ne]
    · exact hended
    · rintro rfl
      rw [hrole, hlive] at hended
      cases hended
  cases hm with
  | start hw | skip hw =>
    rw [(h.waiting hw role).1] at hended
    cases hended
  | poll hstatus | task hstatus | yield hstatus | cancel hstatus | panic hstatus =>
    exact hset hstatus rfl
  | goOn | leave | unwind => exact hended

end Control

namespace Tunnel

variable {S : Sealing Side} {idle : Side → ℕ} {t t' : Tunnel} {s : Side} {e : TunnelEvent}
  {allow : Tunnel → TunnelEvent → Prop}

/-- Both tasks of a host change together, before they exist. -/
theorem Inv.setBoth (h : t.Inv S) (habsent : ∀ role, t.status s role = .absent) (status : Status)
    (hok : status ≠ .ended (.returned (.ok ()))) :
    ((t.setStatus s .enc status).setStatus s .dec status).Inv S := by
  refine (h.setStatus ?_ hok).setStatus ?_ hok
  · rw [habsent]
    rfl
  · have hdec : ((t.setStatus s .enc status).control s).status .dec = .absent := by
      rw [control_setStatus, Function.update_self, Control.set_status_of_ne _ (by decide)]
      exact habsent .dec
    exact congrArg Status.isEnded hdec

/-- An event keeps all bytes accounted for. -/
theorem Inv.step (h : t.Inv S) (hordered : ∀ s, (t.control s).Ordered)
    (hstep : Tunnel.step S idle t e = some t') : t'.Inv S := by
  cases e with
  | start s =>
    obtain ⟨hrelay, rfl⟩ := Option.ite_some_none_eq_some.1 hstep
    have habsent : ∀ role, t.status s role = .absent :=
      fun role => ((hordered s).waiting hrelay role).1
    exact (h.setBoth habsent .parked nofun).setHost rfl
  | skip s =>
    obtain ⟨hrelay, rfl⟩ := Option.ite_some_none_eq_some.1 hstep
    have habsent : ∀ role, t.status s role = .absent :=
      fun role => ((hordered s).waiting hrelay role).1
    exact (h.setBoth habsent (.ended .never) nofun).goto s _
  | poll s role =>
    obtain ⟨⟨hparked, -⟩, rfl⟩ := Option.ite_some_none_eq_some.1 hstep
    exact h.setStatus (by rw [hparked]; rfl) nofun
  | task s role op => exact h.task hstep
  | yield s role =>
    obtain ⟨hrun, rfl⟩ := Option.ite_some_none_eq_some.1 hstep
    exact h.setStatus (by rw [hrun]; rfl) nofun
  | cancel s role display =>
    obtain ⟨⟨hparked, -⟩, rfl⟩ := Option.ite_some_none_eq_some.1 hstep
    exact h.setStatus (by rw [hparked]; rfl) nofun
  | panic s role display =>
    obtain ⟨hrun, rfl⟩ := Option.ite_some_none_eq_some.1 hstep
    exact h.setStatus (by rw [hrun]; rfl) nofun
  | select s branch =>
    obtain ⟨_, -, hselect⟩ := exists_of_select hstep
    exact h.select hselect
  | signal s =>
    cases hstep
    exact h.setHost rfl
  | tick =>
    cases hstep
    exact ⟨h.lanes, h.cells⟩
  | drop s =>
    obtain ⟨⟨henc, -⟩, rfl⟩ := Option.ite_some_none_eq_some.1 hstep
    exact (h.setLane ((h.lanes s).closeWire henc) rfl rfl).setHost rfl
  | write s bytes =>
    obtain ⟨hopen, rfl⟩ := open_of_write hstep
    exact h.setLane ((h.lanes s).write hopen bytes) rfl rfl
  | finish s =>
    cases hstep
    exact h.setLane (h.lanes s).closeSource rfl rfl
  | close s =>
    cases hstep
    exact (h.setLane (h.lanes s).closeSource rfl rfl).setHost rfl
  | cut s n =>
    cases hstep
    exact h.setLane ((h.lanes s).sever n) rfl rfl

theorem ordered_initial (s : Side) : (initial.control s).Ordered :=
  ⟨fun _ role => by cases role <;> exact ⟨rfl, rfl⟩, nofun⟩

/-- What holds in every reachable state: all bytes are accounted for, and the
    tasks are in order. -/
structure Sound (S : Sealing Side) (t : Tunnel) : Prop where
  inv : t.Inv S
  ordered : ∀ s, (t.control s).Ordered

theorem Sound.step (h : t.Sound S) (hstep : Tunnel.step S idle t e = some t') : t'.Sound S := by
  refine ⟨h.inv.step h.ordered hstep, fun s => ?_⟩
  rcases control_step h.inv.sane hstep s with heq | hmove
  · rw [heq]
    exact h.ordered s
  · exact (h.ordered s).move hmove

theorem sound_of_reachable (h : (tunnel S idle).Reachable allow t) : t.Sound S := by
  refine h.invariant ?_ fun _ hsound _ hstep => hsound.step hstep
  rintro t rfl
  exact ⟨inv_initial S, ordered_initial⟩

end Tunnel

end SecureTunnel
