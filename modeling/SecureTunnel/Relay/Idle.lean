import SecureTunnel.Relay.Tamper

/-!
# The idle timer

A copy task gives notice of every record that it has forwarded, into a channel
that holds one notice, and the relay puts its timer off when it receives it. But
the `select` of the relay is not biased: once the timer has run out, it may be
taken before a notice that is waiting.

Here the moment at which a record is forwarded is told from that at which its
task gives the notice, and a log is kept of what the tasks of a host forward
while its relay runs. The timer fires on an idle session exactly where it
overtakes no notice (`idle_timeout_on_idle`).
-/

namespace SecureTunnel

/-- A task has written a record whole, and flushes its writer. -/
def Lane.flushing (l : Lane) : Role → Bool
  | .enc =>
    match l.enc.phase with
    | .flushing _ => true
    | _ => false
  | .dec =>
    match l.dec.phase with
    | .flushing _ => true
    | _ => false

/-- What can happen to a tunnel whose records are logged. -/
inductive TimedEvent
  | tunnel (e : TamperEvent)
  /-- A task has flushed its record: it is forwarded, and its notice is to come. -/
  | forwarded (s : Side) (role : Role)

/-- The host whose idle timer fires. -/
def TimedEvent.fires : TimedEvent → Option Side
  | tunnel (.tunnel (.select s .idle)) => some s
  | _ => none

structure Timed where
  tunnel : Tunnel
  /-- When the record was forwarded of which a task is about to give notice. -/
  noticing : Side → Role → Option ℕ
  /-- When the tasks of a host forwarded records, until its relay returned. -/
  forwarded : Side → List ℕ
  /-- When the relay of a host ended with an idle timeout. -/
  timedOut : Side → Option ℕ

namespace Timed

def initial : Timed := ⟨.initial, fun _ _ => none, fun _ => [], fun _ => none⟩

/-- Between the flush of a record and its notice, a task does nothing else. -/
def admits (t : Timed) : TamperEvent → Bool
  | .tunnel (.task s role .flush) => (t.noticing s role).isSome
  | .tunnel (.task s role _) | .tunnel (.yield s role) | .tunnel (.panic s role _) =>
    (t.noticing s role).isNone
  | _ => true

/-- What the log has of an event. -/
def record (t : Timed) (tunnel : Tunnel) : TamperEvent → Timed
  | .tunnel (.task s role .flush) =>
    { t with
      tunnel
      noticing := Function.update t.noticing s (Function.update (t.noticing s) role none) }
  | .tunnel (.select s .idle) =>
    { t with tunnel, timedOut := Function.update t.timedOut s (some t.tunnel.now) }
  | _ => { t with tunnel }

/-- A task has forwarded a record. -/
def forward (t : Timed) (s : Side) (role : Role) : Timed :=
  { t with
    noticing :=
      Function.update t.noticing s (Function.update (t.noticing s) role (some t.tunnel.now))
    forwarded := Function.update t.forwarded s
      (if t.tunnel.returned s then t.forwarded s else t.tunnel.now :: t.forwarded s) }

def step (S : Sealing Side) (idle : Side → ℕ) (t : Timed) : TimedEvent → Option Timed
  | .tunnel e =>
    if t.admits e then (t.tunnel.tamperStep S idle e).map fun tunnel => t.record tunnel e
    else none
  | .forwarded s role =>
    if t.tunnel.status s role = .running ∧ (t.tunnel.lane (role.lane s)).flushing role = true ∧
        t.noticing s role = none then
      some (t.forward s role)
    else none

end Timed

/-- The tunnel, with the log. -/
def timed (S : Sealing Side) (idle : Side → ℕ) : EventSystem Timed TimedEvent where
  init t := t = .initial
  step := Timed.step S idle

/-! ## Timers -/

/-- What a relay knows of the time: its channel, and when its timer fires. -/
structure Timer where
  relay : RelayState
  activity : Bool
  deadline : ℕ

namespace Timer

/-- All that an event can do to the timer of a host. -/
inductive Move (s : Side) (now idle : ℕ) (m : Timer) : TamperEvent → Timer → Prop
  | start : m.relay = .waiting →
      Move s now idle m (.tunnel (.start s))
        { m with relay := .selecting false, deadline := now + idle }
  | skip : m.relay = .waiting → Move s now idle m (.tunnel (.skip s)) { m with relay := .skipped }
  | notice {role : Role} :
      Move s now idle m (.tunnel (.task s role .flush)) { m with activity := true }
  | reset {requestComplete : Bool} : m.relay = .selecting requestComplete →
      Move s now idle m (.tunnel (.select s .activity))
        { m with activity := false, deadline := now + idle }
  | idle {requestComplete : Bool} : m.relay = .selecting requestComplete → m.deadline ≤ now →
      Move s now idle m (.tunnel (.select s .idle))
        { m with relay := .returned (.error .idleTimeout) }
  /-- The relay goes on, or leaves its loop otherwise. -/
  | select {requestComplete : Bool} {branch : Branch} {relay : RelayState} :
      m.relay = .selecting requestComplete → branch ≠ .idle → branch ≠ .activity →
      relay ≠ .returned (.error .idleTimeout) →
      Move s now idle m (.tunnel (.select s branch)) { m with relay }
  | other {e : TamperEvent} : (∀ role, e ≠ .tunnel (.task s role .flush)) →
      e ≠ .tunnel (.select s .idle) → Move s now idle m e m

end Timer

namespace Tunnel

variable {S : Sealing Side} {idle : Side → ℕ} {t t' : Tunnel} {s s' : Side} {e : TamperEvent}

def timer (t : Tunnel) (s : Side) : Timer :=
  ⟨(t.host s).relay, (t.host s).activity, (t.host s).deadline⟩

theorem timer_setHost {h : Host} :
    (t.setHost s h).timer = Function.update t.timer s ⟨h.relay, h.activity, h.deadline⟩ := by
  funext s'
  rcases eq_or_ne s' s with rfl | hne
  · rw [Function.update_self, timer, setHost_self]
  · rw [Function.update_of_ne hne, timer, setHost_of_ne t hne]
    rfl

/-- A change of a host that keeps its relay, its channel and its deadline. -/
theorem timer_setHost_of_eq {h : Host}
    (heq : (⟨h.relay, h.activity, h.deadline⟩ : Timer) = t.timer s) :
    (t.setHost s h).timer = t.timer := by
  rw [timer_setHost, heq]
  exact Function.update_eq_self _ _

theorem timer_goto (relay : RelayState) :
    (t.goto s relay).timer = Function.update t.timer s { t.timer s with relay } :=
  timer_setHost

theorem timer_leave (result : Except RelayError Unit) : (t.leave s result).timer =
    Function.update t.timer s { t.timer s with relay := .returned result } :=
  timer_setHost

/-- A change of one timer, by an event that concerns no other. -/
theorem timer_moved {m : Timer} (htimer : t'.timer = Function.update t.timer s m)
    (hmove : Timer.Move s t.now (idle s) (t.timer s) e m)
    (hother : ∀ s', s' ≠ s → (∀ role, e ≠ .tunnel (.task s' role .flush)) ∧
      e ≠ .tunnel (.select s' .idle)) (s' : Side) :
    Timer.Move s' t.now (idle s') (t.timer s') e (t'.timer s') := by
  rw [htimer]
  rcases eq_or_ne s' s with rfl | hne
  · rw [Function.update_self]
    exact hmove
  · rw [Function.update_of_ne hne]
    exact .other (hother s' hne).1 (hother s' hne).2

/-- The end of a task never returns an idle timeout. -/
theorem timer_joined {role : Role} {goOn : Tunnel} {relay : RelayState}
    (hgoOn : goOn.timer = Function.update t.timer s { t.timer s with relay })
    (hrelay : relay ≠ .returned (.error .idleTimeout)) (h : t.joined s role goOn = some t') :
    ∃ relay', relay' ≠ .returned (.error .idleTimeout) ∧
      t'.timer = Function.update t.timer s { t.timer s with relay := relay' } := by
  rw [joined] at h
  split at h
  · cases h
    exact ⟨relay, hrelay, hgoOn⟩
  · cases h
    exact ⟨_, by simp, timer_leave _⟩
  · cases h
    exact ⟨_, by simp, timer_goto _⟩
  · cases h
    exact ⟨_, by simp, timer_goto _⟩
  · cases h

theorem timer_select {requestComplete : Bool} {branch : Branch}
    (hrelay : (t.host s).relay = .selecting requestComplete)
    (h : t.select idle s requestComplete branch = some t') :
    ∃ m, t'.timer = Function.update t.timer s m ∧
      Timer.Move s t.now (idle s) (t.timer s) (.tunnel (.select s branch)) m := by
  cases branch with
  | request =>
    rw [select] at h
    split at h
    · cases h
    · -- The relay goes on, or ends as the task did.
      obtain ⟨relay, hne, htimer⟩ := timer_joined (timer_goto _) (by simp) h
      exact ⟨_, htimer, .select hrelay (by simp) (by simp) hne⟩
  | response =>
    obtain ⟨relay, hne, htimer⟩ := timer_joined (timer_leave _) (by simp) h
    exact ⟨_, htimer, .select hrelay (by simp) (by simp) hne⟩
  | activity =>
    rw [select] at h
    split at h
    · cases h
      exact ⟨_, timer_setHost, .reset hrelay⟩
    · cases h
  | idle =>
    rw [select] at h
    split at h
    · rename_i hdue
      cases h
      exact ⟨_, timer_leave _, .idle hrelay hdue⟩
    · cases h
  | shutdown =>
    rw [select] at h
    split at h
    · cases h
      exact ⟨_, timer_leave _, .select hrelay (by simp) (by simp) (by simp)⟩
    · cases h

/-- Exactly the flush of a record gives a notice. -/
theorem notice_taskStep (hsane : t.Sane) {role : Role} {op : Op}
    (h : t.taskStep S s role op = some t') : t'.timer = Function.update t.timer s
      { t.timer s with activity := (t.host s).activity || decide (op = .flush) } := by
  obtain ⟨⟨l, cell, notice⟩, hl, rfl⟩ := Option.map_eq_some_iff.1 h
  have hnotice : notice = decide (op = .flush) := by
    cases role with
    | enc =>
      cases (encStep_cases (hsane s) hl).2 <;> rfl
    | dec =>
      cases (decStep_cases (hsane s) hl).2 <;> rfl
  rw [timer_setHost, hnotice]
  rfl

/-- An event concerns the timer of at most one host. -/
theorem timer_step (hsane : t.Sane) (h : tamperStep S idle t e = some t') (s' : Side) :
    Timer.Move s' t.now (idle s') (t.timer s') e (t'.timer s') := by
  have hsame : t'.timer = t.timer → (∀ s role, e ≠ .tunnel (.task s role .flush)) →
      (∀ s, e ≠ .tunnel (.select s .idle)) →
      Timer.Move s' t.now (idle s') (t.timer s') e (t'.timer s') := by
    intro heq hflush hidle
    rw [heq]
    exact .other (hflush s') (hidle s')
  cases e with
  | tamper r wire =>
    cases h
    exact hsame rfl (by simp) (by simp)
  | tunnel e =>
    rw [tamperStep] at h
    cases e with
    | start s =>
      obtain ⟨hrelay, rfl⟩ := Option.ite_some_none_eq_some.1 h
      exact timer_moved timer_setHost (.start hrelay) (by simp) s'
    | skip s =>
      obtain ⟨hrelay, rfl⟩ := Option.ite_some_none_eq_some.1 h
      exact timer_moved (timer_goto _) (.skip hrelay) (by simp) s'
    | poll | yield | cancel | panic =>
      obtain ⟨-, rfl⟩ := Option.ite_some_none_eq_some.1 h
      exact hsame rfl (by simp) (by simp)
    | task s role op =>
      -- A flush gives a notice; every other operation leaves the timer as it is.
      have htimer := notice_taskStep hsane h
      by_cases hop : op = .flush
      · subst hop
        refine timer_moved htimer ?_ ?_ s'
        · rw [decide_eq_true rfl, Bool.or_true]
          exact .notice
        · intro r hr
          simp [hr.symm]
      · refine hsame (htimer.trans ?_) ?_ (by simp)
        · rw [decide_eq_false hop, Bool.or_false]
          exact Function.update_eq_self _ _
        · rintro r role' heq
          cases heq
          exact hop rfl
    | select s branch =>
      obtain ⟨requestComplete, hrelay, hselect⟩ := exists_of_select h
      obtain ⟨m, htimer, hmove⟩ := timer_select hrelay hselect
      refine timer_moved htimer hmove ?_ s'
      intro r hr
      simp [hr.symm]
    | signal s =>
      cases h
      exact hsame (timer_setHost_of_eq rfl) (by simp) (by simp)
    | tick | finish | cut =>
      cases h
      exact hsame rfl (by simp) (by simp)
    | drop s =>
      obtain ⟨-, rfl⟩ := Option.ite_some_none_eq_some.1 h
      exact hsame (timer_setHost_of_eq rfl) (by simp) (by simp)
    | write s bytes =>
      obtain ⟨-, rfl⟩ := open_of_write h
      exact hsame rfl (by simp) (by simp)
    | close s =>
      cases h
      exact hsame (timer_setHost_of_eq rfl) (by simp) (by simp)

theorem Sane.tamperStep (hsane : t.Sane) (h : tamperStep S idle t e = some t') : t'.Sane := by
  cases e with
  | tamper r wire =>
    cases h
    exact hsane
  | tunnel e => exact hsane.step h

/-- The clock never goes back. -/
theorem now_le (h : tamperStep S idle t e = some t') : t.now ≤ t'.now := by
  -- A branch that joins a task leaves the clock alone, however it goes on.
  have hjoined : ∀ {s role goOn}, t.joined s role goOn = some t' → goOn.now = t.now →
      t'.now = t.now := by
    intro s role goOn hjoined hgoOn
    rcases joined_cases hjoined with ⟨-, rfl⟩ | ⟨-, -, rfl⟩ | ⟨-, -, -, -, -, rfl⟩
    · exact hgoOn
    · rfl
    · rfl
  cases e with
  | tamper r wire =>
    cases h
    exact le_refl _
  | tunnel e =>
    rw [Tunnel.tamperStep] at h
    cases e with
    | start | skip | poll | yield | cancel | panic | drop =>
      obtain ⟨-, rfl⟩ := Option.ite_some_none_eq_some.1 h
      exact le_refl _
    | task =>
      obtain ⟨⟨l, cell, notice⟩, -, rfl⟩ := Option.map_eq_some_iff.1 h
      exact le_refl _
    | select s branch =>
      obtain ⟨requestComplete, -, hselect⟩ := exists_of_select h
      cases branch with
      | request =>
        rw [select] at hselect
        split at hselect
        · cases hselect
        · exact (hjoined hselect rfl).ge
      | response => exact (hjoined hselect rfl).ge
      | activity | idle | shutdown =>
        obtain ⟨-, rfl⟩ := Option.ite_some_none_eq_some.1 hselect
        exact le_refl _
    | signal | finish | close | cut =>
      cases h
      exact le_refl _
    | tick =>
      cases h
      exact Nat.le_succ _
    | write s bytes =>
      obtain ⟨-, rfl⟩ := open_of_write h
      exact le_refl _

/-- A relay that has returned stays so. -/
theorem returned_tamperStep (hsane : t.Sane) (h : tamperStep S idle t e = some t')
    (hreturned : t.returned s = true) : t'.returned s = true := by
  have hmove := timer_step hsane h s
  have hrelay : (t.timer s).relay.isReturned = true := hreturned
  have hgoal : (t'.timer s).relay.isReturned = true := by
    generalize t'.timer s = m at hmove
    cases hmove with
    | start hs | skip hs | reset hs | idle hs | select hs =>
      rw [hs] at hrelay
      cases hrelay
    | notice | other => exact hrelay
  exact hgoal

end Tunnel

/-! ## The log -/

namespace Timed

variable {S : Sealing Side} {idle : Side → ℕ} {t t' : Timed} {tunnel : Tunnel} {s : Side}
  {e : TamperEvent}

@[simp] theorem record_tunnel : (t.record tunnel e).tunnel = tunnel := by
  unfold record
  split <;> rfl

@[simp] theorem record_forwarded : (t.record tunnel e).forwarded = t.forwarded := by
  unfold record
  split <;> rfl

theorem record_noticing (h : ∀ role, e ≠ .tunnel (.task s role .flush)) :
    (t.record tunnel e).noticing s = t.noticing s := by
  unfold record
  split
  · rename_i r role
    have hne : s ≠ r := by
      rintro rfl
      exact h role rfl
    exact Function.update_of_ne hne ..
  · rfl
  · rfl

/-- An event of the tunnel makes no task about to give a notice. -/
theorem of_record_noticing {role : Role} {f : ℕ}
    (h : (t.record tunnel e).noticing s role = some f) : t.noticing s role = some f := by
  unfold record at h
  split at h
  · rename_i r role'
    dsimp only at h
    rcases eq_or_ne s r with rfl | hne
    · rw [Function.update_self] at h
      rcases eq_or_ne role role' with rfl | hrole
      · rw [Function.update_self] at h
        cases h
      · rwa [Function.update_of_ne hrole] at h
    · rwa [Function.update_of_ne hne] at h
  · exact h
  · exact h

theorem record_timedOut (h : e ≠ .tunnel (.select s .idle)) :
    (t.record tunnel e).timedOut s = t.timedOut s := by
  unfold record
  split
  · rfl
  · rename_i r
    have hne : s ≠ r := by
      rintro rfl
      exact h rfl
    exact Function.update_of_ne hne ..
  · rfl

theorem record_timedOut_idle :
    (t.record tunnel (.tunnel (.select s .idle))).timedOut s = some t.tunnel.now :=
  Function.update_self ..

/-- What holds of the log of a host in every run: what was forwarded is due by the
    timer, or its notice is waiting or to come. -/
structure Inv (idle : Side → ℕ) (s : Side) (t : Timed) : Prop where
  sane : t.tunnel.Sane
  past : ∀ f ∈ t.forwarded s, f ≤ t.tunnel.now
  listed : t.tunnel.returned s = false → ∀ role f, t.noticing s role = some f →
    f ∈ t.forwarded s
  noticed : ∀ requestComplete, (t.tunnel.host s).relay = .selecting requestComplete →
    ∀ f ∈ t.forwarded s, f + idle s ≤ (t.tunnel.host s).deadline ∨
      (t.tunnel.host s).activity = true ∨ ∃ role, t.noticing s role = some f
  timedOut : (t.tunnel.host s).relay = .returned (.error .idleTimeout) →
    (t.timedOut s).isSome = true

theorem forward_noticing_self (role : Role) :
    (t.forward s role).noticing s role = some t.tunnel.now :=
  (congrFun (Function.update_self ..) role).trans (Function.update_self ..)

theorem forward_noticing_of_role_ne {role role' : Role} (h : role' ≠ role) :
    (t.forward s role).noticing s role' = t.noticing s role' :=
  (congrFun (Function.update_self ..) role').trans (Function.update_of_ne h ..)

theorem forward_noticing_of_ne {s' : Side} (h : s' ≠ s) (role : Role) :
    (t.forward s role).noticing s' = t.noticing s' :=
  Function.update_of_ne h ..

theorem forward_forwarded_of_ne {s' : Side} (h : s' ≠ s) (role : Role) :
    (t.forward s role).forwarded s' = t.forwarded s' :=
  Function.update_of_ne h ..

/-- Once the relay has returned, what its tasks still forward is not listed. -/
theorem forward_forwarded_of_returned (h : t.tunnel.returned s = true) (s' : Side) (role : Role) :
    (t.forward s role).forwarded s' = t.forwarded s' := by
  rcases eq_or_ne s' s with rfl | hne
  · exact (Function.update_self ..).trans (if_pos h)
  · exact forward_forwarded_of_ne hne role

theorem mem_forward_forwarded (h : t.tunnel.returned s = false) (role : Role) {f : ℕ} :
    f ∈ (t.forward s role).forwarded s ↔ f = t.tunnel.now ∨ f ∈ t.forwarded s := by
  have heq : (t.forward s role).forwarded s = t.tunnel.now :: t.forwarded s :=
    (Function.update_self ..).trans (if_neg (by simp [h]))
  rw [heq, List.mem_cons]

/-- What a task forwards while the relay runs is listed, and its notice is to come. -/
theorem Inv.forward (h : t.Inv idle s) {r : Side} {role : Role}
    (hnone : t.noticing r role = none) : (t.forward r role).Inv idle s := by
  rcases eq_or_ne s r with rfl | hne
  · rcases hreturned : t.tunnel.returned s with _ | _
    · -- While the relay runs, the time is listed, and the task owes a notice for it.
      refine ⟨h.sane, fun f hf => ?_, fun _ role' f hf => ?_, fun requestComplete hs f hf => ?_,
        h.timedOut⟩
      · rcases (mem_forward_forwarded hreturned role).1 hf with rfl | hf
        · exact le_refl _
        · exact h.past f hf
      · rw [mem_forward_forwarded hreturned]
        rcases eq_or_ne role' role with rfl | hrole
        · rw [forward_noticing_self, Option.some.injEq] at hf
          exact .inl hf.symm
        · rw [forward_noticing_of_role_ne hrole] at hf
          exact .inr (h.listed hreturned role' f hf)
      · rcases (mem_forward_forwarded hreturned role).1 hf with rfl | hf
        · exact .inr (.inr ⟨role, forward_noticing_self role⟩)
        · refine (h.noticed requestComplete hs f hf).imp_right (.imp_right ?_)
          rintro ⟨role', hrole'⟩
          refine ⟨role', ?_⟩
          rw [forward_noticing_of_role_ne, hrole']
          rintro rfl
          rw [hnone] at hrole'
          cases hrole'
    · -- After its return, nothing is listed any more.
      have hforwarded := forward_forwarded_of_returned hreturned s role
      refine ⟨h.sane, ?_, fun hnot => ?_, fun requestComplete hs => ?_, h.timedOut⟩
      · rw [hforwarded]
        exact h.past
      · exact absurd (hnot.symm.trans hreturned) (by decide)
      · have hselecting : t.tunnel.returned s = false := congrArg RelayState.isReturned hs
        exact absurd (hselecting.symm.trans hreturned) (by decide)
  · -- A task of the other host.
    refine ⟨h.sane, ?_, ?_, ?_, h.timedOut⟩
    · rw [forward_forwarded_of_ne hne]
      exact h.past
    · rw [forward_forwarded_of_ne hne, forward_noticing_of_ne hne]
      exact h.listed
    · rw [forward_forwarded_of_ne hne, forward_noticing_of_ne hne]
      exact h.noticed

/-- Nor does any event of the tunnel break it. -/
theorem Inv.record (h : t.Inv idle s) (hstep : t.tunnel.tamperStep S idle e = some tunnel) :
    (t.record tunnel e).Inv idle s := by
  have hmove := Tunnel.timer_step h.sane hstep s
  have hpast : ∀ f ∈ t.forwarded s, f ≤ tunnel.now :=
    fun f hf => (h.past f hf).trans (Tunnel.now_le hstep)
  -- The timer of the host, before and after.
  have hold : ∀ requestComplete, (t.tunnel.timer s).relay = .selecting requestComplete →
      ∀ f ∈ t.forwarded s, f + idle s ≤ (t.tunnel.timer s).deadline ∨
        (t.tunnel.timer s).activity = true ∨ ∃ role, t.noticing s role = some f := h.noticed
  have hnew : (∀ requestComplete, (tunnel.timer s).relay = .selecting requestComplete →
      ∀ f ∈ t.forwarded s, f + idle s ≤ (tunnel.timer s).deadline ∨
        (tunnel.timer s).activity = true ∨ ∃ role, (t.record tunnel e).noticing s role = some f) ∧
      ((tunnel.timer s).relay = .returned (.error .idleTimeout) →
        ((t.record tunnel e).timedOut s).isSome = true) := by
    generalize tunnel.timer s = m at hmove
    cases hmove with
    | start =>
      refine ⟨fun _ _ f hf => .inl ?_, by simp⟩
      exact Nat.add_le_add_right (h.past f hf) _
    | skip => exact ⟨by simp, by simp⟩
    | notice =>
      refine ⟨fun _ _ _ _ => .inr (.inl rfl), fun hreturned => ?_⟩
      rw [record_timedOut (by simp)]
      exact h.timedOut hreturned
    | reset hs =>
      refine ⟨fun _ _ f hf => .inl ?_, fun hreturned => ?_⟩
      · exact Nat.add_le_add_right (h.past f hf) _
      · rw [hs] at hreturned
        cases hreturned
    | idle =>
      refine ⟨by simp, fun _ => ?_⟩
      rw [record_timedOut_idle]
      rfl
    | select hs _ _ hne =>
      rw [record_noticing (by simp)]
      exact ⟨fun _ _ f hf => hold _ hs f hf, fun hreturned => absurd hreturned hne⟩
    | other hflush hidle =>
      rw [record_noticing hflush, record_timedOut hidle]
      exact ⟨hold, h.timedOut⟩
  refine ⟨?_, ?_, fun hnot role f hf => ?_, fun requestComplete hs f hf => ?_, ?_⟩
  · rw [record_tunnel]
    exact h.sane.tamperStep hstep
  · rw [record_tunnel, record_forwarded]
    exact hpast
  · rw [record_tunnel] at hnot
    rw [record_forwarded]
    refine h.listed ?_ role f (of_record_noticing hf)
    by_contra hreturned
    rw [Tunnel.returned_tamperStep h.sane hstep (by simpa using hreturned)] at hnot
    cases hnot
  · rw [record_tunnel] at hs ⊢
    rw [record_forwarded] at hf
    exact hnew.1 requestComplete hs f hf
  · rw [record_tunnel]
    exact hnew.2

theorem exists_of_tunnel (h : Timed.step S idle t (.tunnel e) = some t') :
    ∃ tunnel, t.tunnel.tamperStep S idle e = some tunnel ∧ t' = t.record tunnel e := by
  rw [Timed.step] at h
  split at h
  · obtain ⟨tunnel, htunnel, rfl⟩ := Option.map_eq_some_iff.1 h
    exact ⟨tunnel, htunnel, rfl⟩
  · cases h

theorem Inv.step (h : t.Inv idle s) {e : TimedEvent} (hstep : Timed.step S idle t e = some t') :
    t'.Inv idle s := by
  cases e with
  | forwarded r role =>
    obtain ⟨⟨-, -, hnone⟩, rfl⟩ := Option.ite_some_none_eq_some.1 hstep
    exact h.forward hnone
  | tunnel e =>
    obtain ⟨tunnel, htunnel, rfl⟩ := exists_of_tunnel hstep
    exact h.record htunnel

theorem inv_of_reachable {allow : Timed → TimedEvent → Prop} (h : (timed S idle).Reachable allow t)
    (s : Side) : t.Inv idle s := by
  refine h.invariant (P := fun t => t.Inv idle s) (fun hinit => ?_)
    fun _ hinv _ hstep => hinv.step hstep
  subst hinit
  exact ⟨(Tunnel.inv_initial S).sane, by simp [initial], by simp [initial], by simp [initial],
    by simp [initial, Tunnel.initial]⟩

/-- Where the idle timer fires, it overtakes no notice that is waiting, nor one to come
    of a record that was forwarded within the idle time. -/
def Fair (idle : Side → ℕ) (t : Timed) (e : TimedEvent) : Prop :=
  ∀ s, e.fires = some s → (t.tunnel.host s).activity = false ∧
    ∀ role f, t.noticing s role = some f → f + idle s ≤ t.tunnel.now

/-- The relay of the host ended on an idle session: no record was forwarded within
    the idle time before. -/
def WasIdle (idle : Side → ℕ) (s : Side) (t : Timed) : Prop :=
  ∃ τ, t.timedOut s = some τ ∧ ∀ f ∈ t.forwarded s, f + idle s ≤ τ

/-- The idle branch is taken in the loop, once the timer has run out, and ends it. -/
theorem exists_of_idle {t t' : Tunnel}
    (h : t.tamperStep S idle (.tunnel (.select s .idle)) = some t') : ∃ requestComplete,
      (t.host s).relay = .selecting requestComplete ∧ (t.host s).deadline ≤ t.now ∧
      t'.returned s = true := by
  obtain ⟨requestComplete, hrelay, hselect⟩ := Tunnel.exists_of_select (S := S) h
  obtain ⟨hdue, rfl⟩ := Option.ite_some_none_eq_some.1 hselect
  refine ⟨requestComplete, hrelay, hdue, ?_⟩
  rw [Tunnel.returned, Tunnel.leave, Tunnel.goto, Tunnel.setHost_self]
  rfl

/-- Where the timer overtakes no notice, all that was forwarded is as old as it. -/
theorem Inv.idle_of_fair (h : t.Inv idle s)
    (hstep : t.tunnel.tamperStep S idle (.tunnel (.select s .idle)) = some tunnel)
    (hfair : Fair idle t (.tunnel (.tunnel (.select s .idle)))) :
    ∀ f ∈ t.forwarded s, f + idle s ≤ t.tunnel.now := by
  obtain ⟨requestComplete, hrelay, hdue, -⟩ := exists_of_idle hstep
  obtain ⟨hactivity, hnoticing⟩ := hfair s rfl
  intro f hf
  rcases h.noticed requestComplete hrelay f hf with hle | hwaiting | ⟨role, hrole⟩
  · exact hle.trans hdue
  · exact absurd (hactivity.symm.trans hwaiting) (by decide)
  · exact hnoticing role f hrole

theorem timedOut_of_reachable (h : (timed S idle).Reachable (Fair idle) t) {τ : ℕ}
    (hτ : t.timedOut s = some τ) :
    t.tunnel.returned s = true ∧ ∀ f ∈ t.forwarded s, f + idle s ≤ τ := by
  refine h.invariant (P := fun t => ∀ τ, t.timedOut s = some τ →
    t.tunnel.returned s = true ∧ ∀ f ∈ t.forwarded s, f + idle s ≤ τ) ?_ ?_ τ hτ
  · rintro t rfl τ hτ
    cases hτ
  · intro t e t' hreach hbefore hfair hstep τ hτ
    have hinv := inv_of_reachable hreach s
    cases e with
    | forwarded r role =>
      obtain ⟨-, rfl⟩ := Option.ite_some_none_eq_some.1 hstep
      obtain ⟨hreturned, hall⟩ := hbefore τ hτ
      refine ⟨hreturned, ?_⟩
      rcases eq_or_ne s r with rfl | hne
      · rw [forward_forwarded_of_returned hreturned]
        exact hall
      · rw [forward_forwarded_of_ne hne]
        exact hall
    | tunnel e =>
      obtain ⟨tunnel, htunnel, rfl⟩ := exists_of_tunnel hstep
      rw [record_tunnel, record_forwarded]
      by_cases hidle : e = .tunnel (.select s .idle)
      · subst hidle
        rw [record_timedOut_idle, Option.some.injEq] at hτ
        obtain ⟨-, -, -, hreturned⟩ := exists_of_idle htunnel
        exact ⟨hreturned, hτ ▸ hinv.idle_of_fair htunnel hfair⟩
      · rw [record_timedOut hidle] at hτ
        obtain ⟨hreturned, hall⟩ := hbefore τ hτ
        exact ⟨Tunnel.returned_tamperStep hinv.sane htunnel hreturned, hall⟩

end Timed

open Timed

/-- In every run whose timers overtake no notice, on either host, a relay that ended with
    an idle timeout ended on an idle session. That is also what it takes: after the
    timer fires in any reachable state, the session was idle and no notice was waiting
    exactly if the timer has overtaken none. -/
theorem idle_timeout_on_idle {S : Sealing Side} {idle : Side → ℕ} :
    (∀ t, (timed S idle).Reachable (Fair idle) t → ∀ s,
      (t.tunnel.host s).relay = .returned (.error .idleTimeout) → t.WasIdle idle s) ∧
    ∀ t t', (timed S idle).Reachable EventSystem.always t → ∀ s,
      Timed.step S idle t (.tunnel (.tunnel (.select s .idle))) = some t' →
      (t'.WasIdle idle s ∧ (t.tunnel.host s).activity = false ↔
        Fair idle t (.tunnel (.tunnel (.select s .idle)))) := by
  refine ⟨fun t h s hreturned => ?_, fun t t' h s hstep => ?_⟩
  · obtain ⟨τ, hτ⟩ := Option.isSome_iff_exists.1 ((inv_of_reachable h s).timedOut hreturned)
    exact ⟨τ, hτ, (timedOut_of_reachable h hτ).2⟩
  · have hinv := inv_of_reachable h s
    obtain ⟨tunnel, htunnel, rfl⟩ := exists_of_tunnel hstep
    rw [WasIdle, record_timedOut_idle, record_forwarded]
    constructor
    · rintro ⟨⟨τ, hτ, hall⟩, hactivity⟩
      obtain ⟨requestComplete, hrelay, -⟩ := exists_of_idle htunnel
      rw [Option.some.injEq] at hτ
      have hrunning : t.tunnel.returned s = false := congrArg RelayState.isReturned hrelay
      rintro r hr
      cases hr
      exact ⟨hactivity, fun role f hf => hτ ▸ hall f (hinv.listed hrunning role f hf)⟩
    · intro hfair
      exact ⟨⟨_, rfl, hinv.idle_of_fair htunnel hfair⟩, (hfair s rfl).1⟩

/-- A server that forwards a record at its start and hears of it in time, and ends at
    the second after. -/
theorem idle_timeout_on_idle_one :
    let S : Sealing Side := .tagged fun _ nonce => UInt8.ofNat nonce
    ∃ t t', Timed.step S (fun _ => 1) t (.tunnel (.tunnel (.select .server .idle))) = some t' ∧
      t'.forwarded .server = [0] ∧ t'.WasIdle (fun _ => 1) .server ∧
      (t'.WasIdle (fun _ => 1) .server ∧ (t.tunnel.host .server).activity = false ↔
        Fair (fun _ => 1) t (.tunnel (.tunnel (.select .server .idle)))) := by
  intro S
  let t₁ := ((timed S fun _ => 1).run (fun _ e => e.fires = none) .initial
    [.tunnel (.tunnel (.start .server)), .tunnel (.tunnel (.write .server [7])),
      .tunnel (.tunnel (.poll .server .enc)), .tunnel (.tunnel (.task .server .enc (.read 1))),
      .tunnel (.tunnel (.task .server .enc (.write 21))), .forwarded .server .enc,
      .tunnel (.tunnel (.task .server .enc .flush)), .tunnel (.tunnel (.select .server .activity)),
      .tunnel (.tunnel .tick)]).get (by decide +kernel)
  let t₂ := (Timed.step S (fun _ => 1) t₁
    (.tunnel (.tunnel (.select .server .idle)))).get (by decide +kernel)
  have h₁ : (timed S fun _ => 1).Reachable (fun _ e => e.fires = none) t₁ :=
    EventSystem.reachable_of_run rfl (Option.some_get _).symm
  have hfair : Fair (fun _ => 1) t₁ (.tunnel (.tunnel (.select .server .idle))) := by
    rintro s hs
    cases hs
    exact ⟨by decide +kernel, fun role f hf => by cases role <;> cases hf⟩
  have h₂ : (timed S fun _ => 1).Reachable (Fair fun _ => 1) t₂ :=
    .step (h₁.mono fun _ e he s hs => by simp [he] at hs) hfair (Option.some_get _).symm
  exact ⟨t₁, t₂, (Option.some_get _).symm, by decide +kernel,
    idle_timeout_on_idle.1 t₂ h₂ .server (by decide +kernel),
    idle_timeout_on_idle.2 t₁ t₂ (h₁.mono fun _ _ _ => trivial) .server (Option.some_get _).symm⟩

/-- A record is forwarded as the timer runs out, and the relay takes the branch of its
    timer while the notice waits. -/
theorem idle_timeout_on_active :
    let S : Sealing Side := .tagged fun _ nonce => UInt8.ofNat nonce
    ∃ t, (timed S fun _ => 1).Reachable EventSystem.always t ∧
      (t.tunnel.host .server).relay = .returned (.error .idleTimeout) ∧
      t.timedOut .server = some 1 ∧ t.forwarded .server = [1] ∧
      (t.tunnel.host .server).activity = true ∧ ¬t.WasIdle (fun _ => 1) .server := by
  intro S
  let t₁ := ((timed S fun _ => 1).run EventSystem.always .initial
    [.tunnel (.tunnel (.start .server)), .tunnel (.tunnel (.write .server [7])),
      .tunnel (.tunnel (.poll .server .enc)), .tunnel (.tunnel (.task .server .enc (.read 1))),
      .tunnel (.tunnel (.task .server .enc (.write 21))), .tunnel (.tunnel .tick),
      .forwarded .server .enc, .tunnel (.tunnel (.task .server .enc .flush)),
      .tunnel (.tunnel (.select .server .idle))]).get (by decide +kernel)
  have hforwarded : t₁.forwarded .server = [1] := by decide +kernel
  have htimedOut : t₁.timedOut .server = some 1 := by decide +kernel
  refine ⟨t₁, EventSystem.reachable_of_run rfl (Option.some_get _).symm, by decide +kernel,
    htimedOut, hforwarded, by decide +kernel, ?_⟩
  rintro ⟨τ, hτ, hall⟩
  rw [htimedOut, Option.some.injEq] at hτ
  have hle : 1 + 1 ≤ τ := hall 1 (by rw [hforwarded]; exact List.mem_singleton.2 rfl)
  omega

end SecureTunnel
