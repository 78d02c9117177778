import SecureTunnel.Service.Ledger
import SecureTunnel.Service.Shutdown

/-!
# Confinement

What a whole process does to its surroundings, with all its sessions at once. The
permits bound how many of them are under way (`Watched.numberOf_le`), whether they
finish, panic or are dropped.

A session may end before the copy tasks of its relay do: one that is being polled
when it is aborted goes on, and so does one whose handle is dropped. `wholeProcess`
is a service with its sessions and such *orphaned* tasks, which hold no permit.

* `server_confined`: a server reaches its destination for at most `max_connections`
  sessions under way, for authenticated clients only, and nothing else.
* `client_confined`: a client sends what the local applications write to nobody but
  the server that it pins.
-/

namespace SecureTunnel

/-! ## The permits -/

namespace Service

variable {n : ℕ} {x x' : Service}

theorem permits_serve (h : x.available + x.held = n) (hmove : ServeMove x x') :
    x'.available + x'.held = n := by
  rw [← h, held, held]
  cases hmove with
  | acquire hserving havailable =>
    rw [hserving, havailable]
    simp only [Serving.holds]
    omega
  | spawn hserving =>
    rw [hserving, tally_append_singleton]
    rfl
  | refuse hserving | openActive hserving | openTotal hserving | openId hserving | tell hserving
  | leave hserving | drained hserving =>
    rw [hserving]
    rfl

/-- A permit is held by one session or by the connection that is being opened, or it
    is available. A session that panics or is dropped gives its permit back as well. -/
theorem permits_step (h : x.available + x.held = n) {e : ServiceEvent}
    (hstep : x.step e = some x') : x'.available + x'.held = n := by
  cases e with
  | signal result =>
    obtain ⟨hselect, ⟨-, rfl⟩ | ⟨e, -, rfl⟩⟩ := signal_cases hstep <;>
      rw [← h, held, held, hselect] <;> rfl
  | accept result =>
    obtain ⟨hselect, ⟨-, rfl⟩ | ⟨e, -, rfl⟩⟩ := accept_cases hstep <;>
      rw [← h, held, held, hselect] <;> rfl
  | join i =>
    obtain ⟨task, htask, -, rfl⟩ := join_cases hstep
    have hset := tally_set (f := SessionTask.holds) (b := { task with joined := true }) htask
    have hholds : SessionTask.holds { task with joined := true } = task.holds := rfl
    simp only [held] at h ⊢
    omega
  | advance => exact permits_serve h (advance_cases hstep)
  | session i e =>
    obtain ⟨task, task', m, released, htask, htaskStep, rfl⟩ := session_cases hstep
    have hholds := (SessionTask.step_cases htaskStep).holds_eq
    have hset := tally_set (f := SessionTask.holds) (b := task') htask
    simp only [held] at h ⊢
    omega

theorem permits_of_reachable {allow : Service → ServiceEvent → Prop}
    (h : (service n).Reachable allow x) : x.available + x.held = n :=
  h.invariant (P := fun x => x.available + x.held = n) (fun hinit => hinit.2 ▸ rfl)
    fun _ hx _ hstep => permits_step hx hstep

/-- Once `serve` has returned `Ok`, it stays so. -/
theorem returned_step (h : x.serving = .returned (.ok ())) {e : ServiceEvent}
    (hstep : x.step e = some x') : x'.serving = .returned (.ok ()) := by
  cases e with
  | signal result =>
    rw [(signal_cases hstep).1] at h
    cases h
  | accept result =>
    rw [(accept_cases hstep).1] at h
    cases h
  | join i =>
    obtain ⟨task, -, -, rfl⟩ := join_cases hstep
    exact h
  | advance =>
    rw [step, advance, h] at hstep
    cases hstep
  | session i e =>
    obtain ⟨task, task', m, released, -, -, rfl⟩ := session_cases hstep
    exact h

end Service

/-! ## All sessions of a process -/

namespace Watched

variable {σ : Type*} {W : SessionWatcher σ} {n : ℕ} {x x' : Watched σ}

/-- How many sessions are under way that are at such a place. -/
def numberOf (p : σ → Bool) (x : Watched σ) : ℕ :=
  tally (fun member => (!member.1.course.isEnded && member.2.state.any p).toNat)
    (x.service.sessions.zip x.tasks)

/-- The sessions under way are no more than the permits. -/
theorem numberOf_le (h : (watched W n).Reachable EventSystem.always x) (p : σ → Bool) :
    x.numberOf p ≤ n := by
  have hpermits := Service.permits_of_reachable (service_of_reachable h)
  have hle : x.numberOf p ≤ tally SessionTask.holds x.service.sessions :=
    tally_zip_le fun session task => by
      dsimp only [SessionTask.holds]
      cases session.course.isEnded with
      | true => exact Nat.zero_le _
      | false => exact Bool.toNat_le _
  rw [Service.held] at hpermits
  omega

/-- The sessions that `serve` has waited for have all ended. -/
theorem isEnded_of_returned (h : (watched W n).Reachable EventSystem.always x)
    (hreturned : x.service.serving = .returned (.ok ())) :
    ∀ session ∈ x.service.sessions, session.course.isEnded = true := by
  have hjoining := Service.joining_of_reachable (service_of_reachable h)
  exact fun session hmem => hjoining.ended session hmem (hjoining.waited hreturned session hmem)

theorem numberOf_of_returned (h : (watched W n).Reachable EventSystem.always x)
    (hreturned : x.service.serving = .returned (.ok ())) (p : σ → Bool) : x.numberOf p = 0 := by
  refine tally_eq_zero fun member hmem => ?_
  rw [isEnded_of_returned h hreturned member.1 (List.of_mem_zip hmem).1]
  rfl

theorem tasks_step (h : (watched W n).Reachable EventSystem.always x)
    (hreturned : x.service.serving = .returned (.ok ())) {e : WatchedEvent}
    (hstep : x.step W e = some x') :
    x'.service.serving = .returned (.ok ()) ∧ x'.tasks = x.tasks := by
  -- A session that could be polled has not ended.
  have hdead (i : ℕ) : x.isLive i = false := by
    rw [isLive, Bool.eq_false_iff]
    intro hlive
    obtain ⟨session, hsession, hnot⟩ := (Option.any_eq_true _ _).1 hlive
    rw [isEnded_of_returned h hreturned session (List.mem_of_getElem? hsession)] at hnot
    cases hnot
  cases e with
  | service e =>
    rw [step] at hstep
    split at hstep
    · obtain ⟨service, hservice, rfl⟩ := Option.map_eq_some_iff.1 hstep
      rw [follow_service]
      refine ⟨Service.returned_step hreturned hservice, ?_⟩
      rw [follow.eq_def, hreturned, Service.returned_step hreturned hservice]
    · cases hstep
  | enter i | session i e =>
    rw [step, hdead] at hstep
    cases hstep

/-- Once `serve` has returned `Ok`, no session does anything again. -/
theorem inert (h : (watched W n).Reachable EventSystem.always x)
    (hreturned : x.service.serving = .returned (.ok ()))
    (hpath : (watched W n).Path EventSystem.always x x') : x'.tasks = x.tasks := by
  suffices (watched W n).Reachable EventSystem.always x' ∧
      x'.service.serving = .returned (.ok ()) ∧ x'.tasks = x.tasks from this.2.2
  induction hpath with
  | refl => exact ⟨h, hreturned, rfl⟩
  | tail _ _ hstep ih =>
    obtain ⟨hreach, hserving, htasks⟩ := ih
    obtain ⟨hserving', htasks'⟩ := tasks_step hreach hserving hstep
    exact ⟨.step hreach trivial hstep, hserving', htasks'.trans htasks⟩

end Watched

/-! ## Copy tasks without a relay -/

/-- What a copy task does to the stream that Noise is spoken on. -/
inductive CopyAct
  | read (piece : Bytes)
  | write (bytes : Bytes)
  deriving DecidableEq

def CopyAct.written : CopyAct → Option Bytes
  | read _ => none
  | write bytes => some bytes

/-- A service with its sessions, and what copy tasks of these have done since their
    relays were gone. -/
structure WholeProcess (σ : Type*) where
  running : Watched σ
  orphaned : List (ℕ × CopyAct)

/-- What can happen in a process. -/
inductive ProcessEvent
  | watched (e : WatchedEvent)
  /-- An orphaned copy task of a session. -/
  | copy (i : ℕ) (act : CopyAct)
  deriving DecidableEq

/-- Which sessions got to their relay, and so have copy tasks. They do nothing more
    themselves once it has returned. -/
structure Copying {σ : Type*} (W : SessionWatcher σ) where
  hasRelayed : σ → Bool
  gone : ∀ {s}, hasRelayed s = true → W.relaying s = false → ∀ e, W.step s e = none

namespace Watched

variable {σ : Type*} {W : SessionWatcher σ}

/-- The place of a session that has begun. -/
def state (x : Watched σ) (i : ℕ) : Option σ := x.tasks[i]?.bind Watching.state

/-- The relay of a session is gone, which its copy tasks may outlive: it has returned,
    or the task of the session panicked or was dropped while it relayed. -/
def isOrphaned (C : Copying W) (x : Watched σ) (i : ℕ) : Bool :=
  (x.state i).any fun s => C.hasRelayed s && !(x.isLive i && W.relaying s)

end Watched

namespace WholeProcess

variable {σ : Type*} {W : SessionWatcher σ}

def initial (maxConnections : ℕ) : WholeProcess σ := ⟨.initial maxConnections, []⟩

def step (C : Copying W) (x : WholeProcess σ) : ProcessEvent → Option (WholeProcess σ)
  | .watched e => (x.running.step W e).map fun running => { x with running }
  | .copy i act =>
    if x.running.isOrphaned C i then some { x with orphaned := x.orphaned ++ [(i, act)] } else none

/-- What the orphaned tasks of a session have done. -/
def acts (x : WholeProcess σ) (i : ℕ) : List CopyAct :=
  x.orphaned.filterMap fun (j, act) => if j = i then some act else none

end WholeProcess

/-- A whole process. -/
def wholeProcess {σ : Type*} {W : SessionWatcher σ} (C : Copying W) (maxConnections : ℕ) :
    EventSystem (WholeProcess σ) ProcessEvent where
  init x := maxConnections ≤ maxPermits ∧ x = .initial maxConnections
  step := WholeProcess.step C

/-- What ended stays so. -/
theorem Service.ended_step {x x' : Service} {e : ServiceEvent} (hstep : x.step e = some x')
    {i : ℕ} {task : SessionTask} (htask : x.sessions[i]? = some task)
    (hended : task.course.isEnded = true) :
    ∃ task', x'.sessions[i]? = some task' ∧ task'.course.isEnded = true := by
  by_cases hown : ∃ e', e = .session i e'
  · obtain ⟨e', rfl⟩ := hown
    obtain ⟨task₁, task', m, released, htask₁, htaskStep, rfl⟩ := session_cases hstep
    obtain rfl : task₁ = task := Option.some.inj (htask₁.symm.trans htask)
    refine ⟨task', List.getElem?_set_self (List.getElem?_eq_some_iff.1 htask).1, ?_⟩
    rw [(SessionTask.step_cases htaskStep).course_of_isEnded hended]
    exact hended
  · obtain ⟨task', htask', hcourse⟩ := course_step hstep htask fun e' he => hown ⟨e', he⟩
    exact ⟨task', htask', hcourse ▸ hended⟩

namespace Watched

variable {σ : Type*} {W : SessionWatcher σ} {C : Copying W} {x x' : Watched σ} {i : ℕ}
  {s : σ}

/-- The task of a session that has begun. -/
theorem exists_task (hs : x.state i = some s) : ∃ task ∈ x.tasks, task.state = some s := by
  obtain ⟨task, htask, hstate⟩ := Option.bind_eq_some_iff.1 hs
  exact ⟨task, List.mem_of_getElem? htask, hstate⟩

/-- Every session that has begun is one of the service. -/
theorem exists_session (h : x.Inv W) (hs : x.state i = some s) :
    ∃ session, x.service.sessions[i]? = some session := by
  obtain ⟨task, htask, -⟩ := Option.bind_eq_some_iff.1 hs
  have hlt : i < x.service.sessions.length :=
    h.spawned ▸ (List.getElem?_eq_some_iff.1 htask).1
  exact ⟨_, List.getElem?_eq_getElem hlt⟩

theorem not_isLive_step (h : x.Inv W) {e : WatchedEvent} (hstep : x.step W e = some x')
    (hs : x.state i = some s) (hdead : x.isLive i = false) : x'.isLive i = false := by
  obtain ⟨e, service, hservice, rfl, -⟩ | ⟨_, _, _, -, rfl, -⟩ := step_cases hstep
  · obtain ⟨session, hsession⟩ := exists_session h hs
    rw [isLive, hsession] at hdead
    obtain ⟨session', hsession', hended⟩ :=
      Service.ended_step hservice hsession (by simpa using hdead)
    rw [isLive, follow_service, hsession']
    simpa using hended
  · exact hdead

/-- An orphaned session does nothing itself any more. -/
theorem state_step {e : WatchedEvent} (hstep : x.step W e = some x')
    (horphaned : x.isOrphaned C i = true) : x'.state i = x.state i := by
  obtain ⟨s, hs, hgone⟩ := (Option.any_eq_true _ _).1 horphaned
  obtain ⟨hrelayed, hgone⟩ := Bool.and_eq_true_iff.1 hgone
  obtain ⟨task, htask, hstate⟩ := Option.bind_eq_some_iff.1 hs
  have hset : ∀ {j : ℕ} {task' : Watching σ}, j ≠ i →
      (x.tasks.set j task')[i]?.bind Watching.state = x.tasks[i]?.bind Watching.state :=
    fun hne => congrArg (Option.bind · Watching.state) (List.getElem?_set_ne hne)
  cases e with
  | service e =>
    obtain ⟨-, hstep⟩ := Option.ite_none_right_eq_some.1 hstep
    obtain ⟨service, hservice, rfl⟩ := Option.map_eq_some_iff.1 hstep
    have hmove := follow_move hservice
    generalize x.follow e service = x' at hmove ⊢
    cases hmove with
    | spawn =>
      have hlt := (List.getElem?_eq_some_iff.1 htask).1
      exact congrArg (Option.bind · Watching.state) (List.getElem?_append_left hlt)
    | send | go => rfl
  | enter j =>
    obtain ⟨-, hstep⟩ := Option.ite_none_right_eq_some.1 hstep
    obtain ⟨task₁, htask₁, hstep⟩ := Option.bind_eq_some_iff.1 hstep
    obtain ⟨task', henter, rfl⟩ := Option.map_eq_some_iff.1 hstep
    refine hset fun hj => ?_
    -- It has begun already.
    subst hj
    obtain rfl : task₁ = task := Option.some.inj (htask₁.symm.trans htask)
    cases (Watching.enter_cases henter).1.symm.trans hstate
  | session j e =>
    obtain ⟨hlive, hstep⟩ := Option.ite_none_right_eq_some.1 hstep
    obtain ⟨task₁, htask₁, hstep⟩ := Option.bind_eq_some_iff.1 hstep
    obtain ⟨task', hact, rfl⟩ := Option.map_eq_some_iff.1 hstep
    refine hset fun hj => ?_
    -- Its task can be polled, so that its relay has returned.
    subst hj
    obtain rfl : task₁ = task := Option.some.inj (htask₁.symm.trans htask)
    obtain ⟨s₁, s', hstate₁, hact, -⟩ := Watching.act_cases hact
    obtain rfl : s₁ = s := Option.some.inj (hstate₁.symm.trans hstate)
    rw [hlive, Bool.true_and, Bool.not_eq_true'] at hgone
    rw [C.gone hrelayed hgone] at hact
    cases hact

theorem orphaned_step (h : x.Inv W) {e : WatchedEvent} (hstep : x.step W e = some x')
    (horphaned : x.isOrphaned C i = true) : x'.isOrphaned C i = true := by
  obtain ⟨s, hs, hgone⟩ := (Option.any_eq_true _ _).1 horphaned
  obtain ⟨hrelayed, hgone⟩ := Bool.and_eq_true_iff.1 hgone
  refine (Option.any_eq_true _ _).2 ⟨s, (state_step hstep horphaned).trans hs, ?_⟩
  cases hlive : x.isLive i with
  | true =>
    rw [hlive, Bool.true_and, Bool.not_eq_true'] at hgone
    rw [hrelayed, hgone, Bool.and_false, Bool.not_false, Bool.and_true]
  | false =>
    rw [hrelayed, not_isLive_step h hstep hs hlive, Bool.false_and, Bool.not_false, Bool.and_true]

end Watched

namespace WholeProcess

variable {σ : Type*} {W : SessionWatcher σ} {C : Copying W} {x x' : WholeProcess σ} {n : ℕ}

/-- All that can happen: the service and its sessions go on, or an orphaned task does. -/
theorem step_cases {e : ProcessEvent} (h : x.step C e = some x') :
    (∃ e', x.running.step W e' = some x'.running ∧ x'.orphaned = x.orphaned) ∨
    ∃ i act, x.running.isOrphaned C i = true ∧
      x' = { x with orphaned := x.orphaned ++ [(i, act)] } := by
  cases e with
  | watched e =>
    obtain ⟨running, hrunning, rfl⟩ := Option.map_eq_some_iff.1 h
    exact .inl ⟨e, hrunning, rfl⟩
  | copy i act =>
    obtain ⟨horphaned, rfl⟩ := Option.ite_some_none_eq_some.1 h
    exact .inr ⟨i, act, horphaned, rfl⟩

/-- Orphaned tasks are nothing to the service and its sessions. -/
theorem running_of_reachable (h : (wholeProcess C n).Reachable EventSystem.always x) :
    (watched W n).Reachable EventSystem.always x.running := by
  induction h with
  | init hinit => exact .init ⟨hinit.1, congrArg WholeProcess.running hinit.2⟩
  | step _ _ hstep ih =>
    obtain ⟨e, hrunning, -⟩ | ⟨i, act, -, rfl⟩ := step_cases hstep
    · exact .step ih trivial hrunning
    · exact ih

theorem running_of_path (h : (wholeProcess C n).Path EventSystem.always x x') :
    (watched W n).Path EventSystem.always x.running x'.running := by
  induction h with
  | refl => exact .refl _
  | tail _ _ hstep ih =>
    obtain ⟨e, hrunning, -⟩ | ⟨i, act, -, rfl⟩ := step_cases hstep
    · exact .tail ih trivial hrunning
    · exact ih

/-- Only orphaned tasks have acted by themselves. -/
theorem isOrphaned_of_acts (h : (wholeProcess C n).Reachable EventSystem.always x) {i : ℕ}
    (hacts : x.acts i ≠ []) : x.running.isOrphaned C i = true := by
  suffices horphaned : ∀ act ∈ x.orphaned, x.running.isOrphaned C act.1 = true by
    obtain ⟨act, hact⟩ := List.exists_mem_of_ne_nil _ hacts
    obtain ⟨⟨j, act'⟩, hmem, hsome⟩ := List.mem_filterMap.1 hact
    obtain ⟨rfl, -⟩ := Option.ite_some_none_eq_some.1 hsome
    exact horphaned _ hmem
  refine h.invariant (P := fun x => ∀ act ∈ x.orphaned, x.running.isOrphaned C act.1 = true)
    (fun hinit => hinit.2 ▸ nofun) fun hreach hx _ hstep => ?_
  obtain ⟨e, hrunning, hsame⟩ | ⟨i, act, hi, rfl⟩ := step_cases hstep
  · have hinv := Watched.inv_of_reachable (running_of_reachable hreach)
    exact hsame ▸ fun act hmem => Watched.orphaned_step hinv hrunning (hx act hmem)
  · intro act' hmem
    obtain hmem | hmem := List.mem_append.1 hmem
    · exact hx act' hmem
    · rw [List.mem_singleton.1 hmem]
      exact hi

/-- Once its relay is gone, a session itself does nothing more. -/
theorem state_of_path (h : (wholeProcess C n).Reachable EventSystem.always x)
    (hpath : (wholeProcess C n).Path EventSystem.always x x') {i : ℕ}
    (horphaned : x.running.isOrphaned C i = true) : x'.running.state i = x.running.state i := by
  suffices (wholeProcess C n).Reachable EventSystem.always x' ∧
      x'.running.isOrphaned C i = true ∧ x'.running.state i = x.running.state i from this.2.2
  induction hpath with
  | refl => exact ⟨h, horphaned, rfl⟩
  | tail _ _ hstep ih =>
    obtain ⟨hreach, hi, hstate⟩ := ih
    refine ⟨.step hreach trivial hstep, ?_⟩
    obtain ⟨e, hrunning, -⟩ | ⟨j, act, -, rfl⟩ := step_cases hstep
    · have hinv := Watched.inv_of_reachable (running_of_reachable hreach)
      exact ⟨Watched.orphaned_step hinv hrunning hi,
        (Watched.state_step hrunning hi).trans hstate⟩
    · exact ⟨hi, hstate⟩

/-- A session whose orphaned tasks have acted got to its relay, and has ended for good. -/
theorem left_of_acts (h : (wholeProcess C n).Reachable EventSystem.always x) {i : ℕ}
    (hacts : x.acts i ≠ []) : ∃ s, x.running.state i = some s ∧ C.hasRelayed s = true ∧
      ∀ x', (wholeProcess C n).Path EventSystem.always x x' → x'.running.state i = some s := by
  have horphaned := isOrphaned_of_acts h hacts
  obtain ⟨s, hs, hgone⟩ := (Option.any_eq_true _ _).1 horphaned
  exact ⟨s, hs, (Bool.and_eq_true_iff.1 hgone).1, fun x' hpath =>
    (state_of_path h hpath horphaned).trans hs⟩

end WholeProcess

/-! ## Server and client -/

/-- The session has begun to connect to the destination, and holds the connection
    from then on until it returns. -/
def ServerSession.reaches {Addr HS Key : Type*} (x : ServerSession Addr HS Key) : Bool :=
  match x.phase with
  | .connecting _ | .destinationNodelay _ | .destinationKeepalive _ | .relaying _ => true
  | _ => false

theorem ServerSession.effects_ne_nil {Addr HS Key : Type*} {snow : Snow HS Key}
    {setup : Setup Addr} {x : ServerSession Addr HS Key} (h : x.Inv snow setup)
    (hreaches : x.reaches = true) : x.effects ≠ [] := by
  obtain ⟨phase, received, effects, succeeded⟩ := x
  cases phase with
  | connecting | destinationNodelay | destinationKeepalive | relaying =>
    obtain ⟨-, message, pieces, relayed, rfl, -⟩ := h
    exact List.append_ne_nil_of_right_ne_nil _ (List.cons_ne_nil _ _)
  | _ => cases hreaches

/-- The copy tasks of a server. -/
def ServerSession.copying {Addr HS Key : Type*} (snow : Snow HS Key) (setup : Setup Addr) :
    Copying (ServerSession.watcher snow setup) where
  hasRelayed := hasRelayed
  gone {x} hrelayed hgone e := by
    obtain ⟨phase, received, effects, succeeded⟩ := x
    cases phase with
    | relaying => cases hgone
    | ended => rfl
    | _ => cases hrelayed

/-- What a session has done to its surroundings, orphaned tasks included. -/
def ServerSession.effectsWith {Addr HS Key : Type*} (x : ServerSession Addr HS Key)
    (acts : List CopyAct) : List (Effect Addr) :=
  x.effects ++ (acts.filterMap CopyAct.written).map .relay

/-- The session forwards what its local application writes. -/
def ClientSession.forwards {HS Key : Type*} (x : ClientSession HS Key) : Bool :=
  match x.phase with
  | .relaying _ => true
  | _ => false

/-- The session got to its relay, which is when its handshake counts as successful. -/
def ClientSession.hasRelayed {HS Key : Type*} (x : ClientSession HS Key) : Bool :=
  match x.phase with
  | .relaying _ => true
  | .ended _ => x.handshakeSucceeded
  | _ => false

/-- The copy tasks of a client. -/
def ClientSession.copying {HS Key : Type*} (snow : Snow HS Key) (setup : ClientSetup) :
    Copying (ClientSession.watcher snow setup) where
  hasRelayed := hasRelayed
  gone {x} hrelayed hgone e := by
    obtain ⟨phase, received, sent, succeeded⟩ := x
    cases phase with
    | relaying => cases hgone
    | ended => rfl
    | _ => cases hrelayed

theorem ClientSession.shaken_of_hasRelayed {HS Key : Type*} {snow : Snow HS Key}
    {setup : ClientSetup} {x : ClientSession HS Key}
    (h : (clientSession snow setup).Reachable EventSystem.always x)
    (hrelayed : x.hasRelayed = true) : Shaken snow setup x.received x.sent := by
  refine shaken_of_reachable h ?_
  rw [hasRelayed.eq_def] at hrelayed
  split at hrelayed
  · rename_i transport hphase
    exact .inl ⟨transport, hphase⟩
  · exact .inr hrelayed
  · cases hrelayed

/-- A server is confined to its destination, with all its sessions, however they
    interleave and end, and with the copy tasks that outlive them. At most
    `max_connections` sessions that have not ended reach for the destination at a
    time. Each that does, or has written anything to the stream that Noise is spoken
    on, does so for a client that is authorised and was authenticated under a
    configured identity; it speaks to the destination and to nobody else, after one
    responder frame. What acts without a session are copy tasks of one that got to
    its relay, and this has ended for good. Once `serve` has returned `Ok`, no session
    does anything any more, and what is left is such tasks. -/
theorem server_confined {Addr HS Key : Type*} {snow : Snow HS Key} {setup : Setup Addr}
    {maxConnections : ℕ} {x : WholeProcess (ServerSession Addr HS Key)}
    (h : (wholeProcess (ServerSession.copying snow setup) maxConnections).Reachable
      EventSystem.always x) :
    x.running.numberOf ServerSession.reaches ≤ maxConnections ∧
    (∀ i s, x.running.state i = some s →
      s.reaches = true ∨ s.effectsWith (x.acts i) ≠ [] →
        ServerSession.Authenticated snow setup s.received ∧
        ServerSession.Spoken setup.destination (s.effectsWith (x.acts i))) ∧
    (∀ i, x.acts i ≠ [] → ∃ s, x.running.state i = some s ∧ s.hasRelayed = true ∧
      ∀ x', (wholeProcess (ServerSession.copying snow setup) maxConnections).Path
        EventSystem.always x x' → x'.running.state i = some s) ∧
    (x.running.service.serving = .returned (.ok ()) → x.running.numberOf (fun _ => true) = 0 ∧
      ∀ x', (wholeProcess (ServerSession.copying snow setup) maxConnections).Path
        EventSystem.always x x' → x'.running.tasks = x.running.tasks) := by
  have hrunning := WholeProcess.running_of_reachable h
  refine ⟨Watched.numberOf_le hrunning _, fun i s hs hdone => ?_, fun i hacts =>
    WholeProcess.left_of_acts h hacts, fun hreturned => ?_⟩
  · obtain ⟨task, hmem, hstate⟩ := Watched.exists_task hs
    have hreach := ServerSession.reachable_of_watched hrunning task hmem s hstate
    by_cases hacts : x.acts i = []
    · have heffects : s.effectsWith (x.acts i) = s.effects := by
        rw [hacts]
        exact List.append_nil _
      rw [heffects] at hdone ⊢
      have hinv := ServerSession.inv_of_reachable hreach
      refine hinv.spoken.resolve_left fun hnil => ?_
      rcases hdone with hreaches | hne
      · exact ServerSession.effects_ne_nil hinv hreaches hnil
      · exact hne hnil
    -- Orphaned tasks go on with what their relay did.
    · obtain ⟨s', hs', hrelayed, -⟩ := WholeProcess.left_of_acts h hacts
      obtain rfl : s = s' := Option.some.inj (hs.symm.trans hs')
      obtain ⟨hauth, message, pieces, relayed, heffects, hframe⟩ :=
        ServerSession.relayed_of_reachable hreach hrelayed
      refine ⟨hauth, message, pieces, _, ?_, ⟨[], by rw [List.append_nil, hframe]⟩,
        .inr ⟨hframe, relayed ++ (x.acts i).filterMap CopyAct.written, rfl⟩⟩
      rw [ServerSession.effectsWith, heffects, List.map_append, List.append_assoc,
        List.cons_append]
  · exact ⟨Watched.numberOf_of_returned hrunning hreturned _, fun x' hpath =>
      Watched.inert hrunning hreturned (WholeProcess.running_of_path hpath)⟩

/-- One permit. The session that had it ends while a copy task of it writes, and a second
    session connects. -/
theorem server_confined_one :
    let key (b : UInt8) : StaticKey := ⟨List.replicate 32 b, List.length_replicate⟩
    let snow : Snow Bytes Unit := ⟨fun _ _ => .error .decrypt, fun _ => .ok [],
      fun s => .ok (⟨[8], by decide⟩, s), fun _ message => .ok (message ++ message), some,
      fun _ => .ok (.fresh () ())⟩
    let setup : Setup ℕ := ⟨false, .ok [key 1], .ok [key 7], 9⟩
    ∃ x : WholeProcess (ServerSession ℕ Bytes Unit),
      (wholeProcess (ServerSession.copying snow setup) 1).Reachable EventSystem.always x ∧
      x.running.numberOf ServerSession.reaches = 1 ∧
      x.running.numberOf ServerSession.reaches ≤ 1 ∧ x.acts 0 = [.write [5]] ∧
      ∃ s, x.running.state 0 = some s ∧
        ServerSession.Spoken setup.destination (s.effectsWith (x.acts 0)) := by
  intro key snow setup
  let first : Bytes := [0, 16] ++ List.replicate 16 7
  let opened : List ProcessEvent :=
    [.watched (.service (.accept (.ok ())))] ++ List.replicate 5 (.watched (.service .advance))
  let shaken (i : ℕ) : List ProcessEvent := [.watched (.enter i)] ++
    [.proceed, .proceed, .read prefaceBytes, .read (first.take 2), .read (first.drop 2),
      .write 3, .proceed].map fun e => .watched (.session i e)
  let x := ((wholeProcess (ServerSession.copying snow setup) 1).run EventSystem.always (.initial 1)
    (opened ++ shaken 0 ++
      [.proceed, .proceed, .proceed, .relayEnd (.ok ())].map (fun e => .watched (.session 0 e)) ++
      [.watched (.service (.session 0 (.finish (.ok ()) 5)))] ++
      List.replicate 12 (.watched (.service (.session 0 .close))) ++
      [.copy 0 (.write [5])] ++ opened ++ shaken 1)).get (by decide +kernel)
  have hreach : (wholeProcess (ServerSession.copying snow setup) 1).Reachable
      EventSystem.always x :=
    EventSystem.reachable_of_run ⟨by decide, rfl⟩ (Option.some_get _).symm
  have hacts : x.acts 0 = [.write [5]] := by decide +kernel
  have hne : x.acts 0 ≠ [] := hacts ▸ List.cons_ne_nil _ _
  obtain ⟨hle, hspoken, hleft, -⟩ := server_confined hreach
  obtain ⟨s, hs, -, -⟩ := hleft 0 hne
  refine ⟨x, hreach, by decide +kernel, hle, hacts, s, hs, (hspoken 0 s hs (.inr ?_)).2⟩
  rw [ServerSession.effectsWith, hacts]
  exact List.append_ne_nil_of_right_ne_nil _ (List.cons_ne_nil _ _)

/-- A client is confined to the server that it pins, with all its sessions and the copy
    tasks that outlive them. At most `max_connections` sessions that have not ended are
    under way at a time. On the stream that Noise is spoken on, each sends at most the
    preface and one first message to that server until the handshake is complete; what
    its local application writes is forwarded, by the session or by an orphaned task,
    only after `snow` has read the reply to it. Orphaned tasks are as in a server. -/
theorem client_confined {HS Key : Type*} {snow : Snow HS Key} {setup : ClientSetup}
    {maxConnections : ℕ} {x : WholeProcess (ClientSession HS Key)}
    (h : (wholeProcess (ClientSession.copying snow setup) maxConnections).Reachable
      EventSystem.always x) :
    x.running.numberOf (fun _ => true) ≤ maxConnections ∧
    (∀ i s, x.running.state i = some s → ClientSession.Spoken snow setup s.sent ∧
      (s.forwards = true ∨ s.handshakeSucceeded = true ∨ x.acts i ≠ [] →
        ClientSession.Shaken snow setup s.received s.sent)) ∧
    (∀ i, x.acts i ≠ [] → ∃ s, x.running.state i = some s ∧ s.hasRelayed = true ∧
      ∀ x', (wholeProcess (ClientSession.copying snow setup) maxConnections).Path
        EventSystem.always x x' → x'.running.state i = some s) ∧
    (x.running.service.serving = .returned (.ok ()) → x.running.numberOf (fun _ => true) = 0 ∧
      ∀ x', (wholeProcess (ClientSession.copying snow setup) maxConnections).Path
        EventSystem.always x x' → x'.running.tasks = x.running.tasks) := by
  have hrunning := WholeProcess.running_of_reachable h
  refine ⟨Watched.numberOf_le hrunning _, fun i s hs => ?_, fun i hacts =>
    WholeProcess.left_of_acts h hacts, fun hreturned => ?_⟩
  · obtain ⟨task, hmem, hstate⟩ := Watched.exists_task hs
    have hreach := ClientSession.reachable_of_watched hrunning task hmem s hstate
    refine ⟨(ClientSession.inv_of_reachable hreach).spoken.1, ?_⟩
    rintro (hforwards | hsucceeded | hacts)
    · rw [ClientSession.forwards] at hforwards
      split at hforwards
      · rename_i transport hphase
        exact ClientSession.shaken_of_reachable hreach (.inl ⟨transport, hphase⟩)
      · cases hforwards
    · exact ClientSession.shaken_of_reachable hreach (.inr hsucceeded)
    · obtain ⟨s', hs', hrelayed, -⟩ := WholeProcess.left_of_acts h hacts
      obtain rfl : s = s' := Option.some.inj (hs.symm.trans hs')
      exact ClientSession.shaken_of_hasRelayed hreach hrelayed
  · exact ⟨Watched.numberOf_of_returned hrunning hreturned _, fun x' hpath =>
      Watched.inert hrunning hreturned (WholeProcess.running_of_path hpath)⟩

/-- The one session of a client is told of the shutdown while it forwards; `serve` waits
    for it and returns, and a copy task still writes. -/
theorem client_confined_one :
    let key (b : UInt8) : StaticKey := ⟨List.replicate 32 b, List.length_replicate⟩
    let snow : Snow Bytes Unit := ⟨fun _ _ => .ok [], fun _ => .error .decrypt,
      fun s => .ok (⟨[8], by decide⟩, s), fun _ message => .ok message, some,
      fun _ => .ok (.fresh () ())⟩
    let setup : ClientSetup := ⟨false, .ok (), .ok (key 7), .ok (key 1)⟩
    ∃ x : WholeProcess (ClientSession Bytes Unit),
      (wholeProcess (ClientSession.copying snow setup) 1).Reachable EventSystem.always x ∧
      x.running.service.serving = .returned (.ok ()) ∧
      x.running.numberOf (fun _ => true) = 0 ∧ x.acts 0 = [.write [5]] ∧
      ∃ s, x.running.state 0 = some s ∧ ClientSession.Shaken snow setup s.received s.sent := by
  intro key snow setup
  let x := ((wholeProcess (ClientSession.copying snow setup) 1).run EventSystem.always (.initial 1)
    ([.watched (.service (.accept (.ok ())))] ++
      List.replicate 5 (.watched (.service .advance)) ++ [.watched (.enter 0)] ++
      [.proceed, .proceed, .proceed, .proceed, .proceed, .write 6, .write 3, .proceed, .read [0],
        .read [1], .read [9]].map (fun e => .watched (.session 0 e)) ++
      -- The signal comes, and the shutdown is sent.
      [.watched (.service (.signal (.ok ()))), .watched (.service .advance),
        .watched (.service .advance),
        .watched (.session 0 (.relayEnd (.error .shutdownRequested))),
        .watched (.service (.session 0 (.finish (.error ["shutdown requested".toList]) 5)))] ++
      List.replicate 12 (.watched (.service (.session 0 .close))) ++
      [.watched (.service (.join 0)), .watched (.service .advance),
        .copy 0 (.write [5])])).get (by decide +kernel)
  have hreach : (wholeProcess (ClientSession.copying snow setup) 1).Reachable
      EventSystem.always x :=
    EventSystem.reachable_of_run ⟨by decide, rfl⟩ (Option.some_get _).symm
  have hreturned : x.running.service.serving = .returned (.ok ()) := by decide +kernel
  have hacts : x.acts 0 = [.write [5]] := by decide +kernel
  have hne : x.acts 0 ≠ [] := hacts ▸ List.cons_ne_nil _ _
  obtain ⟨-, hsessions, hleft, hover⟩ := client_confined hreach
  obtain ⟨s, hs, -, -⟩ := hleft 0 hne
  exact ⟨x, hreach, hreturned, (hover hreturned).1, hacts, s, hs,
    (hsessions 0 s hs).2 (.inr (.inr hne))⟩

end SecureTunnel
