import SecureTunnel.Client.Session
import SecureTunnel.General.Watch
import SecureTunnel.Service.Serve

/-!
# The shutdown

How the sessions of a service learn of the shutdown: `serve` makes a watch channel,
clones its receiver for each session that it spawns, and sends once, after the
signal. A session borrows the value when its task is polled for the first time, and
has a branch on `changed` in the `select`s of its connects, of its outer TLS, of the
reads of the server's handshake, and of its relay; in between it does not look.

`watched` is the service beside its channel and its sessions, whichever of the two
kinds these are. What the service does is what `service` does
(`Watched.service_of_reachable`), and each session runs as it does by itself
(`Watched.states_of_reachable`).

In every state after the send, a session that has not finished has the change
unseen, or is returning because of it (`no_session_misses_shutdown`).
-/

namespace SecureTunnel

/-! ## Sessions that watch -/

/-- The events that complete a `changed`: in a `select` of a session, and in that of
    its relay. -/
def SessionEvent.polls (e : SessionEvent) : Bool :=
  e = .shutdown ∨ e = .relayEnd (.error .shutdownRequested)

/-- A session as a task that watches the channel of the shutdown. -/
structure SessionWatcher (σ : Type*) extends Watcher Bool σ SessionEvent where
  /-- What the session returned, once it has. -/
  result : σ → Option (Except (List Text) Unit)
  /-- The session is in the `select` of its relay. -/
  relaying : σ → Bool
  /-- That `select` has a branch for the shutdown. -/
  relay : ∀ {s}, relaying s = true →
    ∃ s', step s (.relayEnd (.error .shutdownRequested)) = some s'

namespace ServerSession

variable {Addr HS Key : Type*} {snow : Snow HS Key} {setup : Setup Addr}
  {x x' : ServerSession Addr HS Key} {e : SessionEvent}

/-- The session returned an error because of the shutdown. -/
def Told (x : ServerSession Addr HS Key) : Prop :=
  x.phase = .ended (.error .shutdownRequested) ∨
    x.phase = .ended (.error (.relay .shutdownRequested))

/-- One step of a session after its first look at the shutdown. -/
def proceed (snow : Snow HS Key) (setup : Setup Addr) (x : ServerSession Addr HS Key)
    (e : SessionEvent) : Option (ServerSession Addr HS Key) :=
  match x.phase, e with
  | .nodelay, .shutdown => none
  | _, _ => x.step snow setup e

theorem step_of_proceed (h : x.proceed snow setup e = some x') : x.step snow setup e = some x' := by
  rw [proceed.eq_def] at h
  split at h
  · cases h
  · exact h

theorem told_of_polls (h : x.step snow setup e = some x') (hpolls : e.polls = true) : x'.Told := by
  obtain ⟨phase, received, effects, succeeded⟩ := x
  obtain rfl | rfl := of_decide_eq_true hpolls
  · cases phase with
    | nodelay | tls | preface | first | connecting =>
      obtain rfl := Option.some.inj h
      exact .inl rfl
    | _ => cases h
  · cases phase with
    | relaying transport =>
      obtain rfl := Option.some.inj h
      exact .inr rfl
    | _ => cases h

theorem Told.final (h : x.Told) (e : SessionEvent) : x.proceed snow setup e = none := by
  obtain ⟨phase, received, effects, succeeded⟩ := x
  obtain (rfl : phase = _) | (rfl : phase = _) := h
  · rfl
  · rfl

/-- A session of the server. -/
def watcher (snow : Snow HS Key) (setup : Setup Addr) :
    SessionWatcher (ServerSession Addr HS Key) where
  enter requested := if requested then initial.fail .shutdownRequested else initial
  step := proceed snow setup
  polls := SessionEvent.polls
  Told := Told
  told_of_polls h := told_of_polls (step_of_proceed h)
  final h e := h.final e
  result x :=
    match x.phase with
    | .ended result => some (result.mapError SessionError.chain)
    | _ => none
  relaying x :=
    match x.phase with
    | .relaying _ => true
    | _ => false
  relay {x} h := by
    obtain ⟨phase, received, effects, succeeded⟩ := x
    cases phase with
    | relaying transport => exact ⟨_, rfl⟩
    | _ => cases h

end ServerSession

namespace ClientSession

variable {HS Key : Type*} {snow : Snow HS Key} {setup : ClientSetup}
  {x x' : ClientSession HS Key} {e : SessionEvent}

/-- The session returned an error because of the shutdown. -/
def Told (x : ClientSession HS Key) : Prop :=
  x.phase = .ended (.error .shutdownRequested) ∨
    x.phase = .ended (.error (.relay .shutdownRequested))

/-- One step of a session after its first look at the shutdown. -/
def proceed (snow : Snow HS Key) (setup : ClientSetup) (x : ClientSession HS Key)
    (e : SessionEvent) : Option (ClientSession HS Key) :=
  match x.phase, e with
  | .localNodelay, .shutdown => none
  | _, _ => x.step snow setup e

theorem step_of_proceed (h : x.proceed snow setup e = some x') : x.step snow setup e = some x' := by
  rw [proceed.eq_def] at h
  split at h
  · cases h
  · exact h

theorem told_of_polls (h : x.step snow setup e = some x') (hpolls : e.polls = true) : x'.Told := by
  obtain ⟨phase, received, sent, succeeded⟩ := x
  obtain rfl | rfl := of_decide_eq_true hpolls
  · cases phase with
    | localNodelay | connecting | tls =>
      obtain rfl := Option.some.inj h
      exact .inl rfl
    | _ => cases h
  · cases phase with
    | relaying transport =>
      obtain rfl := Option.some.inj h
      exact .inr rfl
    | _ => cases h

theorem Told.final (h : x.Told) (e : SessionEvent) : x.proceed snow setup e = none := by
  obtain ⟨phase, received, sent, succeeded⟩ := x
  obtain (rfl : phase = _) | (rfl : phase = _) := h
  · rfl
  · rfl

/-- A session of the client. -/
def watcher (snow : Snow HS Key) (setup : ClientSetup) :
    SessionWatcher (ClientSession HS Key) where
  enter requested := if requested then initial.fail .shutdownRequested else initial
  step := proceed snow setup
  polls := SessionEvent.polls
  Told := Told
  told_of_polls h := told_of_polls (step_of_proceed h)
  final h e := h.final e
  result x :=
    match x.phase with
    | .ended result => some (result.mapError ClientSessionError.chain)
    | _ => none
  relaying x :=
    match x.phase with
    | .relaying _ => true
    | _ => false
  relay {x} h := by
    obtain ⟨phase, received, sent, succeeded⟩ := x
    cases phase with
    | relaying transport => exact ⟨_, rfl⟩
    | _ => cases h

end ClientSession

/-! ## The service and its channel -/

/-- A service, the channel of its shutdown, and what its sessions do. -/
structure Watched (σ : Type*) where
  service : Service
  cell : Watch Bool
  /-- `shutdown_rx`, which is cloned and not polled. -/
  receiver : Watch.Receiver
  tasks : List (Watching σ)

/-- What can happen to them. -/
inductive WatchedEvent
  | service (e : ServiceEvent)
  /-- The task of a session is polled for the first time. -/
  | enter (i : ℕ)
  | session (i : ℕ) (e : SessionEvent)
  deriving DecidableEq

namespace Watched

variable {σ : Type*} (W : SessionWatcher σ)

def initial (maxConnections : ℕ) : Watched σ :=
  ⟨.initial maxConnections, (Watch.channel false).1, (Watch.channel false).2, []⟩

/-- What a session returned, if it did. -/
def result (x : Watched σ) (i : ℕ) : Option (Except (List Text) Unit) :=
  (x.tasks[i]?.bind Watching.state).bind W.result

/-- The task of a session has not ended. -/
def isLive (x : Watched σ) (i : ℕ) : Bool := x.service.sessions[i]?.any fun s => !s.course.isEnded

/-- A session goes to `finish_connection` with what it returned. What else the
    service sees of it is up to the events. -/
def admits (x : Watched σ) : ServiceEvent → Bool
  | .session i (.finish result _) => x.result W i = some result
  | _ => true

/-- What a step of the service does to the channel and the sessions. -/
def follow (x : Watched σ) (e : ServiceEvent) (service : Service) : Watched σ :=
  match x.service.serving, e, service.serving with
  -- The session gets a clone of the receiver.
  | .opened _, .advance, _ => { x with service, tasks := x.tasks ++ [⟨x.receiver, none⟩] }
  | .signalled, .advance, _ => { x with service, cell := x.cell.send true }
  -- `serve` drops its sender.
  | _, _, .returned _ => { x with service, cell := x.cell.close }
  | _, _, _ => { x with service }

def step (x : Watched σ) : WatchedEvent → Option (Watched σ)
  | .service e => if x.admits W e then (x.service.step e).map (x.follow e) else none
  | .enter i =>
    if x.isLive i then
      x.tasks[i]?.bind fun task =>
        (task.enter W.toWatcher x.cell).map fun task => { x with tasks := x.tasks.set i task }
    else none
  | .session i e =>
    if x.isLive i then
      x.tasks[i]?.bind fun task =>
        (task.act W.toWatcher x.cell e).map fun task => { x with tasks := x.tasks.set i task }
    else none

end Watched

/-- A service whose sessions watch for the shutdown. -/
def watched {σ : Type*} (W : SessionWatcher σ) (maxConnections : ℕ) :
    EventSystem (Watched σ) WatchedEvent where
  init x := maxConnections ≤ maxPermits ∧ x = .initial maxConnections
  step := Watched.step W

/-! ## What one step does -/

/-- Sessions are spawned, and told of the shutdown, at one place each. -/
theorem Service.step_keeps {x x' : Service} {e : ServiceEvent} (h : x.step e = some x')
    (hspawn : ∀ telemetry, x.serving = .opened telemetry → e ≠ .advance)
    (hsend : x.serving = .signalled → e ≠ .advance) :
    x'.sessions.length = x.sessions.length ∧ x'.shutdown = x.shutdown := by
  cases e with
  | signal result =>
    obtain ⟨-, ⟨-, rfl⟩ | ⟨e, -, rfl⟩⟩ := signal_cases h <;> exact ⟨rfl, rfl⟩
  | accept result =>
    obtain ⟨-, ⟨-, rfl⟩ | ⟨e, -, rfl⟩⟩ := accept_cases h <;> exact ⟨rfl, rfl⟩
  | join i =>
    obtain ⟨task, -, -, rfl⟩ := join_cases h
    exact ⟨List.length_set, rfl⟩
  | session i e =>
    obtain ⟨task, task', m, released, -, -, rfl⟩ := session_cases h
    exact ⟨List.length_set, rfl⟩
  | advance =>
    cases advance_cases h with
    | spawn hserving => exact absurd rfl (hspawn _ hserving)
    | tell hserving => exact absurd rfl (hsend hserving)
    | _ => exact ⟨rfl, rfl⟩

namespace Watched

variable {σ : Type*} {W : SessionWatcher σ} {x x' : Watched σ}

/-- All that the service can do to the channel and the sessions. -/
inductive ServiceMove (x : Watched σ) : Watched σ → Prop
  | spawn {service : Service} : service.sessions.length = x.service.sessions.length + 1 →
      service.shutdown = x.service.shutdown →
      ServiceMove x { x with service, tasks := x.tasks ++ [⟨x.receiver, none⟩] }
  | send {service : Service} : service.sessions.length = x.service.sessions.length →
      service.shutdown = true → ServiceMove x { x with service, cell := x.cell.send true }
  | go {service : Service} {closed : Bool} :
      service.sessions.length = x.service.sessions.length →
      service.shutdown = x.service.shutdown →
      ServiceMove x { x with service, cell := { x.cell with closed } }

theorem follow_move {e : ServiceEvent} {service : Service} (h : x.service.step e = some service) :
    ServiceMove x (x.follow e service) := by
  rw [follow.eq_def]
  split
  · rename_i hopened
    cases Service.advance_cases h with
    | spawn => exact .spawn (by simp) rfl
    | _ => simp_all
  · rename_i hsignalled
    cases Service.advance_cases h with
    | tell => exact .send rfl rfl
    | _ => simp_all
  · rename_i hspawn hsend
    obtain ⟨hlength, hshutdown⟩ := Service.step_keeps h hspawn hsend
    exact .go hlength hshutdown
  · rename_i hspawn hsend _
    obtain ⟨hlength, hshutdown⟩ := Service.step_keeps h hspawn hsend
    exact .go hlength hshutdown

/-- All that can happen: the service moves, or the task of a session, which has not
    ended, is polled. -/
theorem step_cases {e : WatchedEvent} (h : x.step W e = some x') :
    (∃ e service, x.service.step e = some service ∧ x' = x.follow e service ∧ ServiceMove x x') ∨
    ∃ i task task', x.tasks[i]? = some task ∧ x' = { x with tasks := x.tasks.set i task' } ∧
      (task.enter W.toWatcher x.cell = some task' ∨
        ∃ e, task.act W.toWatcher x.cell e = some task') := by
  cases e with
  | service e =>
    rw [step] at h
    split at h
    · obtain ⟨service, hstep, rfl⟩ := Option.map_eq_some_iff.1 h
      exact .inl ⟨e, service, hstep, rfl, follow_move hstep⟩
    · cases h
  | enter i =>
    rw [step] at h
    split at h
    · obtain ⟨task, htask, h⟩ := Option.bind_eq_some_iff.1 h
      obtain ⟨task', henter, rfl⟩ := Option.map_eq_some_iff.1 h
      exact .inr ⟨i, task, task', htask, rfl, .inl henter⟩
    · cases h
  | session i e =>
    rw [step] at h
    split at h
    · obtain ⟨task, htask, h⟩ := Option.bind_eq_some_iff.1 h
      obtain ⟨task', hact, rfl⟩ := Option.map_eq_some_iff.1 h
      exact .inr ⟨i, task, task', htask, rfl, .inr ⟨e, hact⟩⟩
    · cases h

/-! ## Over whole runs -/

/-- What the channel tells the sessions. -/
structure Inv (W : SessionWatcher σ) (x : Watched σ) : Prop where
  spawned : x.tasks.length = x.service.sessions.length
  value : x.cell.value = x.service.shutdown
  version : x.service.shutdown = true → 0 < x.cell.version
  /-- `serve` never polls its own receiver. -/
  original : x.receiver.seen = 0
  seen : ∀ task ∈ x.tasks, task.receiver.seen ≤ x.cell.version
  aware : x.service.shutdown = true → ∀ task ∈ x.tasks, task.Aware W.toWatcher x.cell

theorem inv_initial (maxConnections : ℕ) : (initial maxConnections : Watched σ).Inv W :=
  ⟨rfl, rfl, nofun, rfl, nofun, nofun⟩

theorem Inv.serviceMove (h : x.Inv W) (hmove : ServiceMove x x') : x'.Inv W := by
  cases hmove with
  | spawn hlength hshutdown =>
    -- A new task starts from a clone of the receiver, which has not seen a signal.
    have hclone : (⟨x.receiver, none⟩ : Watching σ).receiver.seen = 0 := h.original
    constructor
    case spawned => simp only [List.length_append, List.length_singleton, h.spawned, hlength]
    case value => exact h.value.trans hshutdown.symm
    case version => exact fun hsent => h.version (hshutdown ▸ hsent)
    case original => exact h.original
    case seen =>
      intro task hmem
      obtain hmem | hmem := List.mem_append.1 hmem
      · exact h.seen task hmem
      · rw [List.mem_singleton.1 hmem, hclone]
        exact Nat.zero_le _
    case aware =>
      intro hsent task hmem
      obtain hmem | hmem := List.mem_append.1 hmem
      · exact h.aware (hshutdown ▸ hsent) task hmem
      · rw [List.mem_singleton.1 hmem]
        exact .inl (show _ < _ from hclone ▸ h.version (hshutdown ▸ hsent))
  | send hlength hshutdown =>
    constructor
    case spawned => exact h.spawned.trans hlength.symm
    case value => exact hshutdown.symm
    case version => exact fun _ => Nat.succ_pos _
    case original => exact h.original
    -- The version grows, so that every receiver has something to see.
    case seen => exact fun task hmem => Nat.le_succ_of_le (h.seen task hmem)
    case aware => exact fun _ task hmem => Watching.aware_send (h.seen task hmem) true
  | go hlength hshutdown =>
    exact ⟨h.spawned.trans hlength.symm, h.value.trans hshutdown.symm,
      fun hsent => h.version (hshutdown ▸ hsent), h.original, h.seen,
      fun hsent => h.aware (hshutdown ▸ hsent)⟩

theorem Inv.step {e : WatchedEvent} (h : x.Inv W) (hstep : x.step W e = some x') : x'.Inv W := by
  obtain ⟨_, _, -, -, hmove⟩ | ⟨i, task, task', htask, rfl, hpolled⟩ := step_cases hstep
  · exact h.serviceMove hmove
  have hmem := List.mem_of_getElem? htask
  constructor
  case spawned => exact List.length_set.trans h.spawned
  case value => exact h.value
  case version => exact h.version
  case original => exact h.original
  case seen =>
    intro task₁ hmem₁
    obtain hmem₁ | rfl := List.mem_or_eq_of_mem_set hmem₁
    · exact h.seen task₁ hmem₁
    obtain henter | ⟨e, hact⟩ := hpolled
    · exact Watching.seen_enter (h.seen task hmem) henter
    · exact Watching.seen_act (h.seen task hmem) hact
  case aware =>
    intro hsent task₁ hmem₁
    obtain hmem₁ | rfl := List.mem_or_eq_of_mem_set hmem₁
    · exact h.aware hsent task₁ hmem₁
    obtain henter | ⟨e, hact⟩ := hpolled
    · exact (h.aware hsent task hmem).enter henter
    · exact (h.aware hsent task hmem).act hact

theorem inv_of_reachable {n : ℕ} (h : (watched W n).Reachable EventSystem.always x) : x.Inv W :=
  h.invariant (fun hinit => hinit.2 ▸ inv_initial n) fun _ hinv _ hstep => hinv.step hstep

theorem follow_service (e : ServiceEvent) (service : Service) :
    (x.follow e service).service = service := by
  rw [follow.eq_def]
  split <;> rfl

/-- The channel and the sessions beside it are nothing to the service. -/
theorem service_of_reachable {n : ℕ} (h : (watched W n).Reachable EventSystem.always x) :
    (SecureTunnel.service n).Reachable EventSystem.always x.service := by
  induction h with
  | init hinit => exact .init ⟨hinit.1, congrArg Watched.service hinit.2⟩
  | step _ _ hstep ih =>
    obtain ⟨e, service, hservice, rfl, -⟩ | ⟨_, _, _, -, rfl, -⟩ := step_cases hstep
    · rw [follow_service]
      exact .step ih trivial hservice
    · exact ih

/-- What holds of a session by itself, from its first look at the shutdown on, holds
    of every session of a service. -/
theorem states_of_reachable {P : σ → Prop} {n : ℕ} (henter : ∀ requested, P (W.enter requested))
    (hstep : ∀ {s e s'}, P s → W.step s e = some s' → P s')
    (h : (watched W n).Reachable EventSystem.always x) :
    ∀ task ∈ x.tasks, ∀ s, task.state = some s → P s := by
  refine EventSystem.Reachable.invariant
    (P := fun x => ∀ task ∈ x.tasks, ∀ s, task.state = some s → P s) h (fun hinit => ?_)
    fun {x e x'} _ hx _ hs => ?_
  · rw [hinit.2]
    exact nofun
  obtain ⟨_, _, -, -, hmove⟩ | ⟨i, task, task', htask, rfl, hpolled⟩ := step_cases hs
  · cases hmove with
    | spawn =>
      intro task hmem s hstate
      obtain hmem | hmem := List.mem_append.1 hmem
      · exact hx task hmem s hstate
      · rw [List.mem_singleton.1 hmem] at hstate
        cases hstate
    | send | go => exact hx
  intro task₁ hmem₁ s hstate
  obtain hmem₁ | rfl := List.mem_or_eq_of_mem_set hmem₁
  · exact hx task₁ hmem₁ s hstate
  obtain hentered | ⟨e, hact⟩ := hpolled
  · obtain ⟨-, rfl⟩ := Watching.enter_cases hentered
    cases hstate
    exact henter _
  · obtain ⟨s₀, s₁, hstate₀, hstep₀, hstate₁, -⟩ := Watching.act_cases hact
    rw [hstate₁] at hstate
    cases hstate
    exact hstep (hx task (List.mem_of_getElem? htask) s₀ hstate₀) hstep₀

/-! ## What the shutdown does -/

/-- Every session that has not finished heeds the shutdown. -/
structure Heeded (W : SessionWatcher σ) (x : Watched σ) : Prop where
  /-- Its receiver has the change unseen, or it is returning an error because of it. -/
  aware : ∀ i, x.isLive i = true → ∃ task, x.tasks[i]? = some task ∧
    (task.receiver.Unseen x.cell ∨ ∃ s, task.state = some s ∧ W.Told s)
  /-- If it is in the `select` of its relay, the branch for the shutdown is ready. -/
  ready : ∀ i task s, x.isLive i = true → x.tasks[i]? = some task → task.state = some s →
    W.relaying s = true → task.receiver.ready x.cell = true ∧
      (∃ x', x.step W (.session i (.relayEnd (.error .shutdownRequested))) = some x') ∧
      ∀ (idle : Side → ℕ) (t : Tunnel) side requestComplete,
        (t.host side).shutdown = task.receiver.ready x.cell →
        t.select idle side requestComplete .shutdown =
          some (t.leave side (.error .shutdownRequested))

theorem exists_task_of_isLive (h : x.Inv W) {i : ℕ} (hlive : x.isLive i = true) :
    ∃ task, x.tasks[i]? = some task := by
  obtain ⟨session, hsession, -⟩ := (Option.any_eq_true _ _).1 hlive
  have hlt : i < x.tasks.length := h.spawned ▸ (List.getElem?_eq_some_iff.1 hsession).1
  exact ⟨_, List.getElem?_eq_getElem hlt⟩

theorem Inv.heeded (h : x.Inv W) (hsent : x.cell.value = true) : x.Heeded W := by
  have haware := h.aware (h.value ▸ hsent)
  constructor
  case aware =>
    intro i hlive
    obtain ⟨task, htask⟩ := exists_task_of_isLive h hlive
    exact ⟨task, htask, haware task (List.mem_of_getElem? htask)⟩
  case ready =>
    intro i task s hlive htask hstate hrelaying
    obtain ⟨s', hstep⟩ := W.relay hrelaying
    -- What can still step is not returning, and so has the change before it.
    have hgoing : ¬W.Told s := fun htold => by
      rw [W.final htold] at hstep
      cases hstep
    have hunseen := (haware task (List.mem_of_getElem? htask)).unseen hstate hgoing
    have hready := Watch.Receiver.ready_of_unseen hunseen
    refine ⟨hready, ?_, fun idle t side requestComplete hflag => ?_⟩
    · obtain ⟨task', hact, -⟩ := Watching.exists_act hunseen hstate hstep
      exact ⟨_, by rw [Watched.step, if_pos hlive, htask, Option.bind_some, hact, Option.map_some]⟩
    · rw [Tunnel.select, if_pos (hflag.trans hready)]

end Watched

/-- A session of the server that a service runs is one of `serverSession`. -/
theorem ServerSession.reachable_of_watched {Addr HS Key : Type*} {snow : Snow HS Key}
    {setup : Setup Addr} {n : ℕ} {x : Watched (ServerSession Addr HS Key)}
    (h : (watched (watcher snow setup) n).Reachable EventSystem.always x) :
    ∀ task ∈ x.tasks, ∀ s, task.state = some s →
      (serverSession snow setup).Reachable EventSystem.always s := by
  refine Watched.states_of_reachable ?_ (fun hs hstep => .step hs trivial (step_of_proceed hstep)) h
  rintro ⟨⟩
  · exact .init rfl
  · exact .step (e := .shutdown) (.init rfl) trivial rfl

/-- A session of the client that a service runs is one of `clientSession`. -/
theorem ClientSession.reachable_of_watched {HS Key : Type*} {snow : Snow HS Key}
    {setup : ClientSetup} {n : ℕ} {x : Watched (ClientSession HS Key)}
    (h : (watched (watcher snow setup) n).Reachable EventSystem.always x) :
    ∀ task ∈ x.tasks, ∀ s, task.state = some s →
      (clientSession snow setup).Reachable EventSystem.always s := by
  refine Watched.states_of_reachable ?_ (fun hs hstep => .step hs trivial (step_of_proceed hstep)) h
  rintro ⟨⟩
  · exact .init rfl
  · exact .step (e := .shutdown) (.init rfl) trivial rfl

/-- No session misses the shutdown. On server and client, wherever the sessions were
    when it was sent: one that has not finished has the change unseen, or is
    returning an error because of it, and the `select` of its relay, once it gets
    there, has the branch for the shutdown ready. -/
theorem no_session_misses_shutdown {Addr HS Key : Type*} (snow : Snow HS Key) (setup : Setup Addr)
    (clientSetup : ClientSetup) (maxConnections : ℕ) :
    (∀ {x}, (watched (ServerSession.watcher snow setup) maxConnections).Reachable
      EventSystem.always x → x.cell.value = true → x.Heeded (ServerSession.watcher snow setup)) ∧
    ∀ {x}, (watched (ClientSession.watcher snow clientSetup) maxConnections).Reachable
      EventSystem.always x → x.cell.value = true →
      x.Heeded (ClientSession.watcher snow clientSetup) :=
  ⟨fun hx hsent => (Watched.inv_of_reachable hx).heeded hsent,
    fun hx hsent => (Watched.inv_of_reachable hx).heeded hsent⟩

/-- The shutdown is sent while a session of the client writes its first message. The
    session finishes its handshake, and its relay finds the branch ready. -/
theorem no_session_misses_shutdown_handshaking :
    let key (b : UInt8) : StaticKey := ⟨List.replicate 32 b, List.length_replicate⟩
    let snow : Snow Bytes Unit := ⟨fun _ _ => .ok [], fun _ => .error .decrypt,
      fun s => .ok (⟨[8], by decide⟩, s), fun _ message => .ok message, some,
      fun _ => .ok (.fresh () ())⟩
    let setup : ClientSetup := ⟨false, .ok (), .ok (key 7), .ok (key 1)⟩
    let W := ClientSession.watcher snow setup
    ∃ x : Watched (ClientSession Bytes Unit),
      (watched W 1).Reachable EventSystem.always x ∧ x.cell.value = true ∧
      ∃ x', x.step W (.session 0 (.relayEnd (.error .shutdownRequested))) = some x' := by
  intro key snow setup W
  let advance : List WatchedEvent := List.replicate 5 (.service .advance)
  let x := ((watched W 1).run EventSystem.always (.initial 1)
    ([.service (.accept (.ok ()))] ++ advance ++ [.enter 0] ++
      [.proceed, .proceed, .proceed, .proceed, .proceed, .write 6].map (.session 0) ++
      -- The signal comes, and the shutdown is sent.
      [.service (.signal (.ok ())), .service .advance] ++
      [.write 3, .proceed, .read [0], .read [1], .read [9]].map (.session 0))).get
    (by decide +kernel)
  have hreach : (watched W 1).Reachable EventSystem.always x :=
    EventSystem.reachable_of_run ⟨by decide, rfl⟩ (Option.some_get _).symm
  have hsent : x.cell.value = true := by decide +kernel
  have hrelaying : (x.tasks[0]?.bind Watching.state).any W.relaying = true := by decide +kernel
  obtain ⟨s, hs, hrelaying⟩ := (Option.any_eq_true _ _).1 hrelaying
  obtain ⟨task, htask, hstate⟩ := Option.bind_eq_some_iff.1 hs
  have hheeded := (no_session_misses_shutdown snow (⟨false, .ok [], .ok [], ()⟩ : Setup Unit) setup
    1).2 hreach hsent
  exact ⟨x, hreach, hsent, (hheeded.ready 0 task s (by decide +kernel) htask hstate hrelaying).2.1⟩

end SecureTunnel
