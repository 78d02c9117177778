import SecureTunnel.Account.Metrics
import SecureTunnel.General.Transition

/-!
# The service

`serve` of client and server is the same loop. Its `select` waits for the shutdown
signal, for a connection, and for the end of a session. A connection that finds a
permit is counted and served by a task of its own, which holds the permit until
its end; one that does not is dropped. After the signal the listener is closed,
and the sessions are waited for.

What a session does is up to the events; what it shares with the service, the
counters and its permit, is modelled one atomic operation at a time. The tasks of
a service that returned with an error are cancelled: the set of sessions is
dropped with the locals of `serve`.

Only the signal ends the service, as long as no accept fails
(`only_signal_ends_service`).
-/

namespace SecureTunnel

/-! ## Sessions -/

/-- What `connection_closed` has read of a session's telemetry. -/
structure Receipt where
  handshaken : Bool
  bytesIn : UInt64
  bytesOut : UInt64
  deriving DecidableEq

/-- What was read is added at the next place. -/
def Receipt.note (r : Receipt) : Closing → Receipt
  | .outcome handshaken => { r with handshaken }
  | .addBytesIn bytes => { r with bytesIn := bytes }
  | .addBytesOut bytes => { r with bytesOut := bytes }
  | _ => r

/-- Where the task of a session is. -/
inductive Course
  | running
  /-- In `finish_connection`. -/
  | closing (reason : CloseReason) (durationMs : UInt64) (next : Closing)
  | finished (reason : CloseReason) (durationMs : UInt64)
  | panicked
  | cancelled
  deriving DecidableEq

namespace Course

def isEnded : Course → Bool
  | running | closing .. => false
  | finished .. | panicked | cancelled => true

/-- The session ran to its end. -/
def isThrough : Course → Bool
  | finished .. | panicked => true
  | _ => false

end Course

/-- A session that was spawned. -/
structure SessionTask where
  telemetry : ConnectionTelemetry
  course : Course
  read : Receipt
  /-- `join_next` has returned its end. -/
  joined : Bool
  deriving DecidableEq

def SessionTask.spawned (telemetry : ConnectionTelemetry) : SessionTask :=
  ⟨telemetry, .running, ⟨false, 0, 0⟩, false⟩

/-- What can happen in a session, as far as the service is concerned. -/
inductive TaskEvent
  | handshake
  /-- A copy task adds to a byte counter. It may still do so after its relay returned. -/
  | copiedIn (bytes : UInt64)
  | copiedOut (bytes : UInt64)
  /-- `handle_outer` or `handle_local` returns, so long after the opening. -/
  | finish (result : Except (List Text) Unit) (elapsed : ℕ)
  /-- The next operation of `finish_connection`. -/
  | close
  | panic
  /-- The task is dropped. -/
  | cancel
  deriving DecidableEq

/-- One operation of a session: the session and the counters after it, and whether
    its permit is given back. -/
def SessionTask.step (task : SessionTask) (m : TunnelMetrics) (dropped : Bool) :
    TaskEvent → Option (SessionTask × TunnelMetrics × Bool)
  | .handshake =>
    if task.course = .running then
      some ({ task with telemetry := { task.telemetry with handshakeSucceeded := true } }, m, false)
    else none
  | .copiedIn bytes =>
    if task.telemetry.handshakeSucceeded then
      some ({ task with telemetry := { task.telemetry with
        bytesClientToServer := task.telemetry.bytesClientToServer + bytes } }, m, false)
    else none
  | .copiedOut bytes =>
    if task.telemetry.handshakeSucceeded then
      some ({ task with telemetry := { task.telemetry with
        bytesServerToClient := task.telemetry.bytesServerToClient + bytes } }, m, false)
    else none
  | .finish result elapsed =>
    if task.course = .running then
      some ({ task with
        course := .closing (finishReason result) (.ofNat (min elapsed (2 ^ 64 - 1))) .active },
        m, false)
    else none
  | .close =>
    match task.course with
    -- The task ends, and drops its permit.
    | .closing reason durationMs .done =>
      some ({ task with course := .finished reason durationMs }, m, true)
    | .closing reason durationMs next =>
      let after := closingStep m task.telemetry reason durationMs next
      some ({ task with
        course := .closing reason durationMs after.2, read := task.read.note next }, after.1, false)
    | _ => none
  | .panic =>
    if task.course.isEnded then none else some ({ task with course := .panicked }, m, true)
  | .cancel =>
    if dropped ∧ task.course = .running then some ({ task with course := .cancelled }, m, true)
    else none

/-! ## The loop -/

/-- How far `connection_opened` has come. -/
inductive Opening
  | active
  | total
  | id
  deriving DecidableEq

/-- Where `serve` is. -/
inductive Serving
  | select
  /-- A connection was accepted. -/
  | accepted
  /-- It has a permit, and is counted. -/
  | opening (next : Opening)
  | opened (telemetry : ConnectionTelemetry)
  /-- The shutdown signal came. -/
  | signalled
  /-- The sessions are told, and the loop is left. -/
  | leaving
  | draining
  | returned (result : Except (List Text) Unit)
  deriving DecidableEq

/-- `serve` is in its accept loop. -/
def Serving.isAccepting : Serving → Bool
  | select | accepted | opening _ | opened _ => true
  | _ => false

structure Service where
  serving : Serving
  /-- The listener is open. -/
  listener : Bool
  /-- The permits of the semaphore. -/
  available : ℕ
  /-- What the sessions see of the shutdown. -/
  shutdown : Bool
  metrics : TunnelMetrics
  /-- All sessions that were spawned. -/
  sessions : List SessionTask

/-- What can happen to a service. -/
inductive ServiceEvent
  /-- The branches of the `select`, with what they wait for. -/
  | signal (result : Except (List Text) Unit)
  | accept (result : Except Text Unit)
  | join (i : ℕ)
  /-- The next operation of `serve` outside of the `select`. -/
  | advance
  | session (i : ℕ) (e : TaskEvent)
  deriving DecidableEq

namespace Service

def initial (maxConnections : ℕ) : Service :=
  ⟨.select, true, maxConnections, false, .default, []⟩

/-- `serve` returns with an error, and drops its listener and its sessions. -/
def fail (x : Service) (e : List Text) : Service :=
  { x with serving := .returned (.error e), listener := false }

/-- The sessions were dropped, so that their tasks are cancelled. -/
def isFailed (x : Service) : Bool :=
  match x.serving with
  | .returned (.error _) => true
  | _ => false

def advance (x : Service) : Option Service :=
  match x.serving with
  | .select | .returned _ => none
  | .accepted =>
    match x.available with
    -- The connection is rejected at the limit.
    | 0 => some { x with serving := .select }
    | n + 1 => some { x with serving := .opening .active, available := n }
  | .opening .active =>
    some { x with serving := .opening .total, metrics := x.metrics.fetchAdd .activeConnections 1 }
  | .opening .total =>
    some { x with serving := .opening .id, metrics := x.metrics.fetchAdd .connectionsTotal 1 }
  | .opening .id =>
    some { x with
      serving := .opened (.new (x.metrics.count .nextConnectionId + 1))
      metrics := x.metrics.fetchAdd .nextConnectionId 1 }
  | .opened telemetry =>
    some { x with serving := .select, sessions := x.sessions ++ [.spawned telemetry] }
  | .signalled => some { x with serving := .leaving, shutdown := true }
  | .leaving => some { x with serving := .draining, listener := false }
  | .draining =>
    if ∀ task ∈ x.sessions, task.joined = true then
      some { x with serving := .returned (.ok ()) }
    else none

/-- `join_next` returns the end of a session: in the `select`, or while draining. -/
def join (x : Service) (i : ℕ) : Option Service :=
  if x.serving = .select ∨ x.serving = .draining then
    x.sessions[i]?.bind fun task =>
      if task.course.isEnded ∧ task.joined = false then
        some { x with sessions := x.sessions.set i { task with joined := true } }
      else none
  else none

def session (x : Service) (i : ℕ) (e : TaskEvent) : Option Service :=
  x.sessions[i]?.bind fun task =>
    (task.step x.metrics x.isFailed e).map fun (task, metrics, released) =>
      { x with
        available := x.available + released.toNat
        metrics
        sessions := x.sessions.set i task }

def step (x : Service) : ServiceEvent → Option Service
  | .signal result =>
    if x.serving = .select then
      match result with
      | .ok () => some { x with serving := .signalled }
      | .error e => some (x.fail e)
    else none
  | .accept result =>
    if x.serving = .select then
      match result with
      | .ok () => some { x with serving := .accepted }
      | .error display => some (x.fail [display])
    else none
  | .join i => x.join i
  | .advance => x.advance
  | .session i e => x.session i e

end Service

/-- `Semaphore::MAX_PERMITS`, above which there is no semaphore. -/
def maxPermits : ℕ := 2 ^ 61 - 1

/-- The service, from its first `select` on. -/
def service (maxConnections : ℕ) : EventSystem Service ServiceEvent where
  init x := maxConnections ≤ maxPermits ∧ x = .initial maxConnections
  step := Service.step

/-! ## What one step does -/

/-- All that an operation of `serve` outside of the `select` can do. -/
inductive ServeMove (x : Service) : Service → Prop
  | refuse : x.serving = .accepted → x.available = 0 → ServeMove x { x with serving := .select }
  | acquire {n : ℕ} : x.serving = .accepted → x.available = n + 1 →
      ServeMove x { x with serving := .opening .active, available := n }
  | openActive : x.serving = .opening .active →
      ServeMove x { x with
        serving := .opening .total, metrics := x.metrics.fetchAdd .activeConnections 1 }
  | openTotal : x.serving = .opening .total →
      ServeMove x { x with
        serving := .opening .id, metrics := x.metrics.fetchAdd .connectionsTotal 1 }
  | openId : x.serving = .opening .id →
      ServeMove x { x with
        serving := .opened (.new (x.metrics.count .nextConnectionId + 1))
        metrics := x.metrics.fetchAdd .nextConnectionId 1 }
  | spawn {telemetry : ConnectionTelemetry} : x.serving = .opened telemetry →
      ServeMove x { x with serving := .select, sessions := x.sessions ++ [.spawned telemetry] }
  | tell : x.serving = .signalled → ServeMove x { x with serving := .leaving, shutdown := true }
  | leave : x.serving = .leaving → ServeMove x { x with serving := .draining, listener := false }
  | drained : x.serving = .draining → (∀ task ∈ x.sessions, task.joined = true) →
      ServeMove x { x with serving := .returned (.ok ()) }

namespace Service

variable {x x' : Service}

theorem signal_cases {result : Except (List Text) Unit} (h : x.step (.signal result) = some x') :
    x.serving = .select ∧ (result = .ok () ∧ x' = { x with serving := .signalled } ∨
      ∃ e, result = .error e ∧ x' = x.fail e) := by
  cases result with
  | ok =>
    obtain ⟨hselect, h⟩ := Option.ite_some_none_eq_some.1 h
    exact ⟨hselect, .inl ⟨rfl, h.symm⟩⟩
  | error e =>
    obtain ⟨hselect, h⟩ := Option.ite_some_none_eq_some.1 h
    exact ⟨hselect, .inr ⟨e, rfl, h.symm⟩⟩

theorem accept_cases {result : Except Text Unit} (h : x.step (.accept result) = some x') :
    x.serving = .select ∧ (result = .ok () ∧ x' = { x with serving := .accepted } ∨
      ∃ display, result = .error display ∧ x' = x.fail [display]) := by
  cases result with
  | ok =>
    obtain ⟨hselect, h⟩ := Option.ite_some_none_eq_some.1 h
    exact ⟨hselect, .inl ⟨rfl, h.symm⟩⟩
  | error display =>
    obtain ⟨hselect, h⟩ := Option.ite_some_none_eq_some.1 h
    exact ⟨hselect, .inr ⟨display, rfl, h.symm⟩⟩

theorem advance_cases (h : x.advance = some x') : ServeMove x x' := by
  rw [advance] at h
  split at h
  · cases h
  · cases h
  · rename_i haccepted
    -- A connection was accepted, for which there is a permit or none.
    split at h
    · rename_i hnone
      cases h
      exact .refuse haccepted hnone
    · rename_i hsome
      cases h
      exact .acquire haccepted hsome
  · cases h
    exact .openActive ‹_›
  · cases h
    exact .openTotal ‹_›
  · cases h
    exact .openId ‹_›
  · cases h
    exact .spawn ‹_›
  · cases h
    exact .tell ‹_›
  · cases h
    exact .leave ‹_›
  · rename_i hdraining
    split at h
    · rename_i hjoined
      cases h
      exact .drained hdraining hjoined
    · cases h

/-- `connection_opened` is its operations, one after the other. -/
theorem advance_connectionOpened (h : x.serving = .opening .active) :
    ((x.advance.bind advance).bind advance) = some { x with
      serving := .opened x.metrics.connectionOpened.1
      metrics := x.metrics.connectionOpened.2 } := by
  rw [advance, h]
  rfl

/-- `join_next` takes note of the end of one session. -/
theorem join_cases {i : ℕ} (h : x.join i = some x') :
    ∃ task, x.sessions[i]? = some task ∧ task.course.isEnded = true ∧
      x' = { x with sessions := x.sessions.set i { task with joined := true } } := by
  rw [join] at h
  split at h
  · obtain ⟨task, htask, h⟩ := Option.bind_eq_some_iff.1 h
    split at h
    · rename_i hended
      cases h
      exact ⟨task, htask, hended.1, rfl⟩
    · cases h
  · cases h

/-- A session changes nothing but itself, the counters and the permits. -/
theorem session_cases {i : ℕ} {e : TaskEvent} (h : x.session i e = some x') :
    ∃ task task' m released, x.sessions[i]? = some task ∧
      task.step x.metrics x.isFailed e = some (task', m, released) ∧
      x' = { x with
        available := x.available + released.toNat
        metrics := m
        sessions := x.sessions.set i task' } := by
  obtain ⟨task, htask, h⟩ := Option.bind_eq_some_iff.1 h
  obtain ⟨⟨task', m, released⟩, hstep, rfl⟩ := Option.map_eq_some_iff.1 h
  exact ⟨task, task', m, released, htask, hstep, rfl⟩

end Service

/-- All that an operation of a session can do. -/
inductive SessionMove (task : SessionTask) (m : TunnelMetrics) (dropped : Bool) :
    TaskEvent → SessionTask → TunnelMetrics → Bool → Prop
  | handshake : task.course = .running →
      SessionMove task m dropped .handshake
        { task with telemetry := { task.telemetry with handshakeSucceeded := true } } m false
  | copiedIn {bytes : UInt64} :
      SessionMove task m dropped (.copiedIn bytes)
        { task with telemetry := { task.telemetry with
          bytesClientToServer := task.telemetry.bytesClientToServer + bytes } } m false
  | copiedOut {bytes : UInt64} :
      SessionMove task m dropped (.copiedOut bytes)
        { task with telemetry := { task.telemetry with
          bytesServerToClient := task.telemetry.bytesServerToClient + bytes } } m false
  | finish {result : Except (List Text) Unit} {elapsed : ℕ} : task.course = .running →
      SessionMove task m dropped (.finish result elapsed)
        { task with
          course := .closing (finishReason result) (.ofNat (min elapsed (2 ^ 64 - 1))) .active }
        m false
  | exit {reason : CloseReason} {durationMs : UInt64} :
      task.course = .closing reason durationMs .done →
      SessionMove task m dropped .close { task with course := .finished reason durationMs } m true
  | close {reason : CloseReason} {durationMs : UInt64} {next : Closing} :
      task.course = .closing reason durationMs next → next ≠ .done →
      SessionMove task m dropped .close
        { task with
          course := .closing reason durationMs
            (closingStep m task.telemetry reason durationMs next).2
          read := task.read.note next }
        (closingStep m task.telemetry reason durationMs next).1 false
  | panic : task.course.isEnded = false →
      SessionMove task m dropped .panic { task with course := .panicked } m true
  | cancel : dropped = true → task.course = .running →
      SessionMove task m dropped .cancel { task with course := .cancelled } m true

namespace SessionTask

variable {task task' : SessionTask} {m m' : TunnelMetrics} {dropped released : Bool}
  {e : TaskEvent}

theorem step_cases (h : task.step m dropped e = some (task', m', released)) :
    SessionMove task m dropped e task' m' released := by
  cases e with
  | handshake =>
    obtain ⟨hrunning, h⟩ := Option.ite_some_none_eq_some.1 h
    cases h
    exact .handshake hrunning
  | copiedIn bytes =>
    obtain ⟨-, h⟩ := Option.ite_some_none_eq_some.1 h
    cases h
    exact .copiedIn
  | copiedOut bytes =>
    obtain ⟨-, h⟩ := Option.ite_some_none_eq_some.1 h
    cases h
    exact .copiedOut
  | finish result elapsed =>
    obtain ⟨hrunning, h⟩ := Option.ite_some_none_eq_some.1 h
    cases h
    exact .finish hrunning
  | close =>
    simp only [step] at h
    split at h
    · rename_i hdone
      cases h
      exact .exit hdone
    · rename_i hne hclosing
      cases h
      exact .close hclosing hne
    · cases h
  | panic =>
    simp only [step] at h
    split at h
    · cases h
    · rename_i hlive
      cases h
      exact .panic (by simpa using hlive)
  | cancel =>
    obtain ⟨⟨hdropped, hrunning⟩, h⟩ := Option.ite_some_none_eq_some.1 h
    cases h
    exact .cancel hdropped hrunning

end SessionTask

/-- What ended stays as it ended. -/
theorem SessionMove.course_of_isEnded {task task' : SessionTask} {m m' : TunnelMetrics}
    {dropped released : Bool} {e : TaskEvent}
    (h : SessionMove task m dropped e task' m' released) (hended : task.course.isEnded = true) :
    task'.course = task.course := by
  cases h with
  | handshake | copiedIn | copiedOut => rfl
  | finish hcourse | exit hcourse | close hcourse | cancel _ hcourse =>
    rw [hcourse] at hended
    cases hended
  | panic hlive =>
    rw [hlive] at hended
    cases hended

theorem SessionMove.joined_eq {task task' : SessionTask} {m m' : TunnelMetrics}
    {dropped released : Bool} {e : TaskEvent}
    (h : SessionMove task m dropped e task' m' released) : task'.joined = task.joined := by
  cases h <;> rfl

/-- Only the tasks of a service that dropped them are cancelled. -/
theorem SessionMove.course_ne_cancelled {task task' : SessionTask} {m m' : TunnelMetrics}
    {dropped released : Bool} {e : TaskEvent}
    (h : SessionMove task m dropped e task' m' released) (hdropped : dropped = false)
    (hcourse : task.course ≠ .cancelled) : task'.course ≠ .cancelled := by
  cases h with
  | handshake | copiedIn | copiedOut => exact hcourse
  | cancel hcancel =>
    rw [hdropped] at hcancel
    cases hcancel
  | _ => exact Course.noConfusion

/-! ## The end of the service -/

/-- No accept fails, and the handlers of the signals can be registered. -/
def ServiceEvent.Calm : ServiceEvent → Prop
  | signal (.error _) | accept (.error _) => False
  | _ => True

instance : DecidablePred ServiceEvent.Calm
  | .signal (.error _) | .accept (.error _) => inferInstanceAs (Decidable False)
  | .signal (.ok _) | .accept (.ok _) | .join _ | .advance | .session .. =>
    inferInstanceAs (Decidable True)

namespace Service

/-- Whom the service has waited for: those that ended, and in the end all. -/
structure Joining (x : Service) : Prop where
  ended : ∀ task ∈ x.sessions, task.joined = true → task.course.isEnded = true
  waited : x.serving = .returned (.ok ()) → ∀ task ∈ x.sessions, task.joined = true

variable {x x' : Service}

theorem joining_initial (n : ℕ) : (initial n).Joining :=
  ⟨by simp [initial], by simp [initial]⟩

/-- The loop goes to a place where it has not returned `Ok`. -/
theorem Joining.goto (h : x.Joining) {serving : Serving} (hserving : serving ≠ .returned (.ok ()))
    (listener : Bool) (available : ℕ) (shutdown : Bool) (metrics : TunnelMetrics) :
    Joining ⟨serving, listener, available, shutdown, metrics, x.sessions⟩ :=
  ⟨h.ended, fun hreturned => absurd hreturned hserving⟩

/-- One session changes, and is not forgotten. -/
theorem Joining.set (h : x.Joining) {i : ℕ} {task : SessionTask} (task' : SessionTask)
    (htask : x.sessions[i]? = some task) (hjoined : task.joined = true → task'.joined = true)
    (hended : task'.joined = true → task'.course.isEnded = true) (available : ℕ)
    (metrics : TunnelMetrics) :
    Joining { x with available, metrics, sessions := x.sessions.set i task' } := by
  refine ⟨fun task₁ hmem => ?_, fun hreturned task₁ hmem => ?_⟩
  · rcases List.mem_or_eq_of_mem_set hmem with hmem | rfl
    · exact h.ended task₁ hmem
    · exact hended
  · rcases List.mem_or_eq_of_mem_set hmem with hmem | rfl
    · exact h.waited hreturned task₁ hmem
    · exact hjoined (h.waited hreturned task (List.mem_of_getElem? htask))

theorem Joining.serve (h : x.Joining) (hmove : ServeMove x x') : x'.Joining := by
  cases hmove with
  | spawn hserving =>
    refine ⟨fun task hmem => ?_, by simp⟩
    rcases List.mem_append.1 hmem with hmem | hmem
    · exact h.ended task hmem
    · rw [List.mem_singleton.1 hmem]
      exact Bool.noConfusion
  | drained hserving hjoined => exact ⟨h.ended, fun _ => hjoined⟩
  | _ => exact h.goto (by simp) _ _ _ _

theorem Joining.step (h : x.Joining) {e : ServiceEvent} (hstep : x.step e = some x') :
    x'.Joining := by
  cases e with
  | signal result =>
    obtain ⟨-, ⟨-, rfl⟩ | ⟨e, -, rfl⟩⟩ := signal_cases hstep <;> exact h.goto (by simp) _ _ _ _
  | accept result =>
    obtain ⟨-, ⟨-, rfl⟩ | ⟨e, -, rfl⟩⟩ := accept_cases hstep <;> exact h.goto (by simp) _ _ _ _
  | join i =>
    obtain ⟨task, htask, hended, rfl⟩ := join_cases hstep
    exact h.set { task with joined := true } htask (fun _ => rfl) (fun _ => hended) _ _
  | advance => exact h.serve (advance_cases hstep)
  | session i e =>
    obtain ⟨task, task', m, released, htask, htaskStep, rfl⟩ := session_cases hstep
    have hmove := SessionTask.step_cases htaskStep
    refine h.set task' htask (fun hjoined => hmove.joined_eq.trans hjoined) (fun hjoined => ?_) _ _
    have hended := h.ended task (List.mem_of_getElem? htask) (hmove.joined_eq.symm.trans hjoined)
    rw [hmove.course_of_isEnded hended]
    exact hended

theorem joining_of_reachable {n : ℕ} {allow : Service → ServiceEvent → Prop}
    (h : (service n).Reachable allow x) : x.Joining :=
  h.invariant (fun hinit => hinit.2 ▸ joining_initial n) fun _ hx _ hstep => hx.step hstep

/-- How a service stands in which no accept failed. -/
structure Standing (x : Service) : Prop where
  /-- As long as connections are accepted, the listener is open. -/
  listener : x.serving.isAccepting = true → x.listener = true
  result : ∀ result, x.serving = .returned result → result = .ok ()
  live : ∀ task ∈ x.sessions, task.course ≠ .cancelled

theorem standing_initial (n : ℕ) : (initial n).Standing :=
  ⟨fun _ => rfl, by simp [initial], by simp [initial]⟩

theorem Standing.isFailed_eq (h : x.Standing) : x.isFailed = false := by
  rw [isFailed]
  split
  · rename_i e hreturned
    cases h.result _ hreturned
  · rfl

theorem Standing.serve (h : x.Standing) (hmove : ServeMove x x') : x'.Standing := by
  have hopen : x.serving.isAccepting = true → x.listener = true := h.listener
  cases hmove with
  | refuse hserving | acquire hserving | openActive hserving | openTotal hserving
    | openId hserving =>
    refine ⟨fun _ => hopen ?_, by simp, h.live⟩
    rw [hserving]
    rfl
  | tell | leave => exact ⟨by simp [Serving.isAccepting], by simp, h.live⟩
  | spawn hserving =>
    refine ⟨fun _ => hopen (by rw [hserving]; rfl), by simp, fun task hmem => ?_⟩
    rcases List.mem_append.1 hmem with hmem | hmem
    · exact h.live task hmem
    · rw [List.mem_singleton.1 hmem]
      exact Course.noConfusion
  | drained =>
    refine ⟨by simp [Serving.isAccepting], fun result hreturned => ?_, h.live⟩
    exact (Serving.returned.inj hreturned).symm

theorem Standing.step (h : x.Standing) {e : ServiceEvent} (hcalm : e.Calm)
    (hstep : x.step e = some x') : x'.Standing := by
  cases e with
  | signal result =>
    obtain ⟨-, ⟨-, rfl⟩ | ⟨e, rfl, -⟩⟩ := signal_cases hstep
    · exact ⟨by simp [Serving.isAccepting], by simp, h.live⟩
    · exact absurd hcalm not_false
  | accept result =>
    obtain ⟨hselect, ⟨-, rfl⟩ | ⟨e, rfl, -⟩⟩ := accept_cases hstep
    · exact ⟨fun _ => h.listener (by rw [hselect]; rfl), by simp, h.live⟩
    · exact absurd hcalm not_false
  | join i =>
    obtain ⟨task, htask, -, rfl⟩ := join_cases hstep
    refine ⟨h.listener, h.result, fun task₁ hmem => ?_⟩
    rcases List.mem_or_eq_of_mem_set hmem with hmem | rfl
    · exact h.live task₁ hmem
    · exact h.live task (List.mem_of_getElem? htask)
  | advance => exact h.serve (advance_cases hstep)
  | session i e =>
    obtain ⟨task, task', m, released, htask, htaskStep, rfl⟩ := session_cases hstep
    refine ⟨h.listener, h.result, fun task₁ hmem => ?_⟩
    rcases List.mem_or_eq_of_mem_set hmem with hmem | rfl
    · exact h.live task₁ hmem
    · exact (SessionTask.step_cases htaskStep).course_ne_cancelled h.isFailed_eq
        (h.live task (List.mem_of_getElem? htask))

theorem standing_of_reachable {n : ℕ}
    (h : (service n).Reachable (fun _ e => e.Calm) x) : x.Standing :=
  h.invariant (fun hinit => hinit.2 ▸ standing_initial n)
    fun _ hx hcalm hstep => hx.step hcalm hstep

/-- The loop is left by the signal, or by an error. -/
theorem isAccepting_step {e : ServiceEvent} (hstep : x.step e = some x')
    (haccepting : x.serving.isAccepting = true) :
    x'.serving.isAccepting = true ∧ x'.listener = x.listener ∨ e = .signal (.ok ()) ∨
      ¬e.Calm ∧ x'.serving.isAccepting = false := by
  cases e with
  | signal result =>
    obtain ⟨-, ⟨rfl, -⟩ | ⟨e, rfl, rfl⟩⟩ := signal_cases hstep
    · exact .inr (.inl rfl)
    · exact .inr (.inr ⟨not_false, rfl⟩)
  | accept result =>
    obtain ⟨-, ⟨-, rfl⟩ | ⟨e, rfl, rfl⟩⟩ := accept_cases hstep
    · exact .inl ⟨rfl, rfl⟩
    · exact .inr (.inr ⟨not_false, rfl⟩)
  | join i =>
    obtain ⟨task, -, -, rfl⟩ := join_cases hstep
    exact .inl ⟨haccepting, rfl⟩
  | session i e =>
    obtain ⟨task, task', m, released, -, -, rfl⟩ := session_cases hstep
    exact .inl ⟨haccepting, rfl⟩
  | advance =>
    cases advance_cases hstep with
    | tell hserving | leave hserving | drained hserving =>
      rw [hserving] at haccepting
      cases haccepting
    | _ => exact .inl ⟨rfl, rfl⟩

/-- The listener goes when the loop is left, or with an error. -/
theorem listener_step {e : ServiceEvent} (hcalm : e.Calm) (hstep : x.step e = some x') :
    x'.listener = x.listener ∨ x.serving = .leaving := by
  cases e with
  | signal result =>
    obtain ⟨-, ⟨-, rfl⟩ | ⟨e, rfl, -⟩⟩ := signal_cases hstep
    · exact .inl rfl
    · exact absurd hcalm not_false
  | accept result =>
    obtain ⟨-, ⟨-, rfl⟩ | ⟨e, rfl, -⟩⟩ := accept_cases hstep
    · exact .inl rfl
    · exact absurd hcalm not_false
  | join i =>
    obtain ⟨task, -, -, rfl⟩ := join_cases hstep
    exact .inl rfl
  | session i e =>
    obtain ⟨task, task', m, released, -, -, rfl⟩ := session_cases hstep
    exact .inl rfl
  | advance =>
    cases advance_cases hstep with
    | leave hserving => exact .inr hserving
    | _ => exact .inl rfl

/-- A session is where it was, unless the event is its own. -/
theorem course_step {e : ServiceEvent} (hstep : x.step e = some x') {i : ℕ} {task : SessionTask}
    (htask : x.sessions[i]? = some task) (hother : ∀ e', e ≠ .session i e') :
    ∃ task', x'.sessions[i]? = some task' ∧ task'.course = task.course := by
  have hset : ∀ {j : ℕ} {task' : SessionTask}, j ≠ i →
      (x.sessions.set j task')[i]? = some task := fun hne => by
    rw [List.getElem?_set_ne hne]
    exact htask
  cases e with
  | signal result =>
    obtain ⟨-, ⟨-, rfl⟩ | ⟨e, -, rfl⟩⟩ := signal_cases hstep <;> exact ⟨task, htask, rfl⟩
  | accept result =>
    obtain ⟨-, ⟨-, rfl⟩ | ⟨e, -, rfl⟩⟩ := accept_cases hstep <;> exact ⟨task, htask, rfl⟩
  | join j =>
    obtain ⟨task₁, htask₁, -, rfl⟩ := join_cases hstep
    rcases eq_or_ne j i with rfl | hne
    · -- Only that it ended is noted.
      obtain rfl : task₁ = task := Option.some.inj (htask₁.symm.trans htask)
      have hlt := (List.getElem?_eq_some_iff.1 htask).1
      exact ⟨_, List.getElem?_set_self hlt, rfl⟩
    · exact ⟨task, hset hne, rfl⟩
  | session j e =>
    obtain ⟨task₁, task', m, released, -, -, rfl⟩ := session_cases hstep
    have hne : j ≠ i := fun heq => hother e (by rw [heq])
    exact ⟨task, hset hne, rfl⟩
  | advance =>
    cases advance_cases hstep with
    | spawn =>
      have hlt := (List.getElem?_eq_some_iff.1 htask).1
      exact ⟨task, (List.getElem?_append_left hlt).trans htask, rfl⟩
    | _ => exact ⟨task, htask, rfl⟩

end Service

open Service in
/-- As long as no accept fails: connections are accepted until the signal, and as
    long the listener is open; nothing that happens to one connection ends another
    session; and when the service has returned, each session ran to its end. And a
    failed accept does end the service. -/
theorem only_signal_ends_service (maxConnections : ℕ) :
    (∀ {x}, (service maxConnections).Reachable (fun _ e => e.Calm) x →
      (x.serving.isAccepting = true → x.listener = true) ∧
      (∀ result, x.serving = .returned result →
        result = .ok () ∧ ∀ task ∈ x.sessions, task.course.isThrough = true) ∧
      ∀ {e x'}, e.Calm → x.step e = some x' →
        (x.serving.isAccepting = true → x'.serving.isAccepting = false → e = .signal (.ok ())) ∧
        (x.listener = true → x'.listener = false → x.serving = .leaving) ∧
        ∀ i task, x.sessions[i]? = some task → (∀ e', e ≠ .session i e') →
          ∃ task', x'.sessions[i]? = some task' ∧ task'.course = task.course) ∧
    ∀ {x e x'}, (service maxConnections).Reachable EventSystem.always x → x.step e = some x' →
      ((x.serving.isAccepting = true → x'.serving.isAccepting = false → e = .signal (.ok ())) ↔
        e.Calm) := by
  have hleave : ∀ {x x' : Service} {e : ServiceEvent}, e.Calm → x.step e = some x' →
      x.serving.isAccepting = true → x'.serving.isAccepting = false → e = .signal (.ok ()) := by
    intro x x' e hcalm hstep haccepting hleft
    rcases isAccepting_step hstep haccepting with ⟨hstay, -⟩ | hsignal | ⟨hfail, -⟩
    · rw [hleft] at hstay
      cases hstay
    · exact hsignal
    · exact absurd hcalm hfail
  refine ⟨fun hx => ?_, fun {x e x'} _ hstep => ⟨fun h => ?_, fun hcalm => hleave hcalm hstep⟩⟩
  · have hstanding := standing_of_reachable hx
    have hjoining := joining_of_reachable hx
    refine ⟨hstanding.listener, fun result hreturned => ⟨hstanding.result result hreturned, ?_⟩,
      fun hcalm hstep => ⟨hleave hcalm hstep, fun hopen hclosed => ?_, fun i task htask hother =>
        course_step hstep htask hother⟩⟩
    · intro task hmem
      obtain rfl := hstanding.result result hreturned
      have hended := hjoining.ended task hmem (hjoining.waited hreturned task hmem)
      have hlive := hstanding.live task hmem
      revert hended hlive
      cases task.course <;> simp [Course.isEnded, Course.isThrough]
    · refine (listener_step hcalm hstep).resolve_left fun hsame => ?_
      rw [hopen, hclosed] at hsame
      cases hsame
  · by_contra hfail
    -- An error comes while the service waits in its `select`.
    have haccepting : x.serving.isAccepting = true := by
      cases e with
      | signal result =>
        rw [(signal_cases hstep).1]
        rfl
      | accept result =>
        rw [(accept_cases hstep).1]
        rfl
      | _ => exact absurd trivial hfail
    have hleft : x'.serving.isAccepting = false := by
      cases e with
      | signal result =>
        obtain ⟨-, ⟨rfl, -⟩ | ⟨e, -, rfl⟩⟩ := signal_cases hstep
        · exact absurd trivial hfail
        · rfl
      | accept result =>
        obtain ⟨-, ⟨rfl, -⟩ | ⟨e, -, rfl⟩⟩ := accept_cases hstep
        · exact absurd trivial hfail
        · rfl
      | _ => exact absurd trivial hfail
    rw [h haccepting hleft] at hfail
    exact hfail trivial

/-- A service that serves a session, and is stopped. -/
theorem only_signal_ends_service_stopped : ∃ x : Service,
    x.serving = .returned (.ok ()) ∧ x.sessions.length = 1 ∧
      ∀ task ∈ x.sessions, task.course.isThrough = true := by
  let x := ((service 1).run (fun _ e => e.Calm) (.initial 1)
    ([.accept (.ok ()), .advance, .advance, .advance, .advance, .advance, .signal (.ok ()),
      .advance, .advance, .session 0 (.finish (.error ["shutdown requested".toList]) 5)] ++
      List.replicate 12 (.session 0 .close) ++ [.join 0, .advance])).get (by decide +kernel)
  have hreach : (service 1).Reachable (fun _ e => e.Calm) x :=
    EventSystem.reachable_of_run ⟨by decide, rfl⟩ (Option.some_get _).symm
  have hreturned : x.serving = .returned (.ok ()) := by decide +kernel
  exact ⟨x, hreturned, by decide +kernel,
    (((only_signal_ends_service 1).1 hreach).2.1 _ hreturned).2⟩

/-- An accept fails while a session is served. -/
theorem failed_accept_ends_service : ∃ x : Service,
    (service 1).Reachable EventSystem.always x ∧ x.shutdown = false ∧ x.listener = false ∧
      x.sessions.map SessionTask.course = [.cancelled] := by
  let x := ((service 1).run EventSystem.always (.initial 1)
    [.accept (.ok ()), .advance, .advance, .advance, .advance, .advance,
      .accept (.error "Software caused connection abort (os error 103)".toList),
      .session 0 .cancel]).get (by decide +kernel)
  exact ⟨x, EventSystem.reachable_of_run ⟨by decide, rfl⟩ (Option.some_get _).symm,
    by decide +kernel, by decide +kernel, by decide +kernel⟩

end SecureTunnel
