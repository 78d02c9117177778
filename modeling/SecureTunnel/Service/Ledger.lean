import SecureTunnel.General.Tally
import SecureTunnel.Service.Serve

/-!
# The connection ledger

Each counter of a service holds what its sessions, and the connection that is just
being opened, have counted in it so far, modulo `2^64`. Sessions keep this at each
atomic operation, whatever the others do in between; the permits bound the active
connections. At rest the counters add up (`connection_ledger`).
-/

namespace SecureTunnel

/-! ## What has been counted -/

/-- The place of an operation of `connection_closed`. -/
def Closing.rank : Closing → ℕ
  | active => 0
  | handshake => 1
  | outcome _ => 2
  | unauthorizedClient => 3
  | decryptFailed => 4
  | destinationConnectFailed => 5
  | bytesIn => 6
  | addBytesIn _ => 7
  | bytesOut => 8
  | addBytesOut _ => 9
  | duration => 10
  | done => 11

/-- The place at which `connection_closed` adds to a counter. -/
def Counter.rank : Counter → ℕ
  | handshakeSuccessTotal | handshakeFailureTotal => 2
  | unauthorizedClientTotal => 3
  | decryptFailureTotal => 4
  | destinationConnectFailureTotal => 5
  | bytesInTotal => 7
  | bytesOutTotal => 9
  | connectionDurationMsTotal => 10
  | activeConnections | nextConnectionId | connectionsTotal => 0

namespace Course

/-- The session is among the active connections. -/
def isActive : Course → Bool
  | running | closing _ _ .active => true
  | _ => false

/-- The session is closed: `connection_closed` is through. -/
def isClosed : Course → Bool
  | closing _ _ .done | finished .. => true
  | _ => false

/-- The reason and the duration of a session that is closed or being closed. -/
def reason? : Course → Option CloseReason
  | closing reason .. | finished reason _ => some reason
  | _ => none

def durationMs : Course → UInt64
  | closing _ durationMs _ | finished _ durationMs => durationMs
  | _ => 0

/-- The part of the session's charge that has been added. -/
def charged (read : Receipt) (c : Counter) : Course → UInt64
  | closing reason durationMs next =>
    if c.rank < next.rank then
      charge read.handshaken reason read.bytesIn read.bytesOut durationMs c
    else 0
  | finished reason durationMs =>
    charge read.handshaken reason read.bytesIn read.bytesOut durationMs c
  | _ => 0

end Course

/-- What a session counts for in a counter. -/
def SessionTask.counts (c : Counter) (task : SessionTask) : ℕ :=
  match c with
  | .activeConnections => task.course.isActive.toNat
  | .connectionsTotal | .nextConnectionId => 1
  | c => (task.course.charged task.read c).toNat

/-- The session holds a permit. -/
def SessionTask.holds (task : SessionTask) : ℕ := (!task.course.isEnded).toNat

/-- What the connection that is being opened counts for. -/
def Serving.counts (c : Counter) : Serving → ℕ
  | opening .total => if c = .activeConnections then 1 else 0
  | opening .id => if c = .activeConnections ∨ c = .connectionsTotal then 1 else 0
  | opened _ =>
    if c = .activeConnections ∨ c = .connectionsTotal ∨ c = .nextConnectionId then 1 else 0
  | _ => 0

def Serving.holds : Serving → ℕ
  | opening _ | opened _ => 1
  | _ => 0

namespace Service

/-- What has been counted in a counter. -/
def counts (x : Service) (c : Counter) : ℕ :=
  tally (SessionTask.counts c) x.sessions + x.serving.counts c

/-- The permits held. -/
def held (x : Service) : ℕ := tally SessionTask.holds x.sessions + x.serving.holds

end Service

/-- No task panics, and none is cancelled. Tasks are cancelled only once `serve` has
    returned with an error, so that such states are no part of a run of it. -/
def ServiceEvent.Unbroken : ServiceEvent → Prop
  | session _ .panic | session _ .cancel => False
  | _ => True

instance : DecidablePred ServiceEvent.Unbroken
  | .session _ .panic | .session _ .cancel => inferInstanceAs (Decidable False)
  | .session _ .handshake | .session _ (.copiedIn _) | .session _ (.copiedOut _)
  | .session _ (.finish ..) | .session _ .close | .signal _ | .accept _ | .join _ | .advance =>
    inferInstanceAs (Decidable True)

/-! ## One session -/

section Session

variable {task task' : SessionTask} {m m' : TunnelMetrics} {dropped released : Bool}
  {e : TaskEvent} {c : Counter}

/-! `connection_closed` adds to a counter at its own place, and there only. -/

variable {telemetry : ConnectionTelemetry} {reason : CloseReason} {durationMs : UInt64}
  {next : Closing} {read : Receipt}

theorem rank_closingStep (hnext : next ≠ .done) :
    (closingStep m telemetry reason durationMs next).2.rank = next.rank + 1 := by
  cases next with
  | done => exact absurd rfl hnext
  | _ => rfl

theorem count_closingStep_of_rank_ne (hc : c ≠ .activeConnections) (hrank : c.rank ≠ next.rank) :
    (closingStep m telemetry reason durationMs next).1.count c = m.count c := by
  have hadd : ∀ (c' : Counter) (n : UInt64), c'.rank = next.rank →
      (m.fetchAdd c' n).count c = m.count c := by
    intro c' n hrank'
    rw [TunnelMetrics.count_fetchAdd, if_neg, UInt64.add_zero]
    rintro rfl
    exact hrank hrank'
  have hsub : (m.fetchSub .activeConnections 1).count c = m.count c := by
    rw [TunnelMetrics.count_fetchSub, if_neg hc, UInt64.sub_zero]
  cases next with
  | active => exact hsub
  | addBytesIn | addBytesOut | duration => exact hadd _ _ rfl
  | unauthorizedClient | decryptFailed | destinationConnectFailed =>
    rw [closingStep, TunnelMetrics.count_ite, hadd _ _ rfl, ite_self]
  | outcome handshaken =>
    rw [closingStep, TunnelMetrics.count_ite, TunnelMetrics.count_ite, hadd _ _ rfl, hadd _ _ rfl,
      ite_self, ite_self]
  | handshake | bytesIn | bytesOut | done => rfl

theorem charge_note_of_rank_ne (hrank : c.rank ≠ next.rank) :
    charge (read.note next).handshaken reason (read.note next).bytesIn (read.note next).bytesOut
        durationMs c =
      charge read.handshaken reason read.bytesIn read.bytesOut durationMs c := by
  cases next with
  | outcome =>
    cases c with
    | handshakeSuccessTotal | handshakeFailureTotal => exact absurd rfl hrank
    | _ => rfl
  | addBytesIn =>
    cases c with
    | bytesInTotal => exact absurd rfl hrank
    | _ => rfl
  | addBytesOut =>
    cases c with
    | bytesOutTotal => exact absurd rfl hrank
    | _ => rfl
  | _ => rfl

theorem count_closingStep_of_rank_eq (hc : c ≠ .activeConnections) (hrank : c.rank = next.rank) :
    (closingStep m telemetry reason durationMs next).1.count c =
      m.count c + charge (read.note next).handshaken reason (read.note next).bytesIn
        (read.note next).bytesOut durationMs c := by
  have hadd : ∀ n, (m.fetchAdd c n).count c = m.count c + n := fun n => by
    rw [TunnelMetrics.count_fetchAdd, if_pos rfl]
  cases c <;> cases next <;> cases hrank
  case activeConnections.active => exact absurd rfl hc
  case nextConnectionId.active | connectionsTotal.active =>
    rw [closingStep, TunnelMetrics.count_fetchSub, if_neg hc, UInt64.sub_zero]
    exact (UInt64.add_zero _).symm
  case handshakeSuccessTotal.outcome handshaken =>
    cases handshaken with
    | true => exact hadd 1
    | false => simp [closingStep, charge, Receipt.note, TunnelMetrics.count_ite,
        TunnelMetrics.count_fetchAdd]
  case handshakeFailureTotal.outcome handshaken =>
    cases handshaken with
    | true => simp [closingStep, charge, Receipt.note, TunnelMetrics.count_fetchAdd]
    | false =>
      by_cases hreason : reason = .shutdown
      · simp [closingStep, charge, Receipt.note, hreason]
      · simp [closingStep, charge, Receipt.note, hreason, hadd]
  case unauthorizedClientTotal.unauthorizedClient | decryptFailureTotal.decryptFailed |
    destinationConnectFailureTotal.destinationConnectFailed =>
    rw [closingStep, TunnelMetrics.count_ite, hadd, charge]
    split <;> simp
  case bytesInTotal.addBytesIn | bytesOutTotal.addBytesOut |
    connectionDurationMsTotal.duration => exact hadd _

/-- An operation of `connection_closed` adds to a counter what the session is then
    charged more. -/
theorem count_closingStep (read : Receipt) (hnext : next ≠ .done) (hc : c ≠ .activeConnections) :
    (closingStep m telemetry reason durationMs next).1.count c +
        Course.charged read c (.closing reason durationMs next) =
      m.count c + Course.charged (read.note next) c (.closing reason durationMs
        (closingStep m telemetry reason durationMs next).2) := by
  simp only [Course.charged, rank_closingStep hnext]
  rcases Nat.lt_trichotomy c.rank next.rank with hlt | heq | hgt
  · rw [count_closingStep_of_rank_ne hc (Nat.ne_of_lt hlt), if_pos hlt,
      if_pos (Nat.lt_succ_of_lt hlt), charge_note_of_rank_ne (Nat.ne_of_lt hlt)]
  · rw [count_closingStep_of_rank_eq hc heq, if_neg (Nat.not_lt.2 (Nat.le_of_eq heq.symm)),
      if_pos (Nat.lt_succ_of_le (Nat.le_of_eq heq)), UInt64.add_zero]
  · rw [count_closingStep_of_rank_ne hc (Nat.ne_of_gt hgt), if_neg (Nat.lt_asymm hgt),
      if_neg (Nat.not_lt.2 hgt)]

/-- The first operation takes the session off the active connections. -/
theorem count_closingStep_active (hnext : next ≠ .done) :
    (closingStep m telemetry reason durationMs next).1.count .activeConnections +
        .ofNat (Course.closing reason durationMs next).isActive.toNat =
      m.count .activeConnections + .ofNat (Course.closing reason durationMs
        (closingStep m telemetry reason durationMs next).2).isActive.toNat := by
  have hadd : ∀ {c' : Counter} {n : UInt64}, c' ≠ .activeConnections →
      (m.fetchAdd c' n).count .activeConnections = m.count .activeConnections := by
    intro c' n hne
    rw [TunnelMetrics.count_fetchAdd, if_neg hne.symm, UInt64.add_zero]
  cases next with
  | active =>
    rw [closingStep, TunnelMetrics.count_fetchSub, if_pos rfl]
    exact (UInt64.sub_add_cancel _ _).trans (UInt64.add_zero _).symm
  | done => exact absurd rfl hnext
  | handshake | bytesIn | bytesOut => rfl
  | addBytesIn | addBytesOut | duration => exact congrArg (· + _) (hadd (by simp))
  | unauthorizedClient | decryptFailed | destinationConnectFailed =>
    rw [closingStep, TunnelMetrics.count_ite, hadd (by simp), ite_self]
    rfl
  | outcome =>
    rw [closingStep, TunnelMetrics.count_ite, TunnelMetrics.count_ite, hadd (by simp),
      hadd (by simp), ite_self, ite_self]
    rfl

theorem charged_of_isActive {course : Course} (h : course.isActive = true) :
    course.charged read c = 0 := by
  cases course with
  | running => rfl
  | closing reason durationMs next =>
    cases next with
    | active => simp [Course.charged, Closing.rank]
    | _ => cases h
  | _ => cases h

theorem charged_opened {course : Course} (hc : c = .connectionsTotal ∨ c = .nextConnectionId) :
    course.charged read c = 0 := by
  obtain rfl | rfl := hc <;> cases course <;> simp [Course.charged, charge]

theorem count_closingStep_opened (hnext : next ≠ .done)
    (hc : c = .connectionsTotal ∨ c = .nextConnectionId) :
    (closingStep m telemetry reason durationMs next).1.count c = m.count c := by
  have hne : c ≠ .activeConnections := by
    rintro rfl
    simp at hc
  have hcount : (closingStep m telemetry reason durationMs next).1.count c + _ = m.count c + _ :=
    count_closingStep ⟨false, 0, 0⟩ hnext hne
  rw [charged_opened hc, charged_opened hc, UInt64.add_zero, UInt64.add_zero] at hcount
  exact hcount

theorem SessionTask.counts_congr (hactive : task'.course.isActive = task.course.isActive)
    (hcharged : task'.course.charged task'.read c = task.course.charged task.read c) :
    task'.counts c = task.counts c := by
  cases c with
  | activeConnections => exact congrArg Bool.toNat hactive
  | connectionsTotal | nextConnectionId => rfl
  | _ => exact congrArg UInt64.toNat hcharged

/-- A counter changes along with what a session counts for. -/
theorem SessionMove.count_eq (hmove : SessionMove task m dropped e task' m' released)
    (hpanic : e ≠ .panic) (hcancel : e ≠ .cancel) :
    m'.count c + .ofNat (task.counts c) = m.count c + .ofNat (task'.counts c) := by
  cases hmove with
  | handshake | copiedIn | copiedOut =>
    exact congrArg (fun n => m.count c + UInt64.ofNat n) (SessionTask.counts_congr rfl rfl).symm
  | finish hrunning =>
    refine congrArg (fun n => m.count c + UInt64.ofNat n) (SessionTask.counts_congr ?_ ?_).symm
    · rw [hrunning]
      rfl
    · rw [hrunning, charged_of_isActive rfl, charged_of_isActive rfl]
  | exit hdone =>
    refine congrArg (fun n => m.count c + UInt64.ofNat n) (SessionTask.counts_congr ?_ ?_).symm
    · rw [hdone]
      rfl
    · rw [hdone]
      exact (if_pos (by cases c <;> decide)).symm
  | close hclosing hnext =>
    cases c with
    | activeConnections =>
      rw [SessionTask.counts, hclosing]
      exact count_closingStep_active hnext
    | connectionsTotal => exact congrArg (· + _) (count_closingStep_opened hnext (.inl rfl))
    | nextConnectionId => exact congrArg (· + _) (count_closingStep_opened hnext (.inr rfl))
    | _ =>
      simp only [SessionTask.counts, hclosing, UInt64.ofNat_toNat]
      exact count_closingStep _ hnext (by simp)
  | panic => exact absurd rfl hpanic
  | cancel => exact absurd rfl hcancel

/-- A permit is given back by the session that held it. -/
theorem SessionMove.holds_eq (hmove : SessionMove task m dropped e task' m' released) :
    released.toNat + task'.holds = task.holds := by
  cases hmove with
  | handshake | copiedIn | copiedOut => exact Nat.zero_add _
  | finish hcourse | exit hcourse | close hcourse | cancel _ hcourse =>
    rw [SessionTask.holds, SessionTask.holds, hcourse]
    rfl
  | panic hlive =>
    rw [SessionTask.holds, SessionTask.holds, hlive]
    rfl

theorem SessionMove.id_eq (hmove : SessionMove task m dropped e task' m' released) :
    task'.telemetry.id = task.telemetry.id := by
  cases hmove <;> rfl

theorem SessionMove.unbroken (hmove : SessionMove task m dropped e task' m' released)
    (hpanic : e ≠ .panic) (hcancel : e ≠ .cancel)
    (h : task.course ≠ .panicked ∧ task.course ≠ .cancelled) :
    task'.course ≠ .panicked ∧ task'.course ≠ .cancelled := by
  cases hmove with
  | handshake | copiedIn | copiedOut => exact h
  | finish | exit | close => exact ⟨Course.noConfusion, Course.noConfusion⟩
  | panic => exact absurd rfl hpanic
  | cancel => exact absurd rfl hcancel

/-- Of a session that is being closed: what was loaded of the handshake is what the
    session left. -/
def SessionTask.Loaded (task : SessionTask) : Prop :=
  match task.course with
  | .closing _ _ (.outcome handshaken) => handshaken = task.telemetry.handshakeSucceeded
  | .closing _ _ next => 2 < next.rank → task.read.handshaken = task.telemetry.handshakeSucceeded
  | .finished .. => task.read.handshaken = task.telemetry.handshakeSucceeded
  | _ => True

theorem SessionMove.loaded (hmove : SessionMove task m dropped e task' m' released)
    (h : task.Loaded) : task'.Loaded := by
  cases hmove with
  | handshake hrunning =>
    rw [SessionTask.Loaded, hrunning]
    trivial
  | copiedIn | copiedOut => exact h
  | finish => exact fun hlt => absurd hlt (by decide)
  | exit hdone =>
    rw [SessionTask.Loaded, hdone] at h
    exact h (by decide)
  | @close reason durationMs next hclosing hnext =>
    rw [SessionTask.Loaded, hclosing] at h
    cases next with
    | active => exact fun hlt => absurd hlt (by simp [closingStep, Closing.rank])
    | handshake => rfl
    | outcome handshaken => exact fun _ => h
    | done => exact absurd rfl hnext
    | _ => exact fun _ => h (by simp [Closing.rank])
  | panic | cancel => trivial

end Session

/-! ## The ledger -/

namespace Service

/-- The counters hold what was counted, the permits add up, and the sessions are
    numbered in order. -/
structure Ledger (maxConnections : ℕ) (x : Service) : Prop where
  permits : x.available + x.held = maxConnections
  counts : ∀ c, x.metrics.count c = .ofNat (x.counts c)
  ids : ∀ (i : ℕ) task, x.sessions[i]? = some task → task.telemetry.id = .ofNat (i + 1)
  openedId : ∀ telemetry, x.serving = .opened telemetry →
    telemetry.id = .ofNat (x.sessions.length + 1)
  unbroken : ∀ task ∈ x.sessions, task.course ≠ .panicked ∧ task.course ≠ .cancelled
  loaded : ∀ task ∈ x.sessions, task.Loaded

variable {maxConnections : ℕ} {x x' : Service}

theorem ledger_initial : (initial maxConnections).Ledger maxConnections where
  permits := rfl
  counts _ := rfl
  ids _ _ h := by simp [initial] at h
  openedId _ h := by simp [initial] at h
  unbroken _ h := absurd h List.not_mem_nil
  loaded _ h := absurd h List.not_mem_nil

/-- The loop goes on, and no session changes. -/
theorem Ledger.goto (h : x.Ledger maxConnections) {serving : Serving} {available : ℕ}
    {metrics : TunnelMetrics} (hpermits : available + serving.holds = x.available + x.serving.holds)
    (hcounts : ∀ c, metrics.count c + .ofNat (x.serving.counts c) =
      x.metrics.count c + .ofNat (serving.counts c))
    (hopened : ∀ telemetry, serving = .opened telemetry →
      telemetry.id = .ofNat (x.sessions.length + 1)) (listener shutdown : Bool) :
    Ledger maxConnections ⟨serving, listener, available, shutdown, metrics, x.sessions⟩ where
  permits := by
    have := h.permits
    simp only [held] at this ⊢
    omega
  counts c := by
    have hc := hcounts c
    rw [h.counts c, ← UInt64.ofNat_add] at hc
    rw [← UInt64.add_left_inj (.ofNat (x.serving.counts c)), hc, ← UInt64.ofNat_add]
    exact congrArg UInt64.ofNat (Nat.add_right_comm _ _ _)
  ids := h.ids
  openedId := hopened
  unbroken := h.unbroken
  loaded := h.loaded

theorem Ledger.serve (h : x.Ledger maxConnections) (hmove : ServeMove x x') :
    x'.Ledger maxConnections := by
  cases hmove with
  | refuse hserving =>
    exact h.goto (by rw [hserving]; rfl) (fun c => by rw [hserving]; rfl) (by simp) _ _
  | acquire hserving havailable =>
    exact h.goto (by rw [hserving, havailable]; rfl) (fun c => by rw [hserving]; rfl) (by simp) _ _
  | openActive hserving =>
    refine h.goto (by rw [hserving]; rfl) (fun c => ?_) (by simp) _ _
    rw [hserving, TunnelMetrics.count_fetchAdd]
    by_cases hc : c = .activeConnections <;> simp [Serving.counts, hc]
  | openTotal hserving =>
    refine h.goto (by rw [hserving]; rfl) (fun c => ?_) (by simp) _ _
    rw [hserving, TunnelMetrics.count_fetchAdd]
    cases c <;> simp [Serving.counts]
  | openId hserving =>
    refine h.goto (by rw [hserving]; rfl) (fun c => ?_) (fun telemetry heq => ?_) _ _
    · rw [hserving, TunnelMetrics.count_fetchAdd]
      cases c <;> simp [Serving.counts]
    · -- The number is one more than that of the connections opened before.
      obtain rfl := Serving.opened.inj heq
      have hlength : tally (SessionTask.counts .nextConnectionId) x.sessions = x.sessions.length :=
        tally_eq_length fun _ _ => rfl
      rw [ConnectionTelemetry.new, h.counts, Service.counts, hserving, hlength]
      exact (UInt64.ofNat_add _ 1).symm
  | spawn hserving =>
    refine ⟨?_, fun c => ?_, fun i task htask => ?_, by simp, fun task hmem => ?_,
      fun task hmem => ?_⟩
    · have := h.permits
      rw [held, hserving] at this
      rw [held, tally_append_singleton, ← this]
      rfl
    · rw [h.counts, Service.counts, Service.counts, hserving, tally_append_singleton, Nat.add_assoc]
      cases c <;> rfl
    · rcases Nat.lt_trichotomy i x.sessions.length with hlt | rfl | hgt
      · rw [List.getElem?_append_left hlt] at htask
        exact h.ids i task htask
      · rw [List.getElem?_concat_length] at htask
        obtain rfl := Option.some.inj htask
        exact h.openedId _ hserving
      · rw [List.getElem?_eq_none (by simpa using Nat.succ_le_of_lt hgt)] at htask
        cases htask
    · rcases List.mem_append.1 hmem with hmem | hmem
      · exact h.unbroken task hmem
      · rw [List.mem_singleton.1 hmem]
        exact ⟨Course.noConfusion, Course.noConfusion⟩
    · rcases List.mem_append.1 hmem with hmem | hmem
      · exact h.loaded task hmem
      · rw [List.mem_singleton.1 hmem]
        trivial
  | tell hserving =>
    exact h.goto (by rw [hserving]; rfl) (fun c => by rw [hserving]; rfl) (by simp) _ _
  | leave hserving =>
    exact h.goto (by rw [hserving]; rfl) (fun c => by rw [hserving]; rfl) (by simp) _ _
  | drained hserving =>
    exact h.goto (by rw [hserving]; rfl) (fun c => by rw [hserving]; rfl) (by simp) _ _

/-- One session changes, and the counters and permits with it. -/
theorem Ledger.set (h : x.Ledger maxConnections) {i : ℕ} {task task' : SessionTask}
    (htask : x.sessions[i]? = some task) {available : ℕ} {metrics : TunnelMetrics}
    (hpermits : available + task'.holds = x.available + task.holds)
    (hcounts : ∀ c, metrics.count c + .ofNat (task.counts c) =
      x.metrics.count c + .ofNat (task'.counts c))
    (hid : task'.telemetry.id = task.telemetry.id)
    (hunbroken : task'.course ≠ .panicked ∧ task'.course ≠ .cancelled) (hloaded : task'.Loaded) :
    Ledger maxConnections { x with available, metrics, sessions := x.sessions.set i task' } := by
  refine ⟨?_, fun c => ofNat_tally_set (h.counts c) htask (hcounts c), fun j task₁ htask₁ => ?_, ?_,
    fun task₁ hmem => ?_, fun task₁ hmem => ?_⟩
  · have hset := tally_set (f := SessionTask.holds) (b := task') htask
    have hheld := h.permits
    simp only [held] at hheld ⊢
    omega
  · rcases eq_or_ne i j with rfl | hne
    · have hlt := (List.getElem?_eq_some_iff.1 htask).1
      rw [List.getElem?_set_self hlt] at htask₁
      obtain rfl := Option.some.inj htask₁
      rw [hid]
      exact h.ids i task htask
    · rw [List.getElem?_set_ne hne] at htask₁
      exact h.ids j task₁ htask₁
  · rw [List.length_set]
    exact h.openedId
  · rcases List.mem_or_eq_of_mem_set hmem with hmem | rfl
    · exact h.unbroken task₁ hmem
    · exact hunbroken
  · rcases List.mem_or_eq_of_mem_set hmem with hmem | rfl
    · exact h.loaded task₁ hmem
    · exact hloaded

theorem Ledger.step (h : x.Ledger maxConnections) {e : ServiceEvent} (hunbroken : e.Unbroken)
    (hstep : x.step e = some x') : x'.Ledger maxConnections := by
  cases e with
  | signal result =>
    obtain ⟨hselect, ⟨-, rfl⟩ | ⟨e, -, rfl⟩⟩ := signal_cases hstep <;>
      exact h.goto (by rw [hselect]; rfl) (fun c => by rw [hselect]; rfl) (by simp) _ _
  | accept result =>
    obtain ⟨hselect, ⟨-, rfl⟩ | ⟨e, -, rfl⟩⟩ := accept_cases hstep <;>
      exact h.goto (by rw [hselect]; rfl) (fun c => by rw [hselect]; rfl) (by simp) _ _
  | join i =>
    obtain ⟨task, htask, -, rfl⟩ := join_cases hstep
    have hmem := List.mem_of_getElem? htask
    exact h.set htask rfl (fun c => by cases c <;> rfl) rfl (h.unbroken task hmem)
      (h.loaded task hmem)
  | advance => exact h.serve (advance_cases hstep)
  | session i e =>
    obtain ⟨task, task', m, released, htask, htaskStep, rfl⟩ := session_cases hstep
    have hmove := SessionTask.step_cases htaskStep
    have hmem := List.mem_of_getElem? htask
    have hpanic : e ≠ .panic := by
      rintro rfl
      exact hunbroken
    have hcancel : e ≠ .cancel := by
      rintro rfl
      exact hunbroken
    refine h.set htask ?_ (fun c => hmove.count_eq hpanic hcancel) hmove.id_eq
      (hmove.unbroken hpanic hcancel (h.unbroken task hmem)) (hmove.loaded (h.loaded task hmem))
    rw [Nat.add_assoc, hmove.holds_eq]

theorem ledger_of_reachable
    (h : (service maxConnections).Reachable (fun _ e => e.Unbroken) x) : x.Ledger maxConnections :=
  h.invariant (fun hinit => hinit.2 ▸ ledger_initial) fun _ hx hunbroken hstep =>
    hx.step hunbroken hstep

theorem le_maxPermits_of_reachable {allow : Service → ServiceEvent → Prop}
    (h : (service maxConnections).Reachable allow x) : maxConnections ≤ maxPermits :=
  h.invariant (P := fun _ => maxConnections ≤ maxPermits) And.left fun _ hle _ _ => hle

/-! ## At rest -/

/-- No session is inside `connection_opened` or `connection_closed`. -/
def AtRest (x : Service) : Prop :=
  x.serving ≠ .opening .total ∧ x.serving ≠ .opening .id ∧
    ∀ task ∈ x.sessions, ∀ reason durationMs next, task.course = .closing reason durationMs next →
      next = .active ∨ next = .done

/-- The sessions that are closed. -/
def closed (x : Service) : List SessionTask := x.sessions.filter fun task => task.course.isClosed

/-- The sessions that were closed with reason `Shutdown` before their handshake succeeded. -/
def stopped (x : Service) : List SessionTask :=
  x.closed.filter fun task =>
    task.course.reason? = some .shutdown ∧ task.telemetry.handshakeSucceeded = false

/-- At rest a session is active and has added nothing, or is closed and has added its
    whole charge. -/
theorem Ledger.atRest (h : x.Ledger maxConnections) (hrest : x.AtRest) {task : SessionTask}
    (hmem : task ∈ x.sessions) :
    (task.course.isActive = true ∧ task.course.isClosed = false ∧
      ∀ c, task.course.charged task.read c = 0) ∨
    (task.course.isActive = false ∧ task.course.isClosed = true ∧
      ∃ reason, task.course.reason? = some reason ∧
        ∀ c, task.course.charged task.read c = charge task.telemetry.handshakeSucceeded reason
          task.read.bytesIn task.read.bytesOut task.course.durationMs c) := by
  have hloaded := h.loaded task hmem
  rw [SessionTask.Loaded] at hloaded
  cases hcourse : task.course with
  | running => exact .inl ⟨rfl, rfl, fun _ => rfl⟩
  | panicked => exact absurd hcourse (h.unbroken task hmem).1
  | cancelled => exact absurd hcourse (h.unbroken task hmem).2
  | finished reason durationMs =>
    rw [hcourse] at hloaded
    refine .inr ⟨rfl, rfl, reason, rfl, fun c => ?_⟩
    rw [← hloaded]
    rfl
  | closing reason durationMs next =>
    rw [hcourse] at hloaded
    obtain rfl | rfl := hrest.2.2 task hmem reason durationMs next hcourse
    · exact .inl ⟨rfl, rfl, fun c => charged_of_isActive rfl⟩
    · refine .inr ⟨rfl, rfl, reason, rfl, fun c => ?_⟩
      rw [← hloaded (by decide)]
      exact if_pos (by cases c <;> decide)

/-- What is read of the closed sessions adds up in a counter. -/
theorem Ledger.toNat_count (h : x.Ledger maxConnections) (hrest : x.AtRest) {c : Counter}
    {f : SessionTask → UInt64} (hserving : ∀ serving : Serving, serving.counts c = 0)
    (hcounts : ∀ task : SessionTask, task.counts c = (task.course.charged task.read c).toNat)
    (hcharge : ∀ (task : SessionTask) handshaken reason, charge handshaken reason task.read.bytesIn
      task.read.bytesOut task.course.durationMs c = f task) :
    (x.metrics.count c).toNat = tally (fun task => (f task).toNat) x.closed % 2 ^ 64 := by
  have htasks : ∀ task ∈ x.sessions, task.counts c =
      if task.course.isClosed then (f task).toNat else 0 := by
    intro task hmem
    rw [hcounts]
    rcases h.atRest hrest hmem with ⟨-, hclosed, hcharged⟩ | ⟨-, hclosed, reason, -, hcharged⟩
    · rw [hcharged, hclosed]
      rfl
    · rw [hcharged, hclosed, hcharge]
      rfl
  have hclosed : x.counts c = tally (fun task => (f task).toNat) x.closed := by
    rw [Service.counts, hserving, Nat.add_zero, tally_congr htasks, ← tally_filter]
    rfl
  rw [h.counts, hclosed, UInt64.toNat_ofNat']

/-- A session counts at most once among the connections, which are not as many as to wrap around. -/
theorem Ledger.toNat_count_of_le (h : x.Ledger maxConnections) {c : Counter}
    (hcounts : ∀ task ∈ x.sessions, task.counts c ≤ 1) (hserving : x.serving.counts c ≤ 1)
    (hwrap : x.sessions.length + 1 < 2 ^ 64) : (x.metrics.count c).toNat = x.counts c := by
  rw [h.counts, UInt64.toNat_ofNat', Nat.mod_eq_of_lt]
  exact Nat.lt_of_le_of_lt (Nat.add_le_add (tally_le_length hcounts) hserving) hwrap

/-- Each connection is active, or closed as a success, a failure, or stopped. -/
theorem Ledger.counts_eq (h : x.Ledger maxConnections) (hrest : x.AtRest) :
    x.counts .connectionsTotal = x.counts .activeConnections + x.counts .handshakeSuccessTotal +
      x.counts .handshakeFailureTotal + x.stopped.length := by
  have hstopped : x.stopped.length = tally (fun task => if task.course.isClosed then
      if decide (task.course.reason? = some .shutdown ∧ task.telemetry.handshakeSucceeded = false)
        then 1 else 0 else 0) x.sessions := by
    rw [← tally_filter, ← tally_filter]
    exact (tally_eq_length fun _ _ => rfl).symm
  have htasks : tally (SessionTask.counts .connectionsTotal) x.sessions =
      tally (SessionTask.counts .activeConnections) x.sessions +
        tally (SessionTask.counts .handshakeSuccessTotal) x.sessions +
        tally (SessionTask.counts .handshakeFailureTotal) x.sessions + x.stopped.length := by
    rw [hstopped, ← tally_add, ← tally_add, ← tally_add]
    -- At rest, a session is active, or has ended and is charged for its reason.
    refine tally_congr fun task hmem => ?_
    rcases h.atRest hrest hmem with ⟨hactive, hclosed, hcharged⟩ |
      ⟨hactive, hclosed, reason, hreason, hcharged⟩
    · simp [SessionTask.counts, hactive, hclosed, hcharged]
    · simp only [SessionTask.counts, hactive, hclosed, hcharged, hreason, charge]
      cases task.telemetry.handshakeSucceeded with
      | true => simp
      | false => by_cases hshutdown : reason = .shutdown <;> simp [hshutdown]
  -- The connection that is being opened counts for nothing else yet.
  have hserving : x.serving.counts .connectionsTotal = x.serving.counts .activeConnections ∧
      x.serving.counts .handshakeSuccessTotal = 0 ∧
      x.serving.counts .handshakeFailureTotal = 0 := by
    obtain ⟨htotal, hid, -⟩ := hrest
    revert htotal hid
    cases x.serving with
    | opening next => cases next <;> simp [Serving.counts]
    | _ => simp [Serving.counts]
  simp only [Service.counts, hserving, htasks]
  omega

theorem counts_handshake_le {c : Counter}
    (hc : c = .handshakeSuccessTotal ∨ c = .handshakeFailureTotal) (task : SessionTask) :
    task.counts c ≤ 1 := by
  have hcharge : ∀ reason durationMs, (charge task.read.handshaken reason task.read.bytesIn
      task.read.bytesOut durationMs c).toNat ≤ 1 := by
    intro reason durationMs
    obtain rfl | rfl := hc <;> rw [charge] <;> split <;> decide
  have hcounts : task.counts c = (task.course.charged task.read c).toNat := by
    obtain rfl | rfl := hc <;> rfl
  rw [hcounts]
  cases task.course with
  | closing reason durationMs next =>
    rw [Course.charged]
    split
    · exact hcharge reason durationMs
    · exact Nat.zero_le _
  | finished reason durationMs => exact hcharge reason durationMs
  | _ => exact Nat.zero_le _

theorem serving_counts_le (c : Counter) (serving : Serving) : serving.counts c ≤ 1 := by
  unfold Serving.counts
  split <;> (try split) <;> simp

/-- The active connections are within the permits held. -/
theorem counts_activeConnections_le (x : Service) : x.counts .activeConnections ≤ x.held := by
  refine Nat.add_le_add (tally_le fun task _ => ?_) ?_
  · rw [SessionTask.counts, SessionTask.holds]
    cases task.course with
    | closing reason durationMs next => cases next <;> simp [Course.isActive, Course.isEnded]
    | _ => simp [Course.isActive, Course.isEnded]
  · cases x.serving with
    | opening next => cases next <;> simp [Serving.counts, Serving.holds]
    | _ => simp [Serving.counts, Serving.holds]

end Service

/-- The ledger of a service whose sessions do not panic: at any moment no more
    connections are active than hold a permit, and the one that closes next is among
    them; at rest all connections are accounted for, and the bytes and durations of
    the closed ones add up; and in the end none is active. -/
theorem connection_ledger (maxConnections : ℕ) {x : Service}
    (hx : (service maxConnections).Reachable (fun _ e => e.Unbroken) x)
    (hwrap : x.sessions.length + 1 < 2 ^ 64) :
    (∀ task ∈ x.sessions, ∀ reason durationMs, task.course = .closing reason durationMs .active →
      0 < (x.metrics.count .activeConnections).toNat) ∧
    ((x.metrics.count .activeConnections).toNat ≤ x.held ∧ x.held ≤ maxConnections ∧
      x.available + x.held = maxConnections) ∧
    (x.sessions.map fun task => task.telemetry.id).Nodup ∧
    (x.AtRest →
      (x.metrics.count .connectionsTotal).toNat =
        (x.metrics.count .activeConnections).toNat +
          (x.metrics.count .handshakeSuccessTotal).toNat +
          (x.metrics.count .handshakeFailureTotal).toNat + x.stopped.length ∧
      (x.metrics.count .bytesInTotal).toNat =
        tally (fun task => task.read.bytesIn.toNat) x.closed % 2 ^ 64 ∧
      (x.metrics.count .bytesOutTotal).toNat =
        tally (fun task => task.read.bytesOut.toNat) x.closed % 2 ^ 64 ∧
      (x.metrics.count .connectionDurationMsTotal).toNat =
        tally (fun task => task.course.durationMs.toNat) x.closed % 2 ^ 64) ∧
    (x.serving = .returned (.ok ()) → (x.metrics.count .activeConnections).toNat = 0) := by
  have hledger := Service.ledger_of_reachable hx
  have hjoining := Service.joining_of_reachable hx
  have hheld : x.held ≤ maxConnections :=
    Nat.le_trans (Nat.le_add_left _ _) (Nat.le_of_eq hledger.permits)
  have hactive : (x.metrics.count .activeConnections).toNat = x.counts .activeConnections := by
    have hmax : maxConnections < 2 ^ 64 :=
      Nat.lt_of_le_of_lt (Service.le_maxPermits_of_reachable hx) (by decide)
    rw [hledger.counts, UInt64.toNat_ofNat', Nat.mod_eq_of_lt]
    exact Nat.lt_of_le_of_lt (Nat.le_trans x.counts_activeConnections_le hheld) hmax
  refine ⟨fun task hmem reason durationMs hcourse => ?_, ⟨?_, hheld, hledger.permits⟩, ?_,
    fun hrest => ⟨?_, ?_, ?_, ?_⟩, fun hreturned => ?_⟩
  · have hone : SessionTask.counts .activeConnections task = 1 := by
      rw [SessionTask.counts, hcourse]
      rfl
    rw [hactive]
    exact Nat.lt_of_lt_of_le (Nat.lt_of_lt_of_eq Nat.one_pos hone.symm)
      (Nat.le_trans (le_tally hmem) (Nat.le_add_right _ _))
  · rw [hactive]
    exact x.counts_activeConnections_le
  · refine nodup_of_getElem?_ofNat (fun i id hid => ?_) ?_
    · rw [List.getElem?_map] at hid
      obtain ⟨task, htask, rfl⟩ := Option.map_eq_some_iff.1 hid
      exact hledger.ids i task htask
    · rw [List.length_map]
      exact Nat.lt_of_succ_lt hwrap
  · rw [hactive, hledger.toNat_count_of_le (fun _ _ => Nat.le_refl _)
        (Service.serving_counts_le _ _) hwrap,
      hledger.toNat_count_of_le (fun task _ => Service.counts_handshake_le (.inl rfl) task)
        (Service.serving_counts_le _ _) hwrap,
      hledger.toNat_count_of_le (fun task _ => Service.counts_handshake_le (.inr rfl) task)
        (Service.serving_counts_le _ _) hwrap]
    exact hledger.counts_eq hrest
  · exact hledger.toNat_count hrest (f := fun task => task.read.bytesIn)
      (fun serving => by cases serving with | opening next => cases next <;> rfl | _ => rfl)
      (fun _ => rfl) fun _ _ _ => rfl
  · exact hledger.toNat_count hrest (f := fun task => task.read.bytesOut)
      (fun serving => by cases serving with | opening next => cases next <;> rfl | _ => rfl)
      (fun _ => rfl) fun _ _ _ => rfl
  · exact hledger.toNat_count hrest (f := fun task => task.course.durationMs)
      (fun serving => by cases serving with | opening next => cases next <;> rfl | _ => rfl)
      (fun _ => rfl) fun _ _ _ => rfl
  · -- All sessions were waited for, so none of them is active.
    rw [hactive, Service.counts, hreturned, tally_eq_zero fun task hmem => ?_]
    · rfl
    · have hended := hjoining.ended task hmem (hjoining.waited hreturned task hmem)
      rw [SessionTask.counts]
      revert hended
      cases task.course <;> simp [Course.isEnded, Course.isActive]

/-- A session that moved seven bytes, and a connection that was refused meanwhile. -/
theorem connection_ledger_refused : ∃ x : Service, x.AtRest ∧ x.serving = .returned (.ok ()) ∧
    (x.metrics.count .activeConnections).toNat = 0 ∧
    (x.metrics.count .connectionsTotal).toNat =
      (x.metrics.count .activeConnections).toNat +
        (x.metrics.count .handshakeSuccessTotal).toNat +
        (x.metrics.count .handshakeFailureTotal).toNat + x.stopped.length ∧
    (x.metrics.count .bytesInTotal).toNat = 7 := by
  let x := ((service 1).run (fun _ e => e.Unbroken) (.initial 1)
    ([.accept (.ok ()), .advance, .advance, .advance, .advance, .advance, .session 0 .handshake,
      .session 0 (.copiedIn 7), .accept (.ok ()), .advance, .session 0 (.finish (.ok ()) 5)] ++
      List.replicate 12 (.session 0 .close) ++
      [.join 0, .signal (.ok ()), .advance, .advance, .advance])).get (by decide +kernel)
  have hreach : (service 1).Reachable (fun _ e => e.Unbroken) x :=
    EventSystem.reachable_of_run ⟨by decide, rfl⟩ (Option.some_get _).symm
  have hreturned : x.serving = .returned (.ok ()) := by decide +kernel
  have hsessions : x.sessions.map SessionTask.course = [.finished .peerClosed 5] := by
    decide +kernel
  have hrest : x.AtRest := by
    refine ⟨by simp [hreturned], by simp [hreturned], fun task hmem reason durationMs next h => ?_⟩
    have hcourse := List.mem_map_of_mem (f := SessionTask.course) hmem
    rw [hsessions, List.mem_singleton, h] at hcourse
    cases hcourse
  obtain ⟨-, -, -, hatRest, hnone⟩ := connection_ledger 1 hreach (by decide +kernel)
  exact ⟨x, hrest, hreturned, hnone hreturned, (hatRest hrest).1,
    (hatRest hrest).2.1.trans (by decide +kernel)⟩

end SecureTunnel
