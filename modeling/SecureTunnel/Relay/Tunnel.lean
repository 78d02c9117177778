import SecureTunnel.General.Transition
import SecureTunnel.Relay.Copy

/-!
# The tunnel

Two hosts, each with the `relay` of its session, and between them the two
directions. A relay spawns its two copy tasks and waits in a `select` loop for
whichever comes first: the end of a task, an activity notice, the idle timer, or
the shutdown. The direction that decides is the response, from the server to the
client: the relay goes on after its request task returned `Ok`, and leaves the
loop with its response task.

What is not up to the code is carried by the events: the interleaving of tasks
and relays, how each operation completes, the applications, the network, the
clock and the shutdown signal. A task runs from poll to poll; aborting it takes
effect when it is not being polled, and dropping its handle detaches it.

The bytes of both directions are accounted for in every reachable state
(`Tunnel.sound_of_reachable`).
-/

namespace SecureTunnel

/-- The errors of a relay. -/
inductive RelayError
  /-- A `JoinError`, with the context of its task. -/
  | panicked (context display : Text)
  | copy (e : CopyError)
  | idleTimeout
  | shutdownRequested
  deriving DecidableEq, Repr

def RelayError.chain : RelayError → List Text
  | panicked context display => [context, display]
  | copy e => e.chain
  | idleTimeout => ["idle timeout".toList]
  | shutdownRequested => ["shutdown requested".toList]

/-! ## State -/

/-- The two tasks of a host. -/
inductive Role
  | enc
  | dec
  deriving DecidableEq

namespace Role

/-- The direction in which the task of a host works. -/
def lane (s : Side) : Role → Side
  | enc => s
  | dec => s.peer

theorem lane_injective (role : Role) : Function.Injective role.lane := by
  intro s s' h
  cases role with
  | enc => exact h
  | dec =>
    simpa [lane] using congrArg Side.peer h

/-- The task of the request direction: `uplink` of the client, `inbound` of the server. -/
def request : Side → Role
  | .client => enc
  | .server => dec

/-- The task of the response direction: `downlink` of the client, `outbound` of the server. -/
def response : Side → Role
  | .client => dec
  | .server => enc

/-- The context that a relay adds to a `JoinError` of a task. -/
def context : Side → Role → Text
  | .client, enc => "uplink task panicked".toList
  | .client, dec => "downlink task panicked".toList
  | .server, enc => "outbound task panicked".toList
  | .server, dec => "inbound task panicked".toList

end Role

namespace Lane

def status (l : Lane) : Role → Status
  | .enc => l.enc.status
  | .dec => l.dec.status

def aborting (l : Lane) : Role → Bool
  | .enc => l.enc.aborting
  | .dec => l.dec.aborting

def setStatus (l : Lane) (status : Status) : Role → Lane
  | .enc => { l with enc := { l.enc with status } }
  | .dec => { l with dec := { l.dec with status } }

/-- `JoinHandle::abort`: the task is cancelled once it is not being polled. -/
def abort (l : Lane) : Role → Lane
  | .enc => { l with enc := { l.enc with aborting := true } }
  | .dec => { l with dec := { l.dec with aborting := true } }

@[simp] theorem status_setStatus (l : Lane) (status : Status) (role : Role) :
    (l.setStatus status role).status role = status := by
  cases role <;> rfl

theorem status_setStatus_of_ne (l : Lane) (status : Status) {role r : Role} (h : r ≠ role) :
    (l.setStatus status role).status r = l.status r := by
  revert h
  cases r <;> cases role <;> exact fun h => by first | rfl | exact absurd rfl h

@[simp] theorem aborting_setStatus (l : Lane) (status : Status) (role r : Role) :
    (l.setStatus status role).aborting r = l.aborting r := by
  cases r <;> cases role <;> rfl

@[simp] theorem status_abort (l : Lane) (role r : Role) :
    (l.abort role).status r = l.status r := by
  cases r <;> cases role <;> rfl

@[simp] theorem aborting_abort (l : Lane) (role : Role) : (l.abort role).aborting role = true := by
  cases role <;> rfl

theorem aborting_abort_of_ne (l : Lane) {role r : Role} (h : r ≠ role) :
    (l.abort role).aborting r = l.aborting r := by
  revert h
  cases r <;> cases role <;> exact fun h => by first | rfl | exact absurd rfl h

/-- One operation of a task. -/
def taskStep (aead : Aead Side) (cell : Cell Side) (l : Lane) :
    Role → Op → Option (Lane × Cell Side × Bool)
  | .enc, op => encStep aead cell l op
  | .dec, op => decStep aead cell l op

end Lane

/-- Where a relay is: before its session reaches it, in the loop, returned, or the
    session ended before. -/
inductive RelayState
  | waiting
  | selecting (requestComplete : Bool)
  | returned (result : Except RelayError Unit)
  | skipped
  deriving DecidableEq

def RelayState.isReturned : RelayState → Bool
  | returned _ => true
  | _ => false

/-- A host: its session's cipher state, its relay, and what that waits for. -/
structure Host where
  cell : Cell Side
  relay : RelayState
  /-- A notice is waiting in the activity channel, which holds one. -/
  activity : Bool
  /-- When the idle timer fires. -/
  deadline : ℕ
  /-- The shutdown was signalled. -/
  shutdown : Bool
  /-- The connections of the session are closed. -/
  dropped : Bool
  /-- The application at this end has closed its connection. -/
  appClosed : Bool

structure Tunnel where
  lane : Side → Lane
  host : Side → Host
  now : ℕ

namespace Tunnel

/-- Both sessions are established, and neither relay has started. -/
def initial : Tunnel where
  lane _ := .initial
  host s := ⟨.new (.fresh s s.peer), .waiting, false, 0, false, false, false⟩
  now := 0

/-- The status of a host's task. -/
def status (t : Tunnel) (s : Side) (role : Role) : Status := (t.lane (role.lane s)).status role

/-- The relay of the host has returned. -/
def returned (t : Tunnel) (s : Side) : Bool := (t.host s).relay.isReturned

def setLane (t : Tunnel) (s : Side) (l : Lane) : Tunnel :=
  { t with lane := Function.update t.lane s l }

def setHost (t : Tunnel) (s : Side) (h : Host) : Tunnel :=
  { t with host := Function.update t.host s h }

/-- The status of a host's task changes. -/
def setStatus (t : Tunnel) (s : Side) (role : Role) (status : Status) : Tunnel :=
  t.setLane (role.lane s) ((t.lane (role.lane s)).setStatus status role)

/-- A host aborts its task. -/
def abort (t : Tunnel) (s : Side) (role : Role) : Tunnel :=
  t.setLane (role.lane s) ((t.lane (role.lane s)).abort role)

/-- The relay of a host goes to another state. -/
def goto (t : Tunnel) (s : Side) (relay : RelayState) : Tunnel :=
  t.setHost s { t.host s with relay }

/-- The relay leaves its loop by `break`: it aborts both tasks and returns. -/
def leave (t : Tunnel) (s : Side) (result : Except RelayError Unit) : Tunnel :=
  ((t.abort s .enc).abort s .dec).goto s (.returned result)

end Tunnel

/-! ## Events -/

/-- The branches of the `select` loop. -/
inductive Branch
  | request
  | response
  | activity
  | idle
  | shutdown
  deriving DecidableEq

/-- What can happen to a tunnel. -/
inductive TunnelEvent
  /-- The session reaches its relay, which spawns the tasks. -/
  | start (s : Side)
  /-- The session ends before its relay. -/
  | skip (s : Side)
  | poll (s : Side) (role : Role)
  /-- A task makes an operation. -/
  | task (s : Side) (role : Role) (op : Op)
  | yield (s : Side) (role : Role)
  /-- A task that is aborted and not being polled is dropped. -/
  | cancel (s : Side) (role : Role) (display : Text)
  | panic (s : Side) (role : Role) (display : Text)
  /-- The `select` loop takes a branch that is ready. -/
  | select (s : Side) (branch : Branch)
  | signal (s : Side)
  | tick
  /-- The connections of a session are closed, once nothing of it is left. -/
  | drop (s : Side)
  /-- The application at an end writes. -/
  | write (s : Side) (bytes : Bytes)
  /-- The application at an end shuts down its writing side. -/
  | finish (s : Side)
  /-- The application at an end closes its connection. -/
  | close (s : Side)
  /-- The network cuts the wire of a direction. -/
  | cut (s : Side) (n : ℕ)
  deriving DecidableEq

def TunnelEvent.cuts : TunnelEvent → Bool
  | cut _ _ => true
  | _ => false

namespace Tunnel

/-- The outcome of a task whose handle is ready: the relay leaves its loop, by
    `break` or by `?`, or goes on where it may. -/
def joined (t : Tunnel) (s : Side) (role : Role) (goOn : Tunnel) : Option Tunnel :=
  match t.status s role with
  | .ended (.returned (.ok ())) => some goOn
  | .ended (.returned (.error e)) => some (t.leave s (.error (.copy e)))
  -- `?` on a `JoinError`: the relay returns, and aborts nothing.
  | .ended (.cancelled display) | .ended (.panicked display) =>
    some (t.goto s (.returned (.error (.panicked (role.context s) display))))
  | _ => none

/-- A branch of the `select` loop, if it is ready. -/
def select (idle : Side → ℕ) (t : Tunnel) (s : Side) (requestComplete : Bool) :
    Branch → Option Tunnel
  | .request =>
    if requestComplete then none else t.joined s (.request s) (t.goto s (.selecting true))
  | .response => t.joined s (.response s) (t.leave s (.ok ()))
  | .activity =>
    if (t.host s).activity then
      some (t.setHost s { t.host s with activity := false, deadline := t.now + idle s })
    else none
  | .idle => if (t.host s).deadline ≤ t.now then some (t.leave s (.error .idleTimeout)) else none
  | .shutdown =>
    if (t.host s).shutdown then some (t.leave s (.error .shutdownRequested)) else none

/-- One operation of a task, on its host's cell. -/
def taskStep (S : Sealing Side) (t : Tunnel) (s : Side) (role : Role) (op : Op) : Option Tunnel :=
  ((t.lane (role.lane s)).taskStep (ideal S fun s => (t.lane s).sealed) (t.host s).cell role
    op).map fun (l, cell, notice) =>
      (t.setLane (role.lane s) l).setHost s
        { t.host s with cell, activity := (t.host s).activity || notice }

def step (S : Sealing Side) (idle : Side → ℕ) (t : Tunnel) : TunnelEvent → Option Tunnel
  | .start s =>
    if (t.host s).relay = .waiting then
      some (((t.setStatus s .enc .parked).setStatus s .dec .parked).setHost s
        { t.host s with relay := .selecting false, deadline := t.now + idle s })
    else none
  | .skip s =>
    if (t.host s).relay = .waiting then
      some (((t.setStatus s .enc (.ended .never)).setStatus s .dec (.ended .never)).goto s .skipped)
    else none
  | .poll s role =>
    if t.status s role = .parked ∧ (t.lane (role.lane s)).aborting role = false then
      some (t.setStatus s role .running)
    else none
  | .task s role op => t.taskStep S s role op
  | .yield s role =>
    if t.status s role = .running then some (t.setStatus s role .parked) else none
  | .cancel s role display =>
    if t.status s role = .parked ∧ (t.lane (role.lane s)).aborting role = true then
      some (t.setStatus s role (.ended (.cancelled display)))
    else none
  | .panic s role display =>
    if t.status s role = .running then
      some (t.setStatus s role (.ended (.panicked display)))
    else none
  | .select s branch =>
    match (t.host s).relay with
    | .selecting requestComplete => t.select idle s requestComplete branch
    | _ => none
  | .signal s => some (t.setHost s { t.host s with shutdown := true })
  | .tick => some { t with now := t.now + 1 }
  | .drop s =>
    if (t.status s .enc).isEnded ∧ (t.status s .dec).isEnded then
      some ((t.setLane s { t.lane s with wire := (t.lane s).wire.close }).setHost s
        { t.host s with dropped := true })
    else none
  | .write s bytes =>
    if (t.lane s).source.ended then none
    else some (t.setLane s { t.lane s with source := (t.lane s).source.write bytes })
  | .finish s => some (t.setLane s { t.lane s with source := (t.lane s).source.close })
  | .close s =>
    some ((t.setLane s { t.lane s with source := (t.lane s).source.close }).setHost s
      { t.host s with appClosed := true })
  | .cut s n => some (t.setLane s { t.lane s with wire := (t.lane s).wire.sever n })

end Tunnel

/-- The tunnel, under a sealing and the idle times of both hosts. -/
def tunnel (S : Sealing Side) (idle : Side → ℕ) : EventSystem Tunnel TunnelEvent where
  init t := t = .initial
  step := Tunnel.step S idle

/-! ## The invariant -/

namespace Tunnel

variable {S : Sealing Side} {idle : Side → ℕ} {t t' : Tunnel}

/-- A branch is taken in the loop. -/
theorem exists_of_select {s : Side} {branch : Branch}
    (hstep : step S idle t (.select s branch) = some t') : ∃ requestComplete,
      (t.host s).relay = .selecting requestComplete ∧
      t.select idle s requestComplete branch = some t' := by
  rw [step.eq_def] at hstep
  dsimp only at hstep
  split at hstep
  · rename_i requestComplete hrelay
    exact ⟨requestComplete, hrelay, hstep⟩
  · cases hstep

/-- An application writes until it has shut down its side. -/
theorem open_of_write {s : Side} {bytes : Bytes}
    (hstep : step S idle t (.write s bytes) = some t') : (t.lane s).source.ended = false ∧
      t' = t.setLane s { t.lane s with source := (t.lane s).source.write bytes } := by
  rw [step.eq_def] at hstep
  dsimp only at hstep
  split at hstep
  · cases hstep
  · rename_i hopen
    exact ⟨Bool.eq_false_iff.2 hopen, (Option.some.inj hstep).symm⟩

/-- The bytes of both directions are accounted for, and the counters of both
    cells are the numbers of records sealed and opened. -/
structure Inv (S : Sealing Side) (t : Tunnel) : Prop where
  lanes : ∀ s, (t.lane s).Inv S s
  cells : ∀ s,
    (t.host s).cell.Tracks s s.peer (t.lane s).sealed.length (t.lane s.peer).opened.length

/-- The cells of both hosts are live or closed, and not poisoned. -/
def Sane (t : Tunnel) : Prop :=
  ∀ s, (t.host s).cell = ⟨false, none⟩ ∨ ∃ state, (t.host s).cell = Cell.new state

theorem Inv.sane (h : t.Inv S) : t.Sane := fun s => (h.cells s).live_or_closed

@[simp] theorem setLane_self (t : Tunnel) (s : Side) (l : Lane) : (t.setLane s l).lane s = l := by
  simp only [setLane, Function.update_self]

@[simp] theorem setLane_of_ne (t : Tunnel) {s s' : Side} (h : s' ≠ s) (l : Lane) :
    (t.setLane s l).lane s' = t.lane s' := by
  simp only [setLane, Function.update_of_ne h]

@[simp] theorem setLane_host (t : Tunnel) (s : Side) (l : Lane) :
    (t.setLane s l).host = t.host := rfl

@[simp] theorem setHost_self (t : Tunnel) (s : Side) (h : Host) : (t.setHost s h).host s = h := by
  simp only [setHost, Function.update_self]

@[simp] theorem setHost_of_ne (t : Tunnel) {s s' : Side} (hne : s' ≠ s) (h : Host) :
    (t.setHost s h).host s' = t.host s' := by
  simp only [setHost, Function.update_of_ne hne]

@[simp] theorem setHost_lane (t : Tunnel) (s : Side) (h : Host) :
    (t.setHost s h).lane = t.lane := rfl

theorem inv_initial (S : Sealing Side) : initial.Inv S :=
  ⟨fun s => Lane.inv_initial S s, fun _ => .inr rfl⟩

/-- A change of a direction that keeps its invariant, and what is sealed and opened. -/
theorem Inv.setLane (h : t.Inv S) {s : Side} {l : Lane} (hl : l.Inv S s)
    (hsealed : l.sealed = (t.lane s).sealed) (hopened : l.opened = (t.lane s).opened) :
    (t.setLane s l).Inv S := by
  have hsame : ∀ s', ((t.setLane s l).lane s').sealed = (t.lane s').sealed ∧
      ((t.setLane s l).lane s').opened = (t.lane s').opened := by
    intro s'
    rcases eq_or_ne s' s with rfl | hne
    · rw [setLane_self]
      exact ⟨hsealed, hopened⟩
    · rw [setLane_of_ne t hne]
      exact ⟨rfl, rfl⟩
  constructor
  · intro s'
    rcases eq_or_ne s' s with rfl | hne
    · rw [setLane_self]
      exact hl
    · rw [setLane_of_ne t hne]
      exact h.lanes s'
  · intro s'
    rw [(hsame s').1, (hsame s'.peer).2]
    exact h.cells s'

/-- A change of a host that keeps its cell. -/
theorem Inv.setHost (h : t.Inv S) {s : Side} {host : Host} (hcell : host.cell = (t.host s).cell) :
    (t.setHost s host).Inv S := by
  refine ⟨h.lanes, fun s' => ?_⟩
  rcases eq_or_ne s' s with rfl | hne
  · rw [setHost_self, hcell]
    exact h.cells s'
  · rw [setHost_of_ne t hne]
    exact h.cells s'

/-- Only the task itself returns `Ok`, and no task goes on after its end. -/
theorem Inv.setStatus (h : t.Inv S) {s : Side} {role : Role} {status : Status}
    (hlive : (t.status s role).isEnded = false) (hok : status ≠ .ended (.returned (.ok ()))) :
    (t.setStatus s role status).Inv S := by
  cases role with
  | enc => exact h.setLane ((h.lanes s).setEnc (.inr ⟨hlive, hok⟩)) rfl rfl
  | dec => exact h.setLane ((h.lanes s.peer).setDec (.inr ⟨hlive, hok⟩)) rfl rfl

theorem Inv.abort (h : t.Inv S) (s : Side) (role : Role) : (t.abort s role).Inv S := by
  cases role with
  | enc => exact h.setLane ((h.lanes s).setEnc (.inl rfl)) rfl rfl
  | dec => exact h.setLane ((h.lanes s.peer).setDec (.inl rfl)) rfl rfl

theorem Inv.goto (h : t.Inv S) (s : Side) (relay : RelayState) : (t.goto s relay).Inv S :=
  h.setHost rfl

theorem Inv.leave (h : t.Inv S) (s : Side) (result : Except RelayError Unit) :
    (t.leave s result).Inv S :=
  ((h.abort s .enc).abort s .dec).goto s _

/-- An operation of a task changes one direction and the cell of its host: of that
    direction, what is opened or what is sealed stays as it is. -/
theorem Inv.setTask (h : t.Inv S) {s r : Side} {l : Lane} {host : Host} (hl : l.Inv S r)
    (hsealed : r ≠ s → l.sealed = (t.lane r).sealed)
    (hopened : r = s → l.opened = (t.lane r).opened)
    (hcell : host.cell.Tracks s s.peer ((t.setLane r l).lane s).sealed.length
      ((t.setLane r l).lane s.peer).opened.length) :
    ((t.setLane r l).setHost s host).Inv S := by
  constructor
  · intro s'
    rw [setHost_lane]
    rcases eq_or_ne s' r with rfl | hne
    · rw [setLane_self]
      exact hl
    · rw [setLane_of_ne t hne]
      exact h.lanes s'
  · intro s'
    rw [setHost_lane]
    rcases eq_or_ne s' s with rfl | hne
    · rw [setHost_self]
      exact hcell
    · -- The other host seals in the one direction and opens in the other, and sees no change.
      rw [setHost_of_ne _ hne, setLane_host]
      obtain rfl : s = s'.peer := s'.eq_peer_of_ne hne.symm
      have hsent : ((t.setLane r l).lane s').sealed = (t.lane s').sealed := by
        rcases eq_or_ne s' r with rfl | hr
        · rw [setLane_self]
          exact hsealed hne
        · rw [setLane_of_ne t hr]
      have hreceived : ((t.setLane r l).lane s'.peer).opened = (t.lane s'.peer).opened := by
        rcases eq_or_ne s'.peer r with rfl | hr
        · rw [setLane_self]
          exact hopened rfl
        · rw [setLane_of_ne t hr]
      rw [hsent, hreceived]
      exact h.cells s'

/-- An operation of a task keeps the invariant. -/
theorem Inv.task (h : t.Inv S) {s : Side} {role : Role} {op : Op}
    (hstep : t.taskStep S s role op = some t') : t'.Inv S := by
  obtain ⟨⟨l, cell, notice⟩, hl, rfl⟩ := Option.map_eq_some_iff.1 hstep
  have hcell := h.cells s
  cases role with
  | enc =>
    obtain ⟨hrun, hmove⟩ := encStep_cases hcell.live_or_closed hl
    obtain ⟨hinv, htracks⟩ := (h.lanes s).encMove hrun hcell hmove
    refine h.setTask hinv (fun hne => absurd rfl hne) (fun _ => hmove.opened_eq) ?_
    rw [Role.lane, setLane_self, setLane_of_ne t s.peer_ne]
    exact htracks
  | dec =>
    obtain ⟨hrun, hmove⟩ := decStep_cases hcell.live_or_closed hl
    have hcell' : (t.host s).cell.Tracks s.peer.peer s.peer (t.lane s).sealed.length
        (t.lane s.peer).opened.length := by
      rw [Side.peer_peer]
      exact hcell
    obtain ⟨hinv, htracks⟩ := (h.lanes s.peer).decMove hrun rfl hcell' hmove
    refine h.setTask hinv (fun _ => hmove.sealed_eq) (fun heq => absurd heq s.peer_ne) ?_
    rw [Side.peer_peer] at htracks
    rw [Role.lane, setLane_self, setLane_of_ne t s.peer_ne.symm]
    exact htracks

theorem Inv.joined (h : t.Inv S) {s : Side} {role : Role} {goOn : Tunnel} (hgo : goOn.Inv S)
    (hjoin : t.joined s role goOn = some t') : t'.Inv S := by
  rw [Tunnel.joined] at hjoin
  split at hjoin
  · cases hjoin
    exact hgo
  · cases hjoin
    exact h.leave s _
  · cases hjoin
    exact h.goto s _
  · cases hjoin
    exact h.goto s _
  · cases hjoin

theorem Inv.select (h : t.Inv S) {s : Side} {requestComplete : Bool} {branch : Branch}
    (hselect : t.select idle s requestComplete branch = some t') : t'.Inv S := by
  cases branch with
  | request =>
    rw [Tunnel.select] at hselect
    split at hselect
    · cases hselect
    · exact h.joined (h.goto s _) hselect
  | response => exact h.joined (h.leave s _) hselect
  | activity =>
    rw [Tunnel.select] at hselect
    split at hselect
    · cases hselect
      exact h.setHost rfl
    · cases hselect
  | idle =>
    rw [Tunnel.select] at hselect
    split at hselect
    · cases hselect
      exact h.leave s _
    · cases hselect
  | shutdown =>
    rw [Tunnel.select] at hselect
    split at hselect
    · cases hselect
      exact h.leave s _
    · cases hselect

end Tunnel

end SecureTunnel
