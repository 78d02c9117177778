import SecureTunnel.Config.Client
import SecureTunnel.Config.Keys
import SecureTunnel.Core.Time
import SecureTunnel.Relay.Tamper

/-!
# The deadline of a relay

A relay adds its idle time to what the clock reads, once its tasks are spawned and
whenever it receives a notice. The timer in turn adds to the deadline that it is
given, to round it up: as it is registered, which is when the loop first polls it,
and as it is reset. An instant has signed seconds of 64 bits, the configured idle time
is any positive number of 64 bits, and where a sum does not fit, `+` panics: the relay
is unwound, and its tasks, whose handles are dropped, run on.

What the timer adds belongs to the runtime, and is a parameter.

* `Clocked.Late`: a relay, or its timer, makes a sum that does not fit.
* `relay_unwinds_iff`: a relay is unwound exactly there.
-/

namespace SecureTunnel

/-! ## Clocks -/

/-- The configured idle times. -/
def idleSeconds (client : ClientConfig) (server : ServerConfig) : Side → UInt64
  | .client => client.timeouts.idleSeconds
  | .server => server.timeouts.idleSeconds

/-- What can happen to the relays of a tunnel, and to their timers. -/
inductive ClockedEvent
  | tunnel (e : TamperEvent)
  /-- The loop polls its timer, and goes on to the next branch, or waits. -/
  | pollTimer (s : Side)

namespace TamperEvent

/-- The host whose relay computes its deadline. -/
def computes : TamperEvent → Option Side
  | tunnel (.start s) | tunnel (.select s .activity) => some s
  | _ => none

/-- The host whose relay resets its timer. -/
def resets : TamperEvent → Option Side
  | tunnel (.select s .activity) => some s
  | _ => none

end TamperEvent

/-- The relay is in its loop. -/
def RelayState.isSelecting : RelayState → Bool
  | selecting _ => true
  | _ => false

/-- A tunnel whose relays may be unwound. -/
structure Clocked where
  tunnel : Tunnel
  /-- The deadline that the timer of the host was given, once its relay has started. -/
  deadline : Side → Instant
  /-- The timer was polled, or reset. -/
  registered : Side → Bool
  /-- A panic has unwound the relay of the host. -/
  unwound : Side → Bool

namespace Clocked

variable (S : Sealing Side) (idle : Side → UInt64) (clock : ℕ → Instant) (rounding : Duration)

/-- `TokioInstant::now() + idle`, if that fits. -/
def due (t : Clocked) (s : Side) : Option Instant :=
  (clock t.tunnel.now).checkedAdd (.fromSecs (idle s))

/-- A sum that the relay of the host makes at an event, or its timer, does not fit. -/
def overflows (t : Clocked) (s : Side) : ClockedEvent → Bool
  | .tunnel (.tunnel (.start s')) => s' = s ∧ t.due idle clock s = none
  | .tunnel (.tunnel (.select s' .activity)) =>
    s' = s ∧ (t.due idle clock s).bind (·.checkedAdd rounding) = none
  | .pollTimer s' =>
    s' = s ∧ t.registered s = false ∧ (t.deadline s).checkedAdd rounding = none
  | _ => false

/-- A relay that was unwound is not in its loop any more, and a timer is polled before
    it fires. -/
def canSelect (t : Clocked) : TamperEvent → Bool
  | .tunnel (.select s .idle) => !t.unwound s && t.registered s
  | .tunnel (.select s _) => !t.unwound s
  | _ => true

/-- An event of the tunnel, or a poll of a timer. To be unwound aborts no task. -/
def step (t : Clocked) (e : ClockedEvent) : Option Clocked :=
  match e with
  | .tunnel event =>
    if t.canSelect event then
      (t.tunnel.tamperStep S (fun s => (idle s).toNat) event).map fun tunnel =>
        { tunnel
          deadline s :=
            if event.computes = some s then (t.due idle clock s).getD (t.deadline s)
            else t.deadline s
          registered s := t.registered s || decide (event.resets = some s)
          unwound s := t.unwound s || t.overflows idle clock rounding s e }
    else none
  | .pollTimer s =>
    if (t.tunnel.host s).relay.isSelecting = true ∧ t.unwound s = false then
      some { t with
        registered := Function.update t.registered s true
        unwound := fun s => t.unwound s || t.overflows idle clock rounding s e }
    else none

/-- The sum that is made for the host at an event is not below the limit: that of the
    clock and the idle time, and of what the timer adds where that is registered. -/
def Late (t : Clocked) (s : Side) : ClockedEvent → Prop
  | .tunnel (.tunnel (.start s')) => s' = s ∧
    Instant.limit ≤ (clock t.tunnel.now).asNanos + (idle s).toNat * 1000000000
  | .tunnel (.tunnel (.select s' .activity)) => s' = s ∧
    Instant.limit ≤
      (clock t.tunnel.now).asNanos + (idle s).toNat * 1000000000 + rounding.asNanos
  | .pollTimer s' => s' = s ∧ t.registered s = false ∧
    Instant.limit ≤ (t.deadline s).asNanos + rounding.asNanos
  | _ => False

/-- No sum is made too late. -/
def InRange (t : Clocked) (e : ClockedEvent) : Prop := ∀ s, ¬t.Late idle clock rounding s e

def initial : Clocked where
  tunnel := .initial
  deadline _ := ⟨0, 0, by decide, by decide, Nat.succ_pos _⟩
  registered _ := false
  unwound _ := false

end Clocked

/-- The tunnel, under the idle times and the clock of its hosts, and what their timers
    round by. -/
def clocked (S : Sealing Side) (idle : Side → UInt64) (clock : ℕ → Instant)
    (rounding : Duration) : EventSystem Clocked ClockedEvent where
  init t := t = .initial
  step := Clocked.step S idle clock rounding

namespace Clocked

variable {S : Sealing Side} {idle : Side → UInt64} {clock : ℕ → Instant} {rounding : Duration}
  {t t' : Clocked} {e : ClockedEvent} {s : Side}

theorem due_eq_none : t.due idle clock s = none ↔
    Instant.limit ≤ (clock t.tunnel.now).asNanos + (idle s).toNat * 1000000000 := by
  rw [due, Instant.checkedAdd_eq_none, Duration.asNanos_fromSecs]
  omega

/-- The sums that do not fit are those made too late. -/
theorem overflows_iff : t.overflows idle clock rounding s e = true ↔
    t.Late idle clock rounding s e := by
  rw [overflows.eq_def, Late.eq_def]
  split
  · rw [decide_eq_true_iff, due_eq_none]
  · rw [decide_eq_true_iff, due, Instant.bind_checkedAdd_eq_none, Duration.asNanos_fromSecs]
    refine and_congr_right fun _ => ?_
    omega
  · rw [decide_eq_true_iff, Instant.checkedAdd_eq_none]
  · simp

/-- A step unwinds a relay exactly where it makes a sum too late. -/
theorem unwound_step (h : t.step S idle clock rounding e = some t') : t'.unwound s = true ↔
    t.unwound s = true ∨ t.Late idle clock rounding s e := by
  have hunwound : t'.unwound s = (t.unwound s || t.overflows idle clock rounding s e) := by
    rw [step.eq_def] at h
    split at h
    · obtain ⟨-, h⟩ := Option.ite_none_right_eq_some.1 h
      obtain ⟨tunnel, -, rfl⟩ := Option.map_eq_some_iff.1 h
      rfl
    · obtain ⟨-, h⟩ := Option.ite_none_right_eq_some.1 h
      cases h
      rfl
  rw [hunwound, Bool.or_eq_true, overflows_iff]

/-- No relay is unwound as long as no sum is made too late. -/
theorem unwound_of_reachable
    (h : (clocked S idle clock rounding).Reachable (InRange idle clock rounding) t) (s : Side) :
    t.unwound s = false := by
  refine h.invariant (P := fun t => t.unwound s = false) ?_ ?_
  · rintro t rfl
    rfl
  · intro t e t' _ hbefore hrange hstep
    by_contra hunwound
    rw [Bool.not_eq_false, unwound_step hstep] at hunwound
    rcases hunwound with hearlier | hlate
    · exact absurd (hbefore.symm.trans hearlier) (by decide)
    · exact hrange s hlate

end Clocked

open Clocked

/-- Whatever the configured idle times, the clock, and what a timer rounds by: in every
    run in which no sum is made too late, no relay is unwound, and a step unwinds a relay
    exactly where it makes a sum too late. -/
theorem relay_unwinds_iff {S : Sealing Side} {clock : ℕ → Instant} {rounding : Duration}
    (client : ClientConfig) (server : ServerConfig) :
    let idle := idleSeconds client server
    (∀ t, (clocked S idle clock rounding).Reachable (InRange idle clock rounding) t →
      ∀ s, t.unwound s = false) ∧
    ∀ t e t', (clocked S idle clock rounding).Reachable EventSystem.always t →
      t.step S idle clock rounding e = some t' → ∀ s, (t'.unwound s = true ↔
        t.unwound s = true ∨ t.Late idle clock rounding s e) :=
  ⟨fun _ h s => unwound_of_reachable h s, fun _ _ _ _ hstep _ => unwound_step hstep⟩

/-- The clock of a machine that was started a second ago. -/
def early (_ : ℕ) : Instant := ⟨1, 0, by decide, by decide, Nat.succ_pos _⟩

/-- The clock of a machine that has nearly run for a second. -/
def earlier (_ : ℕ) : Instant := ⟨0, 999500000, by decide, by decide, by decide⟩

/-- A timer rounds up to the end of a millisecond. -/
def upToMillis : Duration := ⟨0, 999999, by decide⟩

def ClientConfig.plain : ClientConfig where
  listen := ⟨.v4 127 0 0 1, 4433⟩
  remote := "tunnel.example:8443".toList
  privateKeyFile := "/tmp/client.key".toList
  serverPublicKey := "AAAAAAAAAAAAAAAAAAAAAAAAAAAAAAAAAAAAAAAAAAA=".toList

def ServerConfig.plain : ServerConfig :=
  .allowing ["AAAAAAAAAAAAAAAAAAAAAAAAAAAAAAAAAAAAAAAAAAA=".toList]

/-- The relay of a server starts with the idle time by default, and polls its timer. -/
theorem relay_unwinds_iff_default :
    let idle := idleSeconds .plain .plain
    ∃ t t' : Clocked, (t'.tunnel.host .server).relay = .selecting false ∧
      (∀ s, t'.unwound s = false) ∧ (t'.unwound .server = true ↔
        t.unwound .server = true ∨
          t.Late idle early upToMillis .server (.pollTimer .server)) := by
  intro idle
  let S : Sealing Side := .tagged fun _ nonce => UInt8.ofNat nonce
  let start : ClockedEvent := .tunnel (.tunnel (.start .server))
  obtain ⟨t, t', hstart, hpoll, hdeadline, hrelay⟩ : ∃ t t' : Clocked,
      Clocked.initial.step S idle early upToMillis start = some t ∧
      t.step S idle early upToMillis (.pollTimer .server) = some t' ∧
      ¬Instant.limit ≤ (t.deadline .server).asNanos + upToMillis.asNanos ∧
      (t'.tunnel.host .server).relay = .selecting false := by
    let t := (Clocked.initial.step S idle early upToMillis start).get (by decide +kernel)
    let t' := (t.step S idle early upToMillis (.pollTimer .server)).get (by decide +kernel)
    exact ⟨t, t', (Option.some_get _).symm, (Option.some_get _).symm, by decide +kernel,
      by decide +kernel⟩
  have hrange : InRange idle early upToMillis .initial start := by
    rintro s ⟨rfl, hlate⟩
    revert hlate
    decide +kernel
  have hrange' : InRange idle early upToMillis t (.pollTimer .server) := by
    rintro s ⟨rfl, -, hlate⟩
    exact hdeadline hlate
  have h : (clocked S idle early upToMillis).Reachable (InRange idle early upToMillis) t' :=
    .step (.step (.init rfl) hrange hstart) hrange' hpoll
  have ht : (clocked S idle early upToMillis).Reachable EventSystem.always t :=
    .step (e := start) (.init rfl) trivial hstart
  exact ⟨t, t', hrelay, (relay_unwinds_iff .plain .plain).1 t' h,
    (relay_unwinds_iff .plain .plain).2 t _ t' ht hpoll .server⟩

/-- The greatest idle time that a configuration can tell is accepted. A second after the
    start of the machine, the relay of a session is unwound by it, and a task that it
    spawned forwards a record after that. Just before, it is unwound as it polls its timer. -/
theorem accepted_idle_unwinds :
    let S : Sealing Side := .tagged fun _ nonce => UInt8.ofNat nonce
    let server : ServerConfig :=
      { ServerConfig.plain with timeouts := { idleSeconds := 9223372036854775807 } }
    let idle := idleSeconds .plain server
    server.validate = .ok () ∧
      (∃ t, (clocked S idle early upToMillis).Reachable EventSystem.always t ∧
        t.unwound .server = true ∧ t.tunnel.status .server .dec = .parked ∧
        (t.tunnel.lane .server).encBytes = 1) ∧
      ∃ t t', (clocked S idle earlier upToMillis).Reachable EventSystem.always t ∧
        t.unwound .server = false ∧
        t.step S idle earlier upToMillis (.pollTimer .server) = some t' ∧
        t'.unwound .server = true := by
  intro S server idle
  let start : ClockedEvent := .tunnel (.tunnel (.start .server))
  let forward : List TunnelEvent := [.write .server [7], .poll .server .enc,
    .task .server .enc (.read 1), .task .server .enc (.write 21), .task .server .enc .flush]
  let t := ((clocked S idle early upToMillis).run EventSystem.always .initial
    (start :: forward.map (.tunnel ∘ .tunnel))).get (by decide +kernel)
  let u := ((clocked S idle earlier upToMillis).run EventSystem.always .initial [start]).get
    (by decide +kernel)
  let u' := (u.step S idle earlier upToMillis (.pollTimer .server)).get (by decide +kernel)
  exact ⟨by decide +kernel, ⟨t, EventSystem.reachable_of_run rfl (Option.some_get _).symm,
    by decide +kernel, by decide +kernel, by decide +kernel⟩, u, u',
    EventSystem.reachable_of_run rfl (Option.some_get _).symm, by decide +kernel,
    (Option.some_get _).symm, by decide +kernel⟩

end SecureTunnel
