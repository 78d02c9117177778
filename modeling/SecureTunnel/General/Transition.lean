import Mathlib.Data.Nat.Notation
import Mathlib.Tactic.TypeStar

/-!
# Guarded transition systems

A system is a guarded step function: `step s e` is the state after the event
`e`, or `none` where `e` cannot happen in `s`. Everything the surroundings
decide (which task runs next, how much a read brings, what the network does) is
carried by the events, so that a system is deterministic in its events and a
run is a list of them.

A *policy* `allow s e` says which events are admitted in which states; the
assumptions of a result ("the network is reliable", "nothing times out") are
policies, and the same system serves them all.

* `Path allow s s'`: a run of admitted events leads from `s` to `s'`.
* `Reachable allow s`: `s` is reached from an initial state.
* `Reachable.invariant`: what holds initially and is kept by every admitted
  step from a reachable state holds of every reachable state.
* `exists_path_of_measure`: where some step always decreases a measure, a run ends.
* `run`: the same runs, executed on a list of events.
-/

/-- A guarded transition system on the states `S` with events `E`. -/
structure EventSystem (S : Type*) (E : Type*) where
  /-- The initial states. -/
  init : S → Prop
  /-- The state after an event, if it can happen. -/
  step : S → E → Option S

namespace EventSystem

variable {S E : Type*} (M : EventSystem S E)

/-- The policy admitting every event. -/
abbrev always : S → E → Prop := fun _ _ => True

/-- A run of events admitted by `allow` leads from one state to the other. -/
inductive Path (allow : S → E → Prop) : S → S → Prop
  | refl (s : S) : Path allow s s
  | tail {s s' s'' : S} {e : E} : Path allow s s' → allow s' e → M.step s' e = some s'' →
      Path allow s s''

/-- The states that runs of admitted events reach from an initial state. -/
inductive Reachable (allow : S → E → Prop) : S → Prop
  | init {s : S} : M.init s → Reachable allow s
  | step {s s' : S} {e : E} : Reachable allow s → allow s e → M.step s e = some s' →
      Reachable allow s'

variable {M} {allow allow' : S → E → Prop}

theorem Path.trans {s s' s'' : S} (h : M.Path allow s s') (h' : M.Path allow s' s'') :
    M.Path allow s s'' := by
  induction h' with
  | refl => exact h
  | tail _ ha hs ih => exact .tail ih ha hs

/-- The first step of a path. -/
theorem Path.head {s s' s'' : S} {e : E} (ha : allow s e) (hs : M.step s e = some s')
    (h : M.Path allow s' s'') : M.Path allow s s'' :=
  Path.trans (.tail (.refl s) ha hs) h

/-- A path of a policy is one of every weaker policy. -/
theorem Path.mono (hle : ∀ s e, allow s e → allow' s e) {s s' : S} (h : M.Path allow s s') :
    M.Path allow' s s' := by
  induction h with
  | refl => exact .refl _
  | tail _ ha hs ih => exact .tail ih (hle _ _ ha) hs

/-- What every admitted step keeps, a path keeps. -/
theorem Path.invariant {P : S → Prop} {s s' : S} (h : M.Path allow s s') (hs : P s)
    (hstep : ∀ {s e s'}, P s → allow s e → M.step s e = some s' → P s') : P s' := by
  induction h with
  | refl => exact hs
  | tail _ ha he ih => exact hstep ih ha he

theorem Reachable.path {s s' : S} (hs : M.Reachable allow s) (h : M.Path allow s s') :
    M.Reachable allow s' := by
  induction h with
  | refl => exact hs
  | tail _ ha he ih => exact .step ih ha he

theorem Reachable.mono (hle : ∀ s e, allow s e → allow' s e) {s : S} (h : M.Reachable allow s) :
    M.Reachable allow' s := by
  induction h with
  | init hi => exact .init hi
  | step _ ha he ih => exact .step ih (hle _ _ ha) he

/-- An invariant: it holds initially, and admitted steps keep it. A step may
    use that its state is reachable, hence the invariants proved before. -/
theorem Reachable.invariant {P : S → Prop} {s : S} (h : M.Reachable allow s)
    (hinit : ∀ {s}, M.init s → P s)
    (hstep : ∀ {s e s'}, M.Reachable allow s → P s → allow s e → M.step s e = some s' → P s') :
    P s := by
  induction h with
  | init hi => exact hinit hi
  | step hr ha he ih => exact hstep hr ih ha he

/-- Progress by a measure: where every state of an invariant is done, or has an
    admitted step within the invariant that decreases the measure, a run leads to a
    state that is done. -/
theorem exists_path_of_measure {P done : S → Prop} (μ : S → ℕ)
    (hstep : ∀ s, P s → ¬done s →
      ∃ e s', allow s e ∧ M.step s e = some s' ∧ P s' ∧ μ s' < μ s) {s : S} (hs : P s) :
    ∃ s', M.Path allow s s' ∧ P s' ∧ done s' := by
  induction hμ : μ s using Nat.strongRecOn generalizing s with
  | ind n ih =>
    by_cases hdone : done s
    · exact ⟨s, .refl s, hs, hdone⟩
    · obtain ⟨e, s₁, ha, he, hs₁, hlt⟩ := hstep s hs hdone
      obtain ⟨s', hpath, hs', hdone'⟩ := ih (μ s₁) (hμ ▸ hlt) hs₁ rfl
      exact ⟨s', .head ha he hpath, hs', hdone'⟩

/-! ## Executing runs -/

variable (M allow) in
/-- The state after a list of events, if each can happen and is admitted. -/
def run [∀ s e, Decidable (allow s e)] : S → List E → Option S
  | s, [] => some s
  | s, e :: es => if allow s e then (M.step s e).bind fun s' => run s' es else none

theorem path_of_run [∀ s e, Decidable (allow s e)] {es : List E} {s s' : S}
    (h : M.run allow s es = some s') : M.Path allow s s' := by
  induction es generalizing s with
  | nil =>
    obtain rfl : s = s' := by simpa [run] using h
    exact .refl s
  | cons e es ih =>
    rw [run] at h
    split at h
    · obtain ⟨s₁, hs₁, h⟩ := Option.bind_eq_some_iff.1 h
      exact .head ‹_› hs₁ (ih h)
    · cases h

theorem reachable_of_run [∀ s e, Decidable (allow s e)] {es : List E} {s s' : S} (hs : M.init s)
    (h : M.run allow s es = some s') : M.Reachable allow s' :=
  (Reachable.init hs).path (path_of_run h)

end EventSystem
