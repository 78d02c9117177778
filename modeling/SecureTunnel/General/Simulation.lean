import SecureTunnel.General.Transition

/-!
# Simulations

A guarded transition system is simulated by another where every admitted step
between reachable states is matched by a path of the other: its runs are then runs
of the other, up to the relation between the states, and an invariant of the other
holds of it across the relation.

Two systems with the same events are in lockstep where each event can happen in both
of two related states, or in neither: whole runs then agree (`Lockstep.run`).
-/

namespace EventSystem

variable {S E S' E' : Type*}

/-- The reachable states of `M` are related to reachable states of `N`: initial
    states to initial states, and each step is matched by a path. -/
structure Simulation (M : EventSystem S E) (N : EventSystem S' E') (allow : S → E → Prop)
    (allow' : S' → E' → Prop) where
  rel : S → S' → Prop
  init : ∀ {s}, M.init s → ∃ s', N.init s' ∧ rel s s'
  step : ∀ {s s' t e}, M.Reachable allow s → N.Reachable allow' s' → rel s s' → allow s e →
    M.step s e = some t → ∃ t', N.Path allow' s' t' ∧ rel t t'

namespace Simulation

variable {M : EventSystem S E} {N : EventSystem S' E'} {allow : S → E → Prop}
  {allow' : S' → E' → Prop}

/-- Every reachable state is related to a reachable one. -/
theorem reachable (sim : Simulation M N allow allow') {s : S} (h : M.Reachable allow s) :
    ∃ s', N.Reachable allow' s' ∧ sim.rel s s' := by
  induction h with
  | init hi =>
    obtain ⟨s', hi', hrel⟩ := sim.init hi
    exact ⟨s', .init hi', hrel⟩
  | step hr ha hs ih =>
    obtain ⟨s', hr', hrel⟩ := ih
    obtain ⟨t', hpath, hrel'⟩ := sim.step hr hr' hrel ha hs
    exact ⟨t', hr'.path hpath, hrel'⟩

end Simulation

/-- Related states of the two systems take the same of the admitted events, and take
    them to related states. -/
structure Lockstep {T : Type*} (M : EventSystem S E) (N : EventSystem T E)
    (admits : E → Prop) where
  rel : S → T → Prop
  step : ∀ {s t e}, rel s t → admits e → Option.Rel rel (M.step s e) (N.step t e)

/-- The two systems run the same lists of events, to related states. -/
theorem Lockstep.run {T : Type*} {M : EventSystem S E} {N : EventSystem T E} {admits : E → Prop}
    [DecidablePred admits] (lock : Lockstep M N admits) (es : List E) {s : S} {t : T}
    (h : lock.rel s t) :
    Option.Rel lock.rel (M.run (fun _ => admits) s es) (N.run (fun _ => admits) t es) := by
  induction es generalizing s t with
  | nil => exact .some h
  | cons e es ih =>
    rw [EventSystem.run, EventSystem.run]
    by_cases he : admits e
    · rw [if_pos he, if_pos he]
      have hstep := lock.step h he
      cases hm : M.step s e <;> cases hn : N.step t e <;> rw [hm, hn] at hstep
      case none.none => exact .none
      case some.some s' t' =>
        cases hstep with
        | some h' => exact ih h'
      all_goals cases hstep
    · rw [if_neg he, if_neg he]
      exact .none

end EventSystem
