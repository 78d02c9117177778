import Mathlib.Data.Nat.Notation
import Mathlib.Tactic.TypeStar

/-!
# Watch channels

A watch channel is a cell with a version: the sender changes the value and counts
the version up, and a receiver remembers the version that it has seen. To borrow
the value does not count as seeing it; `changed` does, and is ready as long as
there is a version to see, or the sender is gone.

* `Watch`, `Watch.Receiver`: the cell and its receivers. A clone of a receiver is
  the receiver, as it is a number.
* `Watcher`: a task that borrows the value when it begins, and polls `changed` in
  some of its steps, each of which makes it return.
* `Watching.Aware`: the task has the change before it, or is returning because of
  it. Every change makes the tasks aware of it (`aware_send`), and nothing they do
  takes that away (`Watching.Aware.act`).
-/

/-- The cell of a watch channel. -/
structure Watch (α : Type*) where
  value : α
  version : ℕ
  /-- The sender is gone. -/
  closed : Bool
  deriving DecidableEq

namespace Watch

variable {α : Type*}

/-- The receiver of a channel, by the version it has seen. -/
structure Receiver where
  seen : ℕ
  deriving DecidableEq

/-- `channel`, with its first receiver, which has seen the first value. -/
def channel (value : α) : Watch α × Receiver := (⟨value, 0, false⟩, ⟨0⟩)

def send (cell : Watch α) (value : α) : Watch α :=
  { cell with value, version := cell.version + 1 }

/-- The sender is dropped. -/
def close (cell : Watch α) : Watch α := { cell with closed := true }

namespace Receiver

/-- There is a version that the receiver has not seen. -/
def Unseen (receiver : Receiver) (cell : Watch α) : Prop := receiver.seen < cell.version

instance (receiver : Receiver) (cell : Watch α) : Decidable (receiver.Unseen cell) :=
  inferInstanceAs (Decidable (_ < _))

/-- `changed`, if it is ready: an error if the sender is gone with nothing unseen. -/
def changed (receiver : Receiver) (cell : Watch α) : Option (Except Unit Unit × Receiver) :=
  if receiver.Unseen cell then some (.ok (), ⟨cell.version⟩)
  else if cell.closed then some (.error (), receiver)
  else none

/-- `changed` is ready. -/
def ready (receiver : Receiver) (cell : Watch α) : Bool := (receiver.changed cell).isSome

variable {receiver : Receiver} {cell : Watch α}

theorem changed_of_unseen (h : receiver.Unseen cell) :
    receiver.changed cell = some (.ok (), ⟨cell.version⟩) := if_pos h

theorem ready_of_unseen (h : receiver.Unseen cell) : receiver.ready cell = true := by
  rw [ready, changed_of_unseen h]
  rfl

/-- Every receiver is behind after a change. -/
theorem unseen_send (h : receiver.seen ≤ cell.version) (value : α) :
    receiver.Unseen (cell.send value) := Nat.lt_succ_of_le h

/-- A receiver never runs ahead. -/
theorem seen_changed {result : Except Unit Unit} {receiver' : Receiver}
    (h : receiver.seen ≤ cell.version)
    (hchanged : receiver.changed cell = some (result, receiver')) :
    receiver'.seen ≤ cell.version := by
  rw [changed] at hchanged
  split at hchanged
  · cases hchanged
    exact Nat.le_refl _
  split at hchanged
  · cases hchanged
    exact h
  · cases hchanged

end Receiver

end Watch

/-! ## Tasks that watch -/

/-- A task on the states `σ` with events `ε`, which watches a cell. What completes
    `changed` in one of its `select`s are the events that it `polls`. -/
structure Watcher (α σ ε : Type*) where
  /-- How it begins, by the value that it borrows. -/
  enter : α → σ
  step : σ → ε → Option σ
  polls : ε → Bool
  /-- It is returning because of the change. -/
  Told : σ → Prop
  /-- No `select` consumes the change and goes on. -/
  told_of_polls : ∀ {s e s'}, step s e = some s' → polls e = true → Told s'
  final : ∀ {s}, Told s → ∀ e, step s e = none

/-- A task beside the cell: its receiver, and its state once it has begun. -/
structure Watching (σ : Type*) where
  receiver : Watch.Receiver
  state : Option σ
  deriving DecidableEq

namespace Watching

variable {α σ ε : Type*} (W : Watcher α σ ε) (cell : Watch α)

/-- The task is polled for the first time. -/
def enter (task : Watching σ) : Option (Watching σ) :=
  match task.state with
  | none => some { task with state := some (W.enter cell.value) }
  | some _ => none

/-- One step of a task that has begun. It polls only what is ready. -/
def act (task : Watching σ) (e : ε) : Option (Watching σ) :=
  task.state.bind fun s =>
    (W.step s e).bind fun s' =>
      if W.polls e then (task.receiver.changed cell).map fun (_, receiver) => ⟨receiver, some s'⟩
      else some ⟨task.receiver, some s'⟩

/-- The change is before the task, or it is returning because of it. -/
def Aware (task : Watching σ) : Prop :=
  task.receiver.Unseen cell ∨ ∃ s, task.state = some s ∧ W.Told s

variable {W cell} {task task' : Watching σ} {e : ε}

/-- All that a first poll does. -/
theorem enter_cases (h : task.enter W cell = some task') :
    task.state = none ∧ task' = ⟨task.receiver, some (W.enter cell.value)⟩ := by
  rw [enter] at h
  split at h
  · rename_i hstate
    cases h
    exact ⟨hstate, rfl⟩
  · cases h

/-- All that a step of a task does: it leaves the receiver alone, or it polls, and
    then returns. -/
theorem act_cases (h : task.act W cell e = some task') :
    ∃ s s', task.state = some s ∧ W.step s e = some s' ∧ task'.state = some s' ∧
      (W.polls e = false ∧ task'.receiver = task.receiver ∨
        W.polls e = true ∧ W.Told s' ∧
          ∃ result, task.receiver.changed cell = some (result, task'.receiver)) := by
  obtain ⟨s, hstate, h⟩ := Option.bind_eq_some_iff.1 h
  obtain ⟨s', hstep, h⟩ := Option.bind_eq_some_iff.1 h
  split at h
  · rename_i hpolls
    obtain ⟨⟨result, receiver⟩, hchanged, rfl⟩ := Option.map_eq_some_iff.1 h
    exact ⟨s, s', hstate, hstep, rfl, .inr ⟨hpolls, W.told_of_polls hstep hpolls, result, hchanged⟩⟩
  · rename_i hpolls
    cases h
    exact ⟨s, s', hstate, hstep, rfl, .inl ⟨Bool.eq_false_iff.2 hpolls, rfl⟩⟩

/-! ### What a task has before it -/

/-- A change reaches every task, wherever it is. -/
theorem aware_send (h : task.receiver.seen ≤ cell.version) (value : α) :
    task.Aware W (cell.send value) := .inl (Watch.Receiver.unseen_send h value)

/-- To borrow the value is not to see it. -/
theorem Aware.enter (h : task.Aware W cell) (henter : task.enter W cell = some task') :
    task'.Aware W cell := by
  obtain ⟨hstate, rfl⟩ := enter_cases henter
  obtain hunseen | ⟨s, hs, -⟩ := h
  · exact .inl hunseen
  · rw [hstate] at hs
    cases hs

/-- No step of a task takes the change away without making it return. -/
theorem Aware.act (h : task.Aware W cell) (hact : task.act W cell e = some task') :
    task'.Aware W cell := by
  obtain ⟨s, s', hstate, hstep, hstate', hreceiver⟩ := act_cases hact
  obtain hunseen | ⟨told, htold, hfinal⟩ := h
  · obtain ⟨-, hsame⟩ | ⟨-, htold, -⟩ := hreceiver
    · exact .inl (hsame ▸ hunseen)
    · exact .inr ⟨s', hstate', htold⟩
  · -- A task that is returning takes no step.
    rw [hstate] at htold
    cases htold
    rw [W.final hfinal e] at hstep
    cases hstep

theorem seen_enter (h : task.receiver.seen ≤ cell.version)
    (henter : task.enter W cell = some task') : task'.receiver.seen ≤ cell.version := by
  obtain ⟨-, rfl⟩ := enter_cases henter
  exact h

theorem seen_act (h : task.receiver.seen ≤ cell.version) (hact : task.act W cell e = some task') :
    task'.receiver.seen ≤ cell.version := by
  obtain ⟨s, s', -, -, -, ⟨-, hsame⟩ | ⟨-, -, result, hchanged⟩⟩ := act_cases hact
  · exact hsame ▸ h
  · exact Watch.Receiver.seen_changed h hchanged

/-- A task that is aware and not returning has the change unseen. -/
theorem Aware.unseen (h : task.Aware W cell) {s : σ} (hstate : task.state = some s)
    (hgoing : ¬W.Told s) : task.receiver.Unseen cell := by
  refine h.resolve_right ?_
  rintro ⟨told, htold, hfinal⟩
  rw [hstate] at htold
  cases htold
  exact hgoing hfinal

/-- Whatever a `select` polls is ready in a task that has the change before it. -/
theorem exists_act (h : task.receiver.Unseen cell) {s s' : σ} (hstate : task.state = some s)
    (hstep : W.step s e = some s') :
    ∃ task', task.act W cell e = some task' ∧ task'.state = some s' := by
  rw [Watching.act, hstate, Option.bind_some, hstep, Option.bind_some]
  split
  · rw [Watch.Receiver.changed_of_unseen h]
    exact ⟨_, rfl, rfl⟩
  · exact ⟨_, rfl, rfl⟩

end Watching
