import Mathlib.Data.Nat.Notation
import Mathlib.Logic.Function.Basic

/-!
# Hard links

One directory, whose names may be links to the same file: what is written to a file
is read under all of its names. What there is under a name, whichever file it is, is
how it looks (`Links.look`).

* `put`, `link`, `rename`, `unlink`: the operations. Each has a lemma for how the
  names that it is about look afterwards, and one for all other names.
* `inside`: what was renamed to a directory has gone into it, and is not among the names
  any more.
* `Sole`: no other name is a link to the file under this one. Then what is written
  under it is read nowhere else (`look_put_of_ne`).
-/

/-- What a name is a link to. -/
inductive Slot
  | file (inode : ℕ)
  | directory
  /-- A symbolic link: whether a directory, something else or nothing is behind it. -/
  | symlink (directory : Option Bool)
  deriving DecidableEq

/-- A directory, by its names `ν`, and the files `α` that they are links to. -/
structure Links (ν α : Type*) where
  slot : ν → Option Slot
  content : ℕ → α
  /-- The number of the next file. -/
  next : ℕ
  /-- The names of what was moved into another directory. -/
  inside : List ν
  lt_next : ∀ name inode, slot name = some (.file inode) → inode < next

/-- What there is under a name. -/
inductive Look (α : Type*)
  | nothing
  | file (content : α)
  | directory
  | symlink (directory : Option Bool)
  deriving DecidableEq

namespace Look

variable {α : Type*}

/-- `[ -e name ]` -/
def isThere : Look α → Bool
  | nothing | symlink none => false
  | _ => true

/-- What there is in a file. -/
def content? : Look α → Option α
  | file content => some content
  | _ => none

theorem exists_of_content? {look : Look α} (h : look.content?.isSome = true) :
    ∃ content, look = file content := by
  cases look <;> first | exact ⟨_, rfl⟩ | cases h

/-- What goes under the name goes into it. -/
def isDirectory : Look α → Bool
  | directory | symlink (some true) => true
  | _ => false

theorem isThere_of_isDirectory {look : Look α} (h : look.isDirectory = true) :
    look.isThere = true := by
  rcases look with _ | _ | _ | (_ | _ | _) <;> first | rfl | cases h

end Look

namespace Links

section Look

variable {ν α : Type*} (d : Links ν α)

def look (name : ν) : Look α :=
  match d.slot name with
  | none => .nothing
  | some (.file inode) => .file (d.content inode)
  | some .directory => .directory
  | some (.symlink directory) => .symlink directory

/-- No other name is a link to the file under this one. -/
def Sole (name : ν) : Prop :=
  ∀ inode, d.slot name = some (.file inode) → ∀ other, other ≠ name →
    d.slot other ≠ some (.file inode)

variable {d} {d' : Links ν α} {name old : ν}

theorem look_congr (hslot : d'.slot name = d.slot old) (hcontent : d'.content = d.content) :
    d'.look name = d.look old := by
  rw [look, look, hslot, hcontent]

theorem look_eq_nothing : d.look name = .nothing ↔ d.slot name = none := by
  rw [look.eq_def]
  rcases d.slot name with _ | ⟨inode⟩ | _ | ⟨directory⟩ <;> simp

theorem sole_of_nothing (h : d.look name = .nothing) : d.Sole name := by
  intro inode hinode
  rw [look_eq_nothing.1 h] at hinode
  cases hinode

/-- The links to other files come from links to other files. -/
theorem Sole.of_slots (h : d.Sole name) (hself : d'.slot name = d.slot name)
    (hothers : ∀ other, other ≠ name → ∀ inode, d'.slot other = some (.file inode) →
      ∃ from', from' ≠ name ∧ d.slot from' = some (.file inode)) : d'.Sole name := by
  intro inode hinode other hne hother
  obtain ⟨from', hne', hfrom⟩ := hothers other hne inode hother
  exact h inode (hself ▸ hinode) from' hne' hfrom

end Look

variable {ν α : Type*} [DecidableEq ν] (d : Links ν α)

/-! ## The operations -/

/-- A name goes. -/
def remove (name : ν) : Links ν α where
  slot := Function.update d.slot name none
  content := d.content
  next := d.next
  inside := d.inside
  lt_next other inode h := by
    rw [Function.update_apply] at h
    split at h
    · cases h
    · exact d.lt_next other inode h

/-- A name stands for what another one stands for. -/
def copy (old new : ν) : Links ν α where
  slot := Function.update d.slot new (d.slot old)
  content := d.content
  next := d.next
  inside := d.inside
  lt_next other inode h := by
    rw [Function.update_apply] at h
    split at h
    · exact d.lt_next old inode h
    · exact d.lt_next other inode h

/-- A file is written: the one under this name, or a new one. What is behind a
    symbolic link or in a directory is not among these links. -/
def put (name : ν) (file : α) : Option (Links ν α) :=
  match d.slot name with
  | none => some
    { slot := Function.update d.slot name (some (.file d.next))
      content := Function.update d.content d.next file
      next := d.next + 1
      inside := d.inside
      lt_next := fun other inode h => by
        rw [Function.update_apply] at h
        split at h
        · obtain rfl : d.next = inode := Slot.file.inj (Option.some.inj h)
          exact Nat.lt_succ_self _
        · exact Nat.lt_succ_of_lt (d.lt_next other inode h) }
  | some (.file inode) => some { d with content := Function.update d.content inode file }
  | _ => none

/-- `ln`, where there is a file under the one name and nothing under the other. -/
def link (old new : ν) : Option (Links ν α) :=
  match d.slot old, d.slot new with
  | some (.file _), none => some (d.copy old new)
  | _, _ => none

/-- A name goes, into another directory. -/
def enter (name : ν) : Links ν α := { d.remove name with inside := d.inside ++ [name] }

/-- `mv -f`: what is under one name goes under another, or into it if that is a
    directory. Two links to one file stay as they are. -/
def rename (old new : ν) : Option (Links ν α) :=
  match d.slot old, d.slot new with
  | none, _ => none
  | some (.file i), some (.file j) => some (if i = j then d else (d.copy old new).remove old)
  | some _, _ =>
    some (if (d.look new).isDirectory then d.enter old else (d.copy old new).remove old)

/-- `rm -f`, which leaves a directory. -/
def unlink (name : ν) : Links ν α :=
  if d.slot name = some .directory then d else d.remove name

/-- `rm -f`, which may fail. -/
def tryUnlink (removed : Bool) (name : ν) : Links ν α :=
  if removed then d.unlink name else d

variable {d} {d' : Links ν α} {name old new other : ν} {file : α}

/-! ## One name at a time -/

theorem slot_remove : (d.remove name).slot other = if other = name then none else d.slot other :=
  Function.update_apply ..

theorem slot_copy :
    (d.copy old new).slot other = if other = new then d.slot old else d.slot other :=
  Function.update_apply ..

theorem look_remove_self : (d.remove name).look name = .nothing :=
  look_eq_nothing.2 (Function.update_self ..)

theorem look_remove_of_ne (h : other ≠ name) : (d.remove name).look other = d.look other :=
  look_congr (Function.update_of_ne h _ _) rfl

theorem look_enter : (d.enter name).look other = (d.remove name).look other := rfl

theorem look_copy_self : (d.copy old new).look new = d.look old :=
  look_congr (Function.update_self ..) rfl

theorem look_copy_of_ne (h : other ≠ new) : (d.copy old new).look other = d.look other :=
  look_congr (Function.update_of_ne h _ _) rfl

theorem Sole.remove (h : d.Sole name) (gone : ν) : (d.remove gone).Sole name := by
  intro inode hinode other hne hother
  rw [slot_remove] at hinode hother
  split at hinode
  · cases hinode
  split at hother
  · cases hother
  exact h inode hinode other hne hother

theorem Sole.enter (h : d.Sole name) (gone : ν) : (d.enter gone).Sole name := h.remove gone

theorem Sole.copy (h : d.Sole name) (hold : old ≠ name) (hnew : new ≠ name) :
    (d.copy old new).Sole name := by
  refine h.of_slots (Function.update_of_ne hnew.symm _ _) fun other hne inode hother => ?_
  rw [slot_copy] at hother
  split at hother
  · exact ⟨old, hold, hother⟩
  · exact ⟨other, hne, hother⟩

/-! ## Writing -/

theorem put_cases (h : d.put name file = some d') :
    (d.slot name = none ∧ d'.slot = Function.update d.slot name (some (.file d.next)) ∧
      d'.content = Function.update d.content d.next file) ∨
    ∃ inode, d.slot name = some (.file inode) ∧ d'.slot = d.slot ∧
      d'.content = Function.update d.content inode file := by
  rw [put] at h
  split at h
  · rename_i hslot
    obtain rfl := Option.some.inj h
    exact .inl ⟨hslot, rfl, rfl⟩
  · rename_i inode hslot
    obtain rfl := Option.some.inj h
    exact .inr ⟨inode, hslot, rfl, rfl⟩
  · cases h

theorem inside_put (h : d.put name file = some d') : d'.inside = d.inside := by
  rw [put] at h
  split at h
  · obtain rfl := Option.some.inj h
    rfl
  · obtain rfl := Option.some.inj h
    rfl
  · cases h

theorem look_put_self (h : d.put name file = some d') : d'.look name = .file file := by
  rcases put_cases h with ⟨-, hslot, hcontent⟩ | ⟨inode, hinode, hslot, hcontent⟩
  · rw [look, hslot, Function.update_self, hcontent]
    exact congrArg Look.file (Function.update_self ..)
  · rw [look, hslot, hinode, hcontent]
    exact congrArg Look.file (Function.update_self ..)

theorem slot_put_of_ne (h : d.put name file = some d') (hne : other ≠ name) :
    d'.slot other = d.slot other := by
  rcases put_cases h with ⟨-, hslot, -⟩ | ⟨inode, -, hslot, -⟩
  · rw [hslot, Function.update_of_ne hne]
  · rw [hslot]

/-- What is written to a sole file is read under no other name. -/
theorem look_put_of_ne (h : d.put name file = some d') (hsole : d.Sole name)
    (hne : other ≠ name) : d'.look other = d.look other := by
  have hother := slot_put_of_ne h hne
  rw [look, look, hother]
  rcases hslot : d.slot other with _ | ⟨inode⟩ | _ | ⟨directory⟩
  case some.file =>
    have hcontent : d'.content inode = d.content inode := by
      rcases put_cases h with ⟨-, -, hcontent⟩ | ⟨inode', hinode', -, hcontent⟩
      · rw [hcontent, Function.update_of_ne (Nat.ne_of_lt (d.lt_next other inode hslot))]
      · have hne' : inode ≠ inode' := by
          rintro rfl
          exact hsole inode hinode' other hne hslot
        rw [hcontent, Function.update_of_ne hne']
    exact congrArg Look.file hcontent
  all_goals rfl

theorem Sole.put (h : d.Sole other) (hput : d.put name file = some d') : d'.Sole other := by
  rcases put_cases hput with ⟨hnone, hslot, -⟩ | ⟨inode, -, hslot, -⟩
  · intro inode hinode name' hne hname'
    rw [hslot, Function.update_apply] at hinode hname'
    -- The new file is under one name only.
    split at hinode <;> split at hname'
    · rename_i heq heq'
      exact hne (heq'.trans heq.symm)
    · obtain rfl : d.next = inode := Slot.file.inj (Option.some.inj hinode)
      exact Nat.lt_irrefl _ (d.lt_next name' _ hname')
    · obtain rfl : d.next = inode := Slot.file.inj (Option.some.inj hname')
      exact Nat.lt_irrefl _ (d.lt_next other _ hinode)
    · exact h inode hinode name' hne hname'
  · intro inode hinode name' hne hname'
    rw [hslot] at hinode hname'
    exact h inode hinode name' hne hname'

/-! ## Linking -/

theorem link_cases (h : d.link old new = some d') :
    (∃ content, d.look old = .file content) ∧ d.look new = .nothing ∧ d' = d.copy old new := by
  rw [link] at h
  split at h
  · rename_i inode hold hnew
    obtain rfl := Option.some.inj h
    exact ⟨⟨d.content inode, by rw [look, hold]⟩, look_eq_nothing.2 hnew, rfl⟩
  · cases h

/-! ## Renaming -/

/-- All that a renaming can do: nothing where both names are links to one file, or the
    name goes, under the other one or into it. -/
theorem rename_cases (h : d.rename old new = some d') :
    (d.slot old = d.slot new ∧ (∃ content, d.look old = .file content) ∧ d' = d) ∨
    ((d.look new).isDirectory = true ∧ d' = d.enter old) ∨
    ((d.look new).isDirectory = false ∧ d' = (d.copy old new).remove old) := by
  rw [rename] at h
  split at h
  · cases h
  · rename_i i j hold hnew
    obtain rfl := Option.some.inj h
    split
    · rename_i heq
      exact .inl ⟨by rw [hold, hnew, heq], ⟨d.content i, by rw [look, hold]⟩, rfl⟩
    · exact .inr (.inr ⟨by rw [look, hnew]; rfl, rfl⟩)
  · obtain rfl := Option.some.inj h
    split
    · rename_i hdirectory
      exact .inr (.inl ⟨hdirectory, rfl⟩)
    · rename_i hdirectory
      exact .inr (.inr ⟨Bool.eq_false_iff.2 hdirectory, rfl⟩)

theorem ne_nothing_of_rename (h : d.rename old new = some d') : d.look old ≠ .nothing := by
  intro hnothing
  rw [rename, look_eq_nothing.1 hnothing] at h
  cases h

/-- What is renamed replaces what was under the other name, at once, unless that is a
    directory. -/
theorem look_rename_new (h : d.rename old new = some d') (hne : new ≠ old) :
    d'.look new = d.look old ∨ (d.look new).isDirectory = true ∧ d'.look new = d.look new := by
  rcases rename_cases h with ⟨hslot, -, rfl⟩ | ⟨hdirectory, rfl⟩ | ⟨-, rfl⟩
  · exact .inl (look_congr hslot.symm rfl)
  · exact .inr ⟨hdirectory, look_enter.trans (look_remove_of_ne hne)⟩
  · exact .inl (by rw [look_remove_of_ne hne, look_copy_self])

theorem look_rename_of_ne (h : d.rename old new = some d') (hold : other ≠ old)
    (hnew : other ≠ new) : d'.look other = d.look other := by
  rcases rename_cases h with ⟨-, -, rfl⟩ | ⟨-, rfl⟩ | ⟨-, rfl⟩
  · rfl
  · exact look_enter.trans (look_remove_of_ne hold)
  · rw [look_remove_of_ne hold, look_copy_of_ne hnew]

/-- The old name is gone, unless it was a link to the same file. -/
theorem look_rename_old (h : d.rename old new = some d') :
    d'.look old = .nothing ∨ d'.look old = d.look old := by
  rcases rename_cases h with ⟨-, -, rfl⟩ | ⟨-, rfl⟩ | ⟨-, rfl⟩
  · exact .inr rfl
  · exact .inl (look_enter.trans look_remove_self)
  · exact .inl look_remove_self

/-- Only what is renamed to a directory goes into it. -/
theorem inside_rename (h : d.rename old new = some d') :
    d'.inside = d.inside ∨ (d.look new).isDirectory = true ∧ d'.inside = d.inside ++ [old] := by
  rcases rename_cases h with ⟨-, -, rfl⟩ | ⟨hdirectory, rfl⟩ | ⟨-, rfl⟩
  · exact .inl rfl
  · exact .inr ⟨hdirectory, rfl⟩
  · exact .inl rfl

theorem Sole.rename (h : d.Sole name) (hrename : d.rename old new = some d') (hold : old ≠ name)
    (hnew : new ≠ name) : d'.Sole name := by
  rcases rename_cases hrename with ⟨-, -, rfl⟩ | ⟨-, rfl⟩ | ⟨-, rfl⟩
  · exact h
  · exact h.enter old
  · exact (h.copy hold hnew).remove old

/-! ## Unlinking -/

theorem look_unlink_of_ne (h : other ≠ name) : (d.unlink name).look other = d.look other := by
  rw [unlink]
  split
  · rfl
  · exact look_remove_of_ne h

theorem look_unlink_self (h : d.look name ≠ .directory) : (d.unlink name).look name = .nothing := by
  rw [unlink, if_neg fun hslot => h (by rw [look, hslot])]
  exact look_remove_self

theorem Sole.unlink (h : d.Sole name) (gone : ν) : (d.unlink gone).Sole name := by
  rw [Links.unlink]
  split
  · exact h
  · exact h.remove gone

theorem inside_unlink : (d.unlink name).inside = d.inside := by
  rw [unlink]
  split <;> rfl

variable {removed : Bool}

theorem inside_tryUnlink : (d.tryUnlink removed name).inside = d.inside := by
  rw [tryUnlink]
  split
  · exact inside_unlink
  · rfl

theorem look_tryUnlink_of_ne (h : other ≠ name) :
    (d.tryUnlink removed name).look other = d.look other := by
  rw [tryUnlink]
  split
  · exact look_unlink_of_ne h
  · rfl

theorem look_tryUnlink_self :
    (d.tryUnlink removed name).look name = .nothing ∨
      (d.tryUnlink removed name).look name = d.look name := by
  rw [tryUnlink]
  split
  · rw [unlink]
    split
    · exact .inr rfl
    · exact .inl look_remove_self
  · exact .inr rfl

theorem Sole.tryUnlink (h : d.Sole name) (gone : ν) : (d.tryUnlink removed gone).Sole name := by
  rw [Links.tryUnlink]
  split
  · exact h.unlink gone
  · exact h

end Links
