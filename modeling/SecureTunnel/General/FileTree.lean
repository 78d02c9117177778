import Mathlib.Data.Nat.Notation
import Mathlib.Logic.Function.Basic

/-!
# File trees

Nodes with numbers: files, directories with entries, symbolic links, and others. A
path is walked name by name from a directory, and starts again at every link, until
too many links were followed. Nothing is ever removed here; the operations make a
node, or change what is known of one.

* `FileTree.walk`: the node at the end of the names.
* `FileTree.add`, `FileTree.modify`: a new node with an entry, and a change to a node
  that leaves its entries alone.
* `FileTree.Extends`: all nodes are still there, and directories may have gained
  entries. Whatever was found is found in an extension (`Extends.walk`).
* `FileTree.restrict`: the tree as it is seen by one to whom not every directory shows
  its entries. Who sees more finds all that was found (`Extends.restrict`).
* `walk_concat`, `walk_init`: one name more.
-/

/-- Where a link leads, or a path: from the root, or from where it is met. -/
structure Route (ν : Type*) where
  absolute : Bool
  names : List ν

/-- A node with attributes `α`, names `ν` and contents `β`. -/
inductive Node (α ν β : Type*)
  | file (attributes : α) (content : β)
  | directory (attributes : α) (entries : ν → Option ℕ)
  | link (target : Route ν)
  | other (attributes : α)

namespace Node

variable {α ν β : Type*}

/-- The entry of a directory under a name. -/
def entry : Node α ν β → ν → Option ℕ
  | directory _ entries => entries
  | _ => fun _ => none

def isDirectory : Node α ν β → Bool
  | directory .. => true
  | _ => false

def target? : Node α ν β → Option (Route ν)
  | link target => some target
  | _ => none

/-- A change to the attributes, which a link has none of. -/
def change (f : α → α) : Node α ν β → Node α ν β
  | file attributes content => file (f attributes) content
  | directory attributes entries => directory (f attributes) entries
  | link target => link target
  | other attributes => other (f attributes)

def setContent (content : β) : Node α ν β → Node α ν β
  | file attributes _ => file attributes content
  | n => n

theorem entry_change (f : α → α) (n : Node α ν β) : (n.change f).entry = n.entry := by
  cases n <;> rfl

theorem entry_setContent (content : β) (n : Node α ν β) :
    (n.setContent content).entry = n.entry := by
  cases n <;> rfl

/-- A directory gets an entry. -/
def enter [DecidableEq ν] (name : ν) (i : ℕ) : Node α ν β → Node α ν β
  | directory attributes entries => directory attributes (Function.update entries name (some i))
  | n => n

theorem entry_enter [DecidableEq ν] {n : Node α ν β} {name name' : ν} {i j : ℕ}
    (h : (n.enter name i).entry name' = some j) : j = i ∨ n.entry name' = some j := by
  cases n with
  | directory attributes entries =>
    rw [enter, entry, Function.update_apply] at h
    split at h
    · exact .inl (Option.some.inj h).symm
    · exact .inr h
  | _ => exact .inr h

/-- The same node, but that a directory may have gained entries. -/
def Grows (n n' : Node α ν β) : Prop :=
  n' = n ∨ ∃ attributes entries entries', n = .directory attributes entries ∧
    n' = .directory attributes entries' ∧ ∀ name i, entries name = some i → entries' name = some i

theorem Grows.trans {n n' n'' : Node α ν β} (h : n.Grows n') (h' : n'.Grows n'') :
    n.Grows n'' := by
  obtain rfl | ⟨attributes, entries, entries', rfl, rfl, hmore⟩ := h
  · exact h'
  obtain rfl | ⟨_, _, entries'', ⟨⟩, rfl, hmore'⟩ := h'
  · exact .inr ⟨attributes, entries, entries', rfl, rfl, hmore⟩
  · exact .inr ⟨attributes, entries, entries'', rfl, rfl,
      fun name i hi => hmore' name i (hmore name i hi)⟩

theorem Grows.entry {n n' : Node α ν β} (h : n.Grows n') {name : ν} {i : ℕ}
    (hentry : n.entry name = some i) : n'.entry name = some i := by
  obtain rfl | ⟨attributes, entries, entries', rfl, rfl, hmore⟩ := h
  · exact hentry
  · exact hmore name i hentry

theorem Grows.target? {n n' : Node α ν β} (h : n.Grows n') : n'.target? = n.target? := by
  obtain rfl | ⟨attributes, entries, entries', rfl, rfl, -⟩ := h
  · rfl
  · rfl

theorem grows_enter [DecidableEq ν] {n : Node α ν β} {name : ν} (h : n.entry name = none) (i : ℕ) :
    n.Grows (n.enter name i) := by
  cases n with
  | directory attributes entries =>
    refine .inr ⟨attributes, entries, _, rfl, rfl, fun name' j hj => ?_⟩
    have hne : name' ≠ name := by
      rintro rfl
      rw [Node.entry] at h
      rw [h] at hj
      cases hj
    rw [Function.update_of_ne hne, hj]
  | _ => exact .inl rfl

/-- A directory that passes. -/
def admits (passes : α → Bool) : Node α ν β → Bool
  | directory attributes _ => passes attributes
  | _ => false

/-- A directory that does not pass shows no entries. -/
def restrict (passes : α → Bool) : Node α ν β → Node α ν β
  | directory attributes entries =>
    directory attributes (if passes attributes then entries else fun _ => none)
  | n => n

theorem target?_restrict (passes : α → Bool) (n : Node α ν β) :
    (n.restrict passes).target? = n.target? := by
  cases n <;> rfl

theorem isDirectory_restrict (passes : α → Bool) (n : Node α ν β) :
    (n.restrict passes).isDirectory = n.isDirectory := by
  cases n <;> rfl

theorem entry_restrict (passes : α → Bool) (n : Node α ν β) (name : ν) :
    (n.restrict passes).entry name = if n.admits passes then n.entry name else none := by
  cases n with
  | directory attributes entries =>
    rw [restrict, entry, admits, entry]
    split <;> rfl
  | _ => rfl

theorem isDirectory_of_admits {passes : α → Bool} {n : Node α ν β} (h : n.admits passes = true) :
    n.isDirectory = true := by
  cases n with
  | directory => rfl
  | _ => cases h

/-- A directory that has grown passes as it did. -/
theorem Grows.admits {passes : α → Bool} {n n' : Node α ν β} (h : n.Grows n') :
    n'.admits passes = n.admits passes := by
  obtain rfl | ⟨attributes, entries, entries', rfl, rfl, -⟩ := h
  · rfl
  · rfl

/-- What passes and is there shows no less than what has not grown, or passes less. -/
theorem Grows.restrict {passes passes' : α → Bool} {n n' : Node α ν β} (h : n.Grows n')
    (hpasses : ∀ a, passes a = true → passes' a = true) :
    (n.restrict passes).Grows (n'.restrict passes') := by
  have hshown : ∀ (attributes : α) (entries entries' : ν → Option ℕ),
      (∀ name i, entries name = some i → entries' name = some i) →
      ((directory attributes entries : Node α ν β).restrict passes).Grows
        ((directory attributes entries').restrict passes') := by
    intro attributes entries entries' hmore
    refine .inr ⟨attributes, _, _, rfl, rfl, fun name i hi => ?_⟩
    split at hi
    · rename_i hpass
      rw [if_pos (hpasses _ hpass)]
      exact hmore name i hi
    · cases hi
  obtain rfl | ⟨attributes, entries, entries', rfl, rfl, hmore⟩ := h
  · cases n' with
    | directory attributes entries => exact hshown attributes entries entries fun _ _ hi => hi
    | _ => exact .inl rfl
  · exact hshown attributes entries entries' hmore

end Node

/-- A file tree, by the numbers of its nodes. -/
@[ext]
structure FileTree (α ν β : Type*) where
  node : ℕ → Option (Node α ν β)
  root : ℕ
  /-- From here on, no number is in use. -/
  next : ℕ
  unused : ∀ {i}, next ≤ i → node i = none
  rooted : (node root).isSome
  /-- Every entry is that of a node. -/
  closed : ∀ {d n name i}, node d = some n → n.entry name = some i → (node i).isSome

namespace FileTree

variable {α ν β : Type*}

def entry (t : FileTree α ν β) (d : ℕ) (name : ν) : Option ℕ := (t.node d).bind (·.entry name)

/-- Where a node leads, if it is a link. -/
def target? (t : FileTree α ν β) (i : ℕ) : Option (Route ν) := (t.node i).bind Node.target?

def isDirectory (t : FileTree α ν β) (i : ℕ) : Bool := (t.node i).any Node.isDirectory

theorem lt_next {t : FileTree α ν β} {i : ℕ} (h : (t.node i).isSome) : i < t.next := by
  refine Nat.lt_of_not_le fun hle => ?_
  rw [t.unused hle] at h
  cases h

theorem isSome_of_isDirectory {t : FileTree α ν β} {i : ℕ} (h : t.isDirectory i = true) :
    (t.node i).isSome := Option.isSome_of_any h

theorem isSome_of_entry {t : FileTree α ν β} {d i : ℕ} {name : ν} (h : t.entry d name = some i) :
    (t.node i).isSome := by
  obtain ⟨n, hn, hentry⟩ := Option.bind_eq_some_iff.1 h
  exact t.closed hn hentry

theorem target?_of_isDirectory {t : FileTree α ν β} {i : ℕ} (h : t.isDirectory i = true) :
    t.target? i = none := by
  obtain ⟨n, hn, hdirectory⟩ := (Option.any_eq_true _ _).1 h
  rw [target?, hn, Option.bind_some]
  cases n with
  | directory => rfl
  | _ => cases hdirectory

/-! ## Walking -/

/-- How far names lead without following a link. -/
inductive Stride (ν : Type*)
  | stuck
  | arrived (i : ℕ)
  /-- A link was met in the directory, with names left. -/
  | met (d : ℕ) (target : Route ν) (rest : List ν)

def stride (t : FileTree α ν β) (d : ℕ) : List ν → Stride ν
  | [] => .arrived d
  | name :: names =>
    match t.entry d name with
    | none => .stuck
    | some i =>
      match t.target? i with
      | some target => .met d target names
      | none => stride t i names

/-- The node at the end of the names, if there is one, and no more than so many links
    on the way to it. -/
def walk (t : FileTree α ν β) (links d : ℕ) (names : List ν) : Option ℕ :=
  match t.stride d names with
  | .stuck => none
  | .arrived i => some i
  | .met d target rest =>
    match links with
    | 0 => none
    | links + 1 => walk t links (if target.absolute then t.root else d) (target.names ++ rest)

variable {t t' : FileTree α ν β} {links d i : ℕ} {names : List ν} {name : ν}

/-- A walk ends with its first stride, or goes on from the first link. -/
theorem walk_eq_some : t.walk links d names = some i ↔ t.stride d names = .arrived i ∨
    ∃ more e target rest, links = more + 1 ∧ t.stride d names = .met e target rest ∧
      t.walk more (if target.absolute then t.root else e) (target.names ++ rest) = some i := by
  rw [walk.eq_def]
  cases hstride : t.stride d names with
  | stuck => exact ⟨nofun, by rintro (⟨⟨⟩⟩ | ⟨_, _, _, _, -, ⟨⟩, -⟩)⟩
  | arrived j =>
    refine ⟨fun h => .inl (congrArg _ (Option.some.inj h)), ?_⟩
    rintro (⟨⟨⟩⟩ | ⟨_, _, _, _, -, ⟨⟩, -⟩)
    rfl
  | met e target rest =>
    cases links with
    | zero => exact ⟨nofun, by rintro (⟨⟨⟩⟩ | ⟨_, _, _, _, ⟨⟩, -⟩)⟩
    | succ links =>
      refine ⟨fun h => .inr ⟨links, e, target, rest, rfl, rfl, h⟩, ?_⟩
      rintro (⟨⟨⟩⟩ | ⟨_, _, _, _, ⟨⟩, ⟨⟩, h⟩)
      exact h

/-- A stride goes on where it arrived. -/
theorem stride_append (more : List ν) : t.stride d (names ++ more) =
    match t.stride d names with
    | .stuck => .stuck
    | .arrived i => t.stride i more
    | .met d target rest => .met d target (rest ++ more) := by
  induction names generalizing d with
  | nil => rfl
  | cons name names ih =>
    rw [List.cons_append, stride, stride]
    split
    · rfl
    split
    · rfl
    · exact ih

/-- A stride with one name more arrives only where it did so without. -/
theorem stride_init {j : ℕ} (h : t.stride d (names ++ [name]) = .arrived j) :
    ∃ i, t.stride d names = .arrived i ∧ t.entry i name = some j := by
  rw [stride_append] at h
  split at h
  · cases h
  · rename_i i hstride
    refine ⟨i, hstride, ?_⟩
    rw [stride] at h
    split at h
    · cases h
    rename_i k hentry
    split at h
    · cases h
    · cases h
      exact hentry
  · cases h

/-- A walk with one name more first gets as far as without it. -/
theorem walk_init (h : t.walk links d (names ++ [name]) = some i) :
    ∃ j, t.walk links d names = some j ∧ (t.entry j name).isSome := by
  induction links generalizing d names with
  | zero =>
    obtain hstride | ⟨_, _, _, _, hlinks, -⟩ := walk_eq_some.1 h
    · obtain ⟨j, hstride, hentry⟩ := stride_init hstride
      exact ⟨j, walk_eq_some.2 (.inl hstride), hentry ▸ rfl⟩
    · cases hlinks
  | succ links ih =>
    obtain hstride | ⟨more, e, target, rest, hlinks, hstride, hwalk⟩ := walk_eq_some.1 h
    · obtain ⟨j, hstride, hentry⟩ := stride_init hstride
      exact ⟨j, walk_eq_some.2 (.inl hstride), hentry ▸ rfl⟩
    cases hlinks
    rw [stride_append] at hstride
    split at hstride
    · cases hstride
    · -- The last name is that of a link.
      rename_i j hstride₀
      refine ⟨j, walk_eq_some.2 (.inl hstride₀), ?_⟩
      rw [stride] at hstride
      split at hstride
      · cases hstride
      · rename_i hentry
        rw [hentry]
        rfl
    · -- A link is met before it.
      rename_i hstride₀
      cases hstride
      rw [← List.append_assoc] at hwalk
      obtain ⟨j, hwalk, hentry⟩ := ih hwalk
      exact ⟨j, walk_eq_some.2 (.inr ⟨links, _, _, _, rfl, hstride₀, hwalk⟩), hentry⟩

/-- Where the names lead, a walk goes on to an entry that is no link. -/
theorem walk_concat (h : t.walk links d names = some i) {j : ℕ} (hentry : t.entry i name = some j)
    (hlink : t.target? j = none) :
    t.walk links d (names ++ [name]) = some j := by
  induction links generalizing d names with
  | zero =>
    obtain hstride | ⟨_, _, _, _, hlinks, -⟩ := walk_eq_some.1 h
    · refine walk_eq_some.2 (.inl ?_)
      simp only [stride_append, hstride, stride, hentry, hlink]
    · cases hlinks
  | succ links ih =>
    obtain hstride | ⟨more, e, target, rest, hlinks, hstride, hwalk⟩ := walk_eq_some.1 h
    · refine walk_eq_some.2 (.inl ?_)
      simp only [stride_append, hstride, stride, hentry, hlink]
    cases hlinks
    refine walk_eq_some.2 (.inr ⟨links, e, target, rest ++ [name], rfl, ?_, ?_⟩)
    · rw [stride_append, hstride]
    · rw [← List.append_assoc]
      exact ih hwalk

/-- Where there is no such entry, the walk ends. -/
theorem walk_concat_none (h : t.walk links d names = some i) (hentry : t.entry i name = none) :
    t.walk links d (names ++ [name]) = none := by
  refine Option.eq_none_iff_forall_ne_some.2 fun j hj => ?_
  obtain ⟨i', hwalk, hsome⟩ := walk_init hj
  rw [h] at hwalk
  cases hwalk
  rw [hentry] at hsome
  cases hsome

theorem isSome_of_stride (h : t.stride d names = .arrived i)
    (hd : (t.node d).isSome) : (t.node i).isSome := by
  induction names generalizing d with
  | nil =>
    cases h
    exact hd
  | cons name names ih =>
    rw [stride] at h
    split at h
    · cases h
    rename_i j hentry
    split at h
    · cases h
    · exact ih h (isSome_of_entry hentry)

theorem isSome_of_met {e : ℕ} {target : Route ν} {rest : List ν}
    (h : t.stride d names = .met e target rest) : (t.node e).isSome := by
  induction names generalizing d with
  | nil => cases h
  | cons name names ih =>
    rw [stride] at h
    split at h
    · cases h
    rename_i j hentry
    split at h
    · cases h
      obtain ⟨n, hn, -⟩ := Option.bind_eq_some_iff.1 hentry
      exact hn ▸ rfl
    · exact ih h

/-- A walk leads to a node. -/
theorem isSome_of_walk (h : t.walk links d names = some i) (hd : (t.node d).isSome) :
    (t.node i).isSome := by
  induction links generalizing d names with
  | zero =>
    obtain hstride | ⟨_, _, _, _, hlinks, -⟩ := walk_eq_some.1 h
    · exact isSome_of_stride hstride hd
    · cases hlinks
  | succ links ih =>
    obtain hstride | ⟨more, e, target, rest, hlinks, hstride, hwalk⟩ := walk_eq_some.1 h
    · exact isSome_of_stride hstride hd
    · cases hlinks
      refine ih hwalk ?_
      split
      · exact t.rooted
      · exact isSome_of_met hstride

/-- A walk that is not at its end begins at a node. -/
theorem isSome_of_walk_cons (h : t.walk links d (name :: names) = some i) :
    (t.node d).isSome := by
  have hentry : t.stride d (name :: names) ≠ .stuck := fun hstuck => by
    obtain hstride | ⟨_, _, _, _, -, hstride, -⟩ := walk_eq_some.1 h
    · rw [hstuck] at hstride
      cases hstride
    · rw [hstuck] at hstride
      cases hstride
  rw [stride] at hentry
  cases hnode : t.node d with
  | none =>
    rw [entry, hnode] at hentry
    exact absurd rfl hentry
  | some n => rfl

/-! ## Extensions -/

/-- Every node is still there, at most with more entries. -/
structure Extends (t t' : FileTree α ν β) : Prop where
  root : t'.root = t.root
  node : ∀ {i n}, t.node i = some n → ∃ n', t'.node i = some n' ∧ n.Grows n'

namespace Extends

theorem refl (t : FileTree α ν β) : t.Extends t := ⟨rfl, fun h => ⟨_, h, .inl rfl⟩⟩

theorem trans {t'' : FileTree α ν β} (h : t.Extends t') (h' : t'.Extends t'') : t.Extends t'' := by
  refine ⟨h'.root.trans h.root, fun hn => ?_⟩
  obtain ⟨n', hn', hgrows⟩ := h.node hn
  obtain ⟨n'', hn'', hgrows'⟩ := h'.node hn'
  exact ⟨n'', hn'', hgrows.trans hgrows'⟩

theorem entry (h : t.Extends t') (hentry : t.entry d name = some i) :
    t'.entry d name = some i := by
  obtain ⟨n, hn, hentry⟩ := Option.bind_eq_some_iff.1 hentry
  obtain ⟨n', hn', hgrows⟩ := h.node hn
  exact Option.bind_eq_some_iff.2 ⟨n', hn', hgrows.entry hentry⟩

theorem target? (h : t.Extends t') (hsome : (t.node i).isSome) : t'.target? i = t.target? i := by
  obtain ⟨n, hn⟩ := Option.isSome_iff_exists.1 hsome
  obtain ⟨n', hn', hgrows⟩ := h.node hn
  rw [FileTree.target?, FileTree.target?, hn, hn', Option.bind_some, Option.bind_some,
    hgrows.target?]

/-- A stride that gets somewhere gets there in an extension. -/
theorem stride (h : t.Extends t') (hstride : t.stride d names ≠ .stuck) :
    t'.stride d names = t.stride d names := by
  induction names generalizing d with
  | nil => rfl
  | cons name names ih =>
    rw [FileTree.stride] at hstride ⊢
    cases hentry : t.entry d name with
    | none =>
      rw [hentry] at hstride
      exact absurd rfl hstride
    | some i =>
      have hsame := h.target? (isSome_of_entry hentry)
      simp only [FileTree.stride, hentry, h.entry hentry, hsame] at hstride ⊢
      cases htarget : t.target? i with
      | some target => rfl
      | none =>
        simp only [htarget] at hstride ⊢
        exact ih hstride

/-- What was found is found in an extension. -/
theorem walk (h : t.Extends t') (hwalk : t.walk links d names = some i) :
    t'.walk links d names = some i := by
  induction links generalizing d names with
  | zero =>
    obtain hstride | ⟨_, _, _, _, hlinks, -⟩ := walk_eq_some.1 hwalk
    · exact walk_eq_some.2 (.inl ((h.stride (by simp [hstride])).trans hstride))
    · cases hlinks
  | succ links ih =>
    obtain hstride | ⟨more, e, target, rest, hlinks, hstride, hwalk⟩ := walk_eq_some.1 hwalk
    · exact walk_eq_some.2 (.inl ((h.stride (by simp [hstride])).trans hstride))
    · cases hlinks
      refine walk_eq_some.2 (.inr ⟨links, e, target, rest, rfl,
        (h.stride (by simp [hstride])).trans hstride, ?_⟩)
      rw [h.root]
      exact ih hwalk

theorem isDirectory (h : t.Extends t') (hdirectory : t.isDirectory i = true) :
    t'.isDirectory i = true := by
  obtain ⟨n, hn, hn'⟩ := (Option.any_eq_true _ _).1 hdirectory
  obtain ⟨n', hnode, rfl | ⟨_, _, _, rfl, rfl, -⟩⟩ := h.node hn
  · exact (Option.any_eq_true _ _).2 ⟨n', hnode, hn'⟩
  · exact (Option.any_eq_true _ _).2 ⟨_, hnode, rfl⟩

end Extends

/-! ## Restrictions -/

section

variable {passes passes' : α → Bool}

/-- The directory passes. -/
def admits (t : FileTree α ν β) (passes : α → Bool) (d : ℕ) : Bool :=
  (t.node d).any (Node.admits passes)

/-- The tree as it is seen by one to whom only the directories that pass show their entries. -/
def restrict (t : FileTree α ν β) (passes : α → Bool) : FileTree α ν β where
  node i := (t.node i).map (Node.restrict passes)
  root := t.root
  next := t.next
  unused hle := by rw [t.unused hle, Option.map_none]
  rooted := by
    rw [Option.isSome_map]
    exact t.rooted
  closed {d n name i} hn hentry := by
    obtain ⟨n₀, hn₀, rfl⟩ := Option.map_eq_some_iff.1 hn
    rw [Node.entry_restrict] at hentry
    rw [Option.isSome_map]
    exact t.closed hn₀ (Option.ite_none_right_eq_some.1 hentry).2

theorem node_restrict : (t.restrict passes).node i = (t.node i).map (Node.restrict passes) := rfl

theorem isDirectory_of_admits (h : t.admits passes d = true) : t.isDirectory d = true := by
  obtain ⟨n, hn, hpass⟩ := (Option.any_eq_true _ _).1 h
  exact (Option.any_eq_true _ _).2 ⟨n, hn, Node.isDirectory_of_admits hpass⟩

theorem admits_mono (hpasses : ∀ a, passes a = true → passes' a = true)
    (h : t.admits passes d = true) : t.admits passes' d = true := by
  obtain ⟨n, hn, hpass⟩ := (Option.any_eq_true _ _).1 h
  refine (Option.any_eq_true _ _).2 ⟨n, hn, ?_⟩
  cases n with
  | directory attributes entries => exact hpasses attributes hpass
  | _ => cases hpass

theorem target?_restrict : (t.restrict passes).target? i = t.target? i := by
  rw [target?, target?, node_restrict, Option.bind_map]
  exact congrArg _ (funext fun n => n.target?_restrict passes)

theorem isDirectory_restrict : (t.restrict passes).isDirectory i = t.isDirectory i := by
  rw [isDirectory, isDirectory, node_restrict, Option.any_map]
  exact congrArg (Option.any · _) (funext fun n => n.isDirectory_restrict passes)

/-- Only a directory that passes shows its entries. -/
theorem entry_restrict :
    (t.restrict passes).entry d name = if t.admits passes d then t.entry d name else none := by
  rw [entry, entry, admits, node_restrict]
  cases t.node d with
  | none => rfl
  | some n => exact n.entry_restrict passes name

theorem entry_restrict_none (h : t.entry d name = none) :
    (t.restrict passes).entry d name = none := by
  rw [entry_restrict, h, ite_self]

/-- Who sees more, or later, sees all that was seen. -/
theorem Extends.restrict (h : t.Extends t') (hpasses : ∀ a, passes a = true → passes' a = true) :
    (t.restrict passes).Extends (t'.restrict passes') := by
  refine ⟨h.root, fun {i n} hn => ?_⟩
  obtain ⟨n₀, hn₀, rfl⟩ := Option.map_eq_some_iff.1 hn
  obtain ⟨n', hn', hgrows⟩ := h.node hn₀
  exact ⟨_, Option.map_eq_some_iff.2 ⟨n', hn', rfl⟩, hgrows.restrict hpasses⟩

theorem Extends.admits (h : t.Extends t') (hd : t.admits passes d = true) :
    t'.admits passes d = true := by
  obtain ⟨n, hn, hpass⟩ := (Option.any_eq_true _ _).1 hd
  obtain ⟨n', hn', hgrows⟩ := h.node hn
  exact (Option.any_eq_true _ _).2 ⟨n', hn', hgrows.admits.trans hpass⟩

end

/-! ## Operations -/

variable [DecidableEq ν]

/-- A new node, under a name in a directory. -/
def add (t : FileTree α ν β) (d : ℕ) (name : ν) (n : Node α ν β)
    (hn : ∀ name i, n.entry name = some i → (t.node i).isSome) : FileTree α ν β where
  node i := if i = t.next then some n else
    if i = d then (t.node i).map (·.enter name t.next) else t.node i
  root := t.root
  next := t.next + 1
  unused {i} hle := by
    have hne : i ≠ t.next := Nat.ne_of_gt hle
    rw [if_neg hne, t.unused (Nat.le_of_succ_le hle), Option.map_none, ite_self]
  rooted := by
    split
    · rfl
    split
    · rw [Option.isSome_map]
      exact t.rooted
    · exact t.rooted
  closed {e m name' i} hm hentry := by
    have hold : (t.node i).isSome → (if i = t.next then some n else
        if i = d then (t.node i).map (·.enter name t.next) else t.node i).isSome := by
      intro hsome
      split
      · rfl
      split
      · rwa [Option.isSome_map]
      · exact hsome
    split at hm
    · cases hm
      exact hold (hn name' i hentry)
    split at hm
    · obtain ⟨m₀, hm₀, rfl⟩ := Option.map_eq_some_iff.1 hm
      obtain rfl | hentry := Node.entry_enter hentry
      · rw [if_pos rfl]
        rfl
      · exact hold (t.closed hm₀ hentry)
    · exact hold (t.closed hm hentry)

/-- A node that stays where it is, with its entries. -/
def modify (t : FileTree α ν β) (j : ℕ) (f : Node α ν β → Node α ν β)
    (hf : ∀ n, (f n).entry = n.entry) : FileTree α ν β where
  node i := if i = j then (t.node i).map f else t.node i
  root := t.root
  next := t.next
  unused {i} hle := by rw [t.unused hle, Option.map_none, ite_self]
  rooted := by
    split
    · rw [Option.isSome_map]
      exact t.rooted
    · exact t.rooted
  closed {e m name i} hm hentry := by
    have hold : (t.node i).isSome := by
      split at hm
      · obtain ⟨m₀, hm₀, rfl⟩ := Option.map_eq_some_iff.1 hm
        rw [hf] at hentry
        exact t.closed hm₀ hentry
      · exact t.closed hm hentry
    split
    · rwa [Option.isSome_map]
    · exact hold

section

variable {n : Node α ν β} {hn : ∀ name i, n.entry name = some i → (t.node i).isSome}

theorem node_add_next : (t.add d name n hn).node t.next = some n := if_pos rfl

theorem node_add_self (hne : d ≠ t.next) :
    (t.add d name n hn).node d = (t.node d).map (·.enter name t.next) :=
  (if_neg hne).trans (if_pos rfl)

/-- A change to a new node could have been made before it was added. -/
theorem modify_add {f : Node α ν β → Node α ν β} {hf : ∀ n, (f n).entry = n.entry} :
    (t.add d name n hn).modify t.next f hf =
      t.add d name (f n) (by rw [hf]; exact hn) := by
  ext i : 2
  · simp only [modify, add]
    split
    · rfl
    · rfl
  · rfl
  · rfl

theorem target?_add_next : (t.add d name n hn).target? t.next = n.target? := by
  rw [target?, node_add_next, Option.bind_some]

theorem admits_add_next (passes : α → Bool) :
    (t.add d name n hn).admits passes t.next = n.admits passes := by
  rw [admits, node_add_next, Option.any_some]

theorem entry_add_next (name' : ν) : (t.add d name n hn).entry t.next name' = n.entry name' := by
  rw [entry, node_add_next, Option.bind_some]

/-- The new entry is that of the new node. -/
theorem entry_add (hd : t.isDirectory d = true) :
    (t.add d name n hn).entry d name = some t.next := by
  obtain ⟨m, hm, hdirectory⟩ := (Option.any_eq_true _ _).1 hd
  have hne : d ≠ t.next := Nat.ne_of_lt (lt_next (isSome_of_isDirectory hd))
  cases m with
  | directory attributes entries =>
    rw [entry, node_add_self hne, hm, Option.map_some, Option.bind_some, Node.enter, Node.entry,
      Function.update_self]
  | _ => cases hdirectory

/-- Nothing is lost where the name was free. -/
theorem extends_add (hfree : t.entry d name = none) : t.Extends (t.add d name n hn) := by
  refine ⟨rfl, fun {i m} hm => ?_⟩
  have hne : i ≠ t.next := Nat.ne_of_lt (lt_next (hm ▸ rfl))
  by_cases hid : i = d
  · subst hid
    have hentry : m.entry name = none := by
      rw [entry, hm, Option.bind_some] at hfree
      exact hfree
    exact ⟨m.enter name t.next, by rw [node_add_self hne, hm, Option.map_some],
      Node.grows_enter hentry _⟩
  · exact ⟨m, ((if_neg hne).trans (if_neg hid)).trans hm, .inl rfl⟩

/-- But a directory is not what it was. -/
theorem node_add_ne (hd : t.isDirectory d = true) (hfree : t.entry d name = none) :
    (t.add d name n hn).node d ≠ t.node d := by
  intro heq
  have hentry : (t.add d name n hn).entry d name = some t.next := entry_add hd
  rw [entry, heq] at hentry
  rw [entry, hentry] at hfree
  cases hfree

end

end FileTree
