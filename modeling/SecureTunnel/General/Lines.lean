import Mathlib.Data.List.Infix
import Mathlib.Tactic.SplitIfs

/-!
# Lines

A text as the lines that a separator ends: the last one need not be ended. A text
that is written line by line is read back line by line (`records_terminated`), and
whatever is looked for on each line is found on those that have it, in their order.
-/

section Lines

variable {α : Type*} [DecidableEq α] (sep : α)

/-- The lines of a text, without the separators that end them. -/
def records : List α → List (List α)
  | [] => []
  | a :: l =>
    if a = sep then [] :: records l
    else
      match records l with
      | [] => [[a]]
      | line :: rest => (a :: line) :: rest

/-- The text of lines, each of which is ended. -/
def terminated (lines : List (List α)) : List α := lines.flatMap (· ++ [sep])

variable {sep}

theorem records_append {line : List α} (h : sep ∉ line) (l : List α) :
    records sep (line ++ sep :: l) = line :: records sep l := by
  induction line with
  | nil => rw [List.nil_append, records, if_pos rfl]
  | cons a line ih =>
    obtain ⟨ha, h⟩ := not_or.1 (mt List.mem_cons.2 h)
    rw [List.cons_append, records, if_neg (Ne.symm ha), ih h]

theorem records_terminated {lines : List (List α)} (h : ∀ line ∈ lines, sep ∉ line) :
    records sep (terminated sep lines) = lines := by
  induction lines with
  | nil => rfl
  | cons line lines ih =>
    obtain ⟨hline, hlines⟩ := List.forall_mem_cons.1 h
    rw [terminated, List.flatMap_cons, List.append_assoc, List.singleton_append,
      records_append hline, ← terminated, ih hlines]

end Lines

/-! ## Words at the beginning of a line -/

section Word

variable {α : Type*} {name key rest l : List α} {blank : α → Bool} {mark a : α}

theorem dropWhile_cons_of_not {p : α → Bool} (h : p a = false) :
    (a :: l).dropWhile p = a :: l :=
  List.dropWhile_cons_of_neg (by simp [h])

variable [DecidableEq α]

/-- What a line assigns to a name: what is behind the name and the mark that follows
    it, blanks aside. -/
def assigned (blank : α → Bool) (mark : α) (name line : List α) : Option (List α) :=
  match (line.dropWhile blank).dropPrefix? name with
  | none => none
  | some rest =>
    match rest.dropWhile blank with
    | [] => none
    | a :: value => if a = mark then some (value.dropWhile blank) else none

/-- A line that has no blank, and not the name, at its beginning assigns nothing to it. -/
theorem assigned_of_head (ha : blank a = false) (hname : name ≠ []) (hhead : name.head? ≠ some a) :
    assigned blank mark name (a :: l) = none := by
  rw [assigned, dropWhile_cons_of_not ha]
  cases hdrop : (a :: l).dropPrefix? name with
  | none => rfl
  | some s =>
    obtain ⟨name', happend, hbeq⟩ := List.dropPrefix?_eq_some_iff.1 hdrop
    obtain rfl := eq_of_beq hbeq
    cases name' with
    | nil => exact absurd rfl hname
    | cons b name' =>
      obtain ⟨rfl, -⟩ := List.cons.inj happend
      exact absurd rfl hhead

/-- A line that begins with a word, a blank and the mark assigns to that word only. -/
theorem assigned_word {sp : α} (hsp : blank sp = true) (hmark : blank mark = false)
    (hkey : ∀ a ∈ key, blank a = false ∧ a ≠ mark) (hne : key ≠ [])
    (hname : ∀ a ∈ name, blank a = false) :
    assigned blank mark name (key ++ sp :: mark :: rest) =
      if key = name then some (rest.dropWhile blank) else none := by
  have hstart : (key ++ sp :: mark :: rest).dropWhile blank = key ++ sp :: mark :: rest := by
    cases key with
    | nil => exact absurd rfl hne
    | cons a key => exact dropWhile_cons_of_not (hkey a List.mem_cons_self).1
  rw [assigned, hstart]
  split_ifs with heq
  · subst heq
    have hdrop : (key ++ sp :: mark :: rest).dropPrefix? key = some (sp :: mark :: rest) :=
      List.dropPrefix?_eq_some_iff.2 ⟨key, rfl, by simp⟩
    rw [hdrop]
    simp only [List.dropWhile_cons_of_pos hsp, dropWhile_cons_of_not hmark, if_true]
  · cases hdrop : (key ++ sp :: mark :: rest).dropPrefix? name with
    | none => rfl
    | some s =>
      obtain ⟨name', happend, hbeq⟩ := List.dropPrefix?_eq_some_iff.1 hdrop
      obtain rfl := eq_of_beq hbeq
      -- Either the name goes on where the word ends, or the word where the name does.
      rcases List.append_eq_append_iff.1 happend with ⟨r, rfl, hr⟩ | ⟨r, rfl, rfl⟩
      · cases r with
        | nil => exact absurd (List.append_nil key).symm heq
        | cons b r =>
          obtain ⟨rfl, -⟩ := List.cons.inj hr
          have := hname sp (List.mem_append_right key List.mem_cons_self)
          rw [hsp] at this
          cases this
      · cases r with
        | nil => exact absurd (List.append_nil name') heq
        | cons b r =>
          obtain ⟨hb, hbmark⟩ := hkey b (List.mem_append_right name' List.mem_cons_self)
          simp only [List.cons_append, dropWhile_cons_of_not hb, if_neg hbmark]

end Word
