import Mathlib.Algebra.Group.Nat.Defs
import Mathlib.Data.List.Nodup

/-!
# Tallies

What the members of a list contribute in all, and the counter that keeps it. The
members change one at a time, and the counter, a word that wraps around, changes
with them: it then always holds the tally, modulo its size.

* `tally_set`, `tally_append_singleton`: one member changes, or is new.
* `ofNat_tally_set`: the rule for a counter that is changed along with a member.
* `nodup_of_getElem?_ofNat`: numbers counted off by a word are distinct as long as
  it does not wrap around.
-/

section Tally

variable {α : Type*} {f g : α → ℕ} {l : List α} {a b : α} {i : ℕ}

/-- The contributions of a list's members. -/
def tally (f : α → ℕ) : List α → ℕ
  | [] => 0
  | a :: l => f a + tally f l

theorem tally_append_singleton : tally f (l ++ [a]) = tally f l + f a := by
  induction l with
  | nil => exact Nat.add_comm _ _
  | cons b l ih => rw [List.cons_append, tally, ih, tally, Nat.add_assoc]

/-- One member changes: the tally loses what it contributed, and gains what it does now. -/
theorem tally_set (h : l[i]? = some a) : tally f (l.set i b) + f a = tally f l + f b := by
  induction l generalizing i with
  | nil => simp at h
  | cons c l ih =>
    cases i with
    | zero =>
      obtain rfl : c = a := by simpa using h
      rw [List.set_cons_zero, tally, tally]
      omega
    | succ i =>
      rw [List.getElem?_cons_succ] at h
      have := ih h
      rw [List.set_cons_succ, tally, tally]
      omega

theorem tally_congr (h : ∀ a ∈ l, f a = g a) : tally f l = tally g l := by
  induction l with
  | nil => rfl
  | cons a l ih =>
    obtain ⟨ha, hl⟩ := List.forall_mem_cons.1 h
    rw [tally, tally, ha, ih hl]

theorem tally_add : tally (fun a => f a + g a) l = tally f l + tally g l := by
  induction l with
  | nil => rfl
  | cons a l ih =>
    rw [tally, tally, tally, ih]
    omega

theorem tally_le (h : ∀ a ∈ l, f a ≤ g a) : tally f l ≤ tally g l := by
  induction l with
  | nil => exact Nat.le_refl _
  | cons a l ih =>
    obtain ⟨ha, hl⟩ := List.forall_mem_cons.1 h
    exact Nat.add_le_add ha (ih hl)

/-- Contributions of one each. -/
theorem tally_eq_length (h : ∀ a ∈ l, f a = 1) : tally f l = l.length := by
  induction l with
  | nil => rfl
  | cons a l ih =>
    obtain ⟨ha, hl⟩ := List.forall_mem_cons.1 h
    rw [tally, ha, ih hl, List.length_cons, Nat.add_comm]

theorem tally_le_length (h : ∀ a ∈ l, f a ≤ 1) : tally f l ≤ l.length :=
  Nat.le_trans (tally_le h) (Nat.le_of_eq (tally_eq_length fun _ _ => rfl))

/-- A member contributes no more than all. -/
theorem le_tally (h : a ∈ l) : f a ≤ tally f l := by
  induction l with
  | nil => exact absurd h List.not_mem_nil
  | cons b l ih =>
    rw [tally]
    rcases List.mem_cons.1 h with rfl | h
    · exact Nat.le_add_right _ _
    · exact Nat.le_trans (ih h) (Nat.le_add_left _ _)

/-- What some members of a list contribute, told by those of another beside it. -/
theorem tally_zip_le {β : Type*} {g : α × β → ℕ} {m : List β} (h : ∀ a b, g (a, b) ≤ f a) :
    tally g (l.zip m) ≤ tally f l := by
  induction l generalizing m with
  | nil => exact Nat.zero_le _
  | cons a l ih =>
    cases m with
    | nil => exact Nat.zero_le _
    | cons b m => exact Nat.add_le_add (h a b) ih

theorem tally_eq_zero (h : ∀ a ∈ l, f a = 0) : tally f l = 0 := by
  induction l with
  | nil => rfl
  | cons a l ih =>
    obtain ⟨ha, hl⟩ := List.forall_mem_cons.1 h
    rw [tally, ha, ih hl]

/-- A tally of some members only. -/
theorem tally_filter {p : α → Bool} :
    tally f (l.filter p) = tally (fun a => if p a then f a else 0) l := by
  induction l with
  | nil => rfl
  | cons a l ih =>
    rw [tally, ← ih]
    cases hp : p a with
    | true => rw [List.filter_cons_of_pos hp, tally, if_pos rfl]
    | false =>
      rw [List.filter_cons_of_neg (by rw [hp]; exact Bool.false_ne_true), if_neg Bool.false_ne_true,
        Nat.zero_add]

/-! ## Counters -/

/-- A counter that is changed along with a member keeps the tally: if it makes up
    for what the member contributed by what it contributes now. -/
theorem ofNat_tally_set {c c' : UInt64} {n : ℕ} (hc : c = .ofNat (tally f l + n))
    (h : l[i]? = some a) (hmove : c' + .ofNat (f a) = c + .ofNat (f b)) :
    c' = .ofNat (tally f (l.set i b) + n) := by
  rw [← UInt64.add_left_inj (.ofNat (f a)), hmove, hc, ← UInt64.ofNat_add, ← UInt64.ofNat_add]
  have := tally_set (f := f) (b := b) h
  exact congrArg UInt64.ofNat (by omega)

/-- The numbers that a word counts off are distinct as long as it does not wrap around. -/
theorem nodup_of_getElem?_ofNat {ids : List UInt64}
    (h : ∀ (i : ℕ) id, ids[i]? = some id → id = .ofNat (i + 1)) (hlen : ids.length < 2 ^ 64) :
    ids.Nodup := by
  rw [List.nodup_iff_injective_getElem]
  intro i j hij
  have hi := h i _ (List.getElem?_eq_getElem i.2)
  have hj := h j _ (List.getElem?_eq_getElem j.2)
  have heq := congrArg UInt64.toNat (hi.symm.trans (hij.trans hj))
  rw [UInt64.toNat_ofNat', UInt64.toNat_ofNat', Nat.mod_eq_of_lt, Nat.mod_eq_of_lt] at heq
  · exact Fin.ext (Nat.succ.inj heq)
  · exact Nat.lt_of_le_of_lt j.2 hlen
  · exact Nat.lt_of_le_of_lt i.2 hlen

end Tally
