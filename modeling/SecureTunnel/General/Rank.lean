import Mathlib.Data.List.Sort
import Mathlib.Order.Bounds.Defs
import Mathlib.Order.Monotone.Defs

/-!
# Ranks

The member of a given rank in a list over a linear order: the one at that place,
counted from `1`, once the list is sorted. It is the least bound that as many
members stay within (`lt_within_iff_ranked`), whatever the order of the list is
(`ranked_perm`), and monotone functions keep it (`ranked_map`). A percentile by
nearest rank takes the rank that is a proportion of the length, rounded up.

* `isLeast_of_nearestRank`: a percentile by nearest rank is the least bound that
  the proportion of the members stay within.
-/

section Rank

variable {α : Type*} [LinearOrder α] {l : List α} {a b : α} {k : ℕ}

/-- The members of a list that stay within a bound. -/
def within (a : α) (l : List α) : ℕ := l.countP (· ≤ a)

theorem within_cons_of_le (h : b ≤ a) : within a (b :: l) = within a l + 1 :=
  List.countP_cons_of_pos (by simpa using h)

theorem within_eq_zero (h : ∀ b ∈ l, a < b) : within a l = 0 := by
  refine List.countP_eq_zero.2 fun b hb => ?_
  simpa using h b hb

theorem within_perm {l' : List α} (h : l.Perm l') : within a l = within a l' := h.countP_eq _

/-- In a sorted list, those within a bound come first. -/
theorem lt_within_iff (hsorted : l.Pairwise (· ≤ ·)) :
    k < within a l ↔ ∃ b, l[k]? = some b ∧ b ≤ a := by
  induction l generalizing k with
  | nil => simp [within]
  | cons c l ih =>
    obtain ⟨hfirst, hrest⟩ := List.pairwise_cons.1 hsorted
    by_cases hc : c ≤ a
    · rw [within_cons_of_le hc]
      induction k with
      | zero => exact ⟨fun _ => ⟨c, rfl, hc⟩, fun _ => Nat.succ_pos _⟩
      | succ k => rw [List.getElem?_cons_succ, ← ih hrest, Nat.add_lt_add_iff_right]
    · -- The first one exceeds the bound, and with it all the others.
      have hlt : ∀ b ∈ c :: l, a < b := by
        refine List.forall_mem_cons.2 ⟨not_le.1 hc, fun b hb => ?_⟩
        exact (not_le.1 hc).trans_le (hfirst b hb)
      rw [within_eq_zero hlt]
      refine ⟨fun h => absurd h (Nat.not_lt_zero k), ?_⟩
      rintro ⟨b, hb, hle⟩
      exact absurd hle (not_le.2 (hlt b (List.mem_of_getElem? hb)))

/-- The member at a place of the sorted list, counted from `0`. -/
def ranked (l : List α) (k : ℕ) : Option α := (l.insertionSort (· ≤ ·))[k]?

theorem ranked_perm {l' : List α} (h : l.Perm l') : ranked l k = ranked l' k := by
  have hsorted : l.insertionSort (· ≤ ·) = l'.insertionSort (· ≤ ·) := by
    refine List.Perm.eq_of_pairwise' (List.pairwise_insertionSort _ _)
      (List.pairwise_insertionSort _ _) ?_
    exact (List.perm_insertionSort _ l).trans (h.trans (List.perm_insertionSort _ l').symm)
  rw [ranked, hsorted, ranked]

/-- Where the order is kept, the places are. -/
theorem ranked_map {β : Type*} [LinearOrder β] {f : α → β} (hf : Monotone f) :
    ranked (l.map f) k = (ranked l k).map f := by
  have hsorted : (l.map f).insertionSort (· ≤ ·) = (l.insertionSort (· ≤ ·)).map f := by
    refine List.Perm.eq_of_pairwise' (List.pairwise_insertionSort _ _) ?_ ?_
    · exact (List.pairwise_insertionSort (· ≤ ·) l).map f fun _ _ h => hf h
    · exact (List.perm_insertionSort _ _).trans ((List.perm_insertionSort _ l).symm.map f)
  rw [ranked, hsorted, List.getElem?_map, ← ranked]

theorem mem_of_ranked (h : ranked l k = some a) : a ∈ l :=
  (List.mem_insertionSort _).1 (List.mem_of_getElem? h)

theorem exists_ranked (h : k < l.length) : ∃ a, ranked l k = some a := by
  have hlt : k < (l.insertionSort (· ≤ ·)).length := by rwa [List.length_insertionSort]
  exact ⟨_, List.getElem?_eq_getElem hlt⟩

/-- More than `k` members stay within a bound exactly if that at place `k` does. -/
theorem lt_within_iff_ranked (h : ranked l k = some b) : k < within a l ↔ b ≤ a := by
  rw [← within_perm (List.perm_insertionSort (· ≤ ·) l),
    lt_within_iff (List.pairwise_insertionSort (· ≤ ·) l), ← ranked, h]
  simp only [Option.some.injEq, exists_eq_left']

end Rank

/-! ## Nearest ranks -/

section NearestRank

/-- Division that rounds up. -/
def divCeil (a b : ℕ) : ℕ := if 0 < a % b then a / b + 1 else a / b

theorem divCeil_le_iff {a b c : ℕ} (hb : 0 < b) : divCeil a b ≤ c ↔ a ≤ b * c := by
  have ha : b * (a / b) + a % b = a := Nat.div_add_mod a b
  have hmod : a % b < b := Nat.mod_lt a hb
  rw [divCeil]
  split
  · rename_i hpos
    constructor
    · intro h
      have := Nat.mul_le_mul_left b h
      rw [Nat.mul_add, Nat.mul_one] at this
      omega
    · intro h
      refine Nat.lt_of_not_le fun hle => ?_
      have := Nat.mul_le_mul_left b hle
      omega
  · rename_i hpos
    have heq : b * (a / b) = a := by omega
    constructor
    · intro h
      have := Nat.mul_le_mul_left b h
      omega
    · intro h
      exact Nat.le_of_mul_le_mul_left (heq.trans_le h) hb

/-- The rank that is `p` of `q` of the length. -/
def nearestRank (p q n : ℕ) : ℕ := divCeil (p * n) q

variable {p q n : ℕ}

theorem nearestRank_le (hq : 0 < q) (hpq : p ≤ q) : nearestRank p q n ≤ n :=
  (divCeil_le_iff hq).2 (Nat.mul_le_mul_right n hpq)

theorem nearestRank_pos (hq : 0 < q) (hp : 0 < p) (hn : 0 < n) : 0 < nearestRank p q n := by
  refine Nat.lt_of_not_le fun hle => ?_
  have := (divCeil_le_iff hq).1 hle
  exact absurd this (Nat.not_le.2 (by rw [Nat.mul_zero]; exact Nat.mul_pos hp hn))

variable {α : Type*} [LinearOrder α] {l : List α} {a : α}

/-- What stands at the nearest rank is the least bound that the proportion stays
    within. -/
theorem isLeast_of_nearestRank (hq : 0 < q) (hp : 0 < p)
    (h : ranked l (nearestRank p q l.length - 1) = some a) :
    IsLeast {b | p * l.length ≤ q * within b l} a := by
  have hpos : 0 < nearestRank p q l.length :=
    nearestRank_pos hq hp (List.length_pos_of_mem (mem_of_ranked h))
  have hiff : ∀ b, p * l.length ≤ q * within b l ↔ a ≤ b := by
    intro b
    rw [← divCeil_le_iff hq, ← nearestRank, ← lt_within_iff_ranked h]
    omega
  exact ⟨(hiff a).2 le_rfl, fun b hb => (hiff b).1 hb⟩

end NearestRank
