import Mathlib.Data.List.Induction

/-!
# One-shot objects

An object whose successful calls climb a ladder: a call attempts one rung, it
can succeed only where the object stands at that rung, and success lifts the
object above it. A call that fails leaves the object as it was, or drops it for
good, which is to stand at the top of the ladder, above every rung.

* `Ladder.rung_lt_of_ok`: later successes attempt higher rungs, so that each
  rung is climbed at most once.
* `Ladder.exists_ok_below`: who stands above where it started, but not at the
  top, has climbed a rung in between.
* `Ladder.not_ok_of_top`: nothing succeeds at the top.
* `Ladder.climbs`: what follows for every sequence of calls.
-/

/-- The calls on an object, as a ladder. -/
structure Ladder (Obj Call Err Out : Type*) where
  /-- The result of a call, and the object after it. -/
  call : Obj → Call → Except Err Out × Obj
  /-- The rung that a call attempts. -/
  rung : Call → ℕ
  /-- Where an object stands. -/
  height : Obj → ℕ
  top : ℕ
  rung_lt : ∀ c, rung c < top
  height_le : ∀ o, height o ≤ top
  /-- A call succeeds only at its rung, and lifts the object above it. -/
  ok_height : ∀ {o c out}, (call o c).1 = .ok out →
    height o = rung c ∧ rung c < height (call o c).2
  /-- A call that fails leaves the object as it was, or at the top. -/
  error_height : ∀ {o c e}, (call o c).1 = .error e →
    (call o c).2 = o ∨ height (call o c).2 = top

namespace Ladder

variable {Obj Call Err Out : Type*} (L : Ladder Obj Call Err Out)

/-- The object after calls. -/
def after (o : Obj) (cs : List Call) : Obj :=
  cs.foldl (fun o c => (L.call o c).2) o

/-- The call succeeds on the object. -/
def Ok (o : Obj) (c : Call) : Prop := ∃ out, (L.call o c).1 = .ok out

variable {L}

theorem after_append (o : Obj) (cs cs' : List Call) :
    L.after o (cs ++ cs') = L.after (L.after o cs) cs' :=
  List.foldl_append

theorem height_le_call (o : Obj) (c : Call) : L.height o ≤ L.height (L.call o c).2 := by
  rcases h : (L.call o c).1 with e | out
  · rcases L.error_height h with heq | htop
    · exact Nat.le_of_eq (congrArg L.height heq.symm)
    · exact htop ▸ L.height_le o
  · obtain ⟨heq, hlt⟩ := L.ok_height h
    exact heq ▸ Nat.le_of_lt hlt

/-- Objects never climb down. -/
theorem height_le_after (o : Obj) (cs : List Call) : L.height o ≤ L.height (L.after o cs) := by
  induction cs generalizing o with
  | nil => exact Nat.le_refl _
  | cons c cs ih => exact Nat.le_trans (height_le_call o c) (ih _)

/-- A later success attempts a higher rung. -/
theorem rung_lt_of_ok {o : Obj} {cs : List Call} {c c' : Call} (h : L.Ok o c)
    (h' : L.Ok (L.after o (c :: cs)) c') : L.rung c < L.rung c' := by
  obtain ⟨out, hout⟩ := h
  obtain ⟨out', hout'⟩ := h'
  calc L.rung c < L.height (L.call o c).2 := (L.ok_height hout).2
    _ ≤ L.height (L.after o (c :: cs)) := height_le_after _ cs
    _ = L.rung c' := (L.ok_height hout').1

/-- Whoever stands above where it started, and not at the top, has climbed there. -/
theorem exists_ok_below {o : Obj} {cs : List Call} (hlt : L.height o < L.height (L.after o cs))
    (htop : L.height (L.after o cs) < L.top) :
    ∃ cs₁ c cs₂, cs = cs₁ ++ c :: cs₂ ∧ L.Ok (L.after o cs₁) c ∧
      L.rung c < L.height (L.after o cs) := by
  -- By induction from the last call backwards: it is the one, or it changed nothing.
  induction cs using List.reverseRecOn with
  | nil => exact absurd hlt (Nat.lt_irrefl _)
  | append_singleton cs c ih =>
    rw [after_append] at hlt htop ⊢
    change L.height o < L.height (L.call (L.after o cs) c).2 at hlt
    change L.height (L.call (L.after o cs) c).2 < L.top at htop
    change ∃ cs₁ c' cs₂, cs ++ [c] = cs₁ ++ c' :: cs₂ ∧ L.Ok (L.after o cs₁) c' ∧
      L.rung c' < L.height (L.call (L.after o cs) c).2
    rcases h : (L.call (L.after o cs) c).1 with e | out
    · rcases L.error_height h with heq | heq
      · rw [heq] at hlt htop ⊢
        obtain ⟨cs₁, c', cs₂, rfl, hok, hrung⟩ := ih hlt htop
        exact ⟨cs₁, c', cs₂ ++ [c], by simp, hok, hrung⟩
      · exact absurd heq (Nat.ne_of_lt htop)
    · exact ⟨cs, c, [], rfl, ⟨out, h⟩, (L.ok_height h).2⟩

/-- Nothing succeeds at the top. -/
theorem not_ok_of_top {o : Obj} (h : L.height o = L.top) (cs : List Call) (c : Call) :
    ¬L.Ok (L.after o cs) c := by
  rintro ⟨out, hout⟩
  have hle : L.height o ≤ L.height (L.after o cs) := height_le_after o cs
  rw [h, (L.ok_height hout).1] at hle
  exact absurd (L.rung_lt c) (Nat.not_lt.2 hle)

variable (L) in
/-- What holds of every sequence of calls on an object at the foot of its ladder. -/
structure Climbs (o : Obj) : Prop where
  /-- No rung is climbed twice. -/
  once : ∀ cs c cs' c', L.Ok (L.after o cs) c → L.Ok (L.after o (cs ++ c :: cs')) c' →
    L.rung c' ≠ L.rung c
  /-- A rung above the first is climbed only after a lower one. -/
  ordered : ∀ cs c, L.Ok (L.after o cs) c → L.rung c ≠ 0 →
    ∃ cs₁ c₁ cs₂, cs = cs₁ ++ c₁ :: cs₂ ∧ L.rung c₁ < L.rung c ∧ L.Ok (L.after o cs₁) c₁
  /-- After a failure that changes the object, nothing succeeds. -/
  dropped : ∀ cs c, ¬L.Ok (L.after o cs) c → (L.call (L.after o cs) c).2 ≠ L.after o cs →
    ∀ cs' c', ¬L.Ok (L.after o (cs ++ c :: cs')) c'

theorem climbs {o : Obj} (h : L.height o = 0) : L.Climbs o where
  once cs c cs' c' hok hok' := by
    rw [after_append] at hok'
    exact (Nat.ne_of_lt (rung_lt_of_ok hok hok')).symm
  ordered cs c hok hne := by
    obtain ⟨out, hout⟩ := hok
    have hheight := (L.ok_height hout).1
    have hclimbed : L.height o < L.height (L.after o cs) := by omega
    obtain ⟨cs₁, c₁, cs₂, rfl, hok₁, hlt⟩ := exists_ok_below hclimbed (hheight ▸ L.rung_lt c)
    exact ⟨cs₁, c₁, cs₂, rfl, hheight ▸ hlt, hok₁⟩
  dropped cs c hfail hne cs' c' := by
    rcases he : (L.call (L.after o cs) c).1 with e | out
    · rw [after_append]
      exact not_ok_of_top ((L.error_height he).resolve_left hne) cs' c'
    · exact absurd ⟨out, he⟩ hfail

end Ladder
