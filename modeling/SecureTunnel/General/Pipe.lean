import Mathlib.Data.List.Infix
import Mathlib.Tactic.TypeStar

/-!
# Pipes

A one-way connection between a writer and a reader: what the reader has taken,
what is in transit to it, and what is lost because the connection was cut. The
reader sees the end of the stream once the pipe has ended and nothing is in
transit.

The pipe forgets nothing (`Pipe.written`): what was written is what was taken,
what is in transit and what is lost, in this order. Only a cut loses anything,
which every pipe carries as a field.
-/

structure Pipe (β : Type*) where
  /-- What the reader has read. -/
  taken : List β
  /-- What was written and can still be read. -/
  transit : List β
  /-- What was written and never arrives. -/
  lost : List β
  /-- The reader sees the end of the stream after what is in transit. -/
  ended : Bool
  /-- The connection was cut on its way. -/
  cut : Bool
  lost_eq : cut = false → lost = []

namespace Pipe

variable {β : Type*}

def empty : Pipe β := ⟨[], [], [], false, false, fun _ => rfl⟩

/-- All that was written into the pipe. -/
def written (p : Pipe β) : List β := p.taken ++ (p.transit ++ p.lost)

/-- A write: after a cut, it is lost. -/
def write (p : Pipe β) (bs : List β) : Pipe β :=
  if h : p.cut then { p with lost := p.lost ++ bs, lost_eq := fun hc => by simp [h] at hc }
  else { p with transit := p.transit ++ bs }

/-- The writer closes its end. -/
def close (p : Pipe β) : Pipe β := { p with ended := true }

/-- The connection is cut: of what is in transit, only the first `n` arrive. -/
def sever (p : Pipe β) (n : ℕ) : Pipe β where
  taken := p.taken
  transit := p.transit.take n
  lost := p.transit.drop n ++ p.lost
  ended := true
  cut := true
  lost_eq h := nomatch h

/-- A read of `count` elements into a buffer of `room`; none are read at the end
    of the stream. -/
def read (p : Pipe β) (room count : ℕ) : Option (List β × Pipe β) :=
  if count = 0 then if p.transit.isEmpty ∧ p.ended then some ([], p) else none
  else if count ≤ room ∧ count ≤ p.transit.length then
    some (p.transit.take count,
      { p with taken := p.taken ++ p.transit.take count, transit := p.transit.drop count })
  else none

/-- What the two ends of a pipe do to it. -/
inductive Moves (p : Pipe β) : Pipe β → Prop
  | write (bs : List β) : p.ended = false → Moves p (p.write bs)
  | close : Moves p p.close
  | read {room count : ℕ} {piece : List β} {p' : Pipe β} :
      p.read room count = some (piece, p') → Moves p p'

variable {p p' : Pipe β}

theorem taken_isPrefix (p : Pipe β) : p.taken <+: p.written := List.prefix_append ..

/-- Without a cut, what was taken and what is in transit is all that was written. -/
theorem written_of_not_cut (h : p.cut = false) : p.written = p.taken ++ p.transit := by
  rw [written, p.lost_eq h, List.append_nil]

theorem write_of_not_cut (h : p.cut = false) (bs : List β) :
    p.write bs = { p with transit := p.transit ++ bs } := by
  rw [write, dif_neg (by rw [h]; decide)]

@[simp] theorem written_write (p : Pipe β) (bs : List β) :
    (p.write bs).written = p.written ++ bs := by
  rw [write]
  split
  · simp [written]
  · rename_i h
    simp [written, p.lost_eq (by simpa using h)]

@[simp] theorem taken_write (p : Pipe β) (bs : List β) : (p.write bs).taken = p.taken := by
  rw [write]
  split <;> rfl

@[simp] theorem ended_write (p : Pipe β) (bs : List β) : (p.write bs).ended = p.ended := by
  rw [write]
  split <;> rfl

@[simp] theorem cut_write (p : Pipe β) (bs : List β) : (p.write bs).cut = p.cut := by
  rw [write]
  split <;> rfl

theorem transit_write_of_cut (h : p.cut = true) (bs : List β) :
    (p.write bs).transit = p.transit := by
  rw [write, dif_pos h]

@[simp] theorem written_close (p : Pipe β) : p.close.written = p.written := rfl

@[simp] theorem written_sever (p : Pipe β) (n : ℕ) : (p.sever n).written = p.written := by
  simp only [written, sever]
  rw [← List.append_assoc (p.transit.take n), List.take_append_drop]

/-- What is next in transit can be read. -/
theorem read_next {piece rest : List β} (htransit : p.transit = piece ++ rest)
    (hpiece : piece ≠ []) :
    p.read piece.length piece.length =
      some (piece, { p with taken := p.taken ++ piece, transit := rest }) := by
  have hcount : piece.length ≠ 0 := by simpa using hpiece
  rw [read, if_neg hcount, htransit, if_pos ⟨Nat.le_refl _, by simp⟩, List.take_left',
    List.drop_left'] <;> rfl

/-- All that a read can do: it reports the end of the stream and changes nothing,
    or takes the next elements. -/
theorem read_cases {room count : ℕ} {piece : List β} (h : p.read room count = some (piece, p')) :
    (piece = [] ∧ p' = p ∧ p.transit = [] ∧ p.ended = true) ∨
    (piece ≠ [] ∧ piece.length ≤ room ∧ p.transit = piece ++ p'.transit ∧
      p'.taken = p.taken ++ piece ∧ p'.ended = p.ended ∧ p'.cut = p.cut ∧
      p'.written = p.written) := by
  rw [read] at h
  split at h
  · split at h
    · rename_i hend
      cases h
      exact .inl ⟨rfl, rfl, List.isEmpty_iff.1 hend.1, hend.2⟩
    · cases h
  · split at h
    · rename_i hcount hle
      cases h
      refine .inr ⟨?_, ?_, (List.take_append_drop ..).symm, rfl, rfl, rfl, ?_⟩
      · rw [← List.length_pos_iff, List.length_take]
        omega
      · rw [List.length_take]
        omega
      · simp only [written, List.append_assoc]
        rw [← List.append_assoc (p.transit.take count), List.take_append_drop]
    · cases h

/-- A read takes its piece, and forgets nothing. -/
theorem of_read {room count : ℕ} {piece : List β} (h : p.read room count = some (piece, p')) :
    p'.taken = p.taken ++ piece ∧ p'.written = p.written := by
  rcases read_cases h with ⟨rfl, rfl, -⟩ | ⟨-, -, -, htaken, -, -, hwritten⟩
  · exact ⟨(List.append_nil _).symm, rfl⟩
  · exact ⟨htaken, hwritten⟩

/-- What is in transit can be read, up to the room. -/
theorem read_some {room : ℕ} (hroom : 0 < room) (htransit : p.transit ≠ []) :
    ∃ count piece p', p.read room count = some (piece, p') ∧ piece ≠ [] ∧ piece.length ≤ room ∧
      p.transit = piece ++ p'.transit ∧ p'.cut = p.cut ∧ p'.written = p.written := by
  have hpos := List.length_pos_iff.2 htransit
  obtain ⟨⟨piece, p'⟩, hread⟩ : ∃ out, p.read room (min room p.transit.length) = some out := by
    rw [read, if_neg (by omega), if_pos ⟨Nat.min_le_left .., Nat.min_le_right ..⟩]
    exact ⟨_, rfl⟩
  rcases read_cases hread with ⟨-, -, hnil, -⟩ | ⟨hne, hlen, hsplit, -, -, hcut, hwritten⟩
  · exact absurd hnil htransit
  · exact ⟨_, _, _, hread, hne, hlen, hsplit, hcut, hwritten⟩

end Pipe
