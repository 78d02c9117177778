import Mathlib.Tactic.TypeStar
import Mathlib.Data.Nat.Init

/-!
# Streams cut into reads

A finite stream that a transport hands over in pieces of its own choosing. A
read into a buffer of `room` elements brings between one and `room` of them; it
brings none only at the end of the stream, or into an empty buffer. How much
each read brings is the transport's choice (`Source.cuts`): a statement about
every source is one about every segmentation of its stream.

`readExact` repeats reads until a buffer is full. What it returns, and what it
leaves, does not depend on the segmentation (`readExact_of_le`,
`readExact_of_lt`).
-/

/-- A stream of which `rest` is still to be read: read number `i` brings
    `cuts i + 1` elements, or what fits the buffer if that is less. -/
structure Source (β : Type*) where
  /-- The elements still to be read, to the end of the stream. -/
  rest : List β
  /-- How much the transport hands over at each read. -/
  cuts : ℕ → ℕ
  /-- The number of reads so far. -/
  reads : ℕ

namespace Source

variable {β : Type*}

/-- The source of a whole stream under a segmentation. -/
def ofList (s : List β) (cuts : ℕ → ℕ) : Source β := ⟨s, cuts, 0⟩

/-- A read into a buffer of `room` elements: what it brings. -/
def read (src : Source β) (room : ℕ) : List β × Source β :=
  let count := min room (src.cuts src.reads + 1)
  (src.rest.take count, { src with rest := src.rest.drop count, reads := src.reads + 1 })

/-- Reads until a buffer of `need` elements is full: at most `fuel` reads.
    `none` when the stream ends before. -/
def fill : (fuel need : ℕ) → Source β → Option (List β) × Source β
  | _, 0, src => (some [], src)
  | 0, _ + 1, src => (none, src)
  | fuel + 1, need + 1, src =>
    let piece := src.read (need + 1)
    if piece.1.isEmpty then (none, piece.2)
    else
      let more := fill fuel (need + 1 - piece.1.length) piece.2
      (more.1.map (piece.1 ++ ·), more.2)

/-- Reads until a buffer of `need` elements is full. Each read brings an element,
    so `need` reads are enough. -/
def readExact (src : Source β) (need : ℕ) : Option (List β) × Source β :=
  fill need need src

/-! ## Independence of the segmentation -/

variable {src : Source β}

/-- A read brings a first part of the rest, and leaves the other. -/
theorem read_append (room : ℕ) : (src.read room).1 ++ (src.read room).2.rest = src.rest :=
  List.take_append_drop ..

theorem read_length_le (room : ℕ) : (src.read room).1.length ≤ room := by
  simp only [read, List.length_take]
  omega

/-- A read into a non-empty buffer brings nothing only at the end of the stream. -/
theorem read_eq_nil {room : ℕ} (hroom : 0 < room) : (src.read room).1 = [] ↔ src.rest = [] := by
  have : min room (src.cuts src.reads + 1) ≠ 0 := by omega
  simp [read, List.take_eq_nil_iff, this]

theorem read_of_nil (h : src.rest = []) (room : ℕ) : (src.read room).1 = [] := by
  simp [read, h]

/-- A read into a buffer of one element brings the next one. -/
theorem read_one {b : β} {s : List β} (h : src.rest = b :: s) :
    (src.read 1).1 = [b] ∧ (src.read 1).2.rest = s := by
  have hmin : min 1 (src.cuts src.reads + 1) = 1 := by omega
  rw [read, hmin, h]
  exact ⟨rfl, rfl⟩

theorem read_length_add (room : ℕ) :
    (src.read room).1.length + (src.read room).2.rest.length = src.rest.length := by
  rw [← List.length_append, read_append]

theorem fill_succ {fuel need : ℕ} (h : (src.read (need + 1)).1 ≠ []) :
    fill (fuel + 1) (need + 1) src =
      ((fill fuel (need + 1 - (src.read (need + 1)).1.length) (src.read (need + 1)).2).1.map
        ((src.read (need + 1)).1 ++ ·),
      (fill fuel (need + 1 - (src.read (need + 1)).1.length) (src.read (need + 1)).2).2) := by
  simp [fill, h]

theorem fill_of_le {fuel need : ℕ} (hfuel : need ≤ fuel) (h : need ≤ src.rest.length) :
    (fill fuel need src).1 = some (src.rest.take need) ∧
      (fill fuel need src).2.rest = src.rest.drop need := by
  induction fuel generalizing need src with
  | zero =>
    obtain rfl : need = 0 := by omega
    simp [fill]
  | succ fuel ih =>
    cases need with
    | zero => simp [fill]
    | succ need =>
      -- The first read brings a non-empty piece; the induction hypothesis reads the rest.
      have hne : (src.read (need + 1)).1 ≠ [] := fun hp => by
        rw [(read_eq_nil (Nat.succ_pos need)).1 hp] at h
        exact absurd h (by simp)
      have happend := src.read_append (need + 1)
      have hlen := src.read_length_add (need + 1)
      have hle := src.read_length_le (need + 1)
      have hpos := List.length_pos_iff.2 hne
      obtain ⟨hmore, hrest⟩ := @ih (src.read (need + 1)).2
        (need + 1 - (src.read (need + 1)).1.length) (by omega) (by omega)
      rw [fill_succ hne]
      refine ⟨?_, ?_⟩
      · rw [hmore, Option.map_some, ← happend, List.take_append, List.take_of_length_le hle]
      · rw [hrest, ← happend, List.drop_append, List.drop_of_length_le hle, List.nil_append]

theorem fill_of_lt {fuel need : ℕ} (h : src.rest.length < need) :
    (fill fuel need src).1 = none := by
  induction fuel generalizing need src with
  | zero =>
    cases need with
    | zero => omega
    | succ need => rfl
  | succ fuel ih =>
    cases need with
    | zero => omega
    | succ need =>
      by_cases hne : (src.read (need + 1)).1 = []
      · simp [fill, hne]
      · have hlen := src.read_length_add (need + 1)
        rw [fill_succ hne, ih (by omega), Option.map_none]

/-- With enough left in the stream, exactly the next elements are read, however
    the stream is cut. -/
theorem readExact_of_le {need : ℕ} (h : need ≤ src.rest.length) :
    (src.readExact need).1 = some (src.rest.take need) ∧
      (src.readExact need).2.rest = src.rest.drop need :=
  fill_of_le (Nat.le_refl need) h

/-- With too little left in the stream, the read fails, however the stream is cut. -/
theorem readExact_of_lt {need : ℕ} (h : src.rest.length < need) :
    (src.readExact need).1 = none :=
  fill_of_lt h

theorem readExact_append {a s : List β} (h : src.rest = a ++ s) :
    (src.readExact a.length).1 = some a ∧ (src.readExact a.length).2.rest = s := by
  have hle : a.length ≤ src.rest.length := by simp [h]
  obtain ⟨h₁, h₂⟩ := src.readExact_of_le hle
  rw [h, List.take_left] at h₁
  rw [h, List.drop_left] at h₂
  exact ⟨h₁, h₂⟩

end Source
