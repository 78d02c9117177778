import Mathlib.Data.List.Basic

/-!
# Length-prefixed frames

A stream of frames, each a header of fixed width announcing the length of the
body that follows (`FrameFormat`). A header may also announce a length that the
format refuses.

Every stream has exactly one *leftmost parse* (`FrameFormat.Parse`): as many
frames as can be taken from its front, and how it ends — cleanly, between two
frames; truncated, inside a header or a body; or at a refused header
(`existsUnique_parse`). It ends cleanly exactly when the stream is a
concatenation of frames (`parse_clean_iff`). `next` computes the first step of
the parse.
-/

/-- A format of frames of elements of `β`. -/
structure FrameFormat (β : Type*) where
  /-- The width of the header. -/
  width : ℕ
  width_pos : 0 < width
  /-- The length of the body that a header announces, if the format admits it. -/
  announced : List β → Option ℕ

namespace FrameFormat

variable {β : Type*} (F : FrameFormat β)

/-- A whole frame: a header, and a body of the length it announces. -/
def IsFrame (f : List β) : Prop :=
  F.width ≤ f.length ∧ F.announced (f.take F.width) = some (f.length - F.width)

/-- How a stream ends, after its last frame. -/
inductive Ending
  /-- Between two frames. -/
  | clean
  /-- Inside a header, or inside a body. -/
  | truncated
  /-- At a header announcing a length that is not admitted. -/
  | refused
  deriving DecidableEq

/-- The leftmost parse of a stream into frames. -/
inductive Parse : List β → List (List β) → Ending → Prop
  | clean : Parse [] [] .clean
  | header {s : List β} : s ≠ [] → s.length < F.width → Parse s [] .truncated
  | body {s : List β} {n : ℕ} : F.width ≤ s.length → F.announced (s.take F.width) = some n →
      s.length < F.width + n → Parse s [] .truncated
  | refused {s : List β} : F.width ≤ s.length → F.announced (s.take F.width) = none →
      Parse s [] .refused
  | frame {f s : List β} {fs : List (List β)} {e : Ending} : F.IsFrame f → Parse s fs e →
      Parse (f ++ s) (f :: fs) e

/-! ## The first step -/

/-- The first step of a parse: the first frame and the rest, or how the stream ends. -/
def next (s : List β) : Except Ending (List β × List β) :=
  if s.isEmpty then .error .clean
  else if s.length < F.width then .error .truncated
  else
    match F.announced (s.take F.width) with
    | none => .error .refused
    | some n =>
      if s.length < F.width + n then .error .truncated
      else .ok (s.take (F.width + n), s.drop (F.width + n))

variable {F}

theorem IsFrame.ne_nil {f : List β} (h : F.IsFrame f) : f ≠ [] := by
  rintro rfl
  exact absurd h.1 (Nat.not_le.2 F.width_pos)

/-- A frame is the header and as much as it announces. -/
theorem isFrame_iff {f : List β} :
    F.IsFrame f ↔ ∃ n, F.announced (f.take F.width) = some n ∧ f.length = F.width + n := by
  constructor
  · intro ⟨hle, ha⟩
    exact ⟨_, ha, by omega⟩
  · intro ⟨n, ha, hn⟩
    exact ⟨by omega, by rw [ha]; congr 1; omega⟩

theorem next_append {f : List β} (h : F.IsFrame f) (s : List β) :
    F.next (f ++ s) = .ok (f, s) := by
  obtain ⟨n, ha, hn⟩ := isFrame_iff.1 h
  have hne : (f ++ s).isEmpty = false := by
    rw [List.isEmpty_eq_false_iff]
    exact List.append_ne_nil_of_left_ne_nil h.ne_nil s
  rw [next, hne, if_neg (by decide), if_neg (by rw [List.length_append]; omega),
    List.take_append_of_le_length (by omega), ha]
  simp only [← hn, List.take_left, List.drop_left]
  rw [if_neg (by rw [List.length_append]; omega)]

theorem next_eq_ok {s f s' : List β} : F.next s = .ok (f, s') ↔ s = f ++ s' ∧ F.IsFrame f := by
  constructor
  · intro h
    unfold next at h
    split at h
    · cases h
    split at h
    · cases h
    split at h
    · cases h
    rename_i n ha
    split at h
    · cases h
    obtain ⟨rfl, rfl⟩ : s.take (F.width + n) = f ∧ s.drop (F.width + n) = s' := by simpa using h
    refine ⟨(List.take_append_drop ..).symm, isFrame_iff.2 ⟨n, ?_, ?_⟩⟩
    · rw [List.take_take, Nat.min_eq_left (Nat.le_add_right ..), ha]
    · rw [List.length_take]
      omega
  · rintro ⟨rfl, hf⟩
    exact next_append hf s'

theorem next_eq_error {s : List β} {e : Ending} : F.next s = .error e ↔ F.Parse s [] e := by
  constructor
  · intro h
    unfold next at h
    split at h
    · rename_i hs
      cases h
      rw [List.isEmpty_iff.1 hs]
      exact .clean
    split at h
    · cases h
      exact .header (by simp_all) ‹_›
    split at h
    · cases h
      exact .refused (by omega) ‹_›
    split at h
    · cases h
      exact .body (by omega) ‹_› ‹_›
    · cases h
  · intro h
    cases h with
    | clean => rfl
    | header hne hlt => simp [next, hne, hlt]
    | body hle ha hlt =>
      have hne : s ≠ [] := by rintro rfl; exact absurd hle (Nat.not_le.2 F.width_pos)
      simp [next, hne, Nat.not_lt.2 hle, ha, hlt]
    | refused hle ha =>
      have hne : s ≠ [] := by rintro rfl; exact absurd hle (Nat.not_le.2 F.width_pos)
      simp [next, hne, Nat.not_lt.2 hle, ha]

/-! ## The parse of a stream -/

/-- The parse of a stream starts with its first step. -/
theorem parse_iff {s : List β} {fs : List (List β)} {e : Ending} :
    F.Parse s fs e ↔ (fs = [] ∧ F.next s = .error e) ∨
      ∃ f s' fs', fs = f :: fs' ∧ F.next s = .ok (f, s') ∧ F.Parse s' fs' e := by
  constructor
  · intro h
    cases fs with
    | nil => exact .inl ⟨rfl, next_eq_error.2 h⟩
    | cons f fs =>
      cases h with
      | frame hf h => exact .inr ⟨f, _, fs, rfl, next_append hf _, h⟩
  · rintro (⟨rfl, h⟩ | ⟨f, s', fs', rfl, h, hp⟩)
    · exact next_eq_error.1 h
    · obtain ⟨rfl, hf⟩ := next_eq_ok.1 h
      exact .frame hf hp

theorem Parse.unique {s : List β} {fs fs' : List (List β)} {e e' : Ending} (h : F.Parse s fs e)
    (h' : F.Parse s fs' e') : fs = fs' ∧ e = e' := by
  induction fs generalizing s fs' with
  | nil =>
    have hn := next_eq_error.2 h
    rcases parse_iff.1 h' with ⟨rfl, hn'⟩ | ⟨f, s', fs', rfl, hn', -⟩
    · exact ⟨rfl, by simpa [hn] using hn'⟩
    · simp [hn] at hn'
  | cons f fs ih =>
    cases h with
    | frame hf h =>
      rcases parse_iff.1 h' with ⟨rfl, hn'⟩ | ⟨f', s', fs', rfl, hn', h'⟩
      · simp [next_append hf] at hn'
      · obtain ⟨rfl, rfl⟩ : f = f' ∧ _ = s' := by simpa [next_append hf] using hn'
        obtain ⟨rfl, rfl⟩ := ih h h'
        exact ⟨rfl, rfl⟩

theorem exists_parse (s : List β) : ∃ fs e, F.Parse s fs e := by
  -- By induction on the length: the first step leaves a shorter stream.
  induction hlen : s.length using Nat.strongRecOn generalizing s with
  | ind n ih =>
    rcases hn : F.next s with e | ⟨f, s'⟩
    · exact ⟨[], e, next_eq_error.1 hn⟩
    · obtain ⟨rfl, hf⟩ := next_eq_ok.1 hn
      have hpos := List.length_pos_iff.2 hf.ne_nil
      rw [List.length_append] at hlen
      obtain ⟨fs, e, h⟩ := ih s'.length (by omega) s' rfl
      exact ⟨f :: fs, e, .frame hf h⟩

/-- Every stream has exactly one leftmost parse. -/
theorem existsUnique_parse (s : List β) : ∃! p : List (List β) × Ending, F.Parse s p.1 p.2 := by
  obtain ⟨fs, e, h⟩ := F.exists_parse s
  exact ⟨(fs, e), h, fun p hp => Prod.ext (hp.unique h).1 (hp.unique h).2⟩

/-- A stream ends cleanly exactly when it is a concatenation of frames. -/
theorem parse_clean_iff {s : List β} {fs : List (List β)} :
    F.Parse s fs .clean ↔ s = fs.flatten ∧ ∀ f ∈ fs, F.IsFrame f := by
  induction fs generalizing s with
  | nil =>
    constructor
    · intro h
      cases h
      simp
    · rintro ⟨rfl, -⟩
      exact .clean
  | cons f fs ih =>
    constructor
    · intro h
      cases h with
      | frame hf h =>
        obtain ⟨rfl, hfs⟩ := ih.1 h
        exact ⟨rfl, List.forall_mem_cons.2 ⟨hf, hfs⟩⟩
    · rintro ⟨rfl, hfs⟩
      obtain ⟨hf, hfs⟩ := List.forall_mem_cons.1 hfs
      exact .frame hf (ih.2 ⟨rfl, hfs⟩)

/-- A parse is a concatenation of frames, and then a rest of which no frame can
    be taken. -/
theorem parse_split_iff {s : List β} {fs : List (List β)} {e : Ending} :
    F.Parse s fs e ↔
      ∃ s', s = fs.flatten ++ s' ∧ (∀ f ∈ fs, F.IsFrame f) ∧ F.Parse s' [] e := by
  induction fs generalizing s with
  | nil => simp
  | cons f fs ih =>
    constructor
    · intro h
      cases h with
      | frame hf h =>
        obtain ⟨s', rfl, hfs, hs'⟩ := ih.1 h
        exact ⟨s', by simp, List.forall_mem_cons.2 ⟨hf, hfs⟩, hs'⟩
    · rintro ⟨s', rfl, hfs, hs'⟩
      obtain ⟨hf, hfs⟩ := List.forall_mem_cons.1 hfs
      rw [List.flatten_cons, List.append_assoc]
      exact .frame hf (ih.2 ⟨s', rfl, hfs, hs'⟩)

/-- The frames of a parse are frames, at the front of the stream. -/
theorem Parse.frames {s : List β} {fs : List (List β)} {e : Ending} (h : F.Parse s fs e) :
    fs.flatten <+: s ∧ ∀ f ∈ fs, F.IsFrame f := by
  induction h with
  | frame hf _ ih =>
    exact ⟨by simpa using ih.1, List.forall_mem_cons.2 ⟨hf, ih.2⟩⟩
  | _ => simp

end FrameFormat
