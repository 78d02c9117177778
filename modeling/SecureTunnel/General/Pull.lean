import SecureTunnel.General.Framing
import SecureTunnel.General.Segment

/-!
# Reading a frame piece by piece

A reader that takes one frame of a format off a stream, one read after the
other, and may be interrupted between any two. What it holds in between is the
part of the frame read so far, and it never asks for more than the part it is in:
first the rest of the header, then the rest of the body (`FrameFormat.room`).

* `FrameFormat.IsPart`: what the reader can hold between two reads.
* `FrameFormat.progress_spec`: a read leaves it with a part again, with a whole
  frame, or at a refused header.
* `FrameFormat.pull_fst`: over a source, the reader computes the first step of the
  leftmost parse, however the stream is cut.
-/

namespace FrameFormat

variable {β : Type*} (F : FrameFormat β)

/-- Where a reader is with what it has read of a frame. -/
inductive Progress
  | more
  | whole
  | refused
  deriving DecidableEq

/-- How far what was read of a frame goes. -/
def progress (got : List β) : Progress :=
  if got.length < F.width then .more
  else
    match F.announced (got.take F.width) with
    | none => .refused
    | some n => if got.length < F.width + n then .more else .whole

/-- How much of the part it is in the reader still needs. -/
def room (got : List β) : ℕ :=
  if got.length < F.width then F.width - got.length
  else
    match F.announced (got.take F.width) with
    | none => 0
    | some n => F.width + n - got.length

/-- What a reader can hold between two reads: less than a frame. -/
def IsPart (got : List β) : Prop := F.progress got = .more

variable {F}

theorem isPart_nil : F.IsPart [] := by
  simp [IsPart, progress, F.width_pos]

theorem room_pos {got : List β} (h : F.IsPart got) : 0 < F.room got := by
  simp only [IsPart, progress] at h
  rw [room]
  split
  · omega
  · rename_i hlt
    rw [if_neg hlt] at h
    rcases ha : F.announced (got.take F.width) with _ | n
    · rw [ha] at h
      cases h
    · rw [ha] at h
      simp only at h ⊢
      split at h
      · omega
      · cases h

/-- After a read into the part the reader is in, it holds a part again, a whole
    frame, or a header that is refused. -/
theorem progress_spec {got piece : List β} (h : F.IsPart got) (hroom : piece.length ≤ F.room got) :
    (F.progress (got ++ piece) = .more ∧ F.IsPart (got ++ piece)) ∨
    (F.progress (got ++ piece) = .whole ∧ F.IsFrame (got ++ piece)) ∨
    (F.progress (got ++ piece) = .refused ∧ (got ++ piece).length = F.width ∧
      F.announced (got ++ piece) = none) := by
  -- A read completes at most the header, or at most the body.
  have hheader : got.length < F.width → (got ++ piece).length ≤ F.width := by
    intro hlt
    rw [room, if_pos hlt] at hroom
    rw [List.length_append]
    omega
  have hbody : ∀ {n}, ¬got.length < F.width → F.announced (got.take F.width) = some n →
      (got ++ piece).length ≤ F.width + n ∧ (got ++ piece).take F.width = got.take F.width := by
    intro n hge ha
    have hlt : got.length < F.width + n := by
      by_contra hlt
      simp [IsPart, progress, hge, ha, hlt] at h
    rw [room, if_neg hge, ha] at hroom
    simp only at hroom
    rw [List.length_append, List.take_append_of_le_length (by omega)]
    exact ⟨by omega, rfl⟩
  rcases hp : F.progress (got ++ piece) with _ | _ | _
  · exact .inl ⟨rfl, hp⟩
  · refine .inr (.inl ⟨rfl, ?_⟩)
    simp only [progress] at hp
    split at hp
    · cases hp
    rename_i hge
    split at hp
    · cases hp
    rename_i n ha
    split at hp
    · cases hp
    rename_i hle
    refine isFrame_iff.2 ⟨n, ha, ?_⟩
    by_cases hlt : got.length < F.width
    · have := hheader hlt
      omega
    · have hgot : F.announced (got.take F.width) = some n := by
        rwa [List.take_append_of_le_length (by omega)] at ha
      have := (hbody hlt hgot).1
      omega
  · refine .inr (.inr ⟨rfl, ?_⟩)
    simp only [progress] at hp
    split at hp
    · cases hp
    rename_i hge
    split at hp
    · rename_i ha
      by_cases hlt : got.length < F.width
      · have hlen : (got ++ piece).length = F.width := by
          have := hheader hlt
          omega
        rw [List.take_of_length_le (by omega)] at ha
        exact ⟨hlen, ha⟩
      · rw [List.take_append_of_le_length (by omega)] at ha
        simp [IsPart, progress, hlt, ha] at h
    · split at hp <;> cases hp

/-! ## Over a source -/

variable (F) in
/-- The reader over a source, in at most `fuel` reads, each into a buffer of the
    size `ask` gives: the frame, or how the stream ends. -/
def pull (ask : List β → ℕ) : ℕ → List β → Source β → Except Ending (List β) × Source β
  | 0, _, src => (.error .truncated, src)
  | fuel + 1, got, src =>
    let piece := src.read (ask got)
    if piece.1.isEmpty then (.error (if got.isEmpty then .clean else .truncated), piece.2)
    else
      match F.progress (got ++ piece.1) with
      | .more => pull ask fuel (got ++ piece.1) piece.2
      | .whole => (.ok (got ++ piece.1), piece.2)
      | .refused => (.error .refused, piece.2)

/-- The end of the stream inside a frame. -/
theorem next_of_isPart {got : List β} (h : F.IsPart got) :
    F.next got = .error (if got.isEmpty then .clean else .truncated) := by
  simp only [IsPart, progress] at h
  rw [next]
  by_cases hempty : got.isEmpty
  · rw [if_pos hempty, if_pos hempty]
  rw [if_neg hempty, if_neg hempty]
  by_cases hlt : got.length < F.width
  · rw [if_pos hlt]
  rw [if_neg hlt] at h ⊢
  rcases ha : F.announced (got.take F.width) with _ | n
  · rw [ha] at h
    cases h
  · rw [ha] at h
    simp only at h ⊢
    by_cases hbody : got.length < F.width + n
    · rw [if_pos hbody]
    · rw [if_neg hbody] at h
      cases h

/-- A header that is refused is where the parse stops. -/
theorem next_of_refused {got s : List β} (hlen : got.length = F.width)
    (ha : F.announced got = none) : F.next (got ++ s) = .error .refused := by
  refine next_eq_error.2 (.refused (by simp [hlen]) ?_)
  rwa [List.take_append_of_le_length (by omega), List.take_of_length_le (by omega)]

/-- What the reader holds between two reads does not begin with a frame. -/
theorem not_isPrefix_of_isPart {frame got : List β} (hframe : F.IsFrame frame)
    (hgot : F.IsPart got) : ¬frame <+: got := by
  rintro ⟨rest, rfl⟩
  have hnext := next_append hframe rest
  rw [next_of_isPart hgot] at hnext
  cases hnext

/-- A reader of what begins with a frame is never refused, and takes exactly this
    frame: what it holds in between goes on to it. -/
theorem progress_of_isPrefix {frame got piece more : List β} (hframe : F.IsFrame frame)
    (hgot : F.IsPart got) (hroom : piece.length ≤ F.room got)
    (hbegins : got ++ piece <+: frame ++ more) :
    F.progress (got ++ piece) = .more ∧ F.IsPart (got ++ piece) ∨
      F.progress (got ++ piece) = .whole ∧ got ++ piece = frame := by
  obtain ⟨rest, hrest⟩ := hbegins
  have hnext := next_append hframe more
  rw [← hrest] at hnext
  rcases progress_spec hgot hroom with hmore | ⟨hwhole, hisFrame⟩ | ⟨-, hlen, ha⟩
  · exact .inl hmore
  · rw [next_append hisFrame] at hnext
    exact .inr ⟨hwhole, (Prod.mk.inj (Except.ok.inj hnext)).1⟩
  · rw [next_of_refused hlen ha] at hnext
    cases hnext

/-- The reader computes the first step of the leftmost parse of what it has read
    and what is still to come, however that is cut. -/
theorem pull_fst {ask : List β → ℕ} (hask : ∀ {got}, F.IsPart got → 0 < ask got ∧
    ask got ≤ F.room got) {fuel : ℕ} {got : List β} {src : Source β} (hgot : F.IsPart got)
    (hfuel : src.rest.length < fuel) :
    (F.pull ask fuel got src).1 = (F.next (got ++ src.rest)).map (·.1) := by
  induction fuel generalizing got src with
  | zero => omega
  | succ fuel ih =>
    obtain ⟨hpos, hle⟩ := hask hgot
    have happend := src.read_append (ask got)
    have hlen := src.read_length_add (ask got)
    have hpiece := src.read_length_le (ask got)
    rw [pull]
    split
    · rename_i hempty
      rw [List.isEmpty_iff] at hempty
      rw [(Source.read_eq_nil hpos).1 hempty, List.append_nil, next_of_isPart hgot]
      rfl
    · rename_i hne
      have hlt : 0 < (src.read (ask got)).1.length := by
        rw [List.length_pos_iff]
        simpa using hne
      -- What was read is part of a frame, or begins with a frame, or cannot go on as one.
      rw [← happend, ← List.append_assoc]
      rcases progress_spec hgot (Nat.le_trans hpiece hle) with
        ⟨hp, hmore⟩ | ⟨hp, hframe⟩ | ⟨hp, hr, ha⟩
      · rw [hp]
        exact ih hmore (by omega)
      · rw [hp, next_append hframe]
        rfl
      · rw [hp, next_of_refused hr ha]
        rfl

end FrameFormat
