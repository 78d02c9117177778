import SecureTunnel.General.Pull
import SecureTunnel.Core.Frame

/-!
# Reading frames

The readers of the relay, the same on client and server, over a transport that
cuts its stream into reads as it likes. Beside its result, a reader reports the
largest buffer it sized.

* `readRecordFrame_result`: what one call returns is the first step of the
  leftmost parse of what is still to be read, whatever the cuts.
* `readRecords_parse`: repeated calls return the leftmost parse of the stream.
* `readHandshakeFrame_append`: a handshake frame is read off the front of the
  stream exactly when the slice decoder accepts it.
-/

namespace SecureTunnel

/-- The errors of a read. -/
inductive StreamError
  /-- An error of the transport, with its text. -/
  | io (display : Text)
  /-- The end of the stream inside a frame. -/
  | eof
  | invalidLength (length : ℕ)
  | oversized
  deriving DecidableEq, Repr

def StreamError.display : StreamError → Text
  | io display => display
  | eof => "early eof".toList
  | invalidLength length => "invalid frame length ".toList ++ digits length
  | oversized => "received oversized protocol frame".toList

/-- The end of a read: its result, what is left of the stream, and the size of
    the largest buffer. -/
structure Reading (α : Type*) where
  result : Except StreamError α
  source : Source UInt8
  buffer : ℕ

/-- `read_record_frame` -/
def readRecordFrame (src : Source UInt8) : Reading (Option Bytes) :=
  -- One byte first: the end of the stream before it is a clean one.
  let first := src.read 1
  if first.1.isEmpty then ⟨.ok none, first.2, 4⟩
  else
    match first.2.readExact 3 with
    | (none, src) => ⟨.error .eof, src, 4⟩
    | (some more, src) =>
      let header := first.1 ++ more
      let length := ofBigEndian header
      if length = 0 ∨ maxCiphertextRecord < length then ⟨.error (.invalidLength length), src, 4⟩
      else
        match src.readExact length with
        | (none, src) => ⟨.error .eof, src, 4 + length⟩
        | (some body, src) => ⟨.ok (some (header ++ body)), src, 4 + length⟩

/-- `read_length_framed` -/
def readLengthFramed (src : Source UInt8) (headerLen maximum : ℕ) : Reading Bytes :=
  match src.readExact headerLen with
  | (none, src) => ⟨.error .eof, src, headerLen⟩
  | (some header, src) =>
    let length :=
      if headerLen = 2 then ofBigEndian (header.take 2) else ofBigEndian (header.take 4)
    if maximum < length then ⟨.error .oversized, src, headerLen⟩
    else
      match src.readExact length with
      | (none, src) => ⟨.error .eof, src, headerLen + length⟩
      | (some body, src) => ⟨.ok (header ++ body), src, headerLen + length⟩

/-- `read_handshake_frame` -/
def readHandshakeFrame (src : Source UInt8) : Reading Bytes :=
  readLengthFramed src 2 maxHandshakeMessage

/-! ## One record -/

/-- What a call returns, given what is still to be read: the first frame, the
    clean end of the stream, or why there is no frame. -/
def recordResult (s : Bytes) : Except StreamError (Option Bytes) :=
  match recordFormat.next s with
  | .ok (frame, _) => .ok (some frame)
  | .error .clean => .ok none
  | .error .truncated => .error .eof
  | .error .refused => .error (.invalidLength (ofBigEndian (s.take 4)))

/-- The source after a successful read of everything asked for. -/
theorem Source.exists_readExact {src : Source UInt8} {need : ℕ} (h : need ≤ src.rest.length) :
    ∃ src', src.readExact need = (some (src.rest.take need), src') ∧
      src'.rest = src.rest.drop need := by
  obtain ⟨hsome, hrest⟩ := src.readExact_of_le h
  exact ⟨_, Prod.ext hsome rfl, hrest⟩

/-- The source after a read that hits the end of the stream. -/
theorem Source.exists_readExact_none {src : Source UInt8} {need : ℕ} (h : src.rest.length < need) :
    ∃ src', src.readExact need = (none, src') :=
  ⟨_, Prod.ext (src.readExact_of_lt h) rfl⟩

/-- What one call returns is the first step of the leftmost parse, whatever the
    cuts; where it returns a frame, it has read that frame and no byte beyond. -/
theorem readRecordFrame_spec (src : Source UInt8) :
    (readRecordFrame src).result = recordResult src.rest ∧
      (∀ frame, (readRecordFrame src).result = .ok (some frame) →
        src.rest = frame ++ (readRecordFrame src).source.rest) ∧
      (readRecordFrame src).buffer ≤ 16404 := by
  rcases hs : src.rest with _ | ⟨b, s⟩
  · -- The end of the stream: the first read brings nothing.
    have hfirst := Source.read_of_nil hs 1
    simp [readRecordFrame, hfirst, recordResult, FrameFormat.next]
  obtain ⟨hfirst, hrest⟩ := Source.read_one hs
  rcases Nat.lt_or_ge s.length 3 with hshort | hlong
  · -- The end of the stream inside the header.
    obtain ⟨src₁, hhead⟩ := Source.exists_readExact_none (hrest ▸ hshort)
    have hnext : recordFormat.next (b :: s) = .error .truncated := by
      refine FrameFormat.next_eq_error.2 (.header (List.cons_ne_nil b s) ?_)
      simp only [List.length_cons, recordFormat]
      omega
    simp [readRecordFrame, hfirst, hhead, recordResult, hnext]
  obtain ⟨src₁, hhead, hrest₁⟩ := Source.exists_readExact (hrest ▸ hlong)
  rw [hrest] at hhead hrest₁
  have hwidth : recordFormat.width ≤ (b :: s).length := by
    simp only [List.length_cons, recordFormat]
    omega
  generalize hlength : ofBigEndian (b :: s.take 3) = length
  by_cases hbad : length = 0 ∨ maxCiphertextRecord < length
  · -- The header announces a length that is refused.
    have ha : recordFormat.announced ((b :: s).take 4) = none := by
      rw [List.take_succ_cons, recordFormat]
      simp only [hlength, if_pos hbad]
    have hnext := FrameFormat.next_eq_error.2 (.refused hwidth ha)
    simp [readRecordFrame, hfirst, hhead, hlength, hbad, recordResult, hnext]
  have ha : recordFormat.announced ((b :: s).take 4) = some length := by
    rw [List.take_succ_cons, recordFormat]
    simp only [hlength, if_neg hbad]
  have hmax : 4 + length ≤ 16404 := by
    simp only [maxCiphertextRecord] at hbad
    omega
  rcases Nat.lt_or_ge (s.drop 3).length length with htrunc | hwhole
  · -- The end of the stream inside the body.
    obtain ⟨src₂, hbody⟩ := Source.exists_readExact_none (hrest₁ ▸ htrunc)
    have hnext : recordFormat.next (b :: s) = .error .truncated := by
      refine FrameFormat.next_eq_error.2 (.body hwidth ha ?_)
      rw [List.length_drop] at htrunc
      simp only [List.length_cons, recordFormat]
      omega
    simp [readRecordFrame, hfirst, hhead, hlength, hbad, hbody, recordResult, hnext, hmax]
  · -- A whole frame.
    obtain ⟨src₂, hbody, hrest₂⟩ := Source.exists_readExact (hrest₁ ▸ hwhole)
    rw [hrest₁] at hbody hrest₂
    have hsplit : b :: s = (b :: (s.take 3 ++ (s.drop 3).take length)) ++ src₂.rest := by
      rw [hrest₂, List.cons_append, List.append_assoc, List.take_append_drop,
        List.take_append_drop]
    have hnext : recordFormat.next (b :: s) =
        .ok (b :: (s.take 3 ++ (s.drop 3).take length), src₂.rest) := by
      refine FrameFormat.next_eq_ok.2 ⟨hsplit, FrameFormat.isFrame_iff.2 ⟨length, ?_, ?_⟩⟩
      · rw [show recordFormat.width = 3 + 1 from rfl, List.take_succ_cons,
          List.take_append_of_le_length (by simp; omega), List.take_take, Nat.min_self]
        exact ha
      · rw [List.length_drop] at hwhole
        simp only [List.length_cons, List.length_append, List.length_take, List.length_drop,
          recordFormat]
        omega
    have hread : readRecordFrame src =
        ⟨.ok (some (b :: (s.take 3 ++ (s.drop 3).take length))), src₂, 4 + length⟩ := by
      simp [readRecordFrame, hfirst, hhead, hlength, hbad, hbody]
    rw [hread]
    refine ⟨by simp only [recordResult, hnext], fun frame hframe => ?_, hmax⟩
    obtain rfl := Option.some.inj (Except.ok.inj hframe)
    exact hsplit

/-! ## Await by await

A reader may be interrupted between any two reads. What it holds in between, and
how much it asks for next, is `FrameFormat.pull` with `recordAsk`. -/

/-- The size of the next read of a record: one byte first, then the rest of the
    header, then the body. -/
def recordAsk (got : Bytes) : ℕ := if got.isEmpty then 1 else recordFormat.room got

theorem recordAsk_spec {got : Bytes} (h : recordFormat.IsPart got) :
    0 < recordAsk got ∧ recordAsk got ≤ recordFormat.room got := by
  have hpos := FrameFormat.room_pos h
  rw [recordAsk]
  split <;> omega

/-- `read_record_frame`, taken apart into its reads, returns the same. -/
theorem readRecordFrame_pull (src : Source UInt8) :
    (readRecordFrame src).result =
      match (recordFormat.pull recordAsk (src.rest.length + 1) [] src).1 with
      | .ok frame => .ok (some frame)
      | .error .clean => .ok none
      | .error .truncated => .error .eof
      | .error .refused => .error (.invalidLength (ofBigEndian (src.rest.take 4))) := by
  rw [(readRecordFrame_spec src).1, FrameFormat.pull_fst recordAsk_spec FrameFormat.isPart_nil
    (Nat.lt_succ_self _), List.nil_append, recordResult]
  rcases recordFormat.next src.rest with e | ⟨frame, s⟩
  · cases e <;> rfl
  · rfl

/-! ## All records of a stream -/

/-- What repeated calls return: the frames, and how the last call ended. -/
structure Records where
  frames : List Bytes
  outcome : Except StreamError Unit
  buffer : ℕ

theorem readRecordFrame_length_lt {src : Source UInt8} {frame : Bytes}
    (h : (readRecordFrame src).result = .ok (some frame)) :
    (readRecordFrame src).source.rest.length < src.rest.length := by
  obtain ⟨hresult, happend, -⟩ := readRecordFrame_spec src
  rw [h, recordResult] at hresult
  split at hresult
  · rename_i hnext
    obtain rfl := Option.some.inj (Except.ok.inj hresult)
    have hpos := List.length_pos_iff.2 (FrameFormat.next_eq_ok.1 hnext).2.ne_nil
    have := congrArg List.length (happend _ h)
    rw [List.length_append] at this
    omega
  all_goals cases hresult

/-- `read_record_frame`, until it returns no frame. -/
def readRecords (src : Source UInt8) : Records :=
  match _h : (readRecordFrame src).result with
  | .error e => ⟨[], .error e, (readRecordFrame src).buffer⟩
  | .ok none => ⟨[], .ok (), (readRecordFrame src).buffer⟩
  | .ok (some frame) =>
    let more := readRecords (readRecordFrame src).source
    ⟨frame :: more.frames, more.outcome, max (readRecordFrame src).buffer more.buffer⟩
termination_by src.rest.length
decreasing_by exact readRecordFrame_length_lt _h

theorem readRecords_of_frame {src : Source UInt8} {frame : Bytes}
    (h : (readRecordFrame src).result = .ok (some frame)) :
    (readRecords src).frames = frame :: (readRecords (readRecordFrame src).source).frames ∧
      (readRecords src).outcome = (readRecords (readRecordFrame src).source).outcome ∧
      (readRecords src).buffer =
        max (readRecordFrame src).buffer (readRecords (readRecordFrame src).source).buffer := by
  conv => enter [1, 1]; rw [readRecords]
  conv => enter [2, 1, 1]; rw [readRecords]
  conv => enter [2, 2, 1]; rw [readRecords]
  split <;> simp_all

theorem readRecords_of_end {src : Source UInt8} (h : (readRecordFrame src).result = .ok none) :
    readRecords src = ⟨[], .ok (), (readRecordFrame src).buffer⟩ := by
  rw [readRecords]
  split <;> simp_all

theorem readRecords_of_error {src : Source UInt8} {e : StreamError}
    (h : (readRecordFrame src).result = .error e) :
    readRecords src = ⟨[], .error e, (readRecordFrame src).buffer⟩ := by
  rw [readRecords]
  split <;> simp_all

/-- The ending of a parse that an outcome reports. -/
def ending : Except StreamError Unit → Option FrameFormat.Ending
  | .ok () => some .clean
  | .error .eof => some .truncated
  | .error (.invalidLength _) => some .refused
  | .error _ => none

/-- A call returns the first frame of the parse and leaves the rest, or reports
    how the parse ends. -/
theorem readRecordFrame_cases (src : Source UInt8) :
    (∃ frame, (readRecordFrame src).result = .ok (some frame) ∧ recordFormat.IsFrame frame ∧
      src.rest = frame ++ (readRecordFrame src).source.rest) ∨
    ((readRecordFrame src).result = .ok none ∧ src.rest = []) ∨
    ∃ err e, (readRecordFrame src).result = .error err ∧ ending (.error err) = some e ∧
      recordFormat.Parse src.rest [] e := by
  obtain ⟨hresult, happend, -⟩ := readRecordFrame_spec src
  rw [recordResult] at hresult
  split at hresult
  · rename_i hnext
    exact .inl ⟨_, hresult, (FrameFormat.next_eq_ok.1 hnext).2, happend _ hresult⟩
  · rename_i hnext
    have hclean := (FrameFormat.parse_clean_iff.1 (FrameFormat.next_eq_error.1 hnext)).1
    exact .inr (.inl ⟨hresult, by simpa using hclean⟩)
  · rename_i hnext
    exact .inr (.inr ⟨_, _, hresult, rfl, FrameFormat.next_eq_error.1 hnext⟩)
  · rename_i hnext
    exact .inr (.inr ⟨_, _, hresult, rfl, FrameFormat.next_eq_error.1 hnext⟩)

/-- Repeated calls return the leftmost parse of the stream. -/
theorem readRecords_parse (src : Source UInt8) :
    ∃ e, ending (readRecords src).outcome = some e ∧
      recordFormat.Parse src.rest (readRecords src).frames e := by
  -- By induction on the stream that is left; one call is one step of the parse.
  induction hlen : src.rest.length using Nat.strongRecOn generalizing src with
  | ind n ih =>
    rcases readRecordFrame_cases src with
      ⟨frame, hframe, hf, happend⟩ | ⟨hend, hnil⟩ | ⟨err, e, herr, hending, hparse⟩
    · obtain ⟨hframes, houtcome, -⟩ := readRecords_of_frame hframe
      obtain ⟨e, hending, hparse⟩ := ih _ (hlen ▸ readRecordFrame_length_lt hframe) _ rfl
      rw [houtcome, hframes, happend]
      exact ⟨e, hending, .frame hf hparse⟩
    · rw [readRecords_of_end hend, hnil]
      exact ⟨.clean, rfl, .clean⟩
    · rw [readRecords_of_error herr]
      exact ⟨e, hending, hparse⟩

/-- What repeated calls return depends on the stream alone, not on its cuts. -/
theorem readRecords_congr {src src' : Source UInt8} (h : src.rest = src'.rest) :
    (readRecords src).frames = (readRecords src').frames ∧
      (readRecords src).outcome = (readRecords src').outcome := by
  induction hlen : src.rest.length using Nat.strongRecOn generalizing src src' with
  | ind n ih =>
    have hresult : (readRecordFrame src').result = (readRecordFrame src).result := by
      rw [(readRecordFrame_spec src).1, (readRecordFrame_spec src').1, h]
    rcases readRecordFrame_cases src with
      ⟨frame, hframe, -, happend⟩ | ⟨hend, -⟩ | ⟨err, e, herr, -, -⟩
    · rw [hframe] at hresult
      have hrest := (readRecordFrame_spec src').2.1 frame hresult
      rw [← h, happend, List.append_cancel_left_eq] at hrest
      obtain ⟨hframes, houtcome, -⟩ := readRecords_of_frame hframe
      obtain ⟨hframes', houtcome', -⟩ := readRecords_of_frame hresult
      obtain ⟨hf, ho⟩ := ih _ (hlen ▸ readRecordFrame_length_lt hframe) hrest rfl
      rw [hframes, houtcome, hframes', houtcome', hf, ho]
      exact ⟨rfl, rfl⟩
    · rw [hend] at hresult
      rw [readRecords_of_end hend, readRecords_of_end hresult]
      exact ⟨rfl, rfl⟩
    · rw [herr] at hresult
      rw [readRecords_of_error herr, readRecords_of_error hresult]
      exact ⟨rfl, rfl⟩

theorem readRecords_buffer_le (src : Source UInt8) : (readRecords src).buffer ≤ 16404 := by
  induction hlen : src.rest.length using Nat.strongRecOn generalizing src with
  | ind n ih =>
    have hone := (readRecordFrame_spec src).2.2
    rcases readRecordFrame_cases src with ⟨frame, hframe, -⟩ | ⟨hend, -⟩ | ⟨err, e, herr, -⟩
    · rw [(readRecords_of_frame hframe).2.2]
      exact Nat.max_le.2 ⟨hone, ih _ (hlen ▸ readRecordFrame_length_lt hframe) _ rfl⟩
    · rwa [readRecords_of_end hend]
    · rwa [readRecords_of_error herr]

/-! ## Handshake frames -/

/-- A call returns the first handshake frame of the stream and leaves the rest,
    or fails where there is none. -/
theorem readHandshakeFrame_spec (src : Source UInt8) :
    (∃ f, (readHandshakeFrame src).result = .ok f ∧
      handshakeFormat.next src.rest = .ok (f, (readHandshakeFrame src).source.rest)) ∨
    ∃ err e, (readHandshakeFrame src).result = .error err ∧
      handshakeFormat.next src.rest = .error e := by
  rcases Nat.lt_or_ge src.rest.length 2 with hshort | hlong
  · obtain ⟨src₁, hhead⟩ := Source.exists_readExact_none hshort
    obtain ⟨e, hnext⟩ : ∃ e, handshakeFormat.next src.rest = .error e := by
      rcases hs : src.rest with _ | ⟨b, s⟩
      · exact ⟨.clean, rfl⟩
      · exact ⟨.truncated, FrameFormat.next_eq_error.2
          (.header (List.cons_ne_nil b s) (by simpa [handshakeFormat, hs] using hshort))⟩
    exact .inr ⟨.eof, e, by simp [readHandshakeFrame, readLengthFramed, hhead], hnext⟩
  obtain ⟨src₁, hhead, hrest₁⟩ := Source.exists_readExact hlong
  have htake : (src.rest.take 2).take 2 = src.rest.take 2 := by
    rw [List.take_take, Nat.min_self]
  generalize hlength : ofBigEndian (src.rest.take 2) = length
  by_cases hbad : maxHandshakeMessage < length
  · -- The header announces a length that is refused.
    have ha : handshakeFormat.announced (src.rest.take 2) = none := by
      simp only [handshakeFormat, hlength, if_neg (Nat.not_le.2 hbad)]
    exact .inr ⟨.oversized, .refused,
      by simp [readHandshakeFrame, readLengthFramed, hhead, htake, hlength, hbad],
      FrameFormat.next_eq_error.2 (.refused hlong ha)⟩
  have ha : handshakeFormat.announced (src.rest.take 2) = some length := by
    simp only [handshakeFormat, hlength, if_pos (Nat.not_lt.1 hbad)]
  rcases Nat.lt_or_ge (src.rest.drop 2).length length with htrunc | hwhole
  · -- The end of the stream inside the body.
    obtain ⟨src₂, hbody⟩ := Source.exists_readExact_none (hrest₁ ▸ htrunc)
    rw [List.length_drop] at htrunc
    refine .inr ⟨.eof, .truncated, ?_, FrameFormat.next_eq_error.2 (.body hlong ha ?_)⟩
    · simp [readHandshakeFrame, readLengthFramed, hhead, htake, hlength, hbad, hbody]
    · simp only [handshakeFormat]
      omega
  · -- A whole frame.
    obtain ⟨src₂, hbody, hrest₂⟩ := Source.exists_readExact (hrest₁ ▸ hwhole)
    rw [hrest₁] at hbody hrest₂
    have hread : readHandshakeFrame src =
        ⟨.ok (src.rest.take 2 ++ (src.rest.drop 2).take length), src₂, 2 + length⟩ := by
      simp [readHandshakeFrame, readLengthFramed, hhead, htake, hlength, hbad, hbody]
    have hsplit : src.rest = (src.rest.take 2 ++ (src.rest.drop 2).take length) ++ src₂.rest := by
      rw [hrest₂, List.append_assoc, List.take_append_drop, List.take_append_drop]
    rw [hread]
    refine .inl ⟨_, rfl, FrameFormat.next_eq_ok.2 ⟨hsplit, FrameFormat.isFrame_iff.2
      ⟨length, ?_, ?_⟩⟩⟩
    · rw [show handshakeFormat.width = 2 from rfl,
        List.take_append_of_le_length (by simp; omega), htake, ha]
    · rw [List.length_drop] at hwhole
      simp only [List.length_append, List.length_take, List.length_drop, handshakeFormat]
      omega

/-- A handshake frame is read off the front of a stream exactly when the slice
    decoder accepts it. -/
theorem readHandshakeFrame_append {src : Source UInt8} {f rest : Bytes}
    (h : src.rest = f ++ rest) :
    ((readHandshakeFrame src).result = .ok f ∧ (readHandshakeFrame src).source.rest = rest) ↔
      ∃ body, decodeHandshakeFrame f = .ok body := by
  constructor
  · rintro ⟨hresult, hrest⟩
    rcases readHandshakeFrame_spec src with ⟨f', hf', hnext⟩ | ⟨err, e, herr, -⟩
    · obtain rfl := Except.ok.inj (hf'.symm.trans hresult)
      exact ⟨_, decodeHandshakeFrame_eq_ok.2 ⟨(FrameFormat.next_eq_ok.1 hnext).2, rfl⟩⟩
    · rw [herr] at hresult
      cases hresult
  · rintro ⟨body, hbody⟩
    have hnext := FrameFormat.next_append (decodeHandshakeFrame_eq_ok.1 hbody).1 rest
    rw [← h] at hnext
    rcases readHandshakeFrame_spec src with ⟨f', hf', hnext'⟩ | ⟨err, e, -, herr⟩
    · rw [hnext, Except.ok.injEq, Prod.mk.injEq] at hnext'
      rw [hf', ← hnext'.1, ← hnext'.2]
      exact ⟨rfl, rfl⟩
    · rw [hnext] at herr
      cases herr

/-! ## The framing of a stream -/

/-- A position of a stream, not its end, at which no frame starts: the header is
    cut short, or announces a length of 0 or above 16400, or the body is cut short. -/
def BadPosition (s : Bytes) : Prop :=
  s ≠ [] ∧ (s.length < 4 ∨ ofBigEndian (s.take 4) = 0 ∨ 16400 < ofBigEndian (s.take 4) ∨
    s.length < 4 + ofBigEndian (s.take 4))

/-- At a bad position, and nowhere else, a parse stops without being at the end. -/
theorem badPosition_iff {s : Bytes} :
    BadPosition s ↔ recordFormat.Parse s [] .truncated ∨ recordFormat.Parse s [] .refused := by
  constructor
  · rintro ⟨hne, hbad⟩
    rcases Nat.lt_or_ge s.length 4 with hshort | hlong
    · exact .inl (.header hne hshort)
    by_cases hlength : ofBigEndian (s.take 4) = 0 ∨ maxCiphertextRecord < ofBigEndian (s.take 4)
    · exact .inr (.refused hlong (if_pos hlength))
    · refine .inl (.body hlong (if_neg hlength) ?_)
      simp only [maxCiphertextRecord, recordFormat] at hlength ⊢
      omega
  · rintro (h | h)
    · cases h with
      | header hne hlt => exact ⟨hne, .inl hlt⟩
      | body hle ha hlt =>
        simp only [recordFormat] at hle ha hlt
        split at ha
        · cases ha
        · cases ha
          exact ⟨by rintro rfl; simp at hle, .inr (.inr (.inr hlt))⟩
    · cases h with
      | refused hle ha =>
        simp only [recordFormat] at hle ha
        split at ha
        · rename_i hlength
          exact ⟨by rintro rfl; simp at hle, .inr (hlength.imp_right .inl)⟩
        · cases ha

/-- For every stream and all its cuts, repeated reading is its unique leftmost
    parse: it ends without a frame exactly when the stream is a concatenation of
    frames, and with an error exactly when some position after its frames is bad;
    no call reads beyond the frame it returns, or sizes a buffer above 16404
    bytes; the slice decoder accepts every frame, with the same body. A handshake
    frame is read exactly when the slice decoder accepts it; after the preface
    and a handshake frame, reading the records starts at the first of them. -/
theorem stream_framing (s : Bytes) (cuts : ℕ → ℕ) :
    let records := readRecords (.ofList s cuts)
    (∀ cuts', (readRecords (.ofList s cuts')).frames = records.frames ∧
      (readRecords (.ofList s cuts')).outcome = records.outcome) ∧
    (∃ e, ending records.outcome = some e ∧ recordFormat.Parse s records.frames e ∧
      ∀ fs e', recordFormat.Parse s fs e' → fs = records.frames ∧ e' = e) ∧
    (records.outcome = .ok () ↔ ∃ fs : List Bytes, s = fs.flatten ∧
      ∀ f ∈ fs, recordFormat.IsFrame f) ∧
    ((∃ e, records.outcome = .error e) ↔ ∃ (fs : List Bytes) (s' : Bytes), s = fs.flatten ++ s' ∧
      (∀ f ∈ fs, recordFormat.IsFrame f) ∧ BadPosition s') ∧
    records.buffer ≤ 16404 ∧
    (∀ f ∈ records.frames, decodeRecordFrame f = .ok (f.drop 4)) ∧
    (∀ src frame, (readRecordFrame src).result = .ok (some frame) →
      src.rest = frame ++ (readRecordFrame src).source.rest) ∧
    (∀ (src : Source UInt8) f rest, src.rest = f ++ rest →
      ((readHandshakeFrame src).result = .ok f ∧ (readHandshakeFrame src).source.rest = rest ↔
        ∃ body, decodeHandshakeFrame f = .ok body)) ∧
    ∀ (src : Source UInt8) f body, src.rest = prefaceBytes ++ (f ++ s) →
      decodeHandshakeFrame f = .ok body →
      let preface := src.readExact 6
      let handshake := readHandshakeFrame preface.2
      preface.1 = some prefaceBytes ∧ handshake.result = .ok f ∧
        (readRecords handshake.source).frames = records.frames ∧
        (readRecords handshake.source).outcome = records.outcome := by
  intro records
  obtain ⟨e, hending, hparse⟩ := readRecords_parse (.ofList s cuts)
  have hunique : ∀ {fs e'}, recordFormat.Parse s fs e' → fs = records.frames ∧ e' = e :=
    fun h => h.unique hparse
  refine ⟨fun cuts' => readRecords_congr rfl, ⟨e, hending, hparse, fun fs e' => hunique⟩, ?_, ?_,
    readRecords_buffer_le _, fun f hf => decodeRecordFrame_of_isFrame (hparse.frames.2 f hf),
    fun src => (readRecordFrame_spec src).2.1, fun src f rest => readHandshakeFrame_append, ?_⟩
  · -- A clean outcome is a clean parse.
    constructor
    · intro hok
      rw [hok] at hending
      obtain rfl := Option.some.inj hending
      exact ⟨_, FrameFormat.parse_clean_iff.1 hparse⟩
    · rintro ⟨fs, hfs⟩
      obtain ⟨-, rfl⟩ := hunique (FrameFormat.parse_clean_iff.2 hfs)
      rcases hout : (readRecords (.ofList s cuts)).outcome with err | _
      · rw [hout] at hending
        cases err <;> cases hending
      · rfl
  · -- A parse that is not clean stops at a bad position.
    constructor
    · rintro ⟨err, herr⟩
      obtain ⟨s', hsplit, hfs, hs'⟩ := FrameFormat.parse_split_iff.1 hparse
      refine ⟨_, s', hsplit, hfs, badPosition_iff.2 ?_⟩
      rw [herr] at hending
      cases err <;> cases hending
      · exact .inl hs'
      · exact .inr hs'
    · rintro ⟨fs, s', hsplit, hfs, hbad⟩
      obtain ⟨e', he', hs'⟩ : ∃ e', e' ≠ .clean ∧ recordFormat.Parse s' [] e' := by
        rcases badPosition_iff.1 hbad with h | h
        · exact ⟨_, by decide, h⟩
        · exact ⟨_, by decide, h⟩
      obtain ⟨-, rfl⟩ := hunique (FrameFormat.parse_split_iff.2 ⟨s', hsplit, hfs, hs'⟩)
      rcases hout : (readRecords (.ofList s cuts)).outcome with err | _
      · exact ⟨err, rfl⟩
      · rw [hout] at hending
        exact absurd (Option.some.inj hending).symm he'
  · intro src f body hsrc hbody preface handshake
    obtain ⟨hpreface, hrest⟩ := src.readExact_append hsrc
    obtain ⟨hresult, hleft⟩ := (readHandshakeFrame_append hrest).2 ⟨body, hbody⟩
    exact ⟨hpreface, hresult, readRecords_congr hleft⟩

end SecureTunnel
