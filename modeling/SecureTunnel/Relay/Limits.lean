import SecureTunnel.Core.Record
import SecureTunnel.Relay.Reader

/-!
# Limits of sender and receiver

Sealing, the two readers and the two decoders check their lengths apart from each
other: 16384 bytes of plaintext, 16400 of ciphertext, a record that is not empty,
and 4096 bytes of handshake message. They agree (`limits_agree`): what one end may
send, the other accepts, and a record that authenticates never closes its session.
-/

namespace SecureTunnel

variable {Key : Type*}

/-- What `snow` promises of its transport messages: the tag is 16 bytes, a message
    of at most 65535 bytes can be written into a buffer that has room for it, and
    is read back under the same key and nonce. -/
structure Aead.Lawful (aead : Aead Key) : Prop where
  encrypt_ok : ∀ (key : Key) (nonce : ℕ) {payload : Bytes} {room : ℕ},
    payload.length + tagLength ≤ room → payload.length + tagLength ≤ 65535 →
    ∃ out, aead.encrypt key nonce payload room = .ok out
  encrypt_length : ∀ {key : Key} {nonce : ℕ} {payload : Bytes} {room : ℕ} {out : Filled room},
    aead.encrypt key nonce payload room = .ok out → out.1.length = payload.length + tagLength
  decrypt_length : ∀ {key : Key} {nonce : ℕ} {message : Bytes} {room : ℕ} {out : Filled room},
    aead.decrypt key nonce message room = .ok out →
      tagLength ≤ message.length ∧ out.1.length = message.length - tagLength
  decrypt_encrypt : ∀ {key : Key} {nonce : ℕ} {payload : Bytes} {room : ℕ} {out : Filled room},
    aead.encrypt key nonce payload room = .ok out → ∀ {room' : ℕ}, payload.length ≤ room' →
      ∃ out', aead.decrypt key nonce out.1 room' = .ok out' ∧ out'.1 = payload

/-- A cipher to compute with: it appends a tag of one byte repeated. -/
def Aead.tagged (tag : Key → ℕ → UInt8) : Aead Key where
  encrypt key nonce payload room :=
    let out := payload ++ List.replicate tagLength (tag key nonce)
    if h : out.length ≤ room then .ok ⟨out, h⟩ else .error (.other "input error".toList)
  decrypt key nonce message room :=
    let payload := message.take (message.length - tagLength)
    if h : message = payload ++ List.replicate tagLength (tag key nonce) ∧
        payload.length ≤ room then
      .ok ⟨payload, h.2⟩
    else .error .decrypt

theorem Aead.lawful_tagged (tag : Key → ℕ → UInt8) : (Aead.tagged tag).Lawful where
  encrypt_ok key nonce payload room hroom _ := by
    have h : (payload ++ List.replicate tagLength (tag key nonce)).length ≤ room := by
      rwa [List.length_append, List.length_replicate]
    exact ⟨_, dif_pos h⟩
  encrypt_length h := by
    simp only [tagged] at h
    split at h
    · cases h
      rw [List.length_append, List.length_replicate]
    · cases h
  decrypt_length {key nonce message room out} h := by
    simp only [tagged] at h
    split at h
    · rename_i hmessage
      cases h
      have hlen := congrArg List.length hmessage.1
      rw [List.length_append, List.length_replicate, List.length_take] at hlen
      rw [List.length_take]
      omega
    · cases h
  decrypt_encrypt {key nonce payload room out} h room' hroom' := by
    simp only [tagged] at h
    split at h
    · cases h
      have hlen : (payload ++ List.replicate tagLength (tag key nonce)).length - tagLength =
          payload.length := by
        rw [List.length_append, List.length_replicate, Nat.add_sub_cancel]
      have htake : (payload ++ List.replicate tagLength (tag key nonce)).take
          ((payload ++ List.replicate tagLength (tag key nonce)).length - tagLength) = payload := by
        rw [hlen, List.take_left]
      refine ⟨⟨payload, hroom'⟩, ?_, rfl⟩
      simp only [tagged, htake]
      exact dif_pos ⟨trivial, hroom'⟩
    · cases h

variable {aead : Aead Key}

/-- A plaintext within the limit is sealed, as a frame of the record format. -/
theorem sealRecord_ok (haead : aead.Lawful) {t : TransportState Key} {plaintext : Bytes}
    (hlen : plaintext.length ≤ maxPlaintextRecord) (hnonce : t.send.nonce < nonceLimit) :
    ∃ c : Filled (plaintext.length + tagLength),
      aead.encrypt t.send.key t.send.nonce plaintext (plaintext.length + tagLength) = .ok c ∧
      sealRecord aead (Cell.new t) plaintext =
        (.ok (recordFrame c.1), Cell.new { t with send := ⟨t.send.key, t.send.nonce + 1⟩ }) ∧
      c.1 ≠ [] ∧ c.1.length ≤ maxCiphertextRecord := by
  have hmax : plaintext.length + tagLength ≤ maxCiphertextRecord := by
    simp only [maxPlaintextRecord] at hlen
    simp only [tagLength, maxCiphertextRecord]
    omega
  obtain ⟨c, hc⟩ := haead.encrypt_ok t.send.key t.send.nonce (Nat.le_refl _)
    (Nat.le_trans hmax (by decide))
  have huse : t.send.use (fun key nonce =>
      aead.encrypt key nonce plaintext (plaintext.length + tagLength)) =
      .ok (c, ⟨t.send.key, t.send.nonce + 1⟩) := CipherState.use_eq_ok.2 ⟨hnonce, hc, rfl⟩
  have houtcome : sealOutcome aead t.send plaintext =
      .done (recordFrame c.1) ⟨t.send.key, t.send.nonce + 1⟩ := by
    rw [sealOutcome, if_neg (Nat.not_lt.2 hlen), huse]
  have hlength := haead.encrypt_length hc
  refine ⟨c, hc, ?_, ?_, Nat.le_trans (Nat.le_of_eq hlength) hmax⟩
  · rw [sealRecord_live, houtcome]
    rfl
  · refine List.ne_nil_of_length_pos ?_
    rw [hlength]
    exact Nat.add_pos_right _ (by decide)

/-- A record that authenticates is opened, and leaves the session open. -/
theorem openRecord_ok {t : TransportState Key} {frame ciphertext : Bytes}
    {out : Filled (ciphertext.length - tagLength)}
    (hdecode : decodeRecordFrame frame = .ok ciphertext) (hnonce : t.recv.nonce < nonceLimit)
    (hdecrypt : aead.decrypt t.recv.key t.recv.nonce ciphertext (ciphertext.length - tagLength) =
      .ok out) :
    openRecord aead (Cell.new t) frame =
      (.ok out.1, Cell.new { t with recv := ⟨t.recv.key, t.recv.nonce + 1⟩ }) := by
  have huse : t.recv.use (fun key nonce =>
      aead.decrypt key nonce ciphertext (ciphertext.length - tagLength)) =
      .ok (out, ⟨t.recv.key, t.recv.nonce + 1⟩) := CipherState.use_eq_ok.2 ⟨hnonce, hdecrypt, rfl⟩
  have houtcome : openOutcome aead t.recv frame =
      .done out.1 ⟨t.recv.key, t.recv.nonce + 1⟩ := by
    simp only [openOutcome, hdecode, huse]
  rw [openRecord_live, houtcome]
  rfl

/-- The reader of records accepts a record within the limits, and reads no further. -/
theorem readRecordFrame_append {src : Source UInt8} {c more : Bytes} (hne : c ≠ [])
    (hle : c.length ≤ maxCiphertextRecord) (h : src.rest = recordFrame c ++ more) :
    (readRecordFrame src).result = .ok (some (recordFrame c)) ∧
      (readRecordFrame src).source.rest = more := by
  obtain ⟨hresult, happend, -⟩ := readRecordFrame_spec src
  have hframe : (readRecordFrame src).result = .ok (some (recordFrame c)) := by
    rw [hresult, recordResult, h, FrameFormat.next_append (isFrame_recordFrame hne hle)]
  refine ⟨hframe, ?_⟩
  have hrest := happend _ hframe
  rw [h] at hrest
  exact (List.append_cancel_left hrest).symm

/-- After the cipher was used, the length checks of `seal_record` never fire. -/
theorem sealRecord_ne_tooLarge (cell : Cell Key) (plaintext : Bytes) (n : ℕ) :
    (sealRecord aead cell plaintext).1 ≠ .error (.ciphertextTooLarge n) := by
  obtain ⟨poisoned, state⟩ := cell
  cases poisoned with
  | true =>
    rw [sealRecord]
    split <;> simp
  | false =>
    cases state with
    | none =>
      rw [sealRecord_closed]
      split <;> simp
    | some t =>
      have hlive := sealRecord_live aead t plaintext
      rw [Cell.new] at hlive
      rw [hlive, sealOutcome]
      split
      · simp [Outcome.result]
      · split <;> simp [Outcome.result]

/-- Nor does that of `open_record`; a frame with too long a body is rejected before. -/
theorem openRecord_ne_tooLarge (cell : Cell Key) (frame : Bytes) (n : ℕ) :
    (openRecord aead cell frame).1 ≠ .error (.plaintextTooLarge n) := by
  -- Decoding the frame has its own error for a body that is too long.
  have hdecode : ∀ e, decodeRecordFrame frame = .error e → e ≠ .plaintextTooLarge n := by
    rintro e he rfl
    exact absurd (decodeFrame_error he) (by simp [TunnelError.malformed])
  obtain ⟨poisoned, state⟩ := cell
  cases poisoned with
  | true =>
    rw [openRecord]
    split
    · rename_i e he
      simpa using hdecode e he
    · simp
  | false =>
    cases state with
    | none =>
      rw [openRecord_closed]
      dsimp only
      split
      · rename_i e he
        simpa using hdecode e he
      · simp
    | some t =>
      have hlive := openRecord_live aead t frame
      rw [Cell.new] at hlive
      rw [hlive, openOutcome]
      split
      · rename_i e he
        simpa [Outcome.result] using hdecode e he
      · split <;> simp [Outcome.result]

/-- A message has a frame exactly if the frame has the message. -/
theorem encodeHandshakeFrame_iff {message frame : Bytes} :
    encodeHandshakeFrame message = .ok frame ↔ decodeHandshakeFrame frame = .ok message := by
  rw [decodeHandshakeFrame_iff, encodeHandshakeFrame]
  by_cases hlen : maxHandshakeMessage < message.length
  · simp only [if_pos hlen, reduceCtorEq, false_iff, not_and]
    exact fun _ => Nat.not_le.2 hlen
  · have hlt : ¬2 ^ 16 ≤ message.length := by
      simp only [maxHandshakeMessage] at hlen
      omega
    rw [if_neg hlen, if_neg hlt, Except.ok.injEq, eq_comm]
    exact (and_iff_left (Nat.not_lt.1 hlen)).symm

/-- Every plaintext that may be sent is sealed, read, decoded and opened by the peer,
    and a longer one is refused with the session as it was; the checks made after
    the cipher was used never fire, so that a record that authenticates is opened;
    and handshake frames are written and read alike. -/
theorem limits_agree (haead : aead.Lawful) :
    (∀ (t peer : TransportState Key) (plaintext : Bytes), plaintext.length ≤ 16384 →
      t.send.nonce < nonceLimit → peer.recv = t.send →
      ∃ frame ciphertext, sealRecord aead (Cell.new t) plaintext =
          (.ok frame, Cell.new { t with send := ⟨t.send.key, t.send.nonce + 1⟩ }) ∧
        (∀ src more, src.rest = frame ++ more →
          (readRecordFrame src).result = .ok (some frame) ∧
            (readRecordFrame src).source.rest = more) ∧
        decodeRecordFrame frame = .ok ciphertext ∧
        openRecord aead (Cell.new peer) frame =
          (.ok plaintext, Cell.new { peer with recv := ⟨t.send.key, t.send.nonce + 1⟩ })) ∧
    (∀ (cell : Cell Key) (plaintext : Bytes), 16384 < plaintext.length →
      sealRecord aead cell plaintext = (.error (.plaintextTooLarge plaintext.length), cell)) ∧
    (∀ (cell : Cell Key) (input : Bytes) (n : ℕ),
      (sealRecord aead cell input).1 ≠ .error (.ciphertextTooLarge n) ∧
        (openRecord aead cell input).1 ≠ .error (.plaintextTooLarge n)) ∧
    (∀ (t : TransportState Key) (frame ciphertext : Bytes)
      (out : Filled (ciphertext.length - tagLength)),
      decodeRecordFrame frame = .ok ciphertext → t.recv.nonce < nonceLimit →
      aead.decrypt t.recv.key t.recv.nonce ciphertext (ciphertext.length - tagLength) = .ok out →
      openRecord aead (Cell.new t) frame =
        (.ok out.1, Cell.new { t with recv := ⟨t.recv.key, t.recv.nonce + 1⟩ })) ∧
    ∀ message frame, (encodeHandshakeFrame message = .ok frame ↔
        decodeHandshakeFrame frame = .ok message) ∧
      (encodeHandshakeFrame message = .ok frame → ∀ src more, src.rest = frame ++ more →
        (readHandshakeFrame src).result = .ok frame ∧
          (readHandshakeFrame src).source.rest = more) := by
  refine ⟨?_, ?_, ?_, ?_, ?_⟩
  · intro t peer plaintext hlen hnonce hpeer
    obtain ⟨c, hc, hseal, hne, hle⟩ := sealRecord_ok haead hlen hnonce
    have hdecode : decodeRecordFrame (recordFrame c.1) = .ok c.1 :=
      decodeRecordFrame_iff.2 ⟨rfl, hle⟩
    refine ⟨recordFrame c.1, c.1, hseal, fun src more h => readRecordFrame_append hne hle h,
      hdecode, ?_⟩
    -- The peer makes room for what the ciphertext holds beside its tag.
    have hroom : plaintext.length ≤ c.1.length - tagLength :=
      Nat.le_sub_of_add_le (Nat.le_of_eq (haead.encrypt_length hc).symm)
    obtain ⟨out, hout, hplain⟩ := haead.decrypt_encrypt hc hroom
    rw [← hpeer] at hout hnonce
    rw [openRecord_ok hdecode hnonce hout, hplain, hpeer]
  · intro cell plaintext hlen
    exact if_pos hlen
  · exact fun cell input n =>
      ⟨sealRecord_ne_tooLarge cell input n, openRecord_ne_tooLarge cell input n⟩
  · exact fun t frame ciphertext out hdecode hnonce hdecrypt =>
      openRecord_ok hdecode hnonce hdecrypt
  · refine fun message frame => ⟨encodeHandshakeFrame_iff, fun hencode src more h => ?_⟩
    exact (readHandshakeFrame_append h).2 ⟨message, encodeHandshakeFrame_iff.1 hencode⟩

/-- A record of the greatest length. -/
theorem limits_agree_full :
    let aead := Aead.tagged fun (_ : Unit) nonce => UInt8.ofNat nonce
    let plaintext : Bytes := List.replicate 16384 7
    let cell : Cell Unit := Cell.new (.fresh () ())
    ∃ frame ciphertext, (sealRecord aead cell plaintext).1 = .ok frame ∧
      decodeRecordFrame frame = .ok ciphertext ∧
      (openRecord aead cell frame).1 = .ok plaintext := by
  intro aead plaintext cell
  obtain ⟨frame, ciphertext, hseal, -, hdecode, hopen⟩ :=
    (limits_agree (Aead.lawful_tagged fun (_ : Unit) nonce => UInt8.ofNat nonce)).1
      (.fresh () ()) (.fresh () ()) plaintext (Nat.le_of_eq List.length_replicate) (by decide) rfl
  exact ⟨frame, ciphertext, congrArg Prod.fst hseal, hdecode, congrArg Prod.fst hopen⟩

end SecureTunnel
