import SecureTunnel.General.BigEndian
import SecureTunnel.General.Framing
import SecureTunnel.Core.Error

/-!
# The wire format

The clear preface, and the two framings: handshake messages behind a `u16`
length, transport records behind a `u32` length, both big-endian.

`decodeHandshakeFrame` and `decodeRecordFrame` take whole slices; both are
`decodeFrame`, which accepts a slice exactly when its header announces the rest
of it, within the maximum (`decodeFrame_eq_ok`).
-/

namespace SecureTunnel

abbrev Bytes := List UInt8

/-! ## The preface -/

/-- `PREFACE`: `CDXT`, and the version 1.0. -/
def prefaceBytes : Bytes := [0x43, 0x44, 0x58, 0x54, 1, 0]

inductive Preface
  | v1
  deriving DecidableEq, Repr

namespace Preface

def encode : Preface → Bytes
  | v1 => prefaceBytes

def parse (value : Bytes) : Except TunnelError Preface :=
  if value.length ≠ prefaceBytes.length ∨ value.take 4 ≠ prefaceBytes.take 4 then
    .error .invalidPreface
  else if value.getD 4 0 ≠ 1 then
    .error (.unsupportedVersion (value.getD 4 0) (value.getD 5 0))
  else if value.getD 5 0 ≠ 0 then
    .error (.unsupportedVersion (value.getD 4 0) (value.getD 5 0))
  else .ok v1

/-- Only the six bytes of version 1.0 are a preface. -/
theorem parse_eq_ok {value : Bytes} {p : Preface} : parse value = .ok p ↔ value = p.encode := by
  cases p
  constructor
  · intro h
    unfold parse at h
    split at h
    · cases h
    split at h
    · cases h
    split at h
    · cases h
    rename_i h₄ h₅ h₆
    push Not at h₄ h₅ h₆
    match value, h₄.1 with
    | [a, b, c, d, e, f], _ => simp_all [prefaceBytes, encode]
  · rintro rfl
    decide

end Preface

/-! ## Frames -/

/-- `encode_handshake_frame` -/
def encodeHandshakeFrame (message : Bytes) : Except TunnelError Bytes :=
  if maxHandshakeMessage < message.length then
    .error (.handshakeMessageTooLarge message.length)
  else if 2 ^ 16 ≤ message.length then
    .error (.handshakeMessageTooLarge message.length)
  else .ok (bigEndian 2 message.length ++ message)

/-- `decode_frame`: the body of a slice that is one whole frame. -/
def decodeFrame (frame : Bytes) (headerLen maximum : ℕ) (handshake : Bool) :
    Except TunnelError Bytes :=
  if frame.length < headerLen then .error (.truncatedFrame headerLen frame.length)
  else
    let claimed :=
      if headerLen = 2 then ofBigEndian (frame.take 2) else ofBigEndian (frame.take 4)
    if maximum < claimed then
      .error (if handshake then .handshakeMessageTooLarge claimed else .ciphertextTooLarge claimed)
    else if frame.length < headerLen + claimed then
      .error (.truncatedFrame (headerLen + claimed) frame.length)
    else if headerLen + claimed < frame.length then .error .trailingFrameBytes
    else .ok (frame.drop headerLen)

/-- `decode_handshake_frame` -/
def decodeHandshakeFrame (frame : Bytes) : Except TunnelError Bytes :=
  decodeFrame frame 2 maxHandshakeMessage true

/-- `decode_record_frame` -/
def decodeRecordFrame (frame : Bytes) : Except TunnelError Bytes :=
  decodeFrame frame 4 maxCiphertextRecord false

/-- A slice is accepted exactly when its header announces the rest of it. -/
theorem decodeFrame_eq_ok {frame body : Bytes} {headerLen maximum : ℕ} {handshake : Bool}
    (hw : headerLen = 2 ∨ headerLen = 4) :
    decodeFrame frame headerLen maximum handshake = .ok body ↔
      headerLen ≤ frame.length ∧ ofBigEndian (frame.take headerLen) = frame.length - headerLen ∧
        frame.length - headerLen ≤ maximum ∧ body = frame.drop headerLen := by
  have hclaimed : (if headerLen = 2 then ofBigEndian (frame.take 2)
      else ofBigEndian (frame.take 4)) = ofBigEndian (frame.take headerLen) := by
    rcases hw with rfl | rfl <;> rfl
  unfold decodeFrame
  simp only [hclaimed]
  split
  · simp; omega
  split
  · simp; omega
  split
  · simp; omega
  split
  · simp; omega
  · rw [Except.ok.injEq]
    constructor
    · rintro rfl
      exact ⟨by omega, by omega, by omega, rfl⟩
    · rintro ⟨-, -, -, rfl⟩
      rfl

/-- The errors by which a slice is rejected as a malformed frame. -/
def TunnelError.malformed : TunnelError → Bool
  | .handshakeMessageTooLarge _ | .ciphertextTooLarge _ | .truncatedFrame .. |
    .trailingFrameBytes => true
  | _ => false

theorem decodeFrame_error {frame : Bytes} {headerLen maximum : ℕ} {handshake : Bool}
    {e : TunnelError} (h : decodeFrame frame headerLen maximum handshake = .error e) :
    e.malformed := by
  unfold decodeFrame at h
  generalize (if headerLen = 2 then ofBigEndian (frame.take 2)
    else ofBigEndian (frame.take 4)) = claimed at h
  split at h
  · cases h; rfl
  dsimp only at h
  split at h
  · cases h; cases handshake <;> rfl
  split at h
  · cases h; rfl
  split at h
  · cases h; rfl
  · cases h

/-- The handshake framing: a `u16` length of at most 4096. -/
def handshakeFormat : FrameFormat UInt8 where
  width := 2
  width_pos := by decide
  announced header :=
    if ofBigEndian header ≤ maxHandshakeMessage then some (ofBigEndian header) else none

/-- The record framing: a `u32` length from 1 to 16400. -/
def recordFormat : FrameFormat UInt8 where
  width := 4
  width_pos := by decide
  announced header :=
    if ofBigEndian header = 0 ∨ maxCiphertextRecord < ofBigEndian header then none
    else some (ofBigEndian header)

/-- The decoder of handshake slices accepts exactly the frames of the format. -/
theorem decodeHandshakeFrame_eq_ok {frame body : Bytes} :
    decodeHandshakeFrame frame = .ok body ↔
      handshakeFormat.IsFrame frame ∧ body = frame.drop 2 := by
  rw [decodeHandshakeFrame, decodeFrame_eq_ok (.inl rfl), FrameFormat.IsFrame]
  simp only [handshakeFormat]
  split
  · simp only [Option.some.injEq]
    grind
  · simp only [reduceCtorEq, and_false, false_and, iff_false]
    grind

/-- The frame of a handshake message. -/
def handshakeFrame (message : Bytes) : Bytes := bigEndian 2 message.length ++ message

/-- A slice with a message is the frame of that message. -/
theorem decodeHandshakeFrame_iff {frame message : Bytes} :
    decodeHandshakeFrame frame = .ok message ↔
      frame = handshakeFrame message ∧ message.length ≤ maxHandshakeMessage := by
  rw [decodeHandshakeFrame, decodeFrame_eq_ok (.inl rfl)]
  constructor
  · rintro ⟨hle, hclaimed, hmax, rfl⟩
    refine ⟨?_, by simpa using hmax⟩
    have htake : (frame.take 2).length = 2 := by simp; omega
    rw [handshakeFrame, List.length_drop, ← hclaimed]
    conv => rhs; lhs; lhs; rw [← htake]
    rw [bigEndian_ofBigEndian, List.take_append_drop]
  · rintro ⟨rfl, hmax⟩
    have hlt : message.length < 256 ^ 2 := by
      simp only [maxHandshakeMessage] at hmax
      omega
    have hlen : (handshakeFrame message).length = 2 + message.length := by simp [handshakeFrame]
    rw [hlen]
    refine ⟨by omega, ?_, by omega, by simp [handshakeFrame]⟩
    simp [handshakeFrame, ofBigEndian_bigEndian_of_lt hlt]

theorem decodeRecordFrame_eq_ok {frame body : Bytes} :
    decodeRecordFrame frame = .ok body ↔
      4 ≤ frame.length ∧ ofBigEndian (frame.take 4) = frame.length - 4 ∧
        frame.length - 4 ≤ maxCiphertextRecord ∧ body = frame.drop 4 :=
  decodeFrame_eq_ok (.inr rfl)

/-- The decoder of record slices accepts the frames of the format, and also an
    empty record. -/
theorem decodeRecordFrame_of_isFrame {frame : Bytes} (h : recordFormat.IsFrame frame) :
    decodeRecordFrame frame = .ok (frame.drop 4) := by
  obtain ⟨hle, ha⟩ := h
  rw [decodeRecordFrame_eq_ok]
  simp only [recordFormat] at hle ha
  split at ha
  · cases ha
  · rw [Option.some.injEq] at ha
    exact ⟨hle, ha, by omega, rfl⟩

/-- The frame of a record's ciphertext. -/
def recordFrame (ciphertext : Bytes) : Bytes := bigEndian 4 ciphertext.length ++ ciphertext

theorem length_recordFrame (c : Bytes) : (recordFrame c).length = 4 + c.length := by
  simp [recordFrame]

theorem isFrame_recordFrame {c : Bytes} (hpos : c ≠ []) (hle : c.length ≤ maxCiphertextRecord) :
    recordFormat.IsFrame (recordFrame c) := by
  have hlt : c.length < 256 ^ 4 := by
    simp only [maxCiphertextRecord] at hle
    omega
  have hc := List.length_pos_iff.2 hpos
  have htake : (recordFrame c).take 4 = bigEndian 4 c.length := by
    simp [recordFrame]
  refine ⟨by simp [recordFormat, length_recordFrame], ?_⟩
  simp only [recordFormat]
  rw [htake, ofBigEndian_bigEndian_of_lt hlt, if_neg (by omega), length_recordFrame]
  congr 1
  omega

/-- A slice with a body is the frame of that body. -/
theorem decodeRecordFrame_iff {frame body : Bytes} :
    decodeRecordFrame frame = .ok body ↔
      frame = recordFrame body ∧ body.length ≤ maxCiphertextRecord := by
  rw [decodeRecordFrame_eq_ok]
  constructor
  · rintro ⟨hle, hclaimed, hmax, rfl⟩
    refine ⟨?_, by simpa using hmax⟩
    have htake : (frame.take 4).length = 4 := by simp; omega
    rw [recordFrame, List.length_drop, ← hclaimed]
    conv => rhs; lhs; lhs; rw [← htake]
    rw [bigEndian_ofBigEndian, List.take_append_drop]
  · rintro ⟨rfl, hmax⟩
    have hlt : body.length < 256 ^ 4 := by
      simp only [maxCiphertextRecord] at hmax
      omega
    rw [length_recordFrame]
    refine ⟨by omega, ?_, by omega, by simp [recordFrame]⟩
    simp [recordFrame, ofBigEndian_bigEndian_of_lt hlt]

end SecureTunnel
