import Mathlib.Logic.Function.Basic
import SecureTunnel.Core.Frame

/-!
# Transport records

After the handshake, both directions of a session share one cipher state behind
a mutex: `sealRecord` and `openRecord` take it out, use it, and put it back only
where they succeed. An authentication failure, or any other failure of `snow`,
thereby closes the session for both directions.

`snow` is a parameter: what it encrypts and decrypts at a key and a nonce
(`Aead`) is arbitrary. Its transport state is one cipher per direction, with a
counter that advances by one exactly on success and is refused at its last value.

What a call does to a live session is its `Outcome`, which depends on the cipher
of its own direction alone (`sealRecord_live`, `openRecord_live`): it is
rejected before the cipher is used, `snow` fails, or it is done.
-/

namespace SecureTunnel

/-- What is written into a buffer of `room` bytes. -/
abbrev Filled (room : ℕ) := {out : Bytes // out.length ≤ room}

/-- The authenticated encryption of `snow`: under a key, at a nonce, into a
    buffer of `room` bytes. -/
structure Aead (Key : Type*) where
  encrypt : Key → ℕ → Bytes → (room : ℕ) → Except SnowError (Filled room)
  decrypt : Key → ℕ → Bytes → (room : ℕ) → Except SnowError (Filled room)

/-- The cipher of one direction: its key, and the next nonce. -/
structure CipherState (Key : Type*) where
  key : Key
  nonce : ℕ
  deriving DecidableEq

/-- The last value of the `u64` nonce counter, at which `snow` refuses to work. -/
def nonceLimit : ℕ := 2 ^ 64 - 1

/-- The refusal of the last nonce. -/
def SnowError.exhausted : SnowError := .other "state error: Exhausted".toList

/-- `snow::TransportState` -/
structure TransportState (Key : Type*) where
  send : CipherState Key
  recv : CipherState Key
  deriving DecidableEq

variable {Key : Type*} (aead : Aead Key)

namespace CipherState

/-- An operation of the cipher at its next nonce: on success, the counter advances. -/
def use (c : CipherState Key) {room : ℕ} (op : Key → ℕ → Except SnowError (Filled room)) :
    Except SnowError (Filled room × CipherState Key) :=
  if nonceLimit ≤ c.nonce then .error .exhausted
  else
    match op c.key c.nonce with
    | .error e => .error e
    | .ok out => .ok (out, { c with nonce := c.nonce + 1 })

/-- A successful operation advances the counter by one. -/
theorem use_eq_ok {c c' : CipherState Key} {room : ℕ}
    {op : Key → ℕ → Except SnowError (Filled room)} {out : Filled room} :
    c.use op = .ok (out, c') ↔ c.nonce < nonceLimit ∧ op c.key c.nonce = .ok out ∧
      c' = { c with nonce := c.nonce + 1 } := by
  unfold use
  split
  · simp; omega
  · cases op c.key c.nonce <;> simp [eq_comm]; omega

end CipherState

namespace TransportState

def writeMessage (t : TransportState Key) (payload : Bytes) (room : ℕ) :
    Except SnowError (Filled room × TransportState Key) :=
  match t.send.use fun key nonce => aead.encrypt key nonce payload room with
  | .error e => .error e
  | .ok (out, send) => .ok (out, { t with send })

def readMessage (t : TransportState Key) (message : Bytes) (room : ℕ) :
    Except SnowError (Filled room × TransportState Key) :=
  match t.recv.use fun key nonce => aead.decrypt key nonce message room with
  | .error e => .error e
  | .ok (out, recv) => .ok (out, { t with recv })

/-- The transport of a completed handshake: both counters start at zero. -/
def fresh (sendKey recvKey : Key) : TransportState Key := ⟨⟨sendKey, 0⟩, ⟨recvKey, 0⟩⟩

end TransportState

/-! ## Sealing and opening -/

/-- `Mutex<Option<TransportState>>`: whether a panic poisoned the lock, and the
    state, which is absent once the session is closed. -/
structure Cell (Key : Type*) where
  poisoned : Bool
  state : Option (TransportState Key)
  deriving DecidableEq

/-- The cell of a new session. -/
def Cell.new (t : TransportState Key) : Cell Key := ⟨false, some t⟩

/-- `seal_record` -/
def sealRecord (cell : Cell Key) (plaintext : Bytes) : Except TunnelError Bytes × Cell Key :=
  if maxPlaintextRecord < plaintext.length then
    (.error (.plaintextTooLarge plaintext.length), cell)
  else if cell.poisoned then (.error .poisonedCipherState, cell)
  else
    match cell.state with
    | none => (.error .closedSession, cell)
    | some transport =>
      -- From here on the state is taken: every early return leaves `none` behind.
      let taken := { cell with state := none }
      match transport.writeMessage aead plaintext (plaintext.length + tagLength) with
      | .error e => (.error (.noise e), taken)
      | .ok (ciphertext, transport) =>
        if maxCiphertextRecord < ciphertext.1.length then
          (.error (.ciphertextTooLarge ciphertext.1.length), taken)
        else if 2 ^ 32 ≤ ciphertext.1.length then
          (.error (.ciphertextTooLarge ciphertext.1.length), taken)
        else (.ok (recordFrame ciphertext.1), { taken with state := some transport })

/-- `open_record` -/
def openRecord (cell : Cell Key) (frame : Bytes) : Except TunnelError Bytes × Cell Key :=
  match decodeRecordFrame frame with
  | .error e => (.error e, cell)
  | .ok ciphertext =>
    if cell.poisoned then (.error .poisonedCipherState, cell)
    else
      match cell.state with
      | none => (.error .closedSession, cell)
      | some transport =>
        let taken := { cell with state := none }
        match transport.readMessage aead ciphertext (ciphertext.length - tagLength) with
        | .error e => (.error (.noise e), taken)
        | .ok (plaintext, transport) =>
          if maxPlaintextRecord < plaintext.1.length then
            (.error (.plaintextTooLarge plaintext.1.length), taken)
          else (.ok plaintext.1, { taken with state := some transport })

/-! ## Outcomes -/

/-- What a call does to a live session: it is rejected before the cipher is
    used, `snow` fails, or it yields bytes and leaves the next cipher state. -/
inductive Outcome (Key : Type*)
  | rejected (e : TunnelError)
  | failed (e : SnowError)
  | done (bytes : Bytes) (next : CipherState Key)

namespace Outcome

/-- What the caller gets. -/
def result : Outcome Key → Except TunnelError Bytes
  | rejected e => .error e
  | failed e => .error (.noise e)
  | done bytes _ => .ok bytes

end Outcome

/-- The outcome of sealing, given the sending cipher. -/
def sealOutcome (c : CipherState Key) (plaintext : Bytes) : Outcome Key :=
  if maxPlaintextRecord < plaintext.length then
    .rejected (.plaintextTooLarge plaintext.length)
  else
    match c.use fun key nonce =>
      aead.encrypt key nonce plaintext (plaintext.length + tagLength) with
    | .error e => .failed e
    | .ok (ciphertext, c) => .done (recordFrame ciphertext.1) c

/-- The outcome of opening, given the receiving cipher. -/
def openOutcome (c : CipherState Key) (frame : Bytes) : Outcome Key :=
  match decodeRecordFrame frame with
  | .error e => .rejected e
  | .ok ciphertext =>
    match c.use fun key nonce =>
      aead.decrypt key nonce ciphertext (ciphertext.length - tagLength) with
    | .error e => .failed e
    | .ok (plaintext, c) => .done plaintext.1 c

/-- Sealing on a live session: the checks after the cipher never fire, as `snow`
    fills a buffer of at most 16400 bytes. -/
theorem sealRecord_live (t : TransportState Key) (plaintext : Bytes) :
    sealRecord aead (Cell.new t) plaintext =
      ((sealOutcome aead t.send plaintext).result,
        match sealOutcome aead t.send plaintext with
        | .rejected _ => Cell.new t
        | .failed _ => ⟨false, none⟩
        | .done _ c => Cell.new { t with send := c }) := by
  unfold sealRecord sealOutcome TransportState.writeMessage
  by_cases hlen : maxPlaintextRecord < plaintext.length
  · simp [hlen, Outcome.result]
  · rcases hu : t.send.use fun key nonce =>
      aead.encrypt key nonce plaintext (plaintext.length + tagLength) with e | ⟨⟨out, hout⟩, c⟩
    · simp [hlen, Cell.new, Outcome.result, hu]
    · have hle : out.length ≤ maxCiphertextRecord := by
        simp only [maxPlaintextRecord, tagLength, maxCiphertextRecord] at hlen hout ⊢
        omega
      have hlt : out.length < 2 ^ 32 := by
        simp only [maxCiphertextRecord] at hle
        omega
      simp [-Nat.reducePow, hlen, Cell.new, Outcome.result, hu, Nat.not_lt.2 hle, Nat.not_le.2 hlt]

/-- Opening on a live session: the check after the cipher never fires, as `snow`
    fills a buffer of at most 16384 bytes. -/
theorem openRecord_live (t : TransportState Key) (frame : Bytes) :
    openRecord aead (Cell.new t) frame =
      ((openOutcome aead t.recv frame).result,
        match openOutcome aead t.recv frame with
        | .rejected _ => Cell.new t
        | .failed _ => ⟨false, none⟩
        | .done _ c => Cell.new { t with recv := c }) := by
  unfold openRecord openOutcome TransportState.readMessage
  rcases hd : decodeRecordFrame frame with e | ciphertext
  · simp [Outcome.result]
  · have hmax := (decodeRecordFrame_iff.1 hd).2
    rcases hu : t.recv.use fun key nonce =>
      aead.decrypt key nonce ciphertext (ciphertext.length - tagLength) with e | ⟨⟨out, hout⟩, c⟩
    · simp [Cell.new, Outcome.result, hu]
    · have hle : out.length ≤ maxPlaintextRecord := by
        simp only [maxPlaintextRecord, tagLength, maxCiphertextRecord] at hmax hout ⊢
        omega
      simp [Cell.new, Outcome.result, hu, Nat.not_lt.2 hle]

/-- A closed session rejects what passes the length check. -/
theorem sealRecord_closed (plaintext : Bytes) :
    sealRecord aead ⟨false, none⟩ plaintext =
      (if maxPlaintextRecord < plaintext.length then
        .error (.plaintextTooLarge plaintext.length) else .error .closedSession,
        ⟨false, none⟩) := by
  unfold sealRecord
  split <;> rfl

theorem openRecord_closed (frame : Bytes) :
    openRecord aead ⟨false, none⟩ frame =
      (match decodeRecordFrame frame with
        | .error e => .error e
        | .ok _ => .error .closedSession,
        ⟨false, none⟩) := by
  unfold openRecord
  split <;> simp_all

end SecureTunnel
