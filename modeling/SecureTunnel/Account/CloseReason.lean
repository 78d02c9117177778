import SecureTunnel.Core.Error
import SecureTunnel.General.Text

/-!
# Close reasons

Both hosts classify the error that ended a session by its rendered chain:
`CloseReason::from_error` tries a list of words, in a fixed order, and takes the
reason of the first that the chain contains.

The test on the rendered chain is one on its texts (`fromError_eq`): a reason is
*suggested* by a text that contains one of its words, and the first suggested
reason is reported, whichever text suggests it.
-/

namespace SecureTunnel

inductive CloseReason
  | peerClosed
  | shutdown
  | idleTimeout
  | outerTlsFailed
  | noiseHandshakeFailed
  | decryptFailed
  | destinationConnectFailed
  | unauthorizedClient
  | transportError
  deriving DecidableEq, Repr

namespace CloseReason

/-- `CloseReason::from_error`, on the chain of an error. -/
def fromError (error : List Text) : CloseReason :=
  let message := lower (render error)
  if "shutdown requested".toList <:+: message then shutdown
  else if "idle timeout".toList <:+: message then idleTimeout
  else if "outer tls".toList <:+: message ∨ "certificate".toList <:+: message then outerTlsFailed
  else if "decrypt".toList <:+: message then decryptFailed
  else if "destination connect".toList <:+: message then destinationConnectFailed
  else if "unauthorised client".toList <:+: message ∨ "unauthorized client".toList <:+: message then
    unauthorizedClient
  else if "noise handshake".toList <:+: message ∨ "preface".toList <:+: message ∨
      "handshake".toList <:+: message then
    noiseHandshakeFailed
  else transportError

/-- The words by which a reason is recognised. -/
def words : CloseReason → List Word
  | shutdown => [{ letters := "shutdown requested".toList }]
  | idleTimeout => [{ letters := "idle timeout".toList }]
  | outerTlsFailed => [{ letters := "outer tls".toList }, { letters := "certificate".toList }]
  | noiseHandshakeFailed => [{ letters := "noise handshake".toList },
    { letters := "preface".toList }, { letters := "handshake".toList }]
  | decryptFailed => [{ letters := "decrypt".toList }]
  | destinationConnectFailed => [{ letters := "destination connect".toList }]
  | unauthorizedClient => [{ letters := "unauthorised client".toList },
    { letters := "unauthorized client".toList }]
  | peerClosed | transportError => []

end CloseReason

/-- A text of a chain contains a word of the reason. -/
def Suggested (chain : List Text) (r : CloseReason) : Prop :=
  ∃ text ∈ chain, ∃ word ∈ r.words, word.Inside text

instance (chain : List Text) (r : CloseReason) : Decidable (Suggested chain r) :=
  List.decidableBEx _ _

/-- A reason is suggested that is tried before all those that are counted or name
    the handshake: it hides them. -/
def Masked (chain : List Text) : Prop :=
  Suggested chain .shutdown ∨ Suggested chain .idleTimeout ∨ Suggested chain .outerTlsFailed

/-- A reason that has a counter of its own is suggested. -/
def Counted (chain : List Text) : Prop :=
  Suggested chain .decryptFailed ∨ Suggested chain .destinationConnectFailed ∨
    Suggested chain .unauthorizedClient

/-! ## The first suggested reason -/

variable {chain chain' : List Text} {r : CloseReason}

theorem suggested_iff : Suggested chain r ↔ ∃ word ∈ r.words, word.Inside (render chain) := by
  simp only [Suggested, Word.inside_render]
  constructor
  · rintro ⟨text, htext, word, hword, hinside⟩
    exact ⟨word, hword, text, htext, hinside⟩
  · rintro ⟨word, hword, text, htext, hinside⟩
    exact ⟨text, htext, word, hword, hinside⟩

@[simp] theorem not_suggested_nil : ¬Suggested [] r := by simp [Suggested]

theorem suggested_cons {text : Text} :
    Suggested (text :: chain) r ↔ Suggested [text] r ∨ Suggested chain r := by
  simp [Suggested]

/-- The first reason that a text of the chain suggests is reported. -/
theorem fromError_eq (chain : List Text) : CloseReason.fromError chain =
    if Suggested chain .shutdown then .shutdown
    else if Suggested chain .idleTimeout then .idleTimeout
    else if Suggested chain .outerTlsFailed then .outerTlsFailed
    else if Suggested chain .decryptFailed then .decryptFailed
    else if Suggested chain .destinationConnectFailed then .destinationConnectFailed
    else if Suggested chain .unauthorizedClient then .unauthorizedClient
    else if Suggested chain .noiseHandshakeFailed then .noiseHandshakeFailed
    else .transportError := by
  refine if_congr ?_ rfl (if_congr ?_ rfl (if_congr ?_ rfl (if_congr ?_ rfl (if_congr ?_ rfl
    (if_congr ?_ rfl (if_congr ?_ rfl rfl))))))
  all_goals
    simp only [suggested_iff, CloseReason.words, List.exists_mem_cons_iff, List.not_mem_nil,
      false_and, exists_false, or_false, Word.Inside]

theorem fromError_eq_decryptFailed : CloseReason.fromError chain = .decryptFailed ↔
    ¬Masked chain ∧ Suggested chain .decryptFailed := by
  rw [fromError_eq, Masked]
  split_ifs <;> simp [*]

theorem fromError_eq_destinationConnectFailed :
    CloseReason.fromError chain = .destinationConnectFailed ↔ ¬Masked chain ∧
      ¬Suggested chain .decryptFailed ∧ Suggested chain .destinationConnectFailed := by
  rw [fromError_eq, Masked]
  split_ifs <;> simp [*]

theorem fromError_eq_unauthorizedClient :
    CloseReason.fromError chain = .unauthorizedClient ↔ ¬Masked chain ∧
      ¬Suggested chain .decryptFailed ∧ ¬Suggested chain .destinationConnectFailed ∧
      Suggested chain .unauthorizedClient := by
  rw [fromError_eq, Masked]
  split_ifs <;> simp [*]

theorem fromError_eq_noiseHandshakeFailed :
    CloseReason.fromError chain = .noiseHandshakeFailed ↔ ¬Masked chain ∧ ¬Counted chain ∧
      Suggested chain .noiseHandshakeFailed := by
  rw [fromError_eq, Masked, Counted]
  split_ifs <;> simp [*]

end SecureTunnel
