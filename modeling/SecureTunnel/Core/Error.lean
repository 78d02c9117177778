import Mathlib.Data.Nat.Init

/-!
# Errors

The errors of the tunnel's core, with the texts they display. Errors reach the
outside only as text: a session ends with a chain of texts, outermost context
first, and is classified by what the rendered chain contains.

The texts of errors from outside the repository (`snow`, the operating system,
the runtime) are arbitrary, except that of `snow`'s authentication failure.
-/

namespace SecureTunnel

/-- What `Display` writes. -/
abbrev Text := List Char

/-- The decimal digits of a number. -/
def digits (n : ℕ) : Text := Nat.toDigits 10 n

/-! ## Limits -/

/-- `MAX_HANDSHAKE_MESSAGE` -/
def maxHandshakeMessage : ℕ := 4096

/-- `MAX_PLAINTEXT_RECORD` -/
def maxPlaintextRecord : ℕ := 16384

/-- `MAX_CIPHERTEXT_RECORD` -/
def maxCiphertextRecord : ℕ := 16400

/-- `MAX_SERVER_STATIC_IDENTITIES` -/
def maxServerStaticIdentities : ℕ := 8

/-- The length of the authentication tag, which both record functions add or
    take off as the literal `16`. -/
def tagLength : ℕ := 16

/-! ## Errors of the core -/

/-- `snow::Error`: an authentication failure, or another error with its text. -/
inductive SnowError
  | decrypt
  | other (display : Text)
  deriving DecidableEq, Repr

def SnowError.display : SnowError → Text
  | .decrypt => "decrypt error".toList
  | .other display => display

/-- `TunnelError`: on any of them, the caller must close the connection. -/
inductive TunnelError
  | invalidPreface
  | unsupportedVersion (major minor : UInt8)
  | handshakeMessageTooLarge (bytes : ℕ)
  | plaintextTooLarge (bytes : ℕ)
  | ciphertextTooLarge (bytes : ℕ)
  | truncatedFrame (expected actual : ℕ)
  | trailingFrameBytes
  | handshakeOrder
  | closedSession
  | unauthorisedClient
  | missingServerStaticIdentity
  | tooManyServerStaticIdentities (count : ℕ)
  | invalidKeyMaterial
  | noise (source : SnowError)
  | poisonedCipherState
  deriving DecidableEq, Repr

namespace TunnelError

/-- The text of an error, without that of its source. -/
def display : TunnelError → Text
  | invalidPreface => "invalid protocol preface".toList
  | unsupportedVersion major minor =>
    "unsupported protocol version ".toList ++ digits major.toNat ++ ".".toList ++
      digits minor.toNat
  | handshakeMessageTooLarge bytes =>
    "handshake message is too large: ".toList ++ digits bytes ++ " bytes".toList
  | plaintextTooLarge bytes =>
    "plaintext record is too large: ".toList ++ digits bytes ++ " bytes".toList
  | ciphertextTooLarge bytes =>
    "ciphertext record is too large: ".toList ++ digits bytes ++ " bytes".toList
  | truncatedFrame expected actual =>
    "truncated frame: expected ".toList ++ digits expected ++ " bytes, got ".toList ++
      digits actual
  | trailingFrameBytes => "frame contains trailing bytes".toList
  | handshakeOrder => "handshake operation is out of order".toList
  | closedSession =>
    "handshake or transport session is closed after completion or failure".toList
  | unauthorisedClient => "client static key is not authorised".toList
  | missingServerStaticIdentity => "at least one server static identity is required".toList
  | tooManyServerStaticIdentities count =>
    "too many server static identities: ".toList ++ digits count ++ " (maximum ".toList ++
      digits maxServerStaticIdentities ++ ")".toList
  | invalidKeyMaterial => "invalid Noise static key material".toList
  | noise _ => "cryptographic operation failed".toList
  | poisonedCipherState => "transport cipher state lock poisoned".toList

/-- The chain of an error and its sources: only `Noise` has one. -/
def chain : TunnelError → List Text
  | noise source => [display (noise source), source.display]
  | e => [display e]

end TunnelError

end SecureTunnel
