import SecureTunnel.Config.Server

/-!
# The configuration of the client

`ClientConfig::validate`, likewise: it accepts exactly the configurations that are
`Valid` (`ClientConfig.validate_eq_ok`).
-/

namespace SecureTunnel

namespace Client

structure OuterTlsConfig where
  enabled : Bool := false
  serverName : Option Text := none
  additionalCaFile : Option Text := none

structure Timeouts where
  connectSeconds : UInt64 := 10
  handshakeSeconds : UInt64 := 10
  idleSeconds : UInt64 := 600

structure Limits where
  maxConnections : ℕ := 32

end Client

structure ClientConfig where
  listen : SocketAddr
  /-- The address of the remote host, which is resolved when it is connected to. -/
  remote : Text
  privateKeyFile : Text
  serverPublicKey : Text
  outerTls : Client.OuterTlsConfig := {}
  timeouts : Client.Timeouts := {}
  limits : Client.Limits := {}

/-- The errors of `ClientConfig::validate`. -/
inductive ClientConfigError
  | listen (address : SocketAddr)
  | noRemote
  | noServerKey
  | noServerName
  | timeouts
  | limits
  deriving DecidableEq

def ClientConfigError.display (shown : SocketAddr → Text) : ClientConfigError → Text
  | listen address =>
    "client listener must bind a loopback address, not ".toList ++ shown address
  | noRemote => "remote address must not be empty".toList
  | noServerKey => "a pinned server public key is required".toList
  | noServerName => "outer_tls.server_name is required when outer TLS is enabled".toList
  | timeouts => "all timeouts must be positive".toList
  | limits =>
    "client connection limit must be between 1 and ".toList ++ digits maxConcurrentConnections

namespace ClientConfig

def validate (c : ClientConfig) : Except ClientConfigError Unit :=
  if c.listen.ip.isLoopback = false then .error (.listen c.listen)
  else if (trim c.remote).isEmpty then .error .noRemote
  else if (trim c.serverPublicKey).isEmpty then .error .noServerKey
  else if c.outerTls.enabled ∧ c.outerTls.serverName.all fun name => (trim name).isEmpty then
    .error .noServerName
  else if c.timeouts.connectSeconds = 0 ∨ c.timeouts.handshakeSeconds = 0 ∨
      c.timeouts.idleSeconds = 0 then
    .error .timeouts
  else if c.limits.maxConnections = 0 ∨ maxConcurrentConnections < c.limits.maxConnections then
    .error .limits
  else .ok ()

/-- What is checked of a configuration. -/
structure Valid (c : ClientConfig) : Prop where
  loopback : c.listen.ip.isLoopback = true
  remote : trim c.remote ≠ []
  key : trim c.serverPublicKey ≠ []
  tls : c.outerTls.enabled = true → ∃ name, c.outerTls.serverName = some name ∧ trim name ≠ []
  timeouts : c.timeouts.connectSeconds ≠ 0 ∧ c.timeouts.handshakeSeconds ≠ 0 ∧
    c.timeouts.idleSeconds ≠ 0
  connections : 0 < c.limits.maxConnections ∧ c.limits.maxConnections ≤ maxConcurrentConnections

/-- `validate` accepts what is valid. -/
theorem validate_eq_ok {c : ClientConfig} : c.validate = .ok () ↔ c.Valid := by
  rw [validate]
  simp only [ite_error_eq_ok]
  constructor
  · rintro ⟨hloopback, hremote, hkey, htls, htimeouts, hlimits, -⟩
    simp only [not_or] at htimeouts hlimits
    constructor
    case loopback => simpa using hloopback
    case remote => simpa using hremote
    case key => simpa using hkey
    case tls =>
      intro henabled
      rw [not_and] at htls
      cases hname : c.outerTls.serverName with
      | none => exact absurd (by rw [hname]; rfl) (htls henabled)
      | some name =>
        refine ⟨name, rfl, ?_⟩
        simpa [hname] using htls henabled
    case timeouts => exact htimeouts
    case connections => exact ⟨Nat.pos_of_ne_zero hlimits.1, Nat.not_lt.1 hlimits.2⟩
  · intro h
    refine ⟨?_, ?_, ?_, ?_, ?_, ?_, trivial⟩
    · simpa using h.loopback
    · simpa using h.remote
    · simpa using h.key
    · rintro ⟨henabled, hblank⟩
      obtain ⟨name, hname, hne⟩ := h.tls henabled
      rw [hname] at hblank
      exact hne (List.isEmpty_iff.1 hblank)
    · simp only [not_or]
      exact h.timeouts
    · simp only [not_or]
      exact ⟨Nat.pos_iff_ne_zero.1 h.connections.1, Nat.not_lt.2 h.connections.2⟩

/-- The defaults pass the checks. -/
theorem Valid.of_defaults {c : ClientConfig} (h : c.Valid) :
    { c with outerTls := {}, timeouts := {}, limits := {} : ClientConfig }.Valid :=
  { h with
    tls := nofun
    timeouts := (by decide : (10 : UInt64) ≠ 0 ∧ (10 : UInt64) ≠ 0 ∧ (600 : UInt64) ≠ 0)
    connections := (by decide : 0 < 32 ∧ 32 ≤ maxConcurrentConnections) }

/-- All that is asked of an idle time is that it is positive. -/
theorem Valid.withIdle {c : ClientConfig} (h : c.Valid) {seconds : UInt64} (hpos : seconds ≠ 0) :
    { c with timeouts := { c.timeouts with idleSeconds := seconds } : ClientConfig }.Valid :=
  { h with timeouts := ⟨h.timeouts.1, h.timeouts.2.1, hpos⟩ }

end ClientConfig

end SecureTunnel
