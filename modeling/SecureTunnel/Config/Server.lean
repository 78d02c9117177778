import SecureTunnel.Config.Value

/-!
# The configuration of the server

`ServerConfig::validate` goes through its checks in the order of the source, and
accepts exactly the configurations that are `Valid` (`ServerConfig.validate_eq_ok`).
Of a public key, all that it asks is that it is not blank.
-/

namespace SecureTunnel

namespace Server

structure IdentityConfig where
  privateKeyFile : Text
  additionalPrivateKeyFiles : List Text

structure AuthorisedClient where
  name : Text
  publicKey : Text

structure OuterTlsConfig where
  enabled : Bool := false
  certificateFile : Option Text := none
  privateKeyFile : Option Text := none

structure Limits where
  maxConnections : ℕ := 32
  maxPlaintextRecordBytes : ℕ := 16384

structure Timeouts where
  destinationConnectSeconds : UInt64 := 10
  handshakeSeconds : UInt64 := 10
  idleSeconds : UInt64 := 600

end Server

structure ServerConfig where
  listen : SocketAddr
  destination : SocketAddr
  identity : Server.IdentityConfig
  authorizedClients : List Server.AuthorisedClient
  outerTls : Server.OuterTlsConfig := {}
  limits : Server.Limits := {}
  timeouts : Server.Timeouts := {}

/-- The errors of `ServerConfig::validate`. -/
inductive ServerConfigError
  | destination (address : SocketAddr)
  | noClient
  | blankClient
  | emptyPath
  | tooManyIdentities
  | repeatedPath
  | limits
  | noCertificate
  | noTlsKey
  | timeouts
  deriving DecidableEq

/-- Their texts, given that of an address. -/
def ServerConfigError.display (shown : SocketAddr → Text) : ServerConfigError → Text
  | destination address =>
    "destination must be a fixed loopback address, not ".toList ++ shown address
  | noClient => "at least one authorised client is required".toList
  | blankClient => "authorised clients require a non-empty name and public key".toList
  | emptyPath => "server private key file paths must not be empty".toList
  | tooManyIdentities =>
    "at most ".toList ++ digits maxServerStaticIdentities ++
      " server static identities may be configured".toList
  | repeatedPath => "server private key files must be distinct".toList
  | limits =>
    "version 1 requires a connection limit from 1 through ".toList ++
      digits maxConcurrentConnections ++ " and a 16384-byte plaintext record limit".toList
  | noCertificate =>
    "outer_tls.certificate_file is required when outer TLS is enabled".toList
  | noTlsKey => "outer_tls.private_key_file is required when outer TLS is enabled".toList
  | timeouts => "all timeouts must be positive".toList

/-- A check that goes on where it finds nothing. -/
theorem ite_error_eq_ok {ε : Type*} {p : Prop} [Decidable p] {e : ε} {x : Except ε Unit} :
    (if p then .error e else x) = .ok () ↔ ¬p ∧ x = .ok () := by
  by_cases hp : p
  · rw [if_pos hp]
    exact ⟨nofun, fun h => absurd hp h.1⟩
  · rw [if_neg hp]
    exact ⟨fun h => ⟨hp, h⟩, And.right⟩

namespace ServerConfig

/-- The private key files, the primary identity first. -/
def identityPaths (c : ServerConfig) : List Text :=
  c.identity.privateKeyFile :: c.identity.additionalPrivateKeyFiles

def validate (c : ServerConfig) : Except ServerConfigError Unit :=
  if c.destination.ip.isLoopback = false then .error (.destination c.destination)
  else if c.authorizedClients.isEmpty then .error .noClient
  else if c.authorizedClients.any fun client =>
      (trim client.name).isEmpty || (trim client.publicKey).isEmpty then
    .error .blankClient
  else if c.identity.privateKeyFile.isEmpty ||
      c.identity.additionalPrivateKeyFiles.any List.isEmpty then
    .error .emptyPath
  else if maxServerStaticIdentities < 1 + c.identity.additionalPrivateKeyFiles.length then
    .error .tooManyIdentities
  else if repeats [components c.identity.privateKeyFile] c.identity.additionalPrivateKeyFiles then
    .error .repeatedPath
  else if c.limits.maxConnections = 0 ∨ maxConcurrentConnections < c.limits.maxConnections ∨
      c.limits.maxPlaintextRecordBytes ≠ 16384 then
    .error .limits
  else if c.outerTls.enabled ∧ c.outerTls.certificateFile.isNone then .error .noCertificate
  else if c.outerTls.enabled ∧ c.outerTls.privateKeyFile.isNone then .error .noTlsKey
  else if c.timeouts.destinationConnectSeconds = 0 ∨ c.timeouts.handshakeSeconds = 0 ∨
      c.timeouts.idleSeconds = 0 then
    .error .timeouts
  else .ok ()

/-- What is checked of a configuration. -/
structure Valid (c : ServerConfig) : Prop where
  loopback : c.destination.ip.isLoopback = true
  clients : c.authorizedClients ≠ []
  named : ∀ client ∈ c.authorizedClients, trim client.name ≠ [] ∧ trim client.publicKey ≠ []
  paths : [] ∉ c.identityPaths
  identities : c.identityPaths.length ≤ maxServerStaticIdentities
  distinct : (c.identityPaths.map components).Nodup
  connections : 0 < c.limits.maxConnections ∧ c.limits.maxConnections ≤ maxConcurrentConnections
  records : c.limits.maxPlaintextRecordBytes = maxPlaintextRecord
  tls : c.outerTls.enabled = true →
    c.outerTls.certificateFile ≠ none ∧ c.outerTls.privateKeyFile ≠ none
  timeouts : c.timeouts.destinationConnectSeconds ≠ 0 ∧ c.timeouts.handshakeSeconds ≠ 0 ∧
    c.timeouts.idleSeconds ≠ 0

/-- `validate` accepts what is valid. -/
theorem validate_eq_ok {c : ServerConfig} : c.validate = .ok () ↔ c.Valid := by
  -- The primary path is in the set before the others are looked at.
  have hdistinct : repeats [components c.identity.privateKeyFile]
      c.identity.additionalPrivateKeyFiles = false ↔ (c.identityPaths.map components).Nodup := by
    rw [repeats_eq_false, identityPaths, List.map_cons, List.nodup_cons, and_comm]
    refine and_congr_left fun _ => ?_
    simp only [List.mem_singleton, List.mem_map, not_exists, not_and]
  rw [validate]
  simp only [ite_error_eq_ok]
  constructor
  · rintro ⟨hloopback, hclients, hnamed, hpaths, hidentities, hrepeats, hlimits, hcertificate,
      hkey, htimeouts, -⟩
    simp only [not_or, ne_eq, Decidable.not_not] at hlimits htimeouts
    constructor
    case loopback => simpa using hloopback
    case clients => simpa using hclients
    case named => simpa using hnamed
    case paths => simpa [identityPaths] using hpaths
    case identities =>
      rw [identityPaths, List.length_cons, Nat.add_comm]
      exact Nat.not_lt.1 hidentities
    case distinct => exact hdistinct.1 (by simpa using hrepeats)
    case connections => exact ⟨Nat.pos_of_ne_zero hlimits.1, Nat.not_lt.1 hlimits.2.1⟩
    case records => exact hlimits.2.2
    case tls =>
      intro henabled
      constructor
      · simpa [henabled] using hcertificate
      · simpa [henabled] using hkey
    case timeouts => exact htimeouts
  · intro h
    refine ⟨?_, ?_, ?_, ?_, ?_, ?_, ?_, ?_, ?_, ?_, trivial⟩
    · simpa using h.loopback
    · simpa using h.clients
    · simpa using h.named
    · simpa [identityPaths] using h.paths
    · have hle := h.identities
      rw [identityPaths, List.length_cons, Nat.add_comm] at hle
      exact Nat.not_lt.2 hle
    · rw [hdistinct.2 h.distinct]
      decide
    · simp only [not_or, ne_eq, Decidable.not_not]
      exact ⟨Nat.pos_iff_ne_zero.1 h.connections.1, Nat.not_lt.2 h.connections.2, h.records⟩
    · rintro ⟨henabled, hnone⟩
      exact (h.tls henabled).1 (Option.isNone_iff_eq_none.1 hnone)
    · rintro ⟨henabled, hnone⟩
      exact (h.tls henabled).2 (Option.isNone_iff_eq_none.1 hnone)
    · simp only [not_or]
      exact h.timeouts

/-- The defaults pass the checks. -/
theorem Valid.of_defaults {c : ServerConfig} (h : c.Valid) :
    { c with outerTls := {}, limits := {}, timeouts := {} : ServerConfig }.Valid :=
  { h with
    connections := (by decide : 0 < 32 ∧ 32 ≤ maxConcurrentConnections)
    records := rfl
    tls := nofun
    timeouts := (by decide : (10 : UInt64) ≠ 0 ∧ (10 : UInt64) ≠ 0 ∧ (600 : UInt64) ≠ 0) }

/-- All that is asked of an idle time is that it is positive. -/
theorem Valid.withIdle {c : ServerConfig} (h : c.Valid) {seconds : UInt64} (hpos : seconds ≠ 0) :
    { c with timeouts := { c.timeouts with idleSeconds := seconds } : ServerConfig }.Valid :=
  { h with timeouts := ⟨h.timeouts.1, h.timeouts.2.1, hpos⟩ }

end ServerConfig

end SecureTunnel
