import Mathlib.Algebra.Group.Nat.Defs
import Mathlib.Logic.Function.Basic
import SecureTunnel.Account.CloseReason

/-!
# Metrics

The counters of a host, `TunnelMetrics`, are atomic integers that the accept loop
and the sessions add to, each operation on its own. `connectionClosed` does eleven
of them; `Closing` is how far it has come, and `closingStep` the next operation.

What it adds in all is its `charge` (`count_connectionClosed`).
-/

namespace SecureTunnel

/-- The fields of `TunnelMetrics`. -/
inductive Counter
  | activeConnections
  | nextConnectionId
  | handshakeSuccessTotal
  | handshakeFailureTotal
  | unauthorizedClientTotal
  | decryptFailureTotal
  | connectionsTotal
  | bytesInTotal
  | bytesOutTotal
  | connectionDurationMsTotal
  | destinationConnectFailureTotal
  deriving DecidableEq, Repr

/-- `TunnelMetrics`: all counters are 64 bits wide, and start at zero. -/
structure TunnelMetrics where
  count : Counter → UInt64

/-- `ConnectionTelemetry` -/
structure ConnectionTelemetry where
  id : UInt64
  handshakeSucceeded : Bool
  bytesClientToServer : UInt64
  bytesServerToClient : UInt64
  deriving DecidableEq

def ConnectionTelemetry.new (id : UInt64) : ConnectionTelemetry := ⟨id, false, 0, 0⟩

namespace TunnelMetrics

def default : TunnelMetrics := ⟨fun _ => 0⟩

/-- `fetch_add`, which wraps around. -/
def fetchAdd (m : TunnelMetrics) (c : Counter) (n : UInt64) : TunnelMetrics :=
  ⟨Function.update m.count c (m.count c + n)⟩

def fetchSub (m : TunnelMetrics) (c : Counter) (n : UInt64) : TunnelMetrics :=
  ⟨Function.update m.count c (m.count c - n)⟩

/-- `connection_opened`, when nothing intervenes. -/
def connectionOpened (m : TunnelMetrics) : ConnectionTelemetry × TunnelMetrics :=
  let m := m.fetchAdd .activeConnections 1
  let m := m.fetchAdd .connectionsTotal 1
  (.new (m.count .nextConnectionId + 1), m.fetchAdd .nextConnectionId 1)

/-- `connection_closed`, when nothing intervenes. -/
def connectionClosed (m : TunnelMetrics) (telemetry : ConnectionTelemetry) (reason : CloseReason)
    (durationMs : UInt64) : TunnelMetrics :=
  let m := m.fetchSub .activeConnections 1
  let m :=
    if telemetry.handshakeSucceeded then m.fetchAdd .handshakeSuccessTotal 1
    else if reason ≠ .shutdown then m.fetchAdd .handshakeFailureTotal 1
    else m
  let m := if reason = .unauthorizedClient then m.fetchAdd .unauthorizedClientTotal 1 else m
  let m := if reason = .decryptFailed then m.fetchAdd .decryptFailureTotal 1 else m
  let m :=
    if reason = .destinationConnectFailed then m.fetchAdd .destinationConnectFailureTotal 1 else m
  let m := m.fetchAdd .bytesInTotal telemetry.bytesClientToServer
  let m := m.fetchAdd .bytesOutTotal telemetry.bytesServerToClient
  m.fetchAdd .connectionDurationMsTotal durationMs

end TunnelMetrics

/-- The close reason of `finish_connection`. -/
def finishReason (result : Except (List Text) Unit) : CloseReason :=
  match result with
  | .ok _ => .peerClosed
  | .error chain => .fromError chain

/-- `finish_connection`: the duration is given in milliseconds. -/
def finishConnection (m : TunnelMetrics) (telemetry : ConnectionTelemetry)
    (result : Except (List Text) Unit) (elapsed : ℕ) : TunnelMetrics :=
  m.connectionClosed telemetry (finishReason result) (.ofNat (min elapsed (2 ^ 64 - 1)))

/-! ## One operation at a time -/

/-- How far `connection_closed` has come. What it has loaded it has still to add. -/
inductive Closing
  | active
  | handshake
  | outcome (handshaken : Bool)
  | unauthorizedClient
  | decryptFailed
  | destinationConnectFailed
  | bytesIn
  | addBytesIn (bytes : UInt64)
  | bytesOut
  | addBytesOut (bytes : UInt64)
  | duration
  | done
  deriving DecidableEq

/-- The next operation of `connection_closed`. -/
def closingStep (m : TunnelMetrics) (telemetry : ConnectionTelemetry) (reason : CloseReason)
    (durationMs : UInt64) : Closing → TunnelMetrics × Closing
  | .active => (m.fetchSub .activeConnections 1, .handshake)
  | .handshake => (m, .outcome telemetry.handshakeSucceeded)
  | .outcome handshaken =>
    (if handshaken then m.fetchAdd .handshakeSuccessTotal 1
      else if reason ≠ .shutdown then m.fetchAdd .handshakeFailureTotal 1
      else m, .unauthorizedClient)
  | .unauthorizedClient =>
    (if reason = .unauthorizedClient then m.fetchAdd .unauthorizedClientTotal 1 else m,
      .decryptFailed)
  | .decryptFailed =>
    (if reason = .decryptFailed then m.fetchAdd .decryptFailureTotal 1 else m,
      .destinationConnectFailed)
  | .destinationConnectFailed =>
    (if reason = .destinationConnectFailed then m.fetchAdd .destinationConnectFailureTotal 1
      else m, .bytesIn)
  | .bytesIn => (m, .addBytesIn telemetry.bytesClientToServer)
  | .addBytesIn bytes => (m.fetchAdd .bytesInTotal bytes, .bytesOut)
  | .bytesOut => (m, .addBytesOut telemetry.bytesServerToClient)
  | .addBytesOut bytes => (m.fetchAdd .bytesOutTotal bytes, .duration)
  | .duration => (m.fetchAdd .connectionDurationMsTotal durationMs, .done)
  | .done => (m, .done)

/-- `connection_closed` is its operations, one after the other. -/
theorem closingStep_iterate (m : TunnelMetrics) (telemetry : ConnectionTelemetry)
    (reason : CloseReason) (durationMs : UInt64) :
    (fun p => closingStep p.1 telemetry reason durationMs p.2)^[11] (m, .active) =
      (m.connectionClosed telemetry reason durationMs, .done) := rfl

/-! ## What is added -/

variable {m : TunnelMetrics} {c c' : Counter} {n : UInt64}

theorem TunnelMetrics.count_fetchAdd : (m.fetchAdd c n).count c' =
    m.count c' + if c' = c then n else 0 := by
  by_cases h : c' = c
  · simp [fetchAdd, h]
  · simp [fetchAdd, h]

theorem TunnelMetrics.count_fetchSub : (m.fetchSub c n).count c' =
    m.count c' - if c' = c then n else 0 := by
  by_cases h : c' = c
  · simp [fetchSub, h]
  · simp [fetchSub, h]

theorem TunnelMetrics.count_ite {p : Prop} [Decidable p] {m m' : TunnelMetrics} :
    (if p then m else m').count c = if p then m.count c else m'.count c := by
  split <;> rfl

/-- What closing a session adds to each counter, beside the active connections. -/
def charge (handshaken : Bool) (reason : CloseReason) (bytesIn bytesOut durationMs : UInt64) :
    Counter → UInt64
  | .handshakeSuccessTotal => if handshaken then 1 else 0
  | .handshakeFailureTotal => if handshaken = false ∧ reason ≠ .shutdown then 1 else 0
  | .unauthorizedClientTotal => if reason = .unauthorizedClient then 1 else 0
  | .decryptFailureTotal => if reason = .decryptFailed then 1 else 0
  | .destinationConnectFailureTotal => if reason = .destinationConnectFailed then 1 else 0
  | .bytesInTotal => bytesIn
  | .bytesOutTotal => bytesOut
  | .connectionDurationMsTotal => durationMs
  | .activeConnections | .nextConnectionId | .connectionsTotal => 0

/-- Each counter other than the active connections grows by its part of the charge. -/
theorem TunnelMetrics.count_connectionClosed {telemetry : ConnectionTelemetry}
    {reason : CloseReason} {durationMs : UInt64} (hc : c ≠ .activeConnections) :
    (m.connectionClosed telemetry reason durationMs).count c = m.count c +
      charge telemetry.handshakeSucceeded reason telemetry.bytesClientToServer
        telemetry.bytesServerToClient durationMs c := by
  simp only [connectionClosed, count_fetchAdd, count_fetchSub, count_ite]
  cases c with
  | activeConnections => exact absurd rfl hc
  | handshakeFailureTotal =>
    cases telemetry.handshakeSucceeded <;> by_cases hreason : reason = .shutdown <;>
      simp [charge, hreason]
  | handshakeSuccessTotal | unauthorizedClientTotal | decryptFailureTotal |
    destinationConnectFailureTotal =>
    simp only [charge, reduceCtorEq, if_false, if_true, ite_self, UInt64.add_zero,
      UInt64.sub_zero]
    split <;> simp
  | _ => simp [charge]

end SecureTunnel
