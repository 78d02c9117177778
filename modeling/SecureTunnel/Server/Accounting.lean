import SecureTunnel.Account.Metrics
import SecureTunnel.Server.Session

/-!
# Failure accounting

`finish_connection` counts a session by the close reason of its error, and thereby
by what the texts of the error say. Whether that names the stage that failed
depends on the stage and on the texts that come from outside the repository:
`SessionError.Told` is the condition, stage by stage, and `named_iff_told` the
equivalence for an error that tells of a rejected record exactly if there is one.

The error of a relay can hide that a record was rejected: `named_hidden` says when
it is counted nevertheless. `SecureTunnel.Server.Relayed` is about which of the two
a run comes to.
-/

namespace SecureTunnel

/-! ## Texts of the repository, and texts from outside -/

/-- The texts of an error that come from outside. -/
def TunnelError.foreign : TunnelError → List Text
  | .noise source => [source.display]
  | _ => []

/-- The text of the error has the word `handshake`, or `preface`. -/
def TunnelError.namesHandshake : TunnelError → Bool
  | .invalidPreface | .handshakeMessageTooLarge _ | .handshakeOrder | .closedSession => true
  | _ => false

def StreamError.foreign : StreamError → List Text
  | .io display => [display]
  | _ => []

def CopyError.foreign : CopyError → List Text
  | .stream e => e.foreign
  | .tunnel e => e.foreign

def RelayError.foreign : RelayError → List Text
  | .panicked context display => [context, display]
  | .copy e => e.foreign
  | .idleTimeout | .shutdownRequested => []

def SessionError.foreign : SessionError → List Text
  | .nodelay display | .keepalive display | .tls display | .replyWrite display
  | .connect display => [display]
  | .privateKey path cause => ("could not read server private key ".toList ++ path) :: cause
  | .publicKey cause => cause
  | .prefaceRead e | .firstRead e => e.foreign
  | .construct e | .acceptPreface e | .receiveClient e | .message e | .intoSession e => e.foreign
  | .relay e => e.foreign
  | .shutdownRequested | .tlsTimeout | .prefaceTimeout | .firstTimeout | .connectTimeout => []

/-- The reasons suggested by the texts of the repository in an error. -/
def TunnelError.own (e : TunnelError) : List CloseReason :=
  bif e.namesHandshake then [.noiseHandshakeFailed] else []

def RelayError.own : RelayError → List CloseReason
  | .copy (.tunnel e) => e.own
  | .copy (.stream _) | .panicked .. => []
  | .idleTimeout => [.idleTimeout]
  | .shutdownRequested => [.shutdown]

def SessionError.own : SessionError → List CloseReason
  | .shutdownRequested => [.shutdown]
  | .tlsTimeout => [.outerTlsFailed, .noiseHandshakeFailed]
  | .prefaceTimeout | .firstTimeout => [.noiseHandshakeFailed]
  | .receiveClient e => .noiseHandshakeFailed :: e.own
  | .construct e | .acceptPreface e | .message e | .intoSession e => e.own
  | .connectTimeout => [.destinationConnectFailed]
  | .relay e => e.own
  | .nodelay _ | .keepalive _ | .tls _ | .privateKey .. | .publicKey _ | .prefaceRead _
  | .firstRead _ | .replyWrite _ | .connect _ => []

section Suggestions

variable {r : CloseReason}

/-- What fixed texts suggest is decided reason by reason. -/
theorem suggested_texts (texts : List Text) (rs : List CloseReason)
    (h : ∀ r ∈ [CloseReason.peerClosed, .shutdown, .idleTimeout, .outerTlsFailed,
      .noiseHandshakeFailed, .decryptFailed, .destinationConnectFailed, .unauthorizedClient,
      .transportError], Suggested texts r ↔ r ∈ rs) : Suggested texts r ↔ r ∈ rs :=
  h r (by cases r <;> simp)

/-- A number in a text suggests nothing. -/
theorem suggested_number (a b : Text) (n : ℕ) :
    Suggested [a ++ digits n ++ b] r ↔ Suggested [a, b] r := by
  have hcons : Suggested [a, b] r ↔ Suggested [a] r ∨ Suggested [b] r := suggested_cons
  rw [hcons]
  simp only [Suggested, List.mem_singleton, exists_eq_left, digits, Word.inside_number,
    and_or_left, exists_or]

theorem suggested_number_end (a : Text) (n : ℕ) :
    Suggested [a ++ digits n] r ↔ Suggested [a] r := by
  have hnil : ¬Suggested [[]] r := by
    rw [suggested_texts [[]] [] (by decide +kernel)]
    exact List.not_mem_nil
  have h := suggested_number (r := r) a [] n
  rw [List.append_nil] at h
  rw [h, suggested_cons]
  exact or_iff_left hnil

/-- The text of an error suggests what its name stands for. -/
theorem TunnelError.suggested_display (e : TunnelError) : Suggested [e.display] r ↔ r ∈ e.own := by
  cases e with
  | unsupportedVersion major minor =>
    exact (suggested_number_end _ _).trans ((suggested_number _ _ _).trans
      (suggested_texts ["unsupported protocol version ".toList, ".".toList] [] (by decide +kernel)))
  | handshakeMessageTooLarge bytes =>
    exact (suggested_number _ _ _).trans (suggested_texts
      ["handshake message is too large: ".toList, " bytes".toList] [.noiseHandshakeFailed]
      (by decide +kernel))
  | plaintextTooLarge bytes =>
    exact (suggested_number _ _ _).trans (suggested_texts
      ["plaintext record is too large: ".toList, " bytes".toList] [] (by decide +kernel))
  | ciphertextTooLarge bytes =>
    exact (suggested_number _ _ _).trans (suggested_texts
      ["ciphertext record is too large: ".toList, " bytes".toList] [] (by decide +kernel))
  | truncatedFrame expected actual =>
    exact (suggested_number_end _ _).trans ((suggested_number _ _ _).trans
      (suggested_texts ["truncated frame: expected ".toList, " bytes, got ".toList] []
        (by decide +kernel)))
  | tooManyServerStaticIdentities count =>
    refine (suggested_number _ _ _).trans (suggested_cons.trans ?_)
    rw [suggested_number, suggested_texts ["too many server static identities: ".toList,
      " (maximum ".toList] [] (by decide +kernel), suggested_texts [")".toList] []
      (by decide +kernel)]
    exact or_self_iff
  | invalidPreface =>
    exact suggested_texts ["invalid protocol preface".toList] [.noiseHandshakeFailed]
      (by decide +kernel)
  | handshakeOrder =>
    exact suggested_texts ["handshake operation is out of order".toList] [.noiseHandshakeFailed]
      (by decide +kernel)
  | closedSession =>
    exact suggested_texts
      ["handshake or transport session is closed after completion or failure".toList]
      [.noiseHandshakeFailed] (by decide +kernel)
  | trailingFrameBytes =>
    exact suggested_texts ["frame contains trailing bytes".toList] [] (by decide +kernel)
  | unauthorisedClient =>
    exact suggested_texts ["client static key is not authorised".toList] [] (by decide +kernel)
  | missingServerStaticIdentity =>
    exact suggested_texts ["at least one server static identity is required".toList] []
      (by decide +kernel)
  | invalidKeyMaterial =>
    exact suggested_texts ["invalid Noise static key material".toList] [] (by decide +kernel)
  | noise source =>
    exact suggested_texts ["cryptographic operation failed".toList] [] (by decide +kernel)
  | poisonedCipherState =>
    exact suggested_texts ["transport cipher state lock poisoned".toList] [] (by decide +kernel)

theorem TunnelError.suggested_chain (e : TunnelError) :
    Suggested e.chain r ↔ r ∈ e.own ∨ Suggested e.foreign r := by
  rw [← e.suggested_display]
  cases e with
  | noise source => exact suggested_cons
  | _ => exact (or_iff_left not_suggested_nil).symm

theorem StreamError.suggested_display (e : StreamError) :
    Suggested [e.display] r ↔ Suggested e.foreign r := by
  have hsilent : r ∈ ([] : List CloseReason) ↔ Suggested [] r :=
    ⟨fun h => absurd h List.not_mem_nil, fun h => absurd h not_suggested_nil⟩
  cases e with
  | io display => exact Iff.rfl
  | eof => exact (suggested_texts ["early eof".toList] [] (by decide +kernel)).trans hsilent
  | oversized =>
    exact (suggested_texts ["received oversized protocol frame".toList] []
      (by decide +kernel)).trans hsilent
  | invalidLength length =>
    exact ((suggested_number_end _ _).trans
      (suggested_texts ["invalid frame length ".toList] [] (by decide +kernel))).trans hsilent

theorem RelayError.suggested_chain (e : RelayError) :
    Suggested e.chain r ↔ r ∈ e.own ∨ Suggested e.foreign r := by
  cases e with
  | panicked context display => exact (or_iff_right List.not_mem_nil).symm
  | copy e =>
    cases e with
    | stream e => exact e.suggested_display.trans (or_iff_right List.not_mem_nil).symm
    | tunnel e => exact e.suggested_chain
  | idleTimeout =>
    exact (suggested_texts ["idle timeout".toList] [.idleTimeout] (by decide +kernel)).trans
      (or_iff_left not_suggested_nil).symm
  | shutdownRequested =>
    exact (suggested_texts ["shutdown requested".toList] [.shutdown] (by decide +kernel)).trans
      (or_iff_left not_suggested_nil).symm

/-- An error suggests what the texts of the repository in it do, and what those
    from outside do. -/
theorem SessionError.suggested_chain (e : SessionError) :
    Suggested e.chain r ↔ r ∈ e.own ∨ Suggested e.foreign r := by
  cases e with
  | nodelay display | tls display | replyWrite display | connect display =>
    exact (or_iff_right List.not_mem_nil).symm
  | privateKey path cause | publicKey cause => exact (or_iff_right List.not_mem_nil).symm
  | keepalive display =>
    exact suggested_cons.trans (or_congr_left
      (suggested_texts ["could not enable TCP keepalive".toList] [] (by decide +kernel)))
  | shutdownRequested =>
    exact (suggested_texts ["shutdown requested".toList] [.shutdown] (by decide +kernel)).trans
      (or_iff_left not_suggested_nil).symm
  | tlsTimeout =>
    exact (suggested_texts ["outer TLS handshake timed out".toList, elapsed]
      [.outerTlsFailed, .noiseHandshakeFailed] (by decide +kernel)).trans
      (or_iff_left not_suggested_nil).symm
  | prefaceTimeout =>
    exact (suggested_texts ["preface timeout".toList, elapsed] [.noiseHandshakeFailed]
      (by decide +kernel)).trans (or_iff_left not_suggested_nil).symm
  | firstTimeout =>
    exact (suggested_texts ["Noise handshake timeout".toList, elapsed] [.noiseHandshakeFailed]
      (by decide +kernel)).trans (or_iff_left not_suggested_nil).symm
  | connectTimeout =>
    exact (suggested_texts ["destination connect timeout".toList, elapsed]
      [.destinationConnectFailed] (by decide +kernel)).trans (or_iff_left not_suggested_nil).symm
  | prefaceRead e | firstRead e =>
    exact e.suggested_display.trans (or_iff_right List.not_mem_nil).symm
  | construct e | acceptPreface e | message e | intoSession e => exact e.suggested_chain
  | receiveClient e =>
    have hcontext := suggested_texts (r := r) ["Noise handshake failed".toList]
      [.noiseHandshakeFailed] (by decide +kernel)
    rw [chain, suggested_cons, hcontext, e.suggested_chain, ← or_assoc]
    exact or_congr_left (by simp [own])
  | relay e => exact e.suggested_chain

end Suggestions

/-! ## The stage that failed -/

namespace SessionError

/-- `receive_client` returned `UnauthorisedClient`. -/
def unauthorised : SessionError → Bool
  | .receiveClient .unauthorisedClient => true
  | _ => false

/-- Connecting to the destination failed. -/
def connecting : SessionError → Bool
  | .connectTimeout | .connect _ => true
  | _ => false

/-- The relay reports that a record failed to authenticate. -/
def rejection : SessionError → Bool
  | .relay (.copy (.tunnel (.noise .decrypt))) => true
  | _ => false

/-- The session failed between its first read and the end of the handshake. -/
def handshake : SessionError → Bool
  | .prefaceTimeout | .prefaceRead _ | .construct _ | .acceptPreface _ | .firstTimeout
  | .firstRead _ | .receiveClient _ | .message _ | .replyWrite _ | .intoSession _ => true
  | _ => false

end SessionError

/-- A session failed at a stage. -/
def failedAt (stage : SessionError → Bool) (result : Except SessionError Unit) : Bool :=
  match result with
  | .ok _ => false
  | .error e => stage e

/-- The counters name the stage that failed, and the reason names the handshake, of a
    session in which a record was rejected or none was. -/
structure Accounted (rejected : Bool) (result : Except SessionError Unit) (reason : CloseReason)
    (m m' : TunnelMetrics) : Prop where
  unauthorised : m'.count .unauthorizedClientTotal = m.count .unauthorizedClientTotal +
    if failedAt SessionError.unauthorised result then 1 else 0
  connecting : m'.count .destinationConnectFailureTotal =
    m.count .destinationConnectFailureTotal +
      if failedAt SessionError.connecting result then 1 else 0
  record : m'.count .decryptFailureTotal = m.count .decryptFailureTotal +
    if rejected then 1 else 0
  handshake : failedAt SessionError.handshake result = true →
    failedAt SessionError.unauthorised result = false →
    reason = .noiseHandshakeFailed

/-- The texts mention neither what hides a handshake failure nor what is counted. -/
def Clear (texts : List Text) : Prop := ¬Masked texts ∧ ¬Counted texts

/-- The texts do not make a counted reason be reported. -/
def Silent (texts : List Text) : Prop := Masked texts ∨ ¬Counted texts

/-- When an error is told for what it is: the condition at each stage, on the texts
    that come from outside. -/
def SessionError.Told : SessionError → Prop
  | .shutdownRequested | .tlsTimeout | .prefaceTimeout | .firstTimeout | .connectTimeout => True
  | .nodelay display | .keepalive display | .tls display => Silent [display]
  | .privateKey path cause =>
    Silent (("could not read server private key ".toList ++ path) :: cause)
  | .publicKey cause => Silent cause
  -- A handshake error is told by its own text, or by chance.
  | .prefaceRead e | .firstRead e =>
    Clear e.foreign ∧ Suggested e.foreign .noiseHandshakeFailed
  | .replyWrite display => Clear [display] ∧ Suggested [display] .noiseHandshakeFailed
  | .construct e | .acceptPreface e | .message e | .intoSession e =>
    Clear e.foreign ∧ (e.namesHandshake = true ∨ Suggested e.foreign .noiseHandshakeFailed)
  | .receiveClient e => e ≠ .unauthorisedClient ∧ Clear e.foreign
  -- An error of the operating system is told if it mentions the destination.
  | .connect display => ¬Masked [display] ∧ ¬Suggested [display] .decryptFailed ∧
    Suggested [display] .destinationConnectFailed
  | .relay e => e = .copy (.tunnel (.noise .decrypt)) ∨ Silent e.foreign

/-- Adding one or nothing tells whether one was added. -/
theorem add_ite_iff {p q : Prop} [Decidable p] [Decidable q] {n : UInt64} :
    n + (if p then 1 else 0) = n + (if q then 1 else 0) ↔ (p ↔ q) := by
  rw [UInt64.add_right_inj]
  by_cases hp : p <;> by_cases hq : q <;> simp [hp, hq]

/-- The close reason names the stage at which an error was raised, or the rejected
    record. -/
def Named (rejected : Bool) (e : SessionError) (reason : CloseReason) : Prop :=
  (reason = .unauthorizedClient ↔ e.unauthorised = true) ∧
    (reason = .destinationConnectFailed ↔ e.connecting = true) ∧
    (reason = .decryptFailed ↔ rejected = true) ∧
    (e.handshake = true → e.unauthorised = false → reason = .noiseHandshakeFailed)

instance (rejected : Bool) (e : SessionError) (reason : CloseReason) :
    Decidable (Named rejected e reason) :=
  inferInstanceAs (Decidable ((_ ↔ _) ∧ (_ ↔ _) ∧ (_ ↔ _) ∧ (_ → _ → _)))

/-- The counters name the stage if the close reason does. -/
theorem accounted_error {rejected : Bool} {e : SessionError} {m : TunnelMetrics}
    {telemetry : ConnectionTelemetry} {elapsed : ℕ} :
    Accounted rejected (.error e) (.fromError e.chain) m
        (finishConnection m telemetry (.error e.chain) elapsed) ↔
      Named rejected e (.fromError e.chain) := by
  have hcount : ∀ c, c ≠ .activeConnections →
      (finishConnection m telemetry (.error e.chain) elapsed).count c = m.count c +
        charge telemetry.handshakeSucceeded (.fromError e.chain) telemetry.bytesClientToServer
          telemetry.bytesServerToClient (.ofNat (min elapsed (2 ^ 64 - 1))) c :=
    fun c hc => TunnelMetrics.count_connectionClosed hc
  constructor
  · rintro ⟨hunauthorised, hconnecting, hrecord, hhandshake⟩
    rw [hcount _ (by decide)] at hunauthorised hconnecting hrecord
    exact ⟨add_ite_iff.1 hunauthorised, add_ite_iff.1 hconnecting, add_ite_iff.1 hrecord,
      hhandshake⟩
  · rintro ⟨hunauthorised, hconnecting, hrecord, hhandshake⟩
    refine ⟨?_, ?_, ?_, hhandshake⟩
    · rw [hcount _ (by decide)]
      exact add_ite_iff.2 hunauthorised
    · rw [hcount _ (by decide)]
      exact add_ite_iff.2 hconnecting
    · rw [hcount _ (by decide)]
      exact add_ite_iff.2 hrecord

/-- A session that ended well is not counted, whatever happened to a record of it. -/
theorem accounted_ok {rejected : Bool} {m : TunnelMetrics} {telemetry : ConnectionTelemetry}
    {elapsed : ℕ} :
    Accounted rejected (.ok ()) .peerClosed m (finishConnection m telemetry (.ok ()) elapsed) ↔
      rejected = false := by
  have hcount : ∀ c, c ≠ .activeConnections →
      (finishConnection m telemetry (.ok ()) elapsed).count c = m.count c +
        charge telemetry.handshakeSucceeded .peerClosed telemetry.bytesClientToServer
          telemetry.bytesServerToClient (.ofNat (min elapsed (2 ^ 64 - 1))) c :=
    fun c hc => TunnelMetrics.count_connectionClosed hc
  constructor
  · intro h
    have hrecord := h.record
    rw [hcount _ (by decide)] at hrecord
    simpa using add_ite_iff.1 hrecord
  · rintro rfl
    refine ⟨?_, ?_, ?_, fun h => absurd h Bool.false_ne_true⟩
    all_goals exact hcount _ (by decide)

/-- Beside naming the handshake, the texts of the repository add nothing. -/
theorem SessionError.masked_chain {e : SessionError}
    (hown : ∀ r ∈ e.own, r = .noiseHandshakeFailed) : Masked e.chain ↔ Masked e.foreign := by
  have hother : ∀ r, r ≠ .noiseHandshakeFailed → (Suggested e.chain r ↔ Suggested e.foreign r) :=
    fun r hr => e.suggested_chain.trans (or_iff_right fun hmem => hr (hown r hmem))
  simp only [Masked, hother _ (by decide : CloseReason.shutdown ≠ _),
    hother _ (by decide : CloseReason.idleTimeout ≠ _),
    hother _ (by decide : CloseReason.outerTlsFailed ≠ _)]

theorem SessionError.counted_chain {e : SessionError}
    (hown : ∀ r ∈ e.own, r = .noiseHandshakeFailed) : Counted e.chain ↔ Counted e.foreign := by
  have hother : ∀ r, r ≠ .noiseHandshakeFailed → (Suggested e.chain r ↔ Suggested e.foreign r) :=
    fun r hr => e.suggested_chain.trans (or_iff_right fun hmem => hr (hown r hmem))
  simp only [Counted, hother _ (by decide : CloseReason.decryptFailed ≠ _),
    hother _ (by decide : CloseReason.destinationConnectFailed ≠ _),
    hother _ (by decide : CloseReason.unauthorizedClient ≠ _)]

theorem TunnelError.own_handshake (e : TunnelError) : ∀ r ∈ e.own, r = .noiseHandshakeFailed := by
  rw [own]
  cases e.namesHandshake <;> simp

theorem TunnelError.mem_own (e : TunnelError) :
    .noiseHandshakeFailed ∈ e.own ↔ e.namesHandshake = true := by
  rw [own]
  cases e.namesHandshake <;> simp

/-- A failure at no particular stage is reported as anything that is not counted. -/
theorem named_other {e : SessionError} (hown : ∀ r ∈ e.own, r = .noiseHandshakeFailed)
    (hhandshake : e.handshake = false) (hunauthorised : e.unauthorised = false)
    (hconnecting : e.connecting = false) :
    Named false e (.fromError e.chain) ↔ Silent e.foreign := by
  rw [Silent, ← e.masked_chain hown, ← e.counted_chain hown]
  simp only [Named, hhandshake, hunauthorised, hconnecting, Bool.false_eq_true, iff_false,
    false_imp_iff, and_true, fromError_eq_unauthorizedClient, fromError_eq_destinationConnectFailed,
    fromError_eq_decryptFailed, Counted]
  by_cases hmasked : Masked e.chain
  · simp only [hmasked, not_true_eq_false, false_and, not_false_eq_true, and_self, true_or]
  by_cases hdecrypt : Suggested e.chain .decryptFailed
  · simp only [hmasked, hdecrypt, not_false_eq_true, true_and, not_true_eq_false, and_false,
      true_or, or_self]
  by_cases hconnect : Suggested e.chain .destinationConnectFailed
  · simp only [hmasked, hdecrypt, hconnect, not_false_eq_true, true_and, not_true_eq_false,
      false_and, and_false, true_or, or_true, or_self]
  · simp only [hmasked, hdecrypt, hconnect, not_false_eq_true, true_and, and_true, false_or]

/-- A failure of the handshake is reported as one if what comes from outside is clear,
    and one of the texts names the handshake. -/
theorem named_handshake {e : SessionError} (hown : ∀ r ∈ e.own, r = .noiseHandshakeFailed)
    (hhandshake : e.handshake = true) (hunauthorised : e.unauthorised = false)
    (hconnecting : e.connecting = false) :
    Named false e (.fromError e.chain) ↔ Clear e.foreign ∧
      (.noiseHandshakeFailed ∈ e.own ∨ Suggested e.foreign .noiseHandshakeFailed) := by
  have hreason : Named false e (.fromError e.chain) ↔
      CloseReason.fromError e.chain = .noiseHandshakeFailed := by
    refine ⟨fun h => h.2.2.2 hhandshake hunauthorised, fun h => ?_⟩
    simp [Named, h, hunauthorised, hconnecting]
  rw [hreason, fromError_eq_noiseHandshakeFailed, e.masked_chain hown, e.counted_chain hown,
    e.suggested_chain, ← and_assoc, Clear]

/-- The close reason names the stage exactly if the error is told, where it tells of a
    rejected record exactly if there is one. -/
theorem named_iff_told (e : SessionError) :
    Named e.rejection e (.fromError e.chain) ↔ e.Told := by
  -- Where all texts are fixed, so is the reason.
  have hfixed : ∀ reason : CloseReason, CloseReason.fromError e.chain = reason →
      Named e.rejection e reason → Named e.rejection e (.fromError e.chain) :=
    fun _ h hnamed => h ▸ hnamed
  have hnone : ∀ r ∈ ([] : List CloseReason), r = .noiseHandshakeFailed :=
    fun r hr => absurd hr List.not_mem_nil
  cases e with
  | shutdownRequested =>
    exact iff_of_true (hfixed .shutdown (by decide +kernel) (by decide)) trivial
  | tlsTimeout =>
    exact iff_of_true (hfixed .outerTlsFailed (by decide +kernel) (by decide)) trivial
  | prefaceTimeout | firstTimeout =>
    exact iff_of_true (hfixed .noiseHandshakeFailed (by decide +kernel) (by decide))
      trivial
  | connectTimeout =>
    exact iff_of_true (hfixed .destinationConnectFailed (by decide +kernel) (by decide))
      trivial
  | nodelay display | keepalive display | tls display | privateKey path cause | publicKey cause =>
    exact named_other hnone rfl rfl rfl
  | prefaceRead e | firstRead e | replyWrite display =>
    refine (named_handshake ?_ rfl rfl rfl).trans (and_congr_right' (or_iff_right ?_))
    · exact hnone
    · exact List.not_mem_nil
  | construct e | acceptPreface e | message e | intoSession e =>
    refine (named_handshake ?_ rfl rfl rfl).trans (and_congr_right' (or_congr_left ?_))
    · exact e.own_handshake
    · exact e.mem_own
  | connect display =>
    have hreason : Named false (.connect display) (.fromError [display]) ↔
        CloseReason.fromError [display] = .destinationConnectFailed := by
      refine ⟨fun h => h.2.1.2 rfl, fun h => ?_⟩
      simp [Named, h, SessionError.unauthorised, SessionError.connecting, SessionError.handshake]
    exact hreason.trans fromError_eq_destinationConnectFailed
  | receiveClient e =>
    by_cases he : e = .unauthorisedClient
    · -- The text that is looked for is not the one that the error has.
      subst he
      have hreason : CloseReason.fromError (SessionError.receiveClient .unauthorisedClient).chain =
          .noiseHandshakeFailed := by decide +kernel
      rw [hreason]
      exact iff_of_false (by decide) fun h => h.1 rfl
    · have hstage : (SessionError.receiveClient e).unauthorised = false := by
        cases e with
        | unauthorisedClient => exact absurd rfl he
        | _ => rfl
      have hown : ∀ r ∈ CloseReason.noiseHandshakeFailed :: e.own, r = .noiseHandshakeFailed :=
        List.forall_mem_cons.2 ⟨rfl, e.own_handshake⟩
      refine (named_handshake (e := .receiveClient e) hown rfl hstage rfl).trans
        ⟨fun h => ⟨he, h.1⟩, fun h => ?_⟩
      exact ⟨h.2, .inl List.mem_cons_self⟩
  | relay e =>
    have hsilent : Silent [] := .inr (by simp [Counted])
    cases e with
    | idleTimeout =>
      exact iff_of_true (hfixed .idleTimeout (by decide +kernel) (by decide))
        (.inr hsilent)
    | shutdownRequested =>
      exact iff_of_true (hfixed .shutdown (by decide +kernel) (by decide))
        (.inr hsilent)
    | panicked context display =>
      refine (named_other (e := .relay (.panicked context display)) hnone rfl rfl rfl).trans
        (or_iff_right ?_).symm
      simp
    | copy e =>
      by_cases he : e = .tunnel (.noise .decrypt)
      · subst he
        exact iff_of_true (hfixed .decryptFailed (by decide +kernel) (by decide))
          (.inl rfl)
      · have hown : ∀ r ∈ (RelayError.copy e).own, r = .noiseHandshakeFailed := by
          cases e with
          | stream e => exact hnone
          | tunnel e => exact e.own_handshake
        have hrejection : (SessionError.relay (.copy e)).rejection = false := by
          rw [SessionError.rejection.eq_def]
          split
          · simp_all
          · rfl
        rw [hrejection]
        refine (named_other (e := .relay (.copy e)) hown rfl rfl rfl).trans
          (or_iff_right ?_).symm
        simpa using he

/-- An error of the relay that is reported as a rejected record by chance, by what
    comes from outside. -/
def RelayError.Chance (e : RelayError) : Prop :=
  e ≠ .idleTimeout ∧ e ≠ .shutdownRequested ∧ ¬Masked e.foreign ∧
    Suggested e.foreign .decryptFailed

/-- Where a record was rejected and the relay reports another error, the close reason
    names the record only by chance. -/
theorem named_hidden (e : RelayError) :
    Named true (.relay e) (.fromError e.chain) ↔ e.Chance := by
  have hreason : Named true (.relay e) (.fromError e.chain) ↔
      CloseReason.fromError e.chain = .decryptFailed := by
    refine ⟨fun h => h.2.2.1.2 rfl, fun h => ?_⟩
    simp [Named, h, SessionError.unauthorised, SessionError.connecting, SessionError.handshake]
  have hfixed : ∀ reason : CloseReason, CloseReason.fromError e.chain = reason →
      reason ≠ .decryptFailed → CloseReason.fromError e.chain ≠ .decryptFailed :=
    fun _ h hne => h ▸ hne
  rw [hreason]
  cases e with
  | idleTimeout =>
    exact iff_of_false (hfixed .idleTimeout (by decide +kernel) (by decide)) fun h => h.1 rfl
  | shutdownRequested =>
    exact iff_of_false (hfixed .shutdown (by decide +kernel) (by decide)) fun h => h.2.1 rfl
  | panicked context display =>
    exact fromError_eq_decryptFailed.trans
      ⟨fun h => ⟨nofun, nofun, h⟩, fun h => ⟨h.2.2.1, h.2.2.2⟩⟩
  | copy e =>
    have hown : ∀ r ∈ (RelayError.copy e).own, r = .noiseHandshakeFailed := by
      cases e with
      | stream e => exact fun r hr => absurd hr List.not_mem_nil
      | tunnel e => exact e.own_handshake
    have hmasked := SessionError.masked_chain (e := .relay (.copy e)) hown
    have hsuggested : Suggested (RelayError.copy e).chain .decryptFailed ↔
        Suggested (RelayError.copy e).foreign .decryptFailed :=
      (RelayError.copy e).suggested_chain.trans
        (or_iff_right fun hmem => absurd (hown _ hmem) (by decide))
    refine fromError_eq_decryptFailed.trans ((and_congr (not_congr hmasked) hsuggested).trans ?_)
    exact ⟨fun h => ⟨nofun, nofun, h⟩, fun h => ⟨h.2.2.1, h.2.2.2⟩⟩

end SecureTunnel
