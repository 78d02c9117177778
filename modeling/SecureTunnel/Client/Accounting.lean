import SecureTunnel.Client.Session
import SecureTunnel.Server.Accounting

/-!
# What the client tells of a failure

`finish_connection` of the client logs, besides what both hosts count, the stage at
which a session failed, which `error_stage` finds by the words in the rendered error.
Whether that is the stage at which it did fail depends on which texts of the error are
the repository's own: `ClientSessionError.stages` is what these name, and
`client_failure_told` the equivalence.
-/

namespace SecureTunnel

/-! ## The stages -/

/-- What `error_stage` tells. -/
inductive ErrorStage
  | localNodelay
  | localKeepalive
  | remoteConnect
  | remoteNodelay
  | remoteKeepalive
  | noiseHandshake
  | other
  deriving DecidableEq

namespace ErrorStage

def asStr : ErrorStage → Text
  | localNodelay => "local_nodelay".toList
  | localKeepalive => "local_keepalive".toList
  | remoteConnect => "remote_connect".toList
  | remoteNodelay => "remote_nodelay".toList
  | remoteKeepalive => "remote_keepalive".toList
  | noiseHandshake => "noise_handshake".toList
  | other => "other".toList

theorem asStr_injective : Function.Injective asStr := by
  intro stage stage' h
  cases stage <;> cases stage' <;> first | rfl | exact absurd h (by decide)

/-- The words by which a stage is recognised. -/
def words : ErrorStage → List Word
  | localNodelay => [{ letters := "local tcp nodelay".toList }]
  | localKeepalive => [{ letters := "local tcp keepalive".toList }]
  | remoteConnect => [{ letters := "remote connect".toList }]
  | remoteNodelay => [{ letters := "remote tcp nodelay".toList }]
  | remoteKeepalive => [{ letters := "remote tcp keepalive".toList }]
  -- `noise handshake` and `preface`, which are words of the reason too.
  | noiseHandshake => (CloseReason.words .noiseHandshakeFailed).take 2
  | other => []

/-- The stages that are tried before. -/
def before : ErrorStage → List ErrorStage
  | localNodelay => []
  | localKeepalive => [localNodelay]
  | remoteConnect => [localNodelay, localKeepalive]
  | remoteNodelay => [localNodelay, localKeepalive, remoteConnect]
  | remoteKeepalive => [localNodelay, localKeepalive, remoteConnect, remoteNodelay]
  | noiseHandshake =>
    [localNodelay, localKeepalive, remoteConnect, remoteNodelay, remoteKeepalive]
  | other =>
    [localNodelay, localKeepalive, remoteConnect, remoteNodelay, remoteKeepalive, noiseHandshake]

end ErrorStage

/-- `error_stage`, on the chain of an error. -/
def errorStage (error : List Text) : ErrorStage :=
  let message := lower (render error)
  if "local tcp nodelay".toList <:+: message then .localNodelay
  else if "local tcp keepalive".toList <:+: message then .localKeepalive
  else if "remote connect".toList <:+: message then .remoteConnect
  else if "remote tcp nodelay".toList <:+: message then .remoteNodelay
  else if "remote tcp keepalive".toList <:+: message then .remoteKeepalive
  else if "noise handshake".toList <:+: message ∨ "preface".toList <:+: message then .noiseHandshake
  else .other

/-- The stage that `finish_connection` logs. -/
def finishStage (result : Except (List Text) Unit) : Text :=
  match result with
  | .ok _ => "complete".toList
  | .error chain => (errorStage chain).asStr

/-- The first stage whose words are in a text of the chain is told. -/
theorem errorStage_eq (chain : List Text) : errorStage chain =
    if Found (ErrorStage.words .localNodelay) chain then .localNodelay
    else if Found (ErrorStage.words .localKeepalive) chain then .localKeepalive
    else if Found (ErrorStage.words .remoteConnect) chain then .remoteConnect
    else if Found (ErrorStage.words .remoteNodelay) chain then .remoteNodelay
    else if Found (ErrorStage.words .remoteKeepalive) chain then .remoteKeepalive
    else if Found (ErrorStage.words .noiseHandshake) chain then .noiseHandshake
    else .other := by
  refine if_congr ?_ rfl (if_congr ?_ rfl (if_congr ?_ rfl (if_congr ?_ rfl (if_congr ?_ rfl
    (if_congr ?_ rfl rfl)))))
  all_goals
    simp only [found_iff, ErrorStage.words, CloseReason.words, List.take_succ_cons, List.take_zero,
      List.exists_mem_cons_iff, List.not_mem_nil, false_and, exists_false, or_false, Word.Inside]

theorem errorStage_eq_iff {chain : List Text} {stage : ErrorStage} : errorStage chain = stage ↔
    (stage = .other ∨ Found stage.words chain) ∧ ∀ s ∈ stage.before, ¬Found s.words chain := by
  rw [errorStage_eq]
  cases stage <;> simp only [ErrorStage.before, List.forall_mem_cons, List.not_mem_nil] <;>
    split_ifs <;> simp [*]

/-! ## What the texts of an error name -/

/-- What fixed texts name is decided stage by stage. -/
theorem found_texts (texts : List Text) (stages : List ErrorStage) {s : ErrorStage}
    (h : ∀ s ∈ [ErrorStage.localNodelay, .localKeepalive, .remoteConnect, .remoteNodelay,
      .remoteKeepalive, .noiseHandshake, .other], Found s.words texts ↔ s ∈ stages) :
    Found s.words texts ↔ s ∈ stages :=
  h s (by cases s <;> simp)

/-- The stages that the texts of the repository in an error name. -/
def TunnelError.stages : TunnelError → List ErrorStage
  | .invalidPreface => [.noiseHandshake]
  | _ => []

def RelayError.stages : RelayError → List ErrorStage
  | .copy (.tunnel e) => e.stages
  | _ => []

namespace ClientSessionError

def stages : ClientSessionError → List ErrorStage
  | localNodelay _ => [.localNodelay]
  | localKeepalive _ => [.localKeepalive]
  | connectTimeout => [.remoteConnect]
  | remoteNodelay _ => [.remoteNodelay]
  | remoteKeepalive _ => [.remoteKeepalive]
  | firstMessage e | finish e => .noiseHandshake :: e.stages
  | replyTimeout => [.noiseHandshake]
  | construct e => e.stages
  | relay e => e.stages
  | shutdownRequested | connect _ | serverName _ | tlsTimeout | tls _ | privateKey _ | publicKey _
  | write _ | replyRead _ => []

/-- The texts of an error that come from outside. -/
def foreign : ClientSessionError → List Text
  | localNodelay display | localKeepalive display | connect display | remoteNodelay display
  | remoteKeepalive display | tls display | write display => [display]
  | serverName cause | privateKey cause | publicKey cause => cause
  | construct e | firstMessage e | finish e => e.foreign
  | replyRead e => e.foreign
  | relay e => e.foreign
  | shutdownRequested | connectTimeout | tlsTimeout | replyTimeout => []

/-- The stage at which an error was raised. -/
def stage : ClientSessionError → ErrorStage
  | localNodelay _ => .localNodelay
  | localKeepalive _ => .localKeepalive
  | connectTimeout | connect _ => .remoteConnect
  | remoteNodelay _ => .remoteNodelay
  | remoteKeepalive _ => .remoteKeepalive
  | write _ | construct _ | firstMessage _ | replyTimeout | replyRead _ | finish _ =>
    .noiseHandshake
  | shutdownRequested | serverName _ | tlsTimeout | tls _ | privateKey _ | publicKey _ | relay _ =>
    .other

end ClientSessionError

section Stages

variable {s : ErrorStage}

/-- A text that ends with a number. -/
theorem found_number_end (a : Text) (n : ℕ) :
    Found s.words [a ++ digits n] ↔ Found s.words [a] := by
  have hnil : ¬Found s.words [[]] := by
    rw [found_texts [[]] [] (by decide +kernel)]
    exact List.not_mem_nil
  have h : Found s.words [a ++ digits n ++ []] ↔ Found s.words [a, []] := found_number a [] n
  rw [List.append_nil] at h
  exact h.trans (found_cons.trans (or_iff_left hnil))

/-- The text of an error names a stage if it has the word `preface`. -/
theorem TunnelError.found_display (e : TunnelError) : Found s.words [e.display] ↔ s ∈ e.stages := by
  cases e with
  | unsupportedVersion major minor =>
    exact (found_number_end _ _).trans ((found_number _ _ _).trans
      (found_texts ["unsupported protocol version ".toList, ".".toList] [] (by decide +kernel)))
  | handshakeMessageTooLarge bytes =>
    exact (found_number _ _ _).trans (found_texts
      ["handshake message is too large: ".toList, " bytes".toList] [] (by decide +kernel))
  | plaintextTooLarge bytes =>
    exact (found_number _ _ _).trans (found_texts
      ["plaintext record is too large: ".toList, " bytes".toList] [] (by decide +kernel))
  | ciphertextTooLarge bytes =>
    exact (found_number _ _ _).trans (found_texts
      ["ciphertext record is too large: ".toList, " bytes".toList] [] (by decide +kernel))
  | truncatedFrame expected actual =>
    exact (found_number_end _ _).trans ((found_number _ _ _).trans
      (found_texts ["truncated frame: expected ".toList, " bytes, got ".toList] []
        (by decide +kernel)))
  | tooManyServerStaticIdentities count =>
    refine (found_number _ _ _).trans (found_cons.trans ?_)
    have hcount : Found s.words ["too many server static identities: ".toList ++ digits count ++
        " (maximum ".toList] ↔ s ∈ ([] : List ErrorStage) :=
      (found_number _ _ _).trans (found_texts
        ["too many server static identities: ".toList, " (maximum ".toList] [] (by decide +kernel))
    have hend : Found s.words [")".toList] ↔ s ∈ ([] : List ErrorStage) :=
      found_texts [")".toList] [] (by decide +kernel)
    exact (or_congr hcount hend).trans or_self_iff
  | invalidPreface =>
    exact found_texts ["invalid protocol preface".toList] [.noiseHandshake] (by decide +kernel)
  | handshakeOrder =>
    exact found_texts ["handshake operation is out of order".toList] [] (by decide +kernel)
  | closedSession =>
    exact found_texts
      ["handshake or transport session is closed after completion or failure".toList] []
      (by decide +kernel)
  | trailingFrameBytes =>
    exact found_texts ["frame contains trailing bytes".toList] [] (by decide +kernel)
  | unauthorisedClient =>
    exact found_texts ["client static key is not authorised".toList] [] (by decide +kernel)
  | missingServerStaticIdentity =>
    exact found_texts ["at least one server static identity is required".toList] []
      (by decide +kernel)
  | invalidKeyMaterial =>
    exact found_texts ["invalid Noise static key material".toList] [] (by decide +kernel)
  | noise source =>
    exact found_texts ["cryptographic operation failed".toList] [] (by decide +kernel)
  | poisonedCipherState =>
    exact found_texts ["transport cipher state lock poisoned".toList] [] (by decide +kernel)

theorem TunnelError.found_chain (e : TunnelError) :
    Found s.words e.chain ↔ s ∈ e.stages ∨ Found s.words e.foreign := by
  rw [← e.found_display]
  cases e with
  | noise source => exact found_cons
  | _ => exact (or_iff_left not_found_nil).symm

theorem StreamError.found_display (e : StreamError) :
    Found s.words [e.display] ↔ Found s.words e.foreign := by
  have hnone : s ∈ ([] : List ErrorStage) ↔ Found s.words [] :=
    iff_of_false List.not_mem_nil not_found_nil
  cases e with
  | io display => exact Iff.rfl
  | eof => exact (found_texts ["early eof".toList] [] (by decide +kernel)).trans hnone
  | oversized =>
    exact (found_texts ["received oversized protocol frame".toList] [] (by decide +kernel)).trans
      hnone
  | invalidLength length =>
    exact ((found_number_end _ _).trans
      (found_texts ["invalid frame length ".toList] [] (by decide +kernel))).trans hnone

theorem RelayError.found_chain (e : RelayError) :
    Found s.words e.chain ↔ s ∈ e.stages ∨ Found s.words e.foreign := by
  cases e with
  | panicked context display => exact (or_iff_right List.not_mem_nil).symm
  | copy e =>
    cases e with
    | stream e => exact e.found_display.trans (or_iff_right List.not_mem_nil).symm
    | tunnel e => exact e.found_chain
  | idleTimeout =>
    exact (found_texts ["idle timeout".toList] [] (by decide +kernel)).trans
      (or_iff_left not_found_nil).symm
  | shutdownRequested =>
    exact (found_texts ["shutdown requested".toList] [] (by decide +kernel)).trans
      (or_iff_left not_found_nil).symm

/-- A context of the repository, before texts from outside. -/
theorem found_context {texts chain : List Text} {stages : List ErrorStage}
    (h : Found s.words texts ↔ s ∈ stages) :
    Found s.words (texts ++ chain) ↔ s ∈ stages ∨ Found s.words chain :=
  found_append.trans (or_congr_left h)

/-- An error names the stages that the texts of the repository in it do, and those that
    texts from outside do. -/
theorem ClientSessionError.found_chain (e : ClientSessionError) :
    Found s.words e.chain ↔ s ∈ e.stages ∨ Found s.words e.foreign := by
  cases e with
  | connect display | tls display | write display => exact (or_iff_right List.not_mem_nil).symm
  | serverName cause | privateKey cause | publicKey cause =>
    exact (or_iff_right List.not_mem_nil).symm
  | shutdownRequested =>
    exact (found_texts ["shutdown requested".toList] [] (by decide +kernel)).trans
      (or_iff_left not_found_nil).symm
  | localNodelay display =>
    exact found_context (found_texts ["local TCP nodelay setup failed".toList] [.localNodelay]
      (by decide +kernel))
  | localKeepalive display =>
    exact found_context (found_texts ["local TCP keepalive setup failed".toList,
      "could not enable TCP keepalive".toList] [.localKeepalive] (by decide +kernel))
  | connectTimeout =>
    exact (found_texts ["remote connect timed out".toList, elapsed] [.remoteConnect]
      (by decide +kernel)).trans (or_iff_left not_found_nil).symm
  | remoteNodelay display =>
    exact found_context (found_texts ["remote TCP nodelay setup failed".toList] [.remoteNodelay]
      (by decide +kernel))
  | remoteKeepalive display =>
    exact found_context (found_texts ["remote TCP keepalive setup failed".toList,
      "could not enable TCP keepalive".toList] [.remoteKeepalive] (by decide +kernel))
  | tlsTimeout =>
    exact (found_texts ["outer TLS handshake timed out".toList, elapsed] []
      (by decide +kernel)).trans (or_iff_left not_found_nil).symm
  | replyTimeout =>
    exact (found_texts ["Noise handshake timed out".toList, elapsed] [.noiseHandshake]
      (by decide +kernel)).trans (or_iff_left not_found_nil).symm
  | firstMessage e | finish e =>
    have hcontext := found_texts (s := s) ["Noise handshake failed".toList] [.noiseHandshake]
      (by decide +kernel)
    refine (found_context hcontext).trans ((or_congr_right e.found_chain).trans ?_)
    rw [← or_assoc, ← List.mem_append]
    rfl
  | construct e => exact e.found_chain
  | replyRead e => exact e.found_display.trans (or_iff_right List.not_mem_nil).symm
  | relay e => exact e.found_chain

end Stages

/-- The stage that is told is the one at which the error was raised: a text names it,
    and none names one that is tried before. -/
structure ClientSessionError.Staged (e : ClientSessionError) : Prop where
  named : e.stage = .other ∨ e.stage ∈ e.stages ∨ Found e.stage.words e.foreign
  first : ∀ s ∈ e.stage.before, s ∉ e.stages ∧ ¬Found s.words e.foreign

theorem ClientSessionError.errorStage_iff (e : ClientSessionError) :
    errorStage e.chain = e.stage ↔ e.Staged := by
  rw [errorStage_eq_iff]
  simp only [e.found_chain, not_or]
  exact ⟨fun ⟨hnamed, hfirst⟩ => ⟨hnamed, hfirst⟩, fun h => ⟨h.named, h.first⟩⟩

/-! ## What is counted -/

/-- The counter that a reason has of its own. -/
def CloseReason.counter : CloseReason → Option Counter
  | unauthorizedClient => some .unauthorizedClientTotal
  | decryptFailed => some .decryptFailureTotal
  | destinationConnectFailed => some .destinationConnectFailureTotal
  | _ => none

section Reasons

variable {r : CloseReason}

/-- The reasons suggested by the texts of the repository in an error. -/
def ClientSessionError.own : ClientSessionError → List CloseReason
  | shutdownRequested => [.shutdown]
  | tlsTimeout => [.outerTlsFailed, .noiseHandshakeFailed]
  | replyTimeout => [.noiseHandshakeFailed]
  | firstMessage e | finish e => .noiseHandshakeFailed :: e.own
  | construct e => e.own
  | relay e => e.own
  | localNodelay _ | localKeepalive _ | connectTimeout | connect _ | remoteNodelay _
  | remoteKeepalive _ | serverName _ | tls _ | privateKey _ | publicKey _ | write _
  | replyRead _ => []

theorem suggested_context {texts chain : List Text} {rs : List CloseReason}
    (h : Suggested texts r ↔ r ∈ rs) :
    Suggested (texts ++ chain) r ↔ r ∈ rs ∨ Suggested chain r :=
  -- To be suggested is that the words of the reason are found.
  found_append.trans (or_congr_left h)

theorem ClientSessionError.suggested_chain (e : ClientSessionError) :
    Suggested e.chain r ↔ r ∈ e.own ∨ Suggested e.foreign r := by
  cases e with
  | connect display | tls display | write display => exact (or_iff_right List.not_mem_nil).symm
  | serverName cause | privateKey cause | publicKey cause =>
    exact (or_iff_right List.not_mem_nil).symm
  | shutdownRequested =>
    exact (suggested_texts ["shutdown requested".toList] [.shutdown] (by decide +kernel)).trans
      (or_iff_left not_suggested_nil).symm
  | localNodelay display =>
    exact suggested_context (suggested_texts ["local TCP nodelay setup failed".toList] []
      (by decide +kernel))
  | localKeepalive display =>
    exact suggested_context (suggested_texts ["local TCP keepalive setup failed".toList,
      "could not enable TCP keepalive".toList] [] (by decide +kernel))
  | connectTimeout =>
    exact (suggested_texts ["remote connect timed out".toList, elapsed] []
      (by decide +kernel)).trans (or_iff_left not_suggested_nil).symm
  | remoteNodelay display =>
    exact suggested_context (suggested_texts ["remote TCP nodelay setup failed".toList] []
      (by decide +kernel))
  | remoteKeepalive display =>
    exact suggested_context (suggested_texts ["remote TCP keepalive setup failed".toList,
      "could not enable TCP keepalive".toList] [] (by decide +kernel))
  | tlsTimeout =>
    exact (suggested_texts ["outer TLS handshake timed out".toList, elapsed]
      [.outerTlsFailed, .noiseHandshakeFailed] (by decide +kernel)).trans
      (or_iff_left not_suggested_nil).symm
  | replyTimeout =>
    exact (suggested_texts ["Noise handshake timed out".toList, elapsed] [.noiseHandshakeFailed]
      (by decide +kernel)).trans (or_iff_left not_suggested_nil).symm
  | firstMessage e | finish e =>
    have hcontext := suggested_texts (r := r) ["Noise handshake failed".toList]
      [.noiseHandshakeFailed] (by decide +kernel)
    refine (suggested_context hcontext).trans ((or_congr_right e.suggested_chain).trans ?_)
    rw [← or_assoc, ← List.mem_append]
    rfl
  | construct e => exact e.suggested_chain
  | replyRead e => exact e.suggested_display.trans (or_iff_right List.not_mem_nil).symm
  | relay e => exact e.suggested_chain

/-- The texts of the repository suggest no reason that has a counter of its own. -/
theorem RelayError.not_counted_own {e : RelayError} (hr : r ∈ e.own) : r.counter = none := by
  cases e with
  | panicked context display => cases hr
  | copy e =>
    cases e with
    | stream e => cases hr
    | tunnel e => exact e.own_handshake r hr ▸ rfl
  | idleTimeout | shutdownRequested => exact List.mem_singleton.1 hr ▸ rfl

theorem ClientSessionError.not_counted_own {e : ClientSessionError} (hr : r ∈ e.own) :
    r.counter = none := by
  cases e with
  | shutdownRequested | replyTimeout => exact List.mem_singleton.1 hr ▸ rfl
  | tlsTimeout =>
    obtain rfl | hr := List.mem_cons.1 hr
    · rfl
    · exact List.mem_singleton.1 hr ▸ rfl
  | firstMessage e | finish e =>
    obtain rfl | hr := List.mem_cons.1 hr
    · rfl
    · exact e.own_handshake r hr ▸ rfl
  | construct e => exact e.own_handshake r hr ▸ rfl
  | relay e => exact e.not_counted_own hr
  | _ => cases hr

end Reasons

/-- Whatever a failed session makes a counter of a reason grow by, a text from outside
    suggests the reason. -/
theorem ClientSessionError.suggested_of_counted {e : ClientSessionError} {m : TunnelMetrics}
    {telemetry : ConnectionTelemetry} {elapsed : ℕ} {r : CloseReason} {c : Counter}
    (hc : r.counter = some c)
    (h : (finishConnection m telemetry (.error e.chain) elapsed).count c ≠ m.count c) :
    Suggested e.foreign r := by
  have hreason : CloseReason.fromError e.chain = r := by
    by_contra hother
    refine h ((TunnelMetrics.count_connectionClosed ?_).trans ?_)
    · rintro rfl
      cases r <;> cases hc
    · cases r <;> cases hc <;> simp [charge, finishReason, hother]
  have hsuggested : Suggested e.chain r := by
    cases r with
    | decryptFailed => exact (fromError_eq_decryptFailed.1 hreason).2
    | destinationConnectFailed => exact (fromError_eq_destinationConnectFailed.1 hreason).2.2
    | unauthorizedClient => exact (fromError_eq_unauthorizedClient.1 hreason).2.2.2
    | _ => cases hc
  obtain hown | hforeign := e.suggested_chain.1 hsuggested
  · cases (not_counted_own hown).symm.trans hc
  · exact hforeign

/-! ## Where a session fails -/

/-- The stage of a place. -/
def ClientPhase.stage {HS Key : Type*} : ClientPhase HS Key → ErrorStage
  | .localNodelay => .localNodelay
  | .localKeepalive => .localKeepalive
  | .connecting => .remoteConnect
  | .remoteNodelay => .remoteNodelay
  | .remoteKeepalive => .remoteKeepalive
  | .preface _ | .first .. | .flush _ | .reply .. => .noiseHandshake
  | .tls | .relaying _ | .ended _ => .other

/-- The error is not one of the place: the shutdown, or the configuration, which is
    looked at on the way from one place to the next. -/
def ClientSessionError.aside : ClientSessionError → Bool
  | shutdownRequested | serverName _ | privateKey _ | publicKey _ => true
  | _ => false

namespace ClientSession

variable {HS Key : Type*} {snow : Snow HS Key} {setup : ClientSetup}
  {x x' : ClientSession HS Key} {event : SessionEvent} {e : ClientSessionError}

theorem aside_of_runNoise (h : (x.runNoise setup).phase = .ended (.error e)) :
    e.aside = true := by
  rw [runNoise] at h
  split at h
  · cases h
    rfl
  · split at h
    · cases h
      rfl
    · cases h

theorem aside_of_afterKeepalive (h : (x.afterKeepalive setup).phase = .ended (.error e)) :
    e.aside = true := by
  rw [afterKeepalive] at h
  split at h
  · split at h
    · cases h
      rfl
    · cases h
  · exact aside_of_runNoise h

/-- After the preface nothing fails but the handshake object. -/
theorem stage_of_afterPreface (hphase : ∀ result, x.phase ≠ .ended result)
    (h : (x.afterPreface snow setup).phase = .ended (.error e)) : e.stage = .noiseHandshake := by
  rw [afterPreface] at h
  split at h
  · split at h
    · cases h
      rfl
    · split at h
      · cases h
        rfl
      · cases h
  · exact absurd h (hphase _)

theorem stage_of_afterReply {handshake : ClientHandshake HS} {reply : Bytes}
    (h : (x.afterReply snow handshake reply).phase = .ended (.error e)) :
    e.stage = .noiseHandshake := by
  rw [afterReply] at h
  split at h
  · cases h
    rfl
  · cases h

/-- A session fails at the stage of the place where it was. -/
theorem stage_of_step (h : x.step snow setup event = some x')
    (hended : x'.phase = .ended (.error e)) : e.aside = true ∨ e.stage = x.phase.stage := by
  rw [step.eq_def] at h
  split at h
  any_goals
    -- What a session awaits succeeds, fails, times out, or is overtaken by the shutdown.
    rename_i hphase
    obtain rfl := Option.some.inj h
    cases hended <;> first | exact .inl rfl | exact .inr (hphase ▸ rfl)
  · exact .inl (aside_of_afterKeepalive (Option.some.inj h ▸ hended))
  · exact .inl (aside_of_runNoise (Option.some.inj h ▸ hended))
  · rename_i rest n hphase
    split at h
    · dsimp only at h
      split at h
      · refine .inr ((stage_of_afterPreface (fun result hresult => ?_)
          (Option.some.inj h ▸ hended)).trans (hphase ▸ rfl))
        cases hphase.symm.trans hresult
      · obtain rfl := Option.some.inj h
        cases hended
    · cases h
  · rename_i handshake rest n hphase
    obtain ⟨-, rfl⟩ := Option.ite_some_none_eq_some.1 h
    split_ifs at hended
  · rename_i handshake got piece hphase
    split at h
    · obtain rfl := Option.some.inj h
      cases hended
      exact .inr (hphase ▸ rfl)
    split at h
    · dsimp only at h
      split at h
      · obtain rfl := Option.some.inj h
        cases hended
      · obtain rfl := Option.some.inj h
        cases hended
        exact .inr (hphase ▸ rfl)
      · exact .inr ((stage_of_afterReply (Option.some.inj h ▸ hended)).trans (hphase ▸ rfl))
    · cases h
  · rename_i transport piece hphase
    obtain rfl := Option.some.inj h
    cases hphase.symm.trans hended
  · rename_i transport bytes hphase
    obtain rfl := Option.some.inj h
    cases hphase.symm.trans hended
  · rename_i transport result hphase
    obtain rfl := Option.some.inj h
    cases result with
    | ok => cases hended
    | error e =>
      cases hended
      exact .inr (hphase ▸ rfl)
  · cases h

end ClientSession

/-! ## What is told, over whole runs -/

section Runs

variable {HS Key : Type*} {snow : Snow HS Key} {setup : ClientSetup}
  {x x' : ClientSession HS Key} {event : SessionEvent} {e : ClientSessionError}

/-- In every run of a session that fails, the error is one of the place where the
    session was, or one of the configuration or the shutdown, and its stage is logged
    exactly if it is `Staged`. A handshake counts as successful only if `snow` has read
    a reply to the first message, and a counter of a reason grows only by a text from
    outside. -/
theorem client_failure_told (hreachable : (clientSession snow setup).Reachable EventSystem.always x)
    (hstep : (clientSession snow setup).step x event = some x')
    (hended : x'.phase = .ended (.error e))
    (m : TunnelMetrics) (id bytesIn bytesOut : UInt64) (elapsed : ℕ) :
    let m' := finishConnection m ⟨id, x'.handshakeSucceeded, bytesIn, bytesOut⟩
      (.error e.chain) elapsed
    (e.aside = true ∨ e.stage = x.phase.stage) ∧
      (finishStage (.error e.chain) = e.stage.asStr ↔ e.Staged) ∧
      (m'.count .handshakeSuccessTotal ≠ m.count .handshakeSuccessTotal →
        ClientSession.Shaken snow setup x'.received x'.sent) ∧
      ∀ r c, r.counter = some c → m'.count c ≠ m.count c → Suggested e.foreign r := by
  have hreachable' : (clientSession snow setup).Reachable EventSystem.always x' :=
    .step hreachable trivial hstep
  refine ⟨ClientSession.stage_of_step hstep hended,
    ErrorStage.asStr_injective.eq_iff.trans e.errorStage_iff, fun hsuccess => ?_,
    fun r c hc => ClientSessionError.suggested_of_counted hc⟩
  refine ClientSession.shaken_of_reachable hreachable' (.inr ?_)
  by_contra hfailed
  refine hsuccess ((TunnelMetrics.count_connectionClosed (by decide)).trans ?_)
  simp [charge, hfailed]

/-- A session of which a record fails to be decrypted, after its handshake. -/
theorem client_failure_told_decrypt :
    let key (b : UInt8) : StaticKey := ⟨List.replicate 32 b, List.length_replicate⟩
    let snow : Snow Bytes Unit := ⟨fun _ _ => .ok [], fun _ => .error .decrypt,
      fun s => .ok (⟨[8], by decide⟩, s), fun _ message => .ok message, some,
      fun _ => .ok (.fresh () ())⟩
    let setup : ClientSetup := ⟨false, .ok (), .ok (key 7), .ok (key 1)⟩
    let error : ClientSessionError := .relay (.copy (.tunnel (.noise .decrypt)))
    ∃ x, (clientSession snow setup).Reachable EventSystem.always x ∧
      x.phase = .ended (.error error) ∧ error.Staged ∧
      ClientSession.Shaken snow setup x.received x.sent ∧
      Suggested error.foreign .decryptFailed := by
  intro key snow setup error
  let x := ((clientSession snow setup).run EventSystem.always .initial
    [.proceed, .proceed, .proceed, .proceed, .proceed, .write 6, .write 3, .proceed, .read [0],
      .read [1], .read [9]]).get (by decide +kernel)
  have hreach : (clientSession snow setup).Reachable EventSystem.always x :=
    EventSystem.reachable_of_run rfl (Option.some_get _).symm
  let event : SessionEvent := .relayEnd (.error (.copy (.tunnel (.noise .decrypt))))
  let x' := (x.step snow setup event).get (by decide +kernel)
  have hstep : (clientSession snow setup).step x event = some x' := (Option.some_get _).symm
  have hended : x'.phase = .ended (.error error) := by decide +kernel
  obtain ⟨-, hstaged, hshaken, hcounted⟩ :=
    client_failure_told hreach hstep hended .default 1 0 0 10
  exact ⟨x', .step hreach trivial hstep, hended, hstaged.1 (by decide +kernel),
    hshaken (by decide +kernel), hcounted .decryptFailed _ rfl (by decide +kernel)⟩

end Runs

end SecureTunnel
