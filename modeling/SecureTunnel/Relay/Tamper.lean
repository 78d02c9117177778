import SecureTunnel.Account.Metrics
import SecureTunnel.Relay.Stop

/-!
# A network that tampers

A record that fails to authenticate closes the shared cipher state, so that the
opposite task of the host fails as well, with an error that names no decryption.
Which of the two ends the relay reports is up to its `select`.

In a run of a tunnel whose network puts any bytes on the wires, a rejected record
is accounted for as a decrypt failure as long as the relay does not leave by its
opposite task while `copy_decrypt` has, or may yet have, a failure to report
(`rejected_record_accounted`).
-/

namespace SecureTunnel

/-- What can happen to a tunnel whose network tampers. -/
inductive TamperEvent
  | tunnel (e : TunnelEvent)
  /-- The network puts other bytes in the place of those on a wire. -/
  | tamper (s : Side) (wire : Pipe UInt8)

namespace Tunnel

def tamperStep (S : Sealing Side) (idle : Side → ℕ) (t : Tunnel) : TamperEvent → Option Tunnel
  | .tunnel e => t.step S idle e
  | .tamper s wire => some (t.setLane s { t.lane s with wire })

end Tunnel

/-- The tunnel over a network that tampers. -/
def tampered (S : Sealing Side) (idle : Side → ℕ) : EventSystem Tunnel TamperEvent where
  init t := t = .initial
  step := Tunnel.tamperStep S idle

/-- `copy_decrypt` returned because a record failed to authenticate. -/
def Status.rejected : Status := .ended (.returned (.error (.tunnel (.noise .decrypt))))

def RelayError.rejected : RelayError := .copy (.tunnel (.noise .decrypt))

/-- The task whose end a branch reports. -/
def Branch.role (s : Side) : Branch → Option Role
  | request => some (.request s)
  | response => some (.response s)
  | activity | idle | shutdown => none

namespace Control

/-- Where the end of the opposite task is reported: the relay goes on with its loop,
    or `copy_decrypt` has ended otherwise, or it is cancelled before its next poll. -/
def Hears (c : Control) (s : Side) (branch : Branch) : Prop :=
  branch = .request ∧ c.status .enc = .ended (.returned (.ok ())) ∨
    (c.status .dec).isEnded = true ∧ c.status .dec ≠ .rejected ∨
    c.status .dec = .parked ∧ c.unwinds s branch = false

/-- What `copy_decrypt` has to report is what the relay returned, or is yet to come. -/
structure Heard (s : Side) (c : Control) : Prop where
  skipped : c.relay = .skipped → c.status .dec = .ended .never
  complete : c.relay = .selecting true → c.status (.request s) = .ended (.returned (.ok ()))
  returned : ∀ result, c.relay = .returned result →
    result = .error .rejected ∨ c.status .dec ≠ .rejected ∧ c.Still .dec

variable {c c' : Control} {s : Side} {e : TunnelEvent}

/-- A task that has not ended goes on, or ends. -/
theorem Heard.set (h : c.Heard s) {role : Role} {status : Status}
    (hlive : (c.status role).isEnded = false)
    (hstatus : role = .dec → c.Still .dec → status ≠ .rejected)
    (hstill : c.relay.isReturned = true → c.Still .dec → (c.set role status).Still .dec) :
    (c.set role status).Heard s := by
  have hother : ∀ {r o}, c.status r = .ended o → (c.set role status).status r = .ended o := by
    intro r o ho
    rw [set_status_of_ne, ho]
    rintro rfl
    rw [ho] at hlive
    cases hlive
  refine ⟨fun hs => hother (h.skipped hs), fun hs => hother (h.complete hs),
    fun result hr => (h.returned result hr).imp_right fun ⟨hne, hdec⟩ => ?_⟩
  refine ⟨?_, hstill (congrArg RelayState.isReturned hr) hdec⟩
  rcases eq_or_ne Role.dec role with heq | hrole
  · rw [heq, set_status_self]
    exact hstatus heq.symm hdec
  · rw [set_status_of_ne c hrole]
    exact hne

/-- Nothing but the loop of the relay decides what is reported. -/
theorem Heard.move (h : c.Heard s) (hm : c.Move s e c') (hselect : ∀ branch, e ≠ .select s branch) :
    c'.Heard s := by
  have hlive : ∀ {role status}, c.status role = status → status.isEnded = false →
      (c.status role).isEnded = false := fun hrole hended => hrole ▸ hended
  -- After the return, `copy_decrypt` does nothing but end, cancelled.
  have hstill : c.relay.isReturned = true → c.Still .dec → c'.Still .dec :=
    fun hr hdec => (hdec.move hr hm).1
  cases hm with
  | start => exact ⟨nofun, nofun, nofun⟩
  | skip => exact ⟨fun _ => rfl, nofun, nofun⟩
  | poll hparked => exact h.set (hlive hparked rfl) (fun _ _ => by simp [Status.rejected]) hstill
  | task hrun =>
    refine h.set (hlive hrun rfl) (fun hrole hdec => ?_) hstill
    exact absurd (hrole ▸ hrun) hdec.not_running
  | yield hrun => exact h.set (hlive hrun rfl) (fun _ _ => by simp [Status.rejected]) hstill
  | cancel hparked => exact h.set (hlive hparked rfl) (fun _ _ => by simp [Status.rejected]) hstill
  | panic hrun => exact h.set (hlive hrun rfl) (fun _ _ => by simp [Status.rejected]) hstill
  | goOn | leave | unwind => exact absurd rfl (hselect _)

/-- The relay is left while `copy_decrypt` has nothing to report, now or later. -/
theorem Hears.still {branch : Branch} (h : c.Hears s branch)
    (hleft : branch = .request → c.status .enc ≠ .ended (.returned (.ok ())))
    (haborting : c.unwinds s branch = false → c'.aborting .dec = true)
    (hstatus : c'.status = c.status) : c'.status .dec ≠ .rejected ∧ c'.Still .dec := by
  rw [Still, hstatus]
  rcases h with ⟨hrequest, hok⟩ | ⟨hended, hne⟩ | ⟨hparked, hunwinds⟩
  · exact absurd hok (hleft hrequest)
  · exact ⟨hne, .inl hended⟩
  · exact ⟨by simp [hparked, Status.rejected], .inr ⟨hparked, haborting hunwinds⟩⟩

/-- The loop reports what `copy_decrypt` has to report, where it takes the branch of
    that task, and where it takes that of the other task in time. -/
theorem Heard.select {branch : Branch} (hm : c.Move s (.select s branch) c')
    (hidle : branch ≠ .idle) (hshutdown : branch ≠ .shutdown)
    (hhears : branch.role s = some .enc → c.Hears s branch)
    (hreports : branch.role s = some .dec → c.status .dec = .rejected →
      c'.relay = .returned (.error .rejected)) : c'.Heard s := by
  -- The relay returns by the branch of a task that has ended.
  have hreturn : ∀ {role : Role} {result : Except RelayError Unit}, branch.role s = some role →
      (c.status role).isEnded = true → c'.relay = .returned result → c'.status = c.status →
      (role = .enc → branch = .request → c.status .enc ≠ .ended (.returned (.ok ()))) →
      (c.unwinds s branch = false → c'.aborting .dec = true) →
      result = .error .rejected ∨ c'.status .dec ≠ .rejected ∧ c'.Still .dec := by
    intro role result hrole hended hresult hstatus hleft haborting
    cases role with
    | enc => exact .inr ((hhears hrole).still (hleft rfl) haborting hstatus)
    | dec =>
      by_cases hrejected : c.status .dec = .rejected
      · rw [hreports hrole hrejected] at hresult
        exact .inl (RelayState.returned.inj hresult).symm
      · rw [← hstatus] at hended hrejected
        exact .inr ⟨hrejected, .inl hended⟩
  cases hm with
  | goOn _ hok => exact ⟨nofun, fun _ => hok, nofun⟩
  | leave hs hleaves =>
    refine ⟨nofun, nofun, fun result hresult => ?_⟩
    cases hleaves with
    | request _ he =>
      refine hreturn rfl (congrArg Status.isEnded he) hresult rfl (fun hrole _ hok => ?_)
        fun _ => rfl
      rw [hrole, hok] at he
      cases he
    | response ho =>
      exact hreturn rfl (congrArg Status.isEnded ho) hresult rfl (fun _ hbranch => by cases hbranch)
        fun _ => rfl
    | idle => exact absurd rfl hidle
    | shutdown => exact absurd rfl hshutdown
  | unwind hs hunwinds =>
    refine ⟨nofun, nofun, fun result hresult => ?_⟩
    have hnot : c.unwinds s branch = false → c.aborting .dec = true := fun hfalse => by
      rw [hunwinds.unwinds] at hfalse
      cases hfalse
    cases hunwinds with
    | request _ ho hreturned =>
      refine hreturn rfl (congrArg Status.isEnded ho) hresult rfl (fun hrole _ hok => ?_) hnot
      rw [hrole, hok] at ho
      exact hreturned _ (Status.ended.inj ho).symm
    | response ho =>
      exact hreturn rfl (congrArg Status.isEnded ho) hresult rfl (fun _ hbranch => by cases hbranch)
        hnot

end Control

namespace Tunnel

variable {S : Sealing Side} {idle : Side → ℕ} {t t' : Tunnel} {s : Side}

/-- Neither the tasks nor a network that tampers poison a cell. -/
theorem Sane.step (h : t.Sane) {e : TunnelEvent} (hstep : step S idle t e = some t') : t'.Sane := by
  intro s
  by_cases htask : ∃ r role op, e = .task r role op
  · obtain ⟨r, role, op, rfl⟩ := htask
    obtain ⟨⟨l, cell, notice⟩, hl, rfl⟩ := Option.map_eq_some_iff.1 hstep
    rcases eq_or_ne s r with rfl | hne
    · -- The cell of the task's own host is live, closed, or as it was.
      rw [setHost_self]
      cases role with
      | enc =>
        cases (encStep_cases (h s) hl).2 with
        | encrypt => exact .inr ⟨_, rfl⟩
        | refuse _ _ _ hcell =>
          rcases hcell with rfl | rfl
          · exact h s
          · exact .inl rfl
        | _ => exact h s
      | dec =>
        cases (decStep_cases (h s) hl).2 with
        | decrypt => exact .inr ⟨_, rfl⟩
        | refuse _ _ _ _ hcell =>
          rcases hcell with rfl | rfl
          · exact h s
          · exact .inl rfl
        | _ => exact h s
    · rw [setHost_of_ne _ hne]
      exact h s
  · -- No other event touches a cell.
    push Not at htask
    have hcell : (t'.host s).cell = (t.host s).cell :=
      congrArg Prod.fst (account_step_of_not_task htask hstep)
    rw [hcell]
    exact h s

/-- What the network does is no matter of the control states. -/
theorem control_tamper (t : Tunnel) (r : Side) (wire : Pipe UInt8) :
    (t.setLane r { t.lane r with wire }).control s = t.control s := by
  refine congrFun (control_setLane_of_tasks ?_ ?_) s <;> rfl

theorem joined_rejected {goOn : Tunnel} (hrejected : t.status s .dec = .rejected) :
    t.joined s .dec goOn = some (t.leave s (.error .rejected)) := by
  rw [joined, hrejected]
  rfl

/-- The branch of a task reports how it ended. -/
theorem select_rejected {requestComplete : Bool} {branch : Branch}
    (hselect : t.select idle s requestComplete branch = some t')
    (hbranch : branch.role s = some .dec) (hrejected : t.status s .dec = .rejected) :
    (t'.host s).relay = .returned (.error .rejected) := by
  have hleave : t' = t.leave s (.error .rejected) := by
    cases branch with
    | request =>
      rw [Branch.role, Option.some.injEq] at hbranch
      rw [select] at hselect
      split at hselect
      · cases hselect
      · rw [hbranch, joined_rejected hrejected] at hselect
        exact (Option.some.inj hselect).symm
    | response =>
      rw [Branch.role, Option.some.injEq] at hbranch
      rw [select, hbranch, joined_rejected hrejected] at hselect
      exact (Option.some.inj hselect).symm
    | activity | idle | shutdown => cases hbranch
  rw [hleave, leave, goto, setHost_self]

/-- In the loop, the branch of `copy_decrypt` is ready once that has failed. -/
theorem exists_select_rejected (idle : Side → ℕ) (hheard : (t.control s).Heard s)
    {requestComplete : Bool} (hrelay : (t.host s).relay = .selecting requestComplete)
    (hrejected : t.status s .dec = .rejected) :
    ∃ branch t', branch.role s = some .dec ∧
      t.select idle s requestComplete branch = some t' := by
  by_cases hrequest : Role.request s = .dec
  · refine ⟨.request, t.leave s (.error .rejected), congrArg some hrequest, ?_⟩
    have hcomplete : requestComplete = false := by
      by_contra hne
      obtain rfl : requestComplete = true := by simpa using hne
      have hok := hheard.complete hrelay
      rw [hrequest] at hok
      exact absurd (hok.symm.trans hrejected) (by simp [Status.rejected])
    rw [select, hcomplete, hrequest]
    exact joined_rejected hrejected
  · have hresponse : Role.response s = .dec := by
      revert hrequest
      cases s <;> decide
    refine ⟨.response, t.leave s (.error .rejected), congrArg some hresponse, ?_⟩
    rw [select, hresponse]
    exact joined_rejected hrejected

/-- Neither a shutdown nor an idle timeout ends the relay of the host. -/
def Undisturbed (s : Side) : TamperEvent → Prop
  | .tunnel (.select s' branch) => s' = s → branch ≠ .idle ∧ branch ≠ .shutdown
  | _ => True

/-- And where the opposite task ends it, `copy_decrypt` has nothing to report. -/
def Patient (s : Side) (t : Tunnel) (e : TamperEvent) : Prop :=
  Undisturbed s e ∧ match e with
    | .tunnel (.select s' branch) =>
      s' = s → branch.role s = some .enc → (t.control s).Hears s branch
    | _ => True

/-- What holds of a host in every such run. -/
structure Attentive (s : Side) (t : Tunnel) : Prop where
  sane : t.Sane
  ordered : (t.control s).Ordered
  heard : (t.control s).Heard s

theorem Attentive.step (h : t.Attentive s) {e : TamperEvent} (hpatient : Patient s t e)
    (hstep : tamperStep S idle t e = some t') : t'.Attentive s := by
  cases e with
  | tamper r wire =>
    cases hstep
    refine ⟨h.sane, ?_, ?_⟩
    · rw [control_tamper]
      exact h.ordered
    · rw [control_tamper]
      exact h.heard
  | tunnel e =>
    rcases control_step h.sane hstep s with heq | hmove
    · exact ⟨h.sane.step hstep, heq ▸ h.ordered, heq ▸ h.heard⟩
    refine ⟨h.sane.step hstep, h.ordered.move hmove, ?_⟩
    by_cases hselect : ∃ branch, e = .select s branch
    · obtain ⟨branch, rfl⟩ := hselect
      obtain ⟨hundisturbed, hhears⟩ := hpatient
      obtain ⟨hidle, hshutdown⟩ := hundisturbed rfl
      refine Control.Heard.select hmove hidle hshutdown (hhears rfl) fun hbranch hrejected => ?_
      obtain ⟨requestComplete, -, hselect⟩ := exists_of_select (S := S) hstep
      exact select_rejected hselect hbranch hrejected
    · push Not at hselect
      exact h.heard.move hmove hselect

theorem attentive_of_reachable (h : (tampered S idle).Reachable (Patient s) t) :
    t.Attentive s := by
  refine h.invariant ?_ fun _ hattentive hpatient hstep => hattentive.step hpatient hstep
  rintro t rfl
  exact ⟨(inv_initial S).sane, ordered_initial s, nofun, nofun, nofun⟩

instance (s : Side) : DecidablePred (Undisturbed s)
  | .tunnel (.select s' _) => inferInstanceAs (Decidable (s' = s → _ ∧ _))
  | .tamper .. => inferInstanceAs (Decidable True)
  | .tunnel (.start _) | .tunnel (.skip _) | .tunnel (.poll ..) | .tunnel (.task ..)
  | .tunnel (.yield ..) | .tunnel (.cancel ..) | .tunnel (.panic ..) | .tunnel (.signal _)
  | .tunnel .tick | .tunnel (.drop _) | .tunnel (.write ..) | .tunnel (.finish _)
  | .tunnel (.close _) | .tunnel (.cut ..) => inferInstanceAs (Decidable True)

instance (s : Side) (t : Tunnel) : DecidablePred (Patient s t)
  | .tunnel (.select s' _) => inferInstanceAs (Decidable (_ ∧ (s' = s → _ → _ ∨ _)))
  | .tamper .. => inferInstanceAs (Decidable (_ ∧ True))
  | .tunnel (.start _) | .tunnel (.skip _) | .tunnel (.poll ..) | .tunnel (.task ..)
  | .tunnel (.yield ..) | .tunnel (.cancel ..) | .tunnel (.panic ..) | .tunnel (.signal _)
  | .tunnel .tick | .tunnel (.drop _) | .tunnel (.write ..) | .tunnel (.finish _)
  | .tunnel (.close _) | .tunnel (.cut ..) => inferInstanceAs (Decidable (_ ∧ True))

end Tunnel

open Tunnel

/-- A session whose relay returned a rejected record is accounted for as a decrypt failure. -/
theorem finishReason_rejected :
    finishReason (.error RelayError.rejected.chain) = .decryptFailed := by
  decide +kernel

/-- A record that no one sealed. -/
def forged : Bytes := bigEndian 4 17 ++ List.replicate 17 0

/-- On either host, a record that failed to authenticate is what the relay returns,
    and the session is accounted for as a decrypt failure, if neither a shutdown nor
    an idle timeout ends the relay, and the opposite task does only while
    `copy_decrypt` has nothing to report. -/
theorem rejected_record_accounted {S : Sealing Side} {idle : Side → ℕ} {s : Side} {t : Tunnel}
    (h : (tampered S idle).Reachable (Patient s) t) (hrejected : t.status s .dec = .rejected) :
    (∃ result, (t.host s).relay = .returned result ∧
      finishReason (result.mapError RelayError.chain) = .decryptFailed ∧
      ∀ (m : TunnelMetrics) telemetry elapsed,
        (finishConnection m telemetry (result.mapError RelayError.chain) elapsed).count
          .decryptFailureTotal = m.count .decryptFailureTotal + 1) ∨
    ∃ requestComplete, (t.host s).relay = .selecting requestComplete ∧
      ∃ branch t', branch.role s = some .dec ∧
        tamperStep S idle t (.tunnel (.select s branch)) = some t' ∧
        (t'.host s).relay = .returned (.error .rejected) := by
  obtain ⟨-, hordered, hheard⟩ := attentive_of_reachable h
  rcases hrelay : (t.host s).relay with _ | requestComplete | result | _
  · have habsent : t.status s .dec = .absent := (hordered.waiting hrelay .dec).1
    exact absurd (habsent.symm.trans hrejected) (by simp [Status.rejected])
  · refine .inr ⟨requestComplete, rfl, ?_⟩
    obtain ⟨branch, t', hbranch, ht'⟩ := exists_select_rejected idle hheard hrelay hrejected
    refine ⟨branch, t', hbranch, ?_, select_rejected ht' hbranch hrejected⟩
    rw [tamperStep, step.eq_def]
    dsimp only
    rw [hrelay]
    exact ht'
  · rcases hheard.returned result hrelay with rfl | ⟨hne, -⟩
    · refine .inl ⟨_, rfl, finishReason_rejected, fun m telemetry elapsed => ?_⟩
      rw [finishConnection, TunnelMetrics.count_connectionClosed (by simp), Except.mapError,
        finishReason_rejected]
      rfl
    · exact absurd hrejected hne
  · have hnever : t.status s .dec = .ended .never := hheard.skipped hrelay
    exact absurd (hnever.symm.trans hrejected) (by simp [Status.rejected])

/-- The server opens a record that no one sealed, and its relay takes the branch of the
    inbound task first. -/
theorem rejected_record_accounted_inbound :
    let S : Sealing Side := .tagged fun _ nonce => UInt8.ofNat nonce
    ∃ t, (t.host .server).relay = .returned (.error .rejected) ∧
      ((∃ result, (t.host .server).relay = .returned result ∧
        finishReason (result.mapError RelayError.chain) = .decryptFailed ∧
        ∀ (m : TunnelMetrics) telemetry elapsed,
          (finishConnection m telemetry (result.mapError RelayError.chain) elapsed).count
            .decryptFailureTotal = m.count .decryptFailureTotal + 1) ∨
      ∃ requestComplete, (t.host .server).relay = .selecting requestComplete ∧
        ∃ branch t', branch.role .server = some .dec ∧
          tamperStep S (fun _ => 300) t (.tunnel (.select .server branch)) = some t' ∧
          (t'.host .server).relay = .returned (.error .rejected)) := by
  intro S
  let t₁ := ((tampered S fun _ => 300).run (Patient .server) .initial
    [.tunnel (.start .server), .tamper .client (Pipe.empty.write forged),
      .tunnel (.poll .server .dec), .tunnel (.task .server .dec (.read 1)),
      .tunnel (.task .server .dec (.read 3)), .tunnel (.task .server .dec (.read 17)),
      .tunnel (.select .server .request)]).get (by decide +kernel)
  have h₁ : (tampered S fun _ => 300).Reachable (Patient .server) t₁ :=
    EventSystem.reachable_of_run rfl (Option.some_get _).symm
  exact ⟨t₁, by decide +kernel, rejected_record_accounted h₁ (by decide +kernel)⟩

/-- The forged record closes the cipher state, and while the server reads it, its
    destination answers: the outbound task fails to seal, and the relay takes its
    branch. The session is not accounted for as a decrypt failure. -/
theorem rejected_record_misaccounted :
    let S : Sealing Side := .tagged fun _ nonce => UInt8.ofNat nonce
    ∃ t, (tampered S fun _ => 300).Reachable (fun _ e => Undisturbed .server e) t ∧
      t.status .server .dec = .rejected ∧
      ∃ result, (t.host .server).relay = .returned result ∧
        finishReason (result.mapError RelayError.chain) = .noiseHandshakeFailed ∧
        ∀ (m : TunnelMetrics) telemetry elapsed,
          (finishConnection m telemetry (result.mapError RelayError.chain) elapsed).count
            .decryptFailureTotal = m.count .decryptFailureTotal := by
  intro S
  let t₁ := ((tampered S fun _ => 300).run (fun _ e => Undisturbed .server e) .initial
    [.tunnel (.start .server), .tamper .client (Pipe.empty.write forged),
      .tunnel (.write .server [7]), .tunnel (.poll .server .dec),
      .tunnel (.task .server .dec (.read 1)), .tunnel (.task .server .dec (.read 3)),
      .tunnel (.task .server .dec (.read 17)), .tunnel (.poll .server .enc),
      .tunnel (.task .server .enc (.read 1)), .tunnel (.select .server .response)]).get
    (by decide +kernel)
  have hreason : finishReason
      (.error (RelayError.copy (.tunnel .closedSession)).chain) = .noiseHandshakeFailed := by
    decide +kernel
  refine ⟨t₁, EventSystem.reachable_of_run rfl (Option.some_get _).symm, by decide +kernel,
    .error (.copy (.tunnel .closedSession)), by decide +kernel, hreason,
    fun m telemetry elapsed => ?_⟩
  rw [finishConnection, TunnelMetrics.count_connectionClosed (by simp), Except.mapError, hreason]
  exact UInt64.add_zero _

end SecureTunnel
