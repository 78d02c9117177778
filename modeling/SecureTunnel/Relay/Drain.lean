import SecureTunnel.Relay.Delivery

/-!
# The final bytes of the destination

The destination may write its last bytes and close its connection while the
local application goes on sending. A write to a connection whose other end has
closed fails, so that the request direction can fail while the response is not
drained yet: on the server, where the destination has closed, and on the client,
where the server has. A relay that learns of this first leaves its loop and aborts
its response task.

* `calm`: the runs in which nothing fails but such writes.
* `drains`: no relay leaves because of its request task while its response task is
  not done.
* `final_bytes_delivered`: in calm runs that drain, all that the destination wrote
  is delivered before the client's relay returns.
-/

namespace SecureTunnel

/-- The task awaits an operation on the connection that it writes to. -/
def Lane.writes (l : Lane) : Role → Bool
  | .enc => match l.enc.phase with
    | .reading => false
    | _ => true
  | .dec => match l.dec.phase with
    | .reading _ => false
    | _ => true

def Op.fails : Op → Bool
  | fail _ => true
  | _ => false

/-- A cipher operation has failed, or the session was closed. -/
def Status.isCipherFailure : Status → Bool
  | ended (.returned (.error (.tunnel _))) => true
  | _ => false

def Status.isFailed : Status → Bool
  | ended (.returned (.error _)) => true
  | _ => false

namespace Tunnel

/-- The other end of the connection that a task writes to is closed. -/
def peerClosed (t : Tunnel) (s : Side) : Role → Bool
  | .enc => (t.host s.peer).dropped
  | .dec => (t.host s).appClosed

/-- Nothing is cut, times out, shuts down or panics, no cipher operation fails,
    the local application stays, and an operation of a task fails only on a
    connection whose other end is closed. -/
def calm (S : Sealing Side) (t : Tunnel) : TunnelEvent → Bool
  | .skip _ | .panic .. | .cut .. | .select _ .idle | .select _ .shutdown => false
  | .close s => s == .server
  | .task s role op =>
    (!op.fails || ((t.lane (role.lane s)).writes role && t.peerClosed s role)) &&
      !(t.taskStep S s role op).any fun t' => (t'.status s role).isCipherFailure
  | _ => true

/-- No relay leaves because of its request task while its response task goes on. -/
def drains (t : Tunnel) : TunnelEvent → Bool
  | .select s .request =>
    !(t.status s (.request s)).isFailed || (t.status s (.response s)).isEnded
  | _ => true

end Tunnel

namespace Control

/-- The response task of a host ends with `Ok` only, and before its relay returns. -/
structure Drains (s : Side) (c : Control) : Prop where
  response_ok : ∀ o, c.status (.response s) = .ended o → o = .returned (.ok ())
  returned : c.relay.isReturned = true → (c.status (.response s)).isEnded = true
  unskipped : c.relay ≠ .skipped
  unpanicked : ∀ role display, c.status role ≠ .ended (.panicked display)

variable {c c' : Control} {s : Side} {e : TunnelEvent}

/-- A task that has not ended goes on, or ends without a panic, and with `Ok` if it
    is the response task. -/
theorem Drains.set (h : c.Drains s) {role : Role} {status : Status}
    (hlive : ∀ o, c.status role ≠ .ended o)
    (hok : role = .response s → ∀ o, status = .ended o → o = .returned (.ok ()))
    (hpanic : ∀ display, status ≠ .ended (.panicked display)) : (c.set role status).Drains s := by
  have hother : ∀ r, r ≠ role → (c.set role status).status r = c.status r :=
    fun r hr => set_status_of_ne c hr status
  refine ⟨fun o ho => ?_, fun hr => ?_, h.unskipped, fun r display hd => ?_⟩
  · rcases eq_or_ne (Role.response s) role with heq | hne
    · rw [heq, set_status_self] at ho
      exact hok heq.symm o ho
    · rw [hother _ hne] at ho
      exact h.response_ok o ho
  · -- The relay has returned only if the response task had ended, which stays so.
    rcases eq_or_ne (Role.response s) role with heq | hne
    · have hended := h.returned hr
      rw [heq] at hended
      rcases hrole : c.status role with _ | _ | _ | o
      · rw [hrole] at hended
        cases hended
      · rw [hrole] at hended
        cases hended
      · rw [hrole] at hended
        cases hended
      · exact absurd hrole (hlive o)
    · rw [hother _ hne]
      exact h.returned hr
  · rcases eq_or_ne r role with rfl | hne
    · rw [set_status_self] at hd
      exact hpanic display hd
    · rw [hother _ hne] at hd
      exact h.unpanicked r display hd

/-- What a calm run that drains does to a host. -/
theorem Drains.move (h : c.Drains s) (hordered : c.Ordered) (hm : c.Move s e c')
    (hskip : e ≠ .skip s) (hpanic : ∀ role display, e ≠ .panic s role display)
    (hidle : e ≠ .select s .idle) (hshutdown : e ≠ .select s .shutdown)
    (hdrains : e = .select s .request → (c.status (.request s)).isFailed = true →
      (c.status (.response s)).isEnded = true)
    (htask : ∀ op, e = .task s (.response s) op → ∀ result,
      c'.status (.response s) = .ended (.returned result) → result = .ok ()) : c'.Drains s := by
  have hlive : ∀ {role status}, c.status role = status → status.isEnded = false →
      ∀ o, c.status role ≠ .ended o := by
    intro role status hrole hended o ho
    rw [← hrole, ho] at hended
    cases hended
  cases hm with
  | start => exact ⟨nofun, nofun, nofun, nofun⟩
  | skip => exact absurd rfl hskip
  | poll hparked => exact h.set (hlive hparked rfl) (fun _ => nofun) nofun
  | @task role op status hrun hstatus =>
    rcases hstatus with rfl | ⟨result, rfl⟩
    · exact h.set (hlive hrun rfl) (fun _ => nofun) nofun
    · refine h.set (hlive hrun rfl) ?_ nofun
      rintro rfl o ho
      cases ho
      rw [htask op rfl result (set_status_self ..)]
  | yield hrun => exact h.set (hlive hrun rfl) (fun _ => nofun) nofun
  | @cancel role display hparked haborting =>
    refine h.set (hlive hparked rfl) ?_ nofun
    -- Only a relay that has returned aborts, and then its response task has ended.
    rintro rfl
    rcases hrelay : c.relay with _ | requestComplete | result | _
    · rw [(hordered.waiting hrelay _).1] at hparked
      cases hparked
    · rw [(hordered.selecting hrelay _).2] at haborting
      cases haborting
    · have hended := h.returned (by rw [hrelay]; rfl)
      rw [hparked] at hended
      cases hended
    · exact absurd hrelay h.unskipped
  | panic => exact absurd rfl (hpanic _ _)
  | goOn => exact ⟨h.response_ok, nofun, nofun, h.unpanicked⟩
  | leave hs hleaves =>
    refine ⟨h.response_ok, fun _ => ?_, nofun, h.unpanicked⟩
    cases hleaves with
    | request _ he => exact hdrains rfl (congrArg Status.isFailed he)
    | response ho => exact congrArg Status.isEnded ho
    | idle => exact absurd rfl hidle
    | shutdown => exact absurd rfl hshutdown
  | unwind hs hunwinds =>
    refine ⟨h.response_ok, fun _ => ?_, nofun, h.unpanicked⟩
    cases hunwinds with
    | @request o _ ho hreturned hnever =>
      -- In the loop no task is cancelled, and none panics.
      have hspawned := (hordered.selecting hs (.request s)).1
      rw [ho] at hspawned
      cases o with
      | returned result => exact absurd rfl (hreturned result)
      | cancelled => cases hspawned
      | panicked display => exact absurd ho (h.unpanicked _ display)
      | never => exact absurd rfl hnever
    | response ho => exact congrArg Status.isEnded ho

end Control

namespace Tunnel

variable {S : Sealing Side} {idle : Side → ℕ} {t t' : Tunnel} {s : Side} {e : TunnelEvent}
  {op : Op} {result : Except CopyError Unit}

/-- The response of a tunnel is being drained: its tasks end with `Ok` only, before
    their relays and connections, and the local application is there to read it. -/
structure Draining (t : Tunnel) : Prop where
  hosts : ∀ s, (t.control s).Drains s
  dropped : ∀ s, (t.host s).dropped = true → (t.status s (.response s)).isEnded = true
  attentive : (t.host .client).appClosed = false

theorem draining_initial : initial.Draining := by
  have habsent : ∀ s role, (initial.control s).status role = .absent :=
    fun s role => ((ordered_initial s).waiting rfl role).1
  refine ⟨fun s => ⟨?_, nofun, nofun, ?_⟩, fun _ => nofun, rfl⟩
  · intro o ho
    rw [habsent] at ho
    cases ho
  · intro role display hd
    rw [habsent] at hd
    cases hd

theorem Draining.returned_ok (h : t.Draining) (hended : (t.status s (.response s)).isEnded = true) :
    t.status s (.response s) = .ended (.returned (.ok ())) := by
  rcases hstatus : t.status s (.response s) with _ | _ | _ | o
  · rw [hstatus] at hended
    cases hended
  · rw [hstatus] at hended
    cases hended
  · rw [hstatus] at hended
    cases hended
  · rw [(h.hosts s).response_ok o hstatus]

/-- Once the wire of the response has ended, the server's response task has returned `Ok`. -/
theorem Draining.enc_ok (h : t.Draining) (hinv : t.Inv S)
    (hcut : (t.lane .server).wire.cut = false) (hended : (t.lane .server).wire.ended = true) :
    (t.lane .server).enc.status = .ended (.returned (.ok ())) := by
  refine h.returned_ok (s := .server) (((hinv.lanes .server).wire_ended hended).resolve_left ?_)
  rw [hcut]
  decide

/-- In a calm run no cipher operation fails. -/
theorem not_isCipherFailure_of_calm {role : Role} (hcalm : t.calm S (.task s role op) = true)
    (hstep : t.taskStep S s role op = some t') :
    (t'.status s role).isCipherFailure = false := by
  rw [calm, hstep, Bool.and_eq_true] at hcalm
  simpa using hcalm.2

/-- In a calm run an operation fails only where the connection is closed. -/
theorem peerClosed_of_calm {role : Role} {display : Text}
    (hcalm : t.calm S (.task s role (.fail display)) = true) : t.peerClosed s role = true := by
  rw [calm, Bool.and_eq_true] at hcalm
  exact (Bool.and_eq_true_iff.1 hcalm.1).2

/-- In a calm run, the client's response task returns with `Ok` only. -/
theorem Draining.client_result (h : t.Draining) (hinv : t.Inv S)
    (hcut : (t.lane .server).wire.cut = false) (hcalm : t.calm S (.task .client .dec op) = true)
    (hstep : t.taskStep S .client .dec op = some t')
    (hresult : t'.status .client .dec = .ended (.returned result)) : result = .ok () := by
  have hcipher := not_isCipherFailure_of_calm hcalm hstep
  rw [hresult] at hcipher
  obtain ⟨⟨l, cell, notice⟩, hl, rfl⟩ := Option.map_eq_some_iff.1 hstep
  obtain ⟨hrun, hmove⟩ := decStep_cases (hinv.cells .client).live_or_closed hl
  have hlane := hinv.lanes .server
  have hlive : (t.lane .server).dec.status.isEnded = false := congrArg Status.isEnded hrun
  have hstatus : l.dec.status = .ended (.returned result) :=
    (congrArg (·.dec.status) (setLane_self t .server l)).symm.trans hresult
  have hgoes : (t.lane .server).dec.status ≠ .ended (.returned result) := by
    intro hended
    rw [hended] at hlive
    cases hlive
  cases hmove with
  | atEnd | more | decrypt | write | flush => exact absurd hstatus hgoes
  | truncated hphase hgot htransit hended =>
    -- The server has written all its records before the end of the wire.
    have henc := hlane.enc_returned (h.enc_ok hinv hcut hended)
    exact absurd (hlane.got_eq_nil hcut hlive hphase htransit (congrArg EncPhase.pending henc)) hgot
  | refuse hphase hread hpiece hwhy =>
    rcases hwhy with hrefused | ⟨e, rfl⟩
    · exact absurd hrefused (hlane.not_refused hcut hlive hphase hread hpiece)
    · cases hstatus
      cases hcipher
  | shutdown =>
    cases hstatus
    rfl
  | fail =>
    have hclosed : (t.host .client).appClosed = true := peerClosed_of_calm hcalm
    rw [h.attentive] at hclosed
    cases hclosed

/-- In a calm run, the server's response task returns with `Ok` only. -/
theorem Draining.server_result (h : t.Draining) (hinv : t.Inv S)
    (hcut : (t.lane .server).wire.cut = false) (hcalm : t.calm S (.task .server .enc op) = true)
    (hstep : t.taskStep S .server .enc op = some t')
    (hresult : t'.status .server .enc = .ended (.returned result)) : result = .ok () := by
  have hcipher := not_isCipherFailure_of_calm hcalm hstep
  rw [hresult] at hcipher
  obtain ⟨⟨l, cell, notice⟩, hl, rfl⟩ := Option.map_eq_some_iff.1 hstep
  obtain ⟨hrun, hmove⟩ := encStep_cases (hinv.cells .server).live_or_closed hl
  have hlive : (t.lane .server).enc.status.isEnded = false := congrArg Status.isEnded hrun
  have hstatus : l.enc.status = .ended (.returned result) :=
    (congrArg (·.enc.status) (setLane_self t .server l)).symm.trans hresult
  have hgoes : (t.lane .server).enc.status ≠ .ended (.returned result) := by
    intro hended
    rw [hended] at hlive
    cases hlive
  cases hmove with
  | atEnd | encrypt | write | flush => exact absurd hstatus hgoes
  | refuse =>
    cases hstatus
    cases hcipher
  | shutdown =>
    cases hstatus
    rfl
  | fail =>
    -- The client closes its connections only once it has read the end of the wire.
    have hdropped : (t.host .client).dropped = true := peerClosed_of_calm hcalm
    have hdec := h.returned_ok (h.dropped .client hdropped)
    obtain ⟨n, -, -, -, -, -, hended⟩ := (hinv.lanes .server).of_returned hdec
    rw [h.enc_ok hinv hcut hended] at hlive
    cases hlive

/-- A calm run that drains keeps draining. -/
theorem Draining.step (h : t.Draining) (hsound : t.Sound S)
    (hcut : (t.lane .server).wire.cut = false) (hcalm : t.calm S e = true)
    (hdrains : t.drains e = true) (hstep : Tunnel.step S idle t e = some t') : t'.Draining := by
  -- A task that has ended stays so.
  have hended : ∀ {s role}, (t.status s role).isEnded = true →
      (t'.status s role).isEnded = true := by
    intro s role hs
    rcases control_step hsound.inv.sane hstep s with heq | hmove
    · have hstatus : t'.status s = t.status s := congrArg Control.status heq
      rwa [hstatus]
    · exact (hsound.ordered s).isEnded_move hmove hs
  refine ⟨fun s => ?_, fun s hdropped => hended ?_, ?_⟩
  · rcases control_step hsound.inv.sane hstep s with heq | hmove
    · rw [heq]
      exact h.hosts s
    · refine (h.hosts s).move (hsound.ordered s) hmove ?_ ?_ ?_ ?_ ?_ ?_
      · rintro rfl
        cases hcalm
      · rintro role display rfl
        cases hcalm
      · rintro rfl
        cases hcalm
      · rintro rfl
        cases hcalm
      · rintro rfl hfailed
        have hstatus : (t.status s (.request s)).isFailed = true := hfailed
        rw [drains, hstatus] at hdrains
        exact hdrains
      · rintro op rfl result hresult
        cases s with
        | client => exact h.client_result hsound.inv hcut hcalm hstep hresult
        | server => exact h.server_result hsound.inv hcut hcalm hstep hresult
  · -- A session is dropped once its tasks have ended.
    rcases (connections_step hstep s).1 hdropped with hbefore | rfl
    · exact h.dropped s hbefore
    · obtain ⟨⟨henc, hdec⟩, -⟩ := Option.ite_some_none_eq_some.1 hstep
      cases s with
      | client => exact hdec
      | server => exact henc
  · -- That the application at the client closes its connection is not calm.
    rw [← Bool.not_eq_true]
    intro happ
    rcases (connections_step hstep .client).2 happ with hbefore | rfl
    · rw [h.attentive] at hbefore
      cases hbefore
    · cases hcalm

end Tunnel

open Tunnel

variable {S : Sealing Side} {idle : Side → ℕ} {t : Tunnel}

/-- The policy of calm runs, and of those that drain. -/
def Calm (S : Sealing Side) (t : Tunnel) (e : TunnelEvent) : Prop := t.calm S e = true

def CalmAndDrains (S : Sealing Side) (t : Tunnel) (e : TunnelEvent) : Prop :=
  t.calm S e = true ∧ t.drains e = true

instance (t : Tunnel) (e : TunnelEvent) : Decidable (Calm S t e) :=
  inferInstanceAs (Decidable (_ = true))

instance (t : Tunnel) (e : TunnelEvent) : Decidable (CalmAndDrains S t e) :=
  inferInstanceAs (Decidable (_ ∧ _))

theorem reliable_of_calm {e : TunnelEvent} (h : t.calm S e = true) : Reliable t e := by
  cases e with
  | cut => cases h
  | _ => rfl

theorem draining_of_reachable (h : (tunnel S idle).Reachable (CalmAndDrains S) t) :
    t.Draining := by
  refine h.invariant (P := Draining) ?_ ?_
  · rintro t rfl
    exact draining_initial
  · intro t e t' hreach hdraining hallow hstep
    have hcut := not_cut_of_reachable (hreach.mono fun _ _ ha => reliable_of_calm ha.1) .server
    exact hdraining.step (sound_of_reachable hreach) hcut hallow.1 hallow.2 hstep

/-- In every calm run that drains, all that the destination has written is
    delivered to the local application, up to its end of stream, before the
    client's relay returns. -/
theorem final_bytes_delivered (h : (tunnel S idle).Reachable (CalmAndDrains S) t)
    (hreturned : t.returned .client = true) :
    (t.lane .server).source.ended = true ∧
      (t.lane .server).delivered = (t.lane .server).source.written ∧
      (t.lane .server).shut = some (t.lane .server).source.written := by
  have hdraining := draining_of_reachable h
  have hinv := (sound_of_reachable h).inv
  have hcut := not_cut_of_reachable (h.mono fun _ _ ha => reliable_of_calm ha.1) .server
  have hdec := hdraining.returned_ok (s := .client) ((hdraining.hosts .client).returned hreturned)
  obtain ⟨n, -, -, -, -, -, hended⟩ := (hinv.lanes .server).of_returned hdec
  obtain ⟨hdelivered, hsource, hshut, -⟩ :=
    (hinv.lanes .server).complete hcut (hdraining.enc_ok hinv hcut hended) hdec
  exact ⟨hsource, hdelivered, hshut⟩

/-- A destination that closes after its last byte, while the client is sending. -/
theorem final_bytes_delivered_seven :
    let S : Sealing Side := .tagged fun _ nonce => UInt8.ofNat nonce
    ∃ t, (tunnel S fun _ => 300).Reachable (CalmAndDrains S) t ∧ t.returned .client = true ∧
      (t.host .server).appClosed = true ∧ (t.lane .server).source.written = [7] ∧
      (t.lane .server).delivered = (t.lane .server).source.written := by
  intro S
  let t := ((tunnel S fun _ => 300).run (CalmAndDrains S) .initial
    [.start .client, .start .server, .write .client [1], .poll .client .enc,
      .task .client .enc (.read 1), .task .client .enc (.write 21), .write .server [7],
      .close .server, .poll .server .enc, .task .server .enc (.read 1),
      .task .server .enc (.write 21), .task .server .enc .flush, .task .server .enc (.read 0),
      .task .server .enc .shutdown, .select .server .response, .poll .client .dec,
      .task .client .dec (.read 1), .task .client .dec (.read 3), .task .client .dec (.read 17),
      .task .client .dec (.write 1), .task .client .dec .flush, .task .client .dec (.read 0),
      .task .client .dec .shutdown, .select .client .response]).get (by decide +kernel)
  have hreach : (tunnel S fun _ => 300).Reachable (CalmAndDrains S) t :=
    EventSystem.reachable_of_run rfl (Option.some_get _).symm
  have hreturned : t.returned .client = true := by decide +kernel
  exact ⟨t, hreach, hreturned, by decide +kernel, by decide +kernel,
    (final_bytes_delivered hreach hreturned).2.1⟩

/-- Two calm runs that lose the last byte of the destination. The server's relay
    learns of the failed write to the destination before its response task has
    read anything; the client's relay learns of the failed write to the server
    before its response task has read anything. -/
theorem final_bytes_lost :
    let S : Sealing Side := .tagged fun _ nonce => UInt8.ofNat nonce
    (∃ t, (tunnel S fun _ => 300).Reachable (Calm S) t ∧
      (t.host .client).relay = .returned (.ok ()) ∧ (t.host .server).appClosed = true ∧
      (t.lane .server).source.written = [7] ∧ (t.lane .server).delivered = []) ∧
    ∃ t, (tunnel S fun _ => 300).Reachable (Calm S) t ∧ t.returned .client = true ∧
      (t.host .server).relay = .returned (.ok ()) ∧ (t.host .server).appClosed = true ∧
      (t.lane .server).source.written = [7] ∧ (t.lane .server).delivered = [] := by
  intro S
  let t₁ := ((tunnel S fun _ => 300).run (Calm S) .initial
    [.start .client, .start .server, .write .client [1], .poll .client .enc,
      .task .client .enc (.read 1), .task .client .enc (.write 21), .write .server [7],
      .close .server, .poll .server .dec, .task .server .dec (.read 1),
      .task .server .dec (.read 3), .task .server .dec (.read 17), .task .server .dec (.fail []),
      .select .server .request, .cancel .server .enc [], .drop .server, .poll .client .dec,
      .task .client .dec (.read 0), .task .client .dec .shutdown, .select .client .response]).get
    (by decide +kernel)
  let t₂ := ((tunnel S fun _ => 300).run (Calm S) .initial
    [.start .client, .start .server, .write .server [7], .close .server, .poll .server .enc,
      .task .server .enc (.read 1), .task .server .enc (.write 21), .task .server .enc .flush,
      .task .server .enc (.read 0), .task .server .enc .shutdown, .select .server .response,
      .cancel .server .dec [], .drop .server, .write .client [1], .poll .client .enc,
      .task .client .enc (.read 1), .task .client .enc (.fail []), .select .client .request]).get
    (by decide +kernel)
  exact ⟨⟨t₁, EventSystem.reachable_of_run rfl (Option.some_get _).symm, by decide +kernel,
    by decide +kernel, by decide +kernel, by decide +kernel⟩,
    ⟨t₂, EventSystem.reachable_of_run rfl (Option.some_get _).symm, by decide +kernel,
    by decide +kernel, by decide +kernel, by decide +kernel, by decide +kernel⟩⟩

end SecureTunnel
