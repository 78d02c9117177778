import SecureTunnel.Relay.Delivery

/-!
# Buffers and progress

What the copy tasks hold of the bytes that pass through them, and whether they pass
them on.

* `Lane.Bounded`: a task holds at most one record.
* `bounded_buffering`: what was read from a source is delivered, in transit between
  the hosts, or in the buffers of three tasks' records.
* `nothing_held_back`: while both tasks of a direction wait to read and nothing is in
  transit, all that was read is delivered, however little it is.
* `delivery_possible`: from every state with both tasks alive, they can deliver all
  that was written; the tunnel is never stuck.
-/

namespace SecureTunnel

/-! ## Buffers -/

/-- What the tasks of a direction hold: the frame of at most one record, and the
    plaintext of at most one. A write that is under way has something to write. -/
structure Lane.Bounded (l : Lane) : Prop where
  sealing : l.enc.phase.pending.length ≤ 16404
  reading : l.dec.phase.got.length ≤ 16404
  opening : l.dec.phase.pending.length ≤ 16384
  enc_writing : ∀ {rest count}, l.enc.phase = .writing rest count → rest ≠ []
  dec_writing : ∀ {rest count}, l.dec.phase = .writing rest count → rest ≠ []

/-- A part of a record, and what the reader asks for to go on with it, is at most a
    record. -/
theorem length_add_recordAsk_le {got : Bytes} (h : recordFormat.IsPart got) :
    got.length + recordAsk got ≤ 16404 := by
  have hroom := (recordAsk_spec h).2
  have hpart := h
  simp only [FrameFormat.IsPart, FrameFormat.progress] at hpart
  rw [FrameFormat.room] at hroom
  split at hroom
  · simp only [recordFormat] at *
    omega
  · rename_i hlong
    rw [if_neg hlong] at hpart
    split at hroom
    · rename_i ha
      rw [ha] at hpart
      cases hpart
    · rename_i n ha
      rw [ha] at hpart
      have hn : n ≤ 16400 := by
        simp only [recordFormat] at ha
        split at ha
        · cases ha
        · rename_i hlength
          cases ha
          simp only [maxCiphertextRecord] at hlength
          omega
      dsimp only at hpart
      split at hpart
      · simp only [recordFormat] at *
        omega
      · cases hpart

theorem EncPhase.eq_writing_of_wrote (rest : Bytes) (count : ℕ) {rest' : Bytes} {count' : ℕ}
    (h : EncPhase.wrote rest count = .writing rest' count') : rest' ≠ [] := by
  rw [wrote] at h
  split at h
  · cases h
  · rename_i hne
    cases h
    simpa using hne

theorem DecPhase.eq_writing_of_wrote (rest : Bytes) (count : ℕ) {rest' : Bytes} {count' : ℕ}
    (h : DecPhase.wrote rest count = .writing rest' count') : rest' ≠ [] := by
  rw [wrote] at h
  split at h
  · cases h
  · rename_i hne
    cases h
    simpa using hne

namespace Lane.Bounded

variable {S : Sealing Side} {l l' : Lane} {cell cell' : Cell Side} {op : Op} {notice : Bool}

theorem initial : Lane.initial.Bounded := by
  constructor <;> simp [Lane.initial, EncPhase.pending, DecPhase.got, DecPhase.pending]

/-- A record is sealed only once the last one is written. -/
theorem encMove (h : l.Bounded) (hm : EncMove S cell l op l' cell' notice) : l'.Bounded := by
  cases hm with
  | atEnd | flush =>
    exact { h with sealing := Nat.zero_le _, enc_writing := fun hp => by cases hp }
  | @encrypt count piece source t hphase hread hpiece hlive =>
    rcases Pipe.read_cases hread with ⟨hnil, -⟩ | ⟨-, hlen, -⟩
    · exact absurd hnil hpiece
    have hlength := S.length_encrypt t.send.key t.send.nonce piece
    refine { h with
      sealing := ?_
      enc_writing := fun hp => EncPhase.eq_writing_of_wrote (recordFrame _) piece.length hp }
    rw [Task.goto, EncPhase.pending_wrote, length_recordFrame, hlength]
    simp only [maxPlaintextRecord, tagLength] at hlen ⊢
    omega
  | refuse | shutdown | fail => exact { h with }
  | @write rest count n hphase =>
    have hrest := h.sealing
    rw [hphase] at hrest
    refine { h with
      sealing := ?_
      enc_writing := fun hp => EncPhase.eq_writing_of_wrote (rest.drop n) count hp }
    rw [Task.goto, EncPhase.pending_wrote, List.length_drop]
    exact Nat.le_trans (Nat.sub_le ..) hrest

/-- A record is read only once the last one is delivered. -/
theorem decMove (h : l.Bounded) {ledger : Side → List Record}
    (hledger : ∀ s, S.Produced s (ledger s))
    (hpart : ∀ got, l.dec.phase = .reading got → recordFormat.IsPart got)
    (hm : DecMove ledger cell l op l' cell' notice) : l'.Bounded := by
  have hlength : ∀ {got piece : Bytes} {count : ℕ} {wire : Pipe UInt8},
      l.dec.phase = .reading got → l.wire.read (recordAsk got) count = some (piece, wire) →
      piece ≠ [] → (got ++ piece).length ≤ 16404 := by
    intro got piece count wire hphase hread hpiece
    rcases Pipe.read_cases hread with ⟨hnil, -⟩ | ⟨-, hlen, -⟩
    · exact absurd hnil hpiece
    have := length_add_recordAsk_le (hpart got hphase)
    rw [List.length_append]
    omega
  cases hm with
  | atEnd | flush =>
    exact { h with
      reading := Nat.zero_le _
      opening := Nat.zero_le _
      dec_writing := fun hp => by cases hp }
  | truncated | shutdown | fail => exact { h with }
  | more hphase hread hpiece | refuse hphase hread hpiece =>
    exact { h with
      reading := hlength hphase hread hpiece
      opening := Nat.zero_le _
      dec_writing := fun hp => by cases hp }
  | @decrypt count got piece wire t plaintext hphase hread hpiece hwhole hlive hr =>
    refine { h with
      reading := ?_
      opening := ?_
      dec_writing := fun hp => DecPhase.eq_writing_of_wrote plaintext plaintext.length hp }
    · rw [Task.goto, DecPhase.got_wrote]
      exact Nat.zero_le _
    · rw [Task.goto, DecPhase.pending_wrote]
      exact (hledger _ _ _ hr).1
  | @write rest count n hphase =>
    have hrest := h.opening
    rw [hphase] at hrest
    refine { h with
      reading := ?_
      opening := ?_
      dec_writing := fun hp => DecPhase.eq_writing_of_wrote (rest.drop n) count hp }
    · rw [Task.goto, DecPhase.got_wrote]
      exact Nat.zero_le _
    · rw [Task.goto, DecPhase.pending_wrote, List.length_drop]
      exact Nat.le_trans (Nat.sub_le ..) hrest

end Lane.Bounded

open Tunnel

variable {S : Sealing Side} {idle : Side → ℕ} {t : Tunnel} {allow : Tunnel → TunnelEvent → Prop}

/-- No event makes a task hold more. -/
theorem Tunnel.bounded_step {t' : Tunnel} {e : TunnelEvent} (hinv : t.Inv S) {s : Side}
    (h : (t.lane s).Bounded) (hstep : step S idle t e = some t') : (t'.lane s).Bounded := by
  have hmove := lane_step hinv hstep s
  generalize t'.lane s = l at hmove
  cases hmove with
  | enc _ hm => exact h.encMove hm
  | dec hrun hm =>
    refine h.decMove (fun s' => (hinv.lanes s').produced) (fun got hphase => ?_) hm
    exact (hinv.lanes s).dec_part got hphase (by rw [hrun]; rfl)
  | _ => exact ⟨h.sealing, h.reading, h.opening, h.enc_writing, h.dec_writing⟩

theorem Tunnel.bounded_of_reachable (h : (tunnel S idle).Reachable allow t) (s : Side) :
    (t.lane s).Bounded := by
  refine h.invariant (P := fun t => (t.lane s).Bounded) ?_ fun hreach hb _ hstep =>
    bounded_step (sound_of_reachable hreach).inv hb hstep
  rintro t rfl
  exact .initial

/-- The frames of records are longer than their plaintexts. -/
theorem length_plaintexts_le {rs : List Record}
    (h : ∀ r ∈ rs, r.plaintext.length ≤ r.frame.length) :
    (rs.map (·.plaintext)).flatten.length ≤ (rs.map (·.frame)).flatten.length := by
  induction rs with
  | nil => exact Nat.le_refl 0
  | cons r rs ih =>
    obtain ⟨hr, hrs⟩ := List.forall_mem_cons.1 h
    simp only [List.map_cons, List.flatten_cons, List.length_append]
    exact Nat.add_le_add hr (ih hrs)

namespace Lane.Inv

variable {s : Side} {l : Lane}

theorem plaintext_le_frame (h : l.Inv S s) {r : Record} (hr : r ∈ l.sealed) :
    r.plaintext.length ≤ r.frame.length := by
  obtain ⟨n, hn⟩ := List.mem_iff_getElem?.1 hr
  rw [(h.produced n r hn).2, length_recordFrame, S.length_encrypt]
  omega

/-- Over a wire that was not cut, what is sealed and not opened is no more than the
    bytes that `copy_decrypt` has before it. -/
theorem sealed_le_ahead (h : l.Inv S s) (hcut : l.wire.cut = false) :
    l.sealedBytes.length ≤ l.openedBytes.length + (l.dec.phase.got.length +
      (l.wire.transit.length + l.enc.phase.pending.length)) := by
  have hahead := congrArg List.length (h.ahead hcut)
  have hopened : l.openedBytes = ((l.sealed.take l.opened.length).map (·.plaintext)).flatten := by
    rw [← h.opened_eq, List.map_map]
    rfl
  have hle := length_plaintexts_le fun r (hr : r ∈ l.sealed.drop l.opened.length) =>
    h.plaintext_le_frame (List.mem_of_mem_drop hr)
  have hsplit : l.sealedBytes.length = l.openedBytes.length +
      ((l.sealed.drop l.opened.length).map (·.plaintext)).flatten.length := by
    rw [hopened, ← List.length_append, ← List.flatten_append, ← List.map_append,
      List.take_append_drop]
    rfl
  rw [List.length_append, List.length_append] at hahead
  omega

end Lane.Inv

/-- The tunnel buffers at most one record at each of its places, whatever is written
    and however slowly it is taken: of all that `copy_encrypt` has read, at most
    16404 + 16404 + 16384 bytes are neither delivered nor in transit between the two
    hosts, unless it has failed or the network has cut the wire. -/
theorem bounded_buffering (h : (tunnel S idle).Reachable allow t) (s : Side) :
    (t.lane s).enc.phase.pending.length ≤ 16404 ∧ (t.lane s).dec.phase.got.length ≤ 16404 ∧
    (t.lane s).dec.phase.pending.length ≤ 16384 ∧
    ((t.lane s).wire.cut = false →
      (∀ e, (t.lane s).enc.status ≠ .ended (.returned (.error e))) →
      (t.lane s).source.taken.length ≤
        (t.lane s).delivered.length + (t.lane s).wire.transit.length + 49192) := by
  have hb := bounded_of_reachable h s
  have hlane := (sound_of_reachable h).inv.lanes s
  refine ⟨hb.sealing, hb.reading, hb.opening, fun hcut hfailed => ?_⟩
  have hread : (t.lane s).sealedBytes = (t.lane s).source.taken :=
    hlane.read_sealed.resolve_right fun ⟨_, e, he⟩ => hfailed e he
  have hahead := hlane.sealed_le_ahead hcut
  have hsink := congrArg List.length hlane.at_sink
  rw [List.length_append] at hsink
  rw [hread] at hahead
  have := hb.sealing
  have := hb.reading
  have := hb.opening
  omega

/-- A record of two bytes, of which a part is on the wire. -/
theorem bounded_buffering_part :
    let S : Sealing Side := .tagged fun _ nonce => UInt8.ofNat nonce
    ∃ t, (tunnel S fun _ => 300).Reachable EventSystem.always t ∧
      (t.lane .client).source.taken = [1, 2] ∧ (t.lane .client).delivered = [] ∧
      (t.lane .client).wire.transit.length = 4 ∧
      (t.lane .client).enc.phase.pending.length ≤ 16404 ∧
      (t.lane .client).source.taken.length ≤
        (t.lane .client).delivered.length + (t.lane .client).wire.transit.length + 49192 := by
  intro S
  let t := ((tunnel S fun _ => 300).run EventSystem.always .initial
    [.start .client, .start .server, .write .client [1, 2], .poll .client .enc,
      .task .client .enc (.read 2), .task .client .enc (.write 5), .poll .server .dec,
      .task .server .dec (.read 1)]).get (by decide +kernel)
  have hreach : (tunnel S fun _ => 300).Reachable EventSystem.always t :=
    EventSystem.reachable_of_run rfl (Option.some_get _).symm
  have hstatus : (t.lane .client).enc.status = .running := by decide +kernel
  obtain ⟨hsealing, -, -, hread⟩ := bounded_buffering hreach .client
  exact ⟨t, hreach, by decide +kernel, by decide +kernel, by decide +kernel, hsealing,
    hread (by decide +kernel) fun e => by rw [hstatus]; simp⟩

/-- With nothing to write at the sender, and nothing in transit, a receiver that waits
    for the wire has delivered all that was read. -/
theorem Lane.Inv.delivered_of_rest {s : Side} {l : Lane} (h : l.Inv S s)
    (hcut : l.wire.cut = false) (hpending : l.enc.phase.pending = [])
    (hlive : l.enc.status.isEnded = false) {got : Bytes} (hdec : l.dec.phase = .reading got)
    (hlive' : l.dec.status.isEnded = false) (htransit : l.wire.transit = []) :
    got = [] ∧ l.sealedBytes = l.source.taken ∧ l.openedBytes = l.source.taken ∧
      l.delivered = l.source.taken := by
  obtain rfl := h.got_eq_nil hcut hlive' hdec htransit hpending
  have hread : l.sealedBytes = l.source.taken := by
    refine h.read_sealed.resolve_right ?_
    rintro ⟨-, e, he⟩
    rw [he] at hlive
    cases hlive
  -- Nothing is ahead of `copy_decrypt`, so that what is sealed is opened.
  have hopened : l.openedBytes = l.sealedBytes := by
    have hle := h.sealed_le_ahead hcut
    rw [hdec, htransit, hpending] at hle
    exact h.openedBytes_isPrefix.eq_of_length_le (by simpa [DecPhase.got] using hle)
  obtain ⟨hsink, -⟩ := h.reading hdec
  rw [List.append_nil] at hsink
  exact ⟨rfl, hread, hopened.trans hread, hsink.trans (hopened.trans hread)⟩

/-- Nothing is held back to fill a record: while `copy_encrypt` waits for its source
    and `copy_decrypt` for the wire, and nothing is in transit on it, all that was read
    from the source is delivered, and both hosts have counted it. -/
theorem nothing_held_back (h : (tunnel S idle).Reachable allow t) {s : Side}
    (hcut : (t.lane s).wire.cut = false) (henc : (t.lane s).enc.phase = .reading)
    (hlive : (t.lane s).enc.status.isEnded = false) {got : Bytes}
    (hdec : (t.lane s).dec.phase = .reading got)
    (hlive' : (t.lane s).dec.status.isEnded = false) (htransit : (t.lane s).wire.transit = []) :
    got = [] ∧ (t.lane s).delivered = (t.lane s).source.taken ∧
      (t.lane s).encBytes = .ofNat (t.lane s).source.taken.length ∧
      (t.lane s).decBytes = .ofNat (t.lane s).source.taken.length := by
  have hlane := (sound_of_reachable h).inv.lanes s
  obtain ⟨rfl, hread, hopened, hdelivered⟩ :=
    hlane.delivered_of_rest hcut (by rw [henc]; rfl) hlive hdec hlive' htransit
  have hsent := hlane.counted_sent
  have hreceived := (hlane.reading hdec).2
  rw [henc, hread] at hsent
  rw [hopened] at hreceived
  refine ⟨rfl, hdelivered, ?_, ?_⟩
  · simpa [EncPhase.uncounted] using hsent
  · simpa using hreceived

/-- One byte is delivered as it was written. -/
theorem nothing_held_back_one :
    let S : Sealing Side := .tagged fun _ nonce => UInt8.ofNat nonce
    ∃ t, (tunnel S fun _ => 300).Reachable EventSystem.always t ∧
      (t.lane .client).source.taken = [7] ∧ (t.lane .client).delivered = [7] ∧
      (t.lane .client).encBytes = 1 ∧ (t.lane .client).decBytes = 1 := by
  intro S
  let t := ((tunnel S fun _ => 300).run EventSystem.always .initial
    [.start .client, .start .server, .write .client [7], .poll .client .enc,
      .task .client .enc (.read 1), .task .client .enc (.write 21), .task .client .enc .flush,
      .poll .server .dec, .task .server .dec (.read 1), .task .server .dec (.read 3),
      .task .server .dec (.read 17), .task .server .dec (.write 1),
      .task .server .dec .flush]).get (by decide +kernel)
  have hreach : (tunnel S fun _ => 300).Reachable EventSystem.always t :=
    EventSystem.reachable_of_run rfl (Option.some_get _).symm
  have htaken : (t.lane .client).source.taken = [7] := by decide +kernel
  have hcut : (t.lane .client).wire.cut = false := by decide +kernel
  have hdec : (t.lane .client).dec.phase = .reading [] := by decide +kernel
  obtain ⟨-, hdelivered, hsent, hreceived⟩ :=
    nothing_held_back hreach hcut (by decide +kernel) (by decide +kernel) hdec
      (by decide +kernel) (by decide +kernel)
  rw [htaken] at hdelivered hsent hreceived
  exact ⟨t, hreach, htaken, hdelivered, hsent, hreceived⟩

/-! ## Progress -/

/-- How many operations a task has before it until it reads again. -/
def EncPhase.rank : EncPhase → ℕ
  | writing _ _ => 2
  | flushing _ => 1
  | _ => 0

def DecPhase.rank : DecPhase → ℕ
  | writing _ _ => 2
  | flushing _ => 1
  | _ => 0

theorem EncPhase.pending_of_rank {phase : EncPhase} (h : phase.rank = 0) : phase.pending = [] := by
  cases phase with
  | writing | flushing => cases h
  | reading | closing => rfl

@[simp] theorem DecPhase.rank_reading (got : Bytes) : (reading got).rank = 0 := rfl

@[simp] theorem EncPhase.rank_wrote_nil (count : ℕ) : (EncPhase.wrote [] count).rank = 1 := rfl

@[simp] theorem DecPhase.rank_wrote_nil (count : ℕ) : (DecPhase.wrote [] count).rank = 1 := rfl

theorem EncPhase.rank_wrote_le (rest : Bytes) (count : ℕ) :
    (EncPhase.wrote rest count).rank ≤ 2 := by
  rw [wrote]
  split <;> simp [rank]

theorem DecPhase.rank_wrote_le (rest : Bytes) (count : ℕ) :
    (DecPhase.wrote rest count).rank ≤ 2 := by
  rw [wrote]
  split <;> simp [rank]

namespace Lane

/-- What the tasks of a direction have before them: a byte is sealed, written, read and
    delivered, and a record adds the 20 bytes of its header and its tag. -/
def work (l : Lane) : ℕ :=
  128 * l.source.transit.length + 4 * l.enc.phase.pending.length + l.enc.phase.rank +
    3 * l.wire.transit.length + l.dec.phase.rank

/-- What an operation of a task that goes on does not change. -/
structure Kept (l l' : Lane) : Prop where
  cut : l'.wire.cut = l.wire.cut
  written : l'.source.written = l.source.written
  enc : l'.enc.status = l.enc.status ∧ l'.enc.aborting = l.enc.aborting
  dec : l'.dec.status = l.dec.status ∧ l'.dec.aborting = l.dec.aborting
  /-- The nonces that are needed for what is still to be sealed. -/
  nonces : l'.sealed.length + l'.source.transit.length ≤
    l.sealed.length + l.source.transit.length

end Lane

/-- Sealing succeeds on a live cell whose counter is not exhausted. -/
theorem sealRecord_ideal_of_room {Key : Type*} (S : Sealing Key) (ledger : Key → List Record)
    (key : Key) {nonce : ℕ} (recv : CipherState Key) {plaintext : Bytes}
    (hlen : plaintext.length ≤ maxPlaintextRecord) (hnonce : nonce < nonceLimit) :
    sealRecord (ideal S ledger) (Cell.new ⟨⟨key, nonce⟩, recv⟩) plaintext =
      (.ok (recordFrame (S.encrypt key nonce plaintext)),
        Cell.new ⟨⟨key, nonce + 1⟩, recv⟩) := by
  have hlength := Nat.le_of_eq (S.length_encrypt key nonce plaintext)
  have hu : (CipherState.use ⟨key, nonce⟩ fun key nonce =>
      (ideal S ledger).encrypt key nonce plaintext (plaintext.length + tagLength)) =
        .ok (⟨S.encrypt key nonce plaintext, hlength⟩, ⟨key, nonce + 1⟩) := by
    refine CipherState.use_eq_ok.2 ⟨hnonce, ?_, rfl⟩
    simp only [ideal, dif_pos hlength]
  rw [sealRecord_live, sealOutcome, if_neg (Nat.not_lt.2 hlen), hu]
  rfl

section Steps

variable {s : Side} {l : Lane} (ledger : Side → List Record)

variable (S) in
/-- `copy_encrypt` makes progress while it has something to write, or its source has. -/
theorem Lane.enc_progress (hb : l.Bounded) (hrun : l.enc.status = .running)
    (hcut : l.wire.cut = false) {recv : CipherState Side}
    (hroom : l.sealed.length + l.source.transit.length < nonceLimit)
    (hwork : l.enc.phase = .reading ∧ l.source.transit ≠ [] ∨ l.enc.phase.rank ≠ 0) :
    ∃ op l' cell notice, (∀ display, op ≠ .fail display) ∧
      encStep (ideal S ledger) (Cell.new ⟨⟨s, l.sealed.length⟩, recv⟩) l op =
        some (l', cell, notice) ∧ l.Kept l' ∧ cell.state.isSome = true ∧ l'.work < l.work := by
  have hnot : ¬l.enc.status ≠ .running := fun hne => hne hrun
  cases hphase : l.enc.phase with
  | reading =>
    obtain ⟨-, htransit⟩ := hwork.resolve_right fun hrank => hrank (by rw [hphase]; rfl)
    obtain ⟨count, piece, source, hread, hpiece, hlen, hsplit, -, hwritten⟩ :=
      Pipe.read_some (show 0 < maxPlaintextRecord by decide) htransit
    have hpos := List.length_pos_iff.2 hpiece
    have htotal := congrArg List.length hsplit
    rw [List.length_append] at htotal
    have hnonce : l.sealed.length < nonceLimit := by omega
    have hseal := sealRecord_ideal_of_room S ledger s recv hlen hnonce
    refine ⟨.read count, { l with
      source
      sealed := l.sealed ++ [⟨piece, recordFrame (S.encrypt s l.sealed.length piece)⟩]
      enc := l.enc.goto (.wrote (recordFrame (S.encrypt s l.sealed.length piece)) piece.length) },
      Cell.new ⟨⟨s, l.sealed.length + 1⟩, recv⟩, false, fun _ => by simp, ?_,
      ⟨rfl, hwritten, ⟨rfl, rfl⟩, ⟨rfl, rfl⟩, ?_⟩, rfl, ?_⟩
    · rw [encStep.eq_def, if_neg hnot]
      simp only [hphase, hread, Option.map_some, List.isEmpty_iff, hpiece, if_false, hseal]
    · rw [List.length_append, List.length_singleton]
      dsimp only
      omega
    · have hrank := EncPhase.rank_wrote_le (recordFrame (S.encrypt s l.sealed.length piece))
        piece.length
      simp only [Lane.work, Task.goto, EncPhase.pending_wrote, length_recordFrame,
        S.length_encrypt, tagLength, hphase]
      omega
  | writing rest count =>
    have hpos := List.length_pos_iff.2 (hb.enc_writing hphase)
    refine ⟨.write rest.length, { l with
      wire := l.wire.write (rest.take rest.length)
      enc := l.enc.goto (.wrote (rest.drop rest.length) count) },
      Cell.new ⟨⟨s, l.sealed.length⟩, recv⟩, false, fun _ => by simp, ?_,
      ⟨Pipe.cut_write .., rfl, ⟨rfl, rfl⟩, ⟨rfl, rfl⟩, Nat.le_refl _⟩, rfl, ?_⟩
    · rw [encStep.eq_def, if_neg hnot]
      simp only [hphase]
      rw [if_pos ⟨hpos, Nat.le_refl _⟩]
    · have hpending : l.enc.phase.pending = rest := by rw [hphase]; rfl
      have hrank : l.enc.phase.rank = 2 := by rw [hphase]; rfl
      simp only [Lane.work, Task.goto, Pipe.write_of_not_cut hcut, List.take_length,
        List.drop_length, EncPhase.rank_wrote_nil, EncPhase.pending_wrote, List.length_append,
        hpending, hrank, List.length_nil]
      omega
  | flushing count =>
    refine ⟨.flush, { l with encBytes := l.encBytes + .ofNat count, enc := l.enc.goto .reading },
      Cell.new ⟨⟨s, l.sealed.length⟩, recv⟩, true, fun _ => by simp, ?_,
      ⟨rfl, rfl, ⟨rfl, rfl⟩, ⟨rfl, rfl⟩, Nat.le_refl _⟩, rfl, ?_⟩
    · rw [encStep.eq_def, if_neg hnot]
      simp only [hphase]
    · simp only [Lane.work, Task.goto, hphase, EncPhase.pending, EncPhase.rank]
      omega
  | closing =>
    rcases hwork with ⟨hreading, -⟩ | hrank
    · rw [hphase] at hreading
      cases hreading
    · rw [hphase] at hrank
      exact absurd rfl hrank

/-- A whole frame that was read off the wire is the one of the next sealed record. -/
theorem Lane.Inv.frame_of_whole (h : l.Inv S s) (hcut : l.wire.cut = false) {got piece rest : Bytes}
    (hphase : l.dec.phase = .reading got) (htransit : l.wire.transit = piece ++ rest)
    (hframe : recordFormat.IsFrame (got ++ piece)) :
    ∃ r, l.sealed[l.opened.length]? = some r ∧ r.frame = got ++ piece := by
  have hahead := h.ahead hcut
  rw [hphase, htransit, List.append_assoc, ← List.append_assoc] at hahead
  rcases hrest : l.sealed.drop l.opened.length with _ | ⟨r, rs⟩
  · rw [hrest] at hahead
    exact absurd (List.append_eq_nil_iff.1 hahead).1 hframe.ne_nil
  · have hmem : r ∈ l.sealed := List.mem_of_mem_drop (hrest ▸ List.mem_cons_self)
    rw [hrest, List.map_cons, List.flatten_cons] at hahead
    have hnext := FrameFormat.next_append hframe (rest ++ l.enc.phase.pending)
    change recordFormat.next (got ++ piece ++ (rest ++ l.enc.phase.pending)) = _ at hnext
    have hahead' : got ++ piece ++ (rest ++ l.enc.phase.pending) =
        r.frame ++ (rs.map (·.frame)).flatten := hahead
    rw [hahead', FrameFormat.next_append (h.isFrame hmem)] at hnext
    refine ⟨r, ?_, (Prod.mk.inj (Except.ok.inj hnext)).1⟩
    rw [← List.head?_drop, hrest]
    rfl

/-- `copy_decrypt` makes progress while it has something to deliver, or the wire has. -/
theorem Lane.dec_progress (h : l.Inv S s) (hb : l.Bounded) (hrun : l.dec.status = .running)
    (hcut : l.wire.cut = false) (hledger : ledger s = l.sealed) {send : CipherState Side}
    (hroom : l.sealed.length < nonceLimit)
    (hwork : (∃ got, l.dec.phase = .reading got) ∧ l.wire.transit ≠ [] ∨ l.dec.phase.rank ≠ 0) :
    ∃ op l' cell notice, (∀ display, op ≠ .fail display) ∧
      decStep (ideal S ledger) (Cell.new ⟨send, ⟨s, l.opened.length⟩⟩) l op =
        some (l', cell, notice) ∧ l.Kept l' ∧ cell.state.isSome = true ∧ l'.work < l.work := by
  have hnot : ¬l.dec.status ≠ .running := fun hne => hne hrun
  cases hphase : l.dec.phase with
  | reading got =>
    obtain ⟨-, htransit⟩ := hwork.resolve_right fun hrank => hrank (by rw [hphase]; rfl)
    have hpart := h.dec_part got hphase (by rw [hrun]; rfl)
    obtain ⟨count, piece, wire, hread, hpiece, hlen, hsplit, hcut', -⟩ :=
      Pipe.read_some (recordAsk_spec hpart).1 htransit
    have hpos := List.length_pos_iff.2 hpiece
    have htotal := congrArg List.length hsplit
    rw [List.length_append] at htotal
    have hrank : l.dec.phase.rank = 0 := by rw [hphase]; rfl
    rcases FrameFormat.progress_spec hpart (Nat.le_trans hlen (recordAsk_spec hpart).2) with
      ⟨hmore, -⟩ | ⟨hwhole, hframe⟩ | ⟨hrefused, -⟩
    · refine ⟨.read count, { l with wire, dec := l.dec.goto (.reading (got ++ piece)) },
        Cell.new ⟨send, ⟨s, l.opened.length⟩⟩, false, fun _ => by simp, ?_,
        ⟨hcut', rfl, ⟨rfl, rfl⟩, ⟨rfl, rfl⟩, Nat.le_refl _⟩, rfl, ?_⟩
      · rw [decStep.eq_def, if_neg hnot]
        simp only [hphase, hread, Option.map_some, List.isEmpty_iff, hpiece, if_false, hmore]
      · simp only [Lane.work, Task.goto, hrank, DecPhase.rank_reading]
        omega
    · obtain ⟨r, hr, hrframe⟩ := h.frame_of_whole hcut hphase hsplit hframe
      have hlt := (List.getElem?_eq_some_iff.1 hr).1
      have hnonce : l.opened.length < nonceLimit := by omega
      have hopen : openRecord (ideal S ledger) (Cell.new ⟨send, ⟨s, l.opened.length⟩⟩)
          (got ++ piece) = (.ok r.plaintext, Cell.new ⟨send, ⟨s, l.opened.length + 1⟩⟩) := by
        have hdone := openOutcome_ideal_of_next (c := ⟨s, l.opened.length⟩)
          (hledger ▸ h.produced) (hledger ▸ hr) hnonce
        rw [hrframe] at hdone
        rw [openRecord_live, hdone]
        rfl
      refine ⟨.read count, { l with
        wire
        opened := l.opened ++ [⟨l.opened.length, r.plaintext, got ++ piece⟩]
        dec := l.dec.goto (.wrote r.plaintext r.plaintext.length) },
        Cell.new ⟨send, ⟨s, l.opened.length + 1⟩⟩, false, fun _ => by simp, ?_,
        ⟨hcut', rfl, ⟨rfl, rfl⟩, ⟨rfl, rfl⟩, Nat.le_refl _⟩, rfl, ?_⟩
      · rw [decStep.eq_def, if_neg hnot]
        simp only [hphase, hread, Option.map_some, List.isEmpty_iff, hpiece, if_false, hwhole,
          hopen]
        rfl
      · have hle := DecPhase.rank_wrote_le r.plaintext r.plaintext.length
        simp only [Lane.work, Task.goto, hrank]
        omega
    · exact absurd hrefused (h.not_refused hcut (by rw [hrun]; rfl) hphase hread hpiece)
  | writing rest count =>
    have hpos := List.length_pos_iff.2 (hb.dec_writing hphase)
    have hrank : l.dec.phase.rank = 2 := by rw [hphase]; rfl
    refine ⟨.write rest.length, { l with
      delivered := l.delivered ++ rest.take rest.length
      dec := l.dec.goto (.wrote (rest.drop rest.length) count) },
      Cell.new ⟨send, ⟨s, l.opened.length⟩⟩, false, fun _ => by simp, ?_,
      ⟨rfl, rfl, ⟨rfl, rfl⟩, ⟨rfl, rfl⟩, Nat.le_refl _⟩, rfl, ?_⟩
    · rw [decStep.eq_def, if_neg hnot]
      simp only [hphase]
      rw [if_pos ⟨hpos, Nat.le_refl _⟩]
    · simp only [Lane.work, Task.goto, List.drop_length, DecPhase.rank_wrote_nil, hrank]
      omega
  | flushing count =>
    have hrank : l.dec.phase.rank = 1 := by rw [hphase]; rfl
    refine ⟨.flush, { l with
      decBytes := l.decBytes + .ofNat count
      dec := l.dec.goto (.reading []) },
      Cell.new ⟨send, ⟨s, l.opened.length⟩⟩, true, fun _ => by simp, ?_,
      ⟨rfl, rfl, ⟨rfl, rfl⟩, ⟨rfl, rfl⟩, Nat.le_refl _⟩, rfl, ?_⟩
    · rw [decStep.eq_def, if_neg hnot]
      simp only [hphase]
    · simp only [Lane.work, Task.goto, hrank, DecPhase.rank_reading]
      omega
  | closing =>
    rcases hwork with ⟨⟨got, hreading⟩, -⟩ | hrank
    · rw [hphase] at hreading
      cases hreading
    · rw [hphase] at hrank
      exact absurd rfl hrank

end Steps

/-- A task that can go on: it is being polled, or may be. -/
def Task.Able {Phase : Type*} (task : Task Phase) : Prop :=
  task.status = .running ∨ task.status = .parked ∧ task.aborting = false

theorem Task.Able.not_isEnded {Phase : Type*} {task : Task Phase} (h : task.Able) :
    task.status.isEnded = false := by
  rcases h with h | ⟨h, -⟩ <;> rw [h] <;> rfl

/-- A direction that nothing has stopped: both tasks can go on, the network has not cut
    the wire, both sessions are live, and there is a nonce for every byte still to be
    read. -/
structure Tunnel.Able (t : Tunnel) (s : Side) : Prop where
  enc : (t.lane s).enc.Able
  dec : (t.lane s).dec.Able
  cut : (t.lane s).wire.cut = false
  sender : (t.host s).cell.state.isSome = true
  receiver : (t.host s.peer).cell.state.isSome = true
  nonces : (t.lane s).sealed.length + (t.lane s).source.transit.length < nonceLimit

/-- The tasks of a direction are polled, and none of their operations fails. -/
def Carries (s : Side) (_ : Tunnel) : TunnelEvent → Prop
  | .poll s' role => role.lane s' = s
  | .task s' role op => role.lane s' = s ∧ ∀ display, op ≠ .fail display
  | _ => False

/-- Only a task that is parked has to be polled. -/
def Status.polls : Status → ℕ
  | parked => 1
  | _ => 0

/-- What a direction has before it: the work of its tasks, and the polls of those that
    are parked. -/
def Lane.toGo (l : Lane) : ℕ :=
  l.work + l.enc.status.polls + l.dec.status.polls

theorem Lane.Kept.toGo_lt {l l' : Lane} (h : l.Kept l') (hwork : l'.work < l.work) :
    l'.toGo < l.toGo := by
  simp only [Lane.toGo, h.enc.1, h.dec.1]
  omega

theorem Lane.toGo_setStatus_lt {l : Lane} {role : Role} (h : l.status role = .parked) :
    (l.setStatus .running role).toGo < l.toGo := by
  cases role with
  | enc =>
    have hparked : l.enc.status = .parked := h
    have hwork : (l.setStatus .running .enc).work = l.work := rfl
    simp only [Lane.toGo, hwork, hparked, Status.polls]
    simp only [Lane.setStatus]
    omega
  | dec =>
    have hparked : l.dec.status = .parked := h
    have hwork : (l.setStatus .running .dec).work = l.work := rfl
    simp only [Lane.toGo, hwork, hparked, Status.polls]
    simp only [Lane.setStatus]
    omega

theorem Cell.Tracks.of_isSome {Key : Type*} {cell : Cell Key} {sendKey recvKey : Key}
    {sent received : ℕ} (h : cell.Tracks sendKey recvKey sent received)
    (hlive : cell.state.isSome = true) :
    cell = Cell.new ⟨⟨sendKey, sent⟩, ⟨recvKey, received⟩⟩ := by
  refine h.resolve_left ?_
  rintro rfl
  cases hlive

/-- A task of a direction can make a step that brings its delivery nearer. -/
def Tunnel.Advances (S : Sealing Side) (idle : Side → ℕ) (t : Tunnel) (s : Side) : Prop :=
  ∃ e t', Carries s t e ∧ step S idle t e = some t' ∧ t'.Able s ∧
    (t'.lane s).source.written = (t.lane s).source.written ∧ (t'.lane s).toGo < (t.lane s).toGo

namespace Tunnel.Able

variable {s : Side}

/-- A task that is parked is polled. -/
theorem poll (h : t.Able s) (role : Role) {s' : Side} (hs' : role.lane s' = s)
    (hparked : t.status s' role = .parked)
    (habort : (t.lane (role.lane s')).aborting role = false) : t.Advances S idle s := by
  subst hs'
  refine ⟨.poll s' role, _, rfl, if_pos ⟨hparked, habort⟩, ?_, ?_, ?_⟩ <;> rw [Tunnel.setStatus]
  · cases role with
    | enc => exact {
        enc := .inl (by rw [setLane_self]; rfl)
        dec := by rw [setLane_self]; exact h.dec
        cut := by rw [setLane_self]; exact h.cut
        sender := h.sender
        receiver := h.receiver
        nonces := by rw [setLane_self]; exact h.nonces }
    | dec => exact {
        enc := by rw [setLane_self]; exact h.enc
        dec := .inl (by rw [setLane_self]; rfl)
        cut := by rw [setLane_self]; exact h.cut
        sender := h.sender
        receiver := h.receiver
        nonces := by rw [setLane_self]; exact h.nonces }
  · rw [setLane_self]
    cases role <;> rfl
  · rw [setLane_self]
    exact Lane.toGo_setStatus_lt hparked

/-- A task goes on with an operation that does not fail. -/
theorem task (h : t.Able s) (role : Role) {s' : Side} (hs' : role.lane s' = s) {op : Op}
    (hop : ∀ display, op ≠ .fail display) {l : Lane} {cell : Cell Side} {notice : Bool}
    (hstep : (t.lane s).taskStep (ideal S fun r => (t.lane r).sealed) (t.host s').cell role op =
      some (l, cell, notice))
    (hkept : (t.lane s).Kept l) (hcell : cell.state.isSome = true)
    (hwork : l.work < (t.lane s).work) : t.Advances S idle s := by
  refine ⟨.task s' role op, (t.setLane s l).setHost s'
    { t.host s' with cell, activity := (t.host s').activity || notice }, ⟨hs', hop⟩, ?_, ?_, ?_,
    ?_⟩
  · change t.taskStep S s' role op = _
    rw [Tunnel.taskStep, hs', hstep]
    rfl
  · -- The cell of the other host is as it was.
    have hlive : ∀ r, (t.host r).cell.state.isSome = true → (Tunnel.host ((t.setLane s l).setHost s'
        { t.host s' with cell, activity := (t.host s').activity || notice }) r).cell.state.isSome =
          true := by
      intro r hr
      rcases eq_or_ne r s' with rfl | hne
      · rw [setHost_self]
        exact hcell
      · rw [setHost_of_ne _ hne]
        exact hr
    refine ⟨?_, ?_, ?_, hlive s h.sender, hlive s.peer h.receiver, ?_⟩ <;>
      rw [setHost_lane, setLane_self]
    · rw [Task.Able, hkept.enc.1, hkept.enc.2]
      exact h.enc
    · rw [Task.Able, hkept.dec.1, hkept.dec.2]
      exact h.dec
    · rw [hkept.cut]
      exact h.cut
    · exact Nat.lt_of_le_of_lt hkept.nonces h.nonces
  · rw [setHost_lane, setLane_self]
    exact hkept.written
  · rw [setHost_lane, setLane_self]
    exact hkept.toGo_lt hwork

/-- Unless all that was written is delivered, one of the two tasks advances. -/
theorem progress (hreach : (tunnel S idle).Reachable EventSystem.always t) (h : t.Able s)
    (hleft : (t.lane s).delivered ≠ (t.lane s).source.written) : t.Advances S idle s := by
  have hinv := (sound_of_reachable hreach).inv
  have hlane := hinv.lanes s
  have hb := bounded_of_reachable hreach s
  have hpeer : Role.dec.lane s.peer = s := s.peer_peer
  rcases h.enc with henc | ⟨hparked, habort⟩
  swap
  · exact h.poll .enc rfl hparked habort
  rcases h.dec with hdec | ⟨hparked, habort⟩
  swap
  · refine h.poll .dec hpeer ?_ ?_
    · rw [Tunnel.status, hpeer]
      exact hparked
    · rw [hpeer]
      exact habort
  have hsender := (hinv.cells s).of_isSome h.sender
  have hreceiver := (hinv.cells s.peer).of_isSome h.receiver
  rw [Side.peer_peer] at hreceiver
  by_cases hseal : (t.lane s).enc.phase = .reading ∧ (t.lane s).source.transit ≠ [] ∨
      (t.lane s).enc.phase.rank ≠ 0
  · obtain ⟨op, l, cell, notice, hop, hstep, hkept, hcell, hwork⟩ :=
      Lane.enc_progress S (fun r => (t.lane r).sealed) hb henc h.cut h.nonces hseal
    rw [← hsender] at hstep
    exact h.task .enc rfl hop hstep hkept hcell hwork
  by_cases hopen : (∃ got, (t.lane s).dec.phase = .reading got) ∧
      (t.lane s).wire.transit ≠ [] ∨ (t.lane s).dec.phase.rank ≠ 0
  · obtain ⟨op, l, cell, notice, hop, hstep, hkept, hcell, hwork⟩ :=
      Lane.dec_progress (fun r => (t.lane r).sealed) hlane hb hdec h.cut rfl
        (Nat.lt_of_le_of_lt (Nat.le_add_right ..) h.nonces) hopen
    rw [← hreceiver] at hstep
    exact h.task .dec hpeer hop hstep hkept hcell hwork
  -- Neither task has anything before it, so that nothing is left.
  obtain ⟨hnone, hrank⟩ := not_or.1 hseal
  obtain ⟨hnone', hrank'⟩ := not_or.1 hopen
  have hpending := EncPhase.pending_of_rank (not_not.1 hrank)
  have hsource : (t.lane s).source.transit = [] := by
    cases hphase : (t.lane s).enc.phase with
    | reading => exact not_not.1 fun hne => hnone ⟨hphase, hne⟩
    | closing => exact (hlane.enc_closing hphase).1
    | writing | flushing =>
      rw [hphase] at hrank
      exact absurd (by simp [EncPhase.rank]) hrank
  cases hphase : (t.lane s).dec.phase with
  | reading got =>
    have htransit : (t.lane s).wire.transit = [] :=
      not_not.1 fun hne => hnone' ⟨⟨got, hphase⟩, hne⟩
    have hdelivered := (hlane.delivered_of_rest h.cut hpending h.enc.not_isEnded hphase
      h.dec.not_isEnded htransit).2.2.2
    refine absurd ?_ hleft
    rw [hdelivered, Pipe.written_of_not_cut hlane.source_whole, hsource, List.append_nil]
  | closing =>
    -- The wire has not ended, for its sender goes on.
    rcases hlane.wire_ended (hlane.dec_closing hphase).2 with hcut | hended
    · rw [h.cut] at hcut
      cases hcut
    · rw [h.enc.not_isEnded] at hended
      cases hended
  | writing | flushing =>
    rw [hphase] at hrank'
    exact absurd (by simp [DecPhase.rank]) hrank'

end Tunnel.Able

/-- The tunnel is never stuck: from every state of every run in which nothing has
    stopped a direction, its two tasks alone can deliver all that was written, without
    any further event, and are then still able to go on. -/
theorem delivery_possible (h : (tunnel S idle).Reachable allow t) {s : Side} (hable : t.Able s) :
    ∃ t', (tunnel S idle).Path (Carries s) t t' ∧ t'.Able s ∧
      (t'.lane s).source.written = (t.lane s).source.written ∧
      (t'.lane s).delivered = (t.lane s).source.written := by
  have hreach : (tunnel S idle).Reachable EventSystem.always t := h.mono fun _ _ _ => trivial
  have hprogress : ∀ t₁, ((tunnel S idle).Reachable EventSystem.always t₁ ∧ t₁.Able s ∧
      (t₁.lane s).source.written = (t.lane s).source.written) →
      ¬(t₁.lane s).delivered = (t.lane s).source.written →
      ∃ e t₂, Carries s t₁ e ∧ (tunnel S idle).step t₁ e = some t₂ ∧
        ((tunnel S idle).Reachable EventSystem.always t₂ ∧ t₂.Able s ∧
          (t₂.lane s).source.written = (t.lane s).source.written) ∧
        (t₂.lane s).toGo < (t₁.lane s).toGo := by
    rintro t₁ ⟨hreach₁, hable₁, hwritten₁⟩ hleft
    obtain ⟨e, t₂, hcarries, hstep, hable₂, hwritten₂, hlt⟩ :=
      hable₁.progress hreach₁ (hwritten₁ ▸ hleft)
    exact ⟨e, t₂, hcarries, hstep, ⟨.step hreach₁ trivial hstep, hable₂,
      hwritten₂.trans hwritten₁⟩, hlt⟩
  obtain ⟨t', hpath, ⟨-, hable', hwritten⟩, hdone⟩ :=
    EventSystem.exists_path_of_measure (fun t : Tunnel => (t.lane s).toGo) hprogress
      (s := t) ⟨hreach, hable, rfl⟩
  exact ⟨t', hpath, hable', hwritten, hdone⟩

/-- Three bytes that the server's application writes before any task is polled. -/
theorem delivery_possible_three :
    let S : Sealing Side := .tagged fun _ nonce => UInt8.ofNat nonce
    ∃ t t', (tunnel S fun _ => 300).Reachable EventSystem.always t ∧
      (t.lane .server).delivered = [] ∧
      (tunnel S fun _ => 300).Path (Carries .server) t t' ∧
      (t'.lane .server).delivered = [1, 2, 3] := by
  intro S
  let t := ((tunnel S fun _ => 300).run EventSystem.always .initial
    [.start .client, .start .server, .write .server [1, 2, 3]]).get (by decide +kernel)
  have hreach : (tunnel S fun _ => 300).Reachable EventSystem.always t :=
    EventSystem.reachable_of_run rfl (Option.some_get _).symm
  have hable : t.Able .server :=
    ⟨.inr (by decide +kernel), .inr (by decide +kernel), by decide +kernel, by decide +kernel,
      by decide +kernel, by decide +kernel⟩
  obtain ⟨t', hpath, -, -, hdelivered⟩ := delivery_possible hreach hable
  have hwritten : (t.lane .server).source.written = [1, 2, 3] := by decide +kernel
  exact ⟨t, t', hreach, by decide +kernel, hpath, hdelivered.trans hwritten⟩

end SecureTunnel
