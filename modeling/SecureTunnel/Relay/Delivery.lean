import SecureTunnel.Relay.Control

/-!
# What the tunnel delivers

Between its two applications the tunnel is a pair of byte pipes. A direction seen
from its ends is such a pipe (`Lane.plain`): what was delivered was taken, and
what the source holds beyond that is in transit.

* `tunnel_refines_pipes`: every event moves a direction as a plain pipe, or is not
  seen at its ends.
* `byte_transparency`: over a reliable network, what is delivered is a prefix of
  what was written, and all of it once both copy tasks have returned `Ok`.
* `orderly_end`: what the end of a stream says, whatever the network does.
-/

namespace SecureTunnel

/-- A direction, seen from its ends. -/
def Lane.plain (l : Lane) : Pipe UInt8 where
  taken := l.delivered
  transit := l.source.written.drop l.delivered.length
  lost := []
  ended := l.source.ended
  cut := false
  lost_eq _ := rfl

theorem Lane.plain_congr {l l' : Lane} (hdelivered : l'.delivered = l.delivered)
    (hwritten : l'.source.written = l.source.written) (hended : l'.source.ended = l.source.ended) :
    l'.plain = l.plain := by
  simp only [plain, hdelivered, hwritten, hended]

/-- To deliver is to read from the plain pipe. -/
theorem Lane.plain_moves_of_delivered {l l' : Lane} (hsource : l'.source = l.source) {piece : Bytes}
    (hdelivered : l'.delivered = l.delivered ++ piece) (hle : l'.delivered <+: l'.source.written) :
    l'.plain = l.plain ∨ l.plain.Moves l'.plain := by
  rcases eq_or_ne piece [] with rfl | hpiece
  · rw [List.append_nil] at hdelivered
    exact .inl (plain_congr hdelivered (by rw [hsource]) (by rw [hsource]))
  · obtain ⟨rest, hrest⟩ := hle
    have hwritten : l.source.written = l.delivered ++ (piece ++ rest) := by
      rw [← hsource, ← hrest, hdelivered, List.append_assoc]
    have htransit : l.plain.transit = piece ++ rest := by
      rw [plain, hwritten, List.drop_left]
    have hplain : l'.plain =
        { l.plain with taken := l.plain.taken ++ piece, transit := rest } := by
      simp only [plain, Pipe.mk.injEq, hsource, hdelivered, true_and, and_true]
      rw [hwritten, ← List.append_assoc, List.drop_left]
    refine .inr ?_
    rw [hplain]
    exact .read (Pipe.read_next htransit hpiece)

namespace Tunnel

variable {S : Sealing Side} {idle : Side → ℕ} {t t' : Tunnel} {e : TunnelEvent}
  {allow : Tunnel → TunnelEvent → Prop}

/-- Every event moves a direction as a plain pipe, or is not seen at its ends. -/
theorem plain_step (hinv : t.Inv S) (hinv' : t'.Inv S) (hstep : step S idle t e = some t')
    (s : Side) :
    (t'.lane s).plain = (t.lane s).plain ∨ (t.lane s).plain.Moves (t'.lane s).plain := by
  have hdelivered := (hinv'.lanes s).delivered_isPrefix
  have hmove := lane_step hinv hstep s
  generalize t'.lane s = l at hmove hdelivered
  cases hmove with
  | tasks | drop => exact .inl rfl
  | cut => exact .inl rfl
  | enc _ hm =>
    obtain ⟨hdelivered, hwritten, hended⟩ := hm.ends_eq
    exact .inl (Lane.plain_congr hdelivered hwritten hended)
  | dec _ hm =>
    obtain ⟨hsource, piece, hpiece⟩ := hm.delivers
    exact Lane.plain_moves_of_delivered hsource hpiece hdelivered
  | @write bytes hopen =>
    have hplain : Lane.plain { t.lane s with source := (t.lane s).source.write bytes } =
        (t.lane s).plain.write bytes := by
      have hle := (hinv.lanes s).delivered_isPrefix.length_le
      rw [Pipe.write_of_not_cut (p := (t.lane s).plain) rfl]
      simp only [Lane.plain, Pipe.written_write, Pipe.ended_write, Pipe.mk.injEq, true_and,
        and_true]
      exact List.drop_append_of_le_length hle
    rw [hplain]
    exact .inr (.write bytes hopen)
  | finish | close => exact .inr .close

end Tunnel

open Tunnel

variable {S : Sealing Side} {idle : Side → ℕ} {t : Tunnel} {allow : Tunnel → TunnelEvent → Prop}

/-- In every run, the tunnel is a pair of plain byte pipes to its applications. -/
theorem tunnel_refines_pipes (h : (tunnel S idle).Reachable allow t) {t' : Tunnel}
    {e : TunnelEvent} (hstep : step S idle t e = some t') (s : Side) :
    (t'.lane s).plain = (t.lane s).plain ∨ (t.lane s).plain.Moves (t'.lane s).plain :=
  plain_step (sound_of_reachable h).inv ((sound_of_reachable h).step hstep).inv hstep s

/-- The network does not cut. -/
def Reliable (_ : Tunnel) (e : TunnelEvent) : Prop := e.cuts = false

instance (t : Tunnel) (e : TunnelEvent) : Decidable (Reliable t e) :=
  inferInstanceAs (Decidable (e.cuts = false))

/-- Over a reliable network, nothing is cut. -/
theorem not_cut_of_reachable (h : (tunnel S idle).Reachable Reliable t) (s : Side) :
    (t.lane s).wire.cut = false := by
  refine h.invariant (P := fun t => ∀ s, (t.lane s).wire.cut = false) ?_ ?_ s
  · rintro t rfl s
    rfl
  · intro t e t' hreach hcut hreliable hstep s
    have hmove := lane_step (sound_of_reachable hreach).inv hstep s
    generalize t'.lane s = l at hmove
    cases hmove with
    | cut => cases hreliable
    | enc _ hm =>
      rw [hm.cut_eq]
      exact hcut s
    | dec _ hm =>
      rw [hm.cut_eq]
      exact hcut s
    | _ => exact hcut s

/-- The tunnel is transparent to bytes, in both directions: over a reliable
    network, in every reachable state, what was delivered is a prefix of what was
    written at the other end, and what is on the wire is a prefix of the frames
    sealed, each at its own nonce from zero on. The receiving writer is shut down
    with the return of its task, after all it delivers. Once both tasks of the
    direction have returned `Ok`, all that was written is delivered, and counted by
    both hosts. -/
theorem byte_transparency (h : (tunnel S idle).Reachable Reliable t) (s : Side) :
    (t.lane s).delivered <+: (t.lane s).source.written ∧
    ((t.lane s).wire.written <+: ((t.lane s).sealed.map (·.frame)).flatten ∧
      S.Produced s (t.lane s).sealed ∧ (t.lane s).sealedBytes <+: (t.lane s).source.written) ∧
    ((t.lane s).shut ≠ none → (t.lane s).dec.status = .ended (.returned (.ok ())) ∧
      (t.lane s).shut = some (t.lane s).delivered) ∧
    ((t.lane s).enc.status = .ended (.returned (.ok ())) →
      (t.lane s).dec.status = .ended (.returned (.ok ())) →
      (t.lane s).delivered = (t.lane s).source.written ∧ (t.lane s).source.ended = true ∧
        (t.lane s).shut = some (t.lane s).source.written ∧
        (t.lane s).encBytes = .ofNat (t.lane s).source.written.length ∧
        (t.lane s).decBytes = .ofNat (t.lane s).source.written.length) := by
  have hlane := (sound_of_reachable h).inv.lanes s
  refine ⟨hlane.delivered_isPrefix,
    ⟨hlane.wire_isPrefix, hlane.produced, hlane.sealedBytes_isPrefix⟩,
    fun hshut => ?_, hlane.complete (not_cut_of_reachable h s)⟩
  have hreturned := hlane.shut_returned hshut
  exact ⟨hreturned, (hlane.dec_returned hreturned).2⟩

/-- Two bytes that the client's application writes before its end of stream. -/
theorem byte_transparency_two :
    let S : Sealing Side := .tagged fun _ nonce => UInt8.ofNat nonce
    ∃ t, (tunnel S fun _ => 300).Reachable Reliable t ∧ (t.lane .client).delivered = [1, 2] ∧
      (t.lane .client).shut = some [1, 2] ∧ (t.lane .client).decBytes = 2 := by
  intro S
  let t := ((tunnel S fun _ => 300).run Reliable .initial
    [.start .client, .start .server, .write .client [1, 2], .finish .client, .poll .client .enc,
      .task .client .enc (.read 2), .task .client .enc (.write 5), .poll .server .dec,
      .task .server .dec (.read 1), .task .server .dec (.read 3), .task .server .dec (.read 1),
      .task .client .enc (.write 17), .task .server .dec (.read 17), .task .client .enc .flush,
      .task .client .enc (.read 0), .task .client .enc .shutdown, .task .server .dec (.write 2),
      .task .server .dec .flush, .task .server .dec (.read 0), .task .server .dec .shutdown]).get
    (by decide +kernel)
  have hreach : (tunnel S fun _ => 300).Reachable Reliable t :=
    EventSystem.reachable_of_run rfl (Option.some_get _).symm
  have hwritten : (t.lane .client).source.written = [1, 2] := by decide +kernel
  obtain ⟨hdelivered, -, hshut, -, hcount⟩ := (byte_transparency hreach .client).2.2.2
    (by decide +kernel) (by decide +kernel)
  rw [hwritten] at hdelivered hshut hcount
  exact ⟨t, hreach, hdelivered, hshut, hcount⟩

/-! ## The end of a stream -/

/-- Once `copy_decrypt` has returned `Ok`, the records taken off the wire are a
    prefix of those sealed, and exactly their plaintexts were delivered, before
    the writer was shut down: the stream never ends inside a record. Unless the
    network cut it, `copy_encrypt` at the other end has ended, and all it put on
    the wire was taken; if it has returned `Ok`, it has read the end of its own
    source, and all that this source sent was delivered. -/
theorem orderly_end (h : (tunnel S idle).Reachable EventSystem.always t) (s : Side)
    (hdec : (t.lane s).dec.status = .ended (.returned (.ok ()))) :
    (∃ n, (t.lane s).opened.map (·.record) = (t.lane s).sealed.take n ∧
      (t.lane s).wire.taken = (((t.lane s).sealed.take n).map (·.frame)).flatten ∧
      (t.lane s).delivered = (((t.lane s).sealed.take n).map (·.plaintext)).flatten ∧
      (t.lane s).shut = some (t.lane s).delivered) ∧
    ((t.lane s).wire.cut = false →
      (t.lane s).enc.status.isEnded = true ∧ (t.lane s).wire.taken = (t.lane s).wire.written ∧
      ((t.lane s).enc.status = .ended (.returned (.ok ())) →
        (t.lane s).source.transit = [] ∧ (t.lane s).source.ended = true ∧
          (t.lane s).delivered = (t.lane s).source.written)) := by
  have hlane := (sound_of_reachable h).inv.lanes s
  obtain ⟨n, hopened, htaken, hdelivered, hshut, htransit, hended⟩ := hlane.of_returned hdec
  refine ⟨⟨n, hopened, htaken, hdelivered, hshut⟩, fun hcut => ⟨?_, ?_, fun henc => ?_⟩⟩
  · refine (hlane.wire_ended hended).resolve_left ?_
    rw [hcut]
    decide
  · rw [Pipe.written_of_not_cut hcut, htransit, List.append_nil]
  · obtain ⟨hsource, hsourceEnded⟩ := hlane.enc_closing (hlane.enc_returned henc)
    exact ⟨hsource, hsourceEnded, (hlane.complete hcut henc hdec).1⟩

/-- A stream that the client's application ends. -/
theorem orderly_end_whole :
    let S : Sealing Side := .tagged fun _ nonce => UInt8.ofNat nonce
    ∃ t, (tunnel S fun _ => 300).Reachable EventSystem.always t ∧
      (t.lane .client).dec.status = .ended (.returned (.ok ())) ∧
      (t.lane .client).delivered = (t.lane .client).source.written ∧
      (t.lane .client).source.written = [1] := by
  intro S
  let t := ((tunnel S fun _ => 300).run EventSystem.always .initial
    [.start .client, .start .server, .write .client [1], .finish .client, .poll .client .enc,
      .task .client .enc (.read 1), .task .client .enc (.write 21), .task .client .enc .flush,
      .task .client .enc (.read 0), .task .client .enc .shutdown, .poll .server .dec,
      .task .server .dec (.read 1), .task .server .dec (.read 3), .task .server .dec (.read 17),
      .task .server .dec (.write 1), .task .server .dec .flush, .task .server .dec (.read 0),
      .task .server .dec .shutdown]).get (by decide +kernel)
  have hreach : (tunnel S fun _ => 300).Reachable EventSystem.always t :=
    EventSystem.reachable_of_run rfl (Option.some_get _).symm
  have hdec : (t.lane .client).dec.status = .ended (.returned (.ok ())) := by decide +kernel
  exact ⟨t, hreach, hdec, (((orderly_end hreach .client hdec).2 (by decide +kernel)).2.2
    (by decide +kernel)).2.2, by decide +kernel⟩

/-- Two streams that end in order and are not complete: the network cuts the wire
    after a record while the sender goes on, and the shutdown of the server ends
    its relay before any of the response is read. -/
theorem orderly_end_incomplete :
    let S : Sealing Side := .tagged fun _ nonce => UInt8.ofNat nonce
    (∃ t, (tunnel S fun _ => 300).Reachable EventSystem.always t ∧
      (t.lane .server).dec.status = .ended (.returned (.ok ())) ∧
      (t.lane .server).enc.status = .running ∧ (t.lane .server).source.ended = false ∧
      (t.lane .server).source.written = [7, 8] ∧ (t.lane .server).shut = some [7]) ∧
    ∃ t, (tunnel S fun _ => 300).Reachable EventSystem.always t ∧
      (t.lane .server).wire.cut = false ∧
      (t.lane .server).dec.status = .ended (.returned (.ok ())) ∧
      (t.host .server).relay = .returned (.error .shutdownRequested) ∧
      (t.lane .server).source.written = [7] ∧ (t.lane .server).shut = some [] := by
  intro S
  let t₁ := ((tunnel S fun _ => 300).run EventSystem.always .initial
    [.start .client, .start .server, .write .server [7], .poll .server .enc,
      .task .server .enc (.read 1), .task .server .enc (.write 21), .task .server .enc .flush,
      .write .server [8], .cut .server 21, .poll .client .dec, .task .client .dec (.read 1),
      .task .client .dec (.read 3), .task .client .dec (.read 17), .task .client .dec (.write 1),
      .task .client .dec .flush, .task .client .dec (.read 0), .task .client .dec .shutdown]).get
    (by decide +kernel)
  let t₂ := ((tunnel S fun _ => 300).run EventSystem.always .initial
    [.start .client, .start .server, .write .server [7], .signal .server,
      .select .server .shutdown, .cancel .server .enc [], .cancel .server .dec [], .drop .server,
      .poll .client .dec, .task .client .dec (.read 0), .task .client .dec .shutdown]).get
    (by decide +kernel)
  exact ⟨⟨t₁, EventSystem.reachable_of_run rfl (Option.some_get _).symm, by decide +kernel,
    by decide +kernel, by decide +kernel, by decide +kernel, by decide +kernel⟩,
    ⟨t₂, EventSystem.reachable_of_run rfl (Option.some_get _).symm, by decide +kernel,
    by decide +kernel, by decide +kernel, by decide +kernel, by decide +kernel⟩⟩

end SecureTunnel
