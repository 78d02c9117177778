import Mathlib.Algebra.BigOperators.Group.List.Basic
import SecureTunnel.General.Pipe
import SecureTunnel.Core.Ideal
import SecureTunnel.Relay.Reader

/-!
# The copy tasks

One direction of a session is a `Lane`: `copy_encrypt` reads from the source at
the sending end and puts sealed records on the wire, and `copy_decrypt` takes
them off the wire at the other end, opens them, and writes to the sink there.
Client and server run the same two loops, and differ in the byte counter that
each loop adds to.

A task makes one operation at a time (`Op`): what it awaits next completes, with
the outcome that its surroundings choose. Between any two operations the task
can be cancelled, and it keeps its place as a record of how far it came.

* `encStep`, `decStep`: the loops, one operation at a time.
* `encStep_cases`, `decStep_cases`: all that one operation can do, under the ideal
  cipher.
* `Lane.Inv`: where every byte of the direction is; both tasks keep it
  (`Lane.Inv.encStep`, `Lane.Inv.decStep`).
-/

namespace SecureTunnel

/-- The errors of a copy task. -/
inductive CopyError
  | stream (e : StreamError)
  | tunnel (e : TunnelError)
  deriving DecidableEq, Repr

def CopyError.chain : CopyError → List Text
  | stream e => [e.display]
  | tunnel e => e.chain

/-! ## Tasks -/

/-- How a spawned task ends, as its `JoinHandle` reports it; or the session ended
    before its relay spawned the task. -/
inductive JoinOutcome
  | returned (result : Except CopyError Unit)
  | cancelled (display : Text)
  | panicked (display : Text)
  | never
  deriving DecidableEq

/-- A task is spawned by the relay, and is then waiting to be polled, or in the
    middle of a poll, until it ends. -/
inductive Status
  | absent
  | parked
  | running
  | ended (outcome : JoinOutcome)
  deriving DecidableEq

def Status.isEnded : Status → Bool
  | ended _ => true
  | _ => false

/-- A task: its place in its loop, its status, and whether its abortion was
    requested. -/
structure Task (Phase : Type*) where
  phase : Phase
  status : Status
  aborting : Bool
  deriving DecidableEq

namespace Task

variable {Phase : Type*}

/-- The task at a place of its loop. -/
def goto (t : Task Phase) (phase : Phase) : Task Phase := { t with phase }

/-- The task returns. -/
def finish (t : Task Phase) (result : Except CopyError Unit) : Task Phase :=
  { t with status := .ended (.returned result) }

end Task

/-- The places of `copy_encrypt`: reading, writing the rest of a record frame,
    flushing it, and shutting its writer down. The number is that of the bytes
    read, which the counter grows by after the flush. -/
inductive EncPhase
  | reading
  | writing (rest : Bytes) (count : ℕ)
  | flushing (count : ℕ)
  | closing
  deriving DecidableEq

/-- What is sealed and not yet on the wire. -/
def EncPhase.pending : EncPhase → Bytes
  | writing rest _ => rest
  | _ => []

/-- What is sealed and not yet counted. -/
def EncPhase.uncounted : EncPhase → ℕ
  | writing _ count | flushing count => count
  | _ => 0

/-- The places of `copy_decrypt`: reading a record, of which it has a part,
    writing the rest of its plaintext, flushing it, and shutting its writer down. -/
inductive DecPhase
  | reading (got : Bytes)
  | writing (rest : Bytes) (count : ℕ)
  | flushing (count : ℕ)
  | closing
  deriving DecidableEq

/-- What is read and not yet opened. -/
def DecPhase.got : DecPhase → Bytes
  | reading got => got
  | _ => []

/-- What is opened and not yet written. -/
def DecPhase.pending : DecPhase → Bytes
  | writing rest _ => rest
  | _ => []

/-- What is opened and not yet counted. -/
def DecPhase.uncounted : DecPhase → ℕ
  | writing _ count | flushing count => count
  | _ => 0

/-- How the operation that a task awaits completes: a read or a write of so many
    bytes, a flush, a shutdown, or an error of the operating system. -/
inductive Op
  | read (count : ℕ)
  | write (count : ℕ)
  | flush
  | shutdown
  | fail (display : Text)
  deriving DecidableEq

/-- One direction of a session. -/
structure Lane where
  /-- From the application at the sending end. -/
  source : Pipe UInt8
  /-- From the sending host to the receiving host. -/
  wire : Pipe UInt8
  /-- What was written to the application at the receiving end. -/
  delivered : Bytes
  /-- What had been written there when that writer was shut down. -/
  shut : Option Bytes
  sealed : List Record
  opened : List Opened
  enc : Task EncPhase
  dec : Task DecPhase
  /-- The byte counters of the direction, of the sending and the receiving host. -/
  encBytes : UInt64
  decBytes : UInt64

/-- A direction before anything happened. -/
def Lane.initial : Lane where
  source := .empty
  wire := .empty
  delivered := []
  shut := none
  sealed := []
  opened := []
  enc := ⟨.reading, .absent, false⟩
  dec := ⟨.reading [], .absent, false⟩
  encBytes := 0
  decBytes := 0

/-- The next place once a piece was written: `write_all` goes on with the rest. -/
def EncPhase.wrote (rest : Bytes) (count : ℕ) : EncPhase :=
  if rest.isEmpty then .flushing count else .writing rest count

def DecPhase.wrote (rest : Bytes) (count : ℕ) : DecPhase :=
  if rest.isEmpty then .flushing count else .writing rest count

/-- One operation of `copy_encrypt`: the direction and the sending host's cell
    after it, and whether the task gives an activity notice. -/
def encStep (aead : Aead Side) (cell : Cell Side) (l : Lane) (op : Op) :
    Option (Lane × Cell Side × Bool) :=
  if l.enc.status ≠ .running then none
  else
    match op, l.enc.phase with
    | .read count, .reading =>
      (l.source.read maxPlaintextRecord count).map fun (piece, source) =>
        if piece.isEmpty then ({ l with source, enc := l.enc.goto .closing }, cell, false)
        else
          match sealRecord aead cell piece with
          | (.error e, cell) =>
            ({ l with source, enc := l.enc.finish (.error (.tunnel e)) }, cell, false)
          | (.ok frame, cell) =>
            ({ l with
                source
                sealed := l.sealed ++ [⟨piece, frame⟩]
                enc := l.enc.goto (.wrote frame piece.length) }, cell, false)
    | .write n, .writing rest count =>
      if 0 < n ∧ n ≤ rest.length then
        some ({ l with
          wire := l.wire.write (rest.take n)
          enc := l.enc.goto (.wrote (rest.drop n) count) }, cell, false)
      else none
    | .flush, .flushing count =>
      some ({ l with
        encBytes := l.encBytes + .ofNat count
        enc := l.enc.goto .reading }, cell, true)
    | .shutdown, .closing =>
      some ({ l with wire := l.wire.close, enc := l.enc.finish (.ok ()) }, cell, false)
    | .fail display, _ =>
      some ({ l with enc := l.enc.finish (.error (.stream (.io display))) }, cell, false)
    | _, _ => none

/-- One operation of `copy_decrypt`: the direction and the receiving host's cell
    after it, and whether the task gives an activity notice. -/
def decStep (aead : Aead Side) (cell : Cell Side) (l : Lane) (op : Op) :
    Option (Lane × Cell Side × Bool) :=
  if l.dec.status ≠ .running then none
  else
    match op, l.dec.phase with
    | .read count, .reading got =>
      (l.wire.read (recordAsk got) count).map fun (piece, wire) =>
        if piece.isEmpty then
          if got.isEmpty then ({ l with wire, dec := l.dec.goto .closing }, cell, false)
          else ({ l with wire, dec := l.dec.finish (.error (.stream .eof)) }, cell, false)
        else
          let frame := got ++ piece
          match recordFormat.progress frame with
          | .more => ({ l with wire, dec := l.dec.goto (.reading frame) }, cell, false)
          | .refused =>
            ({ l with
                wire
                dec := (l.dec.goto (.reading frame)).finish
                  (.error (.stream (.invalidLength (ofBigEndian frame)))) }, cell, false)
          | .whole =>
            match openRecord aead cell frame with
            | (.error e, cell) =>
              ({ l with
                  wire
                  dec := (l.dec.goto (.reading frame)).finish (.error (.tunnel e)) }, cell, false)
            | (.ok plaintext, opened) =>
              let nonce := cell.state.elim 0 (·.recv.nonce)
              ({ l with
                  wire
                  opened := l.opened ++ [⟨nonce, plaintext, frame⟩]
                  dec := l.dec.goto (.wrote plaintext plaintext.length) }, opened, false)
    | .write n, .writing rest count =>
      if 0 < n ∧ n ≤ rest.length then
        some ({ l with
          delivered := l.delivered ++ rest.take n
          dec := l.dec.goto (.wrote (rest.drop n) count) }, cell, false)
      else none
    | .flush, .flushing count =>
      some ({ l with
        decBytes := l.decBytes + .ofNat count
        dec := l.dec.goto (.reading []) }, cell, true)
    | .shutdown, .closing =>
      some ({ l with shut := some l.delivered, dec := l.dec.finish (.ok ()) }, cell, false)
    | .fail display, _ =>
      some ({ l with dec := l.dec.finish (.error (.stream (.io display))) }, cell, false)
    | _, _ => none

section Running

variable (aead : Aead Side) (cell : Cell Side) {l : Lane}

/-- A task makes operations only in the middle of a poll, and there it can always fail. -/
theorem encStep_of_not_running (h : l.enc.status ≠ .running) (op : Op) :
    encStep aead cell l op = none := by
  rw [encStep.eq_def]
  exact if_pos h

theorem encStep_fail (h : l.enc.status = .running) (display : Text) :
    (encStep aead cell l (.fail display)).isSome = true := by
  rw [encStep.eq_def, if_neg fun hnot => hnot h]
  rfl

theorem decStep_of_not_running (h : l.dec.status ≠ .running) (op : Op) :
    decStep aead cell l op = none := by
  rw [decStep.eq_def]
  exact if_pos h

theorem decStep_fail (h : l.dec.status = .running) (display : Text) :
    (decStep aead cell l (.fail display)).isSome = true := by
  rw [decStep.eq_def, if_neg fun hnot => hnot h]
  rfl

end Running

/-! ## What one operation does -/

variable {S : Sealing Side} {ledger : Side → List Record}

/-- All that an operation of `copy_encrypt` can do to a direction, on a cell that
    is live or closed, under the ideal cipher. -/
inductive EncMove (S : Sealing Side) (cell : Cell Side) (l : Lane) :
    Op → Lane → Cell Side → Bool → Prop
  /-- The source has ended. -/
  | atEnd {count : ℕ} : l.enc.phase = .reading → l.source.transit = [] → l.source.ended = true →
      EncMove S cell l (.read count) { l with enc := l.enc.goto .closing } cell false
  | encrypt {count : ℕ} {piece : Bytes} {source : Pipe UInt8} {t : TransportState Side} :
      l.enc.phase = .reading → l.source.read maxPlaintextRecord count = some (piece, source) →
      piece ≠ [] → cell = Cell.new t →
      EncMove S cell l (.read count)
        { l with
          source
          sealed := l.sealed ++
            [⟨piece, recordFrame (S.encrypt t.send.key t.send.nonce piece)⟩]
          enc := l.enc.goto (.wrote (recordFrame (S.encrypt t.send.key t.send.nonce piece))
            piece.length) }
        (Cell.new { t with send := ⟨t.send.key, t.send.nonce + 1⟩ }) false
  /-- `encrypt_record` fails on what was read. -/
  | refuse {count : ℕ} {piece : Bytes} {source : Pipe UInt8} {e : TunnelError}
      {cell' : Cell Side} :
      l.enc.phase = .reading → l.source.read maxPlaintextRecord count = some (piece, source) →
      piece ≠ [] → cell' = cell ∨ cell' = ⟨false, none⟩ →
      EncMove S cell l (.read count)
        { l with source, enc := l.enc.finish (.error (.tunnel e)) } cell' false
  | write {rest : Bytes} {count n : ℕ} : l.enc.phase = .writing rest count →
      EncMove S cell l (.write n)
        { l with
          wire := l.wire.write (rest.take n)
          enc := l.enc.goto (.wrote (rest.drop n) count) } cell false
  | flush {count : ℕ} : l.enc.phase = .flushing count →
      EncMove S cell l .flush
        { l with encBytes := l.encBytes + .ofNat count, enc := l.enc.goto .reading } cell true
  | shutdown : l.enc.phase = .closing →
      EncMove S cell l .shutdown
        { l with wire := l.wire.close, enc := l.enc.finish (.ok ()) } cell false
  | fail {display : Text} :
      EncMove S cell l (.fail display)
        { l with enc := l.enc.finish (.error (.stream (.io display))) } cell false

theorem encStep_cases {cell cell' : Cell Side} {l l' : Lane} {op : Op} {notice : Bool}
    (hcell : cell = ⟨false, none⟩ ∨ ∃ t, cell = Cell.new t)
    (h : encStep (ideal S ledger) cell l op = some (l', cell', notice)) :
    l.enc.status = .running ∧ EncMove S cell l op l' cell' notice := by
  rw [encStep.eq_def] at h
  split at h
  · cases h
  rename_i hrun
  refine ⟨by simpa using hrun, ?_⟩
  cases op with
  | read count =>
    cases hphase : l.enc.phase with
    | reading =>
      simp only [hphase] at h
      obtain ⟨⟨piece, source⟩, hread, hout⟩ := Option.map_eq_some_iff.1 h
      dsimp only at hout
      split at hout
      · -- Nothing was read, which happens at the end of the source only.
        rename_i hempty
        rw [List.isEmpty_iff] at hempty
        subst hempty
        rcases Pipe.read_cases hread with ⟨-, rfl, htransit, hended⟩ | ⟨hne, -⟩
        · cases hout
          exact .atEnd hphase htransit hended
        · exact absurd rfl hne
      · rename_i hne
        have hpiece : piece ≠ [] := by simpa using hne
        -- A failed `seal_record` leaves the cell as it was, or closes it.
        rcases sealRecord_ideal_cases S ledger piece hcell with
          ⟨t, ht, -, hseal⟩ | ⟨e, hseal | hseal⟩
        · rw [hseal] at hout
          cases hout
          exact .encrypt hphase hread hpiece ht
        · rw [hseal] at hout
          cases hout
          exact .refuse hphase hread hpiece (.inl rfl)
        · rw [hseal] at hout
          cases hout
          exact .refuse hphase hread hpiece (.inr rfl)
    | _ => simp only [hphase, reduceCtorEq] at h
  | write n =>
    cases hphase : l.enc.phase with
    | writing rest count =>
      simp only [hphase] at h
      split at h
      · cases h
        exact .write hphase
      · cases h
    | _ => simp only [hphase, reduceCtorEq] at h
  | flush =>
    cases hphase : l.enc.phase with
    | flushing count =>
      simp only [hphase] at h
      cases h
      exact .flush hphase
    | _ => simp only [hphase, reduceCtorEq] at h
  | shutdown =>
    cases hphase : l.enc.phase with
    | closing =>
      simp only [hphase] at h
      cases h
      exact .shutdown hphase
    | _ => simp only [hphase, reduceCtorEq] at h
  | fail display =>
    cases h
    exact .fail

/-- What is opened in a direction is not up to its `copy_encrypt`. -/
theorem EncMove.opened_eq {cell cell' : Cell Side} {l l' : Lane} {op : Op} {notice : Bool}
    (h : EncMove S cell l op l' cell' notice) : l'.opened = l.opened := by
  cases h <;> rfl

theorem EncMove.cut_eq {cell cell' : Cell Side} {l l' : Lane} {op : Op} {notice : Bool}
    (h : EncMove S cell l op l' cell' notice) : l'.wire.cut = l.wire.cut := by
  cases h with
  | write => exact Pipe.cut_write ..
  | _ => rfl

/-- What `copy_encrypt` does is not seen at the ends of its direction. -/
theorem EncMove.ends_eq {cell cell' : Cell Side} {l l' : Lane} {op : Op} {notice : Bool}
    (h : EncMove S cell l op l' cell' notice) : l'.delivered = l.delivered ∧
      l'.source.written = l.source.written ∧ l'.source.ended = l.source.ended := by
  cases h with
  | encrypt _ hread hpiece | refuse _ hread hpiece =>
    rcases Pipe.read_cases hread with ⟨hnil, -⟩ | ⟨-, -, -, -, hended, -, hwritten⟩
    · exact absurd hnil hpiece
    · exact ⟨rfl, hwritten, hended⟩
  | _ => exact ⟨rfl, rfl, rfl⟩

theorem EncMove.decBytes_eq {cell cell' : Cell Side} {l l' : Lane} {op : Op} {notice : Bool}
    (h : EncMove S cell l op l' cell' notice) : l'.decBytes = l.decBytes := by
  cases h <;> rfl

/-- An operation of `copy_encrypt` leaves the other task alone, and its own task
    running, unless it returns. -/
theorem EncMove.tasks {cell cell' : Cell Side} {l l' : Lane} {op : Op} {notice : Bool}
    (h : EncMove S cell l op l' cell' notice) (hrun : l.enc.status = .running) :
    l'.dec = l.dec ∧ l'.enc.aborting = l.enc.aborting ∧
      (l'.enc.status = .running ∨ ∃ result, l'.enc.status = .ended (.returned result)) := by
  cases h with
  | refuse | shutdown | fail => exact ⟨rfl, rfl, .inr ⟨_, rfl⟩⟩
  | _ => exact ⟨rfl, rfl, .inl hrun⟩

/-- All that an operation of `copy_decrypt` can do to a direction, likewise. -/
inductive DecMove (ledger : Side → List Record) (cell : Cell Side) (l : Lane) :
    Op → Lane → Cell Side → Bool → Prop
  /-- The wire has ended, between two records. -/
  | atEnd {count : ℕ} : l.dec.phase = .reading [] → l.wire.transit = [] → l.wire.ended = true →
      DecMove ledger cell l (.read count) { l with dec := l.dec.goto .closing } cell false
  /-- The wire has ended, inside a record. -/
  | truncated {count : ℕ} {got : Bytes} : l.dec.phase = .reading got → got ≠ [] →
      l.wire.transit = [] → l.wire.ended = true →
      DecMove ledger cell l (.read count)
        { l with dec := l.dec.finish (.error (.stream .eof)) } cell false
  | more {count : ℕ} {got piece : Bytes} {wire : Pipe UInt8} : l.dec.phase = .reading got →
      l.wire.read (recordAsk got) count = some (piece, wire) → piece ≠ [] →
      recordFormat.progress (got ++ piece) = .more →
      DecMove ledger cell l (.read count)
        { l with wire, dec := l.dec.goto (.reading (got ++ piece)) } cell false
  /-- The record has an invalid length, or `decrypt_record` fails on it. -/
  | refuse {count : ℕ} {got piece : Bytes} {wire : Pipe UInt8} {e : CopyError}
      {cell' : Cell Side} : l.dec.phase = .reading got →
      l.wire.read (recordAsk got) count = some (piece, wire) → piece ≠ [] →
      recordFormat.progress (got ++ piece) = .refused ∨ (∃ e', e = .tunnel e') →
      cell' = cell ∨ cell' = ⟨false, none⟩ →
      DecMove ledger cell l (.read count)
        { l with wire, dec := (l.dec.goto (.reading (got ++ piece))).finish (.error e) } cell' false
  | decrypt {count : ℕ} {got piece : Bytes} {wire : Pipe UInt8} {t : TransportState Side}
      {plaintext : Bytes} : l.dec.phase = .reading got →
      l.wire.read (recordAsk got) count = some (piece, wire) → piece ≠ [] →
      recordFormat.progress (got ++ piece) = .whole → cell = Cell.new t →
      (ledger t.recv.key)[t.recv.nonce]? = some ⟨plaintext, got ++ piece⟩ →
      DecMove ledger cell l (.read count)
        { l with
          wire
          opened := l.opened ++ [⟨t.recv.nonce, plaintext, got ++ piece⟩]
          dec := l.dec.goto (.wrote plaintext plaintext.length) }
        (Cell.new { t with recv := ⟨t.recv.key, t.recv.nonce + 1⟩ }) false
  | write {rest : Bytes} {count n : ℕ} : l.dec.phase = .writing rest count →
      DecMove ledger cell l (.write n)
        { l with
          delivered := l.delivered ++ rest.take n
          dec := l.dec.goto (.wrote (rest.drop n) count) } cell false
  | flush {count : ℕ} : l.dec.phase = .flushing count →
      DecMove ledger cell l .flush
        { l with decBytes := l.decBytes + .ofNat count, dec := l.dec.goto (.reading []) }
        cell true
  | shutdown : l.dec.phase = .closing →
      DecMove ledger cell l .shutdown
        { l with shut := some l.delivered, dec := l.dec.finish (.ok ()) } cell false
  | fail {display : Text} :
      DecMove ledger cell l (.fail display)
        { l with dec := l.dec.finish (.error (.stream (.io display))) } cell false

theorem decStep_cases {cell cell' : Cell Side} {l l' : Lane} {op : Op} {notice : Bool}
    (hcell : cell = ⟨false, none⟩ ∨ ∃ t, cell = Cell.new t)
    (h : decStep (ideal S ledger) cell l op = some (l', cell', notice)) :
    l.dec.status = .running ∧ DecMove ledger cell l op l' cell' notice := by
  rw [decStep.eq_def] at h
  split at h
  · cases h
  rename_i hrun
  refine ⟨by simpa using hrun, ?_⟩
  cases op with
  | read count =>
    cases hphase : l.dec.phase with
    | reading got =>
      simp only [hphase] at h
      obtain ⟨⟨piece, wire⟩, hread, hout⟩ := Option.map_eq_some_iff.1 h
      dsimp only at hout
      split at hout
      · -- The wire has ended: between two records, or inside one.
        rename_i hempty
        rw [List.isEmpty_iff] at hempty
        subst hempty
        rcases Pipe.read_cases hread with ⟨-, rfl, htransit, hended⟩ | ⟨hne, -⟩
        · split at hout
          · rename_i hgot
            rw [List.isEmpty_iff] at hgot
            subst hgot
            cases hout
            exact .atEnd hphase htransit hended
          · rename_i hgot
            cases hout
            exact .truncated hphase (by simpa using hgot) htransit hended
        · exact absurd rfl hne
      · -- The frame is as long as before, refused, or complete.
        rename_i hne
        have hpiece : piece ≠ [] := by simpa using hne
        split at hout
        · rename_i hmore
          cases hout
          exact .more hphase hread hpiece hmore
        · rename_i hrefused
          cases hout
          exact .refuse hphase hread hpiece (.inl hrefused) (.inl rfl)
        · rename_i hwhole
          rcases openRecord_ideal_cases S ledger (got ++ piece) hcell with
            ⟨t, plaintext, rfl, hr, hopen⟩ | ⟨e, hopen | hopen⟩
          · rw [hopen] at hout
            cases hout
            exact .decrypt hphase hread hpiece hwhole rfl hr
          · rw [hopen] at hout
            cases hout
            exact .refuse hphase hread hpiece (.inr ⟨e, rfl⟩) (.inl rfl)
          · rw [hopen] at hout
            cases hout
            exact .refuse hphase hread hpiece (.inr ⟨e, rfl⟩) (.inr rfl)
    | _ => simp only [hphase, reduceCtorEq] at h
  | write n =>
    cases hphase : l.dec.phase with
    | writing rest count =>
      simp only [hphase] at h
      split at h
      · cases h
        exact .write hphase
      · cases h
    | _ => simp only [hphase, reduceCtorEq] at h
  | flush =>
    cases hphase : l.dec.phase with
    | flushing count =>
      simp only [hphase] at h
      cases h
      exact .flush hphase
    | _ => simp only [hphase, reduceCtorEq] at h
  | shutdown =>
    cases hphase : l.dec.phase with
    | closing =>
      simp only [hphase] at h
      cases h
      exact .shutdown hphase
    | _ => simp only [hphase, reduceCtorEq] at h
  | fail display =>
    cases h
    exact .fail

/-- What is sealed in a direction is not up to its `copy_decrypt`. -/
theorem DecMove.sealed_eq {cell cell' : Cell Side} {l l' : Lane} {op : Op} {notice : Bool}
    (h : DecMove ledger cell l op l' cell' notice) : l'.sealed = l.sealed := by
  cases h <;> rfl

theorem DecMove.cut_eq {cell cell' : Cell Side} {l l' : Lane} {op : Op} {notice : Bool}
    (h : DecMove ledger cell l op l' cell' notice) : l'.wire.cut = l.wire.cut := by
  cases h with
  | more _ hread hpiece | refuse _ hread hpiece | decrypt _ hread hpiece =>
    rcases Pipe.read_cases hread with ⟨hnil, -⟩ | ⟨-, -, -, -, -, hcut, -⟩
    · exact absurd hnil hpiece
    · exact hcut
  | _ => rfl

/-- At the ends of its direction, `copy_decrypt` only delivers. -/
theorem DecMove.delivers {cell cell' : Cell Side} {l l' : Lane} {op : Op} {notice : Bool}
    (h : DecMove ledger cell l op l' cell' notice) :
    l'.source = l.source ∧ ∃ piece, l'.delivered = l.delivered ++ piece := by
  cases h with
  | write => exact ⟨rfl, _, rfl⟩
  | _ => exact ⟨rfl, [], (List.append_nil _).symm⟩

theorem DecMove.encBytes_eq {cell cell' : Cell Side} {l l' : Lane} {op : Op} {notice : Bool}
    (h : DecMove ledger cell l op l' cell' notice) : l'.encBytes = l.encBytes := by
  cases h <;> rfl

/-- An operation of `copy_decrypt` leaves the other task alone, likewise. -/
theorem DecMove.tasks {cell cell' : Cell Side} {l l' : Lane} {op : Op} {notice : Bool}
    (h : DecMove ledger cell l op l' cell' notice) (hrun : l.dec.status = .running) :
    l'.enc = l.enc ∧ l'.dec.aborting = l.dec.aborting ∧
      (l'.dec.status = .running ∨ ∃ result, l'.dec.status = .ended (.returned result)) := by
  cases h with
  | truncated | refuse | shutdown | fail => exact ⟨rfl, rfl, .inr ⟨_, rfl⟩⟩
  | _ => exact ⟨rfl, rfl, .inl hrun⟩

/-! ## Where every byte is -/

@[simp] theorem EncPhase.pending_wrote (rest : Bytes) (count : ℕ) :
    (EncPhase.wrote rest count).pending = rest := by
  rw [wrote]
  split
  · rename_i h
    exact (List.isEmpty_iff.1 h).symm
  · rfl

@[simp] theorem EncPhase.uncounted_wrote (rest : Bytes) (count : ℕ) :
    (EncPhase.wrote rest count).uncounted = count := by
  rw [wrote]
  split <;> rfl

theorem EncPhase.wrote_ne_closing (rest : Bytes) (count : ℕ) :
    EncPhase.wrote rest count ≠ .closing := by
  rw [wrote]
  split <;> exact nofun

@[simp] theorem DecPhase.pending_wrote (rest : Bytes) (count : ℕ) :
    (DecPhase.wrote rest count).pending = rest := by
  rw [wrote]
  split
  · rename_i h
    exact (List.isEmpty_iff.1 h).symm
  · rfl

@[simp] theorem DecPhase.uncounted_wrote (rest : Bytes) (count : ℕ) :
    (DecPhase.wrote rest count).uncounted = count := by
  rw [wrote]
  split <;> rfl

@[simp] theorem DecPhase.got_wrote (rest : Bytes) (count : ℕ) :
    (DecPhase.wrote rest count).got = [] := by
  rw [wrote]
  split <;> rfl

theorem DecPhase.wrote_ne_closing (rest : Bytes) (count : ℕ) :
    DecPhase.wrote rest count ≠ .closing := by
  rw [wrote]
  split <;> exact nofun

theorem DecPhase.wrote_ne_reading (rest : Bytes) (count : ℕ) (got : Bytes) :
    DecPhase.wrote rest count ≠ .reading got := by
  rw [wrote]
  split <;> exact nofun

namespace Lane

/-- The plaintexts sealed in the direction, together. -/
def sealedBytes (l : Lane) : Bytes := (l.sealed.map (·.plaintext)).flatten

/-- The plaintexts opened in the direction, together. -/
def openedBytes (l : Lane) : Bytes := (l.opened.map (·.record.plaintext)).flatten

/-- Where every byte of a direction is: what was read from the source is sealed;
    the frames of what is sealed are on the wire or about to be; what was taken
    off the wire is opened or part of a record; what is opened is delivered or
    about to be. The direction is named after its sending end `s`. -/
structure Inv (S : Sealing Side) (s : Side) (l : Lane) : Prop where
  produced : S.Produced s l.sealed
  opens : Opens l.sealed l.opened
  source_whole : l.source.cut = false
  /-- A failed `encrypt_record` loses what was read, and ends the task. -/
  read_sealed : l.sealedBytes = l.source.taken ∨
    (l.sealedBytes <+: l.source.taken ∧ ∃ e, l.enc.status = .ended (.returned (.error e)))
  on_wire : l.wire.written ++ l.enc.phase.pending = (l.sealed.map (·.frame)).flatten
  off_wire : l.wire.taken = (l.opened.map (·.record.frame)).flatten ++ l.dec.phase.got
  at_sink : l.delivered ++ l.dec.phase.pending = l.openedBytes
  counted_sent : l.encBytes + .ofNat l.enc.phase.uncounted = .ofNat l.sealedBytes.length
  counted_received : l.decBytes + .ofNat l.dec.phase.uncounted = .ofNat l.openedBytes.length
  enc_closing : l.enc.phase = .closing → l.source.transit = [] ∧ l.source.ended = true
  enc_returned : l.enc.status = .ended (.returned (.ok ())) → l.enc.phase = .closing
  dec_part : ∀ got, l.dec.phase = .reading got → l.dec.status.isEnded = false →
    recordFormat.IsPart got
  dec_closing : l.dec.phase = .closing → l.wire.transit = [] ∧ l.wire.ended = true
  dec_returned : l.dec.status = .ended (.returned (.ok ())) →
    l.dec.phase = .closing ∧ l.shut = some l.delivered
  shut_returned : l.shut ≠ none → l.dec.status = .ended (.returned (.ok ()))
  /-- The wire ends only where it is cut, or after the sender. -/
  wire_ended : l.wire.ended = true → l.wire.cut = true ∨ l.enc.status.isEnded = true

variable {s : Side} {l l' : Lane} {cell cell' : Cell Side} {op : Op} {notice : Bool}

theorem inv_initial (S : Sealing Side) (s : Side) : Lane.initial.Inv S s := by
  constructor <;> simp [Lane.initial, sealedBytes, openedBytes, EncPhase.pending, DecPhase.got,
    DecPhase.pending, EncPhase.uncounted, DecPhase.uncounted, Pipe.empty, Pipe.written, Opens.nil,
    FrameFormat.isPart_nil, Sealing.Produced]

/-- An operation of `copy_encrypt` keeps the invariant, and the cell's counter. -/
theorem Inv.encMove (h : l.Inv S s) (hrun : l.enc.status = .running) {received : ℕ}
    (hcell : cell.Tracks s s.peer l.sealed.length received)
    (hm : EncMove S cell l op l' cell' notice) :
    l'.Inv S s ∧ cell'.Tracks s s.peer l'.sealed.length received := by
  have hnot : ∀ {o}, l.enc.status ≠ .ended o := fun {o} ho => by rw [ho] at hrun; cases hrun
  have hsealed : l.sealedBytes = l.source.taken := by
    rcases h.read_sealed with heq | ⟨-, e, he⟩
    · exact heq
    · exact absurd he hnot
  have hnot_ended : l.wire.ended = true → l.wire.cut = true := by
    intro hended
    refine (h.wire_ended hended).resolve_right ?_
    rw [hrun]
    exact nofun
  cases hm with
  | atEnd hphase htransit hended =>
    have honwire := h.on_wire
    have hcounted := h.counted_sent
    rw [hphase] at honwire hcounted
    exact ⟨{ h with
      on_wire := honwire
      counted_sent := hcounted
      enc_closing := fun _ => ⟨htransit, hended⟩
      enc_returned := fun _ => rfl }, hcell⟩
  | @encrypt count piece source t hphase hread hpiece hlive =>
    -- The record is sealed at the next nonce, and its frame is about to be written.
    subst hlive
    obtain rfl := hcell.eq_of_live
    rcases Pipe.read_cases hread with ⟨hnil, -⟩ | ⟨-, hlen, -, htaken, -, hcut, -⟩
    · exact absurd hnil hpiece
    have honwire := h.on_wire
    have hcounted := h.counted_sent
    rw [hphase] at honwire hcounted
    refine ⟨{ h with
      produced := h.produced.snoc hlen
      opens := h.opens.append _
      source_whole := hcut.trans h.source_whole
      read_sealed := .inl ?_
      on_wire := ?_
      counted_sent := ?_
      enc_closing := fun hc => (EncPhase.wrote_ne_closing (recordFrame _) piece.length hc).elim
      enc_returned := fun hr => absurd hr hnot }, ?_⟩
    · rw [htaken, ← hsealed]
      simp [sealedBytes]
    · rw [Task.goto, EncPhase.pending_wrote]
      simpa [EncPhase.pending] using honwire
    · rw [Task.goto, EncPhase.uncounted_wrote]
      have htotal : l.encBytes = .ofNat l.sealedBytes.length := by
        simpa [EncPhase.uncounted] using hcounted
      simp [htotal, sealedBytes]
    · rw [List.length_append]
      exact .inr rfl
  | refuse hphase hread hpiece hcell' =>
    rcases Pipe.read_cases hread with ⟨hnil, -⟩ | ⟨-, -, -, htaken, -, hcut, -⟩
    · exact absurd hnil hpiece
    refine ⟨{ h with
      source_whole := hcut.trans h.source_whole
      read_sealed := .inr ⟨?_, _, rfl⟩
      enc_closing := fun hc => ?_
      enc_returned := fun hr => ?_
      wire_ended := fun _ => .inr rfl }, ?_⟩
    · -- What was read is lost, but the task ends with an error.
      rw [htaken, ← hsealed]
      exact List.prefix_append ..
    · rw [Task.finish, hphase] at hc
      cases hc
    · cases hr
    · rcases hcell' with rfl | rfl
      · exact hcell
      · exact .inl rfl
  | @write rest count n hphase =>
    have honwire := h.on_wire
    have hcounted := h.counted_sent
    rw [hphase] at honwire hcounted
    refine ⟨{ h with
      on_wire := ?_
      off_wire := by rw [Pipe.taken_write]; exact h.off_wire
      counted_sent := by rw [Task.goto, EncPhase.uncounted_wrote]; exact hcounted
      enc_closing := fun hc => (EncPhase.wrote_ne_closing _ _ hc).elim
      enc_returned := fun hr => absurd hr hnot
      dec_closing := fun hc => ?_
      wire_ended := fun he => ?_ }, hcell⟩
    · rw [Task.goto, EncPhase.pending_wrote, Pipe.written_write, List.append_assoc,
        List.take_append_drop]
      exact honwire
    · -- The wire ended without the sender, so that it was cut, and the write is lost.
      obtain ⟨htransit, hended⟩ := h.dec_closing hc
      rw [Pipe.transit_write_of_cut (hnot_ended hended), Pipe.ended_write]
      exact ⟨htransit, hended⟩
    · rw [Pipe.ended_write] at he
      rw [Pipe.cut_write]
      exact .inl (hnot_ended he)
  | @flush count hphase =>
    have honwire := h.on_wire
    have hcounted := h.counted_sent
    rw [hphase] at honwire hcounted
    refine ⟨{ h with
      on_wire := honwire
      counted_sent := ?_
      enc_closing := nofun
      enc_returned := fun hr => absurd hr hnot }, hcell⟩
    refine Eq.trans ?_ hcounted
    simp [Task.goto, EncPhase.uncounted]
  | shutdown hphase =>
    exact ⟨{ h with
      read_sealed := .inl hsealed
      on_wire := h.on_wire
      enc_returned := fun _ => hphase
      dec_closing := fun hc => ⟨(h.dec_closing hc).1, rfl⟩
      wire_ended := fun _ => .inr rfl }, hcell⟩
  | fail =>
    exact ⟨{ h with
      read_sealed := .inl hsealed
      enc_returned := nofun
      wire_ended := fun _ => .inr rfl }, hcell⟩

/-- While a record is read, all that was opened is delivered and counted. -/
theorem Inv.reading (h : l.Inv S s) {got : Bytes} (hphase : l.dec.phase = .reading got) :
    l.delivered ++ [] = l.openedBytes ∧
      l.decBytes + .ofNat 0 = .ofNat l.openedBytes.length := by
  have hsink := h.at_sink
  have hcounted := h.counted_received
  rw [hphase] at hsink hcounted
  exact ⟨hsink, hcounted⟩

/-- What is read off the wire goes on with the record that is being read. -/
theorem Inv.read_wire (h : l.Inv S s) {room count : ℕ} {got piece : Bytes} {wire : Pipe UInt8}
    (hphase : l.dec.phase = .reading got)
    (hread : l.wire.read room count = some (piece, wire)) (hpiece : piece ≠ []) :
    wire.written = l.wire.written ∧
      wire.taken = (l.opened.map (·.record.frame)).flatten ++ (got ++ piece) ∧
      (wire.ended = true → wire.cut = true ∨ l.enc.status.isEnded = true) := by
  rcases Pipe.read_cases hread with ⟨hnil, -⟩ | ⟨-, -, -, htaken, hended, hcut, hwritten⟩
  · exact absurd hnil hpiece
  have hoff := h.off_wire
  rw [hphase] at hoff
  refine ⟨hwritten, ?_, fun he => ?_⟩
  · rw [htaken, hoff, List.append_assoc]
    rfl
  · rw [hcut]
    exact h.wire_ended (hended ▸ he)

/-- An operation of `copy_decrypt` keeps the invariant, and the cell's counter. -/
theorem Inv.decMove (h : l.Inv S s) (hrun : l.dec.status = .running) {sent : ℕ}
    (hledger : ledger s = l.sealed)
    (hcell : cell.Tracks s.peer s sent l.opened.length)
    (hm : DecMove ledger cell l op l' cell' notice) :
    l'.Inv S s ∧ cell'.Tracks s.peer s sent l'.opened.length := by
  have hnot : ∀ {o}, l.dec.status ≠ .ended o := fun {o} ho => by rw [ho] at hrun; cases hrun
  have hshut : l.shut = none := by
    by_contra hne
    exact absurd (h.shut_returned hne) hnot
  cases hm with
  | atEnd hphase htransit hended =>
    have hoff := h.off_wire
    rw [hphase] at hoff
    obtain ⟨hsink, hcounted⟩ := h.reading hphase
    exact ⟨{ h with
      off_wire := hoff
      at_sink := hsink
      counted_received := hcounted
      dec_part := nofun
      dec_closing := fun _ => ⟨htransit, hended⟩
      dec_returned := fun hr => absurd hr hnot }, hcell⟩
  | truncated hphase hgot =>
    exact ⟨{ h with
      dec_part := fun _ _ he => nomatch he
      dec_returned := nofun
      shut_returned := fun hne => absurd hshut hne }, hcell⟩
  | @more count got piece wire hphase hread hpiece hmore =>
    obtain ⟨hwritten, htaken, hended⟩ := h.read_wire hphase hread hpiece
    obtain ⟨hsink, hcounted⟩ := h.reading hphase
    refine ⟨{ h with
      on_wire := by rw [hwritten]; exact h.on_wire
      off_wire := htaken
      at_sink := hsink
      counted_received := hcounted
      dec_part := fun got' hg _ => ?_
      dec_closing := nofun
      dec_returned := fun hr => absurd hr hnot
      wire_ended := hended }, hcell⟩
    · cases hg
      exact hmore
  | @refuse count got piece wire e cell' hphase hread hpiece _ hcell' =>
    obtain ⟨hwritten, htaken, hended⟩ := h.read_wire hphase hread hpiece
    obtain ⟨hsink, hcounted⟩ := h.reading hphase
    refine ⟨{ h with
      on_wire := by rw [hwritten]; exact h.on_wire
      off_wire := htaken
      at_sink := hsink
      counted_received := hcounted
      dec_part := fun _ _ he => nomatch he
      dec_closing := nofun
      dec_returned := nofun
      shut_returned := fun hne => absurd hshut hne
      wire_ended := hended }, ?_⟩
    · rcases hcell' with rfl | rfl
      · exact hcell
      · exact .inl rfl
  | @decrypt count got piece wire t plaintext hphase hread hpiece hwhole hlive hr =>
    -- What is opened is the next record that was sealed.
    subst hlive
    obtain rfl := hcell.eq_of_live
    rw [hledger] at hr
    obtain ⟨hwritten, htaken, hended⟩ := h.read_wire hphase hread hpiece
    obtain ⟨hsink, hcounted⟩ := h.reading hphase
    refine ⟨{ h with
      opens := h.opens.snoc hr
      on_wire := by rw [hwritten]; exact h.on_wire
      off_wire := ?_
      at_sink := ?_
      counted_received := ?_
      dec_part := fun _ hg _ => (DecPhase.wrote_ne_reading _ _ _ hg).elim
      dec_closing := fun hc => (DecPhase.wrote_ne_closing _ _ hc).elim
      dec_returned := fun hr => absurd hr hnot
      wire_ended := hended }, ?_⟩
    · -- The frame that is complete now is among those that are opened.
      rw [htaken, Task.goto, DecPhase.got_wrote]
      simp
    · rw [Task.goto, DecPhase.pending_wrote]
      rw [List.append_nil] at hsink
      simp [hsink, openedBytes]
    · rw [Task.goto, DecPhase.uncounted_wrote]
      have htotal : l.decBytes = .ofNat l.openedBytes.length := by simpa using hcounted
      simp [htotal, openedBytes]
    · rw [List.length_append]
      exact .inr rfl
  | @write rest count n hphase =>
    have hoff := h.off_wire
    have hsink := h.at_sink
    have hcounted := h.counted_received
    rw [hphase] at hoff hsink hcounted
    refine ⟨{ h with
      off_wire := by rw [Task.goto, DecPhase.got_wrote]; exact hoff
      at_sink := ?_
      counted_received := by rw [Task.goto, DecPhase.uncounted_wrote]; exact hcounted
      dec_part := fun _ hg _ => (DecPhase.wrote_ne_reading _ _ _ hg).elim
      dec_closing := fun hc => (DecPhase.wrote_ne_closing _ _ hc).elim
      dec_returned := fun hr => absurd hr hnot }, hcell⟩
    rw [Task.goto, DecPhase.pending_wrote, List.append_assoc, List.take_append_drop]
    exact hsink
  | @flush count hphase =>
    have hoff := h.off_wire
    have hsink := h.at_sink
    have hcounted := h.counted_received
    rw [hphase] at hoff hsink hcounted
    refine ⟨{ h with
      off_wire := hoff
      at_sink := hsink
      counted_received := ?_
      dec_part := fun got hg _ => ?_
      dec_closing := nofun
      dec_returned := fun hr => absurd hr hnot }, hcell⟩
    · refine Eq.trans ?_ hcounted
      simp [Task.goto, DecPhase.uncounted]
    · cases hg
      exact FrameFormat.isPart_nil
  | shutdown hphase =>
    exact ⟨{ h with
      dec_part := fun _ _ he => nomatch he
      dec_returned := fun _ => ⟨hphase, rfl⟩
      shut_returned := fun _ => rfl }, hcell⟩
  | fail =>
    exact ⟨{ h with
      dec_part := fun _ _ he => nomatch he
      dec_returned := nofun
      shut_returned := fun hne => absurd hshut hne }, hcell⟩

/-! ### What is not up to the tasks -/

/-- The status of a task, and whether its abortion was requested, change from
    outside while the task has not ended; only the task itself returns `Ok`. -/
theorem Inv.setEnc (h : l.Inv S s) {status : Status} {aborting : Bool}
    (hnew : status = l.enc.status ∨
      l.enc.status.isEnded = false ∧ status ≠ .ended (.returned (.ok ()))) :
    ({ l with enc := { l.enc with status, aborting } } : Lane).Inv S s := by
  rcases hnew with rfl | ⟨hlive, hok⟩
  · exact { h with }
  · have hnot : ∀ {o}, l.enc.status ≠ .ended o := fun {o} ho => by rw [ho] at hlive; cases hlive
    refine { h with
      read_sealed := h.read_sealed.imp_right ?_
      enc_returned := fun hr => absurd hr hok
      wire_ended := fun he => (h.wire_ended he).imp_right ?_ }
    · rintro ⟨-, e, he⟩
      exact absurd he hnot
    · intro hended
      rw [hlive] at hended
      cases hended

theorem Inv.setDec (h : l.Inv S s) {status : Status} {aborting : Bool}
    (hnew : status = l.dec.status ∨
      l.dec.status.isEnded = false ∧ status ≠ .ended (.returned (.ok ()))) :
    ({ l with dec := { l.dec with status, aborting } } : Lane).Inv S s := by
  rcases hnew with rfl | ⟨hlive, hok⟩
  · exact { h with }
  · have hnot : ∀ {o}, l.dec.status ≠ .ended o := fun {o} ho => by rw [ho] at hlive; cases hlive
    exact { h with
      dec_part := fun got hg _ => h.dec_part got hg hlive
      dec_returned := fun hr => absurd hr hok
      shut_returned := fun hne => absurd (h.shut_returned hne) hnot }

/-- The application at the sending end writes, until it has shut down its side. -/
theorem Inv.write (h : l.Inv S s) (hopen : l.source.ended = false) (bytes : Bytes) :
    ({ l with source := l.source.write bytes } : Lane).Inv S s :=
  { h with
    source_whole := by rw [Pipe.cut_write]; exact h.source_whole
    read_sealed := by rw [Pipe.taken_write]; exact h.read_sealed
    enc_closing := fun hc => by
      have hended := (h.enc_closing hc).2
      rw [hopen] at hended
      cases hended }

/-- The application at the sending end shuts down its side. -/
theorem Inv.closeSource (h : l.Inv S s) :
    ({ l with source := l.source.close } : Lane).Inv S s :=
  { h with
    source_whole := h.source_whole
    read_sealed := h.read_sealed
    enc_closing := fun hc => ⟨(h.enc_closing hc).1, rfl⟩ }

/-- The sending host closes its connections, after its tasks have ended. -/
theorem Inv.closeWire (h : l.Inv S s) (hended : l.enc.status.isEnded = true) :
    ({ l with wire := l.wire.close } : Lane).Inv S s :=
  { h with
    on_wire := h.on_wire
    off_wire := h.off_wire
    dec_closing := fun hc => ⟨(h.dec_closing hc).1, rfl⟩
    wire_ended := fun _ => .inr hended }

/-- The network cuts the wire. -/
theorem Inv.sever (h : l.Inv S s) (n : ℕ) :
    ({ l with wire := l.wire.sever n } : Lane).Inv S s :=
  { h with
    on_wire := by rw [Pipe.written_sever]; exact h.on_wire
    off_wire := h.off_wire
    dec_closing := fun hc => ⟨by simp [Pipe.sever, (h.dec_closing hc).1], rfl⟩
    wire_ended := fun _ => .inl rfl }

/-! ### What follows -/

/-- What is opened is a prefix of what is sealed, also as bytes. -/
theorem Inv.openedBytes_isPrefix (h : l.Inv S s) : l.openedBytes <+: l.sealedBytes := by
  obtain ⟨more, hmore⟩ := h.opens.plaintexts
  rw [sealedBytes, ← hmore, List.flatten_append]
  exact List.prefix_append ..

/-- What is sealed is a prefix of what was written. -/
theorem Inv.sealedBytes_isPrefix (h : l.Inv S s) : l.sealedBytes <+: l.source.written := by
  refine List.IsPrefix.trans ?_ l.source.taken_isPrefix
  rcases h.read_sealed with heq | ⟨hle, -⟩
  · rw [heq]
  · exact hle

/-- What was delivered is a prefix of what was written at the other end. -/
theorem Inv.delivered_isPrefix (h : l.Inv S s) : l.delivered <+: l.source.written :=
  calc l.delivered <+: l.delivered ++ l.dec.phase.pending := List.prefix_append ..
    _ = l.openedBytes := h.at_sink
    _ <+: l.sealedBytes := h.openedBytes_isPrefix
    _ <+: l.source.written := h.sealedBytes_isPrefix

/-- What is on the wire is a prefix of the frames sealed, in order. -/
theorem Inv.wire_isPrefix (h : l.Inv S s) :
    l.wire.written <+: (l.sealed.map (·.frame)).flatten := by
  rw [← h.on_wire]
  exact List.prefix_append ..

/-- Every sealed record is a frame of the record format. -/
theorem Inv.isFrame (h : l.Inv S s) {r : Record} (hr : r ∈ l.sealed) :
    recordFormat.IsFrame r.frame := by
  obtain ⟨n, hn⟩ := List.mem_iff_getElem?.1 hr
  obtain ⟨hlen, hframe⟩ := h.produced n r hn
  have hlength := S.length_encrypt s n r.plaintext
  rw [hframe]
  refine isFrame_recordFrame ?_ ?_
  · rw [← List.length_pos_iff, hlength, tagLength]
    omega
  · rw [hlength]
    exact Nat.add_le_add_right hlen tagLength

/-- What is opened are the first of the records sealed. -/
theorem Inv.opened_eq (h : l.Inv S s) :
    l.opened.map (·.record) = l.sealed.take l.opened.length := by
  have := List.prefix_iff_eq_take.1 h.opens.records
  rwa [List.length_map] at this

/-- Over a wire that was not cut, the frames of the records that are not opened
    yet are ahead of `copy_decrypt`, from what it has read of the next one on. -/
theorem Inv.ahead (h : l.Inv S s) (hcut : l.wire.cut = false) :
    l.dec.phase.got ++ (l.wire.transit ++ l.enc.phase.pending) =
      ((l.sealed.drop l.opened.length).map (·.frame)).flatten := by
  have honwire := h.on_wire
  have hopened : l.opened.map (·.record.frame) = (l.sealed.take l.opened.length).map (·.frame) := by
    rw [← h.opened_eq, List.map_map]
    rfl
  rw [Pipe.written_of_not_cut hcut, h.off_wire, hopened, ← List.take_append_drop l.opened.length
    l.sealed, List.map_append, List.flatten_append, List.take_append_drop, List.append_assoc,
    List.append_assoc] at honwire
  exact List.append_cancel_left honwire

/-- The leftmost parse of what is ahead yields a record, if there is one. -/
theorem Inv.next_ahead (h : l.Inv S s) {n : ℕ} {ahead : Bytes} (hne : ahead ≠ [])
    (hahead : ahead = ((l.sealed.drop n).map (·.frame)).flatten) :
    ∃ f, recordFormat.next ahead = .ok f := by
  rcases hrest : l.sealed.drop n with _ | ⟨r, rs⟩
  · rw [hrest] at hahead
    exact absurd hahead hne
  · have hr : r ∈ l.sealed := List.mem_of_mem_drop (hrest ▸ List.mem_cons_self)
    rw [hahead, hrest, List.map_cons, List.flatten_cons]
    exact ⟨_, FrameFormat.next_append (h.isFrame hr) _⟩

/-- Once all that was sealed is taken off the wire, `copy_decrypt` has no part of a
    record. -/
theorem Inv.got_eq_nil (h : l.Inv S s) (hcut : l.wire.cut = false)
    (hlive : l.dec.status.isEnded = false) {got : Bytes} (hphase : l.dec.phase = .reading got)
    (htransit : l.wire.transit = []) (hpending : l.enc.phase.pending = []) : got = [] := by
  have hahead := h.ahead hcut
  rw [hphase, htransit, hpending, List.append_nil, List.append_nil] at hahead
  by_contra hgot
  obtain ⟨f, hf : recordFormat.next got = .ok f⟩ := h.next_ahead hgot hahead
  have hpart := FrameFormat.next_of_isPart (h.dec_part got hphase hlive)
  rw [hf] at hpart
  cases hpart

/-- Over a wire that was not cut, `copy_decrypt` finds no invalid length. -/
theorem Inv.not_refused (h : l.Inv S s) (hcut : l.wire.cut = false)
    (hlive : l.dec.status.isEnded = false) {got piece : Bytes} {count : ℕ} {wire : Pipe UInt8}
    (hphase : l.dec.phase = .reading got)
    (hread : l.wire.read (recordAsk got) count = some (piece, wire)) (hpiece : piece ≠ []) :
    recordFormat.progress (got ++ piece) ≠ .refused := by
  intro hrefused
  rcases Pipe.read_cases hread with ⟨hnil, -⟩ | ⟨-, hask, htransit, -⟩
  · exact absurd hnil hpiece
  have hpart := h.dec_part got hphase hlive
  have hahead := h.ahead hcut
  rw [hphase, htransit, List.append_assoc, ← List.append_assoc] at hahead
  obtain ⟨f, hf : recordFormat.next (got ++ piece ++ _) = .ok f⟩ :=
    h.next_ahead (by simp [hpiece]) hahead
  rcases FrameFormat.progress_spec hpart (Nat.le_trans hask (recordAsk_spec hpart).2) with
    ⟨hp, -⟩ | ⟨hp, -⟩ | ⟨-, hlen, ha⟩
  · rw [hrefused] at hp
    cases hp
  · rw [hrefused] at hp
    cases hp
  · rw [FrameFormat.next_of_refused hlen ha] at hf
    cases hf

/-- Once `copy_decrypt` has returned `Ok`, the records taken off the wire are a
    prefix of those sealed, and exactly their plaintexts were delivered, before
    the writer was shut down. -/
theorem Inv.of_returned (h : l.Inv S s) (hdec : l.dec.status = .ended (.returned (.ok ()))) :
    ∃ n, l.opened.map (·.record) = l.sealed.take n ∧
      l.wire.taken = ((l.sealed.take n).map (·.frame)).flatten ∧
      l.delivered = ((l.sealed.take n).map (·.plaintext)).flatten ∧ l.shut = some l.delivered ∧
      l.wire.transit = [] ∧ l.wire.ended = true := by
  obtain ⟨hphase, hshut⟩ := h.dec_returned hdec
  obtain ⟨htransit, hended⟩ := h.dec_closing hphase
  have hopened := h.opened_eq
  have hoff := h.off_wire
  have hsink := h.at_sink
  rw [hphase] at hoff hsink
  refine ⟨l.opened.length, hopened, ?_, ?_, hshut, htransit, hended⟩
  · rw [hoff, ← hopened, List.map_map]
    exact List.append_nil _
  · rw [← hopened, List.map_map]
    exact (List.append_nil _).symm.trans hsink

/-- Once both tasks have returned `Ok` over a wire that was not cut, everything
    was delivered, before the writer was shut down, and both hosts counted it. -/
theorem Inv.complete (h : l.Inv S s) (hcut : l.wire.cut = false)
    (henc : l.enc.status = .ended (.returned (.ok ())))
    (hdec : l.dec.status = .ended (.returned (.ok ()))) :
    l.delivered = l.source.written ∧ l.source.ended = true ∧ l.shut = some l.source.written ∧
      l.encBytes = .ofNat l.source.written.length ∧
      l.decBytes = .ofNat l.source.written.length := by
  have hclosing := h.enc_returned henc
  obtain ⟨hsource, hended⟩ := h.enc_closing hclosing
  obtain ⟨n, hopened, htaken, hdelivered, hshut, htransit, -⟩ := h.of_returned hdec
  -- All that was read from the source is sealed, and all that is sealed is on the wire.
  have hread : l.sealedBytes = l.source.written := by
    rcases h.read_sealed with heq | ⟨-, e, he⟩
    · rw [Pipe.written_of_not_cut h.source_whole, hsource, List.append_nil, heq]
    · rw [henc] at he
      cases he
  have honwire := h.on_wire
  rw [hclosing, Pipe.written_of_not_cut hcut, htransit, List.append_nil, htaken] at honwire
  -- The frames taken off the wire are all of them, so that the rest of the records is empty.
  have hrest : l.sealed.drop n = [] := by
    rw [← List.take_append_drop n l.sealed, List.map_append, List.flatten_append,
      List.take_append_drop] at honwire
    have hflat : ((l.sealed.drop n).map (·.frame)).flatten = [] :=
      (List.append_cancel_left honwire).symm
    rw [List.eq_nil_iff_forall_not_mem]
    intro r hr
    exact (h.isFrame (List.mem_of_mem_drop hr)).ne_nil
      (List.flatten_eq_nil_iff.1 hflat _ (List.mem_map_of_mem hr))
  have hall : l.sealed.take n = l.sealed := by
    have := List.take_append_drop n l.sealed
    rwa [hrest, List.append_nil] at this
  rw [hall] at hopened hdelivered
  have hbytes : l.delivered = l.source.written := hdelivered.trans hread
  have hreceived : l.openedBytes = l.source.written := by
    rw [← hread, sealedBytes, ← hopened, List.map_map]
    rfl
  have hsent := h.counted_sent
  have hgot := h.counted_received
  rw [hclosing, hread] at hsent
  rw [(h.dec_returned hdec).1, hreceived] at hgot
  refine ⟨hbytes, hended, hbytes ▸ hshut, ?_, ?_⟩
  · simpa [EncPhase.uncounted] using hsent
  · simpa [DecPhase.uncounted] using hgot

end Lane

end SecureTunnel
