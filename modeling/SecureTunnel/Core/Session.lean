import SecureTunnel.Core.Record

/-!
# Transport sessions

A `TransportSession` refers to its cell (`Arc<Mutex<..>>`); splitting it gives
two handles that refer to the same cell. The calls on a session, whole or split,
are runs on that cell (`Handles.call_eq`).

The shared cipher state behind them (`shared_cipher_state`): until `snow` fails,
either direction behaves as if it were alone; a call rejected before the cipher
is used changes nothing; once `snow` has failed, nothing passes anymore.
-/

namespace SecureTunnel

/-- The mutexes of a process, by reference. -/
abbrev Heap (Ref Key : Type*) := Ref → Cell Key

/-- `TransportSession`: a reference to the shared cipher state. -/
structure TransportSession (Ref : Type*) where
  state : Ref

/-- `TransportSender` -/
structure TransportSender (Ref : Type*) where
  state : Ref

/-- `TransportReceiver` -/
structure TransportReceiver (Ref : Type*) where
  state : Ref

variable {Ref Key : Type*} [DecidableEq Ref] (aead : Aead Key)

/-- An operation under the lock of a cell. -/
def Heap.locked {α : Type*} (heap : Heap Ref Key) (ref : Ref) (op : Cell Key → α × Cell Key) :
    α × Heap Ref Key :=
  ((op (heap ref)).1, Function.update heap ref (op (heap ref)).2)

namespace TransportSession

/-- `TransportSession::new`: the state behind a new mutex at `ref`. -/
def new (heap : Heap Ref Key) (ref : Ref) (t : TransportState Key) :
    TransportSession Ref × Heap Ref Key :=
  (⟨ref⟩, Function.update heap ref (Cell.new t))

def encryptRecord (s : TransportSession Ref) (heap : Heap Ref Key) (plaintext : Bytes) :
    Except TunnelError Bytes × Heap Ref Key :=
  heap.locked s.state (sealRecord aead · plaintext)

def decryptRecord (s : TransportSession Ref) (heap : Heap Ref Key) (frame : Bytes) :
    Except TunnelError Bytes × Heap Ref Key :=
  heap.locked s.state (openRecord aead · frame)

omit [DecidableEq Ref] in
/-- Both handles of a split session share its state. -/
def split (s : TransportSession Ref) : TransportSender Ref × TransportReceiver Ref :=
  (⟨s.state⟩, ⟨s.state⟩)

end TransportSession

def TransportSender.encryptRecord (s : TransportSender Ref) (heap : Heap Ref Key)
    (plaintext : Bytes) : Except TunnelError Bytes × Heap Ref Key :=
  heap.locked s.state (sealRecord aead · plaintext)

def TransportReceiver.decryptRecord (s : TransportReceiver Ref) (heap : Heap Ref Key)
    (frame : Bytes) : Except TunnelError Bytes × Heap Ref Key :=
  heap.locked s.state (openRecord aead · frame)

/-! ## Calls -/

/-- The direction of a call. -/
inductive Direction
  | sending
  | receiving
  deriving DecidableEq

/-- A call on a session. -/
inductive Call
  | encrypt (plaintext : Bytes)
  | decrypt (frame : Bytes)

namespace Call

def direction : Call → Direction
  | encrypt _ => .sending
  | decrypt _ => .receiving

/-- The call is rejected before the cipher is used: the plaintext is too long,
    or the frame is malformed. -/
def Rejected : Call → Prop
  | encrypt plaintext => maxPlaintextRecord < plaintext.length
  | decrypt frame => ∃ e, decodeRecordFrame frame = .error e

/-- The call, on the cell it locks. -/
def onCell (cell : Cell Key) : Call → Except TunnelError Bytes × Cell Key
  | encrypt plaintext => sealRecord aead cell plaintext
  | decrypt frame => openRecord aead cell frame

/-- The nonce at which the call, on this cell, has `snow` encrypt, if it does. -/
def sealNonce (cell : Cell Key) : Call → Option ℕ
  | encrypt plaintext =>
    if maxPlaintextRecord < plaintext.length ∨ cell.poisoned then none
    else (cell.state.map (·.send.nonce)).filter (· < nonceLimit)
  | decrypt _ => none

end Call

/-- The result is a failure of `snow`. -/
def SnowFailed : Except TunnelError Bytes → Prop
  | .error (.noise _) => True
  | _ => False

/-- How a session is held: whole, or split into its two handles. -/
inductive Handles (Ref : Type*)
  | whole (session : TransportSession Ref)
  | split (sender : TransportSender Ref) (receiver : TransportReceiver Ref)

/-- A session held whole, or split. -/
def TransportSession.handles (s : TransportSession Ref) : Bool → Handles Ref
  | false => .whole s
  | true => .split s.split.1 s.split.2

namespace Handles

/-- A call through the handles. -/
def call (heap : Heap Ref Key) : Handles Ref → Call → Except TunnelError Bytes × Heap Ref Key
  | whole session, .encrypt plaintext => session.encryptRecord aead heap plaintext
  | whole session, .decrypt frame => session.decryptRecord aead heap frame
  | split sender _, .encrypt plaintext => sender.encryptRecord aead heap plaintext
  | split _ receiver, .decrypt frame => receiver.decryptRecord aead heap frame

/-- The results of calls, in order. -/
def results (h : Handles Ref) : Heap Ref Key → List Call → List (Except TunnelError Bytes)
  | _, [] => []
  | heap, c :: calls => (h.call aead heap c).1 :: h.results (h.call aead heap c).2 calls

/-- The heap after calls. -/
def after (h : Handles Ref) : Heap Ref Key → List Call → Heap Ref Key
  | heap, [] => heap
  | heap, c :: calls => h.after (h.call aead heap c).2 calls

/-- The nonces at which calls have `snow` encrypt, in order. -/
def sealNonces (h : Handles Ref) (ref : Ref) : Heap Ref Key → List Call → List ℕ
  | _, [] => []
  | heap, c :: calls =>
    (c.sealNonce (heap ref)).toList ++ h.sealNonces ref (h.call aead heap c).2 calls

end Handles

/-! ## Outcomes of calls -/

namespace TransportState

/-- The cipher of a direction. -/
def cipher (t : TransportState Key) : Direction → CipherState Key
  | .sending => t.send
  | .receiving => t.recv

/-- The transport with another cipher in a direction. -/
def advance (t : TransportState Key) : Direction → CipherState Key → TransportState Key
  | .sending, c => { t with send := c }
  | .receiving, c => { t with recv := c }

@[simp] theorem cipher_advance_self (t : TransportState Key) (d : Direction)
    (c : CipherState Key) : (t.advance d c).cipher d = c := by
  cases d <;> rfl

theorem cipher_advance_of_ne (t : TransportState Key) {d d' : Direction} (c : CipherState Key)
    (h : d' ≠ d) : (t.advance d c).cipher d' = t.cipher d' := by
  cases d <;> cases d' <;> first | rfl | exact absurd rfl h

end TransportState

/-- The cell that an outcome in direction `d` leaves of a live session. -/
def Outcome.cell (t : TransportState Key) (d : Direction) : Outcome Key → Cell Key
  | rejected _ => Cell.new t
  | failed _ => ⟨false, none⟩
  | done _ c => Cell.new (t.advance d c)

namespace Call

/-- The outcome of a call, given the cipher of its direction. -/
def outcome (c : CipherState Key) : Call → Outcome Key
  | encrypt plaintext => sealOutcome aead c plaintext
  | decrypt frame => openOutcome aead c frame

variable {aead}

/-- On a live session, a call does what its outcome says. -/
theorem onCell_live (t : TransportState Key) (c : Call) :
    c.onCell aead (Cell.new t) =
      ((c.outcome aead (t.cipher c.direction)).result,
        (c.outcome aead (t.cipher c.direction)).cell t c.direction) := by
  cases c with
  | encrypt plaintext => exact sealRecord_live aead t plaintext
  | decrypt frame => exact openRecord_live aead t frame

/-- A closed session stays closed. -/
theorem onCell_closed (c : Call) : (c.onCell aead ⟨false, none⟩).2 = ⟨false, none⟩ := by
  cases c with
  | encrypt plaintext => rw [onCell, sealRecord_closed]
  | decrypt frame => rw [onCell, openRecord_closed]

/-- A closed session refuses every call that would reach the cipher. -/
theorem onCell_closed_error {c : Call} (h : ¬c.Rejected) :
    (c.onCell aead ⟨false, none⟩).1 = .error .closedSession := by
  cases c with
  | encrypt plaintext =>
    have hlen : ¬maxPlaintextRecord < plaintext.length := h
    rw [onCell, sealRecord_closed, if_neg hlen]
  | decrypt frame =>
    rw [onCell, openRecord_closed]
    rcases hd : decodeRecordFrame frame with e | body
    · exact absurd ⟨e, hd⟩ h
    · rfl

/-- A rejected call leaves any cell as it was. -/
theorem onCell_rejected {c : Call} (h : c.Rejected) (cell : Cell Key) :
    (c.onCell aead cell).2 = cell := by
  cases c with
  | encrypt plaintext =>
    have hlen : maxPlaintextRecord < plaintext.length := h
    rw [onCell, sealRecord, if_pos hlen]
  | decrypt frame =>
    obtain ⟨e, he⟩ := h
    simp [onCell, openRecord, he]

/-- Only a call that is rejected before the cipher is used has that outcome. -/
theorem rejected_of_outcome {c : CipherState Key} {call : Call} {e : TunnelError}
    (h : call.outcome aead c = .rejected e) : call.Rejected := by
  cases call with
  | encrypt plaintext =>
    simp only [outcome, sealOutcome] at h
    split at h
    · assumption
    · split at h <;> cases h
  | decrypt frame =>
    simp only [outcome, openOutcome] at h
    split at h
    · rename_i hd
      exact ⟨_, hd⟩
    · split at h <;> cases h

/-- On a live session `snow` encrypts at the sending nonce, and only for a
    plaintext that is not rejected. -/
theorem sealNonce_live {t : TransportState Key} {call : Call} {n : ℕ}
    (h : call.sealNonce (Cell.new t) = some n) :
    call.direction = .sending ∧ n = t.send.nonce ∧ ¬call.Rejected := by
  cases call with
  | encrypt plaintext =>
    rw [sealNonce] at h
    split at h
    · cases h
    · rename_i hlen
      obtain ⟨hn, -⟩ := Option.filter_eq_some_iff.1 h
      exact ⟨rfl, (Option.some.inj hn).symm, fun hr => hlen (.inl hr)⟩
  | decrypt frame => cases h

/-- A call that is done advances the nonce of its direction by one. -/
theorem outcome_done {c c' : CipherState Key} {call : Call} {bytes : Bytes}
    (h : call.outcome aead c = .done bytes c') : c' = { c with nonce := c.nonce + 1 } := by
  cases call with
  | encrypt plaintext =>
    simp only [outcome, sealOutcome] at h
    split at h
    · cases h
    split at h
    · cases h
    · rename_i hu
      obtain ⟨-, rfl⟩ := (Outcome.done.injEq ..).mp h
      exact (CipherState.use_eq_ok.1 hu).2.2
  | decrypt frame =>
    simp only [outcome, openOutcome] at h
    split at h
    · cases h
    split at h
    · cases h
    · rename_i hu
      obtain ⟨-, rfl⟩ := (Outcome.done.injEq ..).mp h
      exact (CipherState.use_eq_ok.1 hu).2.2

/-- Only a failure of `snow` is reported as one. -/
theorem outcome_of_snowFailed {c : CipherState Key} {call : Call}
    (h : SnowFailed (call.outcome aead c).result) : ∃ e, call.outcome aead c = .failed e := by
  rcases ho : call.outcome aead c with e | e | ⟨bytes, c'⟩
  · -- A rejection is a length error, or an error of the frame decoder.
    exfalso
    rw [ho] at h
    cases call with
    | encrypt plaintext =>
      simp only [outcome, sealOutcome] at ho
      split at ho
      · cases ho
        exact h
      · split at ho <;> cases ho
    | decrypt frame =>
      simp only [outcome, openOutcome] at ho
      split at ho
      · rename_i hd
        cases ho
        have := decodeFrame_error hd
        cases e <;> simp_all [SnowFailed, Outcome.result, TunnelError.malformed]
      · split at ho <;> cases ho
  · exact ⟨e, rfl⟩
  · rw [ho] at h
    exact h.elim

end Call

namespace Handles

/-- Whole or split, a call acts on the session's cell, and on nothing else. -/
theorem call_eq (s : TransportSession Ref) (split : Bool) (heap : Heap Ref Key) (c : Call) :
    (s.handles split).call aead heap c =
      ((c.onCell aead (heap s.state)).1,
        Function.update heap s.state (c.onCell aead (heap s.state)).2) := by
  cases split <;> cases c <;> rfl

/-- After a call, the session's cell is what the call made of it. -/
theorem call_cell (s : TransportSession Ref) (split : Bool) (heap : Heap Ref Key) (c : Call) :
    ((s.handles split).call aead heap c).2 s.state = (c.onCell aead (heap s.state)).2 := by
  rw [call_eq]
  exact Function.update_self ..

theorem after_append (h : Handles Ref) (heap : Heap Ref Key) (calls calls' : List Call) :
    h.after aead heap (calls ++ calls') = h.after aead (h.after aead heap calls) calls' := by
  induction calls generalizing heap with
  | nil => rfl
  | cons c calls ih => exact ih _

/-! ## The shared cipher state -/

/-- The results of the calls of one direction. -/
def resultsOf (d : Direction) (calls : List Call) (results : List (Except TunnelError Bytes)) :
    List (Except TunnelError Bytes) :=
  ((calls.zip results).filter fun c => c.1.direction = d).map (·.2)

omit [DecidableEq Ref] in
theorem resultsOf_cons (d : Direction) (c : Call) (calls : List Call)
    (r : Except TunnelError Bytes) (results : List (Except TunnelError Bytes)) :
    resultsOf d (c :: calls) (r :: results) =
      if c.direction = d then r :: resultsOf d calls results else resultsOf d calls results := by
  by_cases h : c.direction = d <;> simp [resultsOf, h]

section Shared

variable (s : TransportSession Ref) (split : Bool)

/-- While `snow` does not fail, the session stays live, and the counter of each
    direction counts its successes. -/
theorem live_of_not_snowFailed {heap : Heap Ref Key} {t : TransportState Key} {calls : List Call}
    (hheap : heap s.state = Cell.new t)
    (hok : ∀ r ∈ (s.handles split).results aead heap calls, ¬SnowFailed r) :
    ∃ t', (s.handles split).after aead heap calls s.state = Cell.new t' ∧
      ∀ d, (t'.cipher d).nonce = (t.cipher d).nonce +
        (resultsOf d calls ((s.handles split).results aead heap calls)).countP (·.isOk) := by
  induction calls generalizing heap t with
  | nil => exact ⟨t, hheap, fun d => by simp [resultsOf]⟩
  | cons c calls ih =>
    have hcell := call_cell aead s split heap c
    rw [hheap, c.onCell_live] at hcell
    have hres : ((s.handles split).call aead heap c).1 =
        (c.outcome aead (t.cipher c.direction)).result := by
      rw [call_eq, hheap, c.onCell_live]
    obtain ⟨hc, hok⟩ := List.forall_mem_cons.1 hok
    rw [hres] at hc
    -- By cases on the outcome; the direction of the call is the only one that advances.
    rcases ho : c.outcome aead (t.cipher c.direction) with e | e | ⟨bytes, c'⟩
    · rw [ho] at hcell hres
      obtain ⟨t', ht', hn⟩ := ih hcell hok
      refine ⟨t', ht', fun d => ?_⟩
      rw [hn d, results, resultsOf_cons, hres]
      split
      · rw [List.countP_cons_of_neg (by simp [Outcome.result, Except.isOk, Except.toBool])]
      · rfl
    · rw [ho] at hc
      exact (hc trivial).elim
    · rw [ho] at hcell hres
      obtain ⟨t', ht', hn⟩ := ih hcell hok
      refine ⟨t', ht', fun d => ?_⟩
      rw [hn d, results, resultsOf_cons, hres]
      by_cases hd : c.direction = d
      · subst hd
        rw [if_pos rfl, List.countP_cons_of_pos (by rfl), TransportState.cipher_advance_self,
          Call.outcome_done ho]
        dsimp only
        omega
      · rw [if_neg hd, TransportState.cipher_advance_of_ne _ _ (Ne.symm hd)]

/-- While `snow` does not fail, the results of a direction are those of its calls
    alone, on any session with the same cipher in that direction. -/
theorem resultsOf_alone {heap heap' : Heap Ref Key} {t t' : TransportState Key} {calls : List Call}
    (hheap : heap s.state = Cell.new t) (hheap' : heap' s.state = Cell.new t')
    (hok : ∀ r ∈ (s.handles split).results aead heap calls, ¬SnowFailed r) {d : Direction}
    (hd : t'.cipher d = t.cipher d) :
    resultsOf d calls ((s.handles split).results aead heap calls) =
      (s.handles split).results aead heap' (calls.filter (·.direction = d)) := by
  induction calls generalizing heap heap' t t' with
  | nil => rfl
  | cons c calls ih =>
    have hcell := call_cell aead s split heap c
    rw [hheap, c.onCell_live] at hcell
    have hres : ((s.handles split).call aead heap c).1 =
        (c.outcome aead (t.cipher c.direction)).result := by
      rw [call_eq, hheap, c.onCell_live]
    obtain ⟨hc, hok⟩ := List.forall_mem_cons.1 hok
    rw [hres] at hc
    by_cases hcd : c.direction = d
    · -- The call is also made alone, with the same outcome.
      have hcell' := call_cell aead s split heap' c
      rw [hheap', c.onCell_live, hcd, hd, ← hcd] at hcell'
      have hres' : ((s.handles split).call aead heap' c).1 =
          (c.outcome aead (t.cipher c.direction)).result := by
        rw [call_eq, hheap', c.onCell_live, hcd, hd]
      rw [results, resultsOf_cons, if_pos hcd, List.filter_cons_of_pos (by simpa using hcd),
        results, hres, hres']
      congr 1
      rcases ho : c.outcome aead (t.cipher c.direction) with e | e | ⟨bytes, c'⟩
      · rw [ho] at hcell hcell'
        exact ih hcell hcell' hok hd
      · rw [ho] at hc
        exact (hc trivial).elim
      · rw [ho] at hcell hcell'
        exact ih hcell hcell' hok (by rw [← hcd]; simp)
    · -- The call is not made alone, and leaves the cipher of `d` as it was.
      rw [results, resultsOf_cons, if_neg hcd, List.filter_cons_of_neg (by simpa using hcd)]
      rcases ho : c.outcome aead (t.cipher c.direction) with e | e | ⟨bytes, c'⟩
      · rw [ho] at hcell
        exact ih hcell hheap' hok hd
      · rw [ho] at hc
        exact (hc trivial).elim
      · rw [ho] at hcell
        refine ih hcell hheap' hok ?_
        rw [hd, TransportState.cipher_advance_of_ne _ _ (Ne.symm hcd)]

/-- A closed session has `snow` encrypt nothing. -/
theorem sealNonces_closed {heap : Heap Ref Key} (calls : List Call)
    (hheap : heap s.state = ⟨false, none⟩) :
    (s.handles split).sealNonces aead s.state heap calls = [] := by
  induction calls generalizing heap with
  | nil => rfl
  | cons c calls ih =>
    have hcell := call_cell aead s split heap c
    rw [hheap, c.onCell_closed] at hcell
    have hnone : c.sealNonce (heap s.state) = none := by
      rw [hheap]
      cases c <;> simp [Call.sealNonce]
    rw [sealNonces, hnone, ih hcell]
    rfl

/-- The nonces of a live session increase strictly, from the sending nonce on. -/
theorem sealNonces_live {heap : Heap Ref Key} {t : TransportState Key} (calls : List Call)
    (hheap : heap s.state = Cell.new t) :
    ((s.handles split).sealNonces aead s.state heap calls).Pairwise (· < ·) ∧
      ∀ n ∈ (s.handles split).sealNonces aead s.state heap calls, t.send.nonce ≤ n := by
  induction calls generalizing heap t with
  | nil => exact ⟨List.Pairwise.nil, fun n hn => absurd hn List.not_mem_nil⟩
  | cons c calls ih =>
    have hcell := call_cell aead s split heap c
    rw [hheap, c.onCell_live] at hcell
    rw [sealNonces, hheap]
    rcases hc : c.sealNonce (Cell.new t) with _ | n
    · -- `snow` does not encrypt: the sending nonce cannot have gone back.
      rw [Option.toList_none, List.nil_append]
      rcases ho : c.outcome aead (t.cipher c.direction) with e | e | ⟨bytes, c'⟩
      · rw [ho] at hcell
        exact ih hcell
      · rw [ho] at hcell
        rw [sealNonces_closed aead s split calls hcell]
        exact ⟨List.Pairwise.nil, fun n hn => absurd hn List.not_mem_nil⟩
      · rw [ho] at hcell
        obtain ⟨hpair, hle⟩ := ih hcell
        refine ⟨hpair, fun n hn => ?_⟩
        have := hle n hn
        have hc' := Call.outcome_done ho
        cases hd : c.direction <;>
          simp only [hd, hc', TransportState.advance, TransportState.cipher] at this <;> omega
    · -- `snow` encrypts at the sending nonce: it fails, or the nonce advances.
      obtain ⟨hd, rfl, hrej⟩ := Call.sealNonce_live hc
      rw [Option.toList_some, List.singleton_append, List.pairwise_cons, List.forall_mem_cons]
      rcases ho : c.outcome aead (t.cipher c.direction) with e | e | ⟨bytes, c'⟩
      · exact absurd (Call.rejected_of_outcome ho) hrej
      · rw [ho] at hcell
        rw [sealNonces_closed aead s split calls hcell]
        simp
      · rw [ho] at hcell
        obtain ⟨hpair, hle⟩ := ih hcell
        rw [Call.outcome_done ho, hd] at hle
        simp only [TransportState.advance, TransportState.cipher] at hle
        exact ⟨⟨fun n hn => hle n hn, hpair⟩, Nat.le_refl _,
          fun n hn => Nat.le_of_succ_le (hle n hn)⟩

/-- A session that is closed stays closed. -/
theorem after_closed {heap : Heap Ref Key} (calls : List Call)
    (hheap : heap s.state = ⟨false, none⟩) :
    (s.handles split).after aead heap calls s.state = ⟨false, none⟩ := by
  induction calls generalizing heap with
  | nil => exact hheap
  | cons c calls ih =>
    refine ih ?_
    rw [call_cell, hheap, c.onCell_closed]

/-- Calls leave a live session live, or closed. -/
theorem after_live {heap : Heap Ref Key} {t : TransportState Key} (calls : List Call)
    (hheap : heap s.state = Cell.new t) :
    (∃ t', (s.handles split).after aead heap calls s.state = Cell.new t') ∨
      (s.handles split).after aead heap calls s.state = ⟨false, none⟩ := by
  induction calls generalizing heap t with
  | nil => exact .inl ⟨t, hheap⟩
  | cons c calls ih =>
    have hcell := call_cell aead s split heap c
    rw [hheap, c.onCell_live] at hcell
    rcases ho : c.outcome aead (t.cipher c.direction) with e | e | ⟨bytes, c'⟩
    · rw [ho] at hcell
      exact ih hcell
    · rw [ho] at hcell
      exact .inr (after_closed aead s split calls hcell)
    · rw [ho] at hcell
      exact ih hcell

/-- A failure of `snow` closes the session. -/
theorem closed_of_snowFailed {heap : Heap Ref Key} {c : Call}
    (hheap : (∃ t, heap s.state = Cell.new t) ∨ heap s.state = ⟨false, none⟩)
    (hfail : SnowFailed ((s.handles split).call aead heap c).1) :
    ((s.handles split).call aead heap c).2 s.state = ⟨false, none⟩ := by
  rw [call_cell]
  rcases hheap with ⟨t, ht⟩ | hclosed
  · rw [call_eq, ht, c.onCell_live] at hfail
    obtain ⟨e, he⟩ := Call.outcome_of_snowFailed hfail
    rw [ht, c.onCell_live, he]
    rfl
  · rw [hclosed, c.onCell_closed]

end Shared

/-- For every run of calls on a session, whole or split, from a fresh transport:
    while `snow` does not fail, the results of a direction are those of its calls
    alone and the counters count the successes, and no nonce is used twice; a
    rejected call changes nothing at all; after a failure of `snow`, every call
    that is not rejected finds the session closed. -/
theorem shared_cipher_state (heap₀ : Heap Ref Key) (ref : Ref) (sendKey recvKey : Key)
    (split : Bool) (calls : List Call) :
    let created := TransportSession.new heap₀ ref (.fresh sendKey recvKey)
    let heap := created.2
    let h := created.1.handles split
    ((∀ r ∈ h.results aead heap calls, ¬SnowFailed r) →
      (∀ d, resultsOf d calls (h.results aead heap calls) =
        h.results aead heap (calls.filter (·.direction = d))) ∧
      ∃ t, h.after aead heap calls ref = Cell.new t ∧
        t.send.nonce = (resultsOf .sending calls (h.results aead heap calls)).countP (·.isOk) ∧
        t.recv.nonce = (resultsOf .receiving calls (h.results aead heap calls)).countP (·.isOk)) ∧
    (h.sealNonces aead ref heap calls).Nodup ∧
    (∀ call : Call, call.Rejected →
      (h.call aead (h.after aead heap calls) call).2 = h.after aead heap calls) ∧
    ∀ failing later call,
      SnowFailed (h.call aead (h.after aead heap calls) failing).1 → ¬call.Rejected →
      (h.call aead (h.after aead heap (calls ++ failing :: later)) call).1 =
        .error .closedSession := by
  intro created heap h
  have hnew : heap created.1.state = Cell.new (.fresh sendKey recvKey) := Function.update_self ..
  refine ⟨fun hok => ⟨fun d => ?_, ?_⟩, ?_, fun call hrej => ?_,
    fun failing later call hfail hrej => ?_⟩
  · exact resultsOf_alone aead created.1 split hnew hnew hok rfl
  · obtain ⟨t, ht, hn⟩ := live_of_not_snowFailed aead created.1 split hnew hok
    refine ⟨t, ht, ?_, ?_⟩
    · have := hn .sending
      rwa [show (TransportState.fresh sendKey recvKey).cipher .sending = ⟨sendKey, 0⟩ from rfl,
        Nat.zero_add] at this
    · have := hn .receiving
      rwa [show (TransportState.fresh sendKey recvKey).cipher .receiving = ⟨recvKey, 0⟩ from rfl,
        Nat.zero_add] at this
  · exact (sealNonces_live aead created.1 split calls hnew).1.imp fun hlt => Nat.ne_of_lt hlt
  · rw [call_eq, call.onCell_rejected hrej, Function.update_eq_self]
  · -- The failure closes the cell, and the calls after it leave it closed.
    have hlive := after_live aead created.1 split calls hnew
    have hclosed := closed_of_snowFailed aead created.1 split hlive hfail
    have hafter :
        h.after aead heap (calls ++ failing :: later) created.1.state = ⟨false, none⟩ := by
      rw [after_append]
      exact after_closed aead created.1 split later hclosed
    rw [call_eq, hafter, call.onCell_closed_error hrej]

end Handles

end SecureTunnel
