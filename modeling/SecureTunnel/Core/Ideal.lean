import Mathlib.Data.List.Infix
import SecureTunnel.Core.Record

/-!
# The ideal cipher

The assumption under which a session protects its records: an `Aead` that opens,
under a key and at a nonce, exactly the ciphertext that was sealed there. What
was sealed is the *ledger* of the key, one record for each nonce from zero on.

* `sealRecord_ideal_cases`, `openRecord_ideal_cases`: all that sealing and
  opening can do to a cell under the ideal cipher.
* `openRecord_ideal_of_unexpected`: a frame other than the next one of the
  ledger closes the session.
* `Cell.Tracks`: the counters of a live cell are the numbers of records sealed
  and opened so far.
* `Opens`: what was opened is a prefix of what was sealed, each record once and
  at its own nonce.
-/

namespace SecureTunnel

/-- The two ends of a session. A direction is named after the end that sends in it. -/
inductive Side
  | client
  | server
  deriving DecidableEq, Repr

namespace Side

/-- The other end. -/
def peer : Side → Side
  | client => server
  | server => client

@[simp] theorem peer_peer (e : Side) : e.peer.peer = e := by
  cases e <;> rfl

theorem peer_ne (e : Side) : e.peer ≠ e := by
  cases e <;> decide

theorem eq_peer_of_ne (e : Side) {e' : Side} (h : e' ≠ e) : e' = e.peer := by
  revert h
  cases e <;> cases e' <;> decide

end Side

/-- A sealed record: its plaintext, and its frame on the wire. -/
structure Record where
  plaintext : Bytes
  frame : Bytes
  deriving DecidableEq, Repr

/-- What `snow` encrypts to, at each key and nonce: the tag adds 16 bytes. -/
structure Sealing (Key : Type*) where
  encrypt : Key → ℕ → Bytes → Bytes
  length_encrypt : ∀ key nonce plaintext,
    (encrypt key nonce plaintext).length = plaintext.length + tagLength

variable {Key : Type*}

/-- A sealing to compute with: the plaintext, and a tag of one byte repeated. -/
def Sealing.tagged (tag : Key → ℕ → UInt8) : Sealing Key where
  encrypt key nonce plaintext := plaintext ++ List.replicate tagLength (tag key nonce)
  length_encrypt _ _ _ := by rw [List.length_append, List.length_replicate]

/-- The ideal cipher: it opens, at each nonce, the ciphertext that the ledger of
    the key has there, and fails to authenticate all else. -/
def ideal (S : Sealing Key) (ledger : Key → List Record) : Aead Key where
  encrypt key nonce plaintext room :=
    if h : (S.encrypt key nonce plaintext).length ≤ room then .ok ⟨_, h⟩
    else .error (.other "input error".toList)
  decrypt key nonce ciphertext room :=
    match (ledger key)[nonce]? with
    | none => .error .decrypt
    | some r =>
      if h : r.frame = recordFrame ciphertext ∧ r.plaintext.length ≤ room then
        .ok ⟨r.plaintext, h.2⟩
      else .error .decrypt

/-- Each record of a ledger is what `snow` encrypts to at its nonce. -/
def Sealing.Produced (S : Sealing Key) (key : Key) (ledger : List Record) : Prop :=
  ∀ n r, ledger[n]? = some r → r.plaintext.length ≤ maxPlaintextRecord ∧
    r.frame = recordFrame (S.encrypt key n r.plaintext)

theorem Sealing.Produced.snoc {S : Sealing Key} {key : Key} {ledger : List Record}
    (h : S.Produced key ledger) {plaintext : Bytes}
    (hlen : plaintext.length ≤ maxPlaintextRecord) :
    S.Produced key
      (ledger ++ [⟨plaintext, recordFrame (S.encrypt key ledger.length plaintext)⟩]) := by
  intro n r hr
  rcases Nat.lt_trichotomy n ledger.length with hlt | rfl | hgt
  · rw [List.getElem?_append_left hlt] at hr
    exact h n r hr
  · rw [List.getElem?_concat_length, Option.some.injEq] at hr
    subst hr
    exact ⟨hlen, rfl⟩
  · rw [List.getElem?_eq_none (by simp; omega)] at hr
    cases hr

section Cases

variable {S : Sealing Key} {ledger : Key → List Record}

/-- Sealing yields the frame of what `snow` encrypts to, at the next nonce. -/
theorem sealOutcome_ideal_done {c c' : CipherState Key} {plaintext frame : Bytes}
    (h : sealOutcome (ideal S ledger) c plaintext = .done frame c') :
    plaintext.length ≤ maxPlaintextRecord ∧
      frame = recordFrame (S.encrypt c.key c.nonce plaintext) ∧ c' = ⟨c.key, c.nonce + 1⟩ := by
  rw [sealOutcome] at h
  split at h
  · cases h
  · rename_i hlen
    split at h
    · cases h
    · rename_i hu
      obtain ⟨rfl, rfl⟩ := (Outcome.done.injEq ..).mp h
      obtain ⟨-, hop, rfl⟩ := CipherState.use_eq_ok.1 hu
      simp only [ideal] at hop
      split at hop
      · cases hop
        exact ⟨Nat.not_lt.1 hlen, rfl, rfl⟩
      · cases hop

/-- Opening yields the plaintext of the ledger's next record, if the frame is that record's. -/
theorem openOutcome_ideal_done {c c' : CipherState Key} {frame plaintext : Bytes}
    (h : openOutcome (ideal S ledger) c frame = .done plaintext c') :
    (ledger c.key)[c.nonce]? = some ⟨plaintext, frame⟩ ∧ c' = ⟨c.key, c.nonce + 1⟩ := by
  rw [openOutcome] at h
  split at h
  · cases h
  · rename_i ciphertext hd
    split at h
    · cases h
    · rename_i hu
      obtain ⟨rfl, rfl⟩ := (Outcome.done.injEq ..).mp h
      obtain ⟨-, hop, rfl⟩ := CipherState.use_eq_ok.1 hu
      simp only [ideal] at hop
      split at hop
      · cases hop
      · rename_i r hr
        split at hop
        · rename_i hframe
          cases hop
          refine ⟨?_, rfl⟩
          rw [hr, (decodeRecordFrame_iff.1 hd).1, ← hframe.1]
        · cases hop

/-- The next record of the ledger opens, while the counter is not exhausted. -/
theorem openOutcome_ideal_of_next {c : CipherState Key} {r : Record}
    (hledger : S.Produced c.key (ledger c.key)) (hr : (ledger c.key)[c.nonce]? = some r)
    (hc : c.nonce < nonceLimit) :
    openOutcome (ideal S ledger) c r.frame = .done r.plaintext ⟨c.key, c.nonce + 1⟩ := by
  obtain ⟨hlen, hframe⟩ := hledger c.nonce r hr
  have hlength := S.length_encrypt c.key c.nonce r.plaintext
  have hd : decodeRecordFrame r.frame = .ok (S.encrypt c.key c.nonce r.plaintext) := by
    rw [decodeRecordFrame_iff]
    refine ⟨hframe, ?_⟩
    simp only [maxPlaintextRecord, tagLength, maxCiphertextRecord] at hlen hlength ⊢
    omega
  have hroom : r.plaintext.length ≤
      (S.encrypt c.key c.nonce r.plaintext).length - tagLength := by
    omega
  have hu : (c.use fun key nonce => (ideal S ledger).decrypt key nonce
      (S.encrypt c.key c.nonce r.plaintext)
      ((S.encrypt c.key c.nonce r.plaintext).length - tagLength)) =
        .ok (⟨r.plaintext, hroom⟩, ⟨c.key, c.nonce + 1⟩) := by
    refine CipherState.use_eq_ok.2 ⟨hc, ?_, rfl⟩
    simp only [ideal, hr, hframe, hroom, and_self, dite_true]
  rw [openOutcome, hd]
  dsimp only
  rw [hu]

variable (S ledger)

/-- All that sealing can do to a cell that is live or closed: it advances the
    sending counter of a live one, or fails and leaves the cell as it was or closed. -/
theorem sealRecord_ideal_cases {cell : Cell Key} (plaintext : Bytes)
    (hcell : cell = ⟨false, none⟩ ∨ ∃ t, cell = Cell.new t) :
    (∃ t, cell = Cell.new t ∧ plaintext.length ≤ maxPlaintextRecord ∧
      sealRecord (ideal S ledger) cell plaintext =
        (.ok (recordFrame (S.encrypt t.send.key t.send.nonce plaintext)),
          Cell.new { t with send := ⟨t.send.key, t.send.nonce + 1⟩ })) ∨
    ∃ e, sealRecord (ideal S ledger) cell plaintext = (.error e, cell) ∨
      sealRecord (ideal S ledger) cell plaintext = (.error e, ⟨false, none⟩) := by
  rcases hcell with rfl | ⟨t, rfl⟩
  · rw [sealRecord_closed]
    split <;> exact .inr ⟨_, .inl rfl⟩
  · rw [sealRecord_live]
    rcases ho : sealOutcome (ideal S ledger) t.send plaintext with e | e | ⟨frame, c⟩
    · exact .inr ⟨e, .inl rfl⟩
    · exact .inr ⟨.noise e, .inr rfl⟩
    · obtain ⟨hlen, rfl, rfl⟩ := sealOutcome_ideal_done ho
      exact .inl ⟨t, rfl, hlen, rfl⟩

/-- Sealing fails, but not to authenticate. -/
theorem sealRecord_ideal_ne_decrypt (cell : Cell Key) (plaintext : Bytes) :
    (sealRecord (ideal S ledger) cell plaintext).1 ≠ .error (.noise .decrypt) := by
  have huse : ∀ (c : CipherState Key) {room : ℕ},
      c.use (fun key nonce => (ideal S ledger).encrypt key nonce plaintext room) ≠
        .error .decrypt := by
    intro c room
    rw [CipherState.use]
    split
    · simp [SnowError.exhausted]
    · simp only [ideal]
      split
      · rename_i e he
        split at he
        · cases he
        · cases he
          simp
      · nofun
  rw [sealRecord]
  split_ifs
  · simp
  · simp
  cases cell.state with
  | none => simp
  | some transport =>
    dsimp only
    rw [TransportState.writeMessage]
    rcases he : transport.send.use _ with e | ⟨out, send⟩
    · have hne : e ≠ .decrypt := fun h => huse transport.send (h ▸ he)
      simpa using hne
    · dsimp only
      split_ifs <;> simp

/-- All that opening can do to a cell that is live or closed: it yields the
    ledger's next record and advances the receiving counter of a live one, or
    fails and leaves the cell as it was or closed. -/
theorem openRecord_ideal_cases {cell : Cell Key} (frame : Bytes)
    (hcell : cell = ⟨false, none⟩ ∨ ∃ t, cell = Cell.new t) :
    (∃ t plaintext, cell = Cell.new t ∧
      (ledger t.recv.key)[t.recv.nonce]? = some ⟨plaintext, frame⟩ ∧
      openRecord (ideal S ledger) cell frame =
        (.ok plaintext, Cell.new { t with recv := ⟨t.recv.key, t.recv.nonce + 1⟩ })) ∨
    ∃ e, openRecord (ideal S ledger) cell frame = (.error e, cell) ∨
      openRecord (ideal S ledger) cell frame = (.error e, ⟨false, none⟩) := by
  rcases hcell with rfl | ⟨t, rfl⟩
  · rw [openRecord_closed]
    split <;> exact .inr ⟨_, .inl rfl⟩
  · rw [openRecord_live]
    rcases ho : openOutcome (ideal S ledger) t.recv frame with e | e | ⟨plaintext, c⟩
    · exact .inr ⟨e, .inl rfl⟩
    · exact .inr ⟨.noise e, .inr rfl⟩
    · obtain ⟨hr, rfl⟩ := openOutcome_ideal_done ho
      exact .inl ⟨t, plaintext, rfl, hr, rfl⟩

/-- A well-formed frame that is not the next one of the ledger closes the session. -/
theorem openRecord_ideal_of_unexpected {cell : Cell Key} {frame body : Bytes}
    (hcell : cell = ⟨false, none⟩ ∨ ∃ t, cell = Cell.new t)
    (hframe : decodeRecordFrame frame = .ok body)
    (hne : ∀ t, cell = Cell.new t → ∀ r, (ledger t.recv.key)[t.recv.nonce]? = some r →
      r.frame ≠ frame) :
    ∃ e, openRecord (ideal S ledger) cell frame = (.error e, ⟨false, none⟩) := by
  rcases hcell with rfl | ⟨t, rfl⟩
  · rw [openRecord_closed, hframe]
    exact ⟨_, rfl⟩
  · rw [openRecord_live]
    rcases ho : openOutcome (ideal S ledger) t.recv frame with e | e | ⟨plaintext, c⟩
    · rw [openOutcome, hframe] at ho
      dsimp only at ho
      split at ho <;> cases ho
    · exact ⟨.noise e, rfl⟩
    · exact absurd rfl (hne t rfl _ (openOutcome_ideal_done ho).1)

end Cases

/-! ## Counters and prefixes -/

/-- The cell is closed, or its counters are the numbers of records sealed under
    the one key and opened under the other. -/
def Cell.Tracks (cell : Cell Key) (sendKey recvKey : Key) (sent received : ℕ) : Prop :=
  cell = ⟨false, none⟩ ∨ cell = Cell.new ⟨⟨sendKey, sent⟩, ⟨recvKey, received⟩⟩

theorem Cell.Tracks.live_or_closed {cell : Cell Key} {sendKey recvKey : Key} {sent received : ℕ}
    (h : cell.Tracks sendKey recvKey sent received) :
    cell = ⟨false, none⟩ ∨ ∃ t, cell = Cell.new t :=
  h.imp_right fun h => ⟨_, h⟩

/-- A live cell that tracks two numbers has them as its counters. -/
theorem Cell.Tracks.eq_of_live {t : TransportState Key} {sendKey recvKey : Key}
    {sent received : ℕ} (h : (Cell.new t).Tracks sendKey recvKey sent received) :
    t = ⟨⟨sendKey, sent⟩, ⟨recvKey, received⟩⟩ := by
  rcases h with h | h
  · cases h
  · exact Option.some.inj (congrArg Cell.state h)

/-- A record as it was opened: at a nonce. -/
structure Opened where
  nonce : ℕ
  record : Record
  deriving DecidableEq, Repr

/-- What was opened is a prefix of what was sealed, each record once and at its
    own nonce. -/
structure Opens (sealed : List Record) (opened : List Opened) : Prop where
  records : opened.map (·.record) <+: sealed
  nonces : opened.map (·.nonce) = List.range opened.length

namespace Opens

variable {sealed : List Record} {opened : List Opened}

theorem nil (sealed : List Record) : Opens sealed [] :=
  ⟨List.nil_prefix, rfl⟩

/-- Sealing more keeps what was opened a prefix. -/
theorem append (h : Opens sealed opened) (more : List Record) : Opens (sealed ++ more) opened :=
  ⟨h.records.trans (List.prefix_append ..), h.nonces⟩

/-- Opening the next sealed record, at its nonce, extends the prefix. -/
theorem snoc (h : Opens sealed opened) {r : Record} (hr : sealed[opened.length]? = some r) :
    Opens sealed (opened ++ [⟨opened.length, r⟩]) := by
  obtain ⟨hlt, rfl⟩ := List.getElem?_eq_some_iff.1 hr
  have htake : opened.map (·.record) = sealed.take opened.length := by
    have := List.prefix_iff_eq_take.1 h.records
    rwa [List.length_map] at this
  constructor
  · rw [List.map_append, htake, List.map_singleton, List.take_append_getElem hlt]
    exact List.take_prefix ..
  · rw [List.map_append, h.nonces, List.length_append, List.length_singleton, List.range_succ]
    rfl

/-- The plaintexts opened are a prefix of those sealed. -/
theorem plaintexts (h : Opens sealed opened) :
    opened.map (·.record.plaintext) <+: sealed.map (·.plaintext) := by
  have := h.records.map (·.plaintext)
  rwa [List.map_map] at this

/-- What was opened at a nonce is the record that was sealed at it. -/
theorem sealed_at (h : Opens sealed opened) {o : Opened} (ho : o ∈ opened) :
    sealed[o.nonce]? = some o.record := by
  obtain ⟨n, hn⟩ := List.mem_iff_getElem?.1 ho
  have hlt : n < opened.length := (List.getElem?_eq_some_iff.1 hn).1
  have hnonce : (opened.map (·.nonce))[n]? = some o.nonce := by
    rw [List.getElem?_map, hn, Option.map_some]
  rw [h.nonces, List.getElem?_range hlt, Option.some.injEq] at hnonce
  have hrecord : (opened.map (·.record))[n]? = some o.record := by
    rw [List.getElem?_map, hn, Option.map_some]
  obtain ⟨more, hmore⟩ := h.records
  rw [← hnonce, ← hmore, List.getElem?_append_left (by rwa [List.length_map])]
  exact hrecord

/-- No nonce was opened twice. -/
theorem nodup (h : Opens sealed opened) : (opened.map (·.nonce)).Nodup := by
  rw [h.nonces]
  exact List.nodup_range

end Opens

end SecureTunnel
