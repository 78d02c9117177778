import SecureTunnel.Deploy.Tree

/-!
# Keys that stay

Whatever `keygen` is called with and wherever the system fails, all that was in the tree
is there afterwards, unchanged but for new entries (`Process.keygen_extends`); and where
something is under the path, it fails and leaves the tree as it is
(`Process.keygen_of_locate`). So a generated key stays what it is after any number of
later calls, by processes of either host (`generated_key_lasts`).
-/

namespace SecureTunnel

/-- A node that grows keeps its metadata. -/
theorem Node.metadata_of_grows {n n' : Node Attributes Text Text} (h : n.Grows n') :
    Node.metadata n' = Node.metadata n := by
  obtain rfl | ⟨attributes, entries, entries', rfl, rfl, hmore⟩ := h
  · rfl
  · rfl

namespace Process

variable {p q : Process} {t t' : Tree} {path : Text} {i : ℕ}

/-! ## What an extension keeps -/

theorem metadata_extends (h : t.Extends t') {metadata : Metadata}
    (hi : (t.node i).map Node.metadata = some metadata) :
    (t'.node i).map Node.metadata = some metadata := by
  obtain ⟨n, hn, rfl⟩ := Option.map_eq_some_iff.1 hi
  obtain ⟨n', hn', hgrows⟩ := h.node hn
  exact Option.map_eq_some_iff.2 ⟨n', hn', Node.metadata_of_grows hgrows⟩

theorem Within.symlinkMetadata (h : p.Within path q) (ht : t.Extends t') {metadata : Metadata}
    (hpath : p.symlinkMetadata t path = some metadata) :
    q.symlinkMetadata t' path = some metadata := by
  rw [Process.symlinkMetadata] at hpath ⊢
  split at hpath
  · rename_i hslashed
    obtain ⟨i, hi, hmetadata⟩ := Option.bind_eq_some_iff.1 hpath
    rw [if_pos hslashed]
    exact Option.bind_eq_some_iff.2 ⟨i, h.locate ht hi, metadata_extends ht hmetadata⟩
  · rename_i hslashed
    obtain ⟨name, hname, hpath⟩ := Option.bind_eq_some_iff.1 hpath
    obtain ⟨d, hd, hpath⟩ := Option.bind_eq_some_iff.1 hpath
    obtain ⟨i, hi, hmetadata⟩ := Option.bind_eq_some_iff.1 hpath
    have hentry : ((q.see t').entry d name).bind (fun i => (t'.node i).map Node.metadata) =
        some metadata :=
      Option.bind_eq_some_iff.2 ⟨i, (h.see ht).entry hi, metadata_extends ht hmetadata⟩
    rw [if_neg hslashed]
    exact Option.bind_eq_some_iff.2 ⟨name, hname,
      Option.bind_eq_some_iff.2 ⟨d, h.walk ht hd, hentry⟩⟩

/-- The content of a file is kept. -/
theorem Within.found (h : p.Within path q) (ht : t.Extends t') {a : Attributes} {content : Text}
    (hfound : p.found t path = some (.file a content)) :
    q.found t' path = some (.file a content) := by
  obtain ⟨i, hi, hnode⟩ := Option.bind_eq_some_iff.1 hfound
  obtain ⟨n', hn', rfl | ⟨_, _, _, ⟨⟩, -⟩⟩ := ht.node hnode
  exact Option.bind_eq_some_iff.2 ⟨i, h.locate ht hi, hn'⟩

/-! ## What keygen keeps -/

theorem prepare_extends : t.Extends (p.preparePrivateKeyParent t path).2 := by
  obtain ⟨e, h, -⟩ | ⟨e, q, h, -⟩ | ⟨h, -⟩ | ⟨q, h, -⟩ := prepare_cases p t path
  · rw [h]
    exact .refl t
  · rw [h]
    exact q.extends_makeDirectory
  · rw [h]
    exact .refl t
  · rw [h]
    exact q.extends_makeDirectory

theorem create_extends (key : StaticKey) : t.Extends (p.createPrivateKey t path key).2 := by
  obtain ⟨e, h, -⟩ | ⟨e, r, content, h, -⟩ | ⟨r, h, -⟩ := create_cases p t path key
  · rw [h]
    exact .refl t
  · rw [h]
    exact r.extends_makeFile
  · rw [h]
    exact r.extends_makeFile

theorem writePrivateKey_extends (key : StaticKey) :
    t.Extends (p.writePrivateKey t path key).2 := by
  have hprepare : t.Extends (p.preparePrivateKeyParent t path).2 := prepare_extends
  rw [writePrivateKey]
  split
  · rename_i s h
    rw [h] at hprepare
    exact hprepare
  · rename_i s h
    rw [h] at hprepare
    exact hprepare.trans (create_extends key)

variable (p t path) in
/-- Whatever comes of it, `keygen` loses nothing and changes nothing that was there. -/
theorem keygen_extends (context : List Text) (generated : Except TunnelError StaticKey) :
    t.Extends (p.keygen t path context generated).2 := by
  rw [keygen.eq_def]
  split
  · exact .refl t
  · cases generated with
    | error e => exact .refl t
    | ok key => exact writePrivateKey_extends key

/-- Where a process has found something under the path, `keygen` of every other fails and
    leaves the tree as it is, even if it is not let see it, or the system has it believe
    that there is nothing. -/
theorem keygen_of_locate (hi : p.locate t path = some i)
    (hstart : isAbsolute path = true ∨ q.cwd = p.cwd) (context : List Text)
    (generated : Except TunnelError StaticKey) :
    ∃ e, q.keygen t path context generated = (.error e, t) := by
  -- Root finds it as well, from where the other process starts.
  have hthere : q.asRoot.locate t path = some i := (Within.asRoot hstart).locate (.refl t) hi
  have hplace : ∀ r, q.place t path ≠ some r := fun r hr => by
    have hsees := (sees_of_place hr).within (Within.asRoot (.inr rfl))
    cases hsees.locate_none.symm.trans hthere
  have hparent : ∀ r, q.place t (SecureTunnel.parent path) ≠ some r := fun r hr => by
    have hsees := (sees_of_place hr).within (Within.asRoot (.inr rfl))
    cases hsees.locate_none_of_parent.symm.trans hthere
  rw [keygen.eq_def]
  split
  · exact ⟨_, rfl⟩
  cases generated with
  | error e => exact ⟨_, rfl⟩
  | ok key =>
    dsimp only
    rw [writePrivateKey]
    obtain ⟨e, hprepare, -⟩ | ⟨_, r, -, hr, -⟩ | ⟨hprepare, -⟩ | ⟨r, -, hr, -⟩ :=
      prepare_cases q t path
    · exact ⟨e, by rw [hprepare]⟩
    · exact absurd hr (hparent r)
    · -- The parent is in order, but there is no place for a new file in it.
      obtain ⟨e, hcreate, -⟩ | ⟨_, r, _, -, hr, -⟩ | ⟨r, -, hr, -⟩ := create_cases q t path key
      · exact ⟨e, by rw [hprepare]; exact hcreate⟩
      · exact absurd hr (hplace r)
      · exact absurd hr (hplace r)
    · exact absurd hr (hparent r)

end Process

/-! ## Many keys -/

/-- A call of `keygen`, of either host. -/
structure KeyAttempt where
  process : Process
  path : Text
  context : List Text
  generated : Except TunnelError StaticKey

def KeyAttempt.run (t : Tree) (attempt : KeyAttempt) : Tree :=
  (attempt.process.keygen t attempt.path attempt.context attempt.generated).2

theorem extends_attempts (t : Tree) (attempts : List KeyAttempt) :
    t.Extends (attempts.foldl KeyAttempt.run t) := by
  induction attempts generalizing t with
  | nil => exact .refl t
  | cons attempt attempts ih => exact (attempt.process.keygen_extends t ..).trans (ih _)

/-- Root may do what anyone may. -/
theorem User.may_of_root_or_eq {u v : User} (h : v.uid = 0 ∨ v = u) (wanted : ℕ) (a : Attributes)
    (hmay : u.may wanted a = true) : v.may wanted a = true := by
  obtain hroot | rfl := h
  · exact decide_eq_true (.inl hroot)
  · exact hmay

/-- A key that `keygen` has made, under a umask that leaves the file to its user, stays:
    after any later calls, by any processes and with any failures, all that was in the
    tree before is there, the key passes the checks of the script, run by its user or by
    root, it is what either host reads, run so, and no call for its path does anything,
    whoever makes it. -/
theorem generated_key_lasts {p q : Process} {t t' : Tree} {path : Text} {context : List Text}
    {key : StaticKey} (h : p.keygen t path context (.ok key) = (.ok (), t'))
    (hmask : p.masked 0o600 = 0o600) (hflag : path.head? ≠ some '-')
    (hsame : isAbsolute path = true ∨ q.cwd = p.cwd) (attempts : List KeyAttempt)
    (engine : Base64Engine) (around : Surroundings) :
    let t'' := attempts.foldl KeyAttempt.run t'
    t.Extends t'' ∧
      (q.user.uid = 0 ∨ q.user = p.user → (q.machine t'' around).checkMode0600 path = [] ∧
        readPrivateKey engine (q.files t'' around) path = .ok key) ∧
      ∀ context generated, ∃ e, q.keygen t'' path context generated = (.error e, t'') := by
  have hlater := extends_attempts t' attempts
  have hwritten : p.writePrivateKey t path key = (.ok (), t') := by
    rw [Process.keygen.eq_def] at h
    split at h
    · cases h
    · exact h
  obtain ⟨hmetadata, hfound⟩ := Process.exists_of_writePrivateKey hwritten
  rw [hmask] at hmetadata hfound
  obtain ⟨i, hi, -⟩ := Option.bind_eq_some_iff.1 hfound
  have hgrown : t.Extends t' := by
    have hextends := p.keygen_extends t path context (.ok key)
    rwa [h] at hextends
  have hkept := (Process.within_refl p path).locate hlater hi
  refine ⟨hgrown.trans hlater, fun huser => ?_, Process.keygen_of_locate hkept hsame⟩
  have hwithin : p.Within path q := ⟨hsame, User.may_of_root_or_eq huser⟩
  exact Process.accepted_of_found (hwithin.symlinkMetadata hlater hmetadata)
    (hwithin.found hlater hfound) (hwithin.may 4 _ (Process.may_read_private p)) hflag

/-- A key of the server, and three calls after it: one for its path, of which the system
    says that there is nothing, one that fails as it writes, and one that succeeds. -/
theorem generated_key_lasts_three :
    let p := (Process.failing .probe).calm
    let path := "keys/server.key".toList
    let other : StaticKey := ⟨List.replicate 32 7, List.length_replicate⟩
    let around : Surroundings := ⟨fun _ => [], fun word => [word], fun _ _ => rfl⟩
    let t'' := [⟨.failing .probeKey, path, [], .ok other⟩,
      ⟨.failing (.write 3), "keys/client.key".toList, [], .ok other⟩,
      ⟨p, "new/client.key".toList, [], .ok other⟩].foldl KeyAttempt.run
        (p.keygen .keys path [] (.ok zeroKey)).2
    (p.machine t'' around).checkMode0600 path = [] ∧
      readPrivateKey .silent (p.files t'' around) path = .ok zeroKey ∧
      (p.machine t'' around).checkMode0600 "new/client.key".toList = [] := by
  intro p path other around t''
  have h : (p.keygen .keys path [] (.ok zeroKey)).1 = .ok () := by decide +kernel
  obtain ⟨-, haccepted, -⟩ := generated_key_lasts (Prod.ext h rfl) (by decide) (by decide)
    (.inr rfl) [⟨.failing .probeKey, path, [], .ok other⟩,
      ⟨.failing (.write 3), "keys/client.key".toList, [], .ok other⟩,
      ⟨p, "new/client.key".toList, [], .ok other⟩] .silent around
  obtain ⟨hchecked, hread⟩ := haccepted (.inr rfl)
  exact ⟨hchecked, hread, by decide +kernel⟩

end SecureTunnel
