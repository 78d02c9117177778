import SecureTunnel.Protocol.Conversation
import SecureTunnel.Startup.Client
import SecureTunnel.Startup.Server

/-!
# What the two doctors approve

The checks of the two `doctor` commands are what a conversation takes: a server and a
client that both were approved, agree on the outer TLS, and name each other's keys, have
an exchange (`exists_exchange`), hence their sessions can always complete a handshake
(`approved_handshake`).
-/

namespace SecureTunnel

/-! ## The keys that are found -/

section Keys

variable {engine : Base64Engine} {files : Files}

/-- The key of every file is among the private keys. -/
theorem mem_of_readServerPrivateKeys {paths : List Text} {keys : List StaticKey}
    (h : readServerPrivateKeys engine files paths = .ok keys) {file : Text} (hfile : file ∈ paths)
    {key : StaticKey} (hkey : readPrivateKey engine files file = .ok key) : key ∈ keys := by
  induction paths generalizing keys with
  | nil => exact absurd hfile List.not_mem_nil
  | cons path paths ih =>
    rw [readServerPrivateKeys] at h
    split at h
    · cases h
    rename_i first hfirst
    cases hrest : readServerPrivateKeys engine files paths with
    | error e =>
      rw [hrest] at h
      cases h
    | ok rest =>
      rw [hrest] at h
      obtain rfl : first :: rest = keys := Except.ok.inj h
      rcases List.mem_cons.1 hfile with rfl | hfile
      · obtain rfl := Except.ok.inj (hfirst.symm.trans hkey)
        exact List.mem_cons_self
      · exact List.mem_cons_of_mem _ (ih hrest hfile)

/-- The public key of every client is among those of the authorised ones. -/
theorem mem_of_decodeClients {clients : List Server.AuthorisedClient} {keys : List StaticKey}
    (h : decodeClients engine clients = .ok keys) {client : Server.AuthorisedClient}
    (hclient : client ∈ clients) {key : StaticKey} (hkey : IsKey client.publicKey key) :
    key ∈ keys := by
  induction clients generalizing keys with
  | nil => exact absurd hclient List.not_mem_nil
  | cons first clients ih =>
    rw [decodeClients] at h
    split at h
    · cases h
    rename_i firstKey hfirst
    cases hrest : decodeClients engine clients with
    | error e =>
      rw [hrest] at h
      cases h
    | ok rest =>
      rw [hrest] at h
      obtain rfl : firstKey :: rest = keys := Except.ok.inj h
      rcases List.mem_cons.1 hclient with rfl | hclient
      · obtain rfl := Except.ok.inj (hfirst.symm.trans (decodePublicKey_eq_ok.2 hkey))
        exact List.mem_cons_self
      · exact List.mem_cons_of_mem _ (ih hrest hclient)

/-- The first of the identities that have this public key. -/
theorem exists_first_identity (K : KeyRing) {keys : List StaticKey} {key : StaticKey}
    (hkey : key ∈ keys) : ∃ before identity after, keys = before ++ identity :: after ∧
      K.publicKey identity = K.publicKey key ∧
      ∀ other ∈ before, (K.publicKey other).1 ≠ (K.publicKey identity).1 := by
  have hsome : (keys.find? fun other => (K.publicKey other).1 = (K.publicKey key).1).isSome :=
    List.find?_isSome.2 ⟨key, hkey, by simp⟩
  obtain ⟨identity, hfind⟩ := Option.isSome_iff_exists.1 hsome
  obtain ⟨hidentity, before, after, rfl, hbefore⟩ := List.find?_eq_some_iff_append.1 hfind
  have hpublic : K.publicKey identity = K.publicKey key := Subtype.ext (of_decide_eq_true hidentity)
  refine ⟨before, identity, after, rfl, hpublic, fun other hother heq => ?_⟩
  simpa [heq, hpublic] using hbefore other hother

end Keys

/-! ## The exchange of an approved pair -/

/-- A client and a server that name each other's keys, and agree on the outer TLS. With
    it, the client names the server by a valid DNS name. -/
structure Paired {File Cert TlsKey Acceptor File' Cert' : Type} (K : KeyRing)
    (near : ServerPremises File Cert TlsKey Acceptor) (far : ClientPremises File' Cert')
    (s : ServerConfig) (c : ClientConfig) where
  outerTls : c.outerTls.enabled = s.outerTls.enabled
  serverName : c.outerTls.enabled = true → c.outerTls.tlsServerName far.dnsName = .ok ()
  /-- The file of the identity that the client pins. -/
  file : Text
  identity : StaticKey
  file_mem : file ∈ s.identityPaths
  read_file : readPrivateKey near.engine near.files file = .ok identity
  pinned : IsKey c.serverPublicKey (K.publicKey identity)
  clientPrivate : StaticKey
  read_private : readPrivateKey far.engine far.files c.privateKeyFile = .ok clientPrivate
  client : Server.AuthorisedClient
  client_mem : client ∈ s.authorizedClients
  authorised : IsKey client.publicKey (K.publicKey clientPrivate)

namespace Paired

variable {File Cert TlsKey Acceptor File' Cert' : Type} {K : KeyRing}
  {near : ServerPremises File Cert TlsKey Acceptor} {far : ClientPremises File' Cert'}
  {s : ServerConfig} {c : ClientConfig}

/-- The exchange of the pair with these two messages. -/
def transcript (P : Paired K near far s c) (first reply : Filled maxHandshakeMessage) :
    Transcript :=
  ⟨(K.publicKey P.clientPrivate).1, (K.publicKey P.identity).1, first.1, reply.1⟩

/-- An approved server answers the client it is paired with. -/
theorem exists_exchange (P : Paired K near far s c) (hserved : s.Served near.engine near.files)
    (first reply : Filled maxHandshakeMessage) :
    ∃ X : Exchange (ideally K (P.transcript first reply) first)
        (ideally K (P.transcript first reply) reply) (far.setup c)
        (s.setup near.engine near.files),
      X.clientTransport =
        .fresh (P.transcript first reply, .client) (P.transcript first reply, .server) ∧
      X.serverTransport =
        .fresh (P.transcript first reply, .server) (P.transcript first reply, .client) := by
  obtain ⟨privateKeys, clients, handshake, hprivateKeys, hclients, hnew⟩ := hserved.constructs
  have hmem := mem_of_readServerPrivateKeys hprivateKeys P.file_mem P.read_file
  obtain ⟨before, identity, after, rfl, hpublic, hothers⟩ := exists_first_identity K hmem
  have hfew : (before ++ identity :: after).length ≤ maxServerStaticIdentities := by
    rw [ServerHandshake.newWithStaticIdentities] at hnew
    split at hnew
    · cases hnew
    split at hnew
    · cases hnew
    · rename_i hmany
      exact Nat.not_lt.1 hmany
  have htranscript : P.transcript first reply =
      ⟨(K.publicKey P.clientPrivate).1, (K.publicKey identity).1, first.1, reply.1⟩ := by
    rw [transcript, hpublic]
  have hpinned : (far.setup c).serverKey = .ok (K.publicKey identity) :=
    hpublic ▸ decodePublicKey_eq_ok.2 P.pinned
  have hmem := mem_of_decodeClients hclients P.client_mem P.authorised
  exact ⟨idealExchange K before after first reply htranscript P.read_private hpinned P.outerTls
    P.serverName hprivateKeys hfew hclients hmem hothers, rfl, rfl⟩

end Paired

/-- Where `doctor` approves of a server, and a client names its key and is named by it,
    with a valid DNS name for the outer TLS if there is one, no configuration stands
    between them: from every state that their sessions can get to, as long as neither has
    ended and no stream is cut, the two can complete their handshake, and relay with the
    two halves of one exchange. -/
theorem approved_handshake {File Cert TlsKey Acceptor File' Cert' : Type} {K : KeyRing}
    {near : ServerPremises File Cert TlsKey Acceptor} {far : ClientPremises File' Cert'}
    {s : ServerConfig} {c : ClientConfig} {path : Text}
    (hdoctor : ∃ lines, near.doctor path = .ok lines) (hconfigured : near.Configured path s)
    (P : Paired K near far s c) (first reply : Filled maxHandshakeMessage)
    {allow : Conversation SocketAddr IK (Transcript × Side) → ConversationEvent → Prop}
    {conv : Conversation SocketAddr IK (Transcript × Side)}
    (hreach : (conversation (ideally K (P.transcript first reply) first)
      (ideally K (P.transcript first reply) reply) (far.setup c)
      (s.setup near.engine near.files)).Reachable allow conv)
    (hstands : conv.Stands) :
    ∃ conv', (conversation (ideally K (P.transcript first reply) first)
        (ideally K (P.transcript first reply) reply) (far.setup c)
        (s.setup near.engine near.files)).Path Conversation.Goes conv conv' ∧
      conv'.client.phase = .relaying
        (.fresh (P.transcript first reply, .client) (P.transcript first reply, .server)) ∧
      conv'.server.phase = .relaying
        (.fresh (P.transcript first reply, .server) (P.transcript first reply, .client)) := by
  obtain ⟨s', tls, hstart, hserved, -⟩ := ServerPremises.doctor_iff.1 hdoctor
  obtain rfl := hconfigured.unique (ServerPremises.start_eq_ok.1 hstart).1
  obtain ⟨X, hclient, hserver⟩ := P.exists_exchange hserved first reply
  obtain ⟨conv', hpath, hinv, hrelays⟩ :=
    Conversation.exists_relays X (Conversation.inv_of_reachable X hreach) hstands
  obtain ⟨hclientRelays, hserverRelays⟩ := hinv.relaying hrelays
  exact ⟨conv', hpath, hclient ▸ hclientRelays, hserver ▸ hserverRelays⟩

/-- A client and a server that have the same key. -/
theorem approved_handshake_uniform :
    let K : KeyRing := ⟨id, fun _ => true⟩
    let t : Transcript := ⟨zeroKey.1, zeroKey.1, [7], [8]⟩
    ∃ conv' : Conversation SocketAddr IK (Transcript × Side),
      (conversation (ideally K t ⟨[7], by decide⟩) (ideally K t ⟨[8], by decide⟩)
        (ClientPremises.uniform.setup .listening)
        ((ServerConfig.allowing [zeroText]).setup .silent (.uniform zeroKey))).Path
          Conversation.Goes .initial conv' ∧
      conv'.client.phase = .relaying (.fresh (t, .client) (t, .server)) ∧
      conv'.server.phase = .relaying (.fresh (t, .server) (t, .client)) := by
  intro K t
  let near := ServerPremises.uniform (.allowing [zeroText])
  have hstart : near.start [] = .ok (.allowing [zeroText], none) :=
    ServerPremises.uniform_starts (by decide +kernel) rfl
  let P : Paired K near .uniform (.allowing [zeroText]) .listening :=
    { outerTls := rfl
      serverName := fun henabled => by cases henabled
      file := "/tmp/server.key".toList
      identity := zeroKey
      file_mem := List.mem_cons_self
      read_file := by decide +kernel
      pinned := by decide +kernel
      clientPrivate := zeroKey
      read_private := by decide +kernel
      client := ⟨"mac".toList, zeroText⟩
      client_mem := List.mem_singleton.2 rfl
      authorised := by decide +kernel }
  have hreach : (conversation (ideally K t ⟨[7], by decide⟩) (ideally K t ⟨[8], by decide⟩)
      (ClientPremises.uniform.setup .listening)
      ((ServerConfig.allowing [zeroText]).setup near.engine near.files)).Reachable
        EventSystem.always .initial := .init rfl
  exact approved_handshake (ServerPremises.doctor_iff.2
    ⟨_, _, hstart, ServerConfig.allowing_zero_served, rfl⟩) (ServerPremises.start_eq_ok.1 hstart).1
    P ⟨[7], by decide⟩ ⟨[8], by decide⟩ hreach ⟨rfl, rfl, rfl, rfl⟩

end SecureTunnel
