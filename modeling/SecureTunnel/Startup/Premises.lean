import SecureTunnel.Config.Keys

/-!
# The premises of a command

What `serve` and `doctor` find outside of them before the first connection: files,
the texts in them, certificates, and sockets. Each answer is taken to be the same
whenever it is asked for.

* `Premises.load`: `ServerConfig::load` and `ClientConfig::load`.
* `bind_eq_ok`, `forM_eq_ok`: what it takes that checks pass in a row.
-/

namespace SecureTunnel

/-! ## Checks in a row -/

section Checks

variable {ε α β : Type}

theorem bind_eq_ok {x : Except ε α} {f : α → Except ε β} {b : β} :
    x >>= f = .ok b ↔ ∃ a, x = .ok a ∧ f a = .ok b := by
  cases x with
  | error e =>
    refine ⟨fun h => ?_, ?_⟩
    · cases h
    · rintro ⟨a, h, -⟩
      cases h
  | ok a =>
    refine ⟨fun h => ⟨a, rfl, h⟩, ?_⟩
    rintro ⟨a', h, hf⟩
    cases h
    exact hf

/-- A check of many passes if each does. -/
theorem forM_eq_ok {l : List α} {f : α → Except ε PUnit} {u : PUnit} :
    forM l f = .ok u ↔ ∀ a ∈ l, f a = .ok () := by
  induction l with
  | nil => exact ⟨fun _ a ha => absurd ha List.not_mem_nil, fun _ => rfl⟩
  | cons a l ih =>
    rw [List.forM_cons, bind_eq_ok, List.forall_mem_cons, ← ih]
    exact ⟨fun ⟨_, ha, hl⟩ => ⟨ha, hl⟩, fun ⟨ha, hl⟩ => ⟨(), ha, hl⟩⟩

/-- A result whose error is told as it is. -/
def told (x : Except Text α) : Except (List Text) α := x.mapError ([·])

/-- `with_context`, where the error is not a chain yet. -/
def withContext (text : Text) (x : Except Text α) : Except (List Text) α :=
  x.mapError fun display => [text, display]

theorem mapError_eq_ok {ε' : Type} {f : ε → ε'} {x : Except ε α} {a : α} :
    x.mapError f = .ok a ↔ x = .ok a := by
  constructor <;> intro h <;> cases x <;> cases h <;> rfl

theorem told_eq_ok {x : Except Text α} {a : α} : told x = .ok a ↔ x = .ok a := mapError_eq_ok

theorem withContext_eq_ok {text : Text} {x : Except Text α} {a : α} :
    withContext text x = .ok a ↔ x = .ok a :=
  mapError_eq_ok

end Checks

/-! ## The premises -/

/-- What a command finds outside of it. `File` is an open file, `Cert` a certificate. -/
structure Premises (Config File Cert : Type) where
  engine : Base64Engine
  files : Files
  /-- `toml::from_str` -/
  toml : Text → Except Text Config
  /-- How an address is displayed. -/
  shown : SocketAddr → Text
  openFile : Text → Except Text File
  /-- `rustls_pemfile::certs`, collected. -/
  certs : File → Except Text (List Cert)
  /-- `with_protocol_versions`, of TLS 1.3 alone. -/
  tls13 : Except Text Unit
  bind : SocketAddr → Except Text Unit

/-- `enforce_config_permissions` -/
def Files.enforceConfigPermissions (files : Files) (path : Text) : Except (List Text) Unit :=
  files.enforceSensitivePermissions path "configuration".toList

/-- A private key is read only from a protected file that holds it. -/
theorem holds_of_readPrivateKey {engine : Base64Engine} {files : Files} {file : Text}
    {key : StaticKey} (h : readPrivateKey engine files file = .ok key) : files.Holds file := by
  rw [readPrivateKey] at h
  split at h
  · cases h
  rename_i hguarded
  split at h
  · cases h
  rename_i text htext
  split at h
  · cases h
  rename_i bytes hbytes
  obtain rfl := keyOfBytes_eq_ok.1 h
  exact ⟨Files.enforcePrivatePermissions_eq_ok.1 hguarded, text, key, htext,
    engine.decode_eq_ok.1 hbytes⟩

namespace Premises

variable {Config File Cert : Type} (here : Premises Config File Cert)

/-- `load` and `from_toml`, of either configuration. -/
def load (kind : Text) (validate : Config → Except Text Unit) (path : Text) :
    Except (List Text) Config := do
  let text ← withContext ("could not read ".toList ++ kind ++ " configuration ".toList ++ path)
    (here.files.readToString path)
  let config ← withContext ("invalid ".toList ++ kind ++ " TOML".toList) (here.toml text)
  told (validate config)
  return config

variable {here}

/-- What is loaded is what the text of the file says, and it is valid. -/
theorem load_eq_ok {kind path : Text} {validate : Config → Except Text Unit} {config : Config} :
    here.load kind validate path = .ok config ↔
      ∃ text, here.files.readToString path = .ok text ∧ here.toml text = .ok config ∧
        validate config = .ok () := by
  simp only [load, bind_eq_ok, withContext_eq_ok, told_eq_ok]
  constructor
  · rintro ⟨text, htext, config', hconfig, ⟨⟩, hvalid, h⟩
    cases h
    exact ⟨text, htext, hconfig, hvalid⟩
  · rintro ⟨text, htext, hconfig, hvalid⟩
    exact ⟨text, htext, config, hconfig, (), hvalid, rfl⟩

end Premises

end SecureTunnel
