import SecureTunnel.Core.Error
import SecureTunnel.General.Lines

/-!
# The verification of a release

`release/verify-artifact.sh`, which looks at a directory with two executables and the
manifest of their digests. The manifest is read by `awk`, in which a rule that exits
still runs the `END` rule, whose exit status then counts: that no line is passed over
so is `validateManifest_iff`.

What `shasum`, `codesign` and `lipo` say of a file is up to them (`Tools`).
-/

namespace SecureTunnel

/-! ## The manifest -/

/-- The two executables of a release. -/
inductive Release
  | networkSyncAgent
  | secureTunnelServer
  deriving DecidableEq

namespace Release

def name : Release → Text
  | networkSyncAgent => "network-sync-agent".toList
  | secureTunnelServer => "secure-tunnel-server".toList

def other : Release → Release
  | networkSyncAgent => secureTunnelServer
  | secureTunnelServer => networkSyncAgent

theorem name_injective : Function.Injective name := by
  rintro (_ | _) (_ | _) h <;> first | rfl | exact absurd h (by decide)

end Release

def isFieldBreak (c : Char) : Bool := c = ' ' ∨ c = '\t'

/-- The fields of a line, as `awk` separates them. -/
def fields (line : Text) : List Text := (line.splitOnP isFieldBreak).filter (!·.isEmpty)

def isHexDigit (c : Char) : Bool := c ∈ "0123456789abcdefABCDEF".toList

/-- `length($1) == 64 && $1 ~ /^[0123456789abcdefABCDEF]+$/` -/
def isDigest (text : Text) : Bool := text.length = 64 ∧ text.all isHexDigit

theorem isDigest_iff {text : Text} :
    isDigest text = true ↔ text.length = 64 ∧ text.all isHexDigit = true := decide_eq_true_iff

/-- The rules for the lines: the counts of the names, and of the lines that were read,
    when the `END` rule runs. -/
def scanManifest : List Text → (client server nr : ℕ) → ℕ × ℕ × ℕ
  | [], client, server, nr => (client, server, nr)
  | line :: lines, client, server, nr =>
    match fields line with
    | [digest, name] =>
      if !isDigest digest then (client, server, nr + 1)
      else if name = Release.networkSyncAgent.name then
        scanManifest lines (client + 1) server (nr + 1)
      else if name = Release.secureTunnelServer.name then
        scanManifest lines client (server + 1) (nr + 1)
      else (client, server, nr + 1)
    | _ => (client, server, nr + 1)

/-- `validate_manifest` -/
def validateManifest (manifest : Text) : Bool :=
  scanManifest (records '\n' manifest) 0 0 0 = (1, 1, 2)

/-- `expected_hash`, which `install-atomic.sh` looks up: one line for each that has the
    name. -/
def expectedHash (release : Release) (manifest : Text) : Text :=
  ['\n'].intercalate <| (records '\n' manifest).filterMap fun line =>
    match fields line with
    | digest :: name :: _ => if name = release.name then some digest else none
    | _ => none

/-- The line of a manifest. -/
structure ManifestEntry where
  digest : Text
  release : Release
  isDigest : isDigest digest = true

def ManifestEntry.fields (entry : ManifestEntry) : List Text := [entry.digest, entry.release.name]

/-- How many entries are for a release. -/
def entriesFor (release : Release) (entries : List ManifestEntry) : ℕ :=
  entries.countP fun entry => entry.release = release

/-- A line is an entry, and counted for its release, or the rules exit at it. -/
theorem scanManifest_cons (line : Text) (lines : List Text) (client server nr : ℕ) :
    (∃ entry : ManifestEntry, fields line = entry.fields ∧
      scanManifest (line :: lines) client server nr =
        scanManifest lines (client + entriesFor .networkSyncAgent [entry])
          (server + entriesFor .secureTunnelServer [entry]) (nr + 1)) ∨
    scanManifest (line :: lines) client server nr = (client, server, nr + 1) := by
  rw [scanManifest]
  split
  · rename_i digest name hfields
    split_ifs with hdigest hclient hserver
    · exact .inr rfl
    · exact .inl ⟨⟨digest, .networkSyncAgent, by simpa using hdigest⟩,
        by rw [hfields, hclient]; rfl, rfl⟩
    · exact .inl ⟨⟨digest, .secureTunnelServer, by simpa using hdigest⟩,
        by rw [hfields, hserver]; rfl, rfl⟩
    · exact .inr rfl
  · exact .inr rfl

theorem entriesFor_cons (release : Release) (entry : ManifestEntry) (entries : List ManifestEntry) :
    entriesFor release (entry :: entries) =
      entriesFor release [entry] + entriesFor release entries := by
  rw [entriesFor, ← List.singleton_append, List.countP_append]
  rfl

/-- Either all lines are entries, and are counted, or the line at which the rules exit
    is counted as a line and for no release. -/
theorem scanManifest_spec (lines : List Text) (client server nr : ℕ) :
    (∃ entries : List ManifestEntry, lines.map fields = entries.map (·.fields) ∧
      scanManifest lines client server nr = (client + entriesFor .networkSyncAgent entries,
        server + entriesFor .secureTunnelServer entries, nr + entries.length)) ∨
    ∃ i j, scanManifest lines client server nr = (client + i, server + j, nr + (i + j) + 1) := by
  induction lines generalizing client server nr with
  | nil => exact .inl ⟨[], rfl, rfl⟩
  | cons line lines ih =>
    obtain ⟨entry, hfields, hscan⟩ | hexit := scanManifest_cons line lines client server nr
    · have hone : entriesFor .networkSyncAgent [entry] + entriesFor .secureTunnelServer [entry] =
          1 := by
        obtain ⟨digest, _ | _, hdigest⟩ := entry <;> rfl
      rw [hscan]
      obtain ⟨entries, hlines, hscan⟩ | ⟨i, j, hscan⟩ := ih
        (client + entriesFor .networkSyncAgent [entry])
        (server + entriesFor .secureTunnelServer [entry]) (nr + 1)
      · refine .inl ⟨entry :: entries, by rw [List.map_cons, List.map_cons, hfields, hlines], ?_⟩
        rw [hscan, entriesFor_cons .networkSyncAgent entry entries,
          entriesFor_cons .secureTunnelServer entry entries]
        simp only [Nat.add_assoc, List.length_cons, Nat.add_comm 1]
      · refine .inr ⟨entriesFor .networkSyncAgent [entry] + i,
          entriesFor .secureTunnelServer [entry] + j, ?_⟩
        rw [hscan, Prod.mk.injEq, Prod.mk.injEq]
        omega
    · exact .inr ⟨0, 0, hexit⟩

/-- What a manifest says: the digest of each executable, on one line each. -/
structure Lists (manifest : Text) (digest : Release → Text) : Prop where
  isDigest : ∀ release, isDigest (digest release) = true
  lines : ∃ first : Release, (records '\n' manifest).map fields =
    [[digest first, first.name], [digest first.other, first.other.name]]

/-- The manifest has one line for each executable, and no other. -/
theorem validateManifest_iff {manifest : Text} :
    validateManifest manifest = true ↔ ∃ digest, Lists manifest digest := by
  rw [validateManifest, decide_eq_true_iff]
  constructor
  · intro hscan
    obtain ⟨entries, hlines, hcount⟩ | ⟨i, j, hcount⟩ := scanManifest_spec _ 0 0 0
    · rw [hscan, Prod.mk.injEq, Prod.mk.injEq, Nat.zero_add, Nat.zero_add, Nat.zero_add] at hcount
      obtain ⟨hclient, hserver, hlength⟩ := hcount
      obtain ⟨first, second, rfl⟩ := List.length_eq_two.1 hlength.symm
      rw [entriesFor_cons] at hclient hserver
      obtain ⟨d₁, _ | _, h₁⟩ := first <;> obtain ⟨d₂, _ | _, h₂⟩ := second
      · cases hserver
      · exact ⟨fun | .networkSyncAgent => d₁ | .secureTunnelServer => d₂,
          ⟨fun | .networkSyncAgent => h₁ | .secureTunnelServer => h₂, .networkSyncAgent, hlines⟩⟩
      · exact ⟨fun | .networkSyncAgent => d₂ | .secureTunnelServer => d₁,
          ⟨fun | .networkSyncAgent => h₂ | .secureTunnelServer => h₁, .secureTunnelServer, hlines⟩⟩
      · cases hclient
    · rw [hscan, Prod.mk.injEq, Prod.mk.injEq] at hcount
      omega
  · rintro ⟨digest, hdigest, first, hlines⟩
    obtain ⟨l₁, l, hl, h₁, hrest⟩ := List.map_eq_cons_iff.1 hlines
    obtain ⟨l₂, l', rfl, h₂, hnil⟩ := List.map_eq_cons_iff.1 hrest
    obtain rfl := List.map_eq_nil_iff.1 hnil
    rw [hl]
    cases first <;>
      simp [scanManifest, h₁, h₂, hdigest, Release.other, Release.name_injective.eq_iff]

/-- What is looked up in such a manifest is the digest that it lists. -/
theorem Lists.expectedHash {manifest : Text} {digest : Release → Text} (h : Lists manifest digest)
    (release : Release) : expectedHash release manifest = digest release := by
  obtain ⟨first, hlines⟩ := h.lines
  obtain ⟨l₁, l, hl, h₁, hrest⟩ := List.map_eq_cons_iff.1 hlines
  obtain ⟨l₂, l', rfl, h₂, hnil⟩ := List.map_eq_cons_iff.1 hrest
  obtain rfl := List.map_eq_nil_iff.1 hnil
  rw [SecureTunnel.expectedHash, hl]
  cases first <;> cases release <;>
    simp [h₁, h₂, Release.other, Release.name_injective.eq_iff, List.intercalate]

/-- A line of `shasum -a 256`. -/
def shasumLine (digest : Text) (release : Release) : Text := digest ++ ' ' :: ' ' :: release.name

/-- What `build-macos-universal.sh` writes. -/
def writtenManifest (digest : Release → Text) : Text :=
  terminated '\n' [shasumLine (digest .networkSyncAgent) .networkSyncAgent,
    shasumLine (digest .secureTunnelServer) .secureTunnelServer]

theorem isFieldBreak_of_isHexDigit {c : Char} (h : isHexDigit c = true) :
    isFieldBreak c = false := by
  rw [Bool.eq_false_iff]
  intro hbreak
  obtain rfl | rfl := of_decide_eq_true hbreak <;> exact absurd h (by decide)

theorem fields_shasumLine {digest : Text} (h : isDigest digest = true) (release : Release) :
    fields (shasumLine digest release) = [digest, release.name] := by
  obtain ⟨hlength, hhex⟩ := isDigest_iff.1 h
  have hbare : ∀ c ∈ digest, isFieldBreak c = false := fun c hc =>
    isFieldBreak_of_isHexDigit (List.all_eq_true.1 hhex c hc)
  have hname : ∀ c ∈ release.name, isFieldBreak c = false := by
    have hall : release.name.all (!isFieldBreak ·) = true := by cases release <;> rfl
    simpa using hall
  have hne : digest ≠ [] := List.ne_nil_of_length_pos (by omega)
  rw [fields, shasumLine, List.splitOnP_append_cons_of_forall_mem hbare ' ' (by decide),
    ← List.nil_append (' ' :: release.name),
    List.splitOnP_append_cons_of_forall_mem (by simp) ' ' (by decide),
    List.splitOnP_eq_singleton hname, List.filter_cons_of_pos (by simpa using hne),
    List.filter_cons_of_neg (by decide), List.filter_cons_of_pos (by cases release <;> rfl),
    List.filter_nil]

theorem lists_writtenManifest {digest : Release → Text}
    (h : ∀ release, isDigest (digest release) = true) :
    Lists (writtenManifest digest) digest := by
  have hline (release : Release) : '\n' ∉ shasumLine (digest release) release := by
    obtain ⟨-, hhex⟩ := isDigest_iff.1 (h release)
    rw [shasumLine, List.mem_append]
    rintro (hmem | hmem)
    · exact absurd (List.all_eq_true.1 hhex _ hmem) (by decide)
    · exact absurd hmem (by cases release <;> decide)
  refine ⟨h, .networkSyncAgent, ?_⟩
  rw [writtenManifest, records_terminated (by simp [hline])]
  simp only [List.map_cons, List.map_nil, fields_shasumLine (h _)]
  rfl

/-- A manifest is accepted, and these digests are looked up in it, exactly if it lists
    them: one line for each executable, and no other. What the build writes does,
    exactly if they are digests. -/
theorem manifest_exact (manifest : Text) (digest : Release → Text) :
    (validateManifest manifest = true ∧
        (∀ release, expectedHash release manifest = digest release) ↔
      Lists manifest digest) ∧
    (Lists (writtenManifest digest) digest ↔ ∀ release, isDigest (digest release) = true) := by
  refine ⟨⟨fun ⟨hvalid, hlookup⟩ => ?_, fun hlists =>
    ⟨validateManifest_iff.2 ⟨digest, hlists⟩, hlists.expectedHash⟩⟩,
    fun hlists => hlists.isDigest, lists_writtenManifest⟩
  obtain ⟨digest', hlists⟩ := validateManifest_iff.1 hvalid
  obtain rfl : digest' = digest := funext fun release =>
    (hlists.expectedHash release).symm.trans (hlookup release)
  exact hlists

/-! ## The directory -/

/-- What the tools say of the content of a file. -/
structure Tools (Content : Type*) where
  /-- `shasum -a 256` -/
  digest : Content → Text
  /-- `codesign --verify --deep --strict` -/
  signed : Content → Bool
  /-- `lipo -verify_arch arm64 x86_64` -/
  universal : Content → Bool
  /-- `codesign -d` has the line of this authority. -/
  authority : Text → Content → Bool
  /-- `shasum -a 256 -c` -/
  sums : Text → (Release → Option Content) → Bool

/-- What is checked of an executable. -/
inductive Trait
  | digest (expected : Text)
  | signed
  | universal
  | authority (identity : Text)
  deriving DecidableEq

variable {Content : Type*}

def Tools.holds (tools : Tools Content) (content : Content) : Trait → Bool
  | .digest expected => tools.digest content = expected
  | .signed => tools.signed content
  | .universal => tools.universal content
  | .authority identity => tools.authority identity content

/-- The checks of `verify_identity`, and with an identity that of the authority. -/
def verifyIdentity (identity : Option Text) : List Trait :=
  [.signed, .universal] ++ (identity.map .authority).toList

/-- A directory, by the text of its manifest and its regular files. -/
structure Artifact (Content : Type*) where
  manifest : Option Text
  file : Release → Option Content

/-- The checks of `verify-artifact.sh`. -/
inductive ArtifactCheck
  | manifest
  | format
  | regular (release : Release)
  | sums
  | trait (release : Release) (t : Trait)
  deriving DecidableEq

def verifyArtifact (identity : Option Text) : List ArtifactCheck :=
  [.manifest, .format, .regular .networkSyncAgent, .regular .secureTunnelServer, .sums] ++
    (verifyIdentity identity).map (.trait .networkSyncAgent) ++
    (verifyIdentity identity).map (.trait .secureTunnelServer)

def Artifact.passes (tools : Tools Content) (artifact : Artifact Content) : ArtifactCheck → Bool
  | .manifest => artifact.manifest.isSome
  | .format => artifact.manifest.any validateManifest
  | .regular release => (artifact.file release).isSome
  | .sums => artifact.manifest.any fun manifest => tools.sums manifest artifact.file
  | .trait release t => (artifact.file release).any fun content => tools.holds content t

end SecureTunnel
