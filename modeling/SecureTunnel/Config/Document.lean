import SecureTunnel.Config.Address
import SecureTunnel.Config.Server
import SecureTunnel.General.Lines

/-!
# Configurations as text

The documents that the examples and the deployment are written in, a subset of TOML:
sections of lines `key = value`, comments and blank lines. A document is written line
by line (`Document.text`), and `toml` makes a configuration of it, section by section,
whatever their order (`Document.serverConfig`). Keys and sections that the
configuration does not have are passed over.
-/

namespace SecureTunnel

namespace Toml

/-! ## Documents -/

/-- A character that may stand in a comment. -/
def isPrintable (c : Char) : Bool := c = '\t' ∨ (0x20 ≤ c.toNat ∧ c.toNat ≠ 0x7F)

/-- A character that stands between quotes as it is. -/
def isPlain (c : Char) : Bool := isPrintable c ∧ c ≠ '"' ∧ c ≠ '\\'

/-- A character of a key that needs no quotes. -/
def isBare (c : Char) : Bool :=
  ('0' ≤ c ∧ c ≤ '9') ∨ ('A' ≤ c ∧ c ≤ 'Z') ∨ ('a' ≤ c ∧ c ≤ 'z') ∨ c = '_' ∨ c = '-'

structure PlainText where
  text : Text
  plain : ∀ c ∈ text, isPlain c = true
  deriving DecidableEq

/-- A text, if it may stand so. -/
def PlainText.ofText (text : Text) (h : text.all isPlain = true) : PlainText :=
  ⟨text, List.all_eq_true.1 h⟩

structure BareKey where
  text : Text
  ne_nil : text ≠ []
  bare : ∀ c ∈ text, isBare c = true
  deriving DecidableEq

/-- A key, if it may stand so. -/
def BareKey.ofText (text : Text) (h : (!text.isEmpty && text.all isBare) = true) : BareKey where
  text
  ne_nil := by
    rintro rfl
    cases h
  bare := List.all_eq_true.1 (Bool.and_eq_true _ _ ▸ h).2

structure Comment where
  text : Text
  printable : ∀ c ∈ text, isPrintable c = true
  deriving DecidableEq

inductive Value
  | string (text : PlainText)
  | strings (texts : List PlainText)
  | boolean (b : Bool)
  | integer (n : ℕ)
  deriving DecidableEq

inductive Line
  /-- A line without a key: blank, or a comment. -/
  | remark (comment : Option Comment)
  /-- `key = value`, and a comment behind it. -/
  | entry (key : BareKey) (value : Value) (comment : Option Comment)

/-- A section: `[name]`, or `[[name]]` for one of many. -/
structure Table where
  name : BareKey
  repeated : Bool
  lines : List Line

structure Document where
  /-- What stands before the first section. -/
  preamble : List (Option Comment)
  tables : List Table

/-! ## Text -/

def quoted (text : PlainText) : Text := '"' :: (text.text ++ ['"'])

def Value.text : Value → Text
  | string text => quoted text
  | strings texts => '[' :: ([',', ' '].intercalate (texts.map quoted) ++ [']'])
  | boolean b => if b then "true".toList else "false".toList
  | integer n => digits n

def remarkText : Option Comment → Text
  | none => []
  | some comment => '#' :: comment.text

/-- What stands behind a value. -/
def behind : Option Comment → Text
  | none => []
  | some comment => ' ' :: '#' :: comment.text

def Line.text : Line → Text
  | remark comment => remarkText comment
  | entry key value comment => key.text ++ ' ' :: '=' :: ' ' :: (value.text ++ behind comment)

def Table.header (t : Table) : Text :=
  if t.repeated then '[' :: '[' :: (t.name.text ++ [']', ']']) else '[' :: (t.name.text ++ [']'])

namespace Document

def lines (doc : Document) : List Text :=
  doc.preamble.map remarkText ++ doc.tables.flatMap fun t => t.header :: t.lines.map Line.text

def text (doc : Document) : Text := terminated '\n' doc.lines

end Document

/-! ## Lines of the text -/

/-- Nothing in it ends a line. -/
def Printable (text : Text) : Prop := ∀ c ∈ text, isPrintable c = true

instance (text : Text) : Decidable (Printable text) :=
  decidable_of_iff (text.all isPrintable = true) List.all_eq_true

namespace Printable

variable {a b : Text} {c : Char}

theorem cons (hc : isPrintable c = true) (ha : Printable a) : Printable (c :: a) :=
  List.forall_mem_cons.2 ⟨hc, ha⟩

theorem append (ha : Printable a) (hb : Printable b) : Printable (a ++ b) :=
  List.forall_mem_append.2 ⟨ha, hb⟩

theorem nil : Printable [] := fun _ h => absurd h List.not_mem_nil

theorem intercalate {texts : List Text} (ha : Printable a) (h : ∀ text ∈ texts, Printable text) :
    Printable (a.intercalate texts) := by
  induction texts with
  | nil => exact nil
  | cons text texts ih =>
    obtain ⟨htext, htexts⟩ := List.forall_mem_cons.1 h
    cases texts with
    | nil => rwa [List.intercalate_singleton]
    | cons text' texts =>
      rw [List.intercalate_cons_cons]
      exact (htext.append ha).append (ih htexts)

theorem newline_not_mem (ha : Printable a) : '\n' ∉ a := by
  intro h
  have := ha _ h
  revert this
  decide

end Printable

/-- A bare character is neither a blank nor one that has a meaning on a line: those
    are below `-`, or `=`, or `[`. -/
theorem toNat_of_isBare {c : Char} (h : isBare c = true) :
    45 ≤ c.toNat ∧ c.toNat ≤ 122 ∧ c.toNat ≠ 61 ∧ c.toNat ≠ 91 := by
  rw [isBare, decide_eq_true_iff] at h
  obtain h | h | h | rfl | rfl := h
  · have : 48 ≤ c.toNat ∧ c.toNat ≤ 57 := h
    omega
  · have : 65 ≤ c.toNat ∧ c.toNat ≤ 90 := h
    omega
  · have : 97 ≤ c.toNat ∧ c.toNat ≤ 122 := h
    omega
  · decide
  · decide

theorem isPrintable_of_isBare {c : Char} (h : isBare c = true) : isPrintable c = true := by
  obtain ⟨hle, hge, -, -⟩ := toNat_of_isBare h
  rw [isPrintable, decide_eq_true_iff]
  omega

theorem PlainText.printable_quoted (text : PlainText) : Printable (quoted text) := by
  have hplain : Printable text.text := by
    intro c hc
    have := text.plain c hc
    rw [isPlain, decide_eq_true_iff] at this
    exact this.1
  exact .cons (by decide) (hplain.append (.cons (by decide) .nil))

theorem BareKey.printable (key : BareKey) : Printable key.text :=
  fun c hc => isPrintable_of_isBare (key.bare c hc)

theorem printable_digits (n : ℕ) : Printable (digits n) := by
  intro c hc
  have hdigit := Nat.isDigit_of_mem_toDigits (by decide : 0 < 10) (by decide) hc
  refine isPrintable_of_isBare ?_
  rw [isBare, decide_eq_true_iff]
  exact .inl (Char.isDigit_iff_toNat.1 hdigit)

theorem Value.printable (v : Value) : Printable v.text := by
  cases v with
  | string text => exact text.printable_quoted
  | strings texts =>
    refine .cons (by decide) (.append (.intercalate (by decide) ?_) (.cons (by decide) .nil))
    intro text htext
    obtain ⟨text, -, rfl⟩ := List.mem_map.1 htext
    exact text.printable_quoted
  | boolean b => cases b <;> decide
  | integer n => exact printable_digits n

theorem printable_remarkText (comment : Option Comment) : Printable (remarkText comment) := by
  cases comment with
  | none => exact .nil
  | some comment => exact .cons (by decide) comment.printable

theorem printable_behind (comment : Option Comment) : Printable (behind comment) := by
  cases comment with
  | none => exact .nil
  | some comment => exact .cons (by decide) (.cons (by decide) comment.printable)

theorem Line.printable (line : Line) : Printable line.text := by
  cases line with
  | remark comment => exact printable_remarkText comment
  | entry key value comment =>
    refine key.printable.append (.cons (by decide) (.cons (by decide) (.cons (by decide) ?_)))
    exact value.printable.append (printable_behind comment)

theorem Table.printable_header (t : Table) : Printable t.header := by
  rw [Table.header]
  split
  · exact .cons (by decide) (.cons (by decide) (t.name.printable.append (by decide)))
  · exact .cons (by decide) (t.name.printable.append (by decide))

/-- The lines of the text are those that it was written by. -/
theorem Document.records_text (doc : Document) : records '\n' doc.text = doc.lines := by
  refine records_terminated fun line hline => Printable.newline_not_mem ?_
  rw [lines, List.mem_append, List.mem_map, List.mem_flatMap] at hline
  obtain ⟨comment, -, rfl⟩ | ⟨t, -, hline⟩ := hline
  · exact printable_remarkText comment
  · obtain rfl | hline := List.mem_cons.1 hline
    · exact t.printable_header
    · obtain ⟨line, -, rfl⟩ := List.mem_map.1 hline
      exact line.printable

/-! ## Configurations -/

/-- What a section sets a key to. -/
def Line.sets (key : Text) : Line → Option (Value × Option Comment)
  | remark _ => none
  | entry key' value comment => if key'.text = key then some (value, comment) else none

namespace Table

def keys (t : Table) : List Text :=
  t.lines.filterMap fun
    | .remark _ => none
    | .entry key _ _ => some key.text

def value (t : Table) (key : Text) : Option Value :=
  ((t.lines.filterMap (·.sets key)).head?).map (·.1)

/-- The field of a section, which has to be there unless it has a default. -/
def field {α : Type} (t : Table) (key : Text) (absent : Option α) (decode : Value → Option α) :
    Option α :=
  match t.value key with
  | none => absent
  | some value => decode value

end Table

namespace Value

def asString : Value → Option Text
  | string text => some text.text
  | _ => none

def asStrings : Value → Option (List Text)
  | strings texts => some (texts.map PlainText.text)
  | _ => none

def asBool : Value → Option Bool
  | boolean b => some b
  | _ => none

/-- Numbers are read as signed ones of 64 bits. -/
def asInteger : Value → Option ℕ
  | integer n => if n < 2 ^ 63 then some n else none
  | _ => none

def asAddress (v : Value) : Option SocketAddr := v.asString.bind SocketAddr.fromStr

end Value

namespace Document

variable (doc : Document)

/-- No section, and no key in a section, is there twice, but for sections `[[name]]`. -/
def isWellFormed : Bool :=
  ((doc.tables.filter fun t => !t.repeated).map (·.name.text)).Nodup &&
  doc.tables.all (fun t => doc.tables.all fun t' =>
    t.name.text ≠ t'.name.text || t.repeated = t'.repeated) &&
  doc.tables.all fun t => t.keys.Nodup

/-- The sections of a name. -/
def named (name : Text) : List Table := doc.tables.filter (·.name.text = name)

/-- The section of a name, which must not be one of many. -/
def section? (name : Text) : Option Table :=
  (doc.named name).head?.filter fun t => !t.repeated

/-- A section that may be left out. -/
def optional {α : Type} (name : Text) (absent : α) (decode : Table → Option α) : Option α :=
  match doc.named name with
  | [] => some absent
  | t :: _ => if t.repeated then none else decode t

end Document

def decodeIdentity (t : Table) : Option Server.IdentityConfig := do
  let privateKeyFile ← t.field "private_key_file".toList none Value.asString
  let additional ← t.field "additional_private_key_files".toList (some []) Value.asStrings
  return ⟨privateKeyFile, additional⟩

def decodeClient (t : Table) : Option Server.AuthorisedClient := do
  let name ← t.field "name".toList none Value.asString
  let publicKey ← t.field "public_key".toList none Value.asString
  return ⟨name, publicKey⟩

def decodeOuterTls (t : Table) : Option Server.OuterTlsConfig := do
  let enabled ← t.field "enabled".toList (some false) Value.asBool
  let certificateFile ← t.field "certificate_file".toList (some none) (·.asString.map some)
  let privateKeyFile ← t.field "private_key_file".toList (some none) (·.asString.map some)
  return ⟨enabled, certificateFile, privateKeyFile⟩

def decodeLimits (t : Table) : Option Server.Limits := do
  let connections ← t.field "max_connections".toList (some 32) Value.asInteger
  let bytes ← t.field "max_plaintext_record_bytes".toList (some 16384) Value.asInteger
  return ⟨connections, bytes⟩

def decodeTimeouts (t : Table) : Option Server.Timeouts := do
  let connect ← t.field "destination_connect_seconds".toList (some 10) Value.asInteger
  let handshake ← t.field "handshake_seconds".toList (some 10) Value.asInteger
  let idle ← t.field "idle_seconds".toList (some 600) Value.asInteger
  return ⟨.ofNat connect, .ofNat handshake, .ofNat idle⟩

/-- The sections `[[authorized_clients]]`, of which there has to be one. -/
def Document.clients (doc : Document) : Option (List Server.AuthorisedClient) :=
  match doc.named "authorized_clients".toList with
  | [] => none
  | t :: rest => if t.repeated then (t :: rest).mapM decodeClient else none

/-- `toml::from_str` -/
def Document.serverConfig (doc : Document) : Option ServerConfig :=
  if doc.isWellFormed then do
    let listen ← (← doc.section? "listen".toList).field "address".toList none Value.asAddress
    let destination ←
      (← doc.section? "destination".toList).field "address".toList none Value.asAddress
    let identity ← decodeIdentity (← doc.section? "identity".toList)
    let authorizedClients ← doc.clients
    let outerTls ← doc.optional "outer_tls".toList {} decodeOuterTls
    let limits ← doc.optional "limits".toList {} decodeLimits
    let timeouts ← doc.optional "timeouts".toList {} decodeTimeouts
    return { listen, destination, identity, authorizedClients, outerTls, limits, timeouts }
  else none

/-! ## What a configuration has from its document -/

namespace Document

/-- What the lines of a document set a key to, whatever sections they are in. -/
def settings (doc : Document) (key : Text) : List (Value × Option Comment) :=
  doc.tables.flatMap fun t => t.lines.filterMap (·.sets key)

def valuesOf (doc : Document) (key : Text) : List Value := (doc.settings key).map (·.1)

/-- The value of a key in a section. -/
def lookup (doc : Document) (name key : Text) : Option Value :=
  (doc.section? name).bind (·.value key)

variable {doc : Document} {c : ServerConfig}

theorem mem_valuesOf_of_lookup {name key : Text} {v : Value} (h : doc.lookup name key = some v) :
    v ∈ doc.valuesOf key := by
  obtain ⟨t, ht, hv⟩ := Option.bind_eq_some_iff.1 h
  obtain ⟨setting, hsetting, rfl⟩ := Option.map_eq_some_iff.1 hv
  have hmem : t ∈ doc.tables := by
    have hhead := (Option.filter_eq_some_iff.1 ht).1
    exact List.mem_of_mem_filter (List.mem_of_mem_head? hhead)
  refine List.mem_map.2 ⟨setting, List.mem_flatMap.2 ⟨t, hmem, ?_⟩, rfl⟩
  exact List.mem_of_mem_head? hsetting

/-- What a field has, and does not have by default, is what its value is read as. -/
theorem value_of_field {α : Type} {t : Table} {key : Text} {absent : Option α} {a : α}
    {decode : Value → Option α} (h : t.field key absent decode = some a)
    (habsent : absent ≠ some a) : ∃ v, t.value key = some v ∧ decode v = some a := by
  rw [Table.field] at h
  cases hvalue : t.value key with
  | none =>
    rw [hvalue] at h
    exact absurd h habsent
  | some v =>
    rw [hvalue] at h
    exact ⟨v, rfl, h⟩

theorem asString_eq_some {v : Value} {text : Text} (h : v.asString = some text) :
    ∃ p : PlainText, v = .string p ∧ p.text = text := by
  cases v with
  | string p => exact ⟨p, rfl, Option.some.inj h⟩
  | strings | boolean | integer => cases h

theorem privateKeyFile_of_decodeOuterTls {t : Table} {tls : Server.OuterTlsConfig} {path : Text}
    (h : decodeOuterTls t = some tls) (hpath : tls.privateKeyFile = some path) :
    ∃ p : PlainText, t.value "private_key_file".toList = some (.string p) ∧ p.text = path := by
  rw [decodeOuterTls] at h
  simp only [Option.bind_eq_bind, Option.bind_eq_some_iff, Option.pure_def, Option.some.injEq] at h
  obtain ⟨enabled, -, certificateFile, -, privateKeyFile, hfield, rfl⟩ := h
  obtain rfl : privateKeyFile = some path := hpath
  obtain ⟨v, hvalue, hdecode⟩ := value_of_field hfield (by simp)
  obtain ⟨text, htext, heq⟩ := Option.map_eq_some_iff.1 hdecode
  obtain ⟨p, rfl, rfl⟩ := asString_eq_some htext
  exact ⟨p, hvalue, Option.some.inj heq⟩

/-- A section that may be left out, and was not. -/
theorem optional_eq_some {α : Type} {name : Text} {absent a : α} {decode : Table → Option α}
    (h : doc.optional name absent decode = some a) :
    a = absent ∨ ∃ t, doc.section? name = some t ∧ decode t = some a := by
  rw [optional] at h
  split at h
  · exact .inl (Option.some.inj h).symm
  · rename_i t rest hnamed
    split at h
    · cases h
    · rename_i hrepeated
      refine .inr ⟨t, ?_, h⟩
      rw [section?, hnamed, List.head?_cons]
      exact Option.filter_eq_some_iff.2 ⟨rfl, by simpa using hrepeated⟩

/-- The address of the destination, and the key files, stand in their sections. -/
theorem serverConfig_eq_some (h : doc.serverConfig = some c) :
    (∃ p : PlainText, doc.lookup "destination".toList "address".toList = some (.string p) ∧
      SocketAddr.fromStr p.text = some c.destination) ∧
    (∃ p : PlainText, doc.lookup "identity".toList "private_key_file".toList = some (.string p) ∧
      p.text = c.identity.privateKeyFile) ∧
    ∀ path, c.outerTls.privateKeyFile = some path →
      ∃ p : PlainText, doc.lookup "outer_tls".toList "private_key_file".toList =
        some (.string p) ∧ p.text = path := by
  rw [serverConfig] at h
  obtain ⟨-, h⟩ := Option.ite_none_right_eq_some.1 h
  simp only [Option.bind_eq_bind, Option.bind_eq_some_iff, Option.pure_def, Option.some.injEq] at h
  obtain ⟨_, -, _, -, destination, hdestination, _, haddress, identity, hidentity, _, hdecode,
    _, -, tls, htls, _, -, _, -, rfl⟩ := h
  refine ⟨?_, ?_, ?_⟩
  · obtain ⟨v, hvalue, hdecode⟩ := value_of_field haddress (by simp)
    obtain ⟨text, htext, hparse⟩ := Option.bind_eq_some_iff.1 hdecode
    obtain ⟨p, rfl, rfl⟩ := asString_eq_some htext
    exact ⟨p, by rw [lookup, hdestination]; exact hvalue, hparse⟩
  · rw [decodeIdentity] at hdecode
    simp only [Option.bind_eq_bind, Option.bind_eq_some_iff, Option.pure_def,
      Option.some.injEq] at hdecode
    obtain ⟨path, hpath, _, -, rfl⟩ := hdecode
    obtain ⟨v, hvalue, htext⟩ := value_of_field hpath (by simp)
    obtain ⟨p, rfl, rfl⟩ := asString_eq_some htext
    exact ⟨p, by rw [lookup, hidentity]; exact hvalue, rfl⟩
  · intro path hpath
    obtain rfl | ⟨t, ht, hdecode⟩ := optional_eq_some htls
    · cases hpath
    · obtain ⟨p, hvalue, htext⟩ := privateKeyFile_of_decodeOuterTls hdecode hpath
      exact ⟨p, by rw [lookup, ht]; exact hvalue, htext⟩

end Document

end Toml

end SecureTunnel
