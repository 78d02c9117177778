import Mathlib.Algebra.Group.Nat.Defs
import SecureTunnel.Config.Value

/-!
# Addresses as text

`SocketAddr::from_str`, as `std` reads an address: a part at a time, each of which
either takes the characters it reads off the text, or fails and leaves them. The
scope of an address of IPv6 is read, and is no part of the model's addresses.

What begins with `127.0.0.1:` or `[::1]:`, and is an address, is a loopback address
(`SocketAddr.isLoopback_of_begins`).
-/

namespace SecureTunnel

/-! ## Parts -/

/-- `char::to_digit` -/
def toDigit (radix : ℕ) (c : Char) : Option ℕ :=
  let value :=
    if '0' ≤ c ∧ c ≤ '9' then some (c.toNat - '0'.toNat)
    else if 'a' ≤ c ∧ c ≤ 'z' then some (c.toNat - 'a'.toNat + 10)
    else if 'A' ≤ c ∧ c ≤ 'Z' then some (c.toNat - 'A'.toNat + 10)
    else none
  value.filter (· < radix)

/-- `read_given_char` -/
def readGivenChar (target : Char) : Text → Option Text
  | [] => none
  | c :: text => if c = target then some text else none

/-- `read_number`: all the digits that there are. There has to be one, and the number
    has to be below the bound of its type. -/
def readNumber (radix : ℕ) (maxDigits : Option ℕ) (allowZeroPrefix : Bool) (bound : ℕ)
    (text : Text) : Option (ℕ × Text) :=
  let isDigit c := (toDigit radix c).isSome
  let found := (text.takeWhile isDigit).filterMap (toDigit radix)
  let number := found.foldl (fun n d => n * radix + d) 0
  if found.isEmpty ∨ maxDigits.any (· < found.length) then none
  else if allowZeroPrefix = false ∧ text.head? = some '0' ∧ 1 < found.length then none
  else if number < bound then some (number, text.dropWhile isDigit)
  else none

/-- `read_separator`: the separator stands before all but the first. -/
def readSeparator {α : Type} (sep : Char) (first : Bool) (inner : Text → Option (α × Text))
    (text : Text) : Option (α × Text) :=
  if first then inner text else (readGivenChar sep text).bind inner

/-- `read_ipv4_addr` -/
def readIpv4Addr (text : Text) : Option ((ℕ × ℕ × ℕ × ℕ) × Text) := do
  let octet first := readSeparator '.' first (readNumber 10 (some 3) false 256)
  let (a, text) ← octet true text
  let (b, text) ← octet false text
  let (c, text) ← octet false text
  let (d, text) ← octet false text
  return ((a, b, c, d), text)

/-- `read_groups`, with room for some more groups: those read, and whether the last
    two of them are an address of IPv4. -/
def readGroups (room : ℕ) (first : Bool) (text : Text) : List ℕ × Bool × Text :=
  match room with
  | 0 => ([], false, text)
  | room + 1 =>
    match if 0 < room then readSeparator ':' first readIpv4Addr text else none with
    | some ((a, b, c, d), rest) => ([a * 256 + b, c * 256 + d], true, rest)
    | none =>
      match readSeparator ':' first (readNumber 16 (some 4) true 65536) text with
      | none => ([], false, text)
      | some (group, rest) =>
        let (groups, ipv4, rest) := readGroups room false rest
        (group :: groups, ipv4, rest)

/-- `read_ipv6_addr` -/
def readIpv6Addr (text : Text) : Option (List ℕ × Text) :=
  let (head, ipv4, text) := readGroups 8 true text
  if head.length = 8 then some (head, text)
  else if ipv4 then none
  else do
    let text ← readGivenChar ':' text
    let text ← readGivenChar ':' text
    -- The `::` stands for one group at least.
    let (tail, _, text) := readGroups (8 - (head.length + 1)) true text
    return (head ++ List.replicate (8 - tail.length - head.length) 0 ++ tail, text)

/-- `read_port` -/
def readPort (text : Text) : Option (ℕ × Text) :=
  (readGivenChar ':' text).bind (readNumber 10 none true 65536)

/-- `read_scope_id`, and what is left where there is none. -/
def skipScopeId (text : Text) : Text :=
  match (readGivenChar '%' text).bind (readNumber 10 none true (2 ^ 32)) with
  | some (_, rest) => rest
  | none => text

/-! ## Addresses -/

/-- `read_socket_addr_v4` -/
def readSocketAddrV4 (text : Text) : Option (SocketAddr × Text) := do
  let ((a, b, c, d), text) ← readIpv4Addr text
  let (port, text) ← readPort text
  return (⟨.v4 (.ofNat a) (.ofNat b) (.ofNat c) (.ofNat d), .ofNat port⟩, text)

/-- `read_socket_addr_v6` -/
def readSocketAddrV6 (text : Text) : Option (SocketAddr × Text) := do
  let text ← readGivenChar '[' text
  let (groups, text) ← readIpv6Addr text
  let text ← readGivenChar ']' (skipScopeId text)
  let (port, text) ← readPort text
  return (⟨.v6 (.ofNat 128 (groups.foldl (fun n group => n * 65536 + group) 0)), .ofNat port⟩, text)

namespace SocketAddr

/-- `SocketAddr::from_str` -/
def fromStr (text : Text) : Option SocketAddr :=
  match (readSocketAddrV4 text).orElse fun _ => readSocketAddrV6 text with
  | some (address, []) => some address
  | _ => none

theorem fromStr_eq_some {text : Text} {address : SocketAddr} (h : fromStr text = some address) :
    ∃ rest, readSocketAddrV4 text = some (address, rest) ∨
      readSocketAddrV4 text = none ∧ readSocketAddrV6 text = some (address, rest) := by
  rw [fromStr] at h
  cases hv4 : readSocketAddrV4 text with
  | none =>
    rw [hv4] at h
    cases hv6 : readSocketAddrV6 text with
    | none => simp [hv6] at h
    | some r =>
      obtain ⟨address', rest⟩ := r
      cases rest with
      | nil =>
        obtain rfl : address' = address := by simpa [hv6] using h
        exact ⟨[], .inr ⟨rfl, rfl⟩⟩
      | cons c rest => simp [hv6] at h
  | some r =>
    obtain ⟨address', rest⟩ := r
    rw [hv4] at h
    cases rest with
    | nil =>
      obtain rfl : address' = address := by simpa using h
      exact ⟨[], .inl rfl⟩
    | cons c rest => simp at h

/-- The beginnings by which a text is taken for that of a loopback address. -/
def beginsLoopback (text : Text) : Bool :=
  "127.0.0.1:".toList.isPrefixOf text || "[::1]:".toList.isPrefixOf text

theorem ip_of_begins_v4 {rest : Text} {address : SocketAddr}
    (h : fromStr ("127.0.0.1:".toList ++ rest) = some address) :
    address.ip = .v4 127 0 0 1 := by
  have hip : readIpv4Addr ("127.0.0.1:".toList ++ rest) = some ((127, 0, 0, 1), ':' :: rest) := rfl
  have hv6 : readSocketAddrV6 ("127.0.0.1:".toList ++ rest) = none := rfl
  obtain ⟨left, h | ⟨-, h⟩⟩ := fromStr_eq_some h
  · rw [readSocketAddrV4, hip] at h
    cases hport : readPort (':' :: rest) with
    | none => simp [hport] at h
    | some r =>
      simp only [hport, Option.bind_eq_bind, Option.bind_some, Option.pure_def,
        Option.some.injEq, Prod.mk.injEq] at h
      rw [← h.1]
      rfl
  · rw [hv6] at h
    cases h

theorem ip_of_begins_v6 {rest : Text} {address : SocketAddr}
    (h : fromStr ("[::1]:".toList ++ rest) = some address) :
    address.ip = .v6 1 := by
  have hv4 : readSocketAddrV4 ("[::1]:".toList ++ rest) = none := rfl
  have hip : readIpv6Addr ("::1]:".toList ++ rest) =
      some ([0, 0, 0, 0, 0, 0, 0, 1], "]:".toList ++ rest) := rfl
  have hopen : readGivenChar '[' ("[::1]:".toList ++ rest) = some ("::1]:".toList ++ rest) := rfl
  have hclose : readGivenChar ']' (skipScopeId ("]:".toList ++ rest)) = some (':' :: rest) := rfl
  obtain ⟨left, h | ⟨-, h⟩⟩ := fromStr_eq_some h
  · rw [hv4] at h
    cases h
  · rw [readSocketAddrV6, hopen] at h
    simp only [Option.bind_eq_bind, Option.bind_some, hip, hclose] at h
    cases hport : readPort (':' :: rest) with
    | none => simp [hport] at h
    | some r =>
      simp only [hport, Option.bind_some, Option.pure_def, Option.some.injEq, Prod.mk.injEq] at h
      rw [← h.1]
      rfl

/-- An address whose text begins so is a loopback address. -/
theorem isLoopback_of_begins {text : Text} {address : SocketAddr}
    (hbegins : beginsLoopback text = true) (h : fromStr text = some address) :
    address.ip.isLoopback = true := by
  rw [beginsLoopback, Bool.or_eq_true, List.isPrefixOf_iff_prefix, List.isPrefixOf_iff_prefix]
    at hbegins
  rcases hbegins with ⟨rest, rfl⟩ | ⟨rest, rfl⟩
  · rw [ip_of_begins_v4 h]
    rfl
  · rw [ip_of_begins_v6 h]
    rfl

-- Leading zeros are refused, and zeros may be written out on both sides of a `::`.
example : fromStr "10.0.0.5:9000".toList = some ⟨.v4 10 0 0 5, 9000⟩ := by decide +kernel
example : fromStr "127.0.0.01:9000".toList = none := by decide +kernel
example : fromStr "[0:0::1]:80".toList = some ⟨.v6 1, 80⟩ := by decide +kernel

end SocketAddr

end SecureTunnel
