import SecureTunnel.Core.Error

/-!
# The values of a configuration

Addresses, paths and texts, as far as a configuration is checked: whether an
address is a loopback address, whether two paths are the same, and what of a text
is left without the blanks around it.
-/

namespace SecureTunnel

/-- `MAX_CONCURRENT_CONNECTIONS` -/
def maxConcurrentConnections : ℕ := 1024

/-! ## Texts -/

/-- `char::is_whitespace`: the Unicode property `White_Space`. -/
def isWhitespace (c : Char) : Bool :=
  let n := c.toNat
  (9 ≤ n ∧ n ≤ 13) ∨ n = 0x20 ∨ n = 0x85 ∨ n = 0xA0 ∨ n = 0x1680 ∨ (0x2000 ≤ n ∧ n ≤ 0x200A) ∨
    n = 0x2028 ∨ n = 0x2029 ∨ n = 0x202F ∨ n = 0x205F ∨ n = 0x3000

/-- `str::trim` -/
def trim (text : Text) : Text :=
  ((text.dropWhile isWhitespace).reverse.dropWhile isWhitespace).reverse

theorem trim_eq_self {text : Text} (h : ∀ c ∈ text, isWhitespace c = false) :
    trim text = text := by
  have hdrop : ∀ {l : Text}, (∀ c ∈ l, isWhitespace c = false) → l.dropWhile isWhitespace = l := by
    intro l hl
    cases l with
    | nil => rfl
    | cons c l => rw [List.dropWhile_cons_of_neg (Bool.not_eq_true _ ▸ hl c List.mem_cons_self)]
  rw [trim, hdrop h, hdrop fun c hc => h c (List.mem_reverse.1 hc), List.reverse_reverse]

/-! ## Addresses -/

inductive IpAddr
  | v4 (a b c d : UInt8)
  | v6 (bits : BitVec 128)
  deriving DecidableEq

def IpAddr.isLoopback : IpAddr → Bool
  | v4 a _ _ _ => a = 127
  | v6 bits => bits = 1

structure SocketAddr where
  ip : IpAddr
  port : UInt16
  deriving DecidableEq

/-! ## Paths -/

/-- The pieces of a path between its separators. -/
def pieces : Text → List Text
  | [] => [[]]
  | c :: path =>
    if c = '/' then [] :: pieces path
    else
      match pieces path with
      | [] => [[c]]
      | piece :: rest => (c :: piece) :: rest

/-- `Path::components`: a path without its repeated and final separators, and without
    its pieces `.`, but for one at its beginning. -/
def components (path : Text) : List Text :=
  (if path.head? = some '/' then [['/']]
    else if (pieces path).head? = some ['.'] then [['.']] else []) ++
    (pieces path).filter fun piece => piece ≠ [] ∧ piece ≠ ['.']

/-- A path is the same as one before it. -/
def repeats (seen : List (List Text)) : List Text → Bool
  | [] => false
  | path :: paths => seen.contains (components path) || repeats (components path :: seen) paths

/-- Nothing is repeated exactly if all paths are distinct, and none was seen before. -/
theorem repeats_eq_false {seen : List (List Text)} {paths : List Text} :
    repeats seen paths = false ↔
      (paths.map components).Nodup ∧ ∀ path ∈ paths, components path ∉ seen := by
  induction paths generalizing seen with
  | nil => simp [repeats]
  | cons path paths ih =>
    rw [repeats, Bool.or_eq_false_iff, ih, List.map_cons, List.nodup_cons, List.forall_mem_cons]
    simp only [List.contains_eq_mem, decide_eq_false_iff_not, List.mem_cons, not_or, List.mem_map,
      not_exists, not_and]
    constructor
    · rintro ⟨hseen, hnodup, hall⟩
      exact ⟨⟨fun path' hmem => (hall path' hmem).1, hnodup⟩, hseen,
        fun path' hmem => (hall path' hmem).2⟩
    · rintro ⟨⟨hne, hnodup⟩, hseen, hall⟩
      exact ⟨hseen, hnodup, fun path' hmem => ⟨hne path' hmem, hall path' hmem⟩⟩

end SecureTunnel
