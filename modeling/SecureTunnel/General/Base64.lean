import SecureTunnel.General.BigEndian

/-!
# Base64

The standard alphabet, with padding: three bytes are written as four letters, and
one or two bytes at the end as two or three, filled up with `=`. A letter stands
for six bits, and the spare bits of the last letter are zero.

Decoding is strict, so that a text decodes to some bytes exactly if it is their
encoding (`decode_eq_some`): no text has two meanings, and no bytes two texts.
-/

namespace Base64

def alphabet : List Char :=
  "ABCDEFGHIJKLMNOPQRSTUVWXYZabcdefghijklmnopqrstuvwxyz0123456789+/".toList

def letter (d : ℕ) : Char := alphabet.getD d '='

def digit? (c : Char) : Option ℕ := alphabet.idxOf? c

theorem digit_letter {d : ℕ} (h : d < 64) : digit? (letter d) = some d := by
  have hall : ∀ d : Fin 64, digit? (letter d) = some d.val := by decide +kernel
  exact hall ⟨d, h⟩

theorem letter_ne_pad {d : ℕ} (h : d < 64) : letter d ≠ '=' := by
  have hpad : digit? '=' = none := by decide +kernel
  intro heq
  rw [← heq, digit_letter h] at hpad
  cases hpad

/-- Only the letters of the alphabet are digits. -/
theorem letter_of_digit {c : Char} {d : ℕ} (h : digit? c = some d) : d < 64 ∧ letter d = c := by
  obtain ⟨hlt, hc, -⟩ := List.idxOf?_eq_some_iff.1 h
  refine ⟨hlt, ?_⟩
  rw [letter, List.getD_eq_getElem?_getD, List.getElem?_eq_getElem hlt, hc, Option.getD_some]

/-! ## Numbers -/

/-- The `w` lowest digits of `n`, most significant first. -/
def letters : (w n : ℕ) → List Char
  | 0, _ => []
  | w + 1, n => letter (n / 64 ^ w % 64) :: letters w n

/-- The number that letters denote, most significant first. -/
def ofLetters : List Char → Option ℕ
  | [] => some 0
  | c :: cs => (digit? c).bind fun d => (ofLetters cs).map fun n => 64 ^ cs.length * d + n

@[simp] theorem length_letters (w n : ℕ) : (letters w n).length = w := by
  induction w with
  | zero => rfl
  | succ w ih => simp [letters, ih]

/-- Writing a number and reading it back loses what does not fit. -/
theorem ofLetters_letters (w n : ℕ) : ofLetters (letters w n) = some (n % 64 ^ w) := by
  induction w with
  | zero => rw [letters, ofLetters, Nat.pow_zero, Nat.mod_one]
  | succ w ih =>
    rw [letters, ofLetters, digit_letter (Nat.mod_lt _ (by decide)), ih, length_letters,
      Option.bind_some, Option.map_some, Nat.add_comm]
    exact congrArg some (Nat.mod_mul (a := 64 ^ w) (b := 64)).symm

theorem ofLetters_letters_of_lt {w n : ℕ} (h : n < 64 ^ w) : ofLetters (letters w n) = some n := by
  rw [ofLetters_letters, Nat.mod_eq_of_lt h]

/-- Only the lowest `w` digits of a number are written. -/
theorem letters_mul_add (w a n : ℕ) : letters w (64 ^ w * a + n) = letters w n := by
  induction w generalizing a with
  | zero => rfl
  | succ w ih =>
    have hpos : 0 < 64 ^ w := Nat.pow_pos (by decide)
    rw [letters, letters, Nat.pow_succ, Nat.mul_assoc, ih, Nat.mul_add_div hpos,
      Nat.mul_add_mod]

/-- Letters denote a number that fits them, and are what it is written with. -/
theorem letters_of_ofLetters {cs : List Char} {n : ℕ} (h : ofLetters cs = some n) :
    n < 64 ^ cs.length ∧ letters cs.length n = cs := by
  induction cs generalizing n with
  | nil =>
    cases h
    exact ⟨Nat.one_pos, rfl⟩
  | cons c cs ih =>
    obtain ⟨d, hd, h⟩ := Option.bind_eq_some_iff.1 h
    obtain ⟨m, hm, rfl⟩ := Option.map_eq_some_iff.1 h
    obtain ⟨hlt, hletters⟩ := ih hm
    obtain ⟨hd, hletter⟩ := letter_of_digit hd
    have hpos : 0 < 64 ^ cs.length := Nat.pow_pos (by decide)
    constructor
    · calc 64 ^ cs.length * d + m
          < 64 ^ cs.length * (d + 1) := by rw [Nat.mul_succ]; omega
        _ ≤ 64 ^ cs.length * 64 := Nat.mul_le_mul_left _ hd
    · rw [List.length_cons, letters, letters_mul_add, hletters, Nat.mul_add_div hpos,
        Nat.div_eq_of_lt hlt, Nat.add_zero, Nat.mod_eq_of_lt hd, hletter]

/-! ## Texts -/

def encode : List UInt8 → List Char
  | [] => []
  | [a] => letters 2 (ofBigEndian [a] * 16) ++ ['=', '=']
  | [a, b] => letters 3 (ofBigEndian [a, b] * 4) ++ ['=']
  | a :: b :: c :: bytes => letters 4 (ofBigEndian [a, b, c]) ++ encode bytes

/-- The `w` bytes of a last group. Its spare bits are zero. -/
def decodeLast (w spare : ℕ) (cs : List Char) : Option (List UInt8) :=
  (ofLetters cs).bind fun n => if n % spare = 0 then some (bigEndian w (n / spare)) else none

def decode : List Char → Option (List UInt8)
  | [] => some []
  | w :: x :: y :: z :: cs =>
    if z = '=' ∧ cs = [] then
      if y = '=' then decodeLast 1 16 [w, x] else decodeLast 2 4 [w, x, y]
    else (ofLetters [w, x, y, z]).bind fun n => (decode cs).map (bigEndian 3 n ++ ·)
  | _ => none

theorem mem_letters {w n : ℕ} {c : Char} (h : c ∈ letters w n) : c ∈ alphabet := by
  induction w with
  | zero => cases h
  | succ w ih =>
    rw [letters, List.mem_cons] at h
    obtain rfl | h := h
    · have hlt : n / 64 ^ w % 64 < alphabet.length := Nat.mod_lt _ (by decide)
      rw [letter, List.getD_eq_getElem?_getD, List.getElem?_eq_getElem hlt, Option.getD_some]
      exact List.getElem_mem hlt
    · exact ih h

/-- A text has letters of the alphabet, and padding. -/
theorem mem_encode {bytes : List UInt8} {c : Char} (h : c ∈ encode bytes) :
    c ∈ alphabet ∨ c = '=' := by
  induction bytes using encode.induct with
  | case1 => cases h
  | case2 a =>
    rw [encode, List.mem_append] at h
    refine h.imp mem_letters fun h => ?_
    simpa using h
  | case3 a b =>
    rw [encode, List.mem_append] at h
    exact h.imp mem_letters List.mem_singleton.1
  | case4 a b c bytes ih =>
    rw [encode, List.mem_append] at h
    exact h.elim (fun h => .inl (mem_letters h)) ih

/-- A last group is read as what it was written from. -/
theorem decodeLast_letters (bytes : List UInt8) (k : ℕ) {w spare : ℕ} (hw : bytes.length = w)
    (hspare : 0 < spare) (hfit : 256 ^ w * spare ≤ 64 ^ k) :
    decodeLast w spare (letters k (ofBigEndian bytes * spare)) = some bytes := by
  have hlt : ofBigEndian bytes * spare < 64 ^ k := by
    have hbytes : ofBigEndian bytes < 256 ^ w := hw ▸ ofBigEndian_lt bytes
    exact Nat.lt_of_lt_of_le (Nat.mul_lt_mul_of_pos_right hbytes hspare) hfit
  rw [decodeLast, ofLetters_letters_of_lt hlt, Option.bind_some, if_pos (Nat.mul_mod_left ..),
    Nat.mul_div_cancel _ hspare, ← hw, bigEndian_ofBigEndian]

/-- What a last group is read as is written as that group. -/
theorem letters_of_decodeLast {w spare k : ℕ} {cs : List Char} {bytes : List UInt8}
    (h : decodeLast w spare cs = some bytes) (hk : cs.length = k)
    (hfit : 64 ^ k ≤ 256 ^ w * spare) :
    ∃ n, bytes = bigEndian w n ∧ letters k (ofBigEndian bytes * spare) = cs := by
  obtain ⟨n, hn, h⟩ := Option.bind_eq_some_iff.1 h
  obtain ⟨hzero, rfl⟩ := Option.ite_some_none_eq_some.1 h
  obtain ⟨hlt, hletters⟩ := letters_of_ofLetters hn
  rw [hk] at hlt hletters
  have hsmall : n / spare < 256 ^ w := Nat.div_lt_of_lt_mul (by
    rw [Nat.mul_comm]
    exact Nat.lt_of_lt_of_le hlt hfit)
  refine ⟨_, rfl, ?_⟩
  rw [ofBigEndian_bigEndian_of_lt hsmall, Nat.div_mul_cancel (Nat.dvd_of_mod_eq_zero hzero),
    hletters]

theorem decode_one (w x : Char) : decode [w, x, '=', '='] = decodeLast 1 16 [w, x] := by
  rw [decode, if_pos ⟨rfl, rfl⟩, if_pos rfl]

theorem decode_two (w x : Char) {y : Char} (hy : y ≠ '=') :
    decode [w, x, y, '='] = decodeLast 2 4 [w, x, y] := by
  rw [decode, if_pos ⟨rfl, rfl⟩, if_neg hy]

theorem decode_three (w x y : Char) {z : Char} (hz : z ≠ '=') (cs : List Char) :
    decode (w :: x :: y :: z :: cs) =
      (ofLetters [w, x, y, z]).bind fun n => (decode cs).map (bigEndian 3 n ++ ·) := by
  rw [decode, if_neg fun h => hz h.1]

theorem decode_encode (bytes : List UInt8) : decode (encode bytes) = some bytes := by
  -- The last letter of a group is none of the padding.
  have hlast : ∀ n, letter (n / 64 ^ 0 % 64) ≠ '=' :=
    fun n => letter_ne_pad (Nat.mod_lt _ (by decide))
  induction bytes using encode.induct with
  | case1 => rfl
  | case2 a =>
    obtain ⟨w, x, hgroup⟩ : ∃ w x, letters 2 (ofBigEndian [a] * 16) = [w, x] := ⟨_, _, rfl⟩
    rw [encode, hgroup, List.cons_append, List.cons_append, List.nil_append, decode_one, ← hgroup]
    exact decodeLast_letters [a] 2 rfl (by decide) (by decide)
  | case3 a b =>
    obtain ⟨w, x, y, hy, hgroup⟩ : ∃ w x y, y ≠ '=' ∧
      letters 3 (ofBigEndian [a, b] * 4) = [w, x, y] := ⟨_, _, _, hlast _, rfl⟩
    rw [encode, hgroup, List.cons_append, List.cons_append, List.cons_append, List.nil_append,
      decode_two w x hy, ← hgroup]
    exact decodeLast_letters [a, b] 3 rfl (by decide) (by decide)
  | case4 a b c bytes ih =>
    have hlt : ofBigEndian [a, b, c] < 64 ^ 4 :=
      Nat.lt_of_lt_of_le (ofBigEndian_lt [a, b, c]) (by simp)
    obtain ⟨w, x, y, z, hz, hgroup⟩ : ∃ w x y z, z ≠ '=' ∧
      letters 4 (ofBigEndian [a, b, c]) = [w, x, y, z] := ⟨_, _, _, _, hlast _, rfl⟩
    rw [encode, hgroup, List.cons_append, List.cons_append, List.cons_append, List.cons_append,
      List.nil_append, decode_three w x y hz, ← hgroup, ofLetters_letters_of_lt hlt,
      Option.bind_some, ih, Option.map_some]
    exact congrArg (fun group => some (group ++ bytes)) (bigEndian_ofBigEndian [a, b, c])

/-- What decodes to some bytes is their encoding. -/
theorem encode_of_decode {text : List Char} {bytes : List UInt8} (h : decode text = some bytes) :
    encode bytes = text := by
  induction text using decode.induct generalizing bytes with
  | case1 =>
    cases h
    rfl
  | case2 w x z cs hlast =>
    obtain ⟨rfl, rfl⟩ := hlast
    rw [decode_one] at h
    obtain ⟨n, rfl, hletters⟩ := letters_of_decodeLast (k := 2) h rfl (by decide)
    exact congrArg (· ++ ['=', '=']) hletters
  | case3 w x y z cs hlast hy =>
    obtain ⟨rfl, rfl⟩ := hlast
    rw [decode_two _ _ hy] at h
    obtain ⟨n, rfl, hletters⟩ := letters_of_decodeLast (k := 3) h rfl (by decide)
    exact congrArg (· ++ ['=']) hletters
  | case4 w x y z cs hgroup ih =>
    rw [decode, if_neg hgroup] at h
    obtain ⟨n, hn, h⟩ := Option.bind_eq_some_iff.1 h
    obtain ⟨rest, hrest, rfl⟩ := Option.map_eq_some_iff.1 h
    obtain ⟨hlt, hletters⟩ := letters_of_ofLetters hn
    have hthree : encode (bigEndian 3 n ++ rest) =
        letters 4 (ofBigEndian (bigEndian 3 n)) ++ encode rest := rfl
    rw [hthree, ih hrest, ofBigEndian_bigEndian_of_lt (Nat.lt_of_lt_of_le hlt (by simp))]
    exact congrArg (· ++ cs) hletters
  | case5 text hnil hgroup =>
    rw [decode.eq_def] at h
    split at h
    · exact absurd rfl hnil
    · exact (hgroup _ _ _ _ _ rfl).elim
    · cases h

/-- A text decodes to some bytes exactly if it is their encoding. -/
theorem decode_eq_some {text : List Char} {bytes : List UInt8} :
    decode text = some bytes ↔ text = encode bytes :=
  ⟨fun h => (encode_of_decode h).symm, fun h => h ▸ decode_encode bytes⟩

end Base64
