import Mathlib.Data.List.Infix
import Mathlib.Data.Nat.Init

/-!
# Words in rendered errors

An error travels as a chain of texts, and is shown as one text, joined with
`": "`. Where it is told apart again by the words that this text contains, what
decides is which texts of the chain contain them: the words looked for neither
begin with a blank nor have a colon, so that none of them lies across a joint
(`Word.inside_render`), and they have no digit, so that none lies across a number
(`Word.inside_number`).

Words are looked for in lower case, in the sense of ASCII.
-/

section Infix

variable {α : Type*} {p a b d : List α} {c : α}

/-- A word without a letter lies on one side of the letter. -/
theorem infix_append_cons_iff (hc : c ∉ p) : p <:+: a ++ c :: b ↔ p <:+: a ∨ p <:+: b := by
  constructor
  · rintro ⟨s, t, h⟩
    rcases List.append_eq_append_iff.1 h with ⟨r, rfl, -⟩ | ⟨r, hsp, hr⟩
    · exact .inl ⟨s, r, rfl⟩
    cases r with
    | nil => exact .inl ⟨s, [], by simpa using hsp⟩
    | cons c' r =>
      obtain ⟨rfl, rfl⟩ := List.cons.inj hr
      -- The word ends behind the letter, so it begins behind it.
      rcases List.append_eq_append_iff.1 hsp with ⟨q, -, rfl⟩ | ⟨q, rfl, hq⟩
      · exact absurd (List.mem_append_right q List.mem_cons_self) hc
      · cases q with
        | nil =>
          rw [List.nil_append] at hq
          exact absurd (hq ▸ List.mem_cons_self) hc
        | cons c' q =>
          obtain ⟨-, rfl⟩ := List.cons.inj hq
          exact .inr ⟨q, t, by simp⟩
  · rintro (h | h)
    · exact h.trans List.infix_append_left
    · exact h.trans ((List.suffix_cons c b).trans (List.suffix_append a _)).isInfix

theorem infix_cons_iff_of_notMem (hc : c ∉ p) : p <:+: c :: b ↔ p <:+: b := by
  have h := infix_append_cons_iff (a := []) (b := b) hc
  rw [List.nil_append] at h
  exact h.trans ⟨fun hp => hp.elim (fun hp => List.infix_nil.1 hp ▸ List.nil_infix) id, .inr⟩

/-- A word that does not begin with a letter does not begin there. -/
theorem infix_cons_iff_of_head? (hc : p.head? ≠ some c) : p <:+: c :: b ↔ p <:+: b := by
  refine ⟨fun h => ?_, List.infix_cons⟩
  rcases List.infix_cons_iff.1 h with ⟨t, ht⟩ | h
  · cases p with
    | nil => exact List.nil_infix
    | cons c' p => exact absurd (congrArg some (List.cons.inj ht).1) hc
  · exact h

/-- A word lies on one side of letters that it does not have. -/
theorem infix_append_append_iff (hne : d ≠ []) (hd : ∀ c ∈ d, c ∉ p) :
    p <:+: a ++ (d ++ b) ↔ p <:+: a ∨ p <:+: b := by
  cases d with
  | nil => exact absurd rfl hne
  | cons c d =>
    rw [List.cons_append, infix_append_cons_iff (hd c List.mem_cons_self)]
    have hskip : ∀ d' : List α, (∀ c ∈ d', c ∉ p) → (p <:+: d' ++ b ↔ p <:+: b) := by
      intro d' hd'
      induction d' with
      | nil => rfl
      | cons c' d' ih =>
        obtain ⟨hc', hd'⟩ := List.forall_mem_cons.1 hd'
        rw [List.cons_append, infix_cons_iff_of_notMem hc', ih hd']
    rw [hskip d (List.forall_mem_cons.1 hd).2]

end Infix

/-! ## Texts -/

/-- `to_ascii_lowercase` -/
def lower (text : List Char) : List Char := text.map Char.toLower

/-- The alternate display of a chain of errors. -/
def render (chain : List (List Char)) : List Char := [':', ' '].intercalate chain

/-- A word that can be looked for in a rendered chain. -/
structure Word where
  letters : List Char
  ne_nil : letters ≠ [] := by decide
  head : letters.head? ≠ some ' ' := by decide
  colon : ':' ∉ letters := by decide
  digit : ∀ c ∈ letters, c.isDigit = false := by
    exact @of_decide_eq_true _ (List.decidableBAll _ _) rfl

namespace Word

/-- The text contains the word, in whatever case. -/
def Inside (word : Word) (text : List Char) : Prop := word.letters <:+: lower text

instance (word : Word) (text : List Char) : Decidable (word.Inside text) :=
  List.decidableInfix _ _

theorem lower_append (a b : List Char) : lower (a ++ b) = lower a ++ lower b := List.map_append

/-- A word is in a rendered chain if it is in one of its texts. -/
theorem inside_render (word : Word) (chain : List (List Char)) :
    word.Inside (render chain) ↔ ∃ text ∈ chain, word.Inside text := by
  induction chain with
  | nil => simpa [Inside, render, lower] using word.ne_nil
  | cons text chain ih =>
    cases chain with
    | nil => simp [render]
    | cons text' chain =>
      have hjoint : lower (render (text :: text' :: chain)) =
          lower text ++ ':' :: ' ' :: lower (render (text' :: chain)) := by
        rw [render, List.intercalate_cons_cons, List.append_assoc, lower_append, lower_append]
        rfl
      rw [Inside, hjoint, infix_append_cons_iff word.colon, infix_cons_iff_of_head? word.head,
        List.exists_mem_cons_iff, ← ih]
      rfl

theorem toLower_of_isDigit {c : Char} (h : c.isDigit = true) : c.toLower = c := by
  have hnot : ¬('A'.val ≤ c.val ∧ c.val ≤ 'Z'.val) := by
    simp only [Char.isDigit, Bool.and_eq_true, decide_eq_true_eq] at h
    rintro ⟨h', -⟩
    exact absurd (UInt32.le_trans h' h.2) (by decide)
  exact dif_neg hnot

/-- A number shows digits only, in any case. -/
theorem lower_toDigits (n : ℕ) : lower (Nat.toDigits 10 n) = Nat.toDigits 10 n := by
  have hsame : ∀ c ∈ Nat.toDigits 10 n, c.toLower = id c := fun c hc =>
    toLower_of_isDigit (Nat.isDigit_of_mem_toDigits (by decide) (by decide) hc)
  rw [lower, List.map_congr_left hsame, List.map_id]

/-- A word is in a text with a number if it is before or behind the number. -/
theorem inside_number (word : Word) (a b : List Char) (n : ℕ) :
    word.Inside (a ++ Nat.toDigits 10 n ++ b) ↔ word.Inside a ∨ word.Inside b := by
  rw [Inside, List.append_assoc, lower_append, lower_append, lower_toDigits]
  refine infix_append_append_iff Nat.toDigits_ne_nil fun c hc hmem => ?_
  have hdigit := Nat.isDigit_of_mem_toDigits (by decide) (by decide) hc
  rw [word.digit c hmem] at hdigit
  cases hdigit

end Word

/-! ## Chains told apart by words -/

/-- A text of a chain contains one of the words. -/
def Found (words : List Word) (chain : List (List Char)) : Prop :=
  ∃ text ∈ chain, ∃ word ∈ words, word.Inside text

instance (words : List Word) (chain : List (List Char)) : Decidable (Found words chain) :=
  List.decidableBEx _ _

section Found

variable {words : List Word} {chain : List (List Char)} {text : List Char}

/-- Words are found in a chain if one of them is in what it renders to. -/
theorem found_iff : Found words chain ↔ ∃ word ∈ words, word.Inside (render chain) := by
  simp only [Found, Word.inside_render]
  exact ⟨fun ⟨text, htext, word, hword, hinside⟩ => ⟨word, hword, text, htext, hinside⟩,
    fun ⟨word, hword, text, htext, hinside⟩ => ⟨text, htext, word, hword, hinside⟩⟩

theorem not_found_nil : ¬Found words [] := by simp [Found]

theorem found_append {more : List (List Char)} :
    Found words (chain ++ more) ↔ Found words chain ∨ Found words more := by
  simp only [Found, List.mem_append, or_and_right, exists_or]

theorem found_cons : Found words (text :: chain) ↔ Found words [text] ∨ Found words chain :=
  @found_append words [text] chain

/-- Nothing is found in a number. -/
theorem found_number (a b : List Char) (n : ℕ) :
    Found words [a ++ Nat.toDigits 10 n ++ b] ↔ Found words [a, b] := by
  have hcons : Found words [a, b] ↔ Found words [a] ∨ Found words [b] := found_cons
  rw [hcons]
  simp only [Found, List.mem_singleton, exists_eq_left, Word.inside_number, and_or_left, exists_or]

end Found
