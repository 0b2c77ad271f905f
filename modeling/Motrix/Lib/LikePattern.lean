import Mathlib.Data.List.Infix

/-!
# LIKE patterns

A pattern of letters has a wildcard for any text, one for any letter, and an
escape that takes the letter behind it for itself.  Letters are compared up
to a folding.
-/

namespace Motrix.Lib.LikePattern

/-- The special letters of a pattern and the folding of letters. -/
structure Alphabet (Letter : Type) where
  many : Letter
  one : Letter
  escape : Letter
  fold : Letter → Letter
  one_many : one ≠ many
  escape_many : escape ≠ many
  escape_one : escape ≠ one

inductive Token (Letter : Type) where
  | many
  | one
  | letter (letter : Letter)
  | never

section Matching

variable {Letter : Type} [DecidableEq Letter]

namespace Alphabet

variable (alphabet : Alphabet Letter)

/-- An escape at the end of a pattern matches nothing. -/
def tokens : List Letter → List (Token Letter)
  | [] => []
  | letter :: rest =>
      if letter = alphabet.escape then
        match rest with
        | [] => [.never]
        | escaped :: rest => .letter escaped :: tokens rest
      else if letter = alphabet.many then .many :: tokens rest
      else if letter = alphabet.one then .one :: tokens rest
      else .letter letter :: tokens rest

def accepts : List (Token Letter) → List Letter → Bool
  | [], text => text.isEmpty
  | .many :: rest, text => text.tails.any (accepts rest)
  | .one :: _, [] => false
  | .one :: rest, _ :: text => accepts rest text
  | .letter _ :: _, [] => false
  | .letter expected :: rest, letter :: text =>
      alphabet.fold expected = alphabet.fold letter && accepts rest text
  | .never :: _, _ => false

def isMatch (pattern text : List Letter) : Bool :=
  alphabet.accepts (alphabet.tokens pattern) text

def isSpecial (letter : Letter) : Bool :=
  letter = alphabet.escape || letter = alphabet.many || letter = alphabet.one

/-- Every special letter is escaped. -/
def literally (text : List Letter) : List Letter :=
  text.flatMap fun letter =>
    if alphabet.isSpecial letter then [alphabet.escape, letter] else [letter]

variable {alphabet}

theorem tokens_literally (text rest : List Letter) :
    alphabet.tokens (alphabet.literally text ++ rest) =
      text.map Token.letter ++ alphabet.tokens rest := by
  induction text with
  | nil => rfl
  | cons letter text induction =>
      unfold literally at induction ⊢
      rw [List.flatMap_cons, List.append_assoc]
      by_cases special : alphabet.isSpecial letter = true
      · simp [special, tokens, induction]
      · rw [if_neg special]
        simp only [isSpecial, Bool.or_eq_true, decide_eq_true_eq,
          not_or] at special
        rw [List.singleton_append, tokens.eq_def]
        simp [special, induction]

theorem tokens_many : alphabet.tokens [alphabet.many] = [.many] := by
  simp [tokens, alphabet.escape_many.symm]

theorem accepts_many (text : List Letter) :
    alphabet.accepts [.many] text = true := by
  simp only [accepts, List.any_eq_true, List.mem_tails]
  exact ⟨[], List.nil_suffix, rfl⟩

theorem accepts_letters (start text : List Letter) :
    alphabet.accepts (start.map Token.letter ++ [.many]) text = true ↔
      start.map alphabet.fold <+: text.map alphabet.fold := by
  induction start generalizing text with
  | nil => simp [accepts_many]
  | cons letter start induction =>
      cases text with
      | nil => simp [accepts]
      | cons other text => simp [accepts, induction]

/-- Behind an escaped text stands any other: the match is that of a prefix,
up to the folding. -/
theorem isMatch_literally (start text : List Letter) :
    alphabet.isMatch (alphabet.literally start ++ [alphabet.many]) text =
        true ↔
      start.map alphabet.fold <+: text.map alphabet.fold := by
  rw [isMatch, tokens_literally, tokens_many, accepts_letters]

end Alphabet

end Matching

end Motrix.Lib.LikePattern
