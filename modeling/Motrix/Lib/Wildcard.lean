import Mathlib.Data.List.Infix

/-!
# Wildcard patterns as regular expressions

A pattern in which only the asterisk is special is compiled to the text of an
anchored regular expression: syntax characters are escaped, and the asterisk
becomes the expression for any text within a line.
-/

namespace Motrix.Lib.Wildcard

/-- The texts of a pattern: an asterisk stands for any text, everything else
for itself. -/
inductive Glob : List Char → List Char → Prop where
  | nil : Glob [] []
  | letter {letter : Char} {pattern text : List Char} (plain : letter ≠ '*') :
      Glob pattern text → Glob (letter :: pattern) (letter :: text)
  | star {pattern text : List Char} (skipped : List Char) :
      Glob pattern text → Glob ('*' :: pattern) (skipped ++ text)

/-! ## Regular expressions without classes and groups -/

inductive Term where
  | letter (letter : Char)
  | anything
deriving DecidableEq

def isSyntax (letter : Char) : Bool :=
  ['^', '$', '\\', '.', '*', '+', '?', '(', ')', '[', ']', '{', '}',
    '|'].contains letter

def lineTerminator (letter : Char) : Bool :=
  [0x0a, 0x0d, 0x2028, 0x2029].contains letter.toNat

/-- The terms up to the end mark.  A syntax character stands alone only in
`.*` and as the end mark. -/
def terms : List Char → Option (List Term)
  | [] => none
  | '\\' :: letter :: rest =>
      if isSyntax letter || letter == '/' then
        (terms rest).map (.letter letter :: ·)
      else none
  | '.' :: '*' :: rest => (terms rest).map (.anything :: ·)
  | letter :: rest =>
      if letter = '$' ∧ rest = [] then some []
      else if isSyntax letter then none
      else (terms rest).map (.letter letter :: ·)

/-- What a dot repeated may leave: it does not pass the end of a line. -/
def reach : List Char → List (List Char)
  | [] => [[]]
  | letter :: rest =>
      (letter :: rest) :: if lineTerminator letter then [] else reach rest

def accepts : List Term → List Char → Bool
  | [], text => text.isEmpty
  | .letter _ :: _, [] => false
  | .letter expected :: rest, letter :: text =>
      expected == letter && accepts rest text
  | .anything :: rest, text => (reach text).any (accepts rest)

/-- The test of an anchored expression. -/
def test : List Char → List Char → Bool
  | '^' :: expression, text =>
      match terms expression with
      | some parsed => accepts parsed text
      | none => false
  | _, _ => false

/-! ## Compiling a pattern -/

def escape (pattern : List Char) : List Char :=
  pattern.flatMap fun letter =>
    if letter ≠ '*' ∧ isSyntax letter then ['\\', letter] else [letter]

def expandStars (pattern : List Char) : List Char :=
  pattern.flatMap fun letter =>
    if letter = '*' then ['.', '*'] else [letter]

def compile (pattern : List Char) : List Char :=
  '^' :: expandStars (escape pattern) ++ ['$']

def term (letter : Char) : Term :=
  if letter = '*' then .anything else .letter letter

theorem expandStars_cons (letter : Char) (rest : List Char) :
    expandStars (letter :: rest) =
      (if letter = '*' then ['.', '*'] else [letter]) ++ expandStars rest :=
  List.flatMap_cons

theorem compiled_cons (letter : Char) (rest : List Char) :
    expandStars (escape (letter :: rest)) =
      (if letter = '*' then ['.', '*']
        else if isSyntax letter then ['\\', letter]
        else [letter]) ++ expandStars (escape rest) := by
  unfold escape
  rw [List.flatMap_cons]
  by_cases star : letter = '*'
  · simp [star, expandStars_cons]
  · cases special : isSyntax letter <;>
      simp [star, expandStars_cons]

/-- The compiled text is read back as the letters and wildcards of the
pattern. -/
theorem terms_compiled (pattern : List Char) :
    terms (expandStars (escape pattern) ++ ['$']) =
      some (pattern.map term) := by
  induction pattern with
  | nil => rfl
  | cons letter rest induction =>
      rw [compiled_cons]
      by_cases star : letter = '*'
      · subst star
        simp [terms, term, induction]
      · rw [if_neg star]
        cases special : isSyntax letter with
        | true => simp [terms, special, term, star, induction]
        | false =>
            have backslash : letter ≠ '\\' := by
              rintro rfl
              cases special
            have dot : letter ≠ '.' := by
              rintro rfl
              cases special
            have end' : letter ≠ '$' := by
              rintro rfl
              cases special
            rw [if_neg Bool.false_ne_true, List.singleton_append,
              List.cons_append, terms.eq_def]
            simp [backslash, dot, end', special, term, star, induction]

theorem reach_iff {text rest : List Char}
    (line : ∀ letter ∈ text, lineTerminator letter = false) :
    rest ∈ reach text ↔ rest <:+ text := by
  induction text with
  | nil => simp [reach]
  | cons letter text induction =>
      have first := line letter List.mem_cons_self
      have later := induction fun other member =>
        line other (List.mem_cons_of_mem _ member)
      simp [reach, first, later, List.suffix_cons_iff]

theorem accepts_iff (pattern : List Char) {text : List Char}
    (line : ∀ letter ∈ text, lineTerminator letter = false) :
    accepts (pattern.map term) text = true ↔ Glob pattern text := by
  induction pattern generalizing text with
  | nil =>
      constructor
      · intro empty
        rw [List.isEmpty_iff.mp empty]
        exact .nil
      · rintro ⟨⟩
        rfl
  | cons letter rest induction =>
      by_cases star : letter = '*'
      · subst star
        simp only [List.map_cons, term, if_pos, accepts, List.any_eq_true]
        constructor
        · rintro ⟨left, reached, accepted⟩
          obtain ⟨skipped, rfl⟩ := (reach_iff line).mp reached
          apply Glob.star skipped
          apply (induction _).mp accepted
          intro other member
          exact line other (List.mem_append_right _ member)
        · intro glob
          cases glob with
          | letter plain => exact absurd rfl plain
          | star skipped glob =>
              refine ⟨_, (reach_iff line).mpr ⟨skipped, rfl⟩, ?_⟩
              apply (induction _).mpr glob
              intro other member
              exact line other (List.mem_append_right _ member)
      · cases text with
        | nil =>
            simp only [List.map_cons, term, if_neg star, accepts,
              Bool.false_eq_true, false_iff]
            intro glob
            generalize empty : ([] : List Char) = whole at glob
            cases glob with
            | letter => cases empty
            | star => exact star rfl
        | cons other text =>
            have inner := induction fun later member =>
              line later (List.mem_cons_of_mem _ member)
            simp only [List.map_cons, term, if_neg star, accepts,
              Bool.and_eq_true, beq_iff_eq]
            constructor
            · rintro ⟨rfl, accepted⟩
              exact .letter star (inner.mp accepted)
            · intro glob
              generalize written : other :: text = whole at glob
              cases glob with
              | letter plain glob =>
                  cases written
                  exact ⟨rfl, inner.mpr glob⟩
              | star => exact absurd rfl star

/-- Within a line the compiled expression matches what the pattern means. -/
theorem test_compile (pattern : List Char) {text : List Char}
    (line : ∀ letter ∈ text, lineTerminator letter = false) :
    test (compile pattern) text = true ↔ Glob pattern text := by
  simp only [compile, test, List.cons_append, terms_compiled]
  exact accepts_iff pattern line

end Motrix.Lib.Wildcard
