import Mathlib.Order.MinMax
import Motrix.Lib.LexImage
import Motrix.Lib.Rounding
import Motrix.Plugin.SecuritySelectors

/-!
# The precedence of versions

Versions are written as the grammar of semantic versions says and ordered by
its precedence.  The comparison of the host reads every numeral as a double,
so it is the precedence of the versions with their numerals rounded.
-/

namespace Motrix.Plugin.Security

open Lib Std

/-- What stands for the infinite double: it is above all finite ones. -/
def infinite : Nat :=
  1 <<< 1024

def toDouble (number : Nat) : Nat :=
  min (Rounding.round 53 number) infinite

/-- `Number.parseInt` of decimal digits. -/
def parseInt (numeral : List Char) : Nat :=
  toDouble (Nat.ofDigitChars 10 numeral 0)

theorem toDouble_mono {m n : Nat} (order : m ≤ n) :
    toDouble m ≤ toDouble n :=
  min_le_min (Rounding.round_mono (by decide) order) (Nat.le_refl _)

/-! ## The grammar -/

def isIdentifierLetter (letter : Char) : Bool :=
  letter.isAlphanum || letter == '-'

/-- An identifier of a pre-release. -/
inductive Identifier where
  | number (value : Nat)
  | word (text : List Char)
  deriving DecidableEq

def digits (number : Nat) : List Char :=
  Nat.toDigits 10 number

def Identifier.text : Identifier → List Char
  | number value => digits value
  | word text => text

def Identifier.Proper : Identifier → Prop
  | number _ => True
  | word text => (∀ letter ∈ text, isIdentifierLetter letter = true) ∧
      ∃ letter ∈ text, letter.isDigit = false

/-- A version as its grammar has it. -/
structure Version where
  major : Nat
  minor : Nat
  patch : Nat
  pre : List Identifier
  build : List (List Char)
  proper : ∀ identifier ∈ pre, identifier.Proper
  filled : ∀ part ∈ build, part ≠ [] ∧
    ∀ letter ∈ part, isIdentifierLetter letter = true

def dotted (parts : List (List Char)) : List Char :=
  ['.'].intercalate parts

def Version.text (version : Version) : List Char :=
  dotted [digits version.major, digits version.minor, digits version.patch] ++
    ((if version.pre = [] then []
      else '-' :: dotted (version.pre.map Identifier.text)) ++
    (if version.build = [] then [] else '+' :: dotted version.build))

/-! ## The precedence -/

/-- What versions are compared by, from the front; behind the three numbers
a release stands above every pre-release. -/
inductive Key where
  | number (value : Nat)
  | word (text : List Char)
  | release

namespace Key

/-- Numerals are below words; a shorter word is below what continues it. -/
def compare : Key → Key → Ordering
  | number m, number n => Ord.compare m n
  | number _, _ => .lt
  | word _, number _ => .gt
  | word s, word t => List.compareLex (compareOn Char.toNat) s t
  | word _, release => .lt
  | release, release => .eq
  | release, _ => .gt

instance : OrientedCmp compare where
  eq_swap {a b} := by
    cases a <;> cases b <;> simp only [compare, Ordering.swap]
    · exact OrientedCmp.eq_swap
    · exact OrientedCmp.eq_swap

instance : TransCmp compare where
  isLE_trans {a b c} first second := by
    cases a with
    | number m =>
        cases c with
        | number n =>
            cases b with
            | number _ =>
                exact @TransCmp.isLE_trans Nat Ord.compare _ m _ n first second
            | word _ => cases second
            | release => cases second
        | word _ => rfl
        | release => rfl
    | word s =>
        cases b with
        | number _ => cases first
        | word t =>
            cases c with
            | number _ => cases second
            | word u =>
                exact @TransCmp.isLE_trans _
                  (List.compareLex (compareOn Char.toNat)) _ s t u first second
            | release => rfl
        | release => cases c <;> first | rfl | cases second
    | release =>
        cases b with
        | number _ => cases first
        | word _ => cases first
        | release => exact second

theorem letters_lawful :
    LawfulEqCmp (compareOn Char.toNat) where
  compare_self := compare_self
  eq_of_compare same := by
    exact Char.toNat_inj.mp (LawfulEqCmp.eq_of_compare same)

instance : LawfulEqCmp compare where
  compare_self {a} := by
    have := letters_lawful
    cases a with
    | number m => exact ReflCmp.compare_self
    | word s => exact ReflCmp.compare_self
    | release => rfl
  eq_of_compare {a b} same := by
    have := letters_lawful
    cases a with
    | number m =>
        cases b with
        | number n => exact congrArg number (Nat.compare_eq_eq.mp same)
        | word _ => cases same
        | release => cases same
    | word s =>
        cases b with
        | number _ => cases same
        | word t =>
            exact congrArg word (@LawfulEqCmp.eq_of_compare _
              (List.compareLex (compareOn Char.toNat)) _ s t same)
        | release => cases same
    | release =>
        cases b with
        | number _ => cases same
        | word _ => cases same
        | release => rfl

/-- The key as the host reads it. -/
def read : Key → Key
  | number value => number (toDouble value)
  | key => key

theorem compare_read {a b : Key} (differ : a.read ≠ b.read) :
    compare a.read b.read = compare a b := by
  cases a with
  | number m =>
      cases b with
      | number n =>
          have apart : toDouble m ≠ toDouble n := fun same =>
            differ (congrArg number same)
          show Ord.compare (toDouble m) (toDouble n) = Ord.compare m n
          rcases Nat.lt_or_ge m n with less | more
          · have below := (toDouble_mono less.le).lt_of_ne apart
            rw [Nat.compare_eq_lt.mpr less, Nat.compare_eq_lt.mpr below]
          · have above := (toDouble_mono more).lt_of_ne apart.symm
            have other : n < m := more.lt_of_ne fun same =>
              apart (congrArg toDouble same.symm)
            rw [Nat.compare_eq_gt.mpr other, Nat.compare_eq_gt.mpr above]
      | word _ => rfl
      | release => rfl
  | word _ => cases b <;> rfl
  | release => cases b <;> rfl

end Key

def Identifier.key : Identifier → Key
  | number value => .number value
  | word text => .word text

def Version.keys (version : Version) : List Key :=
  [.number version.major, .number version.minor, .number version.patch] ++
    if version.pre = [] then [.release]
    else version.pre.map Identifier.key

/-- The precedence of semantic versions. -/
def precedence (left right : Version) : Ordering :=
  List.compareLex Key.compare left.keys right.keys

def sign : Ordering → Int
  | .lt => -1
  | .eq => 0
  | .gt => 1

/-! ## Reading a version -/

theorem digits_isDigit {number : Nat} {letter : Char}
    (member : letter ∈ digits number) : letter.isDigit = true :=
  Nat.isDigit_of_mem_toDigits (by decide) (by decide) member

theorem Identifier.letters {identifier : Identifier}
    (proper : identifier.Proper) :
    ∀ letter ∈ identifier.text, isIdentifierLetter letter = true := by
  cases identifier with
  | number value =>
      intro letter member
      simp [isIdentifierLetter, Char.isAlphanum, digits_isDigit member]
  | word text => exact proper.1

theorem Identifier.text_ne_nil {identifier : Identifier}
    (proper : identifier.Proper) : identifier.text ≠ [] := by
  cases identifier with
  | number value => exact Nat.toDigits_ne_nil
  | word text =>
      obtain ⟨letter, member, _⟩ := proper.2
      exact List.ne_nil_of_mem member

theorem mem_dotted {letter : Char} {parts : List (List Char)}
    (member : letter ∈ dotted parts) :
    letter = '.' ∨ ∃ part ∈ parts, letter ∈ part := by
  unfold dotted at member
  induction parts with
  | nil => simp at member
  | cons part parts induction =>
      cases parts with
      | nil => exact .inr ⟨part, List.mem_cons_self, by simpa using member⟩
      | cons next parts =>
          rw [List.intercalate_cons_cons, List.append_assoc,
            List.mem_append] at member
          rcases member with here | later
          · exact .inr ⟨part, List.mem_cons_self, here⟩
          · rcases List.mem_cons.mp later with rfl | later
            · exact .inl rfl
            · rcases induction later with rfl | ⟨other, inside, there⟩
              · exact .inl rfl
              · exact .inr ⟨other, List.mem_cons_of_mem _ inside, there⟩

theorem splitOn_dotted {parts : List (List Char)} (some' : parts ≠ [])
    (clean : ∀ part ∈ parts, '.' ∉ part) :
    (dotted parts).splitOn '.' = parts :=
  List.splitOn_intercalate '.' clean some'

theorem cut_at {mark : Char} {front rest : List Char}
    (clean : mark ∉ front)
    (stops : ∀ letter ∈ rest.head?, letter = mark) :
    (front ++ rest).takeWhile (· != mark) = front ∧
      (front ++ rest).dropWhile (· != mark) = rest := by
  have passes : ∀ letter ∈ front, (letter != mark) = true := by
    intro letter member
    exact bne_iff_ne.mpr fun same => clean (same ▸ member)
  rw [List.takeWhile_append_of_pos passes,
    List.dropWhile_append_of_pos passes]
  cases rest with
  | nil => simp
  | cons letter rest =>
      have same := stops letter rfl
      simp [same]

theorem identifierLetter_ne {letter mark : Char}
    (proper : isIdentifierLetter letter = true)
    (mark' : isIdentifierLetter mark = false) : letter ≠ mark := by
  rintro rfl
  rw [proper] at mark'
  cases mark'

theorem identifierLetter_small {letter : Char}
    (proper : isIdentifierLetter letter = true) : letter.toNat < 0x10000 := by
  simp only [isIdentifierLetter, Char.isAlphanum] at proper
  delta Char.isAlpha Char.isUpper Char.isLower at proper
  simp only [Char.isDigit, Bool.or_eq_true, Bool.and_eq_true,
    decide_eq_true_eq, beq_iff_eq, UInt32.le_iff_toNat_le, ge_iff_le] at proper
  rcases proper with ((upper | lower) | digit) | rfl
  · exact upper.2.trans_lt (by decide)
  · exact lower.2.trans_lt (by decide)
  · exact digit.2.trans_lt (by decide)
  · decide

theorem isNumeric_digits (number : Nat) : isNumeric (digits number) = true := by
  have filled : (digits number).isEmpty = false := by
    rw [List.isEmpty_eq_false_iff]
    exact Nat.toDigits_ne_nil
  simp only [isNumeric, filled, Bool.not_false, Bool.true_and,
    List.all_eq_true]
  exact fun letter member => digits_isDigit member

theorem parseInt_digits (number : Nat) :
    parseInt (digits number) = toDouble number :=
  congrArg toDouble Nat.ofDigitChars_ten_toDigits

namespace Version

variable (version : Version)

def core : List Nat :=
  [version.major, version.minor, version.patch]

theorem core_clean {mark : Char} (dot : mark ≠ '.')
    (other : mark.isDigit = false) :
    mark ∉ dotted (version.core.map digits) := by
  intro member
  rcases mem_dotted member with same | ⟨part, inside, there⟩
  · exact dot same
  · obtain ⟨number, _, rfl⟩ := List.mem_map.mp inside
    rw [digits_isDigit there] at other
    cases other

theorem pre_clean {mark : Char} (dot : mark ≠ '.')
    (other : isIdentifierLetter mark = false) :
    mark ∉ dotted (version.pre.map Identifier.text) := by
  intro member
  rcases mem_dotted member with same | ⟨part, inside, there⟩
  · exact dot same
  · obtain ⟨identifier, listed, rfl⟩ := List.mem_map.mp inside
    have proper := Identifier.letters (version.proper _ listed) _ there
    exact identifierLetter_ne proper other rfl

theorem parse_text :
    parseSemver parseInt version.text =
      ⟨version.core.map fun number => some (toDouble number),
        version.pre.map Identifier.text⟩ := by
  let preText := if version.pre = [] then []
    else '-' :: dotted (version.pre.map Identifier.text)
  have plain : '+' ∉ dotted (version.core.map digits) ++ preText := by
    rw [List.mem_append, not_or]
    constructor
    · exact version.core_clean (by decide) (by decide)
    · unfold preText
      split
      · exact List.not_mem_nil
      · rw [List.mem_cons, not_or]
        exact ⟨by decide, version.pre_clean (by decide) (by decide)⟩
  have noBuild : version.text.takeWhile (· != '+') =
      dotted (version.core.map digits) ++ preText := by
    have cut := (@cut_at '+' _ (if version.build = [] then []
      else '+' :: dotted version.build) plain (by split <;> simp)).1
    rwa [List.append_assoc] at cut
  have cut := @cut_at '-' (dotted (version.core.map digits)) preText
    (version.core_clean (by decide) (by decide))
    (by unfold preText; split <;> simp)
  have numbers : (dotted (version.core.map digits)).splitOn '.' =
      version.core.map digits := by
    apply splitOn_dotted (by simp [core])
    intro part inside member
    obtain ⟨number, _, rfl⟩ := List.mem_map.mp inside
    exact absurd (digits_isDigit member) (by decide)
  unfold parseSemver
  simp only [noBuild, cut.1, cut.2, numbers, List.map_map]
  congr 1
  · apply List.map_congr_left
    intro number _
    simp [isNumeric_digits, parseInt_digits]
  · unfold preText
    by_cases release : version.pre = []
    · simp [release]
    · have filled : version.pre.map Identifier.text ≠ [] := by
        simpa using release
      have clean : ∀ part ∈ version.pre.map Identifier.text, '.' ∉ part := by
        intro part inside member
        obtain ⟨identifier, listed, rfl⟩ := List.mem_map.mp inside
        have proper := Identifier.letters (version.proper _ listed) _ member
        exact absurd proper (by decide)
      have some' : dotted (version.pre.map Identifier.text) ≠ [] := by
        intro empty
        have parts := splitOn_dotted filled clean
        rw [empty] at parts
        cases pre : version.pre with
        | nil => exact release pre
        | cons identifier rest =>
            rw [pre] at parts
            have first : identifier.text = [] := by
              simpa using (List.cons.inj parts).1.symm
            exact Identifier.text_ne_nil (version.proper identifier
              (pre ▸ List.mem_cons_self)) first
      simp [release, some', splitOn_dotted filled clean]

end Version

/-! ## Comparing what was read -/

theorem encode_lt_iff {s t : List Char}
    (first : ∀ letter ∈ s, isIdentifierLetter letter = true)
    (second : ∀ letter ∈ t, isIdentifierLetter letter = true) :
    Utf16.encode t < Utf16.encode s ↔
      List.compareLex (compareOn Char.toNat) s t = .gt := by
  have unit : ∀ letter : Char, isIdentifierLetter letter = true →
      ∀ rest, Utf16.encode (letter :: rest) =
        UInt16.ofNat letter.toNat :: Utf16.encode rest ∧
          letter.toNat < 2 ^ 16 := by
    intro letter proper rest
    have small : letter.toNat < 0x10000 := identifierLetter_small proper
    rw [Utf16.encode_cons, Utf16.encodePoint_small small]
    exact ⟨rfl, small⟩
  induction s generalizing t with
  | nil => cases t <;> simp [List.compareLex_nil_cons, List.compareLex_nil_nil]
  | cons x s induction =>
      obtain ⟨encoded, small⟩ := unit x (first x List.mem_cons_self) s
      cases t with
      | nil => simp [encoded, List.compareLex_cons_nil]
      | cons y t =>
          obtain ⟨encoded', small'⟩ := unit y (second y List.mem_cons_self) t
          have rests : Utf16.encode t < Utf16.encode s ↔
              List.compareLex (compareOn Char.toNat) s t = .gt := by
            apply induction
            · exact fun letter member =>
                first letter (List.mem_cons_of_mem _ member)
            · exact fun letter member =>
                second letter (List.mem_cons_of_mem _ member)
          rw [encoded, encoded', List.cons_lt_cons_iff,
            List.compareLex_cons_cons, rests]
          have order : UInt16.ofNat y.toNat < UInt16.ofNat x.toNat ↔
              y.toNat < x.toNat := by
            rw [UInt16.lt_iff_toNat_lt, UInt16.toNat_ofNat_of_lt' small,
              UInt16.toNat_ofNat_of_lt' small']
          have same : UInt16.ofNat y.toNat = UInt16.ofNat x.toNat ↔
              y.toNat = x.toNat := by
            rw [← UInt16.toNat_inj, UInt16.toNat_ofNat_of_lt' small,
              UInt16.toNat_ofNat_of_lt' small']
          rw [order, same]
          show _ ↔ (Ord.compare x.toNat y.toNat).then _ = _
          rcases Nat.lt_trichotomy x.toNat y.toNat with less | equal | more
          · rw [Nat.compare_eq_lt.mpr less]
            simp [less.not_gt, less.ne']
          · rw [Nat.compare_eq_eq.mpr equal]
            simp [equal]
          · rw [Nat.compare_eq_gt.mpr more]
            simp [more]

theorem word_not_numeric {text : List Char}
    (proper : (Identifier.word text).Proper) : isNumeric text = false := by
  obtain ⟨letter, member, other⟩ := proper.2
  simp only [isNumeric, Bool.and_eq_false_iff]
  right
  rw [List.all_eq_false]
  exact ⟨letter, member, by simp [other]⟩

theorem sign_of_ne {m n : Nat} (differ : m ≠ n) (behind : Ordering) :
    sign ((Ord.compare m n).then behind) = if m > n then 1 else -1 := by
  rcases Nat.lt_or_ge m n with less | more
  · rw [Nat.compare_eq_lt.mpr less]
    simp [less.not_gt, sign]
  · have above : n < m := more.lt_of_ne differ.symm
    rw [Nat.compare_eq_gt.mpr above]
    simp [above, sign]

def readKeys (identifiers : List Identifier) : List Key :=
  identifiers.map fun identifier => identifier.key.read

theorem comparePre_words {s t : List Char} {xs ys : List (List Char)}
    {left right : List Key} (first : (Identifier.word s).Proper)
    (second : (Identifier.word t).Proper)
    (rests : comparePre parseInt xs ys =
      sign (List.compareLex Key.compare left right)) :
    comparePre parseInt (s :: xs) (t :: ys) =
      sign (List.compareLex Key.compare (.word s :: left)
        (.word t :: right)) := by
  have := Key.letters_lawful
  have order := encode_lt_iff first.1 second.1
  rw [List.compareLex_cons_cons]
  simp only [comparePre, word_not_numeric first, word_not_numeric second,
    Bool.false_eq_true, if_false, Key.compare]
  by_cases same : s = t
  · rw [if_neg (not_not.mpr same), same,
      @ReflCmp.compare_self _ (List.compareLex (compareOn Char.toNat))]
    exact rests
  · rw [if_pos same]
    cases decided : List.compareLex (compareOn Char.toNat) s t with
    | lt =>
        rw [if_neg (by rw [order, decided]; simp)]
        rfl
    | eq => exact absurd (LawfulEqCmp.eq_of_compare decided) same
    | gt =>
        rw [if_pos (order.mpr decided)]
        rfl

theorem comparePre_text {xs ys : List Identifier}
    (first : ∀ identifier ∈ xs, identifier.Proper)
    (second : ∀ identifier ∈ ys, identifier.Proper) :
    comparePre parseInt (xs.map Identifier.text) (ys.map Identifier.text) =
      sign (List.compareLex Key.compare (readKeys xs) (readKeys ys)) := by
  induction xs generalizing ys with
  | nil =>
      cases ys <;>
        simp [comparePre, readKeys, sign, List.compareLex_nil_nil,
          List.compareLex_nil_cons]
  | cons x xs induction =>
      cases ys with
      | nil => simp [comparePre, readKeys, sign, List.compareLex_cons_nil]
      | cons y ys =>
          rw [List.forall_mem_cons] at first second
          have rests := induction first.2 second.2
          cases x with
          | number m =>
              cases y with
              | number n =>
                  simp only [List.map_cons, comparePre, readKeys,
                    List.compareLex_cons_cons, Identifier.text,
                    isNumeric_digits, if_true, parseInt_digits,
                    Identifier.key, Key.read, Key.compare]
                  by_cases same : toDouble m = toDouble n
                  · rw [if_neg (not_not.mpr same), same,
                      Nat.compare_eq_eq.mpr rfl]
                    exact rests
                  · rw [if_pos same, sign_of_ne same]
              | word t =>
                  simp [comparePre, readKeys, List.compareLex_cons_cons,
                    Identifier.text, isNumeric_digits, Identifier.key,
                    word_not_numeric second.1, Key.read, Key.compare, sign]
          | word s =>
              cases y with
              | number n =>
                  simp [comparePre, readKeys, List.compareLex_cons_cons,
                    Identifier.text, isNumeric_digits, Identifier.key,
                    word_not_numeric first.1, Key.read, Key.compare, sign]
              | word t =>
                  exact comparePre_words first.1 second.1 rests

theorem compareCore_cons {a b : ParsedSemver} {i m n : Nat}
    {rest : List Nat} (first : a.core[i]? = some (some m))
    (second : b.core[i]? = some (some n)) :
    compareCore a b (i :: rest) =
      if m = n then compareCore a b rest
      else some (if m > n then 1 else -1) := by
  simp only [compareCore, first, second, Option.getD_some, ne_eq, ite_not]

namespace Version

def string (version : Version) : String :=
  String.ofList version.text

/-- The comparison is the precedence of what was read. -/
theorem compareSemver_string (left right : Version) :
    compareSemver parseInt left.string right.string =
      sign (List.compareLex Key.compare (left.keys.map Key.read)
        (right.keys.map Key.read)) := by
  have pres := comparePre_text left.proper right.proper
  unfold compareSemver
  simp only [string, String.toList_ofList, parse_text]
  rw [compareCore_cons (by rfl) (by rfl), compareCore_cons (by rfl) (by rfl),
    compareCore_cons (by rfl) (by rfl)]
  simp only [keys, List.map_cons, List.cons_append, List.nil_append,
    List.compareLex_cons_cons, Key.read, Key.compare]
  by_cases major : toDouble left.major = toDouble right.major
  · by_cases minor : toDouble left.minor = toDouble right.minor
    · by_cases patch : toDouble left.patch = toDouble right.patch
      · simp only [major, minor, patch, if_true, compareCore,
          Nat.compare_eq_eq.mpr, Ordering.eq_then]
        cases first : left.pre with
        | nil =>
            cases second : right.pre with
            | nil => rfl
            | cons y ys => cases y <;> rfl
        | cons x xs =>
            cases second : right.pre with
            | nil => cases x <;> rfl
            | cons y ys =>
                rw [first, second] at pres
                simpa [readKeys, Function.comp_def] using pres
      · simp [major, minor, patch, sign_of_ne]
    · simp [major, minor, sign_of_ne]
  · simp [major, sign_of_ne]

theorem string_ne_empty (version : Version) :
    version.string.isEmpty = false := by
  have filled : version.text ≠ [] := by
    simp [text, dotted, digits, Nat.toDigits_ne_nil]
  simp [string, String.isEmpty_eq_false_iff, filled]

theorem precedence_eq_iff (left right : Version) :
    precedence left right = .eq ↔
      left.core = right.core ∧ left.pre = right.pre := by
  have keys : precedence left right = .eq ↔ left.keys = right.keys :=
    @LawfulEqCmp.compare_eq_iff_eq _ (List.compareLex Key.compare) _ _ _
  have injective : Function.Injective Identifier.key := by
    intro x y same
    cases x <;> cases y <;> simp_all [Identifier.key]
  rw [keys, Version.keys, Version.keys]
  simp only [List.cons_append, List.nil_append, List.cons.injEq,
    Key.number.injEq, core, and_true, and_assoc]
  refine and_congr_right' (and_congr_right' (and_congr_right' ?_))
  cases first : left.pre with
  | nil =>
      cases second : right.pre with
      | nil => simp
      | cons y ys => cases y <;> simp [Identifier.key]
  | cons x xs =>
      cases second : right.pre with
      | nil => cases x <;> simp [Identifier.key]
      | cons y ys => simp [injective.eq_iff, (List.map_injective_iff.mpr
          injective).eq_iff]

end Version

theorem sign_injective : Function.Injective sign := by
  intro first second same
  cases first <;> cases second <;> first | rfl | cases same

theorem sign_swap (order : Ordering) : sign order.swap = -sign order := by
  cases order <;> rfl

theorem sign_isLE (order : Ordering) : sign order ≤ 0 ↔ order.isLE := by
  cases order <;> decide

/-- The comparison is the precedence exactly where the numerals, read as
doubles, show it; it is an order of all versions, and between two bounds that
they show lie the versions of a range. -/
theorem compareSemver_precedes_iff (left right : Version) :
    (compareSemver parseInt left.string right.string =
        sign (precedence left right) ↔
      ShowsOrder Key.compare Key.read left.keys right.keys) ∧
    (precedence left right = .eq ↔
      left.core = right.core ∧ left.pre = right.pre) ∧
    compareSemver parseInt right.string left.string =
      -compareSemver parseInt left.string right.string ∧
    (∀ third : Version,
      compareSemver parseInt left.string right.string ≤ 0 →
      compareSemver parseInt right.string third.string ≤ 0 →
        compareSemver parseInt left.string third.string ≤ 0) ∧
    ∀ (version : Version) (pluginId : String) (archive : Option String),
      ShowsOrder Key.compare Key.read version.keys left.keys →
      ShowsOrder Key.compare Key.read version.keys right.keys →
        (Selector.selects parseInt ⟨pluginId, version.string, archive⟩
            (.plugin pluginId (some left.string) (some right.string)) ↔
          precedence version left ≠ .lt ∧
            precedence version right = .lt) := by
  have shown : ∀ v w : Version,
      compareSemver parseInt v.string w.string = sign (precedence v w) ↔
        ShowsOrder Key.compare Key.read v.keys w.keys := by
    intro v w
    rw [Version.compareSemver_string, sign_injective.eq_iff]
    exact compareLex_map_iff (fun _ _ => Key.compare_read) _ _
  refine ⟨shown left right, Version.precedence_eq_iff left right, ?_, ?_, ?_⟩
  · rw [Version.compareSemver_string, Version.compareSemver_string,
      ← sign_swap]
    exact congrArg sign OrientedCmp.eq_swap
  · intro third
    simp only [Version.compareSemver_string, sign_isLE]
    exact TransCmp.isLE_trans
  · intro version pluginId archive low high
    have least := (shown version left).mpr low
    have bound := (shown version right).mpr high
    simp only [Selector.selects, Option.all_some, Version.string_ne_empty,
      least, bound, beq_self_eq_true, Bool.true_and, Bool.false_or,
      Bool.and_eq_true, decide_eq_true_eq]
    exact and_congr (by cases precedence version left <;> decide)
      (by cases precedence version right <;> decide)

def released (major minor patch : Nat) : Version where
  major := major
  minor := minor
  patch := patch
  pre := []
  build := []
  proper := by simp
  filled := by simp

/-- The larger patch number is read as the double below it. -/
theorem patchNumerals_equal :
    precedence (released 1 0 9007199254740992)
        (released 1 0 9007199254740993) = .lt ∧
      compareSemver parseInt (released 1 0 9007199254740992).string
        (released 1 0 9007199254740993).string = 0 := by
  constructor
  · rfl
  · rw [Version.compareSemver_string]
    rfl

end Motrix.Plugin.Security
