import Motrix.Lib.Scan
import Motrix.Media.HlsParser

/-!
# Attribute lists

The attribute lists of a playlist: names with quoted or plain values, put
together with commas.
-/

namespace Motrix.Media

open Motrix.Lib

/-- `[A-Z0-9-]` -/
def isNameLetter (character : Char) : Bool :=
  let code := character.toNat
  (65 ≤ code && code ≤ 90) || (48 ≤ code && code ≤ 57) || code == 45

structure AttrName where
  text : String
  filled : text.toList ≠ []
  letters : ∀ letter ∈ text.toList, isNameLetter letter = true

/-- A quoted value holds any characters but a double quote; a plain one holds
neither quotes, nor commas, nor spaces. -/
inductive AttrValue where
  | quoted (body : Text) (unquoted : '"' ∉ body)
  | plain (text : Text)
      (clean : ∀ character ∈ text, character ≠ '"' ∧ character ≠ ',' ∧
        isSpace character = false)

namespace AttrValue

/-- What a reader of the list means by the value. -/
def text : AttrValue → Text
  | quoted body _ => body
  | plain text _ => text

def render : AttrValue → Text
  | quoted body _ => '"' :: body ++ ['"']
  | plain text _ => text

end AttrValue

structure Attribute where
  name : AttrName
  value : AttrValue

def Attribute.render (item : Attribute) : Text :=
  item.name.text.toList ++ '=' :: item.value.render

/-- The attributes behind a first one. -/
def renderRest (attributes : List Attribute) : Text :=
  attributes.flatMap fun item => ',' :: item.render

def renderAttributes : List Attribute → Text
  | [] => []
  | first :: rest => first.render ++ renderRest rest

/-- A list that gives no name twice. -/
structure AttributeList where
  attributes : List Attribute
  distinct : (attributes.map (·.name.text)).Nodup

namespace AttributeList

def render (list : AttributeList) : Text :=
  renderAttributes list.attributes

/-- The attribute whose whole name is the name. -/
def lookup (list : AttributeList) (name : AttrName) : Option Attribute :=
  list.attributes.find? (·.name.text = name.text)

end AttributeList

/-! ## Places where a name stands -/

/-- The name and an equals sign. -/
def AttrName.mark (name : AttrName) : Text :=
  name.text.toList ++ ['=']

/-- What follows the first `NAME=` inside a text. -/
def hidden (name : AttrName) (text : Text) : Option Text :=
  firstPlace (afterWord name.mark) text

/-- The text ends in `NAME=`. -/
def endsInMark (name : AttrName) (text : Text) : Bool :=
  (firstPlace (fun tail => (afterWord name.mark tail).filter (·.isEmpty))
    text).isSome

namespace Attribute

/-- The name of the attribute ends in the name. -/
def endsIn (item : Attribute) (name : AttrName) : Bool :=
  name.text.toList.isSuffixOf item.name.text.toList

/-- `NAME=` stands somewhere in the attribute. -/
def mentions (item : Attribute) (name : AttrName) : Bool :=
  item.endsIn name || (hidden name item.value.text).isSome

end Attribute

/-- The text up to the next quoted value, if there is one. -/
def upToQuote : List Attribute → Option Text
  | [] => none
  | ⟨name, .quoted _ _⟩ :: _ => some (',' :: name.text.toList ++ ['='])
  | ⟨name, .plain text _⟩ :: rest =>
      (upToQuote rest).map fun further =>
        ',' :: name.text.toList ++ '=' :: text ++ further

/-- What stands at the first `NAME="` up to the next quote. -/
def quotedPlace (name : AttrName) : List Attribute → Option Text
  | [] => none
  | ⟨_, .plain _ _⟩ :: rest => quotedPlace name rest
  | ⟨own, .quoted body unquoted⟩ :: rest =>
      if Attribute.endsIn ⟨own, .quoted body unquoted⟩ name then some body
      else if endsInMark name body then
        (upToQuote rest).or (quotedPlace name rest)
      else quotedPlace name rest

/-- What stands at the first `NAME=` up to the next comma. -/
def plainPlace (name : AttrName) : List Attribute → Option Text
  | [] => none
  | item :: rest =>
      if item.endsIn name then
        some (item.value.render.takeWhile (· ≠ ','))
      else
        match item.value, hidden name item.value.text with
        | .plain _ _, some text => some text
        | .quoted _ _, some text =>
            some ((text ++ ['"']).takeWhile (· ≠ ','))
        | _, none => plainPlace name rest

/-- The attribute of the name is what the name is read at: no text `NAME=` is
taken for it that stands at the end of a longer name or inside a value. -/
def Unmistaken (list : AttributeList) (name : AttrName) : Prop :=
  match list.lookup name with
  | none => ∀ item ∈ list.attributes, item.mentions name = false
  | some own =>
      match quotedPlace name list.attributes with
      | some text => text = own.value.text
      | none =>
          (plainPlace name list.attributes).map trim = some own.value.text

end Motrix.Media

/-!
# Reading attribute lists

A name stands at the end of a name of the list or inside a value.  So the
first place where it is read follows the structure of the list.
-/

namespace Motrix.Media

open Motrix.Lib

/-! ## Letters -/

/-- A letter of a name is known by its small form, and no letter is a sign
of the list. -/
theorem isNameLetter_table : ∀ code < 91,
    isNameLetter (Char.ofNat code) = true →
      (if 97 ≤ (Char.ofNat code).toLower.toNat then
          (Char.ofNat code).toLower.toNat - 32
        else (Char.ofNat code).toLower.toNat) = code ∧
      (Char.ofNat code).toLower ≠ '=' ∧ (Char.ofNat code).toLower ≠ '"' ∧
        (Char.ofNat code).toLower ≠ ',' := by
  decide

theorem isNameLetter_lt {letter : Char} (named : isNameLetter letter = true) :
    letter.toNat < 91 := by
  unfold isNameLetter at named
  simp only [Bool.or_eq_true, Bool.and_eq_true, decide_eq_true_eq,
    beq_iff_eq] at named
  omega

theorem toLower_signs {letter : Char} (named : isNameLetter letter = true) :
    letter.toLower ≠ '=' ∧ letter.toLower ≠ '"' ∧ letter.toLower ≠ ',' := by
  have signs := isNameLetter_table letter.toNat (isNameLetter_lt named)
  rw [Char.ofNat_toNat] at signs
  exact (signs named).2

theorem toLower_injective {left right : Char}
    (leftNamed : isNameLetter left = true)
    (rightNamed : isNameLetter right = true)
    (same : left.toLower = right.toLower) : left = right := by
  have leftCode := isNameLetter_table left.toNat (isNameLetter_lt leftNamed)
  have rightCode :=
    isNameLetter_table right.toNat (isNameLetter_lt rightNamed)
  rw [Char.ofNat_toNat] at leftCode rightCode
  have codes := (leftCode leftNamed).1.symm.trans
    ((congrArg (fun letter : Char =>
      if 97 ≤ letter.toNat then letter.toNat - 32 else letter.toNat)
      same).trans (rightCode rightNamed).1)
  rw [← Char.ofNat_toNat left, codes, Char.ofNat_toNat]

/-! ## Words -/

theorem afterWord_append (left right text : Text) :
    afterWord (left ++ right) text =
      (afterWord left text).bind (afterWord right) := by
  induction left generalizing text with
  | nil => rfl
  | cons letter left induction =>
      cases text with
      | nil => rfl
      | cons character text =>
          rw [List.cons_append, afterWord, afterWord]
          split
          · exact induction text
          · rfl

/-- A word ends before a sign that it does not contain. -/
theorem afterWord_stop {word : Text} {sign : Char}
    (absent : ∀ letter ∈ word, letter.toLower ≠ sign.toLower)
    (text rest : Text) :
    afterWord word (text ++ sign :: rest) =
      (afterWord word text).map (· ++ sign :: rest) := by
  induction word generalizing text with
  | nil => rfl
  | cons letter word induction =>
      have later := induction fun other inside =>
        absent other (List.mem_cons_of_mem letter inside)
      cases text with
      | nil =>
          have different := absent letter List.mem_cons_self
          simp [afterWord, different]
      | cons character text =>
          rw [List.cons_append, afterWord, afterWord]
          split
          · exact later text
          · rfl

theorem afterWord_letters {word text : Text}
    (wordNamed : ∀ letter ∈ word, isNameLetter letter = true)
    (textNamed : ∀ letter ∈ text, isNameLetter letter = true) (rest : Text) :
    afterWord word text = some rest ↔ text = word ++ rest := by
  induction word generalizing text with
  | nil =>
      rw [afterWord, Option.some.injEq, List.nil_append]
  | cons letter word induction =>
      cases text with
      | nil => simp [afterWord]
      | cons character text =>
          have later := @induction text
            (fun other inside =>
              wordNamed other (List.mem_cons_of_mem letter inside))
            (fun other inside =>
              textNamed other (List.mem_cons_of_mem character inside))
          rw [afterWord, List.cons_append, List.cons.injEq]
          by_cases same : letter = character
          · rw [if_pos (by rw [same]; exact beq_self_eq_true _), later]
            constructor
            · exact fun equal => ⟨same.symm, equal⟩
            · exact fun both => both.2
          · have different : ¬ (letter.toLower == character.toLower) = true := by
              intro equal
              exact same (toLower_injective
                (wordNamed letter List.mem_cons_self)
                (textNamed character List.mem_cons_self) (beq_iff_eq.mp equal))
            rw [if_neg different]
            constructor
            · intro found
              cases found
            · exact fun both => absurd both.1.symm same

section Name

variable (name : AttrName)

theorem mark_stop {sign : Char} (other : sign = '"' ∨ sign = ',') :
    ∀ letter ∈ name.mark, letter.toLower ≠ sign.toLower := by
  intro letter inside
  rcases List.mem_append.mp inside with named | equals
  · have signs := toLower_signs (name.letters letter named)
    rcases other with same | same
    · exact same ▸ signs.2.1
    · exact same ▸ signs.2.2
  · rw [List.mem_singleton.mp equals]
    rcases other with same | same
    · exact same ▸ by decide
    · exact same ▸ by decide

/-- Behind letters and an equals sign the mark is found exactly where the
letters are the name. -/
theorem afterWord_mark {text : Text}
    (named : ∀ letter ∈ text, isNameLetter letter = true) (rest : Text) :
    afterWord name.mark (text ++ '=' :: rest) =
      if text = name.text.toList then some rest else none := by
  have stop : ∀ letter ∈ name.text.toList,
      letter.toLower ≠ ('=' : Char).toLower := fun letter inside =>
    (toLower_signs (name.letters letter inside)).1
  rw [AttrName.mark, afterWord_append, afterWord_stop stop]
  cases found : afterWord name.text.toList text with
  | none =>
      have different : text ≠ name.text.toList := by
        intro same
        have whole := (afterWord_letters name.letters named []).mpr
          (by rw [List.append_nil, same])
        rw [whole] at found
        cases found
      rw [if_neg different]
      rfl
  | some further =>
      have split := (afterWord_letters name.letters named further).mp found
      cases further with
      | nil =>
          rw [if_pos (by rw [split, List.append_nil])]
          rfl
      | cons letter further =>
          have longer : text ≠ name.text.toList := by
            intro same
            rw [same] at split
            have length := congrArg List.length split
            simp at length
          have letterNamed := named letter (split ▸
            List.mem_append_right _ List.mem_cons_self)
          have different := (toLower_signs letterNamed).1
          rw [if_neg longer, Option.map_some, Option.bind_some,
            List.cons_append, afterWord,
            if_neg (by simpa using Ne.symm different)]

/-- No mark starts at a sign of the list. -/
theorem afterWord_mark_sign {sign : Char}
    (other : sign = '"' ∨ sign = ',' ∨ sign = '=') (rest : Text) :
    afterWord name.mark (sign :: rest) = none := by
  cases letters : name.text.toList with
  | nil => exact absurd letters name.filled
  | cons letter further =>
      have signs := toLower_signs (name.letters letter
        (letters ▸ List.mem_cons_self))
      have different : letter.toLower ≠ sign.toLower := by
        rcases other with same | same | same
        · exact same ▸ signs.2.1
        · exact same ▸ signs.2.2
        · exact same ▸ signs.1
      rw [AttrName.mark, letters, List.cons_append, afterWord,
        if_neg (by simpa using different)]

/-! ## Places of an attribute -/

/-- The reading of a regular expression `NAME=` with a value behind it. -/
def readMark (value : Text → Option Text) (tail : Text) : Option Text :=
  (afterWord name.mark tail).bind value

theorem findAttr_eq_firstPlace (value : Text → Option Text) (text : Text) :
    findAttr name.text value text = firstPlace (readMark name value) text := by
  unfold findAttr firstPlace readMark AttrName.mark
  rw [String.toList_append]
  rfl

variable {name} {value : Text → Option Text}

theorem readMark_sign {sign : Char}
    (other : sign = '"' ∨ sign = ',' ∨ sign = '=') (rest : Text) :
    readMark name value (sign :: rest) = none := by
  unfold readMark
  rw [afterWord_mark_sign name other]
  rfl

/-- In a name the mark is read where its letters end the name. -/
theorem firstWithin_name {letters : Text}
    (named : ∀ letter ∈ letters, isNameLetter letter = true) (rest : Text) :
    firstWithin (readMark name value) letters ('=' :: rest) =
      if name.text.toList.isSuffixOf letters then value rest else none := by
  induction letters with
  | nil =>
      have filled : ¬ name.text.toList.isSuffixOf [] = true := by
        rw [List.isSuffixOf_iff_suffix, List.suffix_nil]
        exact name.filled
      rw [if_neg filled]
      rfl
  | cons letter letters induction =>
      rw [firstWithin, induction fun other inside =>
        named other (List.mem_cons_of_mem letter inside), readMark,
        afterWord_mark name named]
      by_cases whole : letter :: letters = name.text.toList
      · have suffix : name.text.toList.isSuffixOf (letter :: letters) = true := by
          rw [List.isSuffixOf_iff_suffix, whole]
        have shorter : ¬ name.text.toList.isSuffixOf letters = true := by
          rw [List.isSuffixOf_iff_suffix, ← whole]
          intro within
          have length := within.length_le
          simp at length
        rw [if_pos whole, if_pos suffix, if_neg shorter, Option.or_none]
        rfl
      · rw [if_neg whole]
        have same : name.text.toList.isSuffixOf (letter :: letters) =
            name.text.toList.isSuffixOf letters := by
          rw [Bool.eq_iff_iff, List.isSuffixOf_iff_suffix,
            List.isSuffixOf_iff_suffix, List.suffix_cons_iff]
          constructor
          · rintro (equal | within)
            · exact absurd equal.symm whole
            · exact within
          · exact .inr
        rw [same]
        rfl

/-- The name and the equals sign of an attribute. -/
theorem firstWithin_attribute (item : Attribute) (rest : Text) :
    firstWithin (readMark name value) item.render rest =
      (if item.endsIn name then value (item.value.render ++ rest)
        else none).or
        (firstWithin (readMark name value) item.value.render rest) := by
  unfold Attribute.render
  rw [firstWithin_append, List.cons_append,
    firstWithin_name item.name.letters, firstWithin,
    List.cons_append, readMark_sign (.inr (.inr rfl)), Option.none_or]
  rfl

/-- The body between the quotes. -/
theorem firstWithin_quoted (body : Text) (rest : Text) :
    firstWithin (readMark name value) ('"' :: body ++ ['"']) rest =
      firstWithin (readMark name value) body ('"' :: rest) := by
  rw [List.cons_append, firstWithin, List.cons_append,
    readMark_sign (.inl rfl), Option.none_or, firstWithin_append,
    firstWithin, List.cons_append, readMark_sign (.inl rfl), Option.none_or]
  exact Option.or_none

theorem firstPlace_renderRest_cons (item : Attribute)
    (items : List Attribute) :
    firstPlace (readMark name value) (renderRest (item :: items)) =
      firstPlace (readMark name value) (item.render ++ renderRest items) := by
  unfold renderRest
  rw [List.flatMap_cons, List.cons_append, firstPlace_cons,
    readMark_sign (.inr (.inl rfl)), Option.none_or]

theorem firstPlace_renderAttributes (items : List Attribute) :
    firstPlace (readMark name value) (renderAttributes items) =
      firstPlace (readMark name value) (renderRest items) := by
  cases items with
  | nil => rfl
  | cons item items => exact (firstPlace_renderRest_cons item items).symm

/-! ## Quoted places -/

theorem afterWord_suffix {word text rest : Text}
    (found : afterWord word text = some rest) : rest <:+ text := by
  induction word generalizing text with
  | nil =>
      cases found
      exact List.suffix_refl _
  | cons letter word induction =>
      cases text with
      | nil => cases found
      | cons character text =>
          rw [afterWord] at found
          split at found
          · exact (induction found).trans (List.suffix_cons _ _)
          · cases found

theorem renderRest_follows (items : List Attribute) :
    renderRest items = [] ∨ ∃ more, renderRest items = ',' :: more := by
  cases items with
  | nil => exact .inl rfl
  | cons item items => exact .inr ⟨_, rfl⟩

theorem quotedValue_eq_none {text : Text} (other : text.head? ≠ some '"') :
    quotedValue text = none := by
  unfold quotedValue
  split
  · exact absurd rfl other
  · rfl

theorem quotedValue_plain {text : Text} (unquoted : '"' ∉ text)
    (items : List Attribute) :
    quotedValue (text ++ renderRest items) = none := by
  apply quotedValue_eq_none
  cases text with
  | nil =>
      rcases renderRest_follows items with empty | ⟨more, follows⟩
      · simp [empty]
      · simp [follows]
  | cons character text =>
      intro same
      have equal : character = '"' := Option.some.inj same
      exact unquoted (equal ▸ List.mem_cons_self)

/-- A mark does not go on behind an attribute. -/
theorem afterWord_renderRest (text : Text) (items : List Attribute) :
    afterWord name.mark (text ++ renderRest items) =
      (afterWord name.mark text).map (· ++ renderRest items) := by
  rcases renderRest_follows items with empty | ⟨more, follows⟩
  · simp [empty]
  · rw [follows, afterWord_stop (mark_stop name (.inr rfl))]

/-- Only a mark at the end of the body is followed by a quote. -/
theorem readMark_body {body : Text} (unquoted : '"' ∉ body) (rest : Text) :
    readMark name quotedValue (body ++ '"' :: rest) =
      ((afterWord name.mark body).filter (·.isEmpty)).bind fun _ =>
        quotedValue ('"' :: rest) := by
  unfold readMark
  rw [afterWord_stop (mark_stop name (.inl rfl))]
  cases found : afterWord name.mark body with
  | none => rfl
  | some further =>
      have inner : '"' ∉ further := fun inside =>
        unquoted ((afterWord_suffix found).subset inside)
      cases further with
      | nil => rfl
      | cons character further =>
          have different : character ≠ '"' := fun same =>
            inner (same ▸ List.mem_cons_self)
          have blank : quotedValue (character :: further ++ '"' :: rest) =
              none := by
            apply quotedValue_eq_none
            simpa using different
          rw [Option.map_some, Option.bind_some, blank]
          rfl

theorem firstWithin_body {body : Text} (unquoted : '"' ∉ body)
    (rest : Text) :
    firstWithin (readMark name quotedValue) body ('"' :: rest) =
      if endsInMark name body then quotedValue ('"' :: rest) else none := by
  have read : ∀ suffix : Text, suffix ≠ [] → suffix <:+ body →
      readMark name quotedValue (suffix ++ '"' :: rest) =
        ((afterWord name.mark suffix).filter (·.isEmpty)).bind fun _ =>
          quotedValue ('"' :: rest) := fun suffix _ within =>
    readMark_body (fun inside => unquoted (within.subset inside)) rest
  have blank : (afterWord name.mark []).filter (·.isEmpty) = none := by
    unfold AttrName.mark
    cases name.text.toList <;> rfl
  cases next : quotedValue ('"' :: rest) with
  | none =>
      rw [next] at read
      rw [firstWithin_eq_none]
      · split <;> rfl
      · intro suffix filled within
        rw [read suffix filled within]
        cases (afterWord name.mark suffix).filter (·.isEmpty) <;> rfl
  | some text =>
      rw [next] at read
      have mapped : firstWithin (readMark name quotedValue) body
          ('"' :: rest) = (firstPlace (fun tail =>
            (afterWord name.mark tail).filter (·.isEmpty)) body).map
              fun _ => text := by
        apply firstWithin_eq_map blank
        intro suffix filled within
        rw [read suffix filled within]
        cases (afterWord name.mark suffix).filter (·.isEmpty) <;> rfl
      rw [mapped, endsInMark]
      cases firstPlace (fun tail =>
        (afterWord name.mark tail).filter (·.isEmpty)) body <;> rfl

/-- No quote follows a mark in a plain value. -/
theorem firstWithin_plain_quoted {text : Text} (unquoted : '"' ∉ text)
    (items : List Attribute) :
    firstWithin (readMark name quotedValue) text (renderRest items) =
      none := by
  apply firstWithin_eq_none
  intro suffix _ within
  unfold readMark
  rw [afterWord_renderRest]
  cases found : afterWord name.mark suffix with
  | none => rfl
  | some further =>
      have inner : '"' ∉ further := fun inside =>
        unquoted (within.subset ((afterWord_suffix found).subset inside))
      exact quotedValue_plain inner items

theorem quotedValue_append {text : Text} (unquoted : '"' ∉ text)
    (rest : Text) :
    quotedValue ('"' :: (text ++ rest)) =
      (quotedValue ('"' :: rest)).map (text ++ ·) := by
  have taken : (text ++ rest).takeWhile (· ≠ '"') =
      text ++ rest.takeWhile (· ≠ '"') := by
    rw [List.takeWhile_append_of_pos]
    intro character inside
    have different : character ≠ '"' := fun same => unquoted (same ▸ inside)
    simpa using different
  have absent : text.contains '"' = false := by
    simpa using unquoted
  show (if (text ++ rest).contains '"' then
      some ((text ++ rest).takeWhile (· ≠ '"')) else none) =
    (if rest.contains '"' then some (rest.takeWhile (· ≠ '"')) else none).map
      (text ++ ·)
  rw [taken, List.contains_append, absent, Bool.false_or]
  split <;> rfl

theorem letters_unquoted (letters : AttrName) :
    '"' ∉ letters.text.toList := by
  intro inside
  exact absurd (letters.letters _ inside) (by decide)

/-- The text behind a closing quote, up to the next one. -/
theorem quotedValue_renderRest (items : List Attribute) :
    quotedValue ('"' :: renderRest items) = upToQuote items := by
  induction items with
  | nil => rfl
  | cons item items induction =>
      obtain ⟨letters, given⟩ := item
      have named := letters_unquoted letters
      cases given with
      | quoted body unquoted =>
          have split : renderRest (⟨letters, .quoted body unquoted⟩ :: items) =
              (',' :: letters.text.toList ++ ['=']) ++
                '"' :: (body ++ ['"'] ++ renderRest items) := by
            simp [renderRest, Attribute.render, AttrValue.render]
          rw [split, quotedValue_append (by simpa using named)]
          simp [quotedValue, upToQuote]
      | plain text clean =>
          have unquoted : '"' ∉ text := fun inside =>
            (clean _ inside).1 rfl
          have split : renderRest (⟨letters, .plain text clean⟩ :: items) =
              (',' :: letters.text.toList ++ '=' :: text) ++
                renderRest items := by
            simp [renderRest, Attribute.render, AttrValue.render]
          rw [split, quotedValue_append (by simp [named, unquoted]),
            induction, upToQuote]

/-- The first quoted place of a list. -/
theorem firstPlace_quoted (items : List Attribute) :
    firstPlace (readMark name quotedValue) (renderRest items) =
      quotedPlace name items := by
  induction items with
  | nil =>
      unfold renderRest readMark AttrName.mark
      rw [List.flatMap_nil, firstPlace_nil]
      cases name.text.toList <;> rfl
  | cons item items induction =>
      rw [firstPlace_renderRest_cons, firstPlace_append,
        firstWithin_attribute, induction]
      obtain ⟨letters, given⟩ := item
      cases given with
      | quoted body unquoted =>
          rw [AttrValue.render, firstWithin_quoted, firstWithin_body unquoted,
            quotedValue_renderRest, quotedPlace]
          have whole : quotedValue ('"' :: body ++ ['"'] ++ renderRest items) =
              some body := by
            rw [List.cons_append, List.cons_append, List.append_assoc,
              quotedValue_append unquoted]
            simp [quotedValue]
          rw [whole]
          split
          · rfl
          · split <;> rfl
      | plain text clean =>
          have unquoted : '"' ∉ text := fun inside =>
            (clean _ inside).1 rfl
          rw [AttrValue.render, firstWithin_plain_quoted unquoted, quotedPlace]
          rw [quotedValue_plain unquoted, ite_self]
          rfl

/-! ## Plain places -/

/-- What stands before the next comma behind a text of the list. -/
theorem takeWhile_renderRest (text : Text) (items : List Attribute) :
    (text ++ renderRest items).takeWhile (· ≠ ',') =
      text.takeWhile (· ≠ ',') := by
  rcases renderRest_follows items with empty | ⟨more, follows⟩
  · rw [empty, List.append_nil]
  · rw [follows]
    induction text with
    | nil => rfl
    | cons character text induction =>
        rw [List.cons_append, List.takeWhile_cons, List.takeWhile_cons,
          induction]

theorem takeWhile_of_clean {text : Text} (clean : ',' ∉ text) :
    text.takeWhile (· ≠ ',') = text := by
  apply List.takeWhile_eq_self_iff.mpr
  intro character inside
  have different : character ≠ ',' := fun same => clean (same ▸ inside)
  simpa using different

theorem hidden_nil : afterWord name.mark [] = none := by
  unfold AttrName.mark
  cases name.text.toList <;> rfl

theorem firstWithin_plain {text : Text} (clean : ',' ∉ text)
    (items : List Attribute) :
    firstWithin (readMark name unquotedValue) text (renderRest items) =
      hidden name text := by
  have mapped := @firstWithin_eq_map _ _
    (readMark name unquotedValue) Text text (renderRest items)
    (afterWord name.mark) id hidden_nil
  rw [mapped, Option.map_id]
  · rfl
  · intro suffix _ within
    unfold readMark
    rw [afterWord_renderRest]
    cases found : afterWord name.mark suffix with
    | none => rfl
    | some further =>
        have inner : ',' ∉ further := fun inside =>
          clean (within.subset ((afterWord_suffix found).subset inside))
        rw [Option.map_some, Option.bind_some, unquotedValue,
          takeWhile_renderRest, takeWhile_of_clean inner]
        rfl

theorem firstWithin_body_plain (body : Text) (items : List Attribute) :
    firstWithin (readMark name unquotedValue) body
        ('"' :: renderRest items) =
      (hidden name body).map fun text =>
        (text ++ ['"']).takeWhile (· ≠ ',') := by
  apply firstWithin_eq_map hidden_nil
  intro suffix _ _
  unfold readMark
  rw [afterWord_stop (mark_stop name (.inl rfl))]
  cases afterWord name.mark suffix with
  | none => rfl
  | some further =>
      have split : further ++ '"' :: renderRest items =
          (further ++ ['"']) ++ renderRest items := by simp
      rw [Option.map_some, Option.bind_some, unquotedValue, split,
        takeWhile_renderRest]
      rfl

/-- The first plain place of a list. -/
theorem firstPlace_plain (items : List Attribute) :
    firstPlace (readMark name unquotedValue) (renderRest items) =
      plainPlace name items := by
  induction items with
  | nil =>
      unfold renderRest readMark
      rw [List.flatMap_nil, firstPlace_nil, hidden_nil]
      rfl
  | cons item items induction =>
      rw [firstPlace_renderRest_cons, firstPlace_append,
        firstWithin_attribute, induction, plainPlace, unquotedValue,
        takeWhile_renderRest]
      obtain ⟨letters, given⟩ := item
      split
      · rfl
      · cases given with
        | quoted body unquoted =>
            rw [AttrValue.render, firstWithin_quoted, firstWithin_body_plain]
            dsimp only [AttrValue.text]
            cases hidden name body <;> rfl
        | plain text clean =>
            have separate : ',' ∉ text := fun inside =>
              (clean _ inside).2.1 rfl
            rw [AttrValue.render, firstWithin_plain separate]
            dsimp only [AttrValue.text]
            cases hidden name text <;> rfl

/-- What the code reads for a name in a list. -/
theorem attr_render (list : AttributeList) :
    attr list.render name.text =
      (quotedPlace name list.attributes).or
        ((plainPlace name list.attributes).map trim) := by
  unfold attr AttributeList.render
  rw [findAttr_eq_firstPlace, findAttr_eq_firstPlace,
    firstPlace_renderAttributes, firstPlace_renderAttributes,
    firstPlace_quoted, firstPlace_plain]
  cases quotedPlace name list.attributes <;> rfl

/-! ## Unmistaken names -/

theorem plainPlace_eq_none (items : List Attribute) :
    plainPlace name items = none ↔
      ∀ item ∈ items, item.mentions name = false := by
  induction items with
  | nil => simp [plainPlace]
  | cons item items induction =>
      rw [List.forall_mem_cons, ← induction, plainPlace, Attribute.mentions]
      cases ends : item.endsIn name with
      | true => simp
      | false =>
          obtain ⟨letters, given⟩ := item
          cases given with
          | quoted body unquoted =>
              dsimp only [AttrValue.text]
              cases hidden name body <;> simp
          | plain text clean =>
              dsimp only [AttrValue.text]
              cases hidden name text <;> simp

theorem endsInMark_hidden {text : Text} (ends : endsInMark name text = true) :
    (hidden name text).isSome = true := by
  obtain ⟨suffix, within, found⟩ := firstPlace_isSome.mp ends
  refine firstPlace_isSome.mpr ⟨suffix, within, ?_⟩
  cases read : afterWord name.mark suffix with
  | none =>
      rw [read] at found
      cases found
  | some further => rfl

/-- Attributes that do not mention the name are passed over. -/
theorem quotedPlace_skip {items : List Attribute}
    (unmentioned : ∀ item ∈ items, item.mentions name = false)
    (rest : List Attribute) :
    quotedPlace name (items ++ rest) = quotedPlace name rest := by
  induction items with
  | nil => rfl
  | cons item items induction =>
      rw [List.forall_mem_cons] at unmentioned
      obtain ⟨here, later⟩ := unmentioned
      obtain ⟨letters, given⟩ := item
      rw [Attribute.mentions, Bool.or_eq_false_iff] at here
      cases given with
      | plain text clean => exact induction later
      | quoted body unquoted =>
          have further : endsInMark name body ≠ true := by
            intro ends
            have inside := endsInMark_hidden ends
            rw [AttrValue.text] at here
            rw [here.2] at inside
            cases inside
          rw [List.cons_append, quotedPlace, here.1,
            if_neg Bool.false_ne_true, if_neg further]
          exact induction later

theorem quotedPlace_eq_none {items : List Attribute}
    (unmentioned : ∀ item ∈ items, item.mentions name = false) :
    quotedPlace name items = none := by
  have skipped := quotedPlace_skip unmentioned []
  rwa [List.append_nil] at skipped

/-- A name is read right exactly where it is unmistaken. -/
theorem attr_eq_lookup_iff (list : AttributeList) (name : AttrName) :
    attr list.render name.text =
        (list.lookup name).map (·.value.text) ↔
      Unmistaken list name := by
  rw [attr_render, Unmistaken]
  cases list.lookup name with
  | none =>
      dsimp only [Option.map_none]
      rw [Option.or_eq_none_iff, Option.map_eq_none_iff, plainPlace_eq_none]
      constructor
      · exact fun both => both.2
      · exact fun unmentioned =>
          ⟨quotedPlace_eq_none unmentioned, unmentioned⟩
  | some own =>
      dsimp only [Option.map_some]
      cases quotedPlace name list.attributes with
      | none => rw [Option.none_or]
      | some text =>
          rw [Option.some_or, Option.some.injEq]

end Name

end Motrix.Media
