import Motrix.Finalize.FileName

/-!
# When a published name is portable

Marking a reserved stem, dropping the end and cutting to the budget are done
one after another, once each.  A cut that stops in the spaces after a device
name leaves the device name, which no later step marks.
-/

namespace Motrix.Finalize.FileName

open Lib

/-- The stem as a file manager compares it with device names. -/
def bare (name : List Char) : List Char :=
  (stem name).rdropWhile (· == ' ')

/-- The last character is not one that a file manager drops. -/
def Ends (name : List Char) : Prop :=
  ∀ last ∈ name.getLast?, dropped last = false

namespace Rules

/-- A name that every file system takes as it is. -/
structure Portable (rules : Rules) (name : List Char) : Prop where
  nonempty : name ≠ []
  bounded : bytes name ≤ 254
  legal : ∀ character ∈ name, rules.illegal character = false
  ends : Ends name
  unreserved : rules.reserved (bare name) = false

structure Lawful (rules : Rules) : Prop where
  underscore : rules.illegal '_' = false
  fallback : rules.Portable "download".toList
  named : rules.reserved [] = false
  small : ∀ device, rules.reserved device = true → bytes device ≤ 28
  plain : ∀ device, rules.reserved device = true →
    ∀ character ∈ device, dropped character = false ∧ character ≠ '_'

/-- A device name, spaces, and then a dot or a character for which the byte
budget has no room. -/
structure PaddedBy (rules : Rules) (name device : List Char) (pad : Nat)
    (next : Char) (rest : List Char) : Prop where
  parts : name = device ++ List.replicate (pad + 1) ' ' ++ next :: rest
  reserved : rules.reserved device = true
  other : next ≠ ' '
  cuts : next = '.' ∨ 254 < bytes name ∧ (cut name).budget <
    bytes (device ++ List.replicate (pad + 1) ' ' ++ [next])

def Padded (rules : Rules) (name : List Char) : Prop :=
  ∃ device pad next rest, rules.PaddedBy name device pad next rest

end Rules

/-! ## Ends and bare stems -/

section Ends

variable {name front back : List Char}

theorem settled_ends (name : List Char) : Ends (settled name) := by
  intro last newest
  have nonempty : settled name ≠ [] := by
    intro empty
    rw [empty] at newest
    cases newest
  rw [List.getLast?_eq_getLast_of_ne_nil nonempty, Option.mem_some_iff]
    at newest
  rw [← newest, Bool.eq_false_iff]
  exact List.rdropWhile_last_not dropped name nonempty

theorem Ends.settled (ends : Ends name) : settled name = name := by
  apply List.rdropWhile_eq_self_iff.mpr
  intro nonempty
  rw [Bool.not_eq_true]
  apply ends
  rw [List.getLast?_eq_getLast_of_ne_nil nonempty]
  rfl

theorem ends_append (nonempty : back ≠ []) :
    Ends (front ++ back) ↔ Ends back := by
  unfold Ends
  rw [List.getLast?_append_of_ne_nil _ nonempty]

theorem stem_self (name : List Char) : '.' ∉ stem name := by
  intro inside
  have other := List.mem_takeWhile_imp inside
  simp at other

/-- A name is its stem and what follows the stem's dot. -/
theorem stem_parts (name : List Char) :
    ∃ tail, name = stem name ++ tail ∧
      (tail = [] ∨ ∃ rest, tail = '.' :: rest) := by
  refine ⟨name.dropWhile (· != '.'), (List.takeWhile_append_dropWhile).symm, ?_⟩
  cases dropping : name.dropWhile (· != '.') with
  | nil => exact .inl rfl
  | cons head rest =>
      have stops := List.head?_dropWhile_not (· != '.') name
      rw [dropping] at stops
      simp at stops
      exact .inr ⟨rest, by rw [stops]⟩

theorem bare_tail (front : List Char) {tail : List Char}
    (follows : tail = [] ∨ ∃ rest, tail = '.' :: rest) :
    bare (front ++ tail) = bare front := by
  rcases follows with rfl | ⟨rest, rfl⟩
  · rw [List.append_nil]
  · unfold bare
    by_cases member : '.' ∈ front
    · obtain ⟨before, after, rfl, absent⟩ := List.eq_append_cons_of_mem member
      rw [List.append_assoc, List.cons_append, stem_append absent,
        stem_append absent]
    · rw [stem_append member, stem_of_absent member]

theorem bare_concat (front : List Char) {last : Char}
    (drops : dropped last = true) : bare (front ++ [last]) = bare front := by
  have kinds : last = '.' ∨ last = ' ' := by
    simpa [dropped] using drops
  rcases kinds with rfl | rfl
  · exact bare_tail front (.inr ⟨[], rfl⟩)
  · by_cases member : '.' ∈ front
    · obtain ⟨before, after, rfl, absent⟩ := List.eq_append_cons_of_mem member
      unfold bare
      rw [List.append_assoc, List.cons_append, stem_append absent,
        stem_append absent]
    · have absent : '.' ∉ front ++ [' '] := by
        simp [member]
      unfold bare
      rw [stem_of_absent absent, stem_of_absent member]
      exact List.rdropWhile_concat_pos _ _ _ rfl

theorem bare_settled (name : List Char) : bare (settled name) = bare name := by
  induction name using List.reverseRecOn with
  | nil => rfl
  | append_singleton name last induction =>
      by_cases drops : dropped last = true
      · rw [settled, List.rdropWhile_concat_pos _ _ _ drops, bare_concat name
          drops]
        exact induction
      · rw [settled, List.rdropWhile_concat_neg _ _ _ drops]

/-- The spaces between a bare stem and its dot. -/
theorem stem_padded (name : List Char) :
    ∃ pad, stem name = bare name ++ List.replicate pad ' ' := by
  unfold bare
  generalize stem name = front
  induction front using List.reverseRecOn with
  | nil => exact ⟨0, rfl⟩
  | append_singleton front last induction =>
      by_cases space : last = ' '
      · obtain ⟨pad, same⟩ := induction
        refine ⟨pad + 1, ?_⟩
        rw [List.rdropWhile_concat_pos _ _ _ (by simp [space]),
          List.replicate_succ', ← List.append_assoc, ← same, space]
      · refine ⟨0, ?_⟩
        rw [List.rdropWhile_concat_neg _ _ _ (by simp [space])]
        exact (List.append_nil _).symm

theorem bare_replicate {device : List Char}
    (plain : ∀ character ∈ device, dropped character = false) (pad : Nat) :
    bare (device ++ List.replicate pad ' ') = device := by
  induction pad with
  | zero =>
      have absent : '.' ∉ device := by
        intro inside
        cases plain '.' inside
      rw [List.replicate_zero, List.append_nil, bare, stem_of_absent absent]
      apply List.rdropWhile_eq_self_iff.mpr
      intro nonempty space
      have kept := plain _ (List.getLast_mem nonempty)
      rw [eq_of_beq space] at kept
      cases kept
  | succ pad induction =>
      rw [List.replicate_succ', ← List.append_assoc,
        bare_concat (device ++ List.replicate pad ' ') rfl]
      exact induction

/-- A character that stays keeps its place in the stem. -/
theorem mem_bare {front : List Char} (absent : '.' ∉ front) {kept : Char}
    (stays : dropped kept = false) (rest : List Char) :
    kept ∈ bare (front ++ kept :: rest) := by
  have undotted : kept ≠ '.' ∧ kept ≠ ' ' := by
    simpa [dropped] using stays
  have inside : kept ∈ stem (front ++ kept :: rest) := by
    have plain : ∀ character ∈ front, (character != '.') = true := by
      intro character member
      exact bne_iff_ne.mpr fun same => absent (same ▸ member)
    rw [stem, List.takeWhile_append_of_pos plain, List.takeWhile_cons,
      if_pos (bne_iff_ne.mpr undotted.1)]
    simp
  obtain ⟨pad, same⟩ := stem_padded (front ++ kept :: rest)
  rw [same, List.mem_append] at inside
  rcases inside with stayed | padding
  · exact stayed
  · exact absurd (List.eq_of_mem_replicate padding) undotted.2

end Ends

/-! ## What the byte budget leaves -/

/-- The part of a name that is within its byte budget. -/
def core (name : List Char) : List Char :=
  if bytes name ≤ 254 then name
  else Offset.fit Char.utf8Size (cut name).budget (cut name).text

section Core

variable {name : List Char}

theorem bytes_append (front back : List Char) :
    bytes (front ++ back) = bytes front + bytes back :=
  Offset.size_append Char.utf8Size front back

theorem bytes_cons (head : Char) (rest : List Char) :
    bytes (head :: rest) = head.utf8Size + bytes rest :=
  rfl

theorem bytes_of_begins {front : List Char} (starts : front <+: name) :
    bytes front ≤ bytes name := by
  obtain ⟨back, rfl⟩ := starts
  rw [bytes_append]
  exact Nat.le_add_right _ _

/-- Of two starts of a name the one with fewer bytes starts the other. -/
theorem prefix_of_bytes {front other : List Char} (starts : front <+: name)
    (begins : other <+: name) (fewer : bytes front < bytes other) :
    front <+: other := by
  rcases List.prefix_or_prefix_of_prefix starts begins with below | above
  · exact below
  · exact absurd (bytes_of_begins above) (Nat.not_le.mpr fewer)

/-- A cut with the budget that its tail leaves. -/
structure Cut.Of (cut : Cut) (name : List Char) : Prop where
  parts : cut.text ++ cut.tail = name
  least : 229 ≤ cut.budget
  room : cut.budget + bytes cut.tail = 254
  follows : cut.tail = [] ∨ ∃ rest, cut.tail = '.' :: rest

theorem cut_of (name : List Char) : (cut name).Of name := by
  have whole : Cut.Of { text := name, budget := 254, tail := [] } name := by
    constructor
    · exact List.append_nil name
    · show 229 ≤ 254
      decide
    · rfl
    · exact .inl rfl
  by_cases member : '.' ∈ name
  · obtain ⟨front, back, rfl, absent⟩ := Offset.eq_append_last member
    rw [cut_append front absent]
    split
    · rename_i kept
      obtain ⟨-, positive, small⟩ := kept
      constructor
      · rfl
      · dsimp only
        omega
      · dsimp only
        have dot : bytes ('.' :: back) = 1 + bytes back := rfl
        omega
      · exact .inr ⟨back, rfl⟩
    · exact whole
  · rw [cut_of_absent member]
    exact whole

theorem core_short (short : bytes name ≤ 254) : core name = name :=
  if_pos short

/-- A name that is too long is cut before a character that does not fit. -/
theorem core_long (long : 254 < bytes name) :
    bytes (core name) ≤ (cut name).budget ∧
      ∃ next rest, name = core name ++ next :: rest ∧
        (cut name).budget < bytes (core name) + next.utf8Size := by
  obtain ⟨parts, least, room, follows⟩ := cut_of name
  obtain ⟨within, back, same, full⟩ :=
    Offset.fit_spec Char.utf8Size (cut name).budget (cut name).text
  rw [core, if_neg (Nat.not_le.mpr long)]
  generalize Offset.fit Char.utf8Size (cut name).budget (cut name).text =
    kept at *
  refine ⟨within, ?_⟩
  cases back with
  | nil =>
      rw [List.append_nil] at same
      have total : bytes kept + bytes (cut name).tail = bytes name := by
        rw [← bytes_append, ← same, parts]
      have fits : bytes kept ≤ (cut name).budget := within
      omega
  | cons next rest =>
      have whole : kept ++ next :: (rest ++ (cut name).tail) = name := by
        rw [← List.cons_append, ← List.append_assoc, ← same, parts]
      exact ⟨next, rest ++ (cut name).tail, whole.symm, full next rest rfl⟩

theorem core_begins (name : List Char) : core name <+: name := by
  by_cases short : bytes name ≤ 254
  · exact ⟨[], by rw [core_short short, List.append_nil]⟩
  · obtain ⟨-, next, rest, same, -⟩ := core_long (Nat.not_le.mp short)
    exact ⟨next :: rest, same.symm⟩

theorem core_large (long : 254 < bytes name) : 225 < bytes (core name) := by
  obtain ⟨-, next, rest, -, full⟩ := core_long long
  have least := (cut_of name).least
  have width := Char.utf8Size_le_four next
  omega

/-- A start of a name that is not too long is not cut. -/
theorem prefix_core {front : List Char} (starts : front <+: name)
    (small : bytes front ≤ 225) : front <+: core name := by
  by_cases short : bytes name ≤ 254
  · rw [core_short short]
    exact starts
  · have large := core_large (Nat.not_le.mp short)
    exact prefix_of_bytes starts (core_begins name)
      (Nat.lt_of_le_of_lt small large)

theorem clamped_eq (name : List Char) :
    clamped name = if bytes name ≤ 254 then core name
      else settled (core name) ++ (cut name).tail := by
  unfold clamped core
  split
  · rfl
  · rfl

theorem bare_clamped (name : List Char) :
    bare (clamped name) = bare (core name) := by
  rw [clamped_eq]
  split
  · rfl
  · rw [bare_tail _ (cut_of name).follows, bare_settled]

end Core

/-! ## Padded device names -/

namespace Rules

variable {rules : Rules} {name : List Char}

theorem Lawful.absent (lawful : rules.Lawful) {device : List Char}
    (reserved : rules.reserved device = true) : '.' ∉ device := by
  intro inside
  cases (lawful.plain device reserved '.' inside).1

theorem Lawful.unspaced (lawful : rules.Lawful) {device : List Char}
    (reserved : rules.reserved device = true) : ' ' ∉ device := by
  intro inside
  cases (lawful.plain device reserved ' ' inside).1

theorem Lawful.bare_device (lawful : rules.Lawful) {device : List Char}
    (reserved : rules.reserved device = true) (pad : Nat) :
    bare (device ++ List.replicate pad ' ') = device :=
  bare_replicate (fun character inside =>
    (lawful.plain device reserved character inside).1) pad

theorem Lawful.stem_device (lawful : rules.Lawful) {device : List Char}
    (reserved : rules.reserved device = true) (pad : Nat) :
    '.' ∉ device ++ List.replicate pad ' ' := by
  intro inside
  rw [List.mem_append] at inside
  rcases inside with here | padding
  · exact lawful.absent reserved here
  · cases List.eq_of_mem_replicate padding

/-- The stem of a padded device name is not itself reserved. -/
theorem Lawful.stem_padded (lawful : rules.Lawful)
    (padded : rules.Padded name) : rules.reserved (stem name) = false := by
  obtain ⟨device, pad, next, rest, padded⟩ := padded
  obtain ⟨parts, reserved, -, -⟩ := padded
  rw [← Bool.not_eq_true]
  intro held
  have space : ' ' ∈ stem name := by
    have front : name = device ++ ' ' ::
        (List.replicate pad ' ' ++ next :: rest) := by
      rw [parts, List.replicate_succ]
      simp
    have plain : ∀ character ∈ device, (character != '.') = true := by
      intro character member
      exact bne_iff_ne.mpr fun same =>
        lawful.absent reserved (same ▸ member)
    rw [front, stem, List.takeWhile_append_of_pos plain, List.takeWhile_cons]
    simp
  exact lawful.unspaced held space

/-- What the budget leaves of a padded device name is that device name. -/
theorem Lawful.bare_core (lawful : rules.Lawful) {device : List Char}
    {pad : Nat} {next : Char} {rest : List Char}
    (padded : rules.PaddedBy name device pad next rest) :
    bare (core name) = device := by
  obtain ⟨parts, reserved, -, cuts⟩ := padded
  have begins : device ++ List.replicate (pad + 1) ' ' <+: name :=
    ⟨next :: rest, parts.symm⟩
  rcases List.prefix_or_prefix_of_prefix (core_begins name) begins with
    within | beyond
  · have starts : device <+: core name := by
      apply prefix_core
      · rw [parts, List.append_assoc]
        exact List.prefix_append _ _
      · exact Nat.le_trans (lawful.small device reserved) (by decide)
    obtain ⟨spaces, same⟩ := starts
    rw [← same, List.prefix_append_right_inj] at within
    obtain ⟨-, only⟩ := List.prefix_replicate_iff.mp within
    rw [← same, only]
    exact lawful.bare_device reserved _
  · obtain ⟨more, same⟩ := beyond
    have whole : more <+: next :: rest := by
      have starts := core_begins name
      rw [← same, parts, List.prefix_append_right_inj] at starts
      exact starts
    rw [← same]
    cases more with
    | nil =>
        rw [List.append_nil]
        exact lawful.bare_device reserved _
    | cons head tail =>
        obtain rfl : head = next := (List.cons_prefix_cons.mp whole).1
        rcases cuts with rfl | ⟨long, cuts⟩
        · rw [bare_tail _ (.inr ⟨tail, rfl⟩)]
          exact lawful.bare_device reserved _
        · have most := (core_long long).1
          have least : bytes (device ++ List.replicate (pad + 1) ' ' ++
              [head]) ≤ bytes (core name) := by
            apply bytes_of_begins
            rw [← same, List.prefix_append_right_inj]
            exact ⟨tail, rfl⟩
          omega

/-- Spaces before a name that does not end in one. -/
theorem leading_spaces (ends : Ends name) (nonempty : name ≠ []) :
    ∃ pad next rest, name = List.replicate pad ' ' ++ next :: rest ∧
      next ≠ ' ' := by
  induction name with
  | nil => exact absurd rfl nonempty
  | cons head rest induction =>
      by_cases space : head = ' '
      · subst space
        have more : rest ≠ [] := by
          rintro rfl
          cases ends ' ' rfl
        have later : Ends rest :=
          (@ends_append [' '] rest more).mp ends
        obtain ⟨pad, next, after, rfl, other⟩ := induction later more
        exact ⟨pad + 1, next, after, rfl, other⟩
      · exact ⟨0, head, rest, rfl, space⟩

/-- A reserved bare stem of what the budget leaves comes from padding. -/
theorem Lawful.padded (lawful : rules.Lawful) (ends : Ends name)
    (unreserved : rules.reserved (stem name) = false)
    (reserved : rules.reserved (bare (core name)) = true) :
    rules.Padded name := by
  obtain ⟨spaces, stemmed⟩ := FileName.stem_padded (core name)
  obtain ⟨tail, parts, follows⟩ := stem_parts (core name)
  obtain ⟨more, whole⟩ := core_begins name
  generalize bare (core name) = device at *
  rw [stemmed] at parts
  have undotted := lawful.stem_device reserved spaces
  have padded : ∀ pad next rest,
      name = device ++ List.replicate pad ' ' ++ next :: rest →
      '.' ∉ device ++ List.replicate pad ' ' → next ≠ ' ' →
      (next = '.' ∨ 254 < bytes name ∧ (cut name).budget <
        bytes (device ++ List.replicate pad ' ' ++ [next])) →
      (next = '.' ∨ 0 < pad) → rules.Padded name := by
    intro pad next rest same absent other cuts positive
    cases pad with
    | succ pad => exact ⟨device, pad, next, rest, same, reserved, other, cuts⟩
    | zero =>
        rcases positive with rfl | none
        · rw [List.replicate_zero, List.append_nil] at same
          rw [same, stem_append (lawful.absent reserved), reserved]
            at unreserved
          cases unreserved
        · cases none
  rcases follows with rfl | ⟨rest, rfl⟩
  · rw [List.append_nil] at parts
    by_cases short : bytes name ≤ 254
    · rw [core_short short] at parts stemmed
      -- A name that ends in no space is the device name itself.
      cases spaces with
      | zero =>
          rw [stemmed, List.replicate_zero, List.append_nil, reserved]
            at unreserved
          cases unreserved
      | succ spaces =>
          rw [parts, List.replicate_succ', ← List.append_assoc] at ends
          cases (ends_append (List.cons_ne_nil ' ' [])).mp ends ' ' rfl
    · have long := Nat.not_le.mp short
      obtain ⟨-, first, after, same, full⟩ := core_long long
      have large := core_large long
      have small := lawful.small device reserved
      rw [parts] at same full large
      have back : Ends (first :: after) := by
        rw [same] at ends
        exact (ends_append (List.cons_ne_nil _ _)).mp ends
      obtain ⟨pad, next, rest, split, other⟩ :=
        leading_spaces back (List.cons_ne_nil _ _)
      have longer : device ++ List.replicate (spaces + pad) ' ' =
          device ++ List.replicate spaces ' ' ++ List.replicate pad ' ' := by
        rw [List.replicate_add, List.append_assoc]
      apply padded (spaces + pad) next rest
      · rw [same, split, longer]
        simp only [List.append_assoc]
      · exact lawful.stem_device reserved _
      · exact other
      · refine .inr ⟨long, Nat.lt_of_lt_of_le full ?_⟩
        have starts : [first] <+: List.replicate pad ' ' ++ [next] := by
          cases pad with
          | zero =>
              obtain ⟨rfl, -⟩ := List.cons.inj split
              exact List.prefix_rfl
          | succ pad =>
              obtain ⟨rfl, -⟩ := List.cons.inj split
              exact ⟨List.replicate pad ' ' ++ [next], rfl⟩
        have wide := bytes_of_begins starts
        rw [longer, List.append_assoc, bytes_append _
          (List.replicate pad ' ' ++ [next])]
        have one : bytes [first] = first.utf8Size := rfl
        omega
      · right
        apply Nat.pos_of_ne_zero
        intro none
        have zero : spaces = 0 := by omega
        rw [zero, List.replicate_zero, List.append_nil] at large
        omega
  · apply padded spaces '.' (rest ++ more)
    · rw [← whole, parts]
      simp
    · exact undotted
    · decide
    · exact .inl rfl
    · exact .inl rfl

/-- A marked stem keeps its mark. -/
theorem Lawful.marked (lawful : rules.Lawful)
    (reserved : rules.reserved (stem name) = true) :
    rules.reserved (bare (core (rules.unreserved name))) = false := by
  rw [← Bool.not_eq_true]
  intro held
  have starts : stem name ++ ['_'] <+: core (rules.unreserved name) := by
    apply prefix_core
    · rw [unreserved, if_pos reserved]
      exact ⟨name.dropWhile (· != '.'), by simp⟩
    · have small := lawful.small _ reserved
      rw [bytes_append]
      have one : bytes ['_'] = 1 := rfl
      omega
  obtain ⟨more, same⟩ := starts
  have inside : '_' ∈ bare (core (rules.unreserved name)) := by
    rw [← same, List.append_assoc]
    exact mem_bare (stem_self name) rfl more
  exact (lawful.plain _ held '_' inside).2 rfl

theorem Lawful.reserved_core_iff (lawful : rules.Lawful) (ends : Ends name) :
    rules.reserved (bare (core (rules.unreserved name))) = true ↔
      rules.Padded name := by
  cases held : rules.reserved (stem name) with
  | true =>
      constructor
      · intro reserved
        rw [lawful.marked held] at reserved
        cases reserved
      · intro padded
        rw [lawful.stem_padded padded] at held
        cases held
  | false =>
      have same : rules.unreserved name = name := by
        rw [unreserved, held]
        rfl
      rw [same]
      constructor
      · exact lawful.padded ends held
      · rintro ⟨device, pad, next, rest, padded⟩
        rw [lawful.bare_core padded]
        exact padded.reserved

/-! ## The published name -/

theorem published_eq (rules : Rules) (name : List Char) :
    rules.published name =
      if clamped (rules.prepared name) = [] then "download".toList
      else clamped (rules.prepared name) := by
  unfold published
  cases clamped (rules.prepared name) with
  | nil => rfl
  | cons head rest => rfl

theorem Lawful.reserved_published (lawful : rules.Lawful)
    (name : List Char) :
    rules.reserved (bare (rules.published name)) =
      rules.reserved (bare (core (rules.prepared name))) := by
  rw [published_eq, ← bare_clamped]
  split
  · rename_i empty
    have none : bare [] = [] := rfl
    rw [empty, none, lawful.named]
    exact lawful.fallback.unreserved
  · rfl

theorem legalized_legal (lawful : rules.Lawful) (name : List Char) :
    ∀ character ∈ rules.legalized name, rules.illegal character = false := by
  intro character inside
  obtain ⟨source, -, rfl⟩ := List.mem_map.mp inside
  split
  · exact lawful.underscore
  · rename_i allowed
    exact Bool.eq_false_iff.mpr allowed

theorem prepared_legal (lawful : rules.Lawful) (name : List Char) :
    ∀ character ∈ rules.prepared name, rules.illegal character = false := by
  have legal : ∀ character ∈ settled (rules.legalized name),
      rules.illegal character = false := fun character inside =>
    legalized_legal lawful name character
      ((List.rdropWhile_prefix dropped _).subset inside)
  unfold prepared unreserved
  generalize settled (rules.legalized name) = front at *
  split
  · intro character inside
    rw [List.mem_append, List.mem_cons] at inside
    rcases inside with before | rfl | after
    · exact legal character ((List.takeWhile_prefix _).subset before)
    · exact lawful.underscore
    · exact legal character ((List.dropWhile_suffix _).subset after)
  · exact legal

theorem prepared_ends (rules : Rules) (name : List Char) :
    Ends (rules.prepared name) := by
  have ends := settled_ends (rules.legalized name)
  unfold prepared unreserved
  generalize settled (rules.legalized name) = front at *
  split
  · have both : stem front ++ front.dropWhile (· != '.') = front :=
      List.takeWhile_append_dropWhile
    cases after : front.dropWhile (· != '.') with
    | nil =>
        apply (ends_append (List.cons_ne_nil _ _)).mpr
        intro last newest
        cases newest
        rfl
    | cons head rest =>
        rw [after] at both
        rw [← both, ends_append (List.cons_ne_nil _ _)] at ends
        apply (ends_append (List.cons_ne_nil _ _)).mpr
        exact (@ends_append ['_'] (head :: rest)
          (List.cons_ne_nil _ _)).mpr ends
  · exact ends

theorem clamped_subset (name : List Char) : clamped name ⊆ name := by
  rw [clamped_eq]
  split
  · exact (core_begins name).subset
  · intro character inside
    rw [List.mem_append] at inside
    rcases inside with front | tail
    · exact (core_begins name).subset
        ((List.rdropWhile_prefix dropped _).subset front)
    · rw [← (cut_of name).parts]
      exact List.mem_append_right _ tail

theorem clamped_ends (ends : Ends name) : Ends (clamped name) := by
  rw [clamped_eq]
  split
  · rename_i short
    rw [core_short short]
    exact ends
  · by_cases empty : (cut name).tail = []
    · rw [empty, List.append_nil]
      exact settled_ends _
    · rw [← (cut_of name).parts, ends_append empty] at ends
      exact (ends_append empty).mpr ends

theorem clamped_bounded (name : List Char) : bytes (clamped name) ≤ 254 := by
  rw [clamped_eq]
  split
  · rename_i short
    rw [core_short short]
    exact short
  · rename_i long
    have most := (core_long (Nat.not_le.mp long)).1
    have fewer : bytes (settled (core name)) ≤ bytes (core name) :=
      bytes_of_begins (List.rdropWhile_prefix dropped _)
    have room := (cut_of name).room
    rw [bytes_append]
    omega

/-- All but the stem is always as it should be. -/
theorem Lawful.portable_iff (lawful : rules.Lawful) (name : List Char) :
    rules.Portable (rules.published name) ↔
      ¬rules.Padded (settled (rules.legalized name)) := by
  rw [← lawful.reserved_core_iff (settled_ends _), Bool.not_eq_true]
  have same := lawful.reserved_published name
  constructor
  · intro portable
    have free := portable.unreserved
    rw [same] at free
    exact free
  · intro unreserved
    have free : rules.reserved (bare (rules.published name)) = false :=
      same.trans unreserved
    rw [published_eq] at free ⊢
    split
    · exact lawful.fallback
    · rename_i nonempty
      rw [if_neg nonempty] at free
      constructor
      · exact nonempty
      · exact clamped_bounded _
      · intro character inside
        exact prepared_legal lawful name character (clamped_subset _ inside)
      · exact clamped_ends (prepared_ends rules name)
      · exact free

/-- A portable name is published as it is. -/
theorem Lawful.published_portable (lawful : rules.Lawful)
    (portable : rules.Portable name) : rules.published name = name := by
  have legal : rules.legalized name = name := by
    have same : ∀ character ∈ name,
        (if rules.illegal character then '_' else character) =
          id character := by
      intro character inside
      rw [portable.legal character inside]
      rfl
    exact (List.map_congr_left same).trans (List.map_id name)
  have free : rules.reserved (stem name) = false := by
    rw [← Bool.not_eq_true]
    intro reserved
    obtain ⟨pad, padded⟩ := FileName.stem_padded name
    cases pad with
    | zero =>
        rw [List.replicate_zero, List.append_nil] at padded
        rw [padded, portable.unreserved] at reserved
        cases reserved
    | succ pad =>
        apply lawful.unspaced reserved
        rw [padded, List.replicate_succ]
        simp
  have prepared : rules.prepared name = name := by
    rw [Rules.prepared, legal, portable.ends.settled, unreserved, free]
    rfl
  rw [published_eq, prepared, clamped, if_pos portable.bounded,
    if_neg portable.nonempty]

end Rules

end Motrix.Finalize.FileName
