import Motrix.Lib.Admissions

/-!
# Admissions of torrents

Two torrents never share an output directory or an info hash while they are
admitted.  A call for output directories captures the admissions whose roots
overlap its own; a call for an info hash captures the last one in front of it.
-/

namespace Motrix.BtAdmission

open Motrix.Lib

abbrev Text := List Char

def parentSegment : Text := ['.', '.']

/-! ## Roots -/

/-- Paths of a platform.  A relative text begins with no device. -/
structure PathHost where
  sep : Char
  isAbsolute : Text → Bool
  Device : Text → Prop
  Name : Text → Prop
  sep_dot : sep ∉ parentSegment
  named : ∀ name, Name name →
    name ≠ [] ∧ sep ∉ name ∧ name ≠ parentSegment
  absolute_full : ∀ device segments, Device device →
    isAbsolute (device ++ sep :: [sep].intercalate segments) = true
  absolute_names : ∀ names : List Text, (∀ name ∈ names, Name name) →
    isAbsolute ([sep].intercalate names) = false

/-- A canonical path: absolute, without links and without dots. -/
structure CanonicalPath (host : PathHost) where
  device : Text
  segments : List Text
  rooted : host.Device device
  named : ∀ name ∈ segments, host.Name name
  deriving DecidableEq

namespace PathHost

variable (host : PathHost)

def join (segments : List Text) : Text :=
  [host.sep].intercalate segments

/-- Out of the segments that only the first path has and into the others. -/
def climb : List Text → List Text → List Text
  | [], target => target
  | source, [] => source.map fun _ => parentSegment
  | name :: source, other :: target =>
      if name = other then climb source target
      else (name :: source).map (fun _ => parentSegment) ++ other :: target

/-- `path.relative` gives the whole path on another device. -/
def relative (source target : CanonicalPath host) : Text :=
  if source.device = target.device then
    host.join (climb source.segments target.segments)
  else target.device ++ host.sep :: host.join target.segments

def within (root candidate : CanonicalPath host) : Bool :=
  let relative := host.relative root candidate
  relative == [] ||
    relative != parentSegment &&
      !(parentSegment ++ [host.sep]).isPrefixOf relative &&
      !host.isAbsolute relative

def directoriesOverlap (left right : CanonicalPath host) : Bool :=
  host.within left right || host.within right left

/-- One path is the other or lies below it. -/
def Ancestor (root candidate : CanonicalPath host) : Prop :=
  root.device = candidate.device ∧ root.segments <+: candidate.segments

def Overlap (left right : CanonicalPath host) : Prop :=
  host.Ancestor left right ∨ host.Ancestor right left

variable {host}

theorem climb_below (source rest : List Text) :
    climb source (source ++ rest) = rest := by
  induction source with
  | nil => rfl
  | cons name source induction => simpa [climb] using induction

theorem climb_apart {source target : List Text}
    (apart : ¬source <+: target) :
    ∃ rest, climb source target = parentSegment :: rest := by
  induction source generalizing target with
  | nil => exact absurd List.nil_prefix apart
  | cons name source induction =>
      cases target with
      | nil => exact ⟨_, rfl⟩
      | cons other target =>
          by_cases same : name = other
          · subst same
            have below : ¬source <+: target := by
              simpa using apart
            obtain ⟨rest, climbs⟩ := induction below
            exact ⟨rest, by simp [climb, climbs]⟩
          · refine ⟨source.map (fun _ => parentSegment) ++ other :: target, ?_⟩
            simp [climb, same]

/-- A text that climbs is no text below the root. -/
theorem climbs_outside (host : PathHost) (rest : List Text) :
    host.join (parentSegment :: rest) = parentSegment ∨
      parentSegment ++ [host.sep] <+: host.join (parentSegment :: rest) := by
  cases rest with
  | nil => exact Or.inl (by simp [join])
  | cons next rest =>
      refine Or.inr ⟨host.join (next :: rest), ?_⟩
      simp [join]

theorem names_inside {names : List Text}
    (named : ∀ name ∈ names, host.Name name) :
    host.join names ≠ parentSegment ∧
      ¬parentSegment ++ [host.sep] <+: host.join names := by
  cases names with
  | nil =>
      constructor
      · simp [join, parentSegment]
      · simp [join, parentSegment]
  | cons name names =>
      have parts : ∀ part ∈ name :: names, host.sep ∉ part := by
        intro part member
        exact (host.named part (named part member)).2.1
      have splits : (host.join (name :: names)).splitOn host.sep =
          name :: names :=
        List.splitOn_intercalate host.sep parts (List.cons_ne_nil _ _)
      have proper :=
        (host.named name (named name List.mem_cons_self)).2.2
      constructor
      · intro same
        rw [same, List.splitOn_eq_singleton host.sep_dot] at splits
        exact proper (List.cons.inj splits).1.symm
      · intro climbs
        obtain ⟨rest, same⟩ := climbs
        rw [← same, List.append_assoc, List.singleton_append,
          List.splitOn_append_cons_self,
          List.splitOn_eq_singleton host.sep_dot] at splits
        exact proper (List.cons.inj splits).1.symm

theorem within_iff (root candidate : CanonicalPath host) :
    host.within root candidate = true ↔ host.Ancestor root candidate := by
  unfold within Ancestor
  by_cases device : root.device = candidate.device
  · by_cases below : root.segments <+: candidate.segments
    · obtain ⟨rest, same⟩ := below
      have named : ∀ name ∈ rest, host.Name name := by
        intro name member
        apply candidate.named
        rw [← same]
        exact List.mem_append_right _ member
      have text : host.relative root candidate = host.join rest := by
        rw [relative, if_pos device, ← same, climb_below]
      obtain ⟨parent, above⟩ := names_inside named
      have notAbsolute : host.isAbsolute (host.join rest) = false :=
        host.absolute_names rest named
      have inside : root.segments <+: candidate.segments := ⟨rest, same⟩
      have outside :
          (parentSegment ++ [host.sep]).isPrefixOf (host.join rest) = false :=
        Bool.eq_false_iff.mpr fun climbs =>
          above (List.isPrefixOf_iff_prefix.mp climbs)
      simp only [text, outside]
      simp [parent, notAbsolute, device, inside]
    · obtain ⟨rest, climbs⟩ := climb_apart below
      have text : host.relative root candidate =
          host.join (parentSegment :: rest) := by
        rw [relative, if_pos device, climbs]
      have some' : host.join (parentSegment :: rest) ≠ [] := by
        cases rest with
        | nil => simp [join, parentSegment]
        | cons next rest => simp [join, parentSegment]
      rcases climbs_outside host rest with same | above
      · rw [same] at text
        simp [text, below, parentSegment]
      · have climbs :
            (parentSegment ++ [host.sep]).isPrefixOf
              (host.join (parentSegment :: rest)) = true :=
          List.isPrefixOf_iff_prefix.mpr above
        simp only [text, climbs]
        simp [some', below]
  · have text : host.relative root candidate =
        candidate.device ++ host.sep :: host.join candidate.segments := by
      rw [relative, if_neg device]
    have absolute := host.absolute_full candidate.device candidate.segments
      candidate.rooted
    have some' : candidate.device ++ host.sep ::
        host.join candidate.segments ≠ [] := by
      simp
    simp only [join] at text some'
    simp [text, absolute, device]

theorem directoriesOverlap_iff (left right : CanonicalPath host) :
    host.directoriesOverlap left right = true ↔ host.Overlap left right := by
  rw [directoriesOverlap, Bool.or_eq_true, within_iff, within_iff]
  rfl

end PathHost

/-! ## Admissions of output directories -/

variable {host : PathHost}

/-- `outputAdmissions` holds the calls that have not settled. -/
structure OutputAdmissions (host : PathHost) where
  calls : Admissions (List (CanonicalPath host))
  outputAdmissions : List Nat

inductive OutputEvent (host : PathHost) where
  | enter (roots : List (CanonicalPath host))
  | start (index : Nat)
  | finish (index : Nat) (failed : Bool)

def rootsOverlap (left right : List (CanonicalPath host)) : Bool :=
  left.any fun root => right.any fun other =>
    host.directoriesOverlap other root

namespace OutputAdmissions

def empty : OutputAdmissions host where
  calls := Admissions.empty
  outputAdmissions := []

/-- The roots of a call are the set of its canonical paths. -/
def enter (state : OutputAdmissions host)
    (saveDirs : List (CanonicalPath host)) : OutputAdmissions host :=
  let roots := saveDirs.eraseDups
  let predecessors := state.outputAdmissions.filter fun index =>
    (state.calls.call index).any fun entry => rootsOverlap entry.key roots
  { calls := state.calls.enter roots predecessors
    outputAdmissions := state.outputAdmissions ++ [state.calls.count] }

/-- The `finally` of a call does not look at how its operation ended. -/
def finish (state : OutputAdmissions host) (index : Nat) (_failed : Bool) :
    OutputAdmissions host :=
  if state.calls.phase index = .running then
    { calls := state.calls.settle index
      outputAdmissions := state.outputAdmissions.filter (· != index) }
  else state

def apply (state : OutputAdmissions host) :
    OutputEvent host → OutputAdmissions host
  | .enter saveDirs => state.enter saveDirs
  | .start index => { state with calls := state.calls.start index }
  | .finish index failed => state.finish index failed

/-- Some root of one set and some root of the other overlap. -/
def Conflicts (left right : List (CanonicalPath host)) : Prop :=
  ∃ root ∈ left, ∃ other ∈ right, host.Overlap other root

theorem conflicts_symm (left right : List (CanonicalPath host))
    (conflict : Conflicts left right) : Conflicts right left := by
  obtain ⟨root, inside, other, among, overlap⟩ := conflict
  exact ⟨other, among, root, inside, overlap.symm⟩

theorem rootsOverlap_iff (left right : List (CanonicalPath host)) :
    rootsOverlap left right = true ↔ Conflicts left right := by
  simp [rootsOverlap, Conflicts, PathHost.directoriesOverlap_iff]

/-- The calls keep their order and the set holds those that are pending. -/
structure Sound (state : OutputAdmissions host) : Prop where
  ordered : state.calls.Ordered Conflicts
  pending : ∀ index, index ∈ state.outputAdmissions ↔
    index < state.calls.count ∧ state.calls.phase index ≠ .settled

theorem sound_apply {state : OutputAdmissions host} (sound : Sound state)
    (event : OutputEvent host) : Sound (state.apply event) := by
  cases event with
  | enter saveDirs =>
      constructor
      · apply sound.ordered.enter
        · intro before inside
          obtain ⟨-, overlaps⟩ := List.mem_filter.mp inside
          obtain ⟨other, there, overlaps⟩ := (Option.any_eq_true _ _).mp overlaps
          exact ⟨other, there, (rootsOverlap_iff _ _).mp overlaps⟩
        · intro before other there conflict
          by_cases settles : state.calls.phase before = .settled
          · exact Or.inl settles
          · refine Or.inr (Or.inl (List.mem_filter.mpr ⟨?_, ?_⟩))
            · exact (sound.pending before).mpr
                ⟨sound.ordered.bound before other there, settles⟩
            · exact (Option.any_eq_true _ _).mpr
                ⟨other, there, (rootsOverlap_iff _ _).mpr conflict⟩
      · intro index
        have fresh : state.calls.phase state.calls.count = .waiting := by
          by_contra past
          exact Nat.lt_irrefl _ (sound.ordered.present _ past)
        simp only [apply, enter, Admissions.enter, List.mem_append,
          List.mem_singleton, sound.pending, Nat.lt_succ_iff_lt_or_eq]
        constructor
        · intro inside
          rcases inside with ⟨below, pending⟩ | same
          · exact ⟨Or.inl below, pending⟩
          · exact ⟨Or.inr same, by simp [same, fresh]⟩
        · intro inside
          obtain ⟨below | same, pending⟩ := inside
          · exact Or.inl ⟨below, pending⟩
          · exact Or.inr same
  | start index =>
      constructor
      · exact sound.ordered.start index
      · intro other
        simp only [apply, sound.pending, Admissions.start]
        split
        · next ready =>
            have waits := Admissions.waiting_of_ready ready
            by_cases same : other = index
            · simp [Admissions.setPhase, same, waits]
            · simp [Admissions.setPhase, same]
        · rfl
  | finish index failed =>
      simp only [apply, finish]
      split
      · next runs =>
          constructor
          · exact sound.ordered.settle index
          · intro other
            rw [List.mem_filter, sound.pending, Admissions.settle, if_pos runs]
            by_cases same : other = index
            · simp [Admissions.setPhase, same]
            · simp [Admissions.setPhase, same]
      · exact sound

theorem sound_run (events : List (OutputEvent host)) :
    Sound (events.foldl apply empty) := by
  have initial : Sound (empty : OutputAdmissions host) := by
    constructor
    · exact Admissions.Ordered.empty
    · simp [empty, Admissions.empty]
  generalize empty = state at initial
  induction events generalizing state with
  | nil => exact initial
  | cons event rest induction => exact induction _ (sound_apply initial event)

end OutputAdmissions

/-! ## Admissions of info hashes -/

/-- `normalizeBtInfoHash` gives no value for a text that is no info hash. -/
structure HashHost where
  normalizeBtInfoHash : String → Option String
  toLowerCase : String → String

def HashHost.key (host : HashHost) (infoHash : String) : String :=
  "hash:" ++
    (host.normalizeBtInfoHash infoHash).getD (host.toLowerCase infoHash)

structure HashAdmissions where
  calls : Admissions String
  admissionTails : String → Option Nat

inductive HashEvent where
  | acquire (infoHash : String)
  | start (index : Nat)
  | release (index : Nat)

namespace HashAdmissions

def empty : HashAdmissions where
  calls := Admissions.empty
  admissionTails _ := none

def acquire (state : HashAdmissions) (key : String) : HashAdmissions where
  calls := state.calls.enter key (state.admissionTails key).toList
  admissionTails :=
    Function.update state.admissionTails key (some state.calls.count)

/-- The release of a holder counts once. -/
def release (state : HashAdmissions) (index : Nat) : HashAdmissions :=
  if state.calls.phase index = .running then
    { calls := state.calls.settle index
      admissionTails := fun key =>
        if state.admissionTails key = some index then none
        else state.admissionTails key }
  else state

def apply (host : HashHost) (state : HashAdmissions) :
    HashEvent → HashAdmissions
  | .acquire infoHash => state.acquire (host.key infoHash)
  | .start index => { state with calls := state.calls.start index }
  | .release index => state.release index

/-- The tail of a key is its last call; without one all of them settled. -/
structure Sound (state : HashAdmissions) : Prop where
  ordered : state.calls.Ordered (· = ·)
  tail : ∀ key, ∀ last ∈ state.admissionTails key,
    (∃ call ∈ state.calls.call last, call.key = key) ∧
      ∀ index, ∀ call ∈ state.calls.call index, call.key = key → index ≤ last
  free : ∀ key, state.admissionTails key = none →
    ∀ index, ∀ call ∈ state.calls.call index, call.key = key →
      state.calls.phase index = .settled

theorem settled_start {calls : Admissions String} {index other : Nat}
    (settled : calls.phase other = .settled) :
    (calls.start index).phase other = .settled := by
  unfold Admissions.start
  split
  · next ready =>
      have waits := Admissions.waiting_of_ready ready
      have apart : other ≠ index := by
        intro same
        simp [same, waits] at settled
      simpa [Admissions.setPhase, apart] using settled
  · exact settled

theorem sound_acquire {state : HashAdmissions} (sound : Sound state)
    (key : String) : Sound (state.acquire key) := by
  constructor
  · apply sound.ordered.enter
    · intro before inside
      exact (sound.tail key before (Option.mem_toList.mp inside)).1
    · intro before other there same
      cases tail : state.admissionTails key with
      | none => exact Or.inl (sound.free key tail before other there same)
      | some last =>
          obtain ⟨⟨call, found, named⟩, above⟩ := sound.tail key last tail
          have below := above before other there same
          rcases Nat.lt_or_eq_of_le below with below | equal
          · refine Or.inr (Or.inr ⟨last, ?_, below, call, found, ?_⟩)
            · simp
            · exact same.trans named.symm
          · refine Or.inr (Or.inl ?_)
            simp [equal]
  · intro other last found
    by_cases same : other = key
    · subst same
      have equal : state.calls.count = last := by
        simpa [acquire] using found
      subst equal
      constructor
      · exact ⟨_, Admissions.mem_enter.mpr (Or.inl ⟨rfl, rfl⟩), rfl⟩
      · intro index call here named
        rcases Admissions.mem_enter.mp here with ⟨same, -⟩ | ⟨-, here⟩
        · exact Nat.le_of_eq same
        · exact Nat.le_of_lt (sound.ordered.bound index call here)
    · have found : last ∈ state.admissionTails other := by
        simpa [acquire, same] using found
      obtain ⟨⟨call, here, named⟩, above⟩ := sound.tail other last found
      constructor
      · refine ⟨call, Admissions.mem_enter.mpr (Or.inr ⟨?_, here⟩), named⟩
        exact Nat.ne_of_lt (sound.ordered.bound last call here)
      · intro index call here named
        rcases Admissions.mem_enter.mp here with ⟨-, equal⟩ | ⟨-, here⟩
        · subst equal
          exact absurd named.symm same
        · exact above index call here named
  · intro other nothing index call here named
    by_cases same : other = key
    · simp [acquire, same] at nothing
    · have nothing : state.admissionTails other = none := by
        simpa [acquire, same] using nothing
      rcases Admissions.mem_enter.mp here with ⟨-, equal⟩ | ⟨-, here⟩
      · subst equal
        exact absurd named.symm same
      · exact sound.free other nothing index call here named

theorem sound_release {state : HashAdmissions} (sound : Sound state)
    (index : Nat) : Sound (state.release index) := by
  unfold release
  split
  · next runs =>
      have phase : ∀ other, state.calls.phase other = .settled →
          (state.calls.settle index).phase other = .settled := by
        intro other settled
        rw [Admissions.settle, if_pos runs]
        by_cases same : other = index
        · simp [Admissions.setPhase, same]
        · simpa [Admissions.setPhase, same] using settled
      have calls : (state.calls.settle index).call = state.calls.call := by
        rw [Admissions.settle, if_pos runs]
        rfl
      constructor
      · exact sound.ordered.settle index
      · intro key last found
        dsimp only at found
        rw [calls]
        by_cases tail : state.admissionTails key = some index
        · simp [tail] at found
        · rw [if_neg tail] at found
          exact sound.tail key last found
      · intro key nothing other call here named
        dsimp only at nothing here
        rw [calls] at here
        by_cases tail : state.admissionTails key = some index
        · obtain ⟨⟨holder, found, same⟩, above⟩ := sound.tail key index tail
          rcases Nat.lt_or_eq_of_le (above other call here named) with
            below | equal
          · apply phase
            apply sound.ordered.settled other index below call here holder
              found (named.trans same.symm)
            simp [runs]
          · subst equal
            rw [Admissions.settle, if_pos runs]
            simp [Admissions.setPhase]
        · rw [if_neg tail] at nothing
          exact phase other (sound.free key nothing other call here named)
  · exact sound

theorem sound_run (host : HashHost) (events : List HashEvent) :
    Sound (events.foldl (apply host) empty) := by
  have initial : Sound empty := by
    constructor
    · exact Admissions.Ordered.empty
    · simp [empty]
    · simp [empty, Admissions.empty]
  generalize empty = state at initial
  induction events generalizing state with
  | nil => exact initial
  | cons event rest induction =>
      apply induction
      cases event with
      | acquire infoHash => exact sound_acquire initial (host.key infoHash)
      | release index => exact sound_release initial index
      | start index =>
          have call : (state.calls.start index).call = state.calls.call := by
            unfold Admissions.start
            split
            · rfl
            · rfl
          constructor
          · exact initial.ordered.start index
          · intro key last found
            have tail := initial.tail key last found
            simpa only [apply, call] using tail
          · intro key nothing other entry here named
            simp only [apply, call] at nothing here
            exact settled_start
              (initial.free key nothing other entry here named)

end HashAdmissions

/-! ## Every run -/

theorem waitsFor_backward {Key : Type} {conflicts : Key → Key → Prop}
    {calls : Admissions Key} (ordered : calls.Ordered conflicts)
    {index other : Nat} (waits : calls.WaitsFor index other) :
    other < index ∧ ∃ call ∈ calls.call index, ∃ before ∈ calls.call other,
      conflicts before.key call.key := by
  obtain ⟨call, found, -, inside, -⟩ := waits
  obtain ⟨below, before, there, conflict⟩ :=
    ordered.backward index call found other inside
  exact ⟨below, call, found, before, there, conflict⟩

end Motrix.BtAdmission
