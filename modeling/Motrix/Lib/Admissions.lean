import Motrix.Lib.Acyclic
import Mathlib.Logic.Function.Basic

/-!
# Admissions

Calls are admitted one after another and each captures calls in front of it.
A call runs once all that it captured has settled.  Where a call that starts
has only settled conflicts in front of it, calls that conflict never run at
the same time, and as every capture points backwards no calls wait for each
other in a circle.
-/

namespace Motrix.Lib

variable {Key : Type}

inductive AdmissionPhase where
  | waiting
  | running
  | settled
  deriving DecidableEq

structure AdmissionCall (Key : Type) where
  key : Key
  predecessors : List Nat

/-- The calls by the number of their admission. -/
structure Admissions (Key : Type) where
  count : Nat
  call : Nat → Option (AdmissionCall Key)
  phase : Nat → AdmissionPhase

namespace Admissions

def empty : Admissions Key where
  count := 0
  call _ := none
  phase _ := .waiting

def enter (admissions : Admissions Key) (key : Key)
    (predecessors : List Nat) : Admissions Key where
  count := admissions.count + 1
  call := Function.update admissions.call admissions.count
    (some ⟨key, predecessors⟩)
  phase := admissions.phase

def setPhase (admissions : Admissions Key) (index : Nat)
    (phase : AdmissionPhase) : Admissions Key :=
  { admissions with phase := Function.update admissions.phase index phase }

/-- A call that waits starts once all that it captured has settled. -/
def ready (admissions : Admissions Key) (index : Nat) : Bool :=
  admissions.phase index == .waiting &&
    ((admissions.call index).map fun call =>
      call.predecessors.all fun before =>
        admissions.phase before == .settled) == some true

def start (admissions : Admissions Key) (index : Nat) : Admissions Key :=
  if admissions.ready index then admissions.setPhase index .running
  else admissions

def settle (admissions : Admissions Key) (index : Nat) : Admissions Key :=
  if admissions.phase index = .running then
    admissions.setPhase index .settled
  else admissions

/-- One call waits for another that it captured. -/
def WaitsFor (admissions : Admissions Key) (index other : Nat) : Prop :=
  ∃ call ∈ admissions.call index, admissions.phase index = .waiting ∧
    other ∈ call.predecessors ∧ admissions.phase other ≠ .settled

/-- What a call captured leaves no conflict in front of it uncovered: it has
settled, was captured, or conflicts with a later one that was captured. -/
def Covers (conflicts : Key → Key → Prop) (admissions : Admissions Key)
    (before : Nat) (other call : AdmissionCall Key) : Prop :=
  admissions.phase before = .settled ∨ before ∈ call.predecessors ∨
    ∃ last ∈ call.predecessors, before < last ∧
      ∃ middle ∈ admissions.call last, conflicts other.key middle.key

/-- The conflicts in front of a call that has started have settled, and every
call captured conflicts in front of it that cover the others. -/
structure Ordered (conflicts : Key → Key → Prop)
    (admissions : Admissions Key) : Prop where
  bound : ∀ index, ∀ call ∈ admissions.call index, index < admissions.count
  present : ∀ index, admissions.phase index ≠ .waiting →
    index < admissions.count
  named : ∀ index < admissions.count, (admissions.call index).isSome
  backward : ∀ index, ∀ call ∈ admissions.call index,
    ∀ before ∈ call.predecessors, before < index ∧
      ∃ other ∈ admissions.call before, conflicts other.key call.key
  covered : ∀ before index, before < index →
    ∀ other ∈ admissions.call before, ∀ call ∈ admissions.call index,
      conflicts other.key call.key → Covers conflicts admissions before other call
  settled : ∀ before index, before < index →
    ∀ other ∈ admissions.call before, ∀ call ∈ admissions.call index,
      conflicts other.key call.key → admissions.phase index ≠ .waiting →
        admissions.phase before = .settled

variable {conflicts : Key → Key → Prop} {admissions : Admissions Key}

theorem waiting_of_ready {index : Nat}
    (ready : admissions.ready index = true) :
    admissions.phase index = .waiting := by
  simp only [Admissions.ready, Bool.and_eq_true, beq_iff_eq] at ready
  exact ready.1

theorem mem_enter {key : Key} {predecessors : List Nat} {index : Nat}
    {call : AdmissionCall Key} :
    call ∈ (admissions.enter key predecessors).call index ↔
      index = admissions.count ∧ call = ⟨key, predecessors⟩ ∨
        index ≠ admissions.count ∧ call ∈ admissions.call index := by
  unfold enter
  by_cases same : index = admissions.count
  · subst same
    simp [eq_comm]
  · simp [same]

namespace Ordered

theorem empty : Ordered conflicts (Admissions.empty : Admissions Key) := by
  constructor <;> simp [Admissions.empty]

theorem enter (ordered : Ordered conflicts admissions) {key : Key}
    {predecessors : List Nat}
    (captured : ∀ before ∈ predecessors,
      ∃ other ∈ admissions.call before, conflicts other.key key)
    (covered : ∀ before, ∀ other ∈ admissions.call before,
      conflicts other.key key →
        Covers conflicts admissions before other ⟨key, predecessors⟩) :
    Ordered conflicts (admissions.enter key predecessors) := by
  have old : ∀ {index : Nat} {call : AdmissionCall Key},
      call ∈ admissions.call index →
        call ∈ (admissions.enter key predecessors).call index := by
    intro index call found
    have below := ordered.bound index call found
    exact mem_enter.mpr (Or.inr ⟨Nat.ne_of_lt below, found⟩)
  constructor
  · intro index call found
    rcases mem_enter.mp found with ⟨same, -⟩ | ⟨-, found⟩
    · exact same ▸ Nat.lt_succ_self _
    · exact Nat.lt_succ_of_lt (ordered.bound index call found)
  · intro index past
    exact Nat.lt_succ_of_lt (ordered.present index past)
  · intro index below
    rcases Nat.lt_succ_iff_lt_or_eq.mp below with below | same
    · obtain ⟨call, found⟩ :=
        Option.isSome_iff_exists.mp (ordered.named index below)
      exact Option.isSome_iff_exists.mpr ⟨call, old found⟩
    · rw [same]
      simp [Admissions.enter]
  · intro index call found before inside
    rcases mem_enter.mp found with ⟨same, equal⟩ | ⟨-, found⟩
    · subst same
      subst equal
      obtain ⟨other, there, conflict⟩ := captured before inside
      exact ⟨ordered.bound before other there, other, old there, conflict⟩
    · obtain ⟨below, other, there, conflict⟩ :=
        ordered.backward index call found before inside
      exact ⟨below, other, old there, conflict⟩
  · intro before index below other there call found conflict
    have keeps : ∀ {entry : AdmissionCall Key},
        Covers conflicts admissions before other entry →
        Covers conflicts (admissions.enter key predecessors) before other
          entry := by
      intro entry covers
      rcases covers with settles | inside | ⟨last, inside, later, middle, there,
        conflict⟩
      · exact Or.inl settles
      · exact Or.inr (Or.inl inside)
      · exact Or.inr (Or.inr ⟨last, inside, later, middle, old there,
          conflict⟩)
    have first : before ≠ admissions.count := by
      intro same
      rcases mem_enter.mp found with ⟨equal, -⟩ | ⟨-, found⟩
      · omega
      · have bound := ordered.bound index call found
        omega
    have there : other ∈ admissions.call before := by
      rcases mem_enter.mp there with ⟨same, -⟩ | ⟨-, there⟩
      · exact absurd same first
      · exact there
    rcases mem_enter.mp found with ⟨-, equal⟩ | ⟨-, found⟩
    · subst equal
      exact keeps (covered before other there conflict)
    · exact keeps (ordered.covered before index below other there call found
        conflict)
  · intro before index below other there call found conflict past
    have bound := ordered.present index past
    rcases mem_enter.mp found with ⟨same, -⟩ | ⟨-, found⟩
    · exact absurd bound (same ▸ Nat.lt_irrefl _)
    · rcases mem_enter.mp there with ⟨same, -⟩ | ⟨-, there⟩
      · omega
      · exact ordered.settled before index below other there call found
          conflict past

/-- A phase may change where every conflict in front has settled. -/
theorem setPhase (ordered : Ordered conflicts admissions) {index : Nat}
    {phase : AdmissionPhase} (bound : index < admissions.count)
    (front : ∀ before < index, ∀ other ∈ admissions.call before,
      ∀ call ∈ admissions.call index, conflicts other.key call.key →
        admissions.phase before = .settled)
    (behind : admissions.phase index = .settled → phase = .settled) :
    Ordered conflicts (admissions.setPhase index phase) := by
  constructor
  · exact ordered.bound
  · intro place past
    by_cases same : place = index
    · exact same ▸ bound
    · apply ordered.present place
      simpa [Admissions.setPhase, same] using past
  · exact ordered.named
  · exact ordered.backward
  · intro before place below other there call found conflict
    rcases ordered.covered before place below other there call found conflict
      with settles | captured
    · left
      by_cases same : before = index
      · subst same
        simp [Admissions.setPhase, behind settles]
      · simpa [Admissions.setPhase, same] using settles
    · exact Or.inr captured
  · intro before place below other there call found conflict past
    have settles : admissions.phase before = .settled := by
      by_cases same : place = index
      · subst same
        exact front before below other there call found conflict
      · apply ordered.settled before place below other there call found
          conflict
        simpa [Admissions.setPhase, same] using past
    by_cases same : before = index
    · subst same
      simp [Admissions.setPhase, behind settles]
    · simpa [Admissions.setPhase, same] using settles

/-- What a call captured has settled, and so has what that covers. -/
theorem start (ordered : Ordered conflicts admissions) (index : Nat) :
    Ordered conflicts (admissions.start index) := by
  unfold Admissions.start
  split
  · next ready =>
      have waits := waiting_of_ready ready
      obtain ⟨call, found, captured⟩ : ∃ call,
          admissions.call index = some call ∧ ∀ before ∈ call.predecessors,
            admissions.phase before = .settled := by
        cases found : admissions.call index with
        | some call =>
            refine ⟨call, rfl, ?_⟩
            simpa [Admissions.ready, found, waits] using ready
        | none => simp [Admissions.ready, found] at ready
      apply ordered.setPhase (ordered.bound index call found)
      · intro before below other there entry here conflict
        cases Option.some.inj (found.symm.trans here)
        rcases ordered.covered before index below other there call found
          conflict with settles | inside | ⟨last, inside, later, middle, among,
            conflict⟩
        · exact settles
        · exact captured before inside
        · apply ordered.settled before last later other there middle among
            conflict
          simp [captured last inside]
      · intro settled
        rw [waits] at settled
        cases settled
  · exact ordered

theorem settle (ordered : Ordered conflicts admissions) (index : Nat) :
    Ordered conflicts (admissions.settle index) := by
  unfold Admissions.settle
  split
  · next runs =>
      have past : admissions.phase index ≠ .waiting := by
        simp [runs]
      apply ordered.setPhase (ordered.present index past)
      · intro before below other there call found conflict
        exact ordered.settled before index below other there call found
          conflict past
      · intro settled
        rfl
  · exact ordered

/-! ## What the order means -/

theorem exclusive (ordered : Ordered conflicts admissions)
    (symmetric : ∀ first second, conflicts first second →
      conflicts second first)
    {first second : Nat} {left right : AdmissionCall Key}
    (leftCall : left ∈ admissions.call first)
    (rightCall : right ∈ admissions.call second) (apart : first ≠ second)
    (conflict : conflicts left.key right.key)
    (leftRuns : admissions.phase first = .running) :
    admissions.phase second ≠ .running := by
  intro rightRuns
  rcases Nat.lt_or_gt_of_ne apart with below | above
  · have settled := ordered.settled first second below left leftCall right
      rightCall conflict (by simp [rightRuns])
    simp [leftRuns] at settled
  · have settled := ordered.settled second first above right rightCall left
      leftCall (symmetric _ _ conflict) (by simp [leftRuns])
    simp [rightRuns] at settled

theorem acyclic (ordered : Ordered conflicts admissions) :
    Acyclic admissions.WaitsFor := by
  have back : ∀ first second, admissions.WaitsFor first second →
      second < first := by
    intro first second waits
    obtain ⟨call, found, -, inside, -⟩ := waits
    exact (ordered.backward first call found second inside).1
  intro index cycle
  have below : ∀ last, Relation.TransGen admissions.WaitsFor index last →
      last < index := by
    intro last path
    induction path with
    | single step => exact back _ _ step
    | tail _ step induction => exact Nat.lt_trans (back _ _ step) induction
  exact Nat.lt_irrefl index (below index cycle)

/-- While a call has not settled, some call runs or can start. -/
theorem progress (ordered : Ordered conflicts admissions) {index : Nat}
    (bound : index < admissions.count)
    (pending : admissions.phase index ≠ .settled) :
    ∃ other ≤ index, admissions.phase other = .running ∨
      admissions.ready other = true := by
  induction index using Nat.strongRecOn with
  | ind index induction =>
      obtain ⟨call, found⟩ :=
        Option.isSome_iff_exists.mp (ordered.named index bound)
      by_cases all : ∀ before ∈ call.predecessors,
          admissions.phase before = .settled
      · refine ⟨index, Nat.le_refl index, ?_⟩
        cases phase : admissions.phase index with
        | running => exact Or.inl rfl
        | settled => exact absurd phase pending
        | waiting =>
            right
            simpa [ready, phase, found] using all
      · push Not at all
        obtain ⟨before, inside, waits⟩ := all
        have below := (ordered.backward index call found before inside).1
        obtain ⟨other, least, active⟩ :=
          induction before below (Nat.lt_trans below bound) waits
        exact ⟨other, Nat.le_trans least (Nat.le_of_lt below), active⟩

end Ordered

end Admissions

end Motrix.Lib
