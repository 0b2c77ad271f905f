import Mathlib.Data.List.Basic

/-!
# Runs whose steps keep a rule

A machine answers events one after another.  `Steps` says that every event of
a run meets a rule in the state it finds; what such a step preserves, the run
preserves.
-/

namespace Motrix.Lib

variable {State Event : Type} {apply : State → Event → State}
  {rule : State → Event → Prop}

def Steps (apply : State → Event → State) (rule : State → Event → Prop) :
    State → List Event → Prop
  | _, [] => True
  | state, event :: rest =>
      rule state event ∧ Steps apply rule (apply state event) rest

namespace Steps

instance decidable [∀ state event, Decidable (rule state event)] :
    ∀ (state : State) (events : List Event),
      Decidable (Steps apply rule state events)
  | _, [] => inferInstanceAs (Decidable True)
  | state, event :: rest =>
      have := decidable (apply state event) rest
      inferInstanceAs (Decidable (_ ∧ _))

theorem invariant {holds : State → Prop}
    (step : ∀ state event, holds state → rule state event →
      holds (apply state event))
    {state : State} {events : List Event} (initial : holds state)
    (steps : Steps apply rule state events) :
    holds (events.foldl apply state) := by
  induction events generalizing state with
  | nil => exact initial
  | cons event rest induction =>
      exact induction (step state event initial steps.1) steps.2

theorem front {state : State} {before after : List Event}
    (steps : Steps apply rule state (before ++ after)) :
    Steps apply rule state before := by
  induction before generalizing state with
  | nil => trivial
  | cons event rest induction => exact ⟨steps.1, induction steps.2⟩

theorem both {other : State → Event → Prop} {state : State}
    {events : List Event} (steps : Steps apply rule state events)
    (others : Steps apply other state events) :
    Steps apply (fun state event => rule state event ∧ other state event)
      state events := by
  induction events generalizing state with
  | nil => trivial
  | cons event rest induction =>
      exact ⟨⟨steps.1, others.1⟩, induction steps.2 others.2⟩

end Steps

end Motrix.Lib

/-!
# Guarded logs

A log that grows at its end is guarded when every entry was allowed by the
entries in front of it.  Safety statements of the form "this never happens
before that" are guards.
-/

namespace Motrix.Lib

variable {Entry : Type}

def Guarded (guard : List Entry → Entry → Prop) (log : List Entry) : Prop :=
  ∀ before entry after, log = before ++ entry :: after → guard before entry

namespace Guarded

variable {guard : List Entry → Entry → Prop} {log : List Entry}

theorem nil : Guarded guard [] := by
  intro before entry after split
  simp at split

theorem concat {entry : Entry} (guarded : Guarded guard log)
    (allowed : guard log entry) : Guarded guard (log ++ [entry]) := by
  intro before chosen after split
  rcases List.eq_nil_or_concat after with rfl | ⟨front, last, rfl⟩
  · obtain ⟨rfl, same⟩ := List.append_inj' split rfl
    simp only [List.cons.injEq, and_true] at same
    exact same ▸ allowed
  · have split' : log ++ [entry] = (before ++ chosen :: front) ++ [last] := by
      simpa using split
    obtain ⟨same, -⟩ := List.append_inj' split' rfl
    exact guarded before chosen front same

/-- An entry that is only allowed when it has not happened yet happens at most
once. -/
theorem atMostOnce {mark : Entry → Bool}
    (guarded : Guarded guard log)
    (first : ∀ before entry, guard before entry → mark entry →
      ∀ earlier ∈ before, ¬ mark earlier) :
    (log.filter mark).length ≤ 1 := by
  rcases selected : log.filter mark with _ | ⟨one, _ | ⟨two, rest⟩⟩
  · exact Nat.zero_le _
  · exact Nat.le_refl _
  · exfalso
    obtain ⟨front, back, rfl, frontNone, oneMarked, selected'⟩ :=
      List.filter_eq_cons_iff.mp selected
    obtain ⟨middle, tail, rfl, -, twoMarked, -⟩ :=
      List.filter_eq_cons_iff.mp selected'
    have allowed := guarded (front ++ one :: middle) two tail (by simp)
    exact first _ _ allowed twoMarked one (by simp) oneMarked

end Guarded

end Motrix.Lib

/-!
# What has lasted since an entry of a log

`Since breaks start log`: some entry of the log was a start in view of the
entries in front of it, and no entry after it breaks what it started.
-/

namespace Motrix.Lib

variable {Entry : Type} {breaks : Entry → Bool}
  {start : List Entry → Entry → Prop} {log : List Entry} {entry : Entry}

def Since (breaks : Entry → Bool) (start : List Entry → Entry → Prop)
    (log : List Entry) : Prop :=
  ∃ before entry after, log = before ++ entry :: after ∧
    start before entry ∧ ∀ later ∈ after, breaks later = false

namespace Since

theorem here (starts : start log entry) :
    Since breaks start (log ++ [entry]) :=
  ⟨log, entry, [], rfl, starts, fun _ member => by cases member⟩

theorem append {more : List Entry} (since : Since breaks start log)
    (harmless : ∀ later ∈ more, breaks later = false) :
    Since breaks start (log ++ more) := by
  obtain ⟨before, entry, after, rfl, starts, kept⟩ := since
  refine ⟨before, entry, after ++ more, by simp, starts, ?_⟩
  intro later member
  rcases List.mem_append.mp member with old | new
  · exact kept later old
  · exact harmless later new

theorem concat (since : Since breaks start log)
    (harmless : breaks entry = false) :
    Since breaks start (log ++ [entry]) := by
  apply since.append
  intro later member
  rw [List.mem_singleton.mp member]
  exact harmless

end Since

end Motrix.Lib
