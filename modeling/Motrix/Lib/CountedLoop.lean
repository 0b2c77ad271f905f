import Mathlib.Logic.Function.Iterate

/-!
# Loops that count

Computations that may fail or not end, given by what they have returned within
an amount of fuel.  A loop whose counter is exact up to a limit and then stays
there, as `i++` does on a number of a floating-point format, ends exactly if its
bound is within the limit or its body fails at last.
-/

namespace Motrix.Lib

/-- A computation; more fuel does not change what it has returned. -/
structure Run (Failure Result : Type) where
  within : Nat → Option (Except Failure Result)
  settles : ∀ {fuel more result}, fuel ≤ more → within fuel = some result →
    within more = some result

namespace Run

variable {Failure Result Next : Type}

def Returns (run : Run Failure Result) (result : Except Failure Result) :
    Prop :=
  ∃ fuel, run.within fuel = some result

def Ends (run : Run Failure Result) : Prop :=
  ∃ result, run.Returns result

def lift (result : Except Failure Result) : Run Failure Result where
  within _ := some result
  settles _ returned := returned

def bind (run : Run Failure Result) (next : Result → Run Failure Next) :
    Run Failure Next where
  within fuel :=
    match run.within fuel with
    | none => none
    | some (.error failure) => some (.error failure)
    | some (.ok value) => (next value).within fuel
  settles := by
    intro fuel more result enough returned
    cases first : run.within fuel with
    | none =>
        rw [first] at returned
        cases returned
    | some ended =>
        rw [first] at returned
        rw [run.settles enough first]
        cases ended with
        | error failure => exact returned
        | ok value => exact (next value).settles enough returned

instance : Monad (Run Failure) where
  pure value := lift (.ok value)
  bind := bind

theorem Returns.unique {run : Run Failure Result}
    {one other : Except Failure Result} (first : run.Returns one)
    (second : run.Returns other) : one = other := by
  obtain ⟨fuel, first⟩ := first
  obtain ⟨more, second⟩ := second
  have once := run.settles (Nat.le_max_left fuel more) first
  have again := run.settles (Nat.le_max_right fuel more) second
  exact Option.some.inj (once.symm.trans again)

theorem ends_lift (result : Except Failure Result) : (lift result).Ends :=
  ⟨result, 0, rfl⟩

theorem ends_pure (value : Result) :
    (pure value : Run Failure Result).Ends :=
  ends_lift _

theorem returns_lift_iff {result other : Except Failure Result} :
    (lift result).Returns other ↔ result = other := by
  constructor
  · rintro ⟨fuel, returned⟩
    exact Option.some.inj returned
  · rintro rfl
    exact ⟨0, rfl⟩

/-- What follows runs where the first part returns a value. -/
theorem ends_bind_iff {run : Run Failure Result}
    {next : Result → Run Failure Next} :
    (run >>= next).Ends ↔
      (∃ failure, run.Returns (.error failure)) ∨
        ∃ value, run.Returns (.ok value) ∧ (next value).Ends := by
  constructor
  · rintro ⟨result, fuel, returned⟩
    change (bind run next).within fuel = some result at returned
    simp only [bind] at returned
    cases first : run.within fuel with
    | none =>
        rw [first] at returned
        cases returned
    | some ended =>
        rw [first] at returned
        cases ended with
        | error failure => exact Or.inl ⟨failure, fuel, first⟩
        | ok value => exact Or.inr ⟨value, ⟨fuel, first⟩, result, fuel, returned⟩
  · rintro (⟨failure, fuel, failed⟩ | ⟨value, ⟨fuel, first⟩, result, more, ended⟩)
    · refine ⟨.error failure, fuel, ?_⟩
      change (bind run next).within fuel = _
      simp only [bind, failed]
    · refine ⟨result, max fuel more, ?_⟩
      have returned := run.settles (Nat.le_max_left fuel more) first
      have followed := (next value).settles (Nat.le_max_right fuel more) ended
      change (bind run next).within _ = _
      simp only [bind, returned, followed]

theorem ends_lift_bind_iff {result : Except Failure Result}
    {next : Result → Run Failure Next} :
    (lift result >>= next).Ends ↔
      ∀ value, result = .ok value → (next value).Ends := by
  rw [ends_bind_iff]
  simp only [returns_lift_iff]
  constructor
  · rintro (⟨failure, failed⟩ | ⟨value, returned, ends⟩) other same
    · rw [failed] at same
      cases same
    · rw [returned] at same
      cases same
      exact ends
  · intro ends
    cases result with
    | error failure => exact Or.inl ⟨failure, rfl⟩
    | ok value => exact Or.inr ⟨value, rfl, ends value rfl⟩

theorem ends_bind_pure_iff {run : Run Failure Result} {map : Result → Next} :
    (run >>= fun value => pure (map value)).Ends ↔ run.Ends := by
  rw [ends_bind_iff]
  constructor
  · rintro (⟨failure, failed⟩ | ⟨value, returned, -⟩)
    · exact ⟨_, failed⟩
    · exact ⟨_, returned⟩
  · rintro ⟨result, returned⟩
    cases result with
    | error failure => exact Or.inl ⟨failure, returned⟩
    | ok value => exact Or.inr ⟨value, returned, ends_pure _⟩

end Run

namespace CountedLoop

variable {State Failure View : Type} {test : State → Bool}
  {body : State → Except Failure State} {counter : State → Nat}
  {limit : Nat} {bound : Option Nat} {state next : State}

/-- `while (test) body` -/
def turns (test : State → Bool) (body : State → Except Failure State) :
    Nat → State → Option (Except Failure State)
  | 0, _ => none
  | fuel + 1, state =>
      if test state then
        match body state with
        | .error failure => some (.error failure)
        | .ok next => turns test body fuel next
      else
        some (.ok state)

theorem turns_settles {fuel more : Nat} {result : Except Failure State}
    (enough : fuel ≤ more) (ended : turns test body fuel state = some result) :
    turns test body more state = some result := by
  induction fuel generalizing more state with
  | zero => cases ended
  | succ fuel induction =>
      obtain ⟨more, rfl⟩ := Nat.exists_eq_add_of_lt enough
      rw [turns] at ended ⊢
      split at ended
      · rename_i goes
        rw [if_pos goes]
        cases done : body state with
        | error failure => rwa [done] at ended
        | ok next =>
            rw [done] at ended
            exact induction (Nat.le_add_right _ _) ended
      · rename_i stops
        rwa [if_neg stops]

def loop (test : State → Bool) (body : State → Except Failure State)
    (state : State) : Run Failure State where
  within fuel := turns test body fuel state
  settles := turns_settles

/-- The body as often as the number says. -/
def times (body : State → Except Failure State) :
    Nat → State → Except Failure State
  | 0, state => .ok state
  | rounds + 1, state =>
      match body state with
      | .error failure => .error failure
      | .ok next => times body rounds next

/-- The counter one round later. -/
def count (limit counter : Nat) : Nat :=
  if counter < limit then counter + 1 else counter

/-- Whether the counter is below the bound; no bound is an infinite one. -/
def below (bound : Option Nat) (counter : Nat) : Bool :=
  match bound with
  | none => true
  | some bound => decide (counter < bound)

/-- The bound is one that the counter reaches. -/
def Within (limit : Nat) (bound : Option Nat) : Prop :=
  ∃ rounds, bound = some rounds ∧ rounds ≤ limit

/-- The loop is controlled by its counter alone. -/
structure Counts (limit : Nat) (bound : Option Nat) (test : State → Bool)
    (body : State → Except Failure State) (counter : State → Nat) : Prop where
  tests : ∀ state, test state = below bound (counter state)
  counts : ∀ state next, body state = .ok next →
    counter next = count limit (counter state)

theorem count_le {value : Nat} (within : value ≤ limit) :
    count limit value ≤ limit := by
  unfold count
  split
  · assumption
  · exact within

theorem below_of_beyond (beyond : ¬ Within limit bound) {value : Nat}
    (within : value ≤ limit) : below bound value = true := by
  cases bound with
  | none => rfl
  | some rounds =>
      apply decide_eq_true
      apply Nat.lt_of_not_le
      intro reached
      exact beyond ⟨rounds, rfl, Nat.le_trans reached within⟩

/-! ## Results -/

/-- A bound that is reached makes that many rounds. -/
theorem Counts.loop_within (counts : Counts limit bound test body counter)
    {rounds : Nat} (bounded : bound = some (counter state + rounds))
    (within : counter state + rounds ≤ limit) :
    (loop test body state).Returns (times body rounds state) := by
  refine ⟨rounds + 1, ?_⟩
  show turns test body (rounds + 1) state = _
  induction rounds generalizing state with
  | zero =>
      have stops : test state = false := by
        rw [counts.tests, bounded]
        exact decide_eq_false (Nat.lt_irrefl _)
      simp [turns, stops, times]
  | succ rounds induction =>
      have fewer : counter state < counter state + (rounds + 1) :=
        Nat.lt_add_of_pos_right (Nat.succ_pos _)
      have goes : test state = true := by
        rw [counts.tests, bounded]
        exact decide_eq_true fewer
      rw [turns, if_pos goes, times]
      cases done : body state with
      | error failure => rfl
      | ok next =>
          have counted : counter next = counter state + 1 := by
            rw [counts.counts _ _ done]
            exact if_pos (Nat.lt_of_lt_of_le fewer within)
          have same : counter state + (rounds + 1) = counter next + rounds := by
            rw [counted, Nat.add_assoc, Nat.add_comm 1]
          apply induction
          · rw [bounded, same]
          · rw [← same]
            exact within

/-- Where the bound is not reached only a failure of the body ends the loop. -/
theorem Counts.loop_beyond (counts : Counts limit bound test body counter)
    (beyond : ¬ Within limit bound) (within : counter state ≤ limit)
    {result : Except Failure State}
    (ended : (loop test body state).Returns result) :
    ∃ rounds failure, times body rounds state = .error failure := by
  obtain ⟨fuel, ended⟩ := ended
  change turns test body fuel state = some result at ended
  induction fuel generalizing state with
  | zero => cases ended
  | succ fuel induction =>
      have goes : test state = true := by
        rw [counts.tests, below_of_beyond beyond within]
      rw [turns, if_pos goes] at ended
      cases done : body state with
      | error failure => exact ⟨1, failure, by simp [times, done]⟩
      | ok next =>
          rw [done] at ended
          have counted : counter next ≤ limit := by
            rw [counts.counts _ _ done]
            exact count_le within
          obtain ⟨rounds, failure, fails⟩ := induction counted ended
          exact ⟨rounds + 1, failure, by simp [times, done, fails]⟩

theorem Counts.loop_fails (counts : Counts limit bound test body counter)
    (beyond : ¬ Within limit bound) (within : counter state ≤ limit)
    {rounds : Nat} {failure : Failure}
    (fails : times body rounds state = .error failure) :
    (loop test body state).Returns (.error failure) := by
  refine ⟨rounds, ?_⟩
  show turns test body rounds state = _
  induction rounds generalizing state with
  | zero => cases fails
  | succ rounds induction =>
      have goes : test state = true := by
        rw [counts.tests, below_of_beyond beyond within]
      rw [turns, if_pos goes]
      rw [times] at fails
      cases done : body state with
      | error other =>
          rw [done] at fails
          cases fails
          rfl
      | ok next =>
          rw [done] at fails
          apply induction _ fails
          rw [counts.counts _ _ done]
          exact count_le within

/-! ## What the body looks at -/

/-- The body fails by what is seen of the state, and moves that along. -/
structure Follows (body : State → Except Failure State) (view : State → View)
    (move : View → View) (Fails : View → Prop) : Prop where
  fails : ∀ state failure, body state = .error failure → Fails (view state)
  moves : ∀ state next, body state = .ok next →
    ¬ Fails (view state) ∧ view next = move (view state)

variable {view : State → View} {move : View → View} {Fails : View → Prop}

theorem Follows.times_ok (follows : Follows body view move Fails)
    {rounds : Nat} (done : times body rounds state = .ok next) :
    view next = move^[rounds] (view state) ∧
      ∀ round < rounds, ¬ Fails (move^[round] (view state)) := by
  induction rounds generalizing state with
  | zero =>
      cases done
      exact ⟨rfl, fun round before => absurd before (Nat.not_lt_zero _)⟩
  | succ rounds induction =>
      rw [times] at done
      cases first : body state with
      | error failure =>
          rw [first] at done
          cases done
      | ok middle =>
          rw [first] at done
          obtain ⟨fine, moved⟩ := follows.moves _ _ first
          obtain ⟨there, later⟩ := induction done
          rw [moved] at there later
          refine ⟨there, fun round before => ?_⟩
          cases round with
          | zero => exact fine
          | succ round => exact later round (Nat.lt_of_succ_lt_succ before)

theorem Follows.times_error (follows : Follows body view move Fails)
    {rounds : Nat} {failure : Failure}
    (failed : times body rounds state = .error failure) :
    ∃ round < rounds, Fails (move^[round] (view state)) := by
  induction rounds generalizing state with
  | zero => cases failed
  | succ rounds induction =>
      rw [times] at failed
      cases first : body state with
      | error other =>
          exact ⟨0, Nat.succ_pos _, follows.fails _ _ first⟩
      | ok middle =>
          rw [first] at failed
          obtain ⟨round, before, fails⟩ := induction failed
          rw [(follows.moves _ _ first).2] at fails
          exact ⟨round + 1, Nat.succ_lt_succ before, fails⟩

theorem Follows.error_iff (follows : Follows body view move Fails)
    (rounds : Nat) :
    (∃ failure, times body rounds state = .error failure) ↔
      ∃ round < rounds, Fails (move^[round] (view state)) := by
  constructor
  · rintro ⟨failure, failed⟩
    exact follows.times_error failed
  · rintro ⟨round, before, fails⟩
    cases ended : times body rounds state with
    | error failure => exact ⟨failure, rfl⟩
    | ok next => exact absurd fails ((follows.times_ok ended).2 round before)

/-- What follows such a loop runs where the counter reaches the bound and no
failing view is met before. -/
theorem Follows.ends_bind_iff {Result : Type}
    (follows : Follows body view move Fails)
    (counts : Counts limit bound test body counter)
    (fresh : counter state = 0) (next : State → Run Failure Result)
    (Then : View → Prop)
    (ends : ∀ state, (next state).Ends ↔ Then (view state)) :
    (loop test body state >>= next).Ends ↔
      (¬ Within limit bound ∧ ∃ round, Fails (move^[round] (view state))) ∨
        ∃ rounds, bound = some rounds ∧ rounds ≤ limit ∧
          ((∃ round < rounds, Fails (move^[round] (view state))) ∨
            Then (move^[rounds] (view state))) := by
  have low : counter state ≤ limit := fresh ▸ Nat.zero_le _
  rw [Run.ends_bind_iff]
  by_cases within : Within limit bound
  · obtain ⟨rounds, bounded, reached⟩ := id within
    have returned : (loop test body state).Returns (times body rounds state) := by
      apply counts.loop_within
      · rw [fresh, Nat.zero_add, bounded]
      · rw [fresh, Nat.zero_add]
        exact reached
    constructor
    · rintro (⟨failure, failed⟩ | ⟨value, done, ended⟩)
      · have fails := follows.times_error (failed.unique returned).symm
        exact Or.inr ⟨rounds, bounded, reached, Or.inl fails⟩
      · have there := follows.times_ok (done.unique returned).symm
        refine Or.inr ⟨rounds, bounded, reached, Or.inr ?_⟩
        rw [← there.1]
        exact (ends value).mp ended
    · rintro (⟨beyond, -⟩ | ⟨other, same, -, fails⟩)
      · exact absurd within beyond
      · obtain rfl := Option.some.inj (bounded.symm.trans same)
        cases done : times body rounds state with
        | error failure =>
            rw [done] at returned
            exact Or.inl ⟨failure, returned⟩
        | ok value =>
            rw [done] at returned
            obtain ⟨there, fine⟩ := follows.times_ok done
            refine Or.inr ⟨value, returned, (ends value).mpr ?_⟩
            rw [there]
            apply fails.resolve_left
            rintro ⟨round, before, failing⟩
            exact fine round before failing
  · constructor
    · intro ended
      have failed : ∃ rounds failure,
          times body rounds state = .error failure := by
        rcases ended with ⟨failure, failed⟩ | ⟨value, done, -⟩
        · exact counts.loop_beyond within low failed
        · exact counts.loop_beyond within low done
      obtain ⟨rounds, failed⟩ := failed
      obtain ⟨round, -, fails⟩ := (follows.error_iff rounds).mp failed
      exact Or.inl ⟨within, round, fails⟩
    · rintro (⟨-, round, fails⟩ | ⟨rounds, bounded, reached, -⟩)
      · obtain ⟨failure, failed⟩ := (follows.error_iff (round + 1)).mpr
          ⟨round, Nat.lt_succ_self _, fails⟩
        exact Or.inl ⟨failure, counts.loop_fails within low failed⟩
      · exact absurd ⟨rounds, bounded, reached⟩ within

theorem Follows.ends_bind_pure_iff {Result : Type}
    (follows : Follows body view move Fails)
    (counts : Counts limit bound test body counter)
    (fresh : counter state = 0) (map : State → Result) :
    (loop test body state >>= fun last => pure (map last)).Ends ↔
      Within limit bound ∨ ∃ round, Fails (move^[round] (view state)) := by
  have cases : (loop test body state >>= fun last => pure (map last)).Ends ↔
      (¬ Within limit bound ∧ ∃ round, Fails (move^[round] (view state))) ∨
        ∃ rounds, bound = some rounds ∧ rounds ≤ limit ∧
          ((∃ round < rounds, Fails (move^[round] (view state))) ∨ True) :=
    follows.ends_bind_iff counts fresh _ (fun _ => True)
      fun last => iff_true_intro (Run.ends_pure (map last))
  rw [cases]
  constructor
  · rintro (⟨-, fails⟩ | ⟨rounds, bounded, reached, -⟩)
    · exact Or.inr fails
    · exact Or.inl ⟨rounds, bounded, reached⟩
  · intro ends
    by_cases within : Within limit bound
    · obtain ⟨rounds, bounded, reached⟩ := within
      exact Or.inr ⟨rounds, bounded, reached, Or.inr trivial⟩
    · exact Or.inl ⟨within, ends.resolve_left within⟩

end CountedLoop

end Motrix.Lib
