import Mathlib.Data.List.Nodup
import Mathlib.Logic.Function.Basic
import Mathlib.Data.List.Induction

/-!
# Idempotent adds

A keyed add shares the result of the add that is cached under its key.  The
promise of an execution settles at some time, and the reaction of the cache to
it runs at some later time; requests of other sessions come in between.
-/

namespace Motrix.Bridge.IdempotencyCache

/-- A promise of a value. -/
inductive Promise (Value Failure : Type) where
  | pending
  | fulfilled (value : Value)
  | rejected (failure : Failure)
  deriving DecidableEq, Repr

/-- `JSON.stringify([clientKey(ctx.identity), key])` -/
abbrev ScopeKey := String × String

/-- An entry of the cache: the execution whose promise it holds. -/
structure CacheEntry where
  scopeKey : ScopeKey
  execution : Nat
  settled : Bool
  deriving DecidableEq, Repr

/-- A call of `exec`; a direct one has no key. -/
structure Execution (Value Failure : Type) where
  scopeKey : Option ScopeKey
  result : Promise Value Failure
  reacted : Bool

/-- A request of a session, and the execution whose result it gets. -/
structure AddRequest where
  scopeKey : Option ScopeKey
  execution : Nat
  deriving DecidableEq, Repr

structure AddState (Value Failure : Type) where
  entries : List CacheEntry
  executions : Nat → Option (Execution Value Failure)
  next : Nat
  requests : List AddRequest
  /-- The executions whose entries were removed to make room. -/
  evicted : List Nat

inductive AddEvent (Value Failure : Type) where
  | request (clientKey : String) (idempotencyKey : Option String)
  | fulfil (execution : Nat) (value : Value)
  | reject (execution : Nat) (failure : Failure)
  | react (execution : Nat)

section Machine

variable {Value Failure : Type}

def initialState : AddState Value Failure :=
  { entries := []
    executions := fun _ => none
    next := 0
    requests := []
    evicted := [] }

namespace AddState

/-- `exec()` -/
def execute (state : AddState Value Failure) (scopeKey : Option ScopeKey) :
    AddState Value Failure :=
  { state with
    executions := Function.update state.executions state.next
      (some
        { scopeKey
          result := .pending
          reacted := false })
    next := state.next + 1 }

/-- The oldest settled entry makes room, if there is one. -/
def evict (state : AddState Value Failure) (maxKeys : Nat) :
    AddState Value Failure :=
  if maxKeys ≤ state.entries.length then
    match state.entries.find? (·.settled) with
    | none => state
    | some oldest =>
        { state with
          entries := state.entries.filter (·.scopeKey ≠ oldest.scopeKey)
          evicted := oldest.execution :: state.evicted }
  else state

def answer (state : AddState Value Failure) (scopeKey : Option ScopeKey)
    (execution : Nat) : AddState Value Failure :=
  { state with
    requests := state.requests ++
      [{ scopeKey
         execution }] }

/-- `IdempotencyCache.run` -/
def run (state : AddState Value Failure) (maxKeys : Nat)
    (scopeKey : ScopeKey) : AddState Value Failure :=
  match state.entries.find? (·.scopeKey = scopeKey) with
  | some known => state.answer (some scopeKey) known.execution
  | none =>
      let entry : CacheEntry :=
        { scopeKey
          execution := state.next
          settled := false }
      let evicted := (state.execute (some scopeKey)).evict maxKeys
      let cached := { evicted with entries := evicted.entries ++ [entry] }
      cached.answer (some scopeKey) state.next

/-- The handler of `download/add`; an empty key is no key. -/
def downloadAdd (state : AddState Value Failure) (maxKeys : Nat)
    (clientKey : String) (idempotencyKey : Option String) :
    AddState Value Failure :=
  match idempotencyKey with
  | none => (state.execute none).answer none state.next
  | some key =>
      if key = "" then (state.execute none).answer none state.next
      else state.run maxKeys (clientKey, key)

/-- A promise settles once. -/
def settle (state : AddState Value Failure) (execution : Nat)
    (result : Promise Value Failure) : AddState Value Failure :=
  match state.executions execution with
  | none => state
  | some running =>
      match running.result with
      | .pending =>
          { state with
            executions := Function.update state.executions execution
              (some { running with result }) }
      | _ => state

/-- `if (this.entries.get(scopeKey) === entry) this.entries.delete(scopeKey)` -/
def forget (entries : List CacheEntry) (scopeKey : ScopeKey)
    (execution : Nat) : List CacheEntry :=
  match entries.find? (·.scopeKey = scopeKey) with
  | none => entries
  | some found =>
      if found.execution = execution then
        entries.filter (·.scopeKey ≠ scopeKey)
      else entries

/-- The reaction of the cache to a settled promise. -/
def react (state : AddState Value Failure) (execution : Nat) :
    AddState Value Failure :=
  match state.executions execution with
  | some { scopeKey := some scopeKey, result, reacted := false } =>
      let reacted :=
        { state with
          executions := Function.update state.executions execution
            (some
              { scopeKey := some scopeKey
                result
                reacted := true }) }
      match result with
      | .pending => state
      | .fulfilled _ =>
          { reacted with
            entries := state.entries.map fun entry =>
              if entry.execution = execution then
                { entry with settled := true }
              else entry }
      | .rejected _ =>
          { reacted with
            entries := forget state.entries scopeKey execution }
  | _ => state

def step (maxKeys : Nat) (state : AddState Value Failure) :
    AddEvent Value Failure → AddState Value Failure
  | .request clientKey idempotencyKey =>
      state.downloadAdd maxKeys clientKey idempotencyKey
  | .fulfil execution value => state.settle execution (.fulfilled value)
  | .reject execution failure => state.settle execution (.rejected failure)
  | .react execution => state.react execution

end AddState

def runEvents (maxKeys : Nat) (events : List (AddEvent Value Failure)) :
    AddState Value Failure :=
  events.foldl (AddState.step maxKeys) initialState

end Machine

end Motrix.Bridge.IdempotencyCache

/-!
# One execution for a key

An entry that is pending stays in the cache, so requests whose promises are
pending at the same time share an execution.  An execution leaves the cache
only by its rejection or by an eviction after it has fulfilled, and only then
another one starts under its key.
-/

namespace Motrix.Bridge.IdempotencyCache

variable {Value Failure : Type}

/-- An entry names an execution under its key, and is settled only if that
has fulfilled. -/
structure Backed (state : AddState Value Failure) (entry : CacheEntry) :
    Prop where
  execution : ∃ running, state.executions entry.execution = some running ∧
    running.scopeKey = some entry.scopeKey ∧
      (entry.settled = true → ∃ value, running.result = .fulfilled value)

/-- The execution is cached under its key, was rejected, or was evicted after
it had fulfilled. -/
def Accounted (state : AddState Value Failure) (id : Nat)
    (running : Execution Value Failure) (scopeKey : ScopeKey) : Prop :=
  (∃ entry ∈ state.entries, entry.execution = id ∧
      entry.scopeKey = scopeKey) ∨
    (∃ failure, running.result = .rejected failure) ∨
    (id ∈ state.evicted ∧ ∃ value, running.result = .fulfilled value)

structure Sound (state : AddState Value Failure) : Prop where
  keys : (state.entries.map (·.scopeKey)).Nodup
  entries : ∀ entry ∈ state.entries, Backed state entry
  executions : ∀ id running scopeKey,
    state.executions id = some running → running.scopeKey = some scopeKey →
      Accounted state id running scopeKey
  ids : ∀ id running, state.executions id = some running → id < state.next
  requests : ∀ request ∈ state.requests, ∃ running,
    state.executions request.execution = some running ∧
      running.scopeKey = request.scopeKey

theorem sound_initial :
    Sound (initialState : AddState Value Failure) where
  keys := List.nodup_nil
  entries := by
    intro entry inside
    cases inside
  executions := by
    intro id running scopeKey found
    cases found
  ids := by
    intro id running found
    cases found
  requests := by
    intro request inside
    cases inside

section Steps

variable {state : AddState Value Failure}

/-- Entries under one key are the same. -/
theorem Sound.unique (sound : Sound state) {left right : CacheEntry}
    (leftInside : left ∈ state.entries) (rightInside : right ∈ state.entries)
    (same : left.scopeKey = right.scopeKey) : left = right :=
  List.inj_on_of_nodup_map sound.keys leftInside rightInside same

/-! ## Executions -/

theorem executions_execute_old (scopeKey : Option ScopeKey) {id : Nat}
    {running : Execution Value Failure} (sound : Sound state)
    (found : state.executions id = some running) :
    (state.execute scopeKey).executions id = some running := by
  have older := sound.ids id running found
  show Function.update state.executions state.next _ id = some running
  rw [Function.update_of_ne (by omega)]
  exact found

theorem executions_execute_cases {scopeKey : Option ScopeKey} {id : Nat}
    {running : Execution Value Failure}
    (found : (state.execute scopeKey).executions id = some running) :
    (id = state.next ∧ running.scopeKey = scopeKey) ∨
      state.executions id = some running := by
  by_cases same : id = state.next
  · left
    refine ⟨same, ?_⟩
    have update : Function.update state.executions state.next
        (some
          { scopeKey
            result := .pending
            reacted := false }) id = some running := found
    rw [same, Function.update_self] at update
    cases update
    rfl
  · right
    have update : Function.update state.executions state.next _ id =
        some running := found
    rwa [Function.update_of_ne same] at update

/-- A direct add runs beside the cache. -/
theorem Sound.direct (sound : Sound state) :
    Sound ((state.execute none).answer none state.next) where
  keys := sound.keys
  entries entry inside := by
    obtain ⟨running, found, rest⟩ := (sound.entries entry inside).execution
    exact ⟨running, executions_execute_old none sound found, rest⟩
  executions id running scopeKey found named := by
    rcases executions_execute_cases found with ⟨-, none'⟩ | older
    · rw [none'] at named
      cases named
    · exact sound.executions id running scopeKey older named
  ids id running found := by
    rcases executions_execute_cases found with ⟨same, -⟩ | older
    · rw [same]
      exact Nat.lt_succ_self _
    · exact Nat.lt_succ_of_lt (sound.ids id running older)
  requests request inside := by
    rcases List.mem_append.mp inside with earlier | last
    · obtain ⟨running, found, named⟩ := sound.requests request earlier
      exact ⟨running, executions_execute_old none sound found, named⟩
    · cases List.mem_singleton.mp last
      exact ⟨_, Function.update_self .., rfl⟩

/-! ## Keyed requests -/

/-- What an eviction keeps and what it takes. -/
structure Evicts (before after : AddState Value Failure) : Prop where
  executions : after.executions = before.executions
  next : after.next = before.next
  requests : after.requests = before.requests
  sublist : after.entries.Sublist before.entries
  evicted : ∀ id, id ∈ before.evicted → id ∈ after.evicted
  removed : ∀ entry ∈ before.entries, entry ∈ after.entries ∨
    (entry.settled = true ∧ entry.execution ∈ after.evicted)

theorem evicts (sound : Sound state) (grown : AddState Value Failure)
    (same : grown.entries = state.entries) (maxKeys : Nat) :
    Evicts grown (grown.evict maxKeys) := by
  have kept : Evicts grown grown :=
    { executions := rfl
      next := rfl
      requests := rfl
      sublist := List.Sublist.refl _
      evicted := fun _ inside => inside
      removed := fun _ inside => .inl inside }
  unfold AddState.evict
  split
  · split
    · exact kept
    · rename_i oldest found
      have inside : oldest ∈ grown.entries := List.mem_of_find?_eq_some found
      have settled : oldest.settled = true := by
        simpa using List.find?_some found
      refine ⟨rfl, rfl, rfl, List.filter_sublist,
        fun _ member => List.mem_cons_of_mem _ member, ?_⟩
      intro entry member
      by_cases named : entry.scopeKey = oldest.scopeKey
      · right
        rw [same] at member inside
        cases sound.unique member inside named
        exact ⟨settled, List.mem_cons_self⟩
      · left
        exact List.mem_filter.mpr ⟨member, by simpa using named⟩
  · exact kept

/-- A known key is answered with its execution. -/
theorem Sound.known (sound : Sound state) {scopeKey : ScopeKey}
    {known : CacheEntry} (inside : known ∈ state.entries)
    (named : known.scopeKey = scopeKey) :
    Sound (state.answer (some scopeKey) known.execution) where
  keys := sound.keys
  entries entry cached := ⟨(sound.entries entry cached).execution⟩
  executions id running key found owned :=
    sound.executions id running key found owned
  ids := sound.ids
  requests request member := by
    rcases List.mem_append.mp member with earlier | last
    · exact sound.requests request earlier
    · cases List.mem_singleton.mp last
      obtain ⟨running, found, owned, -⟩ := (sound.entries known inside).execution
      exact ⟨running, found, owned.trans (congrArg some named)⟩

/-- The entry that a new execution gets. -/
def freshEntry (state : AddState Value Failure) (scopeKey : ScopeKey) :
    CacheEntry :=
  { scopeKey
    execution := state.next
    settled := false }

theorem Sound.fresh (sound : Sound state) {scopeKey : ScopeKey}
    (unknown : ∀ entry ∈ state.entries, entry.scopeKey ≠ scopeKey)
    {evicted : AddState Value Failure}
    (evicts : Evicts (state.execute (some scopeKey)) evicted) :
    Sound (AddState.answer
      { evicted with
        entries := evicted.entries ++ [freshEntry state scopeKey] }
      (some scopeKey) state.next) where
  keys := by
    show ((evicted.entries ++ [freshEntry state scopeKey]).map
      (·.scopeKey)).Nodup
    rw [List.map_append]
    refine List.Nodup.append
      (sound.keys.sublist (evicts.sublist.map (·.scopeKey)))
      (List.nodup_singleton _) ?_
    intro shared old new
    obtain ⟨entry, inside, named⟩ := List.mem_map.mp old
    exact unknown entry (evicts.sublist.subset inside)
      (named.trans (List.mem_singleton.mp new))
  entries entry inside := by
    constructor
    show ∃ running, evicted.executions entry.execution = some running ∧ _
    rw [evicts.executions]
    rcases List.mem_append.mp inside with older | last
    · obtain ⟨running, found, rest⟩ :=
        (sound.entries entry (evicts.sublist.subset older)).execution
      exact ⟨running, executions_execute_old _ sound found, rest⟩
    · cases List.mem_singleton.mp last
      exact ⟨_, Function.update_self .., rfl, fun settled => by cases settled⟩
  executions id running key found named := by
    have found : (state.execute (some scopeKey)).executions id =
        some running := by
      rw [← evicts.executions]
      exact found
    rcases executions_execute_cases found with ⟨same, owned⟩ | older
    · rw [owned] at named
      cases named
      left
      exact ⟨freshEntry state scopeKey, List.mem_append_right _
        List.mem_cons_self, same.symm, rfl⟩
    · rcases sound.executions id running key older named with
        ⟨entry, inside, sameId, sameKey⟩ | rejected | ⟨gone, fulfilled⟩
      · rcases evicts.removed entry inside with kept | ⟨settled, gone⟩
        · exact .inl ⟨entry, List.mem_append_left _ kept, sameId, sameKey⟩
        · obtain ⟨backing, backed, -, fulfilled⟩ :=
            (sound.entries entry inside).execution
          rw [sameId, older] at backed
          cases backed
          rw [sameId] at gone
          exact .inr (.inr ⟨gone, fulfilled settled⟩)
      · exact .inr (.inl rejected)
      · exact .inr (.inr ⟨evicts.evicted id gone, fulfilled⟩)
  ids id running found := by
    have found : (state.execute (some scopeKey)).executions id =
        some running := by
      rw [← evicts.executions]
      exact found
    show id < evicted.next
    rw [evicts.next]
    rcases executions_execute_cases found with ⟨same, -⟩ | older
    · rw [same]
      exact Nat.lt_succ_self _
    · exact Nat.lt_succ_of_lt (sound.ids id running older)
  requests request inside := by
    show ∃ running, evicted.executions request.execution = some running ∧ _
    rw [evicts.executions]
    rcases List.mem_append.mp inside with earlier | last
    · rw [evicts.requests] at earlier
      obtain ⟨running, found, named⟩ := sound.requests request earlier
      exact ⟨running, executions_execute_old _ sound found, named⟩
    · cases List.mem_singleton.mp last
      exact ⟨_, Function.update_self .., rfl⟩

theorem unknown_of_find? {scopeKey : ScopeKey}
    (missing : state.entries.find? (·.scopeKey = scopeKey) = none) :
    ∀ entry ∈ state.entries, entry.scopeKey ≠ scopeKey := by
  intro entry inside
  simpa using List.find?_eq_none.mp missing entry inside

/-- A keyed request joins the cached execution or starts one. -/
inductive Runs (state : AddState Value Failure) (scopeKey : ScopeKey) :
    AddState Value Failure → Prop
  | known (entry : CacheEntry) (inside : entry ∈ state.entries)
      (named : entry.scopeKey = scopeKey) :
      Runs state scopeKey (state.answer (some scopeKey) entry.execution)
  | fresh (evicted : AddState Value Failure)
      (unknown : ∀ entry ∈ state.entries, entry.scopeKey ≠ scopeKey)
      (evicts : Evicts (state.execute (some scopeKey)) evicted) :
      Runs state scopeKey
        (AddState.answer
          { evicted with
            entries := evicted.entries ++ [freshEntry state scopeKey] }
          (some scopeKey) state.next)

theorem runs_run (sound : Sound state) (maxKeys : Nat)
    (scopeKey : ScopeKey) : Runs state scopeKey (state.run maxKeys scopeKey) := by
  unfold AddState.run
  split
  · rename_i known found
    exact .known known (List.mem_of_find?_eq_some found)
      (by simpa using List.find?_some found)
  · rename_i missing
    exact .fresh _ (unknown_of_find? missing)
      (evicts sound (state.execute (some scopeKey)) rfl maxKeys)

/-- A request is direct or runs under its key. -/
inductive Adds (state : AddState Value Failure) (clientKey : String)
    (idempotencyKey : Option String) : AddState Value Failure → Prop
  | direct (keyless : ∀ key, idempotencyKey = some key → key = "") :
      Adds state clientKey idempotencyKey
        ((state.execute none).answer none state.next)
  | keyed (key : String) (named : idempotencyKey = some key)
      {after : AddState Value Failure}
      (runs : Runs state (clientKey, key) after) :
      Adds state clientKey idempotencyKey after

theorem adds_downloadAdd (sound : Sound state) (maxKeys : Nat)
    (clientKey : String) (idempotencyKey : Option String) :
    Adds state clientKey idempotencyKey
      (state.downloadAdd maxKeys clientKey idempotencyKey) := by
  unfold AddState.downloadAdd
  split
  · exact .direct fun key named => by cases named
  · rename_i key
    split
    · rename_i blank
      exact .direct fun other named => by
        cases named
        exact blank
    · exact .keyed key rfl (runs_run sound maxKeys _)

theorem Runs.sound {scopeKey : ScopeKey} {after : AddState Value Failure}
    (sound : Sound state) (runs : Runs state scopeKey after) : Sound after := by
  cases runs with
  | known entry inside named => exact sound.known inside named
  | fresh evicted unknown evicts => exact sound.fresh unknown evicts

theorem Adds.sound {clientKey : String} {idempotencyKey : Option String}
    {after : AddState Value Failure} (sound : Sound state)
    (adds : Adds state clientKey idempotencyKey after) : Sound after := by
  cases adds with
  | direct keyless => exact sound.direct
  | keyed key named runs => exact runs.sound sound

/-! ## Settlements -/

/-- A settlement leaves everything but the result of its execution. -/
structure Settles (before after : AddState Value Failure) : Prop where
  entries : after.entries = before.entries
  evicted : after.evicted = before.evicted
  next : after.next = before.next
  requests : after.requests = before.requests
  forward : ∀ id running, before.executions id = some running →
    ∃ later, after.executions id = some later ∧
      later.scopeKey = running.scopeKey ∧
        (running.result ≠ .pending → later.result = running.result)
  backward : ∀ id later, after.executions id = some later →
    ∃ running, before.executions id = some running ∧
      later.scopeKey = running.scopeKey ∧
        (running.result ≠ .pending → later.result = running.result)

theorem Settles.refl (state : AddState Value Failure) :
    Settles state state where
  entries := rfl
  evicted := rfl
  next := rfl
  requests := rfl
  forward _ running found := ⟨running, found, rfl, fun _ => rfl⟩
  backward _ later found := ⟨later, found, rfl, fun _ => rfl⟩

theorem Settles.update {id : Nat} {running later : Execution Value Failure}
    (found : state.executions id = some running)
    (key : later.scopeKey = running.scopeKey)
    (result : running.result ≠ .pending → later.result = running.result) :
    Settles state
      { state with
        executions :=
          Function.update state.executions id (some later) } where
  entries := rfl
  evicted := rfl
  next := rfl
  requests := rfl
  forward other held same := by
    by_cases equal : other = id
    · subst equal
      rw [found] at same
      cases same
      exact ⟨later, Function.update_self .., key, result⟩
    · exact ⟨held, (Function.update_of_ne equal ..).trans same, rfl,
        fun _ => rfl⟩
  backward other held same := by
    by_cases equal : other = id
    · subst equal
      simp only [Function.update_self, Option.some.injEq] at same
      subst same
      exact ⟨running, found, key, result⟩
    · exact ⟨held, (Function.update_of_ne equal ..).symm.trans same, rfl,
        fun _ => rfl⟩

theorem settles_settle (id : Nat) (result : Promise Value Failure) :
    Settles state (state.settle id result) := by
  unfold AddState.settle
  split
  · exact Settles.refl state
  · rename_i running found
    split
    · rename_i pending
      exact Settles.update found rfl fun settled => absurd pending settled
    · exact Settles.refl state

theorem Settles.backed {after : AddState Value Failure}
    (settles : Settles state after) {entry : CacheEntry}
    (backed : Backed state entry) : Backed after entry := by
  obtain ⟨running, found, named, settled⟩ := backed.execution
  obtain ⟨later, present, key, result⟩ := settles.forward _ running found
  refine ⟨later, present, key.trans named, fun fulfilled => ?_⟩
  obtain ⟨value, held⟩ := settled fulfilled
  refine ⟨value, ?_⟩
  rw [result (by rw [held]; exact fun same => by cases same), held]

theorem Settles.sound {after : AddState Value Failure}
    (settles : Settles state after) (sound : Sound state) : Sound after where
  keys := settles.entries ▸ sound.keys
  entries entry inside := by
    rw [settles.entries] at inside
    exact settles.backed (sound.entries entry inside)
  executions id later scopeKey found named := by
    obtain ⟨running, held, key, result⟩ := settles.backward id later found
    unfold Accounted
    rw [settles.entries, settles.evicted]
    rcases sound.executions id running scopeKey held (key.symm.trans named)
      with cached | ⟨failure, rejected⟩ | ⟨gone, value, fulfilled⟩
    · exact .inl cached
    · right
      left
      refine ⟨failure, ?_⟩
      rw [result (by rw [rejected]; exact fun same => by cases same),
        rejected]
    · right
      right
      refine ⟨gone, value, ?_⟩
      rw [result (by rw [fulfilled]; exact fun same => by cases same),
        fulfilled]
  ids id later found := by
    obtain ⟨running, held, -⟩ := settles.backward id later found
    rw [settles.next]
    exact sound.ids id running held
  requests request inside := by
    rw [settles.requests] at inside
    obtain ⟨running, found, named⟩ := sound.requests request inside
    obtain ⟨later, present, key, -⟩ := settles.forward _ running found
    exact ⟨later, present, key.trans named⟩

/-! ## Reactions -/

/-- What an execution's reaction does to the entries. -/
theorem Sound.fulfilled (sound : Sound state) {id : Nat}
    {running : Execution Value Failure} {value : Value}
    (found : state.executions id = some running)
    (result : running.result = .fulfilled value) :
    Sound
      { state with
        entries := state.entries.map fun entry =>
          if entry.execution = id then { entry with settled := true }
          else entry } where
  keys := by
    have same : (state.entries.map fun entry =>
        if entry.execution = id then { entry with settled := true }
        else entry).map (·.scopeKey) = state.entries.map (·.scopeKey) := by
      rw [List.map_map]
      apply List.map_congr_left
      intro entry _
      show (if entry.execution = id then _ else _ : CacheEntry).scopeKey = _
      split <;> rfl
    show ((state.entries.map _).map _).Nodup
    rw [same]
    exact sound.keys
  entries entry inside := by
    obtain ⟨old, older, marked⟩ := List.mem_map.mp inside
    obtain ⟨backing, backed, named, settled⟩ :=
      (sound.entries old older).execution
    by_cases own : old.execution = id
    · rw [if_pos own] at marked
      subst marked
      refine ⟨backing, backed, named, fun _ => ⟨value, ?_⟩⟩
      rw [own, found] at backed
      cases backed
      exact result
    · rw [if_neg own] at marked
      subst marked
      exact ⟨backing, backed, named, settled⟩
  executions other held scopeKey present owned := by
    rcases sound.executions other held scopeKey present owned with
      ⟨entry, inside, sameId, sameKey⟩ | rest
    · left
      refine ⟨_, List.mem_map_of_mem inside, ?_, ?_⟩
      · show (if entry.execution = id then _ else _ : CacheEntry).execution = _
        split <;> exact sameId
      · show (if entry.execution = id then _ else _ : CacheEntry).scopeKey = _
        split <;> exact sameKey
    · exact .inr rest
  ids := sound.ids
  requests := sound.requests

theorem forget_sublist (entries : List CacheEntry) (scopeKey : ScopeKey)
    (id : Nat) : (AddState.forget entries scopeKey id).Sublist entries := by
  unfold AddState.forget
  split
  · exact List.Sublist.refl _
  · split
    · exact List.filter_sublist
    · exact List.Sublist.refl _

/-- An entry of another execution stays. -/
theorem mem_forget (sound : Sound state) {scopeKey : ScopeKey} {id : Nat}
    {entry : CacheEntry} (inside : entry ∈ state.entries)
    (other : entry.execution ≠ id) :
    entry ∈ AddState.forget state.entries scopeKey id := by
  unfold AddState.forget
  split
  · exact inside
  · rename_i found present
    split
    · rename_i own
      apply List.mem_filter.mpr
      refine ⟨inside, ?_⟩
      have named : found.scopeKey = scopeKey := by
        simpa using List.find?_some present
      have different : entry.scopeKey ≠ scopeKey := by
        intro same
        have shared : entry = found :=
          sound.unique inside (List.mem_of_find?_eq_some present)
            (same.trans named.symm)
        exact other (shared ▸ own)
      simpa using different
    · exact inside

theorem Sound.forgotten (sound : Sound state) {id : Nat}
    {running : Execution Value Failure} {failure : Failure}
    (scopeKey : ScopeKey)
    (found : state.executions id = some running)
    (result : running.result = .rejected failure) :
    Sound
      { state with
        entries := AddState.forget state.entries scopeKey id } where
  keys := sound.keys.sublist ((forget_sublist _ _ _).map _)
  entries entry inside :=
    ⟨(sound.entries entry ((forget_sublist _ _ _).subset inside)).execution⟩
  executions other held key present owned := by
    rcases sound.executions other held key present owned with
      ⟨entry, inside, sameId, sameKey⟩ | rest
    · by_cases own : entry.execution = id
      · right
        left
        rw [← sameId, own, found] at present
        cases present
        exact ⟨failure, result⟩
      · left
        exact ⟨entry, mem_forget sound inside own, sameId, sameKey⟩
    · exact .inr rest
  ids := sound.ids
  requests := sound.requests

/-- The reaction of an execution runs once. -/
def markReacted (state : AddState Value Failure) (id : Nat)
    (running : Execution Value Failure) : AddState Value Failure :=
  { state with
    executions := Function.update state.executions id
      (some { running with reacted := true }) }

theorem settles_markReacted {id : Nat} {running : Execution Value Failure}
    (found : state.executions id = some running) :
    Settles state (markReacted state id running) :=
  Settles.update found rfl fun _ => rfl

/-- The reaction marks its entries, removes its own entry or does nothing. -/
inductive Reacts (state : AddState Value Failure) (id : Nat) :
    AddState Value Failure → Prop
  | idle : Reacts state id state
  | fulfilled (running : Execution Value Failure) (value : Value)
      (found : state.executions id = some running)
      (result : running.result = .fulfilled value) :
      Reacts state id
        { markReacted state id running with
          entries := state.entries.map fun entry =>
            if entry.execution = id then { entry with settled := true }
            else entry }
  | rejected (running : Execution Value Failure) (failure : Failure)
      (scopeKey : ScopeKey) (found : state.executions id = some running)
      (result : running.result = .rejected failure) :
      Reacts state id
        { markReacted state id running with
          entries := AddState.forget state.entries scopeKey id }

theorem reacts_react (id : Nat) : Reacts state id (state.react id) := by
  unfold AddState.react
  split
  · rename_i scopeKey result found
    cases result with
    | pending => exact .idle
    | fulfilled value => exact .fulfilled _ value found rfl
    | rejected failure => exact .rejected _ failure scopeKey found rfl
  · exact .idle

theorem Sound.react (sound : Sound state) (id : Nat) :
    Sound (state.react id) := by
  have marked : ∀ running, state.executions id = some running →
      Sound (markReacted state id running) ∧
        (markReacted state id running).executions id =
          some { running with reacted := true } := by
    intro running found
    exact ⟨(settles_markReacted found).sound sound, Function.update_self ..⟩
  generalize outcome : state.react id = after
  cases outcome ▸ @reacts_react _ _ state id with
  | idle => exact sound
  | fulfilled running value found result =>
      obtain ⟨valid, present⟩ := marked running found
      exact valid.fulfilled present result
  | rejected running failure scopeKey found result =>
      obtain ⟨valid, present⟩ := marked running found
      exact valid.forgotten scopeKey present result

theorem Sound.step (sound : Sound state) (maxKeys : Nat)
    (event : AddEvent Value Failure) : Sound (state.step maxKeys event) := by
  cases event with
  | request clientKey idempotencyKey =>
      exact (adds_downloadAdd sound maxKeys clientKey idempotencyKey).sound
        sound
  | fulfil id value => exact (settles_settle id _).sound sound
  | reject id failure => exact (settles_settle id _).sound sound
  | react id => exact sound.react id

end Steps

theorem sound_runEvents (maxKeys : Nat)
    (events : List (AddEvent Value Failure)) :
    Sound (runEvents maxKeys events) := by
  induction events using List.reverseRecOn with
  | nil => exact sound_initial
  | append_singleton earlier event induction =>
      unfold runEvents
      rw [List.foldl_append]
      exact induction.step maxKeys event

/-! ## What every step keeps -/

def Pending (state : AddState Value Failure) (id : Nat) : Prop :=
  ∃ running, state.executions id = some running ∧
    running.result = .pending

/-- An execution under the key is over: it was rejected, or it fulfilled and
was evicted. -/
def Over (state : AddState Value Failure) (id : Nat) : Prop :=
  ∃ running, state.executions id = some running ∧
    ((∃ failure, running.result = .rejected failure) ∨
      (id ∈ state.evicted ∧ ∃ value, running.result = .fulfilled value))

/-- One step of the adds keeps their sharing. -/
structure Idempotent (maxKeys : Nat) (before : AddState Value Failure)
    (event : AddEvent Value Failure) : Prop where
  /-- A pending execution keeps its entry. -/
  pending : ∀ entry ∈ before.entries, Pending before entry.execution →
    entry ∈ (before.step maxKeys event).entries
  /-- A request joins the pending execution of an earlier one of its key. -/
  joins : ∀ earlier ∈ before.requests, ∀ clientKey key,
    earlier.scopeKey = some (clientKey, key) →
      Pending before earlier.execution →
        event = .request clientKey (some key) → key ≠ "" →
          (before.step maxKeys event).executions = before.executions ∧
            (before.step maxKeys event).requests = before.requests ++ [earlier]
  /-- An execution starts when all others of its key are over. -/
  starts : ∀ id running scopeKey, before.executions id = none →
    (before.step maxKeys event).executions id = some running →
      running.scopeKey = some scopeKey →
        ∀ other held, before.executions other = some held →
          held.scopeKey = some scopeKey →
            Over (before.step maxKeys event) other
  /-- A result is given once, so all its requests get the same. -/
  results : ∀ id running, before.executions id = some running →
    ∃ later, (before.step maxKeys event).executions id = some later ∧
      later.scopeKey = running.scopeKey ∧
        (running.result ≠ .pending → later.result = running.result)
  /-- The requests keep their executions. -/
  requests : before.requests <+: (before.step maxKeys event).requests
  /-- A rejection removes no entry of another execution. -/
  newer : ∀ id running failure, event = .react id →
    before.executions id = some running →
      running.result = .rejected failure →
        ∀ entry ∈ before.entries, entry.execution ≠ id →
          entry ∈ (before.step maxKeys event).entries


section Keeps

variable {state : AddState Value Failure}

theorem Adds.executions {clientKey : String} {idempotencyKey : Option String}
    {after : AddState Value Failure} (sound : Sound state)
    (adds : Adds state clientKey idempotencyKey after) {id : Nat}
    {running : Execution Value Failure}
    (found : state.executions id = some running) :
    after.executions id = some running := by
  cases adds with
  | direct keyless => exact executions_execute_old none sound found
  | keyed key named runs =>
      cases runs with
      | known entry inside same => exact found
      | fresh evicted unknown evicts =>
          show evicted.executions id = some running
          rw [evicts.executions]
          exact executions_execute_old _ sound found

theorem Adds.requests {clientKey : String} {idempotencyKey : Option String}
    {after : AddState Value Failure}
    (adds : Adds state clientKey idempotencyKey after) :
    ∃ request, after.requests = state.requests ++ [request] := by
  cases adds with
  | direct keyless => exact ⟨_, rfl⟩
  | keyed key named runs =>
      cases runs with
      | known entry inside same => exact ⟨_, rfl⟩
      | fresh evicted unknown evicts =>
          exact ⟨_, congrArg (· ++ _) evicts.requests⟩

/-- A settled entry is not pending. -/
theorem Backed.unsettled {entry : CacheEntry} (backed : Backed state entry)
    (pending : Pending state entry.execution) : entry.settled ≠ true := by
  intro settled
  obtain ⟨running, found, -, fulfilled⟩ := backed.execution
  obtain ⟨value, result⟩ := fulfilled settled
  obtain ⟨other, same, open'⟩ := pending
  rw [found] at same
  cases same
  rw [result] at open'
  cases open'

theorem Adds.pending {clientKey : String} {idempotencyKey : Option String}
    {after : AddState Value Failure} (sound : Sound state)
    (adds : Adds state clientKey idempotencyKey after) {entry : CacheEntry}
    (inside : entry ∈ state.entries)
    (pending : Pending state entry.execution) : entry ∈ after.entries := by
  cases adds with
  | direct keyless => exact inside
  | keyed key named runs =>
      cases runs with
      | known known present same => exact inside
      | fresh evicted unknown evicts =>
          rcases evicts.removed entry inside with kept | ⟨settled, -⟩
          · exact List.mem_append_left _ kept
          · exact absurd settled
              ((sound.entries entry inside).unsettled pending)

/-- The execution of a pending keyed request is cached under the key. -/
theorem Sound.cached (sound : Sound state) {earlier : AddRequest}
    (inside : earlier ∈ state.requests) {scopeKey : ScopeKey}
    (named : earlier.scopeKey = some scopeKey)
    (pending : Pending state earlier.execution) :
    ∃ entry ∈ state.entries, entry.execution = earlier.execution ∧
      entry.scopeKey = scopeKey := by
  obtain ⟨running, found, owned⟩ := sound.requests earlier inside
  obtain ⟨same, present, open'⟩ := pending
  rw [found] at present
  cases present
  rcases sound.executions _ running scopeKey found (owned.trans named) with
    cached | ⟨failure, rejected⟩ | ⟨-, value, fulfilled⟩
  · exact cached
  · rw [open'] at rejected
    cases rejected
  · rw [open'] at fulfilled
    cases fulfilled

theorem Runs.joins {scopeKey : ScopeKey} {after : AddState Value Failure}
    (sound : Sound state) (runs : Runs state scopeKey after)
    {earlier : AddRequest} (inside : earlier ∈ state.requests)
    (named : earlier.scopeKey = some scopeKey)
    (pending : Pending state earlier.execution) :
    after.executions = state.executions ∧
      after.requests = state.requests ++ [earlier] := by
  obtain ⟨cached, present, execution, key⟩ :=
    sound.cached inside named pending
  cases runs with
  | known entry known same =>
      have shared : entry = cached :=
        sound.unique known present (same.trans key.symm)
      subst shared
      refine ⟨rfl, ?_⟩
      show state.requests ++ [_] = _
      rw [execution, ← named]
  | fresh evicted unknown evicts =>
      exact absurd key (unknown cached present)

theorem Adds.starts {clientKey : String} {idempotencyKey : Option String}
    {after : AddState Value Failure} (sound : Sound state)
    (adds : Adds state clientKey idempotencyKey after) (valid : Sound after)
    {id : Nat} {running : Execution Value Failure} {scopeKey : ScopeKey}
    (absent : state.executions id = none)
    (found : after.executions id = some running)
    (owned : running.scopeKey = some scopeKey) {other : Nat}
    {held : Execution Value Failure}
    (older : state.executions other = some held)
    (same : held.scopeKey = some scopeKey) : Over after other := by
  have present := adds.executions sound older
  cases adds with
  | direct keyless =>
      rcases executions_execute_cases found with ⟨-, none'⟩ | earlier
      · rw [none'] at owned
        cases owned
      · rw [absent] at earlier
        cases earlier
  | keyed key named runs =>
      cases runs with
      | known entry inside equal =>
          rw [show (state.answer _ entry.execution).executions id = _ from
            absent] at found
          cases found
      | fresh evicted unknown evicts =>
          have started : (state.execute (some (clientKey, key))).executions
              id = some running := by
            rw [← evicts.executions]
            exact found
          rcases executions_execute_cases started with ⟨-, fresh⟩ | earlier
          · rw [fresh] at owned
            cases owned
            rcases valid.executions other held _ present same with
              ⟨entry, inside, sameId, sameKey⟩ | done
            · rcases List.mem_append.mp inside with kept | last
              · exact absurd sameKey
                  (unknown entry (evicts.sublist.subset kept))
              · cases List.mem_singleton.mp last
                have earlier := sound.ids other held older
                have next : state.next = other := sameId
                omega
            · exact ⟨held, present, done⟩
          · rw [absent] at earlier
            cases earlier

end Keeps

theorem Reacts.results {state after : AddState Value Failure} {id : Nat}
    (reacts : Reacts state id after) :
    ∃ marked, Settles state marked ∧
      after.executions = marked.executions ∧
        after.requests = state.requests := by
  cases reacts with
  | idle => exact ⟨state, Settles.refl state, rfl, rfl⟩
  | fulfilled running value found result =>
      exact ⟨_, settles_markReacted found, rfl, rfl⟩
  | rejected running failure scopeKey found result =>
      exact ⟨_, settles_markReacted found, rfl, rfl⟩

theorem Reacts.others {state after : AddState Value Failure} {id : Nat}
    (sound : Sound state) (reacts : Reacts state id after)
    {entry : CacheEntry} (inside : entry ∈ state.entries)
    (other : entry.execution ≠ id) : entry ∈ after.entries := by
  cases reacts with
  | idle => exact inside
  | fulfilled running value found result =>
      apply List.mem_map.mpr
      exact ⟨entry, inside, if_neg other⟩
  | rejected running failure scopeKey found result =>
      exact mem_forget sound inside other

theorem Reacts.pending {state after : AddState Value Failure} {id : Nat}
    (sound : Sound state) (reacts : Reacts state id after)
    {entry : CacheEntry} (inside : entry ∈ state.entries)
    (pending : Pending state entry.execution) : entry ∈ after.entries := by
  by_cases own : entry.execution = id
  · obtain ⟨open', present, unsettled⟩ := pending
    rw [own] at present
    cases reacts with
    | idle => exact inside
    | fulfilled running value found result =>
        rw [found] at present
        cases present
        rw [result] at unsettled
        cases unsettled
    | rejected running failure scopeKey found result =>
        rw [found] at present
        cases present
        rw [result] at unsettled
        cases unsettled
  · exact reacts.others sound inside own

/-- A step that starts nothing. -/
theorem Settles.absent {before after : AddState Value Failure}
    (settles : Settles before after) {id : Nat}
    (missing : before.executions id = none) : after.executions id = none := by
  cases found : after.executions id with
  | none => rfl
  | some later =>
      obtain ⟨running, held, -⟩ := settles.backward id later found
      rw [missing] at held
      cases held

theorem Adds.joins {state after : AddState Value Failure} {client key : String}
    (sound : Sound state) (adds : Adds state client (some key) after)
    (filled : key ≠ "") {earlier : AddRequest}
    (inside : earlier ∈ state.requests)
    (named : earlier.scopeKey = some (client, key))
    (pending : Pending state earlier.execution) :
    after.executions = state.executions ∧
      after.requests = state.requests ++ [earlier] := by
  cases adds with
  | direct keyless => exact absurd (keyless key rfl) filled
  | keyed other same runs =>
      cases same
      exact runs.joins sound inside named pending

/-- A step that is no request starts nothing and answers nothing. -/
theorem Settles.idempotent {state marked : AddState Value Failure}
    {maxKeys : Nat} {event : AddEvent Value Failure}
    (settles : Settles state marked)
    (quiet : ∀ clientKey key, event ≠ .request clientKey key)
    (executions : (state.step maxKeys event).executions = marked.executions)
    (requests : (state.step maxKeys event).requests = state.requests)
    (pending : ∀ entry ∈ state.entries, Pending state entry.execution →
      entry ∈ (state.step maxKeys event).entries)
    (others : ∀ id, event = .react id → ∀ entry ∈ state.entries,
      entry.execution ≠ id → entry ∈ (state.step maxKeys event).entries) :
    Idempotent maxKeys state event where
  pending := pending
  joins _ _ client key _ _ same _ := absurd same (quiet client (some key))
  starts id running _ absent found _ _ _ _ _ := by
    rw [executions, settles.absent absent] at found
    cases found
  results id running found := by
    rw [executions]
    exact settles.forward id running found
  requests := requests ▸ List.prefix_refl _
  newer id _ _ same _ _ entry inside other := others id same entry inside other

theorem Sound.idempotent {state : AddState Value Failure}
    (sound : Sound state) (maxKeys : Nat)
    (event : AddEvent Value Failure) : Idempotent maxKeys state event := by
  have settled : ∀ id result, Settles state (state.settle id result) :=
    fun id result => settles_settle id result
  cases event with
  | request clientKey idempotencyKey =>
      have adds := adds_downloadAdd sound maxKeys clientKey idempotencyKey
      have valid := adds.sound sound
      constructor
      · intro entry inside pending
        exact adds.pending sound inside pending
      · intro earlier inside client key named pending same filled
        cases same
        exact adds.joins sound filled inside named pending
      · intro id running scopeKey absent found owned other held older same
        exact adds.starts sound valid absent found owned older same
      · intro id running found
        exact ⟨running, adds.executions sound found, rfl, fun _ => rfl⟩
      · obtain ⟨request, appended⟩ := adds.requests
        exact ⟨[request], appended.symm⟩
      · intro id running failure same
        cases same
  | fulfil id value =>
      have settles := settled id (.fulfilled value)
      refine settles.idempotent (fun _ _ same => by cases same) rfl
        settles.requests ?_ ?_
      · intro entry inside _
        exact settles.entries ▸ inside
      · intro other same
        cases same
  | reject id failure =>
      have settles := settled id (.rejected failure)
      refine settles.idempotent (fun _ _ same => by cases same) rfl
        settles.requests ?_ ?_
      · intro entry inside _
        exact settles.entries ▸ inside
      · intro other same
        cases same
  | react id =>
      have reacts := @reacts_react _ _ state id
      obtain ⟨marked, settles, executions, requests⟩ := reacts.results
      refine settles.idempotent (fun _ _ same => by cases same) executions
        requests ?_ ?_
      · intro entry inside pending
        exact reacts.pending sound inside pending
      · intro other same entry inside different
        cases same
        exact reacts.others sound inside different

end Motrix.Bridge.IdempotencyCache
