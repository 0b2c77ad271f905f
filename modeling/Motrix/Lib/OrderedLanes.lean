import Mathlib.Data.Finset.Max
import Mathlib.Data.Finset.Sort
import Mathlib.Data.List.Basic

/-!
# Lanes that are taken in order

Requests over ascending lists of keys.  A request joins the lane of its first
key; whenever its turn has come in a lane it joins the next one, and it runs
when its turn has come in the last.  It leaves the lanes in the other
direction.  Requests of one key run one after the other, in the order in which
they joined, and no requests wait for each other in a circle.
-/

namespace Motrix.Lib

variable {Key : Type}

/-- Where a request stands: it waits in the lane of the key of an index, it
runs, or it has run and is still in the lanes of its first keys. -/
inductive LanePhase where
  | waiting (index : Nat)
  | running
  | releasing (left : Nat)
  deriving DecidableEq

structure LaneRequest (Key : Type) where
  keys : List Key
  phase : LanePhase

namespace LaneRequest

def started (request : LaneRequest Key) : Bool :=
  match request.phase with
  | .waiting _ => false
  | _ => true

/-- The key that the request waits for. -/
def waitsFor (request : LaneRequest Key) : Option Key :=
  match request.phase with
  | .waiting index => request.keys[index]?
  | _ => none

/-- The keys in whose lanes the request is. -/
def lanes (request : LaneRequest Key) : List Key :=
  match request.phase with
  | .waiting index => request.keys.take (index + 1)
  | .running => request.keys
  | .releasing left => request.keys.take left

/-- The keys in whose lanes its turn has come. -/
def holds (request : LaneRequest Key) : List Key :=
  match request.phase with
  | .waiting index => request.keys.take index
  | .running => request.keys
  | .releasing left => request.keys.take left

theorem started_lanes {entry : LaneRequest Key}
    (started : entry.started = true) : entry.lanes = entry.holds := by
  obtain ⟨keys, phase⟩ := entry
  cases phase with
  | waiting index => cases started
  | running => rfl
  | releasing left => rfl

theorem take_next {keys : List Key} {index : Nat} {key : Key}
    (found : keys[index]? = some key) :
    keys.take (index + 1) = keys.take index ++ [key] := by
  rw [List.take_add_one, found]
  rfl

end LaneRequest

/-- The requests, the lanes, and the orders in which the lanes were joined and
the requests have started. -/
structure Lanes (Key : Type) where
  requests : List (LaneRequest Key)
  queue : Key → List Nat
  joined : Key → List Nat
  started : List Nat

namespace Lanes

def empty : Lanes Key where
  requests := []
  queue _ := []
  joined _ := []
  started := []

def setPhase (lanes : Lanes Key) (request : Nat) (keys : List Key)
    (phase : LanePhase) : Lanes Key :=
  { lanes with requests := lanes.requests.set request ⟨keys, phase⟩ }

def keysOf (lanes : Lanes Key) (request : Nat) : List Key :=
  ((lanes.requests[request]?).map (·.keys)).getD []

def isStarted (lanes : Lanes Key) (request : Nat) : Bool :=
  ((lanes.requests[request]?).map (·.started)).getD false

section Phases

variable {lanes : Lanes Key} {request : Nat} {keys : List Key}
  {old : LanePhase}

theorem isStarted_iff : lanes.isStarted request = true ↔
    ∃ entry, lanes.requests[request]? = some entry ∧ entry.started = true := by
  unfold isStarted
  cases lanes.requests[request]? with
  | none => exact ⟨nofun, nofun⟩
  | some entry =>
      constructor
      · intro started
        exact ⟨entry, rfl, started⟩
      · rintro ⟨same, found, started⟩
        cases found
        exact started

theorem setPhase_self (found : lanes.requests[request]? = some ⟨keys, old⟩)
    (phase : LanePhase) :
    (setPhase lanes request keys phase).requests[request]? =
      some ⟨keys, phase⟩ :=
  List.getElem?_set_self (List.getElem?_eq_some_iff.mp found).1

theorem setPhase_other (phase : LanePhase) {other : Nat}
    (different : other ≠ request) :
    (setPhase lanes request keys phase).requests[other]? =
      lanes.requests[other]? :=
  List.getElem?_set_ne different.symm

theorem keysOf_setPhase (found : lanes.requests[request]? = some ⟨keys, old⟩)
    (phase : LanePhase) :
    (setPhase lanes request keys phase).keysOf = lanes.keysOf := by
  funext other
  unfold keysOf
  by_cases same : other = request
  · rw [same, setPhase_self found, found]
    rfl
  · rw [setPhase_other phase same]

theorem isStarted_setPhase
    (found : lanes.requests[request]? = some ⟨keys, old⟩) (phase : LanePhase)
    (other : Nat) :
    (setPhase lanes request keys phase).isStarted other =
      if other = request then (LaneRequest.mk keys phase).started
      else lanes.isStarted other := by
  unfold isStarted
  by_cases same : other = request
  · rw [if_pos same, same, setPhase_self found]
    rfl
  · rw [if_neg same, setPhase_other phase same]

theorem isStarted_same (found : lanes.requests[request]? = some ⟨keys, old⟩)
    {phase : LanePhase} (same : (LaneRequest.mk keys phase).started =
      (LaneRequest.mk keys old).started) :
    (setPhase lanes request keys phase).isStarted = lanes.isStarted := by
  funext other
  rw [isStarted_setPhase found]
  by_cases mine : other = request
  · rw [if_pos mine, mine, same]
    unfold isStarted
    rw [found]
    rfl
  · rw [if_neg mine]

end Phases

variable [LinearOrder Key]

local instance decidableMemKeys (key : Key) (keys : List Key) :
    Decidable (key ∈ keys) :=
  decidable_of_iff (∃ other ∈ keys, key = other) (exists_eq_right' ..)

def enter (lanes : Lanes Key) (key : Key) (request : Nat) : Lanes Key :=
  { lanes with
    queue := fun other =>
      if other = key then lanes.queue key ++ [request] else lanes.queue other
    joined := fun other =>
      if other = key then lanes.joined key ++ [request]
      else lanes.joined other }

def leave (lanes : Lanes Key) (key : Key) : Lanes Key :=
  { lanes with
    queue := fun other =>
      if other = key then (lanes.queue key).tail else lanes.queue other }

def join (lanes : Lanes Key) (keys : List Key) : Lanes Key :=
  match keys with
  | [] => lanes
  | first :: _ =>
      enter { lanes with requests := lanes.requests ++ [⟨keys, .waiting 0⟩] }
        first lanes.requests.length

/-- The one in front in its lane goes on. -/
def turn (lanes : Lanes Key) (request : Nat) : Lanes Key :=
  match lanes.requests[request]? with
  | some ⟨keys, .waiting index⟩ =>
      match keys[index]? with
      | some key =>
          if (lanes.queue key).head? = some request then
            match keys[index + 1]? with
            | some next =>
                enter (setPhase lanes request keys (.waiting (index + 1))) next
                  request
            | none =>
                { setPhase lanes request keys .running with
                  started := lanes.started ++ [request] }
          else
            lanes
      | none => lanes
  | _ => lanes

def finish (lanes : Lanes Key) (request : Nat) : Lanes Key :=
  match lanes.requests[request]? with
  | some ⟨keys, .running⟩ =>
      setPhase lanes request keys (.releasing keys.length)
  | _ => lanes

def release (lanes : Lanes Key) (request : Nat) : Lanes Key :=
  match lanes.requests[request]? with
  | some ⟨keys, .releasing (left + 1)⟩ =>
      match keys[left]? with
      | some key =>
          leave (setPhase lanes request keys (.releasing left)) key
      | none => lanes
  | _ => lanes

/-! ## The invariant -/

/-- The requests with a key that have started, in order. -/
def startedOn (lanes : Lanes Key) (key : Key) : List Nat :=
  lanes.started.filter fun request => key ∈ lanes.keysOf request

structure Sound (lanes : Lanes Key) : Prop where
  sorted : ∀ request ∈ lanes.requests, request.keys.Pairwise (· < ·)
  waits : ∀ request ∈ lanes.requests, ∀ index,
    request.phase = .waiting index → index < request.keys.length
  member : ∀ key request, request ∈ lanes.queue key ↔
    ∃ entry, lanes.requests[request]? = some entry ∧ key ∈ entry.lanes
  distinct : ∀ key, (lanes.queue key).Nodup
  front : ∀ request entry key, lanes.requests[request]? = some entry →
    key ∈ entry.holds → (lanes.queue key).head? = some request
  begun : ∀ request ∈ lanes.started, lanes.isStarted request = true
  ordered : ∀ key, ∃ past, lanes.joined key = past ++ lanes.queue key ∧
    lanes.startedOn key = past ++ (lanes.queue key).filter lanes.isStarted

namespace Sound

variable {lanes : Lanes Key} {request : Nat} {keys : List Key}

theorem start : Sound (empty : Lanes Key) where
  sorted := nofun
  waits := nofun
  member _ _ := ⟨nofun, nofun⟩
  distinct _ := List.nodup_nil
  front _ _ _ found := nomatch found
  begun := nofun
  ordered _ := ⟨[], rfl, rfl⟩

/-- In the front of a lane there is one request. -/
theorem unique (sound : Sound lanes) {other : Nat}
    {entry another : LaneRequest Key} {key : Key}
    (found : lanes.requests[request]? = some entry)
    (foundOther : lanes.requests[other]? = some another)
    (holds : key ∈ entry.holds) (holdsOther : key ∈ another.holds) :
    request = other := by
  have one := sound.front request entry key found holds
  have two := sound.front other another key foundOther holdsOther
  rw [one] at two
  exact Option.some.inj two

/-- Behind the front of a lane nothing has started. -/
theorem started_front (sound : Sound lanes) {key : Key}
    (member : request ∈ lanes.queue key)
    (started : lanes.isStarted request = true) :
    (lanes.queue key).head? = some request := by
  obtain ⟨entry, found, begun⟩ := isStarted_iff.mp started
  obtain ⟨same, found', inLane⟩ := (sound.member key request).mp member
  rw [found] at found'
  cases found'
  rw [LaneRequest.started_lanes begun] at inLane
  exact sound.front request entry key found inLane

theorem filter_started (sound : Sound lanes) (key : Key) :
    (lanes.queue key).filter lanes.isStarted <+: lanes.queue key := by
  cases line : lanes.queue key with
  | nil => exact List.prefix_rfl
  | cons first rest =>
      have behind : rest.filter lanes.isStarted = [] := by
        apply List.filter_eq_nil_iff.mpr
        intro other member started
        have inLine : other ∈ lanes.queue key := by
          rw [line]
          exact List.mem_cons_of_mem _ member
        have head := sound.started_front inLine started
        rw [line] at head
        cases head
        have once := sound.distinct key
        rw [line] at once
        exact (List.nodup_cons.mp once).1 member
      cases started : lanes.isStarted first with
      | true =>
          rw [List.filter_cons_of_pos started, behind]
          exact ⟨rest, rfl⟩
      | false =>
          rw [List.filter_cons_of_neg (by rw [started]; decide), behind]
          exact List.nil_prefix

/-- The requests with a key start in the order in which they joined. -/
theorem inOrder (sound : Sound lanes) (key : Key) :
    lanes.startedOn key <+: lanes.joined key := by
  obtain ⟨past, joined, started⟩ := sound.ordered key
  rw [joined, started]
  exact (List.prefix_append_right_inj past).mpr (sound.filter_started key)

end Sound

/-! ## Steps -/

section Steps

variable {lanes : Lanes Key} {request : Nat} {keys : List Key}
  {old : LanePhase}

theorem last_absent {index : Nat} {key : Key} (sorted : keys.Pairwise (· < ·))
    (found : keys[index]? = some key) : key ∉ keys.take index := by
  have distinct := (sorted.imp fun less => less.ne).sublist
    (List.take_sublist (index + 1) keys)
  rw [LaneRequest.take_next found] at distinct
  intro member
  have different := (List.pairwise_append.mp distinct).2.2 key member key
    (List.mem_singleton_self key)
  exact different rfl

/-- The queues after one request has gone on. -/
structure Moved (lanes next : Lanes Key) (request : Nat)
    (entry : LaneRequest Key) : Prop where
  member : ∀ key other, other ∈ next.queue key ↔
    (other ≠ request ∧ other ∈ lanes.queue key) ∨
      (other = request ∧ key ∈ entry.lanes)
  distinct : ∀ key, (next.queue key).Nodup
  others : ∀ key other, other ≠ request →
    (lanes.queue key).head? = some other → (next.queue key).head? = some other
  mine : ∀ key ∈ entry.holds, (next.queue key).head? = some request

theorem Sound.moved (sound : Sound lanes) {next : Lanes Key}
    (phase : LanePhase)
    (found : lanes.requests[request]? = some ⟨keys, old⟩)
    (requests : next.requests =
      (setPhase lanes request keys phase).requests)
    (waits : ∀ index, phase = .waiting index → index < keys.length)
    (moved : Moved lanes next request ⟨keys, phase⟩)
    (begun : ∀ other ∈ next.started, next.isStarted other = true)
    (ordered : ∀ key, ∃ past, next.joined key = past ++ next.queue key ∧
      next.startedOn key = past ++ (next.queue key).filter next.isStarted) :
    Sound next where
  sorted := by
    intro entry member
    rw [requests] at member
    rcases List.mem_or_eq_of_mem_set member with earlier | rfl
    · exact sound.sorted entry earlier
    · have same := sound.sorted _ (List.mem_of_getElem? found)
      exact same
  waits := by
    intro entry member
    rw [requests] at member
    rcases List.mem_or_eq_of_mem_set member with earlier | rfl
    · exact sound.waits entry earlier
    · exact waits
  member := by
    intro key other
    rw [moved.member key other, requests]
    by_cases same : other = request
    · rw [same, setPhase_self found]
      constructor
      · rintro (⟨different, _⟩ | ⟨_, inLane⟩)
        · exact absurd rfl different
        · exact ⟨_, rfl, inLane⟩
      · rintro ⟨entry, here, inLane⟩
        cases here
        exact .inr ⟨rfl, inLane⟩
    · rw [setPhase_other phase same, ← sound.member key other]
      constructor
      · rintro (⟨_, member⟩ | ⟨mine, _⟩)
        · exact member
        · exact absurd mine same
      · intro member
        exact .inl ⟨same, member⟩
  distinct := moved.distinct
  front := by
    intro other entry key here holds
    rw [requests] at here
    by_cases same : other = request
    · rw [same, setPhase_self found] at here
      cases here
      rw [same]
      exact moved.mine key holds
    · rw [setPhase_other phase same] at here
      exact moved.others key other same
        (sound.front other entry key here holds)
  begun := begun
  ordered := ordered

/-- A request that has no place in a lane joins it. -/
theorem enter_distinct (sound : Sound lanes) {key : Key}
    (absent : request ∉ lanes.queue key) (other : Key) :
    ((enter lanes key request).queue other).Nodup := by
  unfold enter
  by_cases same : other = key
  · simp only [if_pos same]
    apply List.Nodup.append (sound.distinct key) (List.nodup_singleton request)
    intro item member last
    rw [List.mem_singleton.mp last] at member
    exact absent member
  · simp only [if_neg same]
    exact sound.distinct other

theorem enter_head {key other : Key} {first : Nat}
    (head : (lanes.queue other).head? = some first) :
    ((enter lanes key request).queue other).head? = some first := by
  unfold enter
  by_cases same : other = key
  · simp only [if_pos same]
    rw [List.head?_append, ← same, head]
    rfl
  · simp only [if_neg same]
    exact head

theorem mem_enter {key other : Key} {item : Nat} :
    item ∈ (enter lanes key request).queue other ↔
      item ∈ lanes.queue other ∨ item = request ∧ other = key := by
  by_cases same : other = key
  · simp [enter, same]
  · simp [enter, same]

/-- A lane that is joined by a request that has not started. -/
theorem enter_ordered (sound : Sound lanes) (key : Key)
    {isStarted : Nat → Bool}
    (same : ∀ other, ∀ item ∈ lanes.queue other,
      isStarted item = lanes.isStarted item)
    (waits : isStarted request = false) (other : Key) :
    ∃ past, (enter lanes key request).joined other =
        past ++ (enter lanes key request).queue other ∧
      lanes.startedOn other =
        past ++ ((enter lanes key request).queue other).filter isStarted := by
  obtain ⟨past, joined, started⟩ := sound.ordered other
  have kept : (lanes.queue other).filter isStarted =
      (lanes.queue other).filter lanes.isStarted :=
    List.filter_congr (same other)
  refine ⟨past, ?_, ?_⟩
  · unfold enter
    by_cases here : other = key
    · simp only [if_pos here]
      rw [← here, joined, List.append_assoc]
    · simp only [if_neg here]
      exact joined
  · rw [started, ← kept]
    unfold enter
    by_cases here : other = key
    · simp only [if_pos here]
      rw [List.filter_append, List.filter_cons_of_neg (by rw [waits]; decide),
        List.filter_nil, List.append_nil, here]
    · simp only [if_neg here]

end Steps

namespace Sound

variable {lanes : Lanes Key} {request : Nat} {keys : List Key}

theorem join (sound : Sound lanes) (keys : List Key)
    (sorted : keys.Pairwise (· < ·)) : Sound (join lanes keys) := by
  cases keys with
  | nil => exact sound
  | cons first rest =>
      let added : Lanes Key := { lanes with
        requests := lanes.requests ++ [⟨first :: rest, .waiting 0⟩] }
      have earlier : ∀ other < lanes.requests.length,
          added.requests[other]? = lanes.requests[other]? :=
        fun other small => List.getElem?_append_left small
      have last : added.requests[lanes.requests.length]? =
          some ⟨first :: rest, .waiting 0⟩ := List.getElem?_concat_length
      have small : ∀ other entry, lanes.requests[other]? = some entry →
          other < lanes.requests.length :=
        fun other entry found => (List.getElem?_eq_some_iff.mp found).1
      have split : ∀ other entry, added.requests[other]? = some entry →
          lanes.requests[other]? = some entry ∨
            other = lanes.requests.length ∧
              entry = ⟨first :: rest, .waiting 0⟩ := by
        intro other entry found
        by_cases before : other < lanes.requests.length
        · rw [earlier other before] at found
          exact .inl found
        · have here := (List.getElem?_eq_some_iff.mp found).1
          rw [List.length_append, List.length_singleton] at here
          have same : other = lanes.requests.length := by omega
          rw [same, last] at found
          cases found
          exact .inr ⟨same, rfl⟩
      have queued : ∀ key, ∀ other ∈ lanes.queue key,
          other < lanes.requests.length := by
        intro key other member
        obtain ⟨entry, found, -⟩ := (sound.member key other).mp member
        exact small other entry found
      have isStarted : ∀ other < lanes.requests.length,
          added.isStarted other = lanes.isStarted other := by
        intro other before
        unfold Lanes.isStarted
        rw [earlier other before]
      have started : ∀ other ∈ lanes.started,
          other < lanes.requests.length := by
        intro other member
        obtain ⟨entry, found, -⟩ := isStarted_iff.mp (sound.begun other member)
        exact small other entry found
      show Sound (enter added first lanes.requests.length)
      constructor
      · intro entry member
        rcases List.mem_append.mp member with before | new
        · exact sound.sorted entry before
        · rw [List.mem_singleton.mp new]
          exact sorted
      · intro entry member
        rcases List.mem_append.mp member with before | new
        · exact sound.waits entry before
        · rw [List.mem_singleton.mp new]
          intro index waiting
          cases waiting
          exact Nat.succ_pos _
      · intro key other
        show other ∈ (enter lanes first lanes.requests.length).queue key ↔ _
        rw [mem_enter, sound.member key other]
        constructor
        · rintro (⟨entry, found, inLane⟩ | ⟨rfl, rfl⟩)
          · refine ⟨entry, ?_, inLane⟩
            exact (earlier other (small other entry found)).trans found
          · exact ⟨_, last, List.mem_singleton_self key⟩
        · rintro ⟨entry, found, inLane⟩
          rcases split other entry found with before | ⟨same, rfl⟩
          · exact .inl ⟨entry, before, inLane⟩
          · exact .inr ⟨same, List.mem_singleton.mp inLane⟩
      · intro key
        apply enter_distinct sound
        intro member
        exact Nat.lt_irrefl _ (queued first _ member)
      · intro other entry key found holds
        rcases split other entry found with before | ⟨same, rfl⟩
        · exact enter_head (sound.front other entry key before holds)
        · cases holds
      · intro other member
        exact (isStarted other (started other member)).trans
          (sound.begun other member)
      · intro key
        have waits : added.isStarted lanes.requests.length = false := by
          unfold Lanes.isStarted
          rw [last]
          rfl
        obtain ⟨past, joined, order⟩ := enter_ordered sound first
          (fun other item member => isStarted item (queued other item member))
          waits key
        refine ⟨past, joined, Eq.trans ?_ order⟩
        apply List.filter_congr
        intro other member
        have same : added.keysOf other = lanes.keysOf other := by
          unfold keysOf
          rw [earlier other (started other member)]
        show decide (key ∈ added.keysOf other) = _
        rw [same]

theorem keysSorted (sound : Sound lanes) {phase : LanePhase}
    (found : lanes.requests[request]? = some ⟨keys, phase⟩) :
    keys.Pairwise (· < ·) := by
  have sorted := sound.sorted _ (List.mem_of_getElem? found)
  exact sorted

/-- A request that stays in the same lanes. -/
theorem member_same (sound : Sound lanes) {old phase : LanePhase}
    (found : lanes.requests[request]? = some ⟨keys, old⟩)
    (same : (LaneRequest.mk keys phase).lanes =
      (LaneRequest.mk keys old).lanes) (key : Key) (other : Nat) :
    other ∈ lanes.queue key ↔
      (other ≠ request ∧ other ∈ lanes.queue key) ∨
        (other = request ∧ key ∈ (LaneRequest.mk keys phase).lanes) := by
  rw [same]
  have mine : request ∈ lanes.queue key ↔
      key ∈ (LaneRequest.mk keys old).lanes := by
    rw [sound.member key request]
    constructor
    · rintro ⟨entry, here, inLane⟩
      rw [found] at here
      cases here
      exact inLane
    · intro inLane
      exact ⟨_, found, inLane⟩
  by_cases here : other = request
  · rw [here, mine]
    tauto
  · tauto

/-- A request that goes on has been in the front of its lanes. -/
theorem holds_next (sound : Sound lanes) {index : Nat} {key : Key}
    (found : lanes.requests[request]? = some ⟨keys, .waiting index⟩)
    (here : keys[index]? = some key)
    (turn : (lanes.queue key).head? = some request) :
    ∀ other ∈ keys.take (index + 1),
      (lanes.queue other).head? = some request := by
  intro other member
  rw [LaneRequest.take_next here] at member
  rcases List.mem_append.mp member with passed | last
  · exact sound.front request _ other found passed
  · rw [List.mem_singleton.mp last]
    exact turn

theorem goesOn (sound : Sound lanes) {index : Nat} {key next : Key}
    (found : lanes.requests[request]? = some ⟨keys, .waiting index⟩)
    (here : keys[index]? = some key) (there : keys[index + 1]? = some next)
    (turn : (lanes.queue key).head? = some request) :
    Sound (enter (setPhase lanes request keys (.waiting (index + 1))) next
      request) := by
  have sorted := sound.keysSorted found
  have absent : request ∉ lanes.queue next := by
    intro member
    obtain ⟨entry, same, inLane⟩ := (sound.member next request).mp member
    rw [found] at same
    cases same
    exact last_absent sorted there inLane
  have started : (setPhase lanes request keys
      (.waiting (index + 1))).isStarted = lanes.isStarted :=
    isStarted_same found rfl
  have waits : (setPhase lanes request keys
      (.waiting (index + 1))).isStarted request = false := by
    rw [isStarted_setPhase found, if_pos rfl]
    rfl
  apply sound.moved (.waiting (index + 1)) found
  · rfl
  · intro place same
    cases same
    exact (List.getElem?_eq_some_iff.mp there).1
  · constructor
    · intro other item
      show item ∈ (enter lanes next request).queue other ↔ _
      have kept := sound.member_same found (Eq.refl (LaneRequest.mk keys
        (.waiting index)).lanes) other item
      rw [mem_enter, kept]
      have joins : other ∈ (LaneRequest.mk keys
          (.waiting (index + 1))).lanes ↔
          other ∈ (LaneRequest.mk keys (.waiting index)).lanes ∨
            other = next := by
        show other ∈ keys.take (index + 1 + 1) ↔ other ∈ keys.take (index + 1) ∨ _
        rw [LaneRequest.take_next there, List.mem_append, List.mem_singleton]
      rw [joins]
      tauto
    · exact enter_distinct sound absent
    · intro other item _ head
      exact enter_head head
    · intro other holds
      exact enter_head
        (sound.holds_next found here turn other holds)
  · intro other member
    show (setPhase lanes request keys _).isStarted other = true
    rw [started]
    exact sound.begun other member
  · intro other
    obtain ⟨past, joined, order⟩ := enter_ordered sound next
      (fun _ item _ => congrFun started item) waits other
    refine ⟨past, joined, Eq.trans ?_ order⟩
    show (setPhase lanes request keys _).startedOn other = _
    unfold startedOn
    rw [keysOf_setPhase found]
    rfl

theorem starts (sound : Sound lanes) {index : Nat} {key : Key}
    (found : lanes.requests[request]? = some ⟨keys, .waiting index⟩)
    (here : keys[index]? = some key) (last : keys[index + 1]? = none)
    (turn : (lanes.queue key).head? = some request) :
    Sound { setPhase lanes request keys .running with
      started := lanes.started ++ [request] } := by
  have whole : keys.take (index + 1) = keys :=
    List.take_of_length_le (List.getElem?_eq_none_iff.mp last)
  have started : ∀ other, (setPhase lanes request keys .running).isStarted
      other = if other = request then true else lanes.isStarted other :=
    isStarted_setPhase found .running
  have before : lanes.isStarted request = false := by
    unfold Lanes.isStarted
    rw [found]
    rfl
  apply sound.moved .running found
  · rfl
  · nofun
  · constructor
    · apply sound.member_same found
      exact whole.symm
    · exact sound.distinct
    · exact fun _ _ _ head => head
    · intro other holds
      apply sound.holds_next found here turn
      rw [whole]
      exact holds
  · intro other member
    show (setPhase lanes request keys .running).isStarted other = true
    rw [started]
    rcases List.mem_append.mp member with earlier | new
    · rw [sound.begun other earlier]
      exact ite_self _
    · rw [if_pos (List.mem_singleton.mp new)]
  · intro other
    obtain ⟨past, joined, order⟩ := sound.ordered other
    have mine : lanes.keysOf request = keys := by
      unfold keysOf
      rw [found]
      rfl
    have begins : Lanes.startedOn { setPhase lanes request keys .running with
        started := lanes.started ++ [request] } other =
          lanes.startedOn other ++
            if other ∈ keys then [request] else [] := by
      have same : Lanes.keysOf { setPhase lanes request keys .running with
          started := lanes.started ++ [request] } = lanes.keysOf :=
        keysOf_setPhase found .running
      unfold startedOn
      rw [same, List.filter_append]
      by_cases member : other ∈ keys
      · rw [if_pos member, List.filter_cons_of_pos (by rw [mine]; simpa)]
        rfl
      · rw [if_neg member, List.filter_cons_of_neg (by rw [mine]; simpa)]
        rfl
    refine ⟨past, joined, ?_⟩
    rw [begins, order, List.append_assoc]
    congr 1
    show _ = (lanes.queue other).filter
      (setPhase lanes request keys .running).isStarted
    by_cases member : other ∈ keys
    · rw [if_pos member]
      have front := sound.holds_next found here turn other
        (by rw [whole]; exact member)
      cases line : lanes.queue other with
      | nil =>
          rw [line] at front
          cases front
      | cons first rest =>
          rw [line] at front
          cases front
          have behind : rest.filter lanes.isStarted = [] := by
            have waiting := sound.filter_started other
            rw [line, List.filter_cons_of_neg (by rw [before]; decide)]
              at waiting
            cases chosen : rest.filter lanes.isStarted with
            | nil => rfl
            | cons one more =>
                rw [chosen] at waiting
                obtain ⟨_, same⟩ := waiting
                have begun : one ∈ rest.filter lanes.isStarted := by
                  rw [chosen]
                  exact List.mem_cons_self
                have begunOne := (List.mem_filter.mp begun).2
                rw [List.cons_append] at same
                rw [(List.cons.inj same).1, before] at begunOne
                cases begunOne
          have once := sound.distinct other
          rw [line] at once
          have others : rest.filter
              (setPhase lanes request keys .running).isStarted =
                rest.filter lanes.isStarted := by
            apply List.filter_congr
            intro item inRest
            rw [started, if_neg]
            rintro rfl
            exact (List.nodup_cons.mp once).1 inRest
          rw [List.filter_cons_of_neg (by rw [before]; decide),
            List.filter_cons_of_pos (by rw [started, if_pos rfl]), behind,
            others, behind]
          rfl
    · rw [if_neg member, List.append_nil]
      apply List.filter_congr
      intro item inLane
      rw [started, if_neg]
      rintro rfl
      obtain ⟨entry, same, has⟩ := (sound.member other item).mp inLane
      rw [found] at same
      cases same
      exact member (List.mem_of_mem_take has)

theorem turn (sound : Sound lanes) (request : Nat) :
    Sound (turn lanes request) := by
  unfold Lanes.turn
  split
  · rename_i keys index found
    cases here : keys[index]? with
    | none => exact sound
    | some key =>
        simp only
        split_ifs with front
        · cases there : keys[index + 1]? with
          | some next => exact sound.goesOn found here there front
          | none => exact sound.starts found here there front
        · exact sound
  · exact sound

theorem leaves (sound : Sound lanes) {left : Nat} {key : Key}
    (found : lanes.requests[request]? = some ⟨keys, .releasing (left + 1)⟩)
    (here : keys[left]? = some key) :
    Sound (leave (setPhase lanes request keys (.releasing left)) key) := by
  have sorted := sound.keysSorted found
  have absent := last_absent sorted here
  have mine : key ∈ keys.take (left + 1) := by
    rw [LaneRequest.take_next here]
    exact List.mem_append_right _ (List.mem_singleton_self key)
  have front : (lanes.queue key).head? = some request :=
    sound.front request _ key found mine
  have started : (setPhase lanes request keys (.releasing left)).isStarted =
      lanes.isStarted := isStarted_same found rfl
  have begun : lanes.isStarted request = true := by
    unfold Lanes.isStarted
    rw [found]
    rfl
  obtain ⟨rest, line⟩ : ∃ rest, lanes.queue key = request :: rest := by
    cases line : lanes.queue key with
    | nil =>
        rw [line] at front
        cases front
    | cons first rest =>
        rw [line] at front
        cases front
        exact ⟨rest, rfl⟩
  have once := sound.distinct key
  rw [line] at once
  obtain ⟨gone, others⟩ := List.nodup_cons.mp once
  have queue : ∀ other, (leave (setPhase lanes request keys
      (.releasing left)) key).queue other =
        if other = key then rest else lanes.queue other := by
    intro other
    show (if other = key then (lanes.queue key).tail else _) = _
    rw [line]
    rfl
  apply sound.moved (.releasing left) found
  · rfl
  · nofun
  · constructor
    · intro other item
      have kept := sound.member_same found (Eq.refl (LaneRequest.mk keys
        (.releasing (left + 1))).lanes) other item
      rw [queue]
      by_cases same : other = key
      · subst same
        rw [if_pos rfl]
        rw [line] at kept
        constructor
        · intro member
          apply Or.inl
          constructor
          · rintro rfl
            exact gone member
          · rw [line]
            exact List.mem_cons_of_mem _ member
        · rintro (⟨different, member⟩ | ⟨_, inLane⟩)
          · rw [line] at member
            exact (List.mem_cons.mp member).resolve_left different
          · exact absurd inLane absent
      · have lane : other ∈ (LaneRequest.mk keys
            (.releasing (left + 1))).lanes ↔
            other ∈ (LaneRequest.mk keys (.releasing left)).lanes := by
          show other ∈ keys.take (left + 1) ↔ other ∈ keys.take left
          rw [LaneRequest.take_next here, List.mem_append,
            List.mem_singleton]
          exact or_iff_left same
        rw [lane] at kept
        rw [if_neg same]
        exact kept
    · intro other
      rw [queue]
      by_cases same : other = key
      · rw [if_pos same]
        exact others
      · rw [if_neg same]
        exact sound.distinct other
    · intro other item different head
      rw [queue]
      by_cases same : other = key
      · rw [same, line] at head
        cases head
        exact absurd rfl different
      · rw [if_neg same]
        exact head
    · intro other holds
      have different : other ≠ key := by
        rintro rfl
        exact absent holds
      rw [queue, if_neg different]
      apply sound.front request _ other found
      show other ∈ keys.take (left + 1)
      rw [LaneRequest.take_next here]
      exact List.mem_append_left _ holds
  · intro other member
    show (setPhase lanes request keys _).isStarted other = true
    rw [started]
    exact sound.begun other member
  · intro other
    obtain ⟨past, joined, order⟩ := sound.ordered other
    have kept : (leave (setPhase lanes request keys (.releasing left))
        key).startedOn other = lanes.startedOn other := by
      show (setPhase lanes request keys _).startedOn other = _
      unfold startedOn
      rw [keysOf_setPhase found]
      rfl
    have same : (leave (setPhase lanes request keys (.releasing left))
        key).isStarted = lanes.isStarted := started
    rw [kept, same, queue]
    by_cases here : other = key
    · refine ⟨past ++ [request], ?_, ?_⟩
      · rw [if_pos here, List.append_assoc]
        show lanes.joined other = _
        rw [joined, here, line]
        rfl
      · rw [if_pos here, order, here, line, List.filter_cons_of_pos begun,
          List.append_assoc]
        rfl
    · rw [if_neg here]
      exact ⟨past, joined, order⟩

theorem finish (sound : Sound lanes) (request : Nat) :
    Sound (finish lanes request) := by
  unfold Lanes.finish
  split
  · rename_i keys found
    apply sound.moved (.releasing keys.length) found
    · rfl
    · nofun
    · constructor
      · exact sound.member_same found List.take_length
      · exact sound.distinct
      · exact fun _ _ _ head => head
      · intro key holds
        have mine : key ∈ (LaneRequest.mk keys .running).holds :=
          List.mem_of_mem_take holds
        exact sound.front request _ key found mine
    · intro other member
      have same : (setPhase lanes request keys (.releasing keys.length)).isStarted
          = lanes.isStarted := isStarted_same found rfl
      rw [same]
      exact sound.begun other member
    · intro key
      have same : (setPhase lanes request keys (.releasing keys.length)).isStarted
          = lanes.isStarted := isStarted_same found rfl
      rw [same]
      unfold startedOn
      rw [keysOf_setPhase found]
      exact sound.ordered key
  · exact sound

theorem release (sound : Sound lanes) (request : Nat) :
    Sound (release lanes request) := by
  unfold Lanes.release
  split
  · rename_i keys left found
    cases here : keys[left]? with
    | none => exact sound
    | some key =>
        exact sound.leaves found here
  · exact sound

/-! ## What the lanes promise -/

/-- Two requests of one key do not run at one time. -/
theorem exclusive (sound : Sound lanes) {other : Nat}
    {entry another : LaneRequest Key} {key : Key}
    (found : lanes.requests[request]? = some entry)
    (foundOther : lanes.requests[other]? = some another)
    (running : entry.phase = .running) (runningOther : another.phase = .running)
    (shared : key ∈ entry.keys) (sharedOther : key ∈ another.keys) :
    request = other := by
  obtain ⟨_, _⟩ := entry
  obtain ⟨_, _⟩ := another
  cases running
  cases runningOther
  exact sound.unique found foundOther shared sharedOther

theorem waitsFor_of_waiting (sound : Sound lanes) {index : Nat}
    (found : lanes.requests[request]? = some ⟨keys, .waiting index⟩) :
    ∃ key, (LaneRequest.mk keys (.waiting index)).waitsFor = some key := by
  have small := sound.waits _ (List.mem_of_getElem? found) index rfl
  exact ⟨keys[index], List.getElem?_eq_getElem small⟩

/-- A request that waits in the lane of a key no smaller than the one it waits
for waits for this one. -/
theorem waitsFor_greatest (sound : Sound lanes) {key : Key}
    {entry : LaneRequest Key} (found : lanes.requests[request]? = some entry)
    (inLane : key ∈ entry.lanes) (waiting : entry.started = false)
    (greatest : ∀ other, entry.waitsFor = some other → other ≤ key) :
    entry.waitsFor = some key := by
  obtain ⟨keys, phase⟩ := entry
  cases phase with
  | running => cases waiting
  | releasing left => cases waiting
  | waiting index =>
      obtain ⟨last, here⟩ := sound.waitsFor_of_waiting found
      have prefix' := (sound.keysSorted found).sublist
        (List.take_sublist (index + 1) keys)
      rw [LaneRequest.take_next here] at prefix'
      have inLane' : key ∈ keys.take (index + 1) := inLane
      rw [LaneRequest.take_next here] at inLane'
      rcases List.mem_append.mp inLane' with passed | same
      · have less := (List.pairwise_append.mp prefix').2.2 key passed last
          (List.mem_singleton_self last)
        exact absurd (greatest last here) (not_le.mpr less)
      · rw [List.mem_singleton.mp same]
        exact here

/-- When a request waits, one of those that wait comes in its lane right behind
requests that run or have run. -/
theorem noCircle (sound : Sound lanes) {entry : LaneRequest Key}
    (found : lanes.requests[request]? = some entry)
    (waiting : entry.started = false) :
    ∃ other another key before after,
      lanes.requests[other]? = some another ∧ another.waitsFor = some key ∧
        lanes.joined key = before ++ other :: after ∧
        ∀ earlier ∈ before, lanes.isStarted earlier = true := by
  let waited : Finset Key := (lanes.requests.filterMap LaneRequest.waitsFor).toFinset
  have some' : ∃ key, entry.waitsFor = some key := by
    obtain ⟨keys, phase⟩ := entry
    cases phase with
    | waiting index => exact sound.waitsFor_of_waiting found
    | running => cases waiting
    | releasing left => cases waiting
  obtain ⟨first, waitsFirst⟩ := some'
  have nonempty : waited.Nonempty := by
    refine ⟨first, ?_⟩
    apply List.mem_toFinset.mpr
    exact List.mem_filterMap.mpr
      ⟨entry, List.mem_of_getElem? found, waitsFirst⟩
  obtain ⟨key, member, greatest⟩ := waited.exists_max_image id nonempty
  obtain ⟨holder, present, waitsKey⟩ :=
    List.mem_filterMap.mp (List.mem_toFinset.mp member)
  obtain ⟨place, here⟩ := List.mem_iff_getElem?.mp present
  let waitsHere (other : Nat) : Bool :=
    ((lanes.requests[other]?).bind LaneRequest.waitsFor) = some key
  have queued : place ∈ lanes.queue key := by
    apply (sound.member key place).mpr
    refine ⟨holder, here, ?_⟩
    obtain ⟨keys, phase⟩ := holder
    cases phase with
    | running => cases waitsKey
    | releasing left => cases waitsKey
    | waiting index =>
        show key ∈ keys.take (index + 1)
        rw [LaneRequest.take_next waitsKey]
        exact List.mem_append_right _ (List.mem_singleton_self key)
  have chosen : ((lanes.queue key).find? waitsHere).isSome = true := by
    apply List.find?_isSome.mpr
    refine ⟨place, queued, ?_⟩
    show decide _ = true
    rw [here]
    exact decide_eq_true waitsKey
  obtain ⟨other, selected⟩ := Option.isSome_iff_exists.mp chosen
  obtain ⟨marked, before, after, line, earlier⟩ :=
    List.find?_eq_some_iff_append.mp selected
  obtain ⟨another, foundOther, waitsOther⟩ :=
    Option.bind_eq_some_iff.mp (of_decide_eq_true marked)
  obtain ⟨past, joined, started⟩ := sound.ordered key
  refine ⟨other, another, key, past ++ before, after, foundOther, waitsOther,
    ?_, ?_⟩
  · rw [joined, line, List.append_assoc]
  · intro item inFront
    rcases List.mem_append.mp inFront with gone | ahead
    · apply sound.begun
      have onKey : item ∈ lanes.startedOn key := by
        rw [started]
        exact List.mem_append_left _ gone
      exact (List.mem_filter.mp onKey).1
    · have inLine : item ∈ lanes.queue key := by
        rw [line]
        exact List.mem_append_left _ ahead
      obtain ⟨entry, foundItem, inLane⟩ :=
        (sound.member key item).mp inLine
      apply isStarted_iff.mpr
      refine ⟨entry, foundItem, ?_⟩
      by_contra notStarted
      have waitsKey := sound.waitsFor_greatest foundItem inLane
        (Bool.eq_false_iff.mpr notStarted) (by
          intro other waitsOther
          apply greatest other
          apply List.mem_toFinset.mpr
          exact List.mem_filterMap.mpr
            ⟨entry, List.mem_of_getElem? foundItem, waitsOther⟩)
      have unmarked := earlier item ahead
      have isMarked : waitsHere item = true := by
        show decide _ = true
        rw [foundItem]
        exact decide_eq_true waitsKey
      rw [isMarked] at unmarked
      cases unmarked

end Sound

end Lanes

end Motrix.Lib
