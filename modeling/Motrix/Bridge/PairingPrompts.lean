import Mathlib.Data.List.Nodup
import Motrix.Bridge.CredentialStore

/-!
# Pairing prompts

The prompts that wait for an operator or a pairing session to decide them.  A
prompt is known by its sequence number; the namespace before that in its id is
the same for all of them.  What the clock, the timers and the shell adapter do
is part of each event.
-/

namespace Motrix.Bridge.PairingPrompts

inductive TerminalOutcome where
  | paired
  | denied
  | expired
  | aborted
  deriving DecidableEq, Repr

/-- The outcomes a pairing session may give. -/
inductive SessionOutcome where
  | paired
  | aborted
  deriving DecidableEq, Repr

def SessionOutcome.terminal : SessionOutcome → TerminalOutcome
  | .paired => .paired
  | .aborted => .aborted

/-- `PairingPromptCallbackStatus` -/
inductive CallbackStatus where
  | delivered
  | failed
  | notConfigured
  deriving DecidableEq, Repr

inductive CallbackFailure where
  | enqueue
  | terminal (outcome : TerminalOutcome)
  deriving DecidableEq, Repr

structure VerifiedIdentity where
  browser : Browser
  verifiedOrigin : String
  originHost : String
  deriving DecidableEq, Repr

structure PairDialogRequest where
  browser : Browser
  claimedExtensionId : String
  identity : IdentityTriState
  code : String
  pairingNonce : String
  verifiedOrigin : String

structure Snapshot where
  promptId : Nat
  verifiedIdentity : VerifiedIdentity
  claimedExtensionId : String
  identity : IdentityTriState
  pairingNonce : String
  code : String
  createdAt : Int
  expiresAt : Int

/-- `JSON.stringify([identity.browser, identity.verifiedOrigin])` -/
abbrev IdentityKey := Browser × String

structure PendingPrompt where
  snapshot : Snapshot
  identityKey : IdentityKey

def PendingPrompt.promptId (entry : PendingPrompt) : Nat :=
  entry.snapshot.promptId

/-- The constructor refuses other options. -/
structure Options where
  ttlMs : Nat
  maxPending : Nat
  ttl_pos : 0 < ttlMs
  ttl_safe : ttlMs ≤ maxSafeInteger
  cap_pos : 0 < maxPending
  cap_safe : maxPending ≤ maxSafeInteger

structure Controller where
  pending : List PendingPrompt
  openIdentities : List IdentityKey
  callbackFailures : List CallbackFailure
  nextPromptSequence : Nat
  disposed : Bool
  /-- The calls of `resolveTerminal`, in their order. -/
  terminals : List (Nat × TerminalOutcome)

def initialController : Controller :=
  { pending := []
    openIdentities := []
    callbackFailures := []
    nextPromptSequence := 0
    disposed := false
    terminals := [] }

inductive EnqueueFailure where
  | duplicate
  | capacity
  | disposed
  | invalidOrigin
  | schedulingFailed
  deriving DecidableEq, Repr

inductive EnqueueResult where
  | ok (promptId : Nat) (published : CallbackStatus)
  | failed (reason : EnqueueFailure)
  deriving DecidableEq, Repr

inductive SettleResult where
  | ok (outcome : TerminalOutcome)
  | unavailable
  deriving DecidableEq, Repr

/-! ## The verified origin -/

def hasUnsafeOriginCharacter (value : String) : Bool :=
  value.toList.any fun character =>
    character.isWhitespace || character.toNat ≤ 0x1f ||
      0x7f ≤ character.toNat

def parseVerifiedIdentity (parseUrl : ParseUrl) (request : PairDialogRequest) :
    Option VerifiedIdentity :=
  let origin := request.verifiedOrigin
  if request.browser = .safari ∧ ¬ isSafariExtensionOrigin origin ∨
      origin = "" ∨ hasUnsafeOriginCharacter origin ∨
      origin.toList.contains '\\' ∨ origin.toList.contains '%' then none
  else
    match parseUrl origin with
    | none => none
    | some parsed =>
        let expectedProtocol := extensionOriginScheme request.browser ++ ":"
        if parsed.protocol ≠ expectedProtocol ∨ parsed.host = "" ∨
            parsed.port ≠ "" ∨ parsed.username ≠ "" ∨ parsed.password ≠ "" ∨
            parsed.search ≠ "" ∨ parsed.hash ≠ "" ∨
            (parsed.pathname ≠ "" ∧ parsed.pathname ≠ "/") then none
        else
          some
            { browser := request.browser
              verifiedOrigin := parsed.protocol ++ "//" ++ parsed.host
              originHost := parsed.host }

def identityKey (identity : VerifiedIdentity) : IdentityKey :=
  (identity.browser, identity.verifiedOrigin)

/-! ## Settling -/

def maxRetainedCallbackFailures : Nat := 100

/-- `readNow()`; a clock that throws has no reading. -/
def readNow (reading : Option Int) : Option Int :=
  match reading with
  | none => none
  | some now => if now.natAbs ≤ maxSafeInteger then some now else none

namespace Controller

def recordCallbackFailure (controller : Controller)
    (failure : CallbackFailure) : Controller :=
  let failures := controller.callbackFailures ++ [failure]
  { controller with
    callbackFailures :=
      if maxRetainedCallbackFailures < failures.length then failures.tail
      else failures }

/-- `invokeCallback`, whose receipt is given. -/
def invokeCallback (controller : Controller) (failure : CallbackFailure)
    (receipt : CallbackStatus) : Controller :=
  match receipt with
  | .failed => controller.recordCallbackFailure failure
  | _ => controller

def get (controller : Controller) (promptId : Nat) : Option PendingPrompt :=
  controller.pending.find? (·.promptId = promptId)

/-- The prompt leaves the tables, and its terminal promise resolves. -/
def withdraw (controller : Controller) (entry : PendingPrompt)
    (outcome : TerminalOutcome) : Controller :=
  { controller with
    pending := controller.pending.filter (·.promptId ≠ entry.promptId)
    openIdentities := controller.openIdentities.filter (· ≠ entry.identityKey)
    terminals := controller.terminals ++ [(entry.promptId, outcome)] }

def settleInternal (controller : Controller) (promptId : Nat)
    (outcome : TerminalOutcome) (receipt : CallbackStatus) :
    Controller × SettleResult :=
  match controller.get promptId with
  | none => (controller, .unavailable)
  | some entry =>
      ((controller.withdraw entry outcome).invokeCallback (.terminal outcome)
        receipt, .ok outcome)

/-- The answers of `onTerminal`, for the prompt it is told about. -/
abbrev Receipts := Nat → CallbackStatus

def expireDueEntries (controller : Controller) (now : Int)
    (receipts : Receipts) : Controller :=
  controller.pending.foldl (fun current entry =>
    if now < entry.snapshot.expiresAt then current
    else
      (current.settleInternal entry.promptId .expired
        (receipts entry.promptId)).1) controller

/-- `deny` and `settleFromSession`; the answer is `none` where the clock
throws. -/
def decide (controller : Controller) (promptId : Nat)
    (outcome : TerminalOutcome) (reading : Option Int)
    (receipt : CallbackStatus) : Controller × Option SettleResult :=
  match controller.get promptId with
  | none => (controller, some .unavailable)
  | some entry =>
      match readNow reading with
      | none => (controller, none)
      | some now =>
          if entry.snapshot.expiresAt ≤ now then
            ((controller.settleInternal promptId .expired receipt).1,
              some .unavailable)
          else
            let settled := controller.settleInternal promptId outcome receipt
            (settled.1, some settled.2)

def deny (controller : Controller) (promptId : Nat) :
    Option Int → CallbackStatus → Controller × Option SettleResult :=
  controller.decide promptId .denied

def settleFromSession (controller : Controller) (promptId : Nat)
    (outcome : SessionOutcome) :
    Option Int → CallbackStatus → Controller × Option SettleResult :=
  controller.decide promptId outcome.terminal

/-! ## Prompts -/

/-- What the scheduler and the adapter do with a new prompt. -/
structure Adapter where
  scheduled : Bool
  onEnqueued : CallbackStatus

def snapshotOf (options : Options) (promptId : Nat) (now : Int)
    (request : PairDialogRequest) (verifiedIdentity : VerifiedIdentity) :
    Snapshot :=
  { promptId
    verifiedIdentity
    claimedExtensionId := request.claimedExtensionId
    identity := request.identity
    pairingNonce := request.pairingNonce
    code := request.code
    createdAt := now
    expiresAt := now + options.ttlMs }

/-- The prompt is pending before its timer is scheduled. -/
def insert (controller : Controller) (entry : PendingPrompt) : Controller :=
  { controller with
    pending := controller.pending ++ [entry]
    openIdentities := controller.openIdentities ++ [entry.identityKey]
    nextPromptSequence := controller.nextPromptSequence + 1 }

/-- `enqueue`; the answer is `none` where the clock throws. -/
def enqueue (options : Options) (parseUrl : ParseUrl)
    (controller : Controller) (request : PairDialogRequest)
    (reading : Option Int) (adapter : Adapter) (receipts : Receipts) :
    Controller × Option EnqueueResult :=
  if controller.disposed then (controller, some (.failed .disposed))
  else
    match readNow reading with
    | none => (controller, none)
    | some now =>
        let swept := controller.expireDueEntries now receipts
        match parseVerifiedIdentity parseUrl request with
        | none => (swept, some (.failed .invalidOrigin))
        | some verifiedIdentity =>
            if identityKey verifiedIdentity ∈ swept.openIdentities then
              (swept, some (.failed .duplicate))
            else if options.maxPending ≤ swept.pending.length then
              (swept, some (.failed .capacity))
            else
              let promptId := swept.nextPromptSequence + 1
              let entry : PendingPrompt :=
                { snapshot :=
                    snapshotOf options promptId now request verifiedIdentity
                  identityKey := identityKey verifiedIdentity }
              let inserted := swept.insert entry
              if adapter.scheduled then
                (inserted.invokeCallback .enqueue adapter.onEnqueued,
                  some (.ok promptId adapter.onEnqueued))
              else
                (inserted.withdraw entry .aborted,
                  some (.failed .schedulingFailed))

/-- `snapshot()` -/
def snapshot (controller : Controller) (reading : Option Int)
    (receipts : Receipts) : Controller × Option (List Snapshot) :=
  if controller.disposed then
    (controller, some (controller.pending.map (·.snapshot)))
  else
    match readNow reading with
    | none => (controller, none)
    | some now =>
        let swept := controller.expireDueEntries now receipts
        (swept, some (swept.pending.map (·.snapshot)))

def dispose (controller : Controller) (receipts : Receipts) : Controller :=
  if controller.disposed then controller
  else
    let aborted := controller.pending.foldl (fun current entry =>
      (current.settleInternal entry.promptId .aborted
        (receipts entry.promptId)).1) { controller with disposed := true }
    { aborted with openIdentities := [] }

end Controller

/-! ## Runs -/

inductive Event where
  | enqueue (request : PairDialogRequest) (reading : Option Int)
      (adapter : Controller.Adapter) (receipts : Controller.Receipts)
  | deny (promptId : Nat) (reading : Option Int) (receipt : CallbackStatus)
  | settle (promptId : Nat) (outcome : SessionOutcome) (reading : Option Int)
      (receipt : CallbackStatus)
  | timer (promptId : Nat) (receipt : CallbackStatus)
  | snapshot (reading : Option Int) (receipts : Controller.Receipts)
  | dispose (receipts : Controller.Receipts)

def step (options : Options) (parseUrl : ParseUrl) (controller : Controller) :
    Event → Controller
  | .enqueue request reading adapter receipts =>
      (controller.enqueue options parseUrl request reading adapter receipts).1
  | .deny promptId reading receipt =>
      (controller.deny promptId reading receipt).1
  | .settle promptId outcome reading receipt =>
      (controller.settleFromSession promptId outcome reading receipt).1
  | .timer promptId receipt =>
      (controller.settleInternal promptId .expired receipt).1
  | .snapshot reading receipts => (controller.snapshot reading receipts).1
  | .dispose receipts => controller.dispose receipts

def runEvents (options : Options) (parseUrl : ParseUrl)
    (controller : Controller) (events : List Event) : Controller :=
  events.foldl (step options parseUrl) controller

end Motrix.Bridge.PairingPrompts

/-!
# A prompt is settled once

A prompt leaves the tables with its one resolution.  So of all who decide it
only the first is told of a success, and not even that one when the prompt is
due at its reading of the clock.
-/

namespace Motrix.Bridge.PairingPrompts

namespace Controller

/-- How often the terminal promise of a prompt was resolved. -/
def resolutions (controller : Controller) (promptId : Nat) : Nat :=
  controller.terminals.countP (·.1 = promptId)

/-- No pending prompt has the number. -/
def Absent (controller : Controller) (promptId : Nat) : Prop :=
  ∀ entry ∈ controller.pending, entry.promptId ≠ promptId

structure Sound (options : Options) (controller : Controller) : Prop where
  ids : (controller.pending.map (·.promptId)).Nodup
  known : ∀ entry ∈ controller.pending,
    entry.promptId ≤ controller.nextPromptSequence
  keys : (controller.pending.map (·.identityKey)).Nodup
  identities : ∀ key, key ∈ controller.openIdentities ↔
    ∃ entry ∈ controller.pending, entry.identityKey = key
  verified : ∀ entry ∈ controller.pending,
    entry.identityKey = PairingPrompts.identityKey
      entry.snapshot.verifiedIdentity
  capacity : controller.pending.length ≤ options.maxPending
  unresolved : ∀ entry ∈ controller.pending,
    controller.resolutions entry.promptId = 0
  resolved : ∀ promptId, 1 ≤ promptId →
    promptId ≤ controller.nextPromptSequence → controller.Absent promptId →
      controller.resolutions promptId = 1
  unissued : ∀ promptId, controller.nextPromptSequence < promptId →
    controller.resolutions promptId = 0

theorem sound_initial (options : Options) :
    Sound options initialController where
  ids := List.nodup_nil
  known _ inside := by cases inside
  keys := List.nodup_nil
  identities key := by simp [initialController]
  verified _ inside := by cases inside
  capacity := Nat.zero_le _
  unresolved _ inside := by cases inside
  resolved promptId positive bounded _ :=
    absurd (Nat.le_trans positive bounded) (Nat.not_succ_le_zero 0)
  unissued _ _ := rfl

section Steps

variable {options : Options} {controller : Controller}

theorem Sound.sameId (sound : Sound options controller)
    {left right : PendingPrompt} (leftInside : left ∈ controller.pending)
    (rightInside : right ∈ controller.pending)
    (same : left.promptId = right.promptId) : left = right :=
  List.inj_on_of_nodup_map sound.ids leftInside rightInside same

theorem Sound.sameKey (sound : Sound options controller)
    {left right : PendingPrompt} (leftInside : left ∈ controller.pending)
    (rightInside : right ∈ controller.pending)
    (same : left.identityKey = right.identityKey) : left = right :=
  List.inj_on_of_nodup_map sound.keys leftInside rightInside same

/-! ## Withdrawing -/

theorem mem_withdraw {entry other : PendingPrompt}
    {outcome : TerminalOutcome} :
    other ∈ (controller.withdraw entry outcome).pending ↔
      other ∈ controller.pending ∧ other.promptId ≠ entry.promptId := by
  show other ∈ controller.pending.filter _ ↔ _
  rw [List.mem_filter]
  simp

theorem resolutions_withdraw {entry : PendingPrompt}
    {outcome : TerminalOutcome} (promptId : Nat) :
    (controller.withdraw entry outcome).resolutions promptId =
      controller.resolutions promptId +
        if entry.promptId = promptId then 1 else 0 := by
  show (controller.terminals ++ [(entry.promptId, outcome)]).countP _ = _
  rw [List.countP_append, List.countP_singleton]
  simp only [decide_eq_true_eq]
  rfl

theorem Sound.withdraw (sound : Sound options controller)
    {entry : PendingPrompt} (inside : entry ∈ controller.pending)
    (outcome : TerminalOutcome) :
    Sound options (controller.withdraw entry outcome) where
  ids := sound.ids.sublist (List.filter_sublist.map _)
  known other member := sound.known other (mem_withdraw.mp member).1
  keys := sound.keys.sublist (List.filter_sublist.map _)
  identities key := by
    show key ∈ controller.openIdentities.filter _ ↔ _
    rw [List.mem_filter, sound.identities]
    simp only [decide_eq_true_eq]
    constructor
    · rintro ⟨⟨other, member, named⟩, different⟩
      refine ⟨other, mem_withdraw.mpr ⟨member, fun same => ?_⟩, named⟩
      exact different (sound.sameId member inside same ▸ named).symm
    · rintro ⟨other, member, named⟩
      obtain ⟨old, different⟩ := mem_withdraw.mp member
      refine ⟨⟨other, old, named⟩, fun same => different ?_⟩
      rw [sound.sameKey old inside (named.trans same)]
  verified other member := sound.verified other (mem_withdraw.mp member).1
  capacity :=
    Nat.le_trans (List.length_filter_le _ _) sound.capacity
  unresolved other member := by
    obtain ⟨old, different⟩ := mem_withdraw.mp member
    rw [resolutions_withdraw, sound.unresolved other old,
      if_neg (Ne.symm different)]
  resolved promptId positive bounded absent := by
    rw [resolutions_withdraw]
    by_cases own : entry.promptId = promptId
    · subst own
      rw [sound.unresolved entry inside, if_pos rfl]
    · rw [if_neg own]
      refine sound.resolved promptId positive bounded fun other member same =>
        absent other (mem_withdraw.mpr ⟨member, fun equal => ?_⟩) same
      exact own (equal.symm.trans same)
  unissued promptId above := by
    have below := sound.known entry inside
    have above : controller.nextPromptSequence < promptId := above
    rw [resolutions_withdraw, sound.unissued promptId above,
      if_neg (by omega)]

theorem Sound.recordCallbackFailure (sound : Sound options controller)
    (failure : CallbackFailure) :
    Sound options (controller.recordCallbackFailure failure) where
  ids := sound.ids
  known := sound.known
  keys := sound.keys
  identities := sound.identities
  verified := sound.verified
  capacity := sound.capacity
  unresolved := sound.unresolved
  resolved := sound.resolved
  unissued := sound.unissued

theorem Sound.invokeCallback (sound : Sound options controller)
    (failure : CallbackFailure) (receipt : CallbackStatus) :
    Sound options (controller.invokeCallback failure receipt) := by
  cases receipt with
  | delivered => exact sound
  | failed => exact sound.recordCallbackFailure failure
  | notConfigured => exact sound

theorem pending_invokeCallback (failure : CallbackFailure)
    (receipt : CallbackStatus) :
    (controller.invokeCallback failure receipt).pending =
      controller.pending := by
  cases receipt <;> rfl

theorem sequence_invokeCallback (failure : CallbackFailure)
    (receipt : CallbackStatus) :
    (controller.invokeCallback failure receipt).nextPromptSequence =
      controller.nextPromptSequence := by
  cases receipt <;> rfl

theorem disposed_invokeCallback (failure : CallbackFailure)
    (receipt : CallbackStatus) :
    (controller.invokeCallback failure receipt).disposed =
      controller.disposed := by
  cases receipt <;> rfl

theorem get_some {promptId : Nat} {entry : PendingPrompt}
    (found : controller.get promptId = some entry) :
    entry ∈ controller.pending ∧ entry.promptId = promptId :=
  ⟨List.mem_of_find?_eq_some found, by simpa using List.find?_some found⟩

theorem get_none {promptId : Nat} :
    controller.get promptId = none ↔ controller.Absent promptId := by
  unfold get Absent
  simp

theorem Sound.settleInternal (sound : Sound options controller)
    (promptId : Nat) (outcome : TerminalOutcome) (receipt : CallbackStatus) :
    Sound options
      (controller.settleInternal promptId outcome receipt).1 := by
  unfold Controller.settleInternal
  split
  · exact sound
  · rename_i entry found
    exact (sound.withdraw (get_some found).1 outcome).invokeCallback _ _

/-! ## Sweeps -/

/-- Prompts have left, and none has come. -/
structure Shrinks (before after : Controller) : Prop where
  pending : ∀ entry ∈ after.pending, entry ∈ before.pending
  sequence : after.nextPromptSequence = before.nextPromptSequence
  disposed : after.disposed = before.disposed

theorem Shrinks.refl (controller : Controller) :
    Shrinks controller controller where
  pending _ inside := inside
  sequence := rfl
  disposed := rfl

theorem Shrinks.trans {before between after : Controller}
    (first : Shrinks before between) (second : Shrinks between after) :
    Shrinks before after where
  pending entry inside := first.pending entry (second.pending entry inside)
  sequence := second.sequence.trans first.sequence
  disposed := second.disposed.trans first.disposed

theorem Shrinks.absent {before after : Controller}
    (shrinks : Shrinks before after) {promptId : Nat}
    (absent : before.Absent promptId) : after.Absent promptId :=
  fun entry inside => absent entry (shrinks.pending entry inside)

theorem shrinks_withdraw (entry : PendingPrompt) (outcome : TerminalOutcome) :
    Shrinks controller (controller.withdraw entry outcome) where
  pending _ inside := (mem_withdraw.mp inside).1
  sequence := rfl
  disposed := rfl

theorem shrinks_invokeCallback (failure : CallbackFailure)
    (receipt : CallbackStatus) :
    Shrinks controller (controller.invokeCallback failure receipt) where
  pending entry inside := by rwa [pending_invokeCallback] at inside
  sequence := sequence_invokeCallback failure receipt
  disposed := disposed_invokeCallback failure receipt

theorem shrinks_settleInternal (promptId : Nat) (outcome : TerminalOutcome)
    (receipt : CallbackStatus) :
    Shrinks controller
      (controller.settleInternal promptId outcome receipt).1 := by
  unfold Controller.settleInternal
  split
  · exact Shrinks.refl controller
  · rename_i entry found
    exact (shrinks_withdraw entry outcome).trans (shrinks_invokeCallback _ _)

theorem absent_settleInternal (promptId : Nat) (outcome : TerminalOutcome)
    (receipt : CallbackStatus) :
    (controller.settleInternal promptId outcome receipt).1.Absent
      promptId := by
  unfold Controller.settleInternal
  split
  · rename_i missing
    exact get_none.mp missing
  · rename_i entry found
    intro other inside same
    rw [pending_invokeCallback] at inside
    exact (mem_withdraw.mp inside).2 (same.trans (get_some found).2.symm)

/-- A sweep over the prompts it lists. -/
theorem shrinks_foldl {settles : Controller → PendingPrompt → Controller}
    (sweeps : ∀ controller entry, Shrinks controller (settles controller entry))
    (entries : List PendingPrompt) (controller : Controller) :
    Shrinks controller (entries.foldl settles controller) := by
  induction entries generalizing controller with
  | nil => exact Shrinks.refl controller
  | cons entry rest induction =>
      exact (sweeps controller entry).trans (induction _)

theorem Sound.foldl {settles : Controller → PendingPrompt → Controller}
    (sweeps : ∀ controller entry, Sound options controller →
      Sound options (settles controller entry))
    (entries : List PendingPrompt) (sound : Sound options controller) :
    Sound options (entries.foldl settles controller) := by
  induction entries generalizing controller with
  | nil => exact sound
  | cons entry rest induction =>
      exact induction (sweeps controller entry sound)

theorem Sound.expireDueEntries (sound : Sound options controller) (now : Int)
    (receipts : Receipts) :
    Sound options (controller.expireDueEntries now receipts) := by
  apply Sound.foldl _ _ sound
  intro current entry valid
  split
  · exact valid
  · exact valid.settleInternal _ _ _

theorem shrinks_expireDueEntries (now : Int) (receipts : Receipts) :
    Shrinks controller (controller.expireDueEntries now receipts) := by
  apply shrinks_foldl
  intro current entry
  split
  · exact Shrinks.refl current
  · exact shrinks_settleInternal _ _ _

/-- Every prompt is settled by the sweep that settles all it lists. -/
theorem absent_foldl_settleInternal (outcome : TerminalOutcome)
    (receipts : Receipts) (entries : List PendingPrompt)
    (controller : Controller) :
    ∀ entry ∈ entries,
      (entries.foldl (fun current entry =>
        (current.settleInternal entry.promptId outcome
          (receipts entry.promptId)).1) controller).Absent
        entry.promptId := by
  induction entries generalizing controller with
  | nil =>
      intro entry inside
      cases inside
  | cons first rest induction =>
      intro entry inside
      rcases List.mem_cons.mp inside with same | later
      · subst same
        rw [List.foldl_cons]
        refine (shrinks_foldl ?_ rest _).absent (absent_settleInternal _ _ _)
        intro current entry
        exact shrinks_settleInternal _ _ _
      · exact induction _ entry later

/-- What a first disposal leaves. -/
theorem dispose_of_live (receipts : Receipts)
    (live : controller.disposed = false) :
    ∃ aborted, Shrinks { controller with disposed := true } aborted ∧
      aborted.pending = [] ∧
        (Sound options controller → Sound options aborted) ∧
          controller.dispose receipts =
            { aborted with openIdentities := [] } := by
  unfold Controller.dispose
  rw [live, if_neg Bool.false_ne_true]
  refine ⟨_, shrinks_foldl ?_ _ _, ?_, fun sound => ?_, rfl⟩
  · intro current entry
    exact shrinks_settleInternal _ _ _
  · apply List.eq_nil_iff_forall_not_mem.mpr
    intro entry inside
    refine absent_foldl_settleInternal .aborted receipts controller.pending
      _ entry ?_ entry inside rfl
    refine (shrinks_foldl ?_ controller.pending
      { controller with disposed := true }).pending entry inside
    intro current entry
    exact shrinks_settleInternal _ _ _
  · apply Sound.foldl
    · intro current entry valid
      exact valid.settleInternal _ _ _
    · exact ⟨sound.ids, sound.known, sound.keys, sound.identities,
        sound.verified, sound.capacity, sound.unresolved, sound.resolved,
        sound.unissued⟩

theorem Sound.dispose (sound : Sound options controller)
    (receipts : Receipts) : Sound options (controller.dispose receipts) := by
  cases live : controller.disposed with
  | true =>
      unfold Controller.dispose
      rw [if_pos live]
      exact sound
  | false =>
      obtain ⟨aborted, shrinks, empty, valid, same⟩ :=
        @dispose_of_live options _ receipts live
      have valid := valid sound
      rw [same]
      refine ⟨valid.ids, valid.known, valid.keys, ?_, valid.verified,
        valid.capacity, valid.unresolved, valid.resolved, valid.unissued⟩
      intro key
      simp [empty]

theorem shrinks_dispose (receipts : Receipts) :
    (∀ entry ∈ (controller.dispose receipts).pending,
        entry ∈ controller.pending) ∧
      (controller.dispose receipts).nextPromptSequence =
        controller.nextPromptSequence := by
  unfold Controller.dispose
  split
  · exact ⟨fun _ inside => inside, rfl⟩
  · have shrinks := @shrinks_foldl (fun current entry =>
      (current.settleInternal entry.promptId .aborted
        (receipts entry.promptId)).1)
      (fun current entry => shrinks_settleInternal _ _ _) controller.pending
      { controller with disposed := true }
    exact ⟨shrinks.pending, shrinks.sequence⟩

/-! ## New prompts -/

theorem Sound.insert (sound : Sound options controller)
    {entry : PendingPrompt}
    (fresh : entry.promptId = controller.nextPromptSequence + 1)
    (key : entry.identityKey =
      PairingPrompts.identityKey entry.snapshot.verifiedIdentity)
    (unopened : entry.identityKey ∉ controller.openIdentities)
    (room : controller.pending.length < options.maxPending) :
    Sound options (controller.insert entry) := by
  have others : ∀ other ∈ controller.pending,
      other.promptId ≠ entry.promptId := by
    intro other inside
    have bounded := sound.known other inside
    omega
  have keys : ∀ other ∈ controller.pending,
      other.identityKey ≠ entry.identityKey := fun other inside same =>
    unopened ((sound.identities _).mpr ⟨other, inside, same⟩)
  constructor
  · show ((controller.pending ++ [entry]).map _).Nodup
    rw [List.map_append]
    refine sound.ids.append (List.nodup_singleton _) ?_
    intro shared old new
    obtain ⟨other, inside, same⟩ := List.mem_map.mp old
    exact others other inside (same.trans (List.mem_singleton.mp new))
  · intro other inside
    show other.promptId ≤ controller.nextPromptSequence + 1
    rcases List.mem_append.mp inside with old | new
    · exact Nat.le_succ_of_le (sound.known other old)
    · rw [List.mem_singleton.mp new, fresh]
  · show ((controller.pending ++ [entry]).map _).Nodup
    rw [List.map_append]
    refine sound.keys.append (List.nodup_singleton _) ?_
    intro shared old new
    obtain ⟨other, inside, same⟩ := List.mem_map.mp old
    exact keys other inside (same.trans (List.mem_singleton.mp new))
  · intro shared
    show shared ∈ controller.openIdentities ++ [entry.identityKey] ↔
      ∃ other ∈ controller.pending ++ [entry], _
    simp only [List.mem_append, List.mem_singleton, sound.identities]
    constructor
    · rintro (⟨other, inside, same⟩ | same)
      · exact ⟨other, .inl inside, same⟩
      · exact ⟨entry, .inr rfl, same.symm⟩
    · rintro ⟨other, inside | same, named⟩
      · exact .inl ⟨other, inside, named⟩
      · exact .inr (same ▸ named.symm)
  · intro other inside
    rcases List.mem_append.mp inside with old | new
    · exact sound.verified other old
    · rw [List.mem_singleton.mp new]
      exact key
  · show (controller.pending ++ [entry]).length ≤ _
    rw [List.length_append, List.length_singleton]
    exact room
  · intro other inside
    rcases List.mem_append.mp inside with old | new
    · exact sound.unresolved other old
    · rw [List.mem_singleton.mp new]
      exact sound.unissued _ (by omega)
  · intro promptId positive bounded absent
    have bounded : promptId ≤ controller.nextPromptSequence + 1 := bounded
    have below : promptId ≤ controller.nextPromptSequence := by
      have other : entry.promptId ≠ promptId :=
        absent entry (List.mem_append_right _ List.mem_cons_self)
      omega
    exact sound.resolved promptId positive below fun other inside =>
      absent other (List.mem_append_left _ inside)
  · intro promptId above
    have above : controller.nextPromptSequence + 1 < promptId := above
    exact sound.unissued promptId (by omega)

/-- An `enqueue` leaves the prompts or sweeps them, and may also take a new
one, which is withdrawn when its callback cannot be scheduled. -/
theorem enqueue_cases {outcome : Controller → Prop} (parseUrl : ParseUrl)
    (request : PairDialogRequest) (reading : Option Int) (adapter : Adapter)
    (receipts : Receipts) (stays : outcome controller)
    (sweeps : ∀ now, outcome (controller.expireDueEntries now receipts))
    (takes : ∀ now entry,
      entry.promptId =
        (controller.expireDueEntries now receipts).nextPromptSequence + 1 →
      entry.identityKey =
        PairingPrompts.identityKey entry.snapshot.verifiedIdentity →
      entry.identityKey ∉
        (controller.expireDueEntries now receipts).openIdentities →
      (controller.expireDueEntries now receipts).pending.length <
        options.maxPending →
      outcome (((controller.expireDueEntries now receipts).insert
        entry).invokeCallback .enqueue adapter.onEnqueued) ∧
      outcome (((controller.expireDueEntries now receipts).insert
        entry).withdraw entry .aborted)) :
    outcome (Controller.enqueue options parseUrl controller request
      reading adapter receipts).1 := by
  unfold Controller.enqueue
  split
  · exact stays
  · split
    · exact stays
    · rename_i now clock
      dsimp only
      split
      · exact sweeps now
      · rename_i verifiedIdentity parsed
        split
        · exact sweeps now
        · rename_i unopened
          split
          · exact sweeps now
          · rename_i room
            have taken := takes now
              { snapshot :=
                  snapshotOf options
                    ((controller.expireDueEntries now
                      receipts).nextPromptSequence + 1)
                    now request verifiedIdentity
                identityKey := PairingPrompts.identityKey verifiedIdentity }
              rfl rfl unopened (Nat.lt_of_not_le room)
            split
            · exact taken.1
            · exact taken.2

theorem Sound.enqueue (sound : Sound options controller)
    (parseUrl : ParseUrl) (request : PairDialogRequest)
    (reading : Option Int) (adapter : Adapter) (receipts : Receipts) :
    Sound options (Controller.enqueue options parseUrl controller request
      reading adapter receipts).1 := by
  apply enqueue_cases parseUrl request reading adapter receipts sound
  · intro now
    exact sound.expireDueEntries now receipts
  · intro now entry fresh key unopened room
    have swept := sound.expireDueEntries now receipts
    have inserted := swept.insert fresh key unopened room
    constructor
    · exact inserted.invokeCallback _ _
    · exact inserted.withdraw
        (List.mem_append_right _ List.mem_cons_self) _

theorem Sound.decide (sound : Sound options controller) (promptId : Nat)
    (outcome : TerminalOutcome) (reading : Option Int)
    (receipt : CallbackStatus) :
    Sound options
      (controller.decide promptId outcome reading receipt).1 := by
  unfold Controller.decide
  split
  · exact sound
  · split
    · exact sound
    · split
      · exact sound.settleInternal _ _ _
      · exact sound.settleInternal _ _ _

theorem Sound.snapshot (sound : Sound options controller)
    (reading : Option Int) (receipts : Receipts) :
    Sound options (controller.snapshot reading receipts).1 := by
  unfold Controller.snapshot
  split
  · exact sound
  · split
    · exact sound
    · exact sound.expireDueEntries _ _

theorem Sound.step (sound : Sound options controller) (parseUrl : ParseUrl)
    (event : Event) :
    Sound options (PairingPrompts.step options parseUrl controller event) := by
  cases event with
  | enqueue request reading adapter receipts =>
      exact sound.enqueue parseUrl request reading adapter receipts
  | deny promptId reading receipt =>
      exact sound.decide promptId .denied reading receipt
  | settle promptId outcome reading receipt =>
      exact sound.decide promptId outcome.terminal reading receipt
  | timer promptId receipt => exact sound.settleInternal _ _ _
  | snapshot reading receipts => exact sound.snapshot reading receipts
  | dispose receipts => exact sound.dispose receipts

theorem Sound.run (sound : Sound options controller) (parseUrl : ParseUrl)
    (events : List Event) :
    Sound options (runEvents options parseUrl controller events) := by
  induction events generalizing controller with
  | nil => exact sound
  | cons event rest induction => exact induction (sound.step parseUrl event)

/-! ## Deciders -/

/-- A prompt that has left stays away. -/
structure Gone (controller : Controller) (promptId : Nat) : Prop where
  absent : controller.Absent promptId
  issued : promptId ≤ controller.nextPromptSequence

theorem Gone.shrinks {before after : Controller} {promptId : Nat}
    (gone : Gone before promptId) (shrinks : Shrinks before after) :
    Gone after promptId where
  absent := shrinks.absent gone.absent
  issued := shrinks.sequence ▸ gone.issued

theorem shrinks_decide (promptId : Nat) (outcome : TerminalOutcome)
    (reading : Option Int) (receipt : CallbackStatus) :
    Shrinks controller
      (controller.decide promptId outcome reading receipt).1 := by
  unfold Controller.decide
  split
  · exact Shrinks.refl controller
  · split
    · exact Shrinks.refl controller
    · split
      · exact shrinks_settleInternal _ _ _
      · exact shrinks_settleInternal _ _ _

theorem Gone.insert {promptId : Nat} (gone : Gone controller promptId)
    {entry : PendingPrompt}
    (fresh : entry.promptId = controller.nextPromptSequence + 1) :
    Gone (controller.insert entry) promptId where
  absent other inside := by
    have issued := gone.issued
    rcases List.mem_append.mp inside with old | new
    · exact gone.absent other old
    · rw [List.mem_singleton.mp new]
      omega
  issued := Nat.le_succ_of_le gone.issued

theorem Gone.enqueue {promptId : Nat} (gone : Gone controller promptId)
    (parseUrl : ParseUrl) (request : PairDialogRequest)
    (reading : Option Int) (adapter : Adapter) (receipts : Receipts) :
    Gone (Controller.enqueue options parseUrl controller request reading
      adapter receipts).1 promptId := by
  have swept (now : Int) := gone.shrinks (shrinks_expireDueEntries now receipts)
  apply @enqueue_cases options controller (fun later => Gone later promptId)
    parseUrl request reading adapter receipts gone swept
  intro now entry fresh _ _ _
  have inserted := (swept now).insert fresh
  constructor
  · exact inserted.shrinks (shrinks_invokeCallback _ _)
  · exact inserted.shrinks (shrinks_withdraw _ _)

theorem Gone.step {promptId : Nat} (gone : Gone controller promptId)
    (parseUrl : ParseUrl) (event : Event) :
    Gone (PairingPrompts.step options parseUrl controller event)
      promptId := by
  cases event with
  | enqueue request reading adapter receipts =>
      exact gone.enqueue parseUrl request reading adapter receipts
  | deny other reading receipt =>
      exact gone.shrinks (shrinks_decide other .denied reading receipt)
  | settle other outcome reading receipt =>
      exact gone.shrinks (shrinks_decide other outcome.terminal reading receipt)
  | timer other receipt =>
      exact gone.shrinks (shrinks_settleInternal other .expired receipt)
  | snapshot reading receipts =>
      show Gone (controller.snapshot reading receipts).1 promptId
      unfold Controller.snapshot
      split
      · exact gone
      · split
        · exact gone
        · exact gone.shrinks (shrinks_expireDueEntries _ _)
  | dispose receipts =>
      obtain ⟨pending, sequence⟩ := @shrinks_dispose controller receipts
      exact ⟨fun entry inside => gone.absent entry (pending entry inside),
        sequence ▸ gone.issued⟩

theorem Gone.run {promptId : Nat} (gone : Gone controller promptId)
    (parseUrl : ParseUrl) (events : List Event) :
    Gone (runEvents options parseUrl controller events) promptId := by
  induction events generalizing controller with
  | nil => exact gone
  | cons event rest induction => exact induction (gone.step parseUrl event)

end Steps

end Controller

/-- Who decides a prompt, and the clock it reads. -/
inductive Decider where
  | operator (reading : Option Int) (receipt : CallbackStatus)
  | session (outcome : SessionOutcome) (reading : Option Int)
      (receipt : CallbackStatus)

namespace Decider

def event (promptId : Nat) : Decider → Event
  | operator reading receipt => .deny promptId reading receipt
  | session outcome reading receipt =>
      .settle promptId outcome reading receipt

/-- What the decider is told; `none` where the clock throws. -/
def told (controller : Controller) (promptId : Nat) :
    Decider → Option SettleResult
  | operator reading receipt => (controller.deny promptId reading receipt).2
  | session outcome reading receipt =>
      (controller.settleFromSession promptId outcome reading receipt).2

def outcome : Decider → TerminalOutcome
  | operator _ _ => .denied
  | session outcome _ _ => outcome.terminal

/-- The time at which the decider decides. -/
def time : Decider → Option Int
  | operator reading _ => readNow reading
  | session _ reading _ => readNow reading

end Decider

/-- The tables of a controller agree, and its prompts resolve once. -/
structure Consistent (options : Options) (controller : Controller) :
    Prop where
  capacity : controller.pending.length ≤ options.maxPending
  identities : ∀ key, key ∈ controller.openIdentities ↔
    ∃ entry ∈ controller.pending,
      identityKey entry.snapshot.verifiedIdentity = key
  distinct : (controller.pending.map
    (identityKey ·.snapshot.verifiedIdentity)).Nodup
  unresolved : ∀ entry ∈ controller.pending,
    controller.resolutions entry.promptId = 0
  resolved : ∀ promptId, 1 ≤ promptId →
    promptId ≤ controller.nextPromptSequence → controller.Absent promptId →
      controller.resolutions promptId = 1

/-- Of two deciders of a prompt the first is told of a success unless the
prompt is due at its time, and the second is not. -/
structure Decided (options : Options) (parseUrl : ParseUrl)
    (controller : Controller) (entry : PendingPrompt) (first second : Decider)
    (between : List Event) : Prop where
  answered : first.told controller entry.promptId =
    first.time.map fun now =>
      if entry.snapshot.expiresAt ≤ now then .unavailable
      else .ok first.outcome
  later : first.time ≠ none →
    second.told (runEvents options parseUrl
      (step options parseUrl controller (first.event entry.promptId)) between)
        entry.promptId = some .unavailable

namespace Controller

variable {options : Options} {controller : Controller}

theorem told_of_absent {promptId : Nat}
    (absent : controller.Absent promptId) (decider : Decider) :
    decider.told controller promptId = some .unavailable := by
  have missing := get_none.mpr absent
  cases decider <;>
    simp [Decider.told, deny, settleFromSession, Controller.decide, missing]

/-- What a decider of a pending prompt does. -/
theorem decide_pending {promptId : Nat} {entry : PendingPrompt}
    (found : controller.get promptId = some entry)
    (outcome : TerminalOutcome) (reading : Option Int)
    (receipt : CallbackStatus) :
    (controller.decide promptId outcome reading receipt).2 =
        (readNow reading).map (fun now =>
          if entry.snapshot.expiresAt ≤ now then .unavailable
          else .ok outcome) ∧
      (readNow reading ≠ none →
        (controller.decide promptId outcome reading receipt).1.Absent
          promptId) := by
  unfold Controller.decide
  simp only [found]
  cases clock : readNow reading with
  | none => exact ⟨rfl, fun readable => absurd rfl readable⟩
  | some now =>
      dsimp only [Option.map_some]
      split
      · exact ⟨rfl, fun _ => absent_settleInternal _ _ _⟩
      · constructor
        · unfold Controller.settleInternal
          simp only [found]
        · exact fun _ => absent_settleInternal _ _ _

theorem Sound.decided (sound : Sound options controller)
    (parseUrl : ParseUrl) {entry : PendingPrompt}
    (inside : entry ∈ controller.pending) (first second : Decider)
    (between : List Event) :
    Decided options parseUrl controller entry first second between := by
  have found : controller.get entry.promptId = some entry := by
    cases present : controller.get entry.promptId with
    | none => exact absurd rfl (get_none.mp present entry inside)
    | some other =>
        obtain ⟨member, same⟩ := get_some present
        rw [sound.sameId member inside same]
  have issued := sound.known entry inside
  cases first with
  | operator reading receipt =>
      obtain ⟨answered, absent⟩ :=
        decide_pending found .denied reading receipt
      have kept : Shrinks controller _ :=
        shrinks_decide entry.promptId .denied reading receipt
      refine ⟨answered, fun readable => told_of_absent ?_ second⟩
      refine (Gone.run ⟨absent readable, ?_⟩ parseUrl between).absent
      exact Nat.le_trans issued (Nat.le_of_eq kept.sequence.symm)
  | session outcome reading receipt =>
      obtain ⟨answered, absent⟩ :=
        decide_pending found outcome.terminal reading receipt
      have kept : Shrinks controller _ :=
        shrinks_decide entry.promptId outcome.terminal reading receipt
      refine ⟨answered, fun readable => told_of_absent ?_ second⟩
      refine (Gone.run ⟨absent readable, ?_⟩ parseUrl between).absent
      exact Nat.le_trans issued (Nat.le_of_eq kept.sequence.symm)

theorem Sound.consistent (sound : Sound options controller) :
    Consistent options controller where
  capacity := sound.capacity
  identities key := by
    rw [sound.identities]
    constructor
    · rintro ⟨entry, inside, same⟩
      exact ⟨entry, inside, (sound.verified entry inside).symm.trans same⟩
    · rintro ⟨entry, inside, same⟩
      exact ⟨entry, inside, (sound.verified entry inside).trans same⟩
  distinct := by
    have same : controller.pending.map
        (PairingPrompts.identityKey ·.snapshot.verifiedIdentity) =
          controller.pending.map (·.identityKey) :=
      List.map_congr_left fun entry inside =>
        (sound.verified entry inside).symm
    rw [same]
    exact sound.keys
  unresolved := sound.unresolved
  resolved := sound.resolved

end Controller

/-- The prompts of every run are consistent and decided at most once. -/
theorem runEvents_decidedOnce (options : Options) (parseUrl : ParseUrl)
    (events : List Event) :
    let controller := runEvents options parseUrl initialController events
    Consistent options controller ∧
      (∀ entry ∈ controller.pending, ∀ first second between,
        Decided options parseUrl controller entry first second between) ∧
      (∀ promptId, promptId ≤ controller.nextPromptSequence →
        controller.Absent promptId → ∀ (decider : Decider) between,
          decider.told (runEvents options parseUrl controller between)
            promptId = some .unavailable) := by
  have sound :=
    (Controller.sound_initial options).run parseUrl events
  refine ⟨sound.consistent, fun entry inside first second between =>
    sound.decided parseUrl inside first second between, ?_⟩
  intro promptId issued absent decider between
  refine Controller.told_of_absent ?_ decider
  exact (Controller.Gone.run ⟨absent, issued⟩ parseUrl between).absent

/-- One prompt of one millisecond, enqueued at the time 0. -/
def shortPrompt : Options :=
  { ttlMs := 1
    maxPending := 3
    ttl_pos := by decide
    ttl_safe := by decide
    cap_pos := by decide
    cap_safe := by decide }

def extensionUrl : ParseUrl := fun _ =>
  some
    { protocol := "chrome-extension:"
      hostname := "abc"
      host := "abc"
      port := ""
      username := ""
      password := ""
      pathname := ""
      search := ""
      hash := "" }

def shortPromptRun : List Event :=
  [.enqueue
    { browser := .chromium
      claimedExtensionId := "abc"
      identity := .unverified
      code := "ABCD-EFGH"
      pairingNonce := "n"
      verifiedOrigin := "chrome-extension://abc" }
    (some 0)
    { scheduled := true
      onEnqueued := .delivered }
    fun _ => .delivered]

/-- Neither of two deciders of a pending prompt that is due succeeds. -/
theorem dueDeciders_unavailable :
    let controller :=
      runEvents shortPrompt extensionUrl initialController shortPromptRun
    let operator := Decider.operator (some 1) .delivered
    let session := Decider.session .paired (some 1) .delivered
    (∃ entry ∈ controller.pending, entry.promptId = 1) ∧
      operator.told controller 1 = some .unavailable ∧
        session.told
          (step shortPrompt extensionUrl controller (operator.event 1)) 1 =
            some .unavailable ∧
        session.told controller 1 = some .unavailable := by
  decide +kernel

end Motrix.Bridge.PairingPrompts
