import Motrix.Bridge.CredentialRuns

/-!
# Revocation is final

A resolved revocation removes what it covers from memory, from disk and from
every document a power loss could bring back.  Ids are never minted twice, so
no later operation makes a covered credential authenticate again.
-/

namespace Motrix.Bridge

open Motrix.Lib

/-- What a revocation removes from the store it runs on. -/
def revocationCovers (parseUrl : ParseUrl) :
    StoreEvent → StoredCredential → Bool
  | .revoke credentialId _, credential => revokeCovers credentialId credential
  | .revokeExtensionIdentity browser extensionId _, credential =>
      match normalizeTransportIdentity parseUrl browser extensionId with
      | none => false
      | some identity =>
          principalMatchesExtensionIdentity parseUrl credential.principal
            identity.1 identity.2
  | _, _ => false

/-- A provisional successor offered against `committed`. -/
def RotatedFrom (committed successor : StoredCredential) : Prop :=
  successor.state = .provisional ∧
    successor.predecessorId = some committed.credentialId ∧
    principalKey successor.principal = principalKey committed.principal

namespace StoreWorld

variable {parseUrl : ParseUrl} {world : StoreWorld}

/-- No document or memory of the world holds a record with this id. -/
structure Absent (id : String) (world : StoreWorld) : Prop where
  memory : ∀ credentials, world.memory = some credentials →
    id ∉ credentialIds credentials
  disk : id ∉ credentialIds world.disk.credentials
  undurable : ∀ document ∈ world.undurable,
    id ∉ credentialIds document.credentials

theorem Absent.landed {id : String} (absent : Absent id world)
    {next : List StoredCredential} (missing : id ∉ credentialIds next)
    (durable : Bool) : Absent id (world.landed next durable) where
  memory := by
    intro credentials loaded
    cases loaded
    exact missing
  disk := missing
  undurable := by
    intro document listed
    cases durable with
    | true => cases listed
    | false =>
        rcases List.mem_cons.mp listed with current | older
        · rw [current]
          exact absent.disk
        · exact absent.undurable document older

theorem Absent.forget {id : String} (absent : Absent id world) :
    Absent id { world with memory := none } where
  memory := fun _ loaded => nomatch loaded
  disk := absent.disk
  undurable := absent.undurable

theorem Absent.losePower {id : String} (absent : Absent id world)
    (exposed : Nat) : Absent id (world.losePower exposed) where
  memory := fun _ loaded => nomatch loaded
  disk := by
    unfold StoreWorld.losePower
    simp only [List.getD_eq_getElem?_getD]
    cases found : (world.disk :: world.undurable)[exposed]? with
    | none => exact absent.disk
    | some document =>
        rcases List.mem_cons.mp (List.mem_of_getElem? found) with same | older
        · simpa [same] using absent.disk
        · exact absent.undurable document older
  undurable := fun _ listed => nomatch listed

/-- Only minting the id again could bring it back. -/
theorem Absent.step {known : List String} {id : String}
    (absent : Absent id world) (consistent : Consistent known world)
    (event : StoreEvent) (other : mintedId event ≠ some id) :
    Absent id (world.step parseUrl event) := by
  obtain same | ⟨credentials, next, durable, memory, rewrite, outcome⟩ |
    ⟨clock, makeEpoch, write, outcome⟩ | ⟨exposed, outcome⟩ :=
    step_cases parseUrl world event
  · rw [same]
    exact absent
  · rw [outcome]
    refine absent.landed ?_ durable
    intro listed
    rcases rewrite.mem_ids listed with old | minted
    · exact absent.memory credentials memory old
    · exact other minted
  · rw [outcome]
    obtain stopped | ⟨now, result, reconciled, outcome⟩ :=
      load_cases parseUrl world clock makeEpoch write
    · rw [stopped]
      exact absent.forget
    · obtain ⟨-, ids, -⟩ := reconcile_spec consistent.disk.sound reconciled
      have missing : id ∉ credentialIds result.credentials :=
        fun listed => absent.disk (ids id listed)
      obtain ⟨-, outcome⟩ | outcome | outcome := outcome
      · rw [outcome]
        refine ⟨?_, absent.disk, absent.undurable⟩
        intro credentials loaded
        cases loaded
        exact missing
      · rw [outcome]
        exact (absent.landed missing false).forget
      · rw [outcome]
        exact absent.landed missing true
  · rw [outcome]
    exact absent.losePower exposed

theorem Absent.run {known : List String} {id : String}
    {events : List StoreEvent} (absent : Absent id world)
    (consistent : Consistent known world) (used : id ∈ known)
    (fresh : (known ++ events.filterMap mintedId).Nodup) :
    Absent id (world.run parseUrl events) := by
  induction events generalizing known world with
  | nil => exact absent
  | cons event later induction =>
      have regrouped : known ++ (event :: later).filterMap mintedId =
          (known ++ (mintedId event).toList) ++
            later.filterMap mintedId := by
        cases minted : mintedId event <;> simp [minted]
      rw [regrouped] at fresh
      have unseen : ∀ other ∈ mintedId event, other ∉ known := by
        intro other minted listed
        have apart := (List.nodup_append.mp
          (List.nodup_append.mp fresh).1).2.2
        refine apart other listed other ?_ rfl
        simpa [Option.mem_toList] using minted
      refine induction
        (absent.step consistent event fun minted => unseen id minted used)
        (consistent.step parseUrl event unseen)
        (List.mem_append_left _ used) fresh

/-! ## What a resolved revocation leaves behind -/

/-- A removal that resolved left nothing covered in the store, and was synced
if it removed anything. -/
theorem perform_removal {covered : StoredCredential → Bool}
    {operation : List StoredCredential →
      Except StoreError (StoreDecision Nat)}
    {credentials : List StoredCredential} {removed : Nat}
    {write : WriteOutcome} (loaded : world.memory = some credentials)
    (decides : operation credentials =
      .ok (removeCovered credentials covered))
    (resolved : (world.perform operation write).1 = .ok removed)
    {credential : StoredCredential} (member : credential ∈ credentials)
    (isCovered : covered credential = true) :
    (world.perform operation write).2 = world.landed
      (credentials.filter fun other => !covered other) true := by
  have shorter : (credentials.filter fun other => !covered other).length ≠
      credentials.length := by
    intro same
    have kept := (List.length_filter_eq_length_iff.mp same) credential member
    simp [isCovered] at kept
  unfold perform at resolved ⊢
  simp only [loaded, decides, removeCovered, shorter, if_false]
    at resolved ⊢
  obtain ⟨failure, outcome⟩ | ⟨failure, outcome⟩ | outcome :=
    persist_cases world (credentials.filter fun other => !covered other) write
  · rw [outcome] at resolved
    cases resolved
  · rw [outcome] at resolved
    cases resolved
  · rw [outcome]

/-- The records a resolved revocation covers are gone everywhere. -/
theorem revocation_step {event : StoreEvent}
    {credentials : List StoredCredential}
    (loaded : world.memory = some credentials)
    (resolved : (world.react parseUrl event).1 = .ok ())
    {credential : StoredCredential} (member : credential ∈ credentials)
    (isCovered : revocationCovers parseUrl event credential = true) :
    world.step parseUrl event = world.landed
      (credentials.filter fun other =>
        !revocationCovers parseUrl event other) true := by
  have answered : ∀ {result : Except StoreError Nat},
      result.map (fun _ => ()) = .ok () → ∃ removed, result = .ok removed := by
    intro result mapped
    cases result with
    | error failure => cases mapped
    | ok removed => exact ⟨removed, rfl⟩
  cases event with
  | revoke credentialId write =>
      simp only [react, Prod.map] at resolved
      obtain ⟨removed, resolved⟩ := answered resolved
      have valid : validCredentialId credentialId = true := by
        by_contra invalid
        simp [perform, loaded, revoke, assertCredentialId, invalid, bind,
          Except.bind] at resolved
      refine perform_removal loaded ?_ resolved member isCovered
      simp only [revoke, assertCredentialId, valid, if_true]
      rfl
  | revokeExtensionIdentity browser extensionId write =>
      simp only [react, Prod.map] at resolved
      obtain ⟨removed, resolved⟩ := answered resolved
      simp only [revocationCovers] at isCovered ⊢
      cases identity : normalizeTransportIdentity parseUrl browser
          extensionId with
      | none => simp [identity] at isCovered
      | some normalized =>
          simp only [identity] at isCovered ⊢
          refine perform_removal loaded ?_ resolved member isCovered
          simp only [revokeExtensionIdentity, identity]
  | _ => cases isCovered

/-- A revocation covers the successors of what it covers. -/
theorem revocationCovers_successor {event : StoreEvent}
    {credentials : List StoredCredential}
    (unique : UniqueCredentials credentials)
    {credential successor : StoredCredential}
    (member : credential ∈ credentials) (listed : successor ∈ credentials)
    (rotated : RotatedFrom credential successor)
    (isCovered : revocationCovers parseUrl event credential = true) :
    revocationCovers parseUrl event successor = true := by
  obtain ⟨provisional, predecessor, sameKey⟩ := rotated
  cases event with
  | revoke credentialId write =>
      simp only [revocationCovers, revokeCovers, Bool.or_eq_true,
        Bool.and_eq_true, decide_eq_true_eq] at isCovered ⊢
      rcases isCovered with itself | ⟨state, offered⟩
      · exact .inr ⟨provisional, by rw [predecessor, itself]⟩
      · -- Two provisionals of one principal are the same record.
        have same : successor = credential :=
          unique.eq_of_slot listed member (by
            simp only [StoredCredential.slot, provisional, state, sameKey])
        rw [same]
        exact .inr ⟨state, offered⟩
  | revokeExtensionIdentity browser extensionId write =>
      simp only [principalKey, Prod.mk.injEq] at sameKey
      obtain ⟨sameBrowser, sameOrigin, -⟩ := sameKey
      simp only [revocationCovers, principalMatchesExtensionIdentity]
        at isCovered ⊢
      rw [sameBrowser, sameOrigin]
      exact isCovered
  | _ => cases isCovered

theorem absent_of_covered {known : List String} {event : StoreEvent}
    {credentials : List StoredCredential}
    (consistent : Consistent known world)
    (loaded : world.memory = some credentials)
    (resolved : (world.react parseUrl event).1 = .ok ())
    {credential : StoredCredential} (member : credential ∈ credentials)
    (isCovered : revocationCovers parseUrl event credential = true) :
    Absent credential.credentialId (world.step parseUrl event) := by
  obtain ⟨unique, -⟩ := consistent.memory credentials loaded
  have missing : credential.credentialId ∉ credentialIds
      (credentials.filter fun other =>
        !revocationCovers parseUrl event other) := by
    intro listed
    obtain ⟨other, kept, same⟩ := List.mem_map.mp listed
    obtain ⟨otherMember, uncovered⟩ := List.mem_filter.mp kept
    rw [unique.eq_of_id otherMember member same, isCovered] at uncovered
    cases uncovered
  rw [revocation_step loaded resolved member isCovered]
  refine ⟨?_, missing, fun _ none => nomatch none⟩
  intro remaining same
  cases same
  exact missing

/-! ## Authentication and promotion without a record -/

theorem findCredential_eq_none {credentials : List StoredCredential}
    {id : String} (missing : id ∉ credentialIds credentials) :
    findCredential credentials id = none := by
  refine List.find?_eq_none.mpr ?_
  intro credential member found
  refine missing (List.mem_map.mpr ⟨credential, member, ?_⟩)
  simpa using found

theorem findForAuth_eq_none {credentials : List StoredCredential}
    {id : String} (missing : id ∉ credentialIds credentials)
    (clock : ClockReading) :
    findForAuth credentials id clock = .ok none := by
  unfold findForAuth
  rw [findCredential_eq_none missing]
  split <;> rfl

theorem promoteDurably_missing {credentials : List StoredCredential}
    {id : String} (missing : id ∉ credentialIds credentials)
    (clock : ClockReading) :
    ∃ failure, promoteDurably credentials id clock = .error failure := by
  cases outcome : promoteDurably credentials id clock with
  | error failure => exact ⟨failure, rfl⟩
  | ok decision =>
      simp only [promoteDurably, bind_eq_ok, findCredential_eq_none missing,
        throw_eq_ok, and_false, exists_false] at outcome

theorem perform_error {α : Type} {credentials : List StoredCredential}
    {operation : List StoredCredential →
      Except StoreError (StoreDecision α)} {write : WriteOutcome}
    (loaded : world.memory = some credentials)
    (fails : ∃ failure, operation credentials = .error failure) :
    ∃ failure, (world.perform operation write).1 = .error failure := by
  obtain ⟨failure, outcome⟩ := fails
  exact ⟨failure, by simp [perform, loaded, outcome]⟩

/-- Neither kind of promotion of an absent credential resolves. -/
theorem Absent.promotions {id : String} (absent : Absent id world)
    (beforeCommit : HostCallback) (clock : ClockReading)
    (write : WriteOutcome) :
    (∃ failure, (world.react parseUrl
      (.commitFromPair id beforeCommit clock write)).1 = .error failure) ∧
    ∃ failure, (world.react parseUrl
      (.promoteOnReconnect id clock write)).1 = .error failure := by
  have stepError : ∀ {first : Except StoreError Unit}
      {next : Unit → Except StoreError (StoreDecision Unit)},
      (∃ failure, next () = .error failure) →
      ∃ failure, (first >>= next) = .error failure := by
    intro first next fails
    cases first with
    | error failure => exact ⟨failure, rfl⟩
    | ok value => exact fails
  cases loaded : world.memory with
  | none =>
      refine ⟨⟨.notLoaded, ?_⟩, ⟨.notLoaded, ?_⟩⟩
      · simp [react, perform, loaded]
      · simp [react, perform, loaded]
  | some credentials =>
      have rejected :=
        promoteDurably_missing (absent.memory credentials loaded) clock
      exact ⟨perform_error loaded (stepError (stepError rejected)),
        perform_error loaded (stepError rejected)⟩

theorem run_append (first second : List StoreEvent) :
    world.run parseUrl (first ++ second) =
      (world.run parseUrl first).run parseUrl second := by
  simp only [StoreWorld.run, List.foldl_append]

def sampleCommitted : StoredCredential :=
  { credentialId := "first"
    mutualKeyB64 := "key"
    principal := samplePrincipal "aaaa" "one"
    predecessorId := none
    state := .committed
    identity := .official
    authorizationEpoch := some "0f8fad5b-d9cb-469f-a165-70867728950e"
    createdAt := 1000
    committedAt := some 2000 }

def sampleSuccessor : StoredCredential :=
  { sampleCommitted with
    credentialId := "second"
    predecessorId := some "first"
    state := .provisional
    committedAt := none }

end StoreWorld

end Motrix.Bridge
