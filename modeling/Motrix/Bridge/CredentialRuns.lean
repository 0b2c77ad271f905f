import Mathlib.Data.List.Nodup
import Motrix.Bridge.CredentialStore
import Motrix.Lib.Except

/-!
# Invariants of the credential store

Every operation either leaves the records alone or rewrites them in one of
four ways.  Each rewrite keeps credential ids distinct and keeps at most one
committed and one provisional credential per principal.
-/

namespace Motrix.Bridge

open Motrix.Lib

/-- A principal has one slot for each state. -/
def StoredCredential.slot (credential : StoredCredential) :
    CredentialState × PrincipalKey :=
  (credential.state, principalKey credential.principal)

def credentialIds (credentials : List StoredCredential) : List String :=
  credentials.map fun credential => credential.credentialId

structure UniqueCredentials (credentials : List StoredCredential) : Prop where
  ids : (credentialIds credentials).Nodup
  slots : (credentials.map StoredCredential.slot).Nodup

/-! ## Rewrites -/

/-- What an operation may persist, with the credential id it minted. -/
inductive Rewrite (credentials : List StoredCredential) :
    Option String → List StoredCredential → Prop where
  | removal (keep : StoredCredential → Bool) :
      Rewrite credentials none (credentials.filter keep)
  | offer (fresh : StoredCredential) :
      fresh.state = .provisional →
      Rewrite credentials (some fresh.credentialId)
        ((credentials.filter fun credential =>
          credential.state ≠ .provisional ||
            principalKey credential.principal ≠
              principalKey fresh.principal) ++ [fresh])
  | rebind (index : Nat) (current rebound : StoredCredential) :
      credentials[index]? = some current →
      rebound.credentialId = current.credentialId →
      rebound.slot = current.slot →
      Rewrite credentials none (credentials.set index rebound)
  | promotion (target : StoredCredential) (now : Nat) :
      target ∈ credentials →
      Rewrite credentials none (applyPromote credentials target now)

theorem UniqueCredentials.of_sublist {credentials kept : List StoredCredential}
    (unique : UniqueCredentials credentials)
    (sublist : kept.Sublist credentials) : UniqueCredentials kept where
  ids := unique.ids.sublist (sublist.map _)
  slots := unique.slots.sublist (sublist.map _)

theorem UniqueCredentials.append {credentials : List StoredCredential}
    {added : StoredCredential} (unique : UniqueCredentials credentials)
    (newId : added.credentialId ∉ credentialIds credentials)
    (newSlot : ∀ credential ∈ credentials, credential.slot ≠ added.slot) :
    UniqueCredentials (credentials ++ [added]) where
  ids := by
    simp only [credentialIds, List.map_append, List.map_cons, List.map_nil]
    exact List.nodup_append.mpr ⟨unique.ids, by simp, by
      rintro id listed _ member rfl
      rw [List.mem_singleton] at member
      exact newId (member ▸ listed)⟩
  slots := by
    simp only [List.map_append, List.map_cons, List.map_nil]
    refine List.nodup_append.mpr ⟨unique.slots, by simp, ?_⟩
    rintro slot listed _ member rfl
    rw [List.mem_singleton] at member
    obtain ⟨credential, stored, same⟩ := List.mem_map.mp listed
    exact newSlot credential stored (same.trans member)

/-- Distinct ids determine the record. -/
theorem UniqueCredentials.eq_of_id {credentials : List StoredCredential}
    (unique : UniqueCredentials credentials) {left right : StoredCredential}
    (leftMember : left ∈ credentials) (rightMember : right ∈ credentials)
    (same : left.credentialId = right.credentialId) : left = right :=
  List.inj_on_of_nodup_map unique.ids leftMember rightMember same

theorem UniqueCredentials.eq_of_slot {credentials : List StoredCredential}
    (unique : UniqueCredentials credentials) {left right : StoredCredential}
    (leftMember : left ∈ credentials) (rightMember : right ∈ credentials)
    (same : left.slot = right.slot) : left = right :=
  List.inj_on_of_nodup_map unique.slots leftMember rightMember same

def AtMostOnePerPrincipal (state : CredentialState)
    (credentials : List StoredCredential) : Prop :=
  ∀ key, (credentials.filter fun credential =>
    credential.state = state && principalKey credential.principal = key).length
      ≤ 1

theorem UniqueCredentials.atMostOnePerPrincipal
    {credentials : List StoredCredential}
    (unique : UniqueCredentials credentials) (state : CredentialState) :
    AtMostOnePerPrincipal state credentials := by
  intro key
  have once := List.nodup_iff_count_le_one.mp unique.slots (state, key)
  rw [List.count_eq_countP, List.countP_map, List.countP_eq_length_filter]
    at once
  refine Nat.le_trans (Nat.le_of_eq (congrArg List.length ?_)) once
  refine List.filter_congr ?_
  intro credential _
  rw [Bool.eq_iff_iff]
  simp [StoredCredential.slot]

theorem applyPromote_unique {credentials : List StoredCredential}
    {target : StoredCredential} (now : Nat)
    (distinct : (credentialIds credentials).Nodup)
    (slots : ((credentials.filter fun credential =>
      principalKey credential.principal ≠
        principalKey target.principal).map StoredCredential.slot).Nodup)
    (member : target ∈ credentials) :
    UniqueCredentials (applyPromote credentials target now) := by
  refine UniqueCredentials.append ⟨?_, slots⟩ ?_ ?_
  · exact distinct.sublist (List.filter_sublist.map _)
  · intro listed
    obtain ⟨other, kept, same⟩ := List.mem_map.mp listed
    simp only [List.mem_filter, ne_eq, decide_eq_true_eq] at kept
    have equal : other = target :=
      List.inj_on_of_nodup_map distinct kept.1 member same
    exact kept.2 (by rw [equal])
  · intro other kept same
    simp only [List.mem_filter, ne_eq, decide_eq_true_eq] at kept
    exact kept.2 (congrArg Prod.snd same)

/-- Every rewrite keeps ids and slots unique. -/
theorem Rewrite.unique {credentials next : List StoredCredential}
    {minted : Option String} (rewrite : Rewrite credentials minted next)
    (unique : UniqueCredentials credentials)
    (fresh : ∀ id ∈ minted, id ∉ credentialIds credentials) :
    UniqueCredentials next := by
  cases rewrite with
  | removal keep => exact unique.of_sublist List.filter_sublist
  | offer added provisional =>
      refine (unique.of_sublist List.filter_sublist).append ?_ ?_
      · intro listed
        exact fresh added.credentialId rfl
          ((List.filter_sublist.map _).mem listed)
      · intro credential kept same
        have parts := Prod.mk.inj same
        simp only [List.mem_filter, provisional, ne_eq, Bool.or_eq_true,
          decide_eq_true_eq] at kept parts
        rcases kept.2 with state | key
        · exact state parts.1
        · exact key parts.2
  | rebind index current rebound present sameId sameSlot =>
      obtain ⟨bound, value⟩ := List.getElem?_eq_some_iff.mp present
      constructor
      · have ids : credentialIds (credentials.set index rebound) =
            credentialIds credentials := by
          refine List.ext_getElem? fun position => ?_
          simp only [credentialIds, List.map_set, List.getElem?_set,
            List.getElem?_map, List.length_map]
          split
          · next same => simp [← same, bound, value, sameId]
          · rfl
        rw [ids]
        exact unique.ids
      · have slots : (credentials.set index rebound).map
            StoredCredential.slot = credentials.map StoredCredential.slot := by
          refine List.ext_getElem? fun position => ?_
          simp only [List.map_set, List.getElem?_set, List.getElem?_map,
            List.length_map]
          split
          · next same => simp [← same, bound, value, sameSlot]
          · rfl
        rw [slots]
        exact unique.slots
  | promotion target now member =>
      exact applyPromote_unique now unique.ids
        (unique.slots.sublist (List.filter_sublist.map _)) member

/-- A rewrite introduces no id but the minted one. -/
theorem Rewrite.mem_ids {credentials next : List StoredCredential}
    {minted : Option String} (rewrite : Rewrite credentials minted next)
    {id : String} (listed : id ∈ credentialIds next) :
    id ∈ credentialIds credentials ∨ minted = some id := by
  obtain ⟨credential, member, rfl⟩ := List.mem_map.mp listed
  have stored : ∀ {other : StoredCredential}, other ∈ credentials →
      other.credentialId ∈ credentialIds credentials := by
    intro other otherMember
    exact List.mem_map_of_mem otherMember
  cases rewrite with
  | removal keep => exact .inl (stored (List.mem_filter.mp member).1)
  | offer added provisional =>
      rcases List.mem_append.mp member with kept | new
      · exact .inl (stored (List.mem_filter.mp kept).1)
      · rw [List.mem_singleton.mp new]
        exact .inr rfl
  | rebind index current rebound present sameId sameSlot =>
      rcases List.mem_or_eq_of_mem_set member with old | new
      · exact .inl (stored old)
      · rw [new, sameId]
        exact .inl (stored (List.mem_of_getElem? present))
  | promotion target now targetMember =>
      rcases List.mem_append.mp member with kept | new
      · exact .inl (stored (List.mem_filter.mp kept).1)
      · rw [List.mem_singleton.mp new]
        exact .inl (List.mem_map.mpr ⟨target, targetMember, rfl⟩)

/-! ## Operations are rewrites -/

/-- `operation` persists nothing but rewrites that mint `minted`. -/
def Rewrites {α : Type} (minted : Option String)
    (operation : List StoredCredential →
      Except StoreError (StoreDecision α)) : Prop :=
  ∀ ⦃credentials decision next⦄, operation credentials = .ok decision →
    decision.next = some next → Rewrite credentials minted next

theorem findCredential_eq_some {credentials : List StoredCredential}
    {id : String} {found : StoredCredential}
    (result : findCredential credentials id = some found) :
    found ∈ credentials ∧ found.credentialId = id := by
  refine ⟨List.mem_of_find?_eq_some result, ?_⟩
  simpa using List.find?_some result

theorem offerProvisional_rewrites (parseUrl : ParseUrl)
    (principal : CredentialPrincipal) (identity : IdentityTriState)
    (beforeOffer : HostCallback) (entropy : CredentialEntropy)
    (clock : ClockReading) :
    Rewrites (some entropy.credentialId) fun credentials =>
      offerProvisional parseUrl credentials principal identity beforeOffer
        entropy clock := by
  intro credentials decision next success persisted
  simp only [offerProvisional, bind_eq_ok, throw_bind] at success
  obtain ⟨parsed, -, now, -, success⟩ := success
  split at success
  · simp only [guard_eq_ok, pure_eq_ok, bind_eq_ok] at success
    obtain ⟨-, -, -, -, rfl⟩ := success
    cases persisted
  · simp only [guard_eq_ok, pure_eq_ok, bind_eq_ok] at success
    obtain ⟨-, epoch, -, -, -, rfl⟩ := success
    cases persisted
    exact .offer
      { credentialId := entropy.credentialId
        mutualKeyB64 := entropy.mutualKeyB64
        principal := parsed
        predecessorId := _
        state := .provisional
        identity := identity
        authorizationEpoch := some (epoch.getD entropy.authorizationEpoch)
        createdAt := now
        committedAt := none } rfl

theorem bindSafariInstallation_rewrites (parseUrl : ParseUrl)
    (expected : StoredCredential) (publicKey : String)
    (clock : ClockReading) :
    Rewrites none fun credentials =>
      bindSafariInstallation parseUrl credentials expected publicKey clock := by
  intro credentials decision next success persisted
  simp only [bindSafariInstallation] at success
  split at success
  · simp only [throw_eq_ok] at success
  · next current found =>
      simp only [bind_eq_ok, throw_bind, guard_eq_ok] at success
      obtain ⟨-, now, -, -, principal, parsed, success⟩ := success
      split at success
      · simp only [pure_eq_ok] at success
        rw [← success] at persisted
        cases persisted
      · simp only [pure_eq_ok] at success
        rw [← success] at persisted
        cases persisted
        obtain ⟨member, sameId⟩ := findCredential_eq_some found
        have exact_principal : principal =
            { current.principal with
              safariInstallationKey := some publicKey } := by
          unfold parseCredentialPrincipal at parsed
          split at parsed
          · cases parsed
          · cases parsed
            rfl
        refine .rebind _ current _ ?_ rfl ?_
        · have found' := found
          rw [findCredential, List.find?_eq_some_iff_getElem] at found'
          obtain ⟨matched, index, bound, value, earlier⟩ := found'
          have position : credentials.findIdx (fun credential =>
              credential.credentialId = expected.credentialId) = index := by
            rw [List.findIdx_eq bound]
            refine ⟨by simpa [value] using matched, ?_⟩
            intro other ordered
            simpa using earlier other ordered
          rw [position, List.getElem?_eq_getElem bound, value]
        · simp only [StoredCredential.slot, exact_principal, principalKey]

theorem promoteDurably_rewrites (credentialId : String)
    (clock : ClockReading) :
    Rewrites none fun credentials =>
      promoteDurably credentials credentialId clock := by
  intro credentials decision next success persisted
  simp only [promoteDurably, bind_eq_ok, throw_bind] at success
  obtain ⟨now, -, success⟩ := success
  split at success
  · simp only [throw_eq_ok] at success
  · next target found =>
      simp only [guard_eq_ok, pure_eq_ok] at success
      obtain ⟨-, -, rfl⟩ := success
      cases persisted
      exact .promotion target now (findCredential_eq_some found).1

theorem commitFromPair_rewrites (credentialId : String)
    (beforeCommit : HostCallback) (clock : ClockReading) :
    Rewrites none fun credentials =>
      commitFromPair credentials credentialId beforeCommit clock := by
  intro credentials decision next success persisted
  simp only [commitFromPair, bind_eq_ok] at success
  obtain ⟨-, -, -, -, promoted⟩ := success
  exact promoteDurably_rewrites credentialId clock promoted persisted

theorem promoteOnReconnect_rewrites (credentialId : String)
    (clock : ClockReading) :
    Rewrites none fun credentials =>
      promoteOnReconnect credentials credentialId clock := by
  intro credentials decision next success persisted
  simp only [promoteOnReconnect, bind_eq_ok] at success
  obtain ⟨-, -, promoted⟩ := success
  exact promoteDurably_rewrites credentialId clock promoted persisted

theorem removeCovered_next {credentials next : List StoredCredential}
    {covered : StoredCredential → Bool}
    (persisted : (removeCovered credentials covered).next = some next) :
    next = credentials.filter fun credential => !covered credential := by
  unfold removeCovered at persisted
  simp only at persisted
  split at persisted
  · cases persisted
  · exact (Option.some.inj persisted).symm

theorem removeCovered_rewrites {credentials next : List StoredCredential}
    {covered : StoredCredential → Bool}
    (persisted : (removeCovered credentials covered).next = some next) :
    Rewrite credentials none next := by
  rw [removeCovered_next persisted]
  exact .removal _

theorem revoke_rewrites (credentialId : String) :
    Rewrites none fun credentials => revoke credentials credentialId := by
  intro credentials decision next success persisted
  simp only [revoke, bind_eq_ok, pure_eq_ok] at success
  obtain ⟨-, -, rfl⟩ := success
  exact removeCovered_rewrites persisted

theorem revokeExtensionIdentity_rewrites (parseUrl : ParseUrl)
    (browser : Browser) (extensionId : String) :
    Rewrites none fun credentials =>
      revokeExtensionIdentity parseUrl credentials browser extensionId := by
  intro credentials decision next success persisted
  unfold revokeExtensionIdentity at success
  split at success
  · cases success
  · cases success
    exact removeCovered_rewrites persisted

theorem sweepExpiredProvisionals_rewrites (clock : ClockReading) :
    Rewrites none fun credentials =>
      sweepExpiredProvisionals credentials clock := by
  intro credentials decision next success persisted
  simp only [sweepExpiredProvisionals, bind_eq_ok, pure_eq_ok] at success
  obtain ⟨now, -, rfl⟩ := success
  exact removeCovered_rewrites persisted

end Motrix.Bridge

/-!
# Reconciliation at load

Loading replays a pending promotion, keeps the newest committed credential of
each principal, drops expired provisionals and gives each transport identity
one epoch.  A load that changes nothing else still regroups the records by
transport identity, so memory is a rearrangement of the document.
-/

namespace Motrix.Bridge

open Motrix.Lib

/-- What a document must satisfy to be loaded into a store: ids are distinct
and no principal has two provisionals.  Several committed credentials of one
principal are converged by the load. -/
structure SoundDocument (credentials : List StoredCredential) : Prop where
  ids : (credentialIds credentials).Nodup
  provisionals : credentials.Pairwise fun left right =>
    left.state = .provisional → right.state = .provisional →
      principalKey left.principal ≠ principalKey right.principal

theorem UniqueCredentials.soundDocument {credentials : List StoredCredential}
    (unique : UniqueCredentials credentials) :
    SoundDocument credentials where
  ids := unique.ids
  provisionals := by
    refine (List.pairwise_map.mp unique.slots).imp ?_
    intro left right different leftState rightState sameKey
    refine different ?_
    simp only [StoredCredential.slot, leftState, rightState, sameKey]

/-! ## Convergence -/

theorem converge_sublist (credentials : List StoredCredential) (now : Nat) :
    (converge credentials now).Sublist credentials := by
  have kept : (converge credentials now).Sublist
      (credentials.zipIdx.map fun entry => entry.1) :=
    List.filter_sublist.map _
  rwa [List.zipIdx_map_fst] at kept

/-- Convergence leaves one committed credential per principal: the one at the
newest position. -/
theorem converge_unique {credentials : List StoredCredential} (now : Nat)
    (sound : SoundDocument credentials) :
    UniqueCredentials (converge credentials now) where
  ids := sound.ids.sublist ((converge_sublist credentials now).map _)
  slots := by
    have positions : credentials.zipIdx.Pairwise fun left right =>
        left.2 ≠ right.2 := by
      refine List.pairwise_map.mp ?_
      rw [List.zipIdx_map_snd]
      exact List.nodup_range'
    have provisionals : credentials.zipIdx.Pairwise fun left right =>
        left.1.state = .provisional → right.1.state = .provisional →
          principalKey left.1.principal ≠ principalKey right.1.principal := by
      have pairs := sound.provisionals
      rw [← List.zipIdx_map_fst 0 credentials, List.pairwise_map] at pairs
      exact pairs
    refine List.pairwise_map.mpr (List.pairwise_map.mpr ?_)
    refine List.Pairwise.imp_of_mem ?_
      ((positions.and provisionals).filter _)
    intro left right leftKept rightKept different same
    simp only [List.mem_filter] at leftKept rightKept
    obtain ⟨sameState, sameKey⟩ := Prod.mk.inj same
    cases state : left.1.state with
    | provisional =>
        exact different.2 state (sameState ▸ state) sameKey
    | committed =>
        have rightState : right.1.state = .committed := sameState ▸ state
        have leftNewest := leftKept.2
        have rightNewest := rightKept.2
        simp only [state, rightState, if_true, decide_eq_true_eq]
          at leftNewest rightNewest
        rw [sameKey, rightNewest] at leftNewest
        exact different.1 (Option.some.inj leftNewest).symm

/-! ## Grouping by transport identity -/

def ungroup (groups : TransportGroups) : List StoredCredential :=
  groups.flatMap fun group => group.2

theorem ungroup_addToGroup (groups : TransportGroups)
    (key : TransportIdentity) (credential : StoredCredential) :
    (ungroup (addToGroup groups key credential)).Perm
      (ungroup groups ++ [credential]) := by
  induction groups with
  | nil => simp [ungroup, addToGroup]
  | cons group rest induction =>
      obtain ⟨otherKey, members⟩ := group
      simp only [addToGroup]
      split
      · simp only [ungroup, List.flatMap_cons, List.append_assoc]
        exact List.perm_append_comm.append_left members
      · simp only [ungroup, List.flatMap_cons, List.append_assoc]
          at induction ⊢
        exact induction.append_left members

theorem transportGroups_perm {parseUrl : ParseUrl}
    {credentials : List StoredCredential} {groups result : TransportGroups}
    (grouped : transportGroups parseUrl groups credentials = .ok result) :
    (ungroup result).Perm (ungroup groups ++ credentials) := by
  induction credentials generalizing groups with
  | nil =>
      cases grouped
      simp
  | cons credential rest induction =>
      unfold transportGroups at grouped
      split at grouped
      · cases grouped
      · next key _ =>
          have step := induction grouped
          have added := (ungroup_addToGroup groups key credential).append_right
            rest
          simpa using step.trans added

/-- The part of a record that migration keeps. -/
def withoutEpoch (credential : StoredCredential) : StoredCredential :=
  { credential with authorizationEpoch := none }

theorem migrateGroups_kept {makeEpoch : Nat → String} {index : Nat}
    {groups : TransportGroups} {migrated : List StoredCredential}
    {changed : Bool}
    (success : migrateGroups makeEpoch index groups =
      .ok (migrated, changed)) :
    migrated.map withoutEpoch = (ungroup groups).map withoutEpoch ∧
      (changed = false → migrated = ungroup groups) := by
  induction groups generalizing index migrated changed with
  | nil =>
      simp only [migrateGroups, Except.ok.injEq, Prod.mk.injEq] at success
      obtain ⟨rfl, rfl⟩ := success
      exact ⟨rfl, fun _ => rfl⟩
  | cons group rest induction =>
      obtain ⟨key, members⟩ := group
      simp only [migrateGroups, bind_eq_ok, throw_bind, guard_eq_ok,
        pure_eq_ok] at success
      obtain ⟨-, ⟨others, othersChanged⟩, migration, same⟩ := success
      simp only [Prod.mk.injEq] at same
      obtain ⟨rfl, rfl⟩ := same
      obtain ⟨kept, unchanged⟩ := induction migration
      constructor
      · simp only [ungroup, List.flatMap_cons, List.map_append,
          List.map_map] at kept ⊢
        rw [kept]
        rfl
      · intro quiet
        simp only [Bool.or_eq_false_iff, List.any_eq_false, ne_eq,
          decide_eq_true_eq, not_not] at quiet
        rw [unchanged quiet.2]
        simp only [ungroup, List.flatMap_cons]
        congr 1
        conv_rhs => rw [← List.map_id members]
        refine List.map_congr_left ?_
        intro credential member
        rw [← quiet.1 credential member]
        rfl

theorem UniqueCredentials.of_withoutEpoch
    {credentials migrated : List StoredCredential}
    (unique : UniqueCredentials credentials)
    (kept : (migrated.map withoutEpoch).Perm
      (credentials.map withoutEpoch)) : UniqueCredentials migrated where
  ids := by
    have ids := kept.map fun credential : StoredCredential =>
      credential.credentialId
    simp only [List.map_map] at ids
    exact ids.nodup_iff.mpr unique.ids
  slots := by
    have slots := kept.map StoredCredential.slot
    simp only [List.map_map] at slots
    exact slots.nodup_iff.mpr unique.slots

theorem credentialIds_perm_of_withoutEpoch
    {credentials migrated : List StoredCredential}
    (kept : (migrated.map withoutEpoch).Perm
      (credentials.map withoutEpoch)) :
    (credentialIds migrated).Perm (credentialIds credentials) := by
  have ids := kept.map fun credential : StoredCredential =>
    credential.credentialId
  simp only [List.map_map] at ids
  exact ids

/-! ## Reconciliation -/

theorem applyPromote_sound {credentials : List StoredCredential}
    {target : StoredCredential} (now : Nat)
    (sound : SoundDocument credentials) (member : target ∈ credentials) :
    SoundDocument (applyPromote credentials target now) where
  ids := by
    simp only [credentialIds, applyPromote, List.map_append, List.map_cons,
      List.map_nil]
    refine List.nodup_append.mpr
      ⟨sound.ids.sublist (List.filter_sublist.map _), by simp, ?_⟩
    rintro id listed _ added rfl
    rw [List.mem_singleton] at added
    obtain ⟨other, kept, same⟩ := List.mem_map.mp listed
    simp only [List.mem_filter, ne_eq, decide_eq_true_eq] at kept
    have equal : other = target :=
      List.inj_on_of_nodup_map sound.ids kept.1 member (same.trans added)
    exact kept.2 (by rw [equal])
  provisionals := by
    refine List.pairwise_append.mpr
      ⟨sound.provisionals.sublist List.filter_sublist, by simp, ?_⟩
    intro other kept added listed _ provisional
    rw [List.mem_singleton.mp listed] at provisional
    cases provisional

theorem applyPromote_mem_ids {credentials : List StoredCredential}
    {target : StoredCredential} {now : Nat} (member : target ∈ credentials)
    {id : String}
    (listed : id ∈ credentialIds (applyPromote credentials target now)) :
    id ∈ credentialIds credentials := by
  rcases (Rewrite.promotion target now member).mem_ids listed with old | new
  · exact old
  · cases new

theorem replayPromotion_sound {doc : CredentialDocument} (now : Nat)
    (sound : SoundDocument doc.credentials) :
    SoundDocument (replayPromotion doc now) ∧
      ∀ id ∈ credentialIds (replayPromotion doc now),
        id ∈ credentialIds doc.credentials := by
  unfold replayPromotion
  split
  · exact ⟨sound, fun _ listed => listed⟩
  · next target found =>
      obtain ⟨id, -, result⟩ := Option.bind_eq_some_iff.mp found
      have member := (findCredential_eq_some result).1
      exact ⟨applyPromote_sound now sound member,
        fun _ listed => applyPromote_mem_ids member listed⟩

/-- What a successful reconciliation hands to the store. -/
theorem reconcile_spec {parseUrl : ParseUrl} {makeEpoch : Nat → String}
    {doc : CredentialDocument} {now : Nat} {result : Reconciled}
    (sound : SoundDocument doc.credentials)
    (success : reconcile parseUrl makeEpoch doc now = .ok result) :
    UniqueCredentials result.credentials ∧
      (∀ id ∈ credentialIds result.credentials,
        id ∈ credentialIds doc.credentials) ∧
      (result.changed = false →
        result.credentials.Perm doc.credentials ∧
          doc.pendingPromote = none ∧ doc.legacy = false) := by
  simp only [reconcile, bind_eq_ok, pure_eq_ok] at success
  obtain ⟨groups, grouped, ⟨migrated, epochsChanged⟩, migration, rfl⟩ :=
    success
  have replayed := replayPromotion_sound now sound
  obtain ⟨kept, unchanged⟩ := migrateGroups_kept migration
  have regrouped : (ungroup groups).Perm
      (converge (replayPromotion doc now) now) := by
    simpa [ungroup] using transportGroups_perm grouped
  have stripped : (migrated.map withoutEpoch).Perm
      ((converge (replayPromotion doc now) now).map withoutEpoch) := by
    rw [kept]
    exact regrouped.map _
  refine ⟨(converge_unique now replayed.1).of_withoutEpoch stripped,
    ?_, ?_⟩
  · intro id listed
    have converged :=
      (credentialIds_perm_of_withoutEpoch stripped).mem_iff.mp listed
    exact replayed.2 id (((converge_sublist _ now).map _).mem converged)
  · intro quiet
    simp only [Bool.or_eq_false_iff, Option.isSome_eq_false_iff,
      Option.isNone_iff_eq_none, ne_eq, decide_eq_false_iff_not, not_not]
      at quiet
    obtain ⟨⟨⟨noJournal, current⟩, sameLength⟩, sameEpochs⟩ := quiet
    refine ⟨?_, noJournal, current⟩
    have documentKept : replayPromotion doc now = doc.credentials := by
      rw [replayPromotion, noJournal]
      rfl
    rw [unchanged sameEpochs]
    refine regrouped.trans ?_
    rw [(converge_sublist _ now).eq_of_length sameLength,
      documentKept]

end Motrix.Bridge

/-!
# Runs of the credential store

Operations, failed writes, restarts and power losses in any order.  The
records in memory stay unique and stay a rearrangement of the last document
that was written.
-/

namespace Motrix.Bridge

open Motrix.Lib

def mintedId : StoreEvent → Option String
  | .offerProvisional _ _ _ entropy _ _ => some entropy.credentialId
  | _ => none

/-- Random ids never repeat, neither one another nor an id of the document the
run starts from. -/
def FreshIds (document : CredentialDocument) (events : List StoreEvent) :
    Prop :=
  (credentialIds document.credentials ++ events.filterMap mintedId).Nodup

namespace StoreWorld

/-- A machine with `document` on disk and no store loaded yet. -/
def boot (document : CredentialDocument) : StoreWorld :=
  { memory := none
    disk := document
    undurable := [] }

def written (next : List StoredCredential) : CredentialDocument :=
  { credentials := next
    pendingPromote := none
    legacy := false }

/-- The world after a write that landed. -/
def landed (world : StoreWorld) (next : List StoredCredential)
    (durable : Bool) : StoreWorld :=
  { memory := some next
    disk := written next
    undurable := if durable then [] else world.disk :: world.undurable }

variable {parseUrl : ParseUrl} {world : StoreWorld}

theorem persist_cases (world : StoreWorld) (next : List StoredCredential)
    (write : WriteOutcome) :
    (∃ failure, world.persist next write = (.error failure, world)) ∨
    (∃ failure, world.persist next write =
      (.error failure, world.landed next false)) ∨
    world.persist next write = (.ok (), world.landed next true) := by
  unfold persist
  by_cases accepted : writable next
  · cases write with
    | rejected => exact .inl ⟨.writeFailed, by simp [accepted]⟩
    | unsynced =>
        exact .inr (.inl ⟨.syncFailed, by simp [accepted, landed, written]⟩)
    | synced => exact .inr (.inr (by simp [accepted, landed, written]))
  · exact .inl ⟨.storageRejected, by simp [accepted]⟩

/-- What a queued operation does to the world. -/
theorem perform_cases {α : Type} {minted : Option String}
    {operation : List StoredCredential →
      Except StoreError (StoreDecision α)}
    (rewrites : Rewrites minted operation) (world : StoreWorld)
    (write : WriteOutcome) :
    (world.perform operation write).2 = world ∨
    ∃ credentials next durable, world.memory = some credentials ∧
      Rewrite credentials minted next ∧
      (world.perform operation write).2 = world.landed next durable := by
  unfold perform
  cases memory : world.memory with
  | none => exact .inl rfl
  | some credentials =>
      cases outcome : operation credentials with
      | error failure =>
          left
          simp only [outcome]
      | ok decision =>
          cases persisted : decision.next with
          | none =>
              left
              simp only [outcome, persisted]
          | some next =>
              have rewrite := rewrites outcome persisted
              simp only [outcome, persisted]
              obtain ⟨failure, result⟩ | ⟨failure, result⟩ | result :=
                persist_cases world next write
              · left
                rw [result]
              · right
                refine ⟨credentials, next, false, rfl, rewrite, ?_⟩
                rw [result]
              · right
                refine ⟨credentials, next, true, rfl, rewrite, ?_⟩
                rw [result]

/-- What a load does: nothing, expose a rearrangement of the document, or
write back what reconciliation produced. -/
theorem load_cases (parseUrl : ParseUrl) (world : StoreWorld) (clock : ClockReading)
    (makeEpoch : Nat → String) (write : WriteOutcome) :
    (world.load parseUrl clock makeEpoch write).2 =
        { world with memory := none } ∨
    ∃ now result, reconcile parseUrl makeEpoch world.disk now = .ok result ∧
      ((result.changed = false ∧
          (world.load parseUrl clock makeEpoch write).2 =
            { world with memory := some result.credentials }) ∨
        (world.load parseUrl clock makeEpoch write).2 =
          { world.landed result.credentials false with memory := none } ∨
        (world.load parseUrl clock makeEpoch write).2 =
          world.landed result.credentials true) := by
  unfold load
  generalize attempt : (do
    let doc ← readDocument world.disk
    let now ← readClock clock
    reconcile parseUrl makeEpoch doc now) = reconciled
  cases reconciled with
  | error failure => exact .inl rfl
  | ok result =>
      simp only [bind_eq_ok] at attempt
      obtain ⟨doc, read, now, -, reconciled⟩ := attempt
      have same : doc = world.disk := by
        unfold readDocument at read
        split at read
        · exact (Except.ok.inj read).symm
        · cases read
      rw [same] at reconciled
      by_cases changed : result.changed = true
      · simp only [changed, if_true]
        obtain ⟨failure, written⟩ | ⟨failure, written⟩ | written :=
          persist_cases { world with memory := none } result.credentials write
        · left
          simp only [written]
        · right
          refine ⟨now, result, reconciled, .inr (.inl ?_)⟩
          simp only [written, landed]
        · right
          refine ⟨now, result, reconciled, .inr (.inr ?_)⟩
          simp only [written, landed]
      · right
        refine ⟨now, result, reconciled, .inl ⟨by simpa using changed, ?_⟩⟩
        simp only [changed, Bool.false_eq_true, if_false]

/-- What one event does to the world. -/
theorem step_cases (parseUrl : ParseUrl) (world : StoreWorld) (event : StoreEvent) :
    world.step parseUrl event = world ∨
    (∃ credentials next durable, world.memory = some credentials ∧
      Rewrite credentials (mintedId event) next ∧
      world.step parseUrl event = world.landed next durable) ∨
    (∃ clock makeEpoch write, world.step parseUrl event =
      (world.load parseUrl clock makeEpoch write).2) ∨
    ∃ exposed, world.step parseUrl event = world.losePower exposed := by
  cases event with
  | offerProvisional principal identity beforeOffer entropy clock write =>
      exact (perform_cases (offerProvisional_rewrites parseUrl principal
        identity beforeOffer entropy clock) world write).imp_right .inl
  | bindSafariInstallation expected publicKey clock write =>
      exact (perform_cases (bindSafariInstallation_rewrites parseUrl expected
        publicKey clock) world write).imp_right .inl
  | commitFromPair credentialId beforeCommit clock write =>
      exact (perform_cases (commitFromPair_rewrites credentialId beforeCommit
        clock) world write).imp_right .inl
  | promoteOnReconnect credentialId clock write =>
      exact (perform_cases (promoteOnReconnect_rewrites credentialId clock)
        world write).imp_right .inl
  | revoke credentialId write =>
      exact (perform_cases (revoke_rewrites credentialId) world
        write).imp_right .inl
  | revokeExtensionIdentity browser extensionId write =>
      exact (perform_cases (revokeExtensionIdentity_rewrites parseUrl browser
        extensionId) world write).imp_right .inl
  | sweepExpiredProvisionals clock write =>
      exact (perform_cases (sweepExpiredProvisionals_rewrites clock) world
        write).imp_right .inl
  | load clock makeEpoch write =>
      exact .inr (.inr (.inl ⟨clock, makeEpoch, write, rfl⟩))
  | losePower exposed => exact .inr (.inr (.inr ⟨exposed, rfl⟩))

/-! ## The invariant -/

/-- A document that can be loaded and whose ids are all known. -/
structure KnownDocument (known : List String)
    (document : CredentialDocument) : Prop where
  sound : SoundDocument document.credentials
  ids : ∀ id ∈ credentialIds document.credentials, id ∈ known

structure Consistent (known : List String) (world : StoreWorld) : Prop where
  disk : KnownDocument known world.disk
  undurable : ∀ document ∈ world.undurable, KnownDocument known document
  memory : ∀ credentials, world.memory = some credentials →
    UniqueCredentials credentials ∧
      credentials.Perm world.disk.credentials ∧
      world.disk.pendingPromote = none ∧ world.disk.legacy = false

theorem KnownDocument.mono {known extended : List String}
    {document : CredentialDocument} (sound : KnownDocument known document)
    (extends_known : ∀ id ∈ known, id ∈ extended) :
    KnownDocument extended document where
  sound := sound.sound
  ids := fun id listed => extends_known id (sound.ids id listed)

theorem Consistent.mono {known extended : List String}
    (consistent : Consistent known world)
    (extends_known : ∀ id ∈ known, id ∈ extended) :
    Consistent extended world where
  disk := consistent.disk.mono extends_known
  undurable := fun document listed =>
    (consistent.undurable document listed).mono extends_known
  memory := consistent.memory

/-- Landing unique records with known ids keeps the world consistent. -/
theorem Consistent.landed {known : List String}
    (consistent : Consistent known world) {next : List StoredCredential}
    (unique : UniqueCredentials next)
    (ids : ∀ id ∈ credentialIds next, id ∈ known) (durable : Bool) :
    Consistent known (world.landed next durable) where
  disk := ⟨unique.soundDocument, ids⟩
  undurable := by
    intro document listed
    cases durable with
    | true => cases listed
    | false =>
        rcases List.mem_cons.mp listed with current | older
        · rw [current]
          exact consistent.disk
        · exact consistent.undurable document older
  memory := by
    intro credentials loaded
    cases loaded
    exact ⟨unique, List.Perm.refl _, rfl, rfl⟩

theorem Consistent.forget {known : List String}
    (consistent : Consistent known world) :
    Consistent known { world with memory := none } where
  disk := consistent.disk
  undurable := consistent.undurable
  memory := fun _ loaded => nomatch loaded

theorem Consistent.losePower {known : List String}
    (consistent : Consistent known world) (exposed : Nat) :
    Consistent known (world.losePower exposed) where
  disk := by
    have candidates : ∀ document ∈ world.disk :: world.undurable,
        KnownDocument known document := by
      intro document listed
      rcases List.mem_cons.mp listed with current | older
      · rw [current]
        exact consistent.disk
      · exact consistent.undurable document older
    unfold StoreWorld.losePower
    simp only [List.getD_eq_getElem?_getD]
    cases found : (world.disk :: world.undurable)[exposed]? with
    | none => exact consistent.disk
    | some document =>
        exact candidates document (List.mem_of_getElem? found)
  undurable := fun _ listed => nomatch listed
  memory := fun _ loaded => nomatch loaded

theorem Consistent.load {known : List String}
    (consistent : Consistent known world) (clock : ClockReading)
    (makeEpoch : Nat → String) (write : WriteOutcome) :
    Consistent known (world.load parseUrl clock makeEpoch write).2 := by
  obtain outcome | ⟨now, result, reconciled, outcome⟩ :=
    load_cases parseUrl world clock makeEpoch write
  · rw [outcome]
    exact consistent.forget
  · obtain ⟨unique, ids, unchanged⟩ :=
      reconcile_spec consistent.disk.sound reconciled
    have known_ids : ∀ id ∈ credentialIds result.credentials, id ∈ known :=
      fun id listed => consistent.disk.ids id (ids id listed)
    obtain ⟨quiet, outcome⟩ | outcome | outcome := outcome
    · rw [outcome]
      refine ⟨consistent.disk, consistent.undurable, ?_⟩
      intro credentials loaded
      cases loaded
      exact ⟨unique, unchanged quiet⟩
    · rw [outcome]
      exact (consistent.landed unique known_ids false).forget
    · rw [outcome]
      exact consistent.landed unique known_ids true

theorem Consistent.step (parseUrl : ParseUrl) {known : List String}
    (consistent : Consistent known world) (event : StoreEvent)
    (fresh : ∀ id ∈ mintedId event, id ∉ known) :
    Consistent (known ++ (mintedId event).toList)
      (world.step parseUrl event) := by
  have extended : Consistent (known ++ (mintedId event).toList) world :=
    consistent.mono fun id listed => List.mem_append_left _ listed
  obtain same | ⟨credentials, next, durable, memory, rewrite, outcome⟩ |
    ⟨clock, makeEpoch, write, outcome⟩ | ⟨exposed, outcome⟩ :=
    step_cases parseUrl world event
  · rw [same]
    exact extended
  · rw [outcome]
    obtain ⟨unique, rearranged, -⟩ := consistent.memory credentials memory
    have stored : ∀ id ∈ credentialIds credentials, id ∈ known := by
      intro id listed
      exact consistent.disk.ids id ((rearranged.map _).mem_iff.mp listed)
    refine extended.landed (rewrite.unique unique ?_) ?_ durable
    · intro id minted listed
      exact fresh id minted (stored id listed)
    · intro id listed
      rcases rewrite.mem_ids listed with old | minted
      · exact List.mem_append_left _ (stored id old)
      · exact List.mem_append_right _ (by simp [minted])
  · rw [outcome]
    exact extended.load clock makeEpoch write
  · rw [outcome]
    exact extended.losePower exposed

theorem Consistent.run (parseUrl : ParseUrl) {known : List String}
    {events : List StoreEvent} (consistent : Consistent known world)
    (fresh : (known ++ events.filterMap mintedId).Nodup) :
    Consistent (known ++ events.filterMap mintedId)
      (world.run parseUrl events) := by
  induction events generalizing known world with
  | nil => simpa [StoreWorld.run] using consistent
  | cons event later induction =>
      have regrouped : known ++ (event :: later).filterMap mintedId =
          (known ++ (mintedId event).toList) ++
            later.filterMap mintedId := by
        cases minted : mintedId event <;> simp [minted]
      rw [regrouped] at fresh ⊢
      refine induction (consistent.step parseUrl event ?_) fresh
      intro id minted listed
      have apart := (List.nodup_append.mp
        (List.nodup_append.mp fresh).1).2.2
      refine apart id listed id ?_ rfl
      simpa [Option.mem_toList] using minted

theorem boot_consistent {document : CredentialDocument}
    (sound : SoundDocument document.credentials) :
    Consistent (credentialIds document.credentials) (boot document) where
  disk := ⟨sound, fun _ listed => listed⟩
  undurable := fun _ listed => nomatch listed
  memory := fun _ loaded => nomatch loaded

/-! ## The memory of every reachable store -/

/-- Whatever operations, failed writes, restarts and power losses a store has
been through, its records are unique and are those of the last document that
was written. -/
theorem run_uniqueCredentials (parseUrl : ParseUrl)
    (document : CredentialDocument) (events : List StoreEvent)
    (sound : SoundDocument document.credentials)
    (fresh : FreshIds document events) :
    let world := (boot document).run parseUrl events
    ∀ credentials, world.memory = some credentials →
      (credentialIds credentials).Nodup ∧
        AtMostOnePerPrincipal .committed credentials ∧
        AtMostOnePerPrincipal .provisional credentials ∧
        credentials.Perm world.disk.credentials ∧
        world.disk.pendingPromote = none ∧ world.disk.legacy = false := by
  intro world credentials loaded
  have consistent := (boot_consistent sound).run parseUrl fresh
  obtain ⟨unique, stored⟩ := consistent.memory credentials loaded
  exact ⟨unique.ids, unique.atMostOnePerPrincipal .committed,
    unique.atMostOnePerPrincipal .provisional, stored⟩

/-! ## A reload that rearranges -/

/-- `new URL` on the Chromium extension origins below. -/
def sampleParseUrl : ParseUrl := fun text =>
  let host := String.ofList (text.toList.drop 19)
  some
    { protocol := "chrome-extension:"
      hostname := host
      host := host
      port := ""
      username := ""
      password := ""
      pathname := ""
      search := ""
      hash := "" }

def samplePrincipal (host installation : String) : CredentialPrincipal :=
  { browser := .chromium
    verifiedOrigin := "chrome-extension://" ++ host
    clientInstallationId := installation
    safariInstallationKey := none }

/-- Offer and commit one credential. -/
def samplePair (id host installation : String) : List StoreEvent :=
  [.offerProvisional (samplePrincipal host installation) .official .absent
      { credentialId := id
        mutualKeyB64 := "key"
        authorizationEpoch := "0f8fad5b-d9cb-469f-a165-70867728950e" }
      (some 1000) .synced,
    .commitFromPair id .absent (some 2000) .synced]

def sampleLoad : StoreEvent :=
  .load (some 3000) (fun _ => "0f8fad5b-d9cb-469f-a165-70867728950e") .synced

/-- Two installations of one extension with another extension between them,
then a restart. -/
def sampleRun : List StoreEvent :=
  sampleLoad :: samplePair "first" "aaaa" "one" ++
    samplePair "second" "bbbb" "one" ++ samplePair "third" "aaaa" "two" ++
    [sampleLoad]

/-- The reload groups the records by extension and writes nothing, so memory
and disk hold different arrays. -/
theorem reload_rearranges :
    let world := (boot .empty).run sampleParseUrl sampleRun
    FreshIds .empty sampleRun ∧
      world.memory.map credentialIds = some ["first", "third", "second"] ∧
      credentialIds world.disk.credentials = ["first", "second", "third"] ∧
      world.memory ≠ some world.disk.credentials := by
  have memory : ((boot .empty).run sampleParseUrl sampleRun).memory.map
      credentialIds = some ["first", "third", "second"] := by
    decide +kernel
  have disk : credentialIds
      ((boot .empty).run sampleParseUrl sampleRun).disk.credentials =
        ["first", "second", "third"] := by
    decide +kernel
  refine ⟨by unfold FreshIds; decide +kernel, memory, disk, ?_⟩
  intro same
  rw [same, Option.map_some, disk] at memory
  exact absurd memory (by decide)

/-- The same run meets the hypotheses of `run_uniqueCredentials`. -/
theorem sampleRun_uniqueCredentials :
    let world := (boot .empty).run sampleParseUrl sampleRun
    ∀ credentials, world.memory = some credentials →
      (credentialIds credentials).Nodup ∧
        AtMostOnePerPrincipal .committed credentials ∧
        AtMostOnePerPrincipal .provisional credentials ∧
        credentials.Perm world.disk.credentials ∧
        world.disk.pendingPromote = none ∧ world.disk.legacy = false :=
  run_uniqueCredentials sampleParseUrl .empty sampleRun
    ⟨List.nodup_nil, List.Pairwise.nil⟩
    (by unfold FreshIds; decide +kernel)

end StoreWorld

end Motrix.Bridge
