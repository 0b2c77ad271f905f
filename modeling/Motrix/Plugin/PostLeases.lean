import Motrix.Plugin.PostQuotas

/-!
# Rows under their leases

An operation leaves a row that has ended alone, turns a row into a delivering
one only under the token of a claim, and counts no attempt past the limit of
that claim.
-/

namespace Motrix.PostDelivery

open Motrix.Lib
open Relation (ReflTransGen)

structure RowStep (limit : Nat) (token : Option String)
    (row found : RawDeliveryRow) : Prop where
  alive : row.isTerminal = false
  deliveryId : found.deliveryId = row.deliveryId
  attempts : found.attemptCount ≤ max row.attemptCount limit
  claims : found.status = .delivering →
    found.leaseOwner = token ∧ token ≠ none

section

variable {limit : Nat} {token : Option String} {row found : RawDeliveryRow}

theorem RowStep.reached_id
    (reached : ReflTransGen (RowStep limit token) row found) :
    found.deliveryId = row.deliveryId := by
  induction reached with
  | refl => rfl
  | tail _ last induction => exact last.deliveryId.trans induction

theorem RowStep.reached_attempts
    (reached : ReflTransGen (RowStep limit token) row found) :
    found.attemptCount ≤ max row.attemptCount limit := by
  induction reached with
  | refl => exact Nat.le_max_left _ _
  | tail _ last induction =>
      have counted := last.attempts
      omega

theorem RowStep.reached_terminal (ended : row.isTerminal = true)
    (reached : ReflTransGen (RowStep limit token) row found) :
    found = row := by
  induction reached with
  | refl => rfl
  | tail _ last same =>
      have alive := last.alive
      rw [same, ended] at alive
      cases alive

/-- A row that is delivering was so before, or has been claimed. -/
theorem RowStep.reached_delivering (delivering : found.status = .delivering)
    (reached : ReflTransGen (RowStep limit token) row found) :
    found = row ∨ (found.leaseOwner = token ∧ token ≠ none) := by
  cases reached with
  | refl => exact Or.inl rfl
  | tail _ last => exact Or.inr (last.claims delivering)

theorem RowStep.ended {status : PostDeliveryStatus} {receipt : String}
    {reason : Option PostDeliveryPermanentReason} {now : Int}
    (ends : isTerminalStatus status = true) (active : row.isActive = true) :
    RowStep limit token row
      (PostDatabase.endedRow status receipt reason now row) where
  alive := row.not_terminal active
  deliveryId := rfl
  attempts := Nat.le_max_left _ _
  claims delivering := by
    rw [show status = .delivering from delivering] at ends
    cases ends

theorem RowStep.released {nextAttemptAt now : Int}
    (delivering : row.status = .delivering) :
    RowStep limit token row
      { row with
        status := .pending
        leaseOwner := none
        leaseExpiresAt := none
        nextAttemptAt := nextAttemptAt
        updatedAt := now } where
  alive := row.not_terminal (PostDatabase.delivering_active delivering)
  deliveryId := rfl
  attempts := Nat.le_max_left _ _
  claims delivers := by cases delivers

theorem RowStep.claimed {input : ClaimPostDeliveryInput}
    (pending : row.status = .pending)
    (below : row.attemptCount < input.maxAttempts) :
    RowStep input.maxAttempts (some input.leaseToken) row
      (PostDatabase.claimedRow input row) where
  alive := row.not_terminal (PostDatabase.pending_active pending)
  deliveryId := rfl
  attempts := Nat.le_trans below (Nat.le_max_right _ _)
  claims _ := ⟨rfl, Option.some_ne_none _⟩

end

namespace PostDatabase

variable {host : RepositoryHost} {quota : PostDeliveryQuotaConfig}
  {db next : PostDatabase}

/-! ## Breakers in shape -/

structure Shaped (row : RawBreakerRow) : Prop where
  probe : row.state = .halfOpen → ∃ token expiresAt,
    row.probeToken = some token ∧ row.probeLeaseExpiresAt = some expiresAt
  pause : row.state = .opened → ∃ openUntil, row.openUntil = some openUntil

/-- A breaker that has been written is in shape. -/
def Shapes (before after : PostDatabase) : Prop :=
  ∀ pluginId row, after.breakers pluginId = some row →
    before.breakers pluginId = some row ∨ Shaped row

theorem Shapes.of_eq (same : next.breakers = db.breakers) :
    Shapes db next := by
  intro pluginId row found
  rw [same] at found
  exact Or.inl found

theorem Shapes.trans {middle : PostDatabase} (first : Shapes db middle)
    (second : Shapes middle next) : Shapes db next := by
  intro pluginId row found
  rcases second pluginId row found with old | shaped
  · exact first pluginId row old
  · exact Or.inr shaped

theorem Shapes.set {pluginId : String} {row : RawBreakerRow}
    (shaped : Shaped row) : Shapes db (db.setBreaker pluginId row) := by
  intro other found written
  by_cases same : other = pluginId
  · right
    cases (if_pos same).symm.trans written
    exact shaped
  · exact Or.inl ((if_neg same).symm.trans written)

theorem opened_shaped (row : RawBreakerRow) (openUntil updatedAt : Int) :
    Shaped (openedRow row openUntil updatedAt) where
  probe isHalfOpen := by cases isHalfOpen
  pause _ := ⟨openUntil, rfl⟩

theorem closeBreaker_shapes (pluginId : String)
    (permit : PostDeliveryBreakerPermit) (now : Int) :
    Shapes db (db.closeBreaker pluginId permit now) := by
  unfold closeBreaker
  split
  · exact Shapes.of_eq rfl
  · apply Shapes.set
    constructor
    · intro isHalfOpen
      cases isHalfOpen
    · intro isOpened
      cases isOpened

theorem failed_shaped {row : RawBreakerRow} {opens : Bool} {openUntil : Int}
    (state : row.state = if opens then .opened else .closed)
    (pause : row.openUntil = if opens then some openUntil else none) :
    Shaped row := by
  cases opens with
  | false =>
      constructor
      · intro isHalfOpen
        cases state.symm.trans isHalfOpen
      · intro isOpened
        cases state.symm.trans isOpened
  | true =>
      constructor
      · intro isHalfOpen
        cases state.symm.trans isHalfOpen
      · exact fun _ => ⟨openUntil, pause⟩

theorem recordBreakerFailure_shapes (input : BreakerFailureInput) :
    Shapes db (db.recordBreakerFailure input) :=
  Shapes.set (failed_shaped rfl rfl)

theorem startProbe_shapes (pluginId : String) (row : RawBreakerRow)
    (now : Int) (token : String) (leaseExpiresAt : Int) :
    Shapes db (db.startProbe pluginId row now token leaseExpiresAt).2 := by
  unfold startProbe
  split
  · exact Shapes.of_eq rfl
  · split
    · apply Shapes.set
      constructor
      · exact fun _ => ⟨token, leaseExpiresAt, rfl, rfl⟩
      · intro isOpened
        cases isOpened
    · exact Shapes.of_eq rfl

theorem acquireBreakerPermit_shapes (pluginId : String) (now : Int)
    (token : String) (leaseExpiresAt : Int) :
    Shapes db
      (db.acquireBreakerPermit pluginId now token leaseExpiresAt).2 := by
  unfold acquireBreakerPermit
  split
  · exact Shapes.of_eq rfl
  · split
    · exact Shapes.of_eq rfl
    · split
      · exact Shapes.of_eq rfl
      · exact (Shapes.set (opened_shaped _ _ _)).trans
          (startProbe_shapes _ _ _ _ _)
    · split
      · exact Shapes.of_eq rfl
      · exact startProbe_shapes _ _ _ _ _

theorem releaseBreakerPermit_shapes (pluginId : String)
    (permit : PostDeliveryBreakerPermit) :
    Shapes db (db.releaseBreakerPermit pluginId permit) := by
  unfold releaseBreakerPermit
  split
  · exact Shapes.of_eq rfl
  · split
    · exact Shapes.of_eq rfl
    · split
      · exact Shapes.set (opened_shaped _ _ _)
      · exact Shapes.of_eq rfl

theorem recoverExpiredLeases_shapes (now : Int) :
    Shapes db (db.recoverExpiredLeases now) := by
  intro pluginId found recovered
  obtain ⟨row, there, change⟩ := Option.map_eq_some_iff.mp recovered
  split at change
  · split at change
    · rw [← change]
      exact Or.inr (opened_shaped _ _ _)
    · rw [← change]
      exact Or.inl there
  · rw [← change]
    exact Or.inl there

/-! ## Pruning and ending rows -/

structure Shrinks (before after : PostDatabase) : Prop where
  rows : after.deliveries ⊆ before.deliveries
  breakers : after.breakers = before.breakers

theorem Shrinks.refl (db : PostDatabase) : Shrinks db db where
  rows := List.Subset.refl _
  breakers := rfl

theorem Shrinks.trans {middle : PostDatabase} (first : Shrinks db middle)
    (second : Shrinks middle next) : Shrinks db next where
  rows := List.Subset.trans second.rows first.rows
  breakers := second.breakers.trans first.breakers

theorem pruneTerminalRow_shrinks (row : RawDeliveryRow) (reason : String)
    (now : Int) : Shrinks db (db.pruneTerminalRow host row reason now) where
  rows _ inside := (Table.mem_remove.mp inside).1
  breakers := rfl

theorem enforceTurns_shrinks {db : PostDatabase} (now : Int)
    (pluginId : String) (turns : Nat) :
    Shrinks db (enforceTurns host quota now pluginId turns db) := by
  induction turns generalizing db with
  | zero => exact Shrinks.refl db
  | succ turns induction =>
      unfold enforceTurns
      split
      · exact Shrinks.refl db
      · split
        · exact Shrinks.refl db
        · exact (pruneTerminalRow_shrinks _ _ _).trans induction

theorem ensureTurns_shrinks {db : PostDatabase} {now : Int}
    {pluginId : String} {incoming turns : Nat}
    (made : ensureTurns host quota now pluginId incoming turns db =
      .ok next) : Shrinks db next := by
  induction turns generalizing db with
  | zero =>
      unfold ensureTurns at made
      split at made
      · cases made
        exact Shrinks.refl next
      · cases made
  | succ turns induction =>
      unfold ensureTurns at made
      split at made
      · cases made
        exact Shrinks.refl next
      · split at made
        · cases made
        · exact (pruneTerminalRow_shrinks _ _ _).trans (induction made)

/-- Every row comes from an old one by steps. -/
structure Evolves (limit : Nat) (token : Option String)
    (before after : PostDatabase) : Prop where
  rows : Table.Derives (RowStep limit token) before.deliveries
    after.deliveries
  breakers : Shapes before after

section

variable {limit : Nat} {token : Option String}

theorem Evolves.trans {middle : PostDatabase}
    (first : Evolves limit token db middle)
    (second : Evolves limit token middle next) :
    Evolves limit token db next where
  rows := first.rows.trans second.rows
  breakers := first.breakers.trans second.breakers

theorem Shrinks.evolves (shrinks : Shrinks db next) :
    Evolves limit token db next where
  rows row inside := ⟨row, shrinks.rows inside, ReflTransGen.refl⟩
  breakers := Shapes.of_eq shrinks.breakers

theorem Evolves.refl (db : PostDatabase) : Evolves limit token db db :=
  (Shrinks.refl db).evolves

theorem Evolves.shapes (shapes : Shapes db next)
    (same : next.deliveries = db.deliveries) :
    Evolves limit token db next where
  rows row inside := ⟨row, same ▸ inside, ReflTransGen.refl⟩
  breakers := shapes

/-- The ledger moves with the rows. -/
theorem moved_evolves (pluginId : String) (activeBytes terminalBytes : Nat) :
    Evolves limit token db
      (db.moveActiveToTerminal pluginId activeBytes terminalBytes) :=
  Shrinks.evolves ⟨List.Subset.refl _, rfl⟩

theorem Evolves.rewrite {chosen : RawDeliveryRow → Bool}
    {change : RawDeliveryRow → RawDeliveryRow}
    (steps : ∀ row ∈ db.deliveries, chosen row = true →
      RowStep limit token row (change row)) :
    Evolves limit token db (db.updateDeliveries chosen change).2 where
  rows := Table.Derives.rewrite steps
  breakers := Shapes.of_eq rfl

theorem enforceTerminalQuotas_evolves (now : Int) (pluginId : String) :
    Evolves limit token db
      (db.enforceTerminalQuotas host quota now pluginId) :=
  (enforceTurns_shrinks now pluginId _).evolves

theorem terminalizeRow_evolves {row : RawDeliveryRow}
    {reason : PostDeliveryPermanentReason} {now : Int}
    {status : PostDeliveryStatus} (ends : isTerminalStatus status = true)
    (done : db.terminalizeRow host quota row reason now status =
      .ok next) : Evolves limit token db next := by
  obtain ⟨receipt, _, done⟩ := bind_eq_ok.mp done
  obtain ⟨room, made, done⟩ := bind_eq_ok.mp done
  have rewritten : Evolves limit token room (room.updateDeliveries
      (fun other => other.deliveryId == row.deliveryId && other.isActive)
      (endedRow status receipt (some reason) now)).2 := by
    apply Evolves.rewrite
    intro other _ isChosen
    exact RowStep.ended ends (Bool.and_eq_true_iff.mp isChosen).2
  apply (ensureTurns_shrinks made).evolves.trans
  dsimp only at done
  split at done
  · cases done
    exact rewritten.trans (moved_evolves _ _ _)
  · cases done
    exact rewritten

theorem terminalizeRows_evolves {rows : List RawDeliveryRow}
    {reason : PostDeliveryPermanentReason} {now : Int}
    (done : db.terminalizeRows host quota rows reason now = .ok next) :
    Evolves limit token db next := by
  refine foldlM_keeps ?_ (Evolves.refl db) done
  intro state row ended evolves stepped
  exact evolves.trans
    (terminalizeRow_evolves (terminalStatusOf_terminal reason) stepped)

theorem fold_evolves {db : PostDatabase} {Item : Type}
    {step : PostDatabase → Item → PostDatabase}
    (evolves : ∀ state item, Evolves limit token state (step state item))
    (items : List Item) : Evolves limit token db (items.foldl step db) := by
  induction items generalizing db with
  | nil => exact Evolves.refl db
  | cons item rest induction => exact (evolves db item).trans induction

theorem terminalizeWhere_evolves {chosen : RawDeliveryRow → Bool}
    {reason : PostDeliveryPermanentReason} {now : Int}
    (done : db.terminalizeWhere host quota chosen reason now = .ok next) :
    Evolves limit token db next := by
  obtain ⟨ended, stepped, done⟩ := bind_eq_ok.mp done
  cases done
  apply (terminalizeRows_evolves stepped).trans
  apply fold_evolves
  intro state pluginId
  exact enforceTerminalQuotas_evolves now pluginId

theorem terminalizePermissionRevoked_evolves {pluginId : String}
    {revoked : List String} {now : Int}
    (done : db.terminalizePermissionRevoked host quota pluginId revoked now =
      .ok next) : Evolves limit token db next := by
  obtain ⟨ended, stepped, done⟩ := bind_eq_ok.mp done
  cases done
  exact (terminalizeRows_evolves stepped).trans
    (enforceTerminalQuotas_evolves now pluginId)

/-! ## Closing transitions and recovery -/

theorem closeBreaker_deliveries (pluginId : String)
    (permit : PostDeliveryBreakerPermit) (now : Int) :
    (db.closeBreaker pluginId permit now).deliveries = db.deliveries := by
  unfold closeBreaker
  split
  · rfl
  · rfl

theorem complete_evolves {input : CompletePostDeliveryInput}
    {breaker : CompleteBreakerInput} {answer : Bool}
    (done : db.complete host quota input breaker = .ok (answer, next)) :
    Evolves limit token db next := by
  unfold complete at done
  split at done
  · cases done
    exact Evolves.refl _
  · split at done
    · cases done
      exact Evolves.refl _
    · obtain ⟨receipt, _, done⟩ := bind_eq_ok.mp done
      obtain ⟨room, made, done⟩ := bind_eq_ok.mp done
      have rewritten : Evolves limit token room (room.updateDeliveries
          (heldBy input.deliveryId input.leaseToken)
          (endedRow .delivered receipt none breaker.now)).2 := by
        apply Evolves.rewrite
        intro other _ held
        exact RowStep.ended rfl (delivering_active (heldBy_iff.mp held).2.1)
      apply (ensureTurns_shrinks made).evolves.trans
      dsimp only at done
      split at done
      · cases done
        exact rewritten
      · cases done
        apply rewritten.trans
        apply (moved_evolves _ _ _).trans
        refine Evolves.trans ?_ (enforceTerminalQuotas_evolves _ _)
        exact Evolves.shapes (closeBreaker_shapes _ _ _)
          (closeBreaker_deliveries _ _ _)

theorem retry_evolves (input : RetryPostDeliveryInput)
    (breaker : BreakerFailureInput) :
    Evolves limit token db (db.retry input breaker).2 := by
  have rewritten : Evolves limit token db (db.updateDeliveries
      (heldBy input.deliveryId input.leaseToken) fun row =>
        { row with
          status := .pending
          leaseOwner := none
          leaseExpiresAt := none
          nextAttemptAt := input.nextAttemptAt
          updatedAt := input.failedAt }).2 := by
    apply Evolves.rewrite
    intro row _ held
    exact RowStep.released (heldBy_iff.mp held).2.1
  unfold retry
  split
  · exact Evolves.refl db
  · dsimp only
    split
    · exact rewritten
    · exact rewritten.trans
        (Evolves.shapes (recordBreakerFailure_shapes _) rfl)

theorem deadLetter_evolves {input : DeadLetterPostDeliveryInput}
    {pluginId : String} {permit : PostDeliveryBreakerPermit} {answer : Bool}
    (done : db.deadLetter host quota input pluginId permit =
      .ok (answer, next)) : Evolves limit token db next := by
  unfold deadLetter at done
  split at done
  · cases done
    exact Evolves.refl _
  · split at done
    · cases done
      exact Evolves.refl _
    · obtain ⟨ended, stepped, done⟩ := bind_eq_ok.mp done
      have ends : isTerminalStatus
          (if input.superseded then .superseded else .deadLetter) = true := by
        split
        · rfl
        · rfl
      cases done
      apply (terminalizeRow_evolves ends stepped).trans
      refine Evolves.trans ?_ (enforceTerminalQuotas_evolves _ _)
      exact Evolves.shapes (closeBreaker_shapes _ _ _)
        (closeBreaker_deliveries _ _ _)

theorem recoverExpiredLeases_evolves (now : Int) :
    Evolves limit token db (db.recoverExpiredLeases now) where
  rows := by
    apply Table.Derives.rewrite
    intro row _ isChosen
    exact RowStep.released
      (beq_iff_eq.mp (Bool.and_eq_true_iff.mp isChosen).1)
  breakers := recoverExpiredLeases_shapes now

end

/-! ## Claims -/

theorem delivering_alive {row : RawDeliveryRow}
    (delivering : row.status = .delivering) : row.isTerminal = false :=
  row.not_terminal (delivering_active delivering)

/-- What a claim answers and leaves behind. -/
structure Grants (input : ClaimPostDeliveryInput) (before : PostDatabase)
    (answer : Option RawDeliveryRow) (after : PostDatabase) : Prop where
  evolves : Evolves input.maxAttempts (some input.leaseToken) before after
  granted : ∀ row, answer = some row → row ∈ after.deliveries ∧
    ∃ raw ∈ before.deliveries, raw.status = .pending ∧
      raw.pluginId = input.pluginId ∧ row = claimedRow input raw
  delivering : ∀ found ∈ after.deliveries, found.status = .delivering →
    found ∈ before.deliveries ∨ answer = some found

theorem Grants.nothing (input : ClaimPostDeliveryInput) (db : PostDatabase) :
    Grants input db none db where
  evolves := Evolves.refl db
  granted row answered := by cases answered
  delivering found inside _ := Or.inl inside

/-- A row that ends before the claim goes on. -/
theorem Grants.after {input : ClaimPostDeliveryInput} {raw : RawDeliveryRow}
    {ended : PostDatabase} {answer : Option RawDeliveryRow}
    (evolves : Evolves input.maxAttempts (some input.leaseToken) db ended)
    (ends : Ended quota db raw ended)
    (grants : Grants input ended answer next) :
    Grants input db answer next where
  evolves := evolves.trans grants.evolves
  granted row answered := by
    obtain ⟨inside, found, among, pending, rest⟩ :=
      grants.granted row answered
    have alive := found.not_terminal (pending_active pending)
    exact ⟨inside, found, (ends.fewer found among alive).1, pending, rest⟩
  delivering found inside delivering := by
    rcases grants.delivering found inside delivering with among | answered
    · exact Or.inl (ends.fewer found among (delivering_alive delivering)).1
    · exact Or.inr answered

theorem claimed_rows (balanced : Balanced db)
    {input : ClaimPostDeliveryInput} {raw found : RawDeliveryRow}
    (inside : raw ∈ db.deliveries)
    (among : found ∈ (db.updateDeliveries
      (fun row => row.deliveryId == raw.deliveryId && row.status == .pending)
      (claimedRow input)).2.deliveries) :
    found ∈ db.deliveries ∨ found = claimedRow input raw := by
  obtain ⟨old, there, change⟩ := Table.mem_rewrite.mp among
  split at change
  · rename_i isChosen
    have same := beq_iff_eq.mp (Bool.and_eq_true_iff.mp isChosen).1
    rw [balanced.distinct.eq there inside same] at change
    exact Or.inr change.symm
  · rw [← change]
    exact Or.inl there

theorem claimed_evolves (balanced : Balanced db)
    {input : ClaimPostDeliveryInput} {raw : RawDeliveryRow}
    (inside : raw ∈ db.deliveries)
    (below : raw.attemptCount < input.maxAttempts) :
    Evolves input.maxAttempts (some input.leaseToken) db (db.updateDeliveries
      (fun row => row.deliveryId == raw.deliveryId && row.status == .pending)
      (claimedRow input)).2 := by
  apply Evolves.rewrite
  intro row there isChosen
  obtain ⟨same, pending⟩ := Bool.and_eq_true_iff.mp isChosen
  apply RowStep.claimed (beq_iff_eq.mp pending)
  rw [balanced.distinct.eq there inside (beq_iff_eq.mp same)]
  exact below

theorem claimRow_grants (kept : Kept quota db)
    {input : ClaimPostDeliveryInput} {raw : RawDeliveryRow}
    (inside : raw ∈ db.deliveries) (pending : raw.status = .pending)
    (named : raw.pluginId = input.pluginId)
    (below : raw.attemptCount < input.maxAttempts) {readable : Bool}
    {answer : Option RawDeliveryRow}
    (done : db.claimRow host quota input raw readable = .ok (answer, next)) :
    Grants input db answer next := by
  have evolves := claimed_evolves kept.balanced inside below
  have claimed := claimed_kept kept input raw.deliveryId
  have isChosen : (raw.deliveryId == raw.deliveryId &&
      raw.status == .pending) = true := by
    rw [pending, beq_self_eq_true]
    rfl
  have once : (db.updateDeliveries
      (fun row => row.deliveryId == raw.deliveryId && row.status == .pending)
      (claimedRow input)).1 = 1 := by
    apply updated_once (claimedRow input) kept.balanced inside isChosen
    intro other _ chosen
    exact beq_iff_eq.mp (Bool.and_eq_true_iff.mp chosen).1
  have there : claimedRow input raw ∈ (db.updateDeliveries
      (fun row => row.deliveryId == raw.deliveryId && row.status == .pending)
      (claimedRow input)).2.deliveries :=
    Table.mem_rewrite.mpr ⟨raw, inside, if_pos isChosen⟩
  unfold claimRow at done
  dsimp only at done
  rw [if_neg (not_not_intro once)] at done
  split at done
  · rename_i missing
    have apart := List.find?_eq_none.mp missing _ there
    exact absurd (beq_self_eq_true raw.deliveryId) apart
  · rename_i row found
    have isClaimed := claimed_active kept.balanced inside pending found
    subst isClaimed
    split at done
    · rw [if_pos (show (claimedRow input raw).status = .delivering from rfl)]
        at done
      cases done
      refine ⟨evolves, ?_, ?_⟩
      · rintro row ⟨⟩
        exact ⟨there, raw, inside, pending, named, rfl⟩
      · intro other among _
        rcases claimed_rows kept.balanced inside among with old | isNew
        · exact Or.inl old
        · exact Or.inr (congrArg some isNew.symm)
    · obtain ⟨ended, stepped, done⟩ := bind_eq_ok.mp done
      have more := evolves.trans (terminalizeRow_evolves rfl stepped)
      have isEnd : isTerminalStatus .deadLetter = true := rfl
      rcases terminalizeRow_kept host claimed there rfl .inputInvalid
          input.now isEnd with failed | ⟨last, finished, ends⟩
      · cases failed.symm.trans stepped
      · cases finished.symm.trans stepped
        rw [enforce_within ends.kept.terminal] at done
        cases done
        refine ⟨more, ?_, ?_⟩
        · intro row answered
          cases answered
        · intro other among delivering
          obtain ⟨before, apart⟩ :=
            ends.fewer other among (delivering_alive delivering)
          rcases claimed_rows kept.balanced inside before with old | isNew
          · exact Or.inl old
          · rw [isNew] at apart
            exact absurd rfl apart

theorem claimLimit_none {input : ClaimPostDeliveryInput}
    {row : RawDeliveryRow} (allowed : claimLimit input row = none) :
    row.attemptCount < input.maxAttempts := by
  unfold claimLimit at allowed
  split at allowed
  · cases allowed
  · rename_i below
    omega

theorem claimTurns_grants {db : PostDatabase} (kept : Kept quota db)
    {input : ClaimPostDeliveryInput} {readable : Bool} {turns : Nat}
    {answer : Option RawDeliveryRow}
    (done : claimTurns host quota input readable turns db =
      .ok (answer, next)) : Grants input db answer next := by
  induction turns generalizing db with
  | zero =>
      cases done
      exact Grants.nothing input next
  | succ turns induction =>
      unfold claimTurns at done
      split at done
      · cases done
        exact Grants.nothing input _
      · rename_i raw found
        obtain ⟨inside, chosen⟩ := List.mem_filter.mp (firstBy_mem found)
        obtain ⟨named, claimable⟩ := Bool.and_eq_true_iff.mp chosen
        have pending : raw.status = .pending :=
          beq_iff_eq.mp (Bool.and_eq_true_iff.mp claimable).1
        split at done
        · rename_i allowed
          exact claimRow_grants kept inside pending (beq_iff_eq.mp named)
            (claimLimit_none allowed) done
        · rename_i reason _
          obtain ⟨ended, stepped, done⟩ := bind_eq_ok.mp done
          have isEnd := terminalStatusOf_terminal reason
          rcases terminalizeRow_kept host kept inside
              (pending_active pending) reason input.now isEnd with
            failed | ⟨last, finished, ends⟩
          · cases failed.symm.trans stepped
          · cases finished.symm.trans stepped
            rw [enforce_within ends.kept.terminal] at done
            exact Grants.after (terminalizeRow_evolves isEnd stepped) ends
              (induction ends.kept done)

/-! ## Admission -/

/-- Every row is an old one or has just been admitted. -/
structure Admits (ids : String → Prop) (before after : PostDatabase) :
    Prop where
  rows : ∀ found ∈ after.deliveries, found ∈ before.deliveries ∨
    (ids found.deliveryId ∧ found.attemptCount = 0 ∧
      found.status ≠ .delivering)
  breakers : after.breakers = before.breakers

variable {ids : String → Prop}

theorem Shrinks.admits (shrinks : Shrinks db next) : Admits ids db next where
  rows _ inside := Or.inl (shrinks.rows inside)
  breakers := shrinks.breakers

theorem Admits.trans {middle : PostDatabase} (first : Admits ids db middle)
    (second : Admits ids middle next) : Admits ids db next where
  rows found inside := by
    rcases second.rows found inside with old | fresh
    · exact first.rows found old
    · exact Or.inr fresh
  breakers := second.breakers.trans first.breakers

theorem Admits.insert {admission : PostDeliveryAdmission} {payload : String}
    {payloadBytes bytes : Nat} {effective required : List String}
    (allowed : ids admission.deliveryId)
    (inserted : next.deliveries = db.deliveries ++ [admittedRow admission
      payload payloadBytes bytes effective required])
    (same : next.breakers = db.breakers) : Admits ids db next where
  rows found inside := by
    rw [inserted] at inside
    rcases List.mem_append.mp inside with old | fresh
    · exact Or.inl old
    · rw [List.mem_singleton.mp fresh]
      refine Or.inr ⟨allowed, rfl, ?_⟩
      unfold admittedRow
      cases admission.initialStatus with
      | pending => exact PostDeliveryStatus.noConfusion
      | deadLetter => exact PostDeliveryStatus.noConfusion
  breakers := same

theorem insertAdmission_admits {admission : PostDeliveryAdmission}
    (allowed : ids admission.deliveryId)
    (done : db.insertAdmission host quota admission = .ok next) :
    Admits ids db next := by
  unfold insertAdmission at done
  dsimp only at done
  split at done
  · cases done
  · split at done
    · cases done
      exact Admits.insert allowed rfl rfl
    · obtain ⟨payload, _, done⟩ := bind_eq_ok.mp done
      obtain ⟨room, made, done⟩ := bind_eq_ok.mp done
      cases done
      apply (ensureTurns_shrinks made).admits.trans
      refine Admits.trans ?_ (enforceTurns_shrinks _ _ _).admits
      exact Admits.insert allowed rfl rfl

theorem admitOrTombstone_admits {admission : PostDeliveryAdmission}
    {capacity : PostDeliveryDatabaseCapacity} {decision : AdmissionDecision}
    (allowed : ids admission.deliveryId)
    (done : db.admitOrTombstone host quota capacity admission =
      .ok (decision, next)) : Admits ids db next := by
  unfold admitOrTombstone at done
  split at done
  · cases done
    exact (Shrinks.refl _).admits
  · obtain ⟨rejection, _, done⟩ := bind_eq_ok.mp done
    cases rejection with
    | some reason =>
        cases done
        exact Shrinks.admits ⟨List.Subset.refl _, rfl⟩
    | none =>
        obtain ⟨inserted, made, done⟩ := bind_eq_ok.mp done
        cases done
        exact insertAdmission_admits allowed made

theorem admitMany_admits {db : PostDatabase}
    {admissions : List (PostDeliveryAdmission × PostDeliveryDatabaseCapacity)}
    (allowed : ∀ item ∈ admissions, ids item.1.deliveryId)
    (done : db.admitMany host quota admissions = .ok next) :
    Admits ids db next := by
  induction admissions generalizing db with
  | nil =>
      cases done
      exact (Shrinks.refl _).admits
  | cons item rest induction =>
      unfold admitMany at done
      rw [List.foldlM_cons] at done
      obtain ⟨middle, stepped, done⟩ := bind_eq_ok.mp done
      obtain ⟨⟨decision, admitted⟩, made, same⟩ := bind_eq_ok.mp stepped
      cases same
      have first := admitOrTombstone_admits
        (allowed item List.mem_cons_self) made
      exact first.trans (induction (fun other among =>
        allowed other (List.mem_cons_of_mem _ among)) done)

end PostDatabase

/-! ## One operation -/

namespace RepositoryOp

def attemptLimit : RepositoryOp → Nat
  | .claimNextForPlugin input _ => input.maxAttempts
  | _ => 0

def claimToken : RepositoryOp → Option String
  | .claimNextForPlugin input _ => some input.leaseToken
  | _ => none

def admits : RepositoryOp → String → Prop
  | .admitMany admissions => fun deliveryId =>
      ∃ item ∈ admissions, item.1.deliveryId = deliveryId
  | _ => fun _ => False

end RepositoryOp

namespace PostDatabase

variable {host : RepositoryHost} {quota : PostDeliveryQuotaConfig}
  {db next : PostDatabase}

/-- Every row comes from an old one by steps or has just been admitted. -/
structure Arrives (op : RepositoryOp) (before after : PostDatabase) :
    Prop where
  rows : ∀ found ∈ after.deliveries,
    (∃ row ∈ before.deliveries,
      ReflTransGen (RowStep op.attemptLimit op.claimToken) row found) ∨
    (op.admits found.deliveryId ∧ found.attemptCount = 0 ∧
      found.status ≠ .delivering)
  breakers : Shapes before after

theorem Evolves.arrives {op : RepositoryOp}
    (evolves : Evolves op.attemptLimit op.claimToken db next) :
    Arrives op db next where
  rows found inside := Or.inl (evolves.rows found inside)
  breakers := evolves.breakers

theorem map_snd_ok {Answer : Type}
    {result : Except PostDeliveryError (Answer × PostDatabase)}
    (done : result.map Prod.snd = .ok next) :
    ∃ answer, result = .ok (answer, next) := by
  cases result with
  | error failure => cases done
  | ok pair =>
      cases done
      exact ⟨pair.1, rfl⟩

theorem startProbe_deliveries (pluginId : String) (row : RawBreakerRow)
    (now : Int) (token : String) (leaseExpiresAt : Int) :
    (db.startProbe pluginId row now token leaseExpiresAt).2.deliveries =
      db.deliveries := by
  unfold startProbe
  split
  · rfl
  · split
    · rfl
    · rfl

theorem acquireBreakerPermit_deliveries (pluginId : String) (now : Int)
    (token : String) (leaseExpiresAt : Int) :
    (db.acquireBreakerPermit pluginId now token leaseExpiresAt).2.deliveries =
      db.deliveries := by
  unfold acquireBreakerPermit
  split
  · rfl
  · split
    · rfl
    · split
      · rfl
      · exact startProbe_deliveries _ _ _ _ _
    · split
      · rfl
      · exact startProbe_deliveries _ _ _ _ _

theorem releaseBreakerPermit_deliveries (pluginId : String)
    (permit : PostDeliveryBreakerPermit) :
    (db.releaseBreakerPermit pluginId permit).deliveries = db.deliveries := by
  unfold releaseBreakerPermit
  split
  · rfl
  · split
    · rfl
    · split
      · rfl
      · rfl

theorem recounted_breakers (rows : List RawDeliveryRow) :
    (rows.foldl (fun counted row =>
      counted.bumpLedger row.pluginId (chargeOf row)) db).breakers =
        db.breakers := by
  induction rows generalizing db with
  | nil => rfl
  | cons row rest induction =>
      rw [List.foldl_cons, induction]
      rfl

theorem perform_arrives (kept : Kept quota db) {op : RepositoryOp}
    (done : db.perform host quota op = .ok next) : Arrives op db next := by
  cases op with
  | admitMany admissions =>
      have admits : Admits (RepositoryOp.admitMany admissions).admits db
          next := admitMany_admits (fun item among => ⟨item, among, rfl⟩) done
      constructor
      · intro found inside
        rcases admits.rows found inside with old | fresh
        · exact Or.inl ⟨found, old, ReflTransGen.refl⟩
        · exact Or.inr fresh
      · exact Shapes.of_eq admits.breakers
  | claimNextForPlugin input readable =>
      obtain ⟨answer, claimed⟩ := map_snd_ok done
      apply Evolves.arrives
      exact (claimTurns_grants kept claimed).evolves
  | complete input breaker =>
      obtain ⟨answer, completed⟩ := map_snd_ok done
      exact (complete_evolves completed).arrives
  | retry input breaker =>
      cases done
      exact (retry_evolves input breaker).arrives
  | deadLetter input pluginId permit =>
      obtain ⟨answer, buried⟩ := map_snd_ok done
      exact (deadLetter_evolves buried).arrives
  | acquireBreakerPermit pluginId now token leaseExpiresAt =>
      cases done
      apply Evolves.arrives
      exact Evolves.shapes (acquireBreakerPermit_shapes _ _ _ _)
        (acquireBreakerPermit_deliveries _ _ _ _)
  | releaseBreakerPermit pluginId permit =>
      cases done
      apply Evolves.arrives
      exact Evolves.shapes (releaseBreakerPermit_shapes _ _)
        (releaseBreakerPermit_deliveries _ _)
  | recoverExpiredLeases now =>
      cases done
      exact (recoverExpiredLeases_evolves now).arrives
  | reconcileLedger =>
      cases done
      apply Evolves.arrives
      exact Evolves.shapes (Shapes.of_eq (recounted_breakers db.deliveries))
        (recounted_deliveries db.deliveries)
  | terminalizeExecutable executable reason now =>
      exact (terminalizeWhere_evolves done).arrives
  | terminalizePlugin pluginId reason now =>
      exact (terminalizeWhere_evolves done).arrives
  | terminalizePermissionRevoked pluginId revoked now =>
      exact (terminalizePermissionRevoked_evolves done).arrives
  | compactTerminalOverQuota now =>
      cases done
      apply Evolves.arrives
      exact fold_evolves
        (fun _ pluginId => enforceTerminalQuotas_evolves now pluginId) _
  | pruneTerminalReceipts before =>
      cases done
      apply Evolves.arrives
      exact fold_evolves
        (fun _ row => (pruneTerminalRow_shrinks row _ before).evolves) _

theorem apply_arrives (host : RepositoryHost) (kept : Kept quota db)
    (op : RepositoryOp) : Arrives op db (db.apply host quota op) := by
  unfold apply
  split
  · rename_i next done
    exact perform_arrives kept done
  · exact (Evolves.refl db).arrives

end PostDatabase

end Motrix.PostDelivery
