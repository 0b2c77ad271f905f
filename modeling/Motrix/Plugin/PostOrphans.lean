import Motrix.Lib.Trace
import Motrix.Plugin.PostPermits
import Motrix.Plugin.PostScheduler

/-!
# Deliveries nobody attends to

Leases are reclaimed once in a process, when it recovers.  As long as that
leaves no delivery behind and every execution takes its own delivery out of its
lease, a delivering row has an execution, and an iteration that ends without
executions leaves no expired lease.
-/

namespace Motrix.PostDelivery

open Motrix.Lib

namespace PostDatabase

variable {host : RepositoryHost} {quota : PostDeliveryQuotaConfig}
  {db next : PostDatabase}

instance (db : PostDatabase) (deliveryId leaseToken : String) :
    Decidable (Owns db deliveryId leaseToken) :=
  inferInstanceAs (Decidable (∃ row ∈ db.deliveries, _))

/-! ## Delivering rows through an operation -/

/-- Without a claim no row becomes delivering. -/
theorem Arrives.delivering {op : RepositoryOp} (arrives : Arrives op db next)
    (unclaiming : op.claimToken = none) {found : RawDeliveryRow}
    (inside : found ∈ next.deliveries)
    (delivering : found.status = .delivering) : found ∈ db.deliveries := by
  rcases arrives.rows found inside with ⟨row, there, reached⟩ | ⟨_, _, apart⟩
  · rcases RowStep.reached_delivering delivering reached with
      same | ⟨_, claimed⟩
    · rw [same]
      exact there
    · exact absurd unclaiming claimed
  · exact absurd delivering apart

/-- Rewriting the rows held under a token leaves nobody the token. -/
theorem rewrite_disowned {deliveryId leaseToken : String}
    {chosen : RawDeliveryRow → Bool}
    {change : RawDeliveryRow → RawDeliveryRow}
    (covers : ∀ row, heldBy deliveryId leaseToken row = true →
      chosen row = true)
    (leaves : ∀ row, (change row).status ≠ .delivering) :
    ¬Owns (db.updateDeliveries chosen change).2 deliveryId leaseToken := by
  rintro ⟨found, inside, same, delivering, owner⟩
  rcases Table.of_mem_rewrite inside with
    ⟨row, _, _, changed⟩ | ⟨_, unchosen⟩
  · rw [← changed] at delivering
    exact leaves row delivering
  · have held := heldBy_iff.mpr ⟨same, delivering, owner⟩
    exact Bool.noConfusion (unchosen.symm.trans (covers found held))

theorem Owns.of_subset {deliveryId leaseToken : String}
    (owns : Owns next deliveryId leaseToken)
    (within : next.deliveries ⊆ db.deliveries) :
    Owns db deliveryId leaseToken := by
  obtain ⟨row, inside, holds⟩ := owns
  exact ⟨row, within inside, holds⟩

theorem not_owns_of_none (balanced : Balanced db)
    {deliveryId leaseToken : String}
    (lost : db.ownedRow deliveryId leaseToken = none) :
    ¬Owns db deliveryId leaseToken := by
  rintro ⟨row, inside, same, holds⟩
  unfold ownedRow at lost
  split at lost
  · rename_i missing
    have apart := List.find?_eq_none.mp missing row inside
    exact apart (beq_iff_eq.mpr same)
  · rename_i other found
    obtain ⟨among, sameId⟩ := readRawDelivery_some found
    rw [balanced.distinct.eq among inside (sameId.trans same.symm),
      if_pos holds] at lost
    cases lost

/-- The operation closes a delivery under its lease and permit. -/
inductive Closes (deliveryId leaseToken pluginId : String)
    (permit : PostDeliveryBreakerPermit) : RepositoryOp → Prop
  | complete (completedAt now : Int) :
      Closes deliveryId leaseToken pluginId permit
        (.complete ⟨deliveryId, leaseToken, completedAt⟩
          ⟨pluginId, permit, now⟩)
  | retry (nextAttemptAt failedAt now : Int) (threshold : Nat)
      (windowMs pauseMs : Int) :
      Closes deliveryId leaseToken pluginId permit
        (.retry ⟨deliveryId, leaseToken, nextAttemptAt, failedAt⟩
          ⟨pluginId, permit, now, threshold, windowMs, pauseMs⟩)
  | deadLetter (superseded : Bool) (reason : PostDeliveryPermanentReason)
      (completedAt : Int) :
      Closes deliveryId leaseToken pluginId permit
        (.deadLetter ⟨deliveryId, leaseToken, superseded, reason, completedAt⟩
          pluginId permit)

theorem terminalizeRow_disowns {row : RawDeliveryRow}
    {reason : PostDeliveryPermanentReason} {now : Int}
    {status : PostDeliveryStatus} (ends : isTerminalStatus status = true)
    (done : db.terminalizeRow host quota row reason now status = .ok next)
    (leaseToken : String) : ¬Owns next row.deliveryId leaseToken := by
  obtain ⟨receipt, _, done⟩ := bind_eq_ok.mp done
  obtain ⟨room, _, done⟩ := bind_eq_ok.mp done
  have disowned : ¬Owns (room.updateDeliveries
      (fun other => other.deliveryId == row.deliveryId && other.isActive)
      (endedRow status receipt (some reason) now)).2 row.deliveryId
        leaseToken := by
    apply rewrite_disowned
    · intro other held
      obtain ⟨same, delivering, _⟩ := heldBy_iff.mp held
      rw [delivering_active delivering, Bool.and_true]
      exact beq_iff_eq.mpr same
    · intro other delivering
      rw [show status = .delivering from delivering] at ends
      cases ends
  dsimp only at done
  split at done
  · cases done
    exact disowned
  · cases done
    exact disowned

theorem complete_disowns (kept : Kept quota db)
    {input : CompletePostDeliveryInput} {breaker : CompleteBreakerInput}
    {answer : Bool}
    (current : db.breakerPermitIsCurrent breaker.pluginId breaker.permit =
      true)
    (done : db.complete host quota input breaker = .ok (answer, next)) :
    ¬Owns next input.deliveryId input.leaseToken := by
  unfold complete at done
  rw [if_neg (by rw [current]; exact Bool.noConfusion)] at done
  split at done
  · rename_i lost
    cases done
    exact not_owns_of_none kept.balanced lost
  · obtain ⟨receipt, _, done⟩ := bind_eq_ok.mp done
    obtain ⟨room, _, done⟩ := bind_eq_ok.mp done
    have disowned : ¬Owns (room.updateDeliveries
        (heldBy input.deliveryId input.leaseToken)
        (endedRow .delivered receipt none breaker.now)).2 input.deliveryId
          input.leaseToken :=
      rewrite_disowned (fun _ held => held)
        (fun _ delivering => by cases delivering)
    dsimp only at done
    split at done
    · cases done
      exact disowned
    · cases done
      intro owns
      have before := owns.of_subset (enforceTurns_shrinks _ _ _).rows
      refine disowned (before.of_subset ?_)
      rw [closeBreaker_deliveries]
      exact List.Subset.refl _

theorem deadLetter_disowns (kept : Kept quota db)
    {input : DeadLetterPostDeliveryInput} {pluginId : String}
    {permit : PostDeliveryBreakerPermit} {answer : Bool}
    (current : db.breakerPermitIsCurrent pluginId permit = true)
    (done : db.deadLetter host quota input pluginId permit =
      .ok (answer, next)) :
    ¬Owns next input.deliveryId input.leaseToken := by
  unfold deadLetter at done
  rw [if_neg (by rw [current]; exact Bool.noConfusion)] at done
  split at done
  · rename_i lost
    cases done
    exact not_owns_of_none kept.balanced lost
  · rename_i row owned
    obtain ⟨ended, stepped, done⟩ := bind_eq_ok.mp done
    have ends : isTerminalStatus
        (if input.superseded then .superseded else .deadLetter) = true := by
      split
      · rfl
      · rfl
    have disowned := terminalizeRow_disowns ends stepped input.leaseToken
    rw [(ownedRow_some owned).2.1] at disowned
    cases done
    intro owns
    have before := owns.of_subset (enforceTurns_shrinks _ _ _).rows
    refine disowned (before.of_subset ?_)
    rw [closeBreaker_deliveries]
    exact List.Subset.refl _

theorem retry_disowns {input : RetryPostDeliveryInput}
    {breaker : BreakerFailureInput}
    (current : db.breakerPermitIsCurrent breaker.pluginId breaker.permit =
      true) :
    ¬Owns (db.retry input breaker).2 input.deliveryId input.leaseToken := by
  have disowned : ¬Owns (db.updateDeliveries
      (heldBy input.deliveryId input.leaseToken) fun row =>
        { row with
          status := .pending
          leaseOwner := none
          leaseExpiresAt := none
          nextAttemptAt := input.nextAttemptAt
          updatedAt := input.failedAt }).2 input.deliveryId
            input.leaseToken :=
    rewrite_disowned (fun _ held => held)
      (fun _ delivering => by cases delivering)
  unfold retry
  rw [if_neg (by rw [current]; exact Bool.noConfusion)]
  dsimp only
  split
  · exact disowned
  · exact disowned

/-- A delivery closed under the current permit is owned no longer. -/
theorem Closes.disowns (kept : Kept quota db)
    {deliveryId leaseToken pluginId : String}
    {permit : PostDeliveryBreakerPermit} {op : RepositoryOp}
    (closes : Closes deliveryId leaseToken pluginId permit op)
    (current : db.breakerPermitIsCurrent pluginId permit = true)
    (done : db.perform host quota op = .ok next) :
    ¬Owns next deliveryId leaseToken := by
  cases closes with
  | complete completedAt now =>
      obtain ⟨answer, completed⟩ := map_snd_ok done
      exact complete_disowns kept current completed
  | retry nextAttemptAt failedAt now threshold windowMs pauseMs =>
      cases done
      exact retry_disowns current
  | deadLetter superseded reason completedAt =>
      obtain ⟨answer, buried⟩ := map_snd_ok done
      exact deadLetter_disowns kept current buried

theorem Closes.unclaiming {deliveryId leaseToken pluginId : String}
    {permit : PostDeliveryBreakerPermit} {op : RepositoryOp}
    (closes : Closes deliveryId leaseToken pluginId permit op) :
    op.claimToken = none := by
  cases closes with
  | complete => rfl
  | retry => rfl
  | deadLetter => rfl

end PostDatabase

open PostDatabase

theorem Execution.makePermanent_closes (execution : Execution)
    (reason : PostDeliveryPermanentReason) (completedAt : Int) :
    Closes execution.record.deliveryId execution.leaseToken
      execution.record.pluginId execution.permit
      (execution.makePermanent reason completedAt) :=
  .deadLetter _ reason completedAt

theorem Execution.makeRetryable_closes (config : PostDeliverySchedulerConfig)
    (execution : Execution) (answers : Answers) :
    Closes execution.record.deliveryId execution.leaseToken
      execution.record.pluginId execution.permit
      (execution.makeRetryable config answers) := by
  unfold makeRetryable
  dsimp only
  split
  · exact execution.makePermanent_closes _ _
  · exact .retry _ _ _ _ _ _

/-- Whatever the answers, an execution ends in one closing transition. -/
theorem Execution.closing_closes (config : PostDeliverySchedulerConfig)
    (execution : Execution) (answers : Answers) :
    Closes execution.record.deliveryId execution.leaseToken
      execution.record.pluginId execution.permit
      (execution.closing config answers) := by
  unfold closing
  dsimp only
  split
  · exact execution.makePermanent_closes _ _
  · split
    · exact execution.makePermanent_closes _ _
    · split
      · exact execution.makeRetryable_closes config answers
      · exact execution.makePermanent_closes _ _
      · split
        · exact execution.makePermanent_closes _ _
        · split
          · exact execution.makeRetryable_closes config answers
          · exact execution.makePermanent_closes _ _
          · exact execution.makeRetryable_closes config answers
          · exact execution.makeRetryable_closes config answers
          · exact .complete _ _

/-! ## Worlds in which deliveries are attended to -/

/-- Recovery has got past the reclaiming of leases. -/
def Phase.isPast : Phase → Bool
  | .idle => false
  | .reconciling => false
  | .reclaiming => false
  | _ => true

namespace World

variable {host : RepositoryHost} {quota : PostDeliveryQuotaConfig}
  {config : PostDeliverySchedulerConfig} {world : World}

def Attended (world : World) : Prop :=
  ∀ row ∈ world.db.deliveries, row.status = .delivering →
    ∃ execution ∈ world.scheduler.executions,
      execution.record.deliveryId = row.deliveryId ∧
      row.leaseOwner = some execution.leaseToken

def Serves (scheduler : Scheduler) : Prop :=
  scheduler.recovered = true ∨ scheduler.phase.isPast = true

structure Tended (quota : PostDeliveryQuotaConfig) (world : World) : Prop where
  kept : Kept quota world.db
  attended : Serves world.scheduler → Attended world

/-- Nothing new is delivering, and nothing is dropped. -/
theorem Attended.congr (attended : Attended world) {next : World}
    (rows : ∀ row ∈ next.db.deliveries, row.status = .delivering →
      row ∈ world.db.deliveries)
    (executions : world.scheduler.executions ⊆ next.scheduler.executions) :
    Attended next := by
  intro row inside delivering
  obtain ⟨execution, running, owner⟩ :=
    attended row (rows row inside delivering) delivering
  exact ⟨execution, executions running, owner⟩

theorem fail_tended (tended : Tended quota world) :
    Tended quota world.fail where
  kept := tended.kept
  attended serves := by
    apply tended.attended
    rcases serves with recovered | isPast
    · exact Or.inl recovered
    · cases isPast

theorem transact_tended (tended : Tended quota world) {fails : Bool}
    {op : RepositoryOp} (unclaiming : op.claimToken = none)
    {next : Scheduler}
    (executions : next.executions = world.scheduler.executions)
    (serves : Serves next → Serves world.scheduler) :
    Tended quota (world.transact host quota fails op next) := by
  unfold transact
  split
  · exact fail_tended tended
  · split
    · exact fail_tended tended
    · rename_i db done
      constructor
      · exact (perform_sane host tended.kept op).kept db done
      · intro serving
        apply (tended.attended (serves serving)).congr
        · intro row inside delivering
          exact (perform_arrives tended.kept done).delivering unclaiming
            inside delivering
        · intro execution running
          exact executions ▸ running

end World

/-! ## What the batch does to the executions -/

namespace Scheduler

variable {config : PostDeliverySchedulerConfig}

theorem close_executions (scheduler : Scheduler) (claimed : Nat) :
    (scheduler.close claimed).executions = scheduler.executions := by
  unfold close
  split
  · rfl
  · rfl

theorem again_executions (scheduler : Scheduler) (claimed : Nat) :
    (scheduler.again config claimed).executions = scheduler.executions := by
  unfold again
  split
  · exact close_executions scheduler claimed
  · split
    · rfl
    · rfl

theorem drain_executions (scheduler : Scheduler) :
    (scheduler.drain config).executions = scheduler.executions :=
  again_executions { scheduler with batch := scheduler.batch + 1 } 0

theorem pass_executions (scheduler : Scheduler) (claimed : Nat)
    (queue : List String) (launched : Bool) :
    (scheduler.pass config claimed queue launched).executions =
      scheduler.executions := by
  unfold pass
  dsimp only
  split
  · split
    · rfl
    · split
      · rfl
      · exact again_executions scheduler claimed
  · rfl

theorem settle_executions (scheduler : Scheduler) (batch : Nat) :
    (scheduler.settle config batch).executions = scheduler.executions := by
  unfold settle
  split
  · split
    · exact again_executions scheduler _
    · rfl
  · exact close_executions scheduler _
  · rfl

theorem settle_serves {scheduler : Scheduler} {batch : Nat}
    (serves : World.Serves (scheduler.settle config batch)) :
    World.Serves scheduler := by
  unfold settle at serves
  split at serves
  · rename_i phase
    exact Or.inr (by rw [phase]; rfl)
  · rename_i phase
    exact Or.inr (by rw [phase]; rfl)
  · exact serves

end Scheduler

namespace World

variable {host : RepositoryHost} {quota : PostDeliveryQuotaConfig}
  {config : PostDeliverySchedulerConfig} {world : World}

/-! ## The rule -/

/-- Every delivering row is under a lease that expired before recovery. -/
def LeasesExpired (world : World) : Prop :=
  ∀ row ∈ world.db.deliveries, row.status = .delivering →
    row.leaseExpiresAt.any (· ≤ world.scheduler.begunAt) = true

/-- The execution closes the delivery it still owns. -/
def ClosesOwn (host : RepositoryHost) (quota : PostDeliveryQuotaConfig)
    (config : PostDeliverySchedulerConfig) (db : PostDatabase)
    (execution : Execution) (answers : Answers) (fails : Bool) : Prop :=
  Owns db execution.record.deliveryId execution.leaseToken →
    fails = false ∧
    db.breakerPermitIsCurrent execution.record.pluginId execution.permit =
      true ∧
    (db.perform host quota (execution.closing config answers)).isOk = true

def ClosesFound (host : RepositoryHost) (quota : PostDeliveryQuotaConfig)
    (config : PostDeliverySchedulerConfig) (db : PostDatabase)
    (answers : Answers) (fails : Bool) : Option Execution → Prop
  | none => True
  | some execution =>
      ClosesOwn host quota config db execution answers fails

/-- Recovery finds no lease that is still running, and no execution fails to
close the delivery it owns. -/
def Careful (host : RepositoryHost) (quota : PostDeliveryQuotaConfig)
    (config : PostDeliverySchedulerConfig) (world : World) :
    SchedulerEvent → Prop
  | .reclaimed fails =>
      world.scheduler.phase = .reclaiming → fails = false →
        LeasesExpired world
  | .closed index answers fails =>
      ClosesFound host quota config world.db answers fails
        world.scheduler.executions[index]?
  | _ => True

/-! ## One step -/

theorem recover_none {db : PostDatabase} {now : Int}
    (expired : ∀ row ∈ db.deliveries, row.status = .delivering →
      row.leaseExpiresAt.any (· ≤ now) = true) :
    ∀ row ∈ (db.recoverExpiredLeases now).deliveries,
      row.status ≠ .delivering := by
  intro found inside delivering
  rcases Table.of_mem_rewrite inside with
    ⟨row, _, _, changed⟩ | ⟨there, unchosen⟩
  · rw [← changed] at delivering
    cases delivering
  · have lapsed := expired found there delivering
    rw [delivering] at unchosen
    cases lease : found.leaseExpiresAt with
    | none =>
        rw [lease] at lapsed
        cases lapsed
    | some expiresAt =>
        rw [lease] at lapsed unchosen
        exact Bool.noConfusion (unchosen.symm.trans lapsed)

theorem reclaimed_tended (tended : Tended quota world) {fails : Bool}
    (expired : fails = false → LeasesExpired world) :
    Tended quota (world.transact host quota fails
      (.recoverExpiredLeases world.scheduler.begunAt)
      (world.goTo (.compacting true world.scheduler.begunAt))) := by
  unfold transact
  split
  · exact fail_tended tended
  · rename_i succeeds
    constructor
    · exact recoverExpiredLeases_kept tended.kept _
    · intro _ row inside delivering
      rw [Bool.not_eq_true] at succeeds
      exact absurd delivering (recover_none (expired succeeds) row inside)

theorem acquired_tended (tended : Tended quota world)
    (serves : Serves world.scheduler) (pluginId : String) (now : Int)
    (token : String) (leaseExpiresAt : Int) {next : Scheduler}
    (executions : next.executions = world.scheduler.executions) :
    Tended quota
      { db := (world.db.acquireBreakerPermit pluginId now token
          leaseExpiresAt).2
        scheduler := next } where
  kept := acquireBreakerPermit_kept tended.kept pluginId now token _
  attended _ := by
    apply (tended.attended serves).congr
    · intro row inside _
      have same : (world.db.acquireBreakerPermit pluginId now token
          leaseExpiresAt).2.deliveries = world.db.deliveries :=
        acquireBreakerPermit_deliveries pluginId now token leaseExpiresAt
      exact same ▸ inside
    · intro execution running
      exact executions ▸ running

/-- The delivery that is claimed is executed. -/
theorem claimed_tended (tended : Tended quota world)
    (serves : Serves world.scheduler) {input : ClaimPostDeliveryInput}
    {readable : Bool} {answer : Option RawDeliveryRow} {db : PostDatabase}
    (done : world.db.claimNextForPlugin host quota input readable =
      .ok (answer, db)) {next : Scheduler}
    (executions : world.scheduler.executions ⊆ next.executions)
    (launched : ∀ record, answer = some record →
      ∃ execution ∈ next.executions,
        execution.record.deliveryId = record.deliveryId ∧
        execution.leaseToken = input.leaseToken) :
    Tended quota
      { db := db
        scheduler := next } := by
  have grants := claimTurns_grants tended.kept done
  have sane : Sane quota True ((world.db.claimNextForPlugin host quota input
    readable).map Prod.snd) := claimTurns_sane host tended.kept input readable _
  constructor
  · apply sane.kept
    rw [done]
    rfl
  · intro _ row inside delivering
    rcases grants.delivering row inside delivering with old | isNew
    · obtain ⟨execution, running, owner⟩ :=
        tended.attended serves row old delivering
      exact ⟨execution, executions running, owner⟩
    · obtain ⟨_, raw, _, _, _, isClaimed⟩ := grants.granted row isNew
      obtain ⟨execution, running, same, token⟩ := launched row isNew
      refine ⟨execution, running, same, ?_⟩
      rw [isClaimed, token]
      rfl

theorem closed_tended (tended : Tended quota world) {index : Nat}
    {execution : Execution} {answers : Answers} {fails : Bool}
    (found : world.scheduler.executions[index]? = some execution)
    (closes : ClosesOwn host quota config world.db execution answers fails) :
    Tended quota
      { db :=
          if fails then world.db
          else world.db.apply host quota (execution.closing config answers)
        scheduler :=
          { world.scheduler with
            executions := world.scheduler.executions.eraseIdx index }.settle
              config execution.batch } := by
  let op := execution.closing config answers
  have isClosing := execution.closing_closes config answers
  let db := if fails then world.db else world.db.apply host quota op
  have kept : Kept quota db := by
    show Kept quota (if fails then world.db else _)
    split
    · exact tended.kept
    · exact apply_kept host tended.kept op
  have rows : ∀ row ∈ db.deliveries, row.status = .delivering →
      row ∈ world.db.deliveries := by
    intro row inside delivering
    change row ∈ (if fails then world.db
      else world.db.apply host quota op).deliveries at inside
    split at inside
    · exact inside
    · exact (apply_arrives host tended.kept op).delivering
        isClosing.unclaiming inside delivering
  have disowned : ¬Owns db execution.record.deliveryId
      execution.leaseToken := by
    intro owns
    obtain ⟨row, inside, same, delivering, owner⟩ := owns
    have before : Owns world.db execution.record.deliveryId
        execution.leaseToken :=
      ⟨row, rows row inside delivering, same, delivering, owner⟩
    obtain ⟨succeeds, current, performed⟩ := closes before
    obtain ⟨next, done⟩ := exists_ok_of_isOk performed
    have isNext : db = next := by
      show (if fails then world.db else world.db.apply host quota op) = next
      rw [succeeds]
      show world.db.apply host quota op = next
      unfold PostDatabase.apply
      rw [done]
    apply isClosing.disowns tended.kept current done
    rw [← isNext]
    exact ⟨row, inside, same, delivering, owner⟩
  refine ⟨kept, ?_⟩
  intro serves row inside delivering
  have before : Serves { world.scheduler with
      executions := world.scheduler.executions.eraseIdx index } :=
    Scheduler.settle_serves serves
  obtain ⟨other, running, same, owner⟩ :=
    tended.attended before row (rows row inside delivering) delivering
  rw [Scheduler.settle_executions]
  refine ⟨other, ?_, same, owner⟩
  obtain ⟨place, at_place⟩ := List.mem_iff_getElem?.mp running
  apply List.mem_eraseIdx_iff_getElem?.mpr
  refine ⟨place, ?_, at_place⟩
  rintro rfl
  cases at_place.symm.trans found
  exact disowned ⟨row, inside, same.symm, delivering, owner⟩

theorem step_tended (host : RepositoryHost)
    (config : PostDeliverySchedulerConfig) (tended : Tended quota world)
    {event : SchedulerEvent}
    (careful : Careful host quota config world event) :
    Tended quota (world.step host quota config event) := by
  cases event with
  | begin now =>
      unfold step
      dsimp only
      split
      · refine ⟨tended.kept, ?_⟩
        rintro (recovered | isPast)
        · exact tended.attended (Or.inl recovered)
        · dsimp only at isPast
          split at isPast
          · rename_i recovered
            exact tended.attended (Or.inl recovered)
          · cases isPast
      · exact tended
  | reconciled fails =>
      unfold step
      dsimp only
      split
      · refine transact_tended tended ?_ ?_ ?_
        · rfl
        · rfl
        · rintro (recovered | isPast)
          · exact Or.inl recovered
          · cases isPast
      · exact tended
  | reclaimed fails =>
      unfold step
      dsimp only
      split
      · rename_i reclaiming
        exact reclaimed_tended tended (careful reclaiming)
      · exact tended
  | compacted now fails =>
      unfold step
      dsimp only
      split
      · rename_i phase
        refine transact_tended tended ?_ ?_ ?_
        · rfl
        · rfl
        · exact fun _ => Or.inr (by rw [phase]; rfl)
      · exact tended
  | pruned fails =>
      unfold step
      dsimp only
      split
      · rename_i phase
        apply transact_tended tended rfl
        · split
          · rfl
          · exact Scheduler.drain_executions _
        · exact fun _ => Or.inr (by rw [phase]; rfl)
      · exact tended
  | maintainIfDue now =>
      unfold step
      dsimp only
      split
      · rename_i phase
        have attended := tended.attended (Or.inr (by rw [phase]; rfl))
        refine ⟨tended.kept, fun _ => attended.congr ?_ ?_⟩
        · exact fun _ inside _ => inside
        · intro execution running
          dsimp only
          split
          · rw [Scheduler.drain_executions]
            exact running
          · exact running
      · exact tended
  | listed now fails =>
      unfold step
      dsimp only
      split
      · rename_i phase
        split
        · exact fail_tended tended
        · have attended := tended.attended (Or.inr (by rw [phase]; rfl))
          refine ⟨tended.kept, fun _ => attended.congr ?_ ?_⟩
          · exact fun _ inside _ => inside
          · intro execution running
            rw [Scheduler.pass_executions]
            exact running
      · exact tended
  | acquired now token fails =>
      unfold step
      dsimp only
      split
      · rename_i phase
        split
        · exact fail_tended tended
        · apply acquired_tended tended (Or.inr (by rw [phase]; rfl))
          split
          · exact Scheduler.pass_executions _ _ _ _
          · rfl
      · exact tended
  | claimed leaseToken readable fails =>
      unfold step
      dsimp only
      split
      · rename_i phase
        have serves : Serves world.scheduler := Or.inr (by rw [phase]; rfl)
        have waits : ∀ scheduler : Scheduler,
            scheduler.executions = world.scheduler.executions →
            Tended quota { world with scheduler := scheduler } := by
          intro scheduler same
          refine ⟨tended.kept, fun _ => (tended.attended serves).congr ?_ ?_⟩
          · exact fun _ inside _ => inside
          · exact fun execution running => same ▸ running
        split
        · exact waits _ rfl
        · split
          · exact waits _ rfl
          · rename_i done
            refine claimed_tended tended serves done ?_ ?_
            · exact List.Subset.refl _
            · intro record answered
              cases answered
          · rename_i done
            apply claimed_tended tended serves done
            · rw [Scheduler.pass_executions]
              exact List.subset_append_left _ _
            · rintro record ⟨⟩
              rw [Scheduler.pass_executions]
              exact ⟨_, List.mem_append_right _ (List.mem_singleton_self _),
                rfl, rfl⟩
      · exact tended
  | released fails =>
      unfold step
      dsimp only
      split
      · rename_i phase
        apply transact_tended tended rfl
        · split
          · rfl
          · exact Scheduler.pass_executions _ _ _ _
        · exact fun _ => Or.inr (by rw [phase]; rfl)
      · exact tended
  | closed index answers fails =>
      unfold step
      dsimp only
      split
      · exact tended
      · rename_i execution found
        have closes : ClosesFound host quota config world.db answers fails
          world.scheduler.executions[index]? := careful
        rw [found] at closes
        exact closed_tended tended found closes
  | crash =>
      refine ⟨tended.kept, ?_⟩
      rintro (recovered | isPast)
      · cases recovered
      · cases isPast
  | outside op =>
      unfold step
      dsimp only
      split
      · rename_i isOutside
        have unclaiming : op.claimToken = none := by
          cases op with
          | claimNextForPlugin => cases isOutside
          | _ => rfl
        refine ⟨apply_kept host tended.kept op, ?_⟩
        intro serves
        apply (tended.attended serves).congr
        · intro row inside delivering
          exact (apply_arrives host tended.kept op).delivering unclaiming
            inside delivering
        · exact List.Subset.refl _
      · exact tended

/-! ## Runs -/

/-- Where an iteration has ended and no execution is left, no row is
delivering under a lease that had expired when the iteration began. -/
def Unorphaned (world : World) : Prop :=
  world.scheduler.phase = .ended → world.scheduler.executions = [] →
    ∀ row ∈ world.db.deliveries, row.status = .delivering →
      ∀ expiresAt, row.leaseExpiresAt = some expiresAt →
        world.scheduler.begunAt < expiresAt

theorem Tended.unorphaned (tended : Tended quota world) :
    Unorphaned world := by
  intro ended finished row inside delivering
  obtain ⟨execution, running, _⟩ := tended.attended
    (Or.inr (by rw [ended]; rfl)) row inside delivering
  rw [finished] at running
  cases running

theorem run_unorphaned (host : RepositoryHost)
    (quota : PostDeliveryQuotaConfig) (config : PostDeliverySchedulerConfig)
    {events : List SchedulerEvent}
    (careful : Steps (step host quota config) (Careful host quota config) {}
      events) :
    Unorphaned (run host quota config {} events) := by
  have initial : Tended quota {} := by
    refine ⟨initial_kept quota, ?_⟩
    intro _ row inside
    cases inside
  have steps : ∀ world event, Tended quota world →
      Careful host quota config world event →
      Tended quota (step host quota config world event) :=
    fun _ _ tended careful => step_tended host config tended careful
  have tended : Tended quota (run host quota config {} events) :=
    Steps.invariant steps initial careful
  exact tended.unorphaned

/-! ## A restart within the lease -/

def soleAdmission : RepositoryOp :=
  .admitMany [(twinAdmission "first" 1000, twinCapacity)]

/-- Recovery, maintenance and a batch that claims what there is. -/
def claimingIteration (now : Int) (leaseToken : String) :
    List SchedulerEvent :=
  [.begin now, .reconciled false, .reclaimed false, .compacted now false,
    .pruned false, .maintainIfDue now, .listed now false,
    .acquired now "permit" false, .claimed leaseToken true false]

/-- Recovery, maintenance and a batch that finds nothing to claim. -/
def recoveringIteration (now : Int) : List SchedulerEvent :=
  [.begin now, .reconciled false, .reclaimed false, .compacted now false,
    .pruned false, .maintainIfDue now, .listed now false]

/-- An iteration of a process that has recovered. -/
def laterIteration (now : Int) : List SchedulerEvent :=
  [.begin now, .maintainIfDue now, .listed now false]

def restartingRun : List SchedulerEvent :=
  .outside soleAdmission :: claimingIteration 1000 "lease-1" ++
    .crash :: recoveringIteration 2000 ++ laterIteration 200000

def deliveringRun : List SchedulerEvent :=
  .outside soleAdmission :: claimingIteration 1000 "lease-1" ++
    [.closed 0
      { startedAt := 1000
        failedAt := 1500
        completedAt := 1500
        delayMs := 1000
        decision := .authorized [] (.success true) } false,
      .listed 1500 false] ++
    laterIteration 200000

instance (world : World) : Decidable (LeasesExpired world) :=
  inferInstanceAs (Decidable (∀ row ∈ world.db.deliveries, _ → _))

instance (db : PostDatabase) (execution : Execution) (answers : Answers)
    (fails : Bool) :
    Decidable (ClosesOwn host quota config db execution answers fails) :=
  inferInstanceAs (Decidable (_ → _))

instance (db : PostDatabase) (answers : Answers) (fails : Bool) :
    ∀ found, Decidable (ClosesFound host quota config db answers fails found)
  | none => inferInstanceAs (Decidable True)
  | some execution => inferInstanceAs
      (Decidable (ClosesOwn host quota config db execution answers fails))

instance (world : World) :
    ∀ event, Decidable (Careful host quota config world event)
  | .reclaimed _ => inferInstanceAs (Decidable (_ → _ → _))
  | .closed index answers fails => inferInstanceAs
      (Decidable (ClosesFound host quota config world.db answers fails
        world.scheduler.executions[index]?))
  | .begin _ => isTrue trivial
  | .reconciled _ => isTrue trivial
  | .compacted _ _ => isTrue trivial
  | .pruned _ => isTrue trivial
  | .maintainIfDue _ => isTrue trivial
  | .listed _ _ => isTrue trivial
  | .acquired _ _ _ => isTrue trivial
  | .claimed _ _ _ => isTrue trivial
  | .released _ => isTrue trivial
  | .crash => isTrue trivial
  | .outside _ => isTrue trivial

theorem deliveringRun_unorphaned :
    Unorphaned (run ⟨fun text => text⟩ DEFAULT_POST_DELIVERY_QUOTA_CONFIG
      DEFAULT_POST_DELIVERY_SCHEDULER_CONFIG {} deliveringRun) :=
  run_unorphaned _ _ _ (by decide +kernel)

/-- The process restarts before the lease of its delivery has expired, and an
iteration long after that ends with the delivery still under the lease. -/
theorem restart_orphans :
    let world := run ⟨fun text => text⟩ DEFAULT_POST_DELIVERY_QUOTA_CONFIG
      DEFAULT_POST_DELIVERY_SCHEDULER_CONFIG {} restartingRun
    world.scheduler.phase = .ended ∧ world.scheduler.executions = [] ∧
    world.scheduler.begunAt = 200000 ∧
    world.db.deliveries.map (fun row => (row.status, row.leaseExpiresAt)) =
      [(.delivering, some 121000)] := by
  decide +kernel

end World

end Motrix.PostDelivery
