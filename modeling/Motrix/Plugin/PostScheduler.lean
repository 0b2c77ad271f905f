import Motrix.Plugin.PostLeases

/-!
# The scheduler of post-deliveries

One process recovers, maintains and drains in a loop, while the deliveries it
has claimed are executed beside it.  A crash leaves the database and forgets
everything else.
-/

namespace Motrix.PostDelivery

open Motrix.Lib

/-! ## Configuration -/

/-- A configuration `PostDeliverySchedulerConfigSchema` accepts; the delays of
the retries are given with the answers of a delivery. -/
structure PostDeliverySchedulerConfig where
  leaseMs : Int
  claimBatch : Nat
  globalWorkers : Nat
  maxAttempts : Nat
  maxActiveAgeMs : Int
  terminalRetentionMs : Int
  breakerThreshold : Nat
  breakerWindowMs : Int
  breakerPauseMs : Int
  leaseMsRange : 30000 ≤ leaseMs ∧ leaseMs ≤ 10 * 60000
  claimBatchRange : 1 ≤ claimBatch ∧ claimBatch ≤ 256
  globalWorkersRange : 1 ≤ globalWorkers ∧ globalWorkers ≤ 32
  maxAttemptsRange : 1 ≤ maxAttempts ∧ maxAttempts ≤ 32
  maxActiveAgeMsRange : 60 * 60000 ≤ maxActiveAgeMs ∧
    maxActiveAgeMs ≤ 30 * 24 * 60 * 60000
  terminalRetentionMsRange : 24 * 60 * 60000 ≤ terminalRetentionMs ∧
    terminalRetentionMs ≤ 90 * 24 * 60 * 60000
  breakerThresholdRange : 1 ≤ breakerThreshold ∧ breakerThreshold ≤ 100
  breakerWindowMsRange : 60000 ≤ breakerWindowMs ∧
    breakerWindowMs ≤ 60 * 60000
  breakerPauseMsRange : 60000 ≤ breakerPauseMs ∧
    breakerPauseMs ≤ 24 * 60 * 60000

def DEFAULT_POST_DELIVERY_SCHEDULER_CONFIG : PostDeliverySchedulerConfig where
  leaseMs := 120000
  claimBatch := 64
  globalWorkers := 8
  maxAttempts := 12
  maxActiveAgeMs := 7 * 24 * 60 * 60000
  terminalRetentionMs := 30 * 24 * 60 * 60000
  breakerThreshold := 5
  breakerWindowMs := 10 * 60000
  breakerPauseMs := 15 * 60000
  leaseMsRange := by decide
  claimBatchRange := by decide
  globalWorkersRange := by decide
  maxAttemptsRange := by decide
  maxActiveAgeMsRange := by decide
  terminalRetentionMsRange := by decide
  breakerThresholdRange := by decide
  breakerWindowMsRange := by decide
  breakerPauseMsRange := by decide

def MAINTENANCE_INTERVAL_MS : Int := 60 * 60000

/-! ## State -/

/-- A delivery that is being executed, with the batch that launched it. -/
structure Execution where
  record : RawDeliveryRow
  leaseToken : String
  permit : PostDeliveryBreakerPermit
  batch : Nat
  deriving DecidableEq

/-- Where a batch waits: for the list of plugins, for the permit of the first
plugin in the queue, for its claim, for the release of a permit, or for an
execution to end. -/
inductive Stage where
  | listing
  | acquiring (queue : List String) (launched : Bool)
  | claiming (pluginId : String) (permit : PostDeliveryBreakerPermit)
      (now : Int) (queue : List String) (launched : Bool)
  | releasing (pluginId : String) (permit : PostDeliveryBreakerPermit)
      (failed : Bool) (queue : List String) (launched : Bool)
  | racing
  | closing
  deriving DecidableEq

structure Batch where
  claimed : Nat
  stage : Stage
  deriving DecidableEq

/-- The step of the loop that is awaited; `ended` is an iteration that has
returned without an error. -/
inductive Phase where
  | idle
  | reconciling
  | reclaiming
  | compacting (recovery : Bool) (now : Int)
  | pruning (recovery : Bool) (now : Int)
  | due
  | draining (batch : Batch)
  | ended
  deriving DecidableEq

structure Scheduler where
  recovered : Bool := false
  nextMaintenanceAt : Int := 0
  cursor : Option String := none
  phase : Phase := .idle
  begunAt : Int := 0
  batch : Nat := 0
  executions : List Execution := []

structure World where
  db : PostDatabase := {}
  scheduler : Scheduler := {}

/-! ## The closing transition of an execution -/

inductive PostDeliveryInvocationResult where
  | threw
  | failure (isPermanent : Bool)
      (permanentReason : Option PostDeliveryPermanentReason)
  | success (receiptMatches : Bool)

/-- What the policy and then the plugin answer. -/
inductive PostDeliveryPolicyDecision where
  | threw
  | permanent (reason : PostDeliveryPermanentReason)
  | authorized (currentEffectivePermissions : List String)
      (invocation : PostDeliveryInvocationResult)

/-- The clock readings and answers of one execution. -/
structure Answers where
  startedAt : Int
  failedAt : Int
  completedAt : Int
  delayMs : Int
  decision : PostDeliveryPolicyDecision

def intersectPermissions (created current : List String) : List String :=
  (created.eraseDups.filter current.contains).mergeSort unitsLe

def missingRequiredPermissions (required effective : List String) :
    List String :=
  (required.eraseDups.filter fun permission =>
    !effective.contains permission).mergeSort unitsLe

namespace Execution

def makePermanent (execution : Execution)
    (reason : PostDeliveryPermanentReason) (completedAt : Int) :
    RepositoryOp :=
  .deadLetter
    { deliveryId := execution.record.deliveryId
      leaseToken := execution.leaseToken
      superseded := reason == .superseded
      reason := reason
      completedAt := completedAt }
    execution.record.pluginId execution.permit

def makeRetryable (config : PostDeliverySchedulerConfig)
    (execution : Execution) (answers : Answers) : RepositoryOp :=
  let record := execution.record
  if record.attemptCount ≥ config.maxAttempts ∨
      answers.failedAt - record.createdAt ≥ config.maxActiveAgeMs then
    execution.makePermanent
      (if record.attemptCount ≥ config.maxAttempts then .attemptLimit
        else .ageLimit) answers.completedAt
  else
    .retry
      { deliveryId := record.deliveryId
        leaseToken := execution.leaseToken
        nextAttemptAt := answers.failedAt + answers.delayMs
        failedAt := answers.failedAt }
      { pluginId := record.pluginId
        permit := execution.permit
        now := answers.failedAt
        threshold := config.breakerThreshold
        windowMs := config.breakerWindowMs
        pauseMs := config.breakerPauseMs }

def closing (config : PostDeliverySchedulerConfig) (execution : Execution)
    (answers : Answers) : RepositoryOp :=
  let record := execution.record
  if answers.startedAt - record.createdAt ≥ config.maxActiveAgeMs then
    execution.makePermanent .ageLimit answers.completedAt
  else if record.attemptCount > config.maxAttempts then
    execution.makePermanent .attemptLimit answers.completedAt
  else
    match answers.decision with
    | .threw => execution.makeRetryable config answers
    | .permanent reason => execution.makePermanent reason answers.completedAt
    | .authorized current invocation =>
        let effective :=
          intersectPermissions record.effectivePermissions current
        if missingRequiredPermissions record.requiredPermissions effective ≠
            [] then
          execution.makePermanent .permissionRevoked answers.completedAt
        else
          match invocation with
          | .threw => execution.makeRetryable config answers
          | .failure true reason =>
              execution.makePermanent (reason.getD .outputInvalid)
                answers.completedAt
          | .failure false _ => execution.makeRetryable config answers
          | .success false => execution.makeRetryable config answers
          | .success true =>
              .complete
                { deliveryId := record.deliveryId
                  leaseToken := execution.leaseToken
                  completedAt := answers.completedAt }
                { pluginId := record.pluginId
                  permit := execution.permit
                  now := answers.completedAt }

end Execution

/-! ## The batch between its awaits -/

namespace Scheduler

def running (scheduler : Scheduler) : List Execution :=
  scheduler.executions.filter (·.batch == scheduler.batch)

def runsPlugin (scheduler : Scheduler) (pluginId : String) : Bool :=
  scheduler.running.any (·.record.pluginId == pluginId)

def rotate (scheduler : Scheduler) (pluginIds : List String) : List String :=
  let sorted := pluginIds.eraseDups.mergeSort unitsLe
  match scheduler.cursor with
  | none => sorted
  | some cursor =>
      let before := sorted.takeWhile (unitsLe · cursor)
      let after := sorted.dropWhile (unitsLe · cursor)
      after ++ before

def await (scheduler : Scheduler) (claimed : Nat) (stage : Stage) :
    Scheduler :=
  { scheduler with
    phase := .draining
      { claimed := claimed
        stage := stage } }

/-- The last loop of a batch waits for the executions it has launched. -/
def close (scheduler : Scheduler) (claimed : Nat) : Scheduler :=
  if scheduler.running.isEmpty then { scheduler with phase := .ended }
  else scheduler.await claimed .closing

/-- The head of the outer loop of a batch. -/
def again (config : PostDeliverySchedulerConfig) (scheduler : Scheduler)
    (claimed : Nat) : Scheduler :=
  if claimed ≥ config.claimBatch then scheduler.close claimed
  else if scheduler.running.length < config.globalWorkers then
    scheduler.await claimed .listing
  else scheduler.await claimed .racing

/-- The queue from the first plugin that is to be claimed for. -/
def leftOf (config : PostDeliverySchedulerConfig) (scheduler : Scheduler)
    (claimed : Nat) (queue : List String) : List String :=
  if claimed ≥ config.claimBatch ∨
      scheduler.running.length ≥ config.globalWorkers then []
  else queue.dropWhile scheduler.runsPlugin

/-- The loop over the plugins, and what follows it. -/
def pass (config : PostDeliverySchedulerConfig) (scheduler : Scheduler)
    (claimed : Nat) (queue : List String) (launched : Bool) : Scheduler :=
  let left := scheduler.leftOf config claimed queue
  if left.isEmpty then
    if scheduler.running.isEmpty then { scheduler with phase := .ended }
    else if launched = false ∨
        scheduler.running.length ≥ config.globalWorkers then
      scheduler.await claimed .racing
    else scheduler.again config claimed
  else scheduler.await claimed (.acquiring left launched)

def drain (config : PostDeliverySchedulerConfig) (scheduler : Scheduler) :
    Scheduler :=
  { scheduler with batch := scheduler.batch + 1 }.again config 0

/-- An execution of the batch that is waited for has ended. -/
def settle (config : PostDeliverySchedulerConfig) (scheduler : Scheduler)
    (batch : Nat) : Scheduler :=
  match scheduler.phase with
  | .draining { claimed, stage := .racing } =>
      if batch = scheduler.batch then scheduler.again config claimed
      else scheduler
  | .draining { claimed, stage := .closing } => scheduler.close claimed
  | _ => scheduler

end Scheduler

/-! ## Steps -/

/-- Admissions and policy changes come from outside the scheduler. -/
def RepositoryOp.isOutside : RepositoryOp → Bool
  | .admitMany _ => true
  | .terminalizeExecutable _ _ _ => true
  | .terminalizePlugin _ _ _ => true
  | .terminalizePermissionRevoked _ _ _ => true
  | _ => false

/-- What happens next; `fails` is an error of the storage. -/
inductive SchedulerEvent where
  | begin (now : Int)
  | reconciled (fails : Bool)
  | reclaimed (fails : Bool)
  | compacted (now : Int) (fails : Bool)
  | pruned (fails : Bool)
  | maintainIfDue (now : Int)
  | listed (now : Int) (fails : Bool)
  | acquired (now : Int) (token : String) (fails : Bool)
  | claimed (leaseToken : String) (readable fails : Bool)
  | released (fails : Bool)
  | closed (index : Nat) (answers : Answers) (fails : Bool)
  | crash
  | outside (op : RepositoryOp)

namespace World

def fail (world : World) : World :=
  { world with scheduler := { world.scheduler with phase := .idle } }

/-- One transaction of the loop, and how the loop goes on after it. -/
def transact (host : RepositoryHost) (quota : PostDeliveryQuotaConfig)
    (world : World) (fails : Bool) (op : RepositoryOp)
    (next : Scheduler) : World :=
  if fails then world.fail
  else
    match world.db.perform host quota op with
    | .error _ => world.fail
    | .ok db =>
        { db := db
          scheduler := next }

def goTo (world : World) (phase : Phase) : Scheduler :=
  { world.scheduler with phase := phase }

def step (host : RepositoryHost) (quota : PostDeliveryQuotaConfig)
    (config : PostDeliverySchedulerConfig) (world : World) :
    SchedulerEvent → World
  | .begin now =>
      if world.scheduler.phase = .idle ∨ world.scheduler.phase = .ended then
        { world with
          scheduler :=
            { world.scheduler with
              begunAt := now
              phase :=
                if world.scheduler.recovered then .due else .reconciling } }
      else
        world
  | .reconciled fails =>
      if world.scheduler.phase = .reconciling then
        world.transact host quota fails .reconcileLedger
          (world.goTo .reclaiming)
      else
        world
  | .reclaimed fails =>
      if world.scheduler.phase = .reclaiming then
        world.transact host quota fails
          (.recoverExpiredLeases world.scheduler.begunAt)
          (world.goTo (.compacting true world.scheduler.begunAt))
      else
        world
  | .compacted now fails =>
      match world.scheduler.phase with
      | .compacting recovery begunAt =>
          world.transact host quota fails (.compactTerminalOverQuota now)
            (world.goTo (.pruning recovery begunAt))
      | _ => world
  | .pruned fails =>
      match world.scheduler.phase with
      | .pruning recovery now =>
          let maintained : Scheduler :=
            { world.scheduler with
              nextMaintenanceAt := now + MAINTENANCE_INTERVAL_MS }
          world.transact host quota fails
            (.pruneTerminalReceipts (now - config.terminalRetentionMs))
            (if recovery then
              { maintained with
                recovered := true
                phase := .due }
            else maintained.drain config)
      | _ => world
  | .maintainIfDue now =>
      if world.scheduler.phase = .due then
        { world with
          scheduler :=
            if now < world.scheduler.nextMaintenanceAt then
              world.scheduler.drain config
            else
              world.goTo (.compacting false now) }
      else
        world
  | .listed now fails =>
      match world.scheduler.phase with
      | .draining { claimed, stage := .listing } =>
          if fails then world.fail
          else
            { world with
              scheduler := world.scheduler.pass config claimed
                (world.scheduler.rotate
                  (world.db.listClaimablePluginIds now)) false }
      | _ => world
  | .acquired now token fails =>
      match world.scheduler.phase with
      | .draining { claimed, stage := .acquiring (pluginId :: rest) launched } =>
          if fails then world.fail
          else
            let (permit, db) := world.db.acquireBreakerPermit pluginId now
              token (now + config.leaseMs)
            { db := db
              scheduler :=
                match permit with
                | none =>
                    { world.scheduler with cursor := some pluginId }.pass
                      config claimed rest launched
                | some permit => world.scheduler.await claimed
                    (.claiming pluginId permit now rest launched) }
      | _ => world
  | .claimed leaseToken readable fails =>
      match world.scheduler.phase with
      | .draining { claimed, stage := .claiming pluginId permit now rest launched } =>
          let input : ClaimPostDeliveryInput :=
            { pluginId := pluginId
              now := now
              leaseToken := leaseToken
              leaseExpiresAt := now + config.leaseMs
              maxAttempts := config.maxAttempts
              maxActiveAgeMs := config.maxActiveAgeMs }
          let released (failed : Bool) : Scheduler :=
            world.scheduler.await claimed
              (.releasing pluginId permit failed rest launched)
          if fails then { world with scheduler := released true }
          else
            match world.db.claimNextForPlugin host quota input readable with
            | .error _ => { world with scheduler := released true }
            | .ok (none, db) =>
                { db := db
                  scheduler := released false }
            | .ok (some record, db) =>
                let execution : Execution :=
                  { record := record
                    leaseToken := leaseToken
                    permit := permit
                    batch := world.scheduler.batch }
                { db := db
                  scheduler :=
                    { world.scheduler with
                      cursor := some pluginId
                      executions :=
                        world.scheduler.executions ++ [execution] }.pass
                          config (claimed + 1) rest true }
      | _ => world
  | .released fails =>
      match world.scheduler.phase with
      | .draining { claimed, stage := .releasing pluginId permit failed rest launched } =>
          world.transact host quota fails
            (.releaseBreakerPermit pluginId permit)
            (if failed then world.goTo .idle
            else
              { world.scheduler with cursor := some pluginId }.pass config
                claimed rest launched)
      | _ => world
  | .closed index answers fails =>
      match world.scheduler.executions[index]? with
      | none => world
      | some execution =>
          { db :=
              if fails then world.db
              else world.db.apply host quota (execution.closing config answers)
            scheduler :=
              { world.scheduler with
                executions :=
                  world.scheduler.executions.eraseIdx index }.settle config
                    execution.batch }
  | .crash => { world with scheduler := {} }
  | .outside op =>
      if op.isOutside then { world with db := world.db.apply host quota op }
      else world

def run (host : RepositoryHost) (quota : PostDeliveryQuotaConfig)
    (config : PostDeliverySchedulerConfig) (world : World)
    (events : List SchedulerEvent) : World :=
  events.foldl (step host quota config) world

end World

end Motrix.PostDelivery
