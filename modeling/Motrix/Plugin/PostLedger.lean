import Motrix.Plugin.PostRepository

/-!
# Leases, breakers and maintenance of post-deliveries

A delivery is claimed under a lease and a breaker permit, and what presents
them later completes, retries or buries it.  Policy changes end the active rows
of a plugin whoever holds them.
-/

namespace Motrix.PostDelivery

open Motrix.Lib

inductive PermitMode where
  | closed
  | halfOpen
  deriving DecidableEq

structure PostDeliveryBreakerPermit where
  mode : PermitMode
  token : String
  deriving DecidableEq

structure ClaimPostDeliveryInput where
  pluginId : String
  now : Int
  leaseToken : String
  leaseExpiresAt : Int
  maxAttempts : Nat
  maxActiveAgeMs : Int

structure CompletePostDeliveryInput where
  deliveryId : String
  leaseToken : String
  completedAt : Int

structure CompleteBreakerInput where
  pluginId : String
  permit : PostDeliveryBreakerPermit
  now : Int

structure RetryPostDeliveryInput where
  deliveryId : String
  leaseToken : String
  nextAttemptAt : Int
  failedAt : Int

structure BreakerFailureInput where
  pluginId : String
  permit : PostDeliveryBreakerPermit
  now : Int
  threshold : Nat
  windowMs : Int
  pauseMs : Int

structure DeadLetterPostDeliveryInput where
  deliveryId : String
  leaseToken : String
  superseded : Bool
  reason : PostDeliveryPermanentReason
  completedAt : Int

namespace PostDatabase

/-! ## Breakers -/

def setBreaker (db : PostDatabase) (pluginId : String) (row : RawBreakerRow) :
    PostDatabase :=
  { db with
    breakers := fun other =>
      if other = pluginId then some row else db.breakers other }

def openedRow (row : RawBreakerRow) (openUntil updatedAt : Int) :
    RawBreakerRow :=
  { row with
    state := .opened
    openUntil := some openUntil
    probeToken := none
    probeLeaseExpiresAt := none
    updatedAt := updatedAt }

/-- An open breaker whose pause is over lets one probe through. -/
def startProbe (db : PostDatabase) (pluginId : String) (row : RawBreakerRow)
    (now : Int) (token : String) (leaseExpiresAt : Int) :
    Option PostDeliveryBreakerPermit × PostDatabase :=
  match row.openUntil with
  | none => (none, db)
  | some openUntil =>
      if row.state = .opened ∧ openUntil ≤ now then
        (some ⟨.halfOpen, token⟩, db.setBreaker pluginId
          { row with
            state := .halfOpen
            openUntil := none
            probeToken := some token
            probeLeaseExpiresAt := some leaseExpiresAt
            updatedAt := now })
      else
        (none, db)

def acquireBreakerPermit (db : PostDatabase) (pluginId : String) (now : Int)
    (token : String) (leaseExpiresAt : Int) :
    Option PostDeliveryBreakerPermit × PostDatabase :=
  match db.breakers pluginId with
  | none => (some ⟨.closed, token⟩, db)
  | some row =>
      match row.state with
      | .closed => (some ⟨.closed, token⟩, db)
      | .halfOpen =>
          if row.probeLeaseExpiresAt.getD MAX_SAFE_INTEGER > now then
            (none, db)
          else
            let reopened := openedRow row now now
            (db.setBreaker pluginId reopened).startProbe pluginId reopened
              now token leaseExpiresAt
      | .opened =>
          if row.openUntil.getD MAX_SAFE_INTEGER > now then
            (none, db)
          else
            db.startProbe pluginId row now token leaseExpiresAt

def releaseBreakerPermit (db : PostDatabase) (pluginId : String)
    (permit : PostDeliveryBreakerPermit) : PostDatabase :=
  if permit.mode ≠ .halfOpen then
    db
  else
    match db.breakers pluginId with
    | none => db
    | some row =>
        if row.state = .halfOpen ∧ row.probeToken = some permit.token then
          db.setBreaker pluginId (openedRow row row.updatedAt row.updatedAt)
        else
          db

def breakerPermitIsCurrent (db : PostDatabase) (pluginId : String)
    (permit : PostDeliveryBreakerPermit) : Bool :=
  match permit.mode, db.breakers pluginId with
  | .closed, none => true
  | .closed, some row => row.state == .closed
  | .halfOpen, none => false
  | .halfOpen, some row =>
      row.state == .halfOpen && row.probeToken == some permit.token

def closeBreaker (db : PostDatabase) (pluginId : String)
    (permit : PostDeliveryBreakerPermit) (now : Int) : PostDatabase :=
  if db.breakerPermitIsCurrent pluginId permit = false then
    db
  else
    db.setBreaker pluginId
      { state := .closed
        failureCount := 0
        windowStartedAt := none
        openUntil := none
        probeToken := none
        probeLeaseExpiresAt := none
        updatedAt := now }

def recordBreakerFailure (db : PostDatabase) (input : BreakerFailureInput) :
    PostDatabase :=
  let current := db.breakers input.pluginId
  let halfOpenFailure := input.permit.mode == .halfOpen
  let window := current.bind (·.windowStartedAt)
  let withinWindow := match window with
    | none => false
    | some started => decide (input.now - started ≤ input.windowMs)
  let failureCount :=
    if halfOpenFailure then input.threshold
    else if withinWindow then
      (current.map (·.failureCount)).getD 0 + 1
    else 1
  let windowStartedAt :=
    if withinWindow then window.getD input.now else input.now
  let opens := halfOpenFailure || decide (failureCount ≥ input.threshold)
  db.setBreaker input.pluginId
    { state := if opens then .opened else .closed
      failureCount := failureCount
      windowStartedAt := some windowStartedAt
      openUntil := if opens then some (input.now + input.pauseMs) else none
      probeToken := none
      probeLeaseExpiresAt := none
      updatedAt := input.now }

/-! ## Leases -/

def recoverExpiredLeases (db : PostDatabase) (now : Int) : PostDatabase :=
  let (_, reclaimed) := db.updateDeliveries
    (fun row => row.status == .delivering &&
      match row.leaseExpiresAt with
      | none => false
      | some expiresAt => decide (expiresAt ≤ now))
    fun row =>
      { row with
        status := .pending
        leaseOwner := none
        leaseExpiresAt := none
        nextAttemptAt := now
        updatedAt := now }
  { reclaimed with
    breakers := fun pluginId =>
      (reclaimed.breakers pluginId).map fun row =>
        match row.state, row.probeLeaseExpiresAt with
        | .halfOpen, some expiresAt =>
            if expiresAt ≤ now then openedRow row now now else row
        | _, _ => row }

def isClaimable (now : Int) (row : RawDeliveryRow) : Bool :=
  row.status == .pending && decide (row.nextAttemptAt ≤ now)

def listClaimablePluginIds (db : PostDatabase) (now : Int) : List String :=
  ((db.deliveries.filter (isClaimable now)).map (·.pluginId)).eraseDups

def nextClaimable (db : PostDatabase) (input : ClaimPostDeliveryInput) :
    Option RawDeliveryRow :=
  firstBy (oldestFirst (·.createdAt)) (db.deliveries.filter fun row =>
    row.pluginId == input.pluginId && isClaimable input.now row)

def claimLimit (input : ClaimPostDeliveryInput) (row : RawDeliveryRow) :
    Option PostDeliveryPermanentReason :=
  if row.attemptCount ≥ input.maxAttempts then some .attemptLimit
  else if input.now - row.createdAt ≥ input.maxActiveAgeMs then some .ageLimit
  else none

def claimedRow (input : ClaimPostDeliveryInput) (row : RawDeliveryRow) :
    RawDeliveryRow :=
  { row with
    status := .delivering
    attemptCount := row.attemptCount + 1
    leaseOwner := some input.leaseToken
    leaseExpiresAt := some input.leaseExpiresAt
    updatedAt := input.now }

def readRawDelivery (db : PostDatabase) (deliveryId : String) :
    Option RawDeliveryRow :=
  db.deliveries.find? (·.deliveryId == deliveryId)

/-- `readable` tells whether the persisted payload is read back. -/
def claimRow (host : RepositoryHost) (quota : PostDeliveryQuotaConfig)
    (db : PostDatabase) (input : ClaimPostDeliveryInput)
    (raw : RawDeliveryRow) (readable : Bool) :
    Except PostDeliveryError (Option RawDeliveryRow × PostDatabase) :=
  let (changed, claimed) := db.updateDeliveries
    (fun row => row.deliveryId == raw.deliveryId && row.status == .pending)
    (claimedRow input)
  if changed ≠ 1 then
    .ok (none, claimed)
  else
    match claimed.readRawDelivery raw.deliveryId with
    | none => .ok (none, claimed)
    | some row =>
        if readable then
          if row.status = .delivering then .ok (some row, claimed)
          else .ok (none, claimed)
        else do
          let ended ← claimed.terminalizeRow host quota row .inputInvalid
            input.now .deadLetter
          return (none,
            ended.enforceTerminalQuotas host quota input.now row.pluginId)

/-- Rows past their limits end on the way to the row that is claimed; every
turn ends one. -/
def claimTurns (host : RepositoryHost) (quota : PostDeliveryQuotaConfig)
    (input : ClaimPostDeliveryInput) (readable : Bool) : Nat → PostDatabase →
      Except PostDeliveryError (Option RawDeliveryRow × PostDatabase)
  | 0, db => .ok (none, db)
  | turns + 1, db =>
      match db.nextClaimable input with
      | none => .ok (none, db)
      | some raw =>
          match claimLimit input raw with
          | none => db.claimRow host quota input raw readable
          | some reason => do
              let ended ← db.terminalizeRow host quota raw reason input.now
                (terminalStatusOf reason)
              claimTurns host quota input readable turns
                (ended.enforceTerminalQuotas host quota input.now
                  raw.pluginId)

def claimNextForPlugin (host : RepositoryHost)
    (quota : PostDeliveryQuotaConfig) (db : PostDatabase)
    (input : ClaimPostDeliveryInput) (readable : Bool) :
    Except PostDeliveryError (Option RawDeliveryRow × PostDatabase) :=
  claimTurns host quota input readable (db.deliveries.length + 1) db

/-- The row, if the lease presented is the current one. -/
def ownedRow (db : PostDatabase) (deliveryId leaseToken : String) :
    Option RawDeliveryRow :=
  match db.readRawDelivery deliveryId with
  | none => none
  | some row =>
      if row.status = .delivering ∧ row.leaseOwner = some leaseToken then
        some row
      else
        none

def heldBy (deliveryId leaseToken : String) (row : RawDeliveryRow) : Bool :=
  row.deliveryId == deliveryId && row.status == .delivering &&
    row.leaseOwner == some leaseToken

def complete (host : RepositoryHost) (quota : PostDeliveryQuotaConfig)
    (db : PostDatabase) (input : CompletePostDeliveryInput)
    (breaker : CompleteBreakerInput) :
    Except PostDeliveryError (Bool × PostDatabase) :=
  if db.breakerPermitIsCurrent breaker.pluginId breaker.permit = false then
    .ok (false, db)
  else
    match db.ownedRow input.deliveryId input.leaseToken with
    | none => .ok (false, db)
    | some row => do
        let receipt ← compactTerminalReceipt
          { deliveryId := row.deliveryId
            pluginId := row.pluginId
            hook := row.hook
            status := .delivered
            completedAt := input.completedAt
            attemptCount := row.attemptCount }
        let bytes := receiptCharge receipt
        let room ← db.ensureTerminalCapacity host quota row.pluginId bytes
          breaker.now
        let (changed, updated) := room.updateDeliveries
          (heldBy input.deliveryId input.leaseToken)
          (endedRow .delivered receipt none breaker.now)
        if changed ≠ 1 then
          return (false, updated)
        else
          let moved := updated.moveActiveToTerminal row.pluginId
            row.reservedBytes bytes
          let closed := moved.closeBreaker breaker.pluginId breaker.permit
            breaker.now
          return (true,
            closed.enforceTerminalQuotas host quota breaker.now row.pluginId)

def retry (db : PostDatabase) (input : RetryPostDeliveryInput)
    (breaker : BreakerFailureInput) : Bool × PostDatabase :=
  if db.breakerPermitIsCurrent breaker.pluginId breaker.permit = false then
    (false, db)
  else
    let (changed, updated) := db.updateDeliveries
      (heldBy input.deliveryId input.leaseToken) fun row =>
        { row with
          status := .pending
          leaseOwner := none
          leaseExpiresAt := none
          nextAttemptAt := input.nextAttemptAt
          updatedAt := input.failedAt }
    if changed ≠ 1 then (false, updated)
    else (true, updated.recordBreakerFailure breaker)

def deadLetter (host : RepositoryHost) (quota : PostDeliveryQuotaConfig)
    (db : PostDatabase) (input : DeadLetterPostDeliveryInput)
    (pluginId : String) (permit : PostDeliveryBreakerPermit) :
    Except PostDeliveryError (Bool × PostDatabase) :=
  if db.breakerPermitIsCurrent pluginId permit = false then
    .ok (false, db)
  else
    match db.ownedRow input.deliveryId input.leaseToken with
    | none => .ok (false, db)
    | some row => do
        let ended ← db.terminalizeRow host quota row input.reason
          input.completedAt
          (if input.superseded then .superseded else .deadLetter)
        let closed := ended.closeBreaker pluginId permit input.completedAt
        return (true, closed.enforceTerminalQuotas host quota
          input.completedAt row.pluginId)

/-! ## Maintenance and policy changes -/

def chargeOf (row : RawDeliveryRow) : LedgerRow :=
  if row.isTerminal then
    { activeRows := 0
      activeBytes := 0
      terminalRows := 1
      terminalBytes := row.reservedBytes }
  else
    { activeRows := 1
      activeBytes := row.reservedBytes
      terminalRows := 0
      terminalBytes := 0 }

def reconcileLedger (db : PostDatabase) : PostDatabase :=
  db.deliveries.foldl
    (fun counted row => counted.bumpLedger row.pluginId (chargeOf row))
    { db with ledgerRows := fun _ => none }

def compactTerminalOverQuota (host : RepositoryHost)
    (quota : PostDeliveryQuotaConfig) (db : PostDatabase) (now : Int) :
    PostDatabase :=
  let pluginIds :=
    ((db.deliveries.filter (·.isTerminal)).map (·.pluginId)).eraseDups
  pluginIds.foldl
    (fun kept pluginId => kept.enforceTerminalQuotas host quota now pluginId)
    db

def pruneTerminalReceipts (host : RepositoryHost) (db : PostDatabase)
    (before : Int) : PostDatabase :=
  let rows := (db.deliveries.filter fun row =>
    row.isTerminal && decide (row.updatedAt < before)).mergeSort
      (oldestFirst (·.updatedAt))
  rows.foldl (fun kept row =>
    kept.pruneTerminalRow host row "terminal_expired" before) db

/-- The active rows in the order in which they were created. -/
def activeRows (db : PostDatabase) (chosen : RawDeliveryRow → Bool) :
    List RawDeliveryRow :=
  (db.deliveries.filter fun row => row.isActive && chosen row).mergeSort
    (oldestFirst (·.createdAt))

def terminalizeRows (host : RepositoryHost) (quota : PostDeliveryQuotaConfig)
    (db : PostDatabase) (rows : List RawDeliveryRow)
    (reason : PostDeliveryPermanentReason) (now : Int) :
    Except PostDeliveryError PostDatabase :=
  rows.foldlM (fun left row => left.terminalizeRow host quota row reason now
    (terminalStatusOf reason)) db

def terminalizeWhere (host : RepositoryHost)
    (quota : PostDeliveryQuotaConfig) (db : PostDatabase)
    (chosen : RawDeliveryRow → Bool) (reason : PostDeliveryPermanentReason)
    (now : Int) : Except PostDeliveryError PostDatabase := do
  let rows := db.activeRows chosen
  let ended ← db.terminalizeRows host quota rows reason now
  return (rows.map (·.pluginId)).eraseDups.foldl
    (fun kept pluginId => kept.enforceTerminalQuotas host quota now pluginId)
    ended

def terminalizeExecutable (host : RepositoryHost)
    (quota : PostDeliveryQuotaConfig) (db : PostDatabase)
    (executable : PluginExecutableIdentity)
    (reason : PostDeliveryPermanentReason) (now : Int) :
    Except PostDeliveryError PostDatabase :=
  db.terminalizeWhere host quota (fun row =>
    row.pluginId == executable.pluginId &&
      row.pluginVersion == executable.version &&
      row.executableDigest == executable.digest) reason now

def terminalizePlugin (host : RepositoryHost)
    (quota : PostDeliveryQuotaConfig) (db : PostDatabase) (pluginId : String)
    (reason : PostDeliveryPermanentReason) (now : Int) :
    Except PostDeliveryError PostDatabase :=
  db.terminalizeWhere host quota (·.pluginId == pluginId) reason now

def terminalizePermissionRevoked (host : RepositoryHost)
    (quota : PostDeliveryQuotaConfig) (db : PostDatabase) (pluginId : String)
    (revoked : List String) (now : Int) :
    Except PostDeliveryError PostDatabase := do
  let rows := (db.activeRows (·.pluginId == pluginId)).filter fun row =>
    row.requiredPermissions.any fun permission => revoked.contains permission
  let ended ← db.terminalizeRows host quota rows .permissionRevoked now
  return ended.enforceTerminalQuotas host quota now pluginId

end PostDatabase

/-! ## Runs -/

inductive RepositoryOp where
  | admitMany (admissions :
      List (PostDeliveryAdmission × PostDeliveryDatabaseCapacity))
  | claimNextForPlugin (input : ClaimPostDeliveryInput) (readable : Bool)
  | complete (input : CompletePostDeliveryInput)
      (breaker : CompleteBreakerInput)
  | retry (input : RetryPostDeliveryInput) (breaker : BreakerFailureInput)
  | deadLetter (input : DeadLetterPostDeliveryInput) (pluginId : String)
      (permit : PostDeliveryBreakerPermit)
  | acquireBreakerPermit (pluginId : String) (now : Int) (token : String)
      (leaseExpiresAt : Int)
  | releaseBreakerPermit (pluginId : String)
      (permit : PostDeliveryBreakerPermit)
  | recoverExpiredLeases (now : Int)
  | reconcileLedger
  | terminalizeExecutable (executable : PluginExecutableIdentity)
      (reason : PostDeliveryPermanentReason) (now : Int)
  | terminalizePlugin (pluginId : String)
      (reason : PostDeliveryPermanentReason) (now : Int)
  | terminalizePermissionRevoked (pluginId : String) (revoked : List String)
      (now : Int)
  | compactTerminalOverQuota (now : Int)
  | pruneTerminalReceipts (before : Int)

namespace PostDatabase

def perform (host : RepositoryHost) (quota : PostDeliveryQuotaConfig)
    (db : PostDatabase) : RepositoryOp → Except PostDeliveryError PostDatabase
  | .admitMany admissions => db.admitMany host quota admissions
  | .claimNextForPlugin input readable =>
      (db.claimNextForPlugin host quota input readable).map Prod.snd
  | .complete input breaker =>
      (db.complete host quota input breaker).map Prod.snd
  | .retry input breaker => .ok (db.retry input breaker).2
  | .deadLetter input pluginId permit =>
      (db.deadLetter host quota input pluginId permit).map Prod.snd
  | .acquireBreakerPermit pluginId now token leaseExpiresAt =>
      .ok (db.acquireBreakerPermit pluginId now token leaseExpiresAt).2
  | .releaseBreakerPermit pluginId permit =>
      .ok (db.releaseBreakerPermit pluginId permit)
  | .recoverExpiredLeases now => .ok (db.recoverExpiredLeases now)
  | .reconcileLedger => .ok db.reconcileLedger
  | .terminalizeExecutable executable reason now =>
      db.terminalizeExecutable host quota executable reason now
  | .terminalizePlugin pluginId reason now =>
      db.terminalizePlugin host quota pluginId reason now
  | .terminalizePermissionRevoked pluginId revoked now =>
      db.terminalizePermissionRevoked host quota pluginId revoked now
  | .compactTerminalOverQuota now =>
      .ok (db.compactTerminalOverQuota host quota now)
  | .pruneTerminalReceipts before =>
      .ok (db.pruneTerminalReceipts host before)

/-- An operation that throws leaves its transaction without a trace. -/
def apply (host : RepositoryHost) (quota : PostDeliveryQuotaConfig)
    (db : PostDatabase) (op : RepositoryOp) : PostDatabase :=
  match db.perform host quota op with
  | .ok next => next
  | .error _ => db

def run (host : RepositoryHost) (quota : PostDeliveryQuotaConfig)
    (db : PostDatabase) (ops : List RepositoryOp) : PostDatabase :=
  ops.foldl (apply host quota) db

end PostDatabase

end Motrix.PostDelivery

/-!
# The quota ledger of post-deliveries

The ledger of every scope equals the recount of the rows, and the rows stay
within the quotas.  Since a receipt fits every quota a configuration may set,
eviction always makes room for it.
-/

namespace Motrix.PostDelivery

open Motrix.Lib

/-! ## Scopes -/

theorem pluginScope_injective : Function.Injective pluginScope := by
  intro left right same
  unfold pluginScope at same
  exact (String.append_right_inj _).mp same

theorem pluginScope_ne_global (pluginId : String) :
    pluginScope pluginId ≠ GLOBAL_SCOPE := by
  intro same
  have texts := congrArg String.toList same
  unfold pluginScope GLOBAL_SCOPE at texts
  rw [String.toList_append] at texts
  have first := congrArg List.head? texts
  revert first
  simp

def InScope (scope pluginId : String) : Prop :=
  scope = GLOBAL_SCOPE ∨ scope = pluginScope pluginId

instance (scope pluginId : String) : Decidable (InScope scope pluginId) :=
  inferInstanceAs (Decidable (_ ∨ _))

theorem inScope_plugin {pluginId other : String} :
    InScope (pluginScope pluginId) other ↔ pluginId = other := by
  constructor
  · rintro (isGlobal | same)
    · exact absurd isGlobal (pluginScope_ne_global pluginId)
    · exact pluginScope_injective same
  · rintro rfl
    exact Or.inr rfl

theorem inScope_global (pluginId : String) :
    InScope GLOBAL_SCOPE pluginId :=
  Or.inl rfl

def shareOf (scope : String) (row : RawDeliveryRow) : LedgerRow :=
  if InScope scope row.pluginId then PostDatabase.chargeOf row else 0

def recount (rows : List RawDeliveryRow) (scope : String) : LedgerRow :=
  Table.total (shareOf scope) rows

namespace PostDatabase

variable {host : RepositoryHost} {quota : PostDeliveryQuotaConfig}
  {db : PostDatabase}

theorem ledger_bumpScope (scope other : String) (delta : LedgerRow) :
    (db.bumpScope scope delta).ledger other =
      db.ledger other + if other = scope then delta else 0 := by
  unfold ledger bumpScope
  dsimp only
  split
  · rename_i same
    rw [same]
    rfl
  · rw [add_zero]

theorem ledger_bumpLedger (pluginId scope : String) (delta : LedgerRow) :
    (db.bumpLedger pluginId delta).ledger scope =
      db.ledger scope + if InScope scope pluginId then delta else 0 := by
  unfold bumpLedger
  rw [ledger_bumpScope, ledger_bumpScope]
  by_cases isGlobal : scope = GLOBAL_SCOPE
  · have apart : scope ≠ pluginScope pluginId := by
      rw [isGlobal]
      exact (pluginScope_ne_global pluginId).symm
    rw [if_pos isGlobal, if_neg apart,
      if_pos (show InScope scope pluginId from Or.inl isGlobal), add_zero]
  · by_cases isPlugin : scope = pluginScope pluginId
    · rw [if_neg isGlobal, if_pos isPlugin,
        if_pos (show InScope scope pluginId from Or.inr isPlugin), add_zero]
    · have outside : ¬InScope scope pluginId :=
        fun inside => inside.elim isGlobal isPlugin
      rw [if_neg isGlobal, if_neg isPlugin, if_neg outside, add_zero]

/-! ## The invariant -/

structure Balanced (db : PostDatabase) : Prop where
  distinct : Table.Distinct RawDeliveryRow.deliveryId db.deliveries
  ledger : ∀ scope, db.ledger scope = recount db.deliveries scope

structure WithinActive (quota : PostDeliveryQuotaConfig)
    (db : PostDatabase) : Prop where
  pluginRows : ∀ pluginId,
    (db.ledger (pluginScope pluginId)).activeRows ≤ quota.pluginActiveRows
  pluginBytes : ∀ pluginId,
    (db.ledger (pluginScope pluginId)).activeBytes ≤ quota.pluginActiveBytes
  globalRows : (db.ledger GLOBAL_SCOPE).activeRows ≤ quota.globalActiveRows
  globalBytes : (db.ledger GLOBAL_SCOPE).activeBytes ≤ quota.globalActiveBytes

structure WithinTerminal (quota : PostDeliveryQuotaConfig)
    (db : PostDatabase) : Prop where
  pluginRows : ∀ pluginId,
    (db.ledger (pluginScope pluginId)).terminalRows ≤ quota.pluginTerminalRows
  pluginBytes : ∀ pluginId,
    (db.ledger (pluginScope pluginId)).terminalBytes ≤
      quota.pluginTerminalBytes
  globalRows : (db.ledger GLOBAL_SCOPE).terminalRows ≤ quota.globalTerminalRows
  globalBytes : (db.ledger GLOBAL_SCOPE).terminalBytes ≤
    quota.globalTerminalBytes

structure Kept (quota : PostDeliveryQuotaConfig) (db : PostDatabase) :
    Prop where
  balanced : Balanced db
  active : WithinActive quota db
  terminal : WithinTerminal quota db

theorem WithinActive.congr (within : WithinActive quota db)
    {next : PostDatabase} (same : ∀ scope,
      (next.ledger scope).activeRows ≤ (db.ledger scope).activeRows ∧
      (next.ledger scope).activeBytes ≤ (db.ledger scope).activeBytes) :
    WithinActive quota next where
  pluginRows pluginId :=
    Int.le_trans (same _).1 (within.pluginRows pluginId)
  pluginBytes pluginId :=
    Int.le_trans (same _).2 (within.pluginBytes pluginId)
  globalRows := Int.le_trans (same _).1 within.globalRows
  globalBytes := Int.le_trans (same _).2 within.globalBytes

theorem WithinTerminal.congr (within : WithinTerminal quota db)
    {next : PostDatabase} (same : ∀ scope,
      (next.ledger scope).terminalRows ≤ (db.ledger scope).terminalRows ∧
      (next.ledger scope).terminalBytes ≤ (db.ledger scope).terminalBytes) :
    WithinTerminal quota next where
  pluginRows pluginId :=
    Int.le_trans (same _).1 (within.pluginRows pluginId)
  pluginBytes pluginId :=
    Int.le_trans (same _).2 (within.pluginBytes pluginId)
  globalRows := Int.le_trans (same _).1 within.globalRows
  globalBytes := Int.le_trans (same _).2 within.globalBytes

/-- The rows and the ledger change by the same share. -/
theorem Balanced.bump (balanced : Balanced db) {rows : List RawDeliveryRow}
    {pluginId : String} {delta : LedgerRow}
    (distinct : Table.Distinct RawDeliveryRow.deliveryId rows)
    (share : ∀ scope, recount rows scope = recount db.deliveries scope +
      if InScope scope pluginId then delta else 0) :
    Balanced ({ db with deliveries := rows }.bumpLedger pluginId delta) where
  distinct := distinct
  ledger scope := by
    rw [ledger_bumpLedger]
    exact (congrArg (· + _) (balanced.ledger scope)).trans (share scope).symm

/-- The ledger stays when every row keeps its share. -/
theorem Balanced.rewrite (balanced : Balanced db)
    {chosen : RawDeliveryRow → Bool}
    {change : RawDeliveryRow → RawDeliveryRow}
    (keeps : ∀ row, (change row).deliveryId = row.deliveryId)
    (same : ∀ row ∈ db.deliveries, chosen row = true →
      (change row).pluginId = row.pluginId ∧
      chargeOf (change row) = chargeOf row) :
    Balanced (db.updateDeliveries chosen change).2 where
  distinct := balanced.distinct.rewrite keeps
  ledger scope := by
    refine (balanced.ledger scope).trans (Eq.symm ?_)
    apply Table.total_rewrite_same
    intro row inside isChosen
    obtain ⟨plugin, charge⟩ := same row inside isChosen
    unfold shareOf
    rw [plugin, charge]

/-! ## Pruning -/

/-- Only terminal rows have gone. -/
structure Pruned (before after : PostDatabase) : Prop where
  rows : ∀ row ∈ after.deliveries, row ∈ before.deliveries
  active : ∀ row ∈ before.deliveries, row.isTerminal = false →
    row ∈ after.deliveries
  ledger : ∀ scope,
    (after.ledger scope).activeRows = (before.ledger scope).activeRows ∧
    (after.ledger scope).activeBytes = (before.ledger scope).activeBytes ∧
    (after.ledger scope).terminalRows ≤ (before.ledger scope).terminalRows ∧
    (after.ledger scope).terminalBytes ≤ (before.ledger scope).terminalBytes
  breakers : after.breakers = before.breakers

theorem Pruned.refl (db : PostDatabase) : Pruned db db where
  rows _ inside := inside
  active _ inside _ := inside
  ledger _ := ⟨rfl, rfl, Int.le_refl _, Int.le_refl _⟩
  breakers := rfl

theorem Pruned.trans {first second third : PostDatabase}
    (early : Pruned first second) (late : Pruned second third) :
    Pruned first third where
  rows row inside := early.rows row (late.rows row inside)
  active row inside isActive :=
    late.active row (early.active row inside isActive) isActive
  ledger scope := by
    obtain ⟨rows, bytes, terminalRows, terminalBytes⟩ := early.ledger scope
    obtain ⟨rows', bytes', terminalRows', terminalBytes'⟩ := late.ledger scope
    exact ⟨rows'.trans rows, bytes'.trans bytes,
      Int.le_trans terminalRows' terminalRows,
      Int.le_trans terminalBytes' terminalBytes⟩
  breakers := late.breakers.trans early.breakers

theorem Kept.pruned (kept : Kept quota db) {next : PostDatabase}
    (balanced : Balanced next) (pruned : Pruned db next) :
    Kept quota next where
  balanced := balanced
  active := kept.active.congr fun scope =>
    ⟨Int.le_of_eq (pruned.ledger scope).1,
      Int.le_of_eq (pruned.ledger scope).2.1⟩
  terminal := kept.terminal.congr fun scope =>
    ⟨(pruned.ledger scope).2.2.1, (pruned.ledger scope).2.2.2⟩

theorem chargeOf_terminal {row : RawDeliveryRow}
    (isTerminal : row.isTerminal = true) :
    chargeOf row =
      { activeRows := 0
        activeBytes := 0
        terminalRows := 1
        terminalBytes := row.reservedBytes } :=
  if_pos isTerminal

theorem chargeOf_active {row : RawDeliveryRow}
    (isActive : row.isTerminal = false) :
    chargeOf row =
      { activeRows := 1
        activeBytes := row.reservedBytes
        terminalRows := 0
        terminalBytes := 0 } := by
  unfold chargeOf
  rw [isActive]
  rfl

theorem pruneTerminalRow_balanced (host : RepositoryHost)
    (balanced : Balanced db)
    {row : RawDeliveryRow} (inside : row ∈ db.deliveries)
    (isTerminal : row.isTerminal = true) (reason : String) (now : Int) :
    Balanced (db.pruneTerminalRow host row reason now) ∧
      Pruned db (db.pruneTerminalRow host row reason now) := by
  let delta : LedgerRow :=
    { activeRows := 0
      activeBytes := 0
      terminalRows := -1
      terminalBytes := -(row.reservedBytes : Int) }
  have charge : delta = -chargeOf row := by
    rw [chargeOf_terminal isTerminal]
    rfl
  have shares : ∀ scope,
      recount (Table.remove RawDeliveryRow.deliveryId row.deliveryId
        db.deliveries) scope =
      recount db.deliveries scope +
        if InScope scope row.pluginId then delta else 0 := by
    intro scope
    refine (Table.total_remove balanced.distinct inside).trans ?_
    rw [sub_eq_add_neg, charge]
    congr 1
    unfold shareOf
    split
    · rfl
    · exact neg_zero
  have bumped := balanced.bump (balanced.distinct.remove row.deliveryId) shares
  refine ⟨⟨bumped.distinct, bumped.ledger⟩, ?_⟩
  constructor
  · intro other among
    exact (Table.mem_remove.mp among).1
  · intro other among isActive
    refine Table.mem_remove.mpr ⟨among, ?_⟩
    intro same
    rw [balanced.distinct.eq among inside same, isTerminal] at isActive
    cases isActive
  · intro scope
    have change : (db.pruneTerminalRow host row reason now).ledger scope =
        db.ledger scope + if InScope scope row.pluginId then delta else 0 :=
      ledger_bumpLedger row.pluginId scope delta
    rw [change]
    split
    · refine ⟨Int.add_zero _, Int.add_zero _, ?_, ?_⟩
      · show (db.ledger scope).terminalRows + -1 ≤ _
        omega
      · show (db.ledger scope).terminalBytes + -(row.reservedBytes : Int) ≤ _
        omega
    · rw [add_zero]
      exact ⟨rfl, rfl, Int.le_refl _, Int.le_refl _⟩
  · rfl

theorem enforceTurns_within (within : WithinTerminal quota db) (now : Int)
    (pluginId : String) (turns : Nat) :
    enforceTurns host quota now pluginId turns db = db := by
  cases turns with
  | zero => rfl
  | succ turns =>
      have globally : db.globalOver quota 0 0 = false := by
        unfold globalOver
        simp [within.globalRows, within.globalBytes]
      have inPlugin : db.pluginOver quota pluginId 0 0 = false := by
        unfold pluginOver
        simp [within.pluginRows pluginId, within.pluginBytes pluginId]
      exact if_pos ⟨globally, inPlugin⟩

/-- Where the quotas hold nothing is pruned. -/
theorem enforce_within (within : WithinTerminal quota db) (now : Int)
    (pluginId : String) :
    db.enforceTerminalQuotas host quota now pluginId = db :=
  enforceTurns_within within now pluginId _

/-! ## Room for a receipt -/

theorem recount_terminal_zero {rows : List RawDeliveryRow} {scope : String}
    (active : ∀ row ∈ rows, InScope scope row.pluginId →
      row.isTerminal = false) :
    (recount rows scope).terminalRows = 0 ∧
      (recount rows scope).terminalBytes = 0 := by
  unfold recount
  induction rows with
  | nil => exact ⟨rfl, rfl⟩
  | cons row rest induction =>
      obtain ⟨restRows, restBytes⟩ := induction fun other among =>
        active other (List.mem_cons_of_mem _ among)
      have first : (shareOf scope row).terminalRows = 0 ∧
          (shareOf scope row).terminalBytes = 0 := by
        unfold shareOf
        split
        · rename_i inside
          rw [chargeOf_active (active row List.mem_cons_self inside)]
          exact ⟨rfl, rfl⟩
        · exact ⟨rfl, rfl⟩
      constructor
      · show (shareOf scope row).terminalRows +
          (Table.total (shareOf scope) rest).terminalRows = 0
        rw [first.1, restRows]
        rfl
      · show (shareOf scope row).terminalBytes +
          (Table.total (shareOf scope) rest).terminalBytes = 0
        rw [first.2, restBytes]
        rfl

theorem globalOver_empty (balanced : Balanced db)
    (active : ∀ row ∈ db.deliveries, row.isTerminal = false)
    {incoming : Nat} (small : incoming ≤ 1540) :
    db.globalOver quota 1 incoming = false := by
  have zero : (recount db.deliveries GLOBAL_SCOPE).terminalRows = 0 ∧
      (recount db.deliveries GLOBAL_SCOPE).terminalBytes = 0 :=
    recount_terminal_zero fun row inside _ => active row inside
  rw [← balanced.ledger] at zero
  have rows := quota.globalTerminalRowsRange.1
  have bytes := quota.globalTerminalBytesRange.1
  unfold globalOver
  rw [zero.1, zero.2, Bool.or_eq_false_iff, decide_eq_false_iff_not,
    decide_eq_false_iff_not]
  omega

theorem pluginOver_empty (balanced : Balanced db) {pluginId : String}
    (active : ∀ row ∈ db.deliveries, row.pluginId = pluginId →
      row.isTerminal = false)
    {incoming : Nat} (small : incoming ≤ 1540) :
    db.pluginOver quota pluginId 1 incoming = false := by
  have zero : (recount db.deliveries (pluginScope pluginId)).terminalRows = 0 ∧
      (recount db.deliveries (pluginScope pluginId)).terminalBytes = 0 :=
    recount_terminal_zero fun row inside named =>
      active row inside (inScope_plugin.mp named).symm
  rw [← balanced.ledger] at zero
  have rows := quota.pluginTerminalRowsRange.1
  have bytes := quota.pluginTerminalBytesRange.1
  unfold pluginOver
  rw [zero.1, zero.2, Bool.or_eq_false_iff, decide_eq_false_iff_not,
    decide_eq_false_iff_not]
  omega

/-- With nothing left to prune a receipt fits. -/
theorem fits_of_none (balanced : Balanced db) {pluginId : String}
    {incoming : Nat} (small : incoming ≤ 1540)
    (missing : db.oldestTerminal (db.globalOver quota 1 incoming) pluginId =
      none) :
    db.globalOver quota 1 incoming = false ∧
      db.pluginOver quota pluginId 1 incoming = false := by
  unfold oldestTerminal at missing
  have empty := firstBy_none missing
  rw [List.filter_eq_nil_iff] at empty
  cases exceeded : db.globalOver quota 1 incoming with
  | true =>
      have active : ∀ row ∈ db.deliveries, row.isTerminal = false := by
        intro row inside
        have none' := empty row inside
        rw [exceeded] at none'
        simpa using none'
      rw [globalOver_empty balanced active small] at exceeded
      cases exceeded
  | false =>
      refine ⟨rfl, pluginOver_empty balanced ?_ small⟩
      intro row inside named
      have none' := empty row inside
      rw [exceeded] at none'
      simpa [named] using none'

theorem ensureTurns_ok (now : Int) (pluginId : String) {incoming : Nat}
    (small : incoming ≤ 1540) (turns : Nat) {db : PostDatabase}
    (balanced : Balanced db) (enough : db.deliveries.length ≤ turns) :
    ∃ room, ensureTurns host quota now pluginId incoming turns db = .ok room ∧
      Balanced room ∧ Pruned db room ∧
      room.globalOver quota 1 incoming = false ∧
      room.pluginOver quota pluginId 1 incoming = false := by
  induction turns generalizing db with
  | zero =>
      have empty : db.deliveries = [] :=
        List.length_eq_zero_iff.mp (Nat.le_zero.mp enough)
      have fits : db.globalOver quota 1 incoming = false ∧
          db.pluginOver quota pluginId 1 incoming = false := by
        apply fits_of_none balanced small
        unfold oldestTerminal
        rw [empty]
        rfl
      exact ⟨db, if_pos fits, balanced, Pruned.refl db, fits⟩
  | succ turns induction =>
      unfold ensureTurns
      split
      · rename_i fits
        exact ⟨db, rfl, balanced, Pruned.refl db, fits⟩
      · rename_i exceeded
        split
        · rename_i missing
          exact absurd (fits_of_none balanced small missing) exceeded
        · rename_i row found
          have chosen := List.mem_filter.mp (firstBy_mem found)
          have isTerminal : row.isTerminal = true :=
            (Bool.and_eq_true_iff.mp chosen.2).1
          obtain ⟨balanced', pruned⟩ := pruneTerminalRow_balanced host
            balanced chosen.1 isTerminal "terminal_quota_compacted" now
          have shorter : (db.pruneTerminalRow host row
              "terminal_quota_compacted" now).deliveries.length <
                db.deliveries.length :=
            Table.remove_length chosen.1
          obtain ⟨room, done, roomBalanced, more, fits⟩ :=
            induction balanced' (by omega)
          exact ⟨room, done, roomBalanced, pruned.trans more, fits⟩

end PostDatabase

end Motrix.PostDelivery
