import Motrix.Plugin.PostLeases

/-!
# Leases and permits over runs

A delivery has one owner, ends once and is attempted within its limit.  A token
that is no longer current changes nothing.  Behind a breaker that is not closed
at most one permit is current: that of the probe, which is replaced only after
its lease has expired.
-/

namespace Motrix.PostDelivery

open Motrix.Lib
open Relation (ReflTransGen)

namespace PostDatabase

variable {host : RepositoryHost} {quota : PostDeliveryQuotaConfig}
  {db next : PostDatabase}

/-- The delivery is held under the token. -/
def Owns (db : PostDatabase) (deliveryId leaseToken : String) : Prop :=
  ∃ row ∈ db.deliveries, row.deliveryId = deliveryId ∧
    row.status = .delivering ∧ row.leaseOwner = some leaseToken

/-! ## Rows -/

theorem Owns.unique (balanced : Balanced db) {deliveryId first second : String}
    (owns : Owns db deliveryId first) (others : Owns db deliveryId second) :
    first = second := by
  obtain ⟨row, inside, same, _, owner⟩ := owns
  obtain ⟨other, among, same', _, owner'⟩ := others
  rw [balanced.distinct.eq inside among (same.trans same'.symm),
    owner'] at owner
  exact (Option.some.inj owner).symm

/-- A claim is granted on a delivery that nobody held. -/
theorem claim_exclusive (kept : Kept quota db)
    {input : ClaimPostDeliveryInput} {readable : Bool} {row : RawDeliveryRow}
    (claimed : db.claimNextForPlugin host quota input readable =
      .ok (some row, next)) :
    (∀ token, ¬Owns db row.deliveryId token) ∧
      Owns next row.deliveryId input.leaseToken := by
  obtain ⟨inside, raw, among, pending, _, isClaimed⟩ :=
    (claimTurns_grants kept claimed).granted row rfl
  constructor
  · rintro token ⟨other, there, same, delivering, _⟩
    have sameId : other.deliveryId = raw.deliveryId := by
      rw [same, isClaimed]
      rfl
    rw [kept.balanced.distinct.eq there among sameId, pending] at delivering
    cases delivering
  · refine ⟨row, inside, rfl, ?_⟩
    rw [isClaimed]
    exact ⟨rfl, rfl⟩

/-- A row that has ended stays as it is for as long as it is there. -/
theorem run_ended {db : PostDatabase} (kept : Kept quota db)
    {row found : RawDeliveryRow}
    (settled : ∀ other ∈ db.deliveries,
      other.deliveryId = row.deliveryId → other = row)
    (ended : row.isTerminal = true) {later : List RepositoryOp}
    (apart : ∀ op ∈ later, ¬op.admits row.deliveryId)
    (among : found ∈ (db.run host quota later).deliveries)
    (same : found.deliveryId = row.deliveryId) : found = row := by
  induction later generalizing db with
  | nil => exact settled found among same
  | cons op rest induction =>
      apply induction (apply_kept host kept op) _
        (fun other later => apart other (List.mem_cons_of_mem _ later)) among
      intro other there sameId
      rcases (apply_arrives host kept op).rows other there with
        ⟨old, before, reached⟩ | ⟨admitted, _⟩
      · have oldId := (RowStep.reached_id reached).symm.trans sameId
        rw [settled old before oldId] at reached
        exact RowStep.reached_terminal ended reached
      · rw [sameId] at admitted
        exact absurd admitted (apart op List.mem_cons_self)

theorem run_attempts {db : PostDatabase} (kept : Kept quota db) {limit : Nat}
    (bounded : ∀ row ∈ db.deliveries, row.attemptCount ≤ limit)
    {ops : List RepositoryOp}
    (limits : ∀ op ∈ ops, op.attemptLimit ≤ limit) :
    ∀ row ∈ (db.run host quota ops).deliveries, row.attemptCount ≤ limit := by
  induction ops generalizing db with
  | nil => exact bounded
  | cons op rest induction =>
      apply induction (apply_kept host kept op) _
        (fun other later => limits other (List.mem_cons_of_mem _ later))
      intro found among
      have limited := limits op List.mem_cons_self
      rcases (apply_arrives host kept op).rows found among with
        ⟨row, inside, reached⟩ | ⟨_, unattempted, _⟩
      · have counted := RowStep.reached_attempts reached
        have before := bounded row inside
        omega
      · omega

/-! ## Stale tokens -/

/-- The operation presents a lease or a permit that is not current. -/
def Stale (db : PostDatabase) : RepositoryOp → Prop
  | .complete input breaker =>
      ¬Owns db input.deliveryId input.leaseToken ∨
        db.breakerPermitIsCurrent breaker.pluginId breaker.permit = false
  | .retry input breaker =>
      ¬Owns db input.deliveryId input.leaseToken ∨
        db.breakerPermitIsCurrent breaker.pluginId breaker.permit = false
  | .deadLetter input pluginId permit =>
      ¬Owns db input.deliveryId input.leaseToken ∨
        db.breakerPermitIsCurrent pluginId permit = false
  | .releaseBreakerPermit pluginId permit =>
      db.breakerPermitIsCurrent pluginId permit = false
  | _ => False

theorem ownedRow_none {deliveryId leaseToken : String}
    (lost : ¬Owns db deliveryId leaseToken) :
    db.ownedRow deliveryId leaseToken = none := by
  cases owned : db.ownedRow deliveryId leaseToken with
  | none => rfl
  | some row =>
      obtain ⟨inside, holds⟩ := ownedRow_some owned
      exact absurd ⟨row, inside, holds⟩ lost

theorem complete_stale {input : CompletePostDeliveryInput}
    {breaker : CompleteBreakerInput}
    (stale : ¬Owns db input.deliveryId input.leaseToken ∨
      db.breakerPermitIsCurrent breaker.pluginId breaker.permit = false) :
    db.complete host quota input breaker = .ok (false, db) := by
  unfold complete
  split
  · rfl
  · rename_i current
    rw [ownedRow_none (stale.resolve_right current)]

theorem deadLetter_stale {input : DeadLetterPostDeliveryInput}
    {pluginId : String} {permit : PostDeliveryBreakerPermit}
    (stale : ¬Owns db input.deliveryId input.leaseToken ∨
      db.breakerPermitIsCurrent pluginId permit = false) :
    db.deadLetter host quota input pluginId permit = .ok (false, db) := by
  unfold deadLetter
  split
  · rfl
  · rename_i current
    rw [ownedRow_none (stale.resolve_right current)]

theorem retry_stale {input : RetryPostDeliveryInput}
    {breaker : BreakerFailureInput}
    (stale : ¬Owns db input.deliveryId input.leaseToken ∨
      db.breakerPermitIsCurrent breaker.pluginId breaker.permit = false) :
    db.retry input breaker = (false, db) := by
  unfold retry
  split
  · rfl
  · rename_i current
    have lost := stale.resolve_right current
    have apart : ∀ row ∈ db.deliveries,
        heldBy input.deliveryId input.leaseToken row = false := by
      intro row inside
      rw [← Bool.not_eq_true]
      exact fun held => lost ⟨row, inside, heldBy_iff.mp held⟩
    have unheld : db.deliveries.filter
        (heldBy input.deliveryId input.leaseToken) = [] := by
      rw [List.filter_eq_nil_iff]
      intro row inside
      rw [apart row inside]
      exact Bool.false_ne_true
    unfold updateDeliveries
    dsimp only
    rw [unheld, Table.rewrite_none apart]
    rfl

theorem releaseBreakerPermit_stale {pluginId : String}
    {permit : PostDeliveryBreakerPermit}
    (stale : db.breakerPermitIsCurrent pluginId permit = false) :
    db.releaseBreakerPermit pluginId permit = db := by
  unfold releaseBreakerPermit
  split
  · rfl
  · rename_i probing
    split
    · rfl
    · rename_i row found
      split
      · rename_i holds
        have mode : permit.mode = .halfOpen := Decidable.not_not.mp probing
        unfold breakerPermitIsCurrent at stale
        rw [mode, found] at stale
        simp [holds] at stale
      · rfl

theorem perform_stale {op : RepositoryOp} (stale : Stale db op) :
    db.perform host quota op = .ok db := by
  cases op with
  | complete input breaker =>
      exact congrArg (·.map Prod.snd) (complete_stale stale)
  | retry input breaker =>
      exact congrArg (Except.ok ·.2) (retry_stale stale)
  | deadLetter input pluginId permit =>
      exact congrArg (·.map Prod.snd) (deadLetter_stale stale)
  | releaseBreakerPermit pluginId permit =>
      exact congrArg Except.ok (releaseBreakerPermit_stale stale)
  | _ => exact stale.elim

/-! ## Breakers -/

def ShapedBreakers (db : PostDatabase) : Prop :=
  ∀ pluginId row, db.breakers pluginId = some row → Shaped row

theorem run_shaped {db : PostDatabase} (kept : Kept quota db)
    (shaped : ShapedBreakers db) (ops : List RepositoryOp) :
    ShapedBreakers (db.run host quota ops) := by
  induction ops generalizing db with
  | nil => exact shaped
  | cons op rest induction =>
      apply induction (apply_kept host kept op)
      intro pluginId row found
      rcases (apply_arrives host kept op).breakers pluginId row found with
        old | fresh
      · exact shaped pluginId row old
      · exact fresh

/-- Behind a breaker that is not closed the probe alone is current. -/
theorem current_iff {pluginId : String} {row : RawBreakerRow}
    (found : db.breakers pluginId = some row) (notClosed : row.state ≠ .closed)
    (permit : PostDeliveryBreakerPermit) :
    db.breakerPermitIsCurrent pluginId permit = true ↔
      row.state = .halfOpen ∧ permit.mode = .halfOpen ∧
        row.probeToken = some permit.token := by
  unfold breakerPermitIsCurrent
  rw [found]
  cases mode : permit.mode with
  | closed => simp [notClosed]
  | halfOpen => simp

theorem acquire_halfOpen {pluginId : String} {row : RawBreakerRow}
    (found : db.breakers pluginId = some row)
    (isHalfOpen : row.state = .halfOpen) {expiresAt now : Int}
    (leased : row.probeLeaseExpiresAt = some expiresAt)
    (early : now < expiresAt) (token : String) (leaseExpiresAt : Int) :
    db.acquireBreakerPermit pluginId now token leaseExpiresAt =
      (none, db) := by
  unfold acquireBreakerPermit
  rw [found]
  dsimp only
  rw [isHalfOpen, leased]
  exact if_pos early

theorem acquire_opened {pluginId : String} {row : RawBreakerRow}
    (found : db.breakers pluginId = some row)
    (isOpened : row.state = .opened) {openUntil now : Int}
    (paused : row.openUntil = some openUntil) (early : now < openUntil)
    (token : String) (leaseExpiresAt : Int) :
    db.acquireBreakerPermit pluginId now token leaseExpiresAt =
      (none, db) := by
  unfold acquireBreakerPermit
  rw [found]
  dsimp only
  rw [isOpened, paused]
  exact if_pos early

/-- A probe that is started is the only current one. -/
theorem startProbe_current {pluginId : String} {row : RawBreakerRow}
    {now leaseExpiresAt : Int} {token : String}
    {permit : PostDeliveryBreakerPermit}
    (started : db.startProbe pluginId row now token leaseExpiresAt =
      (some permit, next)) :
    permit = ⟨.halfOpen, token⟩ ∧
      next.breakers pluginId = some
        { row with
          state := .halfOpen
          openUntil := none
          probeToken := some token
          probeLeaseExpiresAt := some leaseExpiresAt
          updatedAt := now } := by
  unfold startProbe at started
  split at started
  · cases started
  · split at started
    · cases started
      exact ⟨rfl, if_pos rfl⟩
    · cases started

theorem acquire_granted {pluginId : String} {row : RawBreakerRow}
    (found : db.breakers pluginId = some row) (notClosed : row.state ≠ .closed)
    {now leaseExpiresAt : Int} {token : String}
    {permit : PostDeliveryBreakerPermit}
    (granted : db.acquireBreakerPermit pluginId now token leaseExpiresAt =
      (some permit, next)) :
    permit = ⟨.halfOpen, token⟩ ∧ ∃ probing,
      next.breakers pluginId = some probing ∧ probing.state = .halfOpen ∧
      probing.probeToken = some token ∧
      probing.probeLeaseExpiresAt = some leaseExpiresAt := by
  unfold acquireBreakerPermit at granted
  rw [found] at granted
  dsimp only at granted
  split at granted
  · rename_i isClosed
    exact absurd isClosed notClosed
  · split at granted
    · cases granted
    · obtain ⟨same, probing⟩ := startProbe_current granted
      exact ⟨same, _, probing, rfl, rfl, rfl⟩
  · split at granted
    · cases granted
    · obtain ⟨same, probing⟩ := startProbe_current granted
      exact ⟨same, _, probing, rfl, rfl, rfl⟩

/-! ## Runs -/

/-- After every run a delivery has one owner, an owned delivery is not claimed
again, an ended one stays as it is, no delivery is attempted past the limit of
its claims, and stale tokens change nothing.  A half-open breaker has one
current permit, that of its probe, and an open breaker has none; no permit is
granted before the lease of the probe or the pause is over, and the one that is
granted then replaces the probe. -/
theorem run_leased (host : RepositoryHost) (quota : PostDeliveryQuotaConfig)
    (ops : List RepositoryOp) :
    let db := run host quota {} ops
    (∀ deliveryId first second, Owns db deliveryId first →
      Owns db deliveryId second → first = second) ∧
    (∀ input readable row next,
      db.claimNextForPlugin host quota input readable =
        .ok (some row, next) →
      (∀ token, ¬Owns db row.deliveryId token) ∧
        Owns next row.deliveryId input.leaseToken) ∧
    (∀ row ∈ db.deliveries, row.isTerminal = true → ∀ later,
      (∀ op ∈ later, ¬RepositoryOp.admits op row.deliveryId) →
      ∀ found ∈ (db.run host quota later).deliveries,
        found.deliveryId = row.deliveryId → found = row) ∧
    (∀ limit, (∀ op ∈ ops, op.attemptLimit ≤ limit) →
      ∀ row ∈ db.deliveries, row.attemptCount ≤ limit) ∧
    (∀ op, Stale db op → db.perform host quota op = .ok db) ∧
    (∀ pluginId row, db.breakers pluginId = some row →
      row.state = .halfOpen → ∃ token expiresAt,
        (∀ permit, db.breakerPermitIsCurrent pluginId permit = true ↔
          permit = ⟨.halfOpen, token⟩) ∧
        ∀ now presented leaseExpiresAt, now < expiresAt →
          db.acquireBreakerPermit pluginId now presented leaseExpiresAt =
            (none, db)) ∧
    (∀ pluginId row, db.breakers pluginId = some row →
      row.state = .opened → ∃ openUntil,
        (∀ permit, db.breakerPermitIsCurrent pluginId permit = false) ∧
        ∀ now presented leaseExpiresAt, now < openUntil →
          db.acquireBreakerPermit pluginId now presented leaseExpiresAt =
            (none, db)) ∧
    (∀ pluginId row, db.breakers pluginId = some row →
      row.state ≠ .closed → ∀ now token leaseExpiresAt permit next,
        db.acquireBreakerPermit pluginId now token leaseExpiresAt =
          (some permit, next) →
        permit = ⟨.halfOpen, token⟩ ∧ ∃ probing,
          next.breakers pluginId = some probing ∧
          probing.state = .halfOpen ∧ probing.probeToken = some token ∧
          probing.probeLeaseExpiresAt = some leaseExpiresAt) := by
  intro db
  have kept : Kept quota db := run_kept host (initial_kept quota) ops
  have shaped : ShapedBreakers db :=
    run_shaped (initial_kept quota) (fun _ _ found => by cases found) ops
  refine ⟨?_, ?_, ?_, ?_, fun _ => perform_stale, ?_, ?_, ?_⟩
  · intro deliveryId first second
    exact Owns.unique kept.balanced
  · intro input readable row next
    exact claim_exclusive kept
  · intro row inside ended later apart found among same
    refine run_ended kept ?_ ended apart among same
    intro other there
    exact kept.balanced.distinct.eq there inside
  · intro limit limits
    refine run_attempts (initial_kept quota) ?_ limits
    intro row inside
    cases inside
  · intro pluginId row found isHalfOpen
    obtain ⟨token, expiresAt, probing, leased⟩ :=
      (shaped pluginId row found).probe isHalfOpen
    refine ⟨token, expiresAt, ?_, ?_⟩
    · intro permit
      have notClosed : row.state ≠ .closed := by
        rw [isHalfOpen]
        exact BreakerMode.noConfusion
      rw [current_iff found notClosed, probing]
      constructor
      · rintro ⟨_, mode, same⟩
        cases permit
        cases mode
        cases same
        rfl
      · rintro rfl
        exact ⟨isHalfOpen, rfl, rfl⟩
    · intro now presented leaseExpiresAt early
      exact acquire_halfOpen found isHalfOpen leased early presented _
  · intro pluginId row found isOpened
    obtain ⟨openUntil, paused⟩ := (shaped pluginId row found).pause isOpened
    refine ⟨openUntil, ?_, ?_⟩
    · intro permit
      have notClosed : row.state ≠ .closed := by
        rw [isOpened]
        exact BreakerMode.noConfusion
      rw [← Bool.not_eq_true, current_iff found notClosed, isOpened]
      rintro ⟨isHalfOpen, _⟩
      cases isHalfOpen
    · intro now presented leaseExpiresAt early
      exact acquire_opened found isOpened paused early presented _
  · intro pluginId row found notClosed now token leaseExpiresAt permit next
    exact acquire_granted found notClosed

end PostDatabase

/-! ## A probe that outlives its lease -/

def twinAdmission (deliveryId : String) (createdAt : Int) :
    PostDeliveryAdmission where
  deliveryId := deliveryId
  deduplicationKey := deliveryId
  hook := .afterComplete
  executable :=
    { pluginId := "p"
      version := "1.0.0"
      digest := "d" }
  createdGeneration := 1
  requiredPermissions := []
  createdEffectivePermissions := []
  occurrenceId := deliveryId
  taskId := "t"
  occurredAt := createdAt
  canonicalPayload := "\x7b\x7d"
  payloadBytes := 2
  permissionSnapshotBytes := 4
  reservedBytes := 518
  createdAt := createdAt
  initialStatus := .pending
  initialReason := none

def twinCapacity : PostDeliveryDatabaseCapacity where
  databaseCapacityBytes := 1073741824
  coreLogicalBytes := 0

def twinClaim (now : Int) (leaseToken : String) : ClaimPostDeliveryInput where
  pluginId := "p"
  now := now
  leaseToken := leaseToken
  leaseExpiresAt := now + 120000
  maxAttempts := 8
  maxActiveAgeMs := 604800000

/-- The first delivery fails, opens the breaker and comes back as the probe. -/
def probingRun : List RepositoryOp :=
  [.admitMany [(twinAdmission "first" 1000, twinCapacity),
      (twinAdmission "second" 1001, twinCapacity)],
    .claimNextForPlugin (twinClaim 2000 "lease-1") true,
    .retry
      { deliveryId := "first"
        leaseToken := "lease-1"
        nextAttemptAt := 70000
        failedAt := 3000 }
      { pluginId := "p"
        permit := ⟨.closed, "closed-1"⟩
        now := 3000
        threshold := 1
        windowMs := 300000
        pauseMs := 60000 },
    .acquireBreakerPermit "p" 70000 "probe-1" 190000,
    .claimNextForPlugin (twinClaim 70000 "lease-2") true]

/-- The breaker is half-open and its probe is being delivered, when a second
permit is granted and the other delivery is claimed under it. -/
theorem lapsedProbe_replaced :
    let host : RepositoryHost := ⟨fun text => text⟩
    let quota := DEFAULT_POST_DELIVERY_QUOTA_CONFIG
    let db := PostDatabase.run host quota {} probingRun
    let (permit, granted) :=
      db.acquireBreakerPermit "p" 200000 "probe-2" 320000
    (db.breakers "p").map (·.state) = some .halfOpen ∧
    permit = some ⟨.halfOpen, "probe-2"⟩ ∧
    (granted.claimNextForPlugin host quota (twinClaim 200000 "lease-3")
      true).toOption.map (fun result => (result.1.map (·.deliveryId),
        result.2.deliveries.map fun row =>
          (row.deliveryId, row.status, row.leaseOwner))) =
      some (some "second", [("first", .delivering, some "lease-2"),
        ("second", .delivering, some "lease-3")]) := by
  decide +kernel

end Motrix.PostDelivery
