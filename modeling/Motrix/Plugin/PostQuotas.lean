import Mathlib.Data.List.Perm.Subperm
import Motrix.Plugin.PostLedger

/-!
# Quotas over runs of the post-delivery repository

Every operation keeps the ledger balanced and the rows within the quotas, and
fails for no want of room.
-/

namespace Motrix.PostDelivery

open Motrix.Lib

theorem RawDeliveryRow.isActive_eq (row : RawDeliveryRow) :
    row.isActive = !row.isTerminal := by
  unfold isActive isTerminal isTerminalStatus
  cases row.status with
  | pending => rfl
  | delivering => rfl
  | delivered => rfl
  | deadLetter => rfl
  | superseded => rfl

theorem RawDeliveryRow.not_terminal {row : RawDeliveryRow}
    (active : row.isActive = true) : row.isTerminal = false := by
  rw [isActive_eq, Bool.not_eq_true'] at active
  exact active

namespace PostDatabase

variable {host : RepositoryHost} {quota : PostDeliveryQuotaConfig}
  {db : PostDatabase}

/-! ## Shares within the quotas -/

theorem over_false {quota : PostDeliveryQuotaConfig} {rows bytes : Int} :
    (db.globalOver quota rows bytes = false ↔
      (db.ledger GLOBAL_SCOPE).terminalRows + rows ≤
          quota.globalTerminalRows ∧
        (db.ledger GLOBAL_SCOPE).terminalBytes + bytes ≤
          quota.globalTerminalBytes) ∧
    ∀ pluginId, db.pluginOver quota pluginId rows bytes = false ↔
      (db.ledger (pluginScope pluginId)).terminalRows + rows ≤
          quota.pluginTerminalRows ∧
        (db.ledger (pluginScope pluginId)).terminalBytes + bytes ≤
          quota.pluginTerminalBytes := by
  unfold globalOver pluginOver
  simp only [Bool.or_eq_false_iff, decide_eq_false_iff_not, gt_iff_lt,
    Int.not_lt, implies_true, and_self]

theorem WithinTerminal.bump (within : WithinTerminal quota db)
    {pluginId : String} {delta : LedgerRow}
    (globally : db.globalOver quota delta.terminalRows delta.terminalBytes =
      false)
    (inPlugin : db.pluginOver quota pluginId delta.terminalRows
      delta.terminalBytes = false) :
    WithinTerminal quota (db.bumpLedger pluginId delta) := by
  have room := over_false.1.mp globally
  have share := (over_false.2 pluginId).mp inPlugin
  constructor
  · intro other
    rw [ledger_bumpLedger]
    split
    · rename_i inside
      rw [inScope_plugin.mp inside]
      exact share.1
    · rw [add_zero]
      exact within.pluginRows other
  · intro other
    rw [ledger_bumpLedger]
    split
    · rename_i inside
      rw [inScope_plugin.mp inside]
      exact share.2
    · rw [add_zero]
      exact within.pluginBytes other
  · rw [ledger_bumpLedger, if_pos (inScope_global pluginId)]
    exact room.1
  · rw [ledger_bumpLedger, if_pos (inScope_global pluginId)]
    exact room.2

theorem WithinActive.bump (within : WithinActive quota db)
    {pluginId : String} {delta : LedgerRow}
    (pluginRows : (db.ledger (pluginScope pluginId)).activeRows +
      delta.activeRows ≤ quota.pluginActiveRows)
    (pluginBytes : (db.ledger (pluginScope pluginId)).activeBytes +
      delta.activeBytes ≤ quota.pluginActiveBytes)
    (globalRows : (db.ledger GLOBAL_SCOPE).activeRows + delta.activeRows ≤
      quota.globalActiveRows)
    (globalBytes : (db.ledger GLOBAL_SCOPE).activeBytes + delta.activeBytes ≤
      quota.globalActiveBytes) :
    WithinActive quota (db.bumpLedger pluginId delta) := by
  constructor
  · intro other
    rw [ledger_bumpLedger]
    split
    · rename_i inside
      rw [inScope_plugin.mp inside]
      exact pluginRows
    · rw [add_zero]
      exact within.pluginRows other
  · intro other
    rw [ledger_bumpLedger]
    split
    · rename_i inside
      rw [inScope_plugin.mp inside]
      exact pluginBytes
    · rw [add_zero]
      exact within.pluginBytes other
  · rw [ledger_bumpLedger, if_pos (inScope_global pluginId)]
    exact globalRows
  · rw [ledger_bumpLedger, if_pos (inScope_global pluginId)]
    exact globalBytes

/-- A share that takes nothing is within the quotas. -/
theorem WithinActive.release (within : WithinActive quota db)
    (pluginId : String) {delta : LedgerRow} (rows : delta.activeRows ≤ 0)
    (bytes : delta.activeBytes ≤ 0) :
    WithinActive quota (db.bumpLedger pluginId delta) := by
  apply within.congr
  intro scope
  rw [ledger_bumpLedger]
  split
  · constructor
    · show (db.ledger scope).activeRows + delta.activeRows ≤ _
      omega
    · show (db.ledger scope).activeBytes + delta.activeBytes ≤ _
      omega
  · rw [add_zero]
    exact ⟨Int.le_refl _, Int.le_refl _⟩

/-! ## One row reaches its end -/

theorem updated_once (change : RawDeliveryRow → RawDeliveryRow)
    (balanced : Balanced db) {chosen : RawDeliveryRow → Bool}
    {row : RawDeliveryRow}
    (inside : row ∈ db.deliveries) (isChosen : chosen row = true)
    (only : ∀ other ∈ db.deliveries, chosen other = true →
      other.deliveryId = row.deliveryId) :
    (db.updateDeliveries chosen change).1 = 1 := by
  show (db.deliveries.filter chosen).length = 1
  rw [Table.filter_only balanced.distinct inside isChosen only]
  rfl

theorem Kept.ends (kept : Kept quota db) {chosen : RawDeliveryRow → Bool}
    {row : RawDeliveryRow} (status : PostDeliveryStatus) (receipt : String)
    (reason : Option PostDeliveryPermanentReason) (now : Int)
    (inside : row ∈ db.deliveries) (active : row.isTerminal = false)
    (isChosen : chosen row = true)
    (only : ∀ other ∈ db.deliveries, chosen other = true →
      other.deliveryId = row.deliveryId)
    (ends : isTerminalStatus status = true)
    (globally : db.globalOver quota 1 (receiptCharge receipt) = false)
    (inPlugin : db.pluginOver quota row.pluginId 1 (receiptCharge receipt) =
      false) :
    Kept quota ((db.updateDeliveries chosen
      (endedRow status receipt reason now)).2.moveActiveToTerminal
        row.pluginId row.reservedBytes (receiptCharge receipt)) := by
  let change := endedRow status receipt reason now
  let delta : LedgerRow :=
    { activeRows := -1
      activeBytes := -(row.reservedBytes : Int)
      terminalRows := 1
      terminalBytes := receiptCharge receipt }
  have ended : (change row).isTerminal = true := ends
  have charge : delta = -chargeOf row + chargeOf (change row) := by
    rw [chargeOf_active active, chargeOf_terminal ended]
    ext
    all_goals simp [delta, change, endedRow]
  have shares : ∀ scope,
      recount (Table.rewrite chosen change db.deliveries) scope =
        recount db.deliveries scope +
          if InScope scope row.pluginId then delta else 0 := by
    intro scope
    refine (Table.total_rewrite kept.balanced.distinct inside isChosen
      only).trans ?_
    rw [sub_eq_add_neg, add_assoc, charge]
    congr 1
    show -shareOf scope row + (if InScope scope row.pluginId then
        chargeOf (change row) else 0) = _
    unfold shareOf
    split
    · rfl
    · exact (add_zero _).trans neg_zero
  let updated := (db.updateDeliveries chosen change).2
  have activeNow : WithinActive quota updated :=
    kept.active.congr fun _ => ⟨Int.le_refl _, Int.le_refl _⟩
  have terminalNow : WithinTerminal quota updated :=
    kept.terminal.congr fun _ => ⟨Int.le_refl _, Int.le_refl _⟩
  have released : delta.activeBytes ≤ 0 := by
    show -(row.reservedBytes : Int) ≤ 0
    omega
  have takenGlobally : updated.globalOver quota delta.terminalRows
      delta.terminalBytes = false := globally
  have takenInPlugin : updated.pluginOver quota row.pluginId
      delta.terminalRows delta.terminalBytes = false := inPlugin
  constructor
  · exact kept.balanced.bump
      (kept.balanced.distinct.rewrite fun _ => rfl) shares
  · exact activeNow.release row.pluginId (show (-1 : Int) ≤ 0 by decide)
      released
  · exact terminalNow.bump takenGlobally takenInPlugin

/-- A row and the active rows beside it after it has reached its end. -/
structure Ended (quota : PostDeliveryQuotaConfig) (before : PostDatabase)
    (row : RawDeliveryRow) (after : PostDatabase) : Prop where
  kept : Kept quota after
  others : ∀ other ∈ before.deliveries, other.isTerminal = false →
    other.deliveryId ≠ row.deliveryId → other ∈ after.deliveries
  fewer : ∀ other ∈ after.deliveries, other.isTerminal = false →
    other ∈ before.deliveries ∧ other.deliveryId ≠ row.deliveryId

theorem ensure_kept (host : RepositoryHost) (kept : Kept quota db)
    (pluginId : String) {incoming : Nat} (small : incoming ≤ 1540)
    (now : Int) :
    ∃ room, db.ensureTerminalCapacity host quota pluginId incoming now =
        .ok room ∧ Kept quota room ∧ Pruned db room ∧
      room.globalOver quota 1 incoming = false ∧
      room.pluginOver quota pluginId 1 incoming = false := by
  obtain ⟨room, found, balanced, pruned, fits⟩ := ensureTurns_ok now pluginId
    small db.deliveries.length kept.balanced (Nat.le_refl _)
  exact ⟨room, found, kept.pruned balanced pruned, pruned, fits⟩

theorem compact_error {receipt : PostDeliveryTerminalReceipt}
    {failure : PostDeliveryError}
    (failed : compactTerminalReceipt receipt = .error failure) :
    failure = .receiptTooLarge := by
  unfold compactTerminalReceipt at failed
  dsimp only at failed
  split at failed
  · cases failed
    rfl
  · cases failed

theorem terminalizeRow_kept (host : RepositoryHost) (kept : Kept quota db)
    {row : RawDeliveryRow} (inside : row ∈ db.deliveries)
    (active : row.isActive = true) (reason : PostDeliveryPermanentReason)
    (now : Int) {terminalStatus : PostDeliveryStatus}
    (ends : isTerminalStatus terminalStatus = true) :
    db.terminalizeRow host quota row reason now terminalStatus =
        .error .receiptTooLarge ∨
      ∃ next, db.terminalizeRow host quota row reason now terminalStatus =
        .ok next ∧ Ended quota db row next := by
  cases compacts : compactTerminalReceipt
      { deliveryId := row.deliveryId
        pluginId := row.pluginId
        hook := row.hook
        status := terminalStatus
        completedAt := now
        attemptCount := row.attemptCount
        reason := some reason } with
  | error failure =>
      left
      unfold terminalizeRow
      rw [compacts, compact_error compacts]
      rfl
  | ok receipt =>
      right
      obtain ⟨room, found, within, pruned, globally, inPlugin⟩ :=
        ensure_kept host kept row.pluginId (receiptCharge_le compacts) now
      have notTerminal := row.not_terminal active
      have inRoom := pruned.active row inside notTerminal
      have only : ∀ other ∈ room.deliveries,
          (other.deliveryId == row.deliveryId && other.isActive) = true →
            other.deliveryId = row.deliveryId := by
        intro other _ isChosen
        exact beq_iff_eq.mp (Bool.and_eq_true_iff.mp isChosen).1
      have isChosen : (row.deliveryId == row.deliveryId && row.isActive) =
          true := by
        rw [active, beq_self_eq_true]
        rfl
      have once := updated_once
        (endedRow terminalStatus receipt (some reason) now) within.balanced inRoom
        isChosen only
      let change := endedRow terminalStatus receipt (some reason) now
      let next := (room.updateDeliveries (fun other =>
        other.deliveryId == row.deliveryId && other.isActive)
          change).2.moveActiveToTerminal row.pluginId row.reservedBytes
            (receiptCharge receipt)
      have finished : db.terminalizeRow host quota row reason now
          terminalStatus = .ok next :=
        bind_eq_ok.mpr ⟨receipt, compacts,
          bind_eq_ok.mpr ⟨room, found, if_pos once⟩⟩
      refine ⟨next, finished, ?_, ?_, ?_⟩
      · exact within.ends terminalStatus receipt (some reason) now inRoom
          notTerminal isChosen only ends globally inPlugin
      · intro other among alive apart
        refine Table.mem_rewrite.mpr ⟨other,
          pruned.active other among alive, if_neg ?_⟩
        intro chosen
        exact apart (only other (pruned.active other among alive) chosen)
      · intro other among alive
        obtain ⟨old, there, changed⟩ := Table.mem_rewrite.mp among
        split at changed
        · rw [← changed] at alive
          cases ends.symm.trans alive
        · rename_i unchosen
          subst changed
          refine ⟨pruned.rows old there, ?_⟩
          intro same
          rw [within.balanced.distinct.eq there inRoom same] at unchosen
          exact unchosen isChosen

/-! ## Operations on active rows -/

/-- A result within the quotas, or a failure that is no want of room; where
the rows are reserved, it is no mismatch either. -/
structure Sane (quota : PostDeliveryQuotaConfig) (reserved : Prop)
    (result : Except PostDeliveryError PostDatabase) : Prop where
  kept : ∀ next, result = .ok next → Kept quota next
  fails : ∀ failure, result = .error failure →
    failure ≠ .terminalCannotFit ∧
      (reserved → failure ≠ .reservationMismatch)

variable {reserved : Prop}

theorem Sane.ok (kept : Kept quota db) : Sane quota reserved (.ok db) where
  kept next done := by
    cases done
    exact kept
  fails failure failed := by
    cases failed

theorem Sane.error {failure : PostDeliveryError}
    (fits : failure ≠ .terminalCannotFit)
    (matched : reserved → failure ≠ .reservationMismatch) :
    Sane quota reserved (.error failure) where
  kept next done := by
    cases done
  fails other failed := by
    cases failed
    exact ⟨fits, matched⟩

theorem sane_tooLarge : Sane quota reserved (.error .receiptTooLarge) :=
  Sane.error PostDeliveryError.noConfusion
    fun _ => PostDeliveryError.noConfusion

theorem compact_fails {receipt : PostDeliveryTerminalReceipt}
    {failure : PostDeliveryError}
    (failed : compactTerminalReceipt receipt = .error failure) :
    failure ≠ .terminalCannotFit ∧
      (reserved → failure ≠ .reservationMismatch) := by
  rw [compact_error failed]
  exact ⟨PostDeliveryError.noConfusion,
    fun _ => PostDeliveryError.noConfusion⟩

theorem Sane.bind {first : Except PostDeliveryError PostDatabase}
    {next : PostDatabase → Except PostDeliveryError PostDatabase}
    (sane : Sane quota reserved first)
    (goes : ∀ value, first = .ok value → Kept quota value →
      Sane quota reserved (next value)) : Sane quota reserved (first >>= next) := by
  cases first with
  | error failure =>
      obtain ⟨fits, matched⟩ := sane.fails failure rfl
      exact Sane.error fits matched
  | ok value => exact goes value rfl (sane.kept value rfl)

/-- A step before the result that does not fail for want of room. -/
theorem Sane.step {Value Result : Type}
    {first : Except PostDeliveryError Value}
    {next : Value → Except PostDeliveryError Result}
    {view : Result → PostDatabase}
    (fails : ∀ failure, first = .error failure →
      failure ≠ .terminalCannotFit ∧
        (reserved → failure ≠ .reservationMismatch))
    (goes : ∀ value, first = .ok value →
      Sane quota reserved ((next value).map view)) :
    Sane quota reserved ((first >>= next).map view) := by
  cases first with
  | error failure =>
      obtain ⟨fits, matched⟩ := fails failure rfl
      exact Sane.error fits matched
  | ok value => exact goes value rfl

theorem terminalizeRow_sane {row : RawDeliveryRow}
    {reason : PostDeliveryPermanentReason} {now : Int}
    {terminalStatus : PostDeliveryStatus}
    (ends : db.terminalizeRow host quota row reason now terminalStatus =
        .error .receiptTooLarge ∨
      ∃ next, db.terminalizeRow host quota row reason now terminalStatus =
        .ok next ∧ Ended quota db row next) :
    Sane quota reserved (db.terminalizeRow host quota row reason now
      terminalStatus) := by
  rcases ends with failed | ⟨next, done, ended⟩
  · rw [failed]
    exact sane_tooLarge
  · rw [done]
    exact Sane.ok ended.kept

theorem Kept.congr (kept : Kept quota db) {next : PostDatabase}
    (rows : next.deliveries = db.deliveries)
    (ledgerRows : next.ledgerRows = db.ledgerRows) : Kept quota next := by
  have ledger : ∀ scope, next.ledger scope = db.ledger scope := by
    intro scope
    unfold PostDatabase.ledger
    rw [ledgerRows]
  constructor
  · constructor
    · rw [rows]
      exact kept.balanced.distinct
    · intro scope
      rw [ledger, rows]
      exact kept.balanced.ledger scope
  · exact kept.active.congr fun scope => by
      rw [ledger]
      exact ⟨Int.le_refl _, Int.le_refl _⟩
  · exact kept.terminal.congr fun scope => by
      rw [ledger]
      exact ⟨Int.le_refl _, Int.le_refl _⟩

theorem Kept.rewrite (kept : Kept quota db)
    {chosen : RawDeliveryRow → Bool}
    {change : RawDeliveryRow → RawDeliveryRow}
    (keeps : ∀ row, (change row).deliveryId = row.deliveryId)
    (same : ∀ row ∈ db.deliveries, chosen row = true →
      (change row).pluginId = row.pluginId ∧
      chargeOf (change row) = chargeOf row) :
    Kept quota (db.updateDeliveries chosen change).2 where
  balanced := kept.balanced.rewrite keeps same
  active := kept.active.congr fun _ => ⟨Int.le_refl _, Int.le_refl _⟩
  terminal := kept.terminal.congr fun _ => ⟨Int.le_refl _, Int.le_refl _⟩

theorem chargeOf_congr {row other : RawDeliveryRow}
    (active : row.isTerminal = false) (alive : other.isTerminal = false)
    (bytes : other.reservedBytes = row.reservedBytes) :
    chargeOf other = chargeOf row := by
  rw [chargeOf_active active, chargeOf_active alive, bytes]

theorem fold_enforce (within : WithinTerminal quota db) (now : Int)
    (pluginIds : List String) :
    pluginIds.foldl (fun kept pluginId =>
      kept.enforceTerminalQuotas host quota now pluginId) db = db := by
  induction pluginIds with
  | nil => rfl
  | cons pluginId rest induction =>
      rw [List.foldl_cons, enforce_within within]
      exact induction

theorem terminalStatusOf_terminal (reason : PostDeliveryPermanentReason) :
    isTerminalStatus (terminalStatusOf reason) = true := by
  cases reason with
  | superseded => rfl
  | _ => rfl

theorem terminalizeRows_sane (host : RepositoryHost)
    (kept : Kept quota db) {rows : List RawDeliveryRow}
    (distinct : Table.Distinct RawDeliveryRow.deliveryId rows)
    (active : ∀ row ∈ rows, row ∈ db.deliveries ∧ row.isActive = true)
    (reason : PostDeliveryPermanentReason) (now : Int) :
    Sane quota reserved (db.terminalizeRows host quota rows reason now) := by
  induction rows generalizing db with
  | nil => exact Sane.ok kept
  | cons row rest induction =>
      obtain ⟨fresh, distinct⟩ := List.nodup_cons.mp distinct
      obtain ⟨inside, alive⟩ := active row List.mem_cons_self
      have ends := terminalizeRow_kept host kept inside alive reason now
        (terminalStatusOf_terminal reason)
      unfold terminalizeRows
      rw [List.foldlM_cons]
      apply Sane.bind (terminalizeRow_sane ends)
      intro value done _
      rcases ends with failed | ⟨next, finished, ended⟩
      · rw [failed] at done
        cases done
      · cases finished.symm.trans done
        apply induction ended.kept distinct
        intro other later
        obtain ⟨there, otherAlive⟩ :=
          active other (List.mem_cons_of_mem _ later)
        refine ⟨ended.others other there (other.not_terminal otherAlive) ?_,
          otherAlive⟩
        intro same
        exact fresh (List.mem_map.mpr ⟨other, later, same⟩)

theorem mem_activeRows {chosen : RawDeliveryRow → Bool}
    {row : RawDeliveryRow} : row ∈ db.activeRows chosen ↔
      row ∈ db.deliveries ∧ row.isActive = true ∧ chosen row = true := by
  unfold activeRows
  rw [List.mem_mergeSort, List.mem_filter, Bool.and_eq_true_iff]

theorem activeRows_distinct (balanced : Balanced db)
    (chosen : RawDeliveryRow → Bool) :
    Table.Distinct RawDeliveryRow.deliveryId (db.activeRows chosen) := by
  have sorted := (List.mergeSort_perm (db.deliveries.filter fun row =>
    row.isActive && chosen row) (oldestFirst (·.createdAt))).map
      RawDeliveryRow.deliveryId
  exact sorted.nodup_iff.mpr
    (balanced.distinct.sublist (List.filter_sublist.map _))

theorem terminalizeWhere_sane (host : RepositoryHost)
    (kept : Kept quota db) (chosen : RawDeliveryRow → Bool)
    (reason : PostDeliveryPermanentReason) (now : Int) :
    Sane quota reserved (db.terminalizeWhere host quota chosen reason now) := by
  have active : ∀ row ∈ db.activeRows chosen, row ∈ db.deliveries ∧
      row.isActive = true := by
    intro row inside
    have found := mem_activeRows.mp inside
    exact ⟨found.1, found.2.1⟩
  apply Sane.bind (terminalizeRows_sane host kept
    (activeRows_distinct kept.balanced chosen) active reason now)
  intro ended _ within
  rw [fold_enforce within.terminal]
  exact Sane.ok within

theorem terminalizePermissionRevoked_sane (host : RepositoryHost)
    (kept : Kept quota db) (pluginId : String) (revoked : List String)
    (now : Int) :
    Sane quota reserved
      (db.terminalizePermissionRevoked host quota pluginId revoked now) := by
  let chosen := (db.activeRows (·.pluginId == pluginId)).filter fun row =>
    row.requiredPermissions.any fun permission => revoked.contains permission
  have distinct : Table.Distinct RawDeliveryRow.deliveryId chosen :=
    (activeRows_distinct kept.balanced _).sublist
      (List.filter_sublist.map _)
  have active : ∀ row ∈ chosen, row ∈ db.deliveries ∧
      row.isActive = true := by
    intro row inside
    have found := mem_activeRows.mp (List.mem_filter.mp inside).1
    exact ⟨found.1, found.2.1⟩
  apply Sane.bind
    (terminalizeRows_sane host kept distinct active .permissionRevoked now)
  intro ended _ within
  rw [enforce_within within.terminal]
  exact Sane.ok within

/-! ## Claims -/

theorem readRawDelivery_some {deliveryId : String} {row : RawDeliveryRow}
    (found : db.readRawDelivery deliveryId = some row) :
    row ∈ db.deliveries ∧ row.deliveryId = deliveryId := by
  have same := List.find?_some found
  exact ⟨List.mem_of_find?_eq_some found, beq_iff_eq.mp same⟩

theorem claimed_kept (kept : Kept quota db) (input : ClaimPostDeliveryInput)
    (deliveryId : String) :
    Kept quota (db.updateDeliveries
      (fun row => row.deliveryId == deliveryId && row.status == .pending)
      (claimedRow input)).2 := by
  apply kept.rewrite
  · intro row
    rfl
  · intro row _ isChosen
    have pending : row.status = .pending :=
      beq_iff_eq.mp (Bool.and_eq_true_iff.mp isChosen).2
    refine ⟨rfl, chargeOf_congr ?_ rfl rfl⟩
    unfold RawDeliveryRow.isTerminal
    rw [pending]
    rfl

/-- The row of the delivery just claimed is active. -/
theorem claimed_active (balanced : Balanced db)
    {input : ClaimPostDeliveryInput} {raw row : RawDeliveryRow}
    (inside : raw ∈ db.deliveries) (pending : raw.status = .pending)
    (found : (db.updateDeliveries
      (fun row => row.deliveryId == raw.deliveryId &&
        row.status == .pending) (claimedRow input)).2.readRawDelivery
          raw.deliveryId = some row) : row = claimedRow input raw := by
  obtain ⟨among, same⟩ := readRawDelivery_some found
  obtain ⟨old, there, change⟩ := Table.mem_rewrite.mp among
  have sameId : old.deliveryId = row.deliveryId := by
    rw [← change]
    split
    · rfl
    · rfl
  have isRaw : old = raw :=
    balanced.distinct.eq there inside (sameId.trans same)
  subst isRaw
  rw [← change, pending]
  simp

theorem pending_active {row : RawDeliveryRow}
    (pending : row.status = .pending) : row.isActive = true := by
  unfold RawDeliveryRow.isActive
  rw [pending]
  rfl

theorem claimRow_sane (host : RepositoryHost) (kept : Kept quota db)
    (input : ClaimPostDeliveryInput) {raw : RawDeliveryRow}
    (inside : raw ∈ db.deliveries) (pending : raw.status = .pending)
    (readable : Bool) :
    Sane quota reserved ((db.claimRow host quota input raw readable).map
      Prod.snd) := by
  have claimed := claimed_kept kept input raw.deliveryId
  unfold claimRow
  dsimp only
  split
  · exact Sane.ok claimed
  · split
    · exact Sane.ok claimed
    · rename_i row found
      split
      · split
        · exact Sane.ok claimed
        · exact Sane.ok claimed
      · have same := claimed_active kept.balanced inside pending found
        have active : row.isActive = true := by
          rw [same]
          rfl
        have there := (readRawDelivery_some found).1
        have isEnd : isTerminalStatus .deadLetter = true := rfl
        have ends := terminalizeRow_kept host claimed there active
          .inputInvalid input.now isEnd
        have sane : Sane quota reserved _ := terminalizeRow_sane ends
        apply Sane.step sane.fails
        intro ended done
        have within := sane.kept ended done
        rw [enforce_within within.terminal]
        exact Sane.ok within

theorem claimTurns_sane (host : RepositoryHost) (kept : Kept quota db)
    (input : ClaimPostDeliveryInput) (readable : Bool) (turns : Nat) :
    Sane quota reserved ((claimTurns host quota input readable turns db).map
      Prod.snd) := by
  induction turns generalizing db with
  | zero => exact Sane.ok kept
  | succ turns induction =>
      unfold claimTurns
      split
      · exact Sane.ok kept
      · rename_i raw found
        obtain ⟨inside, chosen⟩ := List.mem_filter.mp (firstBy_mem found)
        have pending : raw.status = .pending :=
          beq_iff_eq.mp (Bool.and_eq_true_iff.mp
            (Bool.and_eq_true_iff.mp chosen).2).1
        split
        · exact claimRow_sane host kept input inside pending readable
        · rename_i reason _
          have active := pending_active pending
          have ends := terminalizeRow_kept host kept inside active reason
            input.now (terminalStatusOf_terminal reason)
          have sane : Sane quota reserved _ := terminalizeRow_sane ends
          apply Sane.step sane.fails
          intro ended done
          have within := sane.kept ended done
          rw [enforce_within within.terminal]
          exact induction within

/-! ## Closing transitions -/

theorem ownedRow_some {deliveryId leaseToken : String} {row : RawDeliveryRow}
    (owned : db.ownedRow deliveryId leaseToken = some row) :
    row ∈ db.deliveries ∧ row.deliveryId = deliveryId ∧
      row.status = .delivering ∧ row.leaseOwner = some leaseToken := by
  unfold ownedRow at owned
  split at owned
  · cases owned
  · rename_i found isFound
    split at owned
    · rename_i holds
      cases owned
      obtain ⟨inside, same⟩ := readRawDelivery_some isFound
      exact ⟨inside, same, holds⟩
    · cases owned

theorem heldBy_iff {deliveryId leaseToken : String} {row : RawDeliveryRow} :
    heldBy deliveryId leaseToken row = true ↔ row.deliveryId = deliveryId ∧
      row.status = .delivering ∧ row.leaseOwner = some leaseToken := by
  unfold heldBy
  rw [Bool.and_eq_true_iff, Bool.and_eq_true_iff, beq_iff_eq, beq_iff_eq,
    beq_iff_eq, and_assoc]

theorem delivering_active {row : RawDeliveryRow}
    (delivering : row.status = .delivering) : row.isActive = true := by
  unfold RawDeliveryRow.isActive
  rw [delivering]
  rfl

theorem closeBreaker_kept (kept : Kept quota db) (pluginId : String)
    (permit : PostDeliveryBreakerPermit) (now : Int) :
    Kept quota (db.closeBreaker pluginId permit now) := by
  unfold closeBreaker
  split
  · exact kept
  · exact kept.congr rfl rfl

theorem complete_sane (host : RepositoryHost) (kept : Kept quota db)
    (input : CompletePostDeliveryInput) (breaker : CompleteBreakerInput) :
    Sane quota reserved ((db.complete host quota input breaker).map Prod.snd) := by
  unfold complete
  split
  · exact Sane.ok kept
  · split
    · exact Sane.ok kept
    · rename_i row owned
      obtain ⟨inside, sameId, delivering, holds⟩ := ownedRow_some owned
      have active := row.not_terminal (delivering_active delivering)
      apply Sane.step
      · exact fun _ failed => compact_fails failed
      · intro receipt compacts
        obtain ⟨room, found, within, pruned, globally, inPlugin⟩ :=
          ensure_kept host kept row.pluginId (receiptCharge_le compacts)
            breaker.now
        have inRoom := pruned.active row inside active
        have only : ∀ other ∈ room.deliveries,
            heldBy input.deliveryId input.leaseToken other = true →
              other.deliveryId = row.deliveryId := by
          intro other _ held
          rw [sameId]
          exact (heldBy_iff.mp held).1
        have isHeld : heldBy input.deliveryId input.leaseToken row = true :=
          heldBy_iff.mpr ⟨sameId, delivering, holds⟩
        have once := updated_once (endedRow .delivered receipt none
          breaker.now) within.balanced inRoom isHeld only
        have ended := within.ends .delivered receipt none breaker.now inRoom
          active isHeld only rfl globally inPlugin
        dsimp only
        apply Sane.step
        · intro failure failed
          cases found.symm.trans failed
        · intro value done
          cases found.symm.trans done
          rw [if_neg (not_not_intro once)]
          have closed := closeBreaker_kept ended breaker.pluginId
            breaker.permit breaker.now
          rw [enforce_within closed.terminal]
          exact Sane.ok closed

theorem deadLetter_sane (host : RepositoryHost) (kept : Kept quota db)
    (input : DeadLetterPostDeliveryInput) (pluginId : String)
    (permit : PostDeliveryBreakerPermit) :
    Sane quota reserved ((db.deadLetter host quota input pluginId permit).map
      Prod.snd) := by
  unfold deadLetter
  split
  · exact Sane.ok kept
  · split
    · exact Sane.ok kept
    · rename_i row owned
      obtain ⟨inside, _, delivering, _⟩ := ownedRow_some owned
      have isEnd : isTerminalStatus
          (if input.superseded then .superseded else .deadLetter) = true := by
        split
        · rfl
        · rfl
      have ends := terminalizeRow_kept host kept inside
        (delivering_active delivering) input.reason input.completedAt isEnd
      have sane : Sane quota reserved _ := terminalizeRow_sane ends
      apply Sane.step sane.fails
      intro ended done
      have closed := closeBreaker_kept (sane.kept ended done) pluginId permit
        input.completedAt
      dsimp only
      rw [enforce_within closed.terminal]
      exact Sane.ok closed

theorem retry_kept (kept : Kept quota db) (input : RetryPostDeliveryInput)
    (breaker : BreakerFailureInput) :
    Kept quota (db.retry input breaker).2 := by
  have released : Kept quota (db.updateDeliveries
      (heldBy input.deliveryId input.leaseToken) fun row =>
        { row with
          status := .pending
          leaseOwner := none
          leaseExpiresAt := none
          nextAttemptAt := input.nextAttemptAt
          updatedAt := input.failedAt }).2 := by
    apply kept.rewrite
    · intro row
      rfl
    · intro row _ held
      have delivering := (heldBy_iff.mp held).2.1
      exact ⟨rfl, chargeOf_congr
        (row.not_terminal (delivering_active delivering)) rfl rfl⟩
  unfold retry
  split
  · exact kept
  · dsimp only
    split
    · exact released
    · exact released.congr rfl rfl

/-! ## Breakers and leases -/

theorem startProbe_kept (kept : Kept quota db) (pluginId : String)
    (row : RawBreakerRow) (now : Int) (token : String)
    (leaseExpiresAt : Int) :
    Kept quota (db.startProbe pluginId row now token leaseExpiresAt).2 := by
  unfold startProbe
  split
  · exact kept
  · split
    · exact kept.congr rfl rfl
    · exact kept

theorem acquireBreakerPermit_kept (kept : Kept quota db) (pluginId : String)
    (now : Int) (token : String) (leaseExpiresAt : Int) :
    Kept quota
      (db.acquireBreakerPermit pluginId now token leaseExpiresAt).2 := by
  unfold acquireBreakerPermit
  split
  · exact kept
  · split
    · exact kept
    · split
      · exact kept
      · rename_i row _ _ _ _
        have reopened : Kept quota
            (db.setBreaker pluginId (openedRow row now now)) :=
          kept.congr rfl rfl
        exact startProbe_kept reopened pluginId _ now token leaseExpiresAt
    · split
      · exact kept
      · exact startProbe_kept kept pluginId _ now token leaseExpiresAt

theorem releaseBreakerPermit_kept (kept : Kept quota db) (pluginId : String)
    (permit : PostDeliveryBreakerPermit) :
    Kept quota (db.releaseBreakerPermit pluginId permit) := by
  unfold releaseBreakerPermit
  split
  · exact kept
  · split
    · exact kept
    · split
      · exact kept.congr rfl rfl
      · exact kept

theorem recoverExpiredLeases_kept (kept : Kept quota db) (now : Int) :
    Kept quota (db.recoverExpiredLeases now) := by
  unfold recoverExpiredLeases
  dsimp only
  refine Kept.congr (Kept.rewrite kept ?_ ?_) rfl rfl
  · intro row
    rfl
  · intro row _ isChosen
    have delivering : row.status = .delivering :=
      beq_iff_eq.mp (Bool.and_eq_true_iff.mp isChosen).1
    exact ⟨rfl, chargeOf_congr
      (row.not_terminal (delivering_active delivering)) rfl rfl⟩

/-! ## Maintenance -/

theorem ledger_recounted (rows : List RawDeliveryRow) (scope : String) :
    (rows.foldl (fun counted row =>
      counted.bumpLedger row.pluginId (chargeOf row)) db).ledger scope =
        db.ledger scope + recount rows scope := by
  induction rows generalizing db with
  | nil => exact (add_zero _).symm
  | cons row rest induction =>
      rw [List.foldl_cons, induction, ledger_bumpLedger, add_assoc]
      rfl

theorem recounted_deliveries (rows : List RawDeliveryRow) :
    (rows.foldl (fun counted row =>
      counted.bumpLedger row.pluginId (chargeOf row)) db).deliveries =
        db.deliveries := by
  induction rows generalizing db with
  | nil => rfl
  | cons row rest induction =>
      rw [List.foldl_cons, induction]
      rfl

/-- Reconciliation counts what a balanced ledger already says. -/
theorem reconcileLedger_same (balanced : Balanced db) (scope : String) :
    db.reconcileLedger.ledger scope = db.ledger scope := by
  unfold reconcileLedger
  rw [ledger_recounted, balanced.ledger]
  exact zero_add _

theorem reconcileLedger_kept (kept : Kept quota db) :
    Kept quota db.reconcileLedger := by
  have ledger := reconcileLedger_same kept.balanced
  have rows : db.reconcileLedger.deliveries = db.deliveries :=
    recounted_deliveries db.deliveries
  constructor
  · constructor
    · rw [rows]
      exact kept.balanced.distinct
    · intro scope
      rw [ledger, rows]
      exact kept.balanced.ledger scope
  · apply kept.active.congr
    intro scope
    rw [ledger]
    exact ⟨Int.le_refl _, Int.le_refl _⟩
  · apply kept.terminal.congr
    intro scope
    rw [ledger]
    exact ⟨Int.le_refl _, Int.le_refl _⟩

theorem pruneRows_kept (host : RepositoryHost) (kept : Kept quota db)
    {rows : List RawDeliveryRow}
    (distinct : Table.Distinct RawDeliveryRow.deliveryId rows)
    (ended : ∀ row ∈ rows, row ∈ db.deliveries ∧ row.isTerminal = true)
    (reason : String) (now : Int) :
    Kept quota (rows.foldl (fun left row =>
      left.pruneTerminalRow host row reason now) db) := by
  induction rows generalizing db with
  | nil => exact kept
  | cons row rest induction =>
      obtain ⟨fresh, distinct⟩ := List.nodup_cons.mp distinct
      obtain ⟨inside, isTerminal⟩ := ended row List.mem_cons_self
      obtain ⟨balanced, pruned⟩ := pruneTerminalRow_balanced host
        kept.balanced inside isTerminal reason now
      apply induction (kept.pruned balanced pruned) distinct
      intro other later
      obtain ⟨there, ends⟩ := ended other (List.mem_cons_of_mem _ later)
      refine ⟨Table.mem_remove.mpr ⟨there, ?_⟩, ends⟩
      intro same
      exact fresh (List.mem_map.mpr ⟨other, later, same⟩)

theorem pruneTerminalReceipts_kept (host : RepositoryHost)
    (kept : Kept quota db) (before : Int) :
    Kept quota (db.pruneTerminalReceipts host before) := by
  apply pruneRows_kept host kept
  · have sorted := (List.mergeSort_perm (db.deliveries.filter fun row =>
      row.isTerminal && decide (row.updatedAt < before))
        (oldestFirst (·.updatedAt))).map RawDeliveryRow.deliveryId
    exact sorted.nodup_iff.mpr
      (kept.balanced.distinct.sublist (List.filter_sublist.map _))
  · intro row inside
    obtain ⟨there, chosen⟩ :=
      List.mem_filter.mp (List.mem_mergeSort.mp inside)
    exact ⟨there, (Bool.and_eq_true_iff.mp chosen).1⟩

/-! ## Admission -/

theorem admission_fits {capacity : PostDeliveryDatabaseCapacity}
    {admission : PostDeliveryAdmission}
    (pending : admission.initialStatus = .pending)
    (allowed : db.admissionRejection quota capacity admission = .ok none) :
    (db.ledger (pluginScope admission.executable.pluginId)).activeRows + 1 ≤
        quota.pluginActiveRows ∧
      (db.ledger (pluginScope admission.executable.pluginId)).activeBytes +
        admission.reservedBytes ≤ quota.pluginActiveBytes ∧
      (db.ledger GLOBAL_SCOPE).activeRows + 1 ≤ quota.globalActiveRows ∧
      (db.ledger GLOBAL_SCOPE).activeBytes + admission.reservedBytes ≤
        quota.globalActiveBytes := by
  unfold admissionRejection incomingBytesOf at allowed
  rw [pending] at allowed
  have allowed' : db.rejectionOf quota capacity admission
    admission.reservedBytes = .ok none := allowed
  unfold rejectionOf at allowed'
  dsimp only at allowed'
  split at allowed'
  · cases allowed'
  · rename_i pluginRows
    split at allowed'
    · cases allowed'
    · rename_i pluginBytes
      split at allowed'
      · cases allowed'
      · rename_i globalRows
        split at allowed'
        · cases allowed'
        · rename_i globalBytes
          simp only [pending, true_and, gt_iff_lt, Int.not_lt]
            at pluginRows pluginBytes globalRows globalBytes
          exact ⟨pluginRows, pluginBytes, globalRows, globalBytes⟩

theorem rejectionOf_fails {capacity : PostDeliveryDatabaseCapacity}
    {admission : PostDeliveryAdmission} {incoming : Nat}
    {failure : PostDeliveryError}
    (failed : db.rejectionOf quota capacity admission incoming =
      .error failure) : failure = .capacityInvalid := by
  unfold rejectionOf at failed
  dsimp only at failed
  repeat' split at failed
  all_goals cases failed
  rfl

theorem admissionRejection_fails {capacity : PostDeliveryDatabaseCapacity}
    {admission : PostDeliveryAdmission} {failure : PostDeliveryError}
    (failed : db.admissionRejection quota capacity admission =
      .error failure) :
    failure ≠ .terminalCannotFit ∧
      (reserved → failure ≠ .reservationMismatch) := by
  unfold admissionRejection at failed
  cases incoming : incomingBytesOf admission with
  | error other =>
      rw [incoming] at failed
      cases failed
      unfold incomingBytesOf at incoming
      split at incoming
      · cases compacts : initialTerminalReceipt admission with
        | error other =>
            rw [compacts] at incoming
            cases incoming
            exact compact_fails compacts
        | ok receipt =>
            rw [compacts] at incoming
            cases incoming
      · cases incoming
  | ok bytes =>
      rw [incoming] at failed
      rw [rejectionOf_fails failed]
      exact ⟨PostDeliveryError.noConfusion,
        fun _ => PostDeliveryError.noConfusion⟩

theorem recount_concat (rows : List RawDeliveryRow) (row : RawDeliveryRow)
    (scope : String) :
    recount (rows ++ [row]) scope = recount rows scope +
      if InScope scope row.pluginId then chargeOf row else 0 := by
  refine (Table.total_append rows [row]).trans ?_
  congr 1
  exact add_zero _

theorem Balanced.insert (balanced : Balanced db) {row : RawDeliveryRow}
    (fresh : ∀ other ∈ db.deliveries, other.deliveryId ≠ row.deliveryId) :
    Balanced ({ db with deliveries := db.deliveries ++ [row] }.bumpLedger
      row.pluginId (chargeOf row)) :=
  balanced.bump (balanced.distinct.concat fresh)
    (recount_concat db.deliveries row)

theorem admittedRow_terminal (admission : PostDeliveryAdmission)
    (payload : String) (payloadBytes bytes : Nat)
    (effective required : List String) :
    (admittedRow admission payload payloadBytes bytes effective
      required).isTerminal = (admission.initialStatus == .deadLetter) := by
  unfold RawDeliveryRow.isTerminal admittedRow
  cases admission.initialStatus with
  | pending => rfl
  | deadLetter => rfl

/-- A row is inserted within the quotas its share was checked against. -/
theorem insertPending_kept (kept : Kept quota db)
    {capacity : PostDeliveryDatabaseCapacity}
    {admission : PostDeliveryAdmission}
    (fresh : ∀ other ∈ db.deliveries,
      other.deliveryId ≠ admission.deliveryId)
    (pending : admission.initialStatus = .pending)
    (allowed : db.admissionRejection quota capacity admission = .ok none) :
    Kept quota (db.insertPending admission admission.reservedBytes) := by
  let row := admittedRow admission admission.canonicalPayload
    admission.payloadBytes admission.reservedBytes
    admission.createdEffectivePermissions admission.requiredPermissions
  have active : row.isTerminal = false := by
    refine (admittedRow_terminal admission _ _ _ _ _).trans ?_
    rw [pending]
    rfl
  have balanced : Balanced ({ db with
      deliveries := db.deliveries ++ [row] }.bumpLedger row.pluginId
        (chargeOf row)) := kept.balanced.insert fresh
  rw [chargeOf_active active] at balanced
  let inserted : PostDatabase :=
    { db with deliveries := db.deliveries ++ [row] }
  have activeNow : WithinActive quota inserted :=
    kept.active.congr fun _ => ⟨Int.le_refl _, Int.le_refl _⟩
  have terminalNow : WithinTerminal quota inserted :=
    kept.terminal.congr fun _ => ⟨Int.le_refl _, Int.le_refl _⟩
  obtain ⟨pluginRows, pluginBytes, globalRows, globalBytes⟩ :=
    admission_fits pending allowed
  refine ⟨balanced, activeNow.bump pluginRows pluginBytes globalRows
    globalBytes, ?_⟩
  apply terminalNow.congr
  intro scope
  unfold insertPending
  dsimp only
  rw [ledger_bumpLedger]
  split
  · exact ⟨Int.le_of_eq (Int.add_zero _), Int.le_of_eq (Int.add_zero _)⟩
  · rw [add_zero]
    exact ⟨Int.le_refl _, Int.le_refl _⟩

theorem insertDeadLetter_sane (host : RepositoryHost)
    (kept : Kept quota db) {admission : PostDeliveryAdmission}
    (fresh : ∀ other ∈ db.deliveries,
      other.deliveryId ≠ admission.deliveryId)
    (deadLetter : admission.initialStatus = .deadLetter) :
    Sane quota reserved (db.insertDeadLetter host quota admission) := by
  cases compacts : initialTerminalReceipt admission with
  | error failure =>
      obtain ⟨fits, matched⟩ := compact_fails compacts
      unfold insertDeadLetter
      rw [compacts]
      exact Sane.error fits matched
  | ok payload =>
      have brackets : byteLength (stringifyStrings [] ++
          stringifyStrings []) = byteLength "[][]" := by decide
      let row := admittedRow admission payload (byteLength payload)
        (receiptCharge payload) [] []
      obtain ⟨room, found, within, pruned, globally, inPlugin⟩ :=
        ensure_kept host kept admission.executable.pluginId
          (receiptCharge_le compacts) admission.createdAt
      have isTerminal : row.isTerminal = true := by
        refine (admittedRow_terminal admission _ _ _ _ _).trans ?_
        rw [deadLetter]
        rfl
      have balanced : Balanced ({ room with
          deliveries := room.deliveries ++ [row] }.bumpLedger row.pluginId
            (chargeOf row)) :=
        within.balanced.insert fun other inside =>
          fresh other (pruned.rows other inside)
      rw [chargeOf_terminal isTerminal] at balanced
      let inserted : PostDatabase :=
        { room with deliveries := room.deliveries ++ [row] }
      have activeNow : WithinActive quota inserted :=
        within.active.congr fun _ => ⟨Int.le_refl _, Int.le_refl _⟩
      have terminalNow : WithinTerminal quota inserted :=
        within.terminal.congr fun _ => ⟨Int.le_refl _, Int.le_refl _⟩
      let delta : LedgerRow :=
        { activeRows := 0
          activeBytes := 0
          terminalRows := 1
          terminalBytes := receiptCharge payload }
      have final : Kept quota (inserted.bumpLedger row.pluginId delta) :=
        ⟨balanced,
          activeNow.release row.pluginId (Int.le_refl 0) (Int.le_refl 0),
          terminalNow.bump globally inPlugin⟩
      have finished : db.insertDeadLetter host quota admission =
          .ok (inserted.bumpLedger row.pluginId delta) := by
        unfold insertDeadLetter
        refine bind_eq_ok.mpr ⟨payload, compacts, ?_⟩
        rw [brackets]
        refine bind_eq_ok.mpr ⟨room, found, ?_⟩
        exact congrArg Except.ok (enforce_within final.terminal _ _)
      rw [finished]
      exact Sane.ok final

theorem insertAdmission_sane (host : RepositoryHost) (kept : Kept quota db)
    {capacity : PostDeliveryDatabaseCapacity}
    {admission : PostDeliveryAdmission}
    (fresh : ∀ other ∈ db.deliveries,
      other.deliveryId ≠ admission.deliveryId)
    (allowed : db.admissionRejection quota capacity admission = .ok none)
    (matched : reserved → Reserved admission) :
    Sane quota reserved (db.insertAdmission host quota admission) := by
  unfold insertAdmission
  dsimp only
  split
  · rename_i mismatch
    apply Sane.error PostDeliveryError.noConfusion
    intro isReserved
    obtain ⟨permissions, total⟩ := matched isReserved
    rw [permissions] at mismatch
    rcases mismatch with differs | differs
    · exact absurd rfl differs
    · exact absurd total differs
  · rename_i agrees
    rw [not_or, not_not, not_not] at agrees
    split
    · rename_i pending
      rw [agrees.2]
      exact Sane.ok (insertPending_kept kept fresh pending allowed)
    · rename_i deadLetter
      exact insertDeadLetter_sane host kept fresh deadLetter

theorem deliveryExists_false {deliveryId deduplicationKey : String}
    (missing : ¬db.deliveryExists deliveryId deduplicationKey = true) :
    ∀ row ∈ db.deliveries, row.deliveryId ≠ deliveryId := by
  intro row inside same
  apply missing
  apply List.any_eq_true.mpr
  exact ⟨row, inside, Bool.or_eq_true_iff.mpr (Or.inl (beq_iff_eq.mpr same))⟩

theorem admitOrTombstone_sane (host : RepositoryHost)
    (kept : Kept quota db) {admission : PostDeliveryAdmission}
    (capacity : PostDeliveryDatabaseCapacity)
    (matched : reserved → Reserved admission) :
    Sane quota reserved ((db.admitOrTombstone host quota capacity
      admission).map Prod.snd) := by
  unfold admitOrTombstone
  split
  · exact Sane.ok kept
  · rename_i missing
    apply Sane.step
    · exact fun _ failed => admissionRejection_fails failed
    · intro rejection decided
      cases rejection with
      | some reason => exact Sane.ok (kept.congr rfl rfl)
      | none =>
          have sane := insertAdmission_sane host kept
            (deliveryExists_false missing) decided matched
          apply Sane.step sane.fails
          intro inserted done
          exact Sane.ok (sane.kept inserted done)

theorem admitMany_sane (host : RepositoryHost) (kept : Kept quota db)
    {admissions : List (PostDeliveryAdmission × PostDeliveryDatabaseCapacity)}
    (matched : reserved → ∀ item ∈ admissions, Reserved item.1) :
    Sane quota reserved (db.admitMany host quota admissions) := by
  induction admissions generalizing db with
  | nil => exact Sane.ok kept
  | cons item rest induction =>
      have sane := admitOrTombstone_sane host kept item.2
        fun isReserved => matched isReserved item List.mem_cons_self
      unfold admitMany
      rw [List.foldlM_cons]
      cases decided : db.admitOrTombstone host quota item.2 item.1 with
      | error failure =>
          rw [decided] at sane
          obtain ⟨fits, reserves⟩ := sane.fails failure rfl
          exact Sane.error fits reserves
      | ok result =>
          rw [decided] at sane
          exact induction (sane.kept result.2 rfl) fun isReserved other among =>
            matched isReserved other (List.mem_cons_of_mem _ among)

end PostDatabase

/-! ## Runs -/

/-- The admissions of the operation come out of the materializer. -/
def RepositoryOp.Materialized : RepositoryOp → Prop
  | .admitMany admissions => ∀ item ∈ admissions, ∃ materializer input rows,
      materializePostDeliveries materializer input = .ok rows ∧ item.1 ∈ rows
  | _ => True

namespace PostDatabase

variable {host : RepositoryHost} {quota : PostDeliveryQuotaConfig}
  {db : PostDatabase}

theorem perform_sane (host : RepositoryHost) (kept : Kept quota db)
    (op : RepositoryOp) :
    Sane quota op.Materialized (db.perform host quota op) := by
  cases op with
  | admitMany admissions =>
      apply admitMany_sane host kept
      intro materialized item inside
      obtain ⟨materializer, input, rows, built, among⟩ :=
        materialized item inside
      exact materialize_reserved built among
  | claimNextForPlugin input readable =>
      exact claimTurns_sane host kept input readable _
  | complete input breaker => exact complete_sane host kept input breaker
  | retry input breaker => exact Sane.ok (retry_kept kept input breaker)
  | deadLetter input pluginId permit =>
      exact deadLetter_sane host kept input pluginId permit
  | acquireBreakerPermit pluginId now token leaseExpiresAt =>
      exact Sane.ok (acquireBreakerPermit_kept kept pluginId now token
        leaseExpiresAt)
  | releaseBreakerPermit pluginId permit =>
      exact Sane.ok (releaseBreakerPermit_kept kept pluginId permit)
  | recoverExpiredLeases now =>
      exact Sane.ok (recoverExpiredLeases_kept kept now)
  | reconcileLedger => exact Sane.ok (reconcileLedger_kept kept)
  | terminalizeExecutable executable reason now =>
      exact terminalizeWhere_sane host kept _ reason now
  | terminalizePlugin pluginId reason now =>
      exact terminalizeWhere_sane host kept _ reason now
  | terminalizePermissionRevoked pluginId revoked now =>
      exact terminalizePermissionRevoked_sane host kept pluginId revoked now
  | compactTerminalOverQuota now =>
      apply Sane.ok
      unfold compactTerminalOverQuota
      dsimp only
      rw [fold_enforce kept.terminal]
      exact kept
  | pruneTerminalReceipts before =>
      exact Sane.ok (pruneTerminalReceipts_kept host kept before)

theorem apply_kept (host : RepositoryHost) (kept : Kept quota db)
    (op : RepositoryOp) : Kept quota (db.apply host quota op) := by
  have sane := perform_sane host kept op
  unfold apply
  cases done : db.perform host quota op with
  | ok next => exact sane.kept next done
  | error failure => exact kept

theorem initial_kept (quota : PostDeliveryQuotaConfig) :
    Kept quota {} := by
  have positive := quota.pluginActiveRowsRange.1
  have bytes := quota.pluginActiveBytesRange.1
  have terminalRows := quota.pluginTerminalRowsRange.1
  have terminalBytes := quota.pluginTerminalBytesRange.1
  have globalRows := quota.globalActiveRowsRange.1
  have globalBytes := quota.globalActiveBytesRange.1
  have globalTerminalRows := quota.globalTerminalRowsRange.1
  have globalTerminalBytes := quota.globalTerminalBytesRange.1
  constructor
  · exact ⟨List.nodup_nil, fun _ => rfl⟩
  · constructor
    · intro _
      show (0 : Int) ≤ _
      omega
    · intro _
      show (0 : Int) ≤ _
      omega
    · show (0 : Int) ≤ _
      omega
    · show (0 : Int) ≤ _
      omega
  · constructor
    · intro _
      show (0 : Int) ≤ _
      omega
    · intro _
      show (0 : Int) ≤ _
      omega
    · show (0 : Int) ≤ _
      omega
    · show (0 : Int) ≤ _
      omega

theorem run_kept (host : RepositoryHost) (kept : Kept quota db)
    (ops : List RepositoryOp) : Kept quota (db.run host quota ops) := by
  induction ops generalizing db with
  | nil => exact kept
  | cons op rest induction => exact induction (apply_kept host kept op)

/-- After every run the ledger is the recount of the rows, reconciliation
changes nothing, the rows are within the quotas, and the next operation does
not fail for want of room or of a matching reservation. -/
theorem run_ledgered (host : RepositoryHost)
    (quota : PostDeliveryQuotaConfig) (ops : List RepositoryOp) :
    let db := run host quota {} ops
    (∀ scope, db.ledger scope = recount db.deliveries scope ∧
      db.reconcileLedger.ledger scope = db.ledger scope) ∧
    WithinActive quota db ∧ WithinTerminal quota db ∧
    ∀ op failure, db.perform host quota op = .error failure →
      failure ≠ .terminalCannotFit ∧
        (op.Materialized → failure ≠ .reservationMismatch) := by
  intro db
  have kept : Kept quota db := run_kept host (initial_kept quota) ops
  refine ⟨?_, kept.active, kept.terminal, ?_⟩
  · intro scope
    exact ⟨kept.balanced.ledger scope,
      reconcileLedger_same kept.balanced scope⟩
  · intro op
    exact (perform_sane host kept op).fails

end PostDatabase

end Motrix.PostDelivery
