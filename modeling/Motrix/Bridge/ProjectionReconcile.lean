import Mathlib.Data.List.Nodup
import Mathlib.Data.List.Dedup
import Motrix.Bridge.ExtensionPairingProjection
import Motrix.Lib.Except

/-!
# Well-formed projection rows

What the parser of the stored document asks of the rows, that it gives such
rows back unchanged, and that every decision of the service writes such rows.
Only their number is not checked everywhere.
-/

namespace Motrix.Bridge.PairingProjection

variable {parseUrl : ParseUrl} {collator : Collator}
variable {records : List ExtensionPairingProjection}

/-! ## Sorting -/

section Sorting

variable (collator)

theorem compareIdentity_trans (first second third : TransportIdentity)
    (left : (compareIdentity collator first second).isLE)
    (right : (compareIdentity collator second third).isLE) :
    (compareIdentity collator first third).isLE := by
  have consistent := collator.consistent
  have byBrowser : Std.TransCmp fun left right : TransportIdentity =>
      collator.localeCompare left.1.text right.1.text :=
    { eq_swap := consistent.eq_swap
      isLE_trans := consistent.isLE_trans }
  have byExtension : Std.TransCmp fun left right : TransportIdentity =>
      collator.localeCompare left.2 right.2 :=
    { eq_swap := consistent.eq_swap
      isLE_trans := consistent.isLE_trans }
  have both : Std.TransCmp (compareLex
      (fun left right : TransportIdentity =>
        collator.localeCompare left.1.text right.1.text)
      (fun left right : TransportIdentity =>
        collator.localeCompare left.2 right.2)) := inferInstance
  exact both.isLE_trans left right

theorem compareIdentity_total (first second : TransportIdentity) :
    (compareIdentity collator first second).isLE ||
      (compareIdentity collator second first).isLE := by
  have consistent := collator.consistent
  have swap (left right : String) : collator.localeCompare left right =
      (collator.localeCompare right left).swap := consistent.eq_swap
  simp only [compareIdentity]
  rw [swap second.1.text, swap second.2]
  cases collator.localeCompare first.1.text second.1.text <;>
    cases collator.localeCompare first.2 second.2 <;> rfl

theorem sortRecords_perm (records : List ExtensionPairingProjection) :
    (sortRecords collator records).Perm records :=
  List.mergeSort_perm records _

variable {collator}

theorem mem_sortRecords {record : ExtensionPairingProjection} :
    record ∈ sortRecords collator records ↔ record ∈ records :=
  (sortRecords_perm collator records).mem_iff

theorem length_sortRecords :
    (sortRecords collator records).length = records.length :=
  (sortRecords_perm collator records).length_eq

end Sorting

/-! ## What the parser asks for -/

structure ExtensionPairingProjection.Valid (parseUrl : ParseUrl)
    (record : ExtensionPairingProjection) : Prop where
  normal : Bridge.normalizeTransportIdentity parseUrl record.identity.1
    record.identity.2 = some record.identity
  epoch : isUuidV4 record.authorizationEpoch
  paired : record.pairedAt ≤ maxSafeInteger
  active : ∀ lastActiveAt ∈ record.lastActiveAt,
    record.pairedAt ≤ lastActiveAt ∧ lastActiveAt ≤ maxSafeInteger

structure WellFormed (parseUrl : ParseUrl) (collator : Collator)
    (records : List ExtensionPairingProjection) : Prop where
  valid : ∀ record ∈ records, record.Valid parseUrl
  unique : (records.map fun record => record.identity).Nodup
  sorted : records.Pairwise fun left right =>
    (compareIdentity collator left.identity right.identity).isLE

theorem wellFormed_nil : WellFormed parseUrl collator [] :=
  { valid := fun _ listed => nomatch listed
    unique := List.nodup_nil
    sorted := List.Pairwise.nil }

theorem wellFormed_sortRecords
    (valid : ∀ record ∈ records, record.Valid parseUrl)
    (unique : (records.map fun record => record.identity).Nodup) :
    WellFormed parseUrl collator (sortRecords collator records) := by
  have permuted := sortRecords_perm collator records
  constructor
  · intro record listed
    exact valid record (permuted.mem_iff.mp listed)
  · exact (permuted.map _).nodup_iff.mpr unique
  · apply List.pairwise_mergeSort
    · intro first second third
      exact compareIdentity_trans collator first.identity second.identity
        third.identity
    · intro first second
      exact compareIdentity_total collator first.identity second.identity

theorem WellFormed.sublist {smaller : List ExtensionPairingProjection}
    (formed : WellFormed parseUrl collator records)
    (fewer : smaller.Sublist records) :
    WellFormed parseUrl collator smaller :=
  { valid := fun record listed => formed.valid record (fewer.subset listed)
    unique := formed.unique.sublist (fewer.map _)
    sorted := formed.sorted.sublist fewer }

theorem WellFormed.sortRecords_eq
    (formed : WellFormed parseUrl collator records) :
    sortRecords collator records = records :=
  List.mergeSort_of_pairwise formed.sorted

/-! ## Reading back what was written -/

theorem normalizeTransportIdentity_toJson {identity : TransportIdentity}
    (normal : Bridge.normalizeTransportIdentity parseUrl identity.1
      identity.2 = some identity) :
    normalizeTransportIdentity parseUrl (identityToJson identity) =
      some identity := by
  have keys : hasOnlyKeys
      [("kind", .string "extension"), ("browser", .string identity.1.text),
        ("extensionId", .string identity.2)]
      ["browser", "extensionId", "kind"] = true := rfl
  have browser : browserField (.string identity.1.text) =
      some identity.1 := by
    cases identity.1 <;> rfl
  simp [normalizeTransportIdentity, identityToJson, keys, Json.field,
    List.lookup_cons, Json.asString, browser, normal]

theorem validActivity_toJson {record : ExtensionPairingProjection}
    (valid : record.Valid parseUrl) :
    validActivity record.pairedAt (activityToJson record.lastActiveAt) =
      some record.lastActiveAt := by
  cases activity : record.lastActiveAt with
  | none => rfl
  | some lastActiveAt =>
      obtain ⟨notEarlier, bounded⟩ := valid.active lastActiveAt activity
      simp [activityToJson, validActivity, validTimestamp,
        Json.asNatural_natCast bounded,
        notEarlier]

theorem parseRecord_toJson {record : ExtensionPairingProjection}
    (valid : record.Valid parseUrl) :
    parseRecord parseUrl record.toJson = some record := by
  have trust : validTrust (.string
      (IdentityTriState.text record.identityTrust)) =
        some record.identityTrust := by
    cases record.identityTrust <;> rfl
  have status : validStatus (.string record.status.text) =
      some record.status := by
    cases record.status <;> rfl
  have epoch : validEpoch (.string record.authorizationEpoch) =
      some record.authorizationEpoch := by
    simp [validEpoch, Json.asString, valid.epoch]
  have paired : validTimestamp (.number (record.pairedAt : Rat)) =
      some record.pairedAt := Json.asNatural_natCast valid.paired
  have keys (activity : Json) : hasOnlyKeys
      [("identity", identityToJson record.identity),
        ("identityTrust", .string
          (IdentityTriState.text record.identityTrust)),
        ("authorizationEpoch", .string record.authorizationEpoch),
        ("status", .string record.status.text),
        ("pairedAt", .number record.pairedAt),
        ("lastActiveAt", activity)]
      ["authorizationEpoch", "identity", "identityTrust", "lastActiveAt",
        "pairedAt", "status"] = true := rfl
  simp only [ExtensionPairingProjection.toJson, parseRecord, keys, if_true]
  simp [Json.field, List.lookup_cons,
    normalizeTransportIdentity_toJson valid.normal, trust, epoch, status,
    paired, validActivity_toJson valid]

theorem mapM_parseRecord
    (valid : ∀ record ∈ records, record.Valid parseUrl) :
    (records.map fun record => record.toJson).mapM (parseRecord parseUrl) =
      some records := by
  induction records with
  | nil => rfl
  | cons record rest induction =>
      obtain ⟨head, tail⟩ := List.forall_mem_cons.mp valid
      simp [parseRecord_toJson head, induction tail]

theorem adjacentDuplicate_eq_false
    (unique : (records.map fun record => record.identity).Nodup) :
    adjacentDuplicate records = false := by
  induction records with
  | nil => rfl
  | cons first rest induction =>
      cases rest with
      | nil => rfl
      | cons second rest =>
          rw [List.map_cons, List.nodup_cons] at unique
          have different : first.identity ≠ second.identity := by
            intro same
            apply unique.1
            rw [same, List.map_cons]
            exact List.mem_cons_self
          simp [adjacentDuplicate, different, induction unique.2]

/-- A well-formed document is read back as it was written, unless it holds too
many rows. -/
theorem parseStoreSnapshot_toJson {snapshot : StoreSnapshot}
    (bounded : snapshot.revision ≤ maxSafeInteger)
    (formed : WellFormed parseUrl collator snapshot.records) :
    parseStoreSnapshot parseUrl collator snapshot.toJson =
      if snapshot.records.length > maxProjectionRecords then
        .error .storageRejected
      else .ok snapshot := by
  have keys : hasOnlyKeys
      [("revision", .number snapshot.revision),
        ("records", .array
          (snapshot.records.map fun record => record.toJson))]
      ["records", "revision"] = true := rfl
  have revision : validTimestamp (.number (snapshot.revision : Rat)) =
      some snapshot.revision := Json.asNatural_natCast bounded
  simp only [StoreSnapshot.toJson, parseStoreSnapshot, keys, if_true]
  simp [Json.field, List.lookup_cons, revision,
    mapM_parseRecord formed.valid, formed.sortRecords_eq,
    adjacentDuplicate_eq_false formed.unique]

theorem parseStoreSnapshot_eq_ok_iff {snapshot : StoreSnapshot}
    (bounded : snapshot.revision ≤ maxSafeInteger)
    (formed : WellFormed parseUrl collator snapshot.records) :
    parseStoreSnapshot parseUrl collator snapshot.toJson = .ok snapshot ↔
      snapshot.records.length ≤ maxProjectionRecords := by
  rw [parseStoreSnapshot_toJson bounded formed]
  by_cases crowded : snapshot.records.length > maxProjectionRecords
  · simp [crowded, Nat.not_le.mpr crowded]
  · simp [crowded, Nat.not_lt.mp crowded]

/-! ## The row of one identity -/

theorem findRecord_eq_some {identity : TransportIdentity}
    {record : ExtensionPairingProjection}
    (found : findRecord records identity = some record) :
    record ∈ records ∧ record.identity = identity := by
  constructor
  · exact List.mem_of_find?_eq_some found
  · simpa using List.find?_some found

theorem findRecord_eq_none {identity : TransportIdentity} :
    findRecord records identity = none ↔
      identity ∉ records.map fun record => record.identity := by
  simp [findRecord]

/-- Two rows of one identity are the same row. -/
theorem WellFormed.eq_of_identity
    (formed : WellFormed parseUrl collator records)
    {left right : ExtensionPairingProjection} (inLeft : left ∈ records)
    (inRight : right ∈ records) (same : left.identity = right.identity) :
    left = right :=
  List.inj_on_of_nodup_map formed.unique inLeft inRight same

theorem WellFormed.findRecord_mem
    (formed : WellFormed parseUrl collator records)
    {record : ExtensionPairingProjection} (listed : record ∈ records) :
    findRecord records record.identity = some record := by
  cases found : findRecord records record.identity with
  | none =>
      exact absurd (List.mem_map_of_mem listed) (findRecord_eq_none.mp found)
  | some other =>
      obtain ⟨present, same⟩ := findRecord_eq_some found
      rw [formed.eq_of_identity present listed same]

theorem WellFormed.existingRecord_mem
    (formed : WellFormed parseUrl collator records)
    {record : ExtensionPairingProjection} (listed : record ∈ records) :
    existingRecord records record.identity = some record := by
  cases found : existingRecord records record.identity with
  | none =>
      have missing := List.find?_eq_none.mp found record
        (List.mem_reverse.mpr listed)
      simp at missing
  | some other =>
      have present : other ∈ records :=
        List.mem_reverse.mp (List.mem_of_find?_eq_some found)
      have same : other.identity = record.identity := by
        simpa using List.find?_some found
      rw [formed.eq_of_identity present listed same]

theorem existingRecord_eq_some {identity : TransportIdentity}
    {record : ExtensionPairingProjection}
    (found : existingRecord records identity = some record) :
    record ∈ records ∧ record.identity = identity := by
  constructor
  · exact List.mem_reverse.mp (List.mem_of_find?_eq_some found)
  · simpa using List.find?_some found

theorem mem_withoutIdentity {identity : TransportIdentity}
    {record : ExtensionPairingProjection} :
    record ∈ withoutIdentity records identity ↔
      record ∈ records ∧ record.identity ≠ identity := by
  simp [withoutIdentity]

theorem mem_replaceRecord {updated record : ExtensionPairingProjection} :
    record ∈ replaceRecord collator records updated ↔
      record ∈ records ∧ record.identity ≠ updated.identity ∨
        record = updated := by
  rw [replaceRecord, mem_sortRecords, List.mem_append, mem_withoutIdentity,
    List.mem_singleton]

theorem WellFormed.withoutIdentity
    (formed : WellFormed parseUrl collator records)
    (identity : TransportIdentity) :
    WellFormed parseUrl collator (withoutIdentity records identity) :=
  formed.sublist List.filter_sublist

theorem WellFormed.replaceRecord
    (formed : WellFormed parseUrl collator records)
    {updated : ExtensionPairingProjection} (valid : updated.Valid parseUrl) :
    WellFormed parseUrl collator (replaceRecord collator records updated) := by
  have others := formed.withoutIdentity updated.identity
  apply wellFormed_sortRecords
  · intro record listed
    rcases List.mem_append.mp listed with kept | added
    · exact others.valid record kept
    · rw [List.mem_singleton.mp added]
      exact valid
  · rw [List.map_append, List.nodup_append]
    refine ⟨others.unique, List.nodup_singleton _, ?_⟩
    intro identity kept added listed
    obtain ⟨record, inOthers, rfl⟩ := List.mem_map.mp kept
    rw [List.map_singleton, List.mem_singleton] at listed
    rw [listed]
    exact (mem_withoutIdentity.mp inOthers).2

theorem length_withoutIdentity_of_absent {identity : TransportIdentity}
    (absent : findRecord records identity = none) :
    (withoutIdentity records identity).length = records.length := by
  apply congrArg List.length
  apply List.filter_eq_self.mpr
  intro record listed
  have missing := findRecord_eq_none.mp absent
  apply decide_eq_true
  intro same
  exact missing (List.mem_map.mpr ⟨record, listed, same⟩)

theorem length_replaceRecord_of_absent
    {updated : ExtensionPairingProjection}
    (absent : findRecord records updated.identity = none) :
    (replaceRecord collator records updated).length = records.length + 1 := by
  rw [replaceRecord, length_sortRecords, List.length_append,
    length_withoutIdentity_of_absent absent, List.length_singleton]

/-- A row that is replaced makes room for its successor. -/
theorem length_replaceRecord_le {updated current : ExtensionPairingProjection}
    (found : findRecord records updated.identity = some current) :
    (replaceRecord collator records updated).length ≤ records.length := by
  obtain ⟨present, same⟩ := findRecord_eq_some found
  have fewer : (withoutIdentity records updated.identity).length <
      records.length := by
    apply List.length_filter_lt_length_iff_exists.mpr
    exact ⟨current, present, by simp [same]⟩
  rw [replaceRecord, length_sortRecords, List.length_append,
    List.length_singleton]
  exact fewer

theorem markPending_identities (identity : TransportIdentity) :
    (markPending records identity).map (fun record => record.identity) =
      records.map fun record => record.identity := by
  rw [markPending, List.map_map]
  apply List.map_congr_left
  intro record _
  by_cases same : record.identity = identity <;> simp [same]

theorem WellFormed.markPending
    (formed : WellFormed parseUrl collator records)
    (identity : TransportIdentity) :
    WellFormed parseUrl collator
      (sortRecords collator (markPending records identity)) := by
  apply wellFormed_sortRecords
  · intro record listed
    obtain ⟨original, present, rfl⟩ := List.mem_map.mp listed
    have valid := formed.valid original present
    by_cases same : original.identity = identity
    · rw [if_pos same]
      exact
        { normal := valid.normal
          epoch := valid.epoch
          paired := valid.paired
          active := valid.active }
    · rw [if_neg same]
      exact valid
  · rw [markPending_identities]
    exact formed.unique

/-! ## What each operation writes -/

/-- Rows that differ in trust and status are valid together. -/
theorem ExtensionPairingProjection.Valid.restated
    {record : ExtensionPairingProjection} (valid : record.Valid parseUrl)
    (trust : IdentityTriState) (status : ProjectionStatus) :
    ExtensionPairingProjection.Valid parseUrl
      { record with
        identityTrust := trust
        status := status } :=
  { normal := valid.normal
    epoch := valid.epoch
    paired := valid.paired
    active := valid.active }

variable {witness : CommittedWitness parseUrl}
variable {next : List ExtensionPairingProjection} {answer : Answer}

theorem recordedPairing_le {current : Option ExtensionPairingProjection}
    (valid : ∀ present ∈ current, present.Valid parseUrl) :
    recordedPairing current witness ≤ maxSafeInteger := by
  cases current with
  | none => exact witness.time
  | some present => exact (valid present rfl).paired

theorem recordedActivity_le {current : Option ExtensionPairingProjection}
    (valid : ∀ present ∈ current, present.Valid parseUrl) :
    ∀ activity ∈ recordedActivity current,
      recordedPairing current witness ≤ activity ∧
        activity ≤ maxSafeInteger := by
  cases current with
  | none => nofun
  | some present => exact (valid present rfl).active

theorem updatedRecord_valid {current : Option ExtensionPairingProjection}
    {authenticatedAt : Option Nat}
    (valid : ∀ present ∈ current, present.Valid parseUrl)
    (late : ∀ observed ∈ authenticatedAt,
      recordedPairing current witness ≤ observed ∧
        observed ≤ maxSafeInteger) :
    (updatedRecord current witness authenticatedAt).Valid parseUrl := by
  have active : ∀ activity ∈ recordedActivity current,
      recordedPairing current witness ≤ activity ∧
        activity ≤ maxSafeInteger := recordedActivity_le valid
  refine ⟨witness.normal, witness.epoch, recordedPairing_le valid, ?_⟩
  cases authenticatedAt with
  | none => exact active
  | some observed =>
      obtain ⟨onTime, bounded⟩ := late observed rfl
      rintro activity ⟨⟩
      cases earlier : recordedActivity current with
      | none => simp [updatedRecord, onTime, bounded]
      | some before =>
          have earlierBound := (active before earlier).2
          simp [updatedRecord, onTime, bounded, earlierBound]

theorem pendingRecord_valid {current : Option ExtensionPairingProjection}
    (valid : ∀ present ∈ current, present.Valid parseUrl) :
    (pendingRecord current witness).Valid parseUrl :=
  { normal := witness.normal
    epoch := witness.epoch
    paired := recordedPairing_le valid
    active := recordedActivity_le valid }

theorem WellFormed.findRecord_valid
    (formed : WellFormed parseUrl collator records)
    (identity : TransportIdentity) :
    ∀ present ∈ findRecord records identity, present.Valid parseUrl :=
  fun present found => formed.valid present (findRecord_eq_some found).1

/-- An upsert writes its identity's row, which was not under cleanup, and only
where the row has room. -/
theorem upsertLiveWitness_persist {authenticatedAt : Option Nat}
    (formed : WellFormed parseUrl collator records)
    (late : ∀ observed ∈ authenticatedAt,
      witness.committedAt ≤ observed ∧ observed ≤ maxSafeInteger)
    (decided : upsertLiveWitness collator records witness authenticatedAt =
      .persist next answer) :
    ∃ updated, updated.Valid parseUrl ∧
      updated.identity = witness.identity ∧
      next = replaceRecord collator records updated ∧
      (∀ present ∈ findRecord records witness.identity,
        present.status ≠ .cleanupPending) ∧
      (findRecord records witness.identity = none →
        records.length < maxProjectionRecords) ∧
      answer = .record updated := by
  unfold upsertLiveWitness at decided
  simp only at decided
  split at decided
  · cases decided
  rename_i unmarked
  split at decided
  · cases decided
  split at decided
  · cases decided
  rename_i room
  split at decided
  · cases decided
  rename_i onTime
  split at decided
  · cases decided
  rw [Decision.persist.injEq] at decided
  refine ⟨_, ?_, rfl, decided.1.symm, ?_, ?_, decided.2.symm⟩
  · apply updatedRecord_valid (formed.findRecord_valid witness.identity)
    intro observed asked
    obtain ⟨committed, bounded⟩ := late observed asked
    refine ⟨?_, bounded⟩
    cases found : findRecord records witness.identity with
    | none => exact committed
    | some present =>
        cases asked
        have kept : present.pairedAt ≤ observed := by
          simpa [found] using onTime
        exact kept
  · intro present found marked
    rw [Option.mem_def] at found
    simp [found, marked] at unmarked
  · intro absent
    simpa [absent] using room

theorem prepareCleanup_persist
    (formed : WellFormed parseUrl collator records)
    (decided : prepareCleanup collator records witness =
      .persist next answer) :
    ∃ pending, pending.Valid parseUrl ∧
      pending.identity = witness.identity ∧
      pending.status = .cleanupPending ∧
      next = replaceRecord collator records pending ∧
      answer = .leaseFor pending := by
  unfold prepareCleanup at decided
  simp only at decided
  split at decided
  · cases decided
  · split at decided
    · cases decided
    · rw [Decision.persist.injEq] at decided
      exact ⟨_, pendingRecord_valid (formed.findRecord_valid _), rfl, rfl,
        decided.1.symm, decided.2.symm⟩

theorem prepareIdentityCleanup_persist {identity : Json}
    (decided : prepareIdentityCleanup collator records parseUrl identity =
      .persist next answer) :
    ∃ key current, findRecord records key = some current ∧
      next = sortRecords collator (markPending records key) ∧
      answer = .leaseFor { current with status := .cleanupPending } := by
  unfold prepareIdentityCleanup at decided
  cases named : normalizeTransportIdentity parseUrl identity with
  | none => simp [named] at decided
  | some key =>
      cases found : findRecord records key with
      | none => simp [named, found] at decided
      | some current =>
          simp only [named, found] at decided
          split at decided
          · rw [Decision.persist.injEq] at decided
            exact ⟨key, current, found, decided.1.symm, decided.2.symm⟩
          · cases decided

theorem completeCleanup_persist {lease : CleanupLease}
    (decided : completeCleanup records lease = .persist next answer) :
    next = withoutIdentity records lease.identity ∧
      answer = .completed lease := by
  unfold completeCleanup at decided
  cases leased : leasedRecord records lease with
  | none => simp [leased] at decided
  | some current =>
      simp only [leased, Decision.persist.injEq] at decided
      exact ⟨decided.1.symm, decided.2.symm⟩

theorem cancelCleanup_persist {lease : CleanupLease}
    (formed : WellFormed parseUrl collator records)
    (decided : cancelCleanup collator records lease witness =
      .persist next answer) :
    ∃ restored, restored.Valid parseUrl ∧
      restored.identity = lease.identity ∧
      (∃ current, findRecord records restored.identity = some current) ∧
      next = replaceRecord collator records restored ∧
      answer = .restored lease restored := by
  unfold cancelCleanup at decided
  split at decided
  · cases decided
  · cases leased : leasedRecord records lease with
    | none => simp [leased] at decided
    | some current =>
        simp only [leased, Decision.persist.injEq] at decided
        obtain ⟨found, -⟩ := Option.filter_eq_some_iff.mp leased
        obtain ⟨present, same⟩ := findRecord_eq_some found
        have valid := formed.valid current present
        rw [← same] at found
        exact ⟨_, valid.restated _ .ready, same, ⟨current, found⟩,
          decided.1.symm, decided.2.symm⟩

end Motrix.Bridge.PairingProjection

/-!
# Reconciliation with a complete credential snapshot

The snapshot's witnesses are gathered into one aggregate for each identity.
The rows written afterwards are those of the aggregates and the rows under
cleanup whose identity the snapshot does not list.
-/

namespace Motrix.Bridge.PairingProjection

open Motrix.Lib

variable {parseUrl : ParseUrl} {collator : Collator}
variable {records : List ExtensionPairingProjection}
variable {witnesses : List (CommittedWitness parseUrl)}
variable {aggregates : List WitnessAggregate}

/-! ## Aggregates -/

/-- One aggregate for each identity, with the epoch of all its witnesses. -/
structure Gathers (witnesses : List (CommittedWitness parseUrl))
    (aggregates : List WitnessAggregate) : Prop where
  unique : (aggregates.map fun aggregate => aggregate.identity).Nodup
  covers : ∀ witness ∈ witnesses,
    ∃ aggregate ∈ aggregates, aggregate.identity = witness.identity ∧
      aggregate.authorizationEpoch = witness.authorizationEpoch
  origin : ∀ aggregate ∈ aggregates,
    ∃ witness ∈ witnesses, witness.identity = aggregate.identity ∧
      witness.authorizationEpoch = aggregate.authorizationEpoch
  time : ∀ aggregate ∈ aggregates,
    aggregate.earliestCommittedAt ≤ maxSafeInteger

theorem gathers_nil : Gathers ([] : List (CommittedWitness parseUrl)) [] :=
  { unique := List.nodup_nil
    covers := fun _ listed => nomatch listed
    origin := fun _ listed => nomatch listed
    time := fun _ listed => nomatch listed }

theorem Gathers.perm {left right : List WitnessAggregate}
    (gathers : Gathers witnesses left) (permuted : left.Perm right) :
    Gathers witnesses right := by
  constructor
  · exact (permuted.map _).nodup_iff.mp gathers.unique
  · intro witness listed
    obtain ⟨aggregate, present, facts⟩ := gathers.covers witness listed
    exact ⟨aggregate, permuted.mem_iff.mp present, facts⟩
  · intro aggregate present
    exact gathers.origin aggregate (permuted.mem_iff.mpr present)
  · intro aggregate present
    exact gathers.time aggregate (permuted.mem_iff.mpr present)

theorem mem_setAggregate {byIdentity : List WitnessAggregate}
    {aggregate other : WitnessAggregate} :
    other ∈ setAggregate byIdentity aggregate ↔
      other = aggregate ∨
        other ∈ byIdentity ∧ other.identity ≠ aggregate.identity := by
  unfold setAggregate
  split
  · rename_i present
    obtain ⟨earlier, listed, same⟩ := List.any_eq_true.mp present
    rw [decide_eq_true_eq] at same
    rw [List.mem_map]
    constructor
    · rintro ⟨original, kept, rfl⟩
      by_cases replaced : original.identity = aggregate.identity
      · simp [replaced]
      · simp [replaced, kept]
    · rintro (rfl | ⟨kept, different⟩)
      · exact ⟨earlier, listed, by simp [same]⟩
      · exact ⟨other, kept, by simp [different]⟩
  · rename_i absent
    rw [List.mem_append, List.mem_singleton, or_comm]
    apply or_congr_right
    constructor
    · intro kept
      refine ⟨kept, fun same => absent ?_⟩
      exact List.any_eq_true.mpr ⟨other, kept, decide_eq_true same⟩
    · exact And.left

theorem setAggregate_unique {byIdentity : List WitnessAggregate}
    {aggregate : WitnessAggregate}
    (unique : (byIdentity.map fun present => present.identity).Nodup) :
    ((setAggregate byIdentity aggregate).map fun present =>
      present.identity).Nodup := by
  unfold setAggregate
  split
  · have identities : (byIdentity.map fun present =>
        if present.identity = aggregate.identity then aggregate
        else present).map (fun present => present.identity) =
          byIdentity.map fun present => present.identity := by
      rw [List.map_map]
      apply List.map_congr_left
      intro present _
      by_cases same : present.identity = aggregate.identity <;> simp [same]
    rw [identities]
    exact unique
  · rename_i absent
    rw [List.map_append, List.map_singleton, List.nodup_append]
    refine ⟨unique, List.nodup_singleton _, ?_⟩
    intro identity listed other alone same
    obtain ⟨present, kept, rfl⟩ := List.mem_map.mp listed
    rw [List.mem_singleton.mp alone] at same
    exact absent (List.any_eq_true.mpr ⟨present, kept, decide_eq_true same⟩)

theorem Gathers.aggregateWitness {seen : List (CommittedWitness parseUrl)}
    {byIdentity next : List WitnessAggregate}
    {witness : CommittedWitness parseUrl} (gathers : Gathers seen byIdentity)
    (added : aggregateWitness byIdentity witness = .ok next) :
    Gathers (seen ++ [witness]) next := by
  unfold PairingProjection.aggregateWitness at added
  simp only at added
  split at added
  · cases added
  rename_i sameEpoch
  split at added
  · cases added
  cases added
  -- An aggregate that is replaced had the witness's epoch.
  have epoch : ∀ present ∈ byIdentity, present.identity = witness.identity →
      present.authorizationEpoch = witness.authorizationEpoch := by
    intro present listed same
    have only : byIdentity.find? (fun present =>
        decide (present.identity = witness.identity)) = some present := by
      cases found : byIdentity.find? fun present =>
          decide (present.identity = witness.identity) with
      | none =>
          have missing := List.find?_eq_none.mp found present listed
          simp [same] at missing
      | some other =>
          have key := List.find?_some found
          have same' : other.identity = present.identity := by
            rw [same]
            exact of_decide_eq_true key
          rw [List.inj_on_of_nodup_map gathers.unique
            (List.mem_of_find?_eq_some found) listed same']
    rw [only] at sameEpoch
    simpa using sameEpoch
  constructor
  · exact setAggregate_unique gathers.unique
  · intro earlier listed
    rcases List.mem_append.mp listed with before | now
    · obtain ⟨aggregate, present, key, agreed⟩ :=
        gathers.covers earlier before
      by_cases same : aggregate.identity = witness.identity
      · refine ⟨_, mem_setAggregate.mpr (.inl rfl), ?_, ?_⟩
        · exact same.symm.trans key
        · exact (epoch aggregate present same).symm.trans agreed
      · exact ⟨aggregate, mem_setAggregate.mpr (.inr ⟨present, same⟩), key,
          agreed⟩
    · rw [List.mem_singleton.mp now]
      exact ⟨_, mem_setAggregate.mpr (.inl rfl), rfl, rfl⟩
  · intro aggregate listed
    rcases mem_setAggregate.mp listed with rfl | ⟨present, _⟩
    · exact ⟨witness, by simp, rfl, rfl⟩
    · obtain ⟨earlier, before, facts⟩ := gathers.origin aggregate present
      exact ⟨earlier, List.mem_append_left _ before, facts⟩
  · intro aggregate listed
    rcases mem_setAggregate.mp listed with rfl | ⟨present, _⟩
    · exact (Nat.min_le_right _ _).trans witness.time
    · exact gathers.time aggregate present

theorem Gathers.foldlM {seen rest : List (CommittedWitness parseUrl)}
    {byIdentity gathered : List WitnessAggregate}
    (gathers : Gathers seen byIdentity)
    (folded : rest.foldlM PairingProjection.aggregateWitness byIdentity =
      .ok gathered) :
    Gathers (seen ++ rest) gathered := by
  induction rest generalizing seen byIdentity with
  | nil =>
      cases folded
      rw [List.append_nil]
      exact gathers
  | cons witness rest induction =>
      rw [List.foldlM_cons, bind_eq_ok] at folded
      obtain ⟨next, added, folded⟩ := folded
      have gathered := induction (gathers.aggregateWitness added) folded
      rw [List.append_assoc] at gathered
      exact gathered

theorem aggregateWitnesses_gathers
    (aggregated : aggregateWitnesses collator witnesses = .ok aggregates) :
    Gathers witnesses aggregates := by
  unfold aggregateWitnesses at aggregated
  split at aggregated
  · cases aggregated
  rw [bind_eq_ok] at aggregated
  obtain ⟨byIdentity, folded, sorted⟩ := aggregated
  rw [pure_eq_ok] at sorted
  subst sorted
  have gathered := gathers_nil.foldlM folded
  exact gathered.perm (List.mergeSort_perm byIdentity _).symm

theorem Gathers.identities_iff
    (gathers : Gathers witnesses aggregates) (identity : TransportIdentity) :
    identity ∈ aggregates.map (fun aggregate => aggregate.identity) ↔
      identity ∈ witnesses.map fun witness => witness.identity := by
  constructor
  · intro listed
    obtain ⟨aggregate, present, rfl⟩ := List.mem_map.mp listed
    obtain ⟨witness, seen, same, _⟩ := gathers.origin aggregate present
    exact List.mem_map.mpr ⟨witness, seen, same⟩
  · intro listed
    obtain ⟨witness, seen, rfl⟩ := List.mem_map.mp listed
    obtain ⟨aggregate, present, same, _⟩ := gathers.covers witness seen
    exact List.mem_map.mpr ⟨aggregate, present, same⟩

theorem Gathers.unlistedPending_eq
    (gathers : Gathers witnesses aggregates) :
    unlistedPending records
        (aggregates.map fun aggregate => aggregate.identity) =
      unlistedPending records
        (witnesses.map fun witness => witness.identity) := by
  simp only [unlistedPending, gathers.identities_iff]

theorem Gathers.length_eq (gathers : Gathers witnesses aggregates) :
    aggregates.length =
      (witnesses.map fun witness => witness.identity).dedup.length := by
  have permuted : (aggregates.map fun aggregate => aggregate.identity).Perm
      (witnesses.map fun witness => witness.identity).dedup := by
    apply (List.perm_ext_iff_of_nodup gathers.unique
      (List.nodup_dedup _)).mpr
    intro identity
    rw [gathers.identities_iff, List.mem_dedup]
  have lengths := permuted.length_eq
  rw [List.length_map] at lengths
  exact lengths

/-! ## The rows of the aggregates -/

theorem mapM_eq_some_map {α β γ : Type} {f : α → Option β} {items : List α}
    {results : List β} {left : β → γ} {right : α → γ}
    (agrees : ∀ item result, f item = some result →
      left result = right item)
    (mapped : items.mapM f = some results) :
    results.map left = items.map right := by
  induction items generalizing results with
  | nil =>
      cases mapped
      rfl
  | cons item rest induction =>
      rw [List.mapM_cons] at mapped
      obtain ⟨result, head, mapped⟩ := Option.bind_eq_some_iff.mp mapped
      obtain ⟨others, tail, mapped⟩ := Option.bind_eq_some_iff.mp mapped
      cases mapped
      rw [List.map_cons, List.map_cons, agrees item result head,
        induction tail]

theorem mem_of_mapM_eq_some {α β : Type} {f : α → Option β} {items : List α}
    {results : List β} (mapped : items.mapM f = some results) :
    ∀ result, result ∈ results ↔ ∃ item ∈ items, f item = some result := by
  induction items generalizing results with
  | nil =>
      cases mapped
      simp
  | cons item rest induction =>
      rw [List.mapM_cons] at mapped
      obtain ⟨head, first, mapped⟩ := Option.bind_eq_some_iff.mp mapped
      obtain ⟨others, tail, mapped⟩ := Option.bind_eq_some_iff.mp mapped
      cases mapped
      intro result
      rw [List.mem_cons, induction tail]
      simp [first, eq_comm]

theorem exists_mapM_eq_some {α β : Type} {f : α → Option β} {items : List α}
    (all : ∀ item ∈ items, f item ≠ none) :
    ∃ results, items.mapM f = some results := by
  induction items with
  | nil => exact ⟨[], rfl⟩
  | cons item rest induction =>
      obtain ⟨head, tail⟩ := List.forall_mem_cons.mp all
      obtain ⟨result, first⟩ := Option.ne_none_iff_exists'.mp head
      obtain ⟨others, second⟩ := induction tail
      exact ⟨result :: others, by simp [first, second]⟩

theorem reconcileAggregate_identity {aggregate : WitnessAggregate}
    {row : ExtensionPairingProjection}
    (reconciled : reconcileAggregate records aggregate = some row) :
    row.identity = aggregate.identity := by
  unfold reconcileAggregate at reconciled
  cases found : existingRecord records aggregate.identity with
  | none =>
      simp only [found, Option.some.injEq] at reconciled
      rw [← reconciled]
  | some present =>
      obtain ⟨_, same⟩ := existingRecord_eq_some found
      simp only [found] at reconciled
      by_cases pending : present.status = .cleanupPending
      · rw [if_pos pending] at reconciled
        split at reconciled
        · cases reconciled
          exact same
        · cases reconciled
      · rw [if_neg pending] at reconciled
        cases reconciled
        rfl

theorem reconcileAggregate_valid {aggregate : WitnessAggregate}
    {row : ExtensionPairingProjection}
    (formed : WellFormed parseUrl collator records)
    (gathers : Gathers witnesses aggregates)
    (listed : aggregate ∈ aggregates)
    (reconciled : reconcileAggregate records aggregate = some row) :
    row.Valid parseUrl := by
  obtain ⟨witness, _, key, epoch⟩ := gathers.origin aggregate listed
  have normal : Bridge.normalizeTransportIdentity parseUrl
      aggregate.identity.1 aggregate.identity.2 =
        some aggregate.identity := by
    rw [← key]
    exact witness.normal
  have uuid : isUuidV4 aggregate.authorizationEpoch := by
    rw [← epoch]
    exact witness.epoch
  have time := gathers.time aggregate listed
  unfold reconcileAggregate at reconciled
  cases found : existingRecord records aggregate.identity with
  | none =>
      simp only [found, Option.some.injEq] at reconciled
      rw [← reconciled]
      exact ⟨normal, uuid, time, nofun⟩
  | some present =>
      have valid := formed.valid present (existingRecord_eq_some found).1
      simp only [found] at reconciled
      by_cases pending : present.status = .cleanupPending
      · rw [if_pos pending] at reconciled
        split at reconciled
        · cases reconciled
          exact valid.restated _ present.status
        · cases reconciled
      · rw [if_neg pending] at reconciled
        cases reconciled
        by_cases same :
            present.authorizationEpoch = aggregate.authorizationEpoch
        · refine ⟨normal, uuid, ?_, ?_⟩
          · simpa [same] using valid.paired
          · simpa [same] using valid.active
        · refine ⟨normal, uuid, ?_, ?_⟩
          · simpa [same] using time
          · simp [same]

/-- A row under cleanup stays under cleanup. -/
theorem reconcileAggregate_pending {aggregate : WitnessAggregate}
    {present : ExtensionPairingProjection}
    (formed : WellFormed parseUrl collator records)
    (listed : present ∈ records)
    (pending : present.status = .cleanupPending)
    (same : present.identity = aggregate.identity) :
    reconcileAggregate records aggregate =
      if present.authorizationEpoch = aggregate.authorizationEpoch then
        some
          { present with
            identityTrust :=
              conservativeTrust present.identityTrust
                aggregate.identityTrust }
      else none := by
  have found := formed.existingRecord_mem listed
  rw [same] at found
  simp [reconcileAggregate, found, pending]

/-! ## The reconciled document -/

/-- Distinct identities of the snapshot and, next to them, the rows under
cleanup of other identities. -/
def reconciledCount (records : List ExtensionPairingProjection)
    (witnesses : List (CommittedWitness parseUrl)) : Nat :=
  (witnesses.map fun witness => witness.identity).dedup.length +
    (unlistedPending records
      (witnesses.map fun witness => witness.identity)).length

/-- The snapshot is small and of one epoch for each identity, also where the
identity has a row under cleanup. -/
def Reconcilable (collator : Collator)
    (records : List ExtensionPairingProjection)
    (witnesses : List (CommittedWitness parseUrl)) : Prop :=
  (aggregateWitnesses collator witnesses).isOk ∧
    ∀ witness ∈ witnesses, ∀ row ∈ records,
      row.identity = witness.identity → row.status = .cleanupPending →
        row.authorizationEpoch = witness.authorizationEpoch

theorem reconcileCommitted_persist
    {next : List ExtensionPairingProjection} {answer : Answer}
    (decided : reconcileCommitted collator records witnesses =
      .persist next answer) :
    ∃ aggregates rows, Gathers witnesses aggregates ∧
      aggregateWitnesses collator witnesses = .ok aggregates ∧
      aggregates.mapM (reconcileAggregate records) = some rows ∧
      next = sortRecords collator (rows ++ unlistedPending records
        (witnesses.map fun witness => witness.identity)) ∧
      answer = .records next := by
  unfold reconcileCommitted at decided
  cases aggregated : aggregateWitnesses collator witnesses with
  | error failure => simp [aggregated] at decided
  | ok aggregates =>
      cases mapped : aggregates.mapM (reconcileAggregate records) with
      | none => simp [aggregated, mapped] at decided
      | some rows =>
          have gathers := aggregateWitnesses_gathers aggregated
          simp only [aggregated, mapped,
            gathers.unlistedPending_eq] at decided
          split at decided
          · cases decided
          · rw [Decision.persist.injEq] at decided
            obtain ⟨rfl, rfl⟩ := decided
            exact ⟨aggregates, rows, gathers, rfl, mapped, rfl, rfl⟩

section Reconciled

variable {rows : List ExtensionPairingProjection}

theorem reconciledRows_identities
    (mapped : aggregates.mapM (reconcileAggregate records) = some rows) :
    rows.map (fun row => row.identity) =
      aggregates.map fun aggregate => aggregate.identity :=
  mapM_eq_some_map (fun _ _ => reconcileAggregate_identity) mapped

theorem length_reconciled (gathers : Gathers witnesses aggregates)
    (mapped : aggregates.mapM (reconcileAggregate records) = some rows) :
    (sortRecords collator (rows ++ unlistedPending records
      (witnesses.map fun witness => witness.identity))).length =
        reconciledCount records witnesses := by
  have rowCount : rows.length = aggregates.length := by
    have lengths := congrArg List.length (reconciledRows_identities mapped)
    simpa using lengths
  rw [length_sortRecords, List.length_append, rowCount, gathers.length_eq]
  rfl

theorem wellFormed_reconciled (formed : WellFormed parseUrl collator records)
    (gathers : Gathers witnesses aggregates)
    (mapped : aggregates.mapM (reconcileAggregate records) = some rows) :
    WellFormed parseUrl collator (sortRecords collator
      (rows ++ unlistedPending records
        (witnesses.map fun witness => witness.identity))) := by
  have others : WellFormed parseUrl collator (unlistedPending records
      (witnesses.map fun witness => witness.identity)) :=
    formed.sublist List.filter_sublist
  have identities := reconciledRows_identities mapped
  apply wellFormed_sortRecords
  · intro row listed
    rcases List.mem_append.mp listed with reconciled | kept
    · obtain ⟨aggregate, present, given⟩ :=
        (mem_of_mapM_eq_some mapped row).mp reconciled
      exact reconcileAggregate_valid formed gathers present given
    · exact others.valid row kept
  · rw [List.map_append, List.nodup_append, identities]
    refine ⟨gathers.unique, others.unique, ?_⟩
    intro identity gathered other kept same
    obtain ⟨row, unlisted, rfl⟩ := List.mem_map.mp kept
    have apart := (List.mem_filter.mp unlisted).2
    have listed := (gathers.identities_iff identity).mp gathered
    rw [same] at listed
    simp [listed] at apart

/-- Reconciliation keeps every identity under cleanup under cleanup. -/
theorem pending_reconciled (formed : WellFormed parseUrl collator records)
    (gathers : Gathers witnesses aggregates)
    (mapped : aggregates.mapM (reconcileAggregate records) = some rows)
    {present : ExtensionPairingProjection} (listed : present ∈ records)
    (pending : present.status = .cleanupPending) :
    ∃ row ∈ sortRecords collator (rows ++ unlistedPending records
        (witnesses.map fun witness => witness.identity)),
      row.identity = present.identity ∧ row.status = .cleanupPending := by
  by_cases covered : present.identity ∈
      witnesses.map fun witness => witness.identity
  · obtain ⟨aggregate, gathered, same⟩ := List.mem_map.mp
      ((gathers.identities_iff present.identity).mpr covered)
    have identities := reconciledRows_identities mapped
    have rowListed : present.identity ∈ rows.map fun row => row.identity := by
      rw [identities]
      exact List.mem_map.mpr ⟨aggregate, gathered, same⟩
    obtain ⟨row, inRows, key⟩ := List.mem_map.mp rowListed
    obtain ⟨origin, fromAggregate, given⟩ :=
      (mem_of_mapM_eq_some mapped row).mp inRows
    have originKey : present.identity = origin.identity :=
      key.symm.trans (reconcileAggregate_identity given)
    rw [reconcileAggregate_pending formed listed pending originKey] at given
    split at given
    · cases given
      exact ⟨_, mem_sortRecords.mpr (List.mem_append_left _ inRows), rfl,
        pending⟩
    · cases given
  · refine ⟨present, ?_, rfl, pending⟩
    apply mem_sortRecords.mpr
    apply List.mem_append_right
    exact List.mem_filter.mpr ⟨listed, by simp [pending, covered]⟩

/-- A snapshot that passes the checks and needs more rows than there are is
written. -/
theorem reconcileCommitted_of_count
    (formed : WellFormed parseUrl collator records)
    (passes : Reconcilable collator records witnesses)
    (grows : records.length < reconciledCount records witnesses) :
    ∃ next, reconcileCommitted collator records witnesses =
        .persist next (.records next) ∧
      next.length = reconciledCount records witnesses := by
  obtain ⟨succeeded, sameEpoch⟩ := passes
  obtain ⟨aggregates, aggregated⟩ := exists_ok_of_isOk succeeded
  have gathers := aggregateWitnesses_gathers aggregated
  have accepted : ∀ aggregate ∈ aggregates,
      reconcileAggregate records aggregate ≠ none := by
    intro aggregate gathered
    obtain ⟨witness, listed, key, epoch⟩ := gathers.origin aggregate gathered
    cases found : existingRecord records aggregate.identity with
    | none => simp [reconcileAggregate, found]
    | some present =>
        obtain ⟨inRecords, same⟩ := existingRecord_eq_some found
        by_cases pending : present.status = .cleanupPending
        · have agreed := sameEpoch witness listed present inRecords
            (same.trans key.symm) pending
          rw [reconcileAggregate_pending formed inRecords pending same,
            if_pos (agreed.trans epoch)]
          nofun
        · simp [reconcileAggregate, found, pending]
  obtain ⟨rows, mapped⟩ := exists_mapM_eq_some accepted
  have count : (sortRecords collator (rows ++ unlistedPending records
      (witnesses.map fun witness => witness.identity))).length =
        reconciledCount records witnesses := length_reconciled gathers mapped
  refine ⟨_, ?_, count⟩
  have changed : records ≠ sortRecords collator (rows ++
      unlistedPending records
        (witnesses.map fun witness => witness.identity)) := by
    intro same
    have lengths := congrArg List.length same
    omega
  simp only [reconcileCommitted, aggregated, mapped,
    gathers.unlistedPending_eq]
  rw [if_neg changed]

/-- A snapshot that was written passed the checks. -/
theorem reconcilable_of_mapM (formed : WellFormed parseUrl collator records)
    (aggregated : aggregateWitnesses collator witnesses = .ok aggregates)
    (mapped : aggregates.mapM (reconcileAggregate records) = some rows) :
    Reconcilable collator records witnesses := by
  have gathers := aggregateWitnesses_gathers aggregated
  constructor
  · rw [aggregated]
    rfl
  · intro witness listed row inRecords same pending
    obtain ⟨aggregate, gathered, key, epoch⟩ := gathers.covers witness listed
    have rowKey : aggregate.identity ∈ rows.map fun row => row.identity := by
      rw [reconciledRows_identities mapped]
      exact List.mem_map_of_mem gathered
    obtain ⟨result, inRows, resultKey⟩ := List.mem_map.mp rowKey
    obtain ⟨origin, fromAggregates, given⟩ :=
      (mem_of_mapM_eq_some mapped result).mp inRows
    have originKey : origin.identity = aggregate.identity :=
      (reconcileAggregate_identity given).symm.trans resultKey
    have only : origin = aggregate :=
      List.inj_on_of_nodup_map gathers.unique fromAggregates gathered
        originKey
    subst only
    rw [reconcileAggregate_pending formed inRecords pending
      (same.trans key.symm)] at given
    split at given
    · rename_i agreed
      exact agreed.trans epoch
    · cases given

end Reconciled

end Motrix.Bridge.PairingProjection
