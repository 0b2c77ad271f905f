import Mathlib.Data.List.Perm.Basic
import Motrix.Bridge.CredentialStore
import Motrix.Bridge.Frames

/-!
# The extension pairing projection

One row for each paired extension identity, kept next to the credential store.
A row under cleanup is the durable mark that keeps its identity from being
admitted while the identity's credentials are revoked.

Operations run one after another in the service's queue.  Each is a decision
over the rows in memory followed by at most one save, and memory stays as it
was while the save is under way.
-/

namespace Motrix.Bridge.PairingProjection

/-! ## Rows -/

def maxProjectionRecords : Nat := 4096

inductive ProjectionStatus where
  | ready
  | cleanupPending
  deriving DecidableEq, Repr

inductive Health where
  | uninitialized
  | ready
  | degraded
  | stopped
  deriving DecidableEq, Repr

inductive ProjectionError where
  | invalidWitness
  | invalidIdentity
  | invalidTime
  | storageRejected
  | persistenceFailed
  | capacityExceeded
  | notLoaded
  | degraded
  | cleanupPending
  | cleanupRequired
  | invalidCleanupLease
  | epochConflict
  | stopped
  deriving DecidableEq, Repr

/-- `identityKey` renders the identity's two parts, so identities stand for
their keys. -/
structure ExtensionPairingProjection where
  identity : TransportIdentity
  identityTrust : IdentityTriState
  authorizationEpoch : String
  status : ProjectionStatus
  pairedAt : Nat
  lastActiveAt : Option Nat
  deriving DecidableEq, Repr

/-- What a store load yields and what a save writes. -/
structure StoreSnapshot where
  revision : Nat
  records : List ExtensionPairingProjection
  deriving DecidableEq, Repr

def IdentityTriState.text : IdentityTriState → String
  | .official => "official"
  | .attestedNonOfficial => "attested-non-official"
  | .unverified => "unverified"

def ProjectionStatus.text : ProjectionStatus → String
  | .ready => "ready"
  | .cleanupPending => "cleanup-pending"

/-! ## Order of the rows -/

/-- `String.prototype.localeCompare`, which has to be a consistent
comparison. -/
structure Collator where
  localeCompare : String → String → Ordering
  consistent : Std.TransCmp localeCompare

section Collation

variable (collator : Collator)

def compareIdentity (left right : TransportIdentity) : Ordering :=
  (collator.localeCompare left.1.text right.1.text).then
    (collator.localeCompare left.2 right.2)

def sortRecords (records : List ExtensionPairingProjection) :
    List ExtensionPairingProjection :=
  records.mergeSort fun left right =>
    (compareIdentity collator left.identity right.identity).isLE

end Collation

/-! ## Reading the stored document -/

def identityToJson (identity : TransportIdentity) : Json :=
  .object
    [("kind", .string "extension"),
      ("browser", .string identity.1.text),
      ("extensionId", .string identity.2)]

def activityToJson : Option Nat → Json
  | none => .null
  | some lastActiveAt => .number lastActiveAt

def ExtensionPairingProjection.toJson (record : ExtensionPairingProjection) :
    Json :=
  .object
    [("identity", identityToJson record.identity),
      ("identityTrust", .string (IdentityTriState.text record.identityTrust)),
      ("authorizationEpoch", .string record.authorizationEpoch),
      ("status", .string record.status.text),
      ("pairedAt", .number record.pairedAt),
      ("lastActiveAt", activityToJson record.lastActiveAt)]

def StoreSnapshot.toJson (snapshot : StoreSnapshot) : Json :=
  .object
    [("revision", .number snapshot.revision),
      ("records", .array (snapshot.records.map fun record => record.toJson))]

def hasOnlyKeys (members : List (String × Json)) (expected : List String) :
    Bool :=
  (members.map Prod.fst).isPerm expected

def validTrust (value : Json) : Option IdentityTriState :=
  [IdentityTriState.official, .attestedNonOfficial, .unverified].find?
    fun trust => value.asString = some (IdentityTriState.text trust)

def validStatus (value : Json) : Option ProjectionStatus :=
  [ProjectionStatus.ready, .cleanupPending].find? fun status =>
    value.asString = some status.text

def validEpoch (value : Json) : Option String :=
  value.asString.filter isUuidV4

/-- `validTimestamp`, and `validRevision`, which makes the same test. -/
def validTimestamp (value : Json) : Option Nat :=
  value.asNatural maxSafeInteger

section Parsing

variable (parseUrl : ParseUrl)

def normalizeTransportIdentity : Json → Option TransportIdentity
  | .object members =>
      if hasOnlyKeys members ["browser", "extensionId", "kind"] ∧
          (Json.field members "kind").asString = some "extension" then do
        let browser ← browserField (Json.field members "browser")
        let extensionId ← (Json.field members "extensionId").asString
        Bridge.normalizeTransportIdentity parseUrl browser extensionId
      else none
  | _ => none

/-- `null`, or a timestamp not before the pairing. -/
def validActivity (pairedAt : Nat) : Json → Option (Option Nat)
  | .null => some none
  | value =>
      ((validTimestamp value).filter fun lastActiveAt =>
        pairedAt ≤ lastActiveAt).map some

/-- `none` where the source throws `StorageRejected`. -/
def parseRecord : Json → Option ExtensionPairingProjection
  | .object members =>
      if hasOnlyKeys members
          ["authorizationEpoch", "identity", "identityTrust", "lastActiveAt",
            "pairedAt", "status"] then do
        let identity ←
          normalizeTransportIdentity parseUrl (Json.field members "identity")
        let identityTrust ← validTrust (Json.field members "identityTrust")
        let authorizationEpoch ←
          validEpoch (Json.field members "authorizationEpoch")
        let status ← validStatus (Json.field members "status")
        let pairedAt ← validTimestamp (Json.field members "pairedAt")
        let lastActiveAt ←
          validActivity pairedAt (Json.field members "lastActiveAt")
        return {
          identity := identity
          identityTrust := identityTrust
          authorizationEpoch := authorizationEpoch
          status := status
          pairedAt := pairedAt
          lastActiveAt := lastActiveAt }
      else none
  | _ => none

def adjacentDuplicate : List ExtensionPairingProjection → Bool
  | first :: second :: rest =>
      first.identity = second.identity || adjacentDuplicate (second :: rest)
  | _ => false

def parseStoreSnapshot (collator : Collator) :
    Json → Except ProjectionError StoreSnapshot
  | .object members =>
      if hasOnlyKeys members ["records", "revision"] then
        match validTimestamp (Json.field members "revision"),
            Json.field members "records" with
        | some revision, .array items =>
            if items.length > maxProjectionRecords then
              .error .storageRejected
            else
              match items.mapM (parseRecord parseUrl) with
              | none => .error .storageRejected
              | some records =>
                  let sorted := sortRecords collator records
                  if adjacentDuplicate sorted then .error .storageRejected
                  else
                    .ok
                      { revision := revision
                        records := sorted }
        | _, _ => .error .storageRejected
      else .error .storageRejected
  | _ => .error .storageRejected

end Parsing

/-! ## Witnesses -/

/-- A credential store's proof that one of its credentials is committed.  Its
identity, epoch and time come from a record the store's schema accepted. -/
structure CommittedWitness (parseUrl : ParseUrl) where
  identity : TransportIdentity
  identityTrust : IdentityTriState
  authorizationEpoch : String
  committedAt : Nat
  normal : Bridge.normalizeTransportIdentity parseUrl identity.1 identity.2 =
    some identity
  epoch : isUuidV4 authorizationEpoch
  time : committedAt ≤ maxSafeInteger

theorem origin_eq (scheme extensionId : String) :
    scheme ++ "://" ++ extensionId =
      scheme ++ ":" ++ "//" ++ extensionId := by
  have split : "://" = ":" ++ "//" := rfl
  rw [split, ← String.append_assoc]

def trustOrder : List IdentityTriState :=
  [.unverified, .attestedNonOfficial, .official]

def conservativeTrust (left right : IdentityTriState) : IdentityTriState :=
  (trustOrder[min (trustOrder.idxOf left) (trustOrder.idxOf right)]?).getD
    .unverified

structure WitnessAggregate where
  identity : TransportIdentity
  identityTrust : IdentityTriState
  authorizationEpoch : String
  earliestCommittedAt : Nat
  deriving DecidableEq, Repr

section Aggregation

variable {parseUrl : ParseUrl}

/-- `Map.prototype.set`: an existing key keeps its place. -/
def setAggregate (byIdentity : List WitnessAggregate)
    (aggregate : WitnessAggregate) : List WitnessAggregate :=
  if byIdentity.any fun present => present.identity = aggregate.identity then
    byIdentity.map fun present =>
      if present.identity = aggregate.identity then aggregate else present
  else byIdentity ++ [aggregate]

def mergedAggregate (current : Option WitnessAggregate)
    (witness : CommittedWitness parseUrl) : WitnessAggregate :=
  { identity := witness.identity
    identityTrust := match current with
      | none => witness.identityTrust
      | some present =>
          conservativeTrust present.identityTrust witness.identityTrust
    authorizationEpoch := witness.authorizationEpoch
    earliestCommittedAt :=
      min ((current.map fun present => present.earliestCommittedAt).getD
        witness.committedAt) witness.committedAt }

def aggregateWitness (byIdentity : List WitnessAggregate)
    (witness : CommittedWitness parseUrl) :
    Except ProjectionError (List WitnessAggregate) :=
  let current := byIdentity.find? fun present =>
    present.identity = witness.identity
  if current.any fun present =>
      present.authorizationEpoch ≠ witness.authorizationEpoch then
    .error .epochConflict
  else
    let next := setAggregate byIdentity (mergedAggregate current witness)
    if next.length > maxProjectionRecords then .error .capacityExceeded
    else .ok next

def aggregateWitnesses (collator : Collator)
    (witnesses : List (CommittedWitness parseUrl)) :
    Except ProjectionError (List WitnessAggregate) :=
  if witnesses.length > maxProjectionRecords * 4 then
    .error .capacityExceeded
  else do
    let byIdentity ← witnesses.foldlM aggregateWitness []
    return byIdentity.mergeSort fun left right =>
      (compareIdentity collator left.identity right.identity).isLE

end Aggregation

/-! ## Decisions -/

/-- Leases are compared as objects; the serial number stands for the object.
The claim kept for a lease holds just its identity and epoch. -/
structure CleanupLease where
  serial : Nat
  identity : TransportIdentity
  authorizationEpoch : String
  deriving DecidableEq, Repr

/-- What an operation does after its save, if it makes one, and returns. -/
inductive Answer where
  | record (record : ExtensionPairingProjection)
  | records (records : List ExtensionPairingProjection)
  | leaseFor (pending : ExtensionPairingProjection)
  | restored (lease : CleanupLease) (record : ExtensionPairingProjection)
  | completed (lease : CleanupLease)

/-- What an operation resolves with. -/
inductive Result where
  | done
  | record (record : ExtensionPairingProjection)
  | records (records : List ExtensionPairingProjection)
  | lease (lease : CleanupLease)

inductive Decision where
  | reject (failure : ProjectionError)
  | degrade (failure : ProjectionError)
  | settle (answer : Answer)
  | persist (next : List ExtensionPairingProjection) (answer : Answer)

section Rows

variable {parseUrl : ParseUrl}
variable (current : Option ExtensionPairingProjection)
variable (witness : CommittedWitness parseUrl)

def recordedTrust : IdentityTriState :=
  match current with
  | none => witness.identityTrust
  | some present =>
      conservativeTrust present.identityTrust witness.identityTrust

def recordedPairing : Nat :=
  match current with
  | none => witness.committedAt
  | some present => present.pairedAt

def recordedActivity : Option Nat :=
  current.bind fun present => present.lastActiveAt

/-- The row an upsert writes. -/
def updatedRecord (authenticatedAt : Option Nat) :
    ExtensionPairingProjection :=
  { identity := witness.identity
    identityTrust := recordedTrust current witness
    authorizationEpoch := witness.authorizationEpoch
    status := .ready
    pairedAt := recordedPairing current witness
    lastActiveAt := match authenticatedAt with
      | none => recordedActivity current
      | some observed =>
          some (max ((recordedActivity current).getD 0) observed) }

/-- The row `prepareCleanup` writes. -/
def pendingRecord : ExtensionPairingProjection :=
  { identity := witness.identity
    identityTrust := recordedTrust current witness
    authorizationEpoch := witness.authorizationEpoch
    status := .cleanupPending
    pairedAt := recordedPairing current witness
    lastActiveAt := recordedActivity current }

end Rows

section Decisions

variable {parseUrl : ParseUrl} (collator : Collator)
variable (records : List ExtensionPairingProjection)

def findRecord (identity : TransportIdentity) :
    Option ExtensionPairingProjection :=
  records.find? fun record => record.identity = identity

def withoutIdentity (identity : TransportIdentity) :
    List ExtensionPairingProjection :=
  records.filter fun record => record.identity ≠ identity

/-- `next.push(updated)` on the rows of the other identities. -/
def replaceRecord (updated : ExtensionPairingProjection) :
    List ExtensionPairingProjection :=
  sortRecords collator (withoutIdentity records updated.identity ++ [updated])

def upsertLiveWitness (witness : CommittedWitness parseUrl)
    (authenticatedAt : Option Nat) : Decision :=
  let current := findRecord records witness.identity
  if current.any fun present => present.status = .cleanupPending then
    .reject .cleanupPending
  else if current.any fun present =>
      present.authorizationEpoch ≠ witness.authorizationEpoch then
    .degrade .cleanupRequired
  else if current = none ∧ records.length ≥ maxProjectionRecords then
    .reject .capacityExceeded
  else if current.any fun present =>
      authenticatedAt.any fun observed => observed < present.pairedAt then
    .reject .invalidTime
  else
    let updated := updatedRecord current witness authenticatedAt
    if current = some updated then .settle (.record updated)
    else .persist (replaceRecord collator records updated) (.record updated)

def recordCommitted (witness : CommittedWitness parseUrl) : Decision :=
  upsertLiveWitness collator records witness none

/-- `observed` is the caller's time or else the clock's. -/
def recordAuthenticated (witness : CommittedWitness parseUrl)
    (observed : ClockReading) : Decision :=
  match observed with
  | none => .reject .invalidTime
  | some observedAt =>
      if observedAt > maxSafeInteger ∨ observedAt < witness.committedAt then
        .reject .invalidTime
      else upsertLiveWitness collator records witness (some observedAt)

def prepareCleanup (witness : CommittedWitness parseUrl) : Decision :=
  let current := findRecord records witness.identity
  if current.any fun present =>
      present.authorizationEpoch ≠ witness.authorizationEpoch then
    .degrade .cleanupRequired
  else
    let pending := pendingRecord current witness
    if current.any fun present => present.status = .cleanupPending then
      .settle (.leaseFor pending)
    else
      .persist (replaceRecord collator records pending) (.leaseFor pending)

/-- `{ ...record, status: 'cleanup-pending' }` for the identity's row. -/
def markPending (identity : TransportIdentity) :
    List ExtensionPairingProjection :=
  records.map fun record =>
    if record.identity = identity then
      { record with status := .cleanupPending }
    else record

def prepareIdentityCleanup (parseUrl : ParseUrl) (identity : Json) :
    Decision :=
  match normalizeTransportIdentity parseUrl identity with
  | none => .reject .invalidIdentity
  | some key =>
      match findRecord records key with
      | none => .reject .cleanupRequired
      | some current =>
          if current.status = .ready then
            .persist (sortRecords collator (markPending records key))
              (.leaseFor { current with status := .cleanupPending })
          else .settle (.leaseFor current)

/-- The row a lease's cleanup is about. -/
def leasedRecord (lease : CleanupLease) :
    Option ExtensionPairingProjection :=
  (findRecord records lease.identity).filter fun current =>
    current.status = .cleanupPending ∧
      current.authorizationEpoch = lease.authorizationEpoch

def completeCleanup (lease : CleanupLease) : Decision :=
  match leasedRecord records lease with
  | none => .reject .invalidCleanupLease
  | some _ =>
      .persist (withoutIdentity records lease.identity) (.completed lease)

def cancelCleanup (lease : CleanupLease)
    (witness : CommittedWitness parseUrl) : Decision :=
  if witness.identity ≠ lease.identity ∨
      witness.authorizationEpoch ≠ lease.authorizationEpoch then
    .reject .invalidCleanupLease
  else
    match leasedRecord records lease with
    | none => .reject .invalidCleanupLease
    | some current =>
        let restored : ExtensionPairingProjection :=
          { current with
            identityTrust :=
              conservativeTrust current.identityTrust witness.identityTrust
            status := .ready }
        .persist (replaceRecord collator records restored)
          (.restored lease restored)

/-- `existing.get(key)`: of several rows a `Map` keeps the last. -/
def existingRecord (identity : TransportIdentity) :
    Option ExtensionPairingProjection :=
  records.reverse.find? fun record => record.identity = identity

/-- The row of one aggregate; `none` where a row under cleanup has another
epoch. -/
def reconcileAggregate (aggregate : WitnessAggregate) :
    Option ExtensionPairingProjection :=
  let current := existingRecord records aggregate.identity
  match current with
  | none =>
      some
        { identity := aggregate.identity
          identityTrust := aggregate.identityTrust
          authorizationEpoch := aggregate.authorizationEpoch
          status := .ready
          pairedAt := aggregate.earliestCommittedAt
          lastActiveAt := none }
  | some present =>
      let sameEpoch : Bool :=
        present.authorizationEpoch = aggregate.authorizationEpoch
      if present.status = .cleanupPending then
        if sameEpoch then
          some
            { present with
              identityTrust :=
                conservativeTrust present.identityTrust
                  aggregate.identityTrust }
        else none
      else
        some
          { identity := aggregate.identity
            identityTrust := aggregate.identityTrust
            authorizationEpoch := aggregate.authorizationEpoch
            status := .ready
            pairedAt :=
              if sameEpoch then present.pairedAt
              else aggregate.earliestCommittedAt
            lastActiveAt := if sameEpoch then present.lastActiveAt else none }

/-- Rows under cleanup whose identity has no committed credential. -/
def unlistedPending (listed : List TransportIdentity) :
    List ExtensionPairingProjection :=
  records.filter fun current =>
    current.status = .cleanupPending ∧ current.identity ∉ listed

def reconcileCommitted (witnesses : List (CommittedWitness parseUrl)) :
    Decision :=
  match aggregateWitnesses collator witnesses with
  | .error failure =>
      .degrade
        (if failure = .capacityExceeded then .capacityExceeded
        else .epochConflict)
  | .ok aggregates =>
      match aggregates.mapM (reconcileAggregate records) with
      | none => .degrade .cleanupRequired
      | some next =>
          let listed := aggregates.map fun aggregate => aggregate.identity
          let sorted :=
            sortRecords collator (next ++ unlistedPending records listed)
          if records = sorted then .settle (.records sorted)
          else .persist sorted (.records sorted)

end Decisions

/-! ## The service over its store -/

structure Service where
  records : List ExtensionPairingProjection
  revision : Nat
  health : Health
  activeCleanup : TransportIdentity → Option CleanupLease
  /-- Leases handed to `completeCleanup` or `cancelCleanup` while they were
  active; the queue runs the rest of the call later. -/
  accepted : List CleanupLease
  issued : Nat

def Service.fresh : Service :=
  { records := []
    revision := 0
    health := .uninitialized
    activeCleanup := fun _ => none
    accepted := []
    issued := 0 }

/-- The service, the stored document, and every document written so far. -/
structure System where
  service : Service
  stored : StoreSnapshot
  written : List StoreSnapshot

/-- A missing file loads as an empty document of revision zero. -/
def boot : System :=
  { service := .fresh
    stored :=
      { revision := 0
        records := [] }
    written := [] }

/-- How a save ends.  A save that replaced the document may still reject, or
die with its process, and then has no `revision` to answer. -/
inductive SaveOutcome where
  | fails
  | lands (revision : Option Nat)
  deriving DecidableEq, Repr

namespace Service

def failDegraded (service : Service) : Service :=
  { service with
    health := .degraded
    records := [] }

def issueCleanupLease (service : Service)
    (record : ExtensionPairingProjection) : Service × CleanupLease :=
  match service.activeCleanup record.identity with
  | some existing => (service, existing)
  | none =>
      let lease : CleanupLease :=
        { serial := service.issued
          identity := record.identity
          authorizationEpoch := record.authorizationEpoch }
      ({ service with
          issued := service.issued + 1
          activeCleanup :=
            Function.update service.activeCleanup record.identity
              (some lease) },
        lease)

def releaseCleanupLease (service : Service) (lease : CleanupLease) : Service :=
  { service with
    activeCleanup :=
      Function.update service.activeCleanup lease.identity none }

def pruneResolvedCleanupLeases (service : Service) : Service :=
  { service with
    activeCleanup := fun identity =>
      (service.activeCleanup identity).filter fun lease =>
        (service.records.find? fun record =>
          record.identity = identity ∧
            record.status = .cleanupPending).any fun pending =>
          pending.authorizationEpoch = lease.authorizationEpoch }

/-- The statements between an operation's save and its return. -/
def resolve (service : Service) : Answer → Service × Result
  | .record record => (service, .record record)
  | .records records => (service, .records records)
  | .leaseFor pending =>
      ((service.issueCleanupLease pending).1,
        .lease (service.issueCleanupLease pending).2)
  | .completed lease => (service.releaseCleanupLease lease, .done)
  | .restored lease record =>
      (service.releaseCleanupLease lease, .record record)

/-- The synchronous head of `completeCleanup` and `cancelCleanup`. -/
def acceptLease (service : Service) (lease : CleanupLease) :
    Service × Except ProjectionError Result :=
  if service.activeCleanup lease.identity = some lease then
    ({ service with accepted := service.accepted ++ [lease] }, .ok .done)
  else (service, .error .invalidCleanupLease)

def canAdmitIdentity (parseUrl : ParseUrl) (service : Service)
    (identity : Json) : Bool :=
  match normalizeTransportIdentity parseUrl identity with
  | none => false
  | some key =>
      service.health = .ready &&
        (service.activeCleanup key).isNone &&
        !service.records.any fun record =>
          record.identity = key && record.status = .cleanupPending

end Service

inductive Event (parseUrl : ParseUrl) where
  | load (readable : Bool)
  | restart
  | recordCommitted (witness : CommittedWitness parseUrl)
      (outcome : SaveOutcome)
  | recordAuthenticated (witness : CommittedWitness parseUrl)
      (observed : ClockReading) (outcome : SaveOutcome)
  | prepareCleanup (witness : CommittedWitness parseUrl)
      (outcome : SaveOutcome)
  | prepareIdentityCleanup (identity : Json) (outcome : SaveOutcome)
  | acceptLease (lease : CleanupLease)
  /-- The queued part of an accepted call whose witness the credential store
  found live. -/
  | completeCleanup (lease : CleanupLease) (outcome : SaveOutcome)
  | cancelCleanup (lease : CleanupLease)
      (witness : CommittedWitness parseUrl) (outcome : SaveOutcome)
  | reconcileCommitted (witnesses : List (CommittedWitness parseUrl))
      (outcome : SaveOutcome)
  | stopAndDrain

namespace System

def failDegraded (s : System) : System :=
  { s with service := s.service.failDegraded }

/-- Compare-and-swap on the revision. -/
def save (s : System) (next : List ExtensionPairingProjection)
    (outcome : SaveOutcome) : System × Option Nat :=
  match outcome with
  | .fails => (s, none)
  | .lands revision =>
      if s.stored.revision = s.service.revision ∧
          s.service.revision < maxSafeInteger then
        let document : StoreSnapshot :=
          { revision := s.service.revision + 1
            records := next }
        ({ s with
            stored := document
            written := s.written ++ [document] },
          revision)
      else (s, none)

def resolve (s : System) (answer : Answer) :
    System × Except ProjectionError Result :=
  ({ s with service := (s.service.resolve answer).1 },
    .ok (s.service.resolve answer).2)

def persist (s : System) (next : List ExtensionPairingProjection)
    (outcome : SaveOutcome) (answer : Answer) :
    System × Except ProjectionError Result :=
  let (saved, nextRevision) := s.save next outcome
  if nextRevision = some (s.service.revision + 1) ∧
      s.service.revision + 1 ≤ maxSafeInteger then
    { saved with
      service :=
        { saved.service with
          records := next
          revision := s.service.revision + 1 } }.resolve answer
  else (saved.failDegraded, .error .persistenceFailed)

def execute (s : System) (decision : Decision) (outcome : SaveOutcome) :
    System × Except ProjectionError Result :=
  match decision with
  | .reject failure => (s, .error failure)
  | .degrade failure => (s.failDegraded, .error failure)
  | .settle answer => s.resolve answer
  | .persist next answer => s.persist next outcome answer

/-- The guards of `enqueue`, then the operation on the rows in memory. -/
def enqueue (s : System)
    (operation : List ExtensionPairingProjection → Decision)
    (outcome : SaveOutcome) : System × Except ProjectionError Result :=
  match s.service.health with
  | .stopped => (s, .error .stopped)
  | .degraded => (s, .error .degraded)
  | .uninitialized => (s, .error .notLoaded)
  | .ready => s.execute (operation s.service.records) outcome

section Reactions

variable {parseUrl : ParseUrl} (collator : Collator)

def load (parseUrl : ParseUrl) (s : System) (readable : Bool) :
    System × Except ProjectionError Result :=
  if s.service.health = .stopped then (s, .error .stopped)
  else if ¬ readable then (s.failDegraded, .error .persistenceFailed)
  else
    match parseStoreSnapshot parseUrl collator s.stored.toJson with
    | .error _ => (s.failDegraded, .error .storageRejected)
    | .ok parsed =>
        let loaded : Service :=
          { s.service with
            records := parsed.records
            revision := parsed.revision }
        ({ s with
            service :=
              { loaded.pruneResolvedCleanupLeases with health := .ready } },
          .ok .done)

/-- An accepted call leaves the list of calls to run. -/
def dequeue (s : System) (lease : CleanupLease) : System :=
  { s with
    service :=
      { s.service with accepted := s.service.accepted.erase lease } }

def react (s : System) : Event parseUrl → System × Except ProjectionError Result
  | .load readable => s.load collator parseUrl readable
  | .restart => ({ s with service := .fresh }, .ok .done)
  | .recordCommitted witness outcome =>
      s.enqueue (fun records => PairingProjection.recordCommitted collator
        records witness) outcome
  | .recordAuthenticated witness observed outcome =>
      s.enqueue (fun records => PairingProjection.recordAuthenticated collator
        records witness observed) outcome
  | .prepareCleanup witness outcome =>
      s.enqueue (fun records => PairingProjection.prepareCleanup collator
        records witness) outcome
  | .prepareIdentityCleanup identity outcome =>
      s.enqueue (fun records => PairingProjection.prepareIdentityCleanup
        collator records parseUrl identity) outcome
  | .acceptLease lease =>
      ({ s with service := (s.service.acceptLease lease).1 },
        (s.service.acceptLease lease).2)
  | .completeCleanup lease outcome =>
      if lease ∈ s.service.accepted then
        (s.dequeue lease).enqueue (fun records =>
          PairingProjection.completeCleanup records lease) outcome
      else (s, .error .invalidCleanupLease)
  | .cancelCleanup lease witness outcome =>
      if lease ∈ s.service.accepted then
        (s.dequeue lease).enqueue (fun records =>
          PairingProjection.cancelCleanup collator records lease witness)
          outcome
      else (s, .error .invalidCleanupLease)
  | .reconcileCommitted witnesses outcome =>
      s.enqueue (fun records => PairingProjection.reconcileCommitted collator
        records witnesses) outcome
  | .stopAndDrain =>
      ({ s with service := { s.service with health := .stopped } }, .ok .done)

def step (s : System) (event : Event parseUrl) : System :=
  (s.react collator event).1

end Reactions

end System

def run {parseUrl : ParseUrl} (collator : Collator)
    (events : List (Event parseUrl)) : System :=
  events.foldl (fun s event => s.step collator event) boot

end Motrix.Bridge.PairingProjection
