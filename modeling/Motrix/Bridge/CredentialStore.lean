import Motrix.Bridge.ExtensionIdentity

/-!
# The durable credential store

Every mutation runs alone in the store's queue: it computes the next document
from the one in memory, writes it atomically, and then swaps the memory.  An
operation is therefore a decision over the current records followed by at most
one write.
-/

namespace Motrix.Bridge

/-! ## Records -/

structure CredentialPrincipal where
  browser : Browser
  verifiedOrigin : String
  clientInstallationId : String
  safariInstallationKey : Option String
  deriving DecidableEq, Repr

inductive IdentityTriState where
  | official
  | attestedNonOfficial
  | unverified
  deriving DecidableEq, Repr

inductive CredentialState where
  | provisional
  | committed
  deriving DecidableEq, Repr

structure StoredCredential where
  credentialId : String
  mutualKeyB64 : String
  principal : CredentialPrincipal
  predecessorId : Option String
  state : CredentialState
  identity : IdentityTriState
  authorizationEpoch : Option String
  createdAt : Nat
  committedAt : Option Nat
  deriving DecidableEq, Repr

/-- The tuple that `principalKey` renders as JSON. -/
abbrev PrincipalKey := Browser × String × String

def principalKey (p : CredentialPrincipal) : PrincipalKey :=
  (p.browser, p.verifiedOrigin, p.clientInstallationId)

/-- A document as it is on disk.  `legacy` marks the first version, whose
records carry no authorization epoch. -/
structure CredentialDocument where
  credentials : List StoredCredential
  pendingPromote : Option String
  legacy : Bool
  deriving DecidableEq, Repr

def CredentialDocument.empty : CredentialDocument :=
  { credentials := []
    pendingPromote := none
    legacy := false }

inductive StoreError where
  | invalidInput
  | notCommitted
  | epochConflict
  | capacityExceeded
  | storageRejected
  | safariContinuityChanged
  | promoteNoLiveProvisional
  | promoteStaleRotation
  | callbackRejected
  | writeFailed
  | syncFailed
  | notLoaded
  deriving DecidableEq, Repr

/-! ## Constants and schemas -/

def provisionalTtlMs : Nat := 10 * 60 * 1000
def maxStoredCredentials : Nat := 16384
def maxCredentialIdLength : Nat := 128
def maxMutualKeyLength : Nat := 256
def maxVerifiedOriginLength : Nat := 512
def maxInstallationIdLength : Nat := 256
def maxExtensionIdLength : Nat := 256
def maxSafeInteger : Nat := 9007199254740991

private def withinLength (maximum : Nat) (text : String) : Bool :=
  0 < jsLength text && jsLength text ≤ maximum

/-- `^[A-Za-z0-9_-]{42}[AEIMQUYcgkosw048]$` -/
def isSafariInstallationKey (text : String) : Bool :=
  let characters := text.toList
  characters.length = 43 &&
    (characters.take 42).all (fun character =>
      let code := character.toNat
      (65 ≤ code && code ≤ 90) || (97 ≤ code && code ≤ 122) ||
        (48 ≤ code && code ≤ 57) || character = '_' || character = '-') &&
    "AEIMQUYcgkosw048".toList.contains (characters.getLastD ' ')

def credentialPrincipalSchema (p : CredentialPrincipal) : Bool :=
  withinLength maxVerifiedOriginLength p.verifiedOrigin &&
    withinLength maxInstallationIdLength p.clientInstallationId &&
    match p.safariInstallationKey with
    | none => true
    | some key => isSafariInstallationKey key && p.browser = .safari

def validCredentialId (id : String) : Bool :=
  withinLength maxCredentialIdLength id

def validCredentialState (credential : StoredCredential) : Bool :=
  match credential.state, credential.committedAt with
  | .committed, some committedAt => credential.createdAt ≤ committedAt
  | .committed, none => false
  | .provisional, committedAt => committedAt.isNone

/-- The record schema of either document version. -/
def storedCredentialSchema (legacy : Bool) (credential : StoredCredential) :
    Bool :=
  validCredentialId credential.credentialId &&
    withinLength maxMutualKeyLength credential.mutualKeyB64 &&
    credentialPrincipalSchema credential.principal &&
    credential.predecessorId.all validCredentialId &&
    credential.createdAt ≤ maxSafeInteger &&
    credential.committedAt.all (fun committedAt =>
      committedAt ≤ maxSafeInteger) &&
    (match credential.authorizationEpoch with
    | none => legacy
    | some epoch => !legacy && isUuidV4 epoch)

/-! ## Transport identities -/

section Transport

variable (parseUrl : ParseUrl)

abbrev TransportIdentity := Browser × String

instance : LawfulBEq TransportIdentity := inferInstance

def transportIdentityForPrincipal (principal : CredentialPrincipal) :
    Option TransportIdentity := do
  let parsed ← parseUrl principal.verifiedOrigin
  let normalized ← normalizeExtensionIdentity parseUrl
    { browser := principal.browser
      verifiedOrigin := principal.verifiedOrigin
      claimedExtensionId := parsed.hostname }
  if jsLength normalized.originHost > maxExtensionIdLength ∨
      normalized.originHost ≠ toLowerCase normalized.originHost then none
  else some (normalized.browser, normalized.originHost)

def normalizeTransportIdentity (browser : Browser) (extensionId : String) :
    Option TransportIdentity :=
  if extensionId = "" ∨ jsLength extensionId > maxExtensionIdLength ∨
      extensionId ≠ toLowerCase extensionId then none
  else do
    let normalized ← normalizeExtensionIdentity parseUrl
      { browser := browser
        verifiedOrigin :=
          extensionOriginScheme browser ++ "://" ++ extensionId
        claimedExtensionId := extensionId }
    if normalized.originHost ≠ extensionId then none
    else some (browser, extensionId)

def principalMatchesExtensionIdentity (principal : CredentialPrincipal)
    (browser : Browser) (extensionId : String) : Bool :=
  principal.browser = browser &&
    match parseUrl principal.verifiedOrigin with
    | none => false
    | some origin =>
        origin.protocol = extensionOriginScheme browser ++ ":" &&
          origin.host = toLowerCase extensionId

def parseCredentialPrincipal (principal : CredentialPrincipal) :
    Except StoreError CredentialPrincipal :=
  if ¬ credentialPrincipalSchema principal ∨
      transportIdentityForPrincipal parseUrl principal = none then
    .error .invalidInput
  else .ok principal

/-- The epoch shared by every record of the principal's transport identity. -/
def authorizationEpochForPrincipal (credentials : List StoredCredential)
    (principal : CredentialPrincipal) : Except StoreError (Option String) :=
  match transportIdentityForPrincipal parseUrl principal with
  | none => .error .notCommitted
  | some key =>
      let epochs := (credentials.filter fun credential =>
        transportIdentityForPrincipal parseUrl credential.principal =
          some key).filterMap fun credential => credential.authorizationEpoch
      if epochs.eraseDups.length > 1 then .error .epochConflict
      else .ok epochs.head?

end Transport

/-! ## Decisions -/

/-- A clock reading; `none` where the clock throws or does not return a
non-negative integer. -/
abbrev ClockReading := Option Nat

def readClock : ClockReading → Except StoreError Nat
  | none => .error .invalidInput
  | some value =>
      if value ≤ maxSafeInteger then .ok value else .error .invalidInput

def isExpiredAt (credential : StoredCredential) (now : Nat) : Bool :=
  credential.state = .provisional &&
    credential.createdAt + provisionalTtlMs ≤ now

def committedForKey (credentials : List StoredCredential)
    (key : PrincipalKey) : Option StoredCredential :=
  credentials.find? fun credential =>
    credential.state = .committed && principalKey credential.principal = key

def findCredential (credentials : List StoredCredential) (id : String) :
    Option StoredCredential :=
  credentials.find? fun credential => credential.credentialId = id

/-- The result of an operation and the document it persists, if any. -/
structure StoreDecision (α : Type) where
  answer : α
  next : Option (List StoredCredential)

structure CredentialOffer where
  credentialId : String
  mutualKeyB64 : String
  deriving DecidableEq, Repr

/-- The random values drawn for one fresh credential. -/
structure CredentialEntropy where
  credentialId : String
  mutualKeyB64 : String
  authorizationEpoch : String
  deriving DecidableEq, Repr

/-- An optional host callback awaited inside the queue. -/
inductive HostCallback where
  | absent
  | resolves
  | rejects
  deriving DecidableEq, Repr

section Operations

variable (parseUrl : ParseUrl) (credentials : List StoredCredential)

def runHostCallback (callback : HostCallback) : Except StoreError Unit :=
  if callback = .rejects then .error .callbackRejected else .ok ()

/-- The live provisional of the principal's current slot. -/
def provisionalSlot (key : PrincipalKey) (predecessorId : Option String)
    (now : Nat) : Option StoredCredential :=
  credentials.find? fun credential =>
    credential.state = .provisional &&
      principalKey credential.principal = key &&
      credential.predecessorId = predecessorId &&
      !isExpiredAt credential now

def offerProvisional (principal : CredentialPrincipal)
    (identity : IdentityTriState) (beforeOffer : HostCallback)
    (entropy : CredentialEntropy) (clock : ClockReading) :
    Except StoreError (StoreDecision CredentialOffer) := do
  let parsedPrincipal ← parseCredentialPrincipal parseUrl principal
  let operationNow ← readClock clock
  let key := principalKey parsedPrincipal
  let predecessorId := (committedForKey credentials key).map
    fun committed => committed.credentialId
  match provisionalSlot credentials key predecessorId operationNow with
  | some slot =>
      if slot.principal.safariInstallationKey ≠
          parsedPrincipal.safariInstallationKey then
        throw .invalidInput
      if beforeOffer ≠ .absent ∧ slot.authorizationEpoch = none then
        throw .invalidInput
      runHostCallback beforeOffer
      return {
        answer :=
          { credentialId := slot.credentialId
            mutualKeyB64 := slot.mutualKeyB64 }
        next := none }
  | none =>
      let retained := credentials.filter fun credential =>
        credential.state ≠ .provisional ||
          principalKey credential.principal ≠ key
      if retained.length ≥ maxStoredCredentials then
        throw .capacityExceeded
      let epoch ←
        authorizationEpochForPrincipal parseUrl credentials parsedPrincipal
      let fresh : StoredCredential :=
        { credentialId := entropy.credentialId
          mutualKeyB64 := entropy.mutualKeyB64
          principal := parsedPrincipal
          predecessorId := predecessorId
          state := .provisional
          identity := identity
          authorizationEpoch := some (epoch.getD entropy.authorizationEpoch)
          createdAt := operationNow
          committedAt := none }
      runHostCallback beforeOffer
      return {
        answer :=
          { credentialId := fresh.credentialId
            mutualKeyB64 := fresh.mutualKeyB64 }
        next := some (retained ++ [fresh]) }

def bindSafariInstallation (expected : StoredCredential)
    (publicKey : String) (clock : ClockReading) :
    Except StoreError (StoreDecision Unit) := do
  match findCredential credentials expected.credentialId with
  | none => throw .safariContinuityChanged
  | some current =>
      if current.principal.browser ≠ .safari ∨
          current.mutualKeyB64 ≠ expected.mutualKeyB64 ∨
          current.authorizationEpoch ≠ expected.authorizationEpoch ∨
          principalKey current.principal ≠ principalKey expected.principal ∨
          (current.principal.safariInstallationKey ≠ none ∧
            current.principal.safariInstallationKey ≠ some publicKey) then
        throw .safariContinuityChanged
      let now ← readClock clock
      if isExpiredAt current now then throw .safariContinuityChanged
      let principal ← parseCredentialPrincipal parseUrl
        { current.principal with safariInstallationKey := some publicKey }
      if current.principal.safariInstallationKey = some publicKey then
        return { answer := (), next := none }
      let index := credentials.findIdx fun credential =>
        credential.credentialId = expected.credentialId
      return {
        answer := ()
        next := some
          (credentials.set index { current with principal := principal }) }

/-- The promoted credential becomes the principal's sole credential. -/
def applyPromote (target : StoredCredential) (now : Nat) :
    List StoredCredential :=
  (credentials.filter fun credential =>
      principalKey credential.principal ≠ principalKey target.principal) ++
    [{ target with
        state := .committed
        committedAt := some (target.committedAt.getD now)
        predecessorId := none }]

def promoteDurably (credentialId : String) (clock : ClockReading) :
    Except StoreError (StoreDecision Unit) := do
  let found := findCredential credentials credentialId
  let now ← readClock clock
  match found with
  | none => throw .promoteNoLiveProvisional
  | some target =>
      if target.state ≠ .provisional ∨ isExpiredAt target now ∨
          now < target.createdAt then
        throw .promoteNoLiveProvisional
      -- Compare-and-swap on the principal's current committed credential.
      let key := principalKey target.principal
      let committedId := (committedForKey credentials key).map
        fun committed => committed.credentialId
      if committedId ≠ target.predecessorId then
        throw .promoteStaleRotation
      return {
        answer := ()
        next := some (applyPromote credentials target now) }

def assertCredentialId (credentialId : String) : Except StoreError Unit :=
  if validCredentialId credentialId then .ok () else .error .invalidInput

def commitFromPair (credentialId : String) (beforeCommit : HostCallback)
    (clock : ClockReading) : Except StoreError (StoreDecision Unit) := do
  assertCredentialId credentialId
  runHostCallback beforeCommit
  promoteDurably credentials credentialId clock

def promoteOnReconnect (credentialId : String) (clock : ClockReading) :
    Except StoreError (StoreDecision Unit) := do
  assertCredentialId credentialId
  promoteDurably credentials credentialId clock

/-- Keep what a removal does not cover; persist only if something went. -/
def removeCovered (covered : StoredCredential → Bool) :
    StoreDecision Nat :=
  let next := credentials.filter fun credential => !covered credential
  if next.length = credentials.length then { answer := 0, next := none }
  else
    { answer := credentials.length - next.length
      next := some next }

def revokeCovers (credentialId : String) (credential : StoredCredential) :
    Bool :=
  credential.credentialId = credentialId ||
    (credential.state = .provisional &&
      credential.predecessorId = some credentialId)

def revoke (credentialId : String) :
    Except StoreError (StoreDecision Nat) := do
  assertCredentialId credentialId
  return removeCovered credentials (revokeCovers credentialId)

def revokeExtensionIdentity (browser : Browser) (extensionId : String) :
    Except StoreError (StoreDecision Nat) :=
  match normalizeTransportIdentity parseUrl browser extensionId with
  | none => .error .invalidInput
  | some identity => .ok (removeCovered credentials fun credential =>
      principalMatchesExtensionIdentity parseUrl credential.principal
        identity.1 identity.2)

def sweepExpiredProvisionals (clock : ClockReading) :
    Except StoreError (StoreDecision Nat) := do
  let now ← readClock clock
  return removeCovered credentials fun credential => isExpiredAt credential now

/-- The credential a reconnect may authenticate against. -/
def findForAuth (credentialId : String) (clock : ClockReading) :
    Except StoreError (Option StoredCredential) := do
  if ¬ validCredentialId credentialId then return none
  match findCredential credentials credentialId with
  | none => return none
  | some found =>
      if found.state = .committed then return some found
      let now ← readClock clock
      if isExpiredAt found now then return none
      let committedId :=
        (committedForKey credentials (principalKey found.principal)).map
          fun committed => committed.credentialId
      return if committedId = found.predecessorId then some found else none

end Operations

/-! ## Loading -/

def committedOrder (credential : StoredCredential) : Nat :=
  credential.committedAt.getD credential.createdAt

/-- The newest committed record of a principal, with its position. -/
def newestCommitted (credentials : List StoredCredential)
    (key : PrincipalKey) : Option (StoredCredential × Nat) :=
  credentials.zipIdx.foldl
    (fun newest entry =>
      if entry.1.state = .committed ∧
          principalKey entry.1.principal = key ∧
          newest.all (fun seen =>
            committedOrder seen.1 ≤ committedOrder entry.1) then
        some entry
      else newest)
    none

def converge (credentials : List StoredCredential) (now : Nat) :
    List StoredCredential :=
  (credentials.zipIdx.filter fun entry =>
    if entry.1.state = .committed then
      (newestCommitted credentials (principalKey entry.1.principal)).map
        (fun newest => newest.2) = some entry.2
    else !isExpiredAt entry.1 now).map fun entry => entry.1

abbrev TransportGroups := List (TransportIdentity × List StoredCredential)

/-- `groups.set(key, [...groups.get(key) ?? [], credential])` on a `Map`, which
keeps insertion order. -/
def addToGroup (groups : TransportGroups) (key : TransportIdentity)
    (credential : StoredCredential) : TransportGroups :=
  match groups with
  | [] => [(key, [credential])]
  | (otherKey, members) :: rest =>
      if otherKey = key then (otherKey, members ++ [credential]) :: rest
      else (otherKey, members) :: addToGroup rest key credential

def transportGroups (parseUrl : ParseUrl) :
    TransportGroups → List StoredCredential →
    Except StoreError TransportGroups
  | groups, [] => .ok groups
  | groups, credential :: rest =>
      match transportIdentityForPrincipal parseUrl credential.principal with
      | none => .error .storageRejected
      | some key =>
          transportGroups parseUrl (addToGroup groups key credential) rest

/-- Give every record of a group the group's epoch.  The flag reports a record
that had another one. -/
def migrateGroups (makeEpoch : Nat → String) :
    Nat → TransportGroups →
    Except StoreError (List StoredCredential × Bool)
  | _, [] => .ok ([], false)
  | index, (_, group) :: rest => do
      let epochs :=
        group.filterMap fun credential => credential.authorizationEpoch
      if epochs.eraseDups.length > 1 then throw .epochConflict
      let epoch := epochs.head?.getD (makeEpoch index)
      let changed := group.any fun credential =>
        credential.authorizationEpoch ≠ some epoch
      let migrated := group.map fun credential =>
        { credential with authorizationEpoch := some epoch }
      let (others, othersChanged) ← migrateGroups makeEpoch (index + 1) rest
      return (migrated ++ others, changed || othersChanged)

structure Reconciled where
  credentials : List StoredCredential
  changed : Bool

/-- Replay the `pendingPromote` journal entry. -/
def replayPromotion (doc : CredentialDocument) (now : Nat) :
    List StoredCredential :=
  match doc.pendingPromote.bind (findCredential doc.credentials) with
  | none => doc.credentials
  | some target => applyPromote doc.credentials target now

def reconcile (parseUrl : ParseUrl) (makeEpoch : Nat → String)
    (doc : CredentialDocument) (now : Nat) : Except StoreError Reconciled := do
  let replayed := replayPromotion doc now
  let converged := converge replayed now
  let groups ← transportGroups parseUrl [] converged
  let (migrated, epochsChanged) ← migrateGroups makeEpoch 0 groups
  return {
    credentials := migrated
    changed := doc.pendingPromote.isSome || doc.legacy ||
      converged.length ≠ replayed.length || epochsChanged }

def readDocument (doc : CredentialDocument) :
    Except StoreError CredentialDocument :=
  if doc.credentials.length ≤ maxStoredCredentials ∧
      doc.pendingPromote ≠ some "" ∧
      doc.credentials.all (fun credential =>
        storedCredentialSchema doc.legacy credential &&
          validCredentialState credential) then
    .ok doc
  else .error .storageRejected

/-! ## The store and its disk -/

/-- `undurable` holds the earlier documents that a power loss may still bring
back because no directory sync has happened since. -/
structure StoreWorld where
  memory : Option (List StoredCredential)
  disk : CredentialDocument
  undurable : List CredentialDocument

/-- What the file system does with a write: reject it before the rename, land
it but fail the directory sync, or land and sync it. -/
inductive WriteOutcome where
  | rejected
  | unsynced
  | synced
  deriving DecidableEq, Repr

namespace StoreWorld

def writable (next : List StoredCredential) : Bool :=
  next.all fun credential =>
    credential.authorizationEpoch.isSome && validCredentialState credential

/-- `persist`, and the write-back of `load`. -/
def persist (world : StoreWorld) (next : List StoredCredential)
    (write : WriteOutcome) : Except StoreError Unit × StoreWorld :=
  let written : CredentialDocument :=
    { credentials := next
      pendingPromote := none
      legacy := false }
  if ¬ writable next then (.error .storageRejected, world)
  else
    match write with
    | .rejected => (.error .writeFailed, world)
    | .unsynced =>
        (.error .syncFailed,
          { memory := some next
            disk := written
            undurable := world.disk :: world.undurable })
    | .synced =>
        (.ok (),
          { memory := some next
            disk := written
            undurable := [] })

/-- Run one queued operation. -/
def perform {α : Type} (world : StoreWorld)
    (operation : List StoredCredential → Except StoreError (StoreDecision α))
    (write : WriteOutcome) : Except StoreError α × StoreWorld :=
  match world.memory with
  | none => (.error .notLoaded, world)
  | some credentials =>
      match operation credentials with
      | .error failure => (.error failure, world)
      | .ok decision =>
          match decision.next with
          | none => (.ok decision.answer, world)
          | some next =>
              match world.persist next write with
              | (.error failure, after) => (.error failure, after)
              | (.ok (), after) => (.ok decision.answer, after)

/-- A new process: whatever was in memory is gone, and the store exists only
if its load succeeds. -/
def load (parseUrl : ParseUrl) (world : StoreWorld) (clock : ClockReading)
    (makeEpoch : Nat → String) (write : WriteOutcome) :
    Except StoreError Unit × StoreWorld :=
  let stopped := { world with memory := none }
  let reconciled := do
    let doc ← readDocument world.disk
    let now ← readClock clock
    reconcile parseUrl makeEpoch doc now
  match reconciled with
  | .error failure => (.error failure, stopped)
  | .ok result =>
      if result.changed then
        match stopped.persist result.credentials write with
        | (.error failure, after) =>
            (.error failure, { after with memory := none })
        | (.ok (), after) => (.ok (), after)
      else (.ok (), { stopped with memory := some result.credentials })

/-- Power loss: any document written since the last sync may be what is found
on disk. -/
def losePower (world : StoreWorld) (exposed : Nat) : StoreWorld :=
  { memory := none
    disk := (world.disk :: world.undurable).getD exposed world.disk
    undurable := [] }

end StoreWorld

inductive StoreEvent where
  | offerProvisional (principal : CredentialPrincipal)
      (identity : IdentityTriState) (beforeOffer : HostCallback)
      (entropy : CredentialEntropy) (clock : ClockReading)
      (write : WriteOutcome)
  | bindSafariInstallation (expected : StoredCredential)
      (publicKey : String) (clock : ClockReading) (write : WriteOutcome)
  | commitFromPair (credentialId : String) (beforeCommit : HostCallback)
      (clock : ClockReading) (write : WriteOutcome)
  | promoteOnReconnect (credentialId : String) (clock : ClockReading)
      (write : WriteOutcome)
  | revoke (credentialId : String) (write : WriteOutcome)
  | revokeExtensionIdentity (browser : Browser) (extensionId : String)
      (write : WriteOutcome)
  | sweepExpiredProvisionals (clock : ClockReading) (write : WriteOutcome)
  | load (clock : ClockReading) (makeEpoch : Nat → String)
      (write : WriteOutcome)
  | losePower (exposed : Nat)

namespace StoreWorld

variable (parseUrl : ParseUrl)

/-- One event, with whether its promise resolves. -/
def react (world : StoreWorld) :
    StoreEvent → Except StoreError Unit × StoreWorld
  | .offerProvisional principal identity beforeOffer entropy clock write =>
      (world.perform (fun credentials => offerProvisional parseUrl credentials
        principal identity beforeOffer entropy clock) write).map
        (·.map fun _ => ()) id
  | .bindSafariInstallation expected publicKey clock write =>
      world.perform (fun credentials => bindSafariInstallation parseUrl
        credentials expected publicKey clock) write
  | .commitFromPair credentialId beforeCommit clock write =>
      world.perform (fun credentials =>
        commitFromPair credentials credentialId beforeCommit clock) write
  | .promoteOnReconnect credentialId clock write =>
      world.perform (fun credentials =>
        promoteOnReconnect credentials credentialId clock) write
  | .revoke credentialId write =>
      (world.perform (fun credentials => revoke credentials credentialId)
        write).map (·.map fun _ => ()) id
  | .revokeExtensionIdentity browser extensionId write =>
      (world.perform (fun credentials => revokeExtensionIdentity parseUrl
        credentials browser extensionId) write).map (·.map fun _ => ()) id
  | .sweepExpiredProvisionals clock write =>
      (world.perform (fun credentials =>
        sweepExpiredProvisionals credentials clock) write).map
        (·.map fun _ => ()) id
  | .load clock makeEpoch write => world.load parseUrl clock makeEpoch write
  | .losePower exposed => (.ok (), world.losePower exposed)

def step (world : StoreWorld) (event : StoreEvent) : StoreWorld :=
  (world.react parseUrl event).2

def run (world : StoreWorld) (events : List StoreEvent) : StoreWorld :=
  events.foldl (step parseUrl) world

end StoreWorld

end Motrix.Bridge
