import Mathlib.Data.List.Perm.Basic
import Motrix.Bridge.Frames
import Motrix.Bridge.CredentialStore
import Motrix.Bridge.Envelope
import Motrix.Bridge.Transcript

/-!
# Pairing flood control

A global cap on pending dialogs, one pending dialog per origin, and a lockout
that doubles with every consecutive failure.
-/

namespace Motrix.Bridge

def defaultPendingCap : Nat := 3
def baseLockoutSeconds : Nat := 30
def maxLockoutSeconds : Nat := 3600
def resetAfterMs : Int := 24 * 60 * 60 * 1000

structure PairOutcome where
  queuedDialog : Bool
  consumedAttempt : Bool
  confirmed : Bool
  deriving DecidableEq, Repr

/-- `pendingOrigins` is a set in insertion order. -/
structure PairFloodControl where
  pendingCap : Nat
  pendingOrigins : List String
  failureCount : Nat
  lastFailureAt : Option Int
  deriving DecidableEq, Repr

namespace PairFloodControl

def fresh (pendingCap : Nat) : PairFloodControl :=
  { pendingCap := pendingCap
    pendingOrigins := []
    failureCount := 0
    lastFailureAt := none }

def resetIfStale (flood : PairFloodControl) (t : Int) : PairFloodControl :=
  match flood.lastFailureAt with
  | none => flood
  | some failedAt =>
      if t - failedAt ≥ resetAfterMs then
        { flood with
          failureCount := 0
          lastFailureAt := none }
      else flood

def lockoutSeconds (failureCount : Nat) : Nat :=
  min (baseLockoutSeconds * 2 ^ (failureCount - 1)) maxLockoutSeconds

/-- What is left of the lockout, after a stale one was forgotten. -/
def lockoutRemainingMs (flood : PairFloodControl) (t : Int) :
    Int × PairFloodControl :=
  let flood := flood.resetIfStale t
  match flood.lastFailureAt with
  | none => (0, flood)
  | some failedAt =>
      if flood.failureCount = 0 then (0, flood)
      else
        let lockoutEndsAt :=
          failedAt + (lockoutSeconds flood.failureCount : Int) * 1000
        (max 0 (lockoutEndsAt - t), flood)

/-- `PairFloodControl.admit`; `none` lets the origin in, otherwise the code of
the refusal. -/
def admitOrigin (flood : PairFloodControl) (verifiedOrigin : String)
    (t : Int) : Option PairErrorCode × PairFloodControl :=
  let (remaining, flood) := flood.lockoutRemainingMs t
  if remaining > 0 then (some .rateLimited, flood)
  else if flood.pendingOrigins.contains verifiedOrigin then
    (some .busy, flood)
  else if flood.pendingOrigins.length ≥ flood.pendingCap then
    (some .busy, flood)
  else
    (none, { flood with
      pendingOrigins := flood.pendingOrigins ++ [verifiedOrigin] })

def release (flood : PairFloodControl) (verifiedOrigin : String) :
    PairFloodControl :=
  { flood with
    pendingOrigins :=
      flood.pendingOrigins.filter fun origin => origin ≠ verifiedOrigin }

def recordOutcome (flood : PairFloodControl) (outcome : PairOutcome)
    (t : Int) : PairFloodControl :=
  let flood := flood.resetIfStale t
  if outcome.confirmed then
    { flood with
      failureCount := 0
      lastFailureAt := none }
  else if outcome.queuedDialog ∨ outcome.consumedAttempt then
    { flood with
      failureCount := flood.failureCount + 1
      lastFailureAt := some t }
  else flood

variable {flood : PairFloodControl}

/-! ## What the operations do to the pending set -/

@[simp] theorem resetIfStale_pendingOrigins (t : Int) :
    (flood.resetIfStale t).pendingOrigins = flood.pendingOrigins := by
  unfold resetIfStale
  split
  · rfl
  · split <;> rfl

@[simp] theorem resetIfStale_pendingCap (t : Int) :
    (flood.resetIfStale t).pendingCap = flood.pendingCap := by
  unfold resetIfStale
  split
  · rfl
  · split <;> rfl

theorem lockoutRemainingMs_flood (t : Int) :
    (flood.lockoutRemainingMs t).2 = flood.resetIfStale t := by
  unfold lockoutRemainingMs
  simp only
  split
  · rfl
  · split <;> rfl

@[simp] theorem recordOutcome_pendingOrigins (outcome : PairOutcome)
    (t : Int) :
    (flood.recordOutcome outcome t).pendingOrigins =
      flood.pendingOrigins := by
  unfold recordOutcome
  simp only
  split
  · exact resetIfStale_pendingOrigins t
  · split
    · exact resetIfStale_pendingOrigins t
    · exact resetIfStale_pendingOrigins t

@[simp] theorem recordOutcome_pendingCap (outcome : PairOutcome) (t : Int) :
    (flood.recordOutcome outcome t).pendingCap = flood.pendingCap := by
  unfold recordOutcome
  simp only
  split
  · exact resetIfStale_pendingCap t
  · split
    · exact resetIfStale_pendingCap t
    · exact resetIfStale_pendingCap t

/-- A refusal leaves the pending set alone; an admission adds a new origin
below the cap. -/
theorem admitOrigin_cases (flood : PairFloodControl) (verifiedOrigin : String)
    (t : Int) :
    (flood.admitOrigin verifiedOrigin t).2.pendingCap = flood.pendingCap ∧
    ((∃ code, (flood.admitOrigin verifiedOrigin t).1 = some code ∧
        (flood.admitOrigin verifiedOrigin t).2.pendingOrigins =
          flood.pendingOrigins) ∨
      (flood.admitOrigin verifiedOrigin t).1 = none ∧
        verifiedOrigin ∉ flood.pendingOrigins ∧
        flood.pendingOrigins.length < flood.pendingCap ∧
        (flood.admitOrigin verifiedOrigin t).2.pendingOrigins =
          flood.pendingOrigins ++ [verifiedOrigin]) := by
  unfold admitOrigin
  simp only [lockoutRemainingMs_flood, List.contains_iff_mem,
    resetIfStale_pendingOrigins, resetIfStale_pendingCap]
  split
  · exact ⟨resetIfStale_pendingCap t,
      .inl ⟨_, rfl, resetIfStale_pendingOrigins t⟩⟩
  split
  · exact ⟨resetIfStale_pendingCap t,
      .inl ⟨_, rfl, resetIfStale_pendingOrigins t⟩⟩
  split
  · exact ⟨resetIfStale_pendingCap t,
      .inl ⟨_, rfl, resetIfStale_pendingOrigins t⟩⟩
  · rename_i absent room
    exact ⟨rfl,
      .inr ⟨rfl, absent, lt_of_not_ge room, rfl⟩⟩

/-- Releasing one of distinct pending origins leaves exactly the others. -/
theorem release_perm {verifiedOrigin : String} {others : List String}
    (pending : flood.pendingOrigins.Perm (verifiedOrigin :: others))
    (distinct : flood.pendingOrigins.Nodup) :
    (flood.release verifiedOrigin).pendingOrigins.Perm others := by
  have distinct' := pending.nodup_iff.mp distinct
  have absent : verifiedOrigin ∉ others := (List.nodup_cons.mp distinct').1
  have filtered := pending.filter fun origin => origin ≠ verifiedOrigin
  refine filtered.trans ?_
  have kept : others.filter (fun origin => origin ≠ verifiedOrigin) =
      others := by
    refine List.filter_eq_self.mpr fun origin member => ?_
    have different : origin ≠ verifiedOrigin := fun same =>
      absent (same ▸ member)
    simpa using different
  simp only [List.filter_cons, ne_eq, not_true, decide_false,
    Bool.false_eq_true, if_false]
  exact List.Perm.of_eq kept

end PairFloodControl

end Motrix.Bridge

/-!
# What a first-pair session works with

The primitives it calls, the prompts it settles, the identity it resolves and
the code it draws.
-/

namespace Motrix.Bridge

open Motrix.Lib

/-! ## Collaborators -/

inductive SharedSecretError where
  | identityK
  | notOnCurve
  deriving DecidableEq, Repr

/-- SPAKE2 arithmetic, the password hash, URLs and JSON text, beside the other
primitives.  `deriveW` is `none` where it throws. -/
structure PairPrimitives extends HandshakeCrypto where
  aead : Aead
  deriveW : (codeNormalized pairNonce : String) → Option Nat
  computePublicB : (w y : Nat) → Bytes
  sharedFromB : (w y : Nat) → (pA : Bytes) → Except SharedSecretError Bytes
  parseUrl : ParseUrl
  parseJson : Bytes → Option Json
  stringifyJson : Json → Bytes

inductive PromptOutcome where
  | paired
  | denied
  | expired
  | aborted
  deriving DecidableEq, Repr

/-- A prompt of the controller; `terminal` is what its promise resolved to. -/
structure PromptEntry where
  expiresAt : Int
  terminal : Option PromptOutcome
  deriving DecidableEq, Repr

inductive SettleResult where
  | ok (outcome : PromptOutcome)
  | unavailable
  | throws
  deriving DecidableEq, Repr

namespace PromptEntry

/-- `settleInternal` on a prompt that may already be terminal. -/
def settleInternal (entry : PromptEntry) (outcome : PromptOutcome) :
    SettleResult × PromptEntry :=
  match entry.terminal with
  | some _ => (.unavailable, entry)
  | none => (.ok outcome, { entry with terminal := some outcome })

/-- `now` is `none` where the time source throws. -/
def settleFromSession (entry : PromptEntry) (outcome : PromptOutcome)
    (now : Option Int) : SettleResult × PromptEntry :=
  match entry.terminal, now with
  | some _, _ => (.unavailable, entry)
  | none, none => (.throws, entry)
  | none, some t =>
      if t ≥ entry.expiresAt then
        (.unavailable, (entry.settleInternal .expired).2)
      else entry.settleInternal outcome

end PromptEntry

inductive EnqueueAnswer where
  | throws
  | refused
  | accepted (expiresAt : Int)
  deriving DecidableEq, Repr

structure PairSessionDeps where
  nonceValid : Bool
  pairNonce : String
  verifiedOrigin : String
  browser : Browser
  instanceId : String
  serverGeneration : String
  localToken : String
  isOfficialId : Browser → String → Bool

/-! ## Identity -/

/-- `validProvenId` -/
def validProvenId (value : String) : Bool :=
  value ≠ "" && value.toList.all fun character =>
    0x21 ≤ character.toNat && character.toNat ≤ 0x7e

/-- `attestation` is the caller of a verified ticket.  `none` is an invalid
resolution. -/
def resolveNormalizedExtensionIdentity
    (identity : NormalizedExtensionIdentity) (attestation : Option String)
    (isOfficialId : Browser → String → Bool) : Option IdentityTriState :=
  if identity.originHost = "" ∨
      identity.verifiedExtensionId ≠
        (if identity.browser = .chromium then some identity.originHost
        else none) then none
  else
    let classify (id : String) : IdentityTriState :=
      if isOfficialId identity.browser id then .official
      else .attestedNonOfficial
    match attestation with
    | some callerId =>
        if ¬ validProvenId callerId ∨ identity.browser = .chromium ∧
            identity.verifiedExtensionId ≠ some callerId then none
        else some (classify callerId)
    | none =>
        match identity.verifiedExtensionId with
        | none => some .unverified
        | some id => some (classify id)

/-! ## Pairing codes -/

def crockfordAlphabet : List Char :=
  "0123456789ABCDEFGHJKMNPQRSTVWXYZ".toList

/-- `none` where a draw of the wrong length throws. -/
def generatePairingCode (random5 : Bytes) : Option String :=
  if random5.length ≠ 5 then none
  else
    let bits := os2ip random5
    some (String.ofList ((List.range 8).map fun group =>
      crockfordAlphabet.getD (bits / 2 ^ ((7 - group) * 5) % 32) '0'))

def formatPairingCode (code : String) : String :=
  String.ofList (code.toList.take 4 ++ '-' :: (code.toList.drop 4).take 4)

end Motrix.Bridge
