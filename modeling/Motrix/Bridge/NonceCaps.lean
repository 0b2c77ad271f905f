import Mathlib.Data.List.AList
import Motrix.Bridge.Canonical
import Motrix.Lib.SlidingWindow
import Motrix.Lib.Trace

/-!
# Pairing nonces

Nonces are handed out without authentication, so three caps stand before any
issue: the nonces outstanding, the issues of the last minute, and those of the
last minute to the caller's origin.
-/

namespace Motrix.Bridge.Nonce

open Motrix.Lib

def defaultTtlMs : Int := 60000
def defaultMaxOutstanding : Nat := 32
def defaultRatePerMinute : Nat := 60
def defaultPerOriginPerMinute : Nat := 10
def rateWindowMs : Int := 60000
def mbp1PairNonceBytes : Nat := 16

/-- The value of `randomBytes(MBP1_PAIR_NONCE_BYTES)`. -/
abbrev NonceBytes := { bytes : Bytes // bytes.length = mbp1PairNonceBytes }

/-- `/^[A-Za-z0-9_-]{21}[AQgw]$/u` -/
def isCanonicalMbp1PairNonce (nonce : String) : Bool :=
  let characters := nonce.toList
  characters.length = 22 &&
    (characters.take 21).all (fun character =>
      (base64UrlValue character).isSome) &&
    ['A', 'Q', 'g', 'w'].contains (characters.getLastD ' ')

structure NonceServiceOptions where
  ttlMs : Option Int := none
  maxOutstanding : Option Nat := none
  ratePerMinute : Option Nat := none
  perOriginPerMinute : Option Nat := none

/-- Expiries by nonce, and issue times of the last window over all callers and
by origin. -/
structure NonceService where
  ttlMs : Int
  maxOutstanding : Nat
  ratePerMinute : Nat
  perOriginPerMinute : Nat
  nonces : AList fun _ : String => Int
  issueTimes : List Int
  originIssueTimes : AList fun _ : String => List Int

inductive IssueResult where
  | issued (nonce : String) (ttlSeconds : Int)
  | limited
  /-- `throw new Error('mbp1 nonce generation failed')` -/
  | generationFailed
  deriving DecidableEq, Repr

namespace NonceService

def construct (opts : NonceServiceOptions) : NonceService :=
  { ttlMs := opts.ttlMs.getD defaultTtlMs
    maxOutstanding := opts.maxOutstanding.getD defaultMaxOutstanding
    ratePerMinute := opts.ratePerMinute.getD defaultRatePerMinute
    perOriginPerMinute :=
      opts.perOriginPerMinute.getD defaultPerOriginPerMinute
    nonces := ∅
    issueTimes := []
    originIssueTimes := ∅ }

def originTimes (service : NonceService) (origin : String) : List Int :=
  (service.originIssueTimes.lookup origin).getD []

/-- `originIssueTimes.size` -/
def trackedOrigins (service : NonceService) : Nat :=
  service.originIssueTimes.keys.length

/-- `nonces.size` -/
def outstanding (service : NonceService) : Nat :=
  service.nonces.keys.length

def sweepExpiredNonces (service : NonceService) (t : Int) : NonceService :=
  { service with
    nonces := service.nonces.entries.foldl (fun nonces entry =>
      if entry.2 ≤ t then nonces.erase entry.1 else nonces) service.nonces }

/-- The issue times that count against an origin's quota; `none` for a caller
without an origin, which has no quota. -/
def recentOrigin (service : NonceService) (verifiedOrigin : Option String)
    (cutoff : Int) : Option (List Int) :=
  verifiedOrigin.map fun origin => recent cutoff (service.originTimes origin)

def setOrigin (service : NonceService) (verifiedOrigin : Option String)
    (times : List Int) : NonceService :=
  match verifiedOrigin with
  | none => service
  | some origin =>
      { service with
        originIssueTimes := service.originIssueTimes.insert origin times }

/-- The nonce after all three caps have let the call through. -/
def mint (service : NonceService) (t : Int) (random : NonceBytes) :
    NonceService × IssueResult :=
  let nonce := toBase64Url random.1
  if ¬ isCanonicalMbp1PairNonce nonce then (service, .generationFailed)
  else
    ({ service with
        nonces := service.nonces.insert nonce (t + service.ttlMs) },
      .issued nonce (service.ttlMs / 1000))

def issue (service : NonceService) (verifiedOrigin : Option String) (t : Int)
    (random : NonceBytes) : NonceService × IssueResult :=
  let swept := service.sweepExpiredNonces t
  if swept.outstanding ≥ swept.maxOutstanding then (swept, .limited)
  else
    let cutoff := t - rateWindowMs
    let recentGlobal := recent cutoff swept.issueTimes
    if recentGlobal.length ≥ swept.ratePerMinute then
      ({ swept with issueTimes := recentGlobal }, .limited)
    else
      match swept.recentOrigin verifiedOrigin cutoff with
      | none =>
          { swept with issueTimes := recentGlobal ++ [t] }.mint t random
      | some recentTimes =>
          if recentTimes.length ≥ swept.perOriginPerMinute then
            (swept.setOrigin verifiedOrigin recentTimes, .limited)
          else
            ({ swept with issueTimes := recentGlobal ++ [t] }.setOrigin
              verifiedOrigin (recentTimes ++ [t])).mint t random

def consume (service : NonceService) (nonce : String) (t : Int) :
    NonceService × Bool :=
  match service.nonces.lookup nonce with
  | none => (service, false)
  | some expiresAt =>
      ({ service with nonces := service.nonces.erase nonce },
        decide (t < expiresAt))

end NonceService

/-! ## Runs -/

inductive Call where
  | issue (verifiedOrigin : Option String) (t : Int) (random : NonceBytes)
  | consume (nonce : String) (t : Int)

def Call.time : Call → Int
  | .issue _ t _ => t
  | .consume _ t => t

/-- What a caller has seen: the nonces handed out, and those consumed. -/
inductive Entry where
  | issued (nonce : String) (verifiedOrigin : Option String) (t : Int)
  | consumed (nonce : String) (t : Int)
  deriving DecidableEq, Repr

structure System where
  service : NonceService
  history : List Entry

def boot (opts : NonceServiceOptions) : System :=
  { service := .construct opts
    history := [] }

namespace System

def step (s : System) : Call → System
  | .issue verifiedOrigin t random =>
      let (service, result) := s.service.issue verifiedOrigin t random
      { service := service
        history := match result with
          | .issued nonce _ => s.history ++ [.issued nonce verifiedOrigin t]
          | .limited => s.history
          | .generationFailed => s.history }
  | .consume nonce t =>
      let (service, consumed) := s.service.consume nonce t
      { service := service
        history :=
          if consumed then s.history ++ [.consumed nonce t] else s.history }

end System

def run (opts : NonceServiceOptions) (calls : List Call) : System :=
  calls.foldl System.step (boot opts)

end Motrix.Bridge.Nonce

/-!
# The caps on pairing nonces

Every window of the issue log is bounded, over all callers and for each
origin; a nonce is consumed at most once per issue and before it expires.
-/

namespace Motrix.Bridge.Nonce

open Motrix.Lib

/-! ## Minted nonces are canonical -/

theorem base64UrlDigit_two_bits (value : Nat) :
    ['A', 'Q', 'g', 'w'].contains (base64UrlDigit (value * 16 % 64)) := by
  have digits : ∀ low < 4, ['A', 'Q', 'g', 'w'].contains
      (base64UrlDigit (low * 16)) := by
    decide
  have low : value * 16 % 64 = value % 4 * 16 := by omega
  rw [low]
  exact digits (value % 4) (by omega)

/-- One byte past a multiple of three ends in a character of two bits. -/
theorem base64UrlChars_split (bytes : Bytes) (one : bytes.length % 3 = 1) :
    ∃ front value,
      base64UrlChars bytes = front ++ [base64UrlDigit (value * 16 % 64)] ∧
      front.length = bytes.length / 3 * 4 + 1 := by
  fun_induction base64UrlChars bytes with
  | case1 => cases one
  | case2 a value =>
      exact ⟨[base64UrlDigit (value / 64)], a.toNat, rfl, by simp⟩
  | case3 a b value => cases one
  | case4 a b c rest value induction =>
      simp only [List.length_cons] at one ⊢
      obtain ⟨front, last, same, length⟩ := induction (by omega)
      rw [same]
      refine ⟨_ :: _ :: _ :: _ :: front, last, rfl, ?_⟩
      simp only [List.length_cons]
      omega

theorem base64UrlChars_alphabet (bytes : Bytes) :
    ∀ character ∈ base64UrlChars bytes,
      (base64UrlValue character).isSome = true := by
  rw [base64UrlChars_eq_map]
  intro character listed
  obtain ⟨sextet, member, rfl⟩ := List.mem_map.mp listed
  rw [base64UrlValue_digit (base64UrlSextets_lt bytes sextet member)]
  rfl

theorem toBase64Url_isCanonical (random : NonceBytes) :
    isCanonicalMbp1PairNonce (toBase64Url random.1) = true := by
  obtain ⟨bytes, length⟩ := random
  rw [mbp1PairNonceBytes] at length
  obtain ⟨front, value, same, frontLength⟩ :=
    base64UrlChars_split bytes (by rw [length])
  have twentyOne : front.length = 21 := by
    rw [frontLength, length]
  have alphabet := base64UrlChars_alphabet bytes
  rw [same] at alphabet
  simp only [isCanonicalMbp1PairNonce, toBase64Url, String.toList_ofList,
    same, Bool.and_eq_true]
  refine ⟨⟨?_, ?_⟩, ?_⟩
  · simp [twentyOne]
  · rw [← twentyOne, List.take_left, List.all_eq_true]
    intro character listed
    exact alphabet character (List.mem_append_left _ listed)
  · rw [List.getLastD_concat]
    exact base64UrlDigit_two_bits value

/-! ## What an issue may do -/

namespace NonceService

variable {service : NonceService} {verifiedOrigin : Option String} {t : Int}

/-- The caps common to all callers let a call at `t` through to the quota of
its origin. -/
def ReachesQuota (service : NonceService) (t : Int) : Prop :=
  (service.sweepExpiredNonces t).outstanding < service.maxOutstanding ∧
    (recent (t - rateWindowMs) service.issueTimes).length <
      service.ratePerMinute

instance (service : NonceService) (t : Int) :
    Decidable (service.ReachesQuota t) :=
  inferInstanceAs (Decidable (_ ∧ _))

/-- The service after an issue: the swept nonces, the fresh nonce, and the
issue time counted once for everyone and once for the origin. -/
def afterIssue (service : NonceService) (t : Int) (random : NonceBytes)
    (tracked : AList fun _ : String => List Int) : NonceService :=
  { service with
    nonces := (service.sweepExpiredNonces t).nonces.insert
      (toBase64Url random.1) (t + service.ttlMs)
    issueTimes := recent (t - rateWindowMs) service.issueTimes ++ [t]
    originIssueTimes := tracked }

/-- Every way through `issue`. -/
inductive Issues (service : NonceService) (t : Int) (random : NonceBytes) :
    Option String → NonceService × IssueResult → Prop
  | capped (verifiedOrigin : Option String) (kept : List Int)
      (closed : ¬ service.ReachesQuota t)
      (keeps : kept = service.issueTimes ∨
        kept = recent (t - rateWindowMs) service.issueTimes) :
      Issues service t random verifiedOrigin
        ({ service.sweepExpiredNonces t with issueTimes := kept }, .limited)
  | overQuota (origin : String) (reached : service.ReachesQuota t)
      (full : service.perOriginPerMinute ≤
        (recent (t - rateWindowMs) (service.originTimes origin)).length) :
      Issues service t random (some origin)
        ({ service.sweepExpiredNonces t with
            originIssueTimes := service.originIssueTimes.insert origin
              (recent (t - rateWindowMs) (service.originTimes origin)) },
          .limited)
  | anonymous (reached : service.ReachesQuota t) :
      Issues service t random none
        (service.afterIssue t random service.originIssueTimes,
          .issued (toBase64Url random.1) (service.ttlMs / 1000))
  | named (origin : String) (reached : service.ReachesQuota t)
      (room : (recent (t - rateWindowMs)
        (service.originTimes origin)).length < service.perOriginPerMinute) :
      Issues service t random (some origin)
        (service.afterIssue t random (service.originIssueTimes.insert origin
            (recent (t - rateWindowMs) (service.originTimes origin) ++ [t])),
          .issued (toBase64Url random.1) (service.ttlMs / 1000))

theorem issue_issues (service : NonceService) (verifiedOrigin : Option String)
    (t : Int) (random : NonceBytes) :
    Issues service t random verifiedOrigin
      (service.issue verifiedOrigin t random) := by
  have canonical := toBase64Url_isCanonical random
  simp only [issue]
  split
  · rename_i crowded
    apply Issues.capped verifiedOrigin service.issueTimes _ (.inl rfl)
    exact fun reached => Nat.not_lt.mpr crowded reached.1
  rename_i free
  split
  · rename_i busy
    apply Issues.capped verifiedOrigin _ _ (.inr rfl)
    exact fun reached => Nat.not_lt.mpr busy reached.2
  rename_i calm
  have reached : service.ReachesQuota t :=
    ⟨Nat.lt_of_not_ge free, Nat.lt_of_not_ge calm⟩
  cases verifiedOrigin with
  | none =>
      simp only [recentOrigin, Option.map_none, mint, canonical]
      exact .anonymous reached
  | some origin =>
      simp only [recentOrigin, Option.map_some, mint, canonical]
      split
      · rename_i full
        exact .overQuota origin reached full
      · rename_i room
        exact .named origin reached (Nat.lt_of_not_ge room)

/-! ## Sweeping and rejecting -/

theorem sweepExpiredNonces_nonces :
    (service.sweepExpiredNonces t).nonces =
      prune (fun expiry => expiry ≤ t) service.nonces :=
  rfl

theorem sweepExpiredNonces_lookup {nonce : String} {expiry : Int}
    (kept : (service.sweepExpiredNonces t).nonces.lookup nonce =
      some expiry) :
    service.nonces.lookup nonce = some expiry := by
  rw [sweepExpiredNonces_nonces] at kept
  exact ((lookup_prune service.nonces nonce expiry).mp kept).1

theorem sweepExpiredNonces_outstanding :
    (service.sweepExpiredNonces t).outstanding ≤ service.outstanding := by
  have fewer : (prune (fun expiry => expiry ≤ t) service.nonces).keys.length ≤
      service.nonces.keys.length := prune_keys service.nonces
  exact fewer

theorem originTimes_insert (service : NonceService) (origin other : String)
    (times : List Int) :
    originTimes
        { service with
          originIssueTimes := service.originIssueTimes.insert origin times }
        other =
      if other = origin then times else service.originTimes other := by
  by_cases same : other = origin
  · subst same
    simp [originTimes]
  · rw [if_neg same, originTimes, AList.lookup_insert_ne same]
    rfl

/-- Whatever the service holds afterwards it held before. -/
structure RecordsNothing (service after : NonceService) : Prop where
  issueTimes : after.issueTimes.Sublist service.issueTimes
  originTimes : ∀ origin,
    (after.originTimes origin).Sublist (service.originTimes origin)
  nonces : ∀ nonce expiry, after.nonces.lookup nonce = some expiry →
    service.nonces.lookup nonce = some expiry

theorem issue_limited_recordsNothing {random : NonceBytes}
    (rejected : (service.issue verifiedOrigin t random).2 = .limited) :
    RecordsNothing service (service.issue verifiedOrigin t random).1 := by
  have issues := issue_issues service verifiedOrigin t random
  generalize service.issue verifiedOrigin t random = result at *
  cases issues with
  | capped _ kept closed keeps =>
      constructor
      · rcases keeps with rfl | rfl
        · exact List.Sublist.refl _
        · exact recent_sublist _ _
      · exact fun _ => List.Sublist.refl _
      · exact fun _ _ => sweepExpiredNonces_lookup
  | overQuota origin reached full =>
      constructor
      · exact List.Sublist.refl _
      · intro other
        change (originTimes
          { service with
            originIssueTimes := service.originIssueTimes.insert origin
              (recent (t - rateWindowMs) (service.originTimes origin)) }
          other).Sublist _
        rw [originTimes_insert]
        split
        · rename_i same
          rw [same]
          exact recent_sublist _ _
        · exact List.Sublist.refl _
      · exact fun _ _ => sweepExpiredNonces_lookup
  | anonymous reached => cases rejected
  | named origin reached room => cases rejected

end NonceService

/-! ## The log of a run -/

def Entry.issueTime : Entry → Option Int
  | .issued _ _ t => some t
  | .consumed _ _ => none

def Entry.issueTimeFor (origin : String) : Entry → Option Int
  | .issued _ (some verifiedOrigin) t =>
      if verifiedOrigin = origin then some t else none
  | _ => none

def Entry.issues (nonce : String) : Entry → Bool
  | .issued other _ _ => other = nonce
  | .consumed _ _ => false

def Entry.consumes (nonce : String) : Entry → Bool
  | .issued _ _ _ => false
  | .consumed other _ => other = nonce

def issueLog (history : List Entry) : List Int :=
  history.filterMap Entry.issueTime

def originLog (origin : String) (history : List Entry) : List Int :=
  history.filterMap (Entry.issueTimeFor origin)

/-- The history holds an issue of the nonce at `issuedAt` that nothing has
consumed since. -/
def Unconsumed (history : List Entry) (nonce : String) (issuedAt : Int) :
    Prop :=
  ∃ before verifiedOrigin after,
    history = before ++ .issued nonce verifiedOrigin issuedAt :: after ∧
      ∀ entry ∈ after, ¬ entry.consumes nonce

/-- A nonce is consumed within its lifetime, and the issue it comes from is
used up. -/
def ConsumesUnconsumed (ttlMs : Int) (before : List Entry) : Entry → Prop
  | .issued _ _ _ => True
  | .consumed nonce t =>
      ∃ issuedAt, Unconsumed before nonce issuedAt ∧ t < issuedAt + ttlMs

theorem Unconsumed.concat {history : List Entry} {nonce : String}
    {issuedAt : Int} (unconsumed : Unconsumed history nonce issuedAt)
    {entry : Entry} (other : ¬ entry.consumes nonce) :
    Unconsumed (history ++ [entry]) nonce issuedAt := by
  obtain ⟨before, verifiedOrigin, after, rfl, free⟩ := unconsumed
  refine ⟨before, verifiedOrigin, after ++ [entry], by simp, ?_⟩
  intro later listed
  rcases List.mem_append.mp listed with earlier | last
  · exact free later earlier
  · rw [List.mem_singleton.mp last]
    exact other

theorem Unconsumed.issued (history : List Entry) (nonce : String)
    (verifiedOrigin : Option String) (t : Int) :
    Unconsumed (history ++ [.issued nonce verifiedOrigin t]) nonce t :=
  ⟨history, verifiedOrigin, [], rfl, fun _ listed => nomatch listed⟩

/-- Every success uses up one issue. -/
theorem consumed_le_issued {ttlMs : Int} {history : List Entry}
    (guarded : Guarded (ConsumesUnconsumed ttlMs) history) (nonce : String) :
    history.countP (Entry.consumes nonce) ≤
      history.countP (Entry.issues nonce) := by
  induction length : history.length using Nat.strong_induction_on
    generalizing history with
  | h size induction =>
      rcases List.eq_nil_or_concat history with rfl | ⟨front, last, rfl⟩
      · exact Nat.le_refl _
      have shorter (smaller : List Entry) (rest : List Entry)
          (split : front = smaller ++ rest) :
          smaller.countP (Entry.consumes nonce) ≤
            smaller.countP (Entry.issues nonce) := by
        have prefixGuarded : Guarded (ConsumesUnconsumed ttlMs) smaller := by
          intro before entry after splitBefore
          apply guarded before entry (after ++ rest ++ [last])
          simp [split, splitBefore]
        apply induction smaller.length _ prefixGuarded rfl
        rw [← length, split]
        simp
      rw [List.concat_eq_append, List.countP_append, List.countP_append,
        List.countP_singleton, List.countP_singleton]
      have before := shorter front [] (by simp)
      cases last with
      | issued other verifiedOrigin t =>
          simp only [Entry.consumes, Bool.false_eq_true, if_false]
          omega
      | consumed other t =>
          by_cases same : other = nonce
          · subst same
            obtain ⟨issuedAt, ⟨early, verifiedOrigin, late, split, free⟩, -⟩ :=
              guarded front (.consumed other t) [] (by simp)
            have earlier := shorter early _ split
            have none : late.countP (Entry.consumes other) = 0 :=
              List.countP_eq_zero.mpr free
            rw [split, List.countP_append, List.countP_append,
              List.countP_cons, List.countP_cons, none]
            simp only [Entry.consumes, Entry.issues, decide_true, if_true,
              Bool.false_eq_true, if_false]
            omega
          · simp only [Entry.consumes, Entry.issues, same, decide_false,
              Bool.false_eq_true, if_false]
            omega

/-! ## Invariant -/

/-- What holds of the service after calls no later than `now`. -/
structure Sound (opts : NonceServiceOptions) (now : Int) (s : System) :
    Prop where
  ttlMs : s.service.ttlMs = (NonceService.construct opts).ttlMs
  maxOutstanding : s.service.maxOutstanding =
    (NonceService.construct opts).maxOutstanding
  ratePerMinute : s.service.ratePerMinute =
    (NonceService.construct opts).ratePerMinute
  perOriginPerMinute : s.service.perOriginPerMinute =
    (NonceService.construct opts).perOriginPerMinute
  outstanding : s.service.outstanding ≤ s.service.maxOutstanding
  rate : WindowBounded s.service.ratePerMinute rateWindowMs
    (issueLog s.history)
  kept : Keeps (now - rateWindowMs) (issueLog s.history) s.service.issueTimes
  originRate : ∀ origin, WindowBounded s.service.perOriginPerMinute
    rateWindowMs (originLog origin s.history)
  originKept : ∀ origin, Keeps (now - rateWindowMs)
    (originLog origin s.history) (s.service.originTimes origin)
  live : ∀ nonce expiry, s.service.nonces.lookup nonce = some expiry →
    ∃ issuedAt, Unconsumed s.history nonce issuedAt ∧
      expiry = issuedAt + s.service.ttlMs
  consumption : Guarded (ConsumesUnconsumed s.service.ttlMs) s.history

theorem boot_sound (opts : NonceServiceOptions) (now : Int) :
    Sound opts now (boot opts) :=
  { ttlMs := rfl
    maxOutstanding := rfl
    ratePerMinute := rfl
    perOriginPerMinute := rfl
    outstanding := Nat.zero_le _
    rate := .nil _ _
    kept := .nil _
    originRate := fun _ => .nil _ _
    originKept := fun _ => .nil _
    live := fun nonce expiry found => by
      rw [boot, NonceService.construct, AList.lookup_empty] at found
      cases found
    consumption := Guarded.nil }

namespace Sound

variable {opts : NonceServiceOptions} {now t : Int} {s : System}

theorem mono (sound : Sound opts now s) (order : now ≤ t) :
    Sound opts t s := by
  have later : now - rateWindowMs ≤ t - rateWindowMs := by omega
  exact
    { sound with
      kept := sound.kept.mono later
      originKept := fun origin => (sound.originKept origin).mono later }

theorem capped (sound : Sound opts t s) {kept : List Int}
    (keeps : kept = s.service.issueTimes ∨
      kept = recent (t - rateWindowMs) s.service.issueTimes) :
    Sound opts t
      { s with
        service :=
          { s.service.sweepExpiredNonces t with issueTimes := kept } } := by
  exact
    { sound with
      outstanding :=
        NonceService.sweepExpiredNonces_outstanding.trans sound.outstanding
      kept := by
        rcases keeps with rfl | rfl
        · exact sound.kept
        · exact sound.kept.recent
      live := fun nonce expiry found => sound.live nonce expiry
        (NonceService.sweepExpiredNonces_lookup found) }

theorem overQuota (sound : Sound opts t s) (origin : String) :
    Sound opts t
      { s with
        service :=
          { s.service.sweepExpiredNonces t with
            originIssueTimes := s.service.originIssueTimes.insert origin
              (recent (t - rateWindowMs) (s.service.originTimes origin)) } } := by
  exact
    { sound with
      outstanding :=
        NonceService.sweepExpiredNonces_outstanding.trans sound.outstanding
      originKept := by
        intro other
        change Keeps _ _ (NonceService.originTimes
          { s.service with
            originIssueTimes := s.service.originIssueTimes.insert origin
              (recent (t - rateWindowMs) (s.service.originTimes origin)) }
          other)
        rw [NonceService.originTimes_insert]
        split
        · rename_i same
          rw [same]
          exact (sound.originKept origin).recent
        · exact sound.originKept other
      live := fun nonce expiry found => sound.live nonce expiry
        (NonceService.sweepExpiredNonces_lookup found) }

/-- An issue, whoever asked: `tracked` holds the time for the origin that
did. -/
theorem issued (sound : Sound opts t s) {random : NonceBytes}
    {verifiedOrigin : Option String}
    {tracked : AList fun _ : String => List Int}
    (reached : s.service.ReachesQuota t)
    (originRate : ∀ origin, WindowBounded s.service.perOriginPerMinute
      rateWindowMs (originLog origin (s.history ++
        [.issued (toBase64Url random.1) verifiedOrigin t])))
    (originKept : ∀ origin, Keeps (t - rateWindowMs)
      (originLog origin (s.history ++
        [.issued (toBase64Url random.1) verifiedOrigin t]))
      ((tracked.lookup origin).getD [])) :
    Sound opts t
      { service := s.service.afterIssue t random tracked
        history := s.history ++
          [.issued (toBase64Url random.1) verifiedOrigin t] } := by
  have log : issueLog (s.history ++
      [.issued (toBase64Url random.1) verifiedOrigin t]) =
        issueLog s.history ++ [t] := by
    rw [issueLog, List.filterMap_append]
    rfl
  have now : t - rateWindowMs < t := by
    rw [rateWindowMs]
    omega
  exact
    { ttlMs := sound.ttlMs
      maxOutstanding := sound.maxOutstanding
      ratePerMinute := sound.ratePerMinute
      perOriginPerMinute := sound.perOriginPerMinute
      outstanding := by
        change (AList.keys (AList.insert _ _ _)).length ≤ _
        rw [AList.keys_insert, List.length_cons]
        exact Nat.lt_of_le_of_lt List.length_erase_le reached.1
      rate := by
        rw [log]
        exact sound.rate.push sound.kept reached.2
      kept := by
        rw [log]
        exact sound.kept.push now
      originRate := originRate
      originKept := originKept
      live := by
        intro nonce expiry found
        change AList.lookup nonce (AList.insert _ _ _) = _ at found
        by_cases same : nonce = toBase64Url random.1
        · rw [same, AList.lookup_insert] at found
          cases found
          rw [same]
          exact ⟨t, .issued _ _ _ _, rfl⟩
        · rw [AList.lookup_insert_ne same] at found
          obtain ⟨issuedAt, unconsumed, expires⟩ := sound.live nonce expiry
            (NonceService.sweepExpiredNonces_lookup found)
          exact ⟨issuedAt, unconsumed.concat nofun, expires⟩
      consumption := sound.consumption.concat trivial }

theorem issue (sound : Sound opts t s) (verifiedOrigin : Option String)
    (random : NonceBytes) :
    Sound opts t (s.step (.issue verifiedOrigin t random)) := by
  have issues :=
    NonceService.issue_issues s.service verifiedOrigin t random
  simp only [System.step]
  generalize s.service.issue verifiedOrigin t random = result at *
  have now : t - rateWindowMs < t := by
    rw [rateWindowMs]
    omega
  cases issues with
  | capped _ kept closed keeps => exact sound.capped keeps
  | overQuota origin reached full => exact sound.overQuota origin
  | anonymous reached =>
      have log (origin : String) : originLog origin (s.history ++
          [.issued (toBase64Url random.1) none t]) =
            originLog origin s.history := by
        rw [originLog, List.filterMap_append]
        exact List.append_nil _
      apply sound.issued reached
      · intro origin
        rw [log]
        exact sound.originRate origin
      · intro origin
        rw [log]
        exact sound.originKept origin
  | named origin reached room =>
      have log (other : String) : originLog other (s.history ++
          [.issued (toBase64Url random.1) (some origin) t]) =
            if other = origin then originLog other s.history ++ [t]
            else originLog other s.history := by
        rw [originLog, List.filterMap_append]
        by_cases same : other = origin
        · subst same
          simp [Entry.issueTimeFor, originLog]
        · have apart : origin ≠ other := fun equal => same equal.symm
          simp [Entry.issueTimeFor, originLog, same, apart]
      have times (other : String) :=
        NonceService.originTimes_insert s.service origin other
          (recent (t - rateWindowMs) (s.service.originTimes origin) ++ [t])
      apply sound.issued reached
      · intro other
        rw [log]
        split
        · rename_i same
          rw [same]
          exact (sound.originRate origin).push (sound.originKept origin) room
        · exact sound.originRate other
      · intro other
        rw [log]
        change Keeps _ _ (NonceService.originTimes
          { s.service with
            originIssueTimes := s.service.originIssueTimes.insert origin
              (recent (t - rateWindowMs) (s.service.originTimes origin) ++
                [t]) } other)
        rw [times]
        split
        · rename_i same
          rw [same]
          exact (sound.originKept origin).push now
        · exact sound.originKept other

theorem consume (sound : Sound opts t s) (nonce : String) :
    Sound opts t (s.step (.consume nonce t)) := by
  cases found : s.service.nonces.lookup nonce with
  | none =>
      have refused : s.service.consume nonce t = (s.service, false) := by
        rw [NonceService.consume, found]
      simp only [System.step, refused, Bool.false_eq_true, if_false]
      exact sound
  | some expiresAt =>
      have taken : s.service.consume nonce t =
          ({ s.service with nonces := s.service.nonces.erase nonce },
            decide (t < expiresAt)) := by
        rw [NonceService.consume, found]
      simp only [System.step, taken]
      obtain ⟨issuedAt, unconsumed, expires⟩ := sound.live nonce _ found
      have survivors {other : String} {expiry : Int}
          (kept : (s.service.nonces.erase nonce).lookup other =
            some expiry) :
          other ≠ nonce ∧ s.service.nonces.lookup other = some expiry := by
        by_cases same : other = nonce
        · rw [same, AList.lookup_erase] at kept
          cases kept
        · rw [AList.lookup_erase_ne same] at kept
          exact ⟨same, kept⟩
      have fewer : (s.service.nonces.erase nonce).keys.length ≤
          s.service.maxOutstanding := by
        rw [AList.keys_erase]
        exact List.length_erase_le.trans sound.outstanding
      by_cases early : t < expiresAt
      · simp only [early, decide_true, if_true]
        have issueSame : issueLog (s.history ++ [.consumed nonce t]) =
            issueLog s.history := by
          rw [issueLog, List.filterMap_append]
          exact List.append_nil _
        have originSame (origin : String) :
            originLog origin (s.history ++ [.consumed nonce t]) =
              originLog origin s.history := by
          rw [originLog, List.filterMap_append]
          exact List.append_nil _
        exact
          { ttlMs := sound.ttlMs
            maxOutstanding := sound.maxOutstanding
            ratePerMinute := sound.ratePerMinute
            perOriginPerMinute := sound.perOriginPerMinute
            outstanding := fewer
            rate := issueSame ▸ sound.rate
            kept := issueSame ▸ sound.kept
            originRate := fun origin =>
              originSame origin ▸ sound.originRate origin
            originKept := fun origin =>
              originSame origin ▸ sound.originKept origin
            live := by
              intro other expiry kept
              obtain ⟨different, before⟩ := survivors kept
              obtain ⟨time, still, at_⟩ := sound.live other expiry before
              refine ⟨time, still.concat ?_, at_⟩
              simpa [Entry.consumes] using different.symm
            consumption := sound.consumption.concat
              ⟨issuedAt, unconsumed, expires ▸ early⟩ }
      · simp only [early, decide_false, Bool.false_eq_true, if_false]
        exact
          { sound with
            outstanding := fewer
            live := fun other expiry kept =>
              sound.live other expiry (survivors kept).2 }

end Sound

theorem run_snoc (opts : NonceServiceOptions) (calls : List Call)
    (call : Call) :
    run opts (calls ++ [call]) = (run opts calls).step call := by
  rw [run, List.foldl_append]
  rfl

theorem run_sound (opts : NonceServiceOptions) (calls : List Call)
    (clock : calls.Pairwise fun earlier later => earlier.time ≤ later.time)
    (now : Int) (past : ∀ call ∈ calls, call.time ≤ now) :
    Sound opts now (run opts calls) := by
  induction calls using List.reverseRecOn generalizing now with
  | nil => exact boot_sound opts now
  | append_singleton calls call induction =>
      rw [List.pairwise_append] at clock
      obtain ⟨clock, -, order⟩ := clock
      have sound : Sound opts call.time (run opts calls) :=
        induction clock call.time fun earlier listed =>
          order earlier listed call List.mem_cons_self
      rw [run_snoc]
      apply Sound.mono _ (past call (by simp))
      cases call with
      | issue verifiedOrigin t random => exact sound.issue verifiedOrigin random
      | consume nonce t => exact sound.consume nonce

end Motrix.Bridge.Nonce
