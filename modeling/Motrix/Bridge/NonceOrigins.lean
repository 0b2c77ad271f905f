import Mathlib.Data.List.Dedup
import Motrix.Bridge.NonceCaps

/-!
# Origins the nonce service tracks

The service never drops an origin it has counted for, so the map holds every
origin of the whole run, not only those of the last minute.
-/

namespace Motrix.Bridge.Nonce

open Motrix.Lib

/-- The origins of the calls that reach the quota of their origin. -/
def countedOrigins (s : System) : List Call → List String
  | [] => []
  | .issue (some origin) t random :: rest =>
      let others :=
        countedOrigins (s.step (.issue (some origin) t random)) rest
      if s.service.ReachesQuota t then origin :: others else others
  | call :: rest => countedOrigins (s.step call) rest

theorem mem_tracked_issue {s : System} {verifiedOrigin : Option String}
    {t : Int} {random : NonceBytes} {origin : String} :
    origin ∈ (s.step (.issue verifiedOrigin t
        random)).service.originIssueTimes ↔
      origin ∈ s.service.originIssueTimes ∨
        verifiedOrigin = some origin ∧ s.service.ReachesQuota t := by
  have issues :=
    NonceService.issue_issues s.service verifiedOrigin t random
  simp only [System.step]
  generalize s.service.issue verifiedOrigin t random = result at *
  cases issues with
  | capped _ kept closed keeps =>
      constructor
      · exact .inl
      · rintro (tracked | ⟨-, reached⟩)
        · exact tracked
        · exact absurd reached closed
  | overQuota asked reached full =>
      simp only [AList.mem_insert, Option.some.injEq, reached, and_true]
      rw [or_comm, eq_comm]
  | anonymous reached =>
      constructor
      · exact .inl
      · rintro (tracked | ⟨unnamed, -⟩)
        · exact tracked
        · cases unnamed
  | named asked reached room =>
      simp only [NonceService.afterIssue, AList.mem_insert,
        Option.some.injEq, reached, and_true]
      rw [or_comm, eq_comm]

theorem tracked_consume (s : System) (nonce : String) (t : Int) :
    (s.step (.consume nonce t)).service.originIssueTimes =
      s.service.originIssueTimes := by
  simp only [System.step, NonceService.consume]
  split <;> rfl

theorem mem_tracked_foldl {s : System} {calls : List Call}
    {origin : String} :
    origin ∈ (calls.foldl System.step s).service.originIssueTimes ↔
      origin ∈ s.service.originIssueTimes ∨
        origin ∈ countedOrigins s calls := by
  induction calls generalizing s with
  | nil => simp [countedOrigins]
  | cons call rest induction =>
      rw [List.foldl_cons, induction]
      cases call with
      | consume nonce t => rw [tracked_consume, countedOrigins]; nofun
      | issue verifiedOrigin t random =>
          rw [mem_tracked_issue]
          cases verifiedOrigin with
          | none => simp [countedOrigins]
          | some asked =>
              simp only [countedOrigins]
              by_cases reached : s.service.ReachesQuota t
              · simp [reached, eq_comm, or_assoc]
              · simp [reached]

theorem countedOrigins_append (s : System) (calls rest : List Call) :
    countedOrigins s (calls ++ rest) =
      countedOrigins s calls ++
        countedOrigins (calls.foldl System.step s) rest := by
  induction calls generalizing s with
  | nil => rfl
  | cons call others induction =>
      rw [List.cons_append, List.foldl_cons]
      cases call with
      | consume nonce t =>
          simp only [countedOrigins]
          exact induction _
      | issue verifiedOrigin t random =>
          cases verifiedOrigin with
          | none =>
              simp only [countedOrigins]
              exact induction _
          | some asked =>
              simp only [countedOrigins]
              split
              · rw [induction, List.cons_append]
              · exact induction _

/-- The map holds every origin ever counted for. -/
theorem trackedOrigins_eq (opts : NonceServiceOptions) (calls : List Call) :
    (run opts calls).service.trackedOrigins =
      (countedOrigins (boot opts) calls).dedup.length := by
  apply List.Perm.length_eq
  apply (List.perm_ext_iff_of_nodup (AList.keys_nodup _)
    (List.nodup_dedup _)).mpr
  intro origin
  rw [← AList.mem_keys, List.mem_dedup, run, mem_tracked_foldl]
  simp [boot, NonceService.construct]

/-! ## One origin after another -/

theorem lookup_sweep_live {service : NonceService} {t : Int} {nonce : String}
    {expiry : Int}
    (kept : (service.sweepExpiredNonces t).nonces.lookup nonce =
      some expiry) : t < expiry := by
  rw [NonceService.sweepExpiredNonces_nonces] at kept
  exact Int.not_le.mp ((lookup_prune _ nonce expiry).mp kept).2

/-- Nothing outstanding or recent is left at `t`. -/
structure Idle (s : System) (t : Int) : Prop where
  outstanding : 0 < s.service.maxOutstanding
  rate : 0 < s.service.ratePerMinute
  ttlMs : s.service.ttlMs ≤ rateWindowMs
  expired : ∀ nonce expiry, s.service.nonces.lookup nonce = some expiry →
    expiry ≤ t
  past : ∀ time ∈ s.service.issueTimes, time ≤ t - rateWindowMs

namespace Idle

variable {s : System} {t : Int}

theorem reachesQuota (idle : Idle s t) : s.service.ReachesQuota t := by
  constructor
  · have none : (s.service.sweepExpiredNonces t).nonces.keys = [] := by
      rw [List.eq_nil_iff_forall_not_mem]
      intro nonce listed
      obtain ⟨expiry, found⟩ := Option.isSome_iff_exists.mp
        (AList.lookup_isSome.mpr (AList.mem_keys.mpr listed))
      have live := lookup_sweep_live found
      have expired := idle.expired nonce expiry
        (NonceService.sweepExpiredNonces_lookup found)
      omega
    rw [NonceService.outstanding, none]
    exact idle.outstanding
  · have none : recent (t - rateWindowMs) s.service.issueTimes = [] := by
      rw [recent, List.filter_eq_nil_iff]
      intro time listed
      simpa using idle.past time listed
    rw [none]
    exact idle.rate

/-- A minute after an issue the service is idle again. -/
theorem issue (idle : Idle s t) (verifiedOrigin : Option String)
    (random : NonceBytes) :
    Idle (s.step (.issue verifiedOrigin t random)) (t + rateWindowMs) := by
  have issues := NonceService.issue_issues s.service verifiedOrigin t random
  simp only [System.step]
  generalize s.service.issue verifiedOrigin t random = result at *
  have window : 0 ≤ rateWindowMs := by decide
  have sweptPast (nonce : String) (expiry : Int)
      (found : (s.service.sweepExpiredNonces t).nonces.lookup nonce =
        some expiry) : expiry ≤ t + rateWindowMs := by
    have early := idle.expired nonce expiry
      (NonceService.sweepExpiredNonces_lookup found)
    omega
  have fresh (tracked : AList fun _ : String => List Int)
      (history : List Entry) :
      Idle
        { service := s.service.afterIssue t random tracked
          history := history } (t + rateWindowMs) := by
    have ttl := idle.ttlMs
    refine ⟨idle.outstanding, idle.rate, idle.ttlMs, ?_, ?_⟩
    · intro nonce expiry found
      change AList.lookup nonce (AList.insert _ _ _) = _ at found
      by_cases same : nonce = toBase64Url random.1
      · rw [same, AList.lookup_insert] at found
        cases found
        omega
      · rw [AList.lookup_insert_ne same] at found
        exact sweptPast nonce expiry found
    · intro time listed
      rcases List.mem_append.mp listed with earlier | now
      · have past := idle.past time ((recent_sublist _ _).subset earlier)
        omega
      · rw [List.mem_singleton.mp now]
        omega
  cases issues with
  | capped _ kept closed keeps => exact absurd idle.reachesQuota closed
  | overQuota origin reached full =>
      refine ⟨idle.outstanding, idle.rate, idle.ttlMs, sweptPast, ?_⟩
      intro time listed
      have past := idle.past time listed
      omega
  | anonymous reached => exact fresh _ _
  | named origin reached room => exact fresh _ _

end Idle

/-- A call for each origin, a minute apart, from the minute `n` on. -/
def minutely (random : Nat → NonceBytes) (n : Nat) : List String → List Call
  | [] => []
  | origin :: rest =>
      .issue (some origin) (rateWindowMs * n) (random n) ::
        minutely random (n + 1) rest

theorem countedOrigins_minutely (random : Nat → NonceBytes)
    (origins : List String) {s : System} {n : Nat}
    (idle : Idle s (rateWindowMs * n)) :
    countedOrigins s (minutely random n origins) = origins := by
  induction origins generalizing s n with
  | nil => rfl
  | cons origin rest induction =>
      have next := idle.issue (some origin) (random n)
      have minute : rateWindowMs * n + rateWindowMs =
          rateWindowMs * ((n + 1 : Nat) : Int) := by
        rw [Nat.cast_succ, mul_add, mul_one]
      rw [minute] at next
      simp only [minutely, countedOrigins, idle.reachesQuota, if_true,
        induction next]

/-- A new origin a minute is enough to make the map grow without end. -/
theorem minutely_tracked (opts : NonceServiceOptions)
    (random : Nat → NonceBytes) (origins : List String)
    (distinct : origins.Nodup)
    (outstanding : 0 < (NonceService.construct opts).maxOutstanding)
    (rate : 0 < (NonceService.construct opts).ratePerMinute)
    (ttlMs : (NonceService.construct opts).ttlMs ≤ rateWindowMs) :
    (run opts (minutely random 0 origins)).service.trackedOrigins =
      origins.length := by
  have idle : Idle (boot opts) (rateWindowMs * (0 : Nat)) := by
    refine ⟨outstanding, rate, ttlMs, ?_, fun _ listed => nomatch listed⟩
    intro nonce expiry found
    rw [boot, NonceService.construct, AList.lookup_empty] at found
    cases found
  rw [trackedOrigins_eq, countedOrigins_minutely random origins idle,
    distinct.dedup]

/-! ## The caps together -/

/-- What the service promises after `calls`. -/
structure Contract (opts : NonceServiceOptions) (calls : List Call) :
    Prop where
  rate : WindowBounded (NonceService.construct opts).ratePerMinute
    rateWindowMs (issueLog (run opts calls).history)
  originRate : ∀ origin, WindowBounded
    (NonceService.construct opts).perOriginPerMinute rateWindowMs
    (originLog origin (run opts calls).history)
  outstanding : (run opts calls).service.outstanding ≤
    (NonceService.construct opts).maxOutstanding
  consumption : Guarded
    (ConsumesUnconsumed (NonceService.construct opts).ttlMs)
    (run opts calls).history
  consumedOnce : ∀ nonce,
    (run opts calls).history.countP (Entry.consumes nonce) ≤
      (run opts calls).history.countP (Entry.issues nonce)
  rejection : ∀ verifiedOrigin t random,
    (∀ nonce ttlSeconds,
      ((run opts calls).service.issue verifiedOrigin t random).2 ≠
        .issued nonce ttlSeconds) →
      NonceService.RecordsNothing (run opts calls).service
        ((run opts calls).service.issue verifiedOrigin t random).1
  tracked : (run opts calls).service.trackedOrigins ≤
    (NonceService.construct opts).ratePerMinute

theorem issue_rejected_recordsNothing {service : NonceService}
    {verifiedOrigin : Option String} {t : Int} {random : NonceBytes}
    (rejected : ∀ nonce ttlSeconds,
      (service.issue verifiedOrigin t random).2 ≠
        .issued nonce ttlSeconds) :
    NonceService.RecordsNothing service
      (service.issue verifiedOrigin t random).1 := by
  apply NonceService.issue_limited_recordsNothing
  have issues := NonceService.issue_issues service verifiedOrigin t random
  generalize service.issue verifiedOrigin t random = result at *
  cases issues with
  | capped _ kept closed keeps => rfl
  | overQuota origin reached full => rfl
  | anonymous reached => exact absurd rfl (rejected _ _)
  | named origin reached room => exact absurd rfl (rejected _ _)

theorem run_contract (opts : NonceServiceOptions) (calls : List Call)
    (clock : calls.Pairwise fun earlier later => earlier.time ≤ later.time)
    (few : (countedOrigins (boot opts) calls).dedup.length ≤
      (NonceService.construct opts).ratePerMinute) :
    Contract opts calls := by
  obtain ⟨now, past⟩ : ∃ now, ∀ call ∈ calls, Call.time call ≤ now := by
    rcases List.eq_nil_or_concat calls with rfl | ⟨earlier, last, rfl⟩
    · exact ⟨0, fun _ listed => nomatch listed⟩
    · rw [List.concat_eq_append, List.pairwise_append] at clock
      refine ⟨last.time, fun call listed => ?_⟩
      rw [List.concat_eq_append] at listed
      rcases List.mem_append.mp listed with before | now
      · exact clock.2.2 call before last List.mem_cons_self
      · rw [List.mem_singleton.mp now]
  have sound := run_sound opts calls clock now past
  have consumption := sound.consumption
  rw [sound.ttlMs] at consumption
  exact
    { rate := sound.ratePerMinute ▸ sound.rate
      originRate := fun origin =>
        sound.perOriginPerMinute ▸ sound.originRate origin
      outstanding := sound.maxOutstanding ▸ sound.outstanding
      consumption := consumption
      consumedOnce := consumed_le_issued consumption
      rejection := fun _ _ _ => issue_rejected_recordsNothing
      tracked := (trackedOrigins_eq opts calls).trans_le few }

/-- Every state of a run keeps the promises exactly when the whole run counts
for no more distinct origins than may be issued to in one minute. -/
theorem contract_iff_countedOrigins (opts : NonceServiceOptions)
    (calls : List Call)
    (clock : calls.Pairwise fun earlier later =>
      earlier.time ≤ later.time) :
    (∀ before after, calls = before ++ after → Contract opts before) ↔
      (countedOrigins (boot opts) calls).dedup.length ≤
        (NonceService.construct opts).ratePerMinute := by
  constructor
  · intro contract
    have whole := contract calls [] (List.append_nil calls).symm
    rw [← trackedOrigins_eq]
    exact whole.tracked
  · intro few before after split
    subst split
    apply run_contract opts before (List.pairwise_append.mp clock).1
    apply Nat.le_trans _ few
    rw [countedOrigins_append]
    apply (List.nodup_dedup _).length_le_of_subset
    intro origin listed
    rw [List.mem_dedup] at listed ⊢
    exact List.mem_append_left _ listed

def sampleRandom (n : Nat) : NonceBytes :=
  ⟨UInt8.ofNat n :: List.replicate 15 0, by simp [mbp1PairNonceBytes]⟩

def sampleOrigins (count : Nat) : List String :=
  (List.range count).map fun n =>
    String.ofList [Char.ofNat (97 + n % 16), Char.ofNat (97 + n / 16)]

theorem sampleOrigins_contract :
    Contract {} (minutely sampleRandom 0 (sampleOrigins 3)) :=
  (contract_iff_countedOrigins {}
    (minutely sampleRandom 0 (sampleOrigins 3)) (by decide)).mpr
    (by decide +kernel) _ [] (List.append_nil _).symm

/-- After an hour the map of a service with the default limits holds more
origins than are served in a minute. -/
theorem sampleOrigins_tracked :
    (NonceService.construct {}).ratePerMinute <
      (run {} (minutely sampleRandom 0
        (sampleOrigins 61))).service.trackedOrigins := by
  rw [minutely_tracked {} sampleRandom (sampleOrigins 61) (by decide +kernel)
    (by decide) (by decide) (by decide)]
  decide

end Motrix.Bridge.Nonce
