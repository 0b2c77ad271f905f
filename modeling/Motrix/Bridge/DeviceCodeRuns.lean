import Mathlib.Data.List.Induction
import Motrix.Bridge.DeviceCodeInvariant

/-!
# Runs of the device-code service

Whatever the order of requests, polls, decisions and timers, a token is minted
and handed out at most once and only after an approval.  Every request gets
its one terminal notice in exactly those runs where pruning meets no request
that is still undecided.
-/

namespace Motrix.Bridge.DeviceCode

open DeviceCodeService

/-! ## Steps and runs -/

/-- No call of `request` prunes an undecided request. -/
def PrunesNonePending (options : DeviceCodeServiceOptions)
    (events : List Event) : Prop :=
  ∀ before asked t after, events = before ++ .request asked t :: after →
    NoneLapsed (run options before) t

theorem run_append (options : DeviceCodeServiceOptions)
    (events : List Event) (event : Event) :
    run options (events ++ [event]) = step options (run options events) event := by
  unfold run
  rw [List.foldl_append]
  rfl

theorem requestedIds_append (first second : List Event) :
    requestedIds (first ++ second) =
      requestedIds first ++ requestedIds second :=
  List.filterMap_append

theorem Sound.initial (strict : Prop) :
    Sound strict [] DeviceCodeService.initial where
  known := fun _ _ => rfl
  labelled := by
    intro requestId entry present
    cases present
  unborn := fun _ _ => ⟨rfl, rfl, List.not_mem_nil⟩
  armed := by
    intro handle requestId running
    cases running
  standing := by
    intro requestId entry present
    cases present
  kept := by
    intro _ requestId entry present
    cases present

theorem Sound.step {strict : Prop} {ids : List RequestId}
    {s : DeviceCodeService} (sound : Sound strict ids s)
    (options : DeviceCodeServiceOptions) (event : Event)
    (fresh : ∀ requestId ∈ requestedIds [event], requestId ∉ ids)
    (calm : strict → ∀ asked t, event = .request asked t → NoneLapsed s t) :
    Sound strict (ids ++ requestedIds [event]) (step options s event) := by
  have wider : ids ⊆ ids ++ requestedIds [event] :=
    List.subset_append_left _ _
  cases event with
  | request asked t =>
      have unknown : asked.requestId ∉ ids :=
        fresh asked.requestId List.mem_cons_self
      have asks := sound.request options asked unknown
        fun strictly => calm strictly asked t rfl
      apply asks.widen
      intro requestId member
      simpa [requestedIds, or_comm] using member
  | poll requestId now => exact (sound.poll requestId now).widen wider
  | approve requestId now => exact (sound.approve requestId now).widen wider
  | issueTokenSettles requestId issued =>
      exact (sound.mint requestId issued).widen wider
  | approveResumes requestId =>
      exact (sound.approveResumes requestId).widen wider
  | deny requestId now => exact (sound.deny requestId now).widen wider
  | getPending requestId now =>
      exact (sound.getPending requestId now).widen wider
  | listPending now => exact (sound.listPending now s.pending).widen wider
  | timerFires handle => exact (sound.timerFires handle).widen wider

theorem PrunesNonePending.of_append {options : DeviceCodeServiceOptions}
    {first second : List Event}
    (calm : PrunesNonePending options (first ++ second)) :
    PrunesNonePending options first := by
  intro before asked t after split
  apply calm before asked t (after ++ second)
  rw [split]
  simp

theorem FreshIds.of_append {first second : List Event}
    (fresh : FreshIds (first ++ second)) : FreshIds first := by
  unfold FreshIds at fresh
  rw [requestedIds_append] at fresh
  exact (List.nodup_append.mp fresh).1

theorem run_sound (strict : Prop) (options : DeviceCodeServiceOptions)
    (events : List Event) (fresh : FreshIds events)
    (calm : strict → PrunesNonePending options events) :
    Sound strict (requestedIds events) (run options events) := by
  induction events using List.reverseRecOn with
  | nil => exact Sound.initial strict
  | append_singleton events event induction =>
      have before := induction fresh.of_append fun strictly =>
        (calm strictly).of_append
      rw [run_append, requestedIds_append]
      apply before.step
      · intro requestId member known
        unfold FreshIds at fresh
        rw [requestedIds_append] at fresh
        exact (List.nodup_append.mp fresh).2.2 requestId known requestId member
          rfl
      · rintro strictly asked t rfl
        exact calm strictly events asked t [] rfl

/-! ## One terminal notice for each request -/

namespace DeviceCodeService

/-- The request is in the map and undecided. -/
def IsPending (s : DeviceCodeService) (requestId : RequestId) : Prop :=
  ∃ entry, s.get requestId = some entry ∧ entry.status = .pending

/-- The mint has succeeded and the continuation of `approve` is queued. -/
def IsSettling (s : DeviceCodeService) (requestId : RequestId) : Prop :=
  ∃ paired, s.inFlight requestId = some (.minted paired)

def terminals (s : DeviceCodeService) (requestId : RequestId) : Nat :=
  (s.history requestId).countP Notice.isTerminal

/-- Every request that has left the pending state has had exactly one terminal
notice, or is about to have it, and no other request has had one. -/
def Accounted (s : DeviceCodeService) : Prop :=
  ∀ requestId, s.entries requestId ≠ none →
    (s.IsPending requestId ∨ s.IsSettling requestId →
      s.terminals requestId = 0) ∧
    (¬ s.IsPending requestId ∧ ¬ s.IsSettling requestId →
      s.terminals requestId = 1)

end DeviceCodeService

theorem not_isPending {s : DeviceCodeService} {requestId : RequestId}
    {entry : PendingRequest} (present : s.entries requestId = some entry)
    (decided : entry.status ≠ .pending) : ¬ s.IsPending requestId := by
  rintro ⟨stored, found, undecided⟩
  have same : stored = entry :=
    Option.some.inj ((get_eq_some.mp found).2.symm.trans present)
  subst same
  exact decided undecided

/-- Where pruning drops no pending request, a request is over exactly when it
is neither pending nor about to be settled. -/
theorem Sound.isOver_iff {ids : List RequestId} {s : DeviceCodeService}
    (sound : Sound True ids s) {requestId : RequestId}
    {entry : PendingRequest} {phase : Phase}
    (present : s.entries requestId = some entry) (fits : phase.Fits s entry) :
    phase.isOver = false ↔
      s.IsPending requestId ∨ s.IsSettling requestId := by
  have label := sound.labelled requestId entry present
  subst label
  have listed (undecided : entry.status = .pending) :
      s.IsPending entry.requestId :=
    ⟨entry, get_eq_some.mpr
      ⟨sound.kept trivial entry.requestId entry present undecided, present⟩,
      undecided⟩
  have concluded (decided : entry.status ≠ .pending)
      (idle : s.inFlight entry.requestId = none) :
      ¬ (s.IsPending entry.requestId ∨ s.IsSettling entry.requestId) := by
    rintro (stillPending | ⟨paired, flying⟩)
    · exact not_isPending present decided stillPending
    · rw [idle] at flying
      cases flying
  cases phase with
  | pending => exact ⟨fun _ => .inl (listed fits.1), fun _ => rfl⟩
  | minting => exact ⟨fun _ => .inl (listed fits.1), fun _ => rfl⟩
  | approved token delivered settled =>
      obtain ⟨status, -, -, idle, waiting⟩ := fits
      cases settled with
      | false => exact ⟨fun _ => .inr (waiting rfl), fun _ => rfl⟩
      | true =>
          constructor
          · intro contradiction
            cases contradiction
          · intro unsettled
            exact absurd unsettled (concluded (by simp [status]) (idle rfl))
  | denied =>
      constructor
      · intro contradiction
        cases contradiction
      · intro unsettled
        exact absurd unsettled (concluded (by simp [fits.1]) fits.2)
  | expired =>
      constructor
      · intro contradiction
        cases contradiction
      · intro unsettled
        exact absurd unsettled (concluded (by simp [fits.1]) fits.2)

theorem run_accounted {options : DeviceCodeServiceOptions}
    {events : List Event} (fresh : FreshIds events)
    (calm : PrunesNonePending options events) :
    (run options events).Accounted := by
  have sound := run_sound True options events fresh fun _ => calm
  intro requestId known
  obtain ⟨entry, present⟩ := Option.ne_none_iff_exists'.mp known
  obtain ⟨phase, life, fits⟩ := sound.standing requestId entry present
  have counted : (run options events).terminals requestId =
      if phase.isOver then 1 else 0 := life.terminals
  have unfinished := sound.isOver_iff present fits
  rw [counted]
  cases status : phase.isOver with
  | false =>
      refine ⟨fun _ => rfl, fun finished => ?_⟩
      rcases unfinished.mp status with pending | settling
      · exact absurd pending finished.1
      · exact absurd settling finished.2
  | true =>
      refine ⟨fun unsettled => ?_, fun _ => rfl⟩
      rw [unfinished.mpr unsettled] at status
      cases status

/-! ## Pruning an undecided request -/

/-- The request has lapsed undecided, nothing is in flight for it, and nobody
has been told. -/
structure Lapsed (s : DeviceCodeService) (requestId : RequestId) (t : Int)
    (entry : PendingRequest) : Prop where
  present : s.entries requestId = some entry
  late : entry.expiresAt < t
  unclaimed : entry.claimed = false
  idle : s.inFlight requestId = none
  silent : s.terminals requestId = 0

theorem Lapsed.pruneEntry {s : DeviceCodeService} {requestId : RequestId}
    {t : Int} {entry : PendingRequest} (lapsed : Lapsed s requestId t entry)
    (key : RequestId) :
    Lapsed (DeviceCodeService.pruneEntry t s key) requestId t entry ∧
      (requestId ∈ (DeviceCodeService.pruneEntry t s key).pending →
        requestId ∈ s.pending ∧ requestId ≠ key) := by
  unfold DeviceCodeService.pruneEntry
  cases found : s.get key with
  | none =>
      refine ⟨lapsed, fun listed => ⟨listed, ?_⟩⟩
      rintro rfl
      rw [get_eq_some.mpr ⟨listed, lapsed.present⟩] at found
      cases found
  | some stored =>
      obtain ⟨-, storedAt⟩ := get_eq_some.mp found
      have other (kept : ¬ (t > stored.expiresAt ∧
          (s.inFlight key).isSome = false ∧ stored.claimed = false)) :
          requestId ≠ key := by
        rintro rfl
        have same : stored = entry :=
          Option.some.inj (storedAt.symm.trans lapsed.present)
        subst same
        apply kept
        exact ⟨lapsed.late, by simp [lapsed.idle], lapsed.unclaimed⟩
      dsimp only
      split
      case isFalse notLate =>
        exact ⟨lapsed, fun listed => ⟨listed, other fun all => notLate all.1⟩⟩
      case isTrue late =>
        split
        case isTrue flying =>
          refine ⟨lapsed, fun listed => ⟨listed, other fun all => ?_⟩⟩
          rw [flying] at all
          cases all.2.1
        case isFalse =>
          split
          case isTrue claimed =>
            refine ⟨lapsed, fun listed => ⟨listed, other fun all => ?_⟩⟩
            rw [claimed.1] at all
            cases all.2.2
          case isFalse =>
            exact ⟨⟨lapsed.present, lapsed.late, lapsed.unclaimed,
              lapsed.idle, lapsed.silent⟩, fun listed => mem_delete.mp listed⟩

/-- Pruning drops it without a word. -/
theorem Lapsed.pruneExpired {s : DeviceCodeService} {requestId : RequestId}
    {t : Int} {entry : PendingRequest} (lapsed : Lapsed s requestId t entry) :
    Lapsed (s.pruneExpired t) requestId t entry ∧
      requestId ∉ (s.pruneExpired t).pending := by
  have folded (keys : List RequestId) : ∀ start : DeviceCodeService,
      Lapsed start requestId t entry →
        Lapsed (keys.foldl (DeviceCodeService.pruneEntry t) start) requestId t
            entry ∧
          (requestId ∈ (keys.foldl (DeviceCodeService.pruneEntry t)
              start).pending → requestId ∈ start.pending ∧ requestId ∉ keys) := by
    induction keys with
    | nil => exact fun start here => ⟨here, fun listed => ⟨listed, by simp⟩⟩
    | cons key rest induction =>
        intro start here
        obtain ⟨pruned, kept⟩ := here.pruneEntry key
        obtain ⟨all, last⟩ := induction _ pruned
        refine ⟨all, fun listed => ?_⟩
        obtain ⟨still, notRest⟩ := last listed
        obtain ⟨before, notKey⟩ := kept still
        exact ⟨before, by simp [notKey, notRest]⟩
  obtain ⟨all, last⟩ := folded s.pending s lapsed
  refine ⟨all, fun listed => ?_⟩
  obtain ⟨before, absent⟩ := last listed
  exact absent before

theorem Lapsed.not_accounted {s : DeviceCodeService} {requestId : RequestId}
    {t : Int} {entry : PendingRequest} (lapsed : Lapsed s requestId t entry)
    (unlisted : requestId ∉ s.pending) : ¬ s.Accounted := by
  intro accounted
  have known : s.entries requestId ≠ none := by simp [lapsed.present]
  have notPending : ¬ s.IsPending requestId := by
    rintro ⟨stored, found, -⟩
    exact unlisted (get_eq_some.mp found).1
  have notSettling : ¬ s.IsSettling requestId := by
    rintro ⟨paired, flying⟩
    rw [lapsed.idle] at flying
    cases flying
  have once := (accounted requestId known).2 ⟨notPending, notSettling⟩
  rw [lapsed.silent] at once
  cases once

theorem Lapsed.enforceRateLimit {s : DeviceCodeService}
    {requestId : RequestId} {t : Int} {entry : PendingRequest}
    (lapsed : Lapsed s requestId t entry)
    (options : DeviceCodeServiceOptions) :
    Lapsed (s.enforceRateLimit options t).2 requestId t entry ∧
      (s.enforceRateLimit options t).2.pending = s.pending := by
  unfold DeviceCodeService.enforceRateLimit
  dsimp only
  split
  · exact ⟨⟨lapsed.present, lapsed.late, lapsed.unclaimed, lapsed.idle,
      lapsed.silent⟩, rfl⟩
  · exact ⟨⟨lapsed.present, lapsed.late, lapsed.unclaimed, lapsed.idle,
      lapsed.silent⟩, rfl⟩

theorem Lapsed.request {s : DeviceCodeService} {requestId : RequestId}
    {t : Int} {entry : PendingRequest} (lapsed : Lapsed s requestId t entry)
    (options : DeviceCodeServiceOptions) (asked : PairRequest)
    (different : requestId ≠ asked.requestId) :
    ¬ (s.request options asked t).2.Accounted := by
  obtain ⟨pruned, unlisted⟩ := lapsed.pruneExpired
  obtain ⟨limited, pending⟩ := pruned.enforceRateLimit options
  rw [← pending] at unlisted
  unfold DeviceCodeService.request
  generalize (s.pruneExpired t).enforceRateLimit options t = outcome at *
  obtain ⟨refused | accepted, s'⟩ := outcome
  · exact limited.not_accounted unlisted
  · apply @Lapsed.not_accounted _ requestId t entry
    · exact ⟨(Function.update_of_ne different _ _).trans limited.present,
        limited.late, limited.unclaimed, limited.idle, limited.silent⟩
    · have before : requestId ∉ s'.pending := unlisted
      intro listed
      rcases List.mem_append.mp listed with old | new
      · exact before old
      · exact different (List.mem_singleton.mp new)

/-- A run accounts for every request in every state it reaches exactly when no
call of `request` prunes one that is undecided. -/
theorem accounted_iff_prunesNonePending (options : DeviceCodeServiceOptions)
    (events : List Event) (fresh : FreshIds events) :
    (∀ before after, events = before ++ after →
      (run options before).Accounted) ↔ PrunesNonePending options events := by
  constructor
  · intro accounted before asked t after split requestId entry found
      undecided unclaimed
    by_contra outlived
    obtain ⟨listed, present⟩ := get_eq_some.mp found
    have freshBefore : FreshIds (before ++ [.request asked t]) := by
      have whole : FreshIds ((before ++ [.request asked t]) ++ after) := by
        simpa [split] using fresh
      exact whole.of_append
    have sound := run_sound False options before freshBefore.of_append
      fun contradiction => contradiction.elim
    obtain ⟨life, idle⟩ := sound.phase_pending present undecided unclaimed
    have lapsed : Lapsed (run options before) requestId t entry :=
      ⟨present, by omega, unclaimed, idle, life.terminals⟩
    have different : requestId ≠ asked.requestId := by
      rintro rfl
      unfold FreshIds at freshBefore
      rw [requestedIds_append] at freshBefore
      exact (List.nodup_append.mp freshBefore).2.2 asked.requestId
        (sound.mem_ids present) asked.requestId List.mem_cons_self rfl
    have reached := accounted (before ++ [.request asked t]) after
      (by simp [split])
    rw [run_append] at reached
    exact lapsed.request options asked different reached
  · rintro calm before after rfl
    exact run_accounted fresh.of_append calm.of_append

/-! ## A request pruned before its timer fires -/

def sampleRequest (requestId : RequestId) : PairRequest where
  clientName := "cli"
  clientVersion := "1.0"
  deviceId := none
  requestId := requestId
  freshDeviceId := "AAAAAAAAAAAAAAAAAAAAAA"
  userCodePicks := fun _ => ⟨0, by decide⟩

/-- The second call of `request` comes a millisecond after the lifetime of the
first and before its timer. -/
def lateRequest : List Event :=
  [.request (sampleRequest "first") 0,
    .request (sampleRequest "second") 300001]

/-- The timer of the first request fires before the second call. -/
def promptTimer : List Event :=
  [.request (sampleRequest "first") 0, .timerFires 0,
    .request (sampleRequest "second") 300001]

theorem lateRequest_unaccounted :
    FreshIds lateRequest ∧
      (run defaultOptions lateRequest).entries "first" ≠ none ∧
      (run defaultOptions lateRequest).get "first" = none ∧
      (run defaultOptions lateRequest).inFlight "first" = none ∧
      (run defaultOptions lateRequest).terminals "first" = 0 ∧
      ¬ (run defaultOptions lateRequest).Accounted := by
  have known : (run defaultOptions lateRequest).entries "first" ≠ none := by
    decide +kernel
  have gone : (run defaultOptions lateRequest).get "first" = none := by
    decide +kernel
  have idle : (run defaultOptions lateRequest).inFlight "first" = none := by
    decide +kernel
  have silent : (run defaultOptions lateRequest).terminals "first" = 0 := by
    decide +kernel
  refine ⟨by unfold FreshIds; decide +kernel, known, gone, idle, silent, ?_⟩
  intro accounted
  have notPending :
      ¬ (run defaultOptions lateRequest).IsPending "first" := by
    rintro ⟨entry, found, -⟩
    rw [gone] at found
    cases found
  have notSettling :
      ¬ (run defaultOptions lateRequest).IsSettling "first" := by
    rintro ⟨paired, flying⟩
    rw [idle] at flying
    cases flying
  have once := (accounted "first" known).2 ⟨notPending, notSettling⟩
  rw [silent] at once
  cases once

theorem promptTimer_accounted :
    PrunesNonePending defaultOptions promptTimer ∧
      ∀ before after, promptTimer = before ++ after →
        (run defaultOptions before).Accounted := by
  have fresh : FreshIds promptTimer := by
    unfold FreshIds
    decide +kernel
  have prompt : PrunesNonePending defaultOptions promptTimer := by
    intro before asked t after split requestId entry found undecided _
    obtain ⟨listed, present⟩ := get_eq_some.mp found
    rcases before with _ | ⟨one, _ | ⟨two, _ | ⟨three, rest⟩⟩⟩
    · cases split
      cases listed
    · cases split
    · cases split
      have only : requestId = "first" := List.mem_singleton.mp listed
      subst only
      have status : ((run defaultOptions [.request (sampleRequest "first") 0,
          .timerFires 0]).entries "first").map (fun stored => stored.status) =
            some .expired := by
        decide +kernel
      rw [present] at status
      rw [Option.map_some, undecided] at status
      cases status
    · simp [promptTimer] at split
  exact ⟨prompt,
    (accounted_iff_prunesNonePending defaultOptions promptTimer fresh).mpr
      prompt⟩

/-! ## One delivery for each token -/

/-- For every order of requests, polls, decisions, mints and expiries the
notices of each request deliver at most one token, and only after an
approval. -/
theorem run_singleDelivery (options : DeviceCodeServiceOptions)
    (events : List Event) (fresh : FreshIds events) (requestId : RequestId) :
    SingleDelivery ((run options events).history requestId) := by
  have sound := run_sound False options events fresh
    fun contradiction => contradiction.elim
  cases present : (run options events).entries requestId with
  | none =>
      obtain ⟨-, silent, -⟩ := sound.unborn requestId present
      rw [silent]
      exact Lifecycle.requested.singleDelivery
  | some entry =>
      obtain ⟨phase, life, -⟩ := sound.standing requestId entry present
      exact life.singleDelivery

/-- An approval whose mint fails once, and the poll that collects the token of
the second. -/
def retriedApproval : List Event :=
  [.request (sampleRequest "first") 0, .approve "first" 10,
    .issueTokenSettles "first" (.error "disk full"), .approve "first" 20,
    .approveResumes "first", .approve "first" 30,
    .issueTokenSettles "first"
      (.ok
        { identity := "cli"
          token := "token"
          name := "cli"
          pairedAt := 30
          lastActiveAt := none }),
    .deny "first" 40, .poll "first" 50, .approveResumes "first",
    .poll "first" 60]

example : (run defaultOptions retriedApproval).history "first" =
    [.approveStarted, .approveRejected, .approveStarted, .minted "token",
      .delivered "token", .settled .allowed, .approveFulfilled] := by
  decide +kernel

theorem retriedApproval_singleDelivery :
    SingleDelivery ((run defaultOptions retriedApproval).history "first") :=
  run_singleDelivery defaultOptions retriedApproval
    (by unfold FreshIds; decide +kernel) "first"

/-- In every order of events a timer runs for an unclaimed and undecided request
only, and no request has two; a request that waits for its mint stays in the
map, undecided. -/
theorem run_timers (options : DeviceCodeServiceOptions) (events : List Event)
    (fresh : FreshIds events) (requestId : RequestId) :
    let s := run options events
    (∀ handle, s.timers handle = some requestId →
      s.inFlight requestId = none ∧
        (s.entries requestId).map (·.status) = some .pending ∧
        ∀ other, s.timers other = some requestId → other = handle) ∧
    (s.inFlight requestId = some .minting → s.IsPending requestId) := by
  have sound := run_sound False options events fresh False.elim
  generalize run options events = s at sound
  refine ⟨fun handle running => ?_, fun minting => ?_⟩
  · obtain ⟨entry, present, rfl, undecided, free⟩ :=
      sound.armed handle requestId running
    obtain ⟨phase, -, fits⟩ := sound.standing requestId entry present
    have label := sound.labelled requestId entry present
    refine ⟨?_, by simp [present, undecided], fun other another => ?_⟩
    · cases phase <;> simp_all [Phase.Fits]
    · obtain ⟨same, found, timer, -⟩ := sound.armed other requestId another
      rw [← timer, Option.some.inj (found.symm.trans present)]
  · cases present : s.entries requestId with
    | none => simp [sound.unborn requestId present] at minting
    | some entry =>
        obtain ⟨phase, -, fits⟩ := sound.standing requestId entry present
        have label := sound.labelled requestId entry present
        cases phase <;> simp_all [Phase.Fits, IsPending, get_eq_some]

theorem claimedRequest_timers :
    (run defaultOptions
      [.request (sampleRequest "first") 0, .approve "first" 10]).IsPending
      "first" :=
  (run_timers _ _ (by unfold FreshIds; decide +kernel) _).2
    (by decide +kernel)

end Motrix.Bridge.DeviceCode
