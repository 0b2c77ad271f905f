import Motrix.Bridge.DeviceCodeService

/-!
# The invariant of the device-code service

Every request object is in a phase its notices lead to, and every armed timer
belongs to an undecided request.  Pruning is the one operation that can drop a
pending request without a notice; under `strict` it does not.
-/

namespace Motrix.Bridge.DeviceCode

open DeviceCodeService

namespace DeviceCodeService

/-- The notices about one request, in order. -/
def history (s : DeviceCodeService) (requestId : RequestId) : List Notice :=
  (s.log.filter fun entry => entry.1 = requestId).map fun entry => entry.2

theorem history_notify (s : DeviceCodeService) (requestId : RequestId)
    (notice : Notice) :
    (s.notify requestId notice).history requestId =
      s.history requestId ++ [notice] := by
  simp [history, notify, List.filter_append]

theorem history_notify_other (s : DeviceCodeService)
    {requestId other : RequestId} (notice : Notice)
    (different : other ≠ requestId) :
    (s.notify requestId notice).history other = s.history other := by
  have reverse : requestId ≠ other := Ne.symm different
  simp [history, notify, List.filter_append, reverse]

theorem get_eq_some {s : DeviceCodeService} {requestId : RequestId}
    {entry : PendingRequest} :
    s.get requestId = some entry ↔
      requestId ∈ s.pending ∧ s.entries requestId = some entry := by
  simp [get]

theorem mem_delete {s : DeviceCodeService} {requestId other : RequestId} :
    other ∈ (s.delete requestId).pending ↔
      other ∈ s.pending ∧ other ≠ requestId := by
  simp [delete]

end DeviceCodeService

/-- A step that concerns one request. -/
structure OnlyAt (requestId : RequestId) (s s' : DeviceCodeService) :
    Prop where
  entries : ∀ other, other ≠ requestId → s'.entries other = s.entries other
  inFlight : ∀ other, other ≠ requestId → s'.inFlight other = s.inFlight other
  history : ∀ other, other ≠ requestId → s'.history other = s.history other
  listed : ∀ other, other ≠ requestId →
    (other ∈ s'.pending ↔ other ∈ s.pending)

namespace OnlyAt

variable {requestId : RequestId} {s s' : DeviceCodeService}

theorem trans {s'' : DeviceCodeService} (first : OnlyAt requestId s s')
    (second : OnlyAt requestId s' s'') : OnlyAt requestId s s'' where
  entries := fun other different =>
    (second.entries other different).trans (first.entries other different)
  inFlight := fun other different =>
    (second.inFlight other different).trans (first.inFlight other different)
  history := fun other different =>
    (second.history other different).trans (first.history other different)
  listed := fun other different =>
    (second.listed other different).trans (first.listed other different)

theorem put (s : DeviceCodeService) (entry : PendingRequest) :
    OnlyAt entry.requestId s (s.put entry) where
  entries := fun _ different => Function.update_of_ne different _ _
  inFlight := fun _ _ => rfl
  history := fun _ _ => rfl
  listed := fun _ _ => Iff.rfl

theorem delete (s : DeviceCodeService) (requestId : RequestId) :
    OnlyAt requestId s (s.delete requestId) where
  entries := fun _ _ => rfl
  inFlight := fun _ _ => rfl
  history := fun _ _ => rfl
  listed := fun other different => by
    rw [mem_delete]
    exact and_iff_left different

theorem setInFlight (s : DeviceCodeService) (requestId : RequestId)
    (flight : Option InFlight) :
    OnlyAt requestId s (s.setInFlight requestId flight) where
  entries := fun _ _ => rfl
  inFlight := fun _ different => Function.update_of_ne different _ _
  history := fun _ _ => rfl
  listed := fun _ _ => Iff.rfl

theorem notify (s : DeviceCodeService) (requestId : RequestId)
    (notice : Notice) : OnlyAt requestId s (s.notify requestId notice) where
  entries := fun _ _ => rfl
  inFlight := fun _ _ => rfl
  history := fun _ different => history_notify_other s notice different
  listed := fun _ _ => Iff.rfl

theorem clearTimer (s : DeviceCodeService) (requestId : RequestId)
    (entry : PendingRequest) : OnlyAt requestId s (s.clearTimer entry) where
  entries := fun _ _ => rfl
  inFlight := fun _ _ => rfl
  history := fun _ _ => rfl
  listed := fun _ _ => Iff.rfl

theorem armTimer (s : DeviceCodeService) (requestId : RequestId) :
    OnlyAt requestId s (s.armTimer requestId) where
  entries := fun _ _ => rfl
  inFlight := fun _ _ => rfl
  history := fun _ _ => rfl
  listed := fun _ _ => Iff.rfl

end OnlyAt

/-! ## The invariant -/

/-- How the service stores a request in the given phase. -/
def Phase.Fits (s : DeviceCodeService) (entry : PendingRequest) :
    Phase → Prop
  | .pending =>
      entry.status = .pending ∧ entry.claimed = false ∧
        s.inFlight entry.requestId = none
  | .minting =>
      entry.status = .pending ∧ entry.claimed = true ∧
        entry.requestId ∈ s.pending ∧
        (s.inFlight entry.requestId = some .minting ∨
          ∃ reason, s.inFlight entry.requestId = some (.failed reason))
  | .approved token delivered settled =>
      entry.status = .approved ∧ entry.token = some token ∧
        (delivered = true → entry.requestId ∉ s.pending) ∧
        (settled = true → s.inFlight entry.requestId = none) ∧
        (settled = false →
          ∃ paired, s.inFlight entry.requestId = some (.minted paired))
  | .denied =>
      entry.status = .denied ∧ s.inFlight entry.requestId = none
  | .expired =>
      entry.status = .expired ∧ s.inFlight entry.requestId = none

structure Sound (strict : Prop) (ids : List RequestId)
    (s : DeviceCodeService) : Prop where
  known : ∀ requestId, requestId ∉ ids → s.entries requestId = none
  labelled : ∀ requestId entry, s.entries requestId = some entry →
    entry.requestId = requestId
  unborn : ∀ requestId, s.entries requestId = none →
    s.inFlight requestId = none ∧ s.history requestId = [] ∧
      requestId ∉ s.pending
  armed : ∀ handle requestId, s.timers handle = some requestId →
    ∃ entry, s.entries requestId = some entry ∧ entry.timer = handle ∧
      entry.status = .pending ∧ entry.claimed = false
  standing : ∀ requestId entry, s.entries requestId = some entry →
    ∃ phase : Phase, Lifecycle (s.history requestId) phase ∧
      phase.Fits s entry
  kept : strict → ∀ requestId entry, s.entries requestId = some entry →
    entry.status = .pending → requestId ∈ s.pending

namespace Sound

variable {strict : Prop} {ids : List RequestId} {s s' : DeviceCodeService}
  {requestId : RequestId} {entry : PendingRequest}

/-- A step about one request keeps the invariant when that request has moved
on to a phase its notices lead to, and its timer is armed only while it is
undecided. -/
theorem move (sound : Sound strict ids s) (entry' : PendingRequest)
    (member : requestId ∈ ids) (only : OnlyAt requestId s s')
    (found : s'.entries requestId = some entry')
    (label : entry'.requestId = requestId)
    (others : ∀ handle other, other ≠ requestId →
      s'.timers handle = some other → s.timers handle = some other)
    (own : ∀ handle, s'.timers handle = some requestId →
      entry'.timer = handle ∧ entry'.status = .pending ∧
        entry'.claimed = false)
    (stays : strict → entry'.status = .pending → requestId ∈ s'.pending)
    (phase : Phase) (life : Lifecycle (s'.history requestId) phase)
    (fits : phase.Fits s' entry') : Sound strict ids s' := by
  constructor
  · intro other unknown
    have different : other ≠ requestId := by
      rintro rfl
      exact unknown member
    rw [only.entries other different]
    exact sound.known other unknown
  · intro other stored present
    by_cases same : other = requestId
    · subst same
      rw [found] at present
      cases present
      exact label
    · rw [only.entries other same] at present
      exact sound.labelled other stored present
  · intro other absent
    by_cases same : other = requestId
    · subst same
      rw [found] at absent
      cases absent
    · rw [only.entries other same] at absent
      rw [only.inFlight other same, only.history other same,
        only.listed other same]
      exact sound.unborn other absent
  · intro handle other running
    by_cases same : other = requestId
    · subst same
      exact ⟨entry', found, own handle running⟩
    · rw [only.entries other same]
      exact sound.armed handle other (others handle other same running)
  · intro other stored present
    by_cases same : other = requestId
    · subst same
      rw [found] at present
      cases present
      exact ⟨phase, life, fits⟩
    · rw [only.entries other same] at present
      obtain ⟨otherPhase, otherLife, otherFits⟩ :=
        sound.standing other stored present
      have otherLabel := sound.labelled other stored present
      refine ⟨otherPhase, ?_, ?_⟩
      · rw [only.history other same]
        exact otherLife
      · unfold Phase.Fits at otherFits ⊢
        rw [otherLabel] at otherFits ⊢
        rw [only.inFlight other same, only.listed other same]
        exact otherFits
  · intro strictly other stored present undecided
    by_cases same : other = requestId
    · subst same
      rw [found] at present
      cases present
      exact stays strictly undecided
    · rw [only.entries other same] at present
      rw [only.listed other same]
      exact sound.kept strictly other stored present undecided

theorem mem_ids (sound : Sound strict ids s)
    (present : s.entries requestId = some entry) : requestId ∈ ids := by
  by_contra unknown
  rw [sound.known requestId unknown] at present
  cases present

/-- An undecided and unclaimed request is in the phase `pending`. -/
theorem phase_pending (sound : Sound strict ids s)
    (present : s.entries requestId = some entry)
    (undecided : entry.status = .pending) (unclaimed : entry.claimed = false) :
    Lifecycle (s.history requestId) .pending ∧
      s.inFlight requestId = none := by
  obtain ⟨phase, life, fits⟩ := sound.standing requestId entry present
  have label := sound.labelled requestId entry present
  cases phase with
  | pending =>
      obtain ⟨-, -, flight⟩ := fits
      rw [label] at flight
      exact ⟨life, flight⟩
  | minting =>
      obtain ⟨-, claimed, -⟩ := fits
      rw [unclaimed] at claimed
      cases claimed
  | approved token delivered settled =>
      obtain ⟨status, -⟩ := fits
      rw [undecided] at status
      cases status
  | denied =>
      obtain ⟨status, -⟩ := fits
      rw [undecided] at status
      cases status
  | expired =>
      obtain ⟨status, -⟩ := fits
      rw [undecided] at status
      cases status

theorem timers_cleared (sound : Sound strict ids s)
    (present : s.entries requestId = some entry) (handle : TimerHandle) :
    (s.clearTimer entry).timers handle ≠ some requestId := by
  intro running
  by_cases same : handle = entry.timer
  · subst same
    simp [clearTimer] at running
  · rw [show (s.clearTimer entry).timers handle = s.timers handle from
      Function.update_of_ne same _ _] at running
    obtain ⟨stored, storedAt, timer, -⟩ := sound.armed handle requestId running
    rw [present] at storedAt
    cases storedAt
    exact same timer.symm

theorem armTimer_timers {handle : TimerHandle} {other : RequestId}
    (different : other ≠ requestId)
    (running : (s.armTimer requestId).timers handle = some other) :
    s.timers handle = some other := by
  by_cases same : handle = s.nextTimer
  · subst same
    have armed : Function.update s.timers s.nextTimer (some requestId)
        s.nextTimer = some other := running
    rw [Function.update_self] at armed
    exact absurd (Option.some.inj armed).symm different
  · exact (Function.update_of_ne same _ _).symm.trans running

theorem clearTimer_timers {handle : TimerHandle} {other : RequestId}
    (running : (s.clearTimer entry).timers handle = some other) :
    s.timers handle = some other := by
  by_cases same : handle = entry.timer
  · subst same
    simp [clearTimer] at running
  · rwa [show (s.clearTimer entry).timers handle = s.timers handle from
      Function.update_of_ne same _ _] at running

theorem expireEntry (sound : Sound strict ids s)
    (present : s.entries requestId = some entry)
    (unclaimed : entry.claimed = false) :
    Sound strict ids (s.expireEntry entry) := by
  unfold DeviceCodeService.expireEntry
  split
  case isTrue => exact sound
  case isFalse undecided =>
    have status : entry.status = .pending := not_not.mp undecided
    obtain ⟨life, flight⟩ := sound.phase_pending present status unclaimed
    have label := sound.labelled requestId entry present
    subst label
    have cleared := sound.timers_cleared present
    have only := ((OnlyAt.clearTimer s entry.requestId entry).trans
      (OnlyAt.put _ { entry with status := .expired })).trans
      (OnlyAt.notify _ entry.requestId .expired)
    apply sound.move { entry with status := .expired }
      (sound.mem_ids present) only
    · exact Function.update_self _ _ _
    · rfl
    · intro handle other _ running
      exact clearTimer_timers running
    · intro handle running
      exact absurd running (cleared handle)
    · intro _ contradiction
      cases contradiction
    · rw [history_notify]
      exact life.expire
    · exact ⟨rfl, flight⟩

/-- Reading the status either leaves the service alone or expires a lapsed
request. -/
theorem effectiveStatus (sound : Sound strict ids s)
    (present : s.entries requestId = some entry) (now : Int) :
    Sound strict ids (s.effectiveStatus entry now).1 ∧
      ((s.effectiveStatus entry now).2 ≠ .expired →
        (s.effectiveStatus entry now).1 = s ∧
          (s.effectiveStatus entry now).2 = entry.status) := by
  unfold DeviceCodeService.effectiveStatus
  split
  case isTrue lapsed =>
    have unclaimed : entry.claimed = false := by
      simp [PendingRequest.lapsed] at lapsed
      exact lapsed.1.2
    exact ⟨sound.expireEntry present unclaimed, fun other => absurd rfl other⟩
  case isFalse => exact ⟨sound, fun _ => ⟨rfl, rfl⟩⟩

theorem timerFires (sound : Sound strict ids s) (handle : TimerHandle) :
    Sound strict ids (s.timerFires handle) := by
  unfold DeviceCodeService.timerFires
  cases running : s.timers handle with
  | none => exact sound
  | some requestId =>
      let fired : DeviceCodeService :=
        { s with timers := Function.update s.timers handle none }
      obtain ⟨entry, present, -, -, unclaimed⟩ :=
        sound.armed handle requestId running
      have still : Sound strict ids fired := by
        refine ⟨sound.known, sound.labelled, sound.unborn, ?_,
          sound.standing, sound.kept⟩
        intro other stored armed
        by_cases same : other = handle
        · subst same
          simp [fired] at armed
        · rw [show fired.timers other = s.timers other from
            Function.update_of_ne same _ _] at armed
          exact sound.armed other stored armed
      change Sound strict ids (fired.handleExpiry requestId)
      unfold DeviceCodeService.handleExpiry
      cases found : fired.get requestId with
      | none => exact still
      | some stored =>
          have storedAt := (get_eq_some.mp found).2
          have same : stored = entry :=
            Option.some.inj (storedAt.symm.trans present)
          subst same
          exact still.expireEntry storedAt unclaimed

/-! ### Pruning -/

/-- Dropping a request that no approval is in flight for. -/
theorem drop (sound : Sound strict ids s)
    (present : s.entries requestId = some entry)
    (idle : s.inFlight requestId = none)
    (decided : strict → entry.status ≠ .pending) :
    Sound strict ids ((s.clearTimer entry).delete requestId) := by
  have label := sound.labelled requestId entry present
  subst label
  obtain ⟨phase, life, fits⟩ := sound.standing entry.requestId entry present
  apply sound.move entry (sound.mem_ids present) ((OnlyAt.clearTimer s _ entry).trans
    (OnlyAt.delete _ entry.requestId))
  · exact present
  · rfl
  · intro handle other _ running
    exact clearTimer_timers running
  · intro handle running
    exact absurd running (sound.timers_cleared present handle)
  · intro strictly undecided
    exact absurd undecided (decided strictly)
  · exact life
  · cases phase with
    | pending => exact fits
    | minting =>
        obtain ⟨-, -, -, flight | ⟨reason, flight⟩⟩ := fits
        · rw [idle] at flight
          cases flight
        · rw [idle] at flight
          cases flight
    | approved token delivered settled =>
        obtain ⟨status, stored, collected, rest⟩ := fits
        refine ⟨status, stored, ?_, rest⟩
        intro _ listed
        exact (mem_delete.mp listed).2 rfl
    | denied => exact fits
    | expired => exact fits

end Sound

/-- Every pending request in the map that no approval has claimed is within
its lifetime. -/
def NoneLapsed (s : DeviceCodeService) (t : Int) : Prop :=
  ∀ requestId entry, s.get requestId = some entry →
    entry.status = .pending → entry.claimed = false → t ≤ entry.expiresAt

namespace Sound

variable {strict : Prop} {ids : List RequestId} {s s' : DeviceCodeService}
  {requestId : RequestId} {entry : PendingRequest}

theorem claimed_inFlight (sound : Sound strict ids s)
    (present : s.entries requestId = some entry)
    (undecided : entry.status = .pending)
    (idle : s.inFlight requestId = none) : entry.claimed = false := by
  have label := sound.labelled requestId entry present
  obtain ⟨phase, -, fits⟩ := sound.standing requestId entry present
  cases phase with
  | pending => exact fits.2.1
  | minting =>
      obtain ⟨-, -, -, flight⟩ := fits
      rw [label, idle] at flight
      obtain flight | ⟨reason, flight⟩ := flight
      · cases flight
      · cases flight
  | approved token delivered settled =>
      rw [fits.1] at undecided
      cases undecided
  | denied =>
      rw [fits.1] at undecided
      cases undecided
  | expired =>
      rw [fits.1] at undecided
      cases undecided

theorem pruneEntry (sound : Sound strict ids s) {t : Int}
    (noneLapsed : strict → NoneLapsed s t) (requestId : RequestId) :
    Sound strict ids (DeviceCodeService.pruneEntry t s requestId) := by
  unfold DeviceCodeService.pruneEntry
  cases found : s.get requestId with
  | none => exact sound
  | some entry =>
      obtain ⟨listed, present⟩ := get_eq_some.mp found
      dsimp only
      split
      case isFalse => exact sound
      case isTrue late =>
        split
        case isTrue => exact sound
        case isFalse noFlight =>
          split
          case isTrue => exact sound
          case isFalse =>
            have idle : s.inFlight requestId = none := by
              simpa using noFlight
            apply sound.drop present idle
            intro strictly undecided
            have unclaimed := sound.claimed_inFlight present undecided idle
            have within :=
              noneLapsed strictly requestId entry found undecided unclaimed
            omega

theorem pruneEntry_noneLapsed {t : Int} (noneLapsed : NoneLapsed s t)
    (requestId : RequestId) :
    NoneLapsed (DeviceCodeService.pruneEntry t s requestId) t := by
  unfold DeviceCodeService.pruneEntry
  cases found : s.get requestId with
  | none => exact noneLapsed
  | some entry =>
      dsimp only
      split_ifs
      · exact noneLapsed
      · exact noneLapsed
      · intro other stored present
        obtain ⟨listed, storedAt⟩ := get_eq_some.mp present
        exact noneLapsed other stored
          (get_eq_some.mpr ⟨(mem_delete.mp listed).1, storedAt⟩)
      · exact noneLapsed

theorem pruneExpired (sound : Sound strict ids s) {t : Int}
    (noneLapsed : strict → NoneLapsed s t) :
    Sound strict ids (s.pruneExpired t) := by
  unfold DeviceCodeService.pruneExpired
  generalize s.pending = keys
  induction keys generalizing s with
  | nil => exact sound
  | cons key rest induction =>
      apply induction
      · exact sound.pruneEntry noneLapsed key
      · intro strictly
        exact pruneEntry_noneLapsed (noneLapsed strictly) key

/-! ### Requests -/

theorem enforceRateLimit (sound : Sound strict ids s)
    (options : DeviceCodeServiceOptions) (t : Int) :
    Sound strict ids (s.enforceRateLimit options t).2 := by
  unfold DeviceCodeService.enforceRateLimit
  dsimp only
  split
  · exact ⟨sound.known, sound.labelled, sound.unborn, sound.armed,
      sound.standing, sound.kept⟩
  · exact ⟨sound.known, sound.labelled, sound.unborn, sound.armed,
      sound.standing, sound.kept⟩

theorem widen (sound : Sound strict ids s) {wider : List RequestId}
    (subset : ids ⊆ wider) : Sound strict wider s :=
  ⟨fun other unknown =>
      sound.known other fun member => unknown (subset member),
    sound.labelled, sound.unborn, sound.armed, sound.standing, sound.kept⟩

/-- A request that was not known before starts its life. -/
theorem born (sound : Sound strict ids s) (entry : PendingRequest)
    (fresh : s.entries entry.requestId = none)
    (undecided : entry.status = .pending) (unclaimed : entry.claimed = false)
    (timer : entry.timer = s.nextTimer) :
    Sound strict (entry.requestId :: ids)
      { (s.armTimer entry.requestId).put entry with
        pending := s.pending ++ [entry.requestId] } := by
  obtain ⟨noFlight, noHistory, unlisted⟩ := sound.unborn entry.requestId fresh
  have only : OnlyAt entry.requestId s
      { (s.armTimer entry.requestId).put entry with
        pending := s.pending ++ [entry.requestId] } := by
    refine ⟨fun other different => Function.update_of_ne different _ _,
      fun _ _ => rfl, fun _ _ => rfl, ?_⟩
    intro other different
    simp [different]
  apply (sound.widen (List.subset_cons_self _ _)).move entry
    List.mem_cons_self only
  · exact Function.update_self _ _ _
  · rfl
  · intro handle other different running
    exact armTimer_timers different running
  · intro handle running
    refine ⟨?_, undecided, unclaimed⟩
    by_cases same : handle = s.nextTimer
    · rw [same, timer]
    · have before : s.timers handle = some entry.requestId :=
        (Function.update_of_ne same _ _).symm.trans running
      obtain ⟨stored, present, -⟩ := sound.armed handle _ before
      rw [fresh] at present
      cases present
  · intro _ _
    simp
  · have nothing : s.history entry.requestId = [] := noHistory
    change Lifecycle (s.history entry.requestId) .pending
    rw [nothing]
    exact .requested
  · exact ⟨undecided, unclaimed, noFlight⟩

theorem pruneEntry_entries (t : Int) (s : DeviceCodeService)
    (requestId : RequestId) :
    (DeviceCodeService.pruneEntry t s requestId).entries = s.entries := by
  unfold DeviceCodeService.pruneEntry
  cases s.get requestId with
  | none => rfl
  | some entry =>
      dsimp only
      split_ifs <;> rfl

theorem pruneExpired_entries (s : DeviceCodeService) (t : Int) :
    (s.pruneExpired t).entries = s.entries := by
  unfold DeviceCodeService.pruneExpired
  generalize s.pending = keys
  induction keys generalizing s with
  | nil => rfl
  | cons key rest induction =>
      rw [List.foldl_cons, induction, pruneEntry_entries]

theorem enforceRateLimit_entries (options : DeviceCodeServiceOptions)
    (s : DeviceCodeService) (t : Int) :
    (s.enforceRateLimit options t).2.entries = s.entries := by
  unfold DeviceCodeService.enforceRateLimit
  dsimp only
  split <;> rfl

theorem request (sound : Sound strict ids s) (options : DeviceCodeServiceOptions)
    (asked : PairRequest) {t : Int}
    (fresh : asked.requestId ∉ ids)
    (noneLapsed : strict → NoneLapsed s t) :
    Sound strict (asked.requestId :: ids) (s.request options asked t).2 := by
  have limited :=
    (sound.pruneExpired noneLapsed).enforceRateLimit options t
  have unknown : ((s.pruneExpired t).enforceRateLimit options t).2.entries
      asked.requestId = none := by
    rw [enforceRateLimit_entries, pruneExpired_entries]
    exact sound.known asked.requestId fresh
  unfold DeviceCodeService.request
  generalize (s.pruneExpired t).enforceRateLimit options t = outcome at *
  obtain ⟨refused | accepted, s'⟩ := outcome
  · exact limited.widen (List.subset_cons_self _ _)
  · let entry : PendingRequest :=
      { requestId := asked.requestId
        userCode := makeUserCode asked.userCodePicks
        clientName := asked.clientName
        clientVersion := asked.clientVersion
        deviceId := resolveDeviceId asked.deviceId asked.freshDeviceId
        status := .pending
        claimed := false
        token := none
        createdAt := t
        expiresAt := t + options.ttlMs
        timer := s'.nextTimer }
    exact limited.born entry unknown rfl rfl rfl

/-! ### Polls and the inbox -/

theorem getPending (sound : Sound strict ids s) (requestId : RequestId)
    (now : Int) : Sound strict ids (s.getPending requestId now).2 := by
  unfold DeviceCodeService.getPending
  cases found : s.get requestId with
  | none => exact sound
  | some entry =>
      have read := (sound.effectiveStatus (get_eq_some.mp found).2 now).1
      dsimp only
      generalize s.effectiveStatus entry now = outcome at *
      obtain ⟨s', status⟩ := outcome
      cases status <;> exact read

theorem listPending (sound : Sound strict ids s) (now : RequestId → Int)
    (keys : List RequestId) :
    Sound strict ids (DeviceCodeService.listPending now s keys).2 := by
  induction keys generalizing s with
  | nil => exact sound
  | cons key rest induction =>
      have read := sound.getPending key (now key)
      unfold DeviceCodeService.listPending
      generalize s.getPending key (now key) = outcome at *
      obtain ⟨none | info, s'⟩ := outcome
      · exact induction read
      · exact induction read

theorem phase_approved (sound : Sound strict ids s) {token : String}
    (present : s.entries requestId = some entry)
    (approved : entry.status = .approved) (held : entry.token = some token) :
    ∃ delivered settled,
      Lifecycle (s.history requestId) (.approved token delivered settled) ∧
        (Phase.approved token delivered settled).Fits s entry := by
  obtain ⟨phase, life, fits⟩ := sound.standing requestId entry present
  cases phase with
  | approved other delivered settled =>
      have same : other = token :=
        Option.some.inj (fits.2.1.symm.trans held)
      subst same
      exact ⟨delivered, settled, life, fits⟩
  | pending =>
      rw [fits.1] at approved
      cases approved
  | minting =>
      rw [fits.1] at approved
      cases approved
  | denied =>
      rw [fits.1] at approved
      cases approved
  | expired =>
      rw [fits.1] at approved
      cases approved

/-- A token is handed out while its request is still listed, hence for the
first time. -/
theorem deliver (sound : Sound strict ids s) {token : String}
    (listed : requestId ∈ s.pending)
    (present : s.entries requestId = some entry)
    (approved : entry.status = .approved) (held : entry.token = some token) :
    Sound strict ids (((s.clearTimer entry).delete requestId).notify requestId
      (.delivered token)) := by
  have label := sound.labelled requestId entry present
  subst label
  obtain ⟨delivered, settled, life, fits⟩ :=
    sound.phase_approved present approved held
  obtain ⟨-, -, collected, flight⟩ := fits
  have first : delivered = false := by
    by_contra again
    exact collected (by simpa using again) listed
  subst first
  apply sound.move entry (sound.mem_ids present) (((OnlyAt.clearTimer s _ entry).trans
    (OnlyAt.delete _ entry.requestId)).trans
    (OnlyAt.notify _ entry.requestId (.delivered token)))
  · exact present
  · rfl
  · intro handle other _ running
    exact clearTimer_timers running
  · intro handle running
    exact absurd running (sound.timers_cleared present handle)
  · intro _ undecided
    rw [approved] at undecided
    cases undecided
  · rw [history_notify]
    exact life.deliver
  · refine ⟨approved, held, ?_, flight⟩
    intro _ still
    exact (mem_delete.mp still).2 rfl

theorem poll (sound : Sound strict ids s) (requestId : RequestId) (now : Int) :
    Sound strict ids (s.poll requestId now).2 := by
  unfold DeviceCodeService.poll
  cases found : s.get requestId with
  | none => exact sound
  | some entry =>
      obtain ⟨listed, present⟩ := get_eq_some.mp found
      obtain ⟨read, same⟩ := sound.effectiveStatus present now
      dsimp only
      generalize s.effectiveStatus entry now = outcome at *
      obtain ⟨s', status⟩ := outcome
      cases status with
      | approved =>
          obtain ⟨rfl, approved⟩ := same (by simp)
          cases held : PendingRequest.deliverable entry with
          | none => exact read
          | some token =>
              have stored : entry.token = some token :=
                (Option.filter_eq_some_iff.mp held).1
              exact read.deliver listed present approved.symm stored
      | pending => exact read
      | denied => exact read
      | expired => exact read

/-! ### Decisions -/

/-- The request is claimed, its timer cleared and a mint in flight. -/
theorem claim (sound : Sound strict ids s) (listed : requestId ∈ s.pending)
    (present : s.entries requestId = some entry)
    (undecided : entry.status = .pending)
    (idle : s.inFlight requestId = none) :
    Sound strict ids
      ((((s.clearTimer entry).put { entry with claimed := true }).setInFlight
        requestId (some .minting)).notify requestId .approveStarted) := by
  have label := sound.labelled requestId entry present
  subst label
  have unclaimed := sound.claimed_inFlight present undecided idle
  obtain ⟨life, -⟩ := sound.phase_pending present undecided unclaimed
  apply sound.move { entry with claimed := true } (sound.mem_ids present)
    ((((OnlyAt.clearTimer s _ entry).trans
      (OnlyAt.put _ { entry with claimed := true })).trans
      (OnlyAt.setInFlight _ entry.requestId (some .minting))).trans
      (OnlyAt.notify _ entry.requestId .approveStarted))
  · exact Function.update_self _ _ _
  · rfl
  · intro handle other _ running
    exact clearTimer_timers running
  · intro handle running
    exact absurd running (sound.timers_cleared present handle)
  · intro _ _
    exact listed
  · rw [history_notify]
    exact life.approve
  · exact ⟨undecided, rfl, listed, .inl (Function.update_self _ _ _)⟩

/-- A request that may be decided on has been read as it stands. -/
theorem requirePending (sound : Sound strict ids s) (requestId : RequestId)
    (now : Int) :
    Sound strict ids (s.requirePending requestId now).2 ∧
      ∀ entry, (s.requirePending requestId now).1 = .ok entry →
        (s.requirePending requestId now).2 = s ∧ requestId ∈ s.pending ∧
          s.entries requestId = some entry ∧ entry.status = .pending := by
  unfold DeviceCodeService.requirePending
  cases found : s.get requestId with
  | none => exact ⟨sound, fun _ required => by cases required⟩
  | some entry =>
      obtain ⟨listed, present⟩ := get_eq_some.mp found
      obtain ⟨read, same⟩ := sound.effectiveStatus present now
      dsimp only
      generalize s.effectiveStatus entry now = outcome at *
      obtain ⟨s', status⟩ := outcome
      cases status with
      | pending =>
          obtain ⟨rfl, undecided⟩ := same (by simp)
          refine ⟨read, fun _ required => ?_⟩
          cases required
          exact ⟨rfl, listed, present, undecided.symm⟩
      | approved => exact ⟨read, fun _ required => by cases required⟩
      | denied => exact ⟨read, fun _ required => by cases required⟩
      | expired => exact ⟨read, fun _ required => by cases required⟩

theorem approve (sound : Sound strict ids s) (requestId : RequestId)
    (now : Int) : Sound strict ids (s.approve requestId now).2 := by
  unfold DeviceCodeService.approve
  split
  case isTrue => exact sound
  case isFalse noFlight =>
    have idle : s.inFlight requestId = none := by simpa using noFlight
    obtain ⟨read, required⟩ := sound.requirePending requestId now
    generalize s.requirePending requestId now = outcome at *
    obtain ⟨refused | entry, s'⟩ := outcome
    · exact read
    · obtain ⟨rfl, listed, present, undecided⟩ := required entry rfl
      exact read.claim listed present undecided idle

theorem refuse (sound : Sound strict ids s)
    (present : s.entries requestId = some entry)
    (undecided : entry.status = .pending)
    (idle : s.inFlight requestId = none) :
    Sound strict ids
      ((((s.put { entry with status := .denied }).clearTimer entry).notify
        requestId (.settled .denied)).notify requestId .denyLanded) := by
  have label := sound.labelled requestId entry present
  subst label
  have unclaimed := sound.claimed_inFlight present undecided idle
  obtain ⟨life, -⟩ := sound.phase_pending present undecided unclaimed
  apply sound.move { entry with status := .denied } (sound.mem_ids present)
    ((((OnlyAt.put s { entry with status := .denied }).trans
      (OnlyAt.clearTimer _ _ entry)).trans
      (OnlyAt.notify _ entry.requestId (.settled .denied))).trans
      (OnlyAt.notify _ entry.requestId .denyLanded))
  · exact Function.update_self _ _ _
  · rfl
  · intro handle other _ running
    exact clearTimer_timers running
  · intro handle running
    exact absurd running (sound.timers_cleared present handle)
  · intro _ contradiction
    cases contradiction
  · rw [history_notify, history_notify]
    exact life.deny
  · exact ⟨rfl, idle⟩

/-- A denial asks for a pending request as an approval does. -/
theorem deny_eq (s : DeviceCodeService) (requestId : RequestId) (now : Int) :
    s.deny requestId now =
      if (s.inFlight requestId).isSome then (false, s)
      else
        match s.requirePending requestId now with
        | (.error _, s) => (false, s)
        | (.ok entry, s) =>
            (true,
              ((((s.put { entry with status := .denied }).clearTimer
                entry).notify requestId (.settled .denied)).notify requestId
                .denyLanded)) := by
  unfold DeviceCodeService.deny DeviceCodeService.requirePending
  cases s.get requestId with
  | none => rfl
  | some entry =>
      dsimp only
      generalize s.effectiveStatus entry now = outcome
      obtain ⟨s', status⟩ := outcome
      cases status <;> rfl

theorem deny (sound : Sound strict ids s) (requestId : RequestId)
    (now : Int) : Sound strict ids (s.deny requestId now).2 := by
  rw [deny_eq]
  split
  case isTrue => exact sound
  case isFalse noFlight =>
    have idle : s.inFlight requestId = none := by simpa using noFlight
    obtain ⟨read, required⟩ := sound.requirePending requestId now
    generalize s.requirePending requestId now = outcome at *
    obtain ⟨refused | entry, s'⟩ := outcome
    · exact read
    · obtain ⟨rfl, -, present, undecided⟩ := required entry rfl
      exact read.refuse present undecided idle

theorem phase_minting (sound : Sound strict ids s)
    (present : s.entries requestId = some entry)
    (flying : s.inFlight requestId = some .minting ∨
      ∃ reason, s.inFlight requestId = some (.failed reason)) :
    Lifecycle (s.history requestId) .minting ∧ entry.status = .pending ∧
      entry.claimed = true ∧ requestId ∈ s.pending := by
  have label := sound.labelled requestId entry present
  subst label
  obtain ⟨phase, life, fits⟩ := sound.standing entry.requestId entry present
  have busy : s.inFlight entry.requestId ≠ none := by
    rcases flying with flight | ⟨reason, flight⟩ <;> simp [flight]
  cases phase with
  | pending => exact absurd fits.2.2 busy
  | minting => exact ⟨life, fits.1, fits.2.1, fits.2.2.1⟩
  | approved token delivered settled =>
      obtain ⟨-, -, -, finished, waiting⟩ := fits
      cases settled with
      | true => exact absurd (finished rfl) busy
      | false =>
          obtain ⟨paired, minted⟩ := waiting rfl
          rcases flying with flight | ⟨reason, flight⟩
          · rw [minted] at flight
            cases flight
          · rw [minted] at flight
            cases flight
  | denied => exact absurd fits.2 busy
  | expired => exact absurd fits.2 busy

theorem phase_minted (sound : Sound strict ids s) {paired : PairedClient}
    (present : s.entries requestId = some entry)
    (flying : s.inFlight requestId = some (.minted paired)) :
    ∃ token delivered,
      Lifecycle (s.history requestId) (.approved token delivered false) ∧
        entry.status = .approved ∧ entry.token = some token ∧
        (delivered = true → requestId ∉ s.pending) := by
  have label := sound.labelled requestId entry present
  subst label
  obtain ⟨phase, life, fits⟩ := sound.standing entry.requestId entry present
  cases phase with
  | pending =>
      rw [fits.2.2] at flying
      cases flying
  | minting =>
      obtain ⟨-, -, -, flight | ⟨reason, flight⟩⟩ := fits
      · rw [flight] at flying
        cases flying
      · rw [flight] at flying
        cases flying
  | approved token delivered settled =>
      obtain ⟨status, held, collected, finished, -⟩ := fits
      cases settled with
      | true =>
          rw [finished rfl] at flying
          cases flying
      | false => exact ⟨token, delivered, life, status, held, collected⟩
  | denied =>
      rw [fits.2] at flying
      cases flying
  | expired =>
      rw [fits.2] at flying
      cases flying

/-- No timer is armed for a request that is claimed or decided. -/
theorem noTimer (sound : Sound strict ids s)
    (present : s.entries requestId = some entry)
    (busy : entry.status = .pending → entry.claimed = true)
    (handle : TimerHandle) : s.timers handle ≠ some requestId := by
  intro running
  obtain ⟨stored, storedAt, -, undecided, unclaimed⟩ :=
    sound.armed handle requestId running
  have same : stored = entry := Option.some.inj (storedAt.symm.trans present)
  subst same
  rw [busy undecided] at unclaimed
  cases unclaimed

theorem mint (sound : Sound strict ids s) (requestId : RequestId)
    (issued : Except String PairedClient) :
    Sound strict ids (s.mint requestId issued) := by
  unfold DeviceCodeService.mint
  split
  case h_2 => exact sound
  case h_1 entry flying present =>
    have label := sound.labelled requestId entry present
    subst label
    obtain ⟨life, undecided, claimed, listed⟩ :=
      sound.phase_minting present (.inl flying)
    cases issued with
    | ok paired =>
        apply sound.move
          { entry with
            status := .approved
            token := some paired.token }
          (sound.mem_ids present)
          (((OnlyAt.put s
            { entry with
              status := .approved
              token := some paired.token }).trans
            (OnlyAt.setInFlight _ entry.requestId (some (.minted paired)))).trans
            (OnlyAt.notify _ entry.requestId (.minted paired.token)))
        · exact Function.update_self _ _ _
        · rfl
        · intro handle other _ running
          exact running
        · intro handle running
          exact absurd running
            (sound.noTimer present (fun _ => claimed) handle)
        · intro _ contradiction
          cases contradiction
        · rw [history_notify]
          exact life.mint
        · refine ⟨rfl, rfl, ?_, ?_, ?_⟩
          · intro contradiction
            cases contradiction
          · intro contradiction
            cases contradiction
          · intro _
            exact ⟨paired, Function.update_self _ _ _⟩
    | error reason =>
        apply sound.move entry (sound.mem_ids present)
          (OnlyAt.setInFlight s entry.requestId (some (.failed reason)))
        · exact present
        · rfl
        · intro handle other _ running
          exact running
        · intro handle running
          exact absurd running
            (sound.noTimer present (fun _ => claimed) handle)
        · intro _ _
          exact listed
        · exact life
        · exact ⟨undecided, claimed, listed,
            .inr ⟨reason, Function.update_self _ _ _⟩⟩

theorem fulfil (sound : Sound strict ids s) {paired : PairedClient}
    (present : s.entries requestId = some entry)
    (flying : s.inFlight requestId = some (.minted paired)) :
    Sound strict ids
      (((s.notify requestId (.settled .allowed)).setInFlight requestId
        none).notify requestId .approveFulfilled) := by
  have label := sound.labelled requestId entry present
  subst label
  obtain ⟨token, delivered, life, approved, held, collected⟩ :=
    sound.phase_minted present flying
  apply sound.move entry (sound.mem_ids present)
    (((OnlyAt.notify s entry.requestId (.settled .allowed)).trans
      (OnlyAt.setInFlight _ entry.requestId none)).trans
      (OnlyAt.notify _ entry.requestId .approveFulfilled))
  · exact present
  · rfl
  · intro handle other _ running
    exact running
  · intro handle running
    have busy : entry.status = .pending → entry.claimed = true := by
      rw [approved]
      intro contradiction
      cases contradiction
    exact absurd running (sound.noTimer present busy handle)
  · intro _ undecided
    rw [approved] at undecided
    cases undecided
  · have before : ((s.notify entry.requestId
        (.settled .allowed)).setInFlight entry.requestId none).history
          entry.requestId =
        s.history entry.requestId ++ [.settled .allowed] :=
      history_notify s entry.requestId (.settled .allowed)
    rw [history_notify, before]
    exact life.settle
  · refine ⟨approved, held, collected, ?_, ?_⟩
    · intro _
      exact Function.update_self _ _ _
    · intro contradiction
      cases contradiction

/-- After a failed mint the request is plainly pending again, its timer
re-armed. -/
theorem release (sound : Sound strict ids s) {reason : String}
    (present : s.entries requestId = some entry)
    (flying : s.inFlight requestId = some (.failed reason)) :
    Sound strict ids
      ((((s.armTimer requestId).put
        { entry with
          claimed := false
          timer := s.nextTimer }).setInFlight requestId none).notify requestId
        .approveRejected) := by
  have label := sound.labelled requestId entry present
  subst label
  obtain ⟨life, undecided, claimed, listed⟩ :=
    sound.phase_minting present (.inr ⟨reason, flying⟩)
  let rearmed : PendingRequest :=
    { entry with
      claimed := false
      timer := s.nextTimer }
  apply sound.move rearmed (sound.mem_ids present)
    ((((OnlyAt.armTimer s entry.requestId).trans
      (OnlyAt.put _ rearmed)).trans
      (OnlyAt.setInFlight _ entry.requestId none)).trans
      (OnlyAt.notify _ entry.requestId .approveRejected))
  · exact Function.update_self _ _ _
  · rfl
  · intro handle other different running
    exact armTimer_timers different running
  · intro handle running
    refine ⟨?_, undecided, rfl⟩
    by_cases same : handle = s.nextTimer
    · exact same.symm
    · have before : s.timers handle = some entry.requestId :=
        (Function.update_of_ne same _ _).symm.trans running
      exact absurd before (sound.noTimer present (fun _ => claimed) handle)
  · intro _ _
    exact listed
  · rw [history_notify]
    exact life.reject
  · exact ⟨undecided, rfl, Function.update_self _ _ _⟩

theorem approveResumes (sound : Sound strict ids s) (requestId : RequestId) :
    Sound strict ids (s.approveResumes requestId).2 := by
  unfold DeviceCodeService.approveResumes
  split
  case h_1 paired entry flying present => exact sound.fulfil present flying
  case h_2 reason entry flying present =>
    obtain ⟨-, undecided, -⟩ :=
      sound.phase_minting present (.inr ⟨reason, flying⟩)
    rw [if_pos undecided]
    exact sound.release present flying
  case h_3 => exact sound

end Sound

end Motrix.Bridge.DeviceCode
