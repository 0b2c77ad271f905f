import Mathlib.Data.List.Basic
import Mathlib.Logic.Function.Basic

/-!
# Device-code pairing

A client without a socket asks for a code, the user decides in the
application, and the client polls for the outcome.  An approval awaits the
pairing service while polls, denials, expiries and further approvals go on, so
its synchronous prefix, the end of the mint and its continuation are three
steps.  What the lifecycle hooks, the callers and the pollers are told is
recorded in a log.
-/

namespace Motrix.Bridge

inductive MdxpErrorCode where
  | rateLimited
  | resourceUnavailable
  deriving DecidableEq, Repr

structure MdxpError where
  code : MdxpErrorCode
  message : String
  appCode : String
  deriving DecidableEq, Repr

structure PairedClient where
  identity : String
  token : String
  name : String
  pairedAt : Int
  lastActiveAt : Option Int
  deriving DecidableEq, Repr

namespace DeviceCode

abbrev RequestId := String

/-- What `setTimeout` returns; handles are never reused. -/
abbrev TimerHandle := Nat

inductive DeviceCodeStatus where
  | pending
  | approved
  | denied
  | expired
  deriving DecidableEq, Repr

structure DeviceCodeServiceOptions where
  ttlMs : Int
  rateLimitMax : Nat
  rateLimitWindowMs : Int
  deriving DecidableEq, Repr

def defaultOptions : DeviceCodeServiceOptions where
  ttlMs := 5 * 60000
  rateLimitMax := 10
  rateLimitWindowMs := 60000

def collectGraceMs : Int := 60000

structure PendingRequest where
  requestId : RequestId
  userCode : String
  clientName : String
  clientVersion : String
  deviceId : String
  status : DeviceCodeStatus
  claimed : Bool
  token : Option String
  createdAt : Int
  expiresAt : Int
  timer : TimerHandle
  deriving DecidableEq, Repr

/-- The promise held in `inFlight`, until the continuation of `approve` that
awaits it has run. -/
inductive InFlight where
  | minting
  | minted (paired : PairedClient)
  | failed (reason : String)
  deriving DecidableEq, Repr

inductive SettledOutcome where
  | allowed
  | denied
  deriving DecidableEq, Repr

/-- What becomes known outside about one request: the hooks `settled` and
`expired`, the results of `approve`, `deny` and `poll`, and the token the
pairing service has issued. -/
inductive Notice where
  | approveStarted
  | minted (token : String)
  | approveRejected
  | settled (outcome : SettledOutcome)
  | approveFulfilled
  | denyLanded
  | delivered (token : String)
  | expired
  deriving DecidableEq, Repr

/-- The service.  `entries` holds the request objects, which closures keep
after their key has left the map `pending`. -/
structure DeviceCodeService where
  entries : RequestId → Option PendingRequest
  pending : List RequestId
  inFlight : RequestId → Option InFlight
  requestTimes : List Int
  timers : TimerHandle → Option RequestId
  nextTimer : TimerHandle
  log : List (RequestId × Notice)

namespace DeviceCodeService

def initial : DeviceCodeService where
  entries := fun _ => none
  pending := []
  inFlight := fun _ => none
  requestTimes := []
  timers := fun _ => none
  nextTimer := 0
  log := []

/-- `this.pending.get(requestId)` -/
def get (s : DeviceCodeService) (requestId : RequestId) :
    Option PendingRequest :=
  if requestId ∈ s.pending then s.entries requestId else none

/-- Writes the fields of a request object. -/
def put (s : DeviceCodeService) (entry : PendingRequest) :
    DeviceCodeService :=
  { s with
    entries := Function.update s.entries entry.requestId (some entry) }

/-- `this.pending.delete(requestId)` -/
def delete (s : DeviceCodeService) (requestId : RequestId) :
    DeviceCodeService :=
  { s with pending := s.pending.filter fun key => key ≠ requestId }

def setInFlight (s : DeviceCodeService) (requestId : RequestId)
    (flight : Option InFlight) : DeviceCodeService :=
  { s with inFlight := Function.update s.inFlight requestId flight }

def notify (s : DeviceCodeService) (requestId : RequestId)
    (notice : Notice) : DeviceCodeService :=
  { s with log := s.log ++ [(requestId, notice)] }

/-- The handle that `armTimer` is about to return is `nextTimer`. -/
def armTimer (s : DeviceCodeService) (requestId : RequestId) :
    DeviceCodeService :=
  { s with
    timers := Function.update s.timers s.nextTimer (some requestId)
    nextTimer := s.nextTimer + 1 }

def clearTimer (s : DeviceCodeService) (entry : PendingRequest) :
    DeviceCodeService :=
  { s with timers := Function.update s.timers entry.timer none }

/-! ## Expiry -/

def expireEntry (s : DeviceCodeService) (entry : PendingRequest) :
    DeviceCodeService :=
  if entry.status ≠ .pending then s
  else
    ((s.clearTimer entry).put { entry with status := .expired }).notify
      entry.requestId .expired

def handleExpiry (s : DeviceCodeService) (requestId : RequestId) :
    DeviceCodeService :=
  match s.get requestId with
  | none => s
  | some entry => s.expireEntry entry

/-- An undecided request past its lifetime. -/
def PendingRequest.lapsed (entry : PendingRequest) (now : Int) : Bool :=
  entry.status == .pending && !entry.claimed && decide (now > entry.expiresAt)

def effectiveStatus (s : DeviceCodeService) (entry : PendingRequest)
    (now : Int) : DeviceCodeService × DeviceCodeStatus :=
  if PendingRequest.lapsed entry now then (s.expireEntry entry, .expired)
  else (s, entry.status)

/-- What `pruneExpired` does with one key of the map. -/
def pruneEntry (t : Int) (s : DeviceCodeService) (requestId : RequestId) :
    DeviceCodeService :=
  match s.get requestId with
  | none => s
  | some entry =>
      if t > entry.expiresAt then
        if (s.inFlight requestId).isSome then s
        else if entry.claimed ∧ t ≤ entry.expiresAt + collectGraceMs then s
        else (s.clearTimer entry).delete requestId
      else s

def pruneExpired (s : DeviceCodeService) (t : Int) : DeviceCodeService :=
  s.pending.foldl (pruneEntry t) s

/-! ## Requests -/

def rateLimitedError : MdxpError where
  code := .rateLimited
  message := "too many pairing requests; try again shortly"
  appCode := "pair.request.rateLimited"

def unavailableError (requestId : RequestId) : MdxpError where
  code := .resourceUnavailable
  message :=
    "pairing request not found or no longer pending: " ++ requestId
  appCode := "pair.request.unavailable"

def enforceRateLimit (options : DeviceCodeServiceOptions)
    (s : DeviceCodeService) (t : Int) :
    Except MdxpError Unit × DeviceCodeService :=
  let cutoff := t - options.rateLimitWindowMs
  let recent := s.requestTimes.filter fun ts => ts > cutoff
  if recent.length ≥ options.rateLimitMax then
    (.error rateLimitedError, { s with requestTimes := recent })
  else (.ok (), { s with requestTimes := recent ++ [t] })

def isDeviceHandleChar (character : Char) : Bool :=
  character.isAlphanum || character == '_' || character == '-'

/-- `/^[A-Za-z0-9_-]{16,64}$/` -/
def isDeviceHandle (deviceId : String) : Bool :=
  decide (16 ≤ deviceId.length ∧ deviceId.length ≤ 64) &&
    deviceId.toList.all isDeviceHandleChar

def resolveDeviceId (deviceId : Option String) (fresh : String) : String :=
  match deviceId with
  | some handle => if isDeviceHandle handle then handle else fresh
  | none => fresh

def userCodeAlphabet : List Char :=
  "ABCDEFGHJKLMNPQRSTUVWXYZ23456789".toList

/-- Two groups of four characters, picked by `randomInt`. -/
def makeUserCode (picks : Nat → Fin userCodeAlphabet.length) : String :=
  let group (start : Nat) : List Char :=
    (List.range 4).map fun offset => userCodeAlphabet.get (picks (start + offset))
  String.ofList (group 0 ++ '-' :: group 4)

/-- The arguments of `request` and the random values it draws. -/
structure PairRequest where
  clientName : String
  clientVersion : String
  deviceId : Option String
  requestId : RequestId
  freshDeviceId : String
  userCodePicks : Nat → Fin userCodeAlphabet.length

structure DeviceCodeRequestResult where
  requestId : RequestId
  userCode : String
  expiresAt : Int
  deriving DecidableEq, Repr

def request (options : DeviceCodeServiceOptions) (s : DeviceCodeService)
    (asked : PairRequest) (t : Int) :
    Except MdxpError DeviceCodeRequestResult × DeviceCodeService :=
  match (s.pruneExpired t).enforceRateLimit options t with
  | (.error limited, s) => (.error limited, s)
  | (.ok (), s) =>
      let entry : PendingRequest :=
        { requestId := asked.requestId
          userCode := makeUserCode asked.userCodePicks
          clientName := asked.clientName
          clientVersion := asked.clientVersion
          deviceId := resolveDeviceId asked.deviceId asked.freshDeviceId
          status := .pending
          claimed := false
          token := none
          createdAt := t
          expiresAt := t + options.ttlMs
          timer := s.nextTimer }
      let s := (s.armTimer asked.requestId).put entry
      (.ok
          { requestId := entry.requestId
            userCode := entry.userCode
            expiresAt := entry.expiresAt },
        { s with pending := s.pending ++ [asked.requestId] })

/-! ## Polls -/

structure DeviceCodePollResult where
  status : DeviceCodeStatus
  token : Option String
  deriving DecidableEq, Repr

/-- An empty token counts as none. -/
def PendingRequest.deliverable (entry : PendingRequest) : Option String :=
  entry.token.filter fun token => token ≠ ""

def poll (s : DeviceCodeService) (requestId : RequestId) (now : Int) :
    DeviceCodePollResult × DeviceCodeService :=
  match s.get requestId with
  | none => (⟨.expired, none⟩, s)
  | some entry =>
      match s.effectiveStatus entry now, PendingRequest.deliverable entry with
      | (s, .approved), some token =>
          (⟨.approved, some token⟩,
            ((s.clearTimer entry).delete requestId).notify requestId
              (.delivered token))
      | (s, status), _ => (⟨status, none⟩, s)

/-! ## Decisions -/

def requirePending (s : DeviceCodeService) (requestId : RequestId)
    (now : Int) : Except MdxpError PendingRequest × DeviceCodeService :=
  match s.get requestId with
  | none => (.error (unavailableError requestId), s)
  | some entry =>
      match s.effectiveStatus entry now with
      | (s, .pending) => (.ok entry, s)
      | (s, _) => (.error (unavailableError requestId), s)

/-- What a call of `approve` has done when it first yields. -/
inductive ApproveStart where
  | joined
  | unavailable (error : MdxpError)
  | started
  deriving DecidableEq, Repr

/-- `approve` up to its `await`. -/
def approve (s : DeviceCodeService) (requestId : RequestId) (now : Int) :
    ApproveStart × DeviceCodeService :=
  if (s.inFlight requestId).isSome then (.joined, s)
  else
    match s.requirePending requestId now with
    | (.error unavailable, s) => (.unavailable unavailable, s)
    | (.ok entry, s) =>
        (.started,
          (((s.clearTimer entry).put { entry with claimed := true }).setInFlight
            requestId (some .minting)).notify requestId .approveStarted)

/-- `issueToken` has settled and `mint` runs to its end. -/
def mint (s : DeviceCodeService) (requestId : RequestId)
    (issued : Except String PairedClient) : DeviceCodeService :=
  match s.inFlight requestId, s.entries requestId with
  | some .minting, some entry =>
      match issued with
      | .ok paired =>
          ((s.put
              { entry with
                status := .approved
                token := some paired.token }).setInFlight requestId
            (some (.minted paired))).notify requestId (.minted paired.token)
      | .error reason => s.setInFlight requestId (some (.failed reason))
  | _, _ => s

/-- `approve` after its `await`. -/
def approveResumes (s : DeviceCodeService) (requestId : RequestId) :
    Option (Except String PairedClient) × DeviceCodeService :=
  match s.inFlight requestId, s.entries requestId with
  | some (.minted paired), some _ =>
      (some (.ok paired),
        ((s.notify requestId (.settled .allowed)).setInFlight requestId
          none).notify requestId .approveFulfilled)
  | some (.failed reason), some entry =>
      let rearmed :=
        if entry.status = .pending then
          (s.armTimer requestId).put
            { entry with
              claimed := false
              timer := s.nextTimer }
        else s
      (some (.error reason),
        (rearmed.setInFlight requestId none).notify requestId .approveRejected)
  | _, _ => (none, s)

def deny (s : DeviceCodeService) (requestId : RequestId) (now : Int) :
    Bool × DeviceCodeService :=
  if (s.inFlight requestId).isSome then (false, s)
  else
    match s.get requestId with
    | none => (false, s)
    | some entry =>
        match s.effectiveStatus entry now with
        | (s, .pending) =>
            (true,
              ((((s.put { entry with status := .denied }).clearTimer
                entry).notify requestId (.settled .denied)).notify requestId
                .denyLanded))
        | (s, _) => (false, s)

/-! ## The approval inbox -/

structure PendingPairRequestInfo where
  requestId : RequestId
  userCode : String
  clientName : String
  clientVersion : String
  createdAt : Int
  expiresAt : Int
  deriving DecidableEq, Repr

def PendingRequest.info (entry : PendingRequest) : PendingPairRequestInfo where
  requestId := entry.requestId
  userCode := entry.userCode
  clientName := entry.clientName
  clientVersion := entry.clientVersion
  createdAt := entry.createdAt
  expiresAt := entry.expiresAt

/-- The times are part of the entries of `listPending` only. -/
def getPending (s : DeviceCodeService) (requestId : RequestId) (now : Int) :
    Option PendingPairRequestInfo × DeviceCodeService :=
  match s.get requestId with
  | none => (none, s)
  | some entry =>
      match s.effectiveStatus entry now with
      | (s, .pending) => (some (PendingRequest.info entry), s)
      | (s, _) => (none, s)

/-- Each entry is judged at its own reading of the clock. -/
def listPending (now : RequestId → Int) (s : DeviceCodeService) :
    List RequestId → List PendingPairRequestInfo × DeviceCodeService
  | [] => ([], s)
  | requestId :: rest =>
      match s.getPending requestId (now requestId) with
      | (none, s) => listPending now s rest
      | (some info, s) =>
          let (others, s) := listPending now s rest
          (info :: others, s)

end DeviceCodeService

/-! ## Runs -/

inductive Event where
  | request (asked : DeviceCodeService.PairRequest) (now : Int)
  | poll (requestId : RequestId) (now : Int)
  | approve (requestId : RequestId) (now : Int)
  | issueTokenSettles (requestId : RequestId)
      (issued : Except String PairedClient)
  | approveResumes (requestId : RequestId)
  | deny (requestId : RequestId) (now : Int)
  | getPending (requestId : RequestId) (now : Int)
  | listPending (now : RequestId → Int)
  | timerFires (handle : TimerHandle)

/-- A timer that was cleared does not fire any more. -/
def DeviceCodeService.timerFires (s : DeviceCodeService)
    (handle : TimerHandle) : DeviceCodeService :=
  match s.timers handle with
  | none => s
  | some requestId =>
      { s with timers := Function.update s.timers handle none }.handleExpiry
        requestId

def step (options : DeviceCodeServiceOptions) (s : DeviceCodeService) :
    Event → DeviceCodeService
  | .request asked now => (s.request options asked now).2
  | .poll requestId now => (s.poll requestId now).2
  | .approve requestId now => (s.approve requestId now).2
  | .issueTokenSettles requestId issued => s.mint requestId issued
  | .approveResumes requestId => (s.approveResumes requestId).2
  | .deny requestId now => (s.deny requestId now).2
  | .getPending requestId now => (s.getPending requestId now).2
  | .listPending now => (s.listPending now s.pending).2
  | .timerFires handle => s.timerFires handle

def run (options : DeviceCodeServiceOptions) (events : List Event) :
    DeviceCodeService :=
  events.foldl (step options) .initial

/-- The ids that calls of `request` draw. -/
def requestedIds (events : List Event) : List RequestId :=
  events.filterMap fun event =>
    match event with
    | .request asked _ => some asked.requestId
    | _ => none

/-- No request id is drawn twice. -/
def FreshIds (events : List Event) : Prop :=
  (requestedIds events).Nodup

end DeviceCode

end Motrix.Bridge

/-!
# The life of a device-code request

Seen from outside a request is pending, is being approved, or has reached one
of its ends.  `Lifecycle` says which notices lead from one phase to the next;
every request object of the service is in some phase that its notices lead to.
-/

namespace Motrix.Bridge.DeviceCode

/-! ## Phases -/

inductive Phase where
  | pending
  | minting
  | approved (token : String) (delivered settled : Bool)
  | denied
  | expired
  deriving DecidableEq, Repr

/-- The notices of one request, and the phase they lead to. -/
inductive Lifecycle : List Notice → Phase → Prop where
  | requested : Lifecycle [] .pending
  | approve {notices : List Notice} :
      Lifecycle notices .pending →
      Lifecycle (notices ++ [.approveStarted]) .minting
  | reject {notices : List Notice} :
      Lifecycle notices .minting →
      Lifecycle (notices ++ [.approveRejected]) .pending
  | mint {notices : List Notice} {token : String} :
      Lifecycle notices .minting →
      Lifecycle (notices ++ [.minted token]) (.approved token false false)
  | deliver {notices : List Notice} {token : String} {settled : Bool} :
      Lifecycle notices (.approved token false settled) →
      Lifecycle (notices ++ [.delivered token]) (.approved token true settled)
  | settle {notices : List Notice} {token : String} {delivered : Bool} :
      Lifecycle notices (.approved token delivered false) →
      Lifecycle (notices ++ [.settled .allowed] ++ [.approveFulfilled])
        (.approved token delivered true)
  | deny {notices : List Notice} :
      Lifecycle notices .pending →
      Lifecycle (notices ++ [.settled .denied] ++ [.denyLanded]) .denied
  | expire {notices : List Notice} :
      Lifecycle notices .pending →
      Lifecycle (notices ++ [.expired]) .expired

/-- Only attempts to approve, none of which has minted. -/
def Undecided (notices : List Notice) : Prop :=
  ∀ notice ∈ notices, notice = .approveStarted ∨ notice = .approveRejected

theorem Undecided.concat {notices : List Notice} {notice : Notice}
    (undecided : Undecided notices)
    (attempt : notice = .approveStarted ∨ notice = .approveRejected) :
    Undecided (notices ++ [notice]) := by
  intro other member
  rcases List.mem_append.mp member with earlier | last
  · exact undecided other earlier
  · rw [List.mem_singleton.mp last]
    exact attempt

/-- What follows the mint. -/
inductive Collected (token : String) : Bool → Bool → List Notice → Prop where
  | none : Collected token false false []
  | delivered : Collected token true false [.delivered token]
  | settled : Collected token false true
      [.settled .allowed, .approveFulfilled]
  | deliveredFirst : Collected token true true
      [.delivered token, .settled .allowed, .approveFulfilled]
  | settledFirst : Collected token true true
      [.settled .allowed, .approveFulfilled, .delivered token]

/-- The notices of a request in the given phase. -/
def Phase.Explains (notices : List Notice) : Phase → Prop
  | .pending => Undecided notices
  | .minting => ∃ attempts, Undecided attempts ∧
      notices = attempts ++ [.approveStarted]
  | .approved token delivered settled => ∃ attempts after,
      Undecided attempts ∧ Collected token delivered settled after ∧
        notices = attempts ++ .approveStarted :: .minted token :: after
  | .denied => ∃ attempts, Undecided attempts ∧
      notices = attempts ++ [.settled .denied, .denyLanded]
  | .expired => ∃ attempts, Undecided attempts ∧
      notices = attempts ++ [.expired]

theorem Lifecycle.explains {notices : List Notice} {phase : Phase}
    (life : Lifecycle notices phase) : phase.Explains notices := by
  induction life with
  | requested =>
      intro notice member
      cases member
  | approve _ induction => exact ⟨_, induction, rfl⟩
  | reject _ induction =>
      obtain ⟨attempts, undecided, rfl⟩ := induction
      apply Undecided.concat
      · exact undecided.concat (.inl rfl)
      · exact .inr rfl
  | mint _ induction =>
      obtain ⟨attempts, undecided, rfl⟩ := induction
      exact ⟨attempts, [], undecided, .none, by simp⟩
  | @deliver _ token settled _ induction =>
      obtain ⟨attempts, after, undecided, collected, rfl⟩ := induction
      refine ⟨attempts, after ++ [.delivered token], undecided, ?_, by simp⟩
      cases collected with
      | none => exact .delivered
      | settled => exact .settledFirst
  | @settle _ token delivered _ induction =>
      obtain ⟨attempts, after, undecided, collected, rfl⟩ := induction
      refine ⟨attempts, after ++ [.settled .allowed, .approveFulfilled],
        undecided, ?_, by simp⟩
      cases collected with
      | none => exact .settled
      | delivered => exact .deliveredFirst
  | deny _ induction => exact ⟨_, induction, by simp⟩
  | expire _ induction => exact ⟨_, induction, rfl⟩

/-! ## What the notices of a request add up to -/

def Notice.isTerminal : Notice → Bool
  | .settled _ | .expired => true
  | _ => false

def Notice.isMint : Notice → Bool
  | .minted _ => true
  | _ => false

def Notice.isDelivery : Notice → Bool
  | .delivered _ => true
  | _ => false

/-- Phases whose terminal notice has gone out. -/
def Phase.isOver : Phase → Bool
  | .pending | .minting | .approved _ _ false => false
  | .approved _ _ true | .denied | .expired => true

theorem Undecided.countP_eq_zero {notices : List Notice}
    (undecided : Undecided notices) {counted : Notice → Bool}
    (started : counted .approveStarted = false)
    (rejected : counted .approveRejected = false) :
    notices.countP counted = 0 := by
  rw [List.countP_eq_zero]
  intro notice member marked
  rcases undecided notice member with rfl | rfl
  · rw [started] at marked
    cases marked
  · rw [rejected] at marked
    cases marked

/-- A request has its one terminal notice exactly when it is over. -/
theorem Lifecycle.terminals {notices : List Notice} {phase : Phase}
    (life : Lifecycle notices phase) :
    notices.countP Notice.isTerminal = if phase.isOver then 1 else 0 := by
  have explained := life.explains
  cases phase with
  | pending => exact explained.countP_eq_zero rfl rfl
  | minting =>
      obtain ⟨attempts, undecided, rfl⟩ := explained
      rw [List.countP_append, undecided.countP_eq_zero rfl rfl]
      rfl
  | approved token delivered settled =>
      obtain ⟨attempts, after, undecided, collected, rfl⟩ := explained
      rw [List.countP_append, undecided.countP_eq_zero rfl rfl]
      cases collected <;> rfl
  | denied =>
      obtain ⟨attempts, undecided, rfl⟩ := explained
      rw [List.countP_append, undecided.countP_eq_zero rfl rfl]
      rfl
  | expired =>
      obtain ⟨attempts, undecided, rfl⟩ := explained
      rw [List.countP_append, undecided.countP_eq_zero rfl rfl]
      rfl

/-- One token, handed out once, and only where an approval has minted it and
neither a denial nor the lifetime came in between. -/
structure SingleDelivery (notices : List Notice) : Prop where
  mintedOnce : notices.countP Notice.isMint ≤ 1
  deliveredOnce : notices.countP Notice.isDelivery ≤ 1
  afterApproval : ∀ before token after,
    notices = before ++ .delivered token :: after →
      ∃ first second, before = first ++ .approveStarted :: second ∧
        .minted token ∈ second ∧ .settled .denied ∉ notices ∧
        .expired ∉ notices
  exclusive : ∀ token, .minted token ∈ notices ∨
    .approveFulfilled ∈ notices → .denyLanded ∉ notices

theorem Undecided.absent {notices : List Notice}
    (undecided : Undecided notices) {notice : Notice}
    (notStarted : notice ≠ .approveStarted)
    (notRejected : notice ≠ .approveRejected) : notice ∉ notices := by
  intro member
  rcases undecided notice member with same | same
  · exact notStarted same
  · exact notRejected same

/-- A delivery comes after the notices `approveStarted` and `minted` that every
approved request has. -/
theorem delivered_afterMint {attempts after before rest : List Notice}
    {token other : String} (undecided : Undecided attempts)
    (split : attempts ++ .approveStarted :: .minted token :: after =
      before ++ .delivered other :: rest) :
    ∃ middle, before =
      attempts ++ .approveStarted :: .minted token :: middle ∧
        after = middle ++ .delivered other :: rest := by
  rcases List.append_eq_append_iff.mp split with
    ⟨front, rfl, tail⟩ | ⟨front, rfl, tail⟩
  · cases front with
    | nil => cases tail
    | cons first front =>
        cases front with
        | nil => simp at tail
        | cons second middle =>
            simp only [List.cons_append, List.cons.injEq] at tail
            obtain ⟨rfl, rfl, rfl⟩ := tail
            exact ⟨middle, rfl, rfl⟩
  · cases front with
    | nil => cases tail
    | cons first front =>
        simp only [List.cons_append, List.cons.injEq] at tail
        obtain ⟨rfl, -⟩ := tail
        have absent : .delivered other ∉ before ++ .delivered other :: front :=
          undecided.absent (by simp) (by simp)
        exact absurd (by simp) absent

theorem Collected.deliveries {token : String} {delivered settled : Bool}
    {after : List Notice} (collected : Collected token delivered settled after) :
    after.countP Notice.isDelivery ≤ 1 ∧ after.countP Notice.isMint = 0 ∧
      (∀ other, .delivered other ∈ after → other = token) ∧
      .settled .denied ∉ after ∧ .expired ∉ after ∧ .denyLanded ∉ after := by
  cases collected <;> simp [List.countP_cons, Notice.isDelivery, Notice.isMint]

/-- What only an approved request is told. -/
def Notice.ofApproval : Notice → Bool
  | .minted _ | .delivered _ | .approveFulfilled => true
  | _ => false

theorem Undecided.noApproval {attempts after : List Notice}
    (undecided : Undecided attempts)
    (rest : ∀ notice ∈ after, notice.ofApproval = false) :
    ∀ notice ∈ attempts ++ after, notice.ofApproval = false := by
  intro notice member
  rcases List.mem_append.mp member with attempt | later
  · rcases undecided notice attempt with rfl | rfl
    · rfl
    · rfl
  · exact rest notice later

theorem SingleDelivery.of_noApproval {notices : List Notice}
    (none : ∀ notice ∈ notices, notice.ofApproval = false) :
    SingleDelivery notices where
  mintedOnce := by
    have zero : notices.countP Notice.isMint = 0 := by
      rw [List.countP_eq_zero]
      intro notice member marked
      have absent := none notice member
      cases notice <;> simp_all [Notice.isMint, Notice.ofApproval]
    omega
  deliveredOnce := by
    have zero : notices.countP Notice.isDelivery = 0 := by
      rw [List.countP_eq_zero]
      intro notice member marked
      have absent := none notice member
      cases notice <;> simp_all [Notice.isDelivery, Notice.ofApproval]
    omega
  afterApproval := by
    intro before token after split
    have absent := none (.delivered token) (by simp [split])
    cases absent
  exclusive := by
    rintro token (minted | fulfilled)
    · cases none _ minted
    · cases none _ fulfilled

theorem SingleDelivery.of_approved {attempts after : List Notice}
    {token : String} {delivered settled : Bool}
    (undecided : Undecided attempts)
    (collected : Collected token delivered settled after) :
    SingleDelivery
      (attempts ++ .approveStarted :: .minted token :: after) := by
  obtain ⟨deliveries, mints, tokens, notDenied, notExpired, notLanded⟩ :=
    collected.deliveries
  have denied : .settled .denied ∉
      attempts ++ .approveStarted :: .minted token :: after := by
    have before : .settled .denied ∉ attempts :=
      undecided.absent (by simp) (by simp)
    simp [before, notDenied]
  have expired : .expired ∉
      attempts ++ .approveStarted :: .minted token :: after := by
    have before : .expired ∉ attempts :=
      undecided.absent (by simp) (by simp)
    simp [before, notExpired]
  have landed : .denyLanded ∉
      attempts ++ .approveStarted :: .minted token :: after := by
    have before : .denyLanded ∉ attempts :=
      undecided.absent (by simp) (by simp)
    simp [before, notLanded]
  constructor
  · rw [List.countP_append, undecided.countP_eq_zero rfl rfl]
    simp [List.countP_cons, Notice.isMint, mints]
  · rw [List.countP_append, undecided.countP_eq_zero rfl rfl]
    simpa [List.countP_cons, Notice.isDelivery] using deliveries
  · intro before other rest split
    obtain ⟨middle, rfl, rfl⟩ := delivered_afterMint undecided split
    have same : other = token := tokens other (by simp)
    subst same
    exact ⟨attempts, .minted other :: middle, rfl, List.mem_cons_self, denied,
      expired⟩
  · intro other _
    exact landed

theorem Lifecycle.singleDelivery {notices : List Notice} {phase : Phase}
    (life : Lifecycle notices phase) : SingleDelivery notices := by
  have explained := life.explains
  cases phase with
  | pending =>
      apply SingleDelivery.of_noApproval
      intro notice member
      rcases explained notice member with rfl | rfl
      · rfl
      · rfl
  | minting =>
      obtain ⟨attempts, undecided, rfl⟩ := explained
      apply SingleDelivery.of_noApproval
      apply undecided.noApproval
      simp [Notice.ofApproval]
  | approved token delivered settled =>
      obtain ⟨attempts, after, undecided, collected, rfl⟩ := explained
      exact SingleDelivery.of_approved undecided collected
  | denied =>
      obtain ⟨attempts, undecided, rfl⟩ := explained
      apply SingleDelivery.of_noApproval
      apply undecided.noApproval
      simp [Notice.ofApproval]
  | expired =>
      obtain ⟨attempts, undecided, rfl⟩ := explained
      apply SingleDelivery.of_noApproval
      apply undecided.noApproval
      simp [Notice.ofApproval]

end Motrix.Bridge.DeviceCode
