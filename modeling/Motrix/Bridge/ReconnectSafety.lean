import Motrix.Bridge.CredentialStore
import Motrix.Bridge.Envelope
import Motrix.Bridge.Transcript
import Motrix.Lib.Except
import Motrix.Lib.Trace

/-!
# Reconnect sessions

A returning extension answers one challenge.  The handler of its response
stops at up to three promises: the account admission, the durable promotion of
a provisional credential and the binding of a Safari installation.  Between
two of them it runs without interruption; frames, a disposal and the settling
of a promise arrive in any order.

The log records what the session sent and what it was answered.
-/

namespace Motrix.Bridge

open Motrix.Lib

def reconnectDeadlineMs : Int := 10000
def challengeBytes : Nat := 32
def dummyMutualKey : Bytes := List.replicate 32 0
def safariExtensionId : String := "app.motrix.safari.extension"

structure SafariTicketContext where
  localToken : String
  serverGeneration : String

/-- `authorizes` and `bindsSafari` say whether the optional callbacks are
there. -/
structure ReconnectDeps where
  verifiedOrigin : String
  browser : Browser
  instanceId : String
  safariTicketContext : Option SafariTicketContext
  authorizes : Bool
  bindsSafari : Bool

inductive ReconnectState where
  | awaitingResponse
  | processing
  | authenticated
  | closed
  deriving DecidableEq, Repr

inductive ReconnectCloseReason where
  | error (code : PairErrorCode)
  | reconnectChallengeInvalid
  | reconnectPromoteFailed
  | reconnectPromotedCredentialMissing
  | reconnectAcceptInvalid
  deriving DecidableEq, Repr

inductive ReconnectEntry where
  | challenged (challenge : Bytes) (deadlineAt : Int)
  | received (response : ReconnectResponseFrame)
  | found (store : List StoredCredential) (storeClock : ClockReading)
      (credentialId : String) (answer : Option StoredCredential)
  | clock (now : Int)
  | authorized (credentialId : String)
  | promoted (credentialId : String)
  | bound (credentialId installationKey : String)
  | pairError (code : PairErrorCode)
  | accept (mac : Bytes)
  | authenticated (credentialId : String) (sealer : EnvelopeSealer)
      (opener : EnvelopeOpener)
  | closed (reason : ReconnectCloseReason)
  | disposed

/-- The locals of the handler that outlive a promise. -/
structure ReconnectExchange where
  response : ReconnectResponseFrame
  credential : StoredCredential
  rt : Bytes
  key : Bytes

inductive ReconnectAwait where
  | authorizeCredential (exchange : ReconnectExchange)
  | promoteOnReconnect (exchange : ReconnectExchange)
  | bindSafariInstallation (exchange : ReconnectExchange)
      (authenticated : StoredCredential) (resume : SafariResume)

structure ReconnectSession where
  state : ReconnectState
  challengeS : Option Bytes
  deadlineAt : Int
  awaiting : List ReconnectAwait
  log : List ReconnectEntry

/-- What the handler is answered until it stops: the store and the shared
replay cache at that moment, its clock readings in order, and whether
`sendText` returns. -/
structure ReconnectAnswers where
  store : List StoredCredential
  storeClock : ClockReading
  replay : TicketReplayCache
  now : Int
  ticketNow : Int
  sendNow : Int
  written : Bool

inductive ReconnectEvent where
  | text (body : Option Json) (byteLength : Nat)
  | settled (index : Nat) (resolved : Bool)
  | dispose

/-! ## Checks -/

section Checks

variable (deps : ReconnectDeps) (crypto : HandshakeCrypto)

/-- `RT`, with a Safari resume bound into it. -/
def reconnectTranscript (response : ReconnectResponseFrame) : Encoding := do
  let rt ← buildRT mbp1ProtocolVersion response.credentialId
    deps.browser.text deps.verifiedOrigin deps.instanceId
  match response.safariResume with
  | none => return rt
  | some resume =>
      bindSafariResume crypto rt resume.installationKey.bytes resume.nmTicket

def mutualKey : Option StoredCredential → Encoding
  | none => .ok dummyMutualKey
  | some credential => fromBase64Url credential.mutualKeyB64

def verifyClientMac (key s : Bytes) (response : ReconnectResponseFrame)
    (rt : Bytes) : Bool :=
  reconnectMacClient crypto key s response.clientNonce.bytes rt =
    response.mac.bytes

def matchesLivePrincipal (credential : StoredCredential) : Bool :=
  credential.principal.browser = deps.browser &&
    credential.principal.verifiedOrigin = deps.verifiedOrigin

/-- The ticket row of a Safari resume whose origin changed. -/
def ticketAttestsSafari (replay : TicketReplayCache) (ticketNow : Int)
    (resume : SafariResume) : Bool :=
  match resume.nmTicket, deps.safariTicketContext with
  | some wire, some ctx =>
      match (verifyNmTicket crypto.toTicketCrypto wire
        { localToken := ctx.localToken
          serverGeneration := ctx.serverGeneration
          nowMs := ticketNow
          helloBrowser := Browser.safari.text
          helloClaimedExtensionId := safariExtensionId
          helloTicketBindingKey := some resume.installationKey.bytes }
        replay).1 with
      | .attested callerId _ => callerId = safariExtensionId
      | _ => false
  | _, _ => false

def resumeMatches (replay : TicketReplayCache) (ticketNow : Int)
    (resume : SafariResume) (credential : StoredCredential) : Bool :=
  match credential.principal.safariInstallationKey with
  | some bound => bound = resume.installationKey.text
  | none =>
      credential.principal.verifiedOrigin = deps.verifiedOrigin ||
        (credential.identity = .official &&
          ticketAttestsSafari deps crypto replay ticketNow resume)

def principalMatches (answers : ReconnectAnswers) (s rt : Bytes)
    (response : ReconnectResponseFrame) (credential : StoredCredential) :
    Bool :=
  match response.safariResume with
  | none =>
      matchesLivePrincipal deps credential &&
        credential.principal.safariInstallationKey.isNone
  | some resume =>
      deps.browser = .safari && credential.principal.browser = .safari &&
        verifySafariResume crypto resume.installationKey.bytes
          resume.proof.bytes s response.clientNonce.bytes rt &&
        resumeMatches deps crypto answers.replay answers.ticketNow resume
          credential

/-- The record a settled promise left behind is still the one that was
authenticated. -/
def sameAuthorization (current credential : StoredCredential) : Bool :=
  current.mutualKeyB64 = credential.mutualKeyB64 &&
    current.authorizationEpoch = credential.authorizationEpoch

end Checks

/-! ## The session -/

namespace ReconnectSession

variable (deps : ReconnectDeps) (crypto : HandshakeCrypto)
  (answers : ReconnectAnswers)

def note (session : ReconnectSession) (entry : ReconnectEntry) :
    ReconnectSession :=
  { session with log := session.log ++ [entry] }

def await (session : ReconnectSession) (promise : ReconnectAwait) :
    ReconnectSession :=
  { session with awaiting := session.awaiting ++ [promise] }

def terminate (session : ReconnectSession) (reason : ReconnectCloseReason) :
    ReconnectSession :=
  if session.state = .closed then session
  else
    { session with
      state := .closed
      challengeS := none
      log := session.log ++ [.closed reason] }

/-- When `sendText` throws, `terminate` is not reached. -/
def fail (session : ReconnectSession) (code : PairErrorCode) :
    ReconnectSession :=
  if answers.written then
    (session.note (.pairError code)).terminate (.error code)
  else session

def violation (session : ReconnectSession) : ReconnectSession :=
  session.fail answers .protocolViolation

def dispose (session : ReconnectSession) : ReconnectSession :=
  if session.state = .closed then session
  else
    { session with
      state := .closed
      challengeS := none
      log := session.log ++ [.disposed] }

/-- The challenge frame is valid exactly when `S` has its width. -/
def start (challenge : Bytes) (now : Int) : ReconnectSession :=
  let session : ReconnectSession :=
    { state := .awaitingResponse
      challengeS := some challenge
      deadlineAt := now + reconnectDeadlineMs
      awaiting := []
      log := [.challenged challenge (now + reconnectDeadlineMs)] }
  if challenge.length ≠ challengeBytes then
    session.terminate .reconnectChallengeInvalid
  else session

/-- The deadline check, the accept and the handover. -/
def sendAccept (exchange : ReconnectExchange)
    (authenticated : StoredCredential) (session : ReconnectSession) :
    ReconnectSession :=
  let session := session.note (.clock answers.sendNow)
  if answers.sendNow ≥ session.deadlineAt then
    session.fail answers .authFailed
  else
    match session.challengeS with
    | none => session
    | some s =>
        let c := exchange.response.clientNonce.bytes
        let mac := reconnectMacServer crypto exchange.key s c exchange.rt
        if mac.length ≠ macBytes then
          session.terminate .reconnectAcceptInvalid
        else if ¬ answers.written then session
        else
          let keys := reconnectTrafficKeys crypto exchange.key s c
          { session with
            state := .authenticated
            challengeS := none
            log := session.log ++ [.accept mac] ++
              [.authenticated authenticated.credentialId
                { key := keys.kS2C
                  dir := .s2c
                  seq := 0
                  blockCount := 0 }
                { key := keys.kC2S
                  dir := .c2s
                  seq := 0
                  blockCount := 0 }] }

def bindOrAccept (exchange : ReconnectExchange)
    (authenticated : StoredCredential) (session : ReconnectSession) :
    ReconnectSession :=
  match exchange.response.safariResume with
  | none => session.sendAccept crypto answers exchange authenticated
  | some resume =>
      if ¬ deps.bindsSafari then session.fail answers .authFailed
      else
        session.await (.bindSafariInstallation exchange authenticated resume)

def promoteOrBind (exchange : ReconnectExchange)
    (session : ReconnectSession) : ReconnectSession :=
  if exchange.credential.state = .provisional then
    session.await (.promoteOnReconnect exchange)
  else session.bindOrAccept deps crypto answers exchange exchange.credential

/-- `findForAuth` where the handler reads it; a throw rejects the handler and
leaves the session as it is. -/
def lookUp (credentialId : String)
    (next : Option StoredCredential → ReconnectSession → ReconnectSession)
    (session : ReconnectSession) : ReconnectSession :=
  match findForAuth answers.store credentialId answers.storeClock with
  | .error _ => session
  | .ok answer =>
      next answer (session.note
        (.found answers.store answers.storeClock credentialId answer))

/-- The continuation of `authorizeCredential`. -/
def afterAuthorize (exchange : ReconnectExchange)
    (session : ReconnectSession) : ReconnectSession :=
  if session.state ≠ .processing then session
  else
    session.lookUp answers exchange.credential.credentialId
      fun answer session =>
        match answer with
        | none => session.fail answers .authFailed
        | some current =>
            if ¬ sameAuthorization current exchange.credential ∨
                current.principal ≠ exchange.credential.principal then
              session.fail answers .authFailed
            else
              let session := session.note (.clock answers.now)
              if answers.now ≥ session.deadlineAt then
                session.fail answers .authFailed
              else session.promoteOrBind deps crypto answers exchange

/-- The continuation of `promoteOnReconnect`. -/
def afterPromote (exchange : ReconnectExchange)
    (session : ReconnectSession) : ReconnectSession :=
  if session.state ≠ .processing then session
  else
    session.lookUp answers exchange.credential.credentialId
      fun answer session =>
        match answer with
        | none => session.terminate .reconnectPromotedCredentialMissing
        | some promoted =>
            if promoted.principal ≠ exchange.credential.principal ∨
                promoted.mutualKeyB64 ≠ exchange.credential.mutualKeyB64 then
              session.fail answers .authFailed
            else session.bindOrAccept deps crypto answers exchange promoted

/-- The continuation of `bindSafariInstallation`. -/
def afterBind (exchange : ReconnectExchange)
    (authenticated : StoredCredential) (resume : SafariResume)
    (session : ReconnectSession) : ReconnectSession :=
  if session.state ≠ .processing then session
  else
    session.lookUp answers authenticated.credentialId fun answer session =>
      match answer with
      | none => session.fail answers .authFailed
      | some current =>
          if current.principal.safariInstallationKey ≠
                some resume.installationKey.text ∨
              ¬ sameAuthorization current authenticated then
            session.fail answers .authFailed
          else session.sendAccept crypto answers exchange current

def onReconnectResponse (body : Json) (session : ReconnectSession) :
    ReconnectSession :=
  match session.challengeS with
  | none => session.violation answers
  | some s =>
      if session.state ≠ .awaitingResponse then session.violation answers
      else
        let session := session.note (.clock answers.now)
        if answers.now ≥ session.deadlineAt then
          session.fail answers .authFailed
        else
          match reconnectResponseFrameSchema body with
          | none => session.violation answers
          | some response =>
              let session :=
                { session with state := .processing }.note
                  (.received response)
              session.lookUp answers response.credentialId
                fun answer session =>
                  match reconnectTranscript deps crypto response,
                      mutualKey answer with
                  | .ok rt, .ok key =>
                      let macOk := verifyClientMac crypto key s response rt
                      match answer with
                      | none => session.fail answers .authFailed
                      | some credential =>
                          if ¬ macOk ∨ ¬ principalMatches deps crypto answers
                              s rt response credential then
                            session.fail answers .authFailed
                          else
                            let exchange : ReconnectExchange :=
                              { response := response
                                credential := credential
                                rt := rt
                                key := key }
                            if deps.authorizes then
                              session.await (.authorizeCredential exchange)
                            else
                              session.promoteOrBind deps crypto answers
                                exchange
                  | _, _ => session.fail answers .authFailed

/-- `body` is the parsed text, `none` where `JSON.parse` throws. -/
def handleText (body : Option Json) (byteLength : Nat)
    (session : ReconnectSession) : ReconnectSession :=
  if session.state = .closed ∨ session.state = .authenticated then session
  else if byteLength > maxPreAuthFrameBytes then session.violation answers
  else
    match body with
    | none => session.violation answers
    | some value =>
        match frameEnvelopeSchema value with
        | some "reconnectResponse" =>
            session.onReconnectResponse deps crypto answers value
        | _ => session.violation answers

/-- A promise settles: its continuation runs to the next one. -/
def resume (promise : ReconnectAwait) (resolved : Bool)
    (session : ReconnectSession) : ReconnectSession :=
  match promise with
  | .authorizeCredential exchange =>
      if resolved then
        (session.note (.authorized exchange.credential.credentialId))
          |>.afterAuthorize deps crypto answers exchange
      else session.fail answers .authFailed
  | .promoteOnReconnect exchange =>
      if resolved then
        (session.note (.promoted exchange.credential.credentialId))
          |>.afterPromote deps crypto answers exchange
      else session.terminate .reconnectPromoteFailed
  | .bindSafariInstallation exchange authenticated resume =>
      if resolved then
        (session.note (.bound authenticated.credentialId
          resume.installationKey.text))
          |>.afterBind crypto answers exchange authenticated resume
      else session.fail answers .authFailed

def step (session : ReconnectSession)
    (event : ReconnectEvent × ReconnectAnswers) : ReconnectSession :=
  match event with
  | (.text body byteLength, answers) =>
      session.handleText deps crypto answers body byteLength
  | (.settled index resolved, answers) =>
      match session.awaiting[index]? with
      | none => session
      | some promise =>
          { session with awaiting := session.awaiting.eraseIdx index }.resume
            deps crypto answers promise resolved
  | (.dispose, _) => session.dispose

def run (session : ReconnectSession)
    (events : List (ReconnectEvent × ReconnectAnswers)) : ReconnectSession :=
  events.foldl (step deps crypto) session

end ReconnectSession

end Motrix.Bridge

/-!
# What an accepted reconnect rests on

An accept is sent at most once.  Everything it rests on stands in front of it
in the log of the same session: the verified response, the live credential,
the promotion of a provisional one, and a clock reading before the deadline.
-/

namespace Motrix.Bridge

open Motrix.Lib

namespace ReconnectEntry

def isAccept : ReconnectEntry → Bool
  | .accept _ => true
  | _ => false

/-- The session ended or handed its channel over. -/
def isFinal : ReconnectEntry → Bool
  | .accept _ => true
  | .authenticated _ _ _ => true
  | .closed _ => true
  | .disposed => true
  | _ => false

def isClock : ReconnectEntry → Bool
  | .clock _ => true
  | _ => false

end ReconnectEntry

/-! ## Evidence -/

section Evidence

variable (deps : ReconnectDeps) (crypto : HandshakeCrypto)

/-- The principal of the credential is the live one, or the Safari proof
verified and ties the installation to the credential. -/
def PrincipalProved (s rt : Bytes) (response : ReconnectResponseFrame)
    (credential : StoredCredential) : Prop :=
  match response.safariResume with
  | none =>
      credential.principal.browser = deps.browser ∧
      credential.principal.verifiedOrigin = deps.verifiedOrigin ∧
      credential.principal.safariInstallationKey = none
  | some resume =>
      deps.browser = .safari ∧ credential.principal.browser = .safari ∧
      verifySafariResume crypto resume.installationKey.bytes
        resume.proof.bytes s response.clientNonce.bytes rt = true ∧
      (credential.principal.safariInstallationKey =
          some resume.installationKey.text ∨
        credential.principal.safariInstallationKey = none ∧
          (credential.principal.verifiedOrigin = deps.verifiedOrigin ∨
            credential.identity = .official ∧ ∃ replay now,
              ticketAttestsSafari deps crypto replay now resume = true))

namespace ReconnectExchange

variable (exchange : ReconnectExchange)

/-- The response answers the challenge `s` under the key of the credential. -/
structure Authentic (s : Bytes) : Prop where
  key : fromBase64Url exchange.credential.mutualKeyB64 = .ok exchange.key
  transcript :
    reconnectTranscript deps crypto exchange.response = .ok exchange.rt
  mac :
    reconnectMacClient crypto exchange.key s
      exchange.response.clientNonce.bytes exchange.rt =
        exchange.response.mac.bytes
  principal :
    PrincipalProved deps crypto s exchange.rt exchange.response
      exchange.credential

/-- The response came, then the store answered with the credential. -/
def Looked (log : List ReconnectEntry) : Prop :=
  ∃ store storeClock,
    findForAuth store exchange.response.credentialId storeClock =
      .ok (some exchange.credential) ∧
    [.received exchange.response,
      .found store storeClock exchange.response.credentialId
        (some exchange.credential)].Sublist log

/-- A provisional credential was promoted after the store answered with it. -/
def Promoted (log : List ReconnectEntry) : Prop :=
  exchange.credential.state = .provisional →
    ∃ store storeClock,
      [.found store storeClock exchange.response.credentialId
        (some exchange.credential),
        .promoted exchange.credential.credentialId].Sublist log

/-- The store answered with the credential, under the same key, and since then
only the clock was read. -/
def Live (log : List ReconnectEntry) : Prop :=
  ∃ earlier store storeClock current reads,
    log = earlier ++
      .found store storeClock exchange.credential.credentialId
        (some current) :: reads ∧
    findForAuth store exchange.credential.credentialId storeClock =
      .ok (some current) ∧
    current.mutualKeyB64 = exchange.credential.mutualKeyB64 ∧
    ∀ entry ∈ reads, entry.isClock

/-- Carried over every promise. -/
def Verified (log : List ReconnectEntry) : Prop :=
  (∃ s deadlineAt, log.head? = some (.challenged s deadlineAt) ∧
    exchange.Authentic deps crypto s) ∧
  exchange.Looked log

end ReconnectExchange

/-- What has to stand in front of an accept. -/
def AcceptJustified (before : List ReconnectEntry) : Prop :=
  (∀ entry ∈ before, ¬ entry.isFinal) ∧
  ∃ exchange : ReconnectExchange, ∃ s deadlineAt now,
    before.head? = some (.challenged s deadlineAt) ∧
    exchange.Authentic deps crypto s ∧
    exchange.Looked before ∧ exchange.Promoted before ∧
    exchange.Live before ∧
    before.getLast? = some (.clock now) ∧ now < deadlineAt

def acceptGuard (before : List ReconnectEntry) (entry : ReconnectEntry) :
    Prop :=
  entry.isAccept → AcceptJustified deps crypto before

end Evidence

/-! ## Evidence is kept -/

section Kept

variable {deps : ReconnectDeps} {crypto : HandshakeCrypto}
  {exchange : ReconnectExchange} {log : List ReconnectEntry}

theorem head?_append_of_some {entry : ReconnectEntry}
    (first : log.head? = some entry) (more : List ReconnectEntry) :
    (log ++ more).head? = some entry := by
  rw [List.head?_append, first]
  rfl

namespace ReconnectExchange

theorem Looked.append (looked : exchange.Looked log)
    (more : List ReconnectEntry) : exchange.Looked (log ++ more) := by
  obtain ⟨store, storeClock, answer, order⟩ := looked
  exact ⟨store, storeClock, answer,
    order.trans (List.sublist_append_left log more)⟩

theorem Promoted.append (promoted : exchange.Promoted log)
    (more : List ReconnectEntry) : exchange.Promoted (log ++ more) := by
  intro provisional
  obtain ⟨store, storeClock, order⟩ := promoted provisional
  exact ⟨store, storeClock, order.trans (List.sublist_append_left log more)⟩

theorem Verified.append (verified : exchange.Verified deps crypto log)
    (more : List ReconnectEntry) :
    exchange.Verified deps crypto (log ++ more) := by
  obtain ⟨⟨s, deadlineAt, first, authentic⟩, looked⟩ := verified
  exact ⟨⟨s, deadlineAt, head?_append_of_some first more, authentic⟩,
    looked.append more⟩

/-- The promise of the promotion resolves after the store has answered. -/
theorem Looked.promoted (looked : exchange.Looked log) :
    exchange.Promoted
      (log ++ [.promoted exchange.credential.credentialId]) := by
  intro _
  obtain ⟨store, storeClock, -, order⟩ := looked
  refine ⟨store, storeClock, ?_⟩
  have found : [ReconnectEntry.found store storeClock
      exchange.response.credentialId (some exchange.credential)].Sublist log :=
    (List.sublist_cons_self _ _).trans order
  exact found.append (List.Sublist.refl _)

theorem Live.clock (live : exchange.Live log) (now : Int) :
    exchange.Live (log ++ [.clock now]) := by
  obtain ⟨earlier, store, storeClock, current, reads, split, answer, sameKey,
    clocks⟩ := live
  refine ⟨earlier, store, storeClock, current, reads ++ [.clock now], ?_,
    answer, sameKey, ?_⟩
  · rw [split]
    simp
  · intro entry member
    rcases List.mem_append.mp member with earlierRead | lastRead
    · exact clocks entry earlierRead
    · rw [List.mem_singleton.mp lastRead]
      rfl

theorem Live.found {store : List StoredCredential}
    {storeClock : ClockReading} {current : StoredCredential}
    (answer : findForAuth store exchange.credential.credentialId storeClock =
      .ok (some current))
    (sameKey : current.mutualKeyB64 = exchange.credential.mutualKeyB64) :
    exchange.Live (log ++ [.found store storeClock
      exchange.credential.credentialId (some current)]) :=
  ⟨log, store, storeClock, current, [], rfl, answer, sameKey,
    fun _ member => absurd member (List.not_mem_nil)⟩

end ReconnectExchange

end Kept

theorem findForAuth_credentialId {store : List StoredCredential}
    {credentialId : String} {storeClock : ClockReading}
    {credential : StoredCredential}
    (answer : findForAuth store credentialId storeClock =
      .ok (some credential)) :
    credential.credentialId = credentialId := by
  unfold findForAuth at answer
  by_cases valid : validCredentialId credentialId
  · simp only [valid, not_true, if_false] at answer
    cases located : findCredential store credentialId with
    | none => simp [located, pure_eq_ok] at answer
    | some found =>
        have named : found.credentialId = credentialId := by
          simpa using List.find?_some located
        by_cases committed : found.state = .committed
        · simp only [located, committed, if_true, pure_eq_ok,
            Option.some.injEq] at answer
          exact answer ▸ named
        · simp only [located, committed, if_false, bind_eq_ok] at answer
          obtain ⟨now, -, answer⟩ := answer
          split at answer
          · simp [pure_eq_ok] at answer
          · split at answer
            · simp only [pure_eq_ok, Option.some.injEq] at answer
              exact answer ▸ named
            · simp [pure_eq_ok] at answer
  · simp [valid, pure_eq_ok] at answer

theorem principalProved_of_matches {deps : ReconnectDeps}
    {crypto : HandshakeCrypto} {answers : ReconnectAnswers} {s rt : Bytes}
    {response : ReconnectResponseFrame} {credential : StoredCredential}
    (matched : principalMatches deps crypto answers s rt response
      credential = true) :
    PrincipalProved deps crypto s rt response credential := by
  unfold principalMatches at matched
  unfold PrincipalProved
  cases resumed : response.safariResume with
  | none =>
      simp only [resumed, matchesLivePrincipal, Bool.and_eq_true,
        decide_eq_true_eq, Option.isNone_iff_eq_none] at matched
      obtain ⟨⟨browser, origin⟩, unenrolled⟩ := matched
      exact ⟨browser, origin, unenrolled⟩
  | some resume =>
      simp only [resumed, Bool.and_eq_true, decide_eq_true_eq] at matched
      obtain ⟨⟨⟨live, stored⟩, proof⟩, tied⟩ := matched
      refine ⟨live, stored, proof, ?_⟩
      unfold resumeMatches at tied
      cases enrolled : credential.principal.safariInstallationKey with
      | some bound =>
          simp only [enrolled, decide_eq_true_eq] at tied
          exact .inl (congrArg some tied)
      | none =>
          simp only [enrolled, Bool.or_eq_true, Bool.and_eq_true,
            decide_eq_true_eq] at tied
          refine .inr ⟨rfl, tied.imp_right ?_⟩
          rintro ⟨official, attested⟩
          exact ⟨official, answers.replay, answers.ticketNow, attested⟩

/-! ## One step -/

/-- What a continuation may rely on when its promise settles. -/
def ReconnectAwait.Justified (deps : ReconnectDeps)
    (crypto : HandshakeCrypto) (log : List ReconnectEntry) :
    ReconnectAwait → Prop
  | .authorizeCredential exchange => exchange.Verified deps crypto log
  | .promoteOnReconnect exchange => exchange.Verified deps crypto log
  | .bindSafariInstallation exchange authenticated _ =>
      exchange.Verified deps crypto log ∧ exchange.Promoted log ∧
      authenticated.credentialId = exchange.credential.credentialId ∧
      authenticated.mutualKeyB64 = exchange.credential.mutualKeyB64

theorem ReconnectAwait.Justified.append {deps : ReconnectDeps}
    {crypto : HandshakeCrypto} {log : List ReconnectEntry}
    {promise : ReconnectAwait}
    (justified : promise.Justified deps crypto log)
    (more : List ReconnectEntry) :
    promise.Justified deps crypto (log ++ more) := by
  cases promise with
  | authorizeCredential exchange =>
      exact ReconnectExchange.Verified.append justified more
  | promoteOnReconnect exchange =>
      exact ReconnectExchange.Verified.append justified more
  | bindSafariInstallation exchange authenticated resume =>
      obtain ⟨verified, promoted, sameId, sameKey⟩ := justified
      exact ⟨verified.append more, promoted.append more, sameId, sameKey⟩

namespace ReconnectSession

def Running (session : ReconnectSession) : Prop :=
  session.state = .awaitingResponse ∨ session.state = .processing

structure Sound (deps : ReconnectDeps) (crypto : HandshakeCrypto)
    (session : ReconnectSession) : Prop where
  guarded : Guarded (acceptGuard deps crypto) session.log
  running : session.Running → ∀ entry ∈ session.log, ¬ entry.isFinal
  challenge : ∀ s, session.challengeS = some s →
    session.log.head? = some (.challenged s session.deadlineAt)
  awaits : ∀ promise ∈ session.awaiting,
    promise.Justified deps crypto session.log

variable {deps : ReconnectDeps} {crypto : HandshakeCrypto}
  {answers : ReconnectAnswers} {session : ReconnectSession}
  {exchange : ReconnectExchange}

namespace Sound

theorem note (sound : Sound deps crypto session) {entry : ReconnectEntry}
    (harmless : entry.isFinal = false) :
    Sound deps crypto (session.note entry) where
  guarded := by
    refine sound.guarded.concat ?_
    intro accepting
    cases entry <;> simp_all [ReconnectEntry.isAccept,
      ReconnectEntry.isFinal]
  running := by
    intro running chosen member
    rcases List.mem_append.mp member with earlier | last
    · exact sound.running running chosen earlier
    · rw [List.mem_singleton.mp last, harmless]
      exact Bool.false_ne_true
  challenge := fun s chosen =>
    head?_append_of_some (sound.challenge s chosen) _
  awaits := fun promise member => (sound.awaits promise member).append _

theorem await (sound : Sound deps crypto session) {promise : ReconnectAwait}
    (justified : promise.Justified deps crypto session.log) :
    Sound deps crypto (session.await promise) where
  guarded := sound.guarded
  running := sound.running
  challenge := sound.challenge
  awaits := by
    intro chosen member
    rcases List.mem_append.mp member with earlier | last
    · exact sound.awaits chosen earlier
    · rw [List.mem_singleton.mp last]
      exact justified

/-- A session that ends, whether closed by itself or disposed. -/
theorem finish (sound : Sound deps crypto session) {entry : ReconnectEntry}
    (unaccepting : entry.isAccept = false) :
    Sound deps crypto
      { session with
        state := .closed
        challengeS := none
        log := session.log ++ [entry] } where
  guarded := by
    refine sound.guarded.concat ?_
    intro accepting
    rw [unaccepting] at accepting
    exact absurd accepting Bool.false_ne_true
  running := by
    intro running
    rcases running with waiting | processing
    · cases waiting
    · cases processing
  challenge := fun s chosen => by cases chosen
  awaits := fun promise member => (sound.awaits promise member).append _

theorem terminate (sound : Sound deps crypto session)
    (reason : ReconnectCloseReason) :
    Sound deps crypto (session.terminate reason) := by
  unfold ReconnectSession.terminate
  split
  · exact sound
  · exact sound.finish rfl

theorem dispose (sound : Sound deps crypto session) :
    Sound deps crypto session.dispose := by
  unfold ReconnectSession.dispose
  split
  · exact sound
  · exact sound.finish rfl

theorem fail (sound : Sound deps crypto session) (code : PairErrorCode) :
    Sound deps crypto (session.fail answers code) := by
  unfold ReconnectSession.fail
  split
  · exact (sound.note rfl).terminate _
  · exact sound

theorem violation (sound : Sound deps crypto session) :
    Sound deps crypto (session.violation answers) :=
  sound.fail _

/-- Taking up a response moves a waiting session on. -/
theorem processing (sound : Sound deps crypto session)
    (waiting : session.state = .awaitingResponse) :
    Sound deps crypto { session with state := .processing } where
  guarded := sound.guarded
  running := fun _ => sound.running (.inl waiting)
  challenge := sound.challenge
  awaits := sound.awaits

/-- The accept itself: the evidence is complete and the deadline is ahead. -/
theorem sendAccept (sound : Sound deps crypto session)
    (processing : session.state = .processing)
    (verified : exchange.Verified deps crypto session.log)
    (promoted : exchange.Promoted session.log)
    (live : exchange.Live session.log) (authenticated : StoredCredential) :
    Sound deps crypto
      (session.sendAccept crypto answers exchange authenticated) := by
  have noted : Sound deps crypto (session.note (.clock answers.sendNow)) :=
    sound.note rfl
  unfold ReconnectSession.sendAccept
  by_cases late : answers.sendNow ≥
      (session.note (.clock answers.sendNow)).deadlineAt
  · simp only [late, if_true]
    exact noted.fail _
  · simp only [late, if_false]
    cases challenge : (session.note (.clock answers.sendNow)).challengeS with
    | none => exact noted
    | some s =>
        simp only
        split
        · exact noted.terminate _
        split
        · exact noted
        have first := noted.challenge s challenge
        have verified := verified.append [.clock answers.sendNow]
        obtain ⟨⟨s', deadlineAt, first', authentic⟩, looked⟩ := verified
        have same : s' = s ∧ deadlineAt =
            (session.note (.clock answers.sendNow)).deadlineAt := by
          have agree := first'.symm.trans first
          simpa using agree
        obtain ⟨rfl, rfl⟩ := same
        have justified : AcceptJustified deps crypto
            (session.note (.clock answers.sendNow)).log := by
          refine ⟨noted.running (.inr processing), exchange, s', _,
            answers.sendNow, first, authentic, looked, promoted.append _,
            live.clock _, ?_, lt_of_not_ge late⟩
          exact List.getLast?_concat
        exact
          { guarded := by
              refine (noted.guarded.concat fun _ => justified).concat ?_
              intro accepting
              exact absurd accepting Bool.false_ne_true
            running := by
              intro running
              rcases running with waiting | processing
              · cases waiting
              · cases processing
            challenge := fun s chosen => by cases chosen
            awaits := fun promise member => by
              simpa only [List.append_assoc] using
                (noted.awaits promise member).append _ }

theorem bindOrAccept (sound : Sound deps crypto session)
    (processing : session.state = .processing)
    (verified : exchange.Verified deps crypto session.log)
    (promoted : exchange.Promoted session.log)
    (live : exchange.Live session.log) {authenticated : StoredCredential}
    (sameId : authenticated.credentialId = exchange.credential.credentialId)
    (sameKey :
      authenticated.mutualKeyB64 = exchange.credential.mutualKeyB64) :
    Sound deps crypto
      (session.bindOrAccept deps crypto answers exchange authenticated) := by
  unfold ReconnectSession.bindOrAccept
  split
  · exact sound.sendAccept processing verified promoted live authenticated
  split
  · exact sound.fail _
  · exact sound.await ⟨verified, promoted, sameId, sameKey⟩

theorem promoteOrBind (sound : Sound deps crypto session)
    (processing : session.state = .processing)
    (verified : exchange.Verified deps crypto session.log)
    (live : exchange.Live session.log) :
    Sound deps crypto
      (session.promoteOrBind deps crypto answers exchange) := by
  unfold ReconnectSession.promoteOrBind
  split
  · exact sound.await verified
  · rename_i committed
    exact sound.bindOrAccept processing verified
      (fun provisional => absurd provisional committed) live rfl rfl

/-- A look-up either throws or is noted, and then `next` runs. -/
theorem lookUp (sound : Sound deps crypto session) {credentialId : String}
    {next : Option StoredCredential → ReconnectSession → ReconnectSession}
    (continued : ∀ answer,
      findForAuth answers.store credentialId answers.storeClock =
        .ok answer →
      Sound deps crypto (session.note (.found answers.store
        answers.storeClock credentialId answer)) →
      Sound deps crypto (next answer (session.note (.found answers.store
        answers.storeClock credentialId answer)))) :
    Sound deps crypto (session.lookUp answers credentialId next) := by
  unfold ReconnectSession.lookUp
  split
  · exact sound
  · rename_i answer found
    exact continued answer found (sound.note rfl)

theorem afterAuthorize (sound : Sound deps crypto session)
    (verified : exchange.Verified deps crypto session.log) :
    Sound deps crypto
      (session.afterAuthorize deps crypto answers exchange) := by
  unfold ReconnectSession.afterAuthorize
  split
  · exact sound
  rename_i processing
  refine sound.lookUp fun answer found noted => ?_
  cases answer with
  | none => exact noted.fail _
  | some current =>
      simp only
      split
      · exact noted.fail _
      rename_i same
      split
      · exact (noted.note rfl).fail _
      · have sameKey : current.mutualKeyB64 =
            exchange.credential.mutualKeyB64 := by
          simp only [sameAuthorization, Bool.and_eq_true, decide_eq_true_eq,
            not_or, not_not] at same
          exact same.1.1
        refine (noted.note rfl).promoteOrBind (not_not.mp processing)
          ((verified.append _).append _) ?_
        exact (ReconnectExchange.Live.found found sameKey).clock _

theorem afterPromote (sound : Sound deps crypto session)
    (verified : exchange.Verified deps crypto session.log)
    (promoted : exchange.Promoted session.log) :
    Sound deps crypto
      (session.afterPromote deps crypto answers exchange) := by
  unfold ReconnectSession.afterPromote
  split
  · exact sound
  rename_i processing
  refine sound.lookUp fun answer found noted => ?_
  cases answer with
  | none => exact noted.terminate _
  | some current =>
      simp only
      split
      · exact noted.fail _
      · rename_i same
        have sameKey : current.mutualKeyB64 =
            exchange.credential.mutualKeyB64 := by
          simp only [not_or, not_not] at same
          exact same.2
        exact noted.bindOrAccept (not_not.mp processing) (verified.append _)
          (promoted.append _) (ReconnectExchange.Live.found found sameKey)
          (findForAuth_credentialId found) sameKey

theorem afterBind (sound : Sound deps crypto session)
    (verified : exchange.Verified deps crypto session.log)
    (promoted : exchange.Promoted session.log)
    {authenticated : StoredCredential}
    (sameId : authenticated.credentialId = exchange.credential.credentialId)
    (sameKey :
      authenticated.mutualKeyB64 = exchange.credential.mutualKeyB64)
    (resume : SafariResume) :
    Sound deps crypto (session.afterBind crypto answers exchange
      authenticated resume) := by
  unfold ReconnectSession.afterBind
  split
  · exact sound
  rename_i processing
  refine sound.lookUp fun answer found noted => ?_
  cases answer with
  | none => exact noted.fail _
  | some current =>
      simp only
      split
      · exact noted.fail _
      · rename_i same
        have currentKey : current.mutualKeyB64 =
            exchange.credential.mutualKeyB64 := by
          simp only [sameAuthorization, Bool.and_eq_true, decide_eq_true_eq,
            not_or, not_not] at same
          exact same.2.1.trans sameKey
        refine noted.sendAccept (not_not.mp processing) (verified.append _)
          (promoted.append _) ?_ current
        rw [sameId] at found ⊢
        exact ReconnectExchange.Live.found found currentKey

theorem resume {promise : ReconnectAwait} (resolved : Bool)
    (sound : Sound deps crypto session)
    (justified : promise.Justified deps crypto session.log) :
    Sound deps crypto
      (session.resume deps crypto answers promise resolved) := by
  cases promise with
  | authorizeCredential exchange =>
      cases resolved with
      | false => exact sound.fail _
      | true =>
          exact (sound.note rfl).afterAuthorize
            (ReconnectExchange.Verified.append justified _)
  | promoteOnReconnect exchange =>
      cases resolved with
      | false => exact sound.terminate _
      | true =>
          exact (sound.note rfl).afterPromote
            (ReconnectExchange.Verified.append justified _)
            justified.2.promoted
  | bindSafariInstallation exchange authenticated resume =>
      obtain ⟨verified, promoted, sameId, sameKey⟩ := justified
      cases resolved with
      | false => exact sound.fail _
      | true =>
          exact (sound.note rfl).afterBind (verified.append _)
            (promoted.append _) sameId sameKey resume

theorem onReconnectResponse (body : Json)
    (sound : Sound deps crypto session) :
    Sound deps crypto
      (session.onReconnectResponse deps crypto answers body) := by
  unfold ReconnectSession.onReconnectResponse
  cases challenge : session.challengeS with
  | none => exact sound.violation
  | some s =>
      simp only
      split
      · exact sound.violation
      rename_i waiting
      split
      · exact (sound.note rfl).fail _
      cases parsed : reconnectResponseFrameSchema body with
      | none => exact (sound.note rfl).violation
      | some response =>
          simp only
          refine Sound.lookUp ?_ ?_
          · exact ((sound.note rfl).processing (not_not.mp waiting)).note rfl
          intro answer found noted
          have first := head?_append_of_some (sound.challenge s challenge)
            [.clock answers.now, .received response,
              .found answers.store answers.storeClock response.credentialId
                answer]
          cases transcript : reconnectTranscript deps crypto response with
          | error failure => exact noted.fail _
          | ok rt =>
              cases keyed : mutualKey answer with
              | error failure => exact noted.fail _
              | ok key =>
                  cases answer with
                  | none => exact noted.fail _
                  | some credential =>
                      simp only
                      split
                      · exact noted.fail _
                      rename_i matched
                      simp only [not_or, not_not] at matched
                      obtain ⟨macOk, principal⟩ := matched
                      have verified : ReconnectExchange.Verified deps crypto
                          ⟨response, credential, rt, key⟩
                          (session.log ++ [.clock answers.now] ++
                            [.received response] ++
                            [.found answers.store answers.storeClock
                              response.credentialId (some credential)]) := by
                        constructor
                        · refine ⟨s, session.deadlineAt, ?_, keyed, transcript,
                            of_decide_eq_true macOk,
                            principalProved_of_matches principal⟩
                          simpa only [List.append_assoc, List.cons_append,
                            List.nil_append] using first
                        · refine ⟨answers.store, answers.storeClock, found, ?_⟩
                          simp only [List.append_assoc]
                          exact (List.sublist_cons_self _ _).trans
                            (List.sublist_append_right session.log _)
                      split
                      · exact noted.await verified
                      · have named := findForAuth_credentialId found
                        refine noted.promoteOrBind rfl verified ?_
                        rw [← named] at found ⊢
                        exact ReconnectExchange.Live.found found rfl

theorem handleText (sound : Sound deps crypto session) (body : Option Json)
    (byteLength : Nat) :
    Sound deps crypto
      (session.handleText deps crypto answers body byteLength) := by
  unfold ReconnectSession.handleText
  split
  · exact sound
  split
  · exact sound.violation
  cases body with
  | none => exact sound.violation
  | some value =>
      simp only
      split
      · exact sound.onReconnectResponse value
      · exact sound.violation

theorem step (sound : Sound deps crypto session)
    (event : ReconnectEvent × ReconnectAnswers) :
    Sound deps crypto (session.step deps crypto event) := by
  obtain ⟨event, answers⟩ := event
  cases event with
  | text body byteLength => exact sound.handleText body byteLength
  | dispose => exact sound.dispose
  | settled index resolved =>
      unfold ReconnectSession.step
      simp only
      cases chosen : session.awaiting[index]? with
      | none => exact sound
      | some promise =>
          have fewer : Sound deps crypto
              { session with
                awaiting := session.awaiting.eraseIdx index } :=
            { sound with
              awaits := fun other member =>
                sound.awaits other (List.mem_of_mem_eraseIdx member) }
          exact fewer.resume resolved
            (sound.awaits promise (List.mem_of_getElem? chosen))

theorem start (challenge : Bytes) (now : Int) :
    Sound deps crypto (ReconnectSession.start challenge now) := by
  have fresh : Sound deps crypto
      { state := .awaitingResponse
        challengeS := some challenge
        deadlineAt := now + reconnectDeadlineMs
        awaiting := []
        log := [.challenged challenge (now + reconnectDeadlineMs)] } :=
    { guarded := Guarded.nil.concat fun accepting =>
        absurd accepting Bool.false_ne_true
      running := by
        intro _ entry member
        rw [List.mem_singleton.mp member]
        exact Bool.false_ne_true
      challenge := by
        intro s chosen
        cases chosen
        rfl
      awaits := fun promise member => absurd member List.not_mem_nil }
  unfold ReconnectSession.start
  simp only
  split
  · exact fresh.terminate _
  · exact fresh

theorem run (sound : Sound deps crypto session)
    (events : List (ReconnectEvent × ReconnectAnswers)) :
    Sound deps crypto (session.run deps crypto events) := by
  induction events generalizing session with
  | nil => exact sound
  | cons event rest induction => exact induction (sound.step event)

end Sound

/-! ## Every run -/

/-- Whatever frames, promises, store states and disposals a session meets, it
sends at most one accept, and only on complete evidence. -/
theorem accept_justified (deps : ReconnectDeps) (crypto : HandshakeCrypto)
    (challenge : Bytes) (startedAt : Int)
    (events : List (ReconnectEvent × ReconnectAnswers)) :
    let log := ((start challenge startedAt).run deps crypto events).log
    (log.filter ReconnectEntry.isAccept).length ≤ 1 ∧
    ∀ before mac after, log = before ++ .accept mac :: after →
      AcceptJustified deps crypto before := by
  intro log
  have sound : Sound deps crypto
      ((start challenge startedAt).run deps crypto events) :=
    (Sound.start challenge startedAt).run events
  constructor
  · refine sound.guarded.atMostOnce ?_
    intro before entry allowed accepting earlier member earlierAccept
    obtain ⟨unfinished, -⟩ := allowed accepting
    refine unfinished earlier member ?_
    cases earlier <;> simp_all [ReconnectEntry.isAccept,
      ReconnectEntry.isFinal]
  · intro before mac after split
    exact sound.guarded before (.accept mac) after split rfl

/-! ## A run with an accept -/

def sampleDeps : ReconnectDeps :=
  { verifiedOrigin := "chrome-extension://aaaa"
    browser := .chromium
    instanceId := "instance"
    safariTicketContext := none
    authorizes := false
    bindsSafari := false }

/-- A cipher suite whose MACs are all zero. -/
def zeroCrypto : HandshakeCrypto :=
  { hkdf32 := fun _ _ _ => List.replicate 32 0
    hmacSha256 := fun _ _ => List.replicate 32 0
    pointFromBytes := fun _ => none
    sha256 := fun _ => List.replicate 32 0
    verifySignature := fun _ _ _ => none }

def sampleCredential : StoredCredential :=
  { credentialId := "0f8fad5b-d9cb-469f-a165-70867728950e"
    mutualKeyB64 := toBase64Url (List.replicate 32 1)
    principal :=
      { browser := .chromium
        verifiedOrigin := "chrome-extension://aaaa"
        clientInstallationId := "one"
        safariInstallationKey := none }
    predecessorId := none
    state := .provisional
    identity := .official
    authorizationEpoch := some "0f8fad5b-d9cb-469f-a165-70867728950e"
    createdAt := 1000
    committedAt := none }

def sampleResponse : Json :=
  .object
    [("type", .string "reconnectResponse"),
      ("credentialId", .string sampleCredential.credentialId),
      ("C", .string (toBase64Url (List.replicate 32 2))),
      ("mac", .string (toBase64Url (List.replicate 32 0)))]

def sampleAnswers (store : List StoredCredential) : ReconnectAnswers :=
  { store := store
    storeClock := some 2000
    replay := .empty
    now := 2000
    ticketNow := 2000
    sendNow := 3000
    written := true }

example :
    (((start (List.replicate 32 7) 1500).run sampleDeps zeroCrypto
      [(.text (some sampleResponse) 200, sampleAnswers [sampleCredential]),
        (.settled 0 true, sampleAnswers
          [{ sampleCredential with
              state := .committed
              committedAt := some 2500 }])]).log.filter
        ReconnectEntry.isAccept).length = 1 := by
  decide +kernel

end ReconnectSession

end Motrix.Bridge
