import Motrix.Bridge.PairCollaborators

/-!
# First-pair sessions

The `/pair` conversation from `pairHello` to `credentialCommitted`.  A handler
runs without interruption up to the next promise; frames, prompt outcomes,
disposals and the settling of promises arrive in any order.  All sessions of a
server share the flood control and the prompts.

The log of a session records what it read, what it was answered and what it
sent.
-/

namespace Motrix.Bridge

open Motrix.Lib

def maxAttempts : Nat := 3
def codeLifetimeMs : Int := 120000

inductive PairState where
  | awaitingHello
  | awaitingPakeA
  | awaitingConfirmA
  | channelActive
  | offerSent
  | acked
  | committed
  | closed
  deriving DecidableEq, Repr

/-- State of one SPAKE2 run. -/
structure PakeRun where
  tt : Bytes
  ke : Bytes
  expectedCA : Bytes
  cB : Bytes
  deriving DecidableEq, Repr

/-- What every later step binds against. -/
structure HelloContext where
  browser : Browser
  claimedExtensionId : String
  clientInstallationId : String
  safariInstallationKey : Option String
  aId : Bytes
  aad : Bytes
  identity : IdentityTriState
  ticketBindingPub : Option Bytes
  deriving DecidableEq, Repr

structure PairChannel where
  sealer : EnvelopeSealer
  opener : EnvelopeOpener
  deriving DecidableEq, Repr

structure PairDialogRequest where
  browser : Browser
  claimedExtensionId : String
  identity : IdentityTriState
  code : String
  pairingNonce : String
  verifiedOrigin : String
  deriving DecidableEq, Repr

inductive PairCloseReason where
  | error (code : PairErrorCode)
  | textAfterChannelActivation
  | unexpectedBinaryFrame
  | envelopeViolation
  | pairAcceptInvalid
  | pakeBInvalid
  | confirmBInvalid
  | credentialPersistFailed
  | credentialOfferInvalid
  | credentialCommitFailed
  | envelopeSealFailed
  deriving DecidableEq, Repr

inductive PairEntry where
  | admitted (verifiedOrigin : String)
  | released (verifiedOrigin : String)
  | hello (frame : PairHelloFrame) (context : HelloContext) (code : String)
  | dialogQueued (request : PairDialogRequest)
  | pairAccept (instanceId : String)
  | pakeA (frame : PakeAFrame)
  | pakeB (pB : Bytes)
  | confirmA (frame : ConfirmAFrame)
  | settled (outcome : PromptOutcome)
  | confirmB (cB : Bytes)
  | pairError (code : PairErrorCode) (attemptsRemaining : Option Nat)
  | offerPersisted (credentialId mutualKeyB64 : String)
  | offered (credentialId mutualKeyB64 : String)
  | acked (credentialId : String)
  | commitResolved (credentialId : String)
  | committedSent
  | authenticated (credentialId : String) (channel : PairChannel)
  | ended
  | close (reason : PairCloseReason)

inductive PairAwait where
  | published
  | offerProvisional (principal : CredentialPrincipal)
      (identity : IdentityTriState)
  | commitFromPair (credentialId : String)
  deriving DecidableEq, Repr

structure PairSession where
  state : PairState
  hello : Option HelloContext
  prompt : Option Nat
  codeNormalized : Option String
  codeExpiresAt : Int
  w : Option Nat
  run : Option PakeRun
  channel : Option PairChannel
  offeredCredentialId : Option String
  confirmed : Bool
  attempts : Nat
  admitted : Bool
  released : Bool
  awaiting : List PairAwait
  log : List PairEntry

def PairSession.fresh : PairSession :=
  { state := .awaitingHello
    hello := none
    prompt := none
    codeNormalized := none
    codeExpiresAt := 0
    w := none
    run := none
    channel := none
    offeredCredentialId := none
    confirmed := false
    attempts := 0
    admitted := false
    released := false
    awaiting := []
    log := [] }

/-- What a handler is answered until it stops.  `settleNow` is the clock of
the prompt controller when a session settles its prompt as paired, `abortNow`
when it aborts it. -/
structure PairAnswers where
  admitNow : Int
  ticketNow : Int
  now : Int
  replay : TicketReplayCache
  random5 : Bytes
  scalar : Option Nat
  enqueued : EnqueueAnswer
  settleNow : Option Int
  abortNow : Option Int
  ledger : List Sealing
  textWritten : Bool
  binaryWritten : Bool

/-- A session together with what it shares with the others. -/
structure PairTurn where
  flood : PairFloodControl
  prompts : List PromptEntry
  session : PairSession

namespace PairTurn

/-! ## Ending -/

section Ending

variable (deps : PairSessionDeps) (answers : PairAnswers)

def update (turn : PairTurn) (change : PairSession → PairSession) :
    PairTurn :=
  { turn with session := change turn.session }

def note (turn : PairTurn) (entry : PairEntry) : PairTurn :=
  turn.update fun session => { session with log := session.log ++ [entry] }

def settlePrompt (turn : PairTurn) (outcome : PromptOutcome)
    (now : Option Int) : SettleResult × PairTurn :=
  match turn.session.prompt with
  | none => (.unavailable, turn)
  | some promptId =>
      match turn.prompts[promptId]? with
      | none => (.unavailable, turn)
      | some entry =>
          let (result, settled) := entry.settleFromSession outcome now
          let turn :=
            { turn with prompts := turn.prompts.set promptId settled }
          match result with
          | .ok final =>
              (result, turn.update fun session =>
                { session with
                  prompt := none
                  log := session.log ++ [.settled final] })
          | _ => (result, turn)

/-- At most once, and only for a slot this session took. -/
def releasePendingSlot (turn : PairTurn) : PairTurn :=
  if ¬ turn.session.admitted ∨ turn.session.released then turn
  else
    { turn with
      flood := turn.flood.release deps.verifiedOrigin
      session :=
        { turn.session with
          released := true
          log := turn.session.log ++ [.released deps.verifiedOrigin] } }

/-- `state = 'closed'` and `discardRunState` -/
def finish (turn : PairTurn) : PairTurn :=
  turn.update fun session =>
    { session with
      state := .closed
      run := none
      w := none
      codeNormalized := none
      channel := none
      log := session.log ++ [.ended] }

def dispose (turn : PairTurn) : PairTurn :=
  if turn.session.state = .closed then turn
  else
    (turn.finish.settlePrompt .aborted answers.abortNow).2
      |>.releasePendingSlot deps

/-- A prompt that throws while it is aborted changes nothing here. -/
def terminate (turn : PairTurn) (reason : PairCloseReason) : PairTurn :=
  if turn.session.state = .closed then turn
  else
    ((turn.finish.settlePrompt .aborted answers.abortNow).2
      |>.releasePendingSlot deps).note (.close reason)

/-- When `sendText` throws, `terminate` is not reached. -/
def fail (turn : PairTurn) (code : PairErrorCode) : PairTurn :=
  if answers.textWritten then
    (turn.note (.pairError code none)).terminate deps answers (.error code)
  else turn

def violation (turn : PairTurn) : PairTurn :=
  turn.fail deps answers .protocolViolation

def codeExpired (turn : PairTurn) : Bool :=
  answers.now ≥ turn.session.codeExpiresAt

def expire (turn : PairTurn) : PairTurn :=
  turn.fail deps answers .expired

/-- A run that reached `pakeA` and ended without mutual confirmation. -/
def failRun (turn : PairTurn) : PairTurn :=
  let turn := turn.update fun session => { session with run := none }
  if turn.session.attempts ≥ maxAttempts then
    turn.fail deps answers .rateLimited
  else if answers.textWritten then
    (turn.note (.pairError .codeMismatch
      (some (maxAttempts - turn.session.attempts)))).update fun session =>
        { session with state := .awaitingPakeA }
  else turn

end Ending

/-! ## The hello -/

section Hello

variable (deps : PairSessionDeps) (prims : PairPrimitives)
  (answers : PairAnswers)

structure ResolvedIdentity where
  identity : IdentityTriState
  bindingPub : Option Bytes
  digest : Option Bytes
  deriving DecidableEq, Repr

def digestOf (wire : Json) : Option Bytes :=
  (nmTicketWireSchema wire).bind fun fields =>
    match fields.decode with
    | .error _ => none
    | .ok ticket => (ticketDigest prims.toHandshakeCrypto ticket).toOption

/-- A ticket that did not abort; `callerId` is there when it attests. -/
def resolveTicket (wire : Json) (normalized : NormalizedExtensionIdentity)
    (callerId : Option String) (deferredProof : DeferredTicketProof) :
    Except PairErrorCode ResolvedIdentity :=
  match digestOf prims wire with
  | none => .error .pairingFailed
  | some digest =>
      match resolveNormalizedExtensionIdentity normalized callerId
          deps.isOfficialId with
      | none => .error .protocolViolation
      | some identity =>
          .ok
            { identity := identity
              bindingPub := some deferredProof.bindingPub
              digest := some digest }

/-- An error is the code the session fails with. -/
def resolveIdentity (frame : PairHelloFrame)
    (normalized : NormalizedExtensionIdentity) :
    Except PairErrorCode ResolvedIdentity :=
  match frame.nmTicket with
  | none =>
      match resolveNormalizedExtensionIdentity normalized none
          deps.isOfficialId with
      | none => .error .protocolViolation
      | some identity =>
          .ok
            { identity := identity
              bindingPub := none
              digest := none }
  | some wire =>
      match (verifyNmTicket prims.toTicketCrypto wire
        { localToken := deps.localToken
          serverGeneration := deps.serverGeneration
          nowMs := answers.ticketNow
          helloBrowser := frame.browser.text
          helloClaimedExtensionId := frame.claimedExtensionId
          helloTicketBindingKey :=
            frame.ticketBindingKey.map fun key => key.bytes }
        answers.replay).1 with
      | .abort _ => .error .protocolViolation
      | .downgrade _ deferredProof =>
          resolveTicket deps prims wire normalized none deferredProof
      | .attested callerId deferredProof =>
          resolveTicket deps prims wire normalized (some callerId)
            deferredProof

def helloContext (frame : PairHelloFrame) (resolved : ResolvedIdentity)
    (aId aad : Bytes) : HelloContext :=
  { browser := frame.browser
    claimedExtensionId := frame.claimedExtensionId
    clientInstallationId := frame.clientInstallationId
    safariInstallationKey :=
      frame.safariInstallationKey.map fun key => key.text
    aId := aId
    aad := aad
    identity := resolved.identity
    ticketBindingPub := resolved.bindingPub }

def dialogRequest (frame : PairHelloFrame) (resolved : ResolvedIdentity)
    (code : String) : PairDialogRequest :=
  { browser := frame.browser
    claimedExtensionId := frame.claimedExtensionId
    identity := resolved.identity
    code := formatPairingCode code
    pairingNonce := deps.pairNonce
    verifiedOrigin := deps.verifiedOrigin }

/-- From the drawn code to the promise of the prompt's publication. -/
def queuePrompt (frame : PairHelloFrame) (resolved : ResolvedIdentity)
    (code : String) (aId aad : Bytes) (turn : PairTurn) : PairTurn :=
  let context := helloContext frame resolved aId aad
  let turn := turn.update fun session =>
    { session with
      hello := some context
      codeNormalized := some code
      codeExpiresAt := answers.now + codeLifetimeMs
      log := session.log ++ [.hello frame context code] }
  if ¬ isAscii deps.instanceId then
    turn.terminate deps answers .pairAcceptInvalid
  else
    match answers.enqueued with
    | .throws => turn.fail deps answers .pairingFailed
    | .refused => turn.fail deps answers .pairingFailed
    | .accepted expiresAt =>
        { turn with
          prompts := turn.prompts ++
            [{ expiresAt := expiresAt
               terminal := none }]
          session :=
            { turn.session with
              prompt := some turn.prompts.length
              awaiting := turn.session.awaiting ++ [.published]
              log := turn.session.log ++
                [.dialogQueued (dialogRequest deps frame resolved code)] } }

/-- From the admission on. -/
def takeUpHello (frame : PairHelloFrame)
    (normalized : NormalizedExtensionIdentity) (turn : PairTurn) : PairTurn :=
  let (refusal, flood) :=
    turn.flood.admitOrigin deps.verifiedOrigin answers.admitNow
  let turn := { turn with flood := flood }
  match refusal with
  | some code => turn.fail deps answers code
  | none =>
      let turn := turn.update fun session =>
        { session with
          admitted := true
          log := session.log ++ [.admitted deps.verifiedOrigin] }
      match resolveIdentity deps prims answers frame normalized with
      | .error code => turn.fail deps answers code
      | .ok resolved =>
          match generatePairingCode answers.random5,
            buildAad mbp1ProtocolVersion deps.pairNonce
              (frame.ticketBindingKey.map fun key => key.bytes)
              resolved.digest,
            buildAId frame.browser.text deps.verifiedOrigin
              frame.claimedExtensionId frame.clientInstallationId
              (frame.safariInstallationKey.map fun key => key.text) with
          | some code, .ok aad, .ok aId =>
              turn.queuePrompt deps answers frame resolved code aId aad
          | _, _, _ => turn.fail deps answers .pairingFailed

def onPairHello (body : Json) (turn : PairTurn) : PairTurn :=
  if turn.session.state ≠ .awaitingHello then turn.violation deps answers
  else
    match pairHelloFrameSchema body with
    | none => turn.violation deps answers
    | some frame =>
        if frame.protocolVersion ≠ mbp1ProtocolVersion then
          turn.fail deps answers .unsupportedVersion
        else if frame.browser ≠ deps.browser then
          turn.violation deps answers
        else
          match normalizeExtensionIdentity prims.parseUrl
            { browser := deps.browser
              verifiedOrigin := deps.verifiedOrigin
              claimedExtensionId := frame.claimedExtensionId } with
          | none => turn.violation deps answers
          | some normalized =>
              if frame.safariInstallationKey.any fun key =>
                  !validateBindingPub prims.toTicketCrypto key.bytes then
                turn.violation deps answers
              else turn.takeUpHello deps prims answers frame normalized

/-- The continuation of `prompt.published`. -/
def afterPublished (delivered : Bool) (turn : PairTurn) : PairTurn :=
  if turn.session.state = .closed then turn
  else if ¬ delivered then turn.fail deps answers .pairingFailed
  else if turn.codeExpired answers then turn.expire deps answers
  else
    let turn := turn.update fun session =>
      { session with state := .awaitingPakeA }
    if answers.textWritten then turn.note (.pairAccept deps.instanceId)
    else turn

end Hello

/-! ## Key exchange and confirmation -/

section Exchange

variable (deps : PairSessionDeps) (prims : PairPrimitives)
  (answers : PairAnswers)

def deriveWOnce (session : PairSession) : Option Nat :=
  match session.w with
  | some w => some w
  | none =>
      session.codeNormalized.bind fun code =>
        prims.deriveW code deps.pairNonce

def pakeRun (context : HelloContext) (tt : Bytes) : PakeRun :=
  let crypto := prims.toHandshakeCrypto
  let keys := keySchedule crypto tt context.aad
  let macs := confirmationMacs crypto keys.kcA keys.kcB tt
  { tt := tt
    ke := keys.ke
    expectedCA := macs.cA
    cB := macs.cB }

def pakeTranscript (context : HelloContext) (pA pB k : Bytes) (w : Nat) :
    Encoding := do
  let bId ← buildBId deps.instanceId
  buildTT context.aId bId pA pB k w

/-- The run with its scalar drawn. -/
def answerPakeA (context : HelloContext) (frame : PakeAFrame) (w y : Nat)
    (turn : PairTurn) : PairTurn :=
  let pB := prims.computePublicB w y
  match prims.sharedFromB w y frame.pA.bytes with
  | .error .identityK => turn.failRun deps answers
  | .error .notOnCurve => turn.violation deps answers
  | .ok k =>
      match pakeTranscript deps context frame.pA.bytes pB k w with
      | .error _ => turn
      | .ok tt =>
          let turn := turn.update fun session =>
            { session with run := some (pakeRun prims context tt) }
          if pB.length ≠ pointBytes then
            turn.terminate deps answers .pakeBInvalid
          else
            let turn := turn.update fun session =>
              { session with state := .awaitingConfirmA }
            if answers.textWritten then turn.note (.pakeB pB) else turn

def onPakeA (body : Json) (turn : PairTurn) : PairTurn :=
  match turn.session.hello with
  | none => turn.violation deps answers
  | some context =>
      if turn.session.state ≠ .awaitingPakeA then
        turn.violation deps answers
      else if turn.codeExpired answers then turn.expire deps answers
      else
        -- The attempt is spent before the frame is looked at.
        let turn := turn.update fun session =>
          { session with attempts := session.attempts + 1 }
        match pakeAFrameSchema body with
        | none => turn.violation deps answers
        | some frame =>
            let turn := turn.note (.pakeA frame)
            match deriveWOnce deps prims turn.session with
            | none => turn.fail deps answers .pairingFailed
            | some w =>
                let turn := turn.update fun session =>
                  { session with w := some w }
                match answers.scalar with
                | none => turn.fail deps answers .pairingFailed
                | some y =>
                    turn.answerPakeA deps prims answers context frame w y

def ticketProofOk (context : HelloContext) (run : PakeRun)
    (frame : ConfirmAFrame) : Bool :=
  match context.ticketBindingPub, frame.ticketProof with
  | some bindingPub, some proof =>
      verifyTicketProofStrict prims.toHandshakeCrypto bindingPub run.tt
        proof.bytes
  | _, _ => true

def principalOf (context : HelloContext) : CredentialPrincipal :=
  { browser := deps.browser
    verifiedOrigin := deps.verifiedOrigin
    clientInstallationId := context.clientInstallationId
    safariInstallationKey := context.safariInstallationKey }

/-- The channel goes live and the credential is asked for. -/
def activate (context : HelloContext) (run : PakeRun) (turn : PairTurn) :
    PairTurn :=
  let keys := pairTrafficKeys prims.toHandshakeCrypto run.ke
  let turn := turn.update fun session =>
    { session with
      channel := some
        { sealer :=
            { key := keys.kS2C
              dir := .s2c
              seq := 0
              blockCount := 0 }
          opener :=
            { key := keys.kC2S
              dir := .c2s
              seq := 0
              blockCount := 0 } }
      state := .channelActive
      run := none
      w := none
      codeNormalized := none
      log := session.log ++ [.confirmB run.cB] }
  (turn.releasePendingSlot deps).update fun session =>
    { session with
      awaiting := session.awaiting ++
        [.offerProvisional (principalOf deps context) context.identity] }

def settlePaired (context : HelloContext) (run : PakeRun) (turn : PairTurn) :
    PairTurn :=
  match turn.settlePrompt .paired answers.settleNow with
  | (.throws, turn) => turn.fail deps answers .pairingFailed
  | (.unavailable, turn) => turn
  | (.ok _, turn) =>
      let turn := turn.update fun session =>
        { session with confirmed := true }
      if answers.textWritten then turn.activate deps prims context run
      else turn

def onConfirmA (body : Json) (turn : PairTurn) : PairTurn :=
  match turn.session.run, turn.session.hello with
  | some run, some context =>
      if turn.session.state ≠ .awaitingConfirmA then
        turn.violation deps answers
      else if turn.codeExpired answers then turn.expire deps answers
      else
        match confirmAFrameSchema body with
        | none => turn.violation deps answers
        | some frame =>
            let turn := turn.note (.confirmA frame)
            if context.ticketBindingPub.isSome ≠
                frame.ticketProof.isSome then turn.violation deps answers
            else if frame.cA.bytes ≠ run.expectedCA ∨
                ¬ ticketProofOk prims context run frame then
              turn.failRun deps answers
            else if run.cB.length ≠ macBytes then
              turn.terminate deps answers .confirmBInvalid
            else turn.settlePaired deps prims answers context run
  | _, _ => turn.violation deps answers

end Exchange

/-! ## Credential issuance -/

section Issuance

variable (deps : PairSessionDeps) (prims : PairPrimitives)
  (answers : PairAnswers)

def credentialOfferFrame (offer : CredentialOffer) : Json :=
  .object
    [("type", .string "credentialOffer"),
      ("credentialId", .string offer.credentialId),
      ("mutualKey", .string offer.mutualKeyB64)]

def credentialCommittedFrame : Json :=
  .object [("type", .string "credentialCommitted")]

/-- The channel after the frame went out; `none` when the session is closed
already. -/
def sendSealed (frame : Json) (entry : PairEntry) (turn : PairTurn) :
    Option PairChannel × PairTurn :=
  match turn.session.channel with
  | none => (none, turn)
  | some channel =>
      match channel.sealer.seal prims.aead (prims.stringifyJson frame) with
      | (.error _, _) =>
          (none, turn.terminate deps answers .envelopeSealFailed)
      | (.ok _, sealer) =>
          if answers.binaryWritten then
            let channel := { channel with sealer := sealer }
            (some channel, turn.update fun session =>
              { session with
                channel := some channel
                log := session.log ++ [entry] })
          else (none, turn.terminate deps answers .envelopeSealFailed)

def markOffered (offer : CredentialOffer) (turn : PairTurn) : PairTurn :=
  turn.update fun session =>
    { session with
      offeredCredentialId := some offer.credentialId
      state := .offerSent }

/-- The continuation of `offerProvisional`; `none` is a rejection. -/
def afterOffer (answer : Option CredentialOffer) (turn : PairTurn) :
    PairTurn :=
  match answer with
  | none => turn.terminate deps answers .credentialPersistFailed
  | some offer =>
      let turn := turn.note
        (.offerPersisted offer.credentialId offer.mutualKeyB64)
      if turn.session.state ≠ .channelActive ∨
          turn.session.channel.isNone then turn
      else if ¬ credentialOfferValid offer.credentialId
          offer.mutualKeyB64 then
        turn.terminate deps answers .credentialOfferInvalid
      else
        ((turn.markOffered offer).sendSealed deps prims answers
          (credentialOfferFrame offer)
          (.offered offer.credentialId offer.mutualKeyB64)).2

def acknowledge (credentialId : String) (turn : PairTurn) : PairTurn :=
  turn.update fun session =>
    { session with
      state := .acked
      awaiting := session.awaiting ++ [.commitFromPair credentialId]
      log := session.log ++ [.acked credentialId] }

def handleBinary (data : Bytes) (turn : PairTurn) : PairTurn :=
  if turn.session.state = .closed ∨ turn.session.state = .committed then turn
  else
    match turn.session.channel with
    | none => turn.terminate deps answers .unexpectedBinaryFrame
    | some channel =>
        if turn.session.state ≠ .offerSent then
          turn.terminate deps answers .unexpectedBinaryFrame
        else
          match channel.opener.openFrame answers.ledger data with
          | (.error _, _) => turn.terminate deps answers .envelopeViolation
          | (.ok plaintext, opener) =>
              let turn := turn.update fun session =>
                { session with
                  channel := some { channel with opener := opener } }
              match (prims.parseJson plaintext).bind
                  credentialAckFrameSchema with
              | none =>
                  turn.terminate deps answers (.error .protocolViolation)
              | some credentialId =>
                  if some credentialId ≠
                      turn.session.offeredCredentialId then
                    turn.terminate deps answers (.error .protocolViolation)
                  else turn.acknowledge credentialId

/-- The continuation of `commitFromPair`. -/
def afterCommit (credentialId : String) (resolved : Bool)
    (turn : PairTurn) : PairTurn :=
  if ¬ resolved then turn.terminate deps answers .credentialCommitFailed
  else
    let turn := turn.note (.commitResolved credentialId)
    if turn.session.state ≠ .acked ∨ turn.session.channel.isNone then turn
    else
      match turn.sendSealed deps prims answers credentialCommittedFrame
          .committedSent with
      | (none, turn) => turn
      | (some channel, turn) =>
          turn.update fun session =>
            { session with
              state := .committed
              log := session.log ++ [.authenticated credentialId channel] }

end Issuance

/-! ## Events -/

section Events

variable (deps : PairSessionDeps) (prims : PairPrimitives)
  (answers : PairAnswers)

/-- `body` is the parsed text, `none` where `JSON.parse` throws. -/
def handleText (body : Option Json) (byteLength : Nat) (turn : PairTurn) :
    PairTurn :=
  if turn.session.state = .closed ∨ turn.session.state = .committed then turn
  else if ¬ deps.nonceValid then turn.fail deps answers .expired
  else if turn.session.channel.isSome then
    turn.terminate deps answers .textAfterChannelActivation
  else if byteLength > maxPreAuthFrameBytes then turn.violation deps answers
  else
    match body with
    | none => turn.violation deps answers
    | some value =>
        match frameEnvelopeSchema value with
        | some "pairHello" => turn.onPairHello deps prims answers value
        | some "pakeA" => turn.onPakeA deps prims answers value
        | some "confirmA" => turn.onConfirmA deps prims answers value
        | _ => turn.violation deps answers

/-- `none` is a rejected `terminal` promise. -/
def onPromptTerminal (outcome : Option PromptOutcome) (turn : PairTurn) :
    PairTurn :=
  if turn.session.confirmed ∨ turn.session.state = .closed ∨
      turn.session.state = .committed then turn
  else
    turn.fail deps answers
      (match outcome with
      | none => .pairingFailed
      | some .paired => .pairingFailed
      | some .expired => .expired
      | some .denied => .denied
      | some .aborted => .aborted)

end Events

end PairTurn

/-- A promise settles: whether the prompt was delivered, the stored offer, or
whether the commit resolved. -/
inductive PairSettlement where
  | published (delivered : Bool)
  | offerProvisional (answer : Option CredentialOffer)
  | commitFromPair (resolved : Bool)

inductive PairEvent where
  | text (body : Option Json) (byteLength : Nat)
  | binary (data : Bytes)
  | promptTerminal (outcome : Option PromptOutcome)
  | settled (index : Nat) (settlement : PairSettlement)
  | dispose

namespace PairTurn

variable (deps : PairSessionDeps) (prims : PairPrimitives)
  (answers : PairAnswers)

/-- The settled promise leaves the queue and its continuation runs. -/
def resume (index : Nat) (settlement : PairSettlement) (turn : PairTurn) :
    PairTurn :=
  let resumed := turn.update fun session =>
    { session with awaiting := session.awaiting.eraseIdx index }
  match turn.session.awaiting[index]?, settlement with
  | some .published, .published delivered =>
      resumed.afterPublished deps answers delivered
  | some (.offerProvisional _ _), .offerProvisional answer =>
      resumed.afterOffer deps prims answers answer
  | some (.commitFromPair credentialId), .commitFromPair resolved =>
      resumed.afterCommit deps prims answers credentialId resolved
  | _, _ => turn

def handle (event : PairEvent) (turn : PairTurn) : PairTurn :=
  match event with
  | .text body byteLength =>
      turn.handleText deps prims answers body byteLength
  | .binary data => turn.handleBinary deps prims answers data
  | .promptTerminal outcome => turn.onPromptTerminal deps answers outcome
  | .settled index settlement =>
      turn.resume deps prims answers index settlement
  | .dispose => turn.dispose deps answers

end PairTurn

/-! ## What ending a session does -/

namespace PairTurn

variable {deps : PairSessionDeps} {answers : PairAnswers}

/-- Settling a prompt either fails, leaving the session alone, or reports the
requested outcome and forgets the prompt. -/
theorem settlePrompt_cases (turn : PairTurn) (outcome : PromptOutcome)
    (now : Option Int) :
    ∃ prompts,
      ((turn.settlePrompt outcome now).2 = { turn with prompts := prompts } ∧
        ∀ final, (turn.settlePrompt outcome now).1 ≠ .ok final) ∨
      turn.settlePrompt outcome now =
        (.ok outcome,
          { turn with
            prompts := prompts
            session :=
              { turn.session with
                prompt := none
                log := turn.session.log ++ [.settled outcome] } }) := by
  unfold settlePrompt
  cases turn.session.prompt with
  | none => exact ⟨turn.prompts, .inl ⟨rfl, fun _ same => by cases same⟩⟩
  | some promptId =>
      simp only
      cases turn.prompts[promptId]? with
      | none => exact ⟨turn.prompts, .inl ⟨rfl, fun _ same => by cases same⟩⟩
      | some entry =>
          simp only [PromptEntry.settleFromSession,
            PromptEntry.settleInternal]
          cases entry.terminal with
          | some final =>
              exact ⟨_, .inl ⟨rfl, fun _ same => by cases same⟩⟩
          | none =>
              cases now with
              | none => exact ⟨_, .inl ⟨rfl, fun _ same => by cases same⟩⟩
              | some t =>
                  by_cases due : t ≥ entry.expiresAt
                  · simp only [due, if_true]
                    exact ⟨_, .inl ⟨rfl, fun _ same => by cases same⟩⟩
                  · simp only [due, if_false]
                    exact ⟨_, .inr rfl⟩

theorem releasePendingSlot_of_unheld {turn : PairTurn}
    (unheld : turn.session.admitted = false ∨ turn.session.released = true) :
    turn.releasePendingSlot deps = turn := by
  unfold releasePendingSlot
  rw [if_pos]
  simpa using unheld

theorem releasePendingSlot_of_held {turn : PairTurn}
    (admitted : turn.session.admitted = true)
    (unreleased : turn.session.released = false) :
    turn.releasePendingSlot deps =
      { turn with
        flood := turn.flood.release deps.verifiedOrigin
        session :=
          { turn.session with
            released := true
            log := turn.session.log ++ [.released deps.verifiedOrigin] } } := by
  unfold releasePendingSlot
  rw [if_neg]
  simp [admitted, unreleased]

/-- A frame that is sealed goes out on the advanced channel; otherwise the
session is closed, unless it had no channel. -/
theorem sendSealed_cases (prims : PairPrimitives) (frame : Json)
    (entry : PairEntry) {turn : PairTurn} {channel : PairChannel}
    (active : turn.session.channel = some channel) :
    turn.sendSealed deps prims answers frame entry =
        (none, turn.terminate deps answers .envelopeSealFailed) ∨
      ∃ advanced, turn.sendSealed deps prims answers frame entry =
        (some advanced, turn.update fun session =>
          { session with
            channel := some advanced
            log := session.log ++ [entry] }) := by
  unfold sendSealed
  simp only [active]
  rcases channel.sealer.seal prims.aead (prims.stringifyJson frame) with
    ⟨failure | sealing, sealer⟩
  · exact .inl rfl
  · by_cases written : answers.binaryWritten
    · simp only [written, if_true]
      exact .inr ⟨_, rfl⟩
    · simp only [written]
      exact .inl rfl

theorem resolveIdentity_bindingPub {prims : PairPrimitives}
    {frame : PairHelloFrame} {normalized : NormalizedExtensionIdentity}
    {resolved : ResolvedIdentity}
    (success : resolveIdentity deps prims answers frame normalized =
      .ok resolved) :
    resolved.bindingPub.isSome = frame.nmTicket.isSome := by
  have ofTicket : ∀ wire callerId proof,
      resolveTicket deps prims wire normalized callerId proof =
        .ok resolved → resolved.bindingPub.isSome := by
    intro wire callerId proof success
    unfold resolveTicket at success
    split at success
    · cases success
    · split at success
      · cases success
      · cases success
        rfl
  unfold resolveIdentity at success
  cases presented : frame.nmTicket with
  | none =>
      simp only [presented] at success
      split at success
      · cases success
      · cases success
        rfl
  | some wire =>
      simp only [presented] at success
      split at success
      · cases success
      · exact ofTicket _ _ _ success
      · exact ofTicket _ _ _ success

end PairTurn

/-! ## All sessions of a server -/

structure PairServer where
  flood : PairFloodControl
  prompts : List PromptEntry
  sessions : List (PairSessionDeps × PairSession)

/-- `promptEnds` is an operator's denial, an expiry timer or the disposal of
the controller. -/
inductive PairServerEvent where
  | connect (deps : PairSessionDeps)
  | session (index : Nat) (event : PairEvent) (answers : PairAnswers)
  | promptEnds (promptId : Nat) (outcome : PromptOutcome)
  | recordOutcome (outcome : PairOutcome) (now : Int)

namespace PairServer

def start (pendingCap : Nat) : PairServer :=
  { flood := .fresh pendingCap
    prompts := []
    sessions := [] }

variable (prims : PairPrimitives)

def step (server : PairServer) : PairServerEvent → PairServer
  | .connect deps =>
      { server with sessions := server.sessions ++ [(deps, .fresh)] }
  | .session index event answers =>
      match server.sessions[index]? with
      | none => server
      | some (deps, session) =>
          let turn : PairTurn :=
            { flood := server.flood
              prompts := server.prompts
              session := session }
          let next := turn.handle deps prims answers event
          { flood := next.flood
            prompts := next.prompts
            sessions := server.sessions.set index (deps, next.session) }
  | .promptEnds promptId outcome =>
      { server with
        prompts := server.prompts.modify promptId fun entry =>
          (entry.settleInternal outcome).2 }
  | .recordOutcome outcome now =>
      { server with flood := server.flood.recordOutcome outcome now }

def run (server : PairServer) (events : List PairServerEvent) : PairServer :=
  events.foldl (step prims) server

end PairServer

end Motrix.Bridge
