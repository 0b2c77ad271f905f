import Motrix.Lib.Trace
import Motrix.Bridge.PairSession

/-!
# What a first pairing rests on

`onAuthenticated` comes at most once, never after the session ended, and
everything it rests on stands in front of it in the order of the protocol.
Nothing is assumed about when frames, prompt outcomes and promises arrive, nor
about the other sessions.
-/

namespace Motrix.Bridge

open Motrix.Lib

namespace PairEntry

def isAuthenticated : PairEntry → Bool
  | .authenticated _ _ => true
  | _ => false

/-- The session ended or handed its channel over. -/
def isFinal : PairEntry → Bool
  | .authenticated _ _ => true
  | .ended => true
  | _ => false

end PairEntry

/-! ## Evidence -/

/-- The frames of the run that was confirmed. -/
structure PairEvidence where
  hello : PairHelloFrame
  context : HelloContext
  code : String
  pakeA : PakeAFrame
  confirmA : ConfirmAFrame

section Evidence

variable (deps : PairSessionDeps) (prims : PairPrimitives)

/-- The context of a session is computed from its hello. -/
structure HelloBinds (frame : PairHelloFrame) (context : HelloContext) :
    Prop where
  browser : frame.browser = deps.browser
  aId :
    buildAId frame.browser.text deps.verifiedOrigin frame.claimedExtensionId
      frame.clientInstallationId
      (frame.safariInstallationKey.map fun key => key.text) =
        .ok context.aId
  ticket : context.ticketBindingPub.isSome = frame.nmTicket.isSome

/-- `tt` is the transcript of the run that answered `pA` under the code. -/
def TranscriptOf (context : HelloContext) (code : String)
    (pakeA : PakeAFrame) (tt : Bytes) : Prop :=
  ∃ w y k,
    prims.deriveW code deps.pairNonce = some w ∧
    prims.sharedFromB w y pakeA.pA.bytes = .ok k ∧
    PairTurn.pakeTranscript deps context pakeA.pA.bytes
      (prims.computePublicB w y) k w = .ok tt

namespace PairEvidence

variable (evidence : PairEvidence)

/-- `confirmA` carries the MAC of the transcript, and a proof over it when the
hello carried a ticket. -/
structure Valid : Prop where
  binds : HelloBinds deps evidence.hello evidence.context
  confirmed : ∃ tt,
    TranscriptOf deps prims evidence.context evidence.code evidence.pakeA
      tt ∧
    evidence.confirmA.cA.bytes =
      (PairTurn.pakeRun prims evidence.context tt).expectedCA ∧
    ∀ bindingPub, evidence.context.ticketBindingPub = some bindingPub →
      ∃ proof, evidence.confirmA.ticketProof = some proof ∧
        verifyTicketProofStrict prims.toHandshakeCrypto bindingPub tt
          proof.bytes = true

def confirmSteps : List PairEntry :=
  [.hello evidence.hello evidence.context evidence.code,
    .pakeA evidence.pakeA, .confirmA evidence.confirmA, .settled .paired]

/-- The steps of the protocol up to the offer of a credential. -/
def offerSteps (credentialId mutualKey : String) : List PairEntry :=
  evidence.confirmSteps ++
    [.offerPersisted credentialId mutualKey, .offered credentialId mutualKey]

def ackSteps (credentialId mutualKey : String) : List PairEntry :=
  evidence.offerSteps credentialId mutualKey ++ [.acked credentialId]

def commitSteps (credentialId mutualKey : String) : List PairEntry :=
  evidence.ackSteps credentialId mutualKey ++ [.commitResolved credentialId]

end PairEvidence

/-- What has to stand in front of `onAuthenticated`. -/
def AuthenticationJustified (credentialId : String)
    (before : List PairEntry) : Prop :=
  (∀ entry ∈ before, ¬ entry.isFinal) ∧
  ∃ evidence : PairEvidence, ∃ mutualKey,
    evidence.Valid deps prims ∧
    (evidence.commitSteps credentialId mutualKey).Sublist before

def authenticationGuard (before : List PairEntry) : PairEntry → Prop
  | .authenticated credentialId _ =>
      AuthenticationJustified deps prims credentialId before
  | _ => True

/-! ## The invariant -/

def Confirmed (log : List PairEntry) : Prop :=
  ∃ evidence : PairEvidence,
    evidence.Valid deps prims ∧ evidence.confirmSteps.Sublist log

def OfferedFor (credentialId : String) (log : List PairEntry) : Prop :=
  ∃ evidence : PairEvidence, ∃ mutualKey,
    evidence.Valid deps prims ∧
    (evidence.offerSteps credentialId mutualKey).Sublist log

def AckedFor (credentialId : String) (log : List PairEntry) : Prop :=
  ∃ evidence : PairEvidence, ∃ mutualKey,
    evidence.Valid deps prims ∧
    (evidence.ackSteps credentialId mutualKey).Sublist log

end Evidence

namespace PairSession

/-- Before the channel is live, or on the way of the live channel. -/
def Open (session : PairSession) : Prop :=
  session.state ≠ .closed ∧ session.channel = none ∨
    session.state = .channelActive ∨ session.state = .offerSent ∨
    session.state = .acked

/-- No acknowledgement was taken up yet. -/
def Unacked (session : PairSession) : Prop :=
  session.state ≠ .closed ∧ session.channel = none ∨
    session.state = .channelActive ∨ session.state = .offerSent

structure Ordered (deps : PairSessionDeps) (prims : PairPrimitives)
    (session : PairSession) : Prop where
  guarded : Guarded (authenticationGuard deps prims) session.log
  unfinished : session.Open → ∀ entry ∈ session.log, ¬ entry.isFinal
  greeted : ∀ context, session.hello = some context → ∃ frame code,
    HelloBinds deps frame context ∧
    .hello frame context code ∈ session.log ∧
    (∀ drawn, session.codeNormalized = some drawn → drawn = code) ∧
    ∀ w, session.w = some w → prims.deriveW code deps.pairNonce = some w
  waiting : session.state = .awaitingHello →
    session.run = none ∧ session.w = none
  running : ∀ run, session.run = some run →
    ∃ context frame code pakeA tt,
      session.hello = some context ∧ HelloBinds deps frame context ∧
      [.hello frame context code, .pakeA pakeA].Sublist session.log ∧
      TranscriptOf deps prims context code pakeA tt ∧
      run = PairTurn.pakeRun prims context tt
  confirmed : session.state = .channelActive →
    Confirmed deps prims session.log
  offered : session.state = .offerSent →
    ∀ credentialId, session.offeredCredentialId = some credentialId →
      OfferedFor deps prims credentialId session.log
  acked : session.state = .acked →
    ∀ credentialId, session.offeredCredentialId = some credentialId →
      AckedFor deps prims credentialId session.log
  uncommitted : session.Unacked → ∀ credentialId,
    .commitFromPair credentialId ∉ session.awaiting
  committing : ∀ credentialId,
    .commitFromPair credentialId ∈ session.awaiting →
      session.offeredCredentialId = some credentialId

/-- Entries were added, and nothing the invariant speaks of was changed. -/
structure Extends (session next : PairSession) (more : List PairEntry) :
    Prop where
  log : next.log = session.log ++ more
  quiet : ∀ entry ∈ more, entry.isFinal = false
  state : next.state = session.state
  hello : next.hello = session.hello
  codeNormalized : next.codeNormalized = session.codeNormalized
  w : next.w = session.w
  run : next.run = session.run
  channel : next.channel = session.channel
  offeredCredentialId : next.offeredCredentialId = session.offeredCredentialId
  awaiting : next.awaiting = session.awaiting

/-! ## Small changes -/

namespace Ordered

variable {deps : PairSessionDeps} {prims : PairPrimitives}
  {session : PairSession}

theorem extend (ordered : Ordered deps prims session) {next : PairSession}
    {more : List PairEntry} (extended : Extends session next more) :
    Ordered deps prims next where
  guarded := by
    rw [extended.log]
    obtain ⟨-, quiet, -⟩ := extended
    induction more using List.reverseRecOn with
    | nil => simpa using ordered.guarded
    | append_singleton front last induction =>
        rw [← List.append_assoc]
        refine (induction fun entry member =>
          quiet entry (List.mem_append_left _ member)).concat ?_
        have harmless := quiet last (by simp)
        cases last <;> trivial
  unfinished := by
    intro isOpen entry member
    have wasOpen : session.Open := by
      simpa only [Open, extended.state, extended.channel] using isOpen
    rw [extended.log] at member
    rcases List.mem_append.mp member with earlier | added
    · exact ordered.unfinished wasOpen entry earlier
    · rw [extended.quiet entry added]
      exact Bool.false_ne_true
  greeted := by
    rw [extended.hello, extended.codeNormalized, extended.w, extended.log]
    intro context chosen
    obtain ⟨frame, code, binds, noted, drawn, derived⟩ :=
      ordered.greeted context chosen
    exact ⟨frame, code, binds, List.mem_append_left _ noted, drawn, derived⟩
  waiting := by
    rw [extended.state, extended.run, extended.w]
    exact ordered.waiting
  running := by
    rw [extended.run, extended.hello, extended.log]
    intro run chosen
    obtain ⟨context, frame, code, pakeA, tt, greeted, binds, order,
      transcript, computed⟩ := ordered.running run chosen
    exact ⟨context, frame, code, pakeA, tt, greeted, binds,
      order.trans (List.sublist_append_left _ _), transcript, computed⟩
  confirmed := by
    rw [extended.state, extended.log]
    intro active
    obtain ⟨evidence, valid, order⟩ := ordered.confirmed active
    exact ⟨evidence, valid, order.trans (List.sublist_append_left _ _)⟩
  offered := by
    rw [extended.state, extended.log, extended.offeredCredentialId]
    intro sent credentialId chosen
    obtain ⟨evidence, mutualKey, valid, order⟩ :=
      ordered.offered sent credentialId chosen
    exact ⟨evidence, mutualKey, valid,
      order.trans (List.sublist_append_left _ _)⟩
  acked := by
    rw [extended.state, extended.log, extended.offeredCredentialId]
    intro acknowledged credentialId chosen
    obtain ⟨evidence, mutualKey, valid, order⟩ :=
      ordered.acked acknowledged credentialId chosen
    exact ⟨evidence, mutualKey, valid,
      order.trans (List.sublist_append_left _ _)⟩
  uncommitted := by
    simpa only [Unacked, extended.state, extended.channel,
      extended.awaiting] using ordered.uncommitted
  committing := by
    rw [extended.awaiting, extended.offeredCredentialId]
    exact ordered.committing

theorem logged (ordered : Ordered deps prims session) (entry : PairEntry)
    (quiet : entry.isFinal = false) :
    Ordered deps prims
      { session with log := session.log ++ [entry] } :=
  ordered.extend
    { log := rfl
      quiet := fun chosen member => by
        rw [List.mem_singleton.mp member, quiet]
      state := rfl
      hello := rfl
      codeNormalized := rfl
      w := rfl
      run := rfl
      channel := rfl
      offeredCredentialId := rfl
      awaiting := rfl }

/-- A live session goes back to waiting for a frame of the key exchange. -/
theorem expecting (ordered : Ordered deps prims session) (state : PairState)
    (alive : session.state ≠ .closed)
    (early : state = .awaitingPakeA ∨ state = .awaitingConfirmA) :
    Ordered deps prims { session with state := state } where
  guarded := ordered.guarded
  unfinished := by
    intro isOpen
    refine ordered.unfinished (.inl ⟨alive, ?_⟩)
    rcases isOpen with ⟨-, inactive⟩ | late
    · exact inactive
    · rcases early with rfl | rfl <;> simp at late
  greeted := ordered.greeted
  waiting := by
    intro waiting
    rcases early with rfl | rfl <;> cases waiting
  running := ordered.running
  confirmed := by
    intro active
    rcases early with rfl | rfl <;> cases active
  offered := by
    intro sent
    rcases early with rfl | rfl <;> cases sent
  acked := by
    intro acknowledged
    rcases early with rfl | rfl <;> cases acknowledged
  uncommitted := by
    intro unacked
    refine ordered.uncommitted (.inl ⟨alive, ?_⟩)
    rcases unacked with ⟨-, inactive⟩ | late
    · exact inactive
    · rcases early with rfl | rfl <;> simp at late
  committing := ordered.committing

theorem withoutRun (ordered : Ordered deps prims session) :
    Ordered deps prims { session with run := none } :=
  { ordered with
    waiting := fun waiting => ⟨rfl, (ordered.waiting waiting).2⟩
    running := fun run chosen => by cases chosen }

theorem withoutPromise (ordered : Ordered deps prims session) (index : Nat) :
    Ordered deps prims
      { session with awaiting := session.awaiting.eraseIdx index } :=
  { ordered with
    uncommitted := fun unacked credentialId member =>
      ordered.uncommitted unacked credentialId
        (List.mem_of_mem_eraseIdx member)
    committing := fun credentialId member =>
      ordered.committing credentialId (List.mem_of_mem_eraseIdx member) }

/-- A promise other than a commit. -/
theorem withPromise (ordered : Ordered deps prims session)
    (promise : PairAwait)
    (other : ∀ credentialId, promise ≠ .commitFromPair credentialId) :
    Ordered deps prims
      { session with awaiting := session.awaiting ++ [promise] } := by
  have kept : ∀ credentialId,
      .commitFromPair credentialId ∈ session.awaiting ++ [promise] →
        .commitFromPair credentialId ∈ session.awaiting := by
    intro credentialId member
    rcases List.mem_append.mp member with earlier | last
    · exact earlier
    · exact absurd (List.mem_singleton.mp last).symm (other credentialId)
  exact
    { ordered with
      uncommitted := fun unacked credentialId member =>
        ordered.uncommitted unacked credentialId (kept credentialId member)
      committing := fun credentialId member =>
        ordered.committing credentialId (kept credentialId member) }

/-- Everything secret is dropped with the session. -/
theorem finished (ordered : Ordered deps prims session) :
    Ordered deps prims
      { session with
        state := .closed
        run := none
        w := none
        codeNormalized := none
        channel := none
        log := session.log ++ [.ended] } where
  guarded := ordered.guarded.concat trivial
  unfinished := by
    intro isOpen
    simp [Open] at isOpen
  greeted := by
    intro context chosen
    obtain ⟨frame, code, binds, noted, -, -⟩ :=
      ordered.greeted context chosen
    refine ⟨frame, code, binds, List.mem_append_left _ noted, ?_, ?_⟩
    · intro drawn known
      cases known
    · intro w derived
      cases derived
  waiting := fun waiting => by cases waiting
  running := fun run chosen => by cases chosen
  confirmed := fun active => by cases active
  offered := fun sent => by cases sent
  acked := fun acknowledged => by cases acknowledged
  uncommitted := by
    intro unacked
    simp [Unacked] at unacked
  committing := ordered.committing

/-! ## Ending a session -/

variable {turn : PairTurn} {answers : PairAnswers}

/-- The prompt, the counters and the flags are free to change. -/
theorem bookkept (ordered : Ordered deps prims session)
    (prompt : Option Nat) (confirmed admitted released : Bool)
    (attempts : Nat) :
    Ordered deps prims
      { session with
        prompt := prompt
        confirmed := confirmed
        admitted := admitted
        released := released
        attempts := attempts } :=
  { ordered with }

theorem settle (ordered : Ordered deps prims turn.session)
    (outcome : PromptOutcome) (now : Option Int) :
    Ordered deps prims (turn.settlePrompt outcome now).2.session := by
  obtain ⟨prompts, ⟨same, -⟩ | same⟩ := turn.settlePrompt_cases outcome now
  · rw [same]
    exact ordered
  · rw [same]
    have noted := ordered.logged (.settled outcome) rfl
    exact noted.bookkept none _ _ _ _

theorem release (ordered : Ordered deps prims turn.session) :
    Ordered deps prims (turn.releasePendingSlot deps).session := by
  unfold PairTurn.releasePendingSlot
  split
  · exact ordered
  · have noted := ordered.logged (.released deps.verifiedOrigin) rfl
    exact noted.bookkept _ _ _ true _

theorem dispose (ordered : Ordered deps prims turn.session) :
    Ordered deps prims (turn.dispose deps answers).session := by
  unfold PairTurn.dispose
  split
  · exact ordered
  · have finished : Ordered deps prims turn.finish.session :=
      ordered.finished
    exact (finished.settle .aborted answers.abortNow).release

theorem terminated (alive : turn.session.state ≠ .closed)
    (finished : Ordered deps prims turn.finish.session)
    (reason : PairCloseReason) :
    Ordered deps prims (turn.terminate deps answers reason).session := by
  unfold PairTurn.terminate
  rw [if_neg alive]
  exact ((finished.settle .aborted answers.abortNow).release).logged _ rfl

theorem terminate (ordered : Ordered deps prims turn.session)
    (reason : PairCloseReason) :
    Ordered deps prims (turn.terminate deps answers reason).session := by
  by_cases closed : turn.session.state = .closed
  · unfold PairTurn.terminate
    rw [if_pos closed]
    exact ordered
  · exact terminated closed ordered.finished reason

theorem fail (ordered : Ordered deps prims turn.session)
    (code : PairErrorCode) :
    Ordered deps prims (turn.fail deps answers code).session := by
  unfold PairTurn.fail
  split
  · have noted : Ordered deps prims
        (turn.note (.pairError code none)).session := ordered.logged _ rfl
    exact noted.terminate _
  · exact ordered

theorem violation (ordered : Ordered deps prims turn.session) :
    Ordered deps prims (turn.violation deps answers).session :=
  ordered.fail _

theorem expire (ordered : Ordered deps prims turn.session) :
    Ordered deps prims (turn.expire deps answers).session :=
  ordered.fail _

theorem failRun (ordered : Ordered deps prims turn.session)
    (alive : turn.session.state ≠ .closed) :
    Ordered deps prims (turn.failRun deps answers).session := by
  have dropped : Ordered deps prims
      (turn.update fun session => { session with run := none }).session :=
    ordered.withoutRun
  unfold PairTurn.failRun
  simp only
  split
  · exact dropped.fail _
  split
  · have noted := dropped.logged (.pairError .codeMismatch
      (some (maxAttempts - turn.session.attempts))) rfl
    exact noted.expecting .awaitingPakeA alive (.inl rfl)
  · exact dropped

/-! ## The hello and the key exchange -/

theorem hello (ordered : Ordered deps prims session)
    (waiting : session.state = .awaitingHello) {frame : PairHelloFrame}
    {context : HelloContext} (binds : HelloBinds deps frame context)
    (code : String) (codeExpiresAt : Int) :
    Ordered deps prims
      { session with
        hello := some context
        codeNormalized := some code
        codeExpiresAt := codeExpiresAt
        log := session.log ++ [.hello frame context code] } := by
  obtain ⟨noRun, noW⟩ := ordered.waiting waiting
  have logged := ordered.logged (.hello frame context code) rfl
  exact
    { logged with
      greeted := by
        intro chosen same
        cases same
        refine ⟨frame, code, binds, by simp, ?_, ?_⟩
        · intro drawn known
          cases known
          rfl
        · intro w derived
          rw [show session.w = none from noW] at derived
          cases derived
      running := by
        intro run chosen
        rw [show session.run = none from noRun] at chosen
        cases chosen }

theorem queuePrompt (ordered : Ordered deps prims turn.session)
    (waiting : turn.session.state = .awaitingHello) {frame : PairHelloFrame}
    {resolved : PairTurn.ResolvedIdentity} {aId aad : Bytes}
    (binds : HelloBinds deps frame
      (PairTurn.helloContext frame resolved aId aad)) (code : String) :
    Ordered deps prims (turn.queuePrompt deps answers frame resolved code aId
      aad).session := by
  have greeted := ordered.hello waiting binds code
    (answers.now + codeLifetimeMs)
  unfold PairTurn.queuePrompt
  simp only
  split
  · apply Ordered.terminate
    exact greeted
  split
  · apply Ordered.fail
    exact greeted
  · apply Ordered.fail
    exact greeted
  · have promised := (greeted.logged (.dialogQueued
      (PairTurn.dialogRequest deps frame resolved code)) rfl).withPromise
      .published (fun credentialId same => by cases same)
    exact promised.bookkept _ _ _ _ _

theorem takeUpHello (ordered : Ordered deps prims turn.session)
    (waiting : turn.session.state = .awaitingHello) {frame : PairHelloFrame}
    (browser : frame.browser = deps.browser)
    (normalized : NormalizedExtensionIdentity) :
    Ordered deps prims
      (turn.takeUpHello deps prims answers frame normalized).session := by
  have noted := ordered.logged (.admitted deps.verifiedOrigin) rfl
  have admitted := noted.bookkept turn.session.prompt turn.session.confirmed
    true turn.session.released turn.session.attempts
  unfold PairTurn.takeUpHello
  simp only
  split
  · apply Ordered.fail
    exact ordered
  cases resolution : PairTurn.resolveIdentity deps prims answers frame
      normalized with
  | error code =>
      apply Ordered.fail
      exact admitted
  | ok resolved =>
      simp only
      split
      · rename_i code aad aId _ _ identity
        apply Ordered.queuePrompt
        · exact admitted
        · exact waiting
        exact
          { browser := browser
            aId := identity
            ticket := PairTurn.resolveIdentity_bindingPub resolution }
      · apply Ordered.fail
        exact admitted

theorem onPairHello (ordered : Ordered deps prims turn.session)
    (body : Json) :
    Ordered deps prims
      (turn.onPairHello deps prims answers body).session := by
  unfold PairTurn.onPairHello
  split
  · exact ordered.violation
  rename_i waiting
  split
  · exact ordered.violation
  split
  · exact ordered.fail _
  split
  · exact ordered.violation
  rename_i browser
  split
  · exact ordered.violation
  split
  · exact ordered.violation
  · exact ordered.takeUpHello (not_not.mp waiting) (not_not.mp browser) _

theorem afterPublished (ordered : Ordered deps prims turn.session)
    (delivered : Bool) :
    Ordered deps prims
      (turn.afterPublished deps answers delivered).session := by
  unfold PairTurn.afterPublished
  split
  · exact ordered
  rename_i alive
  split
  · exact ordered.fail _
  split
  · exact ordered.expire
  have expecting := ordered.expecting .awaitingPakeA alive (.inl rfl)
  simp only
  split
  · exact expecting.logged _ rfl
  · exact expecting

theorem answerPakeA (ordered : Ordered deps prims turn.session)
    (waiting : turn.session.state = .awaitingPakeA)
    {context : HelloContext} {hello : PairHelloFrame} {code : String}
    {frame : PakeAFrame} {w : Nat} (y : Nat)
    (greeted : turn.session.hello = some context)
    (binds : HelloBinds deps hello context)
    (order : [.hello hello context code, .pakeA frame].Sublist
      turn.session.log)
    (derived : prims.deriveW code deps.pairNonce = some w) :
    Ordered deps prims
      (turn.answerPakeA deps prims answers context frame w y).session := by
  have alive : turn.session.state ≠ .closed := by
    rw [waiting]
    exact fun same => by cases same
  unfold PairTurn.answerPakeA
  simp only
  split
  · exact ordered.failRun alive
  · exact ordered.violation
  rename_i k shared
  split
  · exact ordered
  rename_i tt transcript
  have computed : Ordered deps prims
      { turn.session with
        run := some (PairTurn.pakeRun prims context tt) } :=
    { ordered with
      waiting := fun again => by
        rw [show turn.session.state = .awaitingPakeA from waiting] at again
        cases again
      running := by
        intro run chosen
        cases chosen
        exact ⟨context, hello, code, frame, tt, greeted, binds, order,
          ⟨w, y, k, derived, shared, transcript⟩, rfl⟩ }
  split
  · apply Ordered.terminate
    exact computed
  have expecting := computed.expecting .awaitingConfirmA alive (.inr rfl)
  split
  · exact expecting.logged _ rfl
  · exact expecting

theorem onPakeA (ordered : Ordered deps prims turn.session) (body : Json) :
    Ordered deps prims (turn.onPakeA deps prims answers body).session := by
  unfold PairTurn.onPakeA
  cases greeted : turn.session.hello with
  | none => exact ordered.violation
  | some context =>
      simp only
      split
      · exact ordered.violation
      rename_i waiting
      have waiting := not_not.mp waiting
      split
      · exact ordered.expire
      have counted := ordered.bookkept turn.session.prompt
        turn.session.confirmed turn.session.admitted turn.session.released
        (turn.session.attempts + 1)
      split
      · apply Ordered.violation
        exact counted
      rename_i frame _
      have noted := counted.logged (.pakeA frame) rfl
      obtain ⟨hello, code, binds, member, drawn, derived⟩ :=
        ordered.greeted context greeted
      split
      · apply Ordered.fail
        exact noted
      rename_i w known
      have derivedW : prims.deriveW code deps.pairNonce = some w := by
        change PairTurn.deriveWOnce deps prims turn.session = some w at known
        unfold PairTurn.deriveWOnce at known
        cases cached : turn.session.w with
        | some cachedW =>
            simp only [cached, Option.some.injEq] at known
            exact derived w (known ▸ cached)
        | none =>
            simp only [cached, Option.bind_eq_some_iff] at known
            obtain ⟨drawnCode, chosen, value⟩ := known
            exact drawn drawnCode chosen ▸ value
      have withW : Ordered deps prims
          { turn.session with
            attempts := turn.session.attempts + 1
            log := turn.session.log ++ [.pakeA frame]
            w := some w } :=
        { noted with
          greeted := by
            intro chosen same
            cases greeted.symm.trans same
            refine ⟨hello, code, binds, List.mem_append_left _ member, drawn,
              ?_⟩
            intro other chosen
            cases chosen
            exact derivedW
          waiting := fun again => by
            rw [show turn.session.state = .awaitingPakeA from waiting]
              at again
            cases again }
      split
      · apply Ordered.fail
        exact withW
      · have order :=
          (List.singleton_sublist.mpr member).append
            (List.Sublist.refl [PairEntry.pakeA frame])
        apply Ordered.answerPakeA
        · exact withW
        · exact waiting
        · exact greeted
        · exact binds
        · exact order
        · exact derivedW

/-! ## The confirmation -/

theorem activate (ordered : Ordered deps prims turn.session)
    (alive : turn.session.state ≠ .closed)
    (inactive : turn.session.channel = none)
    (confirmed : Confirmed deps prims turn.session.log)
    (context : HelloContext) (run : PakeRun) :
    Ordered deps prims (turn.activate deps prims context run).session := by
  have noted := ordered.logged (.confirmB run.cB) rfl
  have active : ∀ channel, Ordered deps prims
      { turn.session with
        channel := some channel
        state := .channelActive
        run := none
        w := none
        codeNormalized := none
        log := turn.session.log ++ [.confirmB run.cB] } := by
    intro channel
    exact
      { guarded := noted.guarded
        unfinished := fun _ => noted.unfinished (.inl ⟨alive, inactive⟩)
        greeted := by
          intro context chosen
          obtain ⟨frame, code, binds, member, -, -⟩ :=
            noted.greeted context chosen
          refine ⟨frame, code, binds, member, ?_, ?_⟩
          · intro drawn known
            cases known
          · intro w derived
            cases derived
        waiting := fun waiting => by cases waiting
        running := fun run chosen => by cases chosen
        confirmed := by
          intro _
          obtain ⟨evidence, valid, order⟩ := confirmed
          exact ⟨evidence, valid,
            order.trans (List.sublist_append_left _ _)⟩
        offered := fun sent => by cases sent
        acked := fun acknowledged => by cases acknowledged
        uncommitted := fun _ =>
          ordered.uncommitted (.inl ⟨alive, inactive⟩)
        committing := ordered.committing }
  unfold PairTurn.activate
  apply Ordered.withPromise
  · apply Ordered.release
    exact active _
  · intro credentialId same
    cases same

theorem settlePaired (ordered : Ordered deps prims turn.session)
    (alive : turn.session.state ≠ .closed)
    (inactive : turn.session.channel = none) {evidence : PairEvidence}
    (valid : evidence.Valid deps prims)
    (order : [.hello evidence.hello evidence.context evidence.code,
      .pakeA evidence.pakeA, .confirmA evidence.confirmA].Sublist
        turn.session.log)
    (context : HelloContext) (run : PakeRun) :
    Ordered deps prims
      (turn.settlePaired deps prims answers context run).session := by
  have kept := ordered.settle .paired answers.settleNow
  unfold PairTurn.settlePaired
  obtain ⟨prompts, ⟨same, refused⟩ | same⟩ :=
    turn.settlePrompt_cases .paired answers.settleNow
  · rcases outcome : turn.settlePrompt .paired answers.settleNow with
      ⟨final | _ | _, next⟩
    · exact absurd (congrArg Prod.fst outcome) (refused final)
    · rw [outcome] at kept
      exact kept
    · rw [outcome] at kept
      exact kept.fail _
  · rw [same] at kept ⊢
    have confirmed := kept.bookkept none true turn.session.admitted
      turn.session.released turn.session.attempts
    simp only
    split
    · apply Ordered.activate
      · exact confirmed
      · exact alive
      · exact inactive
      · refine ⟨evidence, valid, ?_⟩
        exact order.append (List.Sublist.refl [PairEntry.settled .paired])
    · exact confirmed

/-- The checks of `confirmA` are those of the evidence. -/
theorem confirmA_valid {context : HelloContext} {hello : PairHelloFrame}
    {code : String} {pakeA : PakeAFrame} {frame : ConfirmAFrame} {tt : Bytes}
    (binds : HelloBinds deps hello context)
    (transcript : TranscriptOf deps prims context code pakeA tt)
    (present :
      context.ticketBindingPub.isSome = frame.ticketProof.isSome)
    (mac : frame.cA.bytes = (PairTurn.pakeRun prims context tt).expectedCA)
    (proved : PairTurn.ticketProofOk prims context
      (PairTurn.pakeRun prims context tt) frame = true) :
    PairEvidence.Valid deps prims
      ⟨hello, context, code, pakeA, frame⟩ where
  binds := binds
  confirmed := by
    refine ⟨tt, transcript, mac, ?_⟩
    intro bindingPub bound
    rw [bound] at present
    obtain ⟨proof, given⟩ := Option.isSome_iff_exists.mp present.symm
    refine ⟨proof, given, ?_⟩
    unfold PairTurn.ticketProofOk at proved
    rw [bound, given] at proved
    exact proved

theorem onConfirmA (ordered : Ordered deps prims turn.session)
    (inactive : turn.session.channel = none) (body : Json) :
    Ordered deps prims
      (turn.onConfirmA deps prims answers body).session := by
  unfold PairTurn.onConfirmA
  cases started : turn.session.run with
  | none => exact ordered.violation
  | some run =>
      cases greeted : turn.session.hello with
      | none => exact ordered.violation
      | some context =>
          simp only
          split
          · exact ordered.violation
          rename_i waiting
          have alive : turn.session.state ≠ .closed := by
            rw [not_not.mp waiting]
            exact fun same => by cases same
          split
          · exact ordered.expire
          split
          · exact ordered.violation
          rename_i frame _
          have noted := ordered.logged (.confirmA frame) rfl
          split
          · apply Ordered.violation
            exact noted
          rename_i present
          split
          · apply Ordered.failRun
            · exact noted
            · exact alive
          rename_i checked
          split
          · apply Ordered.terminate
            exact noted
          simp only [not_or, not_not] at checked present
          obtain ⟨mac, proved⟩ := checked
          obtain ⟨context', hello, code, pakeA, tt, greeted', binds, order,
            transcript, rfl⟩ := ordered.running run started
          cases greeted.symm.trans greeted'
          have valid := confirmA_valid binds transcript present mac proved
          have confirming :=
            order.append (List.Sublist.refl [PairEntry.confirmA frame])
          apply Ordered.settlePaired
          · exact noted
          · exact alive
          · exact inactive
          · exact valid
          · exact confirming

/-! ## The credential -/

/-- The offer goes out on a confirmed channel, or the session ends. -/
theorem sendOffer (ordered : Ordered deps prims turn.session)
    (active : turn.session.state = .channelActive) {channel : PairChannel}
    (live : turn.session.channel = some channel) (offer : CredentialOffer)
    {evidence : PairEvidence} (valid : evidence.Valid deps prims)
    (order : (evidence.confirmSteps ++
      [PairEntry.offerPersisted offer.credentialId
        offer.mutualKeyB64]).Sublist turn.session.log) :
    Ordered deps prims ((turn.markOffered offer).sendSealed deps prims answers
      (PairTurn.credentialOfferFrame offer)
      (.offered offer.credentialId offer.mutualKeyB64)).2.session := by
  have uncommitted := ordered.uncommitted (.inr (.inl active))
  have marked : (turn.markOffered offer).session.channel = some channel :=
    live
  obtain unsent | ⟨advanced, sent⟩ := PairTurn.sendSealed_cases prims
    (PairTurn.credentialOfferFrame offer)
    (.offered offer.credentialId offer.mutualKeyB64) marked
  · rw [unsent]
    apply Ordered.terminated
    · intro same
      cases same
    · exact
        { ordered.finished with
          offered := fun sent => by cases sent
          acked := fun acknowledged => by cases acknowledged
          committing := fun credentialId member =>
            absurd member (uncommitted credentialId) }
  · rw [sent]
    have grown := ordered.logged
      (.offered offer.credentialId offer.mutualKeyB64) rfl
    exact
      { guarded := grown.guarded
        unfinished := fun _ => grown.unfinished (.inr (.inl active))
        greeted := grown.greeted
        waiting := fun waiting => by cases waiting
        running := grown.running
        confirmed := fun again => by cases again
        offered := by
          intro _ credentialId chosen
          cases chosen
          refine ⟨evidence, offer.mutualKeyB64, valid, ?_⟩
          have extended := order.append (List.Sublist.refl
            [PairEntry.offered offer.credentialId offer.mutualKeyB64])
          rw [List.append_assoc] at extended
          exact extended
        acked := fun acknowledged => by cases acknowledged
        uncommitted := fun _ => uncommitted
        committing := fun credentialId member =>
          absurd member (uncommitted credentialId) }

theorem afterOffer (ordered : Ordered deps prims turn.session)
    (answer : Option CredentialOffer) :
    Ordered deps prims
      (turn.afterOffer deps prims answers answer).session := by
  unfold PairTurn.afterOffer
  cases answer with
  | none => exact ordered.terminate _
  | some offer =>
      have noted := ordered.logged
        (.offerPersisted offer.credentialId offer.mutualKeyB64) rfl
      simp only
      split
      · exact noted
      rename_i active
      simp only [not_or, not_not, Option.isNone_iff_eq_none] at active
      obtain ⟨active, present⟩ := active
      split
      · apply Ordered.terminate
        exact noted
      obtain ⟨channel, live⟩ := Option.ne_none_iff_exists'.mp present
      obtain ⟨evidence, valid, order⟩ := ordered.confirmed active
      have persisted := order.append (List.Sublist.refl
        [PairEntry.offerPersisted offer.credentialId offer.mutualKeyB64])
      apply Ordered.sendOffer
      · exact noted
      · exact active
      · exact live
      · exact valid
      · exact persisted

theorem acknowledge (ordered : Ordered deps prims turn.session)
    (sent : turn.session.state = .offerSent)
    (live : turn.session.channel.isSome) {credentialId : String}
    (offered : turn.session.offeredCredentialId = some credentialId) :
    Ordered deps prims (turn.acknowledge credentialId).session := by
  have grown := ordered.logged (.acked credentialId) rfl
  obtain ⟨evidence, mutualKey, valid, order⟩ :=
    ordered.offered sent credentialId offered
  exact
    { guarded := grown.guarded
      unfinished := fun _ => grown.unfinished (.inr (.inr (.inl sent)))
      greeted := grown.greeted
      waiting := fun waiting => by cases waiting
      running := grown.running
      confirmed := fun active => by cases active
      offered := fun again => by cases again
      acked := by
        intro _ chosenId chosen
        cases offered.symm.trans chosen
        exact ⟨evidence, mutualKey, valid,
          order.append (List.Sublist.refl [PairEntry.acked credentialId])⟩
      uncommitted := by
        intro unacked
        rcases unacked with ⟨-, inactive⟩ | active | again
        · rw [show turn.session.channel = none from inactive] at live
          cases live
        · cases active
        · cases again
      committing := by
        intro chosenId member
        rcases List.mem_append.mp member with earlier | last
        · exact absurd earlier
            (ordered.uncommitted (.inr (.inr sent)) chosenId)
        · cases List.mem_singleton.mp last
          exact offered }

theorem handleBinary (ordered : Ordered deps prims turn.session)
    (data : Bytes) :
    Ordered deps prims
      (turn.handleBinary deps prims answers data).session := by
  unfold PairTurn.handleBinary
  split
  · exact ordered
  cases live : turn.session.channel with
  | none => exact ordered.terminate _
  | some channel =>
      simp only
      split
      · exact ordered.terminate _
      rename_i sent
      have sent := not_not.mp sent
      split
      · exact ordered.terminate _
      rename_i plaintext opener _
      have advanced : Ordered deps prims
          { turn.session with
            channel := some { channel with opener := opener } } :=
        { ordered with
          unfinished := fun _ =>
            ordered.unfinished (.inr (.inr (.inl sent)))
          uncommitted := fun _ =>
            ordered.uncommitted (.inr (.inr sent)) }
      split
      · apply Ordered.terminate
        exact advanced
      split
      · apply Ordered.terminate
        exact advanced
      · rename_i named
        apply Ordered.acknowledge
        · exact advanced
        · exact sent
        · rfl
        · exact (not_not.mp named).symm

theorem afterCommit (ordered : Ordered deps prims turn.session)
    {credentialId : String}
    (offered : turn.session.offeredCredentialId = some credentialId)
    (resolved : Bool) :
    Ordered deps prims
      (turn.afterCommit deps prims answers credentialId resolved).session := by
  have noted := ordered.logged (.commitResolved credentialId) rfl
  unfold PairTurn.afterCommit
  split
  · exact ordered.terminate _
  simp only
  split
  · exact noted
  rename_i acked
  simp only [not_or, not_not, Option.isNone_iff_eq_none] at acked
  obtain ⟨acked, present⟩ := acked
  have acked : turn.session.state = .acked := acked
  obtain ⟨channel, live⟩ := Option.ne_none_iff_exists'.mp present
  obtain ⟨evidence, mutualKey, valid, order⟩ :=
    ordered.acked acked credentialId offered
  obtain unsent | ⟨advanced, sent⟩ := PairTurn.sendSealed_cases prims
    PairTurn.credentialCommittedFrame .committedSent live
  · rw [unsent]
    exact Ordered.terminate noted _
  · rw [sent]
    have announced := noted.logged .committedSent rfl
    have justified : AuthenticationJustified deps prims credentialId
        (turn.session.log ++ [.commitResolved credentialId] ++
          [.committedSent]) := by
      refine ⟨announced.unfinished (.inr (.inr (.inr acked))), evidence,
        mutualKey, valid, ?_⟩
      have committed := order.append
        (List.Sublist.refl [PairEntry.commitResolved credentialId])
      exact committed.trans (List.sublist_append_left _ _)
    exact
      { guarded := announced.guarded.concat justified
        unfinished := by
          intro isOpen
          rcases isOpen with ⟨-, inactive⟩ | active | sent | acked
          · cases inactive
          · cases active
          · cases sent
          · cases acked
        greeted := by
          intro context chosen
          obtain ⟨frame, code, binds, member, known⟩ :=
            announced.greeted context chosen
          exact ⟨frame, code, binds, List.mem_append_left _ member, known⟩
        waiting := fun waiting => by cases waiting
        running := by
          intro run chosen
          obtain ⟨context, frame, code, pakeA, tt, greeted, binds, order,
            computed⟩ := announced.running run chosen
          exact ⟨context, frame, code, pakeA, tt, greeted, binds,
            order.trans (List.sublist_append_left _ _), computed⟩
        confirmed := fun active => by cases active
        offered := fun sent => by cases sent
        acked := fun again => by cases again
        uncommitted := by
          intro unacked
          rcases unacked with ⟨-, inactive⟩ | active | sent
          · cases inactive
          · cases active
          · cases sent
        committing := announced.committing }

/-! ## One event -/

theorem handleText (ordered : Ordered deps prims turn.session)
    (body : Option Json) (byteLength : Nat) :
    Ordered deps prims
      (turn.handleText deps prims answers body byteLength).session := by
  unfold PairTurn.handleText
  split
  · exact ordered
  split
  · exact ordered.fail _
  split
  · exact ordered.terminate _
  rename_i inactive
  have inactive : turn.session.channel = none := by
    simpa using inactive
  split
  · exact ordered.violation
  cases body with
  | none => exact ordered.violation
  | some value =>
      simp only
      split
      · exact ordered.onPairHello value
      · exact ordered.onPakeA value
      · exact ordered.onConfirmA inactive value
      · exact ordered.violation

theorem onPromptTerminal (ordered : Ordered deps prims turn.session)
    (outcome : Option PromptOutcome) :
    Ordered deps prims
      (turn.onPromptTerminal deps answers outcome).session := by
  unfold PairTurn.onPromptTerminal
  split
  · exact ordered
  · exact ordered.fail _

theorem resume (ordered : Ordered deps prims turn.session) (index : Nat)
    (settlement : PairSettlement) :
    Ordered deps prims
      (turn.resume deps prims answers index settlement).session := by
  have resumed := ordered.withoutPromise index
  unfold PairTurn.resume
  simp only
  split
  · apply Ordered.afterPublished
    exact resumed
  · apply Ordered.afterOffer
    exact resumed
  · rename_i credentialId resolved pending
    apply Ordered.afterCommit
    · exact resumed
    · exact ordered.committing credentialId (List.mem_of_getElem? pending)
  · exact ordered

theorem handle (ordered : Ordered deps prims turn.session)
    (event : PairEvent) :
    Ordered deps prims (turn.handle deps prims answers event).session := by
  cases event with
  | text body byteLength => exact ordered.handleText body byteLength
  | binary data => exact ordered.handleBinary data
  | promptTerminal outcome => exact ordered.onPromptTerminal outcome
  | settled index settlement => exact ordered.resume index settlement
  | dispose => exact ordered.dispose

theorem fresh : Ordered deps prims .fresh where
  guarded := Guarded.nil
  unfinished := fun _ _ member => absurd member List.not_mem_nil
  greeted := fun _ chosen => by cases chosen
  waiting := fun _ => ⟨rfl, rfl⟩
  running := fun _ chosen => by cases chosen
  confirmed := fun active => by cases active
  offered := fun sent => by cases sent
  acked := fun acknowledged => by cases acknowledged
  uncommitted := fun _ _ member => absurd member List.not_mem_nil
  committing := fun _ member => absurd member List.not_mem_nil

end Ordered

end PairSession

/-! ## Every run of a server -/

namespace PairServer

/-- Every session of the server is in order. -/
def AllOrdered (prims : PairPrimitives) (server : PairServer) : Prop :=
  ∀ entry ∈ server.sessions, entry.2.Ordered entry.1 prims

variable {prims : PairPrimitives} {server : PairServer}

theorem AllOrdered.step (ordered : server.AllOrdered prims)
    (event : PairServerEvent) : (server.step prims event).AllOrdered prims := by
  cases event with
  | connect deps =>
      intro entry member
      rcases List.mem_append.mp member with earlier | last
      · exact ordered entry earlier
      · rw [List.mem_singleton.mp last]
        exact .fresh
  | promptEnds promptId outcome => exact ordered
  | recordOutcome outcome now => exact ordered
  | session index event answers =>
      unfold PairServer.step
      simp only
      split
      · exact ordered
      rename_i deps session chosen
      intro entry member
      rcases List.mem_or_eq_of_mem_set member with earlier | rfl
      · exact ordered entry earlier
      · apply PairSession.Ordered.handle
        exact ordered _ (List.mem_of_getElem? chosen)

theorem AllOrdered.run (ordered : server.AllOrdered prims)
    (events : List PairServerEvent) :
    (server.run prims events).AllOrdered prims := by
  induction events generalizing server with
  | nil => exact ordered
  | cons event rest induction => exact induction (ordered.step event)

/-- In every run, each session hands its channel over at most once, only after
every step of the protocol, and never after it ended. -/
theorem authenticated_justified (prims : PairPrimitives) (pendingCap : Nat)
    (events : List PairServerEvent) :
    ∀ entry ∈ ((start pendingCap).run prims events).sessions,
      (entry.2.log.filter PairEntry.isAuthenticated).length ≤ 1 ∧
      ∀ before credentialId channel after,
        entry.2.log =
          before ++ .authenticated credentialId channel :: after →
        AuthenticationJustified entry.1 prims credentialId before := by
  intro entry member
  have none : (start pendingCap).AllOrdered prims :=
    fun _ member => absurd member List.not_mem_nil
  have ordered := none.run events entry member
  constructor
  · refine ordered.guarded.atMostOnce ?_
    intro before chosen allowed authenticated earlier member again
    cases chosen with
    | authenticated credentialId channel =>
        obtain ⟨unfinished, -⟩ := allowed
        refine unfinished earlier member ?_
        cases earlier <;> first | exact again | cases again
    | _ => cases authenticated
  · intro before credentialId channel after split
    exact ordered.guarded before (.authenticated credentialId channel) after
      split

/-! ## A pairing that completes -/

def sampleDeps : PairSessionDeps :=
  { nonceValid := true
    pairNonce := "nonce"
    verifiedOrigin := "chrome-extension://aaaa"
    browser := .chromium
    instanceId := "instance"
    serverGeneration := "generation"
    localToken := "token"
    isOfficialId := fun _ _ => true }

def zeros (length : Nat) : Bytes := List.replicate length 0

theorem length_zeros (length : Nat) : (zeros length).length = length :=
  List.length_replicate

/-- Primitives whose outputs are all zero. -/
def zeroPrimitives : PairPrimitives :=
  { hkdf32 := fun _ _ _ => zeros 32
    hmacSha256 := fun _ _ => zeros 32
    pointFromBytes := fun _ => none
    sha256 := fun _ => zeros 32
    verifySignature := fun _ _ _ => none
    aead :=
      { ciphertext := fun _ _ _ plaintext => zeros plaintext.length
        authTag := fun _ _ _ _ => zeros tagLength
        ciphertext_length := fun _ _ _ plaintext =>
          length_zeros plaintext.length
        authTag_length := fun _ _ _ _ => length_zeros tagLength }
    deriveW := fun _ _ => some 1
    computePublicB := fun _ _ => zeros 32
    sharedFromB := fun _ _ _ => .ok []
    parseUrl := fun text => some
      { protocol := "chrome-extension:"
        hostname := String.ofList (text.toList.drop 19)
        host := String.ofList (text.toList.drop 19)
        port := ""
        username := ""
        password := ""
        pathname := ""
        search := ""
        hash := "" }
    parseJson := fun _ => some (.object
      [("type", .string "credentialAck"), ("credentialId", .string "id")])
    stringifyJson := fun _ => [] }

def sampleAnswers : PairAnswers :=
  { admitNow := 0
    ticketNow := 0
    now := 0
    replay := .empty
    random5 := zeros 5
    scalar := some 1
    enqueued := .accepted 120000
    settleNow := some 1
    abortNow := some 1
    ledger := [Aead.encrypt zeroPrimitives.aead (zeros 32)
      (bigEndian 4 1 ++ bigEndian 8 0) envelopeAad []]
    textWritten := true
    binaryWritten := true }

def samplePairing : List PairServerEvent :=
  .connect sampleDeps ::
    [PairEvent.text (some (.object
        [("type", .string "pairHello"), ("protocolVersion", .number 1),
          ("browser", .string "chromium"),
          ("claimedExtensionId", .string "aaaa"),
          ("clientInstallationId", .string "one")])) 100,
      .settled 0 (.published true),
      .text (some (.object
        [("type", .string "pakeA"),
          ("pA", .string (toBase64Url (zeros 32)))])) 100,
      .text (some (.object
        [("type", .string "confirmA"),
          ("cA", .string (toBase64Url (zeros 32)))])) 100,
      .settled 0 (.offerProvisional (some ⟨"id", toBase64Url (zeros 32)⟩)),
      .binary (bigEndian 8 0 ++ zeros tagLength),
      .settled 0 (.commitFromPair true)].map
        fun event => .session 0 event sampleAnswers

def samplePaired : PairSessionDeps × PairSession :=
  ((start 3).run zeroPrimitives samplePairing).sessions.headD
    (sampleDeps, .fresh)

theorem headD_mem_of_length {α : Type} {items : List α} (fallback : α)
    (single : items.length = 1) : items.headD fallback ∈ items := by
  cases items with
  | nil => cases single
  | cons first rest => exact List.mem_cons_self

/-- The handover is the last thing the sample session logs. -/
theorem samplePaired_log : ∃ channel,
    samplePaired.2.log =
      samplePaired.2.log.dropLast ++ [.authenticated "id" channel] := by
  have last : (samplePaired.2.log.getLast?.any fun entry =>
      match entry with
      | .authenticated credentialId _ => credentialId = "id"
      | _ => false) = true := by
    decide +kernel
  cases final : samplePaired.2.log.getLast? with
  | none => simp [final] at last
  | some entry =>
      rw [final] at last
      have split := List.dropLast_append_getLast? entry final
      cases entry with
      | authenticated credentialId channel =>
          have named : credentialId = "id" := by simpa using last
          exact ⟨channel, by rw [← named, split]⟩
      | _ => simp at last

theorem samplePairing_justified :
    (samplePaired.2.log.filter PairEntry.isAuthenticated).length ≤ 1 ∧
    AuthenticationJustified samplePaired.1 zeroPrimitives "id"
      samplePaired.2.log.dropLast := by
  have member : samplePaired ∈
      ((start 3).run zeroPrimitives samplePairing).sessions :=
    headD_mem_of_length _ (by decide +kernel)
  obtain ⟨once, justified⟩ := authenticated_justified zeroPrimitives 3
    samplePairing samplePaired member
  obtain ⟨channel, split⟩ := samplePaired_log
  exact ⟨once, justified _ "id" channel [] split⟩

end PairServer

end Motrix.Bridge
