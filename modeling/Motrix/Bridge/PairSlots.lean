import Motrix.Bridge.PairSession

/-!
# Pending slots

The pending origins of the flood control are exactly the origins of the
sessions that were admitted and have not released, in every state a server
reaches.
-/

namespace Motrix.Bridge

open Motrix.Lib

namespace PairEntry

def isAdmitted : PairEntry → Bool
  | .admitted _ => true
  | _ => false

def isReleased : PairEntry → Bool
  | .released _ => true
  | _ => false

end PairEntry

namespace PairSession

/-- Admitted and not yet released, as the log tells it. -/
def holdsSlot (session : PairSession) : Bool :=
  session.log.any PairEntry.isAdmitted && !session.log.any PairEntry.isReleased

def releases (session : PairSession) : List PairEntry :=
  session.log.filter PairEntry.isReleased

/-- The session ended, or its prompt was settled and its channel is live. -/
def Over (session : PairSession) : Prop :=
  session.state = .closed ∨ session.channel.isSome

/-- The origin of the slot the session holds, if any. -/
def heldOrigins (deps : PairSessionDeps) (session : PairSession) :
    List String :=
  if session.admitted && !session.released then [deps.verifiedOrigin] else []

end PairSession

namespace PairTurn

/-! ## The books of one session -/

/-- What the flags, the log and the shared pending set say agrees; `others`
are the origins held by other sessions. -/
structure Books (deps : PairSessionDeps) (pendingCap : Nat)
    (others : List String) (turn : PairTurn) : Prop where
  pending : turn.flood.pendingOrigins.Perm
    (turn.session.heldOrigins deps ++ others)
  distinct : turn.flood.pendingOrigins.Nodup
  cap : turn.flood.pendingCap = pendingCap
  capped : turn.flood.pendingOrigins.length ≤ pendingCap
  admissions : turn.session.log.filter PairEntry.isAdmitted =
    if turn.session.admitted then [.admitted deps.verifiedOrigin] else []
  releases : turn.session.releases =
    if turn.session.released then [.released deps.verifiedOrigin] else []
  backed : turn.session.released = true → turn.session.admitted = true

structure Balanced (deps : PairSessionDeps) (pendingCap : Nat)
    (others : List String) (turn : PairTurn) : Prop
    extends Books deps pendingCap others turn where
  freed : turn.session.Over → turn.session.admitted = true →
    turn.session.released = true
  greetable : turn.session.state = .awaitingHello →
    turn.session.released = false

/-- Neither the shared set nor anything the books speak of changed. -/
structure Bystands (turn next : PairTurn) (more : List PairEntry) :
    Prop where
  flood : next.flood = turn.flood
  admitted : next.session.admitted = turn.session.admitted
  released : next.session.released = turn.session.released
  log : next.session.log = turn.session.log ++ more
  quiet : ∀ entry ∈ more, entry.isAdmitted = false ∧ entry.isReleased = false

variable {deps : PairSessionDeps} {prims : PairPrimitives}
  {answers : PairAnswers} {pendingCap : Nat} {others : List String}
  {turn next : PairTurn} {more : List PairEntry}

theorem Books.bystand (books : Books deps pendingCap others turn)
    (bystands : Bystands turn next more) :
    Books deps pendingCap others next where
  pending := by
    unfold PairSession.heldOrigins
    rw [bystands.flood, bystands.admitted, bystands.released]
    exact books.pending
  distinct := bystands.flood ▸ books.distinct
  cap := bystands.flood ▸ books.cap
  capped := bystands.flood ▸ books.capped
  admissions := by
    have silent : more.filter PairEntry.isAdmitted = [] :=
      List.filter_eq_nil_iff.mpr fun entry member => by
        rw [(bystands.quiet entry member).1]
        exact Bool.false_ne_true
    rw [bystands.log, bystands.admitted, List.filter_append, silent,
      List.append_nil]
    exact books.admissions
  releases := by
    have silent : more.filter PairEntry.isReleased = [] :=
      List.filter_eq_nil_iff.mpr fun entry member => by
        rw [(bystands.quiet entry member).2]
        exact Bool.false_ne_true
    unfold PairSession.releases
    rw [bystands.log, bystands.released, List.filter_append, silent,
      List.append_nil]
    exact books.releases
  backed := by
    rw [bystands.released, bystands.admitted]
    exact books.backed

/-- A step that bystands and neither ends the session nor restarts it. -/
theorem Balanced.bystand (balanced : Balanced deps pendingCap others turn)
    (bystands : Bystands turn next more)
    (wasOver : next.session.Over → turn.session.Over)
    (restart : next.session.state = .awaitingHello →
      turn.session.state = .awaitingHello) :
    Balanced deps pendingCap others next where
  toBooks := balanced.toBooks.bystand bystands
  freed := by
    rw [bystands.released, bystands.admitted]
    exact fun isOver => balanced.freed (wasOver isOver)
  greetable := by
    rw [bystands.released]
    exact fun waiting => balanced.greetable (restart waiting)

/-! ## Taking and giving back the slot -/

/-- Once released, the books are closed whatever the state is. -/
theorem Books.release (books : Books deps pendingCap others turn)
    (later : turn.session.state ≠ .awaitingHello) :
    Balanced deps pendingCap others (turn.releasePendingSlot deps) := by
  by_cases held : turn.session.admitted = true ∧ turn.session.released = false
  · obtain ⟨admitted, unreleased⟩ := held
    rw [releasePendingSlot_of_held admitted unreleased]
    have pending := books.pending
    simp only [PairSession.heldOrigins, admitted, unreleased, Bool.not_false,
      Bool.and_true, if_true, List.cons_append, List.nil_append] at pending
    have released := PairFloodControl.release_perm pending books.distinct
    have shorter : (turn.flood.release
        deps.verifiedOrigin).pendingOrigins.length ≤ pendingCap :=
      (List.length_filter_le _ _).trans books.capped
    exact
      { pending := by
          simpa [PairSession.heldOrigins] using released
        distinct := books.distinct.filter _
        cap := books.cap
        capped := shorter
        admissions := by
          have admissions := books.admissions
          simp only [List.filter_append]
          rw [admissions]
          simp [admitted, PairEntry.isAdmitted]
        releases := by
          have releases := books.releases
          simp only [PairSession.releases, unreleased] at releases ⊢
          rw [List.filter_append, releases]
          simp [PairEntry.isReleased]
        backed := fun _ => admitted
        freed := fun _ _ => rfl
        greetable := fun waiting => absurd waiting later }
  · have unheld : turn.session.admitted = false ∨
        turn.session.released = true := by
      rcases admitted : turn.session.admitted with _ | _
      · exact .inl rfl
      · right
        simpa [admitted] using held
    rw [releasePendingSlot_of_unheld unheld]
    exact
      { books with
        freed := fun _ admitted => by
          rcases unheld with unadmitted | released
          · rw [admitted] at unadmitted
            cases unadmitted
          · exact released
        greetable := fun waiting => absurd waiting later }

theorem settlePrompt_bystands (outcome : PromptOutcome) (now : Option Int) :
    ∃ more, Bystands turn (turn.settlePrompt outcome now).2 more ∧
      (turn.settlePrompt outcome now).2.session.state =
        turn.session.state ∧
      (turn.settlePrompt outcome now).2.session.channel =
        turn.session.channel := by
  obtain ⟨prompts, ⟨same, -⟩ | same⟩ := turn.settlePrompt_cases outcome now
  · rw [same]
    refine ⟨[], ?_, rfl, rfl⟩
    exact
      { flood := rfl
        admitted := rfl
        released := rfl
        log := (List.append_nil _).symm
        quiet := fun _ member => absurd member List.not_mem_nil }
  · rw [same]
    refine ⟨[.settled outcome], ?_, rfl, rfl⟩
    exact
      { flood := rfl
        admitted := rfl
        released := rfl
        log := rfl
        quiet := fun _ member => by
          rw [List.mem_singleton.mp member]
          exact ⟨rfl, rfl⟩ }

theorem finish_bystands : Bystands turn turn.finish [.ended] where
  flood := rfl
  admitted := rfl
  released := rfl
  log := rfl
  quiet := fun _ member => by
    rw [List.mem_singleton.mp member]
    exact ⟨rfl, rfl⟩

/-! ## One event -/

namespace Balanced

/-- The session changes what the books do not speak of. -/
theorem change (balanced : Balanced deps pendingCap others turn)
    {prompts : List PromptEntry} {session : PairSession}
    (admitted : session.admitted = turn.session.admitted)
    (released : session.released = turn.session.released)
    (log : session.log = turn.session.log)
    (wasOver : session.Over → turn.session.Over)
    (restart : session.state = .awaitingHello →
      turn.session.state = .awaitingHello) :
    Balanced deps pendingCap others
      { flood := turn.flood
        prompts := prompts
        session := session } :=
  balanced.bystand
    { flood := rfl
      admitted := admitted
      released := released
      log := log.trans (List.append_nil _).symm
      quiet := fun _ member => absurd member List.not_mem_nil } wasOver restart

theorem logged (balanced : Balanced deps pendingCap others turn)
    (entry : PairEntry)
    (quiet : entry.isAdmitted = false ∧ entry.isReleased = false) :
    Balanced deps pendingCap others (turn.note entry) := by
  have bystands : Bystands turn (turn.note entry) [entry] :=
    { flood := rfl
      admitted := rfl
      released := rfl
      log := rfl
      quiet := fun chosen member => by
        rw [List.mem_singleton.mp member]
        exact quiet }
  exact balanced.bystand bystands id id

theorem settle (balanced : Balanced deps pendingCap others turn)
    (outcome : PromptOutcome) (now : Option Int) :
    Balanced deps pendingCap others (turn.settlePrompt outcome now).2 := by
  obtain ⟨more, bystands, state, channel⟩ :=
    turn.settlePrompt_bystands outcome now
  refine balanced.bystand bystands ?_ ?_
  · rw [PairSession.Over, state, channel]
    exact id
  · rw [state]
    exact id

/-- The session ends, its prompt is aborted and its slot given back. -/
theorem ended (balanced : Balanced deps pendingCap others turn) :
    Balanced deps pendingCap others
      ((turn.finish.settlePrompt .aborted answers.abortNow).2
        |>.releasePendingSlot deps) := by
  obtain ⟨more, bystands, state, -⟩ :=
    turn.finish.settlePrompt_bystands .aborted answers.abortNow
  have books := (balanced.toBooks.bystand finish_bystands).bystand bystands
  refine books.release ?_
  rw [state]
  exact fun waiting => by cases waiting

theorem dispose (balanced : Balanced deps pendingCap others turn) :
    Balanced deps pendingCap others (turn.dispose deps answers) := by
  unfold PairTurn.dispose
  split
  · exact balanced
  · exact balanced.ended

theorem terminate (balanced : Balanced deps pendingCap others turn)
    (reason : PairCloseReason) :
    Balanced deps pendingCap others
      (turn.terminate deps answers reason) := by
  unfold PairTurn.terminate
  split
  · exact balanced
  · exact balanced.ended.logged _ ⟨rfl, rfl⟩

theorem fail (balanced : Balanced deps pendingCap others turn)
    (code : PairErrorCode) :
    Balanced deps pendingCap others (turn.fail deps answers code) := by
  unfold PairTurn.fail
  split
  · exact (balanced.logged _ ⟨rfl, rfl⟩).terminate _
  · exact balanced

theorem violation (balanced : Balanced deps pendingCap others turn) :
    Balanced deps pendingCap others (turn.violation deps answers) :=
  balanced.fail _

theorem expire (balanced : Balanced deps pendingCap others turn) :
    Balanced deps pendingCap others (turn.expire deps answers) :=
  balanced.fail _

/-- A state of the key exchange is neither the first nor the last. -/
theorem expecting (balanced : Balanced deps pendingCap others turn)
    {state : PairState}
    (exchanging : state = .awaitingPakeA ∨ state = .awaitingConfirmA) :
    Balanced deps pendingCap others
      (turn.update fun session => { session with state := state }) := by
  refine balanced.change rfl rfl rfl ?_ ?_
  · rintro (closed | live)
    · rcases exchanging with rfl | rfl <;> cases closed
    · exact .inr live
  · intro waiting
    rcases exchanging with rfl | rfl <;> cases waiting

theorem failRun (balanced : Balanced deps pendingCap others turn) :
    Balanced deps pendingCap others (turn.failRun deps answers) := by
  have dropped : Balanced deps pendingCap others
      (turn.update fun session => { session with run := none }) :=
    balanced.change rfl rfl rfl id id
  unfold PairTurn.failRun
  simp only
  split
  · exact dropped.fail _
  split
  · exact (dropped.logged _ ⟨rfl, rfl⟩).expecting (.inl rfl)
  · exact dropped

theorem queuePrompt (balanced : Balanced deps pendingCap others turn)
    (frame : PairHelloFrame) (resolved : ResolvedIdentity) (code : String)
    (aId aad : Bytes) :
    Balanced deps pendingCap others
      (turn.queuePrompt deps answers frame resolved code aId aad) := by
  have greeted : Balanced deps pendingCap others
      (turn.update fun session =>
        { session with
          hello := some (helloContext frame resolved aId aad)
          codeNormalized := some code
          codeExpiresAt := answers.now + codeLifetimeMs
          log := session.log ++
            [.hello frame (helloContext frame resolved aId aad) code] }) :=
    (balanced.logged (.hello frame (helloContext frame resolved aId aad) code)
      ⟨rfl, rfl⟩).change rfl rfl rfl id id
  unfold PairTurn.queuePrompt
  simp only
  split
  · exact greeted.terminate _
  split
  · exact greeted.fail _
  · exact greeted.fail _
  · exact (greeted.logged (.dialogQueued (dialogRequest deps frame resolved
      code)) ⟨rfl, rfl⟩).change rfl rfl rfl id id

/-- The flood control forgot a stale failure, nothing else. -/
theorem reflood (balanced : Balanced deps pendingCap others turn)
    {flood : PairFloodControl}
    (pendingOrigins : flood.pendingOrigins = turn.flood.pendingOrigins)
    (cap : flood.pendingCap = turn.flood.pendingCap) :
    Balanced deps pendingCap others { turn with flood := flood } :=
  { balanced with
    pending := pendingOrigins ▸ balanced.pending
    distinct := pendingOrigins ▸ balanced.distinct
    cap := cap.trans balanced.cap
    capped := pendingOrigins ▸ balanced.capped }

/-- A session that holds a slot is refused another one. -/
theorem unadmitted_of_admits
    (balanced : Balanced deps pendingCap others turn)
    (waiting : turn.session.state = .awaitingHello)
    (absent : deps.verifiedOrigin ∉ turn.flood.pendingOrigins) :
    turn.session.admitted = false := by
  rcases admitted : turn.session.admitted with _ | _
  · rfl
  · exfalso
    have unreleased := balanced.greetable waiting
    refine absent (balanced.pending.mem_iff.mpr ?_)
    simp [PairSession.heldOrigins, admitted, unreleased]

theorem admitOrigin (balanced : Balanced deps pendingCap others turn)
    (waiting : turn.session.state = .awaitingHello)
    (inactive : turn.session.channel = none)
    (absent : deps.verifiedOrigin ∉ turn.flood.pendingOrigins)
    (room : turn.flood.pendingOrigins.length < turn.flood.pendingCap)
    {flood : PairFloodControl} (cap : flood.pendingCap = turn.flood.pendingCap)
    (added : flood.pendingOrigins =
      turn.flood.pendingOrigins ++ [deps.verifiedOrigin]) :
    Balanced deps pendingCap others
      { turn with
        flood := flood
        session :=
          { turn.session with
            admitted := true
            log := turn.session.log ++ [.admitted deps.verifiedOrigin] } } := by
  have unadmitted := balanced.unadmitted_of_admits waiting absent
  have unreleased := balanced.greetable waiting
  have pending := balanced.pending
  simp only [PairSession.heldOrigins, unadmitted, Bool.false_and,
    Bool.false_eq_true, if_false, List.nil_append] at pending
  exact
    { pending := by
        rw [added]
        simp only [PairSession.heldOrigins, unreleased, Bool.not_false,
          Bool.and_true, if_true]
        exact (List.perm_append_singleton _ _).trans (pending.cons _)
      distinct := by
        rw [added]
        refine List.nodup_append.mpr
          ⟨balanced.distinct, by simp, ?_⟩
        rintro origin member _ last rfl
        exact absent (List.mem_singleton.mp last ▸ member)
      cap := cap.trans balanced.cap
      capped := by
        rw [added, List.length_append, ← balanced.cap]
        exact room
      admissions := by
        have admissions := balanced.admissions
        simp only [unadmitted] at admissions
        simp only [List.filter_append]
        rw [admissions]
        simp [PairEntry.isAdmitted]
      releases := by
        have releases := balanced.releases
        unfold PairSession.releases at releases ⊢
        simp only [List.filter_append]
        rw [releases]
        simp [PairEntry.isReleased]
      backed := fun _ => rfl
      freed := by
        rintro (closed | live) _
        · rw [show turn.session.state = .awaitingHello from waiting] at closed
          cases closed
        · rw [show turn.session.channel = none from inactive] at live
          cases live
      greetable := fun _ => unreleased }

theorem takeUpHello (balanced : Balanced deps pendingCap others turn)
    (waiting : turn.session.state = .awaitingHello)
    (inactive : turn.session.channel = none) (frame : PairHelloFrame)
    (normalized : NormalizedExtensionIdentity) :
    Balanced deps pendingCap others
      (turn.takeUpHello deps prims answers frame normalized) := by
  obtain ⟨cap, ⟨code, refused, same⟩ | ⟨accepted, absent, room, added⟩⟩ :=
    turn.flood.admitOrigin_cases deps.verifiedOrigin answers.admitNow
  · unfold PairTurn.takeUpHello
    simp only [refused]
    exact (balanced.reflood same cap).fail code
  · have admitted := balanced.admitOrigin waiting inactive absent room cap added
    unfold PairTurn.takeUpHello
    simp only [accepted]
    split
    · exact admitted.fail _
    · split
      · exact admitted.queuePrompt _ _ _ _ _
      · exact admitted.fail _

theorem onPairHello (balanced : Balanced deps pendingCap others turn)
    (inactive : turn.session.channel = none) (body : Json) :
    Balanced deps pendingCap others
      (turn.onPairHello deps prims answers body) := by
  unfold PairTurn.onPairHello
  split
  · exact balanced.violation
  rename_i waiting
  split
  · exact balanced.violation
  split
  · exact balanced.fail _
  split
  · exact balanced.violation
  split
  · exact balanced.violation
  split
  · exact balanced.violation
  · exact balanced.takeUpHello (not_not.mp waiting) inactive _ _

theorem afterPublished (balanced : Balanced deps pendingCap others turn)
    (delivered : Bool) :
    Balanced deps pendingCap others
      (turn.afterPublished deps answers delivered) := by
  unfold PairTurn.afterPublished
  split
  · exact balanced
  split
  · exact balanced.fail _
  split
  · exact balanced.expire
  have expecting := balanced.expecting
    (Or.inl (rfl : PairState.awaitingPakeA = .awaitingPakeA))
  simp only
  split
  · exact expecting.logged _ ⟨rfl, rfl⟩
  · exact expecting

theorem answerPakeA (balanced : Balanced deps pendingCap others turn)
    (context : HelloContext) (frame : PakeAFrame) (w y : Nat) :
    Balanced deps pendingCap others
      (turn.answerPakeA deps prims answers context frame w y) := by
  unfold PairTurn.answerPakeA
  simp only
  split
  · exact balanced.failRun
  · exact balanced.violation
  split
  · exact balanced
  rename_i tt _
  have computed : Balanced deps pendingCap others
      (turn.update fun session =>
        { session with run := some (pakeRun prims context tt) }) :=
    balanced.change rfl rfl rfl id id
  split
  · exact computed.terminate _
  have expecting := computed.expecting
    (Or.inr (rfl : PairState.awaitingConfirmA = .awaitingConfirmA))
  split
  · exact expecting.logged _ ⟨rfl, rfl⟩
  · exact expecting

theorem onPakeA (balanced : Balanced deps pendingCap others turn)
    (body : Json) :
    Balanced deps pendingCap others
      (turn.onPakeA deps prims answers body) := by
  unfold PairTurn.onPakeA
  split
  · exact balanced.violation
  split
  · exact balanced.violation
  split
  · exact balanced.expire
  have counted : Balanced deps pendingCap others
      (turn.update fun session =>
        { session with attempts := session.attempts + 1 }) :=
    balanced.change rfl rfl rfl id id
  simp only
  split
  · exact counted.violation
  rename_i frame _
  have noted := counted.logged (.pakeA frame) ⟨rfl, rfl⟩
  split
  · exact noted.fail _
  rename_i w _
  have derived : Balanced deps pendingCap others
      (((turn.update fun session =>
        { session with attempts := session.attempts + 1 }).note
          (.pakeA frame)).update fun session =>
            { session with w := some w }) :=
    noted.change rfl rfl rfl id id
  split
  · exact derived.fail _
  · exact derived.answerPakeA _ _ _ _

theorem activate (balanced : Balanced deps pendingCap others turn)
    (context : HelloContext) (run : PakeRun) :
    Balanced deps pendingCap others
      (turn.activate deps prims context run) := by
  have noted := balanced.logged (.confirmB run.cB) ⟨rfl, rfl⟩
  -- The channel is live before the slot is given back.
  have books : ∀ channel, Books deps pendingCap others
      (turn.update fun session =>
        { session with
          channel := some channel
          state := .channelActive
          run := none
          w := none
          codeNormalized := none
          log := session.log ++ [.confirmB run.cB] }) :=
    fun channel => { noted.toBooks with }
  unfold PairTurn.activate
  refine ((books _).release ?_).change rfl rfl rfl id id
  exact fun waiting => by cases waiting

theorem settlePaired (balanced : Balanced deps pendingCap others turn)
    (context : HelloContext) (run : PakeRun) :
    Balanced deps pendingCap others
      (turn.settlePaired deps prims answers context run) := by
  have settled := balanced.settle .paired answers.settleNow
  unfold PairTurn.settlePaired
  rcases outcome : turn.settlePrompt .paired answers.settleNow with
    ⟨final | _ | _, next⟩
  · rw [outcome] at settled
    have confirmed : Balanced deps pendingCap others
        (next.update fun session => { session with confirmed := true }) :=
      settled.change rfl rfl rfl id id
    simp only
    split
    · exact confirmed.activate context run
    · exact confirmed
  · rw [outcome] at settled
    exact settled
  · rw [outcome] at settled
    exact settled.fail _

theorem onConfirmA (balanced : Balanced deps pendingCap others turn)
    (body : Json) :
    Balanced deps pendingCap others
      (turn.onConfirmA deps prims answers body) := by
  unfold PairTurn.onConfirmA
  split
  · split
    · exact balanced.violation
    split
    · exact balanced.expire
    split
    · exact balanced.violation
    rename_i frame _
    have noted := balanced.logged (.confirmA frame) ⟨rfl, rfl⟩
    simp only
    split
    · exact noted.violation
    split
    · exact noted.failRun
    split
    · exact noted.terminate _
    · exact noted.settlePaired _ _
  · exact balanced.violation

theorem sendSealed (balanced : Balanced deps pendingCap others turn)
    {channel : PairChannel} (live : turn.session.channel = some channel)
    (frame : Json) {entry : PairEntry}
    (quiet : entry.isAdmitted = false ∧ entry.isReleased = false) :
    Balanced deps pendingCap others
      (turn.sendSealed deps prims answers frame entry).2 := by
  obtain unsent | ⟨advanced, sent⟩ :=
    PairTurn.sendSealed_cases prims frame entry live
  · rw [unsent]
    exact balanced.terminate _
  · rw [sent]
    refine (balanced.logged entry quiet).change rfl rfl rfl ?_ id
    exact fun _ => .inr (Option.isSome_iff_exists.mpr ⟨channel, live⟩)

theorem afterOffer (balanced : Balanced deps pendingCap others turn)
    (answer : Option CredentialOffer) :
    Balanced deps pendingCap others
      (turn.afterOffer deps prims answers answer) := by
  unfold PairTurn.afterOffer
  cases answer with
  | none => exact balanced.terminate _
  | some offer =>
      have noted := balanced.logged
        (.offerPersisted offer.credentialId offer.mutualKeyB64) ⟨rfl, rfl⟩
      simp only
      split
      · exact noted
      rename_i active
      split
      · exact noted.terminate _
      simp only [not_or, Option.isNone_iff_eq_none] at active
      obtain ⟨channel, live⟩ := Option.ne_none_iff_exists'.mp active.2
      have marked : Balanced deps pendingCap others
          ((turn.note (.offerPersisted offer.credentialId
            offer.mutualKeyB64)).markOffered offer) := by
        refine noted.change rfl rfl rfl ?_ ?_
        · exact fun _ => .inr (Option.isSome_iff_exists.mpr ⟨channel, live⟩)
        · exact fun waiting => by cases waiting
      exact marked.sendSealed live _ ⟨rfl, rfl⟩

theorem handleBinary (balanced : Balanced deps pendingCap others turn)
    (data : Bytes) :
    Balanced deps pendingCap others
      (turn.handleBinary deps prims answers data) := by
  unfold PairTurn.handleBinary
  split
  · exact balanced
  cases live : turn.session.channel with
  | none => exact balanced.terminate _
  | some channel =>
      have wasOver : turn.session.Over := .inr (by rw [live]; rfl)
      simp only
      split
      · exact balanced.terminate _
      split
      · exact balanced.terminate _
      rename_i opener _
      have advanced : Balanced deps pendingCap others
          (turn.update fun session =>
            { session with
              channel := some { channel with opener := opener } }) :=
        balanced.change rfl rfl rfl (fun _ => wasOver) id
      split
      · exact advanced.terminate _
      split
      · exact advanced.terminate _
      · rename_i credentialId _ _
        refine (advanced.logged (.acked credentialId) ⟨rfl, rfl⟩).change rfl
          rfl rfl (fun _ => .inr rfl) ?_
        exact fun waiting => by cases waiting

theorem afterCommit (balanced : Balanced deps pendingCap others turn)
    (credentialId : String) (resolved : Bool) :
    Balanced deps pendingCap others
      (turn.afterCommit deps prims answers credentialId resolved) := by
  unfold PairTurn.afterCommit
  split
  · exact balanced.terminate _
  have noted := balanced.logged (.commitResolved credentialId) ⟨rfl, rfl⟩
  simp only
  split
  · exact noted
  rename_i active
  simp only [not_or, Option.isNone_iff_eq_none] at active
  obtain ⟨channel, live⟩ := Option.ne_none_iff_exists'.mp active.2
  obtain unsent | ⟨advanced, sent⟩ := PairTurn.sendSealed_cases prims
    credentialCommittedFrame .committedSent live
  · rw [unsent]
    exact noted.terminate _
  · rw [sent]
    have announced := (noted.logged .committedSent ⟨rfl, rfl⟩).logged
      (.authenticated credentialId advanced) ⟨rfl, rfl⟩
    refine announced.change rfl rfl rfl ?_ ?_
    · exact fun _ => .inr (Option.isSome_iff_exists.mpr ⟨channel, live⟩)
    · exact fun waiting => by cases waiting

theorem handleText (balanced : Balanced deps pendingCap others turn)
    (body : Option Json) (byteLength : Nat) :
    Balanced deps pendingCap others
      (turn.handleText deps prims answers body byteLength) := by
  unfold PairTurn.handleText
  split
  · exact balanced
  split
  · exact balanced.fail _
  split
  · exact balanced.terminate _
  rename_i inactive
  have inactive : turn.session.channel = none := by
    simpa using inactive
  split
  · exact balanced.violation
  cases body with
  | none => exact balanced.violation
  | some value =>
      simp only
      split
      · exact balanced.onPairHello inactive value
      · exact balanced.onPakeA value
      · exact balanced.onConfirmA value
      · exact balanced.violation

theorem onPromptTerminal (balanced : Balanced deps pendingCap others turn)
    (outcome : Option PromptOutcome) :
    Balanced deps pendingCap others
      (turn.onPromptTerminal deps answers outcome) := by
  unfold PairTurn.onPromptTerminal
  split
  · exact balanced
  · exact balanced.fail _

theorem resume (balanced : Balanced deps pendingCap others turn)
    (index : Nat) (settlement : PairSettlement) :
    Balanced deps pendingCap others
      (turn.resume deps prims answers index settlement) := by
  have resumed : Balanced deps pendingCap others
      (turn.update fun session =>
        { session with awaiting := session.awaiting.eraseIdx index }) :=
    balanced.change rfl rfl rfl id id
  unfold PairTurn.resume
  simp only
  split
  · exact resumed.afterPublished _
  · exact resumed.afterOffer _
  · exact resumed.afterCommit _ _
  · exact balanced

theorem handle (balanced : Balanced deps pendingCap others turn)
    (event : PairEvent) :
    Balanced deps pendingCap others
      (turn.handle deps prims answers event) := by
  cases event with
  | text body byteLength => exact balanced.handleText body byteLength
  | binary data => exact balanced.handleBinary data
  | promptTerminal outcome => exact balanced.onPromptTerminal outcome
  | settled index settlement => exact balanced.resume index settlement
  | dispose => exact balanced.dispose

end Balanced

end PairTurn

/-! ## All sessions -/

/-- What the books say of a session by itself. -/
structure PairSession.Accounted (deps : PairSessionDeps)
    (session : PairSession) : Prop where
  admissions : session.log.filter PairEntry.isAdmitted =
    if session.admitted then [.admitted deps.verifiedOrigin] else []
  releases : session.releases =
    if session.released then [.released deps.verifiedOrigin] else []
  backed : session.released = true → session.admitted = true
  freed : session.Over → session.admitted = true → session.released = true
  greetable : session.state = .awaitingHello → session.released = false

theorem PairTurn.Balanced.accounted {deps : PairSessionDeps}
    {pendingCap : Nat} {others : List String} {turn : PairTurn}
    (balanced : PairTurn.Balanced deps pendingCap others turn) :
    turn.session.Accounted deps :=
  { balanced with }

theorem PairSession.Accounted.fresh (deps : PairSessionDeps) :
    PairSession.fresh.Accounted deps where
  admissions := rfl
  releases := rfl
  backed := fun released => by cases released
  freed := fun _ admitted => by cases admitted
  greetable := fun _ => rfl

theorem any_eq_filter (log : List PairEntry) (mark : PairEntry → Bool) :
    log.any mark = !(log.filter mark).isEmpty := by
  induction log with
  | nil => rfl
  | cons entry rest induction =>
      cases marked : mark entry <;> simp [marked, induction]

/-- The log alone tells whether a slot is held. -/
theorem PairSession.Accounted.heldOrigins {deps : PairSessionDeps}
    {session : PairSession} (accounted : session.Accounted deps) :
    session.heldOrigins deps =
      if session.holdsSlot then [deps.verifiedOrigin] else [] := by
  have admitted := any_eq_filter session.log PairEntry.isAdmitted
  have released := any_eq_filter session.log PairEntry.isReleased
  rw [accounted.admissions] at admitted
  rw [show session.log.filter PairEntry.isReleased = _ from
    accounted.releases] at released
  unfold PairSession.heldOrigins PairSession.holdsSlot
  rw [admitted, released]
  rcases session.admitted with _ | _ <;> rcases session.released with _ | _ <;>
    rfl

namespace PairServer

/-- The origins of the sessions that hold a slot. -/
def heldOrigins (sessions : List (PairSessionDeps × PairSession)) :
    List String :=
  sessions.flatMap fun entry => entry.2.heldOrigins entry.1

structure Balanced (pendingCap : Nat) (server : PairServer) : Prop where
  pending : server.flood.pendingOrigins.Perm (heldOrigins server.sessions)
  distinct : server.flood.pendingOrigins.Nodup
  cap : server.flood.pendingCap = pendingCap
  capped : server.flood.pendingOrigins.length ≤ pendingCap
  accounted : ∀ entry ∈ server.sessions, entry.2.Accounted entry.1

variable {prims : PairPrimitives} {pendingCap : Nat} {server : PairServer}

/-- The held origins with one session brought to the front. -/
theorem heldOrigins_split (front back : List (PairSessionDeps × PairSession))
    (entry : PairSessionDeps × PairSession) :
    (heldOrigins (front ++ entry :: back)).Perm
      (entry.2.heldOrigins entry.1 ++
        (heldOrigins front ++ heldOrigins back)) := by
  unfold heldOrigins
  rw [List.flatMap_append, List.flatMap_cons]
  exact List.perm_append_comm_assoc _ _ _

theorem exists_split {sessions : List (PairSessionDeps × PairSession)}
    {index : Nat} {entry : PairSessionDeps × PairSession}
    (chosen : sessions[index]? = some entry) :
    ∃ front back, sessions = front ++ entry :: back ∧
      ∀ next, sessions.set index next = front ++ next :: back := by
  obtain ⟨bound, rfl⟩ := List.getElem?_eq_some_iff.mp chosen
  refine ⟨sessions.take index, sessions.drop (index + 1), ?_, ?_⟩
  · rw [List.getElem_cons_drop, List.take_append_drop]
  · intro next
    rw [List.set_eq_take_append_cons_drop, if_pos bound]

theorem Balanced.step (balanced : server.Balanced pendingCap)
    (event : PairServerEvent) :
    (server.step prims event).Balanced pendingCap := by
  cases event with
  | connect deps =>
      have unheld : heldOrigins
          (server.sessions ++ [(deps, PairSession.fresh)]) =
            heldOrigins server.sessions := by
        unfold heldOrigins
        rw [List.flatMap_append]
        exact List.append_nil _
      exact
        { balanced with
          pending := by
            unfold PairServer.step
            simp only
            rw [unheld]
            exact balanced.pending
          accounted := by
            intro entry member
            rcases List.mem_append.mp member with earlier | last
            · exact balanced.accounted entry earlier
            · rw [List.mem_singleton.mp last]
              exact .fresh deps }
  | promptEnds promptId outcome => exact { balanced with }
  | recordOutcome outcome now =>
      exact
        { pending := by
            simpa [PairServer.step] using balanced.pending
          distinct := by
            simpa [PairServer.step] using balanced.distinct
          cap := by
            simpa [PairServer.step] using balanced.cap
          capped := by
            simpa [PairServer.step] using balanced.capped
          accounted := balanced.accounted }
  | session index event answers =>
      unfold PairServer.step
      simp only
      split
      · exact balanced
      rename_i deps session chosen
      obtain ⟨front, back, split, replaced⟩ := exists_split chosen
      have member : (deps, session) ∈ server.sessions :=
        List.mem_of_getElem? chosen
      have before : PairTurn.Balanced deps pendingCap
          (heldOrigins front ++ heldOrigins back)
          { flood := server.flood
            prompts := server.prompts
            session := session } :=
        { balanced.accounted _ member with
          pending := by
            have pending := balanced.pending
            rw [split] at pending
            exact pending.trans (heldOrigins_split front back _)
          distinct := balanced.distinct
          cap := balanced.cap
          capped := balanced.capped }
      have after : PairTurn.Balanced deps pendingCap
          (heldOrigins front ++ heldOrigins back)
          (PairTurn.handle deps prims answers event
            { flood := server.flood
              prompts := server.prompts
              session := session }) := before.handle event
      exact
        { pending := by
            rw [replaced]
            refine after.pending.trans (List.Perm.symm ?_)
            exact heldOrigins_split front back (deps, _)
          distinct := after.distinct
          cap := after.cap
          capped := after.capped
          accounted := by
            intro entry member
            rcases List.mem_or_eq_of_mem_set member with earlier | rfl
            · exact balanced.accounted entry earlier
            · exact after.accounted }

theorem Balanced.run (balanced : server.Balanced pendingCap)
    (events : List PairServerEvent) :
    (server.run prims events).Balanced pendingCap := by
  induction events generalizing server with
  | nil => exact balanced
  | cons event rest induction => exact induction (balanced.step event)

theorem Balanced.start (pendingCap : Nat) :
    (PairServer.start pendingCap).Balanced pendingCap where
  pending := .nil
  distinct := List.nodup_nil
  cap := rfl
  capped := Nat.zero_le _
  accounted := fun _ member => absurd member List.not_mem_nil

/-- The held origins, read off the logs. -/
theorem Balanced.heldOrigins (balanced : server.Balanced pendingCap) :
    heldOrigins server.sessions =
      (server.sessions.filter fun entry => entry.2.holdsSlot).map
        fun entry => entry.1.verifiedOrigin := by
  obtain ⟨-, -, -, -, accounted⟩ := balanced
  unfold PairServer.heldOrigins
  revert accounted
  induction server.sessions with
  | nil => exact fun _ => rfl
  | cons entry rest induction =>
      intro accounted
      have rest := induction fun other member =>
        accounted other (List.mem_cons_of_mem _ member)
      have first := (accounted entry List.mem_cons_self).heldOrigins
      rw [List.flatMap_cons, rest, first, List.filter_cons]
      split <;> rfl

/-- In every state a server reaches, the pending origins are those of the
admitted sessions that have not released.  A session is admitted at most once,
releases only after it was admitted and only its own origin, at most once, and
exactly once when it is over. -/
theorem slots_balanced (prims : PairPrimitives) (pendingCap : Nat)
    (events : List PairServerEvent) :
    let server := (PairServer.start pendingCap).run prims events
    let holding := server.sessions.filter fun entry => entry.2.holdsSlot
    server.flood.pendingOrigins.Perm
      (holding.map fun entry => entry.1.verifiedOrigin) ∧
    server.flood.pendingOrigins.Nodup ∧
    server.flood.pendingOrigins.length = holding.length ∧
    server.flood.pendingOrigins.length ≤ pendingCap ∧
    ∀ entry ∈ server.sessions,
      let admissions := entry.2.log.filter PairEntry.isAdmitted
      let released := [PairEntry.released entry.1.verifiedOrigin]
      admissions.length ≤ 1 ∧
      (entry.2.releases = [] ∨
        admissions ≠ [] ∧ entry.2.releases = released) ∧
      (entry.2.Over → admissions ≠ [] → entry.2.releases = released) := by
  intro server holding
  have balanced : server.Balanced pendingCap :=
    (Balanced.start pendingCap).run events
  have pending := balanced.pending
  rw [balanced.heldOrigins] at pending
  have counted := pending.length_eq
  rw [List.length_map] at counted
  refine ⟨pending, balanced.distinct, counted, balanced.capped, ?_⟩
  intro entry member admissions released
  have accounted := balanced.accounted entry member
  refine ⟨?_, ?_, ?_⟩
  · have listed : admissions = _ := accounted.admissions
    rw [listed]
    split
    · exact Nat.le_refl _
    · exact Nat.zero_le _
  · rcases given : entry.2.released with _ | _
    · left
      simpa [given] using accounted.releases
    · right
      have taken := accounted.backed given
      have listed : admissions = _ := accounted.admissions
      rw [listed, taken]
      refine ⟨List.cons_ne_nil _ _, ?_⟩
      simpa [given] using accounted.releases
  · intro isOver admitted
    have taken : entry.2.admitted = true := by
      by_contra unadmitted
      refine admitted (accounted.admissions.trans ?_)
      rw [if_neg unadmitted]
    have given := accounted.freed isOver taken
    simpa [given] using accounted.releases

end PairServer

end Motrix.Bridge
