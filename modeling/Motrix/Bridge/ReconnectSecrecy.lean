import Motrix.Bridge.ReconnectSafety

/-!
# What a refused reconnect reveals

Two runs of a session see the same frames, clocks and challenge and differ in
the credentials the store holds.  As long as neither lets a response through,
the peer is sent the same frames and the same close.
-/

namespace Motrix.Bridge

open Motrix.Lib

/-- What a session sends. -/
inductive ReconnectFrame where
  | challenge (challenge : Bytes)
  | pairError (code : PairErrorCode)
  | accept (mac : Bytes)
  | close (reason : ReconnectCloseReason)
  deriving DecidableEq, Repr

namespace ReconnectEntry

def frame : ReconnectEntry → Option ReconnectFrame
  | .challenged challenge _ => some (.challenge challenge)
  | .pairError code => some (.pairError code)
  | .accept mac => some (.accept mac)
  | .closed reason => some (.close reason)
  | _ => none

end ReconnectEntry

/-- The answers of another store. -/
def ReconnectAnswers.withStore (answers : ReconnectAnswers)
    (store : List StoredCredential) : ReconnectAnswers :=
  { answers with store := store }

theorem ReconnectAnswers.withStore_now (answers : ReconnectAnswers)
    (store : List StoredCredential) :
    (answers.withStore store).now = answers.now := rfl

/-- The same event, answered alike but for the store. -/
def StoresDiffer (event other : ReconnectEvent × ReconnectAnswers) : Prop :=
  other.1 = event.1 ∧ other.2 = event.2.withStore other.2.store

namespace ReconnectSession

variable (deps : ReconnectDeps) (crypto : HandshakeCrypto)

def emitted (session : ReconnectSession) : List ReconnectFrame :=
  session.log.filterMap ReconnectEntry.frame

/-- The credential is found, the MAC verifies under its key and its principal
is the live one. -/
def LetsThrough (answers : ReconnectAnswers) (s : Bytes)
    (response : ReconnectResponseFrame) : Prop :=
  ∃ credential rt key,
    findForAuth answers.store response.credentialId answers.storeClock =
        .ok (some credential) ∧
      reconnectTranscript deps crypto response = .ok rt ∧
      mutualKey (some credential) = .ok key ∧
      verifyClientMac crypto key s response rt = true ∧
      principalMatches deps crypto answers s rt response credential = true

/-- Where the store is asked for the credential of a response, it answers and
the response is not let through. -/
def Refuses (session : ReconnectSession) :
    ReconnectEvent × ReconnectAnswers → Prop
  | (.text (some body) byteLength, answers) =>
      byteLength ≤ maxPreAuthFrameBytes →
      session.state = .awaitingResponse →
      answers.now < session.deadlineAt →
      ∀ s response, session.challengeS = some s →
        reconnectResponseFrameSchema body = some response →
        (∃ answer, findForAuth answers.store response.credentialId
          answers.storeClock = .ok answer) ∧
        ¬ LetsThrough deps crypto answers s response
  | _ => True

/-- No response of the run is let through. -/
def RefusesAll (session : ReconnectSession) :
    List (ReconnectEvent × ReconnectAnswers) → Prop
  | [] => True
  | event :: rest =>
      session.Refuses deps crypto event ∧
        (session.step deps crypto event).RefusesAll rest

/-- Nothing is pending, and all but what the store answered is the same. -/
structure Similar (session other : ReconnectSession) : Prop where
  state : session.state = other.state
  challengeS : session.challengeS = other.challengeS
  deadlineAt : session.deadlineAt = other.deadlineAt
  idle : session.awaiting = [] ∧ other.awaiting = []
  emitted : session.emitted = other.emitted

variable {deps} {crypto} {session other : ReconnectSession}
  {answers : ReconnectAnswers}

namespace Similar

/-! ## Small changes -/

theorem note (similar : Similar session other)
    {entry again : ReconnectEntry} (same : entry.frame = again.frame) :
    Similar (session.note entry) (other.note again) where
  state := similar.state
  challengeS := similar.challengeS
  deadlineAt := similar.deadlineAt
  idle := similar.idle
  emitted := by
    have emitted := similar.emitted
    unfold ReconnectSession.emitted at emitted ⊢
    simp [ReconnectSession.note, emitted, List.filterMap_cons, same]

theorem processing (similar : Similar session other) :
    Similar { session with state := .processing }
      { other with state := .processing } :=
  { similar with state := rfl }

theorem finish (similar : Similar session other) (entry : ReconnectEntry) :
    Similar
      { session with
        state := .closed
        challengeS := none
        log := session.log ++ [entry] }
      { other with
        state := .closed
        challengeS := none
        log := other.log ++ [entry] } :=
  { similar.note (rfl : entry.frame = entry.frame) with
    state := rfl
    challengeS := rfl }

theorem terminate (similar : Similar session other)
    (reason : ReconnectCloseReason) :
    Similar (session.terminate reason) (other.terminate reason) := by
  unfold ReconnectSession.terminate
  rw [similar.state]
  split
  · exact similar
  · exact similar.finish _

theorem dispose (similar : Similar session other) :
    Similar session.dispose other.dispose := by
  unfold ReconnectSession.dispose
  rw [similar.state]
  split
  · exact similar
  · exact similar.finish _

theorem fail (similar : Similar session other) (code : PairErrorCode) :
    Similar (session.fail answers code) (other.fail answers code) := by
  unfold ReconnectSession.fail
  split
  · exact (similar.note rfl).terminate _
  · exact similar

end Similar

theorem Similar.of_eq {first second : ReconnectSession}
    (left : first = session) (right : second = other)
    (similar : Similar session other) : Similar first second := by
  rw [left, right]
  exact similar

/-! ## The response -/

/-- The verdict on a response that is not let through. -/
theorem lookUp_refused {s : Bytes} {response : ReconnectResponseFrame}
    {answer : Option StoredCredential}
    (found : findForAuth answers.store response.credentialId
      answers.storeClock = .ok answer)
    (refused : ¬ LetsThrough deps crypto answers s response)
    (next : StoredCredential → Bytes → Bytes → ReconnectSession →
      ReconnectSession) :
    (session.lookUp answers response.credentialId fun answer session =>
      match reconnectTranscript deps crypto response, mutualKey answer with
      | .ok rt, .ok key =>
          match answer with
          | none => session.fail answers .authFailed
          | some credential =>
              if ¬ verifyClientMac crypto key s response rt ∨
                  ¬ principalMatches deps crypto answers s rt response
                    credential then
                session.fail answers .authFailed
              else next credential rt key session
      | _, _ => session.fail answers .authFailed) =
    (session.note (.found answers.store answers.storeClock
      response.credentialId answer)).fail answers .authFailed := by
  unfold lookUp
  rw [found]
  simp only
  split
  · rename_i rt key transcript decoded
    cases answer with
    | none => rfl
    | some credential =>
        simp only
        rw [if_pos]
        by_contra passes
        rw [not_or, not_not, not_not] at passes
        exact refused ⟨credential, rt, key, found, transcript, decoded,
          passes.1, passes.2⟩
  · rfl

theorem Similar.onReconnectResponse (similar : Similar session other)
    (store : List StoredCredential) (body : Json) {byteLength : Nat}
    (small : byteLength ≤ maxPreAuthFrameBytes)
    (refused : session.Refuses deps crypto
      (.text (some body) byteLength, answers))
    (again : other.Refuses deps crypto
      (.text (some body) byteLength, answers.withStore store)) :
    Similar (session.onReconnectResponse deps crypto answers body)
      (other.onReconnectResponse deps crypto (answers.withStore store)
        body) := by
  unfold ReconnectSession.onReconnectResponse
  unfold Refuses at refused again
  rw [similar.challengeS, similar.state] at refused ⊢
  cases known : other.challengeS with
  | none => exact similar.fail _
  | some s =>
      simp only
      split
      · exact similar.fail _
      rename_i waiting
      have waiting := not_not.mp waiting
      have clocked : Similar (session.note (.clock answers.now))
          (other.note (.clock answers.now)) := similar.note rfl
      have deadline := clocked.deadlineAt
      rw [ReconnectAnswers.withStore_now]
      by_cases late : answers.now ≥
          (session.note (.clock answers.now)).deadlineAt
      · rw [if_pos late, if_pos (deadline ▸ late)]
        exact clocked.fail _
      rw [if_neg late, if_neg (deadline ▸ late)]
      cases parsed : reconnectResponseFrameSchema body with
      | none => exact clocked.fail _
      | some response =>
          have early := lt_of_not_ge late
          obtain ⟨⟨answer, found⟩, refused⟩ :=
            refused small waiting early s response known parsed
          obtain ⟨⟨reply, answered⟩, again⟩ :=
            again small waiting (deadline ▸ early) s response known parsed
          have received := clocked.processing.note
            (rfl : (ReconnectEntry.received response).frame =
              (ReconnectEntry.received response).frame)
          refine Similar.of_eq (lookUp_refused found refused _)
            (lookUp_refused answered again _) ?_
          apply Similar.fail
          apply received.note
          rfl

theorem Similar.handleText (similar : Similar session other)
    (store : List StoredCredential) (body : Option Json) (byteLength : Nat)
    (refused : session.Refuses deps crypto (.text body byteLength, answers))
    (again : other.Refuses deps crypto
      (.text body byteLength, answers.withStore store)) :
    Similar (session.handleText deps crypto answers body byteLength)
      (other.handleText deps crypto (answers.withStore store) body
        byteLength) := by
  unfold ReconnectSession.handleText
  rw [similar.state]
  split
  · exact similar
  split
  · exact similar.fail _
  rename_i small
  have small := not_lt.mp small
  cases body with
  | none => exact similar.fail _
  | some value =>
      simp only
      split
      · exact similar.onReconnectResponse store value small refused again
      · exact similar.fail _

/-! ## Whole runs -/

theorem Similar.step (similar : Similar session other)
    {event again : ReconnectEvent × ReconnectAnswers}
    (differ : StoresDiffer event again)
    (refused : session.Refuses deps crypto event)
    (refuses : other.Refuses deps crypto again) :
    Similar (session.step deps crypto event)
      (other.step deps crypto again) := by
  obtain ⟨event, answers⟩ := event
  obtain ⟨same, replies⟩ := again
  obtain ⟨rfl, store⟩ :
      same = event ∧ replies = answers.withStore replies.store := differ
  rw [store] at refuses ⊢
  cases same with
  | text body byteLength =>
      exact similar.handleText _ body byteLength refused refuses
  | settled index resolved =>
      unfold ReconnectSession.step
      rw [similar.idle.1, similar.idle.2]
      exact similar
  | dispose => exact similar.dispose

theorem Similar.run (similar : Similar session other)
    {events again : List (ReconnectEvent × ReconnectAnswers)}
    (differ : List.Forall₂ StoresDiffer events again)
    (refused : session.RefusesAll deps crypto events)
    (refuses : other.RefusesAll deps crypto again) :
    Similar (session.run deps crypto events)
      (other.run deps crypto again) := by
  induction differ generalizing session other with
  | nil => exact similar
  | cons one rest induction =>
      exact induction (similar.step one refused.1 refuses.1) refused.2
        refuses.2

theorem Similar.start (challenge : Bytes) (startedAt : Int) :
    Similar (start challenge startedAt) (start challenge startedAt) := by
  refine ⟨rfl, rfl, rfl, ?_, rfl⟩
  unfold ReconnectSession.start
  simp only
  split
  · unfold ReconnectSession.terminate
    split <;> exact ⟨rfl, rfl⟩
  · exact ⟨rfl, rfl⟩

/-- A store whose clock reads answers every lookup. -/
theorem findForAuth_answers (store : List StoredCredential)
    (credentialId : String) {now : Nat} (valid : now ≤ maxSafeInteger) :
    ∃ answer, findForAuth store credentialId (some now) = .ok answer := by
  have read : readClock (some now) = .ok now := by
    simp only [readClock, if_pos valid]
  unfold findForAuth
  by_cases named : validCredentialId credentialId
  swap
  · exact ⟨none, by simp [named, pure_eq_ok]⟩
  cases findCredential store credentialId with
  | none => exact ⟨none, by simp [named, pure_eq_ok]⟩
  | some found =>
      by_cases committed : found.state = .committed
      · exact ⟨some found, by simp [named, committed, pure_eq_ok]⟩
      simp only [named, not_true, if_false, committed, bind_eq_ok, read]
      by_cases expired : isExpiredAt found now
      · exact ⟨none, now, rfl, by simp [expired, pure_eq_ok]⟩
      · have unexpired : isExpiredAt found now = false := by
          simpa using expired
        exact ⟨_, now, rfl, by rw [unexpired]; rfl⟩

/-- A wrong MAC lets no response through. -/
theorem not_letsThrough_of_mac {s : Bytes}
    {response : ReconnectResponseFrame}
    (wrong : ∀ credential rt key,
      findForAuth answers.store response.credentialId answers.storeClock =
          .ok (some credential) →
      reconnectTranscript deps crypto response = .ok rt →
      mutualKey (some credential) = .ok key →
      verifyClientMac crypto key s response rt = false) :
    ¬ LetsThrough deps crypto answers s response := by
  rintro ⟨credential, rt, key, found, transcript, decoded, verified, -⟩
  rw [wrong credential rt key found transcript decoded] at verified
  cases verified

/-- Runs with the same challenge, clocks and frames that let no response
through send the same frames and close alike, whatever the stores hold. -/
theorem refused_emitted_eq (deps : ReconnectDeps) (crypto : HandshakeCrypto)
    (challenge : Bytes) (startedAt : Int)
    {events again : List (ReconnectEvent × ReconnectAnswers)}
    (differ : List.Forall₂ StoresDiffer events again)
    (refused : (start challenge startedAt).RefusesAll deps crypto events)
    (refuses : (start challenge startedAt).RefusesAll deps crypto again) :
    ((start challenge startedAt).run deps crypto events).emitted =
      ((start challenge startedAt).run deps crypto again).emitted :=
  ((Similar.start challenge startedAt).run differ refused refuses).emitted

/-! ## A wrong MAC with and without the credential -/

def wrongResponse : Json :=
  .object
    [("type", .string "reconnectResponse"),
      ("credentialId", .string sampleCredential.credentialId),
      ("C", .string (toBase64Url (List.replicate 32 2))),
      ("mac", .string (toBase64Url (List.replicate 32 3)))]

def wrongRun (store : List StoredCredential) :
    List (ReconnectEvent × ReconnectAnswers) :=
  [(.text (some wrongResponse) 200, sampleAnswers store)]

theorem wrongRun_refused (store : List StoredCredential) :
    (start (List.replicate 32 7) 1500).RefusesAll sampleDeps zeroCrypto
      (wrongRun store) := by
  refine ⟨?_, trivial⟩
  intro _ _ _ s response known parsed
  have presented : (reconnectResponseFrameSchema wrongResponse).map
      (fun response => response.mac.bytes) =
        some (List.replicate 32 3) := by
    decide +kernel
  rw [parsed] at presented
  have presented : response.mac.bytes = List.replicate 32 3 :=
    Option.some.inj presented
  refine ⟨findForAuth_answers store _ (by decide), ?_⟩
  apply not_letsThrough_of_mac
  intro credential rt key found transcript decoded
  have expected : reconnectMacClient zeroCrypto key s
      response.clientNonce.bytes rt = List.replicate 32 0 := rfl
  unfold verifyClientMac
  rw [expected, presented]
  decide

theorem wrongRun_emitted_eq :
    ((start (List.replicate 32 7) 1500).run sampleDeps zeroCrypto
        (wrongRun [])).emitted =
      ((start (List.replicate 32 7) 1500).run sampleDeps zeroCrypto
        (wrongRun [{ sampleCredential with state := .committed }])).emitted :=
  refused_emitted_eq sampleDeps zeroCrypto (List.replicate 32 7) 1500
    (.cons ⟨rfl, rfl⟩ .nil) (wrongRun_refused []) (wrongRun_refused _)

end ReconnectSession

end Motrix.Bridge
