import Mathlib.Tactic.Linarith
import Motrix.Bridge.TicketVerify
import Motrix.Lib.Except

/-!
# Runs of the ticket verifier over one replay cache

The cache forgets a MAC at `min(exp, now + 60 s)`, while the row that rejects
a ticket whose `exp` lies further ahead runs after the MAC was recorded.  A MAC
consumed inside the lifetime bound is never honoured again; one consumed
outside it is forgotten before its ticket expires.
-/

namespace Motrix.Bridge

open Motrix.Lib

structure TicketCall where
  wire : Json
  ctx : TicketContext

namespace TicketCall

def presentedMac (call : TicketCall) : Option Bytes :=
  (parseTicketWire call.wire).map fun parsed => parsed.ticket.mac

/-- The ticket a call brings to the replay row, if it gets there. -/
def replayRowTicket (crypto : TicketCrypto) (call : TicketCall) :
    Option TicketWire :=
  (rowsBeforeReplay crypto call.wire call.ctx).toOption.map
    fun parsed => parsed.ticket

/-- The key and input of the HMAC a call asks for. -/
def macQuery (crypto : TicketCrypto) (call : TicketCall) :
    Option (Bytes × Bytes) :=
  (parseTicketWire call.wire).map fun parsed =>
    (deriveTicketKey crypto call.ctx.localToken, parsed.macInput)

def verify (crypto : TicketCrypto) (call : TicketCall)
    (replay : TicketReplayCache) : TicketVerdict × TicketReplayCache :=
  verifyNmTicket crypto call.wire call.ctx replay

end TicketCall

def runTickets (crypto : TicketCrypto) :
    TicketReplayCache → List TicketCall → List (TicketCall × TicketVerdict)
  | _, [] => []
  | replay, call :: later =>
      (call, (call.verify crypto replay).1) ::
        runTickets crypto (call.verify crypto replay).2 later

def cacheAfter (crypto : TicketCrypto) :
    TicketReplayCache → List TicketCall → TicketReplayCache
  | replay, [] => replay
  | replay, call :: later =>
      cacheAfter crypto (call.verify crypto replay).2 later

def ClockNondecreasing (calls : List TicketCall) : Prop :=
  (calls.map fun call => call.ctx.nowMs).Pairwise (· ≤ ·)

/-- No two HMAC computations of the run collide. -/
def MacsCollisionFree (crypto : TicketCrypto) (calls : List TicketCall) :
    Prop :=
  ∀ left ∈ calls, ∀ right ∈ calls, ∀ leftQuery rightQuery,
    left.macQuery crypto = some leftQuery →
    right.macQuery crypto = some rightQuery →
    crypto.hmacSha256 leftQuery.1 leftQuery.2 =
      crypto.hmacSha256 rightQuery.1 rightQuery.2 →
    leftQuery = rightQuery

def attestations (mac : Bytes) (outcomes : List (TicketCall × TicketVerdict)) :
    Nat :=
  outcomes.countP fun outcome =>
    outcome.1.presentedMac = some mac && outcome.2.isAttested

/-- Once `call` has brought `mac` to the replay row, no continuation of the
run attests it again. -/
def ConsumedForGood (crypto : TicketCrypto) (before : List TicketCall)
    (call : TicketCall) (mac : Bytes) : Prop :=
  ∀ later : List TicketCall,
    ClockNondecreasing (before ++ call :: later) →
    MacsCollisionFree crypto (before ++ call :: later) →
    (∀ outcome ∈ runTickets crypto
        (cacheAfter crypto .empty (before ++ [call])) later,
      outcome.1.presentedMac = some mac → outcome.2.isAttested = false) ∧
    attestations mac (runTickets crypto .empty (before ++ call :: later)) ≤ 1

/-! ## Parsed tickets -/

theorem fromBase64Url_canonical {text : String} {decoded : Bytes}
    (success : fromBase64Url text = .ok decoded) :
    toBase64Url decoded = text := by
  unfold fromBase64Url at success
  split at success
  · cases success
  · split at success
    · cases success
    · simp only at success
      split at success
      · cases success
      · next canonical =>
          cases success
          simpa using canonical

theorem parseTicketWire_eq_some {wire : Json} {data : TicketFields}
    {ticket : TicketWire} {macInput : Bytes}
    (schema : ticketWireSchema wire = some data)
    (decoded : data.decode = .ok ticket)
    (encoded : ticketMacInput ticket = .ok macInput) :
    parseTicketWire wire = some ⟨ticket, macInput, encoded⟩ := by
  unfold parseTicketWire
  simp only [schema, decoded]
  split
  case h_1 failure failed => rw [encoded] at failed; cases failed
  case h_2 other succeeded =>
    have same : other = macInput :=
      Except.ok.inj (succeeded.symm.trans encoded)
    subst same
    rfl

theorem parseTicketWire_mac {wire : Json} {parsed : ParsedTicket}
    (success : parseTicketWire wire = some parsed) :
    ∃ text, fromBase64Url text = .ok parsed.ticket.mac := by
  unfold parseTicketWire at success
  split at success
  · cases success
  · next data _ =>
      split at success
      · cases success
      · next ticket decoded =>
          split at success
          · cases success
          · cases success
            obtain ⟨_, -, decoded⟩ := bind_eq_ok.mp decoded
            obtain ⟨mac, macDecoded, decoded⟩ := bind_eq_ok.mp decoded
            cases decoded
            exact ⟨data.mac, macDecoded⟩

/-- The replay key of a parsed ticket determines its MAC. -/
theorem macKey_injective {leftWire rightWire : Json}
    {left right : ParsedTicket}
    (leftParsed : parseTicketWire leftWire = some left)
    (rightParsed : parseTicketWire rightWire = some right)
    (same : toBase64Url left.ticket.mac = toBase64Url right.ticket.mac) :
    left.ticket.mac = right.ticket.mac := by
  obtain ⟨leftText, leftDecoded⟩ := parseTicketWire_mac leftParsed
  obtain ⟨rightText, rightDecoded⟩ := parseTicketWire_mac rightParsed
  have texts : leftText = rightText := by
    rw [← fromBase64Url_canonical leftDecoded,
      ← fromBase64Url_canonical rightDecoded, same]
  rw [texts, rightDecoded] at leftDecoded
  exact (Except.ok.inj leftDecoded).symm

/-- Equal preimages carry equal `exp` fields. -/
theorem ticketMacInput_exp_injective {left right : TicketWire}
    {macInput : Bytes} (leftEncoded : ticketMacInput left = .ok macInput)
    (rightEncoded : ticketMacInput right = .ok macInput) :
    left.exp = right.exp := by
  unfold ticketMacInput at leftEncoded rightEncoded
  obtain ⟨_, leftTag, leftEncoded⟩ := bind_eq_ok.mp leftEncoded
  obtain ⟨_, leftV, leftEncoded⟩ := bind_eq_ok.mp leftEncoded
  obtain ⟨_, leftProtocol, leftEncoded⟩ := bind_eq_ok.mp leftEncoded
  obtain ⟨_, leftGeneration, leftEncoded⟩ := bind_eq_ok.mp leftEncoded
  obtain ⟨_, leftBrowser, leftEncoded⟩ := bind_eq_ok.mp leftEncoded
  obtain ⟨_, leftCaller, leftEncoded⟩ := bind_eq_ok.mp leftEncoded
  obtain ⟨_, leftExp, leftEncoded⟩ := bind_eq_ok.mp leftEncoded
  obtain ⟨_, -, leftEncoded⟩ := bind_eq_ok.mp leftEncoded
  obtain ⟨_, rightTag, rightEncoded⟩ := bind_eq_ok.mp rightEncoded
  obtain ⟨_, rightV, rightEncoded⟩ := bind_eq_ok.mp rightEncoded
  obtain ⟨_, rightProtocol, rightEncoded⟩ := bind_eq_ok.mp rightEncoded
  obtain ⟨_, rightGeneration, rightEncoded⟩ := bind_eq_ok.mp rightEncoded
  obtain ⟨_, rightBrowser, rightEncoded⟩ := bind_eq_ok.mp rightEncoded
  obtain ⟨_, rightCaller, rightEncoded⟩ := bind_eq_ok.mp rightEncoded
  obtain ⟨_, rightExp, rightEncoded⟩ := bind_eq_ok.mp rightEncoded
  obtain ⟨_, -, rightEncoded⟩ := bind_eq_ok.mp rightEncoded
  have same := Except.ok.inj (leftEncoded.trans rightEncoded.symm)
  have same := (enc_append_inj leftTag rightTag same).2
  have same := (encU32BE_append_inj leftV rightV same).2
  have same := (encU32BE_append_inj leftProtocol rightProtocol same).2
  have same := (enc_append_inj leftGeneration rightGeneration same).2
  have same := (enc_append_inj leftBrowser rightBrowser same).2
  have same := (enc_append_inj leftCaller rightCaller same).2
  exact (encU64BE_append_inj leftExp rightExp same).1

/-! ## The rows before the cache -/

theorem rowsBeforeReplay_eq_ok {crypto : TicketCrypto} {wire : Json}
    {ctx : TicketContext} {parsed : ParsedTicket}
    (reached : rowsBeforeReplay crypto wire ctx = .ok parsed) :
    parseTicketWire wire = some parsed ∧
      parsed.ticket.mac =
        crypto.hmacSha256 (deriveTicketKey crypto ctx.localToken)
          parsed.macInput := by
  unfold rowsBeforeReplay at reached
  cases attempt : parseTicketWire wire with
  | none => simp [attempt] at reached
  | some candidate =>
      simp only [attempt] at reached
      split at reached
      · cases reached
      · next verified =>
          repeat' split at reached
          all_goals cases reached
          exact ⟨rfl, by simpa using verified⟩

theorem replayRowTicket_eq_some {crypto : TicketCrypto} {call : TicketCall}
    {ticket : TicketWire}
    (reached : call.replayRowTicket crypto = some ticket) :
    ∃ parsed, rowsBeforeReplay crypto call.wire call.ctx = .ok parsed ∧
      parsed.ticket = ticket := by
  unfold TicketCall.replayRowTicket at reached
  cases rows : rowsBeforeReplay crypto call.wire call.ctx with
  | error reason => simp [rows, Except.toOption] at reached
  | ok parsed =>
      simp only [rows, Except.toOption, Option.map_some,
        Option.some.injEq] at reached
      exact ⟨parsed, rfl, reached⟩

/-- What one call does, by the row it stops at. -/
theorem verify_cases (crypto : TicketCrypto) (call : TicketCall)
    (replay : TicketReplayCache) :
    (call.replayRowTicket crypto = none ∧
      (call.verify crypto replay).1.isAttested = false ∧
      (call.verify crypto replay).2 = replay) ∨
    ∃ ticket, call.replayRowTicket crypto = some ticket ∧
      call.presentedMac = some ticket.mac ∧
      (((replay.prune call.ctx.nowMs).has (toBase64Url ticket.mac) = true ∧
          (call.verify crypto replay).1.isAttested = false ∧
          (call.verify crypto replay).2 = replay.prune call.ctx.nowMs) ∨
        ((replay.prune call.ctx.nowMs).has (toBase64Url ticket.mac) = false ∧
          (call.verify crypto replay).1 = rowsAfterReplay ticket call.ctx ∧
          (call.verify crypto replay).2 =
            (replay.prune call.ctx.nowMs).add (toBase64Url ticket.mac)
              (expMs ticket) call.ctx.nowMs)) := by
  unfold TicketCall.verify TicketCall.replayRowTicket verifyNmTicket
  cases rows : rowsBeforeReplay crypto call.wire call.ctx with
  | error reason =>
      left
      simp [Except.toOption, TicketVerdict.isAttested]
  | ok parsed =>
      right
      obtain ⟨parse, -⟩ := rowsBeforeReplay_eq_ok rows
      refine ⟨parsed.ticket, rfl, by simp [TicketCall.presentedMac, parse], ?_⟩
      cases seen : (replay.prune call.ctx.nowMs).has
          (toBase64Url parsed.ticket.mac) with
      | true => left; simp [seen, TicketVerdict.isAttested]
      | false => right; simp [seen]

/-- An attested ticket is inside its lifetime. -/
theorem rowsAfterReplay_attested {t : TicketWire} {ctx : TicketContext}
    (attested : (rowsAfterReplay t ctx).isAttested = true) :
    ctx.nowMs < expMs t ∧ expMs t ≤ ctx.nowMs + maxRemainingLifetimeMs := by
  unfold rowsAfterReplay at attested
  simp only at attested
  repeat' split at attested
  all_goals first
    | exact ⟨by omega, by omega⟩
    | cases attested

theorem rowsAfterReplay_attested_iff (t : TicketWire) (ctx : TicketContext) :
    rowsAfterReplay t ctx = .attested t.callerId ⟨t.bindingPub⟩ ↔
      t.serverGeneration = ctx.serverGeneration ∧ ctx.nowMs < expMs t ∧
        expMs t ≤ ctx.nowMs + maxRemainingLifetimeMs := by
  constructor
  · intro attested
    have lifetime := rowsAfterReplay_attested
      (show (rowsAfterReplay t ctx).isAttested = true by rw [attested]; rfl)
    refine ⟨?_, lifetime⟩
    by_contra other
    have timely : ¬ expMs t > ctx.nowMs + maxRemainingLifetimeMs := by omega
    simp [rowsAfterReplay, timely, other] at attested
  · rintro ⟨generation, unexpired, timely⟩
    have notFar : ¬ expMs t > ctx.nowMs + maxRemainingLifetimeMs := by omega
    have notOver : ¬ expMs t ≤ ctx.nowMs := by omega
    simp [rowsAfterReplay, notFar, notOver, generation]

/-! ## The retention invariant -/

/-- A call that presents `mac` at `nowMs` or later cannot be attested: either
the cache still refuses it, or the ticket's lifetime is over. -/
def Spent (replay : TicketReplayCache) (mac : Bytes) (deadline nowMs : Int) :
    Prop :=
  (∃ entry ∈ replay.seen, entry.1 = toBase64Url mac ∧ deadline ≤ entry.2) ∨
    deadline ≤ nowMs

theorem Spent.has {replay : TicketReplayCache} {mac : Bytes}
    {deadline nowMs : Int} (spent : Spent replay mac deadline nowMs)
    (alive : nowMs < deadline) :
    (replay.prune nowMs).has (toBase64Url mac) = true := by
  obtain ⟨entry, member, key, retained⟩ | expired := spent
  · simp only [TicketReplayCache.has, TicketReplayCache.prune,
      List.any_eq_true, List.mem_filter, decide_eq_true_eq]
    exact ⟨entry, ⟨member, by omega⟩, key⟩
  · omega

theorem Spent.prune {replay : TicketReplayCache} {mac : Bytes}
    {deadline nowMs : Int} (spent : Spent replay mac deadline nowMs) :
    Spent (replay.prune nowMs) mac deadline nowMs := by
  by_cases alive : nowMs < deadline
  · obtain ⟨entry, member, key, retained⟩ | expired := spent
    · refine .inl ⟨entry, ?_, key, retained⟩
      simp only [TicketReplayCache.prune, List.mem_filter, decide_eq_true_eq]
      exact ⟨member, by omega⟩
    · omega
  · exact .inr (by omega)

theorem Spent.add {replay : TicketReplayCache} {mac : Bytes}
    {deadline nowMs : Int} (spent : Spent replay mac deadline nowMs)
    {otherKey : String} (absent : replay.has otherKey = false)
    (expMs : Int) :
    Spent (replay.add otherKey expMs nowMs) mac deadline nowMs := by
  obtain ⟨entry, member, key, retained⟩ | expired := spent
  · refine .inl ⟨entry, ?_, key, retained⟩
    have different : entry.1 ≠ otherKey := by
      simp only [TicketReplayCache.has, List.any_eq_false,
        decide_eq_true_eq] at absent
      exact absent entry member
    simp [TicketReplayCache.add, member, different]
  · exact .inr expired

theorem Spent.later {replay : TicketReplayCache} {mac : Bytes}
    {deadline nowMs laterMs : Int} (spent : Spent replay mac deadline nowMs)
    (ordered : nowMs ≤ laterMs) : Spent replay mac deadline laterMs := by
  obtain held | expired := spent
  · exact .inl held
  · exact .inr (by omega)

/-- One call keeps a spent MAC spent and does not attest it. -/
theorem Spent.verify {crypto : TicketCrypto} {replay : TicketReplayCache}
    {mac : Bytes} {deadline : Int} {call : TicketCall}
    (spent : Spent replay mac deadline call.ctx.nowMs)
    (sameExp : ∀ ticket, call.replayRowTicket crypto = some ticket →
      ticket.mac = mac → expMs ticket = deadline) :
    Spent (call.verify crypto replay).2 mac deadline call.ctx.nowMs ∧
      (call.presentedMac = some mac →
        (call.verify crypto replay).1.isAttested = false) := by
  obtain ⟨-, refused, unchanged⟩ | ⟨ticket, reached, presented, outcome⟩ :=
    verify_cases crypto call replay
  · rw [unchanged]
    exact ⟨spent, fun _ => refused⟩
  · obtain ⟨-, refused, pruned⟩ | ⟨absent, verdict, added⟩ := outcome
    · rw [pruned]
      exact ⟨spent.prune, fun _ => refused⟩
    · rw [added, verdict]
      refine ⟨spent.prune.add absent _, fun same => ?_⟩
      have macs : ticket.mac = mac := by
        rw [presented] at same
        exact Option.some.inj same
      by_contra attested
      obtain ⟨alive, -⟩ := rowsAfterReplay_attested
        (Bool.eq_true_of_not_eq_false attested)
      rw [sameExp ticket reached macs] at alive
      rw [macs, spent.has alive] at absent
      cases absent

theorem Spent.run {crypto : TicketCrypto} {mac : Bytes} {deadline : Int}
    {calls : List TicketCall} {replay : TicketReplayCache} {nowMs : Int}
    (spent : Spent replay mac deadline nowMs)
    (started : ∀ call ∈ calls, nowMs ≤ call.ctx.nowMs)
    (clock : ClockNondecreasing calls)
    (sameExp : ∀ call ∈ calls, ∀ ticket,
      call.replayRowTicket crypto = some ticket →
      ticket.mac = mac → expMs ticket = deadline) :
    ∀ outcome ∈ runTickets crypto replay calls,
      outcome.1.presentedMac = some mac → outcome.2.isAttested = false := by
  induction calls generalizing replay nowMs with
  | nil => simp [runTickets]
  | cons call later induction =>
      have ordered : nowMs ≤ call.ctx.nowMs := started call (by simp)
      simp only [ClockNondecreasing, List.map_cons, List.pairwise_cons]
        at clock
      obtain ⟨next, refused⟩ := (spent.later ordered).verify
        (sameExp call (by simp))
      intro outcome member
      rcases List.mem_cons.mp member with first | rest
      · subst first
        exact refused
      · refine induction next ?_ clock.2 ?_ outcome rest
        · intro laterCall laterMember
          exact clock.1 _ (List.mem_map_of_mem laterMember)
        · intro laterCall laterMember
          exact sameExp laterCall (by simp [laterMember])

/-! ## Which entries the cache holds -/

/-- `mac` has not been brought to the replay row by any of `calls`. -/
def Unconsumed (crypto : TicketCrypto) (calls : List TicketCall)
    (mac : Bytes) : Prop :=
  ∀ call ∈ calls, ∀ ticket, call.replayRowTicket crypto = some ticket →
    ticket.mac ≠ mac

theorem verify_seen {crypto : TicketCrypto} {call : TicketCall}
    {replay : TicketReplayCache} {entry : String × Int}
    (member : entry ∈ (call.verify crypto replay).2.seen) :
    entry ∈ replay.seen ∨
      ∃ ticket, call.replayRowTicket crypto = some ticket ∧
        entry.1 = toBase64Url ticket.mac := by
  have pruned : ∀ {nowMs : Int}, entry ∈ (replay.prune nowMs).seen →
      entry ∈ replay.seen := fun kept => (List.mem_filter.mp kept).1
  obtain ⟨-, -, unchanged⟩ | ⟨ticket, reached, -, outcome⟩ :=
    verify_cases crypto call replay
  · exact .inl (unchanged ▸ member)
  · obtain ⟨-, -, same⟩ | ⟨-, -, added⟩ := outcome
    · exact .inl (pruned (same ▸ member))
    · rw [added] at member
      rcases List.mem_cons.mp member with new | old
      · exact .inr ⟨ticket, reached, by rw [new]⟩
      · exact .inl (pruned (List.mem_filter.mp old).1)

theorem cacheAfter_seen {crypto : TicketCrypto} {calls : List TicketCall}
    {replay : TicketReplayCache} {entry : String × Int}
    (member : entry ∈ (cacheAfter crypto replay calls).seen) :
    entry ∈ replay.seen ∨
      ∃ call ∈ calls, ∃ ticket,
        call.replayRowTicket crypto = some ticket ∧
          entry.1 = toBase64Url ticket.mac := by
  induction calls generalizing replay with
  | nil => exact .inl member
  | cons call later induction =>
      rcases induction member with kept | ⟨other, otherMember, recorded⟩
      · rcases verify_seen kept with old | ⟨ticket, reached, key⟩
        · exact .inl old
        · exact .inr ⟨call, by simp, ticket, reached, key⟩
      · exact .inr ⟨other, by simp [otherMember], recorded⟩

/-- A MAC the run has not consumed yet has no entry. -/
theorem Unconsumed.absent {crypto : TicketCrypto} {before : List TicketCall}
    {call : TicketCall} {ticket : TicketWire}
    (fresh : Unconsumed crypto before ticket.mac)
    (reached : call.replayRowTicket crypto = some ticket) :
    ∀ entry ∈ (cacheAfter crypto .empty before).seen,
      entry.1 ≠ toBase64Url ticket.mac := by
  intro entry member key
  rcases cacheAfter_seen member with none | ⟨other, otherMember, recorded⟩
  · cases none
  · obtain ⟨otherTicket, otherReached, otherKey⟩ := recorded
    obtain ⟨parsed, rows, rfl⟩ := replayRowTicket_eq_some reached
    obtain ⟨otherParsed, otherRows, rfl⟩ :=
      replayRowTicket_eq_some otherReached
    exact fresh other otherMember _ otherReached
      (macKey_injective (rowsBeforeReplay_eq_ok otherRows).1
        (rowsBeforeReplay_eq_ok rows).1 (otherKey.symm.trans key))

/-- The first call that consumes a MAC records it with the clamped retention
time. -/
theorem Unconsumed.verify {crypto : TicketCrypto} {before : List TicketCall}
    {call : TicketCall} {ticket : TicketWire}
    (fresh : Unconsumed crypto before ticket.mac)
    (reached : call.replayRowTicket crypto = some ticket) :
    let replay := cacheAfter crypto .empty before
    (call.verify crypto replay).2 =
      (replay.prune call.ctx.nowMs).add (toBase64Url ticket.mac)
        (expMs ticket) call.ctx.nowMs := by
  intro replay
  obtain ⟨missed, -⟩ | ⟨other, otherReached, -, outcome⟩ :=
    verify_cases crypto call replay
  · rw [missed] at reached
    cases reached
  · rw [reached] at otherReached
    cases otherReached
    obtain ⟨seen, -⟩ | ⟨-, -, added⟩ := outcome
    · simp only [TicketReplayCache.has, TicketReplayCache.prune,
        List.any_eq_true, List.mem_filter, decide_eq_true_eq] at seen
      obtain ⟨entry, ⟨member, -⟩, key⟩ := seen
      exact absurd key (fresh.absent reached entry member)
    · exact added

theorem cacheAfter_append (crypto : TicketCrypto) (first second : List TicketCall)
    (replay : TicketReplayCache) :
    cacheAfter crypto replay (first ++ second) =
      cacheAfter crypto (cacheAfter crypto replay first) second := by
  induction first generalizing replay with
  | nil => rfl
  | cons call later induction => exact induction _

theorem runTickets_append (crypto : TicketCrypto)
    (first second : List TicketCall) (replay : TicketReplayCache) :
    runTickets crypto replay (first ++ second) =
      runTickets crypto replay first ++
        runTickets crypto (cacheAfter crypto replay first) second := by
  induction first generalizing replay with
  | nil => rfl
  | cons call later induction =>
      simp only [List.cons_append, runTickets, cacheAfter, induction]

/-- Calls of a collision-free run that present one MAC carry one `exp`. -/
theorem MacsCollisionFree.sameExp {crypto : TicketCrypto}
    {calls : List TicketCall} (collisionFree : MacsCollisionFree crypto calls)
    {left right : TicketCall} (leftMember : left ∈ calls)
    (rightMember : right ∈ calls) {leftTicket rightTicket : TicketWire}
    (leftReached : left.replayRowTicket crypto = some leftTicket)
    (rightReached : right.replayRowTicket crypto = some rightTicket)
    (same : leftTicket.mac = rightTicket.mac) :
    expMs leftTicket = expMs rightTicket := by
  obtain ⟨leftParsed, leftRows, rfl⟩ := replayRowTicket_eq_some leftReached
  obtain ⟨rightParsed, rightRows, rfl⟩ := replayRowTicket_eq_some rightReached
  obtain ⟨leftParse, leftMac⟩ := rowsBeforeReplay_eq_ok leftRows
  obtain ⟨rightParse, rightMac⟩ := rowsBeforeReplay_eq_ok rightRows
  have leftQuery : left.macQuery crypto = some
      (deriveTicketKey crypto left.ctx.localToken, leftParsed.macInput) := by
    simp only [TicketCall.macQuery, leftParse, Option.map_some]
  have rightQuery : right.macQuery crypto = some
      (deriveTicketKey crypto right.ctx.localToken, rightParsed.macInput) := by
    simp only [TicketCall.macQuery, rightParse, Option.map_some]
  have queries := collisionFree left leftMember right rightMember _ _
    leftQuery rightQuery (by rw [← leftMac, ← rightMac, same])
  have inputs : leftParsed.macInput = rightParsed.macInput :=
    congrArg Prod.snd queries
  have exps := ticketMacInput_exp_injective leftParsed.encoded
    (inputs ▸ rightParsed.encoded)
  simp only [expMs, exps]

end Motrix.Bridge
