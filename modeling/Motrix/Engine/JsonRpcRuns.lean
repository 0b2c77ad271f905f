import Mathlib.Data.List.Induction
import Motrix.Engine.JsonRpcProtocol

/-!
# Who settles a call

Every frame that is attributed as the protocol attributes it leaves a run in
which nothing threw, every call was settled once or still has its timer, and
nothing but its own answer, timer or sending settled a call.
-/

namespace Motrix.Engine

variable {Number : Type}

/-! ## Ids -/

theorem callId_injective {first second : Nat}
    (same : toString first = toString second) : first = second := by
  have digits : Nat.toDigits 10 first = Nat.toDigits 10 second := by
    rw [← Nat.toList_repr, ← Nat.toList_repr]
    exact congrArg String.toList same
  have numbers := congrArg (Nat.ofDigitChars 10 · 0) digits
  simpa only [Nat.ofDigitChars_ten_toDigits] using numbers

/-! ## Frames -/

/-- An error that names no call. -/
def Uncorrelated (host : HostJson Number) (msg error : JsonValue Number) :
    Prop :=
  msg.field "id" = some .null ∧ msg.field "error" = some error ∧
    JsonValue.truthy host (some error) = true

def Answers (msg : JsonValue Number) (id : String) : Prop :=
  msg.field "id" = some (.string id)

/-- The value converts to a string, or is missing. -/
def Convertible (host : HostJson Number)
    (value : Option (JsonValue Number)) : Prop :=
  (JsonValue.interpolated host value).isSome

namespace JsonRpcProtocol

variable {host : HostJson Number} {protocol : JsonRpcProtocol Number}
  {data : String} {msg : JsonValue Number}

theorem handleMessage_ofUncorrelated {error : JsonValue Number}
    (parsed : host.parse data = some msg)
    (uncorrelated : Uncorrelated host msg error) :
    protocol.handleMessage host data =
      (uncorrelatedMessage host error).elim (protocol, { threw := true })
        protocol.reportUncorrelated := by
  obtain ⟨id, found, truthy⟩ := uncorrelated
  unfold handleMessage
  rw [parsed]
  cases msg with
  | object members =>
      simp only [id, found, truthy, if_true]
      cases uncorrelatedMessage host error with
      | none => rfl
      | some message => rfl
  | null => cases id
  | boolean value => cases id
  | number value => cases id
  | string value => cases id
  | array items => cases id

theorem handleMessage_uncorrelated {error : JsonValue Number}
    {message : String} (parsed : host.parse data = some msg)
    (uncorrelated : Uncorrelated host msg error)
    (text : uncorrelatedMessage host error = some message) :
    protocol.handleMessage host data =
      protocol.reportUncorrelated message := by
  rw [handleMessage_ofUncorrelated parsed uncorrelated, text]
  rfl

theorem handleMessage_unprintable {error : JsonValue Number}
    (parsed : host.parse data = some msg)
    (uncorrelated : Uncorrelated host msg error)
    (text : uncorrelatedMessage host error = none) :
    protocol.handleMessage host data = (protocol, { threw := true }) := by
  rw [handleMessage_ofUncorrelated parsed uncorrelated, text]
  rfl

theorem handleMessage_answers {id : String}
    (parsed : host.parse data = some msg) (answers : Answers msg id) :
    protocol.handleMessage host data = protocol.answer host msg id := by
  unfold handleMessage
  rw [parsed]
  unfold Answers at answers
  cases msg with
  | object members => simp only [answers]
  | null => cases answers
  | boolean value => cases answers
  | number value => cases answers
  | string value => cases answers
  | array items => cases answers

theorem handleMessage_notify (parsed : host.parse data = some msg)
    (notNull : msg ≠ .null)
    (correlated : ∀ error, ¬Uncorrelated host msg error)
    (unanswered : ∀ id, ¬Answers msg id) :
    protocol.handleMessage host data = protocol.notify host msg := by
  unfold handleMessage
  rw [parsed]
  unfold Uncorrelated at correlated
  unfold Answers at unanswered
  split
  · rename_i same
    cases same
  · rename_i same
    cases same
    exact absurd rfl notNull
  · rename_i same
    cases same
    split
    · rename_i error id found
      split
      · rename_i truthy
        exact absurd ⟨id, found, truthy⟩ (correlated error)
      · rfl
    · rename_i id found
      exact absurd found (unanswered id)
    · rfl

/-! ## What an entry does to the pending calls -/

def keys (protocol : JsonRpcProtocol Number) : List String :=
  protocol.pending.map Prod.fst

def armed (protocol : JsonRpcProtocol Number) : List String :=
  protocol.timers.map Prod.fst

theorem keys_deletePending (protocol : JsonRpcProtocol Number)
    (id : String) :
    (protocol.deletePending id).keys = protocol.keys.filter (· != id) := by
  unfold keys deletePending
  rw [List.filter_map]
  rfl

theorem armed_clearTimer (protocol : JsonRpcProtocol Number)
    (id : String) :
    (protocol.clearTimer id).armed = protocol.armed.filter (· != id) := by
  unfold armed clearTimer
  rw [List.filter_map]
  rfl

/-- The calls that are open, how many were made, and the timers. -/
inductive Effect (before after : JsonRpcProtocol Number)
    (reaction : Reaction Number) : Prop where
  | quiet (count : after.nextId = before.nextId)
      (keys : after.keys = before.keys) (armed : after.armed = before.armed)
      (settled : reaction.settled = [])
  | settles (id : String) (outcome : Settlement Number)
      (count : after.nextId = before.nextId) (pending : id ∈ before.keys)
      (keys : after.keys = before.keys.filter (· != id))
      (armed : after.armed = before.armed.filter (· != id))
      (settled : reaction.settled = [(id, outcome)])
  | issues (count : after.nextId = before.nextId + 1)
      (keys : after.keys = before.keys ++ [toString before.nextId])
      (armed : after.armed = before.armed ++ [toString before.nextId])
      (settled : reaction.settled = [])
  | refuses (outcome : Settlement Number)
      (count : after.nextId = before.nextId + 1)
      (keys : after.keys = before.keys) (armed : after.armed = before.armed)
      (settled : reaction.settled =
        [(toString before.nextId, outcome)])

theorem lookup_mem_keys {Value : Type} {entries : List (String × Value)}
    {id : String} {value : Value}
    (found : entries.lookup id = some value) :
    id ∈ entries.map Prod.fst := by
  induction entries with
  | nil => cases found
  | cons entry rest induction =>
      rw [List.lookup_cons] at found
      by_cases same : id = entry.1
      · exact List.mem_map.mpr ⟨entry, List.mem_cons_self, same.symm⟩
      · have different : (id == entry.1) = false := beq_false_of_ne same
        rw [different] at found
        exact List.mem_cons_of_mem _ (induction found)

theorem mem_keys_lookup {Value : Type} {entries : List (String × Value)}
    {id : String} (member : id ∈ entries.map Prod.fst) :
    ∃ value, entries.lookup id = some value := by
  induction entries with
  | nil => cases member
  | cons entry rest induction =>
      rw [List.lookup_cons]
      by_cases same : id = entry.1
      · rw [same, beq_self_eq_true]
        exact ⟨entry.2, rfl⟩
      · have different : (id == entry.1) = false := beq_false_of_ne same
        rw [different]
        apply induction
        rw [List.map_cons, List.mem_cons] at member
        exact member.resolve_left same

/-- Removing an open call with its timer. -/
theorem removed_effect {id : String} (outcome : Settlement Number)
    (pending : id ∈ protocol.keys) :
    Effect protocol ((protocol.clearTimer id).deletePending id)
      { settled := [(id, outcome)] } := by
  apply Effect.settles id outcome
  · rfl
  · exact pending
  · rw [keys_deletePending]
    rfl
  · have timers : ((protocol.clearTimer id).deletePending id).armed =
        (protocol.clearTimer id).armed := rfl
    rw [timers, armed_clearTimer]
  · rfl

theorem timeout_effect (id : String)
    (armed : protocol.armed = protocol.keys) :
    Effect protocol (protocol.timeout id).1 (protocol.timeout id).2 := by
  unfold timeout
  cases found : protocol.timers.lookup id with
  | none => exact Effect.quiet rfl rfl rfl rfl
  | some timer =>
      apply removed_effect
      rw [← armed]
      exact lookup_mem_keys found

theorem call_effect (method : String) (params : List (JsonValue Number))
    (timeoutMs : Option Nat) (send : Except String Unit)
    (armed : protocol.armed = protocol.keys)
    (fresh : toString protocol.nextId ∉ protocol.keys) :
    Effect protocol (protocol.call host method params timeoutMs send).1
      (protocol.call host method params timeoutMs send).2 := by
  have removed : (protocol.keys ++ [toString protocol.nextId]).filter
      (· != toString protocol.nextId) = protocol.keys := by
    rw [List.filter_append, List.filter_eq_self.mpr]
    · simp
    · intro id member
      rw [bne_iff_ne]
      rintro rfl
      exact fresh member
  unfold call
  cases outcome :
      host.stringify ⟨toString protocol.nextId, method, params⟩ with
  | error error =>
      simp only [outcome]
      exact Effect.refuses (.rejected error) rfl rfl rfl rfl
  | ok serialized =>
      by_cases large :
          serialized.utf8ByteSize > protocol.maxRequestBytes
      · simp only [outcome, large, if_true]
        exact Effect.refuses _ rfl rfl rfl rfl
      · cases send with
        | ok _ =>
            simp only [outcome, large, if_false]
            apply Effect.issues
            · rfl
            · simp [keys]
            · simp [JsonRpcProtocol.armed]
            · rfl
        | error error =>
            simp only [outcome, large, if_false]
            apply Effect.refuses (.rejected error)
            · rfl
            · rw [keys_deletePending]
              simpa [keys, clearTimer] using removed
            · show (JsonRpcProtocol.clearTimer _ _).armed = protocol.armed
              rw [armed_clearTimer]
              rw [← armed] at removed
              simpa [JsonRpcProtocol.armed] using removed
            · rfl

theorem reportUncorrelated_effect (error : String) :
    Effect protocol (protocol.reportUncorrelated error).1
      (protocol.reportUncorrelated error).2 := by
  unfold reportUncorrelated
  split
  · rename_i id request single
    apply removed_effect
    unfold keys
    rw [single]
    exact List.mem_cons_self
  · apply Effect.quiet
    · rfl
    · simp [keys]
    · rfl
    · rfl

theorem notify_effect (msg : JsonValue Number) :
    Effect protocol (protocol.notify host msg).1
      (protocol.notify host msg).2 := by
  unfold notify
  split
  · exact Effect.quiet rfl rfl rfl rfl
  · split
    · cases protocol.notificationHandler with
      | none => exact Effect.quiet rfl rfl rfl rfl
      | some throws => exact Effect.quiet rfl rfl rfl rfl
    · exact Effect.quiet rfl rfl rfl rfl

/-- The error of an answer converts to a message. -/
def AnswerConverts (host : HostJson Number) (msg : JsonValue Number) : Prop :=
  ∀ error, msg.field "error" = some error →
    JsonValue.truthy host (some error) = true →
    Convertible host (error.field "message")

theorem errorMessage_isSome {value : Option (JsonValue Number)} :
    (JsonValue.errorMessage host value).isSome ↔ Convertible host value := by
  cases value with
  | none => exact Iff.of_eq rfl
  | some value => exact Iff.rfl

theorem answer_effect {id : String} (converts : id ∈ protocol.keys →
      AnswerConverts host msg) :
    Effect protocol (protocol.answer host msg id).1
        (protocol.answer host msg id).2 ∧
      (protocol.answer host msg id).2.threw = false ∧
      ∀ entry ∈ (protocol.answer host msg id).2.settled, entry.1 = id := by
  unfold answer
  cases found : protocol.pending.lookup id with
  | none =>
      exact ⟨Effect.quiet rfl rfl rfl rfl, rfl,
        fun entry inside => absurd inside List.not_mem_nil⟩
  | some request =>
      have pending : id ∈ protocol.keys := lookup_mem_keys found
      have one : ∀ outcome : Settlement Number,
          ∀ entry ∈ [(id, outcome)], entry.1 = id := by
        intro outcome entry inside
        rw [List.mem_singleton] at inside
        rw [inside]
      cases failed : msg.field "error" with
      | none =>
          exact ⟨removed_effect _ pending, rfl, one _⟩
      | some error =>
          by_cases truthy : JsonValue.truthy host (some error) = true
          · have text := converts pending error failed truthy
            rw [← errorMessage_isSome] at text
            obtain ⟨message, text⟩ := Option.isSome_iff_exists.mp text
            simp only [truthy, if_true, text]
            exact ⟨removed_effect _ pending, trivial, one _⟩
          · simp only [truthy]
            exact ⟨removed_effect _ pending, rfl, one _⟩

/-- The answer that cannot be turned into an error takes its call with it. -/
theorem answer_threw {id : String} {error : JsonValue Number}
    (pending : id ∈ protocol.keys) (failed : msg.field "error" = some error)
    (truthy : JsonValue.truthy host (some error) = true)
    (stuck : ¬Convertible host (error.field "message")) :
    (protocol.answer host msg id).2.threw = true := by
  obtain ⟨request, found⟩ := mem_keys_lookup pending
  have text : JsonValue.errorMessage host (error.field "message") = none := by
    rw [← errorMessage_isSome] at stuck
    exact Option.not_isSome_iff_eq_none.mp stuck
  unfold answer
  simp only [found, failed, truthy, if_true, text]

/-! ## Frames that the protocol attributes rightly -/

/-- The handler does not throw on the notification, if it is called. -/
def HandlerReturns (host : HostJson Number)
    (protocol : JsonRpcProtocol Number) (msg : JsonValue Number) : Prop :=
  ∀ method throws, msg.field "method" = some method →
    JsonValue.truthy host (some method) = true →
    protocol.notificationHandler = some throws →
    throws method (notificationParams msg) = false

theorem notify_silent_iff : (protocol.notify host msg).2.threw = false ↔
    HandlerReturns host protocol msg := by
  unfold notify HandlerReturns
  cases named : msg.field "method" with
  | none => simp
  | some method =>
      by_cases truthy : JsonValue.truthy host (some method) = true
      · cases handler : protocol.notificationHandler with
        | none => simp [truthy]
        | some throws => simp [truthy]
      · simp only [truthy]
        refine ⟨?_, fun _ => rfl⟩
        rintro - _ _ ⟨⟩ truthy'
        exact absurd truthy' truthy

/-- The frame is not the JSON null; the errors it makes the protocol build
have texts; an error without an id comes from the only open call, if just one
is open; and the handler of a notification returns. -/
structure Attributed (host : HostJson Number)
    (protocol : JsonRpcProtocol Number) (data : String)
    (provokedBy : Option String) : Prop where
  notNull : host.parse data ≠ some .null
  reported : ∀ msg error, host.parse data = some msg →
    Uncorrelated host msg error →
    Convertible host (error.field "code") ∧
      Convertible host (error.field "message")
  provoked : ∀ msg error id, host.parse data = some msg →
    Uncorrelated host msg error → protocol.keys = [id] →
    provokedBy = some id
  answered : ∀ msg id, host.parse data = some msg → Answers msg id →
    id ∈ protocol.keys → AnswerConverts host msg
  handled : ∀ msg, host.parse data = some msg →
    (∀ error, ¬Uncorrelated host msg error) → (∀ id, ¬Answers msg id) →
    HandlerReturns host protocol msg

/-- The call that an entry may settle. -/
def Owns (host : HostJson Number) (record : ProtocolRecord Number)
    (id : String) : Prop :=
  match record.event with
  | .call _ _ _ _ => id = toString record.nextId
  | .timeout other => id = other
  | .frame data provokedBy => ∃ msg, host.parse data = some msg ∧
      (Answers msg id ∨
        (∃ error, Uncorrelated host msg error) ∧ provokedBy = some id)
  | .onNotification _ => False

/-- What a single entry has to be. -/
structure Lawful (host : HostJson Number) (record : ProtocolRecord Number) :
    Prop where
  silent : record.reaction.threw = false
  own : ∀ entry ∈ record.reaction.settled, Owns host record entry.1

theorem uncorrelatedMessage_isSome {error : JsonValue Number} :
    (uncorrelatedMessage host error).isSome ↔
      Convertible host (error.field "code") ∧
        Convertible host (error.field "message") := by
  unfold uncorrelatedMessage Convertible
  cases JsonValue.interpolated host (error.field "code") with
  | none => simp
  | some code =>
      cases JsonValue.interpolated host (error.field "message") with
      | none => simp
      | some message => simp

theorem notify_settled (msg : JsonValue Number) :
    (protocol.notify host msg).2.settled = [] := by
  unfold notify
  split
  · rfl
  · split
    · cases protocol.notificationHandler with
      | none => rfl
      | some throws => rfl
    · rfl

theorem reportUncorrelated_settled {error : String}
    {entry : String × Settlement Number}
    (inside : entry ∈ (protocol.reportUncorrelated error).2.settled) :
    protocol.keys = [entry.1] := by
  unfold reportUncorrelated at inside
  split at inside
  · rename_i id request single
    rw [List.mem_singleton] at inside
    unfold keys
    rw [single, inside]
    rfl
  · cases inside

theorem reportUncorrelated_only {id : String} (error : String)
    (single : protocol.keys = [id]) :
    (id, .rejected error) ∈ (protocol.reportUncorrelated error).2.settled := by
  unfold keys at single
  obtain ⟨entry, pending, named⟩ := List.map_eq_singleton_iff.mp single
  unfold reportUncorrelated
  rw [pending, ← named]
  exact List.mem_singleton_self _

theorem reportUncorrelated_silent (error : String) :
    (protocol.reportUncorrelated error).2.threw = false := by
  unfold reportUncorrelated
  split
  · rfl
  · rfl

/-- A frame meets what is asked of it exactly when it is attributed
rightly; its effect on the open calls is then one of the regular ones. -/
theorem frame_lawful {provokedBy : Option String}
    (attributed : Attributed host protocol data provokedBy) :
    Effect protocol (protocol.handleMessage host data).1
        (protocol.handleMessage host data).2 ∧
      Lawful host ⟨protocol.nextId, .frame data provokedBy,
        (protocol.handleMessage host data).2⟩ := by
  cases parsed : host.parse data with
  | none =>
      have ignored : protocol.handleMessage host data = (protocol, {}) := by
        unfold handleMessage
        rw [parsed]
      rw [ignored]
      exact ⟨Effect.quiet rfl rfl rfl rfl, rfl,
        fun entry inside => absurd inside List.not_mem_nil⟩
  | some msg =>
      by_cases uncorrelated : ∃ error, Uncorrelated host msg error
      · obtain ⟨error, uncorrelated⟩ := uncorrelated
        have texts := attributed.reported msg error parsed uncorrelated
        rw [← uncorrelatedMessage_isSome] at texts
        obtain ⟨message, text⟩ := Option.isSome_iff_exists.mp texts
        rw [handleMessage_uncorrelated parsed uncorrelated text]
        refine ⟨reportUncorrelated_effect message,
          reportUncorrelated_silent message, ?_⟩
        intro entry inside
        have single := reportUncorrelated_settled inside
        exact ⟨msg, parsed, Or.inr ⟨⟨error, uncorrelated⟩,
          attributed.provoked msg error entry.1 parsed uncorrelated
            single⟩⟩
      · by_cases answers : ∃ id, Answers msg id
        · obtain ⟨id, answers⟩ := answers
          have converts := attributed.answered msg id parsed answers
          obtain ⟨effect, silent, own⟩ := answer_effect converts
          rw [handleMessage_answers parsed answers]
          refine ⟨effect, silent, ?_⟩
          intro entry inside
          refine ⟨msg, parsed, Or.inl ?_⟩
          rw [own entry inside]
          exact answers
        · have correlated := not_exists.mp uncorrelated
          have unanswered := not_exists.mp answers
          have notNull : msg ≠ .null := by
            rintro rfl
            exact attributed.notNull parsed
          rw [handleMessage_notify parsed notNull correlated unanswered]
          refine ⟨notify_effect msg,
            notify_silent_iff.mpr
              (attributed.handled msg parsed correlated unanswered), ?_⟩
          intro entry inside
          have inside' : entry ∈ (protocol.notify host msg).2.settled :=
            inside
          rw [notify_settled] at inside'
          cases inside'

theorem answers_not_uncorrelated {id : String} (answers : Answers msg id)
    (error : JsonValue Number) : ¬Uncorrelated host msg error := by
  rintro ⟨none', -⟩
  rw [answers] at none'
  cases none'

/-- A frame that is not attributed rightly breaks what is asked of it. -/
theorem lawful_attributed {provokedBy : Option String}
    (lawful : Lawful host ⟨protocol.nextId, .frame data provokedBy,
      (protocol.handleMessage host data).2⟩) :
    Attributed host protocol data provokedBy := by
  have silent : (protocol.handleMessage host data).2.threw = false :=
    lawful.silent
  constructor
  · intro parsed
    unfold handleMessage at silent
    rw [parsed] at silent
    cases silent
  · intro msg error parsed uncorrelated
    by_contra stuck
    rw [← uncorrelatedMessage_isSome] at stuck
    rw [handleMessage_unprintable parsed uncorrelated
      (Option.not_isSome_iff_eq_none.mp stuck)] at silent
    cases silent
  · intro msg error id parsed uncorrelated single
    have own := lawful.own
    cases text : uncorrelatedMessage host error with
    | none =>
        rw [handleMessage_unprintable parsed uncorrelated text] at silent
        cases silent
    | some message =>
        have settled := reportUncorrelated_only message single
        rw [handleMessage_uncorrelated parsed uncorrelated text] at own
        obtain ⟨msg', parsed', attribution⟩ := own _ settled
        rw [parsed] at parsed'
        cases parsed'
        rcases attribution with answers | ⟨_, provoked⟩
        · exact absurd uncorrelated (answers_not_uncorrelated answers error)
        · exact provoked
  · intro msg id parsed answers pending error failed truthy
    by_contra stuck
    rw [handleMessage_answers parsed answers] at silent
    rw [answer_threw pending failed truthy stuck] at silent
    cases silent
  · intro msg parsed correlated unanswered
    have notNull : msg ≠ .null := by
      rintro rfl
      unfold handleMessage at silent
      rw [parsed] at silent
      cases silent
    rw [handleMessage_notify parsed notNull correlated unanswered] at silent
    exact notify_silent_iff.mp silent

/-! ## Runs -/

def settledIds (log : List (ProtocolRecord Number)) : List String :=
  log.flatMap fun record => record.reaction.settled.map Prod.fst

/-- A call that is open has its timer and is not settled; every other one
was settled once. -/
structure Accounts
    (state : JsonRpcProtocol Number × List (ProtocolRecord Number)) :
    Prop where
  armed : state.1.armed = state.1.keys
  issued : ∀ id ∈ state.1.keys, ∃ number,
    number < state.1.nextId ∧ id = toString number
  unsettled : ∀ id ∈ state.1.keys, (settledIds state.2).count id = 0
  settled : ∀ number, 0 < number → number < state.1.nextId →
    toString number ∉ state.1.keys →
    (settledIds state.2).count (toString number) = 1
  future : ∀ number, state.1.nextId ≤ number →
    (settledIds state.2).count (toString number) = 0

theorem Accounts.fresh
    {state : JsonRpcProtocol Number × List (ProtocolRecord Number)}
    (accounts : Accounts state) : toString state.1.nextId ∉ state.1.keys := by
  intro inside
  obtain ⟨number, below, same⟩ := accounts.issued _ inside
  have equal := callId_injective same
  omega

theorem settledIds_concat (log : List (ProtocolRecord Number))
    (record : ProtocolRecord Number) (id : String) :
    (settledIds (log ++ [record])).count id =
      (settledIds log).count id +
        (record.reaction.settled.map Prod.fst).count id := by
  unfold settledIds
  rw [List.flatMap_append, List.count_append, List.flatMap_singleton]

theorem count_settled {outcome : Settlement Number} {id other : String} :
    ([(id, outcome)].map Prod.fst).count other =
      if id = other then 1 else 0 := by
  rw [List.map_singleton, List.count_singleton]
  simp only [beq_iff_eq]

theorem Accounts.effect
    {state : JsonRpcProtocol Number × List (ProtocolRecord Number)}
    (accounts : Accounts state) {after : JsonRpcProtocol Number}
    {event : ProtocolEvent Number} {reaction : Reaction Number}
    (effect : Effect state.1 after reaction) :
    Accounts (after,
      state.2 ++ [⟨state.1.nextId, event, reaction⟩]) := by
  have fresh := accounts.fresh
  cases effect with
  | quiet count keys armed settled =>
      constructor
      · rw [armed, keys, accounts.armed]
      · rw [keys, count]
        exact accounts.issued
      · intro id open'
        rw [keys] at open'
        rw [settledIds_concat, settled]
        exact accounts.unsettled id open'
      · intro number positive below closed
        rw [count] at below
        rw [keys] at closed
        rw [settledIds_concat, settled]
        exact accounts.settled number positive below closed
      · intro number above
        rw [count] at above
        rw [settledIds_concat, settled]
        exact accounts.future number above
  | settles id outcome count pending keys armed settled =>
      constructor
      · rw [armed, keys, accounts.armed]
      · rw [keys, count]
        intro other member
        exact accounts.issued other (List.mem_of_mem_filter member)
      · intro other open'
        rw [keys, List.mem_filter, bne_iff_ne] at open'
        rw [settledIds_concat, settled, count_settled,
          if_neg (Ne.symm open'.2)]
        exact accounts.unsettled other open'.1
      · intro number positive below closed
        rw [count] at below
        rw [keys, List.mem_filter, bne_iff_ne] at closed
        rw [settledIds_concat, settled, count_settled]
        by_cases same : id = toString number
        · rw [if_pos same, ← same, accounts.unsettled id pending]
        · rw [if_neg same]
          apply accounts.settled number positive below
          exact fun member => closed ⟨member, Ne.symm same⟩
      · intro number above
        rw [count] at above
        obtain ⟨own, below, rfl⟩ := accounts.issued id pending
        have different : toString own ≠ toString number := by
          intro equal
          have same := callId_injective equal
          omega
        rw [settledIds_concat, settled, count_settled, if_neg different]
        exact accounts.future number above
  | issues count keys armed settled =>
      constructor
      · rw [armed, keys, accounts.armed]
      · rw [keys, count]
        intro id member
        rw [List.mem_append, List.mem_singleton] at member
        rcases member with earlier | rfl
        · obtain ⟨number, below, same⟩ := accounts.issued id earlier
          exact ⟨number, by omega, same⟩
        · exact ⟨state.1.nextId, by omega, rfl⟩
      · intro id open'
        rw [keys, List.mem_append, List.mem_singleton] at open'
        rw [settledIds_concat, settled]
        rcases open' with earlier | rfl
        · exact accounts.unsettled id earlier
        · exact accounts.future _ (Nat.le_refl _)
      · intro number positive below closed
        rw [count] at below
        rw [keys, List.mem_append, List.mem_singleton, not_or] at closed
        have different : number ≠ state.1.nextId := by
          rintro rfl
          exact closed.2 rfl
        rw [settledIds_concat, settled]
        exact accounts.settled number positive (by omega) closed.1
      · intro number above
        rw [count] at above
        rw [settledIds_concat, settled]
        exact accounts.future number (by omega)
  | refuses outcome count keys armed settled =>
      constructor
      · rw [armed, keys, accounts.armed]
      · rw [keys, count]
        intro id member
        obtain ⟨number, below, same⟩ := accounts.issued id member
        exact ⟨number, by omega, same⟩
      · intro id open'
        rw [keys] at open'
        have different : toString state.1.nextId ≠ id := by
          rintro rfl
          exact fresh open'
        rw [settledIds_concat, settled, count_settled, if_neg different]
        exact accounts.unsettled id open'
      · intro number positive below closed
        rw [count] at below
        rw [keys] at closed
        rw [settledIds_concat, settled, count_settled]
        by_cases same : number = state.1.nextId
        · rw [same, if_pos rfl, accounts.future _ (Nat.le_refl _)]
        · have different : toString state.1.nextId ≠ toString number :=
            fun equal => same (callId_injective equal).symm
          rw [if_neg different]
          exact accounts.settled number positive (by omega) closed
      · intro number above
        rw [count] at above
        have different : toString state.1.nextId ≠ toString number := by
          intro equal
          have same := callId_injective equal
          omega
        rw [settledIds_concat, settled, count_settled, if_neg different]
        exact accounts.future number (by omega)

theorem run_concat (host : HostJson Number) (maxRequestBytes timeoutMs : Nat)
    (events : List (ProtocolEvent Number)) (event : ProtocolEvent Number) :
    run host maxRequestBytes timeoutMs (events ++ [event]) =
      step host (run host maxRequestBytes timeoutMs events) event := by
  unfold run
  rw [List.foldl_append]
  rfl

/-- What has to hold of an entry for the entry to be lawful. -/
def Admissible (host : HostJson Number) (protocol : JsonRpcProtocol Number) :
    ProtocolEvent Number → Prop
  | .frame data provokedBy => Attributed host protocol data provokedBy
  | _ => True

theorem timeout_lawful (id : String) :
    Lawful host ⟨protocol.nextId, .timeout id,
      (protocol.timeout id).2⟩ := by
  unfold timeout
  cases protocol.timers.lookup id with
  | none => exact ⟨rfl, fun entry inside => absurd inside List.not_mem_nil⟩
  | some timer =>
      refine ⟨rfl, ?_⟩
      intro entry inside
      exact congrArg Prod.fst (List.mem_singleton.mp inside)

theorem call_lawful (method : String) (params : List (JsonValue Number))
    (timeoutMs : Option Nat) (send : Except String Unit) :
    Lawful host ⟨protocol.nextId, .call method params timeoutMs send,
      (protocol.call host method params timeoutMs send).2⟩ := by
  constructor
  · show (protocol.call host method params timeoutMs send).2.threw = false
    unfold call
    grind
  · intro entry inside
    have inside' : entry ∈
        (protocol.call host method params timeoutMs send).2.settled := inside
    show entry.1 = toString protocol.nextId
    unfold call at inside'
    grind

theorem react_lawful
    {state : JsonRpcProtocol Number × List (ProtocolRecord Number)}
    (accounts : Accounts state) {event : ProtocolEvent Number}
    (admissible : Admissible host state.1 event) :
    Effect state.1 (state.1.react host event).1
        (state.1.react host event).2 ∧
      Lawful host ⟨state.1.nextId, event,
        (state.1.react host event).2⟩ := by
  cases event with
  | call method params timeoutMs send =>
      exact ⟨call_effect method params timeoutMs send accounts.armed
        accounts.fresh, call_lawful method params timeoutMs send⟩
  | timeout id =>
      exact ⟨timeout_effect id accounts.armed, timeout_lawful id⟩
  | frame data provokedBy => exact frame_lawful admissible
  | onNotification throws =>
      exact ⟨Effect.quiet rfl rfl rfl rfl, rfl,
        fun entry inside => absurd inside List.not_mem_nil⟩

/-- Every call settles once, and by what is its own. -/
structure Settles (host : HostJson Number)
    (state : JsonRpcProtocol Number × List (ProtocolRecord Number)) :
    Prop where
  lawful : ∀ record ∈ state.2, Lawful host record
  unsettled : ∀ id ∈ state.1.armed, (settledIds state.2).count id = 0
  expires : ∀ id ∈ state.1.armed, ∃ message,
    (state.1.timeout id).2.settled = [(id, .rejected message)]
  settled : ∀ number, 0 < number → number < state.1.nextId →
    toString number ∉ state.1.armed →
    (settledIds state.2).count (toString number) = 1

theorem armed_expires {id : String} (armed : id ∈ protocol.armed) :
    ∃ message, (protocol.timeout id).2.settled =
      [(id, .rejected message)] := by
  obtain ⟨timer, found⟩ := mem_keys_lookup armed
  unfold timeout
  rw [found]
  exact ⟨_, rfl⟩

theorem run_admissible (maxRequestBytes timeoutMs : Nat)
    (events : List (ProtocolEvent Number))
    (admissible : ∀ before event after, events = before ++ event :: after →
      Admissible host (run host maxRequestBytes timeoutMs before).1 event) :
    Accounts (run host maxRequestBytes timeoutMs events) ∧
      ∀ record ∈ (run host maxRequestBytes timeoutMs events).2,
        Lawful host record := by
  induction events using List.reverseRecOn with
  | nil =>
      constructor
      · constructor
        · rfl
        · intro id member
          cases member
        · intro id member
          cases member
        · intro number positive below
          have first : number < 1 := below
          omega
        · intro number above
          rfl
      · intro record member
        cases member
  | append_singleton before event induction =>
      have earlier : ∀ first step rest, before = first ++ step :: rest →
          Admissible host (run host maxRequestBytes timeoutMs first).1
            step := by
        intro first step rest split
        apply admissible first step (rest ++ [event])
        rw [split]
        simp
      obtain ⟨accounts, lawful⟩ := induction earlier
      obtain ⟨effect, last⟩ := react_lawful accounts
        (admissible before event [] rfl)
      rw [run_concat]
      refine ⟨accounts.effect effect, ?_⟩
      intro record member
      rcases List.mem_append.mp member with old | new
      · exact lawful record old
      · rw [List.mem_singleton.mp new]
        exact last

theorem run_log (host : HostJson Number) (maxRequestBytes timeoutMs : Nat)
    (before after : List (ProtocolEvent Number))
    (event : ProtocolEvent Number) :
    ⟨(run host maxRequestBytes timeoutMs before).1.nextId, event,
        ((run host maxRequestBytes timeoutMs before).1.react host event).2⟩ ∈
      (run host maxRequestBytes timeoutMs (before ++ event :: after)).2 := by
  induction after using List.reverseRecOn with
  | nil =>
      rw [run_concat]
      exact List.mem_append.mpr (Or.inr List.mem_cons_self)
  | append_singleton between next induction =>
      have split : before ++ event :: (between ++ [next]) =
          (before ++ event :: between) ++ [next] := by simp
      rw [split, run_concat]
      exact List.mem_append.mpr (Or.inl induction)

/-- A run settles every call once and by its own answer, timer or sending,
and nothing throws, exactly when each frame is attributed rightly. -/
theorem run_settles_iff (host : HostJson Number)
    (maxRequestBytes timeoutMs : Nat)
    (events : List (ProtocolEvent Number)) :
    Settles host (run host maxRequestBytes timeoutMs events) ↔
      ∀ before data provokedBy after,
        events = before ++ .frame data provokedBy :: after →
        Attributed host (run host maxRequestBytes timeoutMs before).1 data
          provokedBy := by
  constructor
  · rintro settles before data provokedBy after rfl
    exact lawful_attributed (settles.lawful _
      (run_log host maxRequestBytes timeoutMs before after
        (.frame data provokedBy)))
  · intro attributed
    have admissible : ∀ before event after,
        events = before ++ event :: after →
        Admissible host (run host maxRequestBytes timeoutMs before).1
          event := by
      intro before event after split
      cases event with
      | frame data provokedBy => exact attributed before _ _ after split
      | _ => exact trivial
    obtain ⟨accounts, lawful⟩ :=
      run_admissible maxRequestBytes timeoutMs events admissible
    have armed := accounts.armed
    constructor
    · exact lawful
    · intro id member
      rw [armed] at member
      exact accounts.unsettled id member
    · exact fun id member => armed_expires member
    · intro number positive below closed
      rw [armed] at closed
      exact accounts.settled number positive below closed

/-! ## Two frames that are not -/

def parseErrorFrame : String :=
  "\x7b\"id\":null,\"error\":\x7b\"code\":-32700,\"message\":" ++
    "\"Parse error.\"\x7d\x7d"

def parseError : JsonValue Int :=
  .object
    [("id", .null),
      ("error", .object
        [("code", .number (-32700)), ("message", .string "Parse error.")])]

def sampleHost : HostJson Int where
  parse text :=
    if text = "null" then some .null
    else if text = parseErrorFrame then some parseError
    else none
  stringify request := .ok request.method
  isZero value := value == 0
  printNumber value := toString value

def timedOutCall : List (ProtocolEvent Int) :=
  [.call "aria2.addTorrent" [] none (.ok ()), .timeout "1",
    .call "aria2.getVersion" [] none (.ok ())]

/-- The JSON null makes the handler throw, and the late parse error of a call
that timed out rejects the only call that is open. -/
theorem frames_missettle :
    ¬Settles sampleHost (run sampleHost 100 5000 [.frame "null" none]) ∧
      ¬Settles sampleHost (run sampleHost 100 5000
        (timedOutCall ++ [.frame parseErrorFrame (some "1")])) := by
  constructor
  · intro settles
    have lawful := settles.lawful _
      (run_log sampleHost 100 5000 [] [] (.frame "null" none))
    exact Bool.false_ne_true lawful.silent.symm
  · intro settles
    have lawful := settles.lawful _
      (run_log sampleHost 100 5000 timedOutCall []
        (.frame parseErrorFrame (some "1")))
    have owns := lawful.own
      ("2", .rejected ("JSON-RPC peer reported -32700: Parse error. " ++
        "without a request id")) ?_
    · obtain ⟨msg, parsed, answers | ⟨_, provoked⟩⟩ := owns
      · cases parsed
        cases answers
      · exact absurd (Option.some.inj provoked) (by decide)
    · exact List.mem_singleton_self _

end JsonRpcProtocol

end Motrix.Engine
