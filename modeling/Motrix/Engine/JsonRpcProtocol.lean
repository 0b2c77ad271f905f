import Mathlib.Data.List.Basic

/-!
# The JSON-RPC protocol

Calls over a text transport, the frames that answer them and the timers that
give up on them.  The host's JSON and number functions are parameters; every
frame comes with the call that made the peer send it, which the code never
sees.
-/

namespace Motrix.Engine

/-! ## Values -/

inductive JsonValue (Number : Type) where
  | null
  | boolean (value : Bool)
  | number (value : Number)
  | string (value : String)
  | array (items : List (JsonValue Number))
  | object (members : List (String × JsonValue Number))

structure JsonRpcRequest (Number : Type) where
  id : String
  method : String
  params : List (JsonValue Number)

/-- `JSON.parse`, `JSON.stringify` and what is read off a number. -/
structure HostJson (Number : Type) where
  parse : String → Option (JsonValue Number)
  stringify : JsonRpcRequest Number → Except String String
  isZero : Number → Bool
  printNumber : Number → String

namespace JsonValue

variable {Number : Type}

/-- A property of any value; `none` is `undefined`. -/
def field (name : String) : JsonValue Number → Option (JsonValue Number)
  | .object members => members.lookup name
  | _ => none

def isNull : Option (JsonValue Number) → Bool
  | some .null => true
  | _ => false

def truthy (host : HostJson Number) : Option (JsonValue Number) → Bool
  | none => false
  | some .null => false
  | some (.boolean value) => value
  | some (.number value) => !host.isZero value
  | some (.string value) => value ≠ ""
  | some _ => true

mutual

/-- The string a value converts to.  No parsed value is callable, so an
object with a `toString` of its own does not convert. -/
def toText (host : HostJson Number) : JsonValue Number → Option String
  | .null => some "null"
  | .boolean value => some (if value then "true" else "false")
  | .number value => some (host.printNumber value)
  | .string value => some value
  | .array items => (itemTexts host items).map (String.intercalate ",")
  | .object members =>
      if members.any (·.1 == "toString") then none
      else some "[object Object]"

def itemTexts (host : HostJson Number) :
    List (JsonValue Number) → Option (List String)
  | [] => some []
  | .null :: rest => (itemTexts host rest).map ("" :: ·)
  | item :: rest => do
      let text ← toText host item
      let texts ← itemTexts host rest
      return text :: texts

end

/-- What stands for a property inside a template literal. -/
def interpolated (host : HostJson Number) :
    Option (JsonValue Number) → Option String
  | none => some "undefined"
  | some value => value.toText host

/-- The message of `new Error(value)`. -/
def errorMessage (host : HostJson Number) :
    Option (JsonValue Number) → Option String
  | none => some ""
  | some value => value.toText host

end JsonValue

/-! ## The protocol -/

structure PendingRequest where
  uncorrelatedError : Option String := none

/-- What the callback of a timer closes over. -/
structure CallTimer where
  method : String
  timeoutMs : Nat

inductive Settlement (Number : Type) where
  | resolved (result : Option (JsonValue Number))
  | rejected (message : String)

structure JsonRpcProtocol (Number : Type) where
  maxRequestBytes : Nat
  timeoutMs : Nat := 10000
  nextId : Nat := 1
  pending : List (String × PendingRequest) := []
  timers : List (String × CallTimer) := []
  notificationHandler :
    Option (JsonValue Number → JsonValue Number → Bool) := none

/-- What one entry into the protocol settles, and whether it threw. -/
structure Reaction (Number : Type) where
  settled : List (String × Settlement Number) := []
  threw : Bool := false

namespace JsonRpcProtocol

variable {Number : Type}

def deletePending (protocol : JsonRpcProtocol Number) (id : String) :
    JsonRpcProtocol Number :=
  { protocol with
    pending := protocol.pending.filter fun entry => entry.1 != id }

def clearTimer (protocol : JsonRpcProtocol Number) (id : String) :
    JsonRpcProtocol Number :=
  { protocol with
    timers := protocol.timers.filter fun timer => timer.1 != id }

def requestTooLarge (method : String) (requestBytes maxRequestBytes : Nat) :
    String :=
  "JSON-RPC request \"" ++ method ++ "\" is " ++ toString requestBytes ++
    " bytes, exceeding the configured " ++ toString maxRequestBytes ++
    "-byte limit (including metadata and options)"

/-- A call; the transport's own outcome for the text is an input. -/
def call (host : HostJson Number) (protocol : JsonRpcProtocol Number)
    (method : String) (params : List (JsonValue Number))
    (timeoutMs : Option Nat) (send : Except String Unit) :
    JsonRpcProtocol Number × Reaction Number :=
  let id := toString protocol.nextId
  let counted := { protocol with nextId := protocol.nextId + 1 }
  match host.stringify ⟨id, method, params⟩ with
  | .error error => (counted, { settled := [(id, .rejected error)] })
  | .ok serialized =>
      let requestBytes := serialized.utf8ByteSize
      if requestBytes > protocol.maxRequestBytes then
        (counted,
          { settled := [(id, .rejected
              (requestTooLarge method requestBytes
                protocol.maxRequestBytes))] })
      else
        let timer := CallTimer.mk method
          (timeoutMs.getD protocol.timeoutMs)
        let registered := { counted with
          pending := counted.pending ++ [(id, {})]
          timers := counted.timers ++ [(id, timer)] }
        match send with
        | .ok () => (registered, {})
        | .error error =>
            ((registered.clearTimer id).deletePending id,
              { settled := [(id, .rejected error)] })

def timeoutMessage (timer : CallTimer) : Option String → String
  | some diagnostic =>
      "No matching JSON-RPC response for \"" ++ timer.method ++ "\" after " ++
        toString timer.timeoutMs ++ "ms; " ++ diagnostic ++
        "; request outcome is unknown"
  | none =>
      "JSON-RPC call \"" ++ timer.method ++ "\" timed out after " ++
        toString timer.timeoutMs ++ "ms"

/-- The callback of a timer, if it is still armed. -/
def timeout (protocol : JsonRpcProtocol Number) (id : String) :
    JsonRpcProtocol Number × Reaction Number :=
  match protocol.timers.lookup id with
  | none => (protocol, {})
  | some timer =>
      let diagnostic :=
        (protocol.pending.lookup id).bind (·.uncorrelatedError)
      ((protocol.clearTimer id).deletePending id,
        { settled := [(id, .rejected (timeoutMessage timer diagnostic))] })

/-- An error without an id, once its text is known. -/
def reportUncorrelated (protocol : JsonRpcProtocol Number)
    (error : String) : JsonRpcProtocol Number × Reaction Number :=
  match protocol.pending with
  | [(id, _)] =>
      ((protocol.clearTimer id).deletePending id,
        { settled := [(id, .rejected error)] })
  | _ =>
      ({ protocol with
          pending := protocol.pending.map fun entry =>
            (entry.1, { uncorrelatedError := some error }) },
        {})

def uncorrelatedMessage (host : HostJson Number)
    (error : JsonValue Number) : Option String := do
  let code ← JsonValue.interpolated host (error.field "code")
  let message ← JsonValue.interpolated host (error.field "message")
  return "JSON-RPC peer reported " ++ code ++ ": " ++ message ++
    " without a request id"

/-- The answer to a call, which is deleted before its error is built. -/
def answer (host : HostJson Number) (protocol : JsonRpcProtocol Number)
    (msg : JsonValue Number) (id : String) :
    JsonRpcProtocol Number × Reaction Number :=
  match protocol.pending.lookup id with
  | none => (protocol, {})
  | some _ =>
      let cleared := (protocol.clearTimer id).deletePending id
      match msg.field "error" with
      | some error =>
          if JsonValue.truthy host (some error) then
            match JsonValue.errorMessage host (error.field "message") with
            | none => (cleared, { threw := true })
            | some message =>
                (cleared, { settled := [(id, .rejected message)] })
          else
            (cleared, { settled := [(id, .resolved (msg.field "result"))] })
      | none =>
          (cleared, { settled := [(id, .resolved (msg.field "result"))] })

def notificationParams (msg : JsonValue Number) : JsonValue Number :=
  if JsonValue.isNull (msg.field "params") then .array []
  else (msg.field "params").getD (.array [])

def notify (host : HostJson Number) (protocol : JsonRpcProtocol Number)
    (msg : JsonValue Number) :
    JsonRpcProtocol Number × Reaction Number :=
  match msg.field "method" with
  | none => (protocol, {})
  | some method =>
      if JsonValue.truthy host (some method) then
        match protocol.notificationHandler with
        | none => (protocol, {})
        | some throws =>
            (protocol, { threw := throws method (notificationParams msg) })
      else
        (protocol, {})

def handleMessage (host : HostJson Number)
    (protocol : JsonRpcProtocol Number) (data : String) :
    JsonRpcProtocol Number × Reaction Number :=
  match host.parse data with
  | none => (protocol, {})
  | some .null => (protocol, { threw := true })
  | some msg =>
      match msg.field "id", msg.field "error" with
      | some .null, some error =>
          if JsonValue.truthy host (some error) then
            match uncorrelatedMessage host error with
            | none => (protocol, { threw := true })
            | some message => protocol.reportUncorrelated message
          else
            protocol.notify host msg
      | some (.string id), _ => protocol.answer host msg id
      | _, _ => protocol.notify host msg

end JsonRpcProtocol

/-! ## Runs -/

inductive ProtocolEvent (Number : Type) where
  | call (method : String) (params : List (JsonValue Number))
      (timeoutMs : Option Nat) (send : Except String Unit)
  | timeout (id : String)
  /-- A frame, and the call whose request made the peer send it. -/
  | frame (data : String) (provokedBy : Option String)
  | onNotification (throws : JsonValue Number → JsonValue Number → Bool)

/-- An entry into the protocol, with the next id at its start. -/
structure ProtocolRecord (Number : Type) where
  nextId : Nat
  event : ProtocolEvent Number
  reaction : Reaction Number

namespace JsonRpcProtocol

variable {Number : Type}

def react (host : HostJson Number) (protocol : JsonRpcProtocol Number) :
    ProtocolEvent Number → JsonRpcProtocol Number × Reaction Number
  | .call method params timeoutMs send =>
      protocol.call host method params timeoutMs send
  | .timeout id => protocol.timeout id
  | .frame data _ => protocol.handleMessage host data
  | .onNotification throws =>
      ({ protocol with notificationHandler := some throws }, {})

def step (host : HostJson Number)
    (state : JsonRpcProtocol Number × List (ProtocolRecord Number))
    (event : ProtocolEvent Number) :
    JsonRpcProtocol Number × List (ProtocolRecord Number) :=
  ((state.1.react host event).1,
    state.2 ++ [⟨state.1.nextId, event, (state.1.react host event).2⟩])

def run (host : HostJson Number) (maxRequestBytes timeoutMs : Nat)
    (events : List (ProtocolEvent Number)) :
    JsonRpcProtocol Number × List (ProtocolRecord Number) :=
  events.foldl (step host)
    ({ maxRequestBytes := maxRequestBytes
       timeoutMs := timeoutMs },
      [])

end JsonRpcProtocol

end Motrix.Engine
