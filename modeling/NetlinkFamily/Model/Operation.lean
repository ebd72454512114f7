import NetlinkFamily.CName
import NetlinkFamily.Model.Counter
import NetlinkFamily.Registry
import NetlinkFamily.Spec.Records

/-!
Operations of a family: requests that are answered once or by a dump, notifications and events.
Their numbers are either shared between request and reply or counted apart.
-/

namespace NetlinkFamily

/-- The ways in which an operation exchanges messages. -/
inductive OperationMode where
  | call
  | dump
  | notify
  | event
  deriving DecidableEq, Inhabited

def OperationMode.name : OperationMode → String
  | call => "do"
  | dump => "dump"
  | notify => "notify"
  | event => "event"

/-- The two sides of an exchange. -/
inductive Direction where
  | request
  | reply
  deriving DecidableEq, Inhabited

namespace Direction

def name : Direction → String
  | request => "request"
  | reply => "reply"

end Direction

structure Operation where
  name : String
  doc : Option String
  renderName : String
  /-- For a notification, the set of the operation it tells about. -/
  attrSet : Option String
  specValue : Option UInt32
  /-- The number shared by request and reply, if they share one. -/
  value : Option UInt32
  requestValue : Option UInt32
  replyValue : Option UInt32
  isCall : Bool
  isAsync : Bool
  isReserved : Bool
  /-- Whether both the call and the dump have a request. -/
  dualPolicy : Bool
  hasNotification : Bool := false
  enumName : String := ""
  doMode : Option Spec.Mode
  dumpMode : Option Spec.Mode
  event : Option (List String)
  notify : Option String
  flags : List String
  dontValidate : List String
  multicastGroup : Option String
  deriving DecidableEq, Inhabited

namespace Operation

private def asksIn (mode : Option Spec.Mode) : Bool :=
  (mode.bind Spec.Mode.request).isSome

def ofSpec (familyName : String) (spec : Spec.Operation)
    (requestValue replyValue : Option UInt32) : Operation :=
  let isCall := spec.doMode.isSome || spec.dumpMode.isSome
  let isAsync := spec.notify.isSome || spec.event.isSome
  { name := spec.name
    doc := spec.doc
    renderName := familyName ++ "_" ++ CName.lower spec.name
    attrSet := spec.attributeSet
    specValue := spec.value
    value := if requestValue = replyValue then requestValue else none
    requestValue
    replyValue
    isCall
    isAsync
    isReserved := !isAsync && !isCall
    dualPolicy := asksIn spec.doMode && asksIn spec.dumpMode
    doMode := spec.doMode
    dumpMode := spec.dumpMode
    event := spec.event
    notify := spec.notify
    flags := spec.flags
    dontValidate := spec.dontValidate
    multicastGroup := spec.multicastGroup }

/-- One number for request and reply: as given, or one more than the operation before. -/
def numberUnified (familyName : String) :
    UInt32 → List Spec.Operation → Except ModelError (List Operation)
  | _, [] => .ok []
  | next, spec :: rest => do
      let value := spec.value.getD next
      let operation := ofSpec familyName spec (some value) (some value)
      let after ← nextNumber value
      let others ← numberUnified familyName after rest
      return operation :: others

/-- Separate numbers for requests and replies. Only a call that has a reply, a notification or an
event takes a reply number. -/
def numberDirectional (familyName : String) :
    UInt32 → UInt32 → List Spec.Operation → Except ModelError (List Operation)
  | _, _, [] => .ok []
  | nextRequest, nextReply, spec :: rest =>
      if spec.notify.isSome || spec.event.isSome then do
        let value := spec.value.getD nextReply
        let operation := ofSpec familyName spec none (some value)
        let after ← nextNumber value
        let others ← numberDirectional familyName nextRequest after rest
        return operation :: others
      else
        match spec.doMode.or spec.dumpMode with
        | none => .error (.notDirectional spec.name)
        | some mode => do
            let request := (mode.request.bind Spec.Direction.value).getD nextRequest
            let reply := (mode.reply.bind Spec.Direction.value).getD nextReply
            let operation := ofSpec familyName spec (some request) (some reply)
            let afterRequest ← nextNumber request
            let afterReply ← if mode.reply.isSome then nextNumber reply else .ok reply
            let others ← numberDirectional familyName afterRequest afterReply rest
            return operation :: others

/-- All messages of a family under their names. -/
def declare (familyName : String) (spec : Spec.Operations) :
    Except ModelError (Registry Operation) := do
  let operations ←
    match spec.numbering with
    | .unified => numberUnified familyName 1 spec.list
    | .directional => numberDirectional familyName 1 1 spec.list
  return Registry.ofList (operations.map fun operation => (operation.name, operation))

/-- The request and reply of a mode. Notifications and events share those of the call. -/
def mode (operation : Operation) : OperationMode → Option Spec.Mode
  | .call | .notify | .event => operation.doMode
  | .dump => operation.dumpMode

/-- The attributes that the message of a mode and direction may carry, if there is one. -/
def attributesOf (operation : Operation) (mode : OperationMode) (direction : Direction) :
    Option (List String) :=
  match direction with
  | .request => ((operation.mode mode).bind Spec.Mode.request).map Spec.Direction.attributes
  | .reply => ((operation.mode mode).bind Spec.Mode.reply).map Spec.Direction.attributes

def requestAttributes (operation : Operation) (mode : OperationMode) : Option (List String) :=
  operation.attributesOf mode .request

def replyAttributes (operation : Operation) (mode : OperationMode) : Option (List String) :=
  operation.attributesOf mode .reply

def hasRequest (operation : Operation) (mode : OperationMode) : Bool :=
  (operation.requestAttributes mode).isSome

def hasReply (operation : Operation) (mode : OperationMode) : Bool :=
  (operation.replyAttributes mode).isSome

/-- The operation with the constant that stands for its number. -/
def withEnumName (namePrefix asyncPrefix : String) (operation : Operation) : Operation :=
  { operation with
    enumName :=
      (if operation.isAsync then asyncPrefix else namePrefix) ++ CName.upper operation.name }

/-- An event is given a call without request whose reply carries the attributes of the event. -/
def withEventReply (operation : Operation) : Operation :=
  match operation.event with
  | none => operation
  | some attributes =>
      { operation with doMode := some { reply := some { attributes } } }

end Operation

end NetlinkFamily
