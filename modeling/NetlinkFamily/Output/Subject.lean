import NetlinkFamily.Model.Family

/-!
What generated types and functions are about: one mode of an operation, or a set that is nested in
others. The names of all of them start with the same stem.
-/

namespace NetlinkFamily

/-- The part that a structure plays: a message of an operation, or the contents of a nest. -/
inductive Part where
  | request
  | reply
  | nest
  deriving DecidableEq, Inhabited

namespace Part

def suffix : Part → String
  | request => "_req"
  | reply => "_rsp"
  | nest => ""

def opposite : Part → Part
  | request => reply
  | reply => request
  | nest => nest

/-- The parameter that passes the structure. -/
def parameter : Part → String
  | request => "req"
  | reply => "rsp"
  | nest => "obj"

end Part

structure Subject where
  familyName : String
  attrSet : String
  mode : Option OperationMode
  /-- Whether the call replies just as the dump does, so that both share one type. -/
  sharesReply : Bool
  typeName : String
  /-- Whether a definition of the family has the same name. -/
  clashes : Bool
  request : Option Layout
  reply : Option Layout
  deriving DecidableEq, Inhabited

namespace Subject

/-- A set that is nested in others. -/
def ofSet (family : Family) (set : String) : Subject :=
  { familyName := family.name
    attrSet := set
    mode := none
    sharesReply := true
    typeName := CName.lower set
    clashes := family.constants.contains set
    request := none
    reply := none }

/-- A dump whose reply differs from that of the call needs a type of its own. -/
def sharedReply (operation : Operation) (mode : OperationMode) : Bool :=
  match mode, operation.dumpMode with
  | .call, _ | _, none => true
  | _, some dump =>
      match operation.doMode with
      | some call => call.reply == dump.reply
      | none => false

/-- One mode of an operation, with the layouts of its messages. -/
def ofOperation (family : Family) (operation : Operation) (mode : OperationMode) :
    Except ModelError Subject := do
  match operation.attrSet with
  | none => throw (.operationWithoutSet operation.name)
  | some set =>
      let request ← (operation.requestAttributes mode).mapM (Layout.ofList family.toScope set)
      let reply ← (operation.replyAttributes mode).mapM (Layout.ofList family.toScope set)
      return {
        familyName := family.name
        attrSet := set
        mode := some mode
        sharesReply := sharedReply operation mode
        typeName := CName.lower operation.name
        clashes := false
        request
        reply }

/-- The ending of names in a mode. A list, notification or event wraps an `element`. -/
def ending (subject : Subject) (part : Part) (element : Bool) : String :=
  match subject.mode with
  | none | some .call => part.suffix
  | some mode =>
      if part = .request then "_req_dump"
      else if subject.sharesReply then
        if element then part.suffix
        else
          match mode with
          | .dump => "_list"
          | .notify => "_ntf"
          | .call | .event => ""
      else if element then "_rsp_dump"
      else "_rsp_list"

/-- What the names of the type of a part and of its functions start with. -/
def stem (subject : Subject) (part : Part) (element : Bool) : String :=
  subject.familyName ++ "_" ++ subject.typeName ++ subject.ending part element

def structType (subject : Subject) (part : Part) (element : Bool) : String :=
  "struct " ++ subject.stem part element

def layout? (subject : Subject) : Part → Option Layout
  | .request => subject.request
  | .reply => subject.reply
  | .nest => none

end Subject

end NetlinkFamily
