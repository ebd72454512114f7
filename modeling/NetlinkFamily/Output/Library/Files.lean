import NetlinkFamily.Output.Library.Calls
import NetlinkFamily.Output.Library.Names

/-!
The header and the source of the user-space library of a family.
-/

namespace NetlinkFamily.Library

/-- Whether an operation is called, rather than told about by an event. -/
def isCalled (operation : Operation) : Bool :=
  operation.doMode.isSome && operation.event.isNone

def banner (operation : Operation) : Declaration :=
  .comment ("============== " ++ operation.enumName ++ " ==============")

def modeComment (operation : Operation) (mode : OperationMode) : Declaration :=
  .comment (operation.enumName ++ " - " ++ mode.name)

/-- The notification of an operation. Its type must be that of both call and dump. -/
def notification (family : Family) (operation : Operation) : Except ModelError Subject := do
  let subject ← Subject.ofOperation family operation .notify
  if subject.sharesReply then return subject
  else throw (.inconsistentNotification operation.name)

/-- The lists that the items of a list give, one behind the other. -/
def each {A : Type} (items : List A)
    (f : A → Except ModelError (List Declaration)) : Except ModelError (List Declaration) :=
  (items.mapM f).map List.flatten

/-- What holds only under a condition. -/
def whenever (condition : Bool) (body : Except ModelError (List Declaration)) :
    Except ModelError (List Declaration) :=
  if condition then body else .ok []

private def familySymbol (family : Family) : String :=
  "const struct ynl_family ynl_" ++ family.cName ++ "_family"

/-- The declaration of the description of a family. -/
def familyPrototype (family : Family) : Declaration :=
  .line ("extern " ++ familySymbol family ++ ";")

/-- What the header declares for a call. -/
def callHeader (family : Family) (operation : Operation) :
    Except ModelError (List Declaration) := do
  let subject ← Subject.ofOperation family operation .call
  let request ← requestType family subject
  let reply ← replyType family subject
  let helpers :=
    if subject.reply.isSome then
      [.prototype none (releaseSignature subject .reply), .space, .space]
    else []
  return List.flatten
    [[modeComment operation .call], request, [.space], reply, helpers,
      [.space, .prototype operation.doc (callSignature operation subject), .space]]

/-- What the header declares for a dump. -/
def dumpHeader (family : Family) (operation : Operation) :
    Except ModelError (List Declaration) := do
  let subject ← Subject.ofOperation family operation .dump
  let request ← requestType family subject
  let reply ← whenever (!subject.sharesReply) (replyType family subject)
  return List.flatten
    [[modeComment operation .dump], request, reply, wrapper subject,
      [.prototype none (callSignature operation subject), .space]]

def notificationHeader (family : Family) (operation : Operation) :
    Except ModelError (List Declaration) := do
  let subject ← notification family operation
  return modeComment operation .notify :: wrapper subject

def operationHeader (family : Family) (operation : Operation) :
    Except ModelError (List Declaration) := do
  let call ← whenever (isCalled operation) (callHeader family operation)
  let dump ← whenever operation.dumpMode.isSome (dumpHeader family operation)
  let notify ← whenever operation.hasNotification (notificationHeader family operation)
  return banner operation :: call ++ dump ++ notify

def eventHeader (family : Family) (operation : Operation) :
    Except ModelError (List Declaration) := do
  let subject ← Subject.ofOperation family operation .event
  let reply ← replyType family subject
  return List.flatten [[modeComment operation .event], reply, [.space], wrapper subject]

/-- The selected events. -/
def events (family : Family) : List Operation :=
  family.notifications.filter fun operation => operation.event.isSome

/-- The types and prototypes of the library. -/
def header (family : Family) : Except ModelError (List Declaration) := do
  let nests ← each family.nestedSets.values (nestType family)
  let operations ← each family.operations (operationHeader family)
  let events ← each (events family) (eventHeader family)
  return List.flatten
    [[.comment "Enums", .prototype none (operationNameSignature family)],
      family.enumSets.map fun set => .prototype none (entryNameSignature set),
      [.space, .comment "Common nested types"], nests, operations, events, [.space]]

/-- The functions for a set that is nested in others. -/
def nestSource (family : Family) (entry : String × Layout) :
    Except ModelError (List Declaration) := do
  let (set, layout) := entry
  let release ← release family (Subject.ofSet family set) .nest layout
  let put ← whenever layout.request (putNest family layout)
  let parser ← whenever layout.reply (nestParser family layout)
  return release ++ put ++ parser

def releasePart (family : Family) (subject : Subject) (part : Part) :
    Except ModelError (List Declaration) :=
  match subject.layout? part with
  | none => .ok []
  | some layout => release family subject part layout

def callSource (family : Family) (operation : Operation) :
    Except ModelError (List Declaration) := do
  let subject ← Subject.ofOperation family operation .call
  let request ← releasePart family subject .request
  let reply ← releasePart family subject .reply
  let parser ← replyParser family subject false
  let call ← call family operation subject
  return List.flatten
    [[modeComment operation .call], request, reply, parser, call, [.space]]

def dumpSource (family : Family) (operation : Operation) :
    Except ModelError (List Declaration) := do
  let subject ← Subject.ofOperation family operation .dump
  let parser ← whenever (!subject.sharesReply) (replyParser family subject true)
  let release ← releaseList family subject
  let dump ← dump family operation subject
  return List.flatten [[modeComment operation .dump], parser, release, dump, [.space]]

def notificationSource (family : Family) (operation : Operation) :
    Except ModelError (List Declaration) := do
  let subject ← notification family operation
  let release ← releaseNotification family subject
  return modeComment operation .notify :: release

def operationSource (family : Family) (operation : Operation) :
    Except ModelError (List Declaration) := do
  let call ← whenever (isCalled operation) (callSource family operation)
  let dump ← whenever operation.dumpMode.isSome (dumpSource family operation)
  let notify ← whenever operation.hasNotification (notificationSource family operation)
  return banner operation :: call ++ dump ++ notify

def eventSource (family : Family) (operation : Operation) :
    Except ModelError (List Declaration) := do
  let call ← Subject.ofOperation family operation .call
  let parser ← replyParser family call false
  let event ← Subject.ofOperation family operation .event
  let release ← releaseNotification family event
  return modeComment operation .event :: parser ++ release

/-- The tables that the attributes of all sets in use are validated with. -/
def validations (family : Family) : Except ModelError (List Declaration) :=
  each (family.nestedSets.names ++ family.rootSets.names) fun set => do
    let layout ← Layout.ofSet family.toScope set
    validation family layout

/-- How a notification or event is handled. A notification has the type of its target. -/
def notificationEntry (family : Family) (operation : Operation) :
    Except ModelError NotificationEntry := do
  let subject ←
    match operation.notify with
    | some target => do
        let told ← family.operation target
        notification family told
    | none => Subject.ofOperation family operation .event
  match subject.reply with
  | none => throw (.inconsistentNotification operation.name)
  | some reply =>
      return {
        command := operation.enumName
        type := subject.structType .reply false
        parser := parserName subject true
        policy := reply.renderName ++ "_nest"
        release := releaseName subject .reply }

/-- The description of a family, with a table of its notifications if it has any. -/
def familyDescription (family : Family) : Except ModelError (List Declaration) := do
  let entries ← family.notifications.mapM (notificationEntry family)
  let table := family.name ++ "_ntf_info"
  let (tables, fields) :=
    if entries.isEmpty then ([], [])
    else
      ([.notifications ("static const struct ynl_ntf_info " ++ table ++ "[] =") entries, .space],
        [C.Code.line (".ntf_info\t= " ++ table ++ ","),
          .line (".ntf_info_size\t= MNL_ARRAY_SIZE(" ++ table ++ "),")])
  return tables ++
    [.object (familySymbol family ++ " =")
      (C.Code.line (".name\t\t= \"" ++ family.name ++ "\",") :: fields)]

/-- The functions and tables of the library. -/
def source (family : Family) : Except ModelError (List Declaration) := do
  let validations ← validations family
  let nests ← each family.nestedSets.entries (nestSource family)
  let operations ← each family.operations (operationSource family)
  let events ← each (events family) (eventSource family)
  let description ← familyDescription family
  return List.flatten
    [[.comment "Enums"], operationNames family, family.enumSets.flatMap entryNames,
      [.space, .comment "Policies"], validations, [.comment "Common nested types"], nests,
      operations, events, [.space], description]

end NetlinkFamily.Library
