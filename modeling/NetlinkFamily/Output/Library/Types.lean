import NetlinkFamily.Member.Free
import NetlinkFamily.Output.Declaration
import NetlinkFamily.Output.Setter

/-!
The types of the user-space library, and the functions that allocate, set and release them.
-/

namespace NetlinkFamily.Library

/-- The structure for the members of a layout. -/
def structureOf (family : Family) (name : String) (layout : Layout) :
    Except ModelError StructureType := do
  let attrs := layout.attributes family.toScope
  let inherited := layout.inherited.map fun name => ({ type := "__u32", name } : C.Field)
  let fields ← attrs.mapM fun attr => attr.fields .user
  return {
    name
    presence := Attribute.presenceFields attrs .user
    fields := inherited ++ fields.flatten }

/-- The type of a set that is nested in others. -/
def nestType (family : Family) (layout : Layout) : Except ModelError (List Declaration) := do
  let type ← structureOf family layout.structName layout
  return [.structure type, .space]

/-- The type of a message. -/
def messageType (family : Family) (subject : Subject) (part : Part) (layout : Layout) :
    Except ModelError (List Declaration) := do
  let type ← structureOf family (subject.structType part true) layout
  return [.structure type, .space]

/-- The function that allocates a message. -/
def allocation (subject : Subject) (part : Part) : Declaration :=
  let stem := subject.stem part false
  .function
    { result := "static inline struct " ++ stem ++ " *"
      name := stem ++ "_alloc"
      parameters := ["void"] }
    [.line ("return calloc(1, sizeof(struct " ++ stem ++ "));")]

def releaseName (subject : Subject) (part : Part) : String :=
  subject.stem part false ++ "_free"

/-- The signature of the function that releases a structure. -/
def releaseSignature (subject : Subject) (part : Part) : C.Signature :=
  let type := subject.structType part false ++ if subject.clashes then "_" else ""
  { result := "void"
    name := releaseName subject part
    parameters := [type ++ " *" ++ part.parameter] }

def setters (family : Family) (subject : Subject) (layout : Layout) :
    Except ModelError (List Declaration) := do
  let functions ← (layout.attributes family.toScope).mapM
    (Setter.ofAttribute family subject .request [] ·)
  return functions.flatten.map fun setter => .function setter.signature setter.body

/-- The type of a request with the functions that allocate, release and set it. -/
def requestType (family : Family) (subject : Subject) : Except ModelError (List Declaration) :=
  match subject.request with
  | none => .ok []
  | some layout => do
      let type ← messageType family subject .request layout
      let setters ← setters family subject layout
      return type ++ [allocation subject .request,
        .prototype none (releaseSignature subject .request), .space] ++ setters ++ [.space]

/-- The type of a reply. A notification has that of the call. -/
def replyType (family : Family) (subject : Subject) : Except ModelError (List Declaration) :=
  match subject.reply, subject.mode with
  | none, _ | some _, some .notify => .ok []
  | some layout, _ => messageType family subject .reply layout

/-- The fields of a type in front of the reply that it wraps. -/
def wrapperFields (type : String) : Option OperationMode → List C.Field
  | some .dump => [{ holding := .pointer, type, name := "next" }]
  | some .notify | some .event =>
      [{ type := "__u16", name := "family" },
        { type := "__u8", name := "cmd" },
        { holding := .pointer, type := "struct ynl_ntf_base_type", name := "next" },
        { type := "void", name := "(*free)(" ++ type ++ " *ntf)" }]
  | some .call | none => []

/-- The type that wraps a reply: an entry of a list, a notification or an event. -/
def wrapper (subject : Subject) : List Declaration :=
  let type := subject.structType .reply false
  let wrapped : C.Field :=
    { holding := .embedded
      type := subject.structType .reply true
      name := "obj"
      ending := " __attribute__ ((aligned (8)))" }
  [.structure { name := type, fields := wrapperFields type subject.mode ++ [wrapped] }, .space,
    .prototype none (releaseSignature subject .reply), .space]

/-- The counter that the release of some members needs. -/
def counter (attrs : List Attribute) : List C.Code :=
  if attrs.any Attribute.freesInLoop then [.line "unsigned int i;", .space] else []

/-- The release of all members of a structure. -/
def releaseMembers (attrs : List Attribute) (holder inner : String) :
    Except ModelError (List C.Code) := do
  let lines ← attrs.mapM fun attr => attr.free holder inner
  return lines.flatten

/-- The function that releases a message or the contents of a nest. -/
def release (family : Family) (subject : Subject) (part : Part) (layout : Layout) :
    Except ModelError (List Declaration) := do
  let attrs := layout.attributes family.toScope
  let members ← releaseMembers attrs part.parameter ""
  let own := if part = .nest then [] else [C.Code.call "free" [part.parameter]]
  return [.function (releaseSignature subject part) (counter attrs ++ members ++ own), .space]

/-- The function that releases a list of replies. -/
def releaseList (family : Family) (subject : Subject) : Except ModelError (List Declaration) :=
  match subject.reply with
  | none => .ok []
  | some layout => do
      let attrs := layout.attributes family.toScope
      let members ← releaseMembers attrs "rsp" "obj."
      return [
        .function (releaseSignature subject .reply)
          [.line (subject.structType .reply false ++ " *next = rsp;"),
            .space,
            .block "while ((void *)next != YNL_LIST_END)"
              (counter attrs ++
                [.assign "rsp" "next", .assign "next" "rsp->next", .space] ++ members ++
                [.call "free" ["rsp"]])
              ""],
        .space]

/-- The function that releases a notification or an event. -/
def releaseNotification (family : Family) (subject : Subject) :
    Except ModelError (List Declaration) :=
  match subject.reply with
  | none => .ok []
  | some layout => do
      let attrs := layout.attributes family.toScope
      let members ← releaseMembers attrs "rsp" "obj."
      return [
        .function (releaseSignature subject .reply)
          (counter attrs ++ members ++ [.call "free" ["rsp"]]),
        .space]

end NetlinkFamily.Library
