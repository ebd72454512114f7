import NetlinkFamily.C.Signature
import NetlinkFamily.Member.Field
import NetlinkFamily.Output.Subject
import NetlinkFamily.Text.Search

/-!
Functions that set the members of a request. A nest is set member by member, and every nest on the
way is marked as present.
-/

namespace NetlinkFamily.Setter

/-- A function with its body. -/
structure Function where
  signature : C.Signature
  body : List C.Code
  deriving Inhabited

/-- The path to a member as it stands in front of the next name. -/
def dotted (path : List String) : String :=
  let joined := ".".intercalate path
  if joined.isEmpty then "" else joined ++ "."

/-- The marker of the last attribute on a path. -/
def presencePlace (holder : String) (before : List String) (name : String) : String :=
  holder ++ "->" ++ dotted before ++ "_present." ++ name

/-- This marks all nests on the path to a member, the outermost one first. -/
def markNests (holder : String) (before : List String) : List String → List C.Code
  | [] => []
  | name :: rest =>
      .assign (presencePlace holder before name) "1" :: markNests holder (before ++ [name]) rest

/-- The lines that store a value in a member. -/
def store (attr : Attribute) (member presence count : String) : Except ModelError (List C.Code) :=
  let name := attr.cName
  if attr.multi then
    .ok [.call "free" [member], .assign member name, .assign count ("n_" ++ name)]
  else
    match attr.kind with
    | .scalar _ => .ok [.assign member name]
    | .flag | .pad => .ok []
    | .text =>
        .ok [
          .call "free" [member],
          .assign (presence ++ "_len") ("strlen(" ++ name ++ ")"),
          .assign member ("malloc(" ++ presence ++ "_len + 1)"),
          .call "memcpy" [member, name, presence ++ "_len"],
          .assign (member ++ "[" ++ presence ++ "_len]") "0"]
    | .binary =>
        .ok [
          .call "free" [member],
          .assign (presence ++ "_len") "len",
          .assign member ("malloc(" ++ presence ++ "_len)"),
          .call "memcpy" [member, name, presence ++ "_len"]]
    | .unused | .arrayNest | .nestTypeValue | .nest => .error (attr.unsupported "setter")

/-- Whether some line contains a text. -/
def mentions (code : List C.Code) (text : String) : Bool :=
  code.any fun line => Text.contains line.text text

/-- The function that sets the member at the end of a path of nests. It is marked by underscores if
it only takes over memory. -/
def leaf (space : Space) (subject : Subject) (part : Part) (path : List String)
    (attr : Attribute) : Except ModelError Function := do
  let holder := "req"
  let whole := path ++ [attr.cName]
  let member := holder ++ "->" ++ ".".intercalate whole
  let presence := presencePlace holder path attr.cName
  let marks :=
    markNests holder [] path ++
      if attr.presence = .bit then [.assign presence "1"] else []
  let stored ← store attr member presence (holder ++ "->" ++ dotted path ++ "n_" ++ attr.cName)
  let body := marks ++ stored
  let plain := subject.stem part false ++ "_set_" ++ "_".intercalate whole
  let name := if mentions body "free(" && !mentions body "alloc(" then "__" ++ plain else plain
  let parameters ← attr.parameters space
  return {
    signature :=
      { result := "static inline void"
        name
        parameters := (subject.structType part false ++ " *" ++ holder) :: parameters }
    body }

/-- Whether the members of the attribute are set one by one. -/
def isTransparent (attr : Attribute) : Bool :=
  attr.kind == .nest && !attr.multi

/-- Whether nothing can be set. -/
def isIdle (attr : Attribute) : Bool :=
  attr.kind == .pad && !attr.multi

/-- The functions for an attribute at the end of a path, with at most `depth` nests below it. -/
def functions (space : Space) (family : Family) (subject : Subject) (part : Part) (depth : Nat)
    (path : List String) (attr : Attribute) : Except ModelError (List Function) :=
  if isIdle attr then .ok []
  else if isTransparent attr then
    match depth, family.nestedSets.get? (attr.nestedSet?.getD "") with
    | depth + 1, some nested => do
        let members ← (nested.attributes family.toScope).mapM
          (functions space family subject part depth (path ++ [attr.cName]))
        return members.flatten
    | _, _ => .error (attr.unsupported "setter")
  else (leaf space subject part path attr).map ([·])

/-- The functions that set an attribute of a request. No chain of nests is longer than the number
of nested sets. -/
def ofAttribute (family : Family) (subject : Subject) (part : Part) (path : List String)
    (attr : Attribute) (space : Space := .user) : Except ModelError (List Function) :=
  functions space family subject part family.nestedSets.size path attr

end NetlinkFamily.Setter
