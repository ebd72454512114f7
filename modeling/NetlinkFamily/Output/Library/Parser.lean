import NetlinkFamily.Member.Parse
import NetlinkFamily.Member.Put
import NetlinkFamily.Output.Declaration
import NetlinkFamily.Output.Subject

/-!
The functions of the user-space library that put nests into messages and parse messages and nests,
and the tables that received attributes are validated with.
-/

namespace NetlinkFamily.Library

/-- The tables that the attributes of a set are validated with. -/
def validation (family : Family) (layout : Layout) : Except ModelError (List Declaration) := do
  let set ← family.attributeSet layout.space
  let entries ← (layout.attributes family.toScope).mapM Attribute.validationEntry
  return [.validation { stem := layout.renderName, bound := set.maxName, entries }]

/-- The code that puts each of the members into a message. -/
def putMembers (family : Family) (layout : Layout) (holder : String) :
    Except ModelError (List C.Code) := do
  let lines ← (layout.attributes family.toScope).mapM fun attr => attr.put holder
  return lines.flatten

/-- The function that puts a nest into a message. -/
def putNest (family : Family) (layout : Layout) : Except ModelError (List Declaration) := do
  let members ← putMembers family layout "obj"
  return [
    .function
      { result := "int"
        name := layout.renderName ++ "_put"
        parameters :=
          ["struct nlmsghdr *nlh", "unsigned int attr_type", layout.pointerName ++ "obj"] }
      (List.flatten
        [C.Code.locals ["struct nlattr *nest;"],
          [.assign "nest" "mnl_attr_nest_start(nlh, attr_type)"], members,
          [.call "mnl_attr_nest_end" ["nlh", "nest"], .space, .line "return 0;"]]),
    .space]

def sortedByName (attrs : List Attribute) : List Attribute :=
  attrs.mergeSort fun first second => !(second.name < first.name)

/-- The loop over the attributes of a message or a nest. -/
def attributeLoop (layout : Layout) : String :=
  if layout.nested then "mnl_attr_for_each_nested(attr, nested)"
  else "mnl_attr_for_each(attr, nlh, sizeof(struct genlmsghdr))"

/-- An array must not be filled twice. -/
def refuseSecond (layout : Layout) (attr : Attribute) : List C.Code :=
  [.line ("if (dst->" ++ attr.cName ++ ")"),
    .line
      ("return ynl_error_parse(yarg, \"attribute already present (" ++ layout.space ++ "." ++
        attr.name ++ ")\");")]

/-- The body of a parser. One pass reads and counts attributes, and a second one fills arrays. -/
def parserBody (family : Family) (layout : Layout) (setup : List C.Code) (locals : List String) :
    Except ModelError (List C.Code) := do
  let attrs := layout.attributes family.toScope
  let repeated := attrs.filter Attribute.multi
  let arrays := attrs.filter fun attr => !attr.multi && attr.kind == .arrayNest
  let counted := sortedByName (sortedByName arrays ++ sortedByName repeated)
  let nests := attrs.any fun attr => attr.nested.isSome
  let loop := attributeLoop layout
  let declarations :=
    List.flatten
      [locals,
        arrays.map fun attr => "const struct nlattr *attr_" ++ attr.cName ++ ";",
        if counted.isEmpty then [] else ["int i;"],
        if nests then ["struct ynl_parse_arg parg;"] else [],
        counted.map fun attr => "unsigned int n_" ++ attr.cName ++ " = 0;"]
  let branches ← Attribute.parseBranches "dst" true attrs
  let filledArrays ← (sortedByName arrays).mapM Attribute.fillArray
  let filledRepeated ← (sortedByName repeated).mapM fun attr => attr.fillRepeated loop
  return List.flatten
    [C.Code.locals declarations,
      setup,
      if nests then [.assign "parg.ys" "yarg->ys"] else [],
      [.space],
      layout.inherited.map fun name => .assign ("dst->" ++ name) name,
      counted.flatMap (refuseSecond layout),
      [.space,
        .block loop
          (.assign "unsigned int type" "mnl_attr_get_type(attr)" :: .space :: branches) "",
        .space],
      filledArrays.flatten,
      [.space],
      filledRepeated.flatten,
      [.space, .line (if layout.nested then "return 0;" else "return MNL_CB_OK;")]]

/-- The parser of a nest. The fields that it inherits are passed to it. -/
def nestParser (family : Family) (layout : Layout) : Except ModelError (List Declaration) := do
  let body ← parserBody family layout []
    ["const struct nlattr *attr;", layout.pointerName ++ "dst = yarg->data;"]
  return [
    .function
      { result := "int"
        name := layout.renderName ++ "_parse"
        parameters :=
          ["struct ynl_parse_arg *yarg", "const struct nlattr *nested"] ++
            layout.inherited.map fun name => "__u32 " ++ name }
      body,
    .space]

def parserName (subject : Subject) (element : Bool) : String :=
  subject.stem .reply element ++ "_parse"

/-- The parser of a reply. -/
def replyParser (family : Family) (subject : Subject) (element : Bool) :
    Except ModelError (List Declaration) :=
  match subject.reply with
  | none => .ok []
  | some layout => do
      let body ←
        if layout.members.isEmpty then pure [.line "return MNL_CB_OK;"]
        else
          parserBody family layout [.assign "dst" "yarg->data"]
            [subject.structType .reply element ++ " *dst;",
              "struct ynl_parse_arg *yarg = data;",
              "const struct nlattr *attr;"]
      return [
        .function
          { result := "int"
            name := parserName subject element
            parameters := ["const struct nlmsghdr *nlh", "void *data"] }
          body,
        .space]

end NetlinkFamily.Library
