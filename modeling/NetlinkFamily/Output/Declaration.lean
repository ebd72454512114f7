import NetlinkFamily.C.Alignment
import NetlinkFamily.C.Field
import NetlinkFamily.C.Signature
import NetlinkFamily.Member.Policy

/-!
The declarations that generated files are made of, and the C code of each.
-/

namespace NetlinkFamily

/-- What an enumerator stands for. -/
inductive EnumeratorValue where
  /-- One more than the enumerator before, or zero for the first one. -/
  | implicit
  | number (value : Nat)
  /-- One less than another enumerator. -/
  | below (name : String)
  deriving DecidableEq, Inhabited

structure Enumerator where
  name : String
  value : EnumeratorValue := .implicit
  deriving DecidableEq, Inhabited

def Enumerator.text (enumerator : Enumerator) : String :=
  match enumerator.value with
  | .implicit => enumerator.name
  | .number value => enumerator.name ++ " = " ++ toString value
  | .below name => enumerator.name ++ " = (" ++ name ++ " - 1)"

/-- An enumeration. The last enumerators may stand apart, under a remark. -/
structure Enumeration where
  /-- The keyword with the name, if there is one. -/
  header : String
  enumerators : List Enumerator
  remark : Option String := none
  last : List Enumerator := []
  /-- Whether a comma follows the very last enumerator of those that stand apart. -/
  lastComma : Bool := true
  deriving DecidableEq, Inhabited

namespace Enumeration

private def lastLines (comma : Bool) : List Enumerator → List C.Code
  | [] => []
  | [enumerator] => [.line (enumerator.text ++ if comma then "," else "")]
  | enumerator :: rest => .line (enumerator.text ++ ",") :: lastLines comma rest

def code (enumeration : Enumeration) : C.Code :=
  let first := enumeration.enumerators.map fun enumerator => C.Code.line (enumerator.text ++ ",")
  let last :=
    if enumeration.last.isEmpty then []
    else
      .space :: (enumeration.remark.map .line).toList ++
        lastLines enumeration.lastComma enumeration.last
  .block enumeration.header (first ++ last) ";"

end Enumeration

/-- A structure type. The fields that record presence are a structure inside it. -/
structure StructureType where
  name : String
  presence : List C.Field := []
  fields : List C.Field
  deriving DecidableEq, Inhabited

def StructureType.code (type : StructureType) : C.Code :=
  let presence :=
    if type.presence.isEmpty then []
    else [.block "struct" (type.presence.map C.Field.code) "_present;", .space]
  .block type.name (presence ++ type.fields.map C.Field.code) ";"

/-- A table of the kernel that holds a policy for each of the attributes of a message. -/
structure PolicyTable where
  /-- What stands in front of the type. -/
  storage : String
  stem : String
  /-- The greatest attribute that the table has room for. -/
  bound : String
  entries : List (String × WirePolicy) := []
  deriving DecidableEq, Inhabited

namespace PolicyTable

def symbol (table : PolicyTable) : String :=
  table.stem ++ "_nl_policy"

def declarator (table : PolicyTable) : String :=
  table.storage ++ "const struct nla_policy " ++ table.symbol ++ "[" ++ table.bound ++ " + 1]"

def lines (table : PolicyTable) : List String :=
  (table.declarator ++ " = \x7b") ::
    (table.entries.map fun entry =>
      "\t[" ++ entry.1 ++ "] = " ++ entry.2.initializer ++ ",") ++
    ["\x7d;"]

end PolicyTable

/-- The tables that user space validates the attributes of a set with. -/
structure ValidationTable where
  stem : String
  /-- The greatest attribute that the table has room for. -/
  bound : String
  entries : List C.Code
  deriving Inhabited

def ValidationTable.code (table : ValidationTable) : List C.Code :=
  [.block ("struct ynl_policy_attr " ++ table.stem ++ "_policy[" ++ table.bound ++ " + 1] =")
      table.entries ";",
    .space,
    .block ("struct ynl_policy_nest " ++ table.stem ++ "_nest =")
      [.line (".max_attr = " ++ table.bound ++ ","),
        .line (".table = " ++ table.stem ++ "_policy,")]
      ";",
    .space]

/-- How user space handles one notification or event. -/
structure NotificationEntry where
  command : String
  /-- The type that is allocated for it. -/
  type : String
  parser : String
  policy : String
  release : String
  deriving DecidableEq, Inhabited

def NotificationEntry.code (entry : NotificationEntry) : C.Code :=
  .block ("[" ++ entry.command ++ "] =")
    [.line (".alloc_sz\t= sizeof(" ++ entry.type ++ "),"),
      .line (".cb\t\t= " ++ entry.parser ++ ","),
      .line (".policy\t\t= &" ++ entry.policy ++ ","),
      .line (".free\t\t= (void *)" ++ entry.release ++ ",")]
    ","

/-- The table of the kernel that tells how to handle each operation. -/
structure OperationTable where
  /-- The type and name of the table, with the number of entries if it is exported. -/
  declarator : String
  /-- The members of each entry, with their values. -/
  entries : List (List (String × String))
  deriving DecidableEq, Inhabited

def OperationTable.code (table : OperationTable) : C.Code :=
  .block (table.declarator ++ " =")
    (table.entries.map fun members => .block "" ((C.initializerLines members).map .line) ",")
    ";"

inductive Declaration where
  | line (text : String)
  /-- An empty line before the next line. -/
  | space
  | prototype (doc : Option String) (signature : C.Signature)
  | function (signature : C.Signature) (body : List C.Code)
  | structure (type : StructureType)
  | enumeration (enumeration : Enumeration)
  | defines (values : List (String × C.DefineValue))
  | object (header : String) (contents : List C.Code)
  | policy (table : PolicyTable)
  | validation (table : ValidationTable)
  | notifications (header : String) (entries : List NotificationEntry)
  | operations (table : OperationTable)
  deriving Inhabited

namespace Declaration

def code : Declaration → List C.Code
  | .line text => [.line text]
  | .space => [.space]
  | .prototype doc signature => signature.prototype doc ";"
  | .function signature body => signature.define body
  | .structure type => [type.code]
  | .enumeration value => [value.code]
  | .defines values => (C.defineLines values).map .line
  | .object header contents => [.block header contents ";"]
  | .policy table => table.lines.map .line
  | .validation table => table.code
  | .notifications header entries => [.block header (entries.map NotificationEntry.code) ";"]
  | .operations table => [table.code]

/-- A comment on a line of its own. -/
def comment (text : String) : Declaration :=
  .line ("/* " ++ text ++ " */")

/-- The text of a file. -/
def render (declarations : List Declaration) : String :=
  C.Code.render (declarations.flatMap code)

end Declaration

end NetlinkFamily
