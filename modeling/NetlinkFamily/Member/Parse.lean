import NetlinkFamily.C.Code
import NetlinkFamily.Model.Attribute

/-!
The code that takes a member from a message. The first pass over a message reads members that occur
once and counts the others, and a second pass fills the arrays.
-/

namespace NetlinkFamily.Attribute

def failed : C.Code :=
  .line "return MNL_CB_ERROR;"

def getScalar (place : String) (type : ScalarType) : C.Code :=
  .assign place ("mnl_attr_get_" ++ type.accessorName ++ "(attr)")

/-- The code that reads one occurrence of an attribute. -/
structure Branch where
  /-- What is done before the value is read. -/
  setup : List C.Code := []
  body : List C.Code := []
  locals : List String := []
  deriving Inhabited

/-- This prepares parsing a nest into the place `place`. -/
def nestSetup (renderName place : String) : List C.Code :=
  [.assign "parg.rsp_policy" ("&" ++ renderName ++ "_nest"),
    .assign "parg.data" ("&" ++ place)]

/-- The code that steps into one nest for each of the levels. The types of the nests become
arguments of the parser. -/
def enterLevels : String → List String → List C.Code
  | _, [] => []
  | outer, level :: rest =>
      .assign ("attr_" ++ level) ("mnl_attr_get_payload(" ++ outer ++ ")") ::
        .assign level ("mnl_attr_get_type(attr_" ++ level ++ ")") ::
        enterLevels ("attr_" ++ level) rest

/-- The attribute around the value, once all levels have been entered. -/
def innermost (levels : List String) : String :=
  match levels.getLast? with
  | some level => "attr_" ++ level
  | none => "attr"

def levelsBranch (attr : Attribute) (place renderName : String) : Branch :=
  let levels := attr.typeValue.map CName.lower
  let arguments := if levels.isEmpty then [""] else levels
  { setup := nestSetup renderName place
    body :=
      enterLevels "attr" levels ++
        [.check (renderName ++ "_parse") (["&parg", innermost levels] ++ arguments), failed]
    locals :=
      if levels.isEmpty then []
      else
        ["const struct nlattr " ++ ", ".intercalate (levels.map fun level => "*attr_" ++ level) ++
            ";",
          "__u32 " ++ ", ".intercalate levels ++ ";"] }

/-- The code for one occurrence, which is stored in the structure that `holder` points to. -/
def branch (attr : Attribute) (holder : String) : Except ModelError Branch :=
  let place := holder ++ "->" ++ attr.cName
  let length := holder ++ "->_present." ++ attr.cName ++ "_len"
  if attr.multi then .ok { body := [.line ("n_" ++ attr.cName ++ "++;")] }
  else
    match attr.kind with
    | .unused => .ok { body := [failed] }
    | .pad | .flag => .ok {}
    | .scalar type => .ok { body := [getScalar place type] }
    | .text =>
        .ok
          { setup :=
              [.assign "len" "strnlen(mnl_attr_get_str(attr), mnl_attr_get_payload_len(attr))"]
            body :=
              [.assign length "len",
                .assign place "malloc(len + 1)",
                .call "memcpy" [place, "mnl_attr_get_str(attr)", "len"],
                .assign (place ++ "[len]") "0"]
            locals := ["unsigned int len;"] }
    | .binary =>
        .ok
          { setup := [.assign "len" "mnl_attr_get_payload_len(attr)"]
            body :=
              [.assign length "len",
                .assign place "malloc(len)",
                .call "memcpy" [place, "mnl_attr_get_payload(attr)", "len"]]
            locals := ["unsigned int len;"] }
    | .nest => do
        let nested ← attr.nestedSet
        return {
          setup := nestSetup nested.renderName place
          body := [.check (nested.renderName ++ "_parse") ["&parg", "attr"], failed] }
    | .arrayNest =>
        .ok
          { body :=
              [.assign ("attr_" ++ attr.cName) "attr",
                .line "mnl_attr_for_each_nested(attr2, attr)",
                .line ("\tn_" ++ attr.cName ++ "++;")]
            locals := ["const struct nlattr *attr2;"] }
    | .nestTypeValue => do
        let nested ← attr.nestedSet
        return levelsBranch attr place nested.renderName

/-- A member that occurs once is validated, and that it is present may be recorded. -/
def validate (attr : Attribute) (holder : String) : List C.Code :=
  if attr.isCounted then []
  else
    [.check "ynl_attr_validate" ["yarg", "attr"], failed] ++
      if attr.presence = .bit then
        [.assign (holder ++ "->_present." ++ attr.cName) "1"]
      else []

def spacedAfter (code : List C.Code) : List C.Code :=
  if code.isEmpty then [] else code ++ [.space]

def spacedBefore (code : List C.Code) : List C.Code :=
  if code.isEmpty then [] else .space :: code

/-- The branch of a parser for one attribute, the `first` one or one after another. A pad that
occurs once has none. -/
def parseBranch? (attr : Attribute) (holder : String) (first : Bool) :
    Except ModelError (Option C.Code) :=
  if attr.kind = .pad ∧ attr.multi = false then .ok none
  else do
    let branch ← attr.branch holder
    let keyword := if first then "if" else "else if"
    return some <|
      .block (keyword ++ " (type == " ++ attr.enumName ++ ")")
        (spacedAfter (branch.locals.map .line) ++ attr.validate holder ++
          spacedBefore branch.setup ++ branch.body)
        ""

/-- The branches for the members of a structure, as one chain of conditions. -/
def parseBranches (holder : String) : Bool → List Attribute → Except ModelError (List C.Code)
  | _, [] => .ok []
  | first, attr :: rest => do
      match ← attr.parseBranch? holder first with
      | none => parseBranches holder first rest
      | some branch =>
          let others ← parseBranches holder false rest
          return branch :: others

/-- This makes room for as many elements as were counted. -/
def allocate (attr : Attribute) : List C.Code :=
  let place := "dst->" ++ attr.cName
  let count := "n_" ++ attr.cName
  [.assign place ("calloc(" ++ count ++ ", sizeof(*" ++ place ++ "))"),
    .assign ("dst->" ++ count) count,
    .assign "i" "0"]

def nestPolicy (attr : Attribute) : Except ModelError C.Code :=
  attr.nestedSet.map fun nested =>
    .assign "parg.rsp_policy" ("&" ++ nested.renderName ++ "_nest")

/-- This fills the array of an attribute that may be repeated, with a loop over all attributes. -/
def fillRepeated (attr : Attribute) (loop : String) : Except ModelError (List C.Code) := do
  let place := "dst->" ++ attr.cName ++ "[i]"
  let policy ← if attr.nested.isSome then (nestPolicy attr).map ([·]) else pure []
  let element ←
    match attr.kind with
    | .nest => do
        let nested ← attr.nestedSet
        pure [
          .assign "parg.data" ("&" ++ place),
          .check (nested.renderName ++ "_parse") ["&parg", "attr"],
          failed]
    | .scalar type => pure [getScalar place type]
    | _ => throw (attr.unsupported "multi-attr parsing")
  return [
    .block ("if (n_" ++ attr.cName ++ ")")
      (allocate attr ++ policy ++
        [.block loop
          [.block ("if (mnl_attr_get_type(attr) == " ++ attr.enumName ++ ")")
            (element ++ [.line "i++;"]) ""]
          ""])
      ""]

/-- This fills the array of an attribute that holds its entries. A nest is told its index. -/
def fillArray (attr : Attribute) : Except ModelError (List C.Code) := do
  let place := "dst->" ++ attr.cName ++ "[i]"
  let (policy, element) ←
    match attr.entryScalar? with
    | some type => pure ([], [getScalar place type])
    | none => do
        let nested ← attr.nestedSet
        let policy ← nestPolicy attr
        pure ([policy],
          [.assign "parg.data" ("&" ++ place),
            .check (nested.renderName ++ "_parse") ["&parg", "attr", "mnl_attr_get_type(attr)"],
            failed])
  return [
    .block ("if (n_" ++ attr.cName ++ ")")
      (allocate attr ++ policy ++
        [.block ("mnl_attr_for_each_nested(attr, attr_" ++ attr.cName ++ ")")
          (element ++ [.line "i++;"]) ""])
      ""]

end NetlinkFamily.Attribute
