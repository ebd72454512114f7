import NetlinkFamily.C.Code
import NetlinkFamily.Model.Attribute

/-!
The code that puts a member into a message.
-/

namespace NetlinkFamily.Attribute

/-- A condition that the member was set, if the structure records that. -/
def presenceCheck (attr : Attribute) (holder : String) : List C.Code :=
  let presence := holder ++ "->_present." ++ attr.cName
  match attr.presence with
  | .bit => [.line ("if (" ++ presence ++ ")")]
  | .length => [.line ("if (" ++ presence ++ "_len)")]
  | .none | .count => []

/-- The call that puts one value into a message. -/
def putNest (attr : Attribute) (place : String) : Except ModelError C.Code :=
  attr.nestedSet.map fun nested =>
    .call (nested.renderName ++ "_put") ["nlh", attr.enumName, "&" ++ place]

def putScalar (attr : Attribute) (type : ScalarType) (place : String) : C.Code :=
  .call ("mnl_attr_put_" ++ type.accessorName) ["nlh", attr.enumName, place]

/-- This puts each of the values of an attribute that may be repeated. -/
def putEach (attr : Attribute) (holder : String) : Except ModelError (List C.Code) := do
  let place := holder ++ "->" ++ attr.cName ++ "[i]"
  let line ←
    match attr.kind with
    | .scalar type => pure (putScalar attr type place)
    | .nest => putNest attr place
    | _ => throw (attr.unsupported "put")
  return [
    .line ("for (unsigned int i = 0; i < " ++ holder ++ "->n_" ++ attr.cName ++ "; i++)"),
    line]

/-- This puts a member of the structure that `holder` points to. -/
def put (attr : Attribute) (holder : String) : Except ModelError (List C.Code) :=
  let place := holder ++ "->" ++ attr.cName
  let guarded (line : C.Code) : List C.Code := attr.presenceCheck holder ++ [line]
  if attr.multi then putEach attr holder
  else
    match attr.kind with
    | .pad => .ok []
    | .unused | .arrayNest | .nestTypeValue => .error (attr.unsupported "put")
    | .scalar type => .ok (guarded (putScalar attr type place))
    | .flag => .ok (guarded (.call "mnl_attr_put" ["nlh", attr.enumName, "0", "NULL"]))
    | .text => .ok (guarded (.call "mnl_attr_put_strz" ["nlh", attr.enumName, place]))
    | .binary =>
        .ok (guarded (.call "mnl_attr_put"
          ["nlh", attr.enumName, holder ++ "->_present." ++ attr.cName ++ "_len", place]))
    | .nest => (putNest attr place).map guarded

end NetlinkFamily.Attribute
