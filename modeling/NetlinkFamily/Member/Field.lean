import NetlinkFamily.C.Field
import NetlinkFamily.Model.Attribute

/-!
Attributes as members of C structures and as parameters of C functions.
-/

namespace NetlinkFamily

/-- Where generated code runs. -/
inductive Space where
  | user
  | kernel
  deriving DecidableEq, Inhabited

/-- The start of the names of integer types, which user space spells with underscores. -/
def Space.typePrefix : Space → String
  | .user => "__"
  | .kernel => ""

namespace Attribute

/-- The field that records that the attribute was set, if it is of the given kind. -/
def presenceField? (attr : Attribute) (space : Space) (kind : Presence) : Option C.Field :=
  if attr.presence = kind then
    let type := space.typePrefix ++ "u32"
    match kind with
    | .bit => some { type, name := attr.cName, ending := ":1" }
    | .length => some { type, name := attr.cName ++ "_len" }
    | .none | .count => none
  else none

/-- The fields that record which of the attributes were set, in order. -/
def presenceFields (attrs : List Attribute) (space : Space) : List C.Field :=
  attrs.flatMap fun attr =>
    (attr.presenceField? space .length).toList ++ (attr.presenceField? space .bit).toList

def nestedType (attr : Attribute) : Except ModelError (Option String) :=
  attr.nestedSet.map fun nested => some nested.structType

def integerType (space : Space) (type : ScalarType) : Option String :=
  some (space.typePrefix ++ type.name)

/-- The type of the elements of an attribute that is a structure or an array. -/
def elementType? (attr : Attribute) (space : Space) : Except ModelError (Option String) :=
  if attr.multi then
    match attr.kind with
    | .nest => nestedType attr
    | .scalar type => .ok (integerType space type)
    | _ => .error (attr.unsupported "multi-attr sub-type")
  else
    match attr.kind with
    | .nest | .nestTypeValue => nestedType attr
    | .arrayNest =>
        match attr.subType with
        | none | some "nest" => nestedType attr
        | some name =>
            match ScalarType.ofName? name with
            | some type => .ok (integerType space type)
            | none => .error (attr.unsupported "array-nest sub-type")
    | _ => .ok none

/-- A remark on the byte order, behind the name of a member. -/
def byteOrderRemark (attr : Attribute) : String :=
  match attr.byteOrder with
  | some order => " /* " ++ order ++ " */"
  | none => ""

/-- A number with the type of the attribute. -/
def scalarField (attr : Attribute) : C.Field :=
  { type := attr.typeName, name := attr.cName, ending := attr.byteOrderRemark }

/-- The parameters that pass the elements of an attribute, with their number if it varies. -/
def elementParameters (attr : Attribute) (space : Space) :
    Except ModelError (List String) := do
  match ← attr.elementType? space with
  | none => throw (attr.unsupported "struct member")
  | some type =>
      let pointer := type ++ " *" ++ attr.cName
      return if attr.presence = .count then [pointer, "unsigned int n_" ++ attr.cName]
        else [pointer]

/-- The parameters of a function that sets the attribute. -/
def parameters (attr : Attribute) (space : Space) : Except ModelError (List String) :=
  if attr.multi then elementParameters attr space
  else
    match attr.kind with
    | .pad | .unused | .flag => .ok []
    | .scalar _ => .ok [attr.typeName ++ " " ++ attr.cName ++ attr.byteOrderRemark]
    | .text => .ok ["const char *" ++ attr.cName]
    | .binary => .ok ["const void *" ++ attr.cName, "size_t len"]
    | _ => elementParameters attr space

/-- The number of elements of an array. -/
def countField (attr : Attribute) : C.Field :=
  { type := "unsigned int", name := "n_" ++ attr.cName }

/-- The fields for the elements of an attribute. -/
def elementFields (attr : Attribute) (space : Space) :
    Except ModelError (List C.Field) := do
  match ← attr.elementType? space with
  | some type =>
      if attr.isCounted then
        return [countField attr, { holding := .pointer, type, name := attr.cName }]
      else
        return [{ holding := .embedded, type, name := attr.cName }]
  | none =>
      match attr.kind with
      | .scalar _ => return [scalarField attr]
      | _ => return []

/-- The fields that hold the value of the attribute. -/
def fields (attr : Attribute) (space : Space) : Except ModelError (List C.Field) :=
  if attr.multi then elementFields attr space
  else
    match attr.kind with
    | .text => .ok [{ holding := .pointer, type := "char", name := attr.cName }]
    | .binary => .ok [{ holding := .pointer, type := "void", name := attr.cName }]
    | _ => elementFields attr space

end Attribute

end NetlinkFamily
