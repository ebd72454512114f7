import NetlinkFamily.Model.AttributeKind
import NetlinkFamily.Model.EnumSet

/-!
Attributes of a family: their numbers, kinds and C names, and the policy each one is checked with.
-/

namespace NetlinkFamily

/-- The attribute set inside an attribute, with the names of its C structure. -/
structure NestedSet where
  set : String
  renderName : String
  structType : String
  deriving DecidableEq, Inhabited

structure Attribute where
  name : String
  setName : String
  value : UInt32
  kind : AttributeKind
  multi : Bool
  subType : Option String
  checks : Spec.Checks
  nested : Option NestedSet
  typeValue : List String
  enumRef : Option String
  enumAsFlags : Bool
  byteOrder : Option String
  doc : Option String
  cName : String
  enumName : String
  /-- Whether the values are masks of flags. Known once definitions are looked up. -/
  isBitfield : Bool := false
  /-- The C type of a scalar. Known once definitions are looked up. -/
  typeName : String := ""
  deriving DecidableEq, Inhabited

/-- The names that an attribute uses for the set inside it. -/
def NestedSet.named (familyName : String) (constants : Registry Constant) (set : String) :
    NestedSet :=
  let renderName := if set = familyName then familyName else familyName ++ "_" ++ CName.lower set
  { set
    renderName
    structType := "struct " ++ renderName ++ if constants.contains set then "_" else "" }

namespace Attribute

/-- An attribute as declared under the number `value`. -/
def ofSpec (familyName : String) (constants : Registry Constant) (setName setPrefix : String)
    (spec : Spec.Attribute) (value : UInt32) : Except ModelError Attribute :=
  match AttributeKind.ofName? (spec.kind.getD "") with
  | none => .error (.unknownAttributeType setName spec.name (spec.kind.getD ""))
  | some kind =>
      .ok
        { name := spec.name
          setName
          value
          kind
          multi := spec.multi.getD false
          subType := spec.subType
          checks := spec.checks.getD {}
          nested := spec.nestedAttributes.map (NestedSet.named familyName constants)
          typeValue := spec.typeValue.getD []
          enumRef := spec.enumRef
          enumAsFlags := spec.enumAsFlags.getD false
          byteOrder := spec.byteOrder
          doc := spec.doc
          cName := CName.ident spec.name
          enumName := CName.upper (spec.namePrefix.getD setPrefix ++ spec.name) }

/-- The C type of a scalar: its enumeration, unless that is nameless or the values are masks. -/
def scalarTypeName (type : ScalarType) (enumSet : Option EnumSet) (isBitfield : Bool) : String :=
  let plain := "__" ++ type.name
  if isBitfield then plain else (enumSet.bind EnumSet.enumName).getD plain

/-- The attribute with its references to definitions looked up. -/
def resolve (constants : Registry Constant) (attr : Attribute) :
    Except ModelError Attribute := do
  let enumSet ← attr.enumRef.mapM (Constant.lookupEnum constants)
  let _ ← attr.checks.flagsMask.mapM (Constant.lookupEnum constants)
  let isBitfield := attr.enumAsFlags || (enumSet.map EnumSet.isFlags).getD false
  return { attr with
    isBitfield
    typeName :=
      match attr.kind with
      | .scalar type => scalarTypeName type enumSet isBitfield
      | _ => attr.typeName }

theorem name_resolve {constants : Registry Constant} {attr resolved : Attribute}
    (done : attr.resolve constants = .ok resolved) : resolved.name = attr.name := by
  unfold resolve at done
  cases looked : attr.enumRef.mapM (Constant.lookupEnum constants) with
  | error error => simp [looked, bind, Except.bind] at done
  | ok enumSet =>
      cases masked : attr.checks.flagsMask.mapM (Constant.lookupEnum constants) with
      | error error => simp [looked, masked, bind, Except.bind] at done
      | ok _ =>
          simp only [looked, masked, bind, Except.bind, pure, Except.pure, Except.ok.injEq] at done
          rw [← done]

def presence (attr : Attribute) : Presence :=
  if attr.multi then .count
  else
    match attr.kind with
    | .pad | .unused => .none
    | .text | .binary => .length
    | .arrayNest => .count
    | _ => .bit

/-- Whether a C structure holds the attribute as a counted array. -/
def isCounted (attr : Attribute) : Bool :=
  attr.multi || attr.kind == .arrayNest

def nestedSet? (attr : Attribute) : Option String :=
  attr.nested.map NestedSet.set

/-- The scalar type of the entries of an array, unless they are nests. -/
def entryScalar? (attr : Attribute) : Option ScalarType :=
  attr.subType.bind ScalarType.ofName?

/-- The fields that an attribute hands to the set inside it. -/
def inheritedFields (attr : Attribute) : List String :=
  if !attr.typeValue.isEmpty then attr.typeValue
  else if attr.kind == .arrayNest then ["idx"]
  else []

def unsupported (attr : Attribute) (what : String) : ModelError :=
  .unsupported what attr.kind.name attr.setName attr.name

/-- The set inside an attribute of a nesting kind. -/
def nestedSet (attr : Attribute) : Except ModelError NestedSet :=
  match attr.nested with
  | some nested => .ok nested
  | none => .error (attr.unsupported "nesting without nested-attributes")

/-- The nested set looked up is the one an attribute names. -/
theorem nestedSet_eq_ok_iff {attr : Attribute} {nested : NestedSet} :
    attr.nestedSet = .ok nested ↔ attr.nested = some nested := by
  unfold nestedSet
  split <;> simp_all

/-- The mask with the lowest `count` bits set, or all bits when there are not enough. -/
def lowMask (count : Nat) : UInt64 :=
  if count < 64 then UInt64.ofNat (1 <<< count - 1) else UInt64.ofNat (UInt64.size - 1)

/-- A mask comes first, then a minimum, then the range of an enumeration. -/
def scalarPolicy (constants : Registry Constant) (attr : Attribute) (type : ScalarType) :
    Except ModelError WirePolicy :=
  if attr.isBitfield then do
    let set ← Constant.lookupEnum constants (attr.enumRef.getD "")
    return .mask type (set.mask true)
  else
    match attr.checks.flagsMask, attr.checks.min, attr.enumRef with
    | some name, _, _ => do
        let set ← Constant.lookupEnum constants name
        return .mask type (lowMask set.entries.size)
    | none, some least, _ => .ok (.min type least)
    | none, none, some name => do
        let set ← Constant.lookupEnum constants name
        let (low, high) ← set.valueRange
        return if low = 0 then .max type high else .range type low high
    | none, none, none => .ok (.plain (.scalar type))

/-- The policy of an attribute, `none` for kinds that never get one. -/
def wirePolicy (constants : Registry Constant) (attr : Attribute) :
    Except ModelError (Option WirePolicy) :=
  match attr.kind with
  | .pad | .unused => .ok none
  | .scalar type => (scalarPolicy constants attr type).map some
  | .flag => .ok (some (.plain .flag))
  | .text =>
      .ok (some (.text (!attr.checks.unterminatedOk.getD false) attr.checks.maxLength))
  | .binary =>
      match attr.checks.count, attr.checks.minLength with
      | 0, _ => .ok (some (.plain .binary))
      | 1, some length => .ok (some (.minLength length))
      | _, _ => .error (attr.unsupported "binary checks other than min-len")
  | .nest => attr.nestedSet.map fun nested => some (.nested nested.renderName)
  | .arrayNest => attr.nestedSet.map fun nested => some (.nestedArray nested.renderName)
  | .nestTypeValue => .error (attr.unsupported "kernel policy")

end Attribute

end NetlinkFamily
