/-!
The records of a family specification as they are written: a family lists its definitions,
attribute sets, operations and multicast groups. References are names, and nothing is checked
beyond the shape of the records.
-/

namespace NetlinkFamily.Spec

/-- A key that may be absent, present without a value, or present with a name. -/
inductive NameKey where
  | absent
  | empty
  | given (name : String)
  deriving DecidableEq, Inhabited

/-- Which requests share a policy table on the handling side. -/
inductive KernelPolicy where
  | split
  | perOperation
  | global
  deriving DecidableEq, Inhabited

/-- Whether requests and replies share their message numbers. -/
inductive NumberingModel where
  | unified
  | directional
  deriving DecidableEq, Inhabited

inductive DefinitionKind where
  | const
  | enum
  | flags
  deriving DecidableEq, Inhabited

/-- An entry of an enumeration: a bare name, or a name with its value and description. -/
inductive EnumEntry where
  | bare (name : String)
  | full (name : String) (value : Option UInt64) (doc : Option String)
  deriving DecidableEq, Inhabited

def EnumEntry.name : EnumEntry → String
  | .bare name => name
  | .full name _ _ => name

def EnumEntry.value : EnumEntry → Option UInt64
  | .bare _ => none
  | .full _ value _ => value

def EnumEntry.doc : EnumEntry → Option String
  | .bare _ => none
  | .full _ _ doc => doc

/-- A constant, an enumeration or a set of flags. -/
structure Definition where
  name : String
  kind : DefinitionKind
  value : Option Int64 := none
  doc : Option String := none
  header : Option String := none
  entries : List EnumEntry := []
  valueStart : Option UInt64 := none
  namePrefix : Option String := none
  enumName : NameKey := .absent
  renderMax : Bool := false
  defineName : Option String := none
  deriving DecidableEq, Inhabited

/-- Constraints on the value of an attribute. -/
structure Checks where
  min : Option Int64 := none
  maxLength : Option UInt64 := none
  minLength : Option UInt64 := none
  flagsMask : Option String := none
  unterminatedOk : Option Bool := none
  deriving DecidableEq, Inhabited

/-- The number of constraints that are given. -/
def Checks.count (checks : Checks) : Nat :=
  checks.min.isSome.toNat + checks.maxLength.isSome.toNat + checks.minLength.isSome.toNat +
    checks.flagsMask.isSome.toNat + checks.unterminatedOk.isSome.toNat

structure Attribute where
  name : String
  kind : Option String := none
  value : Option UInt32 := none
  doc : Option String := none
  checks : Option Checks := none
  nestedAttributes : Option String := none
  multi : Option Bool := none
  subType : Option String := none
  typeValue : Option (List String) := none
  byteOrder : Option String := none
  enumRef : Option String := none
  enumAsFlags : Option Bool := none
  namePrefix : Option String := none
  deriving DecidableEq, Inhabited

structure AttributeSet where
  name : String
  doc : Option String := none
  namePrefix : Option String := none
  enumName : NameKey := .absent
  maxName : Option String := none
  subsetOf : Option String := none
  attributes : List Attribute := []
  deriving DecidableEq, Inhabited

/-- One message of an operation: the attributes it carries and its number, if it has its own. -/
structure Direction where
  value : Option UInt32 := none
  attributes : List String := []
  deriving DecidableEq, Inhabited

/-- How an operation is called: its request and reply, and the callbacks around it. -/
structure Mode where
  request : Option Direction := none
  reply : Option Direction := none
  pre : Option String := none
  post : Option String := none
  deriving DecidableEq, Inhabited

structure Operation where
  name : String
  doc : Option String := none
  attributeSet : Option String := none
  value : Option UInt32 := none
  flags : List String := []
  dontValidate : List String := []
  notify : Option String := none
  event : Option (List String) := none
  multicastGroup : Option String := none
  doMode : Option Mode := none
  dumpMode : Option Mode := none
  deriving DecidableEq, Inhabited

structure Operations where
  namePrefix : Option String := none
  asyncPrefix : Option String := none
  numbering : NumberingModel := .unified
  enumName : NameKey := .absent
  asyncEnum : NameKey := .absent
  list : List Operation := []
  deriving DecidableEq, Inhabited

structure MulticastGroup where
  name : String
  defineName : Option String := none
  deriving DecidableEq, Inhabited

/-- A whole family as specified. -/
structure Family where
  name : String
  protocol : Option String := none
  doc : Option String := none
  version : Option UInt32 := none
  headerName : Option String := none
  familyDefine : Option String := none
  versionDefine : Option String := none
  kernelPolicy : KernelPolicy := .split
  maxByDefine : Bool := false
  commandMaxName : Option String := none
  commandCountName : Option String := none
  attributeCountName : Option String := none
  definitions : List Definition := []
  attributeSets : List AttributeSet := []
  operations : Operations := {}
  multicastGroups : List MulticastGroup := []
  deriving DecidableEq, Inhabited

end NetlinkFamily.Spec
