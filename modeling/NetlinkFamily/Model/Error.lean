import NetlinkFamily.Text.Quoted

/-!
What can go wrong between a specification and the text generated from it, and how each failure
is told.
-/

namespace NetlinkFamily

inductive ModelError where
  | unsupportedProtocol (protocol : String)
  | unsupportedNumbering (model mode : String)
  | unknownAttributeType (set attr kind : String)
  | unknownAttributeSet (set : String)
  | unknownAttribute (set attr : String)
  | unknownDefinition (name : String)
  | notAnEnum (name : String)
  | unknownOperation (name : String)
  | operationWithoutSet (name : String)
  | notDirectional (name : String)
  | rootAndNested (set : String)
  | inheritanceConflict (set : String) (existing new : List String)
  | nestedCycle (sets : List String)
  | noncontiguousEnum (name : String)
  | unsupported (what kind set attr : String)
  | globalPolicySets
  | inconsistentNotification (operation : String)
  | dumpWithoutReply (operation : String)
  | emptyPolicy (name : String)
  /-- A running number would pass the largest 32-bit value. -/
  | numberingOverflow
  deriving DecidableEq, Inhabited

namespace ModelError

def message : ModelError → String
  | unsupportedProtocol protocol =>
      "codegen only supported for genetlink, not '" ++ protocol ++ "'"
  | unsupportedNumbering model mode =>
      "message enum-model '" ++ model ++ "' not supported for " ++ mode ++ " generation"
  | unknownAttributeType set attr kind =>
      "no typed class for type '" ++ kind ++ "' (" ++ set ++ "." ++ attr ++ ")"
  | unknownAttributeSet set => "attribute set '" ++ set ++ "' is not defined"
  | unknownAttribute set attr =>
      "attribute '" ++ attr ++ "' is not defined in set '" ++ set ++ "'"
  | unknownDefinition name => "definition '" ++ name ++ "' is not defined"
  | notAnEnum name => "definition '" ++ name ++ "' is not an enum or flags set"
  | unknownOperation name => "operation '" ++ name ++ "' is not defined"
  | operationWithoutSet name => "can't resolve attribute set for op '" ++ name ++ "'"
  | notDirectional name => "can't parse directional ops (" ++ name ++ ")"
  | rootAndNested set => "using attr set as root and nested not supported - " ++ set
  | inheritanceConflict set existing new =>
      "inheriting different members not supported (" ++ set ++ ": " ++ Text.quotedList existing ++
        " vs " ++ Text.quotedList new ++ ")"
  | nestedCycle sets =>
      "dependency cycle among nested attribute sets: " ++ ", ".intercalate sets
  | noncontiguousEnum name => "can't get value range for a noncontiguous enum '" ++ name ++ "'"
  | unsupported what kind set attr =>
      what ++ " not implemented for type '" ++ kind ++ "' (" ++ set ++ "." ++ attr ++ ")"
  | globalPolicySets => "for a global policy all ops must use the same set"
  | inconsistentNotification operation =>
      "only notifications with consistent types supported (" ++ operation ++ ")"
  | dumpWithoutReply operation => "dump of op '" ++ operation ++ "' has no reply"
  | emptyPolicy name => "policy for '" ++ name ++ "' has no attributes"
  | numberingOverflow => "a message or attribute number exceeds 4294967295"

/-- Whether the failure is a name that nothing in the family defines. -/
def isDangling : ModelError → Bool
  | unknownAttributeSet _ | unknownAttribute _ _ | unknownDefinition _ | notAnEnum _
  | unknownOperation _ | operationWithoutSet _ => true
  | _ => false

end ModelError

end NetlinkFamily
