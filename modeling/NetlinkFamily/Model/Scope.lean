import NetlinkFamily.Model.AttributeSet

/-!
What the names in a family refer to: its definitions and its attribute sets.
-/

namespace NetlinkFamily

structure Scope where
  name : String
  constants : Registry Constant
  sets : Registry AttributeSet

namespace Scope

def attributeSet (scope : Scope) (name : String) : Except ModelError AttributeSet :=
  match scope.sets.get? name with
  | some set => .ok set
  | none => .error (.unknownAttributeSet name)

@[simp] theorem attributeSet_eq_ok_iff {scope : Scope} {name : String} {set : AttributeSet} :
    scope.attributeSet name = .ok set ↔ scope.sets.get? name = some set := by
  unfold attributeSet
  split <;> simp_all

/-- The sets inside the attributes of a set, in order. -/
def references (scope : Scope) (name : String) : List String :=
  match scope.sets.get? name with
  | some set => set.nestedSets
  | none => []

/-- The enumerations among the definitions, in order. -/
def enumSets (scope : Scope) : List EnumSet :=
  scope.constants.values.filterMap fun
    | .enumeration set => some set
    | .value _ => none

def enumSet? (scope : Scope) (name : String) : Option EnumSet :=
  match scope.constants.get? name with
  | some (.enumeration set) => some set
  | _ => none

end Scope

end NetlinkFamily
