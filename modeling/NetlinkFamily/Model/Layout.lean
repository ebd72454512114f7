import NetlinkFamily.Model.Scope

/-!
Groups of attributes that become one C structure: the request or reply of an operation, or the
contents of a set that is nested in other sets.
-/

namespace NetlinkFamily

structure Layout where
  space : String
  renderName : String
  structName : String
  pointerName : String
  nested : Bool
  request : Bool := false
  reply : Bool := false
  members : List String
  /-- The member with the greatest number. -/
  maxMember : Option String
  /-- The fields handed down by the first attribute that refers to the set. -/
  seed : Option (List String) := none
  deriving DecidableEq, Inhabited

namespace Layout

/-- The attribute with the greatest number, the last one among equals. -/
def greatest : List Attribute → Option Attribute :=
  List.foldl
    (fun best attr =>
      match best with
      | none => some attr
      | some other => if other.value ≤ attr.value then some attr else some other)
    none

/-- The stem of the C names of a set's own structure. -/
def stem (familyName setName : String) : String :=
  if familyName = CName.lower setName then familyName
  else familyName ++ "_" ++ CName.lower setName

private def arranged (scope : Scope) (space : String) (nested : Bool) (members : List String)
    (attrs : List Attribute) : Layout :=
  let renderName := stem scope.name space
  let structName :=
    "struct " ++ renderName ++ if nested && scope.constants.contains space then "_" else ""
  { space
    renderName
    structName
    pointerName := structName ++ " *"
    nested
    members
    maxMember := (greatest attrs).map Attribute.name }

/-- The layout of the listed attributes of a set. -/
def ofList (scope : Scope) (space : String) (members : List String) :
    Except ModelError Layout := do
  let set ← scope.attributeSet space
  let attrs ← members.mapM set.find
  return arranged scope space false members attrs

/-- The layout of all attributes of a set, as it is nested in others. -/
def ofSet (scope : Scope) (space : String) : Except ModelError Layout := do
  let set ← scope.attributeSet space
  return arranged scope space true set.attrs.names set.attrs.values

/-- The layout of a declared set, which has not been handed any fields yet. -/
theorem seed_ofSet {scope : Scope} {space : String} {layout : Layout}
    (built : ofSet scope space = .ok layout) : layout.seed = none := by
  unfold ofSet at built
  cases declared : scope.attributeSet space with
  | error error => simp [declared, bind, Except.bind] at built
  | ok set =>
      simp only [declared, bind, Except.bind, pure, Except.pure, Except.ok.injEq] at built
      rw [← built]
      rfl

theorem exists_ofSet {scope : Scope} {space : String} (declared : space ∈ scope.sets.names) :
    ∃ layout, ofSet scope space = .ok layout := by
  obtain ⟨set, found⟩ := Registry.exists_get?_of_mem declared
  refine ⟨arranged scope space true set.attrs.names set.attrs.values, ?_⟩
  rw [ofSet, Scope.attributeSet_eq_ok_iff.2 found]
  rfl

/-- The members with their attributes, in order. -/
def attributes (layout : Layout) (scope : Scope) : List Attribute :=
  match scope.sets.get? layout.space with
  | none => []
  | some set => layout.members.filterMap set.attrs.get?

def maxAttribute (layout : Layout) (scope : Scope) : Option Attribute := do
  let name ← layout.maxMember
  let set ← scope.sets.get? layout.space
  set.attrs.get? name

/-- The fields that the structure takes over from the attribute around it. -/
def inherited (layout : Layout) : List String :=
  (layout.seed.getD []).map CName.lower

/-- This records the fields seen through one reference. All references must hand down the same
fields in the same order. -/
def inherit (layout : Layout) (fields : List String) : Except ModelError Layout :=
  match layout.seed with
  | none => .ok { layout with seed := some fields }
  | some seed =>
      if seed = fields then .ok layout
      else .error (.inheritanceConflict layout.space seed fields)

/-- Fields are recorded once. After that only the same fields are accepted. -/
theorem inherit_eq_ok_iff {layout result : Layout} {fields : List String} :
    layout.inherit fields = .ok result ↔
      (layout.seed = none ∨ layout.seed = some fields) ∧
        result = { layout with seed := some fields } := by
  unfold inherit
  cases seed : layout.seed with
  | none => simp [eq_comm]
  | some given =>
      by_cases same : given = fields
      · subst same
        have whole : { layout with seed := some given } = layout := by rw [← seed]
        simp [whole, eq_comm]
      · simp [same]

end Layout

end NetlinkFamily
