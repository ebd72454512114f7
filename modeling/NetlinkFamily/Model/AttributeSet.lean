import NetlinkFamily.Model.Attribute
import NetlinkFamily.Model.Counter

/-!
Attribute sets: ordered spaces of numbered attributes. A subset picks attributes of its parent set
and keeps their numbers.
-/

namespace NetlinkFamily

structure AttributeSet where
  name : String
  doc : Option String
  namePrefix : String
  maxName : String
  subsetOf : Option String
  cName : String
  enumName : Spec.NameKey
  attrs : Registry Attribute
  /-- Every attribute is listed under its own name. -/
  named : ∀ entry ∈ attrs.entries, entry.1 = entry.2.name

namespace AttributeSet

/-- The attributes of a set with their numbers: as given, or one more than the attribute before. -/
def numberAttributes (familyName : String) (constants : Registry Constant)
    (setName namePrefix : String) :
    UInt32 → List Spec.Attribute → Except ModelError (List Attribute)
  | _, [] => .ok []
  | next, spec :: rest => do
      let value := spec.value.getD next
      let attr ← Attribute.ofSpec familyName constants setName namePrefix spec value
      let after ← nextNumber value
      let others ← numberAttributes familyName constants setName namePrefix after rest
      return attr :: others

/-- The attributes of a subset, looked up in the parent set. -/
def inheritAttributes (parentName : String) (parent : AttributeSet)
    (specs : List Spec.Attribute) : Except ModelError (List Attribute) :=
  specs.mapM fun spec =>
    match parent.attrs.get? spec.name with
    | some attr => .ok attr
    | none => .error (.unknownAttribute parentName spec.name)

private def byName (attrs : List Attribute) : Registry Attribute :=
  Registry.ofList (attrs.map fun attr => (attr.name, attr))

private theorem byName_named (attrs : List Attribute) :
    ∀ entry ∈ (byName attrs).entries, entry.1 = entry.2.name := by
  refine Registry.forall_ofList fun entry member => ?_
  obtain ⟨attr, _, rfl⟩ := List.mem_map.1 member
  rfl

/-- The prefix of all constants of a set that is not a subset. -/
def prefixOf (familyName : String) (spec : Spec.AttributeSet) : String :=
  CName.upper <|
    match spec.namePrefix with
    | some given => given
    | none =>
        if spec.name = familyName then familyName ++ "-a-"
        else familyName ++ "-a-" ++ spec.name ++ "-"

def ofSpec (familyName : String) (constants : Registry Constant)
    (known : Registry AttributeSet) (spec : Spec.AttributeSet) :
    Except ModelError AttributeSet := do
  let ident := CName.ident spec.name
  let cName := if ident = CName.lower familyName then "" else ident
  match spec.subsetOf with
  | none =>
      let namePrefix := prefixOf familyName spec
      let attrs ← numberAttributes familyName constants spec.name namePrefix 1 spec.attributes
      return {
        name := spec.name
        doc := spec.doc
        namePrefix
        maxName := CName.upper (spec.maxName.getD (namePrefix ++ "max"))
        subsetOf := none
        cName
        enumName := spec.enumName
        attrs := byName attrs
        named := byName_named attrs }
  | some parentName =>
      match known.get? parentName with
      | none => .error (.unknownAttributeSet parentName)
      | some parent =>
          let attrs ← inheritAttributes parentName parent spec.attributes
          return {
            name := spec.name
            doc := spec.doc
            namePrefix := parent.namePrefix
            maxName := parent.maxName
            subsetOf := some parentName
            cName
            enumName := spec.enumName
            attrs := byName attrs
            named := byName_named attrs }

/-- All attribute sets of a family. A set may name any set before it as its parent. -/
def declare (familyName : String) (constants : Registry Constant)
    (specs : List Spec.AttributeSet) : Except ModelError (Registry AttributeSet) :=
  specs.foldlM
    (fun known spec => do
      let set ← ofSpec familyName constants known spec
      return known.insert set.name set)
    Registry.empty

private theorem named_of_resolved {constants : Registry Constant} {set : AttributeSet}
    {attrs : Registry Attribute}
    (resolved : set.attrs.mapM (Attribute.resolve constants) = .ok attrs) :
    ∀ entry ∈ attrs.entries, entry.1 = entry.2.name := by
  intro entry member
  obtain ⟨attr, listed, same⟩ := Registry.mem_of_mapM resolved entry member
  rw [Attribute.name_resolve same]
  exact set.named _ listed

/-- The set with the references of its attributes looked up. -/
def resolve (constants : Registry Constant) (set : AttributeSet) :
    Except ModelError AttributeSet :=
  match resolved : set.attrs.mapM (Attribute.resolve constants) with
  | .error error => .error error
  | .ok attrs => .ok { set with attrs, named := named_of_resolved resolved }

def find (set : AttributeSet) (name : String) : Except ModelError Attribute :=
  match set.attrs.get? name with
  | some attr => .ok attr
  | none => .error (.unknownAttribute set.name name)

/-- The first attribute with a number. -/
def withNumber? (set : AttributeSet) (value : Nat) : Option Attribute :=
  set.attrs.values.find? fun attr => attr.value.toNat == value

/-- An attribute of a set is found under its name. -/
theorem get?_name {set : AttributeSet} {attr : Attribute} (listed : attr ∈ set.attrs.values) :
    set.attrs.get? attr.name = some attr := by
  obtain ⟨entry, member, rfl⟩ := List.mem_map.1 listed
  rw [← set.named entry member]
  exact Registry.get?_eq_some_iff.2 member

/-- What a set holds under a name is an attribute of that name. -/
theorem name_of_get? {set : AttributeSet} {name : String} {attr : Attribute}
    (found : set.attrs.get? name = some attr) : attr.name = name ∧ attr ∈ set.attrs.values := by
  have member := Registry.get?_eq_some_iff.1 found
  exact ⟨(set.named _ member).symm, Registry.mem_values_of_get? found⟩

/-- No two attributes of a set have the same name. -/
theorem nodup_names (set : AttributeSet) : (set.attrs.values.map Attribute.name).Nodup := by
  have same : set.attrs.values.map Attribute.name = set.attrs.names := by
    rw [Registry.values, List.map_map]
    exact List.map_congr_left fun entry member => (set.named entry member).symm
  rw [same]
  exact set.attrs.distinct

/-- The sets inside the attributes of this set, in order. -/
def nestedSets (set : AttributeSet) : List String :=
  set.attrs.values.filterMap Attribute.nestedSet?

end AttributeSet

end NetlinkFamily
