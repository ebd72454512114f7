import NetlinkFamily.Proofs.Model.Subsets

namespace NetlinkFamily

open Outcome

/-- A set that defines all attributes of a list. -/
def Scope.Defines (scope : Scope) (name : String) (attributes : List String) : Prop :=
  ∃ set, scope.sets.get? name = some set ∧ ∀ attr ∈ attributes, attr ∈ set.attrs.names

/-- An attribute is found exactly when the set has its name. -/
theorem AttributeSet.exists_find_iff {set : AttributeSet} {name : String} :
    (∃ attr, set.find name = .ok attr) ↔ name ∈ set.attrs.names := by
  rw [Registry.mem_names_iff, Registry.contains]
  unfold find
  cases set.attrs.get? name <;> simp

/-- A list of attributes has a layout if a set defines them. -/
theorem Layout.exists_ofList_iff {scope : Scope} {space : String} {members : List String} :
    (∃ layout, ofList scope space members = .ok layout) ↔ scope.Defines space members := by
  simp only [ofList, bind_eq_ok_iff, pure_eq_ok_iff, Scope.attributeSet_eq_ok_iff]
  constructor
  · rintro ⟨_, set, found, attrs, listed, _⟩
    refine ⟨set, found, fun name member => ?_⟩
    exact AttributeSet.exists_find_iff.1 (exists_mapM_iff.1 ⟨attrs, listed⟩ name member)
  · rintro ⟨set, found, defined⟩
    obtain ⟨attrs, listed⟩ := exists_mapM_iff.2 fun name member =>
      AttributeSet.exists_find_iff.2 (defined name member)
    exact ⟨_, set, found, attrs, listed, rfl⟩

/-- An operation has a set, and this defines all attributes that the messages of a mode list. -/
def Operation.IsDeclared (scope : Scope) (operation : Operation) (mode : OperationMode) : Prop :=
  ∃ set, operation.attrSet = some set ∧ ∀ direction attributes,
    operation.attributesOf mode direction = some attributes → scope.Defines set attributes

/-- What is collected of an operation is defined in its set. -/
theorem RootSet.defines_of_addOperation {scope : Scope} {operation : Operation}
    {before after : Registry RootSet} (own : operation.notify = none) {set : String}
    (named : operation.attrSet = some set)
    (done : addOperation scope before operation = .ok after) (direction : Direction) :
    scope.Defines set ((ofOperation operation).used direction) := by
  simp only [addOperation, own, named, Option.isSome_none, Bool.false_eq_true, if_false,
    bind_eq_ok_iff, Scope.attributeSet_eq_ok_iff] at done
  obtain ⟨found, held, attrs, listed, _⟩ := done
  refine ⟨found, held, fun attr member => ?_⟩
  refine AttributeSet.exists_find_iff.1 (exists_mapM_iff.1 ⟨attrs, listed⟩ attr ?_)
  cases direction with
  | request => exact List.mem_append_left _ member
  | reply => exact List.mem_append_right _ member

/-- The enumerations that an attribute names are defined. If it names none for its values, then it
is a mask only because its specification says so. -/
structure Attribute.IsResolved (constants : Registry Constant) (attr : Attribute) : Prop where
  enumRef : ∀ name, attr.enumRef = some name →
    ∃ set, Constant.lookupEnum constants name = .ok set
  flagsMask : ∀ name, attr.checks.flagsMask = some name →
    ∃ set, Constant.lookupEnum constants name = .ok set
  mask : attr.enumRef = none → attr.isBitfield = attr.enumAsFlags

/-- An attribute that is resolved has its references known. -/
theorem Attribute.isResolved_of_resolve {constants : Registry Constant}
    {attr resolved : Attribute} (done : attr.resolve constants = .ok resolved) :
    resolved.IsResolved constants := by
  have lookedUp {named : Option String} {found : Option EnumSet}
      (looked : named.mapM (Constant.lookupEnum constants) = .ok found) (name : String)
      (given : named = some name) : ∃ set, Constant.lookupEnum constants name = .ok set := by
    subst given
    simp only [Option.mapM_some, Functor.map, map_eq_ok_iff] at looked
    obtain ⟨set, looked, _⟩ := looked
    exact ⟨set, looked⟩
  simp only [resolve, bind_eq_ok_iff, pure_eq_ok_iff] at done
  obtain ⟨enumSet, looked, masked, maskLooked, rfl⟩ := done
  refine ⟨lookedUp looked, lookedUp maskLooked, fun none => ?_⟩
  rw [none, Option.mapM_none, pure_eq_ok_iff] at looked
  simp [← looked]

namespace Family

/-- Every notification has its target where targets are checked. -/
theorem contains_of_checkTargets {messages : Registry Operation}
    (checked : checkTargets messages = .ok ()) {operation : Operation}
    (listed : operation ∈ messages.values) {target : String}
    (tells : operation.notify = some target) : messages.contains target = true := by
  unfold checkTargets at checked
  generalize messages.values = operations at checked listed
  induction operations with
  | nil => cases listed
  | cons first rest ih =>
      simp only [List.forIn_cons, bind_eq_ok_iff, pure_eq_ok_iff] at checked ih
      obtain ⟨_, ⟨step, here, later⟩, _⟩ := checked
      -- A step either refuses a target or lets the loop go on.
      obtain ⟨rfl, known⟩ : step = .yield () ∧
          (first.notify = some target → messages.contains target = true) := by
        split at here
        · rename_i none
          rw [pure_eq_ok_iff] at here
          exact ⟨here.symm, fun some => by rw [none] at some; cases some⟩
        · rename_i other given
          split at here
          · rename_i known
            rw [pure_eq_ok_iff] at here
            exact ⟨here.symm, fun some => Option.some.inj (given.symm.trans some) ▸ known⟩
          · cases here
      rcases List.mem_cons.1 listed with rfl | listed
      · exact known tells
      · exact ih ⟨_, later, trivial⟩ listed

variable {file : Spec.File} {excludes : List Pattern} {family : Family}

/-- The attributes of a family have their references known. -/
theorem isResolved_of_get? (built : ofSpec file excludes = .ok family) {name : String}
    {set : AttributeSet} (held : family.sets.get? name = some set) {attr : Attribute}
    (listed : attr ∈ set.attrs.values) : attr.IsResolved family.constants := by
  obtain ⟨outline, begun, same, _, _⟩ := outline_of_ofSpec built
  rw [same] at held ⊢
  obtain ⟨_, _, resolves⟩ := (Outline.builtFrom begun).sets
  obtain ⟨_, _, resolved⟩ := (Registry.alike_mapM resolves).exists_lookup held
  have attrs := (Registry.alike_mapM (AttributeSet.resolve_eq_ok resolved).2).values
  obtain ⟨_, _, done⟩ := exists_of_forall₂ attrs attr listed
  exact Attribute.isResolved_of_resolve done

/-- The target of a notification is a message. -/
theorem exists_target (built : ofSpec file excludes = .ok family) {name : String}
    {message : Operation} (found : family.messages.get? name = some message) {target : String}
    (tells : message.notify = some target) :
    ∃ told, family.messages.get? target = some told := by
  simp only [ofSpec, bind_eq_ok_iff, pure_eq_ok_iff] at built
  obtain ⟨outline, begun, _, _, _, _, rfl⟩ := built
  obtain ⟨numbered, held, _, resolves, _⟩ := exists_numbered begun found
  rw [resolves.notify] at tells
  have resolved := (Outline.builtFrom begun).messages
  have alike := alike_of_resolveMessages resolved
  simp only [resolveMessages, bind_eq_ok_iff] at resolved
  obtain ⟨_, _, _, checked, _⟩ := resolved
  have known := contains_of_checkTargets checked (Registry.mem_values_of_get? held) tells
  obtain ⟨_, before⟩ := Option.isSome_iff_exists.1 known
  obtain ⟨told, after, _⟩ := alike.flip.exists_lookup before
  exact ⟨told, after⟩

/-- Every message has a set, unless it does nothing. -/
theorem isSome_attrSet (built : ofSpec file excludes = .ok family) {name : String}
    {message : Operation} (found : family.messages.get? name = some message)
    (active : message.isReserved = false) : message.attrSet.isSome = true := by
  simp only [ofSpec, bind_eq_ok_iff, pure_eq_ok_iff] at built
  obtain ⟨outline, begun, _, _, _, _, rfl⟩ := built
  obtain ⟨_, _, _, resolves, _⟩ := exists_numbered begun found
  exact resolves.given active

/-- The attributes of every message that is no notification are defined. -/
theorem isDeclared_of_get? (built : ofSpec file excludes = .ok family) {name : String}
    {message : Operation} (found : family.messages.get? name = some message)
    (own : message.notify = none) (hasSet : message.attrSet.isSome = true)
    (mode : OperationMode) : message.IsDeclared family.toScope mode := by
  simp only [ofSpec, bind_eq_ok_iff, pure_eq_ok_iff] at built
  obtain ⟨outline, begun, _, _, _, _, rfl⟩ := built
  obtain ⟨set, named⟩ := Option.isSome_iff_exists.1 hasSet
  refine ⟨set, named, fun direction attributes carried => ?_⟩
  obtain ⟨before, after, added⟩ :=
    exists_step_of_foldlM (Outline.builtFrom begun).rootSets message
      (Registry.mem_values_of_get? found)
  obtain ⟨found, held, defined⟩ := RootSet.defines_of_addOperation own named added direction
  exact ⟨found, held, fun attr member =>
    defined attr (RootSet.used_of_attributesOf carried member)⟩

end Family

end NetlinkFamily
