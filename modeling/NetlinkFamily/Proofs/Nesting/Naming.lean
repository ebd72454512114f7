import NetlinkFamily.Output.Library.Types
import NetlinkFamily.Proofs.Model.Messages
import NetlinkFamily.Proofs.Nesting.Dependencies

namespace NetlinkFamily

namespace Nesting

open Outcome

variable {scope : Scope} {roots : Registry RootSet} {found : Registry Layout}
  {property : String → Layout → Prop}

/-- A property of every layout that is found. -/
def Throughout (property : String → Layout → Prop) (found : Registry Layout) : Prop :=
  ∀ name layout, found.get? name = some layout → property name layout

/-- A property that new layouts have, and that fields and marks do not touch. -/
structure Lasting (scope : Scope) (property : String → Layout → Prop) : Prop where
  built : ∀ name layout, Layout.ofSet scope name = .ok layout → property name layout
  seeded : ∀ name layout seed, property name layout → property name { layout with seed }
  marked : ∀ name layout request reply, property name layout →
    property name { layout with request, reply }

/-- A property that holds throughout still does with one more layout that has it. -/
theorem throughout_insert {name : String} {layout : Layout} (holds : Throughout property found)
    (here : property name layout) : Throughout property (found.insert name layout) := by
  intro other held looked
  rw [Registry.get?_insert] at looked
  split at looked
  · rename_i same
    cases looked
    exact same ▸ here
  · exact holds other held looked

/-- A property that a change keeps holds throughout after the change. -/
theorem throughout_update {name : String} {change : Layout → Layout}
    (holds : Throughout property found)
    (kept : ∀ name layout, property name layout → property name (change layout)) :
    Throughout property (found.update name change) := by
  intro other held looked
  rw [Registry.get?_update, Option.map_eq_some_iff] at looked
  obtain ⟨layout, before, rfl⟩ := looked
  split
  · exact kept other layout (holds other layout before)
  · exact holds other layout before

/-- A property that every step keeps holds throughout after all of them. -/
theorem throughout_foldl {A : Type} {step : Registry Layout → A → Registry Layout}
    (kept : ∀ found a, Throughout property found → Throughout property (step found a))
    (list : List A) (holds : Throughout property found) :
    Throughout property (list.foldl step found) := by
  induction list generalizing found with
  | nil => exact holds
  | cons first rest ih => exact ih (kept found first holds)

/-- The marks of the root sets leave alone what no mark touches. -/
theorem throughout_markRoots (holds : Throughout property found)
    (marked : ∀ name layout request reply, property name layout →
      property name { layout with request, reply }) :
    Throughout property (markRoots scope roots found) := by
  rw [markRoots_eq]
  refine throughout_foldl (fun found root holds => ?_) _ holds
  unfold markRoot
  split
  · exact holds
  · refine throughout_foldl (fun found attr holds => ?_) _ holds
    unfold markInside
    split
    · exact holds
    · exact throughout_update holds fun name layout => marked name layout _ _

/-- Handing marks down leaves alone what no mark touches. -/
theorem throughout_propagate (holds : Throughout property found)
    (marked : ∀ name layout request reply, property name layout →
      property name { layout with request, reply }) :
    Throughout property (propagate scope found) := by
  rw [propagate_eq]
  refine throughout_foldl (fun found outer holds => ?_) _ holds
  unfold handDown
  split
  · exact holds
  · refine throughout_foldl (fun found inner holds => ?_) _ holds
    exact throughout_update holds fun name layout => marked name layout _ _

namespace Lasting

/-- Inheriting fields keeps a lasting property. -/
theorem inherit (lasting : Lasting scope property) {name : String} {layout result : Layout}
    {fields : List String} (inherited : layout.inherit fields = .ok result)
    (holds : property name layout) : property name result := by
  obtain ⟨_, rfl⟩ := Layout.inherit_eq_ok_iff.1 inherited
  exact lasting.seeded name layout (some fields) holds

/-- Meeting an attribute keeps a lasting property. -/
theorem meet (lasting : Lasting scope property) {attr : Attribute} {before after : Progress}
    (holds : Throughout property before.found) (met : meet scope roots before attr = .ok after) :
    Throughout property after.found := by
  unfold Nesting.meet at met
  split at met
  · exact Except.ok.inj met ▸ holds
  · rename_i name _
    split at met
    · cases met
    · split at met
      · rename_i layout known
        simp only [bind_eq_ok_iff, pure_eq_ok_iff] at met
        obtain ⟨updated, inherited, rfl⟩ := met
        exact throughout_insert holds (lasting.inherit inherited (holds name layout known))
      · simp only [bind_eq_ok_iff, pure_eq_ok_iff] at met
        obtain ⟨layout, built, updated, inherited, rfl⟩ := met
        exact throughout_insert holds
          (lasting.inherit inherited (lasting.built name layout built))

/-- Meeting all attributes of a set keeps a lasting property. -/
theorem attributes (lasting : Lasting scope property) {attrs : List Attribute}
    {before after : Progress} (holds : Throughout property before.found)
    (run : attrs.foldlM (Nesting.meet scope roots) before = .ok after) :
    Throughout property after.found :=
  foldlM_preserves (fun progress : Progress => Throughout property progress.found)
    (fun _ _ _ _ holds met => lasting.meet holds met) holds run

/-- Exploring all sets keeps a lasting property. -/
theorem explore (lasting : Lasting scope property) {result : Registry Layout}
    {queue : List String} (holds : Throughout property found)
    (explored : explore scope roots found queue = .ok result) : Throughout property result :=
  explore_preserves (fun found _ => Throughout property found)
    (fun _ _ _ _ _ holds _ visited => lasting.attributes holds visited) holds explored

/-- All steps that resolve the nested sets keep what lasts. -/
theorem resolve (lasting : Lasting scope property) {nested : Registry Layout}
    (done : resolve scope roots = .ok nested) : Throughout property nested := by
  simp only [Nesting.resolve, bind_eq_ok_iff, pure_eq_ok_iff] at done
  obtain ⟨found, explored, ordered, inOrder, rfl⟩ := done
  have empty : Throughout property Registry.empty := fun name layout held => by cases held
  refine throughout_propagate (fun name layout held => ?_) lasting.marked
  exact throughout_markRoots (lasting.explore empty explored) lasting.marked name layout
    ((get?_order inOrder).1 held)

end Lasting

/-- The layout of a set has the names that the set gives it. -/
structure NamedAfter (scope : Scope) (name : String) (layout : Layout) : Prop where
  space : layout.space = name
  renderName : layout.renderName = Layout.stem scope.name name
  structName : layout.structName =
    "struct " ++ Layout.stem scope.name name ++ if scope.constants.contains name then "_" else ""

/-- Being named after its set lasts. -/
theorem lasting_namedAfter (scope : Scope) : Lasting scope (NamedAfter scope) where
  built name layout built := by
    simp only [Layout.ofSet, bind_eq_ok_iff, pure_eq_ok_iff] at built
    obtain ⟨set, _, rfl⟩ := built
    exact ⟨rfl, rfl, rfl⟩
  seeded _ _ _ named := ⟨named.space, named.renderName, named.structName⟩
  marked _ _ _ _ named := ⟨named.space, named.renderName, named.structName⟩

end Nesting

/-- An attribute names the set inside it by the rule for references. -/
def Attribute.RefersByName (familyName : String) (constants : Registry Constant)
    (attr : Attribute) : Prop :=
  ∀ nested, attr.nested = some nested →
    nested = NestedSet.named familyName constants nested.set

namespace AttributeSet

open Outcome

variable {familyName : String} {constants : Registry Constant}

/-- All attributes of a set name the sets inside them by the rule for references. -/
def RefersByName (familyName : String) (constants : Registry Constant) (set : AttributeSet) :
    Prop :=
  ∀ entry ∈ set.attrs.entries, entry.2.RefersByName familyName constants

/-- Numbered attributes refer to nested sets by name. -/
theorem refersByName_numberAttributes {setName namePrefix : String} {next : UInt32}
    {specs : List Spec.Attribute} {attrs : List Attribute}
    (done : numberAttributes familyName constants setName namePrefix next specs = .ok attrs) :
    ∀ attr ∈ attrs, attr.RefersByName familyName constants := by
  induction specs generalizing next attrs with
  | nil =>
      rw [numberAttributes, Except.ok.injEq] at done
      simp [← done]
  | cons spec rest ih =>
      simp only [numberAttributes, bind_eq_ok_iff, pure_eq_ok_iff] at done
      obtain ⟨attr, made, _, _, others, later, rfl⟩ := done
      refine List.forall_mem_cons.2 ⟨fun nested inside => ?_, ih later⟩
      unfold Attribute.ofSpec at made
      split at made
      · cases made
      · rw [← Except.ok.inj made, Option.map_eq_some_iff] at inside
        obtain ⟨set, _, rfl⟩ := inside
        rfl

/-- The attributes of a subset are those of its parent. -/
theorem mem_parent_of_inheritAttributes {parentName : String} {parent : AttributeSet}
    {specs : List Spec.Attribute} {attrs : List Attribute}
    (done : inheritAttributes parentName parent specs = .ok attrs) :
    ∀ attr ∈ attrs, ∃ entry ∈ parent.attrs.entries, entry.2 = attr := by
  intro attr member
  obtain ⟨spec, _, looked⟩ := mem_of_mapM done attr member
  split at looked
  · rename_i found held
    exact ⟨_, Registry.get?_eq_some_iff.1 held, Except.ok.inj looked⟩
  · cases looked

/-- A set is registered with the attributes that it lists. -/
theorem refersByName_of_list {attrs : List Attribute}
    (listed : ∀ attr ∈ attrs, attr.RefersByName familyName constants) :
    ∀ entry ∈ (Registry.ofList (attrs.map fun attr => (attr.name, attr))).entries,
      entry.2.RefersByName familyName constants := by
  refine Registry.forall_ofList fun entry member => ?_
  obtain ⟨attr, inside, rfl⟩ := List.mem_map.1 member
  exact listed attr inside

/-- A set refers to nested sets by name where the sets before it do. -/
theorem refersByName_ofSpec {known : Registry AttributeSet} {spec : Spec.AttributeSet}
    {set : AttributeSet}
    (before : ∀ entry ∈ known.entries, entry.2.RefersByName familyName constants)
    (done : ofSpec familyName constants known spec = .ok set) :
    set.RefersByName familyName constants := by
  unfold ofSpec at done
  dsimp only at done
  split at done
  · simp only [bind_eq_ok_iff, pure_eq_ok_iff] at done
    obtain ⟨attrs, numbered, rfl⟩ := done
    exact refersByName_of_list (refersByName_numberAttributes numbered)
  · rename_i parentName _
    split at done
    · cases done
    · rename_i parent held
      simp only [bind_eq_ok_iff, pure_eq_ok_iff] at done
      obtain ⟨attrs, inherited, rfl⟩ := done
      refine refersByName_of_list fun attr member => ?_
      obtain ⟨entry, listed, rfl⟩ := mem_parent_of_inheritAttributes inherited attr member
      exact before _ (Registry.get?_eq_some_iff.1 held) entry listed

/-- All declared sets refer to nested sets by name. -/
theorem refersByName_declare {specs : List Spec.AttributeSet} {sets : Registry AttributeSet}
    (done : declare familyName constants specs = .ok sets) :
    ∀ entry ∈ sets.entries, entry.2.RefersByName familyName constants := by
  refine foldlM_preserves (fun known : Registry AttributeSet =>
    ∀ entry ∈ known.entries, entry.2.RefersByName familyName constants)
    (fun known spec _ after before step => ?_) (by simp [Registry.empty]) done
  simp only [bind_eq_ok_iff, pure_eq_ok_iff] at step
  obtain ⟨set, made, rfl⟩ := step
  intro entry member
  rcases Entries.mem_assign member with rfl | earlier
  · exact refersByName_ofSpec before made
  · exact before entry earlier

/-- Looking definitions up changes no reference to a set. -/
theorem refersByName_resolve {set resolved : AttributeSet}
    (before : set.RefersByName familyName constants)
    (done : set.resolve constants = .ok resolved) :
    resolved.RefersByName familyName constants := by
  intro entry member
  obtain ⟨attr, listed, made⟩ := Registry.mem_of_mapM (resolve_eq_ok done).2 entry member
  simp only [Attribute.resolve, bind_eq_ok_iff, pure_eq_ok_iff] at made
  obtain ⟨_, _, _, _, same⟩ := made
  intro nested inside
  rw [← same] at inside
  exact before _ listed nested inside

end AttributeSet

namespace Family

open Nesting Outcome Relation

/-- All sets of an outline refer to nested sets by name. -/
theorem refersByName_of_outline {spec : Spec.Family} {outline : Outline}
    (begun : Outline.ofSpec spec = .ok outline) :
    ∀ entry ∈ outline.sets.entries,
      entry.2.RefersByName outline.name outline.constants := by
  obtain ⟨declared, declares, resolves⟩ := (Outline.builtFrom begun).sets
  intro entry member
  obtain ⟨set, listed, resolved⟩ := Registry.mem_of_mapM resolves entry member
  exact AttributeSet.refersByName_resolve
    (AttributeSet.refersByName_declare declares _ listed) resolved

variable {file : Spec.File} {excludes : List Pattern} {family : Family}

/-- The attributes of a family name the sets inside them by the rule for references. -/
theorem nested_eq_named (built : ofSpec file excludes = .ok family) {name : String}
    {set : AttributeSet} (held : family.sets.get? name = some set) {attr : Attribute}
    (listed : attr ∈ set.attrs.values) {nested : NestedSet} (inside : attr.nested = some nested) :
    nested = NestedSet.named family.name family.constants nested.set := by
  obtain ⟨outline, begun, same, _, _⟩ := outline_of_ofSpec built
  rw [same] at held ⊢
  obtain ⟨entry, member, rfl⟩ := List.mem_map.1 listed
  exact refersByName_of_outline begun _ (Registry.get?_eq_some_iff.1 held) entry member nested
    inside

/-- The layouts of a family have the names that their sets give them. -/
theorem namedAfter (built : ofSpec file excludes = .ok family) {name : String} {layout : Layout}
    (held : family.nestedSets.get? name = some layout) :
    NamedAfter family.toScope name layout := by
  obtain ⟨_, _, _, _, resolved⟩ := outline_of_ofSpec built
  exact (lasting_namedAfter family.toScope).resolve resolved name layout held

/-- What is inside an attribute of a root set or of a nested set is a nested set. -/
theorem exists_nestedLayout (built : ofSpec file excludes = .ok family) {outer : String}
    (used : outer ∈ family.rootSets.names ∨ outer ∈ family.nestedSets.names)
    {set : AttributeSet} (held : family.sets.get? outer = some set) {attr : Attribute}
    (listed : attr ∈ set.attrs.values) {nested : NestedSet} (inside : attr.nested = some nested) :
    ∃ layout, family.nestedSets.get? nested.set = some layout := by
  obtain ⟨_, _, _, _, resolved⟩ := outline_of_ofSpec built
  have counts : Counts family.toScope family.rootSets attr :=
    ⟨outer, set, used.imp_right (mem_names_of_resolve resolved outer).1, held, listed⟩
  have named : attr.nestedSet? = some nested.set := by rw [Attribute.nestedSet?, inside]; rfl
  exact Registry.exists_get?_of_mem
    ((mem_names_of_resolve resolved nested.set).2 (isNested_of_counts counts named))

/-- The function that releases the contents of a nested set. -/
def releaseOf (family : Family) (set : String) : C.Signature :=
  Library.releaseSignature (Subject.ofSet family set) .nest

/-- What an attribute calls the set inside it is what the definitions of that set are called: its
layout, its structure, and the function that releases it. -/
structure NamesAgree (family : Family) (nested : NestedSet) (layout : Layout) : Prop where
  renderName : nested.renderName = layout.renderName
  structType : nested.structType = layout.structName
  releaseName : (family.releaseOf nested.set).name = nested.renderName ++ "_free"
  releaseParameters : (family.releaseOf nested.set).parameters = [nested.structType ++ " *obj"]

/-- A longer stem is another one. -/
theorem stem_ne (stem rest : String) : stem ++ "_" ++ rest ≠ stem := by
  intro same
  have length := congrArg String.length same
  simp only [String.length_append] at length
  have one : "_".length = 1 := by decide
  omega

/-- The function that releases a set never leaves the name of the family out. -/
theorem name_releaseOf (family : Family) (set : String) :
    (family.releaseOf set).name = family.name ++ "_" ++ CName.lower set ++ "_free" := by
  simp [releaseOf, Library.releaseSignature, Library.releaseName, Subject.stem, Subject.ending,
    Subject.ofSet, Part.suffix]

/-- The release of a nested set takes a pointer to its structure. -/
theorem parameters_releaseOf (family : Family) (set : String) :
    (family.releaseOf set).parameters =
      ["struct " ++ (family.name ++ "_" ++ CName.lower set) ++
        (if family.constants.contains set then "_" else "") ++ " *obj"] := by
  simp only [releaseOf, Library.releaseSignature, Subject.structType, Subject.stem, Subject.ending,
    Subject.ofSet, Part.suffix, Part.parameter, String.append_empty, String.append_assoc]
  rfl

/-- For a reference and a layout that follow their rules, all names agree exactly if neither rule
makes an exception for the set. -/
theorem namesAgree_iff {family : Family} {set : String} {layout : Layout}
    (named : NamedAfter family.toScope set layout) :
    NamesAgree family (.named family.name family.constants set) layout ↔
      set ≠ family.name ∧ CName.lower set ≠ family.name := by
  constructor
  · intro agree
    have release := agree.releaseName
    rw [name_releaseOf, NestedSet.named] at release
    have apart : set ≠ family.name := by
      intro same
      rw [if_pos same] at release
      exact stem_ne _ _ (String.append_left_inj _ |>.1 release)
    refine ⟨apart, fun same => ?_⟩
    have reference := agree.renderName
    rw [named.renderName, NestedSet.named, Layout.stem, if_neg apart, if_pos same.symm] at reference
    exact stem_ne _ _ reference
  · rintro ⟨apart, lowerApart⟩
    have spelled : (NestedSet.named family.name family.constants set).renderName =
        family.name ++ "_" ++ CName.lower set := if_neg apart
    have typed : (NestedSet.named family.name family.constants set).structType =
        "struct " ++ (family.name ++ "_" ++ CName.lower set) ++
          if family.constants.contains set then "_" else "" := by
      rw [← spelled]
      rfl
    have stem : Layout.stem family.name set = family.name ++ "_" ++ CName.lower set :=
      if_neg (Ne.symm lowerApart)
    exact {
      renderName := by rw [spelled, named.renderName, stem]
      structType := by rw [typed, named.structName, stem]
      releaseName := by rw [spelled]; exact name_releaseOf family set
      releaseParameters := by rw [typed]; exact parameters_releaseOf family set }

end Family

namespace Attribute

open Outcome

/-- Whether the release of an attribute releases the contents of a nested set. -/
def releasesInside (attr : Attribute) : Bool :=
  attr.holdsNests || (!attr.isCounted && (attr.kind == .nest || attr.kind == .nestTypeValue))

/-- Apart from the memory itself, an attribute releases the set inside it by its own name for it. -/
theorem calls_free {attr : Attribute} {nested : NestedSet} (inside : attr.nested = some nested)
    {holder inner : String} {code : List C.Code} (done : attr.free holder inner = .ok code)
    (function : String) :
    (function ≠ "free" ∧ ∃ arguments, .call function arguments ∈ code) ↔
      attr.releasesInside = true ∧ function = nested.renderName ++ "_free" := by
  have differs : nested.renderName ++ "_free" ≠ "free" := by
    intro same
    have length := congrArg String.length same
    have suffix : "_free".length = 5 := by decide
    have whole : "free".length = 4 := by decide
    rw [String.length_append] at length
    omega
  have looked : attr.nestedSet = .ok nested := by rw [nestedSet, inside]
  unfold free at done
  unfold releasesInside
  by_cases loop : attr.holdsNests = true
  · simp only [if_pos loop, looked, bind_eq_ok_iff, pure_eq_ok_iff, Except.ok.injEq,
      exists_eq_left'] at done
    subst done
    simp only [List.mem_cons, reduceCtorEq, C.Code.call.injEq, false_or, List.not_mem_nil, or_false,
      loop, Bool.true_or, true_and]
    constructor
    · rintro ⟨notFree, _, ⟨same, _⟩ | ⟨same, _⟩⟩
      · exact same
      · exact absurd same notFree
    · rintro rfl
      exact ⟨differs, _, .inl ⟨rfl, rfl⟩⟩
  · by_cases counted : attr.isCounted = true
    · simp only [if_neg loop, if_pos counted, Except.ok.injEq] at done
      subst done
      simp [loop, counted]
    · simp only [if_neg loop, if_neg counted] at done
      cases kind : attr.kind with
      | nest | nestTypeValue =>
          simp only [kind, looked, bind_eq_ok_iff, pure_eq_ok_iff, Except.ok.injEq,
            exists_eq_left'] at done
          subst done
          simp only [List.mem_singleton, C.Code.call.injEq, counted, loop]
          constructor
          · rintro ⟨_, _, same, _⟩
            exact ⟨rfl, same⟩
          · rintro ⟨_, rfl⟩
            exact ⟨differs, _, rfl, rfl⟩
      | _ =>
          simp only [kind, Except.ok.injEq] at done
          subst done
          simp [loop, counted]

end Attribute

namespace Family

open Nesting Outcome

variable {file : Spec.File} {excludes : List Pattern} {family : Family}

/-- The release of a set is one function, under the name of the family and the set. -/
theorem exists_release {set : String} {layout : Layout} {declarations : List Declaration}
    (rendered : Library.release family (.ofSet family set) .nest layout = .ok declarations) :
    ∃ body, declarations = [.function (family.releaseOf set) body, .space] := by
  simp only [Library.release, bind_eq_ok_iff, pure_eq_ok_iff] at rendered
  obtain ⟨members, _, rfl⟩ := rendered
  exact ⟨_, rfl⟩

/-- What an attribute of a root set or of a nested set has inside is a nested set. The attribute
releases it by its own name for it, and the function that is defined has a name of its own. The
names for the set agree exactly if it is not named like the family, neither as it is written nor in
lower case. -/
theorem namesAgree_nested_iff (built : ofSpec file excludes = .ok family) {outer : String}
    (used : outer ∈ family.rootSets.names ∨ outer ∈ family.nestedSets.names)
    {set : AttributeSet} (held : family.sets.get? outer = some set) {attr : Attribute}
    (listed : attr ∈ set.attrs.values) {nested : NestedSet} (inside : attr.nested = some nested) :
    ∃ layout, family.nestedSets.get? nested.set = some layout ∧
      (∀ holder inner code, attr.free holder inner = .ok code → ∀ function,
        (function ≠ "free" ∧ ∃ arguments, .call function arguments ∈ code) ↔
          attr.releasesInside = true ∧ function = nested.renderName ++ "_free") ∧
      (∀ declarations,
        Library.release family (.ofSet family nested.set) .nest layout = .ok declarations →
          ∃ body, declarations = [.function (family.releaseOf nested.set) body, .space]) ∧
      (NamesAgree family nested layout ↔
        nested.set ≠ family.name ∧ CName.lower nested.set ≠ family.name) := by
  obtain ⟨layout, found⟩ := exists_nestedLayout built used held listed inside
  refine ⟨layout, found, fun holder inner code done => Attribute.calls_free inside done,
    fun declarations => exists_release, ?_⟩
  rw [nested_eq_named built held listed inside]
  exact namesAgree_iff (namedAfter built found)

/-- A root set around a nested set of the given name, in a family `f`. -/
def around (inner : String) : Spec.File where
  license := Spec.acceptedLicense
  family :=
    { name := "f"
      attributeSets :=
        [{ name := "dev"
           attributes :=
            [{ name := "in", kind := some "nest", nestedAttributes := some inner }] },
         { name := inner, attributes := [{ name := "x", kind := some "u8" }] }]
      operations :=
        { list :=
            [{ name := "get"
               attributeSet := some "dev"
               doMode := some { reply := some { attributes := ["in"] } } }] } }

/-- The family around a set of another name can be built. -/
theorem isSome_ofSpec_around_addr : (ofSpec (around "addr") []).toOption.isSome = true := by
  decide +kernel

/-- The family around a set of its own name can be built. -/
theorem isSome_ofSpec_around_f : (ofSpec (around "f") []).toOption.isSome = true := by
  decide +kernel

/-- The family that nests a set of another name. -/
def aroundAddr : Family :=
  (ofSpec (around "addr") []).toOption.get isSome_ofSpec_around_addr

/-- A family with a nested set of its own name. -/
def aroundF : Family :=
  (ofSpec (around "f") []).toOption.get isSome_ofSpec_around_f

/-- What an attribute has inside. -/
def inside? (family : Family) (outer attr : String) : Option NestedSet := do
  let set ← family.sets.get? outer
  let attr ← set.attrs.get? attr
  attr.nested

/-- What is found inside a set is nested by one of its attributes. -/
theorem exists_of_inside? {outer name : String} {nested : NestedSet}
    (found : family.inside? outer name = some nested) :
    ∃ set attr, family.sets.get? outer = some set ∧ attr ∈ set.attrs.values ∧
      attr.nested = some nested := by
  simp only [inside?, bind, Option.bind_eq_some_iff] at found
  obtain ⟨set, held, attr, listed, inside⟩ := found
  exact ⟨set, attr, held, Registry.mem_values_of_get? listed, inside⟩

/-- The names for a set with a name of its own agree. -/
theorem namesAgree_nested_iff_addr :
    ofSpec (around "addr") [] = .ok aroundAddr ∧ "dev" ∈ aroundAddr.rootSets.names ∧
      ∃ nested layout, aroundAddr.inside? "dev" "in" = some nested ∧
        aroundAddr.nestedSets.get? "addr" = some layout ∧
        NamesAgree aroundAddr nested layout := by
  have built : ofSpec (around "addr") [] = .ok aroundAddr := eq_ok_get isSome_ofSpec_around_addr
  have root : "dev" ∈ aroundAddr.rootSets.names := by decide +kernel
  have found : aroundAddr.inside? "dev" "in" = some ⟨"addr", "f_addr", "struct f_addr"⟩ := by
    decide +kernel
  obtain ⟨set, attr, held, listed, inside⟩ := exists_of_inside? found
  obtain ⟨layout, layoutHeld, _, _, agree⟩ :=
    namesAgree_nested_iff built (.inl root) held listed inside
  have apart : "addr" ≠ aroundAddr.name ∧ CName.lower "addr" ≠ aroundAddr.name := by
    decide +kernel
  exact ⟨built, root, _, layout, found, layoutHeld, agree.2 apart⟩

/-- The names for a set that is called like the family disagree: `f_free` is called, and `f_f_free`
is defined. -/
theorem not_forall_namesAgree :
    ¬∀ (file : Spec.File) (excludes : List Pattern) (family : Family),
      ofSpec file excludes = .ok family → ∀ outer set attr nested,
        outer ∈ family.rootSets.names ∨ outer ∈ family.nestedSets.names →
        family.sets.get? outer = some set → attr ∈ set.attrs.values →
        attr.nested = some nested →
          ∃ layout, family.nestedSets.get? nested.set = some layout ∧
            NamesAgree family nested layout := by
  intro always
  have built : ofSpec (around "f") [] = .ok aroundF := eq_ok_get isSome_ofSpec_around_f
  have root : "dev" ∈ aroundF.rootSets.names := by decide +kernel
  have found : aroundF.inside? "dev" "in" = some ⟨"f", "f", "struct f"⟩ := by decide +kernel
  obtain ⟨set, attr, held, listed, inside⟩ := exists_of_inside? found
  obtain ⟨layout, _, agree⟩ := always _ _ _ built "dev" set attr _ (.inl root) held listed inside
  have defined : (aroundF.releaseOf "f").name = "f_f_free" := by decide +kernel
  have called := agree.releaseName
  rw [defined] at called
  exact absurd called (by decide)

end Family

end NetlinkFamily
