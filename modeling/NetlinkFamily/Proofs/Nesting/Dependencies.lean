import NetlinkFamily.Proofs.Nesting.Failure

namespace NetlinkFamily

namespace Nesting

open Relation

variable {scope : Scope} {roots : Registry RootSet} {nested : Registry Layout}

/-- The resolved nested sets are exactly those that references lead to from the root sets. -/
theorem mem_names_of_resolve (done : resolve scope roots = .ok nested) (name : String) :
    name ∈ nested.names ↔ IsNested scope roots name := by
  obtain ⟨found, explored, kept, _⟩ := resolve_inOrder done
  have search := search_of_explore (search_start scope roots) explored
  rw [kept.mem_iff, search.mem_names_iff]

/-- Inherited lists are consistent where nested sets are resolved. -/
theorem consistent_of_resolve (done : resolve scope roots = .ok nested) :
    Consistent scope roots := by
  obtain ⟨found, explored, _⟩ := resolve_inOrder done
  exact (exists_explore_iff scope roots).1 ⟨found, explored⟩

/-- Nested sets come first, each behind the sets inside it, and root sets behind all of them. -/
theorem inOrder_of_resolve (done : resolve scope roots = .ok nested) :
    InOrder scope.references (nested.names ++ roots.names) := by
  obtain ⟨found, explored, kept, inOrder⟩ := resolve_inOrder done
  have search := search_of_explore (search_start scope roots) explored
  refine inOrder.append fun root member inner refers => ?_
  exact kept.mem_iff.2 (search.closed (.inl member) inner refers)

/-- If all checks of the search hold, a cycle is the only reason for nested sets not to be
resolved. -/
theorem exists_resolve_iff (consistent : Consistent scope roots) :
    (∃ nested, resolve scope roots = .ok nested) ↔
      ∀ name, IsNested scope roots name → ¬TransGen scope.Refers name name := by
  obtain ⟨found, explored⟩ := (exists_explore_iff scope roots).2 consistent
  have search := search_of_explore (search_start scope roots) explored
  constructor
  · rintro ⟨nested, done⟩ name isNested
    obtain ⟨_, _, _, inOrder⟩ := resolve_inOrder done
    exact acyclic_of_inOrder inOrder name ((mem_names_of_resolve done name).2 isNested)
  · intro acyclic
    refine exists_resolve explored (fun name listed => ?_) fun name listed => ?_
    · exact acyclic name (search.nested name listed)
    · exact search.closed (.inr listed)

end Nesting

/-- Looking definitions up changes the attributes of a set and nothing else. -/
theorem AttributeSet.resolve_eq_ok {constants : Registry Constant} {set resolved : AttributeSet}
    (done : set.resolve constants = .ok resolved) :
    resolved.subsetOf = set.subsetOf ∧
      set.attrs.mapM (Attribute.resolve constants) = .ok resolved.attrs := by
  unfold resolve at done
  split at done
  · cases done
  · rename_i attrs same
    obtain rfl := Except.ok.inj done
    exact ⟨rfl, same⟩

namespace Family

open Nesting Outcome Relation

/-- A family keeps its outline and the nested sets that are resolved from it. -/
theorem outline_of_ofSpec {file : Spec.File} {excludes : List Pattern} {family : Family}
    (built : ofSpec file excludes = .ok family) :
    ∃ outline, Outline.ofSpec file.family = .ok outline ∧ family.toScope = outline.toScope ∧
      family.rootSets = outline.rootSets ∧
      Nesting.resolve family.toScope family.rootSets = .ok family.nestedSets := by
  simp only [ofSpec, bind_eq_ok_iff, pure_eq_ok_iff] at built
  obtain ⟨outline, begun, nested, resolved, _, _, rfl⟩ := built
  exact ⟨outline, begun, rfl, rfl, resolved⟩

/-- A cycle is reported exactly if the nested sets of the outline have one. -/
theorem ofSpec_eq_nestedCycle_iff {file : Spec.File} {excludes : List Pattern} {outline : Outline}
    (begun : Outline.ofSpec file.family = .ok outline) {names : List String} :
    ofSpec file excludes = .error (.nestedCycle names) ↔
      Nesting.resolve outline.toScope outline.rootSets = .error (.nestedCycle names) := by
  rw [ofSpec_eq_error_iff rfl, begun]
  simp

/-- The nested sets of a family are exactly those that one or more references lead to from its root
sets. They are no root sets, and every set stands behind the sets inside it, root sets included.
Once all other checks have passed, a family is refused for a cycle exactly if a nested set reaches
itself, and its nested sets are resolved otherwise. -/
theorem nestedSets_inOrder (file : Spec.File) (excludes : List Pattern) :
    (∀ family, ofSpec file excludes = .ok family →
      (∀ name, name ∈ family.nestedSets.names ↔ IsNested family.toScope family.rootSets name) ∧
      (∀ name ∈ family.nestedSets.names, name ∉ family.rootSets.names) ∧
      InOrder family.references (family.nestedSets.names ++ family.rootSets.names)) ∧
    (∀ outline, Outline.ofSpec file.family = .ok outline →
      Consistent outline.toScope outline.rootSets →
        ((∃ names, ofSpec file excludes = .error (.nestedCycle names)) ↔
          ∃ name, IsNested outline.toScope outline.rootSets name ∧
            TransGen outline.Refers name name) ∧
        ((∀ name, IsNested outline.toScope outline.rootSets name →
            ¬TransGen outline.Refers name name) →
          ∃ nested, Nesting.resolve outline.toScope outline.rootSets = .ok nested)) := by
  constructor
  · intro family built
    obtain ⟨_, _, _, _, resolved⟩ := outline_of_ofSpec built
    have members := mem_names_of_resolve resolved
    refine ⟨members, fun name listed => ?_, inOrder_of_resolve resolved⟩
    exact (consistent_of_resolve resolved).apart name ((members name).1 listed)
  · intro outline begun consistent
    have acyclic := exists_resolve_iff consistent
    refine ⟨?_, acyclic.2⟩
    simp only [ofSpec_eq_nestedCycle_iff begun]
    constructor
    · rintro ⟨names, failed⟩
      by_contra none
      simp only [not_exists, not_and] at none
      obtain ⟨nested, done⟩ := acyclic.2 none
      rw [done] at failed
      cases failed
    · rintro ⟨name, isNested, cycle⟩
      cases resolved : Nesting.resolve outline.toScope outline.rootSets with
      | ok nested => exact absurd cycle (acyclic.1 ⟨nested, resolved⟩ name isNested)
      | error error =>
          obtain ⟨found, explored⟩ := (exists_explore_iff _ _).2 consistent
          obtain ⟨names, rfl⟩ := resolve_eq_error explored resolved
          exact ⟨names, rfl⟩

/-- A root set around two nested sets, the inner of which may refer back to the outer one. -/
def chain (back : Bool) : Spec.File where
  license := Spec.acceptedLicense
  family :=
    { name := "f"
      attributeSets :=
        [{ name := "f"
           attributes :=
            [{ name := "out", kind := some "nest", nestedAttributes := some "outer" }] },
         { name := "outer"
           attributes :=
            [{ name := "in", kind := some "nest", nestedAttributes := some "inner" }] },
         { name := "inner"
           attributes :=
            [{ name := "next"
               kind := some "nest"
               nestedAttributes := if back then some "outer" else none }] }]
      operations := { list := [{ name := "get", attributeSet := some "f" }] } }

/-- The family without a cycle can be built. -/
theorem isSome_ofSpec_chain : (ofSpec (chain false) []).toOption.isSome = true := by
  decide +kernel

/-- The family whose inner set does not refer back. -/
def chainFamily : Family :=
  (ofSpec (chain false) []).toOption.get isSome_ofSpec_chain

/-- The family whose inner set refers back has an outline. -/
theorem isSome_outline_chain : (Outline.ofSpec (chain true).family).toOption.isSome = true := by
  decide +kernel

/-- The outline of a chain whose ends meet. -/
def loopOutline : Outline :=
  (Outline.ofSpec (chain true).family).toOption.get isSome_outline_chain

/-- The inner set of a chain stands first. A chain whose ends meet is refused. -/
theorem nestedSets_inOrder_chain :
    (ofSpec (chain false) [] = .ok chainFamily ∧
      InOrder chainFamily.references ["inner", "outer", "f"]) ∧
    ∃ names, ofSpec (chain true) [] = .error (.nestedCycle names) := by
  constructor
  · have built : ofSpec (chain false) [] = .ok chainFamily := eq_ok_get isSome_ofSpec_chain
    have listed : chainFamily.nestedSets.names ++ chainFamily.rootSets.names =
        ["inner", "outer", "f"] := by decide +kernel
    have inOrder := ((nestedSets_inOrder (chain false) []).1 _ built).2.2
    rw [listed] at inOrder
    exact ⟨built, inOrder⟩
  · have begun : Outline.ofSpec (chain true).family = .ok loopOutline :=
      eq_ok_get isSome_outline_chain
    have explored : (explore loopOutline.toScope loopOutline.rootSets Registry.empty
        loopOutline.rootSets.names).toOption.isSome = true := by decide +kernel
    have consistent := (exists_explore_iff _ _).1 ⟨_, eq_ok_get explored⟩
    have root : "f" ∈ loopOutline.rootSets.names := by decide +kernel
    have first : loopOutline.Refers "f" "outer" :=
      show "outer" ∈ loopOutline.references "f" by decide +kernel
    have down : loopOutline.Refers "outer" "inner" :=
      show "inner" ∈ loopOutline.references "outer" by decide +kernel
    have up : loopOutline.Refers "inner" "outer" :=
      show "outer" ∈ loopOutline.references "inner" by decide +kernel
    refine ((nestedSets_inOrder (chain true) []).2 _ begun consistent).1.2 ?_
    exact ⟨"outer", ⟨"f", root, .single first⟩, .tail (.single down) up⟩

end Family

end NetlinkFamily
