import NetlinkFamily.Model.Family
import NetlinkFamily.Proofs.Outcome

namespace NetlinkFamily

open Outcome

/-- If there is no result, then because of a name that leads nowhere. -/
abbrev OnlyDangles {A : Type} (outcome : Except ModelError A) : Prop :=
  FailsWith (fun error => error.isDangling = true) outcome

/-- A registry fails with what each of its values fails with. -/
theorem Registry.failsWith_mapM {A B E : Type} {allowed : E → Prop} {f : A → Except E B}
    (each : ∀ a, FailsWith allowed (f a)) (registry : Registry A) :
    FailsWith allowed (registry.mapM f) := by
  intro error failed
  obtain ⟨value, _, refused⟩ := exists_error_of_mapM failed
  exact each value error refused

/-- Looking a set up fails for the reference alone. -/
theorem Scope.onlyDangles_attributeSet (scope : Scope) (name : String) :
    OnlyDangles (scope.attributeSet name) := by
  unfold attributeSet
  split
  · exact .ok _
  · exact .error rfl

/-- Looking an enumeration up fails for the reference alone. -/
theorem Constant.onlyDangles_lookupEnum (constants : Registry Constant) (name : String) :
    OnlyDangles (lookupEnum constants name) := by
  unfold lookupEnum
  split
  · exact .ok _
  · exact .error rfl
  · exact .error rfl

/-- Resolving an attribute fails for its references alone. -/
theorem Attribute.onlyDangles_resolve (constants : Registry Constant) (attr : Attribute) :
    OnlyDangles (attr.resolve constants) := by
  have looked (name : Option String) : OnlyDangles (name.mapM (Constant.lookupEnum constants)) :=
    .mapM_option (Constant.onlyDangles_lookupEnum constants) name
  exact (looked _).bind fun _ _ => (looked _).bind fun _ _ => .ok _

namespace AttributeSet

/-- Inheriting attributes fails for their references alone. -/
theorem onlyDangles_inheritAttributes (parentName : String) (parent : AttributeSet)
    (specs : List Spec.Attribute) :
    OnlyDangles (inheritAttributes parentName parent specs) := by
  refine .mapM fun spec _ => ?_
  split
  · exact .ok _
  · exact .error rfl

/-- Resolving a set fails for its references alone. -/
theorem onlyDangles_resolve (constants : Registry Constant) (set : AttributeSet) :
    OnlyDangles (set.resolve constants) := by
  unfold resolve
  split
  · rename_i error refused
    exact .error
      (Registry.failsWith_mapM (Attribute.onlyDangles_resolve constants) _ error refused)
  · exact .ok _

/-- Looking an attribute up fails for the reference alone. -/
theorem onlyDangles_find (set : AttributeSet) (name : String) : OnlyDangles (set.find name) := by
  unfold find
  split
  · exact .ok _
  · exact .error rfl

end AttributeSet

/-- Collecting root sets fails for their references alone. -/
theorem RootSet.onlyDangles_collect (scope : Scope) (operations : List Operation) :
    OnlyDangles (collect scope operations) := by
  refine .foldlM (fun roots operation _ => ?_) _
  unfold addOperation
  split
  · exact .ok _
  · split
    · exact .ok _
    · exact (scope.onlyDangles_attributeSet _).bind fun set _ =>
        FailsWith.bind (.mapM fun name _ => set.onlyDangles_find name) fun _ _ => .ok _

namespace Family

/-- Resolving messages fails for their references alone. -/
theorem onlyDangles_resolveMessages (scope : Scope) (namePrefix asyncPrefix : String)
    (messages : Registry Operation) :
    OnlyDangles (resolveMessages scope namePrefix asyncPrefix messages) := by
  refine (Registry.failsWith_mapM (fun operation => FailsWith.bind ?set fun _ _ => .ok _) _).bind
    fun _ _ => FailsWith.bind ?targets fun _ _ => .ok _
  case set =>
    unfold operationSet
    split
    · exact (scope.onlyDangles_attributeSet _).bind fun _ _ => .ok _
    · split
      · exact .error rfl
      · split
        · exact .error rfl
        · exact .ok _
    · split
      · exact .ok _
      · exact .error rfl
  case targets =>
    unfold checkTargets
    refine FailsWith.bind (.forIn (fun operation _ _ => ?_) _) fun _ _ => .ok _
    split
    · exact .ok _
    · split
      · exact .ok _
      · exact .error rfl

/-- A global policy also fails for operations that use different sets. -/
theorem failsWith_globalPolicyOf {allowed : ModelError → Prop}
    (dangling : ∀ error, error.isDangling = true → allowed error)
    (different : allowed .globalPolicySets) (policy : Spec.KernelPolicy) (scope : Scope)
    (operations : List Operation) :
    FailsWith allowed (globalPolicyOf policy scope operations) := by
  unfold globalPolicyOf shareGlobalPolicy
  split
  · split
    · exact .ok _
    · split
      · exact ((scope.onlyDangles_attributeSet _).imp dangling).bind fun _ _ => .ok _
      · exact .error different
  · exact .ok _

end Family

end NetlinkFamily
