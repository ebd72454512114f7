import NetlinkFamily.Proofs.Model.Lookups
import NetlinkFamily.Proofs.Nesting.Ordering
import NetlinkFamily.Proofs.Nesting.Searching

namespace NetlinkFamily

open Outcome

/-- Whether a failure is about how sets are nested. -/
def ModelError.concernsNesting : ModelError → Bool
  | rootAndNested _ | inheritanceConflict _ _ _ | nestedCycle _ => true
  | _ => false

/-- If there is no result, then not because of how sets are nested. -/
abbrev SparesNesting {A : Type} (outcome : Except ModelError A) : Prop :=
  FailsWith (fun error => error.concernsNesting = false) outcome

/-- A reference that dangles does not concern nesting. -/
theorem ModelError.concernsNesting_of_isDangling {error : ModelError}
    (dangling : error.isDangling = true) : error.concernsNesting = false := by
  cases error <;> first | rfl | cases dangling

/-- What fails for its references alone spares nesting. -/
theorem SparesNesting.of_onlyDangles {A : Type} {outcome : Except ModelError A}
    (dangles : OnlyDangles outcome) : SparesNesting outcome :=
  dangles.imp fun _ => ModelError.concernsNesting_of_isDangling

/-- Counting on spares nesting. -/
theorem sparesNesting_nextNumber (value : UInt32) : SparesNesting (nextNumber value) := by
  unfold nextNumber
  split
  · exact .ok _
  · exact .error rfl

/-- Building an attribute spares nesting. -/
theorem Attribute.sparesNesting_ofSpec (familyName : String) (constants : Registry Constant)
    (setName setPrefix : String) (spec : Spec.Attribute) (value : UInt32) :
    SparesNesting (ofSpec familyName constants setName setPrefix spec value) := by
  unfold ofSpec
  split
  · exact .error rfl
  · exact .ok _

namespace AttributeSet

variable (familyName : String) (constants : Registry Constant)

/-- Numbering attributes spares nesting. -/
theorem sparesNesting_numberAttributes (setName namePrefix : String) (next : UInt32)
    (specs : List Spec.Attribute) :
    SparesNesting (numberAttributes familyName constants setName namePrefix next specs) := by
  induction specs generalizing next with
  | nil => exact .ok _
  | cons spec rest ih =>
      refine (Attribute.sparesNesting_ofSpec _ _ _ _ _ _).bind fun _ _ => ?_
      exact (sparesNesting_nextNumber _).bind fun after _ => (ih after).bind fun _ _ => .ok _

/-- Declaring sets spares nesting. -/
theorem sparesNesting_declare (specs : List Spec.AttributeSet) :
    SparesNesting (declare familyName constants specs) := by
  refine .foldlM (fun known spec _ => FailsWith.bind ?_ fun _ _ => .ok _) _
  unfold ofSpec
  dsimp only
  split
  · exact (sparesNesting_numberAttributes familyName constants _ _ _ _).bind fun _ _ => .ok _
  · split
    · exact .error rfl
    · exact (SparesNesting.of_onlyDangles (onlyDangles_inheritAttributes _ _ _)).bind
        fun _ _ => .ok _

end AttributeSet

namespace Operation

variable (familyName : String)

/-- Numbering operations with one count spares nesting. -/
theorem sparesNesting_numberUnified (next : UInt32) (specs : List Spec.Operation) :
    SparesNesting (numberUnified familyName next specs) := by
  induction specs generalizing next with
  | nil => exact .ok _
  | cons spec rest ih =>
      exact (sparesNesting_nextNumber _).bind fun after _ => (ih after).bind fun _ _ => .ok _

/-- Numbering operations by direction spares nesting. -/
theorem sparesNesting_numberDirectional (nextRequest nextReply : UInt32)
    (specs : List Spec.Operation) :
    SparesNesting (numberDirectional familyName nextRequest nextReply specs) := by
  induction specs generalizing nextRequest nextReply with
  | nil => exact .ok _
  | cons spec rest ih =>
      rw [numberDirectional]
      split
      · exact (sparesNesting_nextNumber _).bind fun after _ =>
          (ih nextRequest after).bind fun _ _ => .ok _
      · split
        · exact .error rfl
        · rename_i mode _
          refine (sparesNesting_nextNumber _).bind fun afterRequest _ => ?_
          dsimp only
          split
          · exact (sparesNesting_nextNumber _).bind fun afterReply _ =>
              (ih afterRequest afterReply).bind fun _ _ => .ok _
          · exact (ih afterRequest _).bind fun _ _ => .ok _

/-- Declaring operations spares nesting. -/
theorem sparesNesting_declare (spec : Spec.Operations) :
    SparesNesting (declare familyName spec) := by
  unfold declare
  dsimp only
  split
  · exact (sparesNesting_numberUnified familyName _ _).bind fun _ _ => .ok _
  · exact (sparesNesting_numberDirectional familyName _ _ _).bind fun _ _ => .ok _

end Operation

namespace Nesting

variable {scope : Scope} {roots : Registry RootSet} {error : ModelError}

/-- Why an attribute cannot be followed: the set inside it is a root set, or it is not declared, or
other fields have been handed down to it before. -/
inductive Refuses (roots : Registry RootSet) (found : Registry Layout) (attr : Attribute) :
    ModelError → Prop where
  | root {name : String} (named : attr.nestedSet? = some name) :
      Refuses roots found attr (.rootAndNested name)
  | undeclared {name : String} (named : attr.nestedSet? = some name) :
      Refuses roots found attr (.unknownAttributeSet name)
  | conflict {name : String} {layout : Layout} {existing : List String}
      (named : attr.nestedSet? = some name) (held : found.get? name = some layout)
      (seed : layout.seed = some existing) (differs : existing ≠ attr.inheritedFields) :
      Refuses roots found attr (.inheritanceConflict layout.space existing attr.inheritedFields)

/-- Inheriting fails where other fields were inherited before. -/
theorem inherit_eq_error {layout : Layout} {fields : List String}
    (failed : layout.inherit fields = .error error) :
    ∃ existing, layout.seed = some existing ∧ existing ≠ fields ∧
      error = .inheritanceConflict layout.space existing fields := by
  unfold Layout.inherit at failed
  split at failed
  · cases failed
  · rename_i existing seed
    split at failed
    · cases failed
    · rename_i differs
      exact ⟨existing, seed, differs, (Except.error.inj failed).symm⟩

/-- Looking a set up fails where it is unknown. -/
theorem attributeSet_eq_error {name : String} (failed : scope.attributeSet name = .error error) :
    error = .unknownAttributeSet name := by
  unfold Scope.attributeSet at failed
  split at failed
  · cases failed
  · exact (Except.error.inj failed).symm

/-- Laying a set out fails where it is unknown. -/
theorem layout_eq_error {name : String} (failed : Layout.ofSet scope name = .error error) :
    error = .unknownAttributeSet name := by
  rw [Layout.ofSet, bind_pure_eq_error_iff] at failed
  exact attributeSet_eq_error failed

/-- Meeting an attribute fails for a reason to refuse it. -/
theorem refuses_of_meet {attr : Attribute} {progress : Progress}
    (failed : meet scope roots progress attr = .error error) :
    Refuses roots progress.found attr error := by
  unfold meet at failed
  split at failed
  · cases failed
  · rename_i name named
    split at failed
    · exact Except.error.inj failed ▸ .root named
    · split at failed
      · rename_i layout held
        rw [bind_pure_eq_error_iff] at failed
        obtain ⟨existing, seed, differs, rfl⟩ := inherit_eq_error failed
        exact .conflict named held seed differs
      · rw [bind_eq_error_iff] at failed
        simp only [bind_pure_eq_error_iff] at failed
        rcases failed with undeclared | ⟨layout, built, failed⟩
        · exact layout_eq_error undeclared ▸ .undeclared named
        · -- A new layout takes any fields over.
          obtain ⟨existing, seed, _⟩ := inherit_eq_error failed
          rw [Layout.seed_ofSet built] at seed
          cases seed

/-- A search that fails has come to a set that is not declared or that it cannot visit. Up to there
every visit has kept what holds between the steps. -/
theorem exists_failure_of_explore (holds : Registry Layout → List String → Prop)
    (step : ∀ found name rest set progress, holds found (name :: rest) →
      scope.attributeSet name = .ok set → visit scope roots found set = .ok progress →
        holds progress.found (rest ++ progress.fresh))
    {found : Registry Layout} {queue : List String} (first : holds found queue)
    (failed : explore scope roots found queue = .error error) :
    ∃ found name rest, holds found (name :: rest) ∧
      (scope.attributeSet name = .error error ∨
        ∃ set, scope.attributeSet name = .ok set ∧ visit scope roots found set = .error error) := by
  induction found, queue using explore.induct scope roots with
  | case1 found =>
      rw [explore] at failed
      cases failed
  | case2 found name rest other undeclared =>
      rw [explore_cons, undeclared] at failed
      obtain rfl := Except.error.inj failed
      exact ⟨found, name, rest, first, .inl undeclared⟩
  | case3 found name rest set declared other refused =>
      rw [explore_cons, declared] at failed
      simp only [bind, Except.bind, refused] at failed
      obtain rfl := Except.error.inj failed
      exact ⟨found, name, rest, first, .inr ⟨set, declared, refused⟩⟩
  | case4 found name rest set declared progress visited ih =>
      rw [explore_cons, declared] at failed
      simp only [bind, Except.bind, visited] at failed
      exact ih (step found name rest set progress first declared visited) failed

/-- The search fails at a set that is not declared or at an attribute that it cannot follow. -/
theorem refuses_of_explore {found : Registry Layout} {queue : List String}
    (failed : explore scope roots found queue = .error error) :
    (∃ name, error = .unknownAttributeSet name) ∨
      ∃ layouts attr, Refuses roots layouts attr error := by
  obtain ⟨_, name, _, _, undeclared | ⟨_, _, refused⟩⟩ :=
    exists_failure_of_explore (fun _ _ => True) (fun _ _ _ _ _ _ _ _ => trivial) trivial failed
  · exact .inl ⟨name, attributeSet_eq_error undeclared⟩
  · obtain ⟨_, attr, _, progress, _, _, refused⟩ := exists_failure_of_foldlM refused
    exact .inr ⟨progress.found, attr, refuses_of_meet refused⟩

/-- The search never reports a cycle. -/
theorem explore_ne_nestedCycle {found : Registry Layout} {queue names : List String} :
    explore scope roots found queue ≠ .error (.nestedCycle names) := by
  intro failed
  obtain ⟨_, same⟩ | ⟨_, _, refuses⟩ := refuses_of_explore failed
  · cases same
  · cases refuses

/-- Finding and ordering nested sets takes no numbers. -/
theorem resolve_ne_numberingOverflow : resolve scope roots ≠ .error .numberingOverflow := by
  intro failed
  rw [resolve, bind_eq_error_iff] at failed
  simp only [bind_pure_eq_error_iff] at failed
  rcases failed with failed | ⟨_, _, failed⟩
  · obtain ⟨_, same⟩ | ⟨_, _, refuses⟩ := refuses_of_explore failed
    · cases same
    · cases refuses
  · obtain ⟨_, same⟩ := order_eq_error failed
    cases same

/-- A cycle is reported by the ordering, once all nested sets are found. -/
theorem order_of_resolve_eq_nestedCycle {names : List String}
    (failed : resolve scope roots = .error (.nestedCycle names)) :
    ∃ found, explore scope roots Registry.empty roots.names = .ok found ∧
      order scope (markRoots scope roots found) = .error (.nestedCycle names) := by
  rw [resolve, bind_eq_error_iff] at failed
  simp only [bind_pure_eq_error_iff] at failed
  rcases failed with failed | done
  · exact absurd failed explore_ne_nestedCycle
  · exact done

end Nesting

namespace Family

/-- Nothing that comes before the nested sets fails because of them. -/
theorem Outline.sparesNesting_ofSpec (spec : Spec.Family) :
    SparesNesting (Outline.ofSpec spec) := by
  unfold Outline.ofSpec
  refine (AttributeSet.sparesNesting_declare _ _ _).bind fun declared _ => ?_
  refine (Operation.sparesNesting_declare _ _).bind fun numbered _ => ?_
  dsimp only
  split
  · exact .error rfl
  · refine (SparesNesting.of_onlyDangles
      (Registry.failsWith_mapM (AttributeSet.onlyDangles_resolve _) _)).bind fun sets _ => ?_
    refine (SparesNesting.of_onlyDangles (onlyDangles_resolveMessages _ _ _ _)).bind
      fun messages _ => ?_
    exact (SparesNesting.of_onlyDangles (RootSet.onlyDangles_collect _ _)).bind fun _ _ => .ok _

/-- A failure that is about nested sets comes from resolving them. -/
theorem ofSpec_eq_error_iff {error : ModelError} (nesting : error.concernsNesting = true)
    (file : Spec.File) (excludes : List Pattern) :
    ofSpec file excludes = .error error ↔
      ∃ outline, Outline.ofSpec file.family = .ok outline ∧
        Nesting.resolve outline.toScope outline.rootSets = .error error := by
  have elsewhere {A : Type} {outcome : Except ModelError A} (spares : SparesNesting outcome) :
      outcome ≠ .error error := fun failed => by
    rw [spares error failed] at nesting
    cases nesting
  rw [ofSpec, bind_eq_error_iff]
  constructor
  · rintro (failed | ⟨outline, begun, failed⟩)
    · exact absurd failed (elsewhere (Outline.sparesNesting_ofSpec file.family))
    · rcases bind_eq_error_iff.1 failed with failed | ⟨_, _, failed⟩
      · exact ⟨outline, begun, failed⟩
      · have failed := bind_pure_eq_error_iff.1 failed
        exact absurd failed (elsewhere (failsWith_globalPolicyOf
        (fun _ => ModelError.concernsNesting_of_isDangling) rfl _ _ _))
  · rintro ⟨outline, begun, failed⟩
    exact .inr ⟨outline, begun, bind_eq_error_iff.2 (.inl failed)⟩

end Family

end NetlinkFamily
