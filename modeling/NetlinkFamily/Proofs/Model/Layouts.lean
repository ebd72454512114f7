import NetlinkFamily.Proofs.Nesting.Naming

namespace NetlinkFamily

/-- A set lists its attributes under their own names. -/
theorem AttributeSet.names_eq (set : AttributeSet) :
    set.attrs.names = set.attrs.values.map Attribute.name := by
  rw [Registry.values, List.map_map]
  exact List.map_congr_left set.named

namespace Layout

open Outcome

/-- The last one of the attributes with the greatest number. -/
structure IsGreatest (attrs : List Attribute) (last : Attribute) : Prop where
  split : ∃ before after, attrs = before ++ last :: after ∧
    (∀ attr ∈ before, attr.value ≤ last.value) ∧ ∀ attr ∈ after, attr.value < last.value

/-- The greatest of a longer list is the last one unless another is greater. -/
theorem greatest_concat (attrs : List Attribute) (attr : Attribute) :
    greatest (attrs ++ [attr]) =
      match greatest attrs with
      | none => some attr
      | some other => if other.value ≤ attr.value then some attr else some other :=
  List.foldl_append

/-- By induction from the last attribute on, which wins unless an earlier one has a greater
number. -/
theorem isGreatest_of_greatest {attrs : List Attribute} {last : Attribute}
    (best : greatest attrs = some last) : IsGreatest attrs last := by
  induction attrs using List.reverseRecOn generalizing last with
  | nil => cases best
  | append_singleton attrs attr ih =>
      rw [greatest_concat] at best
      cases found : greatest attrs with
      | none =>
          rw [found] at best
          obtain rfl := Option.some.inj best
          have empty : attrs = [] := by
            cases attrs using List.reverseRecOn with
            | nil => rfl
            | append_singleton front other =>
                rw [greatest_concat] at found
                split at found
                · cases found
                · split at found <;> cases found
          subst empty
          exact ⟨[], [], rfl, by simp, by simp⟩
      | some other =>
          obtain ⟨before, after, rfl, first, second⟩ := ih found
          rw [found] at best
          dsimp only at best
          split at best
          · rename_i least
            obtain rfl := Option.some.inj best
            refine ⟨before ++ other :: after, [], rfl, ?_, by simp⟩
            intro earlier member
            rcases List.mem_append.1 member with inFront | behind
            · exact UInt32.le_trans (first earlier inFront) least
            · rcases List.mem_cons.1 behind with rfl | behind
              · exact least
              · exact UInt32.le_trans (UInt32.le_of_lt (second earlier behind)) least
          · rename_i less
            obtain rfl := Option.some.inj best
            refine ⟨before, after ++ [attr], by simp, first, ?_⟩
            intro later member
            rcases List.mem_append.1 member with behind | final
            · exact second later behind
            · rw [List.mem_singleton.1 final]
              exact UInt32.not_le.1 less

/-- The greatest attribute is one of the list. -/
theorem IsGreatest.mem {attrs : List Attribute} {last : Attribute}
    (greatest : IsGreatest attrs last) : last ∈ attrs := by
  obtain ⟨before, after, rfl, _⟩ := greatest.split
  simp

/-- No attribute of the list has a greater value. -/
theorem IsGreatest.le {attrs : List Attribute} {last : Attribute}
    (greatest : IsGreatest attrs last) {attr : Attribute} (listed : attr ∈ attrs) :
    attr.value ≤ last.value := by
  obtain ⟨before, after, rfl, first, second⟩ := greatest.split
  rcases List.mem_append.1 listed with inFront | behind
  · exact first attr inFront
  · rcases List.mem_cons.1 behind with rfl | behind
    · exact UInt32.le_refl _
    · exact UInt32.le_of_lt (second attr behind)

/-- A layout of the given attributes of a set. -/
structure Holds (scope : Scope) (layout : Layout) (set : AttributeSet) (attrs : List Attribute) :
    Prop where
  declared : scope.sets.get? layout.space = some set
  listed : ∀ attr ∈ attrs, attr ∈ set.attrs.values
  members : layout.members = attrs.map Attribute.name
  maxMember : layout.maxMember = (greatest attrs).map Attribute.name

variable {scope : Scope} {layout : Layout} {set : AttributeSet} {attrs : List Attribute}

/-- A layout has the attributes it holds. -/
theorem Holds.attributes (holds : layout.Holds scope set attrs) :
    layout.attributes scope = attrs := by
  have same : ∀ attr ∈ attrs, set.attrs.get? attr.name = some attr := fun _ listed =>
    AttributeSet.get?_name (holds.listed _ listed)
  rw [Layout.attributes, holds.declared, holds.members]
  dsimp only
  rw [List.filterMap_map]
  exact (List.filterMap_congr same).trans List.filterMap_some

/-- The greatest attribute is looked up by its name. -/
theorem Holds.maxAttribute (holds : layout.Holds scope set attrs) :
    layout.maxAttribute scope = greatest attrs := by
  cases best : greatest attrs with
  | none => simp [Layout.maxAttribute, holds.maxMember, best]
  | some last =>
      have inside := holds.listed last (isGreatest_of_greatest best).mem
      simp [Layout.maxAttribute, holds.maxMember, best, holds.declared,
        AttributeSet.get?_name inside]

/-- The layout of a list holds the listed attributes. -/
theorem exists_holds_of_ofList {space : String} {members : List String}
    (made : ofList scope space members = .ok layout) :
    ∃ set attrs, layout.Holds scope set attrs := by
  simp only [ofList, bind_eq_ok_iff, pure_eq_ok_iff, Scope.attributeSet_eq_ok_iff] at made
  obtain ⟨set, declared, attrs, found, rfl⟩ := made
  have each : List.Forall₂ (fun name attr => attr.name = name ∧ attr ∈ set.attrs.values)
      members attrs := by
    refine (mapM_eq_ok_iff.1 found).imp fun name attr looked => ?_
    unfold AttributeSet.find at looked
    split at looked
    · rename_i held
      exact Except.ok.inj looked ▸ AttributeSet.name_of_get? held
    · cases looked
  refine ⟨set, attrs, declared, fun attr member => ?_, ?_, rfl⟩
  · obtain ⟨_, _, _, inside⟩ := exists_of_forall₂ each attr member
    exact inside
  · show members = attrs.map Attribute.name
    clear found
    induction each with
    | nil => rfl
    | cons here _ ih => rw [List.map_cons, here.1, ← ih]

end Layout

namespace Nesting

open Outcome

/-- The layout of a set holds all of its attributes. -/
def HoldsAll (scope : Scope) (name : String) (layout : Layout) : Prop :=
  layout.space = name ∧ ∃ set, layout.Holds scope set set.attrs.values

/-- Holding all attributes lasts. -/
theorem lasting_holdsAll (scope : Scope) : Lasting scope (HoldsAll scope) where
  built name layout built := by
    simp only [Layout.ofSet, bind_eq_ok_iff, pure_eq_ok_iff, Scope.attributeSet_eq_ok_iff] at built
    obtain ⟨set, declared, rfl⟩ := built
    exact ⟨rfl, set, declared, fun _ => id, set.names_eq, rfl⟩
  seeded name layout seed holds := by
    obtain ⟨space, set, holds⟩ := holds
    exact ⟨space, set, holds.declared, holds.listed, holds.members, holds.maxMember⟩
  marked name layout request reply holds := by
    obtain ⟨space, set, holds⟩ := holds
    exact ⟨space, set, holds.declared, holds.listed, holds.members, holds.maxMember⟩

end Nesting

namespace Family

variable {file : Spec.File} {excludes : List Pattern} {family : Family}

/-- The layout of a nested set holds all attributes of the set. -/
theorem holdsAll (built : ofSpec file excludes = .ok family) {name : String} {layout : Layout}
    (held : family.nestedSets.get? name = some layout) :
    ∃ set, family.sets.get? name = some set ∧
      layout.Holds family.toScope set set.attrs.values := by
  obtain ⟨_, _, _, _, resolved⟩ := outline_of_ofSpec built
  obtain ⟨space, set, holds⟩ :=
    (Nesting.lasting_holdsAll family.toScope).resolve resolved name layout held
  exact ⟨set, space ▸ holds.declared, holds⟩

end Family

end NetlinkFamily
