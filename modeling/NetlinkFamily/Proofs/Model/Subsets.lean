import Mathlib.Logic.Relation
import NetlinkFamily.Proofs.Model.Selection

namespace NetlinkFamily

open Outcome

/-- A set of the scope that was declared as a subset of the one named `parent`. -/
def Scope.IsSubset (scope : Scope) (child parent : String) : Prop :=
  ∃ set, scope.sets.get? child = some set ∧ set.subsetOf = some parent

/-- Every subset has a parent that holds all of its attributes. -/
def Inherits (sets : Registry AttributeSet) : Prop :=
  ∀ name set parent, sets.get? name = some set → set.subsetOf = some parent →
    ∃ whole, sets.get? parent = some whole ∧ set.attrs.values ⊆ whole.attrs.values

/-- A set that is no subset, with all attributes of another set and the same bound. -/
structure AttributeSet.IsBase (whole set : AttributeSet) : Prop where
  top : whole.subsetOf = none
  maxName : whole.maxName = set.maxName
  attrs : set.attrs.values ⊆ whole.attrs.values

/-- Every set has a base. -/
def Based (sets : Registry AttributeSet) : Prop :=
  ∀ name set, sets.get? name = some set →
    ∃ root whole, sets.get? root = some whole ∧ whole.IsBase set

namespace AttributeSet

variable {familyName : String} {constants : Registry Constant} {known sets : Registry AttributeSet}
  {spec : Spec.AttributeSet} {set : AttributeSet}

/-- A set has the name of its description. -/
theorem name_of_ofSpec (done : ofSpec familyName constants known spec = .ok set) :
    set.name = spec.name := by
  unfold ofSpec at done
  cases parent : spec.subsetOf with
  | none =>
      simp only [parent, bind_eq_ok_iff, pure_eq_ok_iff] at done
      obtain ⟨_, _, rfl⟩ := done
      rfl
  | some parentName =>
      simp only [parent] at done
      cases held : known.get? parentName with
      | none => simp [held] at done
      | some whole =>
          simp only [held, bind_eq_ok_iff, pure_eq_ok_iff] at done
          obtain ⟨_, _, rfl⟩ := done
          rfl

/-- The attributes of a subset are looked up in its parent, and its bound is that of the parent. -/
theorem subset_of_ofSpec (done : ofSpec familyName constants known spec = .ok set)
    {parent : String} (below : set.subsetOf = some parent) :
    ∃ whole, known.get? parent = some whole ∧ whole.maxName = set.maxName ∧
      set.attrs.values ⊆ whole.attrs.values := by
  unfold ofSpec at done
  cases named : spec.subsetOf with
  | none =>
      simp only [named, bind_eq_ok_iff, pure_eq_ok_iff] at done
      obtain ⟨_, _, rfl⟩ := done
      cases below
  | some parentName =>
      simp only [named] at done
      cases held : known.get? parentName with
      | none => simp [held] at done
      | some whole =>
          simp only [held, bind_eq_ok_iff, pure_eq_ok_iff] at done
          obtain ⟨attrs, inherited, rfl⟩ := done
          obtain rfl : parentName = parent := Option.some.inj below
          refine ⟨whole, held, rfl, fun attr listed => ?_⟩
          have inside : ∀ attr ∈ attrs, attr ∈ whole.attrs.values := by
            intro attr member
            obtain ⟨given, _, found⟩ := mem_of_mapM inherited attr member
            split at found
            · rename_i looked
              exact Except.ok.inj found ▸ Registry.mem_values_of_get? looked
            · cases found
          have all : ∀ entry ∈ (Registry.ofList (attrs.map fun attr => (attr.name, attr))).entries,
              entry.2 ∈ whole.attrs.values := by
            refine Registry.forall_ofList fun entry member => ?_
            obtain ⟨attr, among, rfl⟩ := List.mem_map.1 member
            exact inside attr among
          obtain ⟨entry, member, rfl⟩ := List.mem_map.1 listed
          exact all entry member

/-- A new set does not stand in the way of those before it. -/
theorem get?_insert_of_fresh (done : ofSpec familyName constants known spec = .ok set)
    (fresh : known.get? spec.name = none) {other : String} {whole : AttributeSet}
    (held : known.get? other = some whole) :
    (known.insert set.name set).get? other = some whole := by
  rw [Registry.get?_insert, if_neg, held]
  rintro rfl
  rw [name_of_ofSpec done, fresh] at held
  cases held

/-- Sets still inherit when one that does is added. -/
theorem inherits_insert (inherits : Inherits known)
    (done : ofSpec familyName constants known spec = .ok set)
    (fresh : known.get? spec.name = none) : Inherits (known.insert set.name set) := by
  intro name found parent held below
  rw [Registry.get?_insert] at held
  split at held
  · obtain rfl := Option.some.inj held
    obtain ⟨whole, looked, _, inside⟩ := subset_of_ofSpec done below
    exact ⟨whole, get?_insert_of_fresh done fresh looked, inside⟩
  · obtain ⟨whole, looked, inside⟩ := inherits name found parent held below
    exact ⟨whole, get?_insert_of_fresh done fresh looked, inside⟩

/-- The base of a new subset is that of its parent. -/
theorem based_insert (based : Based known)
    (done : ofSpec familyName constants known spec = .ok set)
    (fresh : known.get? spec.name = none) : Based (known.insert set.name set) := by
  intro name found held
  rw [Registry.get?_insert] at held
  split at held
  · obtain rfl := Option.some.inj held
    cases below : set.subsetOf with
    | none =>
        refine ⟨set.name, set, ?_, ⟨below, rfl, List.Subset.refl _⟩⟩
        rw [Registry.get?_insert, if_pos rfl]
    | some parent =>
        obtain ⟨whole, looked, sameBound, inside⟩ := subset_of_ofSpec done below
        obtain ⟨root, base, found, isBase⟩ := based parent whole looked
        exact ⟨root, base, get?_insert_of_fresh done fresh found,
          ⟨isBase.top, isBase.maxName.trans sameBound, List.Subset.trans inside isBase.attrs⟩⟩
  · obtain ⟨root, base, found, isBase⟩ := based name found held
    exact ⟨root, base, get?_insert_of_fresh done fresh found, isBase⟩

/-- Sets of distinct names are declared one by one, each as a new one. -/
theorem declare_induction {specs : List Spec.AttributeSet}
    (distinct : (specs.map Spec.AttributeSet.name).Nodup)
    (declared : declare familyName constants specs = .ok sets)
    {holds : Registry AttributeSet → Prop} (empty : holds Registry.empty)
    (insert : ∀ {known spec set}, holds known → ofSpec familyName constants known spec = .ok set →
      known.get? spec.name = none → holds (known.insert set.name set)) : holds sets := by
  suffices general : ∀ (specs : List Spec.AttributeSet) (known : Registry AttributeSet),
      (specs.map Spec.AttributeSet.name).Nodup → (∀ spec ∈ specs, known.get? spec.name = none) →
      holds known → ∀ sets, specs.foldlM (fun known spec => do
        let set ← ofSpec familyName constants known spec
        return known.insert set.name set) known = .ok sets → holds sets from
    general specs Registry.empty distinct (fun _ _ => rfl) empty sets declared
  intro specs
  induction specs with
  | nil =>
      intro known _ _ before sets done
      rw [List.foldlM_nil, pure_eq_ok_iff] at done
      exact done ▸ before
  | cons spec rest ih =>
      intro known distinct fresh before sets done
      rw [List.map_cons, List.nodup_cons] at distinct
      obtain ⟨here, later⟩ := List.forall_mem_cons.1 fresh
      simp only [List.foldlM_cons, bind_eq_ok_iff, pure_eq_ok_iff] at done
      obtain ⟨_, ⟨set, built, rfl⟩, done⟩ := done
      refine ih _ distinct.2 (fun other member => ?_) (insert before built here) sets done
      rw [Registry.get?_insert, name_of_ofSpec built, if_neg, later other member]
      exact fun same => distinct.1 (same ▸ List.mem_map_of_mem member)

/-- Resolving keeps the name of the maximum. -/
theorem maxName_of_resolve {resolved : AttributeSet}
    (done : set.resolve constants = .ok resolved) : resolved.maxName = set.maxName := by
  unfold resolve at done
  split at done
  · cases done
  · rw [← Except.ok.inj done]

/-- One attribute has one resolution, in whichever set it is listed. -/
theorem subset_of_resolve {part whole part' whole' : AttributeSet}
    (inside : part.attrs.values ⊆ whole.attrs.values)
    (partDone : part.resolve constants = .ok part')
    (wholeDone : whole.resolve constants = .ok whole') :
    part'.attrs.values ⊆ whole'.attrs.values := by
  have parts := (Registry.alike_mapM (resolve_eq_ok partDone).2).values
  have wholes := (Registry.alike_mapM (resolve_eq_ok wholeDone).2).values
  intro attr listed
  obtain ⟨source, member, resolved⟩ := exists_of_forall₂ parts attr listed
  obtain ⟨other, among, same⟩ := exists_of_forall₂ wholes.flip source (inside member)
  obtain rfl : attr = other := Except.ok.inj (resolved.symm.trans same)
  exact among

/-- Looking up references keeps all subsets below their parents. -/
theorem inherits_of_resolve (inherits : Inherits known)
    (done : known.mapM (resolve constants) = .ok sets) : Inherits sets := by
  have alike := Registry.alike_mapM done
  intro name found parent held below
  obtain ⟨set, before, resolved⟩ := alike.exists_lookup held
  rw [(resolve_eq_ok resolved).1] at below
  obtain ⟨whole, looked, inside⟩ := inherits name set parent before below
  obtain ⟨other, after, also⟩ := alike.flip.exists_lookup looked
  exact ⟨other, after, subset_of_resolve inside resolved also⟩

/-- Looking up references keeps all sets on their bases. -/
theorem based_of_resolve (based : Based known)
    (done : known.mapM (resolve constants) = .ok sets) : Based sets := by
  have alike := Registry.alike_mapM done
  intro name found held
  obtain ⟨set, before, resolved⟩ := alike.exists_lookup held
  obtain ⟨root, base, looked, isBase⟩ := based name set before
  obtain ⟨whole, after, also⟩ := alike.flip.exists_lookup looked
  refine ⟨root, whole, after, (resolve_eq_ok also).1.trans isBase.top, ?_,
    subset_of_resolve isBase.attrs resolved also⟩
  rw [maxName_of_resolve also, maxName_of_resolve resolved, isBase.maxName]

end AttributeSet

namespace Family

variable {file : Spec.File} {excludes : List Pattern} {family : Family}

/-- The sets of a family inherit from their parents. -/
theorem inherits_of_ofSpec (built : ofSpec file excludes = .ok family)
    (distinct : (file.family.attributeSets.map Spec.AttributeSet.name).Nodup) :
    Inherits family.sets := by
  obtain ⟨outline, begun, same, _, _⟩ := outline_of_ofSpec built
  obtain ⟨declared, declares, resolves⟩ := (Outline.builtFrom begun).sets
  rw [congrArg Scope.sets same]
  refine AttributeSet.inherits_of_resolve ?_ resolves
  exact AttributeSet.declare_induction distinct declares (fun _ _ _ held => nomatch held)
    AttributeSet.inherits_insert

/-- The sets of a family are based on their parents. -/
theorem based_of_ofSpec (built : ofSpec file excludes = .ok family)
    (distinct : (file.family.attributeSets.map Spec.AttributeSet.name).Nodup) :
    Based family.sets := by
  obtain ⟨outline, begun, same, _, _⟩ := outline_of_ofSpec built
  obtain ⟨declared, declares, resolves⟩ := (Outline.builtFrom begun).sets
  rw [congrArg Scope.sets same]
  refine AttributeSet.based_of_resolve ?_ resolves
  exact AttributeSet.declare_induction distinct declares (fun _ _ held => nomatch held)
    AttributeSet.based_insert

/-- A set that comes from another one by taking subsets holds some of its attributes. -/
theorem exists_whole (inherits : Inherits family.sets) {child parent : String}
    (below : Relation.TransGen family.IsSubset child parent) :
    ∃ part whole, family.sets.get? child = some part ∧ family.sets.get? parent = some whole ∧
      part.attrs.values ⊆ whole.attrs.values := by
  induction below with
  | single step =>
      obtain ⟨set, held, named⟩ := step
      obtain ⟨whole, looked, inside⟩ := inherits _ set _ held named
      exact ⟨set, whole, held, looked, inside⟩
  | tail _ step ih =>
      obtain ⟨part, middle, held, between, within⟩ := ih
      obtain ⟨set, again, named⟩ := step
      obtain rfl : middle = set := Option.some.inj (between.symm.trans again)
      obtain ⟨whole, looked, inside⟩ := inherits _ middle _ between named
      exact ⟨part, whole, held, looked, fun _ listed => inside (within listed)⟩

end Family

end NetlinkFamily
