import NetlinkFamily.Proofs.Nesting.BreadthFirst
import NetlinkFamily.Proofs.Nesting.Naming
import NetlinkFamily.Proofs.Nesting.Usage

namespace NetlinkFamily

namespace Nesting

open Outcome

variable {scope : Scope} {roots : Registry RootSet} {nested : Registry Layout}

/-- The layout of a set has the fields that each attribute around it hands down. -/
theorem seed_of_counts (done : resolve scope roots = .ok nested) {attr : Attribute}
    (counts : Counts scope roots attr) {name : String} (named : attr.nestedSet? = some name)
    {layout : Layout} (held : nested.get? name = some layout) :
    layout.seed = some attr.inheritedFields := by
  simp only [resolve, bind_eq_ok_iff, pure_eq_ok_iff] at done
  obtain ⟨found, explored, ordered, inOrder, rfl⟩ := done
  have search := search_of_explore (search_start scope roots) explored
  obtain ⟨outer, set, used, declared, listed⟩ := counts
  obtain ⟨_, same, inside⟩ :=
    search.visited_of_used (used.imp_right (search.mem_names_iff outer).2)
  rw [declared] at same
  cases same
  obtain ⟨start, found_, seed⟩ := inside attr listed name named
  have seeded : Throughout
      (fun other layout => other = name → layout.seed = some attr.inheritedFields) found := by
    rintro _ other looked rfl
    rw [found_] at looked
    exact Option.some.inj looked ▸ seed
  have marked : ∀ other (layout : Layout) (request reply : Bool),
      (other = name → layout.seed = some attr.inheritedFields) → other = name →
        ({ layout with request, reply } : Layout).seed = some attr.inheritedFields :=
    fun _ _ _ _ kept => kept
  refine throughout_propagate (fun other layout looked => ?_) marked name layout held rfl
  exact throughout_markRoots seeded marked other layout ((get?_order inOrder).1 looked)

/-- Two attributes of root sets or nested sets that hand different fields down to one set. In
breadth-first order, the first of them is the first attribute at all that refers to this set, and
up to the second one all attributes around the set agree with it. -/
structure FirstConflict (scope : Scope) (roots : Registry RootSet) (name : String)
    (existing new : List String) (before : List Attribute) (first : Attribute)
    (between : List Attribute) (second : Attribute) : Prop where
  order : ∃ depth, before ++ first :: (between ++ [second]) <+:
    (breadthFirst scope roots depth).flatMap scope.attributesIn
  counts : Counts scope roots first ∧ Counts scope roots second
  unmet : ∀ attr ∈ before, attr.nestedSet? ≠ some name
  first : first.nestedSet? = some name ∧ first.inheritedFields = existing
  agreed : ∀ attr ∈ between, attr.nestedSet? = some name → attr.inheritedFields = existing
  second : second.nestedSet? = some name ∧ second.inheritedFields = new
  differs : existing ≠ new

/-- Attributes met breadth first count. -/
theorem counts_of_mem_breadthFirst {depth : Nat} {attr : Attribute}
    (member : attr ∈ (breadthFirst scope roots depth).flatMap scope.attributesIn) :
    Counts scope roots attr := by
  obtain ⟨outer, listed, inside⟩ := List.mem_flatMap.1 member
  unfold Scope.attributesIn at inside
  split at inside
  · rename_i set declared
    exact ⟨outer, set, (exists_mem_breadthFirst_iff outer).1 ⟨depth, listed⟩, declared, inside⟩
  · cases inside

/-- Among attributes that have been followed, the first one that refers to a set decides which
fields are recorded for it. -/
theorem exists_first_of_seeded {attrs : List Attribute} {found : Registry Layout} {name : String}
    {fields : List String}
    (seeded : ∀ other, Seeded found name other ↔
      ∃ attr ∈ attrs, attr.nestedSet? = some name ∧ attr.inheritedFields = other)
    (held : Seeded found name fields) :
    ∃ before first after, attrs = before ++ first :: after ∧ first.nestedSet? = some name ∧
      (∀ attr ∈ before, attr.nestedSet? ≠ some name) ∧
      ∀ attr ∈ attrs, attr.nestedSet? = some name → attr.inheritedFields = fields := by
  have agreed : ∀ attr ∈ attrs, attr.nestedSet? = some name → attr.inheritedFields = fields :=
    fun attr listed named => seeded_unique ((seeded _).2 ⟨attr, listed, named, rfl⟩) held
  obtain ⟨attr, listed, named, _⟩ := (seeded fields).1 held
  cases found : attrs.find? fun attr => attr.nestedSet? = some name with
  | none => simpa [named] using List.find?_eq_none.1 found attr listed
  | some first =>
      obtain ⟨here, before, after, split, earlier⟩ := List.find?_eq_some_iff_append.1 found
      refine ⟨before, first, after, split, of_decide_eq_true here, fun attr member => ?_, agreed⟩
      simpa using earlier attr member

/-- A search that ends with a conflict has followed all attributes up to it, in order. -/
theorem firstConflict_of_explore {name : String} {existing new : List String}
    (failed : explore scope roots Registry.empty roots.names =
      .error (.inheritanceConflict name existing new)) :
    ∃ before first between second,
      FirstConflict scope roots name existing new before first between second := by
  have empty : Throughout (NamedAfter scope) Registry.empty := fun _ _ held => by cases held
  have lasting := lasting_namedAfter scope
  obtain ⟨found, outer, rest, ⟨⟨visited, walked⟩, named⟩, failed⟩ := exists_failure_of_explore
    (fun found queue =>
      (∃ visited, Walked scope roots visited found queue) ∧ Throughout (NamedAfter scope) found)
    (fun found outer rest set progress ⟨⟨visited, walked⟩, named⟩ declared done =>
      ⟨⟨_, walked.visit (Scope.attributeSet_eq_ok_iff.1 declared) done⟩,
        lasting.attributes named done⟩)
    ⟨⟨[], walked_start scope roots⟩, empty⟩ failed
  rcases failed with undeclared | ⟨set, declared, failed⟩
  · cases attributeSet_eq_error undeclared
  · obtain ⟨front, second, after, progress, split, run, refused⟩ := exists_failure_of_foldlM failed
    have attrs := Scope.attributesIn_of_get? (Scope.attributeSet_eq_ok_iff.1 declared)
    have met := meets_of_foldlM run
    generalize reported : ModelError.inheritanceConflict name existing new = error at refused
    cases refuses_of_meet refused with
    | root _ => cases reported
    | undeclared _ => cases reported
    | @conflict inner layout handed refers held seed differs =>
        obtain ⟨rfl, rfl, rfl⟩ := ModelError.inheritanceConflict.inj reported
        have space := (lasting.attributes named run inner layout held).space
        rw [space]
        -- What has been recorded comes from the attributes that have been followed up to here.
        have seeded (fields : List String) : Seeded progress.found inner fields ↔
            ∃ attr ∈ visited.flatMap scope.attributesIn ++ front,
              attr.nestedSet? = some inner ∧ attr.inheritedFields = fields := by
          rw [met.seeded, walked.seeded]
          simp only [List.mem_append, or_and_right, exists_or]
        obtain ⟨before, first, between, followed, firstRefers, unmet, agreed⟩ :=
          exists_first_of_seeded seeded ⟨layout, held, seed⟩
        obtain ⟨depth, reached⟩ := walked.reached
        have order : before ++ first :: (between ++ [second]) <+:
            (breadthFirst scope roots depth).flatMap scope.attributesIn := by
          obtain ⟨others, same⟩ := reached
          refine ⟨after ++ rest.flatMap scope.attributesIn ++ others.flatMap scope.attributesIn, ?_⟩
          rw [← same, List.flatMap_append, List.flatMap_append, List.flatMap_cons, attrs, split]
          simpa using (congrArg (· ++ second :: (after ++ (rest.flatMap scope.attributesIn ++
            others.flatMap scope.attributesIn))) followed).symm
        have listed (attr : Attribute) (member : attr ∈ before ++ first :: (between ++ [second])) :
            Counts scope roots attr :=
          counts_of_mem_breadthFirst (order.subset member)
        refine ⟨before, first, between, second, ⟨depth, order⟩, ⟨listed first (by simp),
          listed second (by simp)⟩, unmet, ⟨firstRefers, agreed first ?_ firstRefers⟩,
          fun attr member => agreed attr ?_, ⟨refers, rfl⟩, differs⟩
        · simp [followed]
        · simp [followed, member]

/-- No other step reports a conflict. -/
theorem explore_of_resolve_eq_conflict {name : String} {existing new : List String}
    (failed : resolve scope roots = .error (.inheritanceConflict name existing new)) :
    explore scope roots Registry.empty roots.names =
      .error (.inheritanceConflict name existing new) := by
  rw [resolve, bind_eq_error_iff] at failed
  simp only [bind_pure_eq_error_iff] at failed
  rcases failed with failed | ⟨_, _, failed⟩
  · exact failed
  · obtain ⟨_, other⟩ := order_eq_error failed
    cases other

end Nesting

namespace Family

open Nesting Outcome

/-- A nested set takes over the fields that each attribute around it hands down, and so all of them
hand down the same ones. If a conflict is reported, it is about two attributes that do not: the
first one of all that refer to the set, in breadth-first order, and the first one that differs from
it. -/
theorem inherited_consistent (file : Spec.File) (excludes : List Pattern) :
    (∀ family, ofSpec file excludes = .ok family →
      ∀ attr name, Counts family.toScope family.rootSets attr → attr.nestedSet? = some name →
        ∃ layout, family.nestedSets.get? name = some layout ∧
          layout.inherited = attr.inheritedFields.map CName.lower) ∧
    (∀ name existing new,
      ofSpec file excludes = .error (.inheritanceConflict name existing new) →
        ∃ outline, Outline.ofSpec file.family = .ok outline ∧ ∃ before first between second,
          FirstConflict outline.toScope outline.rootSets name existing new
            before first between second) := by
  constructor
  · intro family built attr name counts named
    obtain ⟨_, _, _, _, resolved⟩ := outline_of_ofSpec built
    obtain ⟨layout, held⟩ := Registry.exists_get?_of_mem
      ((mem_names_of_resolve resolved name).2 (isNested_of_counts counts named))
    have seed := seed_of_counts resolved counts named held
    exact ⟨layout, held, by rw [Layout.inherited, seed, Option.getD_some]⟩
  · intro name existing new failed
    obtain ⟨outline, begun, failed⟩ := (ofSpec_eq_error_iff rfl file excludes).1 failed
    exact ⟨outline, begun, firstConflict_of_explore (explore_of_resolve_eq_conflict failed)⟩

/-- An attribute around the entries of something: of a list, or of what a field identifies. -/
def entries (name : String) : Option String → Spec.Attribute
  | none => { name, kind := some "array-nest", nestedAttributes := some "entry" }
  | some field =>
      { name
        kind := some "nest-type-value"
        nestedAttributes := some "entry"
        typeValue := some [field] }

/-- Two attributes around the same entries, the second one further inside. -/
def twofold (outer inner : Option String) : Spec.File where
  license := Spec.acceptedLicense
  family :=
    { name := "f"
      attributeSets :=
        [{ name := "f"
           attributes :=
            [{ name := "below", kind := some "nest", nestedAttributes := some "below" },
             entries "outer" outer] },
         { name := "below", attributes := [entries "inner" inner] },
         { name := "entry", attributes := [{ name := "x", kind := some "u8" }] }]
      operations := { list := [{ name := "get", attributeSet := some "f" }] } }

theorem isSome_ofSpec_twofold :
    (ofSpec (twofold (some "Level-Id") (some "Level-Id")) []).toOption.isSome = true := by
  decide +kernel

/-- The family with two references of one inherited list. -/
def twofoldFamily : Family :=
  (ofSpec (twofold (some "Level-Id") (some "Level-Id")) []).toOption.get isSome_ofSpec_twofold

/-- Both attributes hand a field down. If the outer one is a list instead, then its index is what
the inner one differs from. -/
theorem inherited_consistent_twofold :
    (∃ layout, twofoldFamily.nestedSets.get? "entry" = some layout ∧
      layout.inherited = ["level_id"]) ∧
    ∃ outline, Outline.ofSpec (twofold none (some "Level-Id")).family = .ok outline ∧
      ∃ before first between second,
        FirstConflict outline.toScope outline.rootSets "entry" ["idx"] ["Level-Id"]
          before first between second := by
  constructor
  · have built : ofSpec (twofold (some "Level-Id") (some "Level-Id")) [] = .ok twofoldFamily :=
      eq_ok_get isSome_ofSpec_twofold
    have around : ∃ attr ∈ (breadthFirst twofoldFamily.toScope twofoldFamily.rootSets 0).flatMap
        twofoldFamily.attributesIn,
        attr.nestedSet? = some "entry" ∧ attr.inheritedFields = ["Level-Id"] := by decide +kernel
    obtain ⟨attr, member, named, fields⟩ := around
    obtain ⟨layout, held, inherited⟩ := (inherited_consistent _ []).1 _ built attr "entry"
      (counts_of_mem_breadthFirst member) named
    refine ⟨layout, held, ?_⟩
    rw [inherited, fields]
    decide +kernel
  · have failed : ofSpec (twofold none (some "Level-Id")) [] =
        .error (.inheritanceConflict "entry" ["idx"] ["Level-Id"]) :=
      error?_eq_some_iff.1 (by decide +kernel)
    exact (inherited_consistent (twofold none (some "Level-Id")) []).2 _ _ _ failed

end Family

end NetlinkFamily
