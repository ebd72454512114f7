import NetlinkFamily.Proofs.Model.RootSets
import NetlinkFamily.Proofs.Nesting.Dependencies

namespace NetlinkFamily

/-- Whether the layout is part of messages of a direction. -/
def Layout.isUsed (layout : Layout) : Direction → Bool
  | .request => layout.request
  | .reply => layout.reply

namespace Nesting

open Outcome Relation RootSet

/-- A set is found, and messages of a direction contain it. -/
def Used (found : Registry Layout) (direction : Direction) (name : String) : Prop :=
  ∃ layout, found.get? name = some layout ∧ layout.isUsed direction = true

/-- One root set marks a set if an attribute that its messages carry in this direction refers to
it. -/
def MarkedBy (scope : Scope) (root : String × RootSet) (direction : Direction) (name : String) :
    Prop :=
  ∃ set, scope.sets.get? root.1 = some set ∧ ∃ attr ∈ set.attrs.values,
    attr.name ∈ root.2.used direction ∧ attr.nestedSet? = some name

/-- A nested set that a root set marks as used in a direction. -/
def Marked (scope : Scope) (roots : Registry RootSet) (direction : Direction) (name : String) :
    Prop :=
  ∃ root ∈ roots.entries, MarkedBy scope root direction name

variable {scope : Scope} {roots : Registry RootSet} {found : Registry Layout}
  {direction : Direction}

/-- A set that is used was found. -/
theorem mem_names_of_used {name : String} (used : Used found direction name) :
    name ∈ found.names := by
  obtain ⟨layout, held, _⟩ := used
  exact Registry.mem_names_of_get? held

/-- New marks for one set are added to those that it has. -/
theorem used_update (found : Registry Layout) (name other : String) (request reply : Bool) :
    Used (found.update name fun layout =>
        { layout with request := layout.request || request, reply := layout.reply || reply })
        direction other ↔
      Used found direction other ∨ other ∈ found.names ∧ other = name ∧
        (match direction with | .request => request | .reply => reply) = true := by
  unfold Used
  rw [Registry.get?_update, Registry.mem_names_iff, Registry.contains]
  cases found.get? other with
  | none => simp
  | some layout =>
      by_cases same : other = name
      · cases direction <;> simp [same, Layout.isUsed]
      · simp [same]

/-- If each step adds its own marks to the sets that are there, then a run adds those of all
steps. -/
theorem used_foldl {A : Type} {step : Registry Layout → A → Registry Layout}
    (marks : A → Direction → String → Prop)
    (names : ∀ found a, (step found a).names = found.names)
    (adds : ∀ found a direction name, Used (step found a) direction name ↔
      Used found direction name ∨ name ∈ found.names ∧ marks a direction name)
    (list : List A) (found : Registry Layout) (name : String) :
    Used (list.foldl step found) direction name ↔
      Used found direction name ∨
        name ∈ found.names ∧ ∃ a ∈ list, marks a direction name := by
  induction list generalizing found with
  | nil => simp
  | cons first rest ih =>
      rw [List.foldl_cons, ih, adds, names, List.exists_mem_cons_iff]
      tauto

/-- An attribute marks the set it nests where it is used itself. -/
theorem used_markInside (usage : RootSet) (attr : Attribute) (found : Registry Layout)
    (name : String) :
    Used (markInside usage found attr) direction name ↔ Used found direction name ∨
      name ∈ found.names ∧ attr.name ∈ usage.used direction ∧ attr.nestedSet? = some name := by
  unfold markInside
  cases attr.nestedSet? with
  | none => simp
  | some inner =>
      rw [used_update]
      cases direction <;> simp [used, eq_comm, and_comm]

/-- A root set marks the sets nested in its attributes. -/
theorem used_markRoot (scope : Scope) (root : String × RootSet) (found : Registry Layout)
    (name : String) :
    Used (markRoot scope found root) direction name ↔
      Used found direction name ∨ name ∈ found.names ∧ MarkedBy scope root direction name := by
  unfold markRoot MarkedBy
  cases scope.sets.get? root.1 with
  | none => simp
  | some set =>
      simp only [Option.some.injEq, exists_eq_left']
      exact used_foldl
        (fun (attr : Attribute) direction name =>
          attr.name ∈ root.2.used direction ∧ attr.nestedSet? = some name)
        (fun _ attr => names_markInside root.2 attr)
        (fun found attr _ name => used_markInside root.2 attr found name) set.attrs.values found
        name

/-- The root sets mark the sets that are found. -/
theorem used_markRoots (scope : Scope) (roots : Registry RootSet) (found : Registry Layout)
    (name : String) :
    Used (markRoots scope roots found) direction name ↔
      Used found direction name ∨ name ∈ found.names ∧ Marked scope roots direction name := by
  rw [markRoots_eq]
  exact used_foldl (MarkedBy scope) (fun _ root => names_markRoot root)
    (fun found root _ name => used_markRoot scope root found name) roots.entries found name

/-- Sets are found without marks. -/
def Unmarked (found : Registry Layout) : Prop :=
  ∀ direction name, ¬Used found direction name

/-- With a set that is not used, still none is. -/
theorem unmarked_insert {name : String} {layout : Layout} (unmarked : Unmarked found)
    (unused : ∀ direction, layout.isUsed direction = false) :
    Unmarked (found.insert name layout) := by
  rintro direction other ⟨held, looked, used⟩
  rw [Registry.get?_insert] at looked
  split at looked
  · cases looked
    rw [unused direction] at used
    cases used
  · exact unmarked direction other ⟨held, looked, used⟩

/-- Inheriting fields uses nothing. -/
theorem isUsed_inherit {layout result : Layout} {fields : List String}
    (inherited : layout.inherit fields = .ok result) (direction : Direction) :
    result.isUsed direction = layout.isUsed direction := by
  obtain ⟨_, rfl⟩ := Layout.inherit_eq_ok_iff.1 inherited
  cases direction <;> rfl

/-- A layout that is made is not used. -/
theorem isUsed_ofSet {name : String} {layout : Layout}
    (built : Layout.ofSet scope name = .ok layout)
    (direction : Direction) : layout.isUsed direction = false := by
  simp only [Layout.ofSet, bind_eq_ok_iff, pure_eq_ok_iff] at built
  obtain ⟨set, _, rfl⟩ := built
  cases direction <;> rfl

/-- Meeting an attribute uses nothing. -/
theorem unmarked_meet {attr : Attribute} {before after : Progress}
    (unmarked : Unmarked before.found) (met : meet scope roots before attr = .ok after) :
    Unmarked after.found := by
  unfold meet at met
  split at met
  · exact Except.ok.inj met ▸ unmarked
  · rename_i name _
    split at met
    · cases met
    · split at met
      · rename_i layout known
        simp only [bind_eq_ok_iff, pure_eq_ok_iff] at met
        obtain ⟨updated, inherited, rfl⟩ := met
        refine unmarked_insert unmarked fun direction => ?_
        rw [isUsed_inherit inherited]
        exact Bool.eq_false_iff.2 fun used => unmarked direction name ⟨layout, known, used⟩
      · simp only [bind_eq_ok_iff, pure_eq_ok_iff] at met
        obtain ⟨layout, built, updated, inherited, rfl⟩ := met
        refine unmarked_insert unmarked fun direction => ?_
        rw [isUsed_inherit inherited, isUsed_ofSet built]

/-- Exploring uses nothing. -/
theorem unmarked_explore {result : Registry Layout} {queue : List String}
    (unmarked : Unmarked found) (explored : explore scope roots found queue = .ok result) :
    Unmarked result := by
  refine explore_preserves (fun found _ => Unmarked found)
    (fun found name rest set progress unmarked _ visited => ?_) unmarked explored
  exact foldlM_preserves (fun progress : Progress => Unmarked progress.found)
    (fun before attr _ after unmarked met => unmarked_meet unmarked met) unmarked visited

/-- The order of the sets does not change their marks. -/
theorem used_order {ordered : Registry Layout} (done : order scope found = .ok ordered)
    (name : String) : Used ordered direction name ↔ Used found direction name := by
  unfold Used
  simp only [get?_order done]

/-- A set hands its use down to what it refers to. -/
theorem used_handDown (scope : Scope) (found : Registry Layout) (outer name : String) :
    Used (handDown scope found outer) direction name ↔ Used found direction name ∨
      name ∈ found.names ∧ scope.Refers outer name ∧ Used found direction outer := by
  unfold handDown
  cases known : found.get? outer with
  | none => simp [Used, known]
  | some layout =>
      have own : Used found direction outer ↔ layout.isUsed direction = true := by
        simp [Used, known]
      rw [own, used_foldl
        (fun inner direction name => name = inner ∧ layout.isUsed direction = true)
        (fun found inner => found.names_update inner _) (fun found inner direction name => ?_)]
      · simp [Scope.Refers]
      · rw [used_update]
        cases direction <;> rfl

/-- What holds after some sets have handed their marks down: all marks come along references, and
none of these sets has a mark that a set inside it lacks. -/
structure Handed (scope : Scope) (found : Registry Layout) (done : List String)
    (after : Registry Layout) : Prop where
  names : after.names = found.names
  keeps : ∀ direction name, Used found direction name → Used after direction name
  sound : ∀ direction name, Used after direction name →
    ∃ first, Used found direction first ∧ ReflTransGen scope.Refers first name
  closed : ∀ direction, ∀ outer ∈ done, Used after direction outer →
    ∀ inner, scope.Refers outer inner → Used after direction inner

/-- One more set hands its marks down. No set that has done so before gets a new mark, as all of
them stand behind the sets inside this one. -/
theorem Handed.cons {before after : List String} {name : String} {handed : Registry Layout}
    (names : found.names = before ++ name :: after)
    (ordered : InOrder scope.references found.names)
    (later : Handed scope found after handed) :
    Handed scope found (name :: after) (handDown scope handed name) where
  names := names_handDown.trans later.names
  keeps direction other used :=
    (used_handDown scope handed name other).2 (.inl (later.keeps direction other used))
  sound direction other used := by
    rcases (used_handDown scope handed name other).1 used with already | ⟨_, refers, outerUsed⟩
    · exact later.sound direction other already
    · obtain ⟨first, start, path⟩ := later.sound direction name outerUsed
      exact ⟨first, start, path.tail refers⟩
  closed direction outer listed used inner refers := by
    have distinct : (before ++ name :: after).Nodup := names ▸ found.distinct
    -- A set that gets a mark now stands in front of the set that hands it down.
    have settled : Used handed direction outer := by
      rcases (used_handDown scope handed name outer).1 used with already | ⟨_, referred, _⟩
      · exact already
      · have inFront := ordered before name after names outer referred
        exact absurd rfl ((List.nodup_append.1 distinct).2.2 outer inFront outer listed)
    have inside : inner ∈ found.names :=
      ordered.closed (names ▸ List.mem_append_right before listed) inner refers
    rw [used_handDown]
    rcases List.mem_cons.1 listed with rfl | listed
    · exact .inr ⟨later.names ▸ inside, refers, settled⟩
    · exact .inl (later.closed direction outer listed settled inner refers)

/-- Sets in the order of their dependencies all hand their use down. -/
theorem handed_foldr (ordered : InOrder scope.references found.names) {before after : List String}
    (names : found.names = before ++ after) :
    Handed scope found after (after.foldr (fun name found => handDown scope found name) found) := by
  induction after generalizing before with
  | nil =>
      exact ⟨rfl, fun _ _ => id, fun _ name used => ⟨name, used, .refl⟩, by simp⟩
  | cons name after ih =>
      have split : found.names = (before ++ [name]) ++ after := by simpa using names
      exact (ih split).cons names ordered

/-- After one pass from the outermost sets inwards, exactly those sets are used that references lead
to from a set that was used before. -/
theorem used_propagate (ordered : InOrder scope.references found.names) (name : String) :
    Used (propagate scope found) direction name ↔
      ∃ first, Used found direction first ∧ ReflTransGen scope.Refers first name := by
  have handed : Handed scope found found.names (propagate scope found) := by
    rw [propagate_eq, List.foldl_reverse]
    exact handed_foldr ordered (List.nil_append _).symm
  refine ⟨handed.sound direction name, ?_⟩
  rintro ⟨first, start, path⟩
  induction path with
  | refl => exact handed.keeps direction first start
  | tail _ refers used =>
      have listed := handed.names ▸ mem_names_of_used used
      exact handed.closed direction _ listed used _ refers

/-- A marked set is nested. -/
theorem isNested_of_marked {name : String} (marked : Marked scope roots direction name) :
    IsNested scope roots name := by
  obtain ⟨root, listed, set, held, attr, inside, _, named⟩ := marked
  have step : scope.Refers root.1 name := Scope.refers_iff.2 ⟨set, held, attr, inside, named⟩
  exact ⟨root.1, List.mem_map_of_mem listed, .single step⟩

/-- The resolved nested sets are used exactly if references lead to them from a marked set. -/
theorem used_resolve {nested : Registry Layout} (done : resolve scope roots = .ok nested)
    (name : String) :
    Used nested direction name ↔
      ∃ first, Marked scope roots direction first ∧ ReflTransGen scope.Refers first name := by
  have nestedIff := mem_names_of_resolve done
  simp only [resolve, bind_eq_ok_iff, pure_eq_ok_iff] at done
  obtain ⟨found, explored, ordered, arranged, rfl⟩ := done
  have start : Unmarked (Registry.empty : Registry Layout) := by
    simp [Unmarked, Used, Registry.empty, Registry.get?]
  have unmarked := unmarked_explore start explored
  obtain ⟨kept, inOrder⟩ := order_inOrder arranged
  rw [names_markRoots] at kept
  have marks (first : String) :
      Used ordered direction first ↔ Marked scope roots direction first := by
    rw [used_order arranged, used_markRoots, or_iff_right (unmarked direction first)]
    refine and_iff_right_of_imp fun marked => kept.mem_iff.1 ?_
    have listed := (nestedIff first).2 (isNested_of_marked marked)
    rwa [names_propagate] at listed
  rw [used_propagate inOrder]
  simp only [marks]

end Nesting

namespace Family

open Nesting Relation RootSet

/-- A nested set refers to another one. -/
def RefersInside (family : Family) (outer inner : String) : Prop :=
  outer ∈ family.nestedSets.names ∧ inner ∈ family.nestedSets.names ∧ family.Refers outer inner

/-- A chain of nested sets leads to a set. It starts at an attribute of a root set that messages of
this direction use. -/
def LeadsTo (family : Family) (direction : Direction) (name : String) : Prop :=
  ∃ root usage set attr first, family.rootSets.get? root = some usage ∧
    family.sets.get? root = some set ∧ attr ∈ set.attrs.values ∧
    attr.name ∈ usage.used direction ∧ attr.nestedSet? = some first ∧
    ReflTransGen family.RefersInside first name

/-- A direction leads to a set along references from one that is marked. -/
theorem leadsTo_iff {family : Family}
    (resolved : Nesting.resolve family.toScope family.rootSets = .ok family.nestedSets)
    {direction : Direction} {name : String} :
    family.LeadsTo direction name ↔ ∃ first,
      Marked family.toScope family.rootSets direction first ∧
        ReflTransGen family.Refers first name := by
  constructor
  · rintro ⟨root, usage, set, attr, first, used, held, inside, carried, named, path⟩
    have steps : ∀ outer inner, family.RefersInside outer inner → family.Refers outer inner :=
      fun _ _ step => step.2.2
    exact ⟨first, ⟨(root, usage), Registry.get?_eq_some_iff.1 used, set, held, attr, inside,
      carried, named⟩, ReflTransGen.mono steps _ _ path⟩
  · rintro ⟨first, marked, path⟩
    have listed := (mem_names_of_resolve resolved first).2 (isNested_of_marked marked)
    obtain ⟨⟨root, usage⟩, used, set, held, attr, inside, carried, named⟩ := marked
    refine ⟨root, usage, set, attr, first, Registry.get?_eq_some_iff.2 used, held, inside, carried,
      named, ?_⟩
    obtain ⟨_, _, _, inOrder⟩ := resolve_inOrder resolved
    -- References from a nested set lead to nested sets only.
    suffices both :
        ReflTransGen family.RefersInside first name ∧ name ∈ family.nestedSets.names from both.1
    induction path with
    | refl => exact ⟨.refl, listed⟩
    | tail _ refers earlier =>
        have next := inOrder.closed earlier.2 _ refers
        exact ⟨earlier.1.tail ⟨earlier.2, next, refers⟩, next⟩

/-- A nested set is part of requests, or of replies, exactly if a chain of nested sets leads to it
from a root set's attribute that requests, or replies, use. The root sets are the sets that
operations other than notifications use, whether these are selected or not, and what they use in a
direction is exactly what their operations carry in it. -/
theorem nestedSets_used {file : Spec.File} {excludes : List Pattern} {family : Family}
    (built : ofSpec file excludes = .ok family) :
    (∀ name layout, family.nestedSets.get? name = some layout →
      (layout.request = true ↔ family.LeadsTo .request name) ∧
      (layout.reply = true ↔ family.LeadsTo .reply name)) ∧
    (∀ root, root ∈ family.rootSets.names ↔
      ∃ operation ∈ file.family.operations.named.values, operation.UsesSet root) ∧
    (∀ root usage, family.rootSets.get? root = some usage → ∀ attr,
      (attr ∈ usage.request ↔ ∃ operation ∈ file.family.operations.named.values,
        operation.UsesSet root ∧ attr ∈ operation.carried .request) ∧
      (attr ∈ usage.reply ↔ ∃ operation ∈ file.family.operations.named.values,
        operation.UsesSet root ∧ attr ∈ operation.carried .reply)) := by
  obtain ⟨outline, begun, _, roots, resolved⟩ := outline_of_ofSpec built
  refine ⟨fun name layout held => ?_, fun root => ?_, fun root usage held attr => ?_⟩
  · have used (direction : Direction) :
        layout.isUsed direction = true ↔ family.LeadsTo direction name := by
      rw [leadsTo_iff resolved, ← used_resolve resolved]
      simp [Used, held]
    exact ⟨used .request, used .reply⟩
  · rw [roots]
    exact mem_rootSets_iff begun root
  · have uses (direction : Direction) : attr ∈ usage.used direction ↔
        ∃ operation ∈ file.family.operations.named.values,
          operation.UsesSet root ∧ attr ∈ operation.carried direction := by
      rw [← uses_rootSets_iff begun, ← roots]
      simp [Uses, held]
    exact ⟨uses .request, uses .reply⟩

/-- Two sets around a shared one. Requests carry the first, and the event carries the second. -/
def shared : Spec.File where
  license := Spec.acceptedLicense
  family :=
    { name := "f"
      attributeSets :=
        [{ name := "f"
           attributes :=
            [{ name := "asked", kind := some "nest", nestedAttributes := some "left" },
             { name := "told", kind := some "nest", nestedAttributes := some "right" }] },
         { name := "left"
           attributes :=
            [{ name := "in", kind := some "nest", nestedAttributes := some "both" }] },
         { name := "right"
           attributes :=
            [{ name := "in", kind := some "nest", nestedAttributes := some "both" }] },
         { name := "both", attributes := [{ name := "x", kind := some "u8" }] }]
      operations :=
        { list :=
            [{ name := "set"
               attributeSet := some "f"
               doMode := some { request := some { attributes := ["asked"] } } },
             { name := "gone", attributeSet := some "f", event := some ["told"] },
             { name := "changed", notify := some "set" }] } }

theorem isSome_ofSpec_shared : (ofSpec shared [.empty]).toOption.isSome = true := by
  decide +kernel

/-- The family with all operations excluded. -/
def sharedFamily : Family :=
  (ofSpec shared [.empty]).toOption.get isSome_ofSpec_shared

/-- The shared set is part of both directions, and the sets around it are part of one each. -/
theorem nestedSets_used_shared :
    ofSpec shared [.empty] = .ok sharedFamily ∧
      (sharedFamily.LeadsTo .request "both" ∧ sharedFamily.LeadsTo .reply "both") ∧
      (sharedFamily.LeadsTo .request "left" ∧ ¬sharedFamily.LeadsTo .reply "left") ∧
      ∃ operation ∈ shared.family.operations.named.values,
        operation.UsesSet "f" ∧ "told" ∈ operation.carried .reply := by
  have built : ofSpec shared [.empty] = .ok sharedFamily := Outcome.eq_ok_get isSome_ofSpec_shared
  obtain ⟨leads, _, uses⟩ := nestedSets_used built
  have both : (sharedFamily.nestedSets.get? "both").map
      (fun layout => (layout.request, layout.reply)) = some (true, true) := by decide +kernel
  have left : (sharedFamily.nestedSets.get? "left").map
      (fun layout => (layout.request, layout.reply)) = some (true, false) := by decide +kernel
  have root : sharedFamily.rootSets.get? "f" = some ⟨["asked"], ["told"]⟩ := by decide +kernel
  simp only [Option.map_eq_some_iff, Prod.mk.injEq] at both left
  obtain ⟨bothLayout, atBoth, bothAsked, bothTold⟩ := both
  obtain ⟨leftLayout, atLeft, leftAsked, leftUntold⟩ := left
  have leadsToBoth := leads "both" bothLayout atBoth
  have leadsToLeft := leads "left" leftLayout atLeft
  refine ⟨built, ⟨leadsToBoth.1.1 bothAsked, leadsToBoth.2.1 bothTold⟩,
    ⟨leadsToLeft.1.1 leftAsked, fun led => ?_⟩, ?_⟩
  · rw [leadsToLeft.2.2 led] at leftUntold
    cases leftUntold
  · exact (uses "f" _ root "told").2.1 List.mem_cons_self

end Family

end NetlinkFamily
