import NetlinkFamily.Proofs.Nesting.Settling
import NetlinkFamily.Proofs.Outcome

namespace NetlinkFamily

/-- A set refers to what one of its attributes nests. -/
theorem Scope.refers_iff {scope : Scope} {outer inner : String} :
    scope.Refers outer inner ↔
      ∃ set, scope.sets.get? outer = some set ∧
        ∃ attr ∈ set.attrs.values, attr.nestedSet? = some inner := by
  unfold Refers references AttributeSet.nestedSets
  cases scope.sets.get? outer with
  | none => simp
  | some set => simp [List.mem_filterMap]

namespace Nesting

open Outcome Relation

/-- A set is nested if one or more references lead to it from a root set. -/
def IsNested (scope : Scope) (roots : Registry RootSet) (name : String) : Prop :=
  ∃ root ∈ roots.names, TransGen scope.Refers root name

/-- An attribute counts for the search if it belongs to a root set or to a nested set. -/
def Counts (scope : Scope) (roots : Registry RootSet) (attr : Attribute) : Prop :=
  ∃ outer set, (outer ∈ roots.names ∨ IsNested scope roots outer) ∧
    scope.sets.get? outer = some set ∧ attr ∈ set.attrs.values

/-- Fields are handed down to a set by an attribute that refers to it. -/
def HandsDown (scope : Scope) (roots : Registry RootSet) (name : String) (fields : List String) :
    Prop :=
  ∃ attr, Counts scope roots attr ∧ attr.nestedSet? = some name ∧ attr.inheritedFields = fields

/-- What the search checks: all sets that it looks at are declared, no root set is nested as well,
and all references to a set hand down the same fields. -/
structure Consistent (scope : Scope) (roots : Registry RootSet) : Prop where
  declared : ∀ name, name ∈ roots.names ∨ IsNested scope roots name → name ∈ scope.sets.names
  apart : ∀ name, IsNested scope roots name → name ∉ roots.names
  agreed : ∀ name first second, HandsDown scope roots name first →
    HandsDown scope roots name second → first = second

/-- The layout that was found for a set records the fields handed down to it. -/
def Seeded (found : Registry Layout) (name : String) (fields : List String) : Prop :=
  ∃ layout, found.get? name = some layout ∧ layout.seed = some fields

variable {scope : Scope} {roots : Registry RootSet}

/-- What an attribute that counts nests is nested. -/
theorem isNested_of_counts {attr : Attribute} (counts : Counts scope roots attr) {name : String}
    (named : attr.nestedSet? = some name) : IsNested scope roots name := by
  obtain ⟨outer, set, used, held, listed⟩ := counts
  have step : scope.Refers outer name := Scope.refers_iff.2 ⟨set, held, attr, listed, named⟩
  rcases used with root | ⟨root, member, path⟩
  · exact ⟨outer, root, .single step⟩
  · exact ⟨root, member, path.tail step⟩

/-- A set with inherited fields was found. -/
theorem mem_names_of_seeded {found : Registry Layout} {name : String} {fields : List String}
    (seeded : Seeded found name fields) : name ∈ found.names := by
  obtain ⟨layout, held, _⟩ := seeded
  exact Registry.mem_names_of_get? held

/-- A set has inherited one list of fields. -/
theorem seeded_unique {found : Registry Layout} {name : String} {first second : List String}
    (here : Seeded found name first) (there : Seeded found name second) : first = second := by
  obtain ⟨layout, held, seed⟩ := here
  obtain ⟨other, same, also⟩ := there
  rw [held] at same
  cases same
  exact Option.some.inj (seed.symm.trans also)

/-- A layout that is stored has the fields it has inherited. -/
theorem seeded_insert_iff {found : Registry Layout} {name other : String} {layout : Layout}
    {fields : List String} :
    Seeded (found.insert name layout) other fields ↔
      if other = name then layout.seed = some fields else Seeded found other fields := by
  unfold Seeded
  rw [Registry.get?_insert]
  split <;> simp

/-- What following some attributes does: the sets they refer to are no root sets, they are found
with the fields handed down to them, and those that were not known are queued. -/
structure Meets (roots : Registry RootSet) (attrs : List Attribute) (before after : Progress) :
    Prop where
  apart : ∀ attr ∈ attrs, ∀ name, attr.nestedSet? = some name → name ∉ roots.names
  seeded : ∀ name fields, Seeded after.found name fields ↔ Seeded before.found name fields ∨
    ∃ attr ∈ attrs, attr.nestedSet? = some name ∧ attr.inheritedFields = fields
  names : ∀ name, name ∈ after.found.names ↔ name ∈ before.found.names ∨
    ∃ attr ∈ attrs, attr.nestedSet? = some name
  queued : ∀ name, name ∈ after.fresh ↔ name ∈ before.fresh ∨
    name ∈ after.found.names ∧ name ∉ before.found.names

namespace Meets

/-- No attributes meet nothing. -/
theorem nil {progress : Progress} : Meets roots [] progress progress where
  apart := by simp
  seeded := by simp
  names := by simp
  queued := by simp

/-- Two lists of attributes meet what each of them does. -/
theorem append {first second : List Attribute} {before middle after : Progress}
    (here : Meets roots first before middle) (later : Meets roots second middle after) :
    Meets roots (first ++ second) before after where
  apart attr member := (List.mem_append.1 member).elim (here.apart attr) (later.apart attr)
  seeded name fields := by
    rw [later.seeded, here.seeded]
    simp only [List.mem_append, or_and_right, exists_or, or_assoc]
  names name := by
    rw [later.names, here.names]
    simp only [List.mem_append, or_and_right, exists_or, or_assoc]
  queued name := by
    have grows : name ∈ before.found.names → name ∈ middle.found.names := fun known =>
      (here.names name).2 (.inl known)
    have growsOn : name ∈ middle.found.names → name ∈ after.found.names := fun known =>
      (later.names name).2 (.inl known)
    rw [later.queued, here.queued]
    tauto

end Meets

/-- Meeting a set records it with the fields it is handed, which must be those of before. -/
theorem meets_insert {attr : Attribute} {before : Progress} {fresh : List String} {name : String}
    {layout : Layout} (named : attr.nestedSet? = some name) (notRoot : name ∉ roots.names)
    (seed : layout.seed = some attr.inheritedFields)
    (agrees : ∀ fields, Seeded before.found name fields → attr.inheritedFields = fields)
    (queued : ∀ other, other ∈ fresh ↔
      other ∈ before.fresh ∨ other = name ∧ name ∉ before.found.names) :
    Meets roots [attr] before ⟨before.found.insert name layout, fresh⟩ := by
  constructor
  · simpa [named] using notRoot
  · intro other fields
    rw [seeded_insert_iff]
    by_cases same : other = name
    · subst same
      simp only [if_true, seed, Option.some.injEq, List.mem_singleton, exists_eq_left, named,
        true_and]
      exact ⟨.inr, fun either => either.elim (agrees fields) id⟩
    · simp [same, Ne.symm same, named]
  · intro other
    rw [Registry.mem_names_insert]
    simp only [List.mem_singleton, exists_eq_left, named, Option.some.injEq]
    tauto
  · intro other
    rw [queued, Registry.mem_names_insert]
    constructor
    · rintro (already | ⟨rfl, unknown⟩)
      · exact .inl already
      · exact .inr ⟨.inl rfl, unknown⟩
    · rintro (already | ⟨rfl | known, unknown⟩)
      · exact .inl already
      · exact .inr ⟨rfl, unknown⟩
      · exact absurd known unknown

/-- Meeting an attribute meets what it nests. -/
theorem meets_of_meet {attr : Attribute} {before after : Progress}
    (met : meet scope roots before attr = .ok after) : Meets roots [attr] before after := by
  unfold meet at met
  cases named : attr.nestedSet? with
  | none =>
      simp only [named, Except.ok.injEq] at met
      subst met
      constructor <;> simp [named]
  | some name =>
      simp only [named] at met
      split at met
      · cases met
      · rename_i notRoot
        rw [← Registry.mem_names_iff] at notRoot
        split at met
        · rename_i layout known
          simp only [bind_eq_ok_iff, pure_eq_ok_iff, Layout.inherit_eq_ok_iff] at met
          obtain ⟨_, ⟨open_, rfl⟩, rfl⟩ := met
          have listed : name ∈ before.found.names := Registry.mem_names_of_get? known
          refine meets_insert named notRoot rfl (fun fields seeded => ?_) (by simp [listed])
          obtain ⟨same, held, seed⟩ := seeded
          rw [known] at held
          cases held
          rw [seed] at open_
          simpa [eq_comm] using open_
        · rename_i unknown
          simp only [bind_eq_ok_iff, pure_eq_ok_iff, Layout.inherit_eq_ok_iff] at met
          obtain ⟨layout, _, _, ⟨_, rfl⟩, rfl⟩ := met
          have unlisted : name ∉ before.found.names := by
            simp [Registry.mem_names_iff, Registry.contains, unknown]
          refine meets_insert named notRoot rfl (fun fields seeded => ?_) (by simp [unlisted])
          exact absurd (mem_names_of_seeded seeded) unlisted

/-- Following attributes one by one. -/
theorem meets_of_foldlM {attrs : List Attribute} {before after : Progress}
    (run : attrs.foldlM (meet scope roots) before = .ok after) : Meets roots attrs before after := by
  induction attrs generalizing before with
  | nil =>
      rw [List.foldlM_nil, pure_eq_ok_iff] at run
      exact run ▸ .nil
  | cons attr rest ih =>
      rw [List.foldlM_cons, bind_eq_ok_iff] at run
      obtain ⟨middle, met, run⟩ := run
      exact (meets_of_meet met).append (ih run)

/-- What holds of the found sets throughout the search. -/
structure Sound (scope : Scope) (roots : Registry RootSet) (found : Registry Layout) : Prop where
  nested : ∀ name ∈ found.names, IsNested scope roots name
  apart : ∀ name ∈ found.names, name ∉ roots.names
  seeded : ∀ name ∈ found.names, ∃ fields, Seeded found name fields
  handed : ∀ name fields, Seeded found name fields → HandsDown scope roots name fields

/-- Following attributes that count keeps the found sets sound. -/
theorem Sound.meets {attrs : List Attribute} {before after : Progress}
    (sound : Sound scope roots before.found) (counts : ∀ attr ∈ attrs, Counts scope roots attr)
    (met : Meets roots attrs before after) : Sound scope roots after.found := by
  constructor
  · intro name listed
    rcases (met.names name).1 listed with known | ⟨attr, member, named⟩
    · exact sound.nested name known
    · exact isNested_of_counts (counts attr member) named
  · intro name listed
    rcases (met.names name).1 listed with known | ⟨attr, member, named⟩
    · exact sound.apart name known
    · exact met.apart attr member name named
  · intro name listed
    rcases (met.names name).1 listed with known | ⟨attr, member, named⟩
    · obtain ⟨fields, seeded⟩ := sound.seeded name known
      exact ⟨fields, (met.seeded name fields).2 (.inl seeded)⟩
    · exact ⟨_, (met.seeded name _).2 (.inr ⟨attr, member, named, rfl⟩)⟩
  · intro name fields seeded
    rcases (met.seeded name fields).1 seeded with before | ⟨attr, member, named, rfl⟩
    · exact sound.handed name fields before
    · exact ⟨attr, counts attr member, named, rfl⟩

/-- If all checks hold, every attribute that counts can be followed. -/
theorem exists_meet (consistent : Consistent scope roots) {before : Progress}
    (sound : Sound scope roots before.found) {attr : Attribute}
    (counts : Counts scope roots attr) : ∃ after, meet scope roots before attr = .ok after := by
  unfold meet
  cases named : attr.nestedSet? with
  | none => exact ⟨before, rfl⟩
  | some name =>
      have nested := isNested_of_counts counts named
      have notRoot : ¬roots.contains name = true := by
        rw [← Registry.mem_names_iff]
        exact consistent.apart name nested
      simp only [if_neg notRoot]
      cases known : before.found.get? name with
      | some layout =>
          have listed : name ∈ before.found.names := Registry.mem_names_of_get? known
          obtain ⟨fields, seeded⟩ := sound.seeded name listed
          have agreed := consistent.agreed name fields attr.inheritedFields
            (sound.handed name fields seeded) ⟨attr, counts, named, rfl⟩
          obtain ⟨same, held, seed⟩ := seeded
          rw [known] at held
          cases held
          have inherited := Layout.inherit_eq_ok_iff.2 ⟨.inr (agreed ▸ seed), rfl⟩
          exact ⟨_, by simp only [inherited]; rfl⟩
      | none =>
          obtain ⟨layout, built⟩ := Layout.exists_ofSet (consistent.declared name (.inr nested))
          have inherited := Layout.inherit_eq_ok_iff.2
            ⟨.inl (Layout.seed_ofSet built),
              (rfl : _ = { layout with seed := some attr.inheritedFields })⟩
          exact ⟨_, by simp only [built, bind, Except.bind, inherited]; rfl⟩

/-- Where lists are consistent, all attributes that count can be met. -/
theorem exists_foldlM (consistent : Consistent scope roots) {attrs : List Attribute}
    (counts : ∀ attr ∈ attrs, Counts scope roots attr) {before : Progress}
    (sound : Sound scope roots before.found) :
    ∃ after, attrs.foldlM (meet scope roots) before = .ok after := by
  induction attrs generalizing before with
  | nil => exact ⟨before, rfl⟩
  | cons attr rest ih =>
      obtain ⟨here, later⟩ := List.forall_mem_cons.1 counts
      obtain ⟨middle, met⟩ := exists_meet consistent sound here
      have one : ∀ other ∈ [attr], Counts scope roots other := by simpa using here
      have kept := sound.meets one (meets_of_meet met)
      obtain ⟨after, run⟩ := ih later kept
      exact ⟨after, by rw [List.foldlM_cons, met]; exact run⟩

/-- The search has looked at a set if all sets inside it are found with the right fields. -/
def Visited (scope : Scope) (found : Registry Layout) (outer : String) : Prop :=
  ∃ set, scope.sets.get? outer = some set ∧ ∀ attr ∈ set.attrs.values, ∀ name,
    attr.nestedSet? = some name → Seeded found name attr.inheritedFields

/-- What holds between two steps of the search: every set that counts is in the queue or has been
visited. -/
structure Search (scope : Scope) (roots : Registry RootSet) (found : Registry Layout)
    (queue : List String) : Prop extends Sound scope roots found where
  queued : ∀ name ∈ queue, name ∈ roots.names ∨ name ∈ found.names
  visited : ∀ outer, outer ∈ roots.names ∨ outer ∈ found.names →
    outer ∈ queue ∨ Visited scope found outer

/-- The search starts at the root sets. -/
theorem search_start (scope : Scope) (roots : Registry RootSet) :
    Search scope roots Registry.empty roots.names where
  nested := by simp [Registry.empty, Registry.names, Entries.names]
  apart := by simp [Registry.empty, Registry.names, Entries.names]
  seeded := by simp [Registry.empty, Registry.names, Entries.names]
  handed := by simp [Seeded, Registry.empty, Registry.get?]
  queued name listed := .inl listed
  visited outer used := .inl (by simpa [Registry.empty, Registry.names, Entries.names] using used)

section Step

variable {found : Registry Layout} {name : String} {rest : List String} {set : AttributeSet}

/-- All attributes of a set in the queue count. -/
theorem Search.counts (search : Search scope roots found (name :: rest))
    (declared : scope.sets.get? name = some set) :
    ∀ attr ∈ set.attrs.values, Counts scope roots attr := by
  intro attr listed
  have used := (search.queued name List.mem_cons_self).imp_right (search.nested name)
  exact ⟨name, set, used, declared, listed⟩

/-- A visit takes a set from the queue and puts the sets that are new into it. -/
theorem Search.visit (search : Search scope roots found (name :: rest))
    (declared : scope.sets.get? name = some set) {progress : Progress}
    (visited : visit scope roots found set = .ok progress) :
    Search scope roots progress.found (rest ++ progress.fresh) := by
  have met := meets_of_foldlM visited
  have grows : ∀ other fields, Seeded found other fields → Seeded progress.found other fields :=
    fun other fields seeded => (met.seeded other fields).2 (.inl seeded)
  refine ⟨search.toSound.meets (search.counts declared) met, ?_, ?_⟩
  · intro other listed
    rcases List.mem_append.1 listed with inRest | isFresh
    · refine (search.queued other (List.mem_cons_of_mem _ inRest)).imp_right fun known => ?_
      exact (met.names other).2 (.inl known)
    · rcases (met.queued other).1 isFresh with none | ⟨listed, _⟩
      · cases none
      · exact .inr listed
  · intro outer used
    by_cases known : outer ∈ roots.names ∨ outer ∈ found.names
    · rcases search.visited outer known with inQueue | ⟨set, held, inside⟩
      · rcases List.mem_cons.1 inQueue with rfl | inRest
        · refine .inr ⟨set, declared, fun attr listed other named => ?_⟩
          exact (met.seeded other _).2 (.inr ⟨attr, listed, named, rfl⟩)
        · exact .inl (List.mem_append_left _ inRest)
      · exact .inr ⟨set, held, fun attr listed other named =>
          grows other _ (inside attr listed other named)⟩
    · simp only [not_or] at known
      have listed := used.resolve_left known.1
      exact .inl (List.mem_append_right _ ((met.queued outer).2 (.inr ⟨listed, known.2⟩)))

end Step

/-- Exploring visits the first set and queues what is new in it. -/
theorem explore_cons (found : Registry Layout) (name : String) (rest : List String) :
    explore scope roots found (name :: rest) = (do
      let set ← scope.attributeSet name
      let progress ← visit scope roots found set
      explore scope roots progress.found (rest ++ progress.fresh)) := by
  rw [explore]
  cases scope.attributeSet name with
  | error error => rfl
  | ok set =>
      simp only [bind, Except.bind]
      split <;> simp only [*]

/-- What every visit keeps of the found sets and the queue holds when the queue is empty. -/
theorem explore_preserves (holds : Registry Layout → List String → Prop)
    (step : ∀ found name rest set progress, holds found (name :: rest) →
      scope.attributeSet name = .ok set → visit scope roots found set = .ok progress →
        holds progress.found (rest ++ progress.fresh))
    {found result : Registry Layout} {queue : List String} (first : holds found queue)
    (explored : explore scope roots found queue = .ok result) : holds result [] := by
  induction found, queue using explore.induct scope roots with
  | case1 found =>
      rw [explore, Except.ok.injEq] at explored
      exact explored ▸ first
  | case2 found name rest error undeclared =>
      rw [explore_cons, undeclared] at explored
      cases explored
  | case3 found name rest set declared error failed =>
      rw [explore_cons, declared] at explored
      simp only [bind, Except.bind, failed] at explored
      cases explored
  | case4 found name rest set declared progress visited ih =>
      rw [explore_cons, declared] at explored
      simp only [bind, Except.bind, visited] at explored
      exact ih (step found name rest set progress first declared visited) explored

/-- The search keeps what holds between its steps. -/
theorem search_of_explore {found result : Registry Layout} {queue : List String}
    (search : Search scope roots found queue)
    (explored : explore scope roots found queue = .ok result) : Search scope roots result [] :=
  explore_preserves (Search scope roots)
    (fun _ _ _ _ _ search declared visited =>
      search.visit (Scope.attributeSet_eq_ok_iff.1 declared) visited)
    search explored

/-- If all checks hold, the search comes to an end. -/
theorem exists_explore_of_search (consistent : Consistent scope roots) {found : Registry Layout}
    {queue : List String} (search : Search scope roots found queue) :
    ∃ result, explore scope roots found queue = .ok result := by
  induction found, queue using explore.induct scope roots with
  | case1 found => exact ⟨found, by rw [explore]⟩
  | case2 found name rest error undeclared =>
      have used := (search.queued name List.mem_cons_self).imp_right (search.nested name)
      obtain ⟨set, held⟩ := Registry.exists_get?_of_mem (consistent.declared name used)
      rw [Scope.attributeSet_eq_ok_iff.2 held] at undeclared
      cases undeclared
  | case3 found name rest set declared error failed =>
      have counts := search.counts (Scope.attributeSet_eq_ok_iff.1 declared)
      have sound : Sound scope roots (Progress.mk found []).found := search.toSound
      obtain ⟨progress, visited⟩ := exists_foldlM consistent counts sound
      rw [visit, visited] at failed
      cases failed
  | case4 found name rest set declared progress visited ih =>
      obtain ⟨result, explored⟩ :=
        ih (search.visit (Scope.attributeSet_eq_ok_iff.1 declared) visited)
      exact ⟨result, by rw [explore_cons, declared]; simpa only [bind, Except.bind, visited]⟩

section Found

variable {found : Registry Layout}

/-- All sets inside of a set that was visited are found. -/
theorem mem_names_of_visited {outer inner : String} (visited : Visited scope found outer)
    (refers : scope.Refers outer inner) : inner ∈ found.names := by
  obtain ⟨set, held, attr, listed, named⟩ := Scope.refers_iff.1 refers
  obtain ⟨same, declared, inside⟩ := visited
  rw [held] at declared
  cases declared
  exact mem_names_of_seeded (inside attr listed inner named)

/-- When the queue is empty, all sets that count have been visited. -/
theorem Search.visited_of_used (search : Search scope roots found []) {outer : String}
    (used : outer ∈ roots.names ∨ outer ∈ found.names) : Visited scope found outer :=
  (search.visited outer used).resolve_left List.not_mem_nil

/-- The search finds exactly the nested sets. -/
theorem Search.mem_names_iff (search : Search scope roots found []) (name : String) :
    name ∈ found.names ↔ IsNested scope roots name := by
  refine ⟨search.nested name, ?_⟩
  rintro ⟨root, member, path⟩
  induction path with
  | single step => exact mem_names_of_visited (search.visited_of_used (.inl member)) step
  | tail _ step earlier => exact mem_names_of_visited (search.visited_of_used (.inr earlier)) step

/-- A search that is over has found what its sets refer to. -/
theorem Search.closed (search : Search scope roots found []) {outer : String}
    (used : outer ∈ roots.names ∨ outer ∈ found.names) :
    ∀ inner ∈ scope.references outer, inner ∈ found.names :=
  fun _ refers => mem_names_of_visited (search.visited_of_used used) refers

/-- After a search to the end all checks hold. -/
theorem Search.consistent (search : Search scope roots found []) : Consistent scope roots := by
  have visited : ∀ name, name ∈ roots.names ∨ IsNested scope roots name →
      Visited scope found name := fun name used =>
    search.visited_of_used (used.imp_right (search.mem_names_iff name).2)
  have seeded : ∀ name fields, HandsDown scope roots name fields → Seeded found name fields := by
    rintro name fields ⟨attr, ⟨outer, set, used, held, listed⟩, named, rfl⟩
    obtain ⟨same, declared, inside⟩ := visited outer used
    rw [held] at declared
    cases declared
    exact inside attr listed name named
  constructor
  · intro name used
    obtain ⟨set, held, _⟩ := visited name used
    exact Registry.mem_names_of_get? held
  · exact fun name nested => search.apart name ((search.mem_names_iff name).2 nested)
  · exact fun name first second here there =>
      seeded_unique (seeded name first here) (seeded name second there)

end Found

/-- The search succeeds exactly if all of its checks hold. -/
theorem exists_explore_iff (scope : Scope) (roots : Registry RootSet) :
    (∃ found, explore scope roots Registry.empty roots.names = .ok found) ↔
      Consistent scope roots := by
  constructor
  · rintro ⟨found, explored⟩
    exact (search_of_explore (search_start scope roots) explored).consistent
  · exact fun consistent => exists_explore_of_search consistent (search_start scope roots)

end Nesting

end NetlinkFamily
