import NetlinkFamily.Proofs.Distinct
import NetlinkFamily.Proofs.Nesting.Searching

namespace NetlinkFamily

/-- The attributes of a set, in order. -/
def Scope.attributesIn (scope : Scope) (name : String) : List Attribute :=
  match scope.sets.get? name with
  | some set => set.attrs.values
  | none => []

/-- The attributes in a name are those of the set declared under it. -/
theorem Scope.attributesIn_of_get? {scope : Scope} {name : String} {set : AttributeSet}
    (declared : scope.sets.get? name = some set) : scope.attributesIn name = set.attrs.values := by
  rw [attributesIn, declared]

/-- The references of a set are those of its attributes. -/
theorem Scope.references_eq (scope : Scope) (name : String) :
    scope.references name = (scope.attributesIn name).filterMap Attribute.nestedSet? := by
  unfold references attributesIn
  cases scope.sets.get? name <;> rfl

namespace Nesting

open Outcome Relation

/-- The root sets, and behind them all sets that some sets refer to, each at its first place. -/
def widen (scope : Scope) (roots : Registry RootSet) (names : List String) : List String :=
  (roots.names ++ names.flatMap scope.references).eraseDups

/-- The sets that no more than `depth` references lead to from a root set, in breadth-first
order. -/
def breadthFirst (scope : Scope) (roots : Registry RootSet) : Nat → List String
  | 0 => roots.names
  | depth + 1 => widen scope roots (breadthFirst scope roots depth)

variable {scope : Scope} {roots : Registry RootSet}

/-- Names that start a list widen to names that start the wider one. -/
theorem widen_prefix {names longer : List String} (front : names <+: longer) :
    widen scope roots names <+: widen scope roots longer := by
  obtain ⟨rest, rfl⟩ := front
  rw [widen, widen, List.flatMap_append, ← List.append_assoc]
  exact eraseDups_prefix (List.prefix_append _ _)

/-- The order lists exactly the root sets and the nested sets. -/
theorem exists_mem_breadthFirst_iff (name : String) :
    (∃ depth, name ∈ breadthFirst scope roots depth) ↔
      name ∈ roots.names ∨ IsNested scope roots name := by
  constructor
  · rintro ⟨depth, listed⟩
    induction depth generalizing name with
    | zero => exact .inl listed
    | succ depth ih =>
        rw [breadthFirst, widen, List.mem_eraseDups, List.mem_append, List.mem_flatMap] at listed
        rcases listed with root | ⟨outer, earlier, refers⟩
        · exact .inl root
        · rcases ih outer earlier with root | ⟨root, member, path⟩
          · exact .inr ⟨outer, root, .single refers⟩
          · exact .inr ⟨root, member, path.tail refers⟩
  · have step {outer inner : String} (refers : scope.Refers outer inner)
        (listed : ∃ depth, outer ∈ breadthFirst scope roots depth) :
        ∃ depth, inner ∈ breadthFirst scope roots depth := by
      obtain ⟨depth, listed⟩ := listed
      refine ⟨depth + 1, ?_⟩
      rw [breadthFirst, widen, List.mem_eraseDups]
      exact List.mem_append_right _ (List.mem_flatMap.2 ⟨outer, listed, refers⟩)
    rintro (root | ⟨root, member, path⟩)
    · exact ⟨0, root⟩
    · induction path with
      | single refers => exact step refers ⟨0, member⟩
      | tail _ refers listed => exact step refers listed

/-- What following some attributes does to the order: the sets that are new come behind, in the
order of the first reference to them, and they are queued in the same order. -/
structure Queues (roots : Registry RootSet) (attrs : List Attribute) (before after : Progress) :
    Prop where
  queued : ∃ added, after.found.names = before.found.names ++ added ∧
    after.fresh = before.fresh ++ added
  order : (roots.names ++ before.found.names).Nodup →
    roots.names ++ after.found.names =
      (roots.names ++ before.found.names ++ attrs.filterMap Attribute.nestedSet?).eraseDups

namespace Queues

/-- No attributes queue nothing. -/
theorem nil {progress : Progress} : Queues roots [] progress progress where
  queued := ⟨[], by simp⟩
  order distinct := by simpa using (eraseDups_of_nodup distinct).symm

/-- Two lists of attributes queue what each of them does, in order. -/
theorem append {first second : List Attribute} {before middle after : Progress}
    (here : Queues roots first before middle) (later : Queues roots second middle after) :
    Queues roots (first ++ second) before after where
  queued := by
    obtain ⟨added, names, fresh⟩ := here.queued
    obtain ⟨more, namesAfter, freshAfter⟩ := later.queued
    refine ⟨added ++ more, ?_, ?_⟩
    · rw [namesAfter, names, List.append_assoc]
    · rw [freshAfter, fresh, List.append_assoc]
  order distinct := by
    have middle := here.order distinct
    rw [later.order (middle ▸ nodup_eraseDups _), middle, eraseDups_append_left,
      List.filterMap_append, ← List.append_assoc]

end Queues

/-- Meeting an attribute queues what is new in it. -/
theorem queues_of_meet {attr : Attribute} {before after : Progress}
    (met : meet scope roots before attr = .ok after) : Queues roots [attr] before after := by
  unfold meet at met
  cases named : attr.nestedSet? with
  | none =>
      simp only [named, Except.ok.injEq] at met
      subst met
      refine ⟨⟨[], by simp⟩, fun distinct => ?_⟩
      simpa [named] using (eraseDups_of_nodup distinct).symm
  | some name =>
      simp only [named] at met
      split at met
      · cases met
      · rename_i notRoot
        rw [← Registry.mem_names_iff] at notRoot
        split at met
        · rename_i layout known
          simp only [bind_eq_ok_iff, pure_eq_ok_iff] at met
          obtain ⟨updated, _, rfl⟩ := met
          have listed : name ∈ before.found.names := Registry.mem_names_of_get? known
          have same : (before.found.insert name updated).names = before.found.names :=
            Entries.names_assign_of_mem listed
          refine ⟨⟨[], by simp [same]⟩, fun distinct => ?_⟩
          have whole := eraseDups_of_nodup distinct
          rw [same, List.filterMap_cons_some named, List.eraseDups_append, whole]
          simp [List.removeAll, listed]
        · rename_i unknown
          simp only [bind_eq_ok_iff, pure_eq_ok_iff] at met
          obtain ⟨_, _, updated, _, rfl⟩ := met
          have unlisted : name ∉ before.found.names := by
            simp [Registry.mem_names_iff, Registry.contains, unknown]
          have longer : (before.found.insert name updated).names = before.found.names ++ [name] :=
            Entries.names_assign_of_not_mem unlisted
          refine ⟨⟨[name], longer, rfl⟩, fun distinct => ?_⟩
          have whole := eraseDups_of_nodup distinct
          rw [longer, List.filterMap_cons_some named, List.eraseDups_append, whole]
          simp [List.removeAll, List.eraseDups_cons, unlisted, notRoot]

/-- Meeting all attributes queues what is new in them, in order. -/
theorem queues_of_foldlM {attrs : List Attribute} {before after : Progress}
    (run : attrs.foldlM (meet scope roots) before = .ok after) :
    Queues roots attrs before after := by
  induction attrs generalizing before with
  | nil =>
      rw [List.foldlM_nil, pure_eq_ok_iff] at run
      exact run ▸ .nil
  | cons attr rest ih =>
      rw [List.foldlM_cons, bind_eq_ok_iff] at run
      obtain ⟨middle, met, run⟩ := run
      exact (queues_of_meet met).append (ih run)

/-- What holds between two steps of the search once some sets have been visited: these and the
queue are the front of the breadth-first order, and what has been found are the sets behind the
root sets in it, each with the fields that an attribute of a visited set hands down to it. -/
structure Walked (scope : Scope) (roots : Registry RootSet) (visited : List String)
    (found : Registry Layout) (queue : List String) : Prop where
  order : roots.names ++ found.names = visited ++ queue
  widened : visited ++ queue = widen scope roots visited
  reached : ∃ depth, visited ++ queue <+: breadthFirst scope roots depth
  seeded : ∀ name fields, Seeded found name fields ↔
    ∃ attr ∈ visited.flatMap scope.attributesIn,
      attr.nestedSet? = some name ∧ attr.inheritedFields = fields

/-- The walk starts at the root sets. -/
theorem walked_start (scope : Scope) (roots : Registry RootSet) :
    Walked scope roots [] Registry.empty roots.names where
  order := by simp [Registry.empty, Registry.names, Entries.names]
  widened := by
    have distinct : roots.names.Nodup := roots.distinct
    simpa [widen] using (eraseDups_of_nodup distinct).symm
  reached := ⟨0, List.prefix_rfl⟩
  seeded := by simp [Seeded, Registry.empty, Registry.get?]

/-- A visit takes a set from the queue, and its own attributes come behind those of the sets that
were visited before. -/
theorem Walked.visit {visited rest : List String} {found : Registry Layout} {name : String}
    (walked : Walked scope roots visited found (name :: rest)) {set : AttributeSet}
    (declared : scope.sets.get? name = some set) {progress : Progress}
    (done : visit scope roots found set = .ok progress) :
    Walked scope roots (visited ++ [name]) progress.found (rest ++ progress.fresh) := by
  have met := meets_of_foldlM done
  have queues := queues_of_foldlM done
  have attrs : scope.attributesIn name = set.attrs.values := Scope.attributesIn_of_get? declared
  have references : scope.references name = set.attrs.values.filterMap Attribute.nestedSet? := by
    rw [Scope.references_eq, attrs]
  obtain ⟨added, names, fresh⟩ := queues.queued
  rw [List.nil_append] at fresh
  have order : roots.names ++ progress.found.names =
      visited ++ [name] ++ (rest ++ progress.fresh) := by
    rw [names, fresh, ← List.append_assoc, walked.order]
    simp
  have widened : visited ++ [name] ++ (rest ++ progress.fresh) =
      widen scope roots (visited ++ [name]) := by
    have distinct : (roots.names ++ found.names).Nodup := by
      rw [walked.order, walked.widened]
      exact nodup_eraseDups _
    rw [← order, queues.order distinct, walked.order, walked.widened, widen, widen,
      eraseDups_append_left, List.flatMap_append, List.flatMap_singleton, references,
      List.append_assoc]
  refine ⟨order, widened, ?_, ?_⟩
  · obtain ⟨depth, front⟩ := walked.reached
    refine ⟨depth + 1, widened ▸ widen_prefix (List.IsPrefix.trans ?_ front)⟩
    simp [List.prefix_append_right_inj]
  · intro other fields
    rw [met.seeded, walked.seeded, List.flatMap_append, List.flatMap_singleton, attrs]
    simp only [List.mem_append, or_and_right, exists_or]

end Nesting

end NetlinkFamily
