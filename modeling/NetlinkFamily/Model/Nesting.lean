import NetlinkFamily.Model.Layout
import NetlinkFamily.Model.RootSet

/-!
Nested sets: which attribute sets can be reached inside the root sets, in which order their
structures depend on each other, and whether requests or replies contain them.

The search goes breadth first. It ends because every step takes one set out of the queue, and a
set enters the queue only when it is met for the first time.
-/

namespace NetlinkFamily.Nesting

/-- The nested sets met so far, and those among them that were met in the current set. -/
structure Progress where
  found : Registry Layout
  fresh : List String

/-- This follows one attribute to the set inside it. -/
def meet (scope : Scope) (roots : Registry RootSet) (progress : Progress) (attr : Attribute) :
    Except ModelError Progress :=
  match attr.nestedSet? with
  | none => .ok progress
  | some name =>
      if roots.contains name then .error (.rootAndNested name)
      else
        match progress.found.get? name with
        | some layout => do
            let layout ← layout.inherit attr.inheritedFields
            return { progress with found := progress.found.insert name layout }
        | none => do
            let layout ← Layout.ofSet scope name
            let layout ← layout.inherit attr.inheritedFields
            return ⟨progress.found.insert name layout, progress.fresh ++ [name]⟩

/-- This follows all attributes of one set. -/
def visit (scope : Scope) (roots : Registry RootSet) (found : Registry Layout)
    (set : AttributeSet) : Except ModelError Progress :=
  set.attrs.values.foldlM (meet scope roots) ⟨found, []⟩

/-- The number of declared sets that have not been met as nested sets. -/
def unmet (scope : Scope) (found : Registry Layout) : Nat :=
  (scope.sets.names.filter fun name => !found.contains name).length

theorem unmet_insert_known (scope : Scope) {found : Registry Layout} {name : String}
    (layout : Layout) (known : found.contains name = true) :
    unmet scope (found.insert name layout) = unmet scope found := by
  unfold unmet
  congr 1
  apply List.filter_congr
  intro other _
  by_cases same : other = name
  · simp [Registry.contains_insert, same, known]
  · simp [Registry.contains_insert, same]

theorem unmet_insert_fresh (scope : Scope) {found : Registry Layout} {name : String}
    (layout : Layout) (declared : name ∈ scope.sets.names)
    (fresh : found.contains name = false) :
    unmet scope (found.insert name layout) < unmet scope found := by
  have fewer : (scope.sets.names.filter fun other => !(found.insert name layout).contains other) =
      (scope.sets.names.filter fun other => !found.contains other).filter (· ≠ name) := by
    rw [List.filter_filter]
    apply List.filter_congr
    intro other _
    simp [Registry.contains_insert]
  have listed : name ∈ scope.sets.names.filter fun other => !found.contains other := by
    simp [declared, fresh]
  rw [unmet, unmet, fewer]
  exact List.length_filter_lt_length_iff_exists.2 ⟨name, listed, by simp⟩

theorem declared_of_layout {scope : Scope} {name : String} {layout : Layout}
    (built : Layout.ofSet scope name = .ok layout) : name ∈ scope.sets.names := by
  rw [Registry.mem_names_iff]
  unfold Layout.ofSet Scope.attributeSet at built
  split at built
  · exact Registry.contains_of_get? ‹_›
  · cases built

/-- Meeting an attribute keeps the number of sets that are queued or unmet from growing. -/
theorem meet_bound {scope : Scope} {roots : Registry RootSet} {before after : Progress}
    {attr : Attribute} (met : meet scope roots before attr = .ok after) :
    unmet scope after.found + after.fresh.length ≤
      unmet scope before.found + before.fresh.length := by
  unfold meet at met
  cases named : attr.nestedSet? with
  | none =>
      simp only [named, Except.ok.injEq] at met
      exact Nat.le_of_eq (by rw [met])
  | some name =>
      simp only [named] at met
      split at met
      · cases met
      · cases known : before.found.get? name with
        | some layout =>
            simp only [known] at met
            cases inherited : layout.inherit attr.inheritedFields with
            | error error => simp [inherited, bind, Except.bind] at met
            | ok updated =>
                simp only [inherited, bind, Except.bind, pure, Except.pure,
                  Except.ok.injEq] at met
                subst met
                simp [unmet_insert_known scope updated (Registry.contains_of_get? known)]
        | none =>
            simp only [known] at met
            cases built : Layout.ofSet scope name with
            | error error => simp [built, bind, Except.bind] at met
            | ok layout =>
                cases inherited : layout.inherit attr.inheritedFields with
                | error error => simp [built, inherited, bind, Except.bind] at met
                | ok updated =>
                    simp only [built, inherited, bind, Except.bind, pure, Except.pure,
                      Except.ok.injEq] at met
                    subst met
                    have fresh : before.found.contains name = false := by
                      simp [Registry.contains, known]
                    have less := unmet_insert_fresh scope updated (declared_of_layout built) fresh
                    simp only [List.length_append, List.length_singleton]
                    omega

theorem visit_bound {scope : Scope} {roots : Registry RootSet} {found : Registry Layout}
    {set : AttributeSet} {after : Progress} (visited : visit scope roots found set = .ok after) :
    unmet scope after.found + after.fresh.length ≤ unmet scope found := by
  suffices general : ∀ (attrs : List Attribute) (before : Progress),
      attrs.foldlM (meet scope roots) before = .ok after →
        unmet scope after.found + after.fresh.length ≤
          unmet scope before.found + before.fresh.length by
    simpa using general set.attrs.values ⟨found, []⟩ visited
  intro attrs
  induction attrs with
  | nil =>
      intro before run
      simp only [List.foldlM_nil, pure, Except.pure, Except.ok.injEq] at run
      subst run
      exact Nat.le_refl _
  | cons attr rest ih =>
      intro before run
      rw [List.foldlM_cons] at run
      cases met : meet scope roots before attr with
      | error error => simp [met, bind, Except.bind] at run
      | ok middle =>
          simp only [met, bind, Except.bind] at run
          exact Nat.le_trans (ih middle run) (meet_bound met)

/-- All nested sets in the order in which a breadth-first search from `queue` meets them. -/
def explore (scope : Scope) (roots : Registry RootSet) (found : Registry Layout) :
    List String → Except ModelError (Registry Layout)
  | [] => .ok found
  | name :: rest =>
      match scope.attributeSet name with
      | .error error => .error error
      | .ok set =>
          match _visited : visit scope roots found set with
          | .error error => .error error
          | .ok progress => explore scope roots progress.found (rest ++ progress.fresh)
termination_by queue => unmet scope found + queue.length
decreasing_by
  have bound := visit_bound _visited
  simp only [List.length_append, List.length_cons]
  omega

/-- This notes which nested sets the attributes of the root sets lead to directly. -/
def markRoots (scope : Scope) (roots : Registry RootSet) (found : Registry Layout) :
    Registry Layout :=
  roots.entries.foldl
    (fun found root =>
      match scope.sets.get? root.1 with
      | none => found
      | some set =>
          set.attrs.values.foldl
            (fun found attr =>
              match attr.nestedSet? with
              | none => found
              | some name =>
                  found.update name fun layout =>
                    { layout with
                      request := layout.request || root.2.request.contains attr.name
                      reply := layout.reply || root.2.reply.contains attr.name })
            found)
    found

/-- This takes sets from `pending` one by one. A set settles when all sets inside it have settled
and goes to the end of the line otherwise. The answer holds the settled sets in order, and the
sets that are left after `rounds` steps. -/
def settle (scope : Scope) : Nat → List String → List String → List String × List String
  | 0, pending, settled => (settled, pending)
  | _ + 1, [], settled => (settled, [])
  | rounds + 1, name :: rest, settled =>
      if (scope.references name).all settled.contains then
        settle scope rounds rest (settled ++ [name])
      else settle scope rounds (rest ++ [name]) settled

/-- The nested sets with every set behind the sets inside it. As many rounds as the square of
their number are enough, and what is left then sits on a cycle. -/
def order (scope : Scope) (found : Registry Layout) : Except ModelError (Registry Layout) :=
  match settle scope (found.size * found.size) found.names [] with
  | (settled, []) => .ok (found.arrange settled)
  | (_, pending) => .error (.nestedCycle (pending.mergeSort fun a b => decide (a ≤ b)))

/-- This hands the usage of every set down to the sets inside it, the outermost sets first. -/
def propagate (scope : Scope) (found : Registry Layout) : Registry Layout :=
  found.names.reverse.foldl
    (fun found name =>
      match found.get? name with
      | none => found
      | some outer =>
          (scope.references name).foldl
            (fun found inner =>
              found.update inner fun layout =>
                { layout with
                  request := layout.request || outer.request
                  reply := layout.reply || outer.reply })
            found)
    found

/-- The nested sets of a family, each behind the sets inside it. -/
def resolve (scope : Scope) (roots : Registry RootSet) :
    Except ModelError (Registry Layout) := do
  let found ← explore scope roots Registry.empty roots.names
  let ordered ← order scope (markRoots scope roots found)
  return propagate scope ordered

end NetlinkFamily.Nesting
