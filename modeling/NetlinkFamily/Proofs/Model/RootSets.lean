import NetlinkFamily.Proofs.Model.Messages

namespace NetlinkFamily

/-- The attributes that are used in a direction. -/
def RootSet.used (root : RootSet) : Direction → List String
  | .request => root.request
  | .reply => root.reply

/-- An operation uses a set unless it is a notification, which has no attributes of its own. -/
def Operation.UsesSet (operation : Operation) (set : String) : Prop :=
  operation.notify = none ∧ operation.attrSet = some set

namespace Spec

/-- The same as the specification has it. -/
def Operation.UsesSet (operation : Operation) (set : String) : Prop :=
  operation.notify = none ∧ operation.attributeSet = some set

/-- The attributes of the message of a direction, none if there is no such message. -/
def Mode.carried (mode : Mode) : NetlinkFamily.Direction → List String
  | .request => (mode.request.map Direction.attributes).getD []
  | .reply => (mode.reply.map Direction.attributes).getD []

/-- The attributes that an operation carries in a direction: those of its call and of its dump, and
in the direction of replies those of its event as well. -/
def Operation.carried (operation : Operation) (direction : NetlinkFamily.Direction) : List String :=
  (operation.call.map (Mode.carried · direction)).getD [] ++
    (operation.dumpMode.map (Mode.carried · direction)).getD [] ++
    match direction with
    | .request => []
    | .reply => operation.event.getD []

end Spec

namespace RootSet

open Outcome

/-- A name that is inserted joins the others. -/
theorem mem_insertSorted {name other : String} {names : List String} :
    other ∈ insertSorted name names ↔ other = name ∨ other ∈ names := by
  induction names with
  | nil => simp [insertSorted]
  | cons first rest ih =>
      unfold insertSorted
      split
      · simp
      · split
        · rename_i same
          simp [same]
        · simp only [List.mem_cons, ih]
          exact or_left_comm

/-- A union has the names of both. -/
theorem mem_union {names more : List String} {name : String} :
    name ∈ union names more ↔ name ∈ names ∨ name ∈ more := by
  unfold union
  induction more generalizing names with
  | nil => simp
  | cons first rest ih =>
      rw [List.foldl_cons, ih, mem_insertSorted, List.mem_cons]
      tauto

/-- The message of a mode carries what the specification lists for it. -/
theorem attributesOf_eq (operation : Operation) (mode : OperationMode) (direction : Direction) :
    (operation.attributesOf mode direction).getD [] =
      ((operation.mode mode).map (Spec.Mode.carried · direction)).getD [] := by
  cases direction <;> cases found : operation.mode mode <;>
    simp [Operation.attributesOf, Spec.Mode.carried, found]

/-- What is collected of an operation is what its specification lists. -/
theorem mem_used_ofOperation {numbering : Spec.NumberingModel} {spec : Spec.Operation}
    {operation : Operation} (realises : Operation.Realises numbering spec operation)
    {direction : Direction} {attr : String} :
    attr ∈ (ofOperation operation).used direction ↔ attr ∈ spec.carried direction := by
  have call := attributesOf_eq operation .call direction
  have dump := attributesOf_eq operation .dump direction
  simp only [Operation.mode, realises.doMode] at call
  simp only [Operation.mode, realises.dumpMode] at dump
  cases direction with
  | request =>
      simp only [used, ofOperation, mem_union, Operation.requestAttributes, call, dump,
        Spec.Operation.carried, List.append_nil, List.not_mem_nil, false_or]
  | reply =>
      simp only [used, ofOperation, mem_union, Operation.replyAttributes, call, dump,
        Spec.Operation.carried, realises.event, List.not_mem_nil, false_or]

/-- The attributes of every message are among those that are collected of its operation. -/
theorem used_of_attributesOf {operation : Operation} {mode : OperationMode}
    {direction : Direction} {attributes : List String}
    (carried : operation.attributesOf mode direction = some attributes) :
    attributes ⊆ (ofOperation operation).used direction := by
  have either : operation.attributesOf .call direction = some attributes ∨
      operation.attributesOf .dump direction = some attributes := by
    cases mode with
    | dump => exact .inr carried
    | _ => exact .inl carried
  intro attr member
  cases direction with
  | request =>
      simp only [used, ofOperation, mem_union, Operation.requestAttributes, List.mem_append]
      rcases either with same | same <;> simp [same, member]
  | reply =>
      simp only [used, ofOperation, mem_union, Operation.replyAttributes, List.mem_append]
      rcases either with same | same <;> simp [same, member]

/-- The messages of a root set use an attribute in a direction. -/
def Uses (roots : Registry RootSet) (root : String) (direction : Direction) (attr : String) :
    Prop :=
  ∃ usage, roots.get? root = some usage ∧ attr ∈ usage.used direction

/-- What some operations add to the root sets: the sets that they use, with what they carry. -/
structure Adds (operations : List Operation) (before after : Registry RootSet) : Prop where
  names : ∀ root, root ∈ after.names ↔
    root ∈ before.names ∨ ∃ operation ∈ operations, operation.UsesSet root
  uses : ∀ root direction attr, Uses after root direction attr ↔
    Uses before root direction attr ∨ ∃ operation ∈ operations, operation.UsesSet root ∧
      attr ∈ (ofOperation operation).used direction

/-- No operations add nothing. -/
theorem adds_nil {roots : Registry RootSet} : Adds [] roots roots where
  names := by simp
  uses := by simp

/-- Two lists of operations add what each of them does. -/
theorem Adds.append {first second : List Operation} {before middle after : Registry RootSet}
    (here : Adds first before middle) (later : Adds second middle after) :
    Adds (first ++ second) before after where
  names root := by
    rw [later.names, here.names]
    simp only [List.mem_append, or_and_right, exists_or, or_assoc]
  uses root direction attr := by
    rw [later.uses, here.uses]
    simp only [List.mem_append, or_and_right, exists_or, or_assoc]

/-- An operation that uses no set adds nothing. -/
theorem adds_unused {operation : Operation} {roots : Registry RootSet}
    (unused : ∀ root, ¬operation.UsesSet root) : Adds [operation] roots roots where
  names := by simp [unused]
  uses := by simp [unused]

/-- An operation adds what it carries to what is known of its set. -/
theorem adds_insert {operation : Operation} {name : String} {roots : Registry RootSet}
    (own : operation.notify = none) (named : operation.attrSet = some name) :
    Adds [operation] roots (roots.insert name
      ⟨union ((roots.get? name).getD ⟨[], []⟩).request (ofOperation operation).request,
        union ((roots.get? name).getD ⟨[], []⟩).reply (ofOperation operation).reply⟩) := by
  have only (root : String) : operation.UsesSet root ↔ root = name := by
    simp [Operation.UsesSet, own, named, eq_comm]
  constructor
  · intro root
    simp only [Registry.mem_names_insert, List.mem_singleton, exists_eq_left, only]
    exact or_comm
  · intro root direction attr
    simp only [List.mem_singleton, exists_eq_left, only, Uses, Registry.get?_insert]
    by_cases same : root = name
    · subst same
      simp only [if_true, Option.some.injEq, exists_eq_left', true_and]
      -- A set that is met for the first time has used nothing so far.
      cases known : roots.get? root <;> cases direction <;> simp [used, mem_union]
    · simp [same]

/-- Adding an operation adds what it uses. -/
theorem adds_of_addOperation {scope : Scope} {operation : Operation}
    {before after : Registry RootSet} (done : addOperation scope before operation = .ok after) :
    Adds [operation] before after := by
  unfold addOperation at done
  split at done
  · rename_i notification
    rw [← Except.ok.inj done]
    refine adds_unused fun root uses => ?_
    rw [uses.1] at notification
    cases notification
  · rename_i own
    split at done
    · rename_i none
      rw [← Except.ok.inj done]
      refine adds_unused fun root uses => ?_
      rw [uses.2] at none
      cases none
    · rename_i name named
      simp only [bind_eq_ok_iff, pure_eq_ok_iff] at done
      obtain ⟨_, _, _, _, rfl⟩ := done
      exact adds_insert (by simpa using own) named

/-- The root sets of all operations hold what each of them adds. -/
theorem adds_of_foldlM {scope : Scope} {operations : List Operation}
    {before after : Registry RootSet}
    (done : operations.foldlM (addOperation scope) before = .ok after) :
    Adds operations before after := by
  induction operations generalizing before with
  | nil =>
      rw [List.foldlM_nil, pure_eq_ok_iff] at done
      exact done ▸ adds_nil
  | cons operation rest ih =>
      rw [List.foldlM_cons, bind_eq_ok_iff] at done
      obtain ⟨middle, added, done⟩ := done
      exact (adds_of_addOperation added).append (ih done)

end RootSet

namespace Family

open Outcome RootSet

/-- A message is found for each operation, and an operation for each message. -/
theorem exists_realised_iff {numbering : Spec.NumberingModel} {specs : List Spec.Operation}
    {messages : List Operation}
    (realised : List.Forall₂ (Operation.Realises numbering) specs messages)
    {ofMessage : Operation → Prop} {ofSpec : Spec.Operation → Prop}
    (same : ∀ spec message, Operation.Realises numbering spec message →
      (ofMessage message ↔ ofSpec spec)) :
    (∃ message ∈ messages, ofMessage message) ↔ ∃ spec ∈ specs, ofSpec spec := by
  induction realised with
  | nil => simp
  | cons here _ ih => simp only [List.exists_mem_cons_iff, same _ _ here, ih]

/-- A message uses the sets its description does. -/
theorem usesSet_iff {numbering : Spec.NumberingModel} {spec : Spec.Operation}
    {message : Operation} (realises : Operation.Realises numbering spec message) (set : String) :
    message.UsesSet set ↔ spec.UsesSet set := by
  unfold Operation.UsesSet Spec.Operation.UsesSet
  rw [realises.notify]
  exact and_congr_right fun own => by rw [realises.attrSet own]

/-- The root sets of an outline are the sets that operations use. -/
theorem mem_rootSets_iff {spec : Spec.Family} {outline : Outline}
    (begun : Outline.ofSpec spec = .ok outline) (root : String) :
    root ∈ outline.rootSets.names ↔
      ∃ operation ∈ spec.operations.named.values, operation.UsesSet root := by
  have adds := adds_of_foldlM (Outline.builtFrom begun).rootSets
  have realised := (realises_of_outline begun).values
  rw [adds.names, ← exists_realised_iff realised fun spec message realises =>
    usesSet_iff realises root]
  simp [Registry.empty, Registry.names, Entries.names]

/-- The root sets of an outline use what operations carry. -/
theorem uses_rootSets_iff {spec : Spec.Family} {outline : Outline}
    (begun : Outline.ofSpec spec = .ok outline) (root : String) (direction : Direction)
    (attr : String) :
    Uses outline.rootSets root direction attr ↔
      ∃ operation ∈ spec.operations.named.values, operation.UsesSet root ∧
        attr ∈ operation.carried direction := by
  have adds := adds_of_foldlM (Outline.builtFrom begun).rootSets
  have realised := (realises_of_outline begun).values
  rw [adds.uses, ← exists_realised_iff realised fun spec message realises =>
    and_congr (usesSet_iff realises root) (mem_used_ofOperation realises)]
  simp [Uses, Registry.empty, Registry.get?]

end Family

end NetlinkFamily
