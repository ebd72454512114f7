import NetlinkFamily.Output.File
import NetlinkFamily.Proofs.Outcome
import Mathlib.Data.List.Induction

namespace NetlinkFamily

/-- Every callback of one list of hooks is one of the other list. -/
structure HookList.Within (hooks all : HookList) : Prop where
  call : hooks.call ⊆ all.call
  dump : hooks.dump ⊆ all.dump

/-- All hooks are among others, each in its place. -/
structure Hooks.Within (hooks all : Hooks) : Prop where
  pre : hooks.pre.Within all.pre
  post : hooks.post.Within all.post

namespace Family

open Outcome

/-- What is selected is what no pattern excludes. -/
theorem select_eq_filter (messages : Registry Operation) (excludes : List Pattern)
    (kind : Operation → Bool) :
    select messages excludes kind =
      (select messages [] kind).filter fun name => !Pattern.anyMatchesStart excludes name := by
  simp only [select, List.filter_map, List.filter_filter]
  congr 2
  funext entry
  simp [Pattern.anyMatchesStart, Bool.and_comm]

/-- Patterns leave some of what is selected without them. -/
theorem select_sublist (messages : Registry Operation) (excludes : List Pattern)
    (kind : Operation → Bool) :
    (select messages excludes kind).Sublist (select messages [] kind) := by
  rw [select_eq_filter]
  exact List.filter_sublist

/-- If each operation adds the callback that it names, then the collected ones are those that some
operation names. -/
theorem mem_collectHooks_of_adds (read : Hooks → List String)
    (given : Operation → Option String) (none : read {} = [])
    (adds : ∀ before operation name, name ∈ read (collectHooks (before ++ [operation])) ↔
      name ∈ read (collectHooks before) ∨ given operation = some name)
    (operations : List Operation) (name : String) :
    name ∈ read (collectHooks operations) ↔
      ∃ operation ∈ operations, given operation = some name := by
  induction operations using List.reverseRecOn with
  | nil =>
      show name ∈ read {} ↔ _
      simp [none]
  | append_singleton before operation ih => simp [adds, ih, or_and_right, exists_or]

/-- The hooks in front are those of the modes of the operations. -/
theorem mem_pre_collectHooks (operations : List Operation) (name : String) :
    (name ∈ (collectHooks operations).pre.call ↔
      ∃ operation ∈ operations, operation.doMode.bind Spec.Mode.pre = some name) ∧
    (name ∈ (collectHooks operations).pre.dump ↔
      ∃ operation ∈ operations, operation.dumpMode.bind Spec.Mode.pre = some name) :=
  ⟨mem_collectHooks_of_adds (fun hooks => hooks.pre.call)
      (fun operation => operation.doMode.bind Spec.Mode.pre) rfl (by simp [collectHooks]) ..,
    mem_collectHooks_of_adds (fun hooks => hooks.pre.dump)
      (fun operation => operation.dumpMode.bind Spec.Mode.pre) rfl (by simp [collectHooks]) ..⟩

/-- The hooks behind are those of the modes of the operations. -/
theorem mem_post_collectHooks (operations : List Operation) (name : String) :
    (name ∈ (collectHooks operations).post.call ↔
      ∃ operation ∈ operations, operation.doMode.bind Spec.Mode.post = some name) ∧
    (name ∈ (collectHooks operations).post.dump ↔
      ∃ operation ∈ operations, operation.dumpMode.bind Spec.Mode.post = some name) :=
  ⟨mem_collectHooks_of_adds (fun hooks => hooks.post.call)
      (fun operation => operation.doMode.bind Spec.Mode.post) rfl (by simp [collectHooks]) ..,
    mem_collectHooks_of_adds (fun hooks => hooks.post.dump)
      (fun operation => operation.dumpMode.bind Spec.Mode.post) rfl (by simp [collectHooks]) ..⟩

/-- Fewer operations name no other callbacks. -/
theorem collectHooks_within {few operations : List Operation} (sub : few ⊆ operations) :
    (collectHooks few).Within (collectHooks operations) := by
  have kept {given : Operation → Option String} {name : String} :
      (∃ operation ∈ few, given operation = some name) →
        ∃ operation ∈ operations, given operation = some name :=
    fun ⟨operation, inside, gives⟩ => ⟨operation, sub inside, gives⟩
  refine ⟨⟨fun name member => ?_, fun name member => ?_⟩,
    ⟨fun name member => ?_, fun name member => ?_⟩⟩
  · exact (mem_pre_collectHooks operations name).1.2
      (kept ((mem_pre_collectHooks few name).1.1 member))
  · exact (mem_pre_collectHooks operations name).2.2
      (kept ((mem_pre_collectHooks few name).2.1 member))
  · exact (mem_post_collectHooks operations name).1.2
      (kept ((mem_post_collectHooks few name).1.1 member))
  · exact (mem_post_collectHooks operations name).2.2
      (kept ((mem_post_collectHooks few name).2.1 member))

/-- Operations that all use one set still do so when some are left out. -/
theorem exists_shareGlobalPolicy {scope : Scope} {few operations : List Operation}
    (sub : few.Sublist operations) {policy : Option GlobalPolicy}
    (shared : shareGlobalPolicy scope operations = .ok policy) :
    ∃ smaller, shareGlobalPolicy scope few = .ok smaller := by
  have sets := sub.filterMap Operation.attrSet
  unfold shareGlobalPolicy at shared ⊢
  split
  · exact ⟨none, rfl⟩
  · rename_i name others named
    rw [named] at sets
    split at shared
    · rename_i none
      rw [none] at sets
      cases sets
    · rename_i first rest all
      rw [all] at sets
      split at shared
      · rename_i same
        have every : ∀ set ∈ first :: rest, set = first := by
          intro set member
          rcases List.mem_cons.1 member with rfl | later
          · rfl
          · simpa using List.all_eq_true.1 same set later
        obtain rfl : name = first := every name (sets.subset List.mem_cons_self)
        obtain ⟨set, found, _⟩ := bind_eq_ok_iff.1 shared
        have alike : others.all (· = name) = true := by
          rw [List.all_eq_true]
          intro set member
          simpa using every set (sets.subset (List.mem_cons_of_mem _ member))
        rw [if_pos alike, found]
        exact ⟨_, rfl⟩
      · cases shared

/-- Fewer operations have a shared policy where more of them do. -/
theorem exists_globalPolicyOf {kind : Spec.KernelPolicy} {scope : Scope}
    {few operations : List Operation} (sub : few.Sublist operations) {policy : Option GlobalPolicy}
    (shared : globalPolicyOf kind scope operations = .ok policy) :
    ∃ smaller, globalPolicyOf kind scope few = .ok smaller := by
  unfold globalPolicyOf at shared ⊢
  split
  · rename_i isGlobal
    rw [if_pos isGlobal] at shared
    exact exists_shareGlobalPolicy sub shared
  · exact ⟨none, rfl⟩

section Constants

variable (family : Family) (operationNames notificationNames : List String) (hooks : Hooks)
  (globalPolicy : Option GlobalPolicy)

/-- What is selected does not matter to the definitions. -/
theorem definitionsFrom_selection (constants : List (String × C.DefineValue))
    (definitions : List Spec.Definition) :
    Constants.definitionsFrom
        { family with operationNames, notificationNames, hooks, globalPolicy } constants
        definitions =
      Constants.definitionsFrom family constants definitions := by
  induction definitions generalizing constants with
  | nil => rfl
  | cons definition rest ih =>
      simp only [Constants.definitionsFrom, ih]
      rfl

/-- The header of constants reads nothing that depends on the selection. -/
theorem constants_selection :
    Constants.header { family with operationNames, notificationNames, hooks, globalPolicy } =
      Constants.header family := by
  simp only [Constants.header, definitionsFrom_selection]
  rfl

/-- What is selected does not matter to the shared header. -/
theorem generate_selection {options : OutputOptions} (shared : options.consumer = .shared) :
    options.generate { family with operationNames, notificationNames, hooks, globalPolicy } =
      options.generate family := by
  simp only [OutputOptions.generate, OutputOptions.declarations, shared, if_true,
    constants_selection]
  rfl

end Constants

variable {file : Spec.File} {family : Family}

/-- What is built with exclusions, from what is built without. -/
theorem exists_ofSpec_of_nil (built : ofSpec file [] = .ok family) (excludes : List Pattern) :
    ∃ globalPolicy, ofSpec file excludes = .ok
      { family with
        operationNames :=
          family.operationNames.filter fun name => !Pattern.anyMatchesStart excludes name
        notificationNames :=
          family.notificationNames.filter fun name => !Pattern.anyMatchesStart excludes name
        hooks :=
          collectHooks (pick family.messages
            (family.operationNames.filter fun name => !Pattern.anyMatchesStart excludes name))
        globalPolicy } := by
  simp only [ofSpec, bind_eq_ok_iff, pure_eq_ok_iff] at built ⊢
  obtain ⟨outline, begun, nestedSets, resolved, globalPolicy, shared, rfl⟩ := built
  obtain ⟨smaller, policy⟩ := exists_globalPolicyOf
    ((select_sublist outline.numbered excludes isRequest).filterMap outline.messages.get?) shared
  refine ⟨smaller, outline, begun, nestedSets, resolved, smaller, policy, ?_⟩
  simp only [← select_eq_filter]

/-- The hooks of a family are those of its operations. -/
theorem hooks_eq (built : ofSpec file [] = .ok family) :
    family.hooks = collectHooks family.operations := by
  simp only [ofSpec, bind_eq_ok_iff, pure_eq_ok_iff] at built
  obtain ⟨_, _, _, _, _, _, rfl⟩ := built
  rfl

/-- A family can be built whatever is excluded. The names that some pattern matches are not
selected, callbacks are only lost, and all else is as without exclusions. -/
theorem ofSpec_excluding (built : ofSpec file [] = .ok family) (excludes : List Pattern) :
    ∃ reduced, ofSpec file excludes = .ok reduced ∧
      reduced.operationNames =
        family.operationNames.filter (fun name => !Pattern.anyMatchesStart excludes name) ∧
      reduced.notificationNames =
        family.notificationNames.filter (fun name => !Pattern.anyMatchesStart excludes name) ∧
      reduced.hooks.Within family.hooks ∧
      reduced =
        { family with
          operationNames := reduced.operationNames
          notificationNames := reduced.notificationNames
          hooks := reduced.hooks
          globalPolicy := reduced.globalPolicy } ∧
      ∀ options : OutputOptions, options.consumer = .shared →
        options.generate reduced = options.generate family := by
  obtain ⟨globalPolicy, excluding⟩ := exists_ofSpec_of_nil built excludes
  refine ⟨_, excluding, rfl, rfl, ?_, rfl, fun options shared => ?_⟩
  · rw [hooks_eq built]
    exact collectHooks_within (List.filter_sublist.filterMap _).subset
  · exact generate_selection family _ _ _ _ shared

/-- Two operations with callbacks that share one policy, and a notification about the first. -/
def hooked : Spec.File where
  license := Spec.acceptedLicense
  family :=
    { name := "f"
      kernelPolicy := .global
      attributeSets := [{ name := "f", attributes := [{ name := "x", kind := some "u8" }] }]
      operations :=
        { list :=
            [{ name := "get"
               attributeSet := some "f"
               doMode := some
                 { request := some { attributes := ["x"] }
                   reply := some { attributes := ["x"] }
                   pre := some "lock"
                   post := some "unlock" } },
             { name := "set-all"
               attributeSet := some "f"
               doMode := some
                 { request := some { attributes := ["x"] }
                   pre := some "lock"
                   post := some "commit" } },
             { name := "changed", notify := some "get" }] } }

/-- The pattern of the names that begin with `set`. -/
def setPattern : Pattern :=
  .sequence (.oneOf (.single 's')) (.sequence (.oneOf (.single 'e')) (.oneOf (.single 't')))

theorem isSome_ofSpec_hooked : (ofSpec hooked []).toOption.isSome = true := by decide +kernel

/-- The family whose operations have callbacks. -/
def hookedFamily : Family :=
  (ofSpec hooked []).toOption.get isSome_ofSpec_hooked

/-- Without the second operation, its own callback is gone and the shared one stays. -/
theorem ofSpec_excluding_set :
    ofSpec hooked [] = .ok hookedFamily ∧
      hookedFamily.operationNames = ["get", "set-all"] ∧
      hookedFamily.hooks.post.call = ["unlock", "commit"] ∧
      ∃ reduced, ofSpec hooked [setPattern] = .ok reduced ∧
        reduced.operationNames = ["get"] ∧ reduced.notificationNames = ["changed"] ∧
        reduced.hooks.Within hookedFamily.hooks ∧ reduced.messages = hookedFamily.messages ∧
        ∀ options : OutputOptions, options.consumer = .shared →
          options.generate reduced = options.generate hookedFamily := by
  have built : ofSpec hooked [] = .ok hookedFamily := eq_ok_get isSome_ofSpec_hooked
  obtain ⟨reduced, excluding, operations, notifications, hooks, same, generated⟩ :=
    ofSpec_excluding built [setPattern]
  refine ⟨built, by decide +kernel, by decide +kernel, reduced, excluding, ?_, ?_, hooks, ?_,
    generated⟩
  · rw [operations]
    decide +kernel
  · rw [notifications]
    decide +kernel
  · rw [same]

end Family

end NetlinkFamily
