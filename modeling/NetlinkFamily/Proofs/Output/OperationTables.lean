import NetlinkFamily.Proofs.Model.Exclusion
import NetlinkFamily.Proofs.Output.References
import NetlinkFamily.Proofs.Output.Standing

namespace NetlinkFamily.Kernel

open Declaration Outcome

variable {family : Family} {operation : Operation} {mode : OperationMode}
  {declarations definitions : List Declaration} {file : Spec.File} {excludes : List Pattern}

section Signatures

/-- Parameters of the function that handles a mode. -/
def handlerParameters (mode : OperationMode) : List String :=
  ["struct sk_buff *skb",
    if mode = .dump then "struct netlink_callback *cb" else "struct genl_info *info"]

/-- Parameters of a hook around calls. -/
def callHookParameters : List String :=
  ["const struct genl_split_ops *ops", "struct sk_buff *skb", "struct genl_info *info"]

/-- Parameters of a hook around dumps. -/
def dumpHookParameters : List String :=
  ["struct netlink_callback *cb"]

/-- The signature that the function needs which a member of an entry names, if it is a function. -/
def expectedSignature (member function : String) : Option C.Signature :=
  match member with
  | "doit" =>
      some { result := "int", name := function, parameters := handlerParameters .call }
  | "dumpit" =>
      some { result := "int", name := function, parameters := handlerParameters .dump }
  | "pre_doit" =>
      some { result := "int", name := function, parameters := callHookParameters }
  | "post_doit" =>
      some { result := "void", name := function, parameters := callHookParameters }
  | "start" | "done" =>
      some { result := "int", name := function, parameters := dumpHookParameters }
  | _ => none

/-- Signature of the function that handles a mode of an operation. -/
def handlerSignature (family : Family) (operation : Operation) (mode : OperationMode) :
    C.Signature :=
  { result := "int"
    name := handler family operation mode
    parameters := handlerParameters mode }

/-- A call mode is the call of the operation or its dump. -/
theorem mode_cases {spec : Spec.Mode} (listed : (mode, spec) ∈ callModes operation) :
    mode = .call ∧ operation.doMode = some spec ∨
      mode = .dump ∧ operation.dumpMode = some spec := by
  simp only [callModes, List.mem_append, Option.mem_toList, Option.map_eq_some_iff,
    Prod.mk.injEq] at listed
  rcases listed with ⟨_, given, rfl, rfl⟩ | ⟨_, given, rfl, rfl⟩
  · exact Or.inl ⟨rfl, given⟩
  · exact Or.inr ⟨rfl, given⟩

end Signatures

section Header

/-- Each hook is declared with the parameters of its kind. -/
theorem prototypes_hookPrototypes :
    prototypes (hookPrototypes family) =
      (family.hooks.pre.call.map fun name =>
        { result := "int", name := CName.lower name, parameters := callHookParameters }) ++
      (family.hooks.post.call.map fun name =>
        { result := "void", name := CName.lower name, parameters := callHookParameters }) ++
      (family.hooks.pre.dump.map fun name =>
        { result := "int", name := CName.lower name, parameters := dumpHookParameters }) ++
      family.hooks.post.dump.map fun name =>
        { result := "int", name := CName.lower name, parameters := dumpHookParameters } := by
  have each (result : String) (parameters names : List String) :
      prototypes (names.map fun name => prototype result (CName.lower name) parameters) =
        names.map fun name => { result, name := CName.lower name, parameters } := by
    simp [prototypes, List.filterMap_map, Function.comp_def, prototype, prototype?]
  simp only [hookPrototypes, prototypes_append, each]
  rfl

/-- Each mode of an operation has its handler declared. -/
theorem prototypes_handlerPrototypes :
    prototypes (handlerPrototypes family operation) =
      (callModes operation).map fun mode => handlerSignature family operation mode.1 := by
  simp [prototypes, handlerPrototypes, List.filterMap_map, Function.comp_def, prototype,
    prototype?, handlerSignature, handlerParameters]

/-- Declarations have no prototypes exactly when none of them is one. -/
theorem prototypes_eq_nil_iff :
    prototypes declarations = [] ↔ ∀ declaration ∈ declarations, declaration.prototype? = none :=
  List.filterMap_eq_nil_iff

/-- A policy that other sources use is declared on a line. -/
theorem prototype?_sharedTable {stem : String} {layout : Layout} {declaration : Declaration}
    (done : sharedTable family stem layout = .ok declaration) : declaration.prototype? = none := by
  simp only [sharedTable, bind_eq_ok_iff, pure_eq_ok_iff] at done
  obtain ⟨_, _, rfl⟩ := done
  rfl

/-- Declaring the policies of a call declares no function. -/
theorem prototypes_callPolicyHeader (done : callPolicyHeader family operation = .ok declarations) :
    prototypes declarations = [] := by
  unfold callPolicyHeader at done
  split at done
  · cases done
    rfl
  · obtain ⟨subject, _, done⟩ := bind_eq_ok_iff.1 done
    split at done
    · cases done
      rfl
    · split at done
      · cases done
        rfl
      · simp only [bind_eq_ok_iff, pure_eq_ok_iff] at done
        obtain ⟨table, shared, rfl⟩ := done
        simp [prototype?_sharedTable shared]

/-- Declaring the shared tables declares no function. -/
theorem prototypes_sharedSection {shared : List Declaration}
    (done : (globalSection family fun layout => do
      let table ← sharedTable family layout.renderName layout
      return [table]) = .ok shared) : prototypes shared = [] := by
  refine prototypes_eq_nil_iff.2 (forall_globalSection (fun _ => rfl) rfl ?_ done)
  intro layout tables done
  obtain ⟨table, made, done⟩ := bind_eq_ok_iff.1 done
  exact Except.ok.inj done ▸ List.forall_mem_singleton.2 (prototype?_sharedTable made)

/-- The prototypes of the header are those of the callbacks and of the handlers. -/
theorem prototypes_header (declared : header family = .ok declarations) :
    prototypes declarations = prototypes (hookPrototypes family) ++
      family.operations.flatMap fun operation =>
        (callModes operation).map fun mode => handlerSignature family operation mode.1 := by
  simp only [header, bind_eq_ok_iff, pure_eq_ok_iff] at declared
  obtain ⟨nests, nested, shared, whole, policies, made, rfl⟩ := declared
  have comment : prototypes (nestsComment family) = [] := by
    unfold nestsComment
    split <;> rfl
  have inNests : prototypes nests = [] := by
    apply prototypes_eq_nil_iff.2
    intro declaration listed
    obtain ⟨_, _, made⟩ := exists_of_forall₂ (mapM_eq_ok_iff.1 nested) declaration listed
    exact prototype?_sharedTable made
  have inPolicies : prototypes policies = [] := by
    refine prototypes_eq_nil_iff.2 (forall_operationSection ?_ made)
    exact fun _ _ done => prototypes_eq_nil_iff.1 (prototypes_callPolicyHeader done)
  have groups : prototypes (groupHeader family) = [] := by
    unfold groupHeader
    split <;> rfl
  have described : prototypes (familyHeader family) = [] := by
    unfold familyHeader
    split <;> rfl
  have title : prototypes (if describesFamily family then []
      else [tableComment family, .line ("extern " ++ tableDeclarator family ++ ";")]) = [] := by
    split <;> rfl
  have handlers : prototypes (family.operations.flatMap (handlerPrototypes family)) =
      family.operations.flatMap fun operation =>
        (callModes operation).map fun mode => handlerSignature family operation mode.1 := by
    rw [prototypes, List.filterMap_flatMap]
    exact List.flatMap_congr fun _ _ => prototypes_handlerPrototypes
  simp [tableHeader, comment, inNests, prototypes_sharedSection whole, inPolicies, groups,
    described, title, handlers]

end Header

section Entries

/-- The members of an entry that are about no function. -/
theorem expectedSignature_eq_none {member function : String} (plain : member = "cmd" ∨
    member = "validate" ∨ member = "flags" ∨ member ∈ policyKeys) :
    expectedSignature member function = none := by
  simp only [policyKeys, List.mem_cons, List.not_mem_nil, or_false] at plain
  rcases plain with rfl | rfl | rfl | rfl | rfl <;> rfl

/-- The members of a policy have the keys of one. -/
theorem keys_policyMembers {symbol : String} {attributes : List String}
    {policy : List (String × String)}
    (done : policyMembers family operation symbol attributes = .ok policy) :
    ∀ member ∈ policy, member.1 ∈ policyKeys := by
  unfold policyMembers at done
  split at done
  · cases done
    simp
  · obtain ⟨layout, _, done⟩ := bind_eq_ok_iff.1 done
    split at done
    · cases done
    · cases done
      simp [policyKeys]

/-- An operation's entry lists its members around a policy. -/
theorem exists_of_operationEntry {members : List (String × String)}
    (done : operationEntry family operation = .ok members) :
    ∃ policy, members = operationMembers family operation policy ∧
      ∀ member ∈ policy, member.1 ∈ policyKeys := by
  unfold operationEntry at done
  split at done <;> simp only [bind_eq_ok_iff, pure_eq_ok_iff] at done
  · obtain ⟨policy, made, rfl⟩ := done
    exact ⟨policy, rfl, keys_policyMembers made⟩
  · obtain ⟨_, rfl, rfl⟩ := done
    exact ⟨[], rfl, by simp⟩

/-- A mode's entry lists its members around a policy. -/
theorem exists_of_modeEntry {spec : Spec.Mode} {members : List (String × String)}
    (done : modeEntry family operation mode spec = .ok members) :
    ∃ policy, members = modeMembers family operation mode spec policy ∧
      ∀ member ∈ policy, member.1 ∈ policyKeys := by
  unfold modeEntry at done
  dsimp only at done
  split at done <;> simp only [bind_eq_ok_iff, pure_eq_ok_iff] at done
  · obtain ⟨_, rfl, rfl⟩ := done
    exact ⟨[], rfl, by simp⟩
  · obtain ⟨policy, made, rfl⟩ := done
    exact ⟨policy, rfl, keys_policyMembers made⟩

/-- The functions that an entry of an operation names are its handlers. -/
theorem handler_of_operationMembers {policy : List (String × String)}
    (plain : ∀ member ∈ policy, member.1 ∈ policyKeys) {member : String × String}
    (listed : member ∈ operationMembers family operation policy) {signature : C.Signature}
    (expected : expectedSignature member.1 member.2 = some signature) :
    ∃ mode spec, (mode, spec) ∈ callModes operation ∧
      signature = handlerSignature family operation mode := by
  simp only [operationMembers, List.flatten_cons, List.flatten_nil, List.mem_append,
    List.mem_singleton, List.append_nil] at listed
  rcases listed with rfl | validate | handlers | here | flags
  · cases expected
  · rw [key_flagMember _ validate] at expected
    cases expected
  · obtain ⟨⟨mode, spec⟩, called, rfl⟩ := List.mem_map.1 handlers
    refine ⟨mode, spec, called, ?_⟩
    rcases mode_cases called with ⟨rfl, _⟩ | ⟨rfl, _⟩ <;> exact (Option.some.inj expected).symm
  · rw [expectedSignature_eq_none (.inr (.inr (.inr (plain _ here))))] at expected
    cases expected
  · rw [key_flagMember _ flags] at expected
    cases expected

/-- Those that an entry of a mode names are its handler and the callbacks around it. -/
theorem function_of_modeMembers {spec : Spec.Mode} (called : (mode, spec) ∈ callModes operation)
    {policy : List (String × String)} (plain : ∀ member ∈ policy, member.1 ∈ policyKeys)
    {member : String × String}
    (listed : member ∈ modeMembers family operation mode spec policy) {signature : C.Signature}
    (expected : expectedSignature member.1 member.2 = some signature) :
    signature = handlerSignature family operation mode ∨
      (∃ name, spec.pre = some name ∧
        expectedSignature (callbackNames mode).1 (CName.lower name) = some signature) ∨
      ∃ name, spec.post = some name ∧
        expectedSignature (callbackNames mode).2 (CName.lower name) = some signature := by
  simp only [modeMembers, List.flatten_cons, List.flatten_nil, List.mem_append,
    List.mem_singleton, List.append_nil] at listed
  have named {key : String} {function : Option String} (inside : member ∈ callback key function) :
      ∃ name, function = some name ∧ member = (key, CName.lower name) := by
    simpa [callback, eq_comm] using inside
  rcases listed with rfl | validate | before | rfl | after | here | rfl
  · cases expected
  · rw [key_flagMember _ validate] at expected
    cases expected
  · obtain ⟨name, given, rfl⟩ := named before
    exact .inr (.inl ⟨name, given, expected⟩)
  · left
    rcases mode_cases called with ⟨rfl, _⟩ | ⟨rfl, _⟩ <;> exact (Option.some.inj expected).symm
  · obtain ⟨name, given, rfl⟩ := named after
    exact .inr (.inr ⟨name, given, expected⟩)
  · rw [expectedSignature_eq_none (.inr (.inr (.inr (plain _ here))))] at expected
    cases expected
  · cases expected

end Entries

section Declared

variable {signature : C.Signature}

/-- The header declares the handlers of selected operations. -/
theorem handlerSignature_mem_header (declared : header family = .ok declarations)
    (selected : operation ∈ family.operations) {spec : Spec.Mode}
    (called : (mode, spec) ∈ callModes operation) :
    handlerSignature family operation mode ∈ prototypes declarations := by
  rw [prototypes_header declared]
  apply List.mem_append_right
  exact List.mem_flatMap.2 ⟨operation, selected, List.mem_map.2 ⟨(mode, spec), called, rfl⟩⟩

/-- The callbacks of a family are those that its selected operations name. -/
theorem hooks_of_ofSpec (built : Family.ofSpec file excludes = .ok family) :
    family.hooks = Family.collectHooks family.operations := by
  simp only [Family.ofSpec, bind_eq_ok_iff, pure_eq_ok_iff] at built
  obtain ⟨_, _, _, _, _, _, rfl⟩ := built
  rfl

/-- It also declares the callbacks around them. -/
theorem hook_mem_header (built : Family.ofSpec file excludes = .ok family)
    (declared : header family = .ok declarations) (selected : operation ∈ family.operations)
    {spec : Spec.Mode} (called : (mode, spec) ∈ callModes operation) {name : String}
    (given : spec.pre = some name ∧
        expectedSignature (callbackNames mode).1 (CName.lower name) = some signature ∨
      spec.post = some name ∧
        expectedSignature (callbackNames mode).2 (CName.lower name) = some signature) :
    signature ∈ prototypes declarations := by
  rw [prototypes_header declared, prototypes_hookPrototypes, hooks_of_ofSpec built]
  apply List.mem_append_left
  simp only [List.mem_append, List.mem_map]
  have pre := Family.mem_pre_collectHooks family.operations name
  have post := Family.mem_post_collectHooks family.operations name
  rcases mode_cases called with ⟨rfl, runs⟩ | ⟨rfl, runs⟩
  · rcases given with ⟨given, expected⟩ | ⟨given, expected⟩
    · have listed := pre.1.2 ⟨operation, selected, by simp [runs, given]⟩
      exact .inl (.inl (.inl ⟨name, listed, Option.some.inj expected⟩))
    · have listed := post.1.2 ⟨operation, selected, by simp [runs, given]⟩
      exact .inl (.inl (.inr ⟨name, listed, Option.some.inj expected⟩))
  · rcases given with ⟨given, expected⟩ | ⟨given, expected⟩
    · have listed := pre.2.2 ⟨operation, selected, by simp [runs, given]⟩
      exact .inl (.inr ⟨name, listed, Option.some.inj expected⟩)
    · have listed := post.2.2 ⟨operation, selected, by simp [runs, given]⟩
      exact .inr ⟨name, listed, Option.some.inj expected⟩

/-- Every function that an entry of the table of operations names is declared as it is needed. -/
theorem function_mem_header (built : Family.ofSpec file excludes = .ok family)
    (declared : header family = .ok declarations) {entries : List (List (String × String))}
    (listed : operationEntries family = .ok entries) {entry : List (String × String)}
    (inside : entry ∈ entries) {member : String × String} (holds : member ∈ entry)
    (expected : expectedSignature member.1 member.2 = some signature) :
    signature ∈ prototypes declarations := by
  have whole (made : family.operations.mapM (operationEntry family) = .ok entries) :
      signature ∈ prototypes declarations := by
    obtain ⟨operation, selected, done⟩ := exists_of_forall₂ (mapM_eq_ok_iff.1 made) entry inside
    obtain ⟨policy, rfl, plain⟩ := exists_of_operationEntry done
    obtain ⟨mode, spec, called, rfl⟩ := handler_of_operationMembers plain holds expected
    exact handlerSignature_mem_header declared selected called
  unfold operationEntries at listed
  split at listed
  · exact whole listed
  · exact whole listed
  · simp only [bind_eq_ok_iff, pure_eq_ok_iff] at listed
    obtain ⟨parts, made, rfl⟩ := listed
    obtain ⟨part, among, inside⟩ := List.mem_flatten.1 inside
    obtain ⟨operation, selected, modes⟩ := exists_of_forall₂ (mapM_eq_ok_iff.1 made) part among
    obtain ⟨⟨mode, spec⟩, called, done⟩ := exists_of_forall₂ (mapM_eq_ok_iff.1 modes) entry inside
    obtain ⟨policy, rfl, plain⟩ := exists_of_modeEntry done
    rcases function_of_modeMembers called plain holds expected with
      rfl | ⟨name, before⟩ | ⟨name, after⟩
    · exact handlerSignature_mem_header declared selected called
    · exact hook_mem_header built declared selected called (.inl before)
    · exact hook_mem_header built declared selected called (.inr after)

end Declared

section Counted

/-- A handler has a prototype of its own for each mode of the operation. -/
theorem filter_handlers (known : mode = .call ∨ mode = .dump) (operations : List Operation) :
    (operations.flatMap fun operation =>
        (callModes operation).map fun called => handlerSignature family operation called.1).filter
        (fun signature => signature.parameters = handlerParameters mode) =
      (operations.filter fun operation => (operation.mode mode).isSome).map
        fun operation => handlerSignature family operation mode := by
  have differ : handlerParameters .call ≠ handlerParameters .dump := by decide
  induction operations with
  | nil => rfl
  | cons operation rest ih =>
      rw [List.flatMap_cons, List.filter_append, ih, List.filter_cons]
      rcases known with rfl | rfl <;>
        cases call : operation.doMode <;> cases dump : operation.dumpMode <;>
        simp [callModes, Operation.mode, call, dump, handlerSignature, differ, differ.symm]

/-- Callbacks have other parameters than handlers. -/
theorem filter_hookPrototypes :
    (prototypes (hookPrototypes family)).filter
      (fun signature => signature.parameters = handlerParameters mode) = [] := by
  have forCalls : callHookParameters ≠ handlerParameters mode := by cases mode <;> decide
  have forDumps : dumpHookParameters ≠ handlerParameters mode := by cases mode <;> decide
  simp [prototypes_hookPrototypes, List.filter_map, Function.comp_def, forCalls, forDumps]

/-- The number in the declaration of the table is that of its entries. -/
theorem length_operationEntries {entries : List (List (String × String))}
    (listed : operationEntries family = .ok entries) : entries.length = entryCount family := by
  unfold operationEntries at listed
  unfold entryCount
  cases policy : family.kernelPolicy <;> rw [policy] at listed
  case split =>
    rw [if_pos rfl]
    simp only [bind_eq_ok_iff, pure_eq_ok_iff] at listed
    obtain ⟨parts, made, rfl⟩ := listed
    have each := mapM_eq_ok_iff.1 made
    clear made
    generalize family.operations = operations at each ⊢
    induction each with
    | nil => rfl
    | cons here _ ih =>
        rw [List.flatten_cons, List.length_append, List.flatMap_cons, List.length_append, ih,
          ← (mapM_eq_ok_iff.1 here).length_eq]
  all_goals
    rw [if_neg (by decide)]
    exact (mapM_eq_ok_iff.1 listed).length_eq.symm

/-- A source has one table of operations. -/
theorem operations_source (rendered : source family = .ok definitions) :
    ∃ entries, operationEntries family = .ok entries ∧
      definitions.filterMap operations? = [{ declarator := tableDeclarator family, entries }] := by
  obtain ⟨nests, shared, own, entries, nested, whole, made, listed, _, operations⟩ :=
    parts_of_source rendered
  have inShared : shared.filterMap operations? = [] := by
    rcases globalSection_cases whole with none | ⟨_, _, _, _, filled, rfl⟩
    · exact List.filterMap_eq_nil_iff.2 fun declaration member =>
        operations?_of_plain (none declaration member)
    · obtain ⟨_, _, rfl, _⟩ := filledTable_eq_ok filled
      rfl
  have inOwn : own.filterMap operations? = [] := by
    unfold operationSection at made
    split at made
    · obtain rfl := Except.ok.inj made
      rfl
    · obtain ⟨parts, each, rfl⟩ := map_eq_ok_iff.1 made
      exact (policies_operations each).2
  refine ⟨entries, listed, ?_⟩
  rw [operations, (policies_nests nested).2, inShared, inOwn]
  rfl

end Counted

section Text

/-- A line gives a member of an entry its value. -/
def Sets (member : String × String) (line : String) : Prop :=
  ∃ count, line = "\t\t." ++ member.1 ++ C.tabs count ++ "= " ++ member.2 ++ ","

/-- Lines between braces give the members of an entry their values, in order. -/
def PrintsEntry (members : List (String × String)) (group : List String) : Prop :=
  ∃ lines, List.Forall₂ Sets members lines ∧ group = "\t\x7b" :: lines ++ ["\t\x7d,"]

/-- A group of lines is a table of operations, with its entries in order. -/
def PrintsTable (table : OperationTable) (group : List String) : Prop :=
  ∃ groups, List.Forall₂ PrintsEntry table.entries groups ∧
    group = (table.declarator ++ " = \x7b") :: groups.flatten ++ ["\x7d;"]

/-- A table that is among those of a source is declared there. -/
theorem mem_of_operations {table : OperationTable}
    (listed : table ∈ definitions.filterMap operations?) : .operations table ∈ definitions := by
  obtain ⟨declaration, member, isTable⟩ := List.mem_filterMap.1 listed
  cases declaration with
  | operations own =>
      obtain rfl := Option.some.inj isTable
      exact member
  | _ => cases isTable

/-- Each line of an initializer sets its member. -/
theorem sets_initializerLines (members : List (String × String)) :
    List.Forall₂ Sets members ((C.initializerLines members).map ("\t\t" ++ ·)) := by
  rw [C.initializerLines, List.map_map, List.forall₂_map_right_iff, List.forall₂_same]
  rintro ⟨name, value⟩ _
  refine ⟨(C.tabStop (C.widest (members.map Prod.fst) + 1) - (C.width name + 1) + 7) / 8, ?_⟩
  apply String.toList_injective
  simp [C.tabsTo]

/-- The table of operations is printed with all that its entries hold. -/
theorem printsTable_lines (table : OperationTable) :
    PrintsTable table (Declaration.operations table).lines := by
  refine ⟨table.entries.map fun members =>
    "\t\x7b" :: (C.initializerLines members).map ("\t\t" ++ ·) ++ ["\t\x7d,"], ?_, ?_⟩
  · rw [List.forall₂_map_right_iff, List.forall₂_same]
    exact fun members _ => ⟨_, sets_initializerLines members, rfl⟩
  · rw [lines_operations, List.flatMap_def]

end Text

/-- The header and the source of the kernel side agree on the table of operations: the header
declares each function that an entry names, it declares one handler for each call and dump of a
selected operation and no others, and if it declares the table itself, both sizes are the number of
entries. -/
theorem header_declares_operations (built : Family.ofSpec file excludes = .ok family)
    (declared : header family = .ok declarations) (rendered : source family = .ok definitions) :
    ∃ table headerLines groups lines group, definitions.filterMap operations? = [table] ∧
      render declarations = String.join (headerLines.map (· ++ "\n")) ∧
      Follow groups headerLines ∧
      List.Forall₂ (fun (signature : C.Signature) group => signature.Spells ";" group)
        (prototypes declarations) groups ∧
      render definitions = String.join (lines.map (· ++ "\n")) ∧
      group <:+: lines ∧ PrintsTable table group ∧
      (∀ entry ∈ table.entries, ∀ member ∈ entry, ∀ signature,
        expectedSignature member.1 member.2 = some signature →
          signature ∈ prototypes declarations) ∧
      (∀ mode, mode = .call ∨ mode = .dump →
        (prototypes declarations).filter
            (fun signature => signature.parameters = handlerParameters mode) =
          (family.operations.filter fun operation => (operation.mode mode).isSome).map
            fun operation => handlerSignature family operation mode) ∧
      (family.protocol ≠ "genetlink" →
        table.declarator = "const struct " ++ tableType family ++ " " ++ family.name ++ "_nl_ops[" ++
          toString table.entries.length ++ "]" ∧
        ("extern " ++ table.declarator ++ ";") ∈ headerLines) := by
  obtain ⟨entries, listed, operations⟩ := operations_source rendered
  have settled := isSettled_header declared
  have follow := follow_prototypes settled
  have spelled : List.Forall₂ (fun (signature : C.Signature) group => signature.Spells ";" group)
      (prototypes declarations) ((prototypes declarations).map (·.lines ";")) := by
    rw [List.forall₂_map_right_iff, List.forall₂_same]
    exact fun signature _ => signature.spells_lines ";"
  have held : .operations { declarator := tableDeclarator family, entries } ∈ definitions :=
    mem_of_operations (operations ▸ List.mem_singleton_self _)
  have shown := lines_infix (fun declaration member =>
    stands_of_isSettled (isSettled_source rendered declaration member)) held
  refine ⟨_, _, _, _, _, operations, render_eq declarations, follow, spelled, render_eq definitions,
    shown, printsTable_lines _, ?_, ?_, ?_⟩
  · intro entry inside member holds signature expected
    exact function_mem_header built declared listed inside holds expected
  · intro mode known
    rw [prototypes_header declared, List.filter_append, filter_hookPrototypes,
      filter_handlers known, List.nil_append]
  · intro exported
    have apart : describesFamily family = false := by simpa [describesFamily] using exported
    constructor
    · simp [tableDeclarator, apart, length_operationEntries listed, String.append_assoc]
    · have outside : .line ("extern " ++ tableDeclarator family ++ ";") ∈ declarations := by
        simp only [header, bind_eq_ok_iff, pure_eq_ok_iff] at declared
        obtain ⟨_, _, _, _, _, _, rfl⟩ := declared
        simp [tableHeader, apart]
      have own := lines_infix (fun declaration member =>
        stands_of_isSettled (settled declaration member)) outside
      rw [lines_line] at own
      exact own.subset List.mem_cons_self

/-- A family of an older protocol, whose table has an entry for each mode. -/
def exported : Spec.File where
  license := Spec.acceptedLicense
  family :=
    { name := "f"
      protocol := some "genetlink-legacy"
      kernelPolicy := .split
      attributeSets :=
        [{ name := "f", attributes := [{ name := "x", kind := some "u8" }] }]
      operations :=
        { list :=
            [{ name := "get"
               attributeSet := some "f"
               doMode := some
                { request := some { attributes := ["x"] }, pre := some "f-lock" }
               dumpMode := some { post := some "f-done" } }] } }

theorem isSome_ofSpec_exported : (Family.ofSpec exported []).toOption.isSome = true := by
  decide +kernel

/-- The family of an older protocol. -/
def exportedFamily : Family :=
  (Family.ofSpec exported []).toOption.get isSome_ofSpec_exported

theorem isSome_header_exported : (header exportedFamily).toOption.isSome = true := by
  decide +kernel

theorem isSome_source_exported : (source exportedFamily).toOption.isSome = true := by
  decide +kernel

/-- Two entries name four functions, and the header declares these and the table. -/
theorem header_declares_operations_exported :
    ∃ declarations definitions table headerLines groups lines group,
      header exportedFamily = .ok declarations ∧ source exportedFamily = .ok definitions ∧
      exportedFamily.protocol ≠ "genetlink" ∧
      render declarations = String.join (headerLines.map (· ++ "\n")) ∧
      Follow groups headerLines ∧
      List.Forall₂ (fun (signature : C.Signature) group => signature.Spells ";" group)
        (prototypes declarations) groups ∧
      (prototypes declarations).map C.Signature.name =
        ["f_lock", "f_done", "f_nl_get_doit", "f_nl_get_dumpit"] ∧
      render definitions = String.join (lines.map (· ++ "\n")) ∧
      group <:+: lines ∧ PrintsTable table group ∧
      table.declarator = "const struct genl_split_ops f_nl_ops[2]" ∧
      "extern const struct genl_split_ops f_nl_ops[2];" ∈ headerLines := by
  have declared := eq_ok_get isSome_header_exported
  have rendered := eq_ok_get isSome_source_exported
  have old : exportedFamily.protocol ≠ "genetlink" := by decide +kernel
  obtain ⟨table, headerLines, groups, lines, group, only, header, follow, spelled, source, shown,
    printed, _, _, sizes⟩ :=
    header_declares_operations (eq_ok_get isSome_ofSpec_exported) declared rendered
  obtain ⟨declarator, listed⟩ := sizes old
  have same : table.declarator = "const struct genl_split_ops f_nl_ops[2]" := by
    have named : ((Kernel.source exportedFamily).toOption.get isSome_source_exported).filterMap
        (fun definition => (operations? definition).map OperationTable.declarator) =
          ["const struct genl_split_ops f_nl_ops[2]"] := by
      decide +kernel
    rw [← List.map_filterMap, only] at named
    exact List.singleton_inj.1 named
  rw [same] at listed
  exact ⟨_, _, table, headerLines, groups, lines, group, declared, rendered, old, header, follow,
    spelled, by decide +kernel, source, shown, printed, same, listed⟩

end NetlinkFamily.Kernel
