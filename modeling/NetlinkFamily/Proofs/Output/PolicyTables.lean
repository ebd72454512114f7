import NetlinkFamily.Output.Kernel
import NetlinkFamily.Proofs.Model.Selection
import NetlinkFamily.Proofs.Output.Listing
import NetlinkFamily.Proofs.Output.Spelling

namespace NetlinkFamily

namespace Kernel

open Declaration Outcome

variable {family : Family} {operation : Operation} {mode : OperationMode}
  {request : Operation × OperationMode} {declarations : List Declaration}

/-- The requests of selected operations, in the order of their policies. -/
def requests (family : Family) : List (Operation × OperationMode) :=
  family.operations.flatMap fun operation =>
    ([.call, .dump].filter operation.hasRequest).map fun mode => (operation, mode)

/-- What the entries of the table of operations are about, in order. -/
def rows (family : Family) : List (Operation × OperationMode) :=
  if family.kernelPolicy = .split then
    family.operations.flatMap fun operation =>
      (callModes operation).map fun mode => (operation, mode.1)
  else family.operations.map fun operation => (operation, .call)

/-- What the name of the policy of a request starts with. -/
def stemOf (request : Operation × OperationMode) : String :=
  policyStem request.1 request.2

/-- The table that is built from the attributes of a request. -/
def IsPolicyOf (family : Family) (request : Operation × OperationMode) (table : PolicyTable) :
    Prop :=
  ∃ set attributes layout, request.1.attrSet = some set ∧
    request.1.requestAttributes request.2 = some attributes ∧
    Layout.ofList family.toScope set attributes = .ok layout ∧
    filledTable family (if hidesPolicies family then "static " else "")
      (stemOf request) layout = .ok [.policy table, .space]

/-- The name by which the table of operations refers to the policy of a request. -/
def referredSymbol (family : Family) (request : Operation × OperationMode) : String :=
  let modeName :=
    if family.kernelPolicy = .split ∧ request.1.dualPolicy then "-" ++ request.2.name else ""
  CName.lower (family.name ++ "-" ++ request.1.name ++ modeName ++ "-nl-policy")

section Requests

/-- The requests are those of the calls and dumps of the operations. -/
theorem mem_requests : request ∈ requests family ↔
    request.1 ∈ family.operations ∧ (request.2 = .call ∨ request.2 = .dump) ∧
      request.1.hasRequest request.2 = true := by
  obtain ⟨operation, mode⟩ := request
  simp only [requests, List.mem_flatMap, List.mem_map, List.mem_filter, List.mem_cons,
    List.not_mem_nil, or_false, Prod.mk.injEq]
  constructor
  · rintro ⟨_, chosen, _, ⟨known, asked⟩, rfl, rfl⟩
    exact ⟨chosen, known, asked⟩
  · rintro ⟨chosen, known, asked⟩
    exact ⟨operation, chosen, mode, ⟨known, asked⟩, rfl, rfl⟩

/-- A mode with a request is one of the operation's call modes. -/
theorem mem_callModes_of_hasRequest (known : mode = .call ∨ mode = .dump)
    (asked : operation.hasRequest mode = true) :
    ∃ spec, (mode, spec) ∈ callModes operation := by
  rw [Operation.hasRequest, Operation.requestAttributes, Operation.isSome_attributesOf] at asked
  cases given : operation.mode mode with
  | none =>
      rw [given] at asked
      cases asked
  | some spec =>
      refine ⟨spec, ?_⟩
      simp only [callModes, List.mem_append, Option.mem_toList, Option.map_eq_some_iff]
      rcases known with rfl | rfl
      · exact .inl ⟨spec, given, rfl⟩
      · exact .inr ⟨spec, given, rfl⟩

/-- With one row for an operation, every row is for its call. -/
theorem mode_of_mem_rows (whole : family.kernelPolicy = .perOperation)
    (row : request ∈ rows family) : request.2 = .call := by
  have differs : family.kernelPolicy ≠ .split := by
    rw [whole]
    decide
  rw [rows, if_neg differs] at row
  obtain ⟨operation, _, rfl⟩ := List.mem_map.1 row
  rfl

/-- A row with a request is one of the requests. -/
theorem mem_requests_of_mem_rows (row : request ∈ rows family)
    (asked : request.1.hasRequest request.2 = true) : request ∈ requests family := by
  apply mem_requests.2
  unfold rows at row
  split at row
  · obtain ⟨operation, chosen, row⟩ := List.mem_flatMap.1 row
    obtain ⟨⟨mode, spec⟩, listed, rfl⟩ := List.mem_map.1 row
    simp only [callModes, List.mem_append, Option.mem_toList, Option.map_eq_some_iff,
      Prod.mk.injEq] at listed
    refine ⟨chosen, ?_, asked⟩
    exact listed.imp (fun ⟨_, _, same, _⟩ => same.symm) fun ⟨_, _, same, _⟩ => same.symm
  · obtain ⟨operation, chosen, rfl⟩ := List.mem_map.1 row
    exact ⟨chosen, .inl rfl, asked⟩

end Requests

section Tables

/-- A filled table has the stem it is given and is bounded by the last attribute. -/
theorem filledTable_eq_ok {storage stem : String} {layout : Layout}
    (done : filledTable family storage stem layout = .ok declarations) :
    ∃ table attr, declarations = [.policy table, .space] ∧ table.stem = stem ∧
      layout.maxAttribute family.toScope = some attr ∧ table.bound = attr.enumName := by
  simp only [filledTable, bind_eq_ok_iff, pure_eq_ok_iff] at done
  obtain ⟨table, outlined, entries, _, rfl⟩ := done
  unfold tableOf at outlined
  split at outlined
  · cases outlined
  · rename_i attr greatest
    cases outlined
    exact ⟨_, attr, rfl, rfl, greatest, rfl⟩

/-- The policy of a request has the stem of the request. -/
theorem stem_of_isPolicyOf {table : PolicyTable} (policy : IsPolicyOf family request table) :
    table.stem = stemOf request := by
  obtain ⟨_, _, _, _, _, _, filled⟩ := policy
  obtain ⟨other, _, same, stem, _⟩ := filledTable_eq_ok filled
  cases same
  exact stem

/-- A request has a layout of its attributes. -/
theorem exists_requestLayout {subject : Subject}
    (describes : subject.Describes family operation mode)
    (asked : operation.hasRequest mode = true) :
    ∃ attributes layout, operation.requestAttributes mode = some attributes ∧
      Layout.ofList family.toScope subject.attrSet attributes = .ok layout ∧
      subject.request = some layout := by
  obtain ⟨attributes, carried⟩ := Option.isSome_iff_exists.1 asked
  have built := describes.request
  simp only [carried, Option.mapM_some, Functor.map, map_eq_ok_iff] at built
  obtain ⟨layout, built, same⟩ := built
  exact ⟨attributes, layout, carried, built, same.symm⟩

/-- There is one policy for each request of an operation. -/
theorem policies_requestPolicies (done : requestPolicies family operation = .ok declarations) :
    List.Forall₂ (IsPolicyOf family)
        (([.call, .dump].filter operation.hasRequest).map fun mode => (operation, mode))
        (policies declarations) ∧
      declarations.filterMap operations? = [] := by
  simp only [requestPolicies, bind_eq_ok_iff, pure_eq_ok_iff] at done
  obtain ⟨parts, made, rfl⟩ := done
  have each := forall₂_mem (mapM_eq_ok_iff.1 made)
  have shaped : List.Forall₂
      (fun mode part => ∃ text table, IsPolicyOf family (operation, mode) table ∧
        part = [.comment text, .policy table, .space, .space])
      ([.call, .dump].filter operation.hasRequest) parts := by
    refine each.imp fun mode part both => ?_
    obtain ⟨asked, done⟩ := both
    simp only [bind_eq_ok_iff] at done
    obtain ⟨subject, described, done⟩ := done
    have describes := Subject.describes_of_ofOperation described
    obtain ⟨attributes, layout, carried, built, laidOut⟩ :=
      exists_requestLayout describes (List.mem_filter.1 asked).2
    simp only [laidOut, bind_eq_ok_iff, pure_eq_ok_iff] at done
    obtain ⟨tables, filled, rfl⟩ := done
    obtain ⟨table, _, rfl, _⟩ := filledTable_eq_ok filled
    exact ⟨_, table,
      ⟨subject.attrSet, attributes, layout, describes.attrSet, carried, built, filled⟩, rfl⟩
  clear each made
  generalize [OperationMode.call, .dump].filter operation.hasRequest = modes at shaped
  induction shaped with
  | nil => exact ⟨.nil, rfl⟩
  | cons here _ ih =>
      obtain ⟨text, table, policy, rfl⟩ := here
      exact ⟨.cons policy ih.1, ih.2⟩

/-- The sections of policies in the source: those of nested sets, then those of requests. -/
structure Sections (family : Family) (definitions : List Declaration)
    (nested own : List PolicyTable) (entries : List (List (String × String))) : Prop where
  policies : policies definitions = nested ++ own
  nested : nested.map PolicyTable.stem = (requestedNests family).map Layout.renderName
  own : List.Forall₂ (IsPolicyOf family) (requests family) own
  listed : operationEntries family = .ok entries
  operations : definitions.filterMap operations? =
    [{ declarator := tableDeclarator family, entries }]

/-- There is one table for each nested set that is requested. -/
theorem policies_nests {parts : List (List Declaration)}
    (made : (requestedNests family).mapM (fun layout =>
      filledTable family "" layout.renderName layout) = .ok parts) :
    List.Forall₂ (fun layout table =>
        filledTable family "" layout.renderName layout = .ok [.policy table, .space])
        (requestedNests family) (policies parts.flatten) ∧
      parts.flatten.filterMap operations? = [] := by
  have each := mapM_eq_ok_iff.1 made
  clear made
  generalize requestedNests family = layouts at each
  induction each with
  | nil => exact ⟨.nil, rfl⟩
  | cons here _ ih =>
      obtain ⟨table, _, rfl, _⟩ := filledTable_eq_ok here
      exact ⟨.cons here ih.1, ih.2⟩

/-- Those tables are named after the sets. -/
theorem stems_nests {layouts : List Layout} {tables : List PolicyTable}
    (filled : List.Forall₂ (fun layout table =>
      filledTable family "" layout.renderName layout = .ok [.policy table, .space])
      layouts tables) :
    tables.map PolicyTable.stem = layouts.map Layout.renderName := by
  induction filled with
  | nil => rfl
  | cons here _ ih =>
      obtain ⟨_, _, same, stem, _⟩ := filledTable_eq_ok here
      cases same
      rw [List.map_cons, List.map_cons, stem, ih]

/-- There is one table for each request. -/
theorem policies_operations {parts : List (List Declaration)}
    (made : family.operations.mapM (requestPolicies family) = .ok parts) :
    List.Forall₂ (IsPolicyOf family) (requests family) (policies parts.flatten) ∧
      parts.flatten.filterMap operations? = [] := by
  have each := (mapM_eq_ok_iff.1 made).imp fun _ _ => policies_requestPolicies
  constructor
  · rw [policies, List.filterMap_flatten]
    exact forall₂_flatten (List.forall₂_map_right_iff.2 (each.imp fun _ _ both => both.1))
  · rw [List.filterMap_flatten, List.flatten_eq_nil_iff]
    intro part member
    obtain ⟨declared, inside, rfl⟩ := List.mem_map.1 member
    obtain ⟨_, _, both⟩ := exists_of_forall₂ each declared inside
    exact both.2

/-- There is one part for the layout that all requests share, if there is such a layout. -/
theorem globalSection_cases {part : Layout → Except ModelError (List Declaration)}
    (done : globalSection family part = .ok declarations) :
    (∀ declaration ∈ declarations, declaration.isTable = false) ∨
      ∃ layout inside, family.kernelPolicy = .global ∧ globalLayout family = .ok (some layout) ∧
        part layout = .ok inside ∧ declarations =
          .comment ("Global operation policy for " ++ family.name) :: inside ++ [.space] := by
  unfold globalSection at done
  split at done
  · rename_i whole
    obtain ⟨layout, laidOut, done⟩ := bind_eq_ok_iff.1 done
    cases layout with
    | none =>
        obtain rfl := Except.ok.inj done
        exact .inl (by simp [comment, isTable])
    | some layout =>
        simp only [bind_eq_ok_iff, pure_eq_ok_iff] at done
        obtain ⟨inside, made, rfl⟩ := done
        exact .inr ⟨layout, inside, whole, laidOut, made, rfl⟩
  · obtain rfl := Except.ok.inj done
    exact .inl (by simp)

/-- What frames the tables of the source holds no table. -/
theorem plain_frame (family : Family) :
    ∀ declaration ∈ nestsComment family ++ groupSource family ++ familySource family,
      declaration.isTable = false := by
  have comment : ∀ declaration ∈ nestsComment family, declaration.isTable = false := by
    unfold nestsComment
    split <;> simp [comment, isTable]
  have groups : ∀ declaration ∈ groupSource family, declaration.isTable = false := by
    unfold groupSource
    split <;> simp [isTable]
  have described : ∀ declaration ∈ familySource family, declaration.isTable = false := by
    unfold familySource
    dsimp only
    split <;> simp [isTable]
  exact List.forall_mem_append.2 ⟨List.forall_mem_append.2 ⟨comment, groups⟩, described⟩

/-- What is picked from a source by a function that picks only tables. -/
theorem filterMap_source {A : Type} {select : Declaration → Option A}
    (tables : ∀ declaration : Declaration, declaration.isTable = false → select declaration = none)
    (nests shared own : List Declaration) (table : OperationTable) :
    (List.flatten
      [nestsComment family, nests, [.space], shared, own,
        [tableComment family, .operations table, .space], groupSource family,
        familySource family]).filterMap select =
      nests.filterMap select ++ shared.filterMap select ++ own.filterMap select ++
        (select (.operations table)).toList := by
  have frame := List.filterMap_eq_nil_iff.2 fun declaration member =>
    tables declaration (plain_frame family declaration member)
  obtain ⟨comment, groups, described⟩ :
      (nestsComment family).filterMap select = [] ∧ (groupSource family).filterMap select = [] ∧
        (familySource family).filterMap select = [] := by
    simpa [List.filterMap_append, and_assoc] using frame
  have space : select .space = none := tables _ rfl
  have title : select (tableComment family) = none := tables _ rfl
  simp only [List.flatten_cons, List.flatten_nil, List.filterMap_append, comment, groups,
    described, List.filterMap_cons, List.filterMap_nil, space, title, List.nil_append,
    List.append_nil, List.append_assoc]
  cases select (.operations table) <;> rfl

/-- The tables of the source come from three parts and the table of operations. -/
theorem parts_of_source (rendered : source family = .ok declarations) :
    ∃ nests shared own entries,
      (requestedNests family).mapM (fun layout =>
        filledTable family "" layout.renderName layout) = .ok nests ∧
      (globalSection family fun layout => filledTable family "" layout.renderName layout) =
        .ok shared ∧
      operationSection family (requestPolicies family) = .ok own ∧
      operationEntries family = .ok entries ∧
      policies declarations = policies nests.flatten ++ policies shared ++ policies own ∧
      declarations.filterMap operations? =
        nests.flatten.filterMap operations? ++ shared.filterMap operations? ++
          own.filterMap operations? ++ [{ declarator := tableDeclarator family, entries }] := by
  simp only [source, bind_eq_ok_iff, pure_eq_ok_iff] at rendered
  obtain ⟨nests, nested, shared, whole, own, made, entries, listed, rfl⟩ := rendered
  refine ⟨nests, shared, own, entries, nested, whole, made, listed, ?_, ?_⟩
  · exact (filterMap_source (fun _ => policy?_of_plain) ..).trans (List.append_nil _)
  · exact filterMap_source (fun _ => operations?_of_plain) ..

/-- A kernel source has a section of nested policies, one of its own, and its entries. -/
theorem exists_sections (rendered : source family = .ok declarations)
    (apart : family.kernelPolicy ≠ .global) :
    ∃ nested own entries, Sections family declarations nested own entries := by
  obtain ⟨nests, shared, own, entries, nested, whole, made, listed, tables, operations⟩ :=
    parts_of_source rendered
  simp only [globalSection, operationSection, if_neg apart, map_eq_ok_iff, Except.ok.injEq]
    at whole made
  subst whole
  obtain ⟨parts, made, rfl⟩ := made
  obtain ⟨filled, noneNested⟩ := policies_nests nested
  obtain ⟨own, noneOwn⟩ := policies_operations made
  refine ⟨_, _, entries, ?_, stems_nests filled, own, listed, ?_⟩
  · rw [tables, show policies [] = [] from rfl, List.append_nil]
  · rw [operations, noneNested, noneOwn]
    rfl

end Tables

section Rows

/-- The members of an entry that are about the policy of its request. -/
def policyKeys : List String :=
  ["policy", "maxattr"]

/-- An entry of the table of operations refers to the policy of its request and to nothing else. -/
structure Refers (family : Family) (request : Operation × OperationMode)
    (members : List (String × String)) : Prop where
  policy : ∀ symbol, ("policy", symbol) ∈ members ↔
    request.1.hasRequest request.2 = true ∧ symbol = referredSymbol family request
  bound : ∀ table, IsPolicyOf family request table →
    ∀ bound, ("maxattr", bound) ∈ members ↔ bound = table.bound

/-- The members of a policy name its table and its last attribute. -/
theorem policyMembers_eq_ok {symbol set : String} {attributes : List String}
    {policy : List (String × String)} (named : operation.attrSet = some set)
    (done : policyMembers family operation symbol attributes = .ok policy) :
    ∃ layout attr, Layout.ofList family.toScope set attributes = .ok layout ∧
      layout.maxAttribute family.toScope = some attr ∧
      policy = [("policy", CName.lower symbol), ("maxattr", attr.enumName)] := by
  simp only [policyMembers, named, bind_eq_ok_iff] at done
  obtain ⟨layout, built, done⟩ := done
  split at done
  · cases done
  · rename_i attr greatest
    rw [pure_eq_ok_iff] at done
    exact ⟨layout, attr, built, greatest, done.symm⟩

/-- Only its policy matters for what an entry refers to. -/
theorem refers_of_policy {set symbol : String} {policy members : List (String × String)}
    (named : request.1.attrSet = some set) (inside : ∀ member ∈ policy, member ∈ members)
    (only : ∀ member ∈ members, member.1 ∈ policyKeys → member ∈ policy)
    (spelled : CName.lower symbol = referredSymbol family request)
    (made : match request.1.requestAttributes request.2 with
      | none => policy = []
      | some attributes => policyMembers family request.1 symbol attributes = .ok policy) :
    Refers family request members := by
  have same {key : String} (known : key ∈ policyKeys) (value : String) :
      (key, value) ∈ members ↔ (key, value) ∈ policy :=
    ⟨fun member => only _ member known, inside _⟩
  have isPolicy : "policy" ∈ policyKeys := by decide
  have isBound : "maxattr" ∈ policyKeys := by decide
  cases carried : request.1.requestAttributes request.2 with
  | none =>
      rw [carried] at made
      constructor
      · intro symbol
        rw [same isPolicy, made, Operation.hasRequest, carried]
        simp
      · rintro table ⟨_, _, _, _, some, _⟩
        rw [carried] at some
        cases some
  | some attributes =>
      rw [carried] at made
      obtain ⟨layout, attr, built, greatest, rfl⟩ := policyMembers_eq_ok named made
      constructor
      · intro symbol
        rw [same isPolicy, Operation.hasRequest, carried]
        simp [spelled]
      · rintro table ⟨other, _, laidOut, otherNamed, otherCarried, otherBuilt, filled⟩ value
        obtain rfl : set = other := Option.some.inj (named.symm.trans otherNamed)
        obtain rfl := Option.some.inj (carried.symm.trans otherCarried)
        obtain rfl := Except.ok.inj (built.symm.trans otherBuilt)
        obtain ⟨_, found, shaped, _, maximal, bound⟩ := filledTable_eq_ok filled
        cases shaped
        obtain rfl := Option.some.inj (greatest.symm.trans maximal)
        rw [same isBound, bound]
        simp

/-- A member for flags has the name it is given. -/
theorem key_flagMember {name start : String} {flags : List String} :
    ∀ member ∈ flagMember name start flags, member.1 = name := by
  unfold flagMember
  split <;> simp

/-- A member for a callback has the name it is given. -/
theorem key_callback {name : String} {function : Option String} :
    ∀ member ∈ callback name function, member.1 = name := by
  cases function <;> simp [callback]

/-- No handler is named like a member of a policy. -/
theorem handler_notMem (mode : OperationMode) : mode.name ++ "it" ∉ policyKeys := by
  cases mode <;> decide

/-- An entry of an operation around the members for its policy. -/
def operationMembers (family : Family) (operation : Operation) (policy : List (String × String)) :
    List (String × String) :=
  List.flatten
    [[("cmd", operation.enumName)],
      flagMember "validate" "genl-dont-validate-" operation.dontValidate,
      (callModes operation).map fun (mode, _) =>
        (mode.name ++ "it", handler family operation mode),
      policy,
      flagMember "flags" "genl-" operation.flags]

/-- Of an operation's entry, only the policy has the keys of one. -/
theorem mem_policy_of_operationMembers {policy : List (String × String)}
    {member : String × String} (listed : member ∈ operationMembers family operation policy)
    (known : member.1 ∈ policyKeys) : member ∈ policy := by
  simp only [operationMembers, List.flatten_cons, List.flatten_nil, List.mem_append,
    List.mem_singleton, List.append_nil] at listed
  rcases listed with rfl | validate | handlers | here | flags
  · exact absurd known (by simp [policyKeys])
  · rw [key_flagMember _ validate] at known
    exact absurd known (by decide)
  · obtain ⟨⟨mode, _⟩, _, rfl⟩ := List.mem_map.1 handlers
    exact absurd known (handler_notMem mode)
  · exact here
  · rw [key_flagMember _ flags] at known
    exact absurd known (by decide)

/-- An operation's entry refers to the policy of its call. -/
theorem refers_operationEntry (whole : family.kernelPolicy = .perOperation) {set : String}
    (named : operation.attrSet = some set) {members : List (String × String)}
    (done : operationEntry family operation = .ok members) :
    Refers family (operation, .call) members := by
  obtain ⟨policy, rfl, made⟩ : ∃ policy, members = operationMembers family operation policy ∧
      match operation.requestAttributes .call with
      | none => policy = []
      | some attributes => policyMembers family operation
          (family.name ++ "-" ++ operation.name ++ "-nl-policy") attributes = .ok policy := by
    cases carried : operation.requestAttributes .call with
    | none =>
        simp only [operationEntry, whole, carried, bind_eq_ok_iff, pure_eq_ok_iff] at done
        obtain ⟨_, rfl, rfl⟩ := done
        exact ⟨[], rfl, rfl⟩
    | some attributes =>
        simp only [operationEntry, whole, carried, bind_eq_ok_iff, pure_eq_ok_iff] at done
        obtain ⟨policy, made, rfl⟩ := done
        exact ⟨policy, rfl, made⟩
  refine refers_of_policy named (fun member inside => ?_)
    (fun _ => mem_policy_of_operationMembers) ?_ made
  · simp [operationMembers, inside]
  · simp [referredSymbol, whole]

/-- An entry of a mode around the members for its policy. -/
def modeMembers (family : Family) (operation : Operation) (mode : OperationMode)
    (spec : Spec.Mode) (policy : List (String × String)) : List (String × String) :=
  List.flatten
    [[("cmd", operation.enumName)],
      flagMember "validate" "genl-dont-validate-" (leftOutChecks operation mode),
      callback (callbackNames mode).1 spec.pre,
      [(mode.name ++ "it", handler family operation mode)],
      callback (callbackNames mode).2 spec.post,
      policy,
      [("flags", joinedFlags "genl-" (operation.flags ++ ["cmd-cap-" ++ mode.name]))]]

/-- Of a mode's entry, only the policy has the keys of one. -/
theorem mem_policy_of_modeMembers {spec : Spec.Mode} {policy : List (String × String)}
    {member : String × String} (listed : member ∈ modeMembers family operation mode spec policy)
    (known : member.1 ∈ policyKeys) : member ∈ policy := by
  simp only [modeMembers, List.flatten_cons, List.flatten_nil, List.mem_append,
    List.mem_singleton, List.append_nil] at listed
  rcases listed with rfl | validate | before | rfl | after | here | rfl
  · exact absurd known (by simp [policyKeys])
  · rw [key_flagMember _ validate] at known
    exact absurd known (by decide)
  · rw [key_callback _ before] at known
    exact absurd known (by cases mode <;> decide)
  · exact absurd known (handler_notMem mode)
  · rw [key_callback _ after] at known
    exact absurd known (by cases mode <;> decide)
  · exact here
  · exact absurd known (by simp [policyKeys])

/-- A call mode that is listed is one of the operation's. -/
theorem mode_of_mem_callModes {spec : Spec.Mode} (listed : (mode, spec) ∈ callModes operation) :
    operation.mode mode = some spec := by
  simp only [callModes, List.mem_append, Option.mem_toList, Option.map_eq_some_iff,
    Prod.mk.injEq] at listed
  rcases listed with ⟨_, given, rfl, rfl⟩ | ⟨_, given, rfl, rfl⟩ <;> exact given

/-- A mode's entry refers to the policy of that mode. -/
theorem refers_modeEntry (split : family.kernelPolicy = .split) {set : String}
    (named : operation.attrSet = some set) {spec : Spec.Mode}
    (listed : (mode, spec) ∈ callModes operation) {members : List (String × String)}
    (done : modeEntry family operation mode spec = .ok members) :
    Refers family (operation, mode) members := by
  have inMode := mode_of_mem_callModes listed
  have carries : operation.requestAttributes mode =
      spec.request.map Spec.Direction.attributes := by
    rw [Operation.requestAttributes, Operation.attributesOf, inMode]
    rfl
  obtain ⟨policy, rfl, made⟩ : ∃ policy, members = modeMembers family operation mode spec policy ∧
      match operation.requestAttributes mode with
      | none => policy = []
      | some attributes => policyMembers family operation
          (family.name ++ "-" ++ operation.name ++
            (if operation.dualPolicy then "-" ++ mode.name else "") ++ "-nl-policy")
          attributes = .ok policy := by
    rw [carries]
    cases asked : spec.request with
    | none =>
        simp only [modeEntry, asked, bind_eq_ok_iff, pure_eq_ok_iff] at done
        obtain ⟨_, rfl, rfl⟩ := done
        exact ⟨[], rfl, rfl⟩
    | some request =>
        simp only [modeEntry, asked, bind_eq_ok_iff, pure_eq_ok_iff] at done
        obtain ⟨policy, made, rfl⟩ := done
        exact ⟨policy, rfl, made⟩
  refine refers_of_policy named (fun member inside => ?_) (fun _ => mem_policy_of_modeMembers) ?_
    made
  · simp [modeMembers, inside]
  · simp [referredSymbol, split]

/-- The table of operations has an entry for each row, and this refers to the policy of the row. -/
theorem refers_entries (apart : family.kernelPolicy ≠ .global)
    (sets : ∀ operation ∈ family.operations, operation.attrSet.isSome = true)
    {entries : List (List (String × String))} (listed : operationEntries family = .ok entries) :
    List.Forall₂ (Refers family) (rows family) entries := by
  cases policy : family.kernelPolicy with
  | global => exact absurd policy apart
  | perOperation =>
      have differs : family.kernelPolicy ≠ .split := by
        rw [policy]
        decide
      simp only [operationEntries, policy] at listed
      rw [rows, if_neg differs, List.forall₂_map_left_iff]
      have each := (List.forall₂_and_left _ _).2 ⟨sets, mapM_eq_ok_iff.1 listed⟩
      refine each.imp fun operation members both => ?_
      obtain ⟨set, named⟩ := Option.isSome_iff_exists.1 both.1
      exact refers_operationEntry policy named both.2
  | split =>
      simp only [operationEntries, policy, bind_eq_ok_iff, pure_eq_ok_iff] at listed
      obtain ⟨parts, made, rfl⟩ := listed
      rw [rows, if_pos policy]
      apply forall₂_flatten
      have each := (List.forall₂_and_left _ _).2 ⟨sets, mapM_eq_ok_iff.1 made⟩
      refine each.imp fun operation part both => ?_
      obtain ⟨set, named⟩ := Option.isSome_iff_exists.1 both.1
      rw [List.forall₂_map_left_iff]
      have modes := (List.forall₂_and_left _ _).2
        ⟨fun _ inside => inside, mapM_eq_ok_iff.1 both.2⟩
      exact modes.imp fun mode members both => refers_modeEntry policy named both.1 both.2

end Rows

end Kernel

end NetlinkFamily
