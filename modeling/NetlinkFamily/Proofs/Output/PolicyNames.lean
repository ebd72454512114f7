import NetlinkFamily.Proofs.Output.PolicyTables

namespace NetlinkFamily

namespace Kernel

open Declaration Outcome

variable {family : Family} {operation : Operation} {mode : OperationMode}
  {request : Operation × OperationMode}

section Names

/-- What the name of the policy of a request has behind the name of the family. -/
def stemEnding (request : Operation × OperationMode) : String :=
  CName.lower request.1.name ++ if request.1.dualPolicy then "_" ++ request.2.name else ""

/-- The stem of a request starts with the family's name. -/
theorem stemOf_eq (settled : request.1.Settled family.name) :
    stemOf request = family.name ++ "_" ++ stemEnding request := by
  unfold stemOf policyStem stemEnding
  rw [settled.renderName]
  split <;> simp [String.append_assoc]

/-- A policy's name is lowered part by part. -/
theorem lower_policyName (name : String) :
    CName.lower (name ++ "-nl-policy") = CName.lower name ++ "_nl_policy" := by
  have ending : CName.lower "nl-policy" = "nl_policy" := by decide +kernel
  have parted : name ++ "-nl-policy" = name ++ "-" ++ "nl-policy" := by
    rw [String.append_assoc]
    rfl
  rw [parted, CName.lower_hyphen, ending, String.append_assoc]
  rfl

/-- A mode's name is lowered part by part. -/
theorem lower_modeName (name : String) (mode : OperationMode) :
    CName.lower (name ++ ("-" ++ mode.name)) = CName.lower name ++ ("_" ++ mode.name) := by
  have kept : CName.lower mode.name = mode.name := by cases mode <;> decide +kernel
  rw [← String.append_assoc, CName.lower_hyphen, kept, String.append_assoc]

/-- The table spells the name of the family in lower case, which the policy does not. -/
theorem referredSymbol_eq
    (modal : request.1.dualPolicy = true → family.kernelPolicy = .split) :
    referredSymbol family request =
      CName.lower family.name ++ "_" ++ stemEnding request ++ "_nl_policy" := by
  unfold referredSymbol stemEnding
  rw [lower_policyName]
  cases dual : request.1.dualPolicy with
  | true =>
      rw [if_pos ⟨modal dual, rfl⟩, if_pos rfl, lower_modeName, CName.lower_hyphen]
      simp only [String.append_assoc]
  | false =>
      rw [if_neg (by simp), if_neg (by simp), String.append_empty, CName.lower_hyphen]
      simp only [String.append_assoc, String.append_empty]

/-- The names of all policies, without their common ending. -/
def stems (family : Family) : List String :=
  (requestedNests family).map Layout.renderName ++ (requests family).map stemOf

/-- The tables of a source have the stems of the family. -/
theorem Sections.stems_eq {definitions : List Declaration} {nested own : List PolicyTable}
    {entries : List (List (String × String))}
    (sections : Sections family definitions nested own entries) :
    (Declaration.policies definitions).map PolicyTable.stem = stems family := by
  have named : own.map PolicyTable.stem = (requests family).map stemOf := by
    rw [← List.forall₂_eq_eq_eq, List.forall₂_map_left_iff, List.forall₂_map_right_iff]
    exact (sections.own.imp fun _ _ => stem_of_isPolicyOf).flip
  rw [sections.policies, List.map_append, sections.nested, named, stems]

/-- There are as many tables of a name as tables of its stem. -/
theorem length_filter_symbol (tables : List PolicyTable) (stem : String) :
    (tables.filter fun table => table.symbol = stem ++ "_nl_policy").length =
      (tables.map PolicyTable.stem).count stem := by
  rw [← List.countP_eq_length_filter, List.count, List.countP_map]
  apply List.countP_congr
  intro table _
  simp [PolicyTable.symbol]

end Names

section Agreement

/-- A table with one entry for each operation has no place for the policies of dumps. -/
def DumpsHaveRows (family : Family) : Prop :=
  family.kernelPolicy = .perOperation →
    ∀ operation ∈ family.operations, operation.hasRequest .dump = false

/-- Every request has a row where dumps have rows. -/
theorem mem_rows_of_mem_requests (apart : family.kernelPolicy ≠ .global)
    (placed : DumpsHaveRows family) (listed : request ∈ requests family) :
    request ∈ rows family := by
  obtain ⟨chosen, known, asked⟩ := mem_requests.1 listed
  obtain ⟨operation, mode⟩ := request
  cases policy : family.kernelPolicy with
  | global => exact absurd policy apart
  | perOperation =>
      have differs : family.kernelPolicy ≠ .split := by
        rw [policy]
        decide
      rw [rows, if_neg differs]
      rcases known with rfl | rfl
      · exact List.mem_map_of_mem chosen
      · exact absurd asked (by simp [placed policy operation chosen])
  | split =>
      obtain ⟨spec, listed⟩ := mem_callModes_of_hasRequest known asked
      rw [rows, if_pos policy]
      exact List.mem_flatMap.2 ⟨operation, chosen, List.mem_map.2 ⟨_, listed, rfl⟩⟩

/-- The policy that an entry names is the one of its request, and it is defined once. -/
def NamesPolicy (family : Family) (tables : List PolicyTable)
    (request : Operation × OperationMode) (members : List (String × String)) : Prop :=
  ∀ symbol, ("policy", symbol) ∈ members →
    ∃ table, (tables.filter fun table => table.symbol = symbol) = [table] ∧
      IsPolicyOf family request table ∧
      ∀ bound, ("maxattr", bound) ∈ members ↔ bound = table.bound

/-- Entries and policies agree: each entry names its policy, and no policy of a request is left
out. -/
structure Agree (family : Family) (tables : List PolicyTable)
    (entries : List (List (String × String))) : Prop where
  named : List.Forall₂ (NamesPolicy family tables) (rows family) entries
  used : ∀ request ∈ requests family, ∀ table ∈ tables, IsPolicyOf family request table →
    ∃ members ∈ entries, ("policy", table.symbol) ∈ members

/-- What makes the names in the table of operations those of the policies. -/
structure Matched (family : Family) : Prop where
  lowered : requests family ≠ [] → CName.lower family.name = family.name
  placed : DumpsHaveRows family
  single : ∀ request ∈ requests family, (stems family).count (stemOf request) = 1

/-- An image that occurs once comes from one element. -/
theorem eq_of_count_map {A B : Type} [DecidableEq B] {f : A → B} {list : List A} {a b : A}
    (single : (list.map f).count (f a) = 1) (first : a ∈ list) (second : b ∈ list)
    (same : f b = f a) : b = a := by
  rw [List.count, List.countP_map, List.countP_eq_length_filter, List.length_eq_one_iff] at single
  obtain ⟨found, only⟩ := single
  have all : ∀ c ∈ list, f c = f a → c = found := by
    intro c member equal
    have chosen : c ∈ list.filter ((fun value => value == f a) ∘ f) :=
      List.mem_filter.2 ⟨member, by simp [equal]⟩
    rwa [only, List.mem_singleton] at chosen
  rw [all b second same, all a first rfl]

variable {definitions : List Declaration} {nested own : List PolicyTable}
  {entries : List (List (String × String))}

/-- A policy is the only one of its name if its stem is found once. -/
theorem Sections.filter_symbol_iff (sections : Sections family definitions nested own entries)
    {table : PolicyTable} (inside : table ∈ Declaration.policies definitions) :
    ((Declaration.policies definitions).filter fun other => other.symbol = table.symbol) =
        [table] ↔ (stems family).count table.stem = 1 := by
  rw [← sections.stems_eq, ← length_filter_symbol]
  constructor
  · intro only
    show ((Declaration.policies definitions).filter fun other =>
      other.symbol = table.symbol).length = 1
    rw [only]
    rfl
  · intro one
    obtain ⟨other, only⟩ := List.length_eq_one_iff.1 one
    have found : table ∈ (Declaration.policies definitions).filter fun other =>
        other.symbol = table.stem ++ "_nl_policy" :=
      List.mem_filter.2 ⟨inside, decide_eq_true rfl⟩
    rw [only, List.mem_singleton] at found
    rw [found] at only ⊢
    exact only

/-- Every request has its policy in the source. -/
theorem Sections.exists_policy (sections : Sections family definitions nested own entries)
    (listed : request ∈ requests family) :
    ∃ table ∈ Declaration.policies definitions, IsPolicyOf family request table := by
  obtain ⟨table, inside, policy⟩ := exists_of_forall₂ sections.own.flip request listed
  refine ⟨table, ?_, policy⟩
  rw [sections.policies]
  exact List.mem_append_right nested inside

/-- The request of a row has a policy of its own, by the name that the row refers to. -/
theorem Sections.named_row (sections : Sections family definitions nested own entries)
    (refers : List.Forall₂ (Refers family) (rows family) entries)
    (agree : Agree family (Declaration.policies definitions) entries)
    (row : request ∈ rows family) (asked : request.1.hasRequest request.2 = true) :
    referredSymbol family request = stemOf request ++ "_nl_policy" ∧
      (stems family).count (stemOf request) = 1 := by
  have both := List.Forall₂.mp (fun _ _ => And.intro) refers agree.named
  obtain ⟨members, _, refers, names⟩ := exists_of_forall₂ both.flip request row
  obtain ⟨table, only, policy, _⟩ := names _ ((refers.policy _).2 ⟨asked, rfl⟩)
  have found : table ∈ [table] := List.mem_singleton_self table
  rw [← only, List.mem_filter, decide_eq_true_iff] at found
  obtain ⟨inside, symbol⟩ := found
  rw [← symbol] at only ⊢
  rw [← stem_of_isPolicyOf policy]
  exact ⟨rfl, (sections.filter_symbol_iff inside).1 only⟩

/-- A policy of a dump would have the name of the policy of a call. -/
theorem Sections.dumpsHaveRows (sections : Sections family definitions nested own entries)
    (refers : List.Forall₂ (Refers family) (rows family) entries)
    (agree : Agree family (Declaration.policies definitions) entries) : DumpsHaveRows family := by
  intro whole operation chosen
  apply Bool.eq_false_iff.2
  intro asked
  have listed : (operation, .dump) ∈ requests family := mem_requests.2 ⟨chosen, .inr rfl, asked⟩
  obtain ⟨table, inside, policy⟩ := sections.exists_policy listed
  obtain ⟨members, used, named⟩ := agree.used _ listed table inside policy
  obtain ⟨row, here, refersRow⟩ := exists_of_forall₂ refers members used
  obtain ⟨called, symbol⟩ := (refersRow.policy _).1 named
  obtain ⟨spelled, single⟩ := sections.named_row refers agree here called
  have stem : stemOf (operation, .dump) = stemOf row := by
    rw [← symbol, PolicyTable.symbol, stem_of_isPolicyOf policy, String.append_left_inj] at spelled
    exact spelled
  have known := mem_requests_of_mem_rows here called
  have own : ((requests family).map stemOf).count (stemOf row) = 1 := by
    have some := List.count_pos_iff.2 (List.mem_map_of_mem (f := stemOf) known)
    rw [stems, List.count_append] at single
    omega
  have same : (operation, .dump) = row := eq_of_count_map own known listed stem
  have mode : row.2 = .call := mode_of_mem_rows whole here
  rw [← same] at mode
  cases mode

/-- Only a table with one entry for each mode tells two requests of an operation apart. -/
theorem modal_of_dumpsHaveRows (apart : family.kernelPolicy ≠ .global)
    (placed : DumpsHaveRows family) (selected : family.IsSelected request.1)
    (chosen : request.1 ∈ family.operations) (dual : request.1.dualPolicy = true) :
    family.kernelPolicy = .split := by
  cases policy : family.kernelPolicy with
  | global => exact absurd policy apart
  | split => rfl
  | perOperation =>
      rw [selected.settled.dualPolicy selected.event, placed policy _ chosen,
        Bool.and_false] at dual
      cases dual

/-- The table refers to a policy by its name if the name of the family is in lower case. -/
theorem referredSymbol_eq_iff (apart : family.kernelPolicy ≠ .global)
    (placed : DumpsHaveRows family) (selected : family.IsSelected request.1)
    (chosen : request.1 ∈ family.operations) :
    referredSymbol family request = stemOf request ++ "_nl_policy" ↔
      CName.lower family.name = family.name := by
  rw [referredSymbol_eq (modal_of_dumpsHaveRows apart placed selected chosen),
    stemOf_eq selected.settled]
  simp only [String.append_left_inj]

/-- Tables and entries that agree are matched. -/
theorem Sections.matched (sections : Sections family definitions nested own entries)
    (apart : family.kernelPolicy ≠ .global)
    (selected : ∀ operation ∈ family.operations, family.IsSelected operation)
    (refers : List.Forall₂ (Refers family) (rows family) entries)
    (agree : Agree family (Declaration.policies definitions) entries) : Matched family := by
  have placed := sections.dumpsHaveRows refers agree
  have named {request : Operation × OperationMode} (listed : request ∈ requests family) :=
    sections.named_row refers agree (mem_rows_of_mem_requests apart placed listed)
      (mem_requests.1 listed).2.2
  constructor
  · intro some
    obtain ⟨request, listed⟩ := List.exists_mem_of_ne_nil _ some
    have chosen := (mem_requests.1 listed).1
    exact (referredSymbol_eq_iff apart placed (selected _ chosen) chosen).1 (named listed).1
  · exact placed
  · intro request listed
    exact (named listed).2

/-- Tables and entries that are matched agree. -/
theorem Sections.agree (sections : Sections family definitions nested own entries)
    (apart : family.kernelPolicy ≠ .global)
    (selected : ∀ operation ∈ family.operations, family.IsSelected operation)
    (refers : List.Forall₂ (Refers family) (rows family) entries) (matched : Matched family) :
    Agree family (Declaration.policies definitions) entries := by
  have spelled {request : Operation × OperationMode} (listed : request ∈ requests family) :
      referredSymbol family request = stemOf request ++ "_nl_policy" := by
    have chosen := (mem_requests.1 listed).1
    apply (referredSymbol_eq_iff apart matched.placed (selected _ chosen) chosen).2
    exact matched.lowered (List.ne_nil_of_mem listed)
  constructor
  · have each := forall₂_mem refers
    refine each.imp fun request members both symbol named => ?_
    obtain ⟨row, refersRow⟩ := both
    obtain ⟨asked, rfl⟩ := (refersRow.policy symbol).1 named
    have listed := mem_requests_of_mem_rows row asked
    obtain ⟨table, inside, policy⟩ := sections.exists_policy listed
    have stem := stem_of_isPolicyOf policy
    refine ⟨table, ?_, policy, refersRow.bound table policy⟩
    rw [spelled listed, ← stem]
    apply (sections.filter_symbol_iff inside).2
    rw [stem]
    exact matched.single request listed
  · intro request listed table _ policy
    have row := mem_rows_of_mem_requests apart matched.placed listed
    obtain ⟨members, inside, refersRow⟩ := exists_of_forall₂ refers.flip request row
    refine ⟨members, inside, (refersRow.policy _).2 ⟨(mem_requests.1 listed).2.2, ?_⟩⟩
    rw [spelled listed, PolicyTable.symbol, stem_of_isPolicyOf policy]

end Agreement

end Kernel

namespace Family

open Kernel Declaration Outcome

variable {file : Spec.File} {excludes : List Pattern} {family : Family}
  {definitions : List Declaration}

/-- The table of operations in a source of the kernel side agrees with the policies there. -/
def PoliciesAgree (family : Family) (definitions : List Declaration) : Prop :=
  ∃ table, definitions.filterMap operations? = [table] ∧
    Agree family (policies definitions) table.entries

/-- The table of operations and the policies agree just when the names in both are the same. -/
theorem policiesAgree_iff (built : ofSpec file excludes = .ok family)
    (rendered : Kernel.source family = .ok definitions) (apart : family.kernelPolicy ≠ .global) :
    PoliciesAgree family definitions ↔ Matched family := by
  have selected : ∀ operation ∈ family.operations, family.IsSelected operation :=
    fun _ chosen => isSelected_of_mem built chosen
  obtain ⟨nested, own, entries, sections⟩ := exists_sections rendered apart
  have refers := refers_entries apart (fun operation chosen => (selected operation chosen).attrSet)
    sections.listed
  unfold PoliciesAgree
  rw [sections.operations]
  constructor
  · rintro ⟨table, only, agree⟩
    obtain rfl := List.singleton_inj.1 only
    exact sections.matched apart selected refers agree
  · intro matched
    exact ⟨_, rfl, sections.agree apart selected refers matched⟩

/-- An operation with a request in both modes, and a table that tells the modes apart if the
policy does. -/
def bothModes (kernelPolicy : Spec.KernelPolicy) : Spec.File where
  license := Spec.acceptedLicense
  family :=
    { name := "f"
      kernelPolicy
      attributeSets :=
        [{ name := "f"
           attributes := [{ name := "x", kind := some "u8" }, { name := "y", kind := some "u8" }] }]
      operations :=
        { list :=
            [{ name := "get"
               attributeSet := some "f"
               doMode := some { request := some { attributes := ["x"] } }
               dumpMode := some { request := some { attributes := ["y"] } } }] } }

/-- The family with split operations can be built. -/
theorem isSome_ofSpec_split : (ofSpec (bothModes .split) []).toOption.isSome = true := by
  decide +kernel

/-- The family whose table tells the modes apart. -/
def splitFamily : Family :=
  (ofSpec (bothModes .split) []).toOption.get isSome_ofSpec_split

theorem isSome_source_split : (Kernel.source splitFamily).toOption.isSome = true := by
  decide +kernel

/-- With an entry for each mode, both policies are found under the names in the table. -/
theorem policiesAgree_iff_split :
    ∃ definitions, ofSpec (bothModes .split) [] = .ok splitFamily ∧
      Kernel.source splitFamily = .ok definitions ∧ splitFamily.kernelPolicy ≠ .global ∧
      (policies definitions).map PolicyTable.symbol =
        ["f_get_do_nl_policy", "f_get_dump_nl_policy"] ∧
      PoliciesAgree splitFamily definitions := by
  have built : ofSpec (bothModes .split) [] = .ok splitFamily := eq_ok_get isSome_ofSpec_split
  have rendered := eq_ok_get isSome_source_split
  have policy : splitFamily.kernelPolicy = .split := by decide +kernel
  have apart : splitFamily.kernelPolicy ≠ .global := by
    rw [policy]
    decide
  have matched : Matched splitFamily := by
    constructor
    · intro _
      decide +kernel
    · intro whole
      rw [policy] at whole
      cases whole
    · decide +kernel
  exact ⟨_, built, rendered, apart, by decide +kernel,
    (policiesAgree_iff built rendered apart).2 matched⟩

/-- The family with whole operations can be built. -/
theorem isSome_ofSpec_whole : (ofSpec (bothModes .perOperation) []).toOption.isSome = true := by
  decide +kernel

/-- The family whose table has one entry for both modes. -/
def wholeFamily : Family :=
  (ofSpec (bothModes .perOperation) []).toOption.get isSome_ofSpec_whole

theorem isSome_source_whole : (Kernel.source wholeFamily).toOption.isSome = true := by
  decide +kernel

/-- With one entry for both modes, the table refers to a policy that is not defined. -/
theorem not_forall_policiesAgree :
    ¬∀ (file : Spec.File) (excludes : List Pattern) (family : Family)
      (definitions : List Declaration), ofSpec file excludes = .ok family →
      Kernel.source family = .ok definitions → family.kernelPolicy ≠ .global →
        PoliciesAgree family definitions := by
  intro always
  have built : ofSpec (bothModes .perOperation) [] = .ok wholeFamily :=
    eq_ok_get isSome_ofSpec_whole
  have rendered := eq_ok_get isSome_source_whole
  have apart : wholeFamily.kernelPolicy ≠ .global := by decide +kernel
  obtain ⟨table, only, agree⟩ := always _ _ _ _ built rendered apart
  have refers : ∀ table ∈ ((Kernel.source wholeFamily).toOption.get
      isSome_source_whole).filterMap operations?,
      ∃ members ∈ table.entries, ("policy", "f_get_nl_policy") ∈ members := by decide +kernel
  have absent : ((policies ((Kernel.source wholeFamily).toOption.get
      isSome_source_whole)).filter fun table => table.symbol = "f_get_nl_policy") = [] := by
    decide +kernel
  rw [only] at refers
  obtain ⟨members, inside, named⟩ := refers table (List.mem_singleton_self table)
  obtain ⟨row, _, names⟩ := exists_of_forall₂ agree.named members inside
  obtain ⟨_, found, _⟩ := names _ named
  rw [absent] at found
  cases found

end Family

end NetlinkFamily
