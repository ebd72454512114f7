import NetlinkFamily.Proofs.Model.Layouts
import NetlinkFamily.Proofs.Nesting.Usage
import NetlinkFamily.Proofs.Output.References
import NetlinkFamily.Proofs.Output.Standing

namespace NetlinkFamily

open Outcome

namespace Attribute

/-- Whether the attribute stands for a value. Padding and unused attributes do not. -/
def carriesValue (attr : Attribute) : Bool :=
  attr.kind != .pad && attr.kind != .unused

/-- An attribute has a policy if it stands for a value. -/
theorem isSome_wirePolicy {constants : Registry Constant} {attr : Attribute}
    {policy : Option WirePolicy} (done : attr.wirePolicy constants = .ok policy) :
    policy.isSome = attr.carriesValue := by
  unfold carriesValue
  unfold wirePolicy at done
  cases kind : attr.kind <;> simp only [kind] at done
  case scalar | nest | arrayNest =>
    obtain ⟨_, _, rfl⟩ := map_eq_ok_iff.1 done
    rfl
  case binary =>
    split at done
    · exact Except.ok.inj done ▸ rfl
    · exact Except.ok.inj done ▸ rfl
    · cases done
  case nestTypeValue => cases done
  all_goals exact Except.ok.inj done ▸ rfl

end Attribute

namespace Kernel

open Declaration

variable {family : Family} {layout : Layout} {table : PolicyTable}
  {definitions : List Declaration} {file : Spec.File} {excludes : List Pattern}

/-- A line is the entry of a member: it designates the member by its own name, with its policy. -/
def Designates (family : Family) (attr : Attribute) (line : String) : Prop :=
  ∃ policy, attr.wirePolicy family.constants = .ok (some policy) ∧
    line = "\t[" ++ attr.enumName ++ "] = " ++ policy.initializer ++ ","

/-- The members of a layout that carry values. -/
def carriers (family : Family) (layout : Layout) : List Attribute :=
  (layout.attributes family.toScope).filter Attribute.carriesValue

/-- A group of lines is a table with exactly one entry for each member of a layout that carries a
value, in their order, and its room goes up to the greatest member. -/
structure Fills (family : Family) (layout : Layout) (stem : String) (group : List String) :
    Prop where
  members : (layout.attributes family.toScope).map Attribute.name = layout.members
  lines : ∃ storage ∈ ["", "static "], ∃ last entries,
    group = (storage ++ "const struct nla_policy " ++ stem ++ "_nl_policy[" ++ last.enumName ++
      " + 1] = \x7b") :: entries ++ ["\x7d;"] ∧
    List.Forall₂ (Designates family) (carriers family layout) entries ∧
    Layout.IsGreatest (layout.attributes family.toScope) last ∧
    ∀ attr ∈ carriers family layout, attr.value ≤ last.value

/-- Whether a line opens a table of policies. -/
def opensPolicy (line : String) : Bool :=
  C.startsWith line "const struct nla_policy " || C.startsWith line "static const struct nla_policy "

/-- A call or a dump of the operation requests an attribute. -/
def Asks (operation : Operation) (name : String) : Prop :=
  ∃ mode attributes, (mode = .call ∨ mode = .dump) ∧
    operation.requestAttributes mode = some attributes ∧ name ∈ attributes

/-- The members of a layout are the attributes that selected operations request, in the order of
their set. -/
structure Unites (family : Family) (layout : Layout) : Prop where
  inOrder : ∃ set, family.sets.get? layout.space = some set ∧
    layout.members.Sublist set.attrs.names
  asked : ∀ name, name ∈ layout.members ↔ ∃ operation ∈ family.operations, Asks operation name

section Tables

/-- The lines of the entries designate the members that carry values. -/
theorem designates_filterMap {attrs : List Attribute}
    {entries : List (Option (String × WirePolicy))}
    (made : List.Forall₂ (fun attr entry => policyEntry family attr = .ok entry) attrs entries) :
    List.Forall₂ (Designates family) (attrs.filter Attribute.carriesValue)
      ((entries.filterMap id).map fun entry =>
        "\t[" ++ entry.1 ++ "] = " ++ entry.2.initializer ++ ",") := by
  induction made with
  | nil => exact .nil
  | @cons attr entry attrs entries here _ ih =>
      simp only [policyEntry, bind_eq_ok_iff, pure_eq_ok_iff] at here
      obtain ⟨policy, found, rfl⟩ := here
      rw [List.filter_cons, ← Attribute.isSome_wirePolicy found]
      cases policy with
      | none => exact ih
      | some policy => exact .cons ⟨policy, found, rfl⟩ ih

/-- The first line of a table. -/
theorem declarator_eq (table : PolicyTable) :
    table.declarator ++ " = \x7b" =
      table.storage ++ "const struct nla_policy " ++ table.stem ++ "_nl_policy[" ++ table.bound ++
        " + 1] = \x7b" := by
  apply String.toList_injective
  simp [PolicyTable.declarator, PolicyTable.symbol]

/-- The table of a layout is filled with its members. -/
theorem fills_of_filledTable {storage stem : String} {set : AttributeSet}
    {attrs : List Attribute} (holds : layout.Holds family.toScope set attrs)
    (known : table.storage ∈ ["", "static "])
    (filled : filledTable family storage stem layout = .ok [.policy table, .space]) :
    Fills family layout stem (policy table).lines := by
  simp only [filledTable, bind_eq_ok_iff, pure_eq_ok_iff, List.cons.injEq,
    Declaration.policy.injEq, and_true] at filled
  obtain ⟨outline, begun, entries, made, rfl⟩ := filled
  unfold tableOf at begun
  split at begun
  · cases begun
  · rename_i last best
    obtain rfl := Except.ok.inj begun
    have best : Layout.IsGreatest (layout.attributes family.toScope) last := by
      rw [holds.attributes]
      exact Layout.isGreatest_of_greatest (holds.maxAttribute ▸ best)
    refine ⟨?_, storage, known, last, _, ?_, designates_filterMap (mapM_eq_ok_iff.1 made), best, ?_⟩
    · rw [holds.attributes, holds.members]
    · rw [lines_policy, declarator_eq]
    · intro attr carries
      exact best.le (List.mem_filter.1 carries).1

/-- Each table of a source is that of a layout with a policy. -/
theorem exists_hasPolicy_of_mem_policies (rendered : source family = .ok definitions)
    (listed : table ∈ policies definitions) :
    ∃ layout storage stem, HasPolicy family layout ∧
      filledTable family storage stem layout = .ok [.policy table, .space] := by
  obtain ⟨nests, shared, own, _, nested, whole, made, _, tables, _⟩ := parts_of_source rendered
  rw [tables, List.mem_append, List.mem_append] at listed
  rcases listed with (nest | shares) | requests
  · obtain ⟨layout, used, filled⟩ := exists_of_forall₂ (policies_nests nested).1 table nest
    exact ⟨layout, _, _, .nested used, filled⟩
  · rcases globalSection_cases whole with none | ⟨layout, _, isGlobal, laidOut, filled, rfl⟩
    · obtain ⟨declaration, member, isPolicy⟩ := List.mem_filterMap.1 shares
      rw [policy?_of_plain (none declaration member)] at isPolicy
      cases isPolicy
    · obtain ⟨other, _, rfl, _⟩ := filledTable_eq_ok filled
      obtain rfl := List.mem_singleton.1 shares
      exact ⟨layout, _, _, .shared isGlobal laidOut, filled⟩
  · unfold operationSection at made
    split at made
    · cases made
      cases requests
    · rename_i apart
      obtain ⟨parts, each, rfl⟩ := map_eq_ok_iff.1 made
      obtain ⟨_, asks, _, _, layout, named, carried, laidOut, filled⟩ :=
        exists_of_forall₂ (policies_operations each).1 table requests
      exact ⟨layout, _, _, .request apart asks named carried laidOut, filled⟩

/-- The shared layout is that of the global policy. -/
theorem globalLayout_eq_ok (laidOut : globalLayout family = .ok (some layout)) :
    ∃ shared, family.globalPolicy = some shared ∧
      Layout.ofList family.toScope shared.set shared.attrs = .ok layout := by
  unfold globalLayout at laidOut
  cases given : family.globalPolicy with
  | none =>
      rw [given, Option.mapM_none, pure_eq_ok_iff] at laidOut
      cases laidOut
  | some shared =>
      simp only [given, Option.mapM_some, Functor.map, map_eq_ok_iff, Option.some.injEq] at laidOut
      obtain ⟨_, made, rfl⟩ := laidOut
      exact ⟨shared, rfl, made⟩

/-- The layouts with policies hold attributes of their sets. -/
theorem exists_holds_of_hasPolicy (built : Family.ofSpec file excludes = .ok family)
    (has : HasPolicy family layout) :
    ∃ set attrs, layout.Holds family.toScope set attrs := by
  cases has with
  | nested used =>
      obtain ⟨⟨name, _⟩, inside, rfl⟩ := List.mem_map.1 used
      have listed := (List.mem_filter.1 (List.mem_mergeSort.1 inside)).1
      obtain ⟨set, _, holds⟩ := Family.holdsAll built (Registry.get?_eq_some_iff.2 listed)
      exact ⟨set, set.attrs.values, holds⟩
  | shared _ laidOut =>
      obtain ⟨_, _, made⟩ := globalLayout_eq_ok laidOut
      exact Layout.exists_holds_of_ofList made
  | request _ _ _ _ laidOut => exact Layout.exists_holds_of_ofList laidOut

end Tables

section Shared

/-- An operation requests an attribute exactly when one of its requests asks for it. -/
theorem requests_iff {operation : Operation} {name : String} :
    Family.requests operation name = true ↔ Asks operation name := by
  simp only [Family.requests, Bool.or_eq_true, List.contains_iff_mem, Asks]
  constructor
  · rintro (call | dump)
    · cases carried : operation.requestAttributes .call with
      | none => simp [carried] at call
      | some attributes => exact ⟨.call, attributes, .inl rfl, carried, by simpa [carried] using call⟩
    · cases carried : operation.requestAttributes .dump with
      | none => simp [carried] at dump
      | some attributes => exact ⟨.dump, attributes, .inr rfl, carried, by simpa [carried] using dump⟩
  · rintro ⟨mode, attributes, rfl | rfl, carried, inside⟩
    · exact .inl (by simpa [carried] using inside)
    · exact .inr (by simpa [carried] using inside)

/-- The shared policy of a family is that of its selected operations. -/
theorem shareGlobalPolicy_of_ofSpec (built : Family.ofSpec file excludes = .ok family)
    {shared : GlobalPolicy} (given : family.globalPolicy = some shared) :
    Family.shareGlobalPolicy family.toScope family.operations = .ok (some shared) := by
  simp only [Family.ofSpec, bind_eq_ok_iff, pure_eq_ok_iff] at built
  obtain ⟨outline, _, _, _, policy, made, rfl⟩ := built
  obtain rfl : policy = some shared := given
  unfold Family.globalPolicyOf at made
  split at made
  · exact made
  · cases made

/-- The attributes that all requests share are those that some request lists. -/
theorem unites_globalLayout (built : Family.ofSpec file excludes = .ok family)
    (laidOut : globalLayout family = .ok (some layout)) : Unites family layout := by
  obtain ⟨shared, given, made⟩ := globalLayout_eq_ok laidOut
  obtain ⟨space, _, members⟩ := Layout.ofList_eq made
  have collected := shareGlobalPolicy_of_ofSpec built given
  unfold Family.shareGlobalPolicy at collected
  split at collected
  · cases collected
  · rename_i first others named
    split at collected
    · rename_i same
      simp only [bind_eq_ok_iff, pure_eq_ok_iff, Scope.attributeSet_eq_ok_iff, Option.some.injEq]
        at collected
      obtain ⟨set, found, rfl⟩ := collected
      dsimp only at space members
      refine ⟨⟨set, space ▸ found, members ▸ List.filter_sublist⟩, fun name => ?_⟩
      simp only [members, List.mem_filter, List.any_eq_true, requests_iff]
      constructor
      · exact And.right
      · -- What a request lists is defined in the set of its operation, which is the set of all.
        rintro ⟨operation, selected, mode, attributes, known, carried, inside⟩
        refine ⟨?_, operation, selected, mode, attributes, known, carried, inside⟩
        obtain ⟨own, ownSet, defined⟩ := Family.isDeclared_of_mem_operations built selected mode
        obtain ⟨other, held, listed⟩ := defined .request attributes carried
        obtain rfl : own = first := by
          have member : own ∈ first :: others :=
            named ▸ List.mem_filterMap.2 ⟨operation, selected, ownSet⟩
          rcases List.mem_cons.1 member with rfl | later
          · rfl
          · simpa using List.all_eq_true.1 same own later
        obtain rfl := Option.some.inj (found.symm.trans held)
        exact listed name inside
    · cases collected

end Shared

section Reached

/-- A nested set that requests reach is one of those with a policy. -/
theorem exists_requestedNest (built : Family.ofSpec file excludes = .ok family) {name : String}
    (reached : family.LeadsTo .request name) :
    ∃ layout, family.nestedSets.get? name = some layout ∧ layout ∈ requestedNests family := by
  obtain ⟨_, _, _, _, resolved⟩ := Family.outline_of_ofSpec built
  obtain ⟨layout, held, marked⟩ :=
    (Nesting.used_resolve resolved name).2 ((Family.leadsTo_iff resolved).1 reached)
  refine ⟨layout, held, List.mem_map.2 ⟨(name, layout), ?_, rfl⟩⟩
  rw [List.mem_mergeSort, List.mem_filter]
  exact ⟨Registry.get?_eq_some_iff.1 held, marked⟩

/-- Every nested set that is requested has its table. -/
theorem exists_table_of_mem_requestedNests (rendered : source family = .ok definitions)
    (used : layout ∈ requestedNests family) :
    ∃ table ∈ policies definitions,
      filledTable family "" layout.renderName layout = .ok [.policy table, .space] := by
  obtain ⟨nests, _, _, _, nested, _, _, _, tables, _⟩ := parts_of_source rendered
  obtain ⟨table, member, filled⟩ := exists_of_forall₂ (policies_nests nested).1.flip layout used
  refine ⟨table, ?_, filled⟩
  rw [tables, List.append_assoc]
  exact List.mem_append_left _ member

end Reached

section Text

/-- The lines between the braces of a table or an object open no table of policies. -/
theorem filter_inside (lines : List String) {indent : String} (deeper : indent ∈ ["\t", "\t\t"]) :
    (lines.map (indent ++ ·)).filter opensPolicy = [] := by
  rw [List.filter_eq_nil_iff, List.forall_mem_map]
  intro line _
  rcases List.mem_pair.1 deeper with rfl | rfl
  · simp [opensPolicy, C.startsWith, List.isPrefixOf]
  · simp [opensPolicy, C.startsWith, List.isPrefixOf]

/-- The table of operations is no table of policies. -/
theorem opensPolicy_tableDeclarator (rest : String) :
    opensPolicy (tableDeclarator family ++ rest) = false := by
  unfold tableDeclarator tableType
  cases describesFamily family <;> cases family.kernelPolicy <;>
    simp [opensPolicy, C.startsWith, List.isPrefixOf]

/-- A table of operations opens no policy. -/
theorem filter_operations (entries : List (List (String × String))) :
    (operations { declarator := tableDeclarator family, entries }).lines.filter opensPolicy =
      [] := by
  have head : ¬opensPolicy (tableDeclarator family ++ " = \x7b") = true := by
    rw [opensPolicy_tableDeclarator]
    exact Bool.false_ne_true
  have inside : (entries.flatMap fun members =>
      "\t\x7b" :: (C.initializerLines members).map ("\t\t" ++ ·) ++ ["\t\x7d,"]).filter
        opensPolicy = [] := by
    rw [List.filter_flatMap, List.flatMap_eq_nil_iff]
    intro members _
    rw [List.cons_append, List.filter_cons_of_neg (by decide), List.filter_append,
      filter_inside _ (by simp)]
    rfl
  rw [lines_operations, List.cons_append, List.filter_cons_of_neg head, List.filter_append, inside]
  rfl

/-- Only the first line of a table of policies opens one. -/
theorem filter_lines {declaration : Declaration} (part : SourcePart family declaration) :
    declaration.lines.filter opensPolicy =
      (policy? declaration).toList.map fun table => table.declarator ++ " = \x7b" := by
  cases part with
  | comment text =>
      rw [Declaration.comment, lines_line]
      simp [opensPolicy, C.startsWith, List.isPrefixOf, policy?]
  | space => rfl
  | @policy table storage =>
      have opens : opensPolicy (table.declarator ++ " = \x7b") = true := by
        rw [declarator_eq]
        rcases List.mem_pair.1 storage with none | static
        · simp [none, opensPolicy, C.startsWith, List.isPrefixOf]
        · simp [static, opensPolicy, C.startsWith, List.isPrefixOf]
      have inside : (table.entries.map fun entry =>
          "\t[" ++ entry.1 ++ "] = " ++ entry.2.initializer ++ ",").filter opensPolicy = [] := by
        rw [List.filter_eq_nil_iff, List.forall_mem_map]
        simp [opensPolicy, C.startsWith, List.isPrefixOf]
      rw [lines_policy, List.cons_append, List.filter_cons_of_pos opens, List.filter_append, inside]
      rfl
  | operations entries => exact filter_operations entries
  | @object start known header rest same contents lines listed level =>
      have other : header ≠ "" ∧ opensPolicy (header ++ " \x7b") = false := by
        rw [same]
        rcases List.mem_pair.1 known with rfl | rfl
        · exact ⟨by simp, by simp [opensPolicy, C.startsWith, List.isPrefixOf]⟩
        · exact ⟨by simp, by simp [opensPolicy, C.startsWith, List.isPrefixOf]⟩
      rw [listed, lines_object other.1 level, List.cons_append, List.filter_cons_of_neg
        (by rw [other.2]; exact Bool.false_ne_true), List.filter_append,
        filter_inside _ (by simp)]
      rfl

/-- The tables of a source are private to it or have no storage of their own. -/
theorem storage_of_mem_policies
    (parts : ∀ declaration ∈ definitions, SourcePart family declaration)
    (listed : table ∈ policies definitions) : table.storage ∈ ["", "static "] := by
  obtain ⟨declaration, member, isPolicy⟩ := List.mem_filterMap.1 listed
  cases declaration with
  | policy own =>
      obtain rfl := Option.some.inj isPolicy
      cases parts _ member with
      | policy storage => exact storage
  | _ => cases isPolicy

/-- The lines of a source that open tables of policies are the first ones of its tables. -/
theorem filter_printed_policies
    (parts : ∀ declaration ∈ definitions, SourcePart family declaration) :
    (printed definitions).filter opensPolicy =
      ((policies definitions).map fun table => (policy table).lines).filterMap List.head? := by
  have stand : ∀ declaration ∈ definitions, declaration.Stands := fun declaration member =>
    stands_of_isSettled (parts declaration member).isSettled
  have head (table : PolicyTable) :
      (policy table).lines.head? = some (table.declarator ++ " = \x7b") := by
    rw [lines_policy]
    rfl
  have heads : ((policies definitions).map fun table => (policy table).lines).filterMap
      List.head? = (policies definitions).map fun table => table.declarator ++ " = \x7b" := by
    rw [List.filterMap_map, ← List.filterMap_eq_map]
    exact List.filterMap_congr fun table _ => head table
  rw [filter_printed stand (by decide), heads, policies, List.filterMap_eq_flatMap_toList,
    List.map_flatMap]
  exact List.flatMap_congr fun declaration member => filter_lines (parts declaration member)

end Text

/-- The tables of policies in the text of a source are those of the layouts with policies, each
filled with its members. Such are the layout that all requests share, which holds what selected
operations request, and the nested sets that requests reach. -/
theorem fills_policies (built : Family.ofSpec file excludes = .ok family)
    (rendered : source family = .ok definitions) :
    ∃ lines tables, render definitions = String.join (lines.map (· ++ "\n")) ∧
      Follow tables lines ∧ lines.filter opensPolicy = tables.filterMap List.head? ∧
      (∀ group ∈ tables, ∃ layout stem, HasPolicy family layout ∧
        Fills family layout stem group) ∧
      (∀ layout, HasPolicy family layout → ∃ group ∈ tables, ∃ stem,
        Fills family layout stem group) ∧
      (∀ layout, globalLayout family = .ok (some layout) → Unites family layout) ∧
      ∀ name, family.LeadsTo .request name →
        ∃ layout, family.nestedSets.get? name = some layout ∧
          ∃ group ∈ tables, Fills family layout layout.renderName group := by
  have parts := sourcePart_source rendered
  have stand : ∀ declaration ∈ definitions, declaration.Stands := fun declaration member =>
    stands_of_isSettled (parts declaration member).isSettled
  have fills {storage stem : String} {layout : Layout} {table : PolicyTable}
      (has : HasPolicy family layout) (listed : table ∈ policies definitions)
      (filled : filledTable family storage stem layout = .ok [.policy table, .space]) :
      (policy table).lines ∈ (policies definitions).map (fun table => (policy table).lines) ∧
        Fills family layout stem (policy table).lines := by
    obtain ⟨_, _, holds⟩ := exists_holds_of_hasPolicy built has
    exact ⟨List.mem_map_of_mem listed,
      fills_of_filledTable holds (storage_of_mem_policies parts listed) filled⟩
  refine ⟨_, _, render_eq definitions, follow_policies stand, filter_printed_policies parts, ?_, ?_,
    fun _ => unites_globalLayout built, ?_⟩
  · rw [List.forall_mem_map]
    intro table listed
    obtain ⟨layout, _, stem, has, filled⟩ := exists_hasPolicy_of_mem_policies rendered listed
    exact ⟨layout, stem, has, (fills has listed filled).2⟩
  · intro layout has
    obtain ⟨_, stem, table, listed, filled⟩ := exists_table_of_hasPolicy rendered has
    obtain ⟨member, full⟩ := fills has listed filled
    exact ⟨_, member, stem, full⟩
  · intro name reached
    obtain ⟨layout, held, used⟩ := exists_requestedNest built reached
    obtain ⟨table, listed, filled⟩ := exists_table_of_mem_requestedNests rendered used
    obtain ⟨member, full⟩ := fills (.nested used) listed filled
    exact ⟨layout, held, _, member, full⟩

/-- Two requests that share one policy. Nothing asks for the last attribute. -/
def pooled : Spec.File where
  license := Spec.acceptedLicense
  family :=
    { name := "f"
      kernelPolicy := .global
      attributeSets :=
        [{ name := "f"
           attributes :=
            [{ name := "n", kind := some "nest", nestedAttributes := some "inner" },
             { name := "p", kind := some "pad" },
             { name := "x", kind := some "u8" },
             { name := "y", kind := some "u8" }] },
         { name := "inner", attributes := [{ name := "z", kind := some "string" }] }]
      operations :=
        { list :=
            [{ name := "get"
               attributeSet := some "f"
               doMode := some { request := some { attributes := ["x", "p"] } } },
             { name := "set"
               attributeSet := some "f"
               dumpMode := some { request := some { attributes := ["n"] } } }] } }

theorem isSome_ofSpec_pooled : (Family.ofSpec pooled []).toOption.isSome = true := by
  decide +kernel

/-- The family whose operations share one policy. -/
def pooledFamily : Family :=
  (Family.ofSpec pooled []).toOption.get isSome_ofSpec_pooled

theorem isSome_source_pooled : (source pooledFamily).toOption.isSome = true := by
  decide +kernel

/-- The kernel source of that family. -/
def pooledSource : List Declaration :=
  (source pooledFamily).toOption.get isSome_source_pooled

/-- The padding has no entry in the shared table. -/
example : ((printed pooledSource).drop 6).take 4 =
    ["const struct nla_policy f_nl_policy[F_A_X + 1] = \x7b",
      "\t[F_A_N] = NLA_POLICY_NESTED(f_inner_nl_policy),",
      "\t[F_A_X] = \x7b .type = NLA_U8, \x7d,",
      "\x7d;"] := by
  decide +kernel

/-- That family has a shared layout. -/
theorem isSome_globalLayout_pooled :
    ((globalLayout pooledFamily).toOption.getD none).isSome = true := by
  decide +kernel

/-- The layout of both requests has a table. -/
theorem fills_policies_pooled :
    Family.ofSpec pooled [] = .ok pooledFamily ∧ source pooledFamily = .ok pooledSource ∧
      ∃ lines tables, render pooledSource = String.join (lines.map (· ++ "\n")) ∧
        Follow tables lines ∧ lines.filter opensPolicy = tables.filterMap List.head? ∧
        (∀ group ∈ tables, ∃ layout stem, HasPolicy pooledFamily layout ∧
          Fills pooledFamily layout stem group) ∧
        ∃ layout, globalLayout pooledFamily = .ok (some layout) ∧ Unites pooledFamily layout ∧
          ∃ group ∈ tables, ∃ stem, Fills pooledFamily layout stem group := by
  have built : Family.ofSpec pooled [] = .ok pooledFamily := eq_ok_get isSome_ofSpec_pooled
  have rendered : source pooledFamily = .ok pooledSource := eq_ok_get isSome_source_pooled
  have isGlobal : pooledFamily.kernelPolicy = .global := by decide +kernel
  obtain ⟨layout, laidOut⟩ : ∃ layout, globalLayout pooledFamily = .ok (some layout) := by
    have some := isSome_globalLayout_pooled
    cases made : globalLayout pooledFamily with
    | error => simp [made, Except.toOption] at some
    | ok layout =>
        rw [made] at some
        obtain ⟨layout, same⟩ := Option.isSome_iff_exists.1 some
        exact ⟨layout, congrArg Except.ok same⟩
  obtain ⟨lines, tables, text, follow, heads, each, filled, unites, _⟩ :=
    fills_policies built rendered
  exact ⟨built, rendered, lines, tables, text, follow, heads, each, layout, laidOut,
    unites layout laidOut, filled layout (.shared isGlobal laidOut)⟩

end Kernel

end NetlinkFamily
