import NetlinkFamily.Proofs.Nesting.Inheritance
import NetlinkFamily.Proofs.Output.Notifications
import NetlinkFamily.Proofs.Output.Parsing

namespace NetlinkFamily

namespace Attribute

/-- Arguments stand for the fields that a set takes over: they are the fields themselves, in order,
or the index stands for a single one. -/
def Hands (fields arguments : List String) : Prop :=
  arguments = fields ∨ ∃ field, fields = [field] ∧ arguments = ["mnl_attr_get_type(attr)"]

/-- The levels of an attribute are those that its kind can hand on: a nest has none, an array
tells an index at most, and a nest below other types tells these. -/
def FitsKind (attr : Attribute) : Prop :=
  (attr.kind = .nest → attr.typeValue = []) ∧
    (attr.kind = .arrayNest → attr.typeValue.length ≤ 1) ∧
    (attr.kind = .nestTypeValue → attr.typeValue ≠ [])

instance (attr : Attribute) : Decidable attr.FitsKind :=
  inferInstanceAs (Decidable (_ ∧ _ ∧ _))

/-- A parser is handed its inherited fields exactly when the attribute fits its kind. -/
theorem hands_iff {attr : Attribute} (parsed : attr.isParsedInside = true) :
    Hands (attr.inheritedFields.map CName.lower) attr.handedBesides ↔ attr.FitsKind := by
  unfold isParsedInside at parsed
  unfold Hands FitsKind handedBesides inheritedFields levels
  cases kind : attr.kind with
  | nest => cases attr.typeValue <;> simp
  | arrayNest =>
      cases attr.typeValue with
      | nil => simp
      | cons level rest => cases rest <;> simp
  | nestTypeValue => cases attr.typeValue <;> simp
  | _ => simp [kind] at parsed

end Attribute

namespace Layout

open Outcome

variable {scope : Scope}

/-- An attribute of a layout is one of its set that the layout lists. -/
theorem exists_of_mem_attributes {layout : Layout} {attr : Attribute}
    (listed : attr ∈ layout.attributes scope) :
    ∃ set, scope.sets.get? layout.space = some set ∧ attr ∈ set.attrs.values ∧
      attr.name ∈ layout.members := by
  unfold attributes at listed
  cases held : scope.sets.get? layout.space with
  | none => simp [held] at listed
  | some set =>
      rw [held] at listed
      obtain ⟨name, member, found⟩ := List.mem_filterMap.1 listed
      obtain ⟨rfl, inside⟩ := AttributeSet.name_of_get? found
      exact ⟨set, rfl, inside, member⟩

end Layout

namespace Library

open Outcome

variable {family : Family}

/-- The parser of a nested set takes the fields that its structure takes over. -/
def nestParserSignature (layout : Layout) : C.Signature :=
  { result := "int"
    name := layout.renderName ++ "_parse"
    parameters :=
      ["struct ynl_parse_arg *yarg", "const struct nlattr *nested"] ++
        layout.inherited.map fun name => "__u32 " ++ name }

/-- A structure that starts with the fields that a layout takes over. -/
structure HoldsInherited (layout : Layout) (type : StructureType) : Prop where
  name : type.name = layout.structName
  fields : (layout.inherited.map fun name => ({ type := "__u32", name } : C.Field)) <+: type.fields

/-- All calls of the parser of a nested set hand it the fields that it takes over. -/
def WellCalled (definitions : List Declaration) (layout : Layout) : Prop :=
  ∀ call ∈ C.Code.callsIn (Declaration.allCode definitions),
    call.1 = (nestParserSignature layout).name →
      ∃ place arguments, call.2 = "&parg" :: place :: arguments ∧
        Attribute.Hands layout.inherited arguments

/-- A nested set that replies use has its parser defined. -/
theorem exists_nestParser {definitions : List Declaration}
    (defines : source family = .ok definitions) {set : String} {layout : Layout}
    (held : family.nestedSets.get? set = some layout) (told : layout.reply = true) :
    ∃ body, .function (nestParserSignature layout) body ∈ definitions := by
  simp only [source, bind_eq_ok_iff, pure_eq_ok_iff] at defines
  obtain ⟨tables, _, nests, nested, operations, _, told', _, description, _, rfl⟩ := defines
  obtain ⟨part, made, inside⟩ := exists_part_of_each nested (Registry.get?_eq_some_iff.1 held)
  simp only [nestSource, bind_eq_ok_iff, pure_eq_ok_iff] at made
  obtain ⟨_, _, _, _, parser, parsing, rfl⟩ := made
  rw [whenever_eq_ok_iff, if_pos told] at parsing
  simp only [nestParser, bind_eq_ok_iff, pure_eq_ok_iff] at parsing
  obtain ⟨body, _, rfl⟩ := parsing
  have listed : .function (nestParserSignature layout) body ∈ nests :=
    inside _ (List.mem_append_right _ List.mem_cons_self)
  exact ⟨body, List.mem_flatten.2 ⟨nests, by simp, listed⟩⟩

/-- The structure of a nested set is in the header. -/
theorem exists_structureOf {declarations : List Declaration}
    (declares : header family = .ok declarations) {set : String} {layout : Layout}
    (held : family.nestedSets.get? set = some layout) :
    ∃ type, structureOf family layout.structName layout = .ok type ∧
      .structure type ∈ declarations := by
  simp only [header, bind_eq_ok_iff, pure_eq_ok_iff] at declares
  obtain ⟨nests, nested, operations, _, told, _, rfl⟩ := declares
  obtain ⟨part, made, inside⟩ := exists_part_of_each nested (Registry.mem_values_of_get? held)
  simp only [nestType, bind_eq_ok_iff, pure_eq_ok_iff] at made
  obtain ⟨type, made, rfl⟩ := made
  have listed := inside _ List.mem_cons_self
  exact ⟨type, made, List.mem_flatten.2 ⟨nests, by simp, listed⟩⟩

/-- A nested set has its type declared, with the inherited fields in it. -/
theorem exists_nestType {declarations : List Declaration}
    (declares : header family = .ok declarations) {set : String} {layout : Layout}
    (held : family.nestedSets.get? set = some layout) :
    ∃ type, .structure type ∈ declarations ∧ HoldsInherited layout type := by
  obtain ⟨type, made, listed⟩ := exists_structureOf declares held
  simp only [structureOf, bind_eq_ok_iff, pure_eq_ok_iff] at made
  obtain ⟨fields, _, rfl⟩ := made
  exact ⟨_, listed, rfl, List.prefix_append _ _⟩

end Library

namespace Family

open C.Code Declaration Library Nesting Outcome RootSet

variable {file : Spec.File} {excludes : List Pattern} {family : Family} {operation : Operation}
  {mode : OperationMode} {layout : Layout} {attr : Attribute}

/-- No event that is selected is a notification about another operation as well. -/
def EventsApart (family : Family) : Prop :=
  ∀ operation ∈ events family, operation.notify = none

/-- A selected operation is a message of the family, and uses its own set. -/
theorem own_of_mem_operations (built : ofSpec file excludes = .ok family)
    (listed : operation ∈ family.operations) :
    family.messages.get? operation.name = some operation ∧ operation.notify = none :=
  ⟨(isSelected_of_mem built listed).found, (isSelected_of_mem built listed).notify⟩

/-- So does a selected event that is no notification. -/
theorem own_of_mem_events (built : ofSpec file excludes = .ok family) (apart : family.EventsApart)
    (listed : operation ∈ events family) :
    family.messages.get? operation.name = some operation ∧ operation.notify = none :=
  ⟨(found_of_mem_notifications built (List.mem_of_mem_filter listed)).1, apart operation listed⟩

/-- A mode that is parsed belongs to the operation itself. -/
theorem own_of_isParsed (built : ofSpec file excludes = .ok family) (apart : family.EventsApart)
    (parsed : IsParsed family operation mode) :
    family.messages.get? operation.name = some operation ∧ operation.notify = none := by
  cases mode with
  | call =>
      rcases parsed with ⟨listed, _⟩ | listed
      · exact own_of_mem_operations built listed
      · exact own_of_mem_events built apart listed
  | dump => exact own_of_mem_operations built parsed.1
  | notify | event => exact parsed.elim

/-- The messages of an operation that uses its own set are those of a root set. -/
theorem mem_rootSets_of_layout (built : ofSpec file excludes = .ok family)
    (own : family.messages.get? operation.name = some operation ∧ operation.notify = none)
    {subject : Subject} (described : Subject.ofOperation family operation mode = .ok subject)
    (part : Part) (told : subject.layout? part = some layout) :
    layout.space ∈ family.rootSets.names := by
  have describes := Subject.describes_of_ofOperation described
  rw [(describes.layout part told).1]
  exact mem_rootSets_of_attrSet built own.1 own.2 describes.attrSet

/-- What a reply with a parser carries is used by its root set. -/
theorem uses_of_isParsed (built : ofSpec file excludes = .ok family) (apart : family.EventsApart)
    (parsed : IsParsed family operation mode) {set : String}
    (named : operation.attrSet = some set) {members : List String}
    (carried : operation.replyAttributes mode = some members) {name : String}
    (listed : name ∈ members) : Uses family.rootSets set .reply name := by
  obtain ⟨found, own⟩ := own_of_isParsed built apart parsed
  have carries := used_of_attributesOf carried listed
  simp only [ofSpec, bind_eq_ok_iff, pure_eq_ok_iff] at built
  obtain ⟨outline, begun, _, _, _, _, rfl⟩ := built
  have adds := adds_of_foldlM (Outline.builtFrom begun).rootSets
  rw [adds.uses]
  exact .inr ⟨operation, Registry.mem_values_of_get? found, ⟨own, named⟩, carries⟩

/-- The members of a layout with a parser are attributes of a root set or of a nested set. -/
theorem counts_of_parsed (built : ofSpec file excludes = .ok family) (apart : family.EventsApart)
    (parsed : Parsed family layout) (listed : attr ∈ layout.attributes family.toScope) :
    Counts family.toScope family.rootSets attr := by
  obtain ⟨set, held, inside, _⟩ := Layout.exists_of_mem_attributes listed
  refine ⟨layout.space, set, ?_, held, inside⟩
  obtain ⟨_, _, _, _, resolved⟩ := outline_of_ofSpec built
  cases parsed with
  | nest found told =>
      rw [(namedAfter built found).space]
      exact .inr ((mem_names_of_resolve resolved _).1 (Registry.mem_names_of_get? found))
  | reply parsed described replies =>
      have own := own_of_isParsed built apart parsed
      exact .inl (mem_rootSets_of_layout built own described .reply replies)

/-- The sets inside the members of a layout with a parser are part of replies, so they have
parsers. -/
theorem used_of_parsed (built : ofSpec file excludes = .ok family) (apart : family.EventsApart)
    (parsed : Parsed family layout) (listed : attr ∈ layout.attributes family.toScope)
    {name : String} (named : attr.nestedSet? = some name) :
    Used family.nestedSets .reply name := by
  obtain ⟨set, held, inside, member⟩ := Layout.exists_of_mem_attributes listed
  obtain ⟨_, _, _, _, resolved⟩ := outline_of_ofSpec built
  cases parsed with
  | @nest outer _ found told =>
      have used : Used family.nestedSets .reply outer := ⟨layout, found, told⟩
      rw [(namedAfter built found).space] at held
      obtain ⟨first, marked, path⟩ := (used_resolve resolved outer).1 used
      have step : family.Refers outer name := Scope.refers_iff.2 ⟨set, held, attr, inside, named⟩
      exact (used_resolve resolved name).2 ⟨first, marked, path.tail step⟩
  | @reply operation mode subject _ parsed described replies =>
      have describes := Subject.describes_of_ofOperation described
      obtain ⟨usage, root, uses⟩ :=
        uses_of_isParsed built apart parsed describes.attrSet (describes.replyAttributes replies)
          member
      rw [(describes.layout .reply replies).1] at held
      refine (used_resolve resolved name).2 ⟨name, ?_, .refl⟩
      exact ⟨(subject.attrSet, usage), Registry.get?_eq_some_iff.1 root, set, held, attr, inside,
        uses, named⟩

/-- The set inside a member of a layout with a parser has a parser, which takes the fields that the
member hands down. -/
theorem exists_nestedLayout_of_parsed (built : ofSpec file excludes = .ok family)
    (apart : family.EventsApart) (parsed : Parsed family layout)
    (listed : attr ∈ layout.attributes family.toScope) {nested : NestedSet}
    (inside : attr.nested = some nested) :
    ∃ inner, family.nestedSets.get? nested.set = some inner ∧ inner.reply = true ∧
      inner.inherited = attr.inheritedFields.map CName.lower ∧
      nested = NestedSet.named family.name family.constants nested.set := by
  have named : attr.nestedSet? = some nested.set := by rw [Attribute.nestedSet?, inside]; rfl
  obtain ⟨inner, found, told⟩ := used_of_parsed built apart parsed listed named
  obtain ⟨set, held, member, _⟩ := Layout.exists_of_mem_attributes listed
  obtain ⟨_, _, _, _, resolved⟩ := outline_of_ofSpec built
  have counts := counts_of_parsed built apart parsed listed
  refine ⟨inner, found, told, ?_, nested_eq_named built held member inside⟩
  rw [Layout.inherited, seed_of_counts resolved counts named found]
  rfl

/-- The names by which attributes call the parsers of nested sets are those of these parsers, and
no two parsers share a name. -/
def ParsersApart (family : Family) : Prop :=
  ∀ first ∈ family.nestedSets.names, ∀ second ∈ family.nestedSets.names,
    (NestedSet.named family.name family.constants first).renderName =
      Layout.stem family.name second ↔ first = second

/-- If names tell parsers apart, all of them are well called exactly if the levels of all attributes
that call one fit the kinds of these attributes. -/
theorem wellCalled_iff (built : ofSpec file excludes = .ok family)
    {definitions : List Declaration} (defines : source family = .ok definitions)
    (events : family.EventsApart) (parsers : family.ParsersApart) :
    (∀ set layout, family.nestedSets.get? set = some layout → layout.reply = true →
        WellCalled definitions layout) ↔
      ∀ layout, Parsed family layout → ∀ attr ∈ layout.attributes family.toScope,
        ∀ call, attr.Calls call → attr.FitsKind := by
  have account := callsFor_source defines
  constructor
  · rintro all outer parsed attr listed _ ⟨asks, nested, inside, rfl⟩
    obtain ⟨inner, found, told, inherits, named⟩ :=
      exists_nestedLayout_of_parsed built events parsed listed inside
    have member := Registry.mem_names_of_get? found
    have spelled : nested.renderName = inner.renderName := by
      rw [(namedAfter built found).renderName, named]
      exact (parsers _ member _ member).2 rfl
    have called := (account (nested.renderName ++ "_parse", _) ⟨_, rfl⟩).2
      ⟨outer, parsed, attr, listed, asks, nested, inside, rfl⟩
    obtain ⟨place, arguments, given, hands⟩ := all _ inner found told _ called
      (by rw [spelled]; rfl)
    simp only [List.cons.injEq, true_and] at given
    rw [inherits, ← given.2] at hands
    exact (Attribute.hands_iff asks).1 hands
  · intro fits set layout held told call called same
    have isParser : IsParser call.1 := ⟨_, same⟩
    obtain ⟨outer, parsed, attr, listed, calls⟩ := (account call isParser).1 called
    have fitting := fits outer parsed attr listed call calls
    obtain ⟨asks, nested, inside, rfl⟩ := calls
    obtain ⟨inner, found, _, inherits, named⟩ :=
      exists_nestedLayout_of_parsed built events parsed listed inside
    have spelled : nested.renderName = layout.renderName := String.append_left_inj _ |>.1 same
    rw [(namedAfter built held).renderName, named] at spelled
    obtain rfl := (parsers _ (Registry.mem_names_of_get? found) _
      (Registry.mem_names_of_get? held)).1 spelled
    obtain rfl : layout = inner := Option.some.inj (held.symm.trans found)
    refine ⟨_, _, rfl, ?_⟩
    rw [inherits]
    exact (Attribute.hands_iff asks).2 fitting

/-- The source calls the parser of a nested set for each member of a reply or nest that leaves its
contents to it, and it calls no other parsers. The parser of a nested set takes the fields that the
set takes over, and its structure starts with them. If names tell parsers apart, all calls hand on
these fields exactly if the levels of each attribute fit its kind: those of a nest and all but the
first of an array are not handed on, and a nest below no levels hands on an empty argument. -/
theorem parsers_wellCalled_iff (built : ofSpec file excludes = .ok family)
    {definitions : List Declaration} (defines : source family = .ok definitions) :
    CallsFor (fun call => ∃ layout, Parsed family layout ∧ layout.Calls family.toScope call)
      (allCode definitions) ∧
    (∀ set layout, family.nestedSets.get? set = some layout → layout.reply = true →
      ∃ body, .function (nestParserSignature layout) body ∈ definitions) ∧
    (∀ declarations, header family = .ok declarations → ∀ set layout,
      family.nestedSets.get? set = some layout →
        ∃ type, .structure type ∈ declarations ∧ HoldsInherited layout type) ∧
    (family.EventsApart → family.ParsersApart →
      ((∀ set layout, family.nestedSets.get? set = some layout → layout.reply = true →
          WellCalled definitions layout) ↔
        ∀ layout, Parsed family layout → ∀ attr ∈ layout.attributes family.toScope,
          ∀ call, attr.Calls call → attr.FitsKind)) :=
  ⟨callsFor_source defines, fun _ _ => exists_nestParser defines,
    fun _ declares _ _ => exists_nestType declares, wellCalled_iff built defines⟩

/-- A reply with attributes that have nested sets inside. -/
def handing (attributes : List Spec.Attribute) : Spec.File where
  license := Spec.acceptedLicense
  family :=
    { name := "f"
      attributeSets :=
        [{ name := "dev", attributes },
         { name := "addr", attributes := [{ name := "x", kind := some "u8" }] },
         { name := "entry", attributes := [{ name := "y", kind := some "u8" }] }]
      operations :=
        { list :=
            [{ name := "get"
               attributeSet := some "dev"
               doMode := some
                 { reply := some { attributes := attributes.map Spec.Attribute.name } } }] } }

/-- A nest below a level, and an array of nests. -/
def fitting : List Spec.Attribute :=
  [{ name := "in"
     kind := some "nest-type-value"
     nestedAttributes := some "addr"
     typeValue := some ["level"] },
   { name := "list", kind := some "array-nest", nestedAttributes := some "entry" }]

/-- A nest that tells a level. -/
def unfitting : List Spec.Attribute :=
  [{ name := "in"
     kind := some "nest"
     nestedAttributes := some "addr"
     typeValue := some ["level"] }]

theorem isSome_ofSpec_fitting : (ofSpec (handing fitting) []).toOption.isSome = true := by
  decide +kernel

/-- The family whose attributes fit their kinds. -/
def fittingFamily : Family :=
  (ofSpec (handing fitting) []).toOption.get isSome_ofSpec_fitting

theorem isSome_source_fitting : (source fittingFamily).toOption.isSome = true := by decide +kernel

/-- The level and the index are handed to the parsers of the sets inside. -/
theorem parsers_wellCalled_iff_fitting :
    ∃ definitions, ofSpec (handing fitting) [] = .ok fittingFamily ∧
      source fittingFamily = .ok definitions ∧ fittingFamily.EventsApart ∧
      fittingFamily.ParsersApart ∧
      (fittingFamily.nestedSets.values.map fun layout => (layout.reply, layout.inherited)) =
        [(true, ["level"]), (true, ["idx"])] ∧
      ∀ set layout, fittingFamily.nestedSets.get? set = some layout → layout.reply = true →
        WellCalled definitions layout := by
  have built : ofSpec (handing fitting) [] = .ok fittingFamily := eq_ok_get isSome_ofSpec_fitting
  have defines := eq_ok_get isSome_source_fitting
  have events : fittingFamily.EventsApart := by unfold EventsApart; decide +kernel
  have parsers : fittingFamily.ParsersApart := by unfold ParsersApart; decide +kernel
  have inherited :
      (fittingFamily.nestedSets.values.map fun layout => (layout.reply, layout.inherited)) =
        [(true, ["level"]), (true, ["idx"])] := by decide +kernel
  have fits : ∀ set ∈ fittingFamily.sets.values, ∀ attr ∈ set.attrs.values, attr.FitsKind := by
    decide +kernel
  obtain ⟨_, _, _, called⟩ := parsers_wellCalled_iff built defines
  refine ⟨_, built, defines, events, parsers, inherited, (called events parsers).2 ?_⟩
  intro layout _ attr listed _ _
  obtain ⟨set, held, inside, _⟩ := Layout.exists_of_mem_attributes listed
  exact fits set (Registry.mem_values_of_get? held) attr inside

theorem isSome_ofSpec_unfitting : (ofSpec (handing unfitting) []).toOption.isSome = true := by
  decide +kernel

/-- The family with an attribute that does not fit its kind. -/
def unfittingFamily : Family :=
  (ofSpec (handing unfitting) []).toOption.get isSome_ofSpec_unfitting

theorem isSome_source_unfitting : (source unfittingFamily).toOption.isSome = true := by
  decide +kernel

/-- The reply is parsed, and its nest is left to the parser of the set inside. -/
theorem parsed_unfitting :
    ∃ layout, Parsed unfittingFamily layout ∧
      layout.Calls unfittingFamily.toScope ("f_addr_parse", ["&parg", "attr"]) := by
  obtain ⟨operation, listed, called, made, told⟩ :
      ∃ operation ∈ unfittingFamily.operations, isCalled operation = true ∧
        ∃ made : (Subject.ofOperation unfittingFamily operation .call).toOption.isSome = true,
          ((((Subject.ofOperation unfittingFamily operation .call).toOption.get made).reply).map
            fun layout => (layout.attributes unfittingFamily.toScope).map fun attr =>
              (attr.isParsedInside, attr.nested.map NestedSet.renderName, attr.handed,
                attr.handedBesides)) = some [(true, some "f_addr", "attr", [])] :=
    ⟨unfittingFamily.operations.headI, by decide +kernel, by decide +kernel, by decide +kernel,
      by decide +kernel⟩
  obtain ⟨layout, replies, members⟩ := Option.map_eq_some_iff.1 told
  obtain ⟨attr, only, given⟩ := List.map_eq_singleton_iff.1 members
  simp only [Prod.mk.injEq, Option.map_eq_some_iff] at given
  obtain ⟨asks, ⟨nested, inside, spelled⟩, handed, besides⟩ := given
  have parsed : IsParsed unfittingFamily operation .call := .inl ⟨listed, called⟩
  refine ⟨layout, .reply parsed (eq_ok_get made) replies, attr, by simp [only], asks, nested,
    inside, ?_⟩
  rw [spelled, handed, besides]
  rfl

/-- The parser of a set inside a nest with a level takes one field, and it is called without. -/
theorem not_forall_wellCalled :
    ¬∀ (file : Spec.File) (excludes : List Pattern) (family : Family)
      (definitions : List Declaration), ofSpec file excludes = .ok family →
      source family = .ok definitions → ∀ set layout,
        family.nestedSets.get? set = some layout → layout.reply = true →
        ∀ call ∈ callsIn (allCode definitions), call.1 = layout.renderName ++ "_parse" →
          call.2.length = 2 + layout.inherited.length := by
  intro always
  have built : ofSpec (handing unfitting) [] = .ok unfittingFamily :=
    eq_ok_get isSome_ofSpec_unfitting
  have defines := eq_ok_get isSome_source_unfitting
  obtain ⟨layout, held⟩ : ∃ layout, unfittingFamily.nestedSets.get? "addr" = some layout :=
    Registry.exists_get?_of_mem (by decide +kernel)
  have facts : (unfittingFamily.nestedSets.get? "addr").map
      (fun layout => (layout.renderName, layout.reply, layout.inherited)) =
        some ("f_addr", true, ["level"]) := by decide +kernel
  rw [held, Option.map_some, Option.some.injEq, Prod.mk.injEq, Prod.mk.injEq] at facts
  obtain ⟨named, told, inherited⟩ := facts
  have called : ("f_addr_parse", ["&parg", "attr"]) ∈ callsIn (allCode _) :=
    (callsFor_source defines _ ⟨"f_addr", rfl⟩).2 parsed_unfitting
  have same := always _ _ _ _ built defines "addr" layout held told _ called (by rw [named]; decide)
  rw [inherited] at same
  cases same

end Family

end NetlinkFamily
