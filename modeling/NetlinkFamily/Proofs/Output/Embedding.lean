import NetlinkFamily.Proofs.Output.Linkage
import NetlinkFamily.Proofs.Output.ParserArguments
import NetlinkFamily.Proofs.Output.Structures

namespace NetlinkFamily

namespace Library

open Declaration Outcome

/-- The messages that have structures. A dump shares that of its reply with the call if it can. -/
def IsPrinted (family : Family) (operation : Operation) (mode : OperationMode) (part : Part) :
    Prop :=
  match mode with
  | .call => operation ∈ family.operations ∧ isCalled operation = true
  | .dump => operation ∈ family.operations ∧ operation.dumpMode.isSome = true ∧
      (part = .reply → Subject.sharedReply operation .dump = false)
  | .event => operation ∈ events family ∧ part = .reply
  | .notify => False

/-- The layouts that have structures: those of nested sets, and those of messages. -/
inductive Printed (family : Family) : Layout → Prop
  | nest {set : String} {layout : Layout} (held : family.nestedSets.get? set = some layout) :
      Printed family layout
  | message {operation : Operation} {mode : OperationMode} {part : Part} {subject : Subject}
      {layout : Layout} (printed : IsPrinted family operation mode part)
      (described : Subject.ofOperation family operation mode = .ok subject)
      (told : subject.layout? part = some layout) : Printed family layout

/-- The structure of a nested set is named as an attribute names the set inside it. -/
def HasStructure (family : Family) (nested : NestedSet) : Prop :=
  ∃ inner, family.nestedSets.get? nested.set = some inner ∧ inner.structName = nested.structType

/-- The types that structures embed while no structure is made for them: the reply of a dump or of
a call that has none, and a nested set whose structure has another name. -/
inductive Dangling (family : Family) : String → Prop
  | dump {operation : Operation} {subject : Subject} (listed : operation ∈ family.operations)
      (dumps : operation.dumpMode.isSome = true)
      (described : Subject.ofOperation family operation .dump = .ok subject)
      (silent : subject.reply = none) : Dangling family (subject.structType .reply true)
  | notification {operation : Operation} {subject : Subject}
      (listed : operation ∈ family.operations) (tells : operation.hasNotification = true)
      (handled : notification family operation = .ok subject)
      (silent : subject.reply = none) : Dangling family (subject.structType .reply true)
  | member {layout : Layout} {attr : Attribute} {nested : NestedSet}
      (printed : Printed family layout) (listed : attr ∈ layout.attributes family.toScope)
      (embedded : attr.isEmbedded = true) (inside : attr.nested = some nested)
      (lost : ¬HasStructure family nested) : Dangling family nested.structType

/-- The names of the structures of nested sets. -/
def nestNames (family : Family) : List String :=
  family.nestedSets.values.map Layout.structName

variable {family : Family} {operation : Operation} {subject : Subject} {layout : Layout}
  {name : String} {known : List String} {declarations : List Declaration}

/-- What a layout embeds is the structure of a set inside it, unless it is left dangling. -/
theorem dangling_of_embeds (printed : Printed family layout)
    (embeds : layout.Embeds family.toScope name) :
    (∃ set inner, set ∈ family.toScope.references layout.space ∧
      family.nestedSets.get? set = some inner ∧ inner.structName = name) ∨
        Dangling family name := by
  obtain ⟨attr, listed, embedded, nested, inside, rfl⟩ := embeds
  by_cases found : HasStructure family nested
  · obtain ⟨inner, held, named⟩ := found
    obtain ⟨set, outer, member, _⟩ := Layout.exists_of_mem_attributes listed
    have refers : family.toScope.Refers layout.space nested.set :=
      Scope.refers_iff.2 ⟨set, outer, attr, member, by rw [Attribute.nestedSet?, inside]; rfl⟩
    exact .inl ⟨nested.set, inner, refers, held, named⟩
  · exact .inr (.member printed listed embedded inside found)

/-- What a structure of a layout embeds is known where all nested sets are. -/
theorem embedsKnown_structureOf {type : StructureType} (printed : Printed family layout)
    (within : ∀ name ∈ nestNames family, name ∈ known)
    (made : structureOf family name layout = .ok type) :
    EmbedsKnown (Dangling family) known [type] := by
  refine ⟨fun inner member => ?_, trivial⟩
  have embeds := ((mem_embedded_structureOf made).2 inner).1 member
  rcases dangling_of_embeds printed embeds with ⟨set, layout, _, held, rfl⟩ | dangling
  · exact .inl (within _ (List.mem_map_of_mem (Registry.mem_values_of_get? held)))
  · exact .inr dangling

/-- The structure of a message that may be missing. -/
theorem embedsKnown_message {layout? : Option Layout} {type? : Option StructureType}
    (printed : ∀ layout, layout? = some layout → Printed family layout)
    (within : ∀ name ∈ nestNames family, name ∈ known)
    (made : layout?.mapM (structureOf family name) = .ok type?) :
    EmbedsKnown (Dangling family) known type?.toList := by
  cases layout? with
  | none =>
      rw [Option.mapM_none, pure_eq_ok_iff] at made
      exact made ▸ trivial
  | some layout =>
      simp only [Option.mapM_some, Functor.map, map_eq_ok_iff] at made
      obtain ⟨type, made, rfl⟩ := made
      exact embedsKnown_structureOf (printed layout rfl) within made

/-- The structure of a message has the name that is asked for. -/
theorem mem_names_of_message {layout? : Option Layout} {type? : Option StructureType}
    (made : layout?.mapM (structureOf family name) = .ok type?) (some : layout?.isSome = true) :
    name ∈ type?.toList.map StructureType.name := by
  obtain ⟨layout, rfl⟩ := Option.isSome_iff_exists.1 some
  simp only [Option.mapM_some, Functor.map, map_eq_ok_iff] at made
  obtain ⟨type, made, rfl⟩ := made
  rw [Option.toList_some, List.map_singleton, (mem_embedded_structureOf made).1]
  exact List.mem_singleton_self name

/-- The type of the reply of a call. -/
def callReplyType (family : Family) (operation : Operation) : String :=
  "struct " ++ (family.name ++ "_" ++ CName.lower operation.name ++ "_rsp")

/-- All modes that share the reply with the call share its type. -/
theorem structType_eq_callReplyType {mode : OperationMode}
    (describes : subject.Describes family operation mode)
    (shares : mode = .call ∨ subject.sharesReply = true) :
    subject.structType .reply true = callReplyType family operation := by
  rcases shares with rfl | shares
  · simp [callReplyType, Subject.structType, Subject.stem, Subject.ending, describes.familyName,
      describes.typeName, describes.inMode, Part.suffix]
  · cases mode <;>
      simp [callReplyType, Subject.structType, Subject.stem, Subject.ending, describes.familyName,
        describes.typeName, describes.inMode, shares, Part.suffix]

/-- If a dump shares the type of its reply, it is that of a call with a reply. -/
theorem hasReply_of_sharedReply (dumps : operation.dumpMode.isSome = true)
    (replies : operation.hasReply .dump = true)
    (shares : Subject.sharedReply operation .dump = true) : operation.hasReply .call = true := by
  obtain ⟨dump, dumped⟩ := Option.isSome_iff_exists.1 dumps
  unfold Subject.sharedReply at shares
  simp only [dumped] at shares
  split at shares
  · rename_i call called
    rw [Operation.hasReply, Operation.replyAttributes, Operation.isSome_attributesOf] at replies ⊢
    simpa only [Operation.mode, dumped, called, Option.bind_some, beq_iff_eq.1 shares] using replies
  · cases shares

/-- What wraps a reply needs its type, and no other. -/
theorem embedsKnown_wrapper
    (inside : subject.structType .reply true ∈ known ∨
      Dangling family (subject.structType .reply true)) :
    EmbedsKnown (Dangling family) known (structures (wrapper subject)) := by
  obtain ⟨type, only, embeds⟩ := structures_wrapper subject
  rw [only]
  refine ⟨fun name member => ?_, trivial⟩
  rw [embeds, List.mem_singleton] at member
  exact member ▸ inside

/-- The structures of a call are those of its messages. -/
theorem embedsKnown_callHeader (selected : operation ∈ family.operations)
    (called : isCalled operation = true) (within : ∀ name ∈ nestNames family, name ∈ known)
    (declares : callHeader family operation = .ok declarations) :
    EmbedsKnown (Dangling family) known (structures declarations) ∧
      (operation.hasReply .call = true →
        callReplyType family operation ∈ (structures declarations).map StructureType.name) := by
  obtain ⟨subject, described, _⟩ := bind_eq_ok_iff.1 declares
  have describes := Subject.describes_of_ofOperation described
  obtain ⟨request?, reply?, ofRequest, ofReply, only⟩ := structures_callHeader described declares
  have request : IsPrinted family operation .call .request := ⟨selected, called⟩
  have reply : IsPrinted family operation .call .reply := ⟨selected, called⟩
  rw [only, embedsKnown_append, List.map_append]
  refine ⟨⟨?_, ?_⟩, fun replies => List.mem_append_right _ ?_⟩
  · exact embedsKnown_message (fun _ => .message request described) within ofRequest
  · refine embedsKnown_message (fun _ => .message reply described) (fun name member => ?_) ofReply
    exact List.mem_append_left _ (within name member)
  · rw [← structType_eq_callReplyType describes (.inl rfl)]
    exact mem_names_of_message ofReply (describes.isSome_reply.trans replies)

/-- The list of a dump wraps its own reply, or that of the call. -/
theorem embedsKnown_dumpHeader (selected : operation ∈ family.operations)
    (dumps : operation.dumpMode.isSome = true) (within : ∀ name ∈ nestNames family, name ∈ known)
    (answered : operation.hasReply .call = true → callReplyType family operation ∈ known)
    (declares : dumpHeader family operation = .ok declarations) :
    EmbedsKnown (Dangling family) known (structures declarations) := by
  obtain ⟨subject, described, _⟩ := bind_eq_ok_iff.1 declares
  have describes := Subject.describes_of_ofOperation described
  obtain ⟨request?, reply?, ofRequest, ofReply, only⟩ := structures_dumpHeader described declares
  have request : IsPrinted family operation .dump .request := ⟨selected, dumps, nofun⟩
  have within' : ∀ more, ∀ name ∈ nestNames family, name ∈ known ++ more :=
    fun _ name member => List.mem_append_left _ (within name member)
  rw [only, embedsKnown_append, embedsKnown_append]
  refine ⟨embedsKnown_message (fun _ => .message request described) within ofRequest, ?_, ?_⟩
  · cases shares : subject.sharesReply with
    | true =>
        rw [shares, if_pos rfl] at ofReply
        exact ofReply ▸ trivial
    | false =>
        rw [shares, if_neg Bool.false_ne_true] at ofReply
        have reply : IsPrinted family operation .dump .reply :=
          ⟨selected, dumps, fun _ => describes.sharesReply.symm.trans shares⟩
        exact embedsKnown_message (fun _ => .message reply described) (within' _) ofReply
  · apply embedsKnown_wrapper
    cases silent : subject.reply with
    | none => exact .inr (.dump selected dumps described silent)
    | some layout =>
        have some : subject.reply.isSome = true := Option.isSome_iff_exists.2 ⟨layout, silent⟩
        refine .inl ?_
        cases shares : subject.sharesReply with
        | true =>
            have replies := hasReply_of_sharedReply dumps (describes.isSome_reply.symm.trans some)
              (describes.sharesReply.symm.trans shares)
            rw [structType_eq_callReplyType describes (.inr shares)]
            exact List.mem_append_left _ (List.mem_append_left _ (answered replies))
        | false =>
            rw [shares, if_neg Bool.false_ne_true] at ofReply
            exact List.mem_append_right _ (mem_names_of_message ofReply some)

/-- A notification wraps the reply of the call. -/
theorem embedsKnown_notificationHeader (selected : operation ∈ family.operations)
    (tells : operation.hasNotification = true)
    (answered : operation.hasReply .call = true → callReplyType family operation ∈ known)
    (declares : notificationHeader family operation = .ok declarations) :
    EmbedsKnown (Dangling family) known (structures declarations) := by
  obtain ⟨subject, handled, declares⟩ := bind_eq_ok_iff.1 declares
  rw [pure_eq_ok_iff] at declares
  subst declares
  obtain ⟨described, shares⟩ := notification_eq_ok_iff.1 handled
  have describes := Subject.describes_of_ofOperation described
  rw [structures_cons, structure?_modeComment, Option.toList_none, List.nil_append]
  apply embedsKnown_wrapper
  cases silent : subject.reply with
  | none => exact .inr (.notification selected tells handled silent)
  | some layout =>
      have some : subject.reply.isSome = true := Option.isSome_iff_exists.2 ⟨layout, silent⟩
      rw [structType_eq_callReplyType describes (.inr shares)]
      exact .inl (answered (describes.isSome_reply.symm.trans some))

/-- What comes under a condition. -/
theorem embedsKnown_whenever {condition : Bool} {body : Except ModelError (List Declaration)}
    {lacking : String → Prop} (done : whenever condition body = .ok declarations)
    (step : condition = true → body = .ok declarations →
      EmbedsKnown lacking known (structures declarations)) :
    EmbedsKnown lacking known (structures declarations) := by
  rw [whenever_eq_ok_iff] at done
  split at done
  · exact step ‹_› done
  · exact done ▸ trivial

/-- The structures of an operation, with the reply of the call in front of what wraps it. -/
theorem embedsKnown_operationHeader (selected : operation ∈ family.operations)
    (settled : family.IsSelected operation) (within : ∀ name ∈ nestNames family, name ∈ known)
    (declares : operationHeader family operation = .ok declarations) :
    EmbedsKnown (Dangling family) known (structures declarations) := by
  simp only [operationHeader, bind_eq_ok_iff, pure_eq_ok_iff] at declares
  obtain ⟨call, called, dump, dumped, notify, told, rfl⟩ := declares
  have within' : ∀ more, ∀ name ∈ nestNames family, name ∈ known ++ more :=
    fun _ name member => List.mem_append_left _ (within name member)
  have answered : operation.hasReply .call = true →
      callReplyType family operation ∈ known ++ (structures call).map StructureType.name := by
    intro replies
    have isCalled := Family.isCalled_of_hasReply settled replies
    rw [whenever_eq_ok_iff, if_pos isCalled] at called
    exact List.mem_append_right _
      ((embedsKnown_callHeader selected isCalled within called).2 replies)
  simp only [List.cons_append, structures_cons, structure?_banner, Option.toList_none,
    List.nil_append, structures_append, embedsKnown_append, List.map_append, ← List.append_assoc]
  refine ⟨⟨?_, ?_⟩, ?_⟩
  · exact embedsKnown_whenever called fun isCalled made =>
      (embedsKnown_callHeader selected isCalled within made).1
  · exact embedsKnown_whenever dumped fun dumps =>
      embedsKnown_dumpHeader selected dumps (within' _) answered
  · exact embedsKnown_whenever told fun tells =>
      embedsKnown_notificationHeader selected tells
        fun replies => List.mem_append_left _ (answered replies)

/-- An event always has a reply, which stands in front of what wraps it. -/
theorem embedsKnown_eventHeader (selected : operation ∈ events family)
    (replies : operation.hasReply .event = true)
    (within : ∀ name ∈ nestNames family, name ∈ known)
    (declares : eventHeader family operation = .ok declarations) :
    EmbedsKnown (Dangling family) known (structures declarations) := by
  obtain ⟨subject, described, _⟩ := bind_eq_ok_iff.1 declares
  have describes := Subject.describes_of_ofOperation described
  obtain ⟨reply?, ofReply, only⟩ := structures_eventHeader described declares
  have reply : IsPrinted family operation .event .reply := ⟨selected, rfl⟩
  rw [only, embedsKnown_append]
  refine ⟨embedsKnown_message (fun _ => .message reply described) within ofReply, ?_⟩
  apply embedsKnown_wrapper
  exact .inl (List.mem_append_right _
    (mem_names_of_message ofReply (describes.isSome_reply.trans replies)))

/-- If what each item makes embeds what is known before all items, so does what all of them make. -/
theorem embedsKnown_each {A : Type} {items : List A} {lacking : String → Prop}
    {f : A → Except ModelError (List Declaration)} (done : each items f = .ok declarations)
    (step : ∀ item ∈ items, ∀ part, f item = .ok part →
      EmbedsKnown lacking known (structures part)) :
    EmbedsKnown lacking known (structures declarations) := by
  obtain ⟨parts, made, rfl⟩ := each_eq_ok_iff.1 done
  clear done
  induction made with
  | nil => trivial
  | @cons item part items parts here _ ih =>
      rw [List.flatten_cons, structures_append, embedsKnown_append]
      refine ⟨step item List.mem_cons_self part here, ?_⟩
      exact (ih fun other member => step other (List.mem_cons_of_mem _ member)).mono
        fun _ => List.mem_append_left _

end Library

namespace Family

open Declaration Library Nesting Outcome

variable {file : Spec.File} {excludes : List Pattern} {family : Family}
  {declarations : List Declaration}

/-- The structures of nested sets, one for each set. -/
theorem structures_nests {nests : List Declaration}
    (done : each family.nestedSets.values (nestType family) = .ok nests) :
    List.Forall₂ (fun entry type => structureOf family entry.2.structName entry.2 = .ok type)
      family.nestedSets.entries (structures nests) := by
  obtain ⟨parts, made, rfl⟩ := each_eq_ok_iff.1 done
  clear done
  rw [Registry.values, List.forall₂_map_left_iff] at made
  generalize family.nestedSets.entries = entries at made ⊢
  induction made with
  | nil => exact .nil
  | @cons entry part entries parts here _ ih =>
      obtain ⟨type, made, only⟩ := structures_nestType here
      rw [List.flatten_cons, structures_append, only]
      exact .cons made ih

/-- The sets that a nested set refers to stand in front of it. -/
theorem mem_before_of_refers (built : ofSpec file excludes = .ok family)
    {before after : List (String × Layout)} {set inner : String} {layout other : Layout}
    (whole : family.nestedSets.entries = before ++ (set, layout) :: after)
    (refers : inner ∈ family.toScope.references set)
    (held : family.nestedSets.get? inner = some other) : (inner, other) ∈ before := by
  obtain ⟨_, _, _, _, resolved⟩ := outline_of_ofSpec built
  obtain ⟨_, _, _, inOrder⟩ := resolve_inOrder resolved
  have names : family.nestedSets.names =
      before.map Prod.fst ++ set :: after.map Prod.fst := by
    rw [Registry.names, whole, Entries.names, List.map_append, List.map_cons]
  obtain ⟨⟨name, found⟩, listed, rfl⟩ := List.mem_map.1 (inOrder _ _ _ names inner refers)
  have same : family.nestedSets.get? name = some found :=
    Registry.get?_eq_some_iff.2 (by rw [whole]; exact List.mem_append_left _ listed)
  rw [held, Option.some.injEq] at same
  exact same ▸ listed

/-- A nested set embeds sets that stand in front of it. -/
theorem embedsKnown_entries (built : ofSpec file excludes = .ok family)
    {before entries : List (String × Layout)} {types : List StructureType}
    (whole : family.nestedSets.entries = before ++ entries)
    (made : List.Forall₂
      (fun entry type => structureOf family entry.2.structName entry.2 = .ok type) entries types) :
    EmbedsKnown (Dangling family) (before.map fun entry => entry.2.structName) types := by
  induction made generalizing before with
  | nil => trivial
  | @cons entry type entries types here _ ih =>
      obtain ⟨set, layout⟩ := entry
      have held : family.nestedSets.get? set = some layout :=
        Registry.get?_eq_some_iff.2 (by rw [whole]; simp)
      obtain ⟨named, embeds⟩ := mem_embedded_structureOf here
      refine ⟨fun name member => ?_, ?_⟩
      · rcases dangling_of_embeds (.nest held) ((embeds name).1 member) with
          ⟨inner, other, refers, found, rfl⟩ | dangling
        · rw [(namedAfter built held).space] at refers
          exact .inl (List.mem_map_of_mem (mem_before_of_refers built whole refers found))
        · exact .inr dangling
      · have further : family.nestedSets.entries = (before ++ [(set, layout)]) ++ entries := by
          rw [whole, List.append_assoc]
          rfl
        have later := ih further
        rw [List.map_append, List.map_singleton] at later
        rwa [named]

/-- All structures of the header embed what stands in front of them, or what is left dangling. -/
theorem embedsKnown_header (built : ofSpec file excludes = .ok family)
    (declares : header family = .ok declarations) :
    EmbedsKnown (Dangling family) [] (structures declarations) := by
  simp only [header, bind_eq_ok_iff, pure_eq_ok_iff] at declares
  obtain ⟨nests, typed, operations, called, told, noted, rfl⟩ := declares
  have ofNests := structures_nests typed
  have names : (structures nests).map StructureType.name = nestNames family := by
    have alike : List.Forall₂ (· = ·) ((structures nests).map StructureType.name)
        (family.nestedSets.entries.map fun entry => entry.2.structName) := by
      rw [List.forall₂_map_left_iff, List.forall₂_map_right_iff]
      exact ofNests.flip.imp fun _ _ made => (mem_embedded_structureOf made).1
    rw [List.forall₂_eq_eq_eq] at alike
    rw [alike, nestNames, Registry.values, List.map_map]
    rfl
  have enums : structures
      (family.enumSets.map fun set => .prototype none (entryNameSignature set)) = [] := by
    simp [structures, List.filterMap_map, Function.comp_def]
  have within : ∀ more, ∀ name ∈ nestNames family, name ∈ nestNames family ++ more :=
    fun _ _ => List.mem_append_left _
  simp only [List.flatten_cons, List.flatten_nil, structures_append, structures_cons,
    structures_nil, structure?_comment, structure?_prototype, structure?_space, enums,
    Option.toList_none, List.nil_append, List.append_nil, embedsKnown_append, names]
  refine ⟨?_, ?_, ?_⟩
  · exact embedsKnown_entries built (List.nil_append _).symm ofNests
  · exact embedsKnown_each called fun operation listed _ =>
      embedsKnown_operationHeader listed (isSelected_of_mem built listed) fun _ => id
  · exact embedsKnown_each noted fun operation listed _ =>
      embedsKnown_eventHeader listed (hasReply_of_mem_events built listed) (within _)

/-- What a selected operation makes is in the header. -/
theorem exists_operationHeader (declares : header family = .ok declarations)
    {operation : Operation} (listed : operation ∈ family.operations) :
    ∃ call dump notify,
      whenever (isCalled operation) (callHeader family operation) = .ok call ∧
      whenever operation.dumpMode.isSome (dumpHeader family operation) = .ok dump ∧
      whenever operation.hasNotification (notificationHeader family operation) = .ok notify ∧
      ∀ type ∈ structures call ++ structures dump ++ structures notify,
        type ∈ structures declarations := by
  obtain ⟨_, _, made, _, inHeader, _⟩ := parts_of_header declares
  obtain ⟨part, declared, fromPart⟩ := exists_part_of_each made listed
  simp only [operationHeader, bind_eq_ok_iff, pure_eq_ok_iff] at declared
  obtain ⟨call, called, dump, dumped, notify, notified, rfl⟩ := declared
  refine ⟨call, dump, notify, called, dumped, notified, fun type printed => ?_⟩
  rw [← structures_append, ← structures_append, mem_structures] at printed
  exact mem_structures.2 (inHeader _ (fromPart _ (List.mem_cons_of_mem _ printed)))

/-- What a selected event makes is in the header. -/
theorem exists_eventHeader (declares : header family = .ok declarations) {operation : Operation}
    (listed : operation ∈ events family) :
    ∃ told, eventHeader family operation = .ok told ∧
      ∀ type ∈ structures told, type ∈ structures declarations := by
  obtain ⟨_, _, _, made, _, inHeader⟩ := parts_of_header declares
  obtain ⟨part, declared, fromPart⟩ := exists_part_of_each made listed
  refine ⟨part, declared, fun type printed => ?_⟩
  rw [mem_structures] at printed ⊢
  exact inHeader _ (fromPart _ printed)

/-- A message with a layout has a structure, which embeds what the layout does. -/
theorem exists_structure_of_typesOf {subject : Subject} {part : Part} {layout : Layout}
    {type? : Option StructureType} {types : List StructureType}
    (made : TypesOf family subject part type?) (told : subject.layout? part = some layout)
    (inside : ∀ type ∈ type?.toList, type ∈ types) :
    ∃ type ∈ types, ∀ name, name ∈ type.embedded ↔ layout.Embeds family.toScope name := by
  simp only [TypesOf, told, Option.mapM_some, Functor.map, map_eq_ok_iff] at made
  obtain ⟨type, made, rfl⟩ := made
  exact ⟨type, inside type (by simp), (mem_embedded_structureOf made).2⟩

/-- Each layout that has a structure is printed with what it embeds. -/
theorem exists_structure_of_printed (declares : header family = .ok declarations)
    {layout : Layout} (printed : Printed family layout) :
    ∃ type ∈ structures declarations, ∀ name,
      name ∈ type.embedded ↔ layout.Embeds family.toScope name := by
  cases printed with
  | nest held =>
      obtain ⟨type, made, listed⟩ := exists_structureOf declares held
      exact ⟨type, mem_structures.2 listed, (mem_embedded_structureOf made).2⟩
  | @message operation mode part subject _ printed described told =>
      cases mode with
      | call =>
          obtain ⟨listed, isCalled⟩ := printed
          obtain ⟨call, _, _, called, _, _, inHeader⟩ := exists_operationHeader declares listed
          rw [whenever_eq_ok_iff, if_pos isCalled] at called
          obtain ⟨_, _, ofRequest, ofReply, only⟩ := structures_callHeader described called
          rw [only] at inHeader
          cases part with
          | request =>
              exact exists_structure_of_typesOf ofRequest told fun type member =>
                inHeader type (by simp [member])
          | reply =>
              exact exists_structure_of_typesOf ofReply told fun type member =>
                inHeader type (by simp [member])
          | nest => cases told
      | dump =>
          obtain ⟨listed, dumps, differs⟩ := printed
          obtain ⟨_, dump, _, _, dumped, _, inHeader⟩ := exists_operationHeader declares listed
          rw [whenever_eq_ok_iff, if_pos dumps] at dumped
          obtain ⟨_, _, ofRequest, ofReply, only⟩ := structures_dumpHeader described dumped
          rw [only] at inHeader
          cases part with
          | request =>
              exact exists_structure_of_typesOf ofRequest told fun type member =>
                inHeader type (by simp [member])
          | reply =>
              have describes := Subject.describes_of_ofOperation described
              rw [describes.sharesReply, differs rfl, if_neg Bool.false_ne_true] at ofReply
              exact exists_structure_of_typesOf ofReply told fun type member =>
                inHeader type (by simp [member])
          | nest => cases told
      | event =>
          obtain ⟨listed, rfl⟩ := printed
          obtain ⟨event, noted, inHeader⟩ := exists_eventHeader declares listed
          obtain ⟨_, ofReply, only⟩ := structures_eventHeader described noted
          rw [only] at inHeader
          exact exists_structure_of_typesOf ofReply told fun type member =>
            inHeader type (List.mem_append_left _ member)
      | notify => exact printed.elim

/-- What is left dangling is embedded. -/
theorem embedded_of_dangling (declares : header family = .ok declarations) {name : String}
    (dangling : Dangling family name) :
    ∃ type ∈ structures declarations, name ∈ type.embedded := by
  cases dangling with
  | @dump operation subject listed dumps described silent =>
      obtain ⟨_, _, _, _, dumped, _, inHeader⟩ := exists_operationHeader declares listed
      rw [whenever_eq_ok_iff, if_pos dumps] at dumped
      obtain ⟨_, _, _, _, only⟩ := structures_dumpHeader described dumped
      obtain ⟨type, wrapping, embeds⟩ := structures_wrapper subject
      rw [only, wrapping] at inHeader
      refine ⟨type, inHeader type (by simp), ?_⟩
      rw [embeds]
      exact List.mem_singleton_self _
  | @notification operation subject listed tells handled silent =>
      obtain ⟨type, wrapping, embeds⟩ := structures_wrapper subject
      have printed : .structure type ∈ wrapper subject :=
        mem_structures.1 (by rw [wrapping]; exact List.mem_singleton_self type)
      have inHeader := mem_header_of_wrapper declares listed tells handled _ printed
      refine ⟨type, mem_structures.2 inHeader, ?_⟩
      rw [embeds]
      exact List.mem_singleton_self _
  | member printed listed embedded inside lost =>
      obtain ⟨type, found, embeds⟩ := exists_structure_of_printed declares printed
      exact ⟨type, found, (embeds _).2 ⟨_, listed, embedded, _, inside, rfl⟩⟩

/-- All types that structures embed have structures: dumps and calls with notifications have
replies, and the structures of nested sets are named as attributes name the sets inside them. -/
structure Embeddable (family : Family) : Prop where
  dump : ∀ operation ∈ family.operations, operation.dumpMode.isSome = true →
    operation.hasReply .dump = true
  notification : ∀ operation ∈ family.operations, operation.hasNotification = true →
    operation.hasReply .notify = true
  member : ∀ layout, Printed family layout → ∀ attr ∈ layout.attributes family.toScope,
    attr.isEmbedded = true → ∀ nested, attr.nested = some nested → HasStructure family nested

/-- Nothing embedded dangles exactly when the family can be embedded. -/
theorem forall_not_dangling_iff (declares : header family = .ok declarations) :
    (∀ name, ¬Dangling family name) ↔ family.Embeddable := by
  constructor
  · intro none
    constructor
    · intro operation listed dumps
      obtain ⟨_, _, _, _, dumped, _, _⟩ := exists_operationHeader declares listed
      rw [whenever_eq_ok_iff, if_pos dumps] at dumped
      obtain ⟨subject, described, _⟩ := bind_eq_ok_iff.1 dumped
      rw [← (Subject.describes_of_ofOperation described).isSome_reply, Option.isSome_iff_ne_none]
      exact fun silent => none _ (.dump listed dumps described silent)
    · intro operation listed tells
      obtain ⟨_, _, _, _, _, notified, _⟩ := exists_operationHeader declares listed
      rw [whenever_eq_ok_iff, if_pos tells] at notified
      obtain ⟨subject, handled, _⟩ := bind_eq_ok_iff.1 notified
      obtain ⟨described, _⟩ := notification_eq_ok_iff.1 handled
      rw [← (Subject.describes_of_ofOperation described).isSome_reply, Option.isSome_iff_ne_none]
      exact fun silent => none _ (.notification listed tells handled silent)
    · intro layout printed attr listed embedded nested inside
      by_contra lost
      exact none _ (.member printed listed embedded inside lost)
  · rintro embeddable name dangling
    cases dangling with
    | dump listed dumps described silent =>
        have replies := (Subject.describes_of_ofOperation described).isSome_reply.trans
          (embeddable.dump _ listed dumps)
        simp [silent] at replies
    | notification listed tells handled silent =>
        obtain ⟨described, _⟩ := notification_eq_ok_iff.1 handled
        have replies := (Subject.describes_of_ofOperation described).isSome_reply.trans
          (embeddable.notification _ listed tells)
        simp [silent] at replies
    | member printed listed embedded inside lost =>
        exact lost (embeddable.member _ printed _ listed embedded _ inside)

/-- A part that is printed belongs to the operation itself. -/
theorem own_of_isPrinted (built : ofSpec file excludes = .ok family) (apart : family.EventsApart)
    {operation : Operation} {mode : OperationMode} {part : Part}
    (printed : IsPrinted family operation mode part) :
    family.messages.get? operation.name = some operation ∧ operation.notify = none := by
  cases mode with
  | call | dump => exact own_of_mem_operations built printed.1
  | event => exact own_of_mem_events built apart printed.1
  | notify => exact printed.elim

/-- The structure of a set has the name by which attributes embed it unless the set is named like
the family either as it is written or in lower case, but not both. -/
theorem structName_eq_iff {set : String} {layout : Layout}
    (named : NamedAfter family.toScope set layout) :
    layout.structName = (NestedSet.named family.name family.constants set).structType ↔
      (set = family.name ↔ CName.lower set = family.name) := by
  have spelled : layout.structName = (NestedSet.named family.name family.constants set).structType ↔
      Layout.stem family.name set =
        if set = family.name then family.name else family.name ++ "_" ++ CName.lower set := by
    rw [named.structName, NestedSet.named, String.append_left_inj, String.append_right_inj]
  rw [spelled, Layout.stem]
  by_cases written : set = family.name
  · rw [if_pos written]
    by_cases lower : family.name = CName.lower set
    · rw [if_pos lower]
      exact iff_of_true rfl ⟨fun _ => lower.symm, fun _ => written⟩
    · rw [if_neg lower]
      exact iff_of_false (stem_ne _ _) fun same => lower (same.1 written).symm
  · rw [if_neg written]
    by_cases lower : family.name = CName.lower set
    · rw [if_pos lower]
      exact iff_of_false (stem_ne _ _).symm fun same => written (same.2 lower.symm)
    · rw [if_neg lower]
      exact iff_of_true rfl ⟨fun same => absurd same written, fun same => absurd same.symm lower⟩

/-- All sets inside printed members have structures, if no event is a notification. -/
theorem hasStructure_iff (built : ofSpec file excludes = .ok family) (apart : family.EventsApart)
    {layout : Layout} (printed : Printed family layout) {attr : Attribute}
    (listed : attr ∈ layout.attributes family.toScope) {nested : NestedSet}
    (inside : attr.nested = some nested) :
    HasStructure family nested ↔
      (nested.set = family.name ↔ CName.lower nested.set = family.name) := by
  have used : layout.space ∈ family.rootSets.names ∨ layout.space ∈ family.nestedSets.names := by
    cases printed with
    | nest held =>
        rw [(namedAfter built held).space]
        exact .inr (Registry.mem_names_of_get? held)
    | message printed described told =>
        have own := own_of_isPrinted built apart printed
        exact .inl (mem_rootSets_of_layout built own described _ told)
  obtain ⟨set, held, member, _⟩ := Layout.exists_of_mem_attributes listed
  obtain ⟨inner, found⟩ := exists_nestedLayout built used held member inside
  have only : HasStructure family nested ↔ inner.structName = nested.structType := by
    simp [HasStructure, found]
  rw [only, nested_eq_named built held member inside]
  exact structName_eq_iff (namedAfter built found)

/-- In the header, each type that a structure embeds is that of a structure in front of it, but for
those left dangling, all of which are embedded. If none of these has the name of another structure,
all types are defined in front of their use exactly if dumps and calls with notifications have
replies, and structures of nested sets are named as attributes name the sets inside them: no such
set may be named like the family in one spelling only. -/
theorem structures_definedBeforeUse_iff (built : ofSpec file excludes = .ok family)
    (declares : header family = .ok declarations) :
    DefinedBeforeUse (Dangling family) (structures declarations) ∧
    (∀ name, Dangling family name → ∃ type ∈ structures declarations, name ∈ type.embedded) ∧
    ((∀ type ∈ structures declarations, ¬Dangling family type.name) →
      (DefinedBeforeUse (fun _ => False) (structures declarations) ↔ family.Embeddable)) ∧
    (family.EventsApart → ∀ layout, Printed family layout →
      ∀ attr ∈ layout.attributes family.toScope, ∀ nested, attr.nested = some nested →
        (HasStructure family nested ↔
          (nested.set = family.name ↔ CName.lower nested.set = family.name))) := by
  have order := (embedsKnown_header built declares).definedBeforeUse
  refine ⟨order, fun _ => embedded_of_dangling declares, fun distinct => ?_,
    fun apart _ printed _ listed _ => hasStructure_iff built apart printed listed⟩
  rw [← forall_not_dangling_iff declares]
  constructor
  · intro defined name dangling
    obtain ⟨type, listed, embedded⟩ := embedded_of_dangling declares dangling
    rcases defined.mem_names listed embedded with known | lacking
    · obtain ⟨other, found, rfl⟩ := List.mem_map.1 known
      exact distinct other found dangling
    · exact lacking
  · intro none before type after split name member
    exact (order before type after split name member).imp_right (none name)

/-- The three structures that wrap replies and the nested set are defined in front of their use. -/
theorem structures_definedBeforeUse_iff_complete :
    ∃ declarations, ofSpec complete [] = .ok completeFamily ∧
      header completeFamily = .ok declarations ∧ completeFamily.EventsApart ∧
      (structures declarations).map (fun type => (type.name, type.embedded)) =
        [("struct f_addr", []), ("struct f_get_req", []),
          ("struct f_get_rsp", ["struct f_addr"]), ("struct f_get_list", ["struct f_get_rsp"]),
          ("struct f_get_ntf", ["struct f_get_rsp"]), ("struct f_gone_rsp", []),
          ("struct f_gone", ["struct f_gone_rsp"])] ∧
      DefinedBeforeUse (fun _ => False) (structures declarations) := by
  have built : ofSpec complete [] = .ok completeFamily := eq_ok_get isSome_ofSpec_complete
  have declares := eq_ok_get isSome_header_complete
  have apart : completeFamily.EventsApart := by unfold EventsApart; decide +kernel
  obtain ⟨_, _, defined, spelled⟩ := structures_definedBeforeUse_iff built declares
  have names : ∀ set ∈ completeFamily.sets.values, ∀ attr ∈ set.attrs.values,
      ∀ nested ∈ attr.nested,
        (nested.set = completeFamily.name ↔ CName.lower nested.set = completeFamily.name) := by
    decide +kernel
  have embeddable : completeFamily.Embeddable :=
    { dump := by decide +kernel
      notification := by decide +kernel
      member layout printed attr listed _ nested inside := by
        obtain ⟨set, held, member, _⟩ := Layout.exists_of_mem_attributes listed
        refine (spelled apart layout printed attr listed nested inside).2 ?_
        exact names set (Registry.mem_values_of_get? held) attr member nested inside }
  have none := (forall_not_dangling_iff declares).2 embeddable
  refine ⟨_, built, declares, apart, ?_, (defined fun type _ => none type.name).2 embeddable⟩
  decide +kernel

/-- A dump that asks and has no answer. -/
def unanswered : Spec.File where
  license := Spec.acceptedLicense
  family :=
    { name := "f"
      attributeSets := [{ name := "f", attributes := [{ name := "x", kind := some "u8" }] }]
      operations :=
        { list :=
            [{ name := "get"
               attributeSet := some "f"
               dumpMode := some { request := some { attributes := ["x"] } } }] } }

theorem isSome_ofSpec_unanswered : (ofSpec unanswered []).toOption.isSome = true := by
  decide +kernel

/-- The family whose dump asks and has no answer. -/
def unansweredFamily : Family :=
  (ofSpec unanswered []).toOption.get isSome_ofSpec_unanswered

theorem isSome_header_unanswered : (header unansweredFamily).toOption.isSome = true := by
  decide +kernel

/-- The list of a dump without reply wraps a structure that is nowhere defined. -/
theorem not_forall_definedBeforeUse :
    ¬∀ (file : Spec.File) (excludes : List Pattern) (family : Family)
      (declarations : List Declaration), ofSpec file excludes = .ok family →
      header family = .ok declarations →
        ∀ before type after, structures declarations = before ++ type :: after →
          ∀ name ∈ type.embedded, ∃ earlier ∈ before, earlier.name = name := by
  intro always
  have built : ofSpec unanswered [] = .ok unansweredFamily := eq_ok_get isSome_ofSpec_unanswered
  have declares := eq_ok_get isSome_header_unanswered
  obtain ⟨type, listed, embedded⟩ : ∃ type ∈ structures
      ((header unansweredFamily).toOption.get isSome_header_unanswered),
        "struct f_get_rsp_dump" ∈ type.embedded := by decide +kernel
  have absent : "struct f_get_rsp_dump" ∉ (structures
      ((header unansweredFamily).toOption.get isSome_header_unanswered)).map
        StructureType.name := by decide +kernel
  obtain ⟨before, after, split⟩ := List.append_of_mem listed
  obtain ⟨earlier, found, named⟩ :=
    always _ _ _ _ built declares before type after split _ embedded
  refine absent (List.mem_map.2 ⟨earlier, ?_, named⟩)
  rw [split]
  exact List.mem_append_left _ found

end Family

end NetlinkFamily
