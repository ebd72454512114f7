import NetlinkFamily.Proofs.Model.Selection
import NetlinkFamily.Proofs.Output.Listing

namespace NetlinkFamily

namespace Library

open Declaration Outcome

/-- What an entry names is there: its type in the header, its functions and policy in the source. -/
structure Closed (declarations definitions : List Declaration) (entry : NotificationEntry) :
    Prop where
  type : ∃ type, .structure type ∈ declarations ∧ type.name = entry.type
  parser : entry.parser ∈ (functions definitions).map C.Signature.name
  policy : ∃ table, .validation table ∈ definitions ∧ table.stem ++ "_nest" = entry.policy
  release : entry.release ∈ (functions definitions).map C.Signature.name

/-- A notification is complete if the operation it tells about is selected, and an event if its own
type is also that of its dump. -/
def Complete (family : Family) (operation : Operation) : Prop :=
  match operation.notify with
  | some target => target ∈ family.operationNames
  | none => Subject.sharedReply operation .event = true

variable {family : Family} {operation : Operation} {subject : Subject} {reply : Layout}
  {declarations definitions : List Declaration} {entry : NotificationEntry}

/-- The entry for a subject with a reply. -/
def entryOf (operation : Operation) (subject : Subject) (reply : Layout) : NotificationEntry :=
  { command := operation.enumName
    type := subject.structType .reply false
    parser := parserName subject true
    policy := reply.renderName ++ "_nest"
    release := releaseName subject .reply }

/-- A notification is handled as the operation that it tells about, and an event as itself. -/
def Handles (family : Family) (operation : Operation) (subject : Subject) : Prop :=
  match operation.notify with
  | some target => ∃ told, family.messages.get? target = some told ∧
      notification family told = .ok subject
  | none => Subject.ofOperation family operation .event = .ok subject

/-- An entry is made for a message that has a reply. -/
theorem exists_entryOf (done : notificationEntry family operation = .ok entry) :
    ∃ subject reply, Handles family operation subject ∧ subject.reply = some reply ∧
      entry = entryOf operation subject reply := by
  unfold notificationEntry at done
  unfold Handles
  cases tells : operation.notify with
  | some target =>
      simp only [tells, bind_eq_ok_iff, Family.operation_eq_ok_iff] at done
      obtain ⟨told, found, subject, handled, done⟩ := done
      cases replies : subject.reply with
      | none =>
          rw [replies] at done
          cases done
      | some reply =>
          rw [replies, pure_eq_ok_iff] at done
          exact ⟨subject, reply, ⟨told, found, handled⟩, replies, done.symm⟩
  | none =>
      simp only [tells, bind_eq_ok_iff] at done
      obtain ⟨subject, handled, done⟩ := done
      cases replies : subject.reply with
      | none =>
          rw [replies] at done
          cases done
      | some reply =>
          rw [replies, pure_eq_ok_iff] at done
          exact ⟨subject, reply, handled, replies, done.symm⟩

/-- The type of a wrapped reply. -/
theorem exists_structure_wrapper (subject : Subject) :
    ∃ type, .structure type ∈ wrapper subject ∧ type.name = subject.structType .reply false :=
  ⟨_, List.mem_cons_self, rfl⟩

/-- A function that a part defines is a function of the whole. -/
theorem name_mem_functions {part : List Declaration} {signatures : List C.Signature}
    (inside : ∀ declaration ∈ part, declaration ∈ definitions) (defines : Defines signatures part)
    {signature : C.Signature} (listed : signature ∈ signatures) :
    signature.name ∈ (functions definitions).map C.Signature.name := by
  rw [← defines.functions] at listed
  obtain ⟨declaration, member, found⟩ := List.mem_filterMap.1 listed
  exact List.mem_map_of_mem (List.mem_filterMap.2 ⟨declaration, inside declaration member, found⟩)

/-- The parts of the header that operations and events make. -/
theorem parts_of_header (declares : header family = .ok declarations) :
    ∃ operations told, each family.operations (operationHeader family) = .ok operations ∧
      each (events family) (eventHeader family) = .ok told ∧
      (∀ declaration ∈ operations, declaration ∈ declarations) ∧
      ∀ declaration ∈ told, declaration ∈ declarations := by
  simp only [header, bind_eq_ok_iff, pure_eq_ok_iff] at declares
  obtain ⟨_, _, operations, called, told, noted, rfl⟩ := declares
  refine ⟨operations, told, called, noted, fun declaration member => ?_,
    fun declaration member => ?_⟩ <;>
      simp [member]

/-- If no item makes a table, all of them make none. -/
theorem plain_each {A : Type} {items : List A} {f : A → Except ModelError (List Declaration)}
    (done : each items f = .ok declarations)
    (step : ∀ item part, f item = .ok part → ∃ signatures, Defines signatures part) :
    ∀ declaration ∈ declarations, declaration.isTable = false := by
  intro declaration member
  obtain ⟨item, _, part, made, inside⟩ := exists_item_of_each done member
  obtain ⟨_, defined⟩ := step item part made
  exact defined.plain declaration inside

/-- The source has tables of two kinds: those for validation, and the one of notifications in the
description. Nothing around them is a table. -/
theorem exists_source_eq (defines : source family = .ok definitions) :
    ∃ before tables between description operations told,
      definitions = before ++ tables ++ between ++ description ∧
      validations family = .ok tables ∧ familyDescription family = .ok description ∧
      each family.operations (operationSource family) = .ok operations ∧
      each (events family) (eventSource family) = .ok told ∧
      operations ⊆ between ∧ told ⊆ between ∧
      (∀ declaration ∈ before, declaration.isTable = false) ∧
      ∀ declaration ∈ between, declaration.isTable = false := by
  simp only [source, bind_eq_ok_iff, pure_eq_ok_iff] at defines
  obtain ⟨tables, validated, nests, nested, operations, called, told, noted, description,
    described, rfl⟩ := defines
  have ofEnums : ∀ declaration ∈ family.enumSets.flatMap entryNames,
      declaration.isTable = false := by
    intro declaration member
    obtain ⟨set, _, inside⟩ := List.mem_flatMap.1 member
    exact (defines_entryNames set).plain declaration inside
  have ofNests := plain_each nested fun _ _ done => defines_nestSource done
  have ofOperations := plain_each called fun _ _ done => defines_operationSource done
  have ofEvents := plain_each noted fun _ _ done => by
    have steps := done
    simp only [eventSource, bind_eq_ok_iff] at steps
    obtain ⟨call, calling, _, _, event, describing, _⟩ := steps
    exact ⟨_, defines_eventSource calling describing done⟩
  refine ⟨[Declaration.comment "Enums"] ++ operationNames family ++
      family.enumSets.flatMap entryNames ++ [Declaration.space, Declaration.comment "Policies"],
    tables, [Declaration.comment "Common nested types"] ++ nests ++ operations ++ told ++
      [Declaration.space], description, operations, told, by simp, validated, described, called,
    noted,
    fun declaration member => by simp [member], fun declaration member => by simp [member], ?_, ?_⟩
  · simp only [List.forall_mem_append, List.forall_mem_cons]
    exact ⟨⟨⟨⟨rfl, List.forall_mem_nil _⟩, (defines_operationNames family).plain⟩, ofEnums⟩, rfl,
      rfl, List.forall_mem_nil _⟩
  · simp only [List.forall_mem_append, List.forall_mem_cons]
    exact ⟨⟨⟨⟨⟨rfl, List.forall_mem_nil _⟩, ofNests⟩, ofOperations⟩, ofEvents⟩, rfl,
      List.forall_mem_nil _⟩

/-- The parts of the source: only the last one has a table of notifications. -/
theorem parts_of_source (defines : source family = .ok definitions) :
    ∃ tables operations told description, validations family = .ok tables ∧
      each family.operations (operationSource family) = .ok operations ∧
      each (events family) (eventSource family) = .ok told ∧
      familyDescription family = .ok description ∧
      (∀ declaration, declaration ∈ tables ∨ declaration ∈ operations ∨ declaration ∈ told ∨
        declaration ∈ description → declaration ∈ definitions) ∧
      definitions.filterMap notifications? = description.filterMap notifications? := by
  obtain ⟨before, tables, between, description, operations, told, rfl, validated, described,
    called, noted, ofOperations, ofEvents, plainBefore, plainBetween⟩ := exists_source_eq defines
  refine ⟨tables, operations, told, description, validated, called, noted, described,
    fun declaration member => ?_, ?_⟩
  · rcases member with member | member | member | member
    · simp [member]
    · simp [ofOperations member]
    · simp [ofEvents member]
    · simp [member]
  · have ofTables : tables.filterMap notifications? = [] := by
      refine filterMap_each_eq_nil validated fun set _ part done => ?_
      simp only [validation, bind_eq_ok_iff, pure_eq_ok_iff] at done
      obtain ⟨_, _, _, _, _, _, rfl⟩ := done
      rfl
    have noneOf {part : List Declaration}
        (plain : ∀ declaration ∈ part, declaration.isTable = false) :
        part.filterMap notifications? = [] :=
      List.filterMap_eq_nil_iff.2 fun declaration member =>
        notifications?_of_plain (plain declaration member)
    simp only [List.filterMap_append, noneOf plainBefore, noneOf plainBetween, ofTables,
      List.nil_append]

/-- The wrapper of a notification about a selected operation is in the header. -/
theorem mem_header_of_wrapper (declares : header family = .ok declarations)
    (listed : operation ∈ family.operations) (tells : operation.hasNotification = true)
    (handled : notification family operation = .ok subject) :
    ∀ declaration ∈ wrapper subject, declaration ∈ declarations := by
  intro declaration inside
  obtain ⟨operations, _, made, _, inHeader, _⟩ := parts_of_header declares
  obtain ⟨part, declared, fromPart⟩ := exists_part_of_each made listed
  simp only [operationHeader, bind_eq_ok_iff, pure_eq_ok_iff] at declared
  obtain ⟨_, _, _, _, wrapped, notified, rfl⟩ := declared
  rw [whenever_eq_ok_iff, if_pos tells] at notified
  simp only [notificationHeader, handled, bind_eq_ok_iff, pure_eq_ok_iff, Except.ok.injEq,
    exists_eq_left'] at notified
  subst notified
  apply inHeader
  apply fromPart
  exact List.mem_cons_of_mem _ (List.mem_append_right _ (List.mem_cons_of_mem _ inside))

/-- The functions for calls of a selected operation are in the source. -/
theorem exists_callSource (defines : source family = .ok definitions)
    (listed : operation ∈ family.operations) (called : isCalled operation = true) :
    ∃ calls, callSource family operation = .ok calls ∧
      ∀ declaration ∈ calls, declaration ∈ definitions := by
  obtain ⟨_, operations, _, _, _, made, _, _, inSource, _⟩ := parts_of_source defines
  obtain ⟨part, defined, fromPart⟩ := exists_part_of_each made listed
  simp only [operationSource, bind_eq_ok_iff, pure_eq_ok_iff] at defined
  obtain ⟨calls, calling, _, _, _, _, rfl⟩ := defined
  rw [whenever_eq_ok_iff, if_pos called] at calling
  refine ⟨calls, calling, fun declaration member => inSource _ (.inr (.inl (fromPart _ ?_)))⟩
  exact List.mem_cons_of_mem _ (List.mem_append_left _ (List.mem_append_left _ member))

/-- The functions for a notification about a selected operation are in the source. -/
theorem exists_notificationSource (defines : source family = .ok definitions)
    (listed : operation ∈ family.operations) (tells : operation.hasNotification = true) :
    ∃ released, notificationSource family operation = .ok released ∧
      ∀ declaration ∈ released, declaration ∈ definitions := by
  obtain ⟨_, operations, _, _, _, made, _, _, inSource, _⟩ := parts_of_source defines
  obtain ⟨part, defined, fromPart⟩ := exists_part_of_each made listed
  simp only [operationSource, bind_eq_ok_iff, pure_eq_ok_iff] at defined
  obtain ⟨_, _, _, _, released, releasing, rfl⟩ := defined
  rw [whenever_eq_ok_iff, if_pos tells] at releasing
  refine ⟨released, releasing, fun declaration member => inSource _ (.inr (.inl (fromPart _ ?_)))⟩
  exact List.mem_cons_of_mem _ (List.mem_append_right _ member)

/-- The table of the source holds the entries of the selected notifications and events. -/
theorem entries_of_source (defines : source family = .ok definitions) :
    List.Forall₂ (fun operation entry => notificationEntry family operation = .ok entry)
      family.notifications (definitions.filterMap notifications?).flatten := by
  obtain ⟨_, _, _, description, _, _, _, described, _, tables⟩ := parts_of_source defines
  rw [tables]
  simp only [familyDescription, bind_eq_ok_iff, pure_eq_ok_iff] at described
  obtain ⟨entries, listed, rfl⟩ := described
  have each := mapM_eq_ok_iff.1 listed
  cases entries with
  | nil => exact each
  | cons first rest =>
      show List.Forall₂ _ _ ((first :: rest) ++ [])
      rwa [List.append_nil]

/-- A set in use has a table that is named after its layout. -/
theorem exists_validation {tables : List Declaration} (validated : validations family = .ok tables)
    {set : String} (used : set ∈ family.nestedSets.names ++ family.rootSets.names) :
    ∃ table, .validation table ∈ tables ∧ table.stem = Layout.stem family.name set := by
  obtain ⟨part, made, inside⟩ := exists_part_of_each validated used
  simp only [bind_eq_ok_iff] at made
  obtain ⟨layout, built, made⟩ := made
  simp only [validation, bind_eq_ok_iff, pure_eq_ok_iff] at made
  obtain ⟨_, _, entries, _, rfl⟩ := made
  refine ⟨_, inside _ List.mem_cons_self, ?_⟩
  simp only [Layout.ofSet, bind_eq_ok_iff, pure_eq_ok_iff] at built
  obtain ⟨_, _, rfl⟩ := built
  rfl

/-- With a type of its own, a notification or event is parsed as the reply of the call is. -/
theorem parserName_eq {mode : OperationMode} {call : Subject}
    (wraps : mode = .notify ∨ mode = .event) (describes : subject.Describes family operation mode)
    (shares : subject.sharesReply = true) (calls : call.Describes family operation .call) :
    parserName subject true = parserName call false := by
  rcases wraps with rfl | rfl <;>
    simp [parserName, Subject.stem, Subject.ending, describes.familyName, describes.typeName,
      describes.inMode, shares, calls.familyName, calls.typeName, calls.inMode]

end Library

namespace Family

open Declaration Library Outcome

variable {file : Spec.File} {excludes : List Pattern} {family : Family} {operation : Operation}
  {subject : Subject} {reply : Layout} {declarations definitions : List Declaration}

/-- The policy of a message that is no notification is that of its set. -/
theorem exists_policy (built : ofSpec file excludes = .ok family)
    (defines : source family = .ok definitions) {name : String}
    (found : family.messages.get? name = some operation) (own : operation.notify = none)
    {mode : OperationMode} (describes : subject.Describes family operation mode)
    (replies : subject.reply = some reply) :
    ∃ table, .validation table ∈ definitions ∧
      table.stem ++ "_nest" = reply.renderName ++ "_nest" := by
  obtain ⟨tables, _, _, _, validated, _, _, _, inside, _⟩ := parts_of_source defines
  have root := mem_rootSets_of_attrSet built found own describes.attrSet
  obtain ⟨table, listed, stem⟩ := exists_validation validated (List.mem_append_right _ root)
  refine ⟨table, inside _ (.inl listed), ?_⟩
  rw [stem, (describes.layout .reply replies).2]

/-- An operation whose notification carries a reply is called. -/
theorem isCalled_of_hasReply (selected : family.IsSelected operation)
    (replies : operation.hasReply .notify = true) : isCalled operation = true := by
  rw [Operation.hasReply, Operation.replyAttributes, Operation.isSome_attributesOf] at replies
  obtain ⟨_, found⟩ := Option.isSome_iff_exists.1 replies
  obtain ⟨_, doMode, _⟩ := Option.bind_eq_some_iff.1 found
  have called : operation.doMode.isSome = true := Option.isSome_iff_exists.2 ⟨_, doMode⟩
  rw [isCalled, called, selected.event]
  rfl

/-- What an entry names is made with the selected operation that it tells about. -/
theorem closed_of_notification (built : ofSpec file excludes = .ok family)
    (declares : header family = .ok declarations) (defines : source family = .ok definitions)
    {told : Operation} (listed : told ∈ family.operations) (tells : told.hasNotification = true)
    (handled : notification family told = .ok subject) (replies : subject.reply = some reply) :
    Closed declarations definitions (entryOf operation subject reply) := by
  have selected := isSelected_of_mem built listed
  obtain ⟨described, shares⟩ := notification_eq_ok_iff.1 handled
  have describes := Subject.describes_of_ofOperation described
  have some : subject.reply.isSome = true := Option.isSome_iff_exists.2 ⟨reply, replies⟩
  have called := isCalled_of_hasReply selected (describes.isSome_reply.symm.trans some)
  obtain ⟨calls, calling, fromCalls⟩ := exists_callSource defines listed called
  obtain ⟨call, calledAs, _⟩ := bind_eq_ok_iff.1 calling
  have callDescribes := Subject.describes_of_ofOperation calledAs
  obtain ⟨released, releasing, fromReleased⟩ := exists_notificationSource defines listed tells
  constructor
  · obtain ⟨type, inside, named⟩ := exists_structure_wrapper subject
    exact ⟨type, mem_header_of_wrapper declares listed tells handled _ inside, named⟩
  · have answered : call.reply.isSome = true :=
      callDescribes.isSome_reply.trans (describes.isSome_reply.symm.trans some)
    have parser := name_mem_functions fromCalls (defines_callSource calledAs calling)
      (List.mem_append_left _ (List.mem_append_right _ (mem_parsers answered)))
    rwa [parserSignature, ← parserName_eq (.inl rfl) describes shares callDescribes] at parser
  · exact exists_policy built defines selected.found selected.notify describes replies
  · exact name_mem_functions fromReleased (defines_notificationSource handled releasing)
      (mem_releases some)

/-- What an entry names is made with the event itself. -/
theorem closed_of_event (built : ofSpec file excludes = .ok family)
    (declares : header family = .ok declarations) (defines : source family = .ok definitions)
    (selected : operation ∈ family.notifications) (own : operation.notify = none)
    (described : Subject.ofOperation family operation .event = .ok subject)
    (shares : Subject.sharedReply operation .event = true)
    (replies : subject.reply = some reply) :
    Closed declarations definitions (entryOf operation subject reply) := by
  obtain ⟨found, async⟩ := found_of_mem_notifications built selected
  have listed : operation ∈ events family := by
    rw [own] at async
    exact List.mem_filter.2 ⟨selected, async⟩
  have describes := Subject.describes_of_ofOperation described
  have some : subject.reply.isSome = true := Option.isSome_iff_exists.2 ⟨reply, replies⟩
  obtain ⟨_, heads, _, noted, _, inHeader⟩ := parts_of_header declares
  obtain ⟨_, _, bodies, _, _, _, made, _, inSource, _⟩ := parts_of_source defines
  obtain ⟨head, declared, fromHead⟩ := exists_part_of_each noted listed
  obtain ⟨body, defined, fromBody⟩ := exists_part_of_each made listed
  obtain ⟨call, calledAs, _⟩ := bind_eq_ok_iff.1 defined
  have callDescribes := Subject.describes_of_ofOperation calledAs
  have fromSource : ∀ declaration ∈ body, declaration ∈ definitions := fun declaration member =>
    inSource _ (.inr (.inr (.inl (fromBody _ member))))
  have source := defines_eventSource calledAs described defined
  constructor
  · simp only [eventHeader, described, bind_eq_ok_iff, pure_eq_ok_iff, Except.ok.injEq,
      exists_eq_left'] at declared
    obtain ⟨_, _, rfl⟩ := declared
    obtain ⟨type, inside, named⟩ := exists_structure_wrapper subject
    refine ⟨type, inHeader _ (fromHead _ ?_), named⟩
    simp [inside]
  · have answered : call.reply.isSome = true :=
      callDescribes.isSome_reply.trans (describes.isSome_reply.symm.trans some)
    have parser := name_mem_functions fromSource source
      (List.mem_append_left _ (mem_parsers answered))
    rwa [parserSignature, ← parserName_eq (.inr rfl) describes (describes.sharesReply.trans shares)
      callDescribes] at parser
  · exact exists_policy built defines found own describes replies
  · exact name_mem_functions fromSource source (List.mem_append_right _ (mem_releases some))

/-- The table has one entry for each selected notification and event, in order. All that the entry
names is there if the operation it tells about is selected, or if the event has one type. -/
theorem closed_of_complete (built : ofSpec file excludes = .ok family)
    (declares : header family = .ok declarations) (defines : source family = .ok definitions) :
    List.Forall₂
      (fun operation entry => notificationEntry family operation = .ok entry ∧
        (Complete family operation → Closed declarations definitions entry))
      family.notifications (definitions.filterMap notifications?).flatten := by
  have each := (List.forall₂_and_left _ _).2 ⟨fun _ selected => selected, entries_of_source defines⟩
  refine each.imp fun operation entry both => ⟨both.2, fun complete => ?_⟩
  obtain ⟨selected, made⟩ := both
  obtain ⟨subject, reply, handles, replies, rfl⟩ := exists_entryOf made
  unfold Handles at handles
  unfold Complete at complete
  cases tells : operation.notify with
  | some target =>
      simp only [tells] at handles complete
      obtain ⟨told, found, handled⟩ := handles
      have chosen : told ∈ family.operations := List.mem_filterMap.2 ⟨target, complete, found⟩
      have listed := Registry.mem_values_of_get? (found_of_mem_notifications built selected).1
      exact closed_of_notification built declares defines chosen
        (hasNotification_of_notify built found listed tells) handled replies
  | none =>
      simp only [tells] at handles complete
      exact closed_of_event built declares defines selected tells handles complete replies

/-- An operation with a notification about it. -/
def telling : Spec.File where
  license := Spec.acceptedLicense
  family :=
    { name := "f"
      attributeSets := [{ name := "f", attributes := [{ name := "x", kind := some "u8" }] }]
      operations :=
        { list :=
            [{ name := "get"
               attributeSet := some "f"
               doMode := some { reply := some { attributes := ["x"] } } },
             { name := "changed", notify := some "get" }] } }

/-- The pattern that only the operation matches. -/
def getPattern : Pattern :=
  .sequence (.oneOf (.single 'g')) (.sequence (.oneOf (.single 'e')) (.oneOf (.single 't')))

theorem isSome_ofSpec_telling : (ofSpec telling []).toOption.isSome = true := by decide +kernel

/-- The family with an operation and its notification. -/
def tellingFamily : Family :=
  (ofSpec telling []).toOption.get isSome_ofSpec_telling

theorem isSome_header_telling : (header tellingFamily).toOption.isSome = true := by decide +kernel

theorem isSome_source_telling : (source tellingFamily).toOption.isSome = true := by decide +kernel

/-- The table of a family without exclusions has one entry, and it is closed. -/
theorem closed_of_complete_telling :
    ∃ declarations definitions entry, ofSpec telling [] = .ok tellingFamily ∧
      header tellingFamily = .ok declarations ∧ source tellingFamily = .ok definitions ∧
      (definitions.filterMap notifications?).flatten = [entry] ∧
      Closed declarations definitions entry := by
  have built : ofSpec telling [] = .ok tellingFamily := eq_ok_get isSome_ofSpec_telling
  have declares := eq_ok_get isSome_header_telling
  have defines := eq_ok_get isSome_source_telling
  have each := closed_of_complete built declares defines
  obtain ⟨operation, only⟩ : ∃ operation, tellingFamily.notifications = [operation] ∧
      operation.notify = some "get" :=
    ⟨tellingFamily.notifications.headI, by decide +kernel, by decide +kernel⟩
  have complete : Complete tellingFamily operation := by
    unfold Complete
    rw [only.2]
    show "get" ∈ tellingFamily.operationNames
    decide +kernel
  rw [only.1] at each
  generalize rest :
    (((source tellingFamily).toOption.get isSome_source_telling).filterMap
      notifications?).flatten = entries at each
  cases each with
  | cons here later =>
      cases later
      exact ⟨_, _, _, built, declares, defines, rest, here.2 complete⟩

/-- The family can be built without the operation. -/
theorem isSome_ofSpec_telling_get : (ofSpec telling [getPattern]).toOption.isSome = true := by
  decide +kernel

/-- The family with the operation excluded, though not the notification about it. -/
def silencedFamily : Family :=
  (ofSpec telling [getPattern]).toOption.get isSome_ofSpec_telling_get

/-- A header can be printed without it. -/
theorem isSome_header_silenced : (header silencedFamily).toOption.isSome = true := by
  decide +kernel

/-- A source can be printed without it. -/
theorem isSome_source_silenced : (source silencedFamily).toOption.isSome = true := by
  decide +kernel

/-- With its operation excluded, a notification names functions that are not defined. -/
theorem not_forall_closed :
    ¬∀ (file : Spec.File) (excludes : List Pattern) (family : Family)
      (declarations definitions : List Declaration), ofSpec file excludes = .ok family →
      header family = .ok declarations → source family = .ok definitions →
        ∀ entry ∈ (definitions.filterMap notifications?).flatten,
          Closed declarations definitions entry := by
  intro always
  have built : ofSpec telling [getPattern] = .ok silencedFamily :=
    eq_ok_get isSome_ofSpec_telling_get
  have declares := eq_ok_get isSome_header_silenced
  have defines := eq_ok_get isSome_source_silenced
  let entry : NotificationEntry :=
    { command := "F_CMD_CHANGED"
      type := "struct f_get_ntf"
      parser := "f_get_rsp_parse"
      policy := "f_nest"
      release := "f_get_ntf_free" }
  have listed : entry ∈
      (((source silencedFamily).toOption.get isSome_source_silenced).filterMap
        notifications?).flatten := by decide +kernel
  have closed := always _ _ _ _ _ built declares defines entry listed
  have absent : "f_get_ntf_free" ∉
      (functions ((source silencedFamily).toOption.get isSome_source_silenced)).map
        C.Signature.name := by decide +kernel
  exact absent closed.release

end Family

end NetlinkFamily
