import NetlinkFamily.Proofs.Model.Messages
import NetlinkFamily.Proofs.Model.RootSets
import NetlinkFamily.Proofs.Nesting.Dependencies

namespace NetlinkFamily

/-- What one of two related lists holds under a name is related to what the other one holds. -/
theorem Entries.Alike.exists_lookup {A B : Type} {R : A → B → Prop} {entries : List (String × A)}
    {others : List (String × B)} (alike : Entries.Alike R entries others) {name : String}
    {other : B} (found : others.lookup name = some other) :
    ∃ value, entries.lookup name = some value ∧ R value other := by
  induction alike with
  | nil => cases found
  | @cons first second entries others here _ ih =>
      obtain ⟨key, value⟩ := first
      obtain ⟨_, related⟩ := second
      obtain ⟨rfl, holds⟩ := here
      by_cases same : name = key
      · subst same
        rw [List.lookup_cons_self] at found
        exact ⟨value, List.lookup_cons_self, Option.some.inj found ▸ holds⟩
      · have differs : (name == key) = false := by simp [same]
        rw [List.lookup_cons, differs] at found ⊢
        exact ih found

/-- A specified operation is listed under its own name. -/
theorem Spec.Operations.name_of_named {operations : Spec.Operations} {name : String}
    {operation : Spec.Operation} (listed : operations.named.get? name = some operation) :
    operation.name = name := by
  have all : ∀ entry ∈ operations.named.entries, entry.1 = entry.2.name := by
    refine Registry.forall_ofList fun entry member => ?_
    obtain ⟨operation, _, rfl⟩ := List.mem_map.1 member
    rfl
  exact (all _ (Registry.get?_eq_some_iff.1 listed)).symm

namespace Operation

open Outcome

/-- What holds of a message whatever its specification says. -/
structure Settled (familyName : String) (operation : Operation) : Prop where
  renderName : operation.renderName = familyName ++ "_" ++ CName.lower operation.name
  isAsync : operation.isAsync = (operation.notify.isSome || operation.event.isSome)
  isReserved : operation.isReserved = (!operation.isAsync && !operation.isCall)
  dualPolicy : operation.event = none →
    operation.dualPolicy = (operation.hasRequest .call && operation.hasRequest .dump)
  eventReply : operation.event.isSome = true → operation.hasReply .event = true

/-- A direction has attributes where the operation has that part. -/
@[simp] theorem isSome_attributesOf (operation : Operation) (mode : OperationMode)
    (direction : Direction) :
    (operation.attributesOf mode direction).isSome =
      match direction with
      | .request => ((operation.mode mode).bind Spec.Mode.request).isSome
      | .reply => ((operation.mode mode).bind Spec.Mode.reply).isSome := by
  cases direction <;> exact Option.isSome_map

/-- A numbered operation is settled under the names of its family. -/
theorem settled_of_numbers {familyName : String} {numbering : Spec.NumberingModel}
    {spec : Spec.Operation} {operation : Operation}
    (numbers : Numbers familyName numbering spec operation) {attrSet : Option String}
    {told : Bool} {namePrefix asyncPrefix : String} :
    Settled familyName
      (({ operation with attrSet, hasNotification := told }.withEnumName namePrefix
        asyncPrefix).withEventReply) := by
  obtain ⟨request, reply, rfl, _⟩ := numbers
  unfold withEventReply
  split
  · rename_i none
    constructor
    · rfl
    · rfl
    · rfl
    · intro _
      simp only [hasRequest, requestAttributes, isSome_attributesOf]
      rfl
    · intro some
      rw [none] at some
      cases some
  · rename_i attributes some
    constructor
    · rfl
    · rfl
    · rfl
    · intro none
      have differs := none.symm.trans some
      cases differs
    · intro _
      rfl

/-- What resolving keeps of a numbered operation. -/
structure Resolves (numbered message : Operation) : Prop where
  name : message.name = numbered.name
  notify : message.notify = numbered.notify
  event : message.event = numbered.event
  isAsync : message.isAsync = numbered.isAsync
  attrSet : numbered.attrSet.isSome = true → message.attrSet = numbered.attrSet
  given : message.isReserved = false → message.attrSet.isSome = true

/-- Only a message that does nothing goes without a set. -/
theorem isSome_of_operationSet {scope : Scope} {messages : Registry Operation}
    {operation : Operation} {attrSet : Option String}
    (done : Family.operationSet scope messages operation = .ok attrSet)
    (active : operation.isReserved = false) : attrSet.isSome = true := by
  unfold Family.operationSet at done
  split at done
  · simp only [bind_eq_ok_iff, pure_eq_ok_iff] at done
    obtain ⟨_, _, rfl⟩ := done
    rfl
  · split at done
    · cases done
    · split at done
      · cases done
      · cases done
        rfl
  · rw [active] at done
    cases done

/-- An operation that has looked its set up is resolved. -/
theorem resolves_of_operationSet {scope : Scope} {messages : Registry Operation}
    {operation : Operation} {attrSet : Option String}
    (done : Family.operationSet scope messages operation = .ok attrSet) {told : Bool}
    {namePrefix asyncPrefix : String} :
    Resolves operation
      (({ operation with attrSet, hasNotification := told }.withEnumName namePrefix
        asyncPrefix).withEventReply) := by
  have kept : operation.attrSet.isSome = true → attrSet = operation.attrSet := by
    intro some
    unfold Family.operationSet at done
    split at done
    · rename_i name _ given
      simp only [bind_eq_ok_iff, pure_eq_ok_iff] at done
      obtain ⟨_, _, rfl⟩ := done
      exact given.symm
    all_goals
      rename_i none _
      rw [none] at some
      cases some
  have given := isSome_of_operationSet done
  unfold withEventReply
  split <;> exact ⟨rfl, rfl, rfl, rfl, kept, given⟩

end Operation

namespace Family

open Operation Outcome

/-- A message of an outline is a numbered operation of the same name, resolved. -/
theorem exists_numbered {spec : Spec.Family} {outline : Outline}
    (begun : Outline.ofSpec spec = .ok outline) {name : String} {message : Operation}
    (found : outline.messages.get? name = some message) :
    ∃ numbered, outline.numbered.get? name = some numbered ∧ numbered.name = name ∧
      Resolves numbered message ∧ message.Settled outline.name ∧
      message.hasNotification = isNotifiedAbout outline.numbered name := by
  have built := Outline.builtFrom begun
  obtain ⟨operation, held, attrSet, made, rfl⟩ :=
    (alike_of_resolveMessages built.messages).exists_lookup found
  obtain ⟨given, listed, isNumbered⟩ := (numbers_of_declare built.numbered).exists_lookup held
  have named : operation.name = name := by
    obtain ⟨_, _, rfl, _⟩ := isNumbered
    exact (Spec.Operations.name_of_named listed)
  subst named
  refine ⟨operation, held, rfl, resolves_of_operationSet made, settled_of_numbers isNumbered, ?_⟩
  unfold withEventReply
  split <;> rfl

variable {file : Spec.File} {excludes : List Pattern} {family : Family}

/-- An operation is found under its name. -/
theorem operation_eq_ok_iff {name : String} {operation : Operation} :
    family.operation name = .ok operation ↔ family.messages.get? name = some operation := by
  unfold Family.operation
  split <;> simp_all

/-- A message of a family is found under its own name. -/
theorem message_of_get? (built : ofSpec file excludes = .ok family) {name : String}
    {message : Operation} (found : family.messages.get? name = some message) :
    message.name = name ∧ message.Settled family.name := by
  simp only [ofSpec, bind_eq_ok_iff, pure_eq_ok_iff] at built
  obtain ⟨outline, begun, _, _, _, _, rfl⟩ := built
  obtain ⟨numbered, _, named, resolves, settled, _⟩ := exists_numbered begun found
  exact ⟨resolves.name.trans named, settled⟩

/-- What is known of a selected call or dump. -/
structure IsSelected (family : Family) (operation : Operation) : Prop where
  settled : operation.Settled family.name
  found : family.messages.get? operation.name = some operation
  notify : operation.notify = none
  event : operation.event = none
  attrSet : operation.attrSet.isSome = true

/-- A selected name is that of a numbered operation of the selected kind. -/
theorem exists_of_mem_pick {messages numbered : Registry Operation} {excludes : List Pattern}
    {kind : Operation → Bool} {operation : Operation}
    (picked : operation ∈ pick messages (select numbered excludes kind)) :
    ∃ name source, messages.get? name = some operation ∧ numbered.get? name = some source ∧
      kind source = true := by
  obtain ⟨name, listed, found⟩ := List.mem_filterMap.1 picked
  obtain ⟨⟨_, source⟩, member, rfl⟩ := List.mem_map.1 listed
  obtain ⟨inside, chosen⟩ := List.mem_filter.1 member
  rw [Bool.and_eq_true] at chosen
  exact ⟨_, source, found, Registry.get?_eq_some_iff.2 inside, chosen.1⟩

/-- The operations of a family are those selected. -/
theorem isSelected_of_mem (built : ofSpec file excludes = .ok family) {operation : Operation}
    (selected : operation ∈ family.operations) : family.IsSelected operation := by
  simp only [ofSpec, bind_eq_ok_iff, pure_eq_ok_iff] at built
  obtain ⟨outline, begun, _, _, _, _, rfl⟩ := built
  obtain ⟨name, source, found, held, kind⟩ := exists_of_mem_pick selected
  obtain ⟨numbered, same, named, resolves, settled, _⟩ := exists_numbered begun found
  obtain rfl : source = numbered := Option.some.inj (held.symm.trans same)
  simp only [isRequest, Bool.and_eq_true, Bool.not_eq_true'] at kind
  obtain ⟨⟨_, own⟩, set⟩ := kind
  rw [← resolves.isAsync, settled.isAsync, Bool.or_eq_false_iff] at own
  exact {
    settled
    found := by rw [resolves.name, named]; exact found
    notify := Option.not_isSome_iff_eq_none.1 (Bool.eq_false_iff.1 own.1)
    event := Option.not_isSome_iff_eq_none.1 (Bool.eq_false_iff.1 own.2)
    attrSet := by rw [resolves.attrSet set]; exact set }

/-- The notifications of a family are messages of it that notify. -/
theorem found_of_mem_notifications (built : ofSpec file excludes = .ok family)
    {operation : Operation} (selected : operation ∈ family.notifications) :
    family.messages.get? operation.name = some operation ∧
      (operation.notify.isSome || operation.event.isSome) = true := by
  simp only [ofSpec, bind_eq_ok_iff, pure_eq_ok_iff] at built
  obtain ⟨outline, begun, _, _, _, _, rfl⟩ := built
  obtain ⟨name, source, found, held, kind⟩ := exists_of_mem_pick selected
  obtain ⟨numbered, same, named, resolves, settled, _⟩ := exists_numbered begun found
  obtain rfl : source = numbered := Option.some.inj (held.symm.trans same)
  rw [← settled.isAsync, resolves.isAsync, resolves.name, named]
  exact ⟨found, kind⟩

/-- A message knows that a notification tells about it, whether this is selected or not. -/
theorem hasNotification_of_notify (built : ofSpec file excludes = .ok family) {name : String}
    {message : Operation} (found : family.messages.get? name = some message) {other : Operation}
    (listed : other ∈ family.messages.values) (tells : other.notify = some name) :
    message.hasNotification = true := by
  simp only [ofSpec, bind_eq_ok_iff, pure_eq_ok_iff] at built
  obtain ⟨outline, begun, _, _, _, _, rfl⟩ := built
  obtain ⟨_, _, _, _, _, told⟩ := exists_numbered begun found
  obtain ⟨⟨key, _⟩, member, rfl⟩ := List.mem_map.1 listed
  obtain ⟨numbered, held, _, resolves, _⟩ :=
    exists_numbered begun (Registry.get?_eq_some_iff.2 member)
  rw [told, isNotifiedAbout, List.any_eq_true]
  refine ⟨numbered, Registry.mem_values_of_get? held, ?_⟩
  rw [← resolves.notify, tells]
  exact beq_self_eq_true _

/-- The set of a message that is no notification is a root set. -/
theorem mem_rootSets_of_attrSet (built : ofSpec file excludes = .ok family) {name : String}
    {message : Operation} (found : family.messages.get? name = some message)
    (own : message.notify = none) {set : String} (named : message.attrSet = some set) :
    set ∈ family.rootSets.names := by
  simp only [ofSpec, bind_eq_ok_iff, pure_eq_ok_iff] at built
  obtain ⟨outline, begun, _, _, _, _, rfl⟩ := built
  have adds := RootSet.adds_of_foldlM (Outline.builtFrom begun).rootSets
  rw [adds.names]
  exact .inr ⟨message, Registry.mem_values_of_get? found, own, named⟩

end Family

end NetlinkFamily
