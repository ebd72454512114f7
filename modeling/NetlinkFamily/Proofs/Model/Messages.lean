import NetlinkFamily.Model.Family
import NetlinkFamily.Proofs.Outcome

namespace NetlinkFamily

/-- Entries under the same names, in the same order, with related values. -/
def Entries.Alike {A B : Type} (R : A → B → Prop) :
    List (String × A) → List (String × B) → Prop :=
  List.Forall₂ fun first second => first.1 = second.1 ∧ R first.2 second.2

section Alike

variable {A B : Type} {R : A → B → Prop}

/-- Entries stay alike when related values are assigned. -/
theorem Entries.alike_assign {entries : List (String × A)} {others : List (String × B)}
    (alike : Entries.Alike R entries others) (name : String) {value : A} {other : B}
    (related : R value other) :
    Entries.Alike R (assign name value entries) (assign name other others) := by
  induction alike with
  | nil => exact .cons ⟨rfl, related⟩ .nil
  | @cons first second entries others here later ih =>
      by_cases same : first.1 = name
      · rw [assign, assign, if_pos same, if_pos (here.1 ▸ same)]
        exact .cons ⟨rfl, related⟩ later
      · rw [assign, assign, if_neg same, if_neg (here.1 ▸ same)]
        exact .cons here ih

/-- Related values that are declared under the same names make related registries. -/
theorem Registry.alike_ofList {entries : List (String × A)} {others : List (String × B)}
    (alike : Entries.Alike R entries others) :
    Entries.Alike R (ofList entries).entries (ofList others).entries := by
  suffices general : ∀ (registry : Registry A) (second : Registry B),
      Entries.Alike R registry.entries second.entries →
        Entries.Alike R
          (entries.foldl (fun registry entry => registry.insert entry.1 entry.2) registry).entries
          (others.foldl (fun registry entry => registry.insert entry.1 entry.2) second).entries from
    general empty empty .nil
  induction alike with
  | nil => exact fun registry second held => held
  | @cons first second entries others here _ ih =>
      intro registry other held
      have step : Entries.Alike R (registry.insert first.1 first.2).entries
          (other.insert second.1 second.2).entries := by
        rw [← here.1]
        exact Entries.alike_assign held first.1 here.2
      exact ih _ _ step

/-- Mapped values are related to those that they are computed from. -/
theorem Registry.alike_mapM {E : Type} {f : A → Except E B} {registry : Registry A}
    {mapped : Registry B} (done : registry.mapM f = .ok mapped) :
    Entries.Alike (fun value result => f value = .ok result) registry.entries mapped.entries := by
  refine (Outcome.mapM_eq_ok_iff.1 (mapM_entries done)).imp fun first second step => ?_
  obtain ⟨value, found, rfl⟩ := Outcome.map_eq_ok_iff.1 step
  exact ⟨rfl, found⟩

/-- A registry is like its image. -/
theorem Registry.alike_map (f : B → A) (registry : Registry B) :
    Entries.Alike (fun value result => f value = result) registry.entries
      (registry.map f).entries :=
  List.forall₂_map_right_iff.2 (List.forall₂_same.2 fun _ _ => ⟨rfl, rfl⟩)

/-- Two relations in a row. -/
theorem Entries.Alike.trans {C : Type} {S : B → C → Prop} {entries : List (String × A)}
    {others : List (String × B)} {results : List (String × C)}
    (first : Entries.Alike R entries others) (second : Entries.Alike S others results) :
    Entries.Alike (fun value result => ∃ other, R value other ∧ S other result) entries
      results := by
  induction first generalizing results with
  | nil => cases second; exact .nil
  | cons here _ ih =>
      cases second with
      | cons there later =>
          exact .cons ⟨here.1.trans there.1, _, here.2, there.2⟩ (ih later)

/-- Entries are alike in both directions. -/
theorem Entries.Alike.flip {entries : List (String × A)} {others : List (String × B)}
    (alike : Entries.Alike R entries others) :
    Entries.Alike (fun value source => R source value) others entries :=
  (List.Forall₂.flip alike).imp fun _ _ both => ⟨both.1.symm, both.2⟩

/-- Registries that are alike have related values. -/
theorem Entries.Alike.values {registry : Registry A} {other : Registry B}
    (alike : Entries.Alike R registry.entries other.entries) :
    List.Forall₂ R registry.values other.values :=
  List.forall₂_map_left_iff.2 (List.forall₂_map_right_iff.2 (alike.imp fun _ _ both => both.2))

end Alike

namespace Spec

/-- How an operation is called. An event is taken for a call without request, whose reply carries
the attributes of the event. -/
def Operation.call (operation : Operation) : Option Mode :=
  match operation.event with
  | none => operation.doMode
  | some attributes => some { reply := some { attributes } }

/-- The operations under their names. One that repeats a name takes the place of the earlier. -/
def Operations.named (operations : Operations) : Registry Operation :=
  Registry.ofList (operations.list.map fun operation => (operation.name, operation))

end Spec

namespace Operation

/-- An operation as it is numbered. One number serves both directions in the unified model. -/
def Numbers (familyName : String) (numbering : Spec.NumberingModel) (spec : Spec.Operation)
    (operation : Operation) : Prop :=
  ∃ request reply, operation = ofSpec familyName spec request reply ∧
    (numbering = .unified → request = reply ∧ request.isSome = true)

/-- What a message of a family keeps of its operation. A notification has the set of another one. -/
structure Realises (numbering : Spec.NumberingModel) (spec : Spec.Operation)
    (operation : Operation) : Prop where
  notify : operation.notify = spec.notify
  event : operation.event = spec.event
  doMode : operation.doMode = spec.call
  dumpMode : operation.dumpMode = spec.dumpMode
  attrSet : spec.notify = none → operation.attrSet = spec.attributeSet
  value : numbering = .unified → operation.value.isSome = true

open Outcome

/-- Operations numbered with one count have the numbers of that model. -/
theorem numbers_of_numberUnified {familyName : String} {next : UInt32}
    {specs : List Spec.Operation} {operations : List Operation}
    (done : numberUnified familyName next specs = .ok operations) :
    List.Forall₂ (Numbers familyName .unified) specs operations := by
  induction specs generalizing next operations with
  | nil =>
      rw [numberUnified, Except.ok.injEq] at done
      exact done ▸ .nil
  | cons spec rest ih =>
      simp only [numberUnified, bind_eq_ok_iff, pure_eq_ok_iff] at done
      obtain ⟨_, _, others, later, rfl⟩ := done
      exact .cons ⟨_, _, rfl, fun _ => ⟨rfl, rfl⟩⟩ (ih later)

/-- Operations numbered by direction have the numbers of that model. -/
theorem numbers_of_numberDirectional {familyName : String} {nextRequest nextReply : UInt32}
    {specs : List Spec.Operation} {operations : List Operation}
    (done : numberDirectional familyName nextRequest nextReply specs = .ok operations) :
    List.Forall₂ (Numbers familyName .directional) specs operations := by
  induction specs generalizing nextRequest nextReply operations with
  | nil =>
      rw [numberDirectional, Except.ok.injEq] at done
      exact done ▸ .nil
  | cons spec rest ih =>
      rw [numberDirectional] at done
      split at done
      · simp only [bind_eq_ok_iff, pure_eq_ok_iff] at done
        obtain ⟨_, _, others, later, rfl⟩ := done
        exact .cons ⟨_, _, rfl, by simp⟩ (ih later)
      · split at done
        · cases done
        · rename_i mode _
          obtain ⟨afterRequest, _, done⟩ := bind_eq_ok_iff.1 done
          split at done <;>
            · simp only [bind_eq_ok_iff, pure_eq_ok_iff] at done
              obtain ⟨_, _, others, later, rfl⟩ := done
              exact .cons ⟨_, _, rfl, by simp⟩ (ih later)

/-- Declared operations have the numbers of their model. -/
theorem numbers_of_declare {familyName : String} {spec : Spec.Operations}
    {messages : Registry Operation} (done : declare familyName spec = .ok messages) :
    Entries.Alike (Numbers familyName spec.numbering) spec.named.entries messages.entries := by
  obtain ⟨operations, each, rfl⟩ : ∃ operations,
      List.Forall₂ (Numbers familyName spec.numbering) spec.list operations ∧
        messages =
          Registry.ofList (operations.map fun operation => (operation.name, operation)) := by
    cases numbering : spec.numbering with
    | unified =>
        simp only [declare, numbering, bind_eq_ok_iff, pure_eq_ok_iff] at done
        obtain ⟨operations, numbered, rfl⟩ := done
        exact ⟨operations, numbers_of_numberUnified numbered, rfl⟩
    | directional =>
        simp only [declare, numbering, bind_eq_ok_iff, pure_eq_ok_iff] at done
        obtain ⟨operations, numbered, rfl⟩ := done
        exact ⟨operations, numbers_of_numberDirectional numbered, rfl⟩
  refine Registry.alike_ofList (List.forall₂_map_left_iff.2 (List.forall₂_map_right_iff.2
    (each.imp fun given operation numbers => ⟨?_, numbers⟩)))
  obtain ⟨_, _, rfl, _⟩ := numbers
  rfl

/-- Resolving an operation changes its constant, its set and, for an event, its call. -/
theorem realises_of_resolved {familyName : String} {numbering : Spec.NumberingModel}
    {spec : Spec.Operation} {operation : Operation}
    (numbers : Numbers familyName numbering spec operation)
    {attrSet : Option String} {told : Bool} {namePrefix asyncPrefix : String}
    (kept : spec.notify = none → attrSet = operation.attrSet) :
    Realises numbering spec
      (({ operation with attrSet, hasNotification := told }.withEnumName namePrefix
        asyncPrefix).withEventReply) := by
  obtain ⟨request, reply, rfl, shared⟩ := numbers
  have value : numbering = .unified →
      (ofSpec familyName spec request reply).value.isSome = true := by
    intro unified
    obtain ⟨rfl, number⟩ := shared unified
    simpa [ofSpec] using number
  cases event : spec.event with
  | none =>
      have whole (operation : Operation) (none : operation.event = none) :
          operation.withEventReply = operation := by
        rw [withEventReply, none]
      rw [whole _ event]
      exact ⟨rfl, rfl, by rw [Spec.Operation.call, event]; rfl, rfl, kept, value⟩
  | some attributes =>
      have whole (operation : Operation) (some : operation.event = some attributes) :
          operation.withEventReply =
            { operation with doMode := Option.some { reply := Option.some { attributes } } } := by
        rw [withEventReply, some]
      rw [whole _ event]
      exact ⟨rfl, rfl, by rw [Spec.Operation.call, event], rfl, kept, value⟩

end Operation

namespace Family

open Outcome

/-- An operation with a set keeps it, and only a notification takes over that of another one. -/
theorem attrSet_of_operationSet {scope : Scope} {messages : Registry Operation}
    {operation : Operation} {attrSet : Option String}
    (done : operationSet scope messages operation = .ok attrSet) (own : operation.notify = none) :
    attrSet = operation.attrSet := by
  unfold operationSet at done
  rw [own] at done
  split at done
  · rename_i name _ given
    simp only [bind_eq_ok_iff, pure_eq_ok_iff] at done
    obtain ⟨_, _, rfl⟩ := done
    exact given.symm
  · rename_i target none same
    cases same
  · rename_i none _
    split at done
    · rw [none, ← Except.ok.inj done]
    · cases done

/-- A message is a numbered operation with its set, its constant and what is told about it. -/
theorem alike_of_resolveMessages {scope : Scope} {namePrefix asyncPrefix : String}
    {numbered messages : Registry Operation}
    (done : resolveMessages scope namePrefix asyncPrefix numbered = .ok messages) :
    Entries.Alike
      (fun operation message => ∃ attrSet, operationSet scope numbered operation = .ok attrSet ∧
        message =
          ({ operation with
              attrSet
              hasNotification := isNotifiedAbout numbered operation.name }.withEnumName namePrefix
            asyncPrefix).withEventReply)
      numbered.entries messages.entries := by
  simp only [resolveMessages, bind_eq_ok_iff, pure_eq_ok_iff] at done
  obtain ⟨withSets, looked, _, _, rfl⟩ := done
  refine ((Registry.alike_mapM looked).trans (Registry.alike_map _ withSets)).imp
    fun _ _ both => ⟨both.1, ?_⟩
  obtain ⟨_, found, result⟩ := both.2
  simp only [bind_eq_ok_iff, pure_eq_ok_iff] at found
  obtain ⟨attrSet, found, rfl⟩ := found
  exact ⟨attrSet, found, result.symm⟩

/-- Messages that are resolved realise their descriptions. -/
theorem realises_of_resolveMessages {scope : Scope} {namePrefix asyncPrefix familyName : String}
    {numbering : Spec.NumberingModel} {specs : Registry Spec.Operation}
    {numbered messages : Registry Operation}
    (numbers :
      Entries.Alike (Operation.Numbers familyName numbering) specs.entries numbered.entries)
    (done : resolveMessages scope namePrefix asyncPrefix numbered = .ok messages) :
    Entries.Alike (Operation.Realises numbering) specs.entries messages.entries := by
  refine (numbers.trans (alike_of_resolveMessages done)).imp fun spec message both => ⟨both.1, ?_⟩
  obtain ⟨operation, isNumbered, attrSet, found, resolved⟩ := both.2
  rw [resolved]
  refine Operation.realises_of_resolved isNumbered fun own => attrSet_of_operationSet found ?_
  obtain ⟨_, _, rfl, _⟩ := isNumbered
  exact own

/-- The steps by which an outline comes from its specification. -/
structure Outline.BuiltFrom (spec : Spec.Family) (outline : Outline) : Prop where
  name : outline.name = spec.name
  constants : outline.constants = Constant.declare spec.name spec.definitions
  sets : ∃ declared,
    AttributeSet.declare outline.name outline.constants spec.attributeSets = .ok declared ∧
      declared.mapM (AttributeSet.resolve outline.constants) = .ok outline.sets
  numbered : Operation.declare outline.name spec.operations = .ok outline.numbered
  messages : resolveMessages outline.toScope outline.operationPrefix outline.asyncPrefix
    outline.numbered = .ok outline.messages
  rootSets : RootSet.collect outline.toScope outline.messages.values = .ok outline.rootSets

/-- An outline is built from its description. -/
theorem Outline.builtFrom {spec : Spec.Family} {outline : Outline}
    (begun : Outline.ofSpec spec = .ok outline) : outline.BuiltFrom spec := by
  simp only [Outline.ofSpec, bind_eq_ok_iff] at begun
  obtain ⟨declared, declares, numbered, numbers, begun⟩ := begun
  split at begun
  · cases begun
  · simp only [bind_eq_ok_iff, pure_eq_ok_iff] at begun
    obtain ⟨sets, resolves, messages, resolved, roots, collected, rfl⟩ := begun
    exact ⟨rfl, rfl, ⟨declared, declares, resolves⟩, numbers, resolved, collected⟩

/-- The messages of an outline are the operations of its specification, each under its name. -/
theorem realises_of_outline {spec : Spec.Family} {outline : Outline}
    (begun : Outline.ofSpec spec = .ok outline) :
    Entries.Alike (Operation.Realises spec.operations.numbering) spec.operations.named.entries
      outline.messages.entries :=
  have built := Outline.builtFrom begun
  realises_of_resolveMessages (Operation.numbers_of_declare built.numbered) built.messages

end Family

end NetlinkFamily
