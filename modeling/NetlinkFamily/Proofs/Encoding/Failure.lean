import NetlinkFamily.Proofs.Encoding.Acceptance

namespace NetlinkFamily.Encoding

open Outcome

variable {A B : Type} {scope : Scope} {set : AttributeSet} {attr : Attribute}

/-- If there is no result, then because something is too long. -/
def FailsByLength (outcome : Coded A) : Prop :=
  ∀ error, outcome = .error error → ∃ place length, error = .tooLong place length

namespace FailsByLength

/-- A value is no failure. -/
theorem ok (value : A) : FailsByLength (.ok value : Coded A) :=
  FailsWith.ok value

/-- A length that is exceeded is such a failure. -/
theorem tooLong (place : Place) (length : Nat) :
    FailsByLength (.error (.tooLong place length) : Coded A) :=
  FailsWith.error ⟨place, length, rfl⟩

/-- Two steps fail by length where each of them does. -/
theorem bind {first : Coded A} {next : A → Coded B} (here : FailsByLength first)
    (later : ∀ value, FailsByLength (next value)) : FailsByLength (first >>= next) :=
  FailsWith.bind here fun value _ => later value

/-- Mapping adds no failure. -/
theorem map {first : Coded A} (here : FailsByLength first) (f : A → B) :
    FailsByLength (first.map f) :=
  FailsWith.map here f

/-- A list fails by length where each element does. -/
theorem mapM {f : A → Coded B} {list : List A} (each : ∀ a ∈ list, FailsByLength (f a)) :
    FailsByLength (list.mapM f) :=
  FailsWith.mapM each

end FailsByLength

/-- Framing fails by length alone. -/
theorem failsByLength_framed (attr : Attribute) (type : UInt16) (payload : Bytes) :
    FailsByLength (framed attr type payload) := by
  unfold framed
  split
  · exact .ok _
  · exact .tooLong _ _

/-- Framing a nest fails by length alone. -/
theorem failsByLength_nested (attr : Attribute) (type : UInt16) (inner : Bytes) :
    FailsByLength (nested attr type inner) := by
  unfold nested
  dsimp only
  split
  · exact .ok _
  · exact .tooLong _ _

/-- A value fails by length if it is of the kind of the attribute. -/
def SingleFails (scope : Scope) (value : Value) : Prop :=
  ∀ attr type, WellTyped scope attr value → FailsByLength (single scope attr type value)

/-- So does a nest, if its members are well typed. -/
def NestFails (scope : Scope) (value : Value) : Prop :=
  ∀ members, value = .nest members → ∀ set, WellTypedMessage scope set members →
    FailsByLength (message scope set members)

/-- What is no nest has no members that fail. -/
theorem nestFails_of_members? {value : Value} (none : value.members? = none) :
    NestFails scope value := by
  rintro members rfl
  cases none

/-- Items fail by length where each of them does. -/
theorem failsByLength_eachItem {type : UInt16} {items : List Value}
    (each : ∀ item ∈ items, FailsByLength (single scope attr type item)) (written : List Bytes) :
    FailsByLength (eachItem scope attr type items written) := by
  induction items generalizing written with
  | nil => exact .ok _
  | cons item rest ih =>
      obtain ⟨here, later⟩ := List.forall_mem_cons.1 each
      rw [eachItem]
      exact here.bind fun stream => ih later (stream :: written)

/-- A well-typed member fails by length alone. -/
theorem failsByLength_ofMember {found : Value}
    (each : ∀ part ∈ found :: found.items, SingleFails scope part)
    (typed : WellTypedMember scope attr found) : FailsByLength (ofMember scope attr found) := by
  obtain ⟨here, inside⟩ := List.forall_mem_cons.1 each
  unfold ofMember
  cases typed with
  | single number single one =>
      obtain ⟨type, fits⟩ := exists_headerType_iff.2 number
      rw [fits, single]
      exact here attr type one
  | repeated number multi items =>
      obtain ⟨type, fits⟩ := exists_headerType_iff.2 number
      rw [fits, multi]
      exact failsByLength_eachItem (fun item member => inside item member attr type
        (items item member)) []

/-- A well-typed message fails by length alone. -/
theorem failsByLength_message {members : Message}
    (each : ∀ member ∈ members, ∀ part ∈ member.2 :: member.2.items, SingleFails scope part)
    (typed : WellTypedMessage scope set members) : FailsByLength (message scope set members) := by
  obtain ⟨defined, typed⟩ := typed
  have checked : checkMembers set members = .ok () := checkMembers_eq_ok_iff.2 defined
  rw [message, checked]
  refine FailsByLength.map (.mapM fun attr listed => ?_) _
  rw [lookup_eachMember members listed]
  cases held : members.get? attr.name with
  | none => exact .ok []
  | some found =>
      obtain ⟨before, after, split, _⟩ := List.lookup_eq_some_iff.1 held
      have inside : (attr.name, found) ∈ members := by simp [split]
      exact failsByLength_ofMember (each _ inside) (typed attr listed found held)

/-- A well-typed entry fails by length alone. -/
theorem failsByLength_entry {value : Value} (nest : NestFails scope value) (type : UInt16)
    (typed : WellTypedEntry scope attr value) : FailsByLength (entry scope attr type value) := by
  unfold entry
  cases typed with
  | scalar scalar =>
      rw [scalar]
      simp only [scalarPayload, if_true]
      exact failsByLength_framed attr type _
  | nest nests contents inner =>
      rw [nests]
      simp only [nestedMessage_eq, contents]
      exact (nest _ rfl _ inner).bind fun data => failsByLength_nested attr type data

/-- Entries fail by length where each of them does. -/
theorem failsByLength_eachEntry {entries : List Value}
    (each : ∀ value ∈ entries, ∀ type, FailsByLength (entry scope attr type value)) (index : Nat)
    (indexes : ∀ offset < entries.length, index + offset < Stream.typeBound)
    (written : List Bytes) : FailsByLength (eachEntry scope attr index entries written) := by
  induction entries generalizing index written with
  | nil => exact .ok _
  | cons value rest ih =>
      obtain ⟨here, later⟩ := List.forall_mem_cons.1 each
      have fits : ∃ type, attr.headerType index = .ok type :=
        exists_headerType_iff.2 (indexes 0 (by simp))
      obtain ⟨type, numbered⟩ := fits
      rw [eachEntry_cons, numbered]
      refine (here type).bind fun stream => ih later (index + 1) (fun offset inside => ?_) _
      have bound := indexes (offset + 1) (by simpa using inside)
      omega

/-- By induction on the value. -/
theorem fails (scope : Scope) (value : Value) :
    SingleFails scope value ∧ NestFails scope value := by
  induction value using Value.induction with
  | nest members ih =>
      have nest : NestFails scope (.nest members) := by
        intro _ same set typed
        cases same
        exact failsByLength_message (fun member listed part inside => (ih member listed part inside).1)
          typed
      refine ⟨fun attr type typed => ?_, nest⟩
      cases typed with
      | nest kind contents inner =>
          unfold single
          simp only [kind, nestedMessage_eq, contents]
          exact (nest members rfl _ inner).bind fun data => failsByLength_nested attr type data
  | array entries ih =>
      refine ⟨fun attr type typed => ?_, nestFails_of_members? rfl⟩
      cases typed with
      | array kind indexes each =>
          unfold single
          simp only [kind]
          have entries := failsByLength_eachEntry (fun value member type =>
            failsByLength_entry (ih value member).2 type (each value member)) 0
            (by simpa using indexes) []
          exact entries.bind fun data => failsByLength_nested attr type data
  | multi items _ =>
      refine ⟨fun attr type typed => ?_, nestFails_of_members? rfl⟩
      cases typed
  | _ =>
      refine ⟨fun attr type typed => ?_, nestFails_of_members? rfl⟩
      cases typed with
      | _ kind =>
        unfold single
        simp only [kind, scalarPayload, if_true]
        exact failsByLength_framed attr type _

end NetlinkFamily.Encoding

namespace NetlinkFamily.Family

open Encoding

/-- A well typed message fails to be written only by its length. -/
theorem encode_failsByLength {family : Family} {set : String} {attrs : AttributeSet}
    (declared : family.attributeSet set = .ok attrs) {message : Message}
    (typed : WellTypedMessage family.toScope attrs message) :
    FailsByLength (family.encode set message) := by
  rw [encode, declared]
  exact failsByLength_message (fun _ _ part _ => (fails family.toScope part).1) typed

end NetlinkFamily.Family
