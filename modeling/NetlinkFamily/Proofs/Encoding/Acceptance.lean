import NetlinkFamily.Proofs.Encoding.Length

namespace NetlinkFamily

namespace Encoding

open Outcome

mutual

/-- A value is of the kind of its attribute. There is no value of an attribute that is padding,
unused or a nest under type values. -/
inductive WellTyped (scope : Scope) : Attribute → Value → Prop where
  | scalar {attr : Attribute} {number : Scalar} (kind : attr.kind = .scalar number.type) :
      WellTyped scope attr (.scalar number)
  | flag {attr : Attribute} (kind : attr.kind = .flag) : WellTyped scope attr .flag
  | text {attr : Attribute} {content : String} (kind : attr.kind = .text) :
      WellTyped scope attr (.text content)
  | binary {attr : Attribute} {bytes : Bytes} (kind : attr.kind = .binary) :
      WellTyped scope attr (.binary bytes)
  | nest {attr : Attribute} {set : AttributeSet} {members : Message} (kind : attr.kind = .nest)
      (contents : attr.contents scope = .ok set) (inner : WellTypedMessage scope set members) :
      WellTyped scope attr (.nest members)
  | array {attr : Attribute} {entries : List Value} (kind : attr.kind = .arrayNest)
      (indexes : ∀ index < entries.length, index < Stream.typeBound)
      (each : ∀ entry ∈ entries, WellTypedEntry scope attr entry) :
      WellTyped scope attr (.array entries)

/-- The entries of an array are scalars of its type, or else nests of its set. -/
inductive WellTypedEntry (scope : Scope) : Attribute → Value → Prop where
  | scalar {attr : Attribute} {number : Scalar} (scalar : attr.entryScalar? = some number.type) :
      WellTypedEntry scope attr (.scalar number)
  | nest {attr : Attribute} {set : AttributeSet} {members : Message}
      (nests : attr.entryScalar? = none) (contents : attr.contents scope = .ok set)
      (inner : WellTypedMessage scope set members) :
      WellTypedEntry scope attr (.nest members)

/-- The number of a member fits beside the flags of its header, and the member is a list of values
exactly if its attribute may be repeated. -/
inductive WellTypedMember (scope : Scope) : Attribute → Value → Prop where
  | single {attr : Attribute} {found : Value} (number : attr.value.toNat < Stream.typeBound)
      (single : attr.multi = false) (one : WellTyped scope attr found) :
      WellTypedMember scope attr found
  | repeated {attr : Attribute} {items : List Value}
      (number : attr.value.toNat < Stream.typeBound) (multi : attr.multi = true)
      (each : ∀ item ∈ items, WellTyped scope attr item) :
      WellTypedMember scope attr (.multi items)

/-- All members of a message are defined in its set and well typed. -/
inductive WellTypedMessage (scope : Scope) : AttributeSet → Message → Prop where
  | intro {set : AttributeSet} {message : Message}
      (defined : ∀ name ∈ message.names, name ∈ set.attrs.names)
      (members : ∀ attr ∈ set.attrs.values, ∀ found, message.get? attr.name = some found →
        WellTypedMember scope attr found) :
      WellTypedMessage scope set message

end

/-- An attribute fits its header if its length does. -/
def HasRoom (scope : Scope) (part : Attribute × Value) : Prop :=
  Stream.headerLength + part.2.payloadLength scope part.1 ≤ Stream.maxLength

variable {scope : Scope} {set : AttributeSet} {attr : Attribute}

/-- A scalar fits in any case. The scalars in an array need not be looked at for that. -/
theorem hasRoom_scalar (scope : Scope) (attr : Attribute) (number : Scalar) :
    HasRoom scope (attr, .scalar number) := by
  rw [HasRoom, Value.payloadLength]
  cases number.type <;> decide

/-- A payload is framed exactly when it leaves room for the header. -/
theorem exists_framed_iff {type : UInt16} {payload : Bytes} :
    (∃ stream, framed attr type payload = .ok stream) ↔
      Stream.headerLength + payload.length ≤ Stream.maxLength := by
  simp [framed_eq_ok_iff]

/-- A nest is framed exactly when it leaves room for the header. -/
theorem exists_nested_iff {type : UInt16} {inner : Bytes} :
    (∃ stream, nested attr type inner = .ok stream) ↔
      Stream.headerLength + inner.length ≤ Stream.maxLength := by
  simp [nested_eq_ok_iff]

/-- Members are accepted exactly when the set has their names. -/
theorem checkMembers_eq_ok_iff {members : Message} :
    checkMembers set members = .ok () ↔ ∀ name ∈ members.names, name ∈ set.attrs.names := by
  simp only [Registry.mem_names_iff]
  unfold checkMembers
  cases found : members.names.find? fun name => !set.attrs.contains name with
  | none => simpa using found
  | some name =>
      have missing := List.find?_some found
      have listed := List.mem_of_find?_eq_some found
      simp only [reduceCtorEq, false_iff]
      exact fun all => by simp [all name listed] at missing

/-- A message is written if all of its members are. -/
theorem exists_message_iff_members {members : Message} :
    (∃ data, message scope set members = .ok data) ↔
      (∀ name ∈ members.names, name ∈ set.attrs.names) ∧
        ∀ attr ∈ set.attrs.values, ∀ found, members.get? attr.name = some found →
          ∃ row, ofMember scope attr found = .ok row := by
  have rows : (∃ data, assemble set (eachMember scope set members) = .ok data) ↔
      ∀ attr ∈ set.attrs.values, ∃ row,
        ((eachMember scope set members).lookup attr.name).getD (.ok []) = .ok row := by
    simp only [assemble, map_eq_ok_iff, ← exists_mapM_iff]
    constructor
    · rintro ⟨_, rows, done, _⟩
      exact ⟨rows, done⟩
    · rintro ⟨rows, done⟩
      exact ⟨_, rows, done, rfl⟩
  simp only [message, bind_eq_ok_iff, ← checkMembers_eq_ok_iff]
  rw [exists_comm]
  simp only [exists_and_left, rows]
  constructor
  · rintro ⟨_, checked, each⟩
    refine ⟨checked, fun attr listed found held => ?_⟩
    have row := each attr listed
    rw [lookup_eachMember members listed, held] at row
    exact row
  · rintro ⟨checked, each⟩
    refine ⟨(), checked, fun attr listed => ?_⟩
    rw [lookup_eachMember members listed]
    cases held : members.get? attr.name with
    | none => exact ⟨[], rfl⟩
    | some found => exact each attr listed found held

/-- A value is written exactly if it is well typed and its parts fit their headers. -/
def Accepted (scope : Scope) (value : Value) : Prop :=
  ∀ attr type, (∃ stream, single scope attr type value = .ok stream) ↔
    WellTyped scope attr value ∧ ∀ part ∈ value.parts scope attr, HasRoom scope part

/-- The same for the message in a nest. -/
def NestAccepted (scope : Scope) (value : Value) : Prop :=
  ∀ members : Message, value = .nest members → ∀ set,
    (∃ data, message scope set members = .ok data) ↔
      WellTypedMessage scope set members ∧ ∀ part ∈ members.parts scope set, HasRoom scope part

/-- A member is written exactly when it is well-typed and its parts have room. -/
theorem exists_ofMember_iff {found : Value}
    (each : ∀ part ∈ found :: found.items, Accepted scope part) :
    (∃ row, ofMember scope attr found = .ok row) ↔
      WellTypedMember scope attr found ∧ ∀ part ∈ found.parts scope attr, HasRoom scope part := by
  simp only [ofMember_eq_ok_iff]
  constructor
  · rintro ⟨row, type, numbered, done⟩
    have number := exists_headerType_iff.1 ⟨type, numbered⟩
    obtain ⟨multi, items, streams, rfl, written, _⟩ | ⟨single, done⟩ := done
    · have accepted : ∀ item ∈ items, WellTyped scope attr item ∧
          ∀ part ∈ item.parts scope attr, HasRoom scope part := fun item member =>
        (each item (List.mem_cons_of_mem _ member) attr type).1
          (exists_mapM_iff.1 ⟨streams, written⟩ item member)
      refine ⟨.repeated number multi fun item member => (accepted item member).1, ?_⟩
      rw [Value.parts, Value.partsOfEach_eq_flatMap, List.forall_mem_flatMap]
      exact fun item member => (accepted item member).2
    · have accepted := (each found List.mem_cons_self attr type).1 ⟨row, done⟩
      exact ⟨.single number single accepted.1, accepted.2⟩
  · rintro ⟨typed, room⟩
    cases typed with
    | single number single one =>
        obtain ⟨type, numbered⟩ := exists_headerType_iff.2 number
        obtain ⟨row, done⟩ := (each found List.mem_cons_self attr type).2 ⟨one, room⟩
        exact ⟨row, type, numbered, .inr ⟨single, done⟩⟩
    | @repeated _ items number multi typed =>
        obtain ⟨type, numbered⟩ := exists_headerType_iff.2 number
        rw [Value.parts, Value.partsOfEach_eq_flatMap, List.forall_mem_flatMap] at room
        obtain ⟨streams, done⟩ := exists_mapM_iff.2 fun item member =>
          (each item (List.mem_cons_of_mem _ member) attr type).2
            ⟨typed item member, room item member⟩
        exact ⟨streams.flatten, type, numbered, .inl ⟨multi, items, streams, rfl, done, rfl⟩⟩

/-- A message is written exactly when it is well-typed and its parts have room. -/
theorem exists_message_iff {members : Message}
    (each : ∀ member ∈ members, ∀ part ∈ member.2 :: member.2.items, Accepted scope part) :
    (∃ data, message scope set members = .ok data) ↔
      WellTypedMessage scope set members ∧ ∀ part ∈ members.parts scope set, HasRoom scope part := by
  have inner : ∀ attr found, members.get? attr.name = some found →
      ((∃ row, ofMember scope attr found = .ok row) ↔ WellTypedMember scope attr found ∧
        ∀ part ∈ found.parts scope attr, HasRoom scope part) := by
    intro attr found held
    obtain ⟨before, after, split, _⟩ := List.lookup_eq_some_iff.1 held
    have listed : (attr.name, found) ∈ members := by simp [split]
    exact exists_ofMember_iff (each _ listed)
  rw [exists_message_iff_members]
  constructor
  · rintro ⟨defined, written⟩
    refine ⟨.intro defined fun attr listed found held => ?_, fun part member => ?_⟩
    · exact ((inner attr found held).1 (written attr listed found held)).1
    · obtain ⟨attr, listed, found, held, inside⟩ := Message.mem_parts_iff.1 member
      exact ((inner attr found held).1 (written attr listed found held)).2 part inside
  · rintro ⟨⟨defined, typed⟩, room⟩
    refine ⟨defined, fun attr listed found held => (inner attr found held).2 ?_⟩
    exact ⟨typed attr listed found held, fun part inside =>
      room part (Message.mem_parts_iff.2 ⟨attr, listed, found, held, inside⟩)⟩

/-- A nest is written if the message in it is and its length fits. -/
theorem room_of_nested (type : UInt16) {members : Message} {inner : Bytes}
    (contents : attr.contents scope = .ok set) (inside : message scope set members = .ok inner) :
    (∃ stream, nested attr type inner = .ok stream) ↔ HasRoom scope (attr, .nest members) := by
  have length := length_of_message (fun entry _ => hasSpan scope entry.2) inside
  rw [exists_nested_iff, HasRoom, Value.payloadLength_nest contents, length]

/-- The entries of an array are scalars, which always fit, or nests. -/
theorem exists_entry_iff {value : Value} (nest : NestAccepted scope value) (type : UInt16) :
    (∃ stream, entry scope attr type value = .ok stream) ↔
      WellTypedEntry scope attr value ∧
        (attr.entryScalar? = none → ∀ part ∈ value.parts scope attr, HasRoom scope part) := by
  cases scalars : attr.entryScalar? with
  | some expected =>
      simp only [scalar_entry_eq_ok_iff scalars, reduceCtorEq, false_imp_iff, and_true]
      constructor
      · rintro ⟨_, number, rfl, rfl, _⟩
        exact .scalar scalars
      · rintro typed
        cases typed with
        | @scalar _ number scalar =>
            rw [scalars, Option.some.injEq] at scalar
            have framed : ∃ stream, framed attr type (number.toBytes attr.isBigEndian) =
                .ok stream := by
              rw [exists_framed_iff, Scalar.length_toBytes]
              exact hasRoom_scalar scope attr number
            obtain ⟨stream, done⟩ := framed
            exact ⟨stream, number, rfl, scalar.symm, done⟩
        | nest nests => rw [scalars] at nests; cases nests
  | none =>
      simp only [nested_entry_eq_ok_iff scalars, true_imp_iff]
      constructor
      · rintro ⟨stream, members, set, inner, rfl, contents, inside, done⟩
        obtain ⟨typed, room⟩ := (nest members rfl set).1 ⟨inner, inside⟩
        refine ⟨.nest scalars contents typed, ?_⟩
        rw [Value.parts_nest contents, List.forall_mem_cons]
        exact ⟨(room_of_nested type contents inside).1 ⟨stream, done⟩, room⟩
      · rintro ⟨typed, room⟩
        cases typed with
        | scalar scalar => rw [scalars] at scalar; cases scalar
        | @nest _ set members _ contents inner =>
            rw [Value.parts_nest contents, List.forall_mem_cons] at room
            obtain ⟨data, inside⟩ := (nest members rfl set).2 ⟨inner, room.2⟩
            obtain ⟨stream, done⟩ := (room_of_nested type contents inside).2 room.1
            exact ⟨stream, members, set, data, rfl, contents, inside, done⟩

/-- The entries of an array are written if each one is and their indexes fit. -/
theorem exists_eachEntry_iff {accepts : Value → Prop} {entries : List Value}
    (each : ∀ value ∈ entries, ∀ type,
      (∃ stream, entry scope attr type value = .ok stream) ↔ accepts value)
    (index : Nat) (written : List Bytes) :
    (∃ data, eachEntry scope attr index entries written = .ok data) ↔
      (∀ offset < entries.length, index + offset < Stream.typeBound) ∧
        ∀ value ∈ entries, accepts value := by
  induction entries generalizing index written with
  | nil => simp [eachEntry]
  | cons value rest ih =>
      obtain ⟨here, later⟩ := List.forall_mem_cons.1 each
      simp only [eachEntry_cons, bind_eq_ok_iff, List.forall_mem_cons]
      constructor
      · rintro ⟨data, type, numbered, stream, done, rests⟩
        have first := exists_headerType_iff.1 ⟨type, numbered⟩
        obtain ⟨indexes, accepted⟩ := (ih later (index + 1) (stream :: written)).1 ⟨data, rests⟩
        refine ⟨fun offset inside => ?_, (here type).1 ⟨stream, done⟩, accepted⟩
        cases offset with
        | zero => exact first
        | succ offset =>
            have bound := indexes offset (Nat.lt_of_succ_lt_succ inside)
            omega
      · rintro ⟨indexes, first, accepted⟩
        have fits : ∃ type, attr.headerType index = .ok type :=
          exists_headerType_iff.2 (indexes 0 (by simp))
        obtain ⟨type, numbered⟩ := fits
        obtain ⟨stream, done⟩ := (here type).2 first
        have others : ∀ offset < rest.length, index + 1 + offset < Stream.typeBound := by
          intro offset inside
          have bound := indexes (offset + 1) (by simpa using inside)
          omega
        obtain ⟨data, rests⟩ := (ih later (index + 1) (stream :: written)).2 ⟨others, accepted⟩
        exact ⟨data, type, numbered, stream, done, rests⟩

/-- An array is written if its entries are and its length fits. -/
theorem room_of_array (type : UInt16) {entries : List Value} {inner : Bytes}
    (inside : eachEntry scope attr 0 entries [] = .ok inner) :
    (∃ stream, nested attr type inner = .ok stream) ↔ HasRoom scope (attr, .array entries) := by
  have length := length_of_entries (fun entry _ => hasSpan scope entry) inside
  rw [exists_nested_iff, HasRoom, Value.payloadLength_array, length]

/-- An array is accepted where its entries are. -/
theorem accepted_array {entries : List Value}
    (nests : ∀ entry ∈ entries, NestAccepted scope entry) :
    Accepted scope (.array entries) := by
  intro attr type
  have each : ∀ value ∈ entries, ∀ type, (∃ stream, entry scope attr type value = .ok stream) ↔
      WellTypedEntry scope attr value ∧ (attr.entryScalar? = none →
        ∀ part ∈ value.parts scope attr, HasRoom scope part) := fun value member =>
    exists_entry_iff (nests value member)
  have indexed := exists_eachEntry_iff each 0 []
  simp only [Nat.zero_add] at indexed
  rw [Value.parts_array, List.forall_mem_cons]
  simp only [single_eq_ok_iff]
  constructor
  · rintro ⟨stream, written⟩
    cases written with
    | array kind inside done =>
        obtain ⟨indexes, each⟩ := indexed.1 ⟨_, inside⟩
        refine ⟨.array kind indexes fun entry member => (each entry member).1,
          (room_of_array type inside).1 ⟨stream, done⟩, ?_⟩
        cases scalars : attr.entryScalar? with
        | some expected => simp
        | none =>
            simp only [Option.isSome_none, Bool.false_eq_true, if_false, List.forall_mem_flatMap]
            exact fun entry member => (each entry member).2 scalars
  · rintro ⟨typed, room, rooms⟩
    cases typed with
    | array kind indexes each =>
        have accepted : ∀ entry ∈ entries, WellTypedEntry scope attr entry ∧
            (attr.entryScalar? = none → ∀ part ∈ entry.parts scope attr, HasRoom scope part) := by
          refine fun entry member => ⟨each entry member, fun none => ?_⟩
          simp only [none, Option.isSome_none, Bool.false_eq_true, if_false,
            List.forall_mem_flatMap] at rooms
          exact rooms entry member
        obtain ⟨inner, inside⟩ := indexed.2 ⟨indexes, accepted⟩
        obtain ⟨stream, done⟩ := (room_of_array type inside).2 room
        exact ⟨stream, .array kind inside done⟩

/-- A nest is accepted where its members are. -/
theorem accepted_nest {members : Message} (nest : NestAccepted scope (.nest members)) :
    Accepted scope (.nest members) := by
  intro attr type
  simp only [single_eq_ok_iff]
  constructor
  · rintro ⟨stream, written⟩
    cases written with
    | nest kind contents inside done =>
        obtain ⟨typed, room⟩ := (nest members rfl _).1 ⟨_, inside⟩
        refine ⟨.nest kind contents typed, ?_⟩
        rw [Value.parts_nest contents, List.forall_mem_cons]
        exact ⟨(room_of_nested type contents inside).1 ⟨stream, done⟩, room⟩
  · rintro ⟨typed, room⟩
    cases typed with
    | nest kind contents inner =>
        rw [Value.parts_nest contents, List.forall_mem_cons] at room
        obtain ⟨data, inside⟩ := (nest members rfl _).2 ⟨inner, room.2⟩
        obtain ⟨stream, done⟩ := (room_of_nested type contents inside).2 room.1
        exact ⟨stream, .nest kind contents inside done⟩

/-- A leaf is written as the frame of its payload. -/
theorem written_leaf_iff {value : Value} {payload : Bytes}
    (leaf : leafPayload? attr value = some payload) {type : UInt16} {stream : Bytes} :
    Written scope attr type value stream ↔
      WellTyped scope attr value ∧ framed attr type payload = .ok stream := by
  constructor
  · intro written
    refine ⟨?_, framed_of_leaf leaf written⟩
    cases written with
    | scalar kind => exact .scalar kind
    | flag kind => exact .flag kind
    | text kind => exact .text kind
    | binary kind => exact .binary kind
    | nest => cases leaf
    | array => cases leaf
  · rintro ⟨typed, done⟩
    cases typed with
    | scalar kind => exact .scalar kind (Option.some.inj leaf ▸ done)
    | flag kind => exact .flag kind (Option.some.inj leaf ▸ done)
    | text kind => exact .text kind (Option.some.inj leaf ▸ done)
    | binary kind => exact .binary kind (Option.some.inj leaf ▸ done)
    | nest => cases leaf
    | array => cases leaf

/-- A value that holds no attributes is written if it is well typed and its payload fits. -/
theorem accepted_leaf {value : Value}
    (leaf : ∀ attr, ∃ payload, leafPayload? attr value = some payload) : Accepted scope value := by
  intro attr type
  obtain ⟨payload, known⟩ := leaf attr
  have length : payload.length = value.payloadLength scope attr := length_of_leaf known
  have alone : value.parts scope attr = [(attr, value)] := by
    cases value <;> cases known <;> rfl
  simp only [single_eq_ok_iff, written_leaf_iff known, exists_and_left, exists_framed_iff, alone,
    List.forall_mem_singleton, length]
  rfl

/-- What is no nest has no members to be accepted. -/
theorem nestAccepted_of_members? {value : Value} (none : value.members? = none) :
    NestAccepted scope value := by
  rintro members rfl
  cases none

/-- By induction on the value. -/
theorem accepted (scope : Scope) (value : Value) :
    Accepted scope value ∧ NestAccepted scope value := by
  induction value using Value.induction with
  | scalar number => exact ⟨accepted_leaf fun _ => ⟨_, rfl⟩, nestAccepted_of_members? rfl⟩
  | flag => exact ⟨accepted_leaf fun _ => ⟨_, rfl⟩, nestAccepted_of_members? rfl⟩
  | text content => exact ⟨accepted_leaf fun _ => ⟨_, rfl⟩, nestAccepted_of_members? rfl⟩
  | binary bytes => exact ⟨accepted_leaf fun _ => ⟨_, rfl⟩, nestAccepted_of_members? rfl⟩
  | nest members ih =>
      have nest : NestAccepted scope (.nest members) := by
        intro _ same set
        cases same
        exact exists_message_iff fun member listed part inside => (ih member listed part inside).1
      exact ⟨accepted_nest nest, nest⟩
  | array entries ih =>
      exact ⟨accepted_array fun entry member => (ih entry member).2, nestAccepted_of_members? rfl⟩
  | multi items _ =>
      refine ⟨fun attr type => ?_, nestAccepted_of_members? rfl⟩
      constructor
      · rintro ⟨stream, done⟩
        exact absurd done single_multi_ne_ok
      · rintro ⟨typed, _⟩
        cases typed

end Encoding

namespace Family

open Encoding Outcome

/-- A message of a set is written exactly if the set is defined, the message is well typed for it,
and every attribute at any depth fits its header: four bytes and its payload are no more than what
the length field can tell. -/
theorem exists_encode_iff (family : Family) (set : String) (message : Message) :
    (∃ data, family.encode set message = .ok data) ↔
      ∃ attrs, family.sets.get? set = some attrs ∧
        WellTypedMessage family.toScope attrs message ∧
        ∀ part ∈ message.parts family.toScope attrs, HasRoom family.toScope part := by
  have written (attrs : AttributeSet) :
      (∃ data, Encoding.message family.toScope attrs message = .ok data) ↔
        WellTypedMessage family.toScope attrs message ∧
          ∀ part ∈ message.parts family.toScope attrs, HasRoom family.toScope part :=
    exists_message_iff fun _ _ part _ => (accepted family.toScope part).1
  simp only [encode, bind_eq_ok_iff, CodecError.lift_eq_ok_iff, Scope.attributeSet_eq_ok_iff]
  rw [exists_comm]
  simp only [exists_and_left, written]

end Family

end NetlinkFamily
