import NetlinkFamily.Proofs.Encoding.Writing
import NetlinkFamily.Proofs.RoundTrip.Picking
import NetlinkFamily.Proofs.RoundTrip.Readable

namespace NetlinkFamily.Decoding

open Outcome

variable {scope : Scope} {peer : Peer}

/-- What a peer makes of a stream: the normal form of a message that holds no array twice and whose
parts are all readable, and nothing otherwise. The list of allowed attributes, if there is one, must
have all members. -/
def MessageReadsAs (scope : Scope) (peer : Peer) (set : AttributeSet) (data : Bytes)
    (members : Message) : Prop :=
  ∀ allowed : Option AllowedList,
    (∀ list, allowed = some list → ∀ name ∈ members.names, name ∈ list.names) →
    ∀ result, message scope peer set allowed data = .ok result ↔
      (members.SingleArrays set ∧ ∀ part ∈ members.parts scope set, Readable scope peer part) ∧
        result = (Rewriting.normal peer).message scope set members

/-- A message that may hold any attributes is read as a whole. -/
theorem MessageReadsAs.whole {set : AttributeSet} {data : Bytes} {members : Message}
    (reads : MessageReadsAs scope peer set data members) (result : Message) :
    message scope peer set none data = .ok result ↔
      (members.SingleArrays set ∧ ∀ part ∈ members.parts scope set, Readable scope peer part) ∧
        result = (Rewriting.normal peer).message scope set members :=
  reads none (by simp) result

/-- Whatever the encoder writes for a value is one attribute with a payload to read it from. -/
def SingleReads (scope : Scope) (peer : Peer) (value : Value) : Prop :=
  ∀ (attr : Attribute) (type : UInt16) (stream : Bytes),
    Encoding.single scope attr type value = .ok stream →
      ∃ payload, Stream.Carries stream (type.toNat % Stream.typeBound) payload ∧
        ReadsAs scope peer attr payload value

/-- Whatever the encoder writes for the members of a nest is a stream to read them from. -/
def NestReads (scope : Scope) (peer : Peer) (value : Value) : Prop :=
  ∀ members, value = .nest members → ∀ set ∈ scope.sets.values, ∀ data,
    Encoding.message scope set members = .ok data → MessageReadsAs scope peer set data members

/-- Values that are no nests have no members to read. -/
theorem nestReads_of_members? {value : Value} (none : value.members? = none) :
    NestReads scope peer value := by
  intro members same
  rw [same] at none
  cases none

/-- An attribute of a stream carries an occurrence if the occurrence is read from its payload. -/
structure CarriedBy (scope : Scope) (peer : Peer) (entry : Attribute × Value)
    (raw : RawAttribute) : Prop where
  number : raw.type = entry.1.value.toNat
  kind : entry.1.kind ≠ .pad ∧ entry.1.kind ≠ .unused
  reads : ReadsAs scope peer entry.1 raw.payload entry.2

/-- The stream of a message holds one attribute for each occurrence, in order. -/
theorem attributes_of_message {set : AttributeSet} {members : Message}
    (each : ∀ entry ∈ members.occurrences set, SingleReads scope peer entry.2) {data : Bytes}
    (done : Encoding.message scope set members = .ok data) :
    members.Fits set ∧ ∃ raws, attributes data = .ok raws ∧
      List.Forall₂ (CarriedBy scope peer) (members.occurrences set) raws := by
  obtain ⟨fits, _⟩ := Encoding.streams_of_message done
  obtain ⟨raws, parted, carried⟩ := Encoding.raws_of_message
    (fun entry member type stream one => each entry member entry.1 type stream one) done
  exact ⟨fits, raws, attributes_eq_ok_iff.2 parted,
    carried.imp fun entry raw facts => ⟨facts.1, facts.2.1, facts.2.2⟩⟩

/-- The attributes that carry a message are all picked, unless some array comes twice. -/
theorem pick_of_carried {set : AttributeSet}
    (distinct : (set.attrs.values.map Attribute.value).Nodup) {members : Message}
    {raws : List RawAttribute} {allowed : Option AllowedList}
    (within : ∀ list, allowed = some list → ∀ name ∈ members.names, name ∈ list.names)
    (carried : List.Forall₂ (CarriedBy scope peer) (members.occurrences set) raws)
    {picked : List (Attribute × RawAttribute)} :
    pick peer set allowed RawAttribute.type [] raws = .ok picked ↔
      members.SingleArrays set ∧ picked = ((members.occurrences set).map Prod.fst).zip raws := by
  have known : List.Forall₂ (fun attr (raw : RawAttribute) =>
      recognise peer set allowed raw.type = .ok (some attr))
      ((members.occurrences set).map Prod.fst) raws := by
    refine List.forall₂_map_left_iff.2 ((forall₂_mem carried).imp fun entry raw both => ?_)
    obtain ⟨member, facts⟩ := both
    rw [facts.number]
    refine recognise_value distinct (Message.mem_values_of_mem_occurrences entry member)
      (fun list given => ?_) facts.kind
    obtain ⟨source, listed, named, _⟩ := Message.member_of_mem_occurrences entry member
    exact within list given _ (named ▸ List.mem_map_of_mem listed)
  rw [pick_eq_ok_iff known (by simp [ArraysOnce]), ← arraysOnce_occurrences_iff]
  rfl

/-- Reading the picked attributes gives the normal form of every occurrence. -/
theorem mapM_read_eq_ok_iff {set : AttributeSet} {members : Message} {raws : List RawAttribute}
    (carried : List.Forall₂ (CarriedBy scope peer) (members.occurrences set) raws)
    {values : List (Attribute × Value)} :
    (((members.occurrences set).map Prod.fst).zip raws).mapM (read scope peer) = .ok values ↔
      (∀ entry ∈ members.occurrences set, ∀ part ∈ entry.2.parts scope entry.1,
        Readable scope peer part) ∧
      values = (members.occurrences set).map fun entry =>
        (entry.1, (Rewriting.normal peer).value scope entry.1 entry.2) := by
  refine mapM_eq_ok_iff_of_forall₂ (forall₂_zip_map (carried.imp fun entry raw facts answer => ?_))
  rw [read_eq_ok_iff, facts.reads, Prod.ext_iff]
  constructor
  · rintro ⟨same, readable, normal⟩
    exact ⟨readable, same, normal⟩
  · rintro ⟨readable, same, normal⟩
    exact ⟨same, readable, normal⟩

/-- A message is read from its stream if each occurrence of an attribute is read from its own. -/
theorem message_reads {set : AttributeSet}
    (distinct : (set.attrs.values.map Attribute.value).Nodup) {members : Message}
    (each : ∀ entry ∈ members.occurrences set, SingleReads scope peer entry.2) {data : Bytes}
    (done : Encoding.message scope set members = .ok data) :
    MessageReadsAs scope peer set data members := by
  intro allowed within result
  obtain ⟨fits, raws, parted, carried⟩ := attributes_of_message each done
  rw [message_eq]
  simp only [parted, pick_of_carried distinct within carried, bind_eq_ok_iff, Except.ok.injEq,
    exists_eq_left', and_assoc, exists_and_left, exists_eq_left, mapM_read_eq_ok_iff carried,
    pure_eq_ok_iff]
  rw [Message.parts_eq fits, List.forall_mem_flatMap, ← Rewriting.collect_normal scope peer fits]
  exact and_congr_right fun _ => and_congr_right fun _ => eq_comm

/-- No part of a leaf but the leaf itself. -/
theorem readsAs_of_leaf {attr : Attribute} {payload : Bytes} {value : Value}
    (notNest : attr.kind ≠ .nest) (notArray : attr.kind ≠ .arrayNest)
    (alone : value.parts scope attr = [(attr, value)]) (single : value.elements? = none)
    (once : value.repeatsNoArray scope attr = true)
    (read : ∀ result, leaf scope peer attr payload = .ok result ↔
      (peer = .handling → attr.accepts scope.constants value = true) ∧
        result = (Rewriting.normal peer).value scope attr value) :
    ReadsAs scope peer attr payload value := by
  intro result
  rw [value_leaf notNest notArray, read, alone, List.forall_mem_singleton]
  have notEmpty : value ≠ .array [] := by
    intro same
    rw [same] at single
    cases single
  constructor
  · rintro ⟨accepted, normal⟩
    exact ⟨⟨fun same => absurd same notEmpty, once, accepted⟩, normal⟩
  · rintro ⟨readable, normal⟩
    exact ⟨readable.accepted, normal⟩

/-- The stream of an array holds one attribute for each entry, in order. -/
theorem attributes_of_entries {attr : Attribute} {entries : List Value} {inner : Bytes}
    {Carried : Value → RawAttribute → Prop}
    (each : ∀ entry ∈ entries, ∀ type stream, Encoding.entry scope attr type entry = .ok stream →
      ∃ raw, Carried entry raw ∧ Stream.Holds stream [raw])
    (done : Encoding.eachEntry scope attr 0 entries [] = .ok inner) :
    ∃ raws, attributes inner = .ok raws ∧ List.Forall₂ Carried entries raws := by
  obtain ⟨streams, rfl, written⟩ := Encoding.streams_of_eachEntry done
  have carried : List.Forall₂ (fun entry stream => ∃ raw,
      Carried entry raw ∧ Stream.Holds stream [raw]) entries streams := by
    refine (forall₂_mem written).imp fun entry stream both => ?_
    obtain ⟨member, type, one⟩ := both
    exact each entry member type stream one
  obtain ⟨raws, read, held⟩ := exists_forall₂_between carried
  exact ⟨raws, attributes_eq_ok_iff.2 (Stream.Holds.flatten_single held).split, read⟩

/-- The scalars of an array are read from the attributes inside of it. -/
theorem readsAs_scalars {attr : Attribute} {type : ScalarType} {entries : List Value} {inner : Bytes}
    (kind : attr.kind = .arrayNest) (scalars : attr.entryScalar? = some type)
    (done : Encoding.eachEntry scope attr 0 entries [] = .ok inner) :
    ReadsAs scope peer attr inner (.array entries) := by
  have each : ∀ entry ∈ entries, ∀ header stream,
      Encoding.entry scope attr header entry = .ok stream → ∃ raw : RawAttribute,
        (∀ result, readScalar attr type raw.payload = .ok result ↔
          True ∧ result = (Rewriting.normal peer).value scope attr entry) ∧
        Stream.Holds stream [raw] := by
    intro entry _ header stream one
    obtain ⟨number, rfl, rfl, raw, holds, _, payload⟩ := Encoding.carries_of_scalar_entry scalars one
    refine ⟨raw, fun result => ?_, holds⟩
    rw [readScalar_eq_ok_iff, payload, Scalar.ofBytes_toBytes, Rewriting.value_scalar]
    simp
  obtain ⟨raws, parted, read⟩ := attributes_of_entries each done
  intro result
  rw [value_arrayNest kind]
  simp only [parted, scalars, bind_eq_ok_iff, Except.ok.injEq, exists_eq_left',
    mapM_eq_ok_iff_of_forall₂ read, pure_eq_ok_iff, Value.parts_array, Option.isSome_some, if_true,
    List.forall_mem_singleton, readable_array_iff, Rewriting.value_array, exists_result_iff,
    Attribute.knowsEntries_of_scalars scalars, implies_true]

/-- A nested entry of an array is read by the set that the array names. -/
structure NestCarriedBy (scope : Scope) (peer : Peer) (attr : Attribute) (set : AttributeSet)
    (members : Message) (raw : RawAttribute) : Prop where
  known : attr.contents scope = .ok set
  reads : MessageReadsAs scope peer set raw.payload members

/-- A nest is read from what carries it as its members are. -/
theorem NestCarriedBy.nest {attr : Attribute} {set : AttributeSet} {members : Message}
    {raw : RawAttribute} (carried : NestCarriedBy scope peer attr set members raw)
    (result : Value) :
    (do
      let members ← message scope peer set none raw.payload
      return Value.nest members : Coded Value) = .ok result ↔
      (∀ part ∈ (Value.nest members).parts scope attr, Readable scope peer part) ∧
        result = (Rewriting.normal peer).value scope attr (.nest members) := by
  rw [Value.parts_nest carried.known, Rewriting.value_nest scope _ carried.known,
    List.forall_mem_cons, bind_eq_ok_iff]
  simp only [carried.reads.whole, pure_eq_ok_iff, readable_nest_iff carried.known,
    exists_result_iff]

/-- The nests of an array are read from the attributes inside of it, if there is a declared set to
read them by. -/
theorem readsAs_nests {attr : Attribute} {entries : List Value} {inner : Bytes}
    (kind : attr.kind = .arrayNest) (nests : attr.entryScalar? = none)
    (each : ∀ entry ∈ entries, NestReads scope peer entry)
    (done : Encoding.eachEntry scope attr 0 entries [] = .ok inner) :
    ReadsAs scope peer attr inner (.array entries) := by
  have carried : ∀ entry ∈ entries, ∀ header stream,
      Encoding.entry scope attr header entry = .ok stream → ∃ raw : RawAttribute,
        (∃ members set, entry = .nest members ∧ NestCarriedBy scope peer attr set members raw) ∧
        Stream.Holds stream [raw] := by
    intro entry member header stream one
    obtain ⟨members, set, data, rfl, known, inside, raw, holds, _, rfl⟩ :=
      Encoding.carries_of_nested_entry nests one
    exact ⟨raw, ⟨members, set, rfl, known, each _ member members rfl set
      (Attribute.mem_sets_of_contents known) _ inside⟩, holds⟩
  obtain ⟨raws, parted, read⟩ := attributes_of_entries carried done
  intro result
  rw [value_arrayNest kind, Value.parts_array, nests]
  simp only [parted, bind_eq_ok_iff, Except.ok.injEq, exists_eq_left', pure_eq_ok_iff,
    Option.isSome_none, Bool.false_eq_true, if_false, List.forall_mem_cons, readable_array_iff,
    List.forall_mem_flatMap, Rewriting.value_array, Attribute.knowsEntries_of_nests nests]
  cases inner : attr.contents scope with
  | error error =>
      -- Without a set nothing can have been written.
      have empty : entries = [] := by
        cases read with
        | nil => rfl
        | cons first _ =>
            obtain ⟨_, _, _, facts⟩ := first
            cases inner.symm.trans facts.known
      simp [empty, Except.isOk, Except.toBool]
  | ok set =>
      have steps : List.Forall₂ (fun entry (raw : RawAttribute) => ∀ answer,
          (do
            let members ← message scope peer set none raw.payload
            return Value.nest members : Coded Value) = .ok answer ↔
            (∀ part ∈ entry.parts scope attr, Readable scope peer part) ∧
              answer = (Rewriting.normal peer).value scope attr entry) entries raws := by
        refine read.imp fun entry raw facts => ?_
        obtain ⟨members, other, rfl, facts⟩ := facts
        cases inner.symm.trans facts.known
        exact facts.nest
      have knows : (Except.ok set : Coded AttributeSet).isOk = true := rfl
      simp only [Except.ok.injEq, exists_eq_left', mapM_eq_ok_iff_of_forall₂ steps, knows,
        implies_true, true_and, exists_result_iff]

/-- By induction on the value: every single value, and every message in a nest, is read back. -/
theorem value_reads (distinct : scope.DistinctNumbers) (value : Value) :
    SingleReads scope peer value ∧ NestReads scope peer value := by
  induction value using Value.induction with
  | scalar number =>
      refine ⟨fun attr type stream done => ?_, nestReads_of_members? rfl⟩
      cases Encoding.written_of_single done with
      | scalar kind done =>
          exact ⟨_, Encoding.carries_of_framed done, readsAs_of_leaf (by simp [kind])
            (by simp [kind]) rfl rfl rfl fun result => leaf_scalar kind⟩
  | flag =>
      refine ⟨fun attr type stream done => ?_, nestReads_of_members? rfl⟩
      cases Encoding.written_of_single done with
      | flag kind done =>
          exact ⟨_, Encoding.carries_of_framed done, readsAs_of_leaf (by simp [kind])
            (by simp [kind]) rfl rfl rfl fun result => leaf_flag kind⟩
  | text content =>
      refine ⟨fun attr type stream done => ?_, nestReads_of_members? rfl⟩
      cases Encoding.written_of_single done with
      | text kind done =>
          exact ⟨_, Encoding.carries_of_framed done, readsAs_of_leaf (by simp [kind])
            (by simp [kind]) rfl rfl rfl fun result => leaf_text kind⟩
  | binary bytes =>
      refine ⟨fun attr type stream done => ?_, nestReads_of_members? rfl⟩
      cases Encoding.written_of_single done with
      | binary kind done =>
          exact ⟨_, Encoding.carries_of_framed done, readsAs_of_leaf (by simp [kind])
            (by simp [kind]) rfl rfl rfl fun result => leaf_binary kind⟩
  | nest members ih =>
      have inside : NestReads scope peer (.nest members) := by
        intro _ same set declared data done
        cases same
        refine message_reads (distinct set declared) (fun entry member => ?_) done
        obtain ⟨source, listed, _, among⟩ := Message.member_of_mem_occurrences entry member
        exact (ih source listed entry.2 among).1
      refine ⟨fun attr type stream done => ?_, inside⟩
      cases Encoding.written_of_single done with
      | nest kind known written done =>
          have reads := inside members rfl _ (Attribute.mem_sets_of_contents known) _ written
          refine ⟨_, Encoding.carries_of_nested done, fun result => ?_⟩
          rw [value_nest kind, known, Value.parts_nest known, Rewriting.value_nest scope _ known]
          simp only [bind_eq_ok_iff, Except.ok.injEq, exists_eq_left', reads.whole,
            pure_eq_ok_iff, exists_result_iff, List.forall_mem_cons, readable_nest_iff known]
  | array entries ih =>
      refine ⟨fun attr type stream done => ?_, nestReads_of_members? rfl⟩
      cases Encoding.written_of_single done with
      | array kind inside done =>
          refine ⟨_, Encoding.carries_of_nested done, ?_⟩
          cases scalars : attr.entryScalar? with
          | some type => exact readsAs_scalars kind scalars inside
          | none => exact readsAs_nests kind scalars (fun entry member => (ih entry member).2) inside
  | multi items ih =>
      exact ⟨fun attr type stream done => absurd done Encoding.single_multi_ne_ok,
        nestReads_of_members? rfl⟩

end NetlinkFamily.Decoding
