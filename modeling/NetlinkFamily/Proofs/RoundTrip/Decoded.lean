import Mathlib.Data.List.TakeWhile
import NetlinkFamily.Proofs.Decoding.Fidelity
import NetlinkFamily.Proofs.Encoding.Acceptance
import NetlinkFamily.Proofs.Message.Agreement
import NetlinkFamily.Proofs.RoundTrip.Messages
import NetlinkFamily.Proofs.Wire.Bounds

namespace NetlinkFamily

/-- What reading leaves behind: texts end before a NUL character, messages hold each name once, and
what is repeated occurs. -/
def Value.IsRead : Value → Prop
  | .text content => Text.untilNul content = content
  | .nest members =>
      (Message.names members).Nodup ∧ ∀ member ∈ members, member.2 ≠ .multi []
  | _ => True

/-- A value that is read has no name twice. -/
theorem Value.IsRead.isKeyed {value : Value} (read : value.IsRead) : value.IsKeyed := by
  cases value with
  | nest members => exact read.1
  | _ => trivial

namespace Decoding

open Encoding Outcome

/-- What is known of a value that was read for an attribute. -/
structure Decoded (scope : Scope) (attr : Attribute) (value : Value) : Prop where
  typed : WellTyped scope attr value
  read : value.Everywhere Value.IsRead
  known : ∀ part ∈ value.parts scope attr, part.2 = .array [] → part.1.knowsEntries scope = true

/-- What is known of a message that was decoded. -/
structure DecodedMessage (scope : Scope) (set : AttributeSet) (message : Message) : Prop where
  typed : WellTypedMessage scope set message
  read : (Value.nest message).Everywhere Value.IsRead
  known : message.KnowsArrays scope set

variable {scope : Scope} {set : AttributeSet} {attr : Attribute}

/-- A text that was cut at a zero byte has no NUL character. -/
theorem untilNul_of_untilZero {payload : Bytes} {content : String}
    (valid : payload.untilZero.toText? = some content) : Text.untilNul content = content := by
  rw [Bytes.toText?_eq_some_iff] at valid
  have cut := Bytes.untilZero_ofText_append content [] rfl
  have twice : payload.untilZero.untilZero = payload.untilZero := List.takeWhile_idem
  rw [List.append_nil, ← valid, twice, valid] at cut
  have same := congrArg Bytes.toText? cut
  simpa only [Bytes.toText?_ofText, Option.some.injEq] using same.symm

/-- A value that holds no other values is known if it is of its kind. -/
theorem decoded_leaf {value : Value} (typed : WellTyped scope attr value) (read : value.IsRead)
    (inside : value.inside = []) (parts : value.parts scope attr = [(attr, value)])
    (notArray : value ≠ .array []) : Decoded scope attr value where
  typed
  read := .intro read (by simp [inside])
  known := by simp [parts, notArray]

/-- A leaf that is decoded is known to be so. -/
theorem decoded_of_leaf {payload : Bytes} {value : Value}
    (taken : leaf scope .originating attr payload = .ok value) : Decoded scope attr value := by
  simp only [leaf, policyOf, bind_eq_ok_iff, Except.ok.injEq, exists_eq_left'] at taken
  split at taken
  case h_1 type kind =>
    simp only [bind_eq_ok_iff, pure_eq_ok_iff, readScalar_eq_ok_iff] at taken
    obtain ⟨_, ⟨_, rfl⟩, rfl⟩ := taken
    exact decoded_leaf (.scalar kind) trivial rfl rfl (by simp)
  case h_2 kind =>
    split at taken
    · simp only [pure_eq_ok_iff] at taken
      subst taken
      exact decoded_leaf (.flag kind) trivial rfl rfl (by simp)
    · cases taken
  case h_3 kind =>
    simp only [readText, pure_bind] at taken
    split at taken
    · rename_i content valid
      simp only [pure_eq_ok_iff] at taken
      subst taken
      exact decoded_leaf (.text kind) (untilNul_of_untilZero valid) rfl rfl (by simp)
    · cases taken
  case h_4 kind =>
    simp only [pure_eq_ok_iff] at taken
    subst taken
    exact decoded_leaf (.binary kind) trivial rfl rfl (by simp)
  case h_5 => cases taken

/-- A message in a stream is known. -/
def MessageDecodes (scope : Scope) (data : Bytes) : Prop :=
  ∀ set found, message scope .originating set none data = .ok found → DecodedMessage scope set found

/-- A value in a payload is known, if a header can announce the payload. -/
def ValueDecodes (scope : Scope) (payload : Bytes) : Prop :=
  Stream.headerLength + payload.length ≤ Stream.maxLength → ∀ attr found,
    value scope .originating attr payload = .ok found → Decoded scope attr found

/-- A nest is decoded where its members are. -/
theorem decoded_nest {members : Message} (kind : attr.kind = .nest)
    (contents : attr.contents scope = .ok set) (inner : DecodedMessage scope set members) :
    Decoded scope attr (.nest members) where
  typed := .nest kind contents inner.typed
  read := inner.read
  known := by
    rw [Value.parts_nest contents]
    exact List.forall_mem_cons.2 ⟨by simp, inner.known⟩

/-- Entries that fit a stream have indexes that fit a type. -/
theorem indexes_lt {payload : Bytes} {raws : List RawAttribute}
    (fits : Stream.headerLength + payload.length ≤ Stream.maxLength)
    (parted : Stream.split payload = .ok raws) :
    ∀ index < raws.length, index < Stream.typeBound := by
  have bound := Stream.length_split parted
  intro index inside
  simp only [Stream.headerLength, Stream.maxLength, Stream.typeBound, UInt16.size] at *
  omega

/-- An array of scalars is decoded where its entries have the type. -/
theorem decoded_scalars {type : ScalarType} {entries : List Value} (kind : attr.kind = .arrayNest)
    (scalar : attr.entryScalar? = some type)
    (indexes : ∀ index < entries.length, index < Stream.typeBound)
    (each : ∀ entry ∈ entries, ∃ number : Scalar, number.type = type ∧ entry = .scalar number) :
    Decoded scope attr (.array entries) where
  typed := by
    refine .array kind indexes fun entry member => ?_
    obtain ⟨number, rfl, rfl⟩ := each entry member
    exact .scalar scalar
  read := by
    refine .intro trivial fun entry member => ?_
    obtain ⟨number, _, rfl⟩ := each entry member
    exact .intro trivial (by simp [Value.inside])
  known := by
    rw [Value.parts_array, scalar]
    exact List.forall_mem_cons.2 ⟨fun _ => Attribute.knowsEntries_of_scalars scalar, by simp⟩

/-- An array of nests is decoded where its entries are. -/
theorem decoded_nests {entries : List Value} (kind : attr.kind = .arrayNest)
    (nests : attr.entryScalar? = none) (contents : attr.contents scope = .ok set)
    (indexes : ∀ index < entries.length, index < Stream.typeBound)
    (each : ∀ entry ∈ entries, ∃ members, entry = .nest members ∧
      DecodedMessage scope set members) :
    Decoded scope attr (.array entries) where
  typed := by
    refine .array kind indexes fun entry member => ?_
    obtain ⟨members, rfl, inner⟩ := each entry member
    exact .nest nests contents inner.typed
  read := by
    refine .intro trivial fun entry member => ?_
    obtain ⟨members, rfl, inner⟩ := each entry member
    exact inner.read
  known := by
    rw [Value.parts_array, nests]
    refine List.forall_mem_cons.2 ⟨fun _ => ?_, ?_⟩
    · rw [Attribute.knowsEntries_of_nests nests, contents]
      rfl
    · simp only [Option.isSome_none, Bool.false_eq_true, if_false, List.forall_mem_flatMap]
      intro entry member
      obtain ⟨members, rfl, inner⟩ := each entry member
      rw [Value.parts_nest contents]
      exact List.forall_mem_cons.2 ⟨by simp, inner.known⟩

/-- A value is decoded where the messages inside are. -/
theorem valueDecodes {payload : Bytes}
    (inner : ∀ data : Bytes, data.length ≤ payload.length → MessageDecodes scope data) :
    ValueDecodes scope payload := by
  intro fits attr found taken
  cases obtained_of_value taken with
  | nest kind contents inside =>
      exact decoded_nest kind contents (inner payload (Nat.le_refl _) _ _ inside)
  | scalars kind scalar parted each =>
      refine decoded_scalars kind scalar (each.length_eq ▸ indexes_lt fits parted) ?_
      intro entry member
      obtain ⟨raw, _, taken⟩ := exists_of_forall₂ each entry member
      obtain ⟨_, rfl⟩ := readScalar_eq_ok_iff.1 taken
      exact ⟨_, rfl, rfl⟩
  | @nests set raws messages kind nested contents parted each =>
      have indexes := indexes_lt fits parted
      rw [each.length_eq, ← List.length_map Value.nest] at indexes
      refine decoded_nests kind nested contents indexes ?_
      intro entry member
      obtain ⟨members, among, rfl⟩ := List.mem_map.1 member
      obtain ⟨raw, inside, taken⟩ := exists_of_forall₂ each members among
      have shorter := Stream.payload_lt parted inside
      exact ⟨members, rfl, inner raw.payload (Nat.le_of_lt shorter) set members taken⟩
  | leaf _ _ taken => exact decoded_of_leaf taken

/-- What is known of a member: it is a list of occurrences exactly if its attribute may be
repeated, and not an empty one. -/
inductive DecodedMember (scope : Scope) (attr : Attribute) : Value → Prop where
  | single {found : Value} (single : attr.multi = false) (one : Decoded scope attr found) :
      DecodedMember scope attr found
  | repeated {items : List Value} (multi : attr.multi = true) (occurs : items ≠ [])
      (each : ∀ item ∈ items, Decoded scope attr item) : DecodedMember scope attr (.multi items)

/-- A member gathered from decoded values is decoded. -/
theorem decodedMember_of_gathered {values : List Value} {found : Value}
    (each : ∀ value ∈ values, Decoded scope attr value)
    (held : gathered attr values = some found) : DecodedMember scope attr found := by
  unfold gathered at held
  split at held
  · rename_i multi
    split at held
    · cases held
    · rename_i occurs
      rw [← Option.some.inj held]
      exact .repeated multi (by simpa using occurs) each
  · rename_i single
    exact .single (by simpa using single) (each found (List.mem_of_getLast? held))

namespace DecodedMember

variable {found : Value}

/-- A decoded member is well-typed. -/
theorem typed (member : DecodedMember scope attr found)
    (number : attr.value.toNat < Stream.typeBound) : WellTypedMember scope attr found := by
  cases member with
  | single single one => exact .single number single one.typed
  | repeated multi _ each => exact .repeated number multi fun item inside => (each item inside).typed

/-- A decoded member is read everywhere. -/
theorem read (member : DecodedMember scope attr found) : found.Everywhere Value.IsRead := by
  cases member with
  | single _ one => exact one.read
  | repeated _ _ each => exact .intro trivial fun item inside => (each item inside).read

/-- A decoded member occurs. -/
theorem occurs (member : DecodedMember scope attr found) : found ≠ .multi [] := by
  cases member with
  | single _ one =>
      rintro rfl
      cases one.typed
  | repeated _ occurs _ => simpa using occurs

/-- An empty array in a decoded member is one whose entries are known. -/
theorem known (member : DecodedMember scope attr found) :
    ∀ part ∈ found.parts scope attr, part.2 = .array [] → part.1.knowsEntries scope = true := by
  cases member with
  | single _ one => exact one.known
  | repeated _ _ each =>
      rw [Value.parts, Value.partsOfEach_eq_flatMap, List.forall_mem_flatMap]
      exact fun item inside => (each item inside).known

end DecodedMember

/-- A message is known if each of its members is. -/
theorem decodedMessage_of_members {found : Message} (distinct : found.names.Nodup)
    (defined : ∀ name ∈ found.names, ∃ attr ∈ set.attrs.values, attr.name = name ∧
      attr.value.toNat < Stream.typeBound)
    (each : ∀ attr ∈ set.attrs.values, ∀ value, found.get? attr.name = some value →
      DecodedMember scope attr value) : DecodedMessage scope set found := by
  have listed : ∀ member ∈ found, ∃ attr, DecodedMember scope attr member.2 := by
    intro member inside
    obtain ⟨attr, listed, named, _⟩ := defined member.1 (List.mem_map.2 ⟨member, inside, rfl⟩)
    have held := (Message.get?_eq_some_iff distinct).2 inside
    rw [← named] at held
    exact ⟨attr, each attr listed _ held⟩
  constructor
  · refine .intro (fun name inside => ?_) fun attr listed value held => ?_
    · obtain ⟨attr, listed, rfl, _⟩ := defined name inside
      exact Registry.mem_names_of_get? (AttributeSet.get?_name listed)
    · obtain ⟨other, among, same, number⟩ := defined attr.name
        ((Message.mem_names_iff distinct).2 ⟨value, held⟩)
      exact (each attr listed value held).typed (eq_of_name listed among same ▸ number)
  · refine .intro ⟨distinct, fun member inside => ?_⟩ fun value among => ?_
    · obtain ⟨attr, decoded⟩ := listed member inside
      exact decoded.occurs
    · obtain ⟨member, inside, rfl⟩ := List.mem_map.1 among
      obtain ⟨attr, decoded⟩ := listed member inside
      exact decoded.read
  · intro part inside
    obtain ⟨attr, listed, value, held, inside⟩ := Message.mem_parts_iff.1 inside
    exact (each attr listed value held).known part inside

/-- A message is decoded where the values inside are. -/
theorem messageDecodes {data : Bytes}
    (inner : ∀ payload : Bytes, payload.length < data.length → ValueDecodes scope payload) :
    MessageDecodes scope data := by
  intro set found taken
  simp only [message_eq, bind_eq_ok_iff, pure_eq_ok_iff] at taken
  obtain ⟨raws, parted, picked, chosen, values, done, rfl⟩ := taken
  obtain ⟨rfl, _⟩ := pick_eq_kept (by simp [ArraysOnce]) chosen
  rw [List.reverse_nil, List.nil_append] at done
  have split := attributes_eq_ok_iff.1 parted
  have sources : ∀ entry ∈ values, IsFirst set entry.1 ∧
      entry.1.value.toNat < Stream.typeBound ∧ Decoded scope entry.1 entry.2 := by
    intro entry member
    obtain ⟨source, among, held⟩ := mem_of_mapM done entry member
    obtain ⟨same, taken⟩ := read_eq_ok_iff.1 held
    obtain ⟨inside, defined⟩ := mem_kept among
    have number := (value_of_withNumber? (definition?_eq_some_iff.1 defined).1).1
    have fits := Stream.split_fits split source.2 inside
    have shorter := Stream.payload_lt split inside
    rw [same]
    exact ⟨isFirst_of_mem_kept among, number ▸ fits.type,
      inner source.2.payload shorter fits.length source.1 entry.2 taken⟩
  refine decodedMessage_of_members (nodup_names_collect values) (fun name member => ?_)
    fun attr listed value held => ?_
  · obtain ⟨entry, inside, rfl⟩ := exists_of_mem_names_collect member
    obtain ⟨first, number, _⟩ := sources entry inside
    exact ⟨entry.1, (value_of_withNumber? first).2, rfl, number⟩
  · have only : ∀ entry ∈ values, entry.1.name = attr.name → entry.1 = attr := by
      intro entry inside named
      exact eq_of_name listed (value_of_withNumber? (sources entry inside).1).2 named
    rw [get?_collect only] at held
    refine decodedMember_of_gathered (fun item inside => ?_) held
    obtain ⟨entry, among, rfl⟩ := List.mem_map.1 inside
    obtain ⟨inside, named⟩ := List.mem_filter.1 among
    exact only entry inside (by simpa using named) ▸ (sources entry inside).2.2

end Decoding

namespace Family

open Decoding Outcome

/-- What decoding gives is a decoded message. -/
theorem decodedMessage_of_decode {family : Family} {set : String} {data : Bytes} {found : Message}
    (decoded : family.decode .originating set data = .ok found) :
    ∃ attrs, family.attributeSet set = .ok attrs ∧
      DecodedMessage family.toScope attrs found := by
  simp only [decode, bind_eq_ok_iff, CodecError.lift_eq_ok_iff] at decoded
  obtain ⟨attrs, declared, read⟩ := decoded
  exact ⟨attrs, declared, induction_on_length (fun _ => valueDecodes) (fun _ => messageDecodes)
    data attrs found read⟩

end Family

end NetlinkFamily
