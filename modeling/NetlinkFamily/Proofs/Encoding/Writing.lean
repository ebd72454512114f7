import NetlinkFamily.Proofs.Message.Occurrences
import NetlinkFamily.Proofs.Outcome
import NetlinkFamily.Proofs.Wire.Frames

namespace NetlinkFamily.Encoding

open Outcome

variable {scope : Scope} {set : AttributeSet} {attr : Attribute}

/-- The stream of the member of an attribute. -/
def ofMember (scope : Scope) (attr : Attribute) (value : Value) : Coded Bytes := do
  let type ← attr.headerType attr.value.toNat
  if attr.multi then
    match value with
    | .multi items => eachItem scope attr type items []
    | _ => throw (mismatch attr "multi-attr" value)
  else single scope attr type value

/-- A type is written into a header as it is, and leaves room for the flags. -/
theorem toNat_headerType {number : Nat} {type : UInt16}
    (fits : attr.headerType number = .ok type) :
    type.toNat = number ∧ number < Stream.typeBound := by
  unfold Attribute.headerType at fits
  split at fits
  · rename_i small
    have word : number < 2 ^ 16 := Nat.lt_trans small (by decide)
    refine ⟨?_, small⟩
    rw [← Except.ok.inj fits, UInt16.toNat_ofNat', Nat.mod_eq_of_lt word]
  · cases fits

/-- A type that fits is the number it is made of. -/
theorem headerType_eq_ok {number : Nat} {type : UInt16}
    (fits : attr.headerType number = .ok type) : type.toNat % Stream.typeBound = number := by
  obtain ⟨rfl, small⟩ := toNat_headerType fits
  exact Nat.mod_eq_of_lt small

/-- A type fits a header if it leaves room for the flags. -/
theorem exists_headerType_iff {number : Nat} :
    (∃ type, attr.headerType number = .ok type) ↔ number < Stream.typeBound := by
  unfold Attribute.headerType
  split <;> simp_all

/-- A payload with room for the header is framed by it. -/
theorem framed_eq_ok_iff {type : UInt16} {payload stream : Bytes} :
    framed attr type payload = .ok stream ↔
      Stream.headerLength + payload.length ≤ Stream.maxLength ∧
        stream = Stream.frame type payload := by
  unfold framed
  rw [Stream.put?_nil]
  by_cases fits : Stream.headerLength + payload.length ≤ Stream.maxLength
  · simp [fits, eq_comm]
  · simp [fits]

/-- A nest with room for the header is framed with the flag for nests. -/
theorem nested_eq_ok_iff {type : UInt16} {inner stream : Bytes} :
    nested attr type inner = .ok stream ↔
      Stream.headerLength + inner.length ≤ Stream.maxLength ∧
        stream = Stream.frame (type ||| Stream.nestedFlag) inner := by
  unfold nested
  dsimp only
  rw [Stream.closeNest?_openNest]
  by_cases fits : Stream.headerLength + inner.length ≤ Stream.maxLength
  · simp [fits, eq_comm]
  · simp [fits]

/-- A frame carries its payload under its type. -/
theorem carries_of_framed {type : UInt16} {payload stream : Bytes}
    (done : framed attr type payload = .ok stream) :
    Stream.Carries stream (type.toNat % Stream.typeBound) payload := by
  obtain ⟨fits, rfl⟩ := framed_eq_ok_iff.1 done
  exact ⟨_, Stream.Holds.frame fits, rfl, rfl⟩

/-- The frame of a nest carries its payload under its type. -/
theorem carries_of_nested {type : UInt16} {inner stream : Bytes}
    (done : nested attr type inner = .ok stream) :
    Stream.Carries stream (type.toNat % Stream.typeBound) inner := by
  obtain ⟨fits, rfl⟩ := nested_eq_ok_iff.1 done
  refine ⟨_, Stream.Holds.frame fits, ?_, ?_⟩ <;> rw [Stream.rawOf_nested]

/-- The members of a message are written one by one. -/
theorem eachMember_eq_map (message : Message) :
    eachMember scope set message =
      message.map fun entry => (entry.1,
        match set.attrs.get? entry.1 with
        | some attr => ofMember scope attr entry.2
        | none => .ok []) := by
  induction message with
  | nil => rfl
  | cons first rest ih =>
      rw [eachMember, ih, List.map_cons]
      cases set.attrs.get? first.1 <;> rfl

/-- A member is found under the name of its attribute. -/
theorem lookup_eachMember (message : Message) (listed : attr ∈ set.attrs.values) :
    (eachMember scope set message).lookup attr.name =
      (message.get? attr.name).map (ofMember scope attr) := by
  have looked := Entries.lookup_map (fun name value =>
    match set.attrs.get? name with
    | some attr => ofMember scope attr value
    | none => .ok []) message attr.name
  rw [eachMember_eq_map, looked, AttributeSet.get?_name listed, Message.get?]

/-- Items are written one behind the other. -/
theorem eachItem_eq_ok_iff {type : UInt16} {items : List Value} {written : List Bytes}
    {data : Bytes} :
    eachItem scope attr type items written = .ok data ↔
      ∃ streams, items.mapM (single scope attr type) = .ok streams ∧
        data = (written.reverse ++ streams).flatten := by
  induction items generalizing written with
  | nil =>
      simp only [eachItem, Except.ok.injEq, List.mapM_nil, pure_eq_ok_iff, exists_eq_left',
        List.append_nil]
      exact eq_comm
  | cons item rest ih =>
      simp only [eachItem, bind_eq_ok_iff, ih, List.mapM_cons, pure_eq_ok_iff]
      constructor
      · rintro ⟨stream, here, streams, later, rfl⟩
        exact ⟨stream :: streams, ⟨stream, here, streams, later, rfl⟩, by simp⟩
      · rintro ⟨_, ⟨stream, here, streams, later, rfl⟩, rfl⟩
        exact ⟨stream, here, streams, later, by simp⟩

/-- A nested message is written as the stream of its set. -/
theorem nestedMessage_eq (type : UInt16) (members : Message) :
    (nestedMessage scope attr type members fun set => eachMember scope set members) = (do
      let set ← attr.contents scope
      let inner ← message scope set members
      nested attr type inner) := by
  unfold nestedMessage message
  simp only [bind_assoc]

/-- The payload of a scalar is its bytes, where it has the type expected. -/
theorem scalarPayload_eq_ok_iff {expected : ScalarType} {value : Value} {payload : Bytes} :
    scalarPayload attr expected value = .ok payload ↔
      ∃ number, value = .scalar number ∧ number.type = expected ∧
        payload = number.toBytes attr.isBigEndian := by
  unfold scalarPayload
  cases value with
  | scalar number =>
      dsimp only
      split
      · rename_i same
        simp [same, eq_comm]
      · rename_i differs
        simp [differs]
  | _ => simp

/-- What the encoder writes for an attribute with one value, by the kind of the attribute. -/
inductive Written (scope : Scope) (attr : Attribute) (type : UInt16) : Value → Bytes → Prop where
  | scalar {number : Scalar} {stream : Bytes} (kind : attr.kind = .scalar number.type)
      (done : framed attr type (number.toBytes attr.isBigEndian) = .ok stream) :
      Written scope attr type (.scalar number) stream
  | flag {stream : Bytes} (kind : attr.kind = .flag) (done : framed attr type [] = .ok stream) :
      Written scope attr type .flag stream
  | text {content : String} {stream : Bytes} (kind : attr.kind = .text)
      (done : framed attr type (Bytes.ofText content ++ [0]) = .ok stream) :
      Written scope attr type (.text content) stream
  | binary {bytes stream : Bytes} (kind : attr.kind = .binary)
      (done : framed attr type bytes = .ok stream) :
      Written scope attr type (.binary bytes) stream
  | nest {members : Message} {set : AttributeSet} {inner stream : Bytes} (kind : attr.kind = .nest)
      (known : attr.contents scope = .ok set) (inside : message scope set members = .ok inner)
      (done : nested attr type inner = .ok stream) :
      Written scope attr type (.nest members) stream
  | array {entries : List Value} {inner stream : Bytes} (kind : attr.kind = .arrayNest)
      (inside : eachEntry scope attr 0 entries [] = .ok inner)
      (done : nested attr type inner = .ok stream) :
      Written scope attr type (.array entries) stream

/-- What is written as a single value is written. -/
theorem written_of_single {type : UInt16} {value : Value} {stream : Bytes}
    (done : single scope attr type value = .ok stream) : Written scope attr type value stream := by
  unfold single at done
  split at done
  case h_1 expected kind =>
    rw [bind_eq_ok_iff] at done
    obtain ⟨payload, found, done⟩ := done
    obtain ⟨number, rfl, rfl, rfl⟩ := scalarPayload_eq_ok_iff.1 found
    exact .scalar kind done
  case h_2 kind => exact .flag kind done
  case h_3 content kind => exact .text kind done
  case h_4 bytes kind => exact .binary kind done
  case h_5 members kind =>
    rw [nestedMessage_eq] at done
    simp only [bind_eq_ok_iff] at done
    obtain ⟨set, known, inner, inside, done⟩ := done
    exact .nest kind known inside done
  case h_6 entries kind =>
    rw [bind_eq_ok_iff] at done
    obtain ⟨inner, inside, done⟩ := done
    exact .array kind inside done
  all_goals cases done

/-- The kinds of attributes and values that go together are exactly those that are written. -/
theorem single_eq_ok_iff {type : UInt16} {value : Value} {stream : Bytes} :
    single scope attr type value = .ok stream ↔ Written scope attr type value stream := by
  refine ⟨written_of_single, fun written => ?_⟩
  unfold single
  cases written with
  | scalar kind done => simpa [kind, scalarPayload, bind, Except.bind] using done
  | flag kind done => simpa [kind] using done
  | text kind done => simpa [kind] using done
  | binary kind done => simpa [kind] using done
  | nest kind known inside done =>
      simp only [kind, nestedMessage_eq, bind_eq_ok_iff]
      exact ⟨_, known, _, inside, done⟩
  | array kind inside done =>
      simp only [kind, bind_eq_ok_iff]
      exact ⟨_, inside, done⟩

/-- Attributes that carry nothing are never written. -/
theorem Written.kind_ne {type : UInt16} {value : Value} {stream : Bytes}
    (written : Written scope attr type value stream) :
    attr.kind ≠ .pad ∧ attr.kind ≠ .unused := by
  cases written <;> simp_all

/-- No attribute has a list of occurrences where one occurrence is asked for. -/
theorem single_multi_ne_ok {type : UInt16} {items : List Value} {stream : Bytes} :
    single scope attr type (.multi items) ≠ .ok stream := by
  intro done
  cases written_of_single done

/-- A member is a list of values that are written one by one, or a single value. -/
theorem ofMember_eq_ok_iff {found : Value} {row : Bytes} :
    ofMember scope attr found = .ok row ↔
      ∃ type, attr.headerType attr.value.toNat = .ok type ∧
        ((attr.multi = true ∧ ∃ items streams, found = .multi items ∧
            items.mapM (single scope attr type) = .ok streams ∧ row = streams.flatten) ∨
          (attr.multi = false ∧ single scope attr type found = .ok row)) := by
  rw [ofMember, bind_eq_ok_iff]
  refine exists_congr fun type => and_congr_right fun _ => ?_
  cases attr.multi with
  | false => simp
  | true =>
      cases found with
      | multi items => simp [eachItem_eq_ok_iff]
      | _ => simp

/-- The stream of one occurrence of an attribute. -/
def occurrence (scope : Scope) (entry : Attribute × Value) : Coded Bytes := do
  let type ← entry.1.headerType entry.1.value.toNat
  single scope entry.1 type entry.2

/-- A member is written occurrence by occurrence, and it is a list of them where it may be. -/
theorem streams_of_ofMember {value : Value} {data : Bytes}
    (done : ofMember scope attr value = .ok data) :
    (attr.multi = true ↔ value = .multi value.items) ∧
      ∃ streams, data = streams.flatten ∧
        (if attr.multi then value.items.map fun item => (attr, item) else [(attr, value)]).mapM
          (occurrence scope) = .ok streams := by
  obtain ⟨type, fits, done⟩ := ofMember_eq_ok_iff.1 done
  have each (item : Value) : occurrence scope (attr, item) = single scope attr type item := by
    rw [occurrence, fits]
    rfl
  obtain ⟨repeated, items, streams, rfl, written, rfl⟩ | ⟨single, done⟩ := done
  · refine ⟨by simp [repeated, Value.items], streams, rfl, ?_⟩
    rw [if_pos repeated]
    simpa [List.mapM_map, Value.items, Function.comp_def, each] using written
  · have whole : value ≠ .multi value.items := by
      intro same
      rw [same] at done
      exact single_multi_ne_ok done
    refine ⟨by simp [single, whole], [data], by simp, ?_⟩
    simp [single, each, done, pure, Except.pure, bind, Except.bind]

/-- What holds of the members of some attributes, one by one. -/
theorem streams_of_rows {members : Message} {attrs : List Attribute} {rows : List Bytes}
    (listed : ∀ attr ∈ attrs, attr ∈ set.attrs.values)
    (written : List.Forall₂
      (fun attr row => ((eachMember scope set members).lookup attr.name).getD (.ok []) = .ok row)
      attrs rows) :
    (∀ attr ∈ attrs, ∀ value, members.get? attr.name = some value →
      (attr.multi = true ↔ value = .multi value.items)) ∧
      ∃ streams, rows.flatten = streams.flatten ∧
        (attrs.flatMap members.occurrencesOf).mapM (occurrence scope) = .ok streams := by
  induction written with
  | nil => exact ⟨by simp, [], rfl, rfl⟩
  | @cons attr row attrs rows here _ ih =>
      obtain ⟨inSet, others⟩ := List.forall_mem_cons.1 listed
      obtain ⟨fits, streams, flat, later⟩ := ih others
      rw [lookup_eachMember members inSet] at here
      simp only [List.flatMap_cons, List.flatten_cons, List.mapM_append, bind_eq_ok_iff,
        pure_eq_ok_iff, List.forall_mem_cons]
      cases held : members.get? attr.name with
      | none =>
          rw [held] at here
          refine ⟨⟨by simp, fits⟩, streams, ?_, [], ?_, streams, later, rfl⟩
          · rw [← Except.ok.inj here, flat, List.nil_append]
          · rw [Message.occurrencesOf, held]
            rfl
      | some value =>
          rw [held] at here
          obtain ⟨list, own, rfl, done⟩ := streams_of_ofMember here
          refine ⟨⟨fun found same => Option.some.inj same ▸ list, fits⟩, own ++ streams, ?_, own, ?_,
            streams, later, rfl⟩
          · rw [flat, List.flatten_append]
          · rw [Message.occurrencesOf, held]
            exact done

/-- A message is written occurrence by occurrence, in the order of its set. -/
theorem streams_of_message {members : Message} {data : Bytes}
    (done : message scope set members = .ok data) :
    members.Fits set ∧ ∃ streams, data = streams.flatten ∧
      (members.occurrences set).mapM (occurrence scope) = .ok streams := by
  simp only [message, assemble, bind_eq_ok_iff, map_eq_ok_iff] at done
  obtain ⟨_, _, rows, written, rfl⟩ := done
  exact streams_of_rows (fun attr listed => listed) (mapM_eq_ok_iff.1 written)

/-- Whatever is written for one value is an attribute of the given type. -/
theorem carries_of_single {type : UInt16} {value : Value} {stream : Bytes}
    (done : single scope attr type value = .ok stream) :
    ∃ payload, Stream.Carries stream (type.toNat % Stream.typeBound) payload := by
  cases written_of_single done with
  | scalar _ done | flag _ done | text _ done | binary _ done =>
      exact ⟨_, carries_of_framed done⟩
  | nest _ _ _ done | array _ _ done => exact ⟨_, carries_of_nested done⟩

/-- The stream of a message holds one attribute for each occurrence, in order. What is known of
the payloads of single streams is known of theirs. -/
theorem raws_of_message {R : Attribute × Value → Bytes → Prop} {members : Message}
    (each : ∀ entry ∈ members.occurrences set, ∀ type stream,
      single scope entry.1 type entry.2 = .ok stream →
        ∃ payload, Stream.Carries stream (type.toNat % Stream.typeBound) payload ∧
          R entry payload)
    {data : Bytes} (done : message scope set members = .ok data) :
    ∃ raws, Stream.split data = .ok raws ∧
      List.Forall₂ (fun entry (raw : RawAttribute) => raw.type = entry.1.value.toNat ∧
        (entry.1.kind ≠ .pad ∧ entry.1.kind ≠ .unused) ∧ R entry raw.payload)
        (members.occurrences set) raws := by
  obtain ⟨_, streams, rfl, written⟩ := streams_of_message done
  have carried : List.Forall₂ (fun entry stream => ∃ raw : RawAttribute,
      (raw.type = entry.1.value.toNat ∧ (entry.1.kind ≠ .pad ∧ entry.1.kind ≠ .unused) ∧
        R entry raw.payload) ∧ Stream.Holds stream [raw])
      (members.occurrences set) streams := by
    refine (forall₂_mem (mapM_eq_ok_iff.1 written)).imp fun entry stream both => ?_
    obtain ⟨type, fits, one⟩ := bind_eq_ok_iff.1 both.2
    obtain ⟨payload, ⟨raw, holds, number, rfl⟩, known⟩ := each entry both.1 _ _ one
    exact ⟨raw, ⟨number.trans (headerType_eq_ok fits), (written_of_single one).kind_ne, known⟩,
      holds⟩
  obtain ⟨raws, read, held⟩ := exists_forall₂_between carried
  exact ⟨raws, (Stream.Holds.flatten_single held).split, read⟩

/-- The stream of one entry of an array. -/
def entry (scope : Scope) (attr : Attribute) (type : UInt16) (value : Value) : Coded Bytes :=
  match attr.entryScalar?, value with
  | some expected, value => do
      let payload ← scalarPayload attr expected value
      framed attr type payload
  | none, .nest members =>
      nestedMessage scope attr type members fun set => eachMember scope set members
  | none, value => .error (mismatch attr "nest" value)

/-- An entry of a scalar array is the frame of its bytes. -/
theorem scalar_entry_eq_ok_iff {expected : ScalarType} (scalars : attr.entryScalar? = some expected)
    {type : UInt16} {value : Value} {stream : Bytes} :
    entry scope attr type value = .ok stream ↔
      ∃ number, value = .scalar number ∧ number.type = expected ∧
        framed attr type (number.toBytes attr.isBigEndian) = .ok stream := by
  simp only [entry, scalars, bind_eq_ok_iff, scalarPayload_eq_ok_iff]
  constructor
  · rintro ⟨_, ⟨number, rfl, same, rfl⟩, done⟩
    exact ⟨number, rfl, same, done⟩
  · rintro ⟨number, rfl, same, done⟩
    exact ⟨_, ⟨number, rfl, same, rfl⟩, done⟩

/-- An entry of an array of nests is the frame of its members. -/
theorem nested_entry_eq_ok_iff (nests : attr.entryScalar? = none) {type : UInt16} {value : Value}
    {stream : Bytes} :
    entry scope attr type value = .ok stream ↔
      ∃ members set inner, value = .nest members ∧ attr.contents scope = .ok set ∧
        message scope set members = .ok inner ∧ nested attr type inner = .ok stream := by
  unfold entry
  rw [nests]
  cases value with
  | nest members =>
      simp only [nestedMessage_eq, bind_eq_ok_iff, Value.nest.injEq]
      constructor
      · rintro ⟨set, known, inner, inside, done⟩
        exact ⟨members, set, inner, rfl, known, inside, done⟩
      · rintro ⟨_, set, inner, rfl, known, inside, done⟩
        exact ⟨set, known, inner, inside, done⟩
  | _ => simp

/-- A scalar entry of an array is an attribute around the scalar. -/
theorem carries_of_scalar_entry {expected : ScalarType}
    (scalars : attr.entryScalar? = some expected)
    {type : UInt16} {value : Value} {stream : Bytes}
    (done : entry scope attr type value = .ok stream) :
    ∃ number, value = .scalar number ∧ number.type = expected ∧
      Stream.Carries stream (type.toNat % Stream.typeBound) (number.toBytes attr.isBigEndian) := by
  obtain ⟨number, rfl, same, done⟩ := (scalar_entry_eq_ok_iff scalars).1 done
  exact ⟨number, rfl, same, carries_of_framed done⟩

/-- A nested entry of an array is an attribute around a message. -/
theorem carries_of_nested_entry (nests : attr.entryScalar? = none) {type : UInt16} {value : Value}
    {stream : Bytes} (done : entry scope attr type value = .ok stream) :
    ∃ members set inner, value = .nest members ∧ attr.contents scope = .ok set ∧
      message scope set members = .ok inner ∧
      Stream.Carries stream (type.toNat % Stream.typeBound) inner := by
  obtain ⟨members, set, inner, rfl, known, inside, done⟩ := (nested_entry_eq_ok_iff nests).1 done
  exact ⟨members, set, inner, rfl, known, inside, carries_of_nested done⟩

/-- Entries are written in order, under indexes that count up. -/
theorem eachEntry_cons (index : Nat) (value : Value) (rest : List Value) (written : List Bytes) :
    eachEntry scope attr index (value :: rest) written = (do
      let type ← attr.headerType index
      let stream ← entry scope attr type value
      eachEntry scope attr (index + 1) rest (stream :: written)) := by
  rw [eachEntry]
  congr 1
  funext type
  unfold entry
  cases attr.entryScalar? with
  | some expected => exact (bind_assoc _ _ _).symm
  | none => cases value <;> rfl

/-- The entries of an array are written one by one. Their types are of no further use. -/
theorem streams_of_eachEntry {index : Nat} {entries : List Value} {written : List Bytes}
    {data : Bytes} (done : eachEntry scope attr index entries written = .ok data) :
    ∃ streams, data = (written.reverse ++ streams).flatten ∧
      List.Forall₂ (fun value stream => ∃ type, entry scope attr type value = .ok stream)
        entries streams := by
  induction entries generalizing index written with
  | nil =>
      simp only [eachEntry, Except.ok.injEq] at done
      exact ⟨[], by simp [done], .nil⟩
  | cons value rest ih =>
      simp only [eachEntry_cons, bind_eq_ok_iff] at done
      obtain ⟨type, _, stream, here, done⟩ := done
      obtain ⟨streams, rfl, later⟩ := ih done
      exact ⟨stream :: streams, by simp, .cons ⟨type, here⟩ later⟩

end NetlinkFamily.Encoding

namespace NetlinkFamily.Family

open Outcome

/-- Encoding looks the set up and writes the message. -/
theorem encode_eq_ok_iff {family : Family} {set : String} {message : Message} {data : Bytes} :
    family.encode set message = .ok data ↔
      ∃ attrs, family.attributeSet set = .ok attrs ∧
        Encoding.message family.toScope attrs message = .ok data := by
  simp only [encode, bind_eq_ok_iff, CodecError.lift_eq_ok_iff]

end NetlinkFamily.Family
