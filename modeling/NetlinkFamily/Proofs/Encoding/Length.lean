import Mathlib.Algebra.GroupWithZero.Nat
import NetlinkFamily.Proofs.Encoding.Writing
import NetlinkFamily.Proofs.Message.Parts

namespace NetlinkFamily

namespace Value

variable (scope : Scope)

mutual

/-- The number of bytes between the header of an attribute and its padding. -/
def payloadLength (attr : Attribute) (found : Value) : Nat :=
  match found with
  | .scalar number => number.type.width
  | .flag => 0
  | .text content => (Bytes.ofText content).length + 1
  | .binary bytes => bytes.length
  | .nest members =>
      match attr.contents scope with
      | .ok set => (Message.gather set (spansOfMembers set members)).sum
      | .error _ => 0
  | .array entries => (spansOfEach attr entries).sum
  | .multi _ => 0
termination_by structural found

/-- The lengths of the attributes that the members of a message are written as, under their
names. -/
def spansOfMembers (set : AttributeSet) (message : Message) : List (String × List Nat) :=
  match message with
  | [] => []
  | (name, found) :: rest =>
      (name,
        match set.attrs.get? name with
        | none => []
        | some attr =>
            match found with
            | .multi items => spansOfEach attr items
            | found => [alignUp (Stream.headerLength + payloadLength attr found)]) ::
        spansOfMembers set rest
termination_by structural message

/-- The spans of all values of a list. -/
def spansOfEach (attr : Attribute) (values : List Value) : List Nat :=
  match values with
  | [] => []
  | found :: rest =>
      alignUp (Stream.headerLength + payloadLength attr found) :: spansOfEach attr rest
termination_by structural values

end

/-- The number of bytes of an attribute in a stream, its padding included. -/
def span (attr : Attribute) (found : Value) : Nat :=
  alignUp (Stream.headerLength + payloadLength scope attr found)

/-- The spans of the occurrences in a member. -/
def spans (attr : Attribute) (found : Value) : List Nat :=
  match found with
  | .multi items => items.map (span scope attr)
  | found => [span scope attr found]

/-- The spans of a list are those of its values. -/
theorem spansOfEach_eq_map (attr : Attribute) (values : List Value) :
    spansOfEach scope attr values = values.map (span scope attr) := by
  induction values with
  | nil => rfl
  | cons first rest ih => rw [spansOfEach, ih, List.map_cons, span]

/-- The spans of a message are those of its members. -/
theorem spansOfMembers_eq_map (set : AttributeSet) (message : Message) :
    spansOfMembers scope set message =
      message.map fun entry => (entry.1,
        match set.attrs.get? entry.1 with
        | some attr => spans scope attr entry.2
        | none => []) := by
  induction message with
  | nil => rfl
  | cons first rest ih =>
      obtain ⟨name, found⟩ := first
      rw [spansOfMembers, ih, List.map_cons]
      cases set.attrs.get? name with
      | none => rfl
      | some attr => cases found <;> simp [spans, span, spansOfEach_eq_map]

end Value

namespace Message

/-- The number of bytes in the stream of a message. -/
def streamLength (scope : Scope) (set : AttributeSet) (message : Message) : Nat :=
  (gather set (Value.spansOfMembers scope set message)).sum

/-- A stream is as long as the occurrences of attributes in it. -/
theorem streamLength_eq {scope : Scope} {set : AttributeSet} {message : Message}
    (fits : message.Fits set) :
    message.streamLength scope set =
      ((message.occurrences set).map fun entry => entry.2.span scope entry.1).sum := by
  rw [streamLength, gather, occurrences, List.map_flatMap]
  refine congrArg List.sum (List.flatMap_congr fun attr listed => ?_)
  have looked := Entries.lookup_map (fun name found =>
    match set.attrs.get? name with
    | some attr => Value.spans scope attr found
    | none => []) message attr.name
  rw [Value.spansOfMembers_eq_map, looked, AttributeSet.get?_name listed, occurrencesOf, ← get?]
  cases held : message.get? attr.name with
  | none => rfl
  | some value =>
      have repeated := fits attr listed value held
      cases value <;> simp_all [Value.spans, Value.items, Function.comp_def]

end Message

namespace Value

variable {scope : Scope} {attr : Attribute}

/-- The payload of a nest is the stream of its members. -/
theorem payloadLength_nest {set : AttributeSet} (inner : attr.contents scope = .ok set)
    (members : Message) :
    (Value.nest members).payloadLength scope attr = members.streamLength scope set := by
  rw [payloadLength, inner, Message.streamLength]

/-- The payload of an array spans its entries. -/
theorem payloadLength_array (entries : List Value) :
    (Value.array entries).payloadLength scope attr = (entries.map (span scope attr)).sum := by
  rw [payloadLength, spansOfEach_eq_map]

end Value

namespace Encoding

open Outcome

variable {scope : Scope} {set : AttributeSet} {attr : Attribute}

/-- A frame is as long as its header and payload, aligned. -/
theorem length_of_framed {type : UInt16} {payload stream : Bytes}
    (done : framed attr type payload = .ok stream) :
    stream.length = alignUp (Stream.headerLength + payload.length) := by
  obtain ⟨_, rfl⟩ := framed_eq_ok_iff.1 done
  exact Stream.length_frame type payload

/-- The frame of a nest is as long as its header and payload, aligned. -/
theorem length_of_nested {type : UInt16} {inner stream : Bytes}
    (done : nested attr type inner = .ok stream) :
    stream.length = alignUp (Stream.headerLength + inner.length) := by
  obtain ⟨_, rfl⟩ := nested_eq_ok_iff.1 done
  exact Stream.length_frame (type ||| Stream.nestedFlag) inner

/-- Streams one behind the other are as long as all of them. -/
theorem length_flatten_of_forall₂ {A : Type} {span : A → Nat} {list : List A}
    {streams : List Bytes}
    (each : List.Forall₂ (fun a stream => stream.length = span a) list streams) :
    streams.flatten.length = (list.map span).sum := by
  induction each with
  | nil => rfl
  | cons here _ ih => simp [here, ih]

/-- What is written for a value, or for an entry of an array, is as long as its span. -/
structure HasSpan (scope : Scope) (value : Value) : Prop where
  single : ∀ attr type stream, single scope attr type value = .ok stream →
    stream.length = value.span scope attr
  entry : ∀ attr type stream, entry scope attr type value = .ok stream →
    stream.length = value.span scope attr

/-- A message is as long as its members. -/
theorem length_of_message {members : Message}
    (each : ∀ entry ∈ members.occurrences set, HasSpan scope entry.2) {data : Bytes}
    (done : message scope set members = .ok data) :
    data.length = members.streamLength scope set := by
  obtain ⟨fits, streams, rfl, written⟩ := streams_of_message done
  rw [Message.streamLength_eq fits]
  refine length_flatten_of_forall₂
    ((forall₂_mem (mapM_eq_ok_iff.1 written)).imp fun entry stream both => ?_)
  obtain ⟨type, _, one⟩ := bind_eq_ok_iff.1 both.2
  exact (each entry both.1).single entry.1 type stream one

/-- An array is as long as its entries. -/
theorem length_of_entries {entries : List Value} (each : ∀ entry ∈ entries, HasSpan scope entry)
    {data : Bytes} (done : eachEntry scope attr 0 entries [] = .ok data) :
    data.length = (entries.map (Value.span scope attr)).sum := by
  obtain ⟨streams, rfl, written⟩ := streams_of_eachEntry done
  refine length_flatten_of_forall₂ ((forall₂_mem written).imp fun entry stream both => ?_)
  obtain ⟨member, type, one⟩ := both
  exact (each entry member).entry attr type stream one

/-- Of the entries of an array only scalars and nests are written. -/
theorem length_of_entry {value : Value}
    (inner : ∀ members : Message, value = .nest members → ∀ set data,
      message scope set members = .ok data → data.length = members.streamLength scope set)
    {type : UInt16} {stream : Bytes} (done : Encoding.entry scope attr type value = .ok stream) :
    stream.length = value.span scope attr := by
  cases scalars : attr.entryScalar? with
  | some expected =>
      obtain ⟨number, rfl, _, done⟩ := (scalar_entry_eq_ok_iff scalars).1 done
      rw [length_of_framed done, Scalar.length_toBytes, Value.span, Value.payloadLength]
  | none =>
      obtain ⟨members, set, data, rfl, known, inside, done⟩ :=
        (nested_entry_eq_ok_iff scalars).1 done
      rw [length_of_nested done, inner members rfl set data inside, Value.span,
        Value.payloadLength_nest known]

/-- The payload of a value that holds no attributes. -/
def leafPayload? (attr : Attribute) : Value → Option Bytes
  | .scalar number => some (number.toBytes attr.isBigEndian)
  | .flag => some []
  | .text content => some (Bytes.ofText content ++ [0])
  | .binary bytes => some bytes
  | .nest _ | .array _ | .multi _ => none

/-- A leaf that is written is the frame of its payload. -/
theorem framed_of_leaf {value : Value} {payload : Bytes}
    (leaf : leafPayload? attr value = some payload) {type : UInt16} {stream : Bytes}
    (written : Written scope attr type value stream) : framed attr type payload = .ok stream := by
  cases written with
  | scalar _ done => exact Option.some.inj leaf ▸ done
  | flag _ done => exact Option.some.inj leaf ▸ done
  | text _ done => exact Option.some.inj leaf ▸ done
  | binary _ done => exact Option.some.inj leaf ▸ done
  | nest => cases leaf
  | array => cases leaf

/-- The payload of a leaf has the length given for it. -/
theorem length_of_leaf {value : Value} {payload : Bytes}
    (leaf : leafPayload? attr value = some payload) :
    payload.length = value.payloadLength scope attr := by
  cases value <;> cases leaf <;> simp [Value.payloadLength]

/-- A leaf has its span. -/
theorem hasSpan_leaf {value : Value}
    (leaf : ∀ attr, ∃ payload, leafPayload? attr value = some payload) : HasSpan scope value := by
  refine ⟨fun attr type stream done => ?_, fun attr _ _ => length_of_entry fun members same => ?_⟩
  · obtain ⟨payload, known⟩ := leaf attr
    rw [length_of_framed (framed_of_leaf known (written_of_single done)), length_of_leaf known,
      Value.span]
  · obtain ⟨_, known⟩ := leaf attr
    rw [same] at known
    cases known

/-- By induction on the value. -/
theorem hasSpan (scope : Scope) (value : Value) : HasSpan scope value := by
  induction value using Value.induction with
  | scalar number => exact hasSpan_leaf fun _ => ⟨_, rfl⟩
  | flag => exact hasSpan_leaf fun _ => ⟨_, rfl⟩
  | text content => exact hasSpan_leaf fun _ => ⟨_, rfl⟩
  | binary bytes => exact hasSpan_leaf fun _ => ⟨_, rfl⟩
  | nest members ih =>
      have inside : ∀ set data, message scope set members = .ok data →
          data.length = members.streamLength scope set := by
        intro set data done
        refine length_of_message (fun entry member => ?_) done
        obtain ⟨source, listed, _, among⟩ := Message.member_of_mem_occurrences entry member
        exact ih source listed entry.2 among
      refine ⟨fun attr type stream done => ?_, fun _ _ _ => length_of_entry ?_⟩
      · cases written_of_single done with
        | nest kind known written done =>
            rw [length_of_nested done, inside _ _ written, Value.span,
              Value.payloadLength_nest known]
      · intro _ same
        cases same
        exact inside
  | array entries ih =>
      refine ⟨fun attr type stream done => ?_, fun _ _ _ => length_of_entry (by simp)⟩
      cases written_of_single done with
      | array kind written done =>
          rw [length_of_nested done, length_of_entries ih written, Value.span,
            Value.payloadLength_array]
  | multi items _ =>
      exact ⟨fun attr type stream done => absurd done single_multi_ne_ok,
        fun _ _ _ => length_of_entry (by simp)⟩

end Encoding

end NetlinkFamily
