import NetlinkFamily.Message.Encoding
import NetlinkFamily.Message.Policy

/-!
Messages of streams. A first pass picks the attributes that the peer keeps, a second one reads
their payloads. The originating peer skips what it does not know. The handling peer refuses that,
and it checks every payload against the policy of its attribute.
-/

namespace NetlinkFamily

inductive Peer where
  | originating
  | handling
  deriving DecidableEq, Inhabited

/-- The attributes that one message of an operation may carry. -/
structure AllowedList where
  operation : String
  direction : Direction
  names : List String
  deriving DecidableEq, Inhabited

namespace Decoding

/-- An attribute of a stream of `length` bytes. -/
abbrev Within (length : Nat) :=
  { raw : RawAttribute // raw.payload.length < length }

/-- The attributes of a stream, in order. -/
def attributesIn (data : Bytes) : Coded (List (Within data.length)) :=
  match found : Stream.split data with
  | .error truncation => .error (.truncated truncation)
  | .ok attrs =>
      .ok (attrs.attach.map fun raw =>
        ⟨raw.val, by
          have fits := Stream.split_payload found raw.val raw.property
          simp only [Stream.headerLength] at fits
          omega⟩)

/-- The definition of an attribute in a stream, `none` to skip it. -/
def recognise (peer : Peer) (set : AttributeSet) (allowed : Option AllowedList) (type : Nat) :
    Coded (Option Attribute) :=
  match set.withNumber? type with
  | none =>
      match peer with
      | .handling => .error (.unknownType set.name type)
      | .originating => .ok none
  | some attr =>
      match allowed.filter fun list => !list.names.contains attr.name with
      | some list =>
          match peer with
          | .handling => .error (.notAllowed list.operation list.direction attr.name)
          | .originating => .ok none
      | none =>
          match attr.kind with
          | .pad | .unused => .ok none
          | _ => .ok (some attr)

/-- The attributes that are kept, with their definitions, behind those already found. An array
must not occur twice. -/
def pick {R : Type} (peer : Peer) (set : AttributeSet) (allowed : Option AllowedList)
    (typeOf : R → Nat) (found : List (Attribute × R)) : List R → Coded (List (Attribute × R))
  | [] => .ok found.reverse
  | raw :: rest => do
      match ← recognise peer set allowed (typeOf raw) with
      | none => pick peer set allowed typeOf found rest
      | some attr =>
          if attr.kind = .arrayNest ∧ found.any fun earlier => earlier.1.name == attr.name then
            throw (.alreadyPresent ⟨set.name, attr.name⟩)
          else pick peer set allowed typeOf ((attr, raw) :: found) rest

/-- The values of one attribute, in order. -/
def valuesOf (name : String) (values : List (Attribute × Value)) : List Value :=
  (values.filter fun entry => entry.1.name == name).map Prod.snd

/-- The message that holds the values. Attributes that may be repeated come first, each with all of
its values. Of any other attribute the last value counts. -/
def collect (values : List (Attribute × Value)) : Message :=
  let repeated := values.filter fun entry => entry.1.multi
  let others := values.filter fun entry => !entry.1.multi
  let names := (repeated.map fun entry => entry.1.name).eraseDups
  others.foldl (fun message entry => Entries.assign entry.1.name entry.2 message)
    (names.map fun name => (name, .multi (valuesOf name repeated)))

def readScalar (attr : Attribute) (type : ScalarType) (payload : Bytes) : Coded Value :=
  if payload.length = type.width then
    .ok (.scalar (Scalar.ofBytes attr.isBigEndian type payload))
  else .error (.badLength attr.place type.width payload.length)

/-- The policy that a peer applies to a payload. Nests are checked member by member. -/
def policyOf (scope : Scope) (peer : Peer) (attr : Attribute) : Coded (Option WirePolicy) :=
  match peer, attr.kind with
  | .handling, .scalar _ | .handling, .text | .handling, .binary =>
      CodecError.lift (attr.wirePolicy scope.constants)
  | _, _ => .ok none

/-- The result of a check on an attribute. -/
def checked {A : Type} (attr : Attribute) : Except Violation A → Coded A
  | .ok result => .ok result
  | .error found => .error (.violation attr.place found)

def readText (attr : Attribute) (policy : Option WirePolicy) (payload : Bytes) : Coded Value := do
  let content ←
    match policy with
    | some policy => checked attr (policy.checkText payload)
    | none => pure payload.untilZero
  match content.toText? with
  | some text => return .text text
  | none => throw (.invalidText attr.place)

/-- The value of an attribute that holds no other attributes. -/
def leaf (scope : Scope) (peer : Peer) (attr : Attribute) (payload : Bytes) : Coded Value := do
  let policy ← policyOf scope peer attr
  match attr.kind with
  | .scalar type =>
      let value ← readScalar attr type payload
      match policy with
      | some policy => checked attr (policy.checkScalar value)
      | none => pure ()
      return value
  | .flag =>
      if payload.isEmpty then return .flag
      else throw (.badLength attr.place 0 payload.length)
  | .text => readText attr policy payload
  | .binary =>
      match policy with
      | some policy => checked attr (policy.checkBinary payload)
      | none => pure ()
      return .binary payload
  | _ => throw attr.cannotMarshal

mutual

/-- The message in a stream of attributes of a set. -/
def message (scope : Scope) (peer : Peer) (set : AttributeSet) (allowed : Option AllowedList)
    (data : Bytes) : Coded Message := do
  let attrs ← attributesIn data
  let picked ← pick peer set allowed (fun raw => raw.val.type) [] attrs
  let values ← picked.mapM fun (attr, raw) => do
    let value ← value scope peer attr raw.val.payload
    return (attr, value)
  return collect values
termination_by 2 * data.length
decreasing_by
  have := raw.property
  omega

/-- The value of an attribute. The types of the entries of an array are not looked at. -/
def value (scope : Scope) (peer : Peer) (attr : Attribute) (payload : Bytes) : Coded Value :=
  match attr.kind with
  | .nest => do
      let set ← attr.contents scope
      let members ← message scope peer set none payload
      return .nest members
  | .arrayNest => do
      let entries ← attributesIn payload
      match attr.entryScalar? with
      | some type =>
          let scalars ← entries.mapM fun entry => readScalar attr type entry.val.payload
          return .array scalars
      | none =>
          let set ← attr.contents scope
          let nests ← entries.mapM fun entry => do
            let members ← message scope peer set none entry.val.payload
            return Value.nest members
          return .array nests
  | _ => leaf scope peer attr payload
termination_by 2 * payload.length + 1
decreasing_by
  · omega
  · have := entry.property
    omega

end

end Decoding

namespace Family

/-- The message of an attribute set in a stream. -/
def decode (family : Family) (peer : Peer) (set : String) (data : Bytes) : Coded Message := do
  let set ← CodecError.lift (family.attributeSet set)
  Decoding.message family.toScope peer set none data

/-- The message of an operation in a stream. Attributes outside of its list are skipped by the
originating peer and refused by the handling one. -/
def decodeOperation (family : Family) (peer : Peer) (operation : String) (mode : OperationMode)
    (direction : Direction) (data : Bytes) : Coded Message := do
  let names ← family.allowed operation mode direction
  let set ← CodecError.lift do
    let name ← family.setOf operation
    family.attributeSet name
  Decoding.message family.toScope peer set (some { operation, direction, names }) data

end Family

end NetlinkFamily
