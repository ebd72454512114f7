import NetlinkFamily.Message.Error
import NetlinkFamily.Message.Value
import NetlinkFamily.Model.Family

/-!
Streams of messages. The members of a message go out in the order in which the attribute set
declares them, whatever the order of their assignment.
-/

namespace NetlinkFamily

abbrev Coded := Except CodecError

namespace Attribute

def place (attr : Attribute) : Place :=
  ⟨attr.setName, attr.name⟩

def isBigEndian (attr : Attribute) : Bool :=
  attr.byteOrder == some "big-endian"

/-- A type or index as it stands in a header, where flags take the highest bits. -/
def headerType (attr : Attribute) (type : Nat) : Coded UInt16 :=
  if type < Stream.typeBound then .ok (UInt16.ofNat type)
  else .error (.typeOutOfRange attr.place type)

/-- The attributes of the set inside an attribute. -/
def contents (attr : Attribute) (scope : Scope) : Coded AttributeSet :=
  CodecError.lift do
    let nested ← attr.nestedSet
    scope.attributeSet nested.set

/-- The set inside an attribute is the declared set that the attribute names. -/
theorem contents_eq_ok_iff {attr : Attribute} {scope : Scope} {set : AttributeSet} :
    attr.contents scope = .ok set ↔
      ∃ name, attr.nestedSet? = some name ∧ scope.sets.get? name = some set := by
  unfold contents nestedSet nestedSet?
  cases attr.nested with
  | none => simp [bind, Except.bind]
  | some nested => simp [bind, Except.bind]

theorem mem_sets_of_contents {attr : Attribute} {scope : Scope} {set : AttributeSet}
    (inner : attr.contents scope = .ok set) : set ∈ scope.sets.values := by
  obtain ⟨name, _, declared⟩ := contents_eq_ok_iff.1 inner
  exact Registry.mem_values_of_get? declared

def cannotMarshal (attr : Attribute) : CodecError :=
  .unsupported attr.kind.name attr.place

end Attribute

namespace Encoding

def mismatch (attr : Attribute) (expected : String) (value : Value) : CodecError :=
  .typeMismatch attr.place expected value.kindName

/-- An attribute with its header and its padding. -/
def framed (attr : Attribute) (type : UInt16) (payload : Bytes) : Coded Bytes :=
  match Stream.put? [] type payload with
  | some stream => .ok stream
  | none => .error (.tooLong attr.place payload.length)

/-- A nest around the stream of its contents. -/
def nested (attr : Attribute) (type : UInt16) (inner : Bytes) : Coded Bytes :=
  let opened := Stream.openNest [] type ++ inner
  match Stream.closeNest? opened 0 with
  | some stream => .ok stream
  | none => .error (.tooLong attr.place opened.length)

/-- The payload of a scalar, which must be of the type that is asked for. -/
def scalarPayload (attr : Attribute) (type : ScalarType) (value : Value) : Coded Bytes :=
  match value with
  | .scalar found =>
      if found.type = type then .ok (found.toBytes attr.isBigEndian)
      else .error (mismatch attr type.name value)
  | _ => .error (mismatch attr type.name value)

/-- Every member of a message must be an attribute of the set. -/
def checkMembers (set : AttributeSet) (message : Message) : Coded Unit :=
  match message.names.find? fun name => !set.attrs.contains name with
  | some name => .error (.unknownAttribute ⟨set.name, name⟩)
  | none => .ok ()

/-- The streams of the members one behind the other, in the order of declaration. -/
def assemble (set : AttributeSet) (streams : List (String × Coded Bytes)) : Coded Bytes :=
  (set.attrs.values.mapM fun attr => (streams.lookup attr.name).getD (.ok [])).map List.flatten

/-- A nest around a message, whose members have the given streams. -/
def nestedMessage (scope : Scope) (attr : Attribute) (type : UInt16) (message : Message)
    (streams : AttributeSet → List (String × Coded Bytes)) : Coded Bytes := do
  let set ← attr.contents scope
  checkMembers set message
  let inner ← assemble set (streams set)
  nested attr type inner

mutual

/-- The stream of an attribute with one value. -/
def single (scope : Scope) (attr : Attribute) (type : UInt16) (value : Value) : Coded Bytes :=
  match attr.kind, value with
  | .scalar expected, value => do
      let payload ← scalarPayload attr expected value
      framed attr type payload
  | .flag, .flag => framed attr type []
  | .text, .text content => framed attr type (Bytes.ofText content ++ [0])
  | .binary, .binary bytes => framed attr type bytes
  | .nest, .nest members =>
      nestedMessage scope attr type members fun set => eachMember scope set members
  | .arrayNest, .array entries => do
      let inner ← eachEntry scope attr 0 entries []
      nested attr type inner
  | .pad, _ | .unused, _ | .nestTypeValue, _ => .error attr.cannotMarshal
  | kind, value => .error (mismatch attr kind.name value)
termination_by structural value

/-- The streams of the members that are attributes of the set, under their names. -/
def eachMember (scope : Scope) (set : AttributeSet) (message : Message) :
    List (String × Coded Bytes) :=
  match message with
  | [] => []
  | (name, value) :: rest =>
      let stream : Coded Bytes :=
        match set.attrs.get? name with
        | none => .ok []
        | some attr => do
            let type ← attr.headerType attr.value.toNat
            if attr.multi then
              match value with
              | .multi items => eachItem scope attr type items []
              | _ => throw (mismatch attr "multi-attr" value)
            else single scope attr type value
      (name, stream) :: eachMember scope set rest
termination_by structural message

/-- The streams of repeated values one behind the other, behind those already written. -/
def eachItem (scope : Scope) (attr : Attribute) (type : UInt16) (items : List Value)
    (written : List Bytes) : Coded Bytes :=
  match items with
  | [] => .ok written.reverse.flatten
  | item :: rest => do
      let stream ← single scope attr type item
      eachItem scope attr type rest (stream :: written)
termination_by structural items

/-- The streams of the entries of an array, whose types count up from `index`. -/
def eachEntry (scope : Scope) (attr : Attribute) (index : Nat) (entries : List Value)
    (written : List Bytes) : Coded Bytes :=
  match entries with
  | [] => .ok written.reverse.flatten
  | entry :: rest => do
      let type ← attr.headerType index
      let stream ←
        match attr.entryScalar?, entry with
        | some expected, entry => do
            let payload ← scalarPayload attr expected entry
            framed attr type payload
        | none, .nest members =>
            nestedMessage scope attr type members fun set => eachMember scope set members
        | none, entry => .error (mismatch attr "nest" entry)
      eachEntry scope attr (index + 1) rest (stream :: written)
termination_by structural entries

end

/-- The stream of a message whose members are attributes of the set. -/
def message (scope : Scope) (set : AttributeSet) (message : Message) : Coded Bytes := do
  checkMembers set message
  assemble set (eachMember scope set message)

end Encoding

namespace Family

/-- The stream of a message of an attribute set. -/
def encode (family : Family) (set : String) (message : Message) : Coded Bytes := do
  let set ← CodecError.lift (family.attributeSet set)
  Encoding.message family.toScope set message

/-- The attributes that an operation allows in a message, if it has that message. -/
def allowed (family : Family) (operation : String) (mode : OperationMode)
    (direction : Direction) : Coded (List String) := do
  let found ← CodecError.lift (family.operation operation)
  match found.attributesOf mode direction with
  | some attributes => return attributes
  | none => throw (.noMessage operation mode direction)

/-- The name of the set that an operation takes its attributes from. -/
def setOf (family : Family) (operation : String) : Except ModelError String := do
  let found ← family.operation operation
  match found.attrSet with
  | some set => return set
  | none => throw (.operationWithoutSet operation)

/-- The stream of a request, which holds only attributes that the request allows. -/
def encodeRequest (family : Family) (operation : String) (mode : OperationMode)
    (message : Message) : Coded Bytes := do
  let allowed ← family.allowed operation mode .request
  match message.names.find? fun name => !allowed.contains name with
  | some name => throw (.notAllowed operation .request name)
  | none =>
      let set ← CodecError.lift (family.setOf operation)
      family.encode set message

end Family

end NetlinkFamily
