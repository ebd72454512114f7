import NetlinkFamily.Model.AttributeKind
import NetlinkFamily.Registry
import NetlinkFamily.Wire.Bytes

/-!
Values of attributes, and the messages they make up. A message lists its members in the order of
their assignment, each under its own name.
-/

namespace NetlinkFamily

/-- An integer with its type. -/
structure Scalar where
  type : ScalarType
  bits : BitVec type.bits
  deriving DecidableEq, Inhabited

namespace Scalar

def ofInt (type : ScalarType) (value : Int) : Scalar :=
  ⟨type, BitVec.ofInt type.bits value⟩

def toInt (scalar : Scalar) : Int :=
  if scalar.type.isSigned then scalar.bits.toInt else scalar.bits.toNat

/-- The 64 bits that a scalar widens to. A signed one repeats its sign. -/
def wide (scalar : Scalar) : BitVec 64 :=
  BitVec.ofInt 64 scalar.toInt

/-- The bytes of a scalar, the highest one first if `bigEndian` holds. -/
def toBytes (bigEndian : Bool) (scalar : Scalar) : Bytes :=
  let bytes := Bytes.ofNat scalar.type.width scalar.bits.toNat
  if bigEndian then bytes.reverse else bytes

/-- The scalar in bytes that are as many as its type is wide. -/
def ofBytes (bigEndian : Bool) (type : ScalarType) (bytes : Bytes) : Scalar :=
  ⟨type, BitVec.ofNat type.bits (Bytes.toNat (if bigEndian then bytes.reverse else bytes))⟩

@[simp] theorem length_toBytes (bigEndian : Bool) (scalar : Scalar) :
    (scalar.toBytes bigEndian).length = scalar.type.width := by
  cases bigEndian <;> simp [toBytes]

/-- The bytes of a scalar are the digits of its bits. -/
theorem toNat_toBytes (bigEndian : Bool) (scalar : Scalar) :
    Bytes.toNat (if bigEndian then (scalar.toBytes bigEndian).reverse
      else scalar.toBytes bigEndian) = scalar.bits.toNat := by
  have same (type : ScalarType) : Nat.pow 256 type.width = Nat.pow 2 type.bits := by
    cases type <;> rfl
  have small : scalar.bits.toNat < Nat.pow 256 scalar.type.width := by
    rw [same]
    exact scalar.bits.isLt
  have whole :
      Bytes.toNat (Bytes.ofNat scalar.type.width scalar.bits.toNat) = scalar.bits.toNat := by
    rw [Bytes.toNat_ofNat, Nat.mod_eq_of_lt small]
  cases bigEndian <;> simp [toBytes, whole]

theorem ofBytes_toBytes (bigEndian : Bool) (scalar : Scalar) :
    ofBytes bigEndian scalar.type (scalar.toBytes bigEndian) = scalar := by
  rw [ofBytes, toNat_toBytes, BitVec.ofNat_toNat, BitVec.setWidth_eq]

end Scalar

inductive Value where
  | scalar (value : Scalar)
  | flag
  | text (content : String)
  | binary (bytes : Bytes)
  | nest (members : List (String × Value))
  /-- The entries of an array. -/
  | array (entries : List Value)
  /-- The occurrences of an attribute that may be repeated. -/
  | multi (items : List Value)
  deriving Inhabited

abbrev Message := List (String × Value)

namespace Value

def kindName : Value → String
  | .scalar value => value.type.name
  | flag => "flag"
  | text _ => "string"
  | binary _ => "binary"
  | nest _ => "nest"
  | array _ => "array-nest"
  | multi _ => "multi-attr"

/-- The number in an unsigned scalar. -/
def unsigned? : Value → Option Nat
  | .scalar value => if value.type.isSigned then none else some value.bits.toNat
  | _ => none

/-- The number in a signed scalar. -/
def signed? : Value → Option Int
  | .scalar value => if value.type.isSigned then some value.bits.toInt else none
  | _ => none

def text? : Value → Option String
  | .text content => some content
  | _ => none

def members? : Value → Option Message
  | nest members => some members
  | _ => none

/-- The values inside an array or a repeated attribute. -/
def elements? : Value → Option (List Value)
  | array values | multi values => some values
  | _ => none

mutual

/-- Whether two values agree. The order of the members of a message does not matter. -/
def agrees : Value → Value → Bool
  | scalar first, scalar second => first == second
  | flag, flag => true
  | text first, text second => first == second
  | binary first, binary second => first == second
  | nest first, nest second => first.length == second.length && agreesWithin second first
  | array first, array second | multi first, multi second => agreesInOrder first second
  | _, _ => false

/-- Whether each of the members agrees with that of the same name in `whole`. -/
def agreesWithin (whole : Message) : Message → Bool
  | [] => true
  | member :: rest =>
      (match whole.lookup member.1 with
        | some value => agrees member.2 value
        | none => false) &&
        agreesWithin whole rest

def agreesInOrder : List Value → List Value → Bool
  | [], [] => true
  | first :: others, second :: rest => agrees first second && agreesInOrder others rest
  | _, _ => false

end

end Value

namespace Message

def get? (message : Message) (name : String) : Option Value :=
  message.lookup name

def names (message : Message) : List String :=
  Entries.names message

/-- The message in which `name` has a value, at its old place or else at the end. -/
def assign (name : String) (value : Value) (message : Message) : Message :=
  Entries.assign name value message

def discard (name : String) (message : Message) : Message :=
  Entries.discard name message

def isPresent (message : Message) (name : String) : Bool :=
  (message.get? name).isSome

/-- The number of elements of a member: one if it has no elements, zero if it is absent. -/
def count (message : Message) (name : String) : Nat :=
  match message.get? name with
  | none => 0
  | some value => (value.elements?.map List.length).getD 1

/-- Whether two messages have the same members, in any order. -/
def agrees (first second : Message) : Bool :=
  (Value.nest first).agrees (.nest second)

end Message

end NetlinkFamily
