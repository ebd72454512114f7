/-!
The kinds of payload an attribute may carry, and the policies a handling peer checks them with.
-/

namespace NetlinkFamily

/-- Integers of a fixed width. -/
inductive ScalarType where
  | u8
  | u16
  | u32
  | u64
  | s32
  | s64
  deriving DecidableEq, Inhabited

namespace ScalarType

def name : ScalarType → String
  | u8 => "u8"
  | u16 => "u16"
  | u32 => "u32"
  | u64 => "u64"
  | s32 => "s32"
  | s64 => "s64"

def ofName? : String → Option ScalarType
  | "u8" => some u8
  | "u16" => some u16
  | "u32" => some u32
  | "u64" => some u64
  | "s32" => some s32
  | "s64" => some s64
  | _ => none

/-- The unsigned type of the same width, which the C accessors are named for. -/
def accessorName : ScalarType → String
  | s32 => "u32"
  | s64 => "u64"
  | type => type.name

/-- The number of bytes of a value. -/
def width : ScalarType → Nat
  | u8 => 1
  | u16 => 2
  | u32 | s32 => 4
  | u64 | s64 => 8

/-- The number of bits of a value. -/
def bits (type : ScalarType) : Nat :=
  8 * type.width

def isSigned : ScalarType → Bool
  | s32 | s64 => true
  | _ => false

end ScalarType

inductive AttributeKind where
  | scalar (type : ScalarType)
  | flag
  | pad
  | unused
  | text
  | binary
  | nest
  | arrayNest
  | nestTypeValue
  deriving DecidableEq, Inhabited

namespace AttributeKind

def name : AttributeKind → String
  | scalar type => type.name
  | flag => "flag"
  | pad => "pad"
  | unused => "unused"
  | text => "string"
  | binary => "binary"
  | nest => "nest"
  | arrayNest => "array-nest"
  | nestTypeValue => "nest-type-value"

def ofName? (name : String) : Option AttributeKind :=
  match ScalarType.ofName? name with
  | some type => some (scalar type)
  | none =>
      match name with
      | "flag" => some flag
      | "pad" => some pad
      | "unused" => some unused
      | "string" => some text
      | "binary" => some binary
      | "nest" => some nest
      | "array-nest" => some arrayNest
      | "nest-type-value" => some nestTypeValue
      | _ => none

end AttributeKind

/-- How a C structure records that a member was set. -/
inductive Presence where
  | none
  | bit
  | length
  | count
  deriving DecidableEq, Inhabited

/-- The rule a handling peer checks the payload of one attribute with. -/
inductive WirePolicy where
  | plain (kind : AttributeKind)
  | mask (type : ScalarType) (mask : UInt64)
  | min (type : ScalarType) (min : Int64)
  | max (type : ScalarType) (max : UInt64)
  | range (type : ScalarType) (low high : UInt64)
  | text (terminated : Bool) (maxLength : Option UInt64)
  | minLength (length : UInt64)
  | nested (name : String)
  | nestedArray (name : String)
  deriving DecidableEq, Inhabited

end NetlinkFamily
