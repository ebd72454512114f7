import NetlinkFamily.Model.Error
import NetlinkFamily.Model.Operation
import NetlinkFamily.Wire.Stream

/-!
What can go wrong between a message and its stream, and how each failure is told.
-/

namespace NetlinkFamily

/-- How a payload breaks the policy of its attribute. -/
inductive Violation where
  | belowMinimum (min : Int)
  | aboveMaximum (max : Nat)
  | outsideRange (low high : Nat)
  | outsideMask (bits mask : BitVec 64)
  | unterminated
  | tooLong (max : Nat)
  | tooShort (min : Nat)
  deriving DecidableEq, Inhabited

private def hexadecimal (bits : BitVec 64) : String :=
  "0x" ++ String.ofList (Nat.toDigits 16 bits.toNat)

def Violation.message : Violation → String
  | belowMinimum min => "value below minimum " ++ toString min
  | aboveMaximum max => "value above maximum " ++ toString max
  | outsideRange low high => "value outside range " ++ toString low ++ ".." ++ toString high
  | outsideMask bits mask =>
      "bits " ++ hexadecimal bits ++ " outside mask " ++ hexadecimal mask
  | unterminated => "missing NUL terminator"
  | tooLong max => "string longer than " ++ toString max ++ " bytes"
  | tooShort min => "payload shorter than " ++ toString min ++ " bytes"

/-- The attribute that a failure is about. -/
structure Place where
  set : String
  attr : String
  deriving DecidableEq, Inhabited

def Place.text (place : Place) : String :=
  place.set ++ "." ++ place.attr

inductive CodecError where
  | model (error : ModelError)
  | unknownAttribute (place : Place)
  | unknownType (set : String) (type : Nat)
  /-- The member is not one that the message of the operation may carry. -/
  | notAllowed (operation : String) (direction : Direction) (attr : String)
  | noMessage (operation : String) (mode : OperationMode) (direction : Direction)
  | truncated (truncation : Truncation)
  | badLength (place : Place) (expected found : Nat)
  | tooLong (place : Place) (length : Nat)
  /-- The type or the index does not fit beside the flags of the header. -/
  | typeOutOfRange (place : Place) (type : Nat)
  | alreadyPresent (place : Place)
  | violation (place : Place) (violation : Violation)
  | typeMismatch (place : Place) (expected found : String)
  | invalidText (place : Place)
  | unsupported (kind : String) (place : Place)
  deriving DecidableEq, Inhabited

def CodecError.message : CodecError → String
  | model error => "family model lookup failed: " ++ error.message
  | unknownAttribute place =>
      "attribute '" ++ place.attr ++ "' is not defined in set '" ++ place.set ++ "'"
  | unknownType set type =>
      "attribute type " ++ toString type ++ " is not defined in set '" ++ set ++ "'"
  | notAllowed operation direction attr =>
      "attribute '" ++ attr ++ "' is not allowed in the " ++ direction.name ++ " of '" ++
        operation ++ "'"
  | noMessage operation mode direction =>
      "op '" ++ operation ++ "' has no " ++ mode.name ++ " " ++ direction.name
  | truncated t =>
      "truncated attribute at offset " ++ toString t.offset ++ ": need " ++ toString t.needed ++
        " bytes, have " ++ toString t.available
  | badLength place expected found =>
      "bad length for " ++ place.text ++ ": expected " ++ toString expected ++ " bytes, got " ++
        toString found
  | tooLong place length =>
      "payload of " ++ place.text ++ " too long (" ++ toString length ++ " bytes)"
  | typeOutOfRange place type =>
      "type " ++ toString type ++ " of " ++ place.text ++ " does not fit the attribute header"
  | alreadyPresent place => "attribute already present (" ++ place.text ++ ")"
  | violation place found => "policy violation for " ++ place.text ++ ": " ++ found.message
  | typeMismatch place expected found =>
      "type mismatch for " ++ place.text ++ ": expected " ++ expected ++ ", found " ++ found
  | invalidText place => "string payload of " ++ place.text ++ " is not valid UTF-8"
  | unsupported kind place =>
      kind ++ " attributes can not be marshalled (" ++ place.text ++ ")"

/-- A result of the model as a step of coding. -/
def CodecError.lift {A : Type} : Except ModelError A → Except CodecError A
  | .ok value => .ok value
  | .error error => .error (.model error)

@[simp] theorem CodecError.lift_eq_ok_iff {A : Type} {result : Except ModelError A} {value : A} :
    lift result = .ok value ↔ result = .ok value := by
  cases result <;> simp [lift]

end NetlinkFamily
