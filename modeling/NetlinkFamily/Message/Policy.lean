import NetlinkFamily.Message.Error
import NetlinkFamily.Message.Value

/-!
The checks that a handling peer makes on payloads, as the policy of the attribute asks for.
-/

namespace NetlinkFamily.WirePolicy

/-- The 64 bits of a scalar, or zero for any other value. -/
private def wideBits : Value → BitVec 64
  | .scalar value => value.wide
  | _ => 0

/-- Whether a value lies below a minimum. Signs count only if the policy is for a signed type, and
a value of the other signedness is never below. -/
def isBelow (type : ScalarType) (min : Int) (value : Value) : Bool :=
  if type.isSigned then value.signed?.any (· < min)
  else value.unsigned?.any fun found => (found : Int) < min

def checkScalar (policy : WirePolicy) (value : Value) : Except Violation Unit :=
  match policy with
  | .mask _ allowed =>
      let outside := wideBits value &&& ~~~allowed.toBitVec
      if outside = 0 then .ok () else .error (.outsideMask outside allowed.toBitVec)
  | .min type least =>
      if isBelow type least.toInt value then .error (.belowMinimum least.toInt) else .ok ()
  | .max _ most =>
      if most.toNat < (wideBits value).toNat then .error (.aboveMaximum most.toNat) else .ok ()
  | .range _ low high =>
      let found := (wideBits value).toNat
      if found < low.toNat ∨ high.toNat < found then
        .error (.outsideRange low.toNat high.toNat)
      else .ok ()
  | _ => .ok ()

/-- The bytes in front of the terminator. Where none is required, one zero byte at the end is taken
for it. -/
def textContent (terminated : Bool) (payload : Bytes) : Except Violation Bytes :=
  if terminated then
    if payload.contains 0 then .ok payload.untilZero else .error .unterminated
  else if payload.getLast? = some 0 then .ok payload.dropLast
  else .ok payload

/-- The content of a text, its terminator removed. -/
def checkText (policy : WirePolicy) (payload : Bytes) : Except Violation Bytes :=
  match policy with
  | .text terminated maxLength => do
      let content ← textContent terminated payload
      match maxLength with
      | none => return content
      | some most =>
          if most.toNat < content.length then throw (.tooLong most.toNat) else return content
  | _ => .ok payload

def checkBinary (policy : WirePolicy) (payload : Bytes) : Except Violation Unit :=
  match policy with
  | .minLength length =>
      if payload.length < length.toNat then .error (.tooShort length.toNat) else .ok ()
  | _ => .ok ()

end NetlinkFamily.WirePolicy
