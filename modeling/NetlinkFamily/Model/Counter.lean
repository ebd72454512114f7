import NetlinkFamily.Model.Error

/-!
Running numbers of 32 bits. They never wrap: passing the largest value is a failure.
-/

namespace NetlinkFamily

/-- The number after `value`. -/
def nextNumber (value : UInt32) : Except ModelError UInt32 :=
  if value.toNat + 1 < UInt32.size then .ok (value + 1) else .error .numberingOverflow

end NetlinkFamily
