import NetlinkFamily.C.Code
import NetlinkFamily.Model.Attribute

/-!
Policies as initializers: the entries of the kernel's policy tables, and those of the tables that
user space validates with.
-/

namespace NetlinkFamily

private def policyType (kind : AttributeKind) : String :=
  "NLA_" ++ Text.upper kind.name

private def braced (text : String) : String :=
  "\x7b " ++ text ++ " \x7d"

namespace WirePolicy

/-- The initializer of an entry in a policy table of the kernel. -/
def initializer : WirePolicy → String
  | .plain kind => braced (".type = " ++ policyType kind ++ ",")
  | .mask type allowed =>
      C.Code.application "NLA_POLICY_MASK"
        [policyType (.scalar type), "0x" ++ String.ofList (Nat.toDigits 16 allowed.toNat)]
  | .min type least =>
      C.Code.application "NLA_POLICY_MIN" [policyType (.scalar type), toString least.toInt]
  | .max type most =>
      C.Code.application "NLA_POLICY_MAX" [policyType (.scalar type), toString most.toNat]
  | .range type low high =>
      C.Code.application "NLA_POLICY_RANGE"
        [policyType (.scalar type), toString low.toNat, toString high.toNat]
  | .text terminated maxLength =>
      let type := if terminated then "NLA_NUL_STRING" else "NLA_STRING"
      let length := (maxLength.map fun most => " .len = " ++ toString most.toNat ++ ",").getD ""
      braced (".type = " ++ type ++ "," ++ length)
  | .minLength length => braced (".len = " ++ toString length.toNat ++ ",")
  | .nested name => C.Code.application "NLA_POLICY_NESTED" [name ++ "_nl_policy"]
  | .nestedArray name => C.Code.application "NLA_POLICY_NESTED_ARRAY" [name ++ "_nl_policy"]

end WirePolicy

namespace Attribute

/-- The fields that tell user space how to validate an attribute. -/
def validation (attr : Attribute) : Except ModelError String :=
  match attr.kind with
  | .scalar type => .ok (".type = YNL_PT_U" ++ toString type.bits ++ ", ")
  | .flag => .ok ".type = YNL_PT_FLAG, "
  | .text => .ok ".type = YNL_PT_NUL_STR, "
  | .binary => .ok ".type = YNL_PT_BINARY, "
  | .nest | .arrayNest | .nestTypeValue =>
      attr.nestedSet.map fun nested =>
        ".type = YNL_PT_NEST, .nest = &" ++ nested.renderName ++ "_nest, "
  | .pad => .ok ".type = YNL_PT_IGNORE, "
  | .unused => .ok ".type = YNL_PT_REJECT, "

/-- The entry of an attribute in the table that user space validates with. -/
def validationEntry (attr : Attribute) : Except ModelError C.Code :=
  attr.validation.map fun fields =>
    .line
      ("[" ++ attr.enumName ++ "] = \x7b .name = \"" ++ attr.name ++ "\", " ++ fields ++ "\x7d,")

end Attribute

end NetlinkFamily
