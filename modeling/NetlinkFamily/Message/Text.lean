import NetlinkFamily.Message.Value
import NetlinkFamily.Text.Json

/-!
Messages as JSON. Each value names its kind, and binary data are a list of numbers.
-/

namespace NetlinkFamily

namespace Value

private def tagged (kind : String) (value : Json) : Json :=
  .object [("kind", .text kind), ("value", value)]

mutual

def toJson : Value → Json
  | .scalar value => tagged value.type.name (.number value.toInt)
  | .flag => .object [("kind", .text "flag")]
  | .text content => tagged "string" (.text content)
  | .binary bytes => tagged "binary" (.array (bytes.map fun byte => .number byte.toNat))
  | .nest members => tagged "nest" (.object (membersToJson members []))
  | .array entries => tagged "array" (.array (valuesToJson entries []))
  | .multi items => tagged "multi" (.array (valuesToJson items []))

def membersToJson : List (String × Value) → List (String × Json) → List (String × Json)
  | [], done => done.reverse
  | (name, value) :: rest, done => membersToJson rest ((name, value.toJson) :: done)

def valuesToJson : List Value → List Json → List Json
  | [], done => done.reverse
  | value :: rest, done => valuesToJson rest (value.toJson :: done)

end

end Value

def Message.toJson (message : Message) : Json :=
  .object (Value.membersToJson message [])

end NetlinkFamily
