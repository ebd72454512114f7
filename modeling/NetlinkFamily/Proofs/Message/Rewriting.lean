import NetlinkFamily.Message.Encoding
import NetlinkFamily.Proofs.Message.Value

namespace NetlinkFamily

/-- Whether a text of the attribute may come without a terminator. -/
def Attribute.mayLackTerminator (attr : Attribute) : Bool :=
  attr.checks.unterminatedOk.getD false

/-- What happens to every text of an attribute, and to the members of every message of a set. -/
structure Rewriting where
  text : Attribute → String → String
  members : AttributeSet → Message → Message

namespace Rewriting

variable (scope : Scope) (rule : Rewriting)

mutual

/-- The rewritten value of an attribute. -/
def value (attr : Attribute) (found : Value) : Value :=
  match found with
  | .text content => .text (rule.text attr content)
  | .nest members =>
      match attr.contents scope with
      | .ok set => .nest (rule.members set (eachMember set members))
      | .error _ => .nest members
  | .array entries => .array (eachValue attr entries)
  | .multi items => .multi (eachValue attr items)
  | .scalar number => .scalar number
  | .flag => .flag
  | .binary bytes => .binary bytes
termination_by structural found

/-- The members of a message of a set with their values rewritten. -/
def eachMember (set : AttributeSet) (message : Message) : Message :=
  match message with
  | [] => []
  | (name, found) :: rest =>
      (name,
        match set.attrs.get? name with
        | some attr => value attr found
        | none => found) :: eachMember set rest
termination_by structural message

/-- All values of a list, rewritten. -/
def eachValue (attr : Attribute) (values : List Value) : List Value :=
  match values with
  | [] => []
  | found :: rest => value attr found :: eachValue attr rest
termination_by structural values

end

/-- The rewritten value of a member of a set. -/
def member (set : AttributeSet) (name : String) (found : Value) : Value :=
  match set.attrs.get? name with
  | some attr => value scope rule attr found
  | none => found

/-- The rewritten message of a set. -/
def message (set : AttributeSet) (message : Message) : Message :=
  rule.members set (eachMember scope rule set message)

/-- A list is rewritten value by value. -/
theorem eachValue_eq_map (attr : Attribute) (values : List Value) :
    eachValue scope rule attr values = values.map (value scope rule attr) := by
  induction values with
  | nil => rfl
  | cons first rest ih => rw [eachValue, ih, List.map_cons]

/-- A message is rewritten member by member. -/
theorem eachMember_eq_map (set : AttributeSet) (message : Message) :
    eachMember scope rule set message =
      message.map fun entry => (entry.1, member scope rule set entry.1 entry.2) := by
  induction message with
  | nil => rfl
  | cons first rest ih =>
      obtain ⟨name, found⟩ := first
      rw [eachMember, ih, List.map_cons]
      rfl

/-- A message whose members stay as they are does so itself. -/
theorem eachMember_eq_self {set : AttributeSet} {message : Message}
    (each : ∀ entry ∈ message, member scope rule set entry.1 entry.2 = entry.2) :
    eachMember scope rule set message = message := by
  rw [eachMember_eq_map]
  exact (List.map_congr_left fun entry member => by rw [each entry member]; rfl).trans
    (List.map_id message)

/-- Rewriting finds every member under its old name. -/
theorem lookup_eachMember (set : AttributeSet) (message : Message) (name : String) :
    (eachMember scope rule set message).lookup name =
      (message.lookup name).map (member scope rule set name) := by
  rw [eachMember_eq_map, Entries.lookup_map]

/-- A scalar stays as it is. -/
@[simp] theorem value_scalar (attr : Attribute) (number : Scalar) :
    value scope rule attr (.scalar number) = .scalar number := rfl

/-- A flag stays as it is. -/
@[simp] theorem value_flag (attr : Attribute) : value scope rule attr .flag = .flag := rfl

/-- A text is rewritten by the rule. -/
@[simp] theorem value_text (attr : Attribute) (content : String) :
    value scope rule attr (.text content) = .text (rule.text attr content) := rfl

/-- Binary data stays as it is. -/
@[simp] theorem value_binary (attr : Attribute) (bytes : Bytes) :
    value scope rule attr (.binary bytes) = .binary bytes := rfl

/-- An array is rewritten entry by entry. -/
@[simp] theorem value_array (attr : Attribute) (entries : List Value) :
    value scope rule attr (.array entries) = .array (entries.map (value scope rule attr)) := by
  rw [value, eachValue_eq_map]

/-- A repeated attribute is rewritten item by item. -/
@[simp] theorem value_multi (attr : Attribute) (items : List Value) :
    value scope rule attr (.multi items) = .multi (items.map (value scope rule attr)) := by
  rw [value, eachValue_eq_map]

/-- The items of a value are rewritten one by one. -/
@[simp] theorem items_value (attr : Attribute) (found : Value) :
    (value scope rule attr found).items = found.items.map (value scope rule attr) := by
  cases found with
  | nest members =>
      rw [value]
      cases attr.contents scope <;> rfl
  | multi items => rw [value_multi, Value.items, Value.items]
  | _ => simp [Value.items]

/-- Rewriting keeps what is a list of occurrences. -/
theorem value_eq_multi_iff (attr : Attribute) (found : Value) :
    value scope rule attr found = .multi (value scope rule attr found).items ↔
      found = .multi found.items := by
  cases found with
  | nest members =>
      rw [value]
      cases attr.contents scope <;> simp
  | multi items => simp [Value.items]
  | _ => simp

/-- A nest is rewritten as the message in it. -/
theorem value_nest {attr : Attribute} {set : AttributeSet} (inner : attr.contents scope = .ok set)
    (members : Message) :
    value scope rule attr (.nest members) = .nest (message scope rule set members) := by
  rw [value, inner, message]

end Rewriting

end NetlinkFamily
