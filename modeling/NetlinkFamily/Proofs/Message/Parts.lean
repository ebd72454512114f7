import NetlinkFamily.Message.Policy
import NetlinkFamily.Proofs.Message.Occurrences

namespace NetlinkFamily

namespace Message

/-- The lists of all attributes of a set, one behind the other in the order of declaration. -/
def gather {A : Type} (set : AttributeSet) (lists : List (String × List A)) : List A :=
  set.attrs.values.flatMap fun attr => (lists.lookup attr.name).getD []

end Message

namespace Value

variable (scope : Scope)

mutual

/-- A value with the values inside it. A list of occurrences stands for its items. -/
def parts (attr : Attribute) (found : Value) : List (Attribute × Value) :=
  match found with
  | .nest members =>
      (attr, .nest members) ::
        match attr.contents scope with
        | .ok set => Message.gather set (partsOfMembers set members)
        | .error _ => []
  | .array entries =>
      (attr, .array entries) ::
        if attr.entryScalar?.isSome then [] else partsOfEach attr entries
  | .multi items => partsOfEach attr items
  | .scalar number => [(attr, .scalar number)]
  | .flag => [(attr, .flag)]
  | .text content => [(attr, .text content)]
  | .binary bytes => [(attr, .binary bytes)]
termination_by structural found

/-- The parts of the members of a message of a set, under their names. -/
def partsOfMembers (set : AttributeSet) (message : Message) :
    List (String × List (Attribute × Value)) :=
  match message with
  | [] => []
  | (name, found) :: rest =>
      (name,
        match set.attrs.get? name with
        | some attr => parts attr found
        | none => []) :: partsOfMembers set rest
termination_by structural message

/-- The parts of all values of a list. -/
def partsOfEach (attr : Attribute) (values : List Value) : List (Attribute × Value) :=
  match values with
  | [] => []
  | found :: rest => parts attr found ++ partsOfEach attr rest
termination_by structural values

end

/-- The parts of a list are those of its values. -/
theorem partsOfEach_eq_flatMap (attr : Attribute) (values : List Value) :
    partsOfEach scope attr values = values.flatMap (parts scope attr) := by
  induction values with
  | nil => rfl
  | cons first rest ih => rw [partsOfEach, ih, List.flatMap_cons]

/-- The parts of a message are those of its members. -/
theorem partsOfMembers_eq_map (set : AttributeSet) (message : Message) :
    partsOfMembers scope set message =
      message.map fun entry => (entry.1,
        match set.attrs.get? entry.1 with
        | some attr => parts scope attr entry.2
        | none => []) := by
  induction message with
  | nil => rfl
  | cons first rest ih => rw [partsOfMembers, ih, List.map_cons]

/-- The parts of a member are found under the name of its attribute. -/
theorem lookup_partsOfMembers {set : AttributeSet} (message : Message) {attr : Attribute}
    (listed : attr ∈ set.attrs.values) :
    (partsOfMembers scope set message).lookup attr.name =
      (message.get? attr.name).map (parts scope attr) := by
  have looked := Entries.lookup_map (fun name found =>
    match set.attrs.get? name with
    | some attr => parts scope attr found
    | none => []) message attr.name
  rw [partsOfMembers_eq_map, looked, AttributeSet.get?_name listed, Message.get?]

end Value

namespace Message

/-- The values at every depth of a message of a set. -/
def parts (scope : Scope) (set : AttributeSet) (message : Message) : List (Attribute × Value) :=
  gather set (Value.partsOfMembers scope set message)

/-- The parts of a message are those of its members. -/
theorem mem_parts_iff {scope : Scope} {set : AttributeSet} {message : Message}
    {part : Attribute × Value} :
    part ∈ message.parts scope set ↔ ∃ attr ∈ set.attrs.values, ∃ found,
      message.get? attr.name = some found ∧ part ∈ found.parts scope attr := by
  rw [parts, gather, List.mem_flatMap]
  refine exists_congr fun attr => and_congr_right fun listed => ?_
  rw [Value.lookup_partsOfMembers scope message listed]
  cases message.get? attr.name <;> simp

/-- The parts of a message are the parts of its occurrences. -/
theorem parts_eq {scope : Scope} {set : AttributeSet} {message : Message}
    (fits : message.Fits set) :
    message.parts scope set =
      (message.occurrences set).flatMap fun entry => entry.2.parts scope entry.1 := by
  rw [parts, gather, occurrences, List.flatMap_assoc]
  refine List.flatMap_congr fun attr listed => ?_
  rw [Value.lookup_partsOfMembers scope message listed, occurrencesOf]
  cases held : message.get? attr.name with
  | none => rfl
  | some value =>
      cases repeated : attr.multi with
      | true =>
          obtain ⟨items, rfl⟩ : ∃ items, value = .multi items :=
            ⟨_, (fits attr listed value held).1 repeated⟩
          simp only [Option.map_some, Option.getD_some, Value.parts, Value.items, if_true,
            Value.partsOfEach_eq_flatMap, List.flatMap_map]
      | false => simp

end Message

namespace Value

/-- The parts of a nest are itself and those of its members. -/
theorem parts_nest {scope : Scope} {attr : Attribute} {set : AttributeSet}
    (inner : attr.contents scope = .ok set) (members : Message) :
    (Value.nest members).parts scope attr = (attr, .nest members) :: members.parts scope set := by
  rw [parts, inner]
  rfl

/-- The parts of an array are itself and those of its entries. -/
theorem parts_array (scope : Scope) (attr : Attribute) (entries : List Value) :
    (Value.array entries).parts scope attr =
      (attr, .array entries) ::
        if attr.entryScalar?.isSome then [] else entries.flatMap (parts scope attr) := by
  rw [parts, partsOfEach_eq_flatMap]

end Value

end NetlinkFamily
