import NetlinkFamily.Message.Value

namespace NetlinkFamily

namespace Value

/-- The occurrences in the value of an attribute that may be repeated. -/
def items : Value → List Value
  | .multi items => items
  | _ => []

/-- Induction over values. What holds inside a nest holds of its members and of their items. -/
@[elab_as_elim]
theorem induction {motive : Value → Prop}
    (scalar : ∀ value, motive (.scalar value)) (flag : motive .flag)
    (text : ∀ content, motive (.text content)) (binary : ∀ bytes, motive (.binary bytes))
    (nest : ∀ members : Message,
      (∀ member ∈ members, ∀ part ∈ member.2 :: member.2.items, motive part) →
        motive (.nest members))
    (array : ∀ entries, (∀ entry ∈ entries, motive entry) → motive (.array entries))
    (multi : ∀ items, (∀ item ∈ items, motive item) → motive (.multi items))
    (value : Value) : motive value := by
  let whole (value : Value) : Prop := ∀ part ∈ value :: value.items, motive part
  have single {value : Value} (holds : motive value) (none : value.items = []) : whole value := by
    simpa [whole, none] using holds
  suffices all : whole value from all value List.mem_cons_self
  apply Value.rec (motive_1 := whole) (motive_2 := fun members => ∀ member ∈ members, whole member.2)
    (motive_3 := fun values => ∀ value ∈ values, whole value)
    (motive_4 := fun member => whole member.2)
  · exact fun value => single (scalar value) rfl
  · exact single flag rfl
  · exact fun content => single (text content) rfl
  · exact fun bytes => single (binary bytes) rfl
  · exact fun members inner => single (nest members inner) rfl
  · exact fun entries inner =>
      single (array entries fun entry member => inner entry member entry List.mem_cons_self) rfl
  · intro items inner part member
    have each : ∀ item ∈ items, motive item := fun item member =>
      inner item member item List.mem_cons_self
    rcases List.mem_cons.1 member with rfl | member
    · exact multi items each
    · exact each part member
  · simp
  · exact fun first rest here later => List.forall_mem_cons.2 ⟨here, later⟩
  · simp
  · exact fun first rest here later => List.forall_mem_cons.2 ⟨here, later⟩
  · exact fun name value inner => inner

mutual

/-- Whether two values are the same, the order of members included. -/
def same : Value → Value → Bool
  | scalar first, scalar second => first == second
  | flag, flag => true
  | text first, text second => first == second
  | binary first, binary second => first == second
  | nest first, nest second => sameMembers first second
  | array first, array second => sameInOrder first second
  | multi first, multi second => sameInOrder first second
  | _, _ => false

/-- Whether two messages are the same, member by member. -/
def sameMembers : Message → Message → Bool
  | [], [] => true
  | (name, value) :: rest, (other, found) :: others =>
      name == other && same value found && sameMembers rest others
  | _, _ => false

/-- Whether two lists are the same, value by value. -/
def sameInOrder : List Value → List Value → Bool
  | [], [] => true
  | first :: rest, second :: others => same first second && sameInOrder rest others
  | _, _ => false

end

/-- Lists are the same when they are equal. -/
theorem sameInOrder_iff {values others : List Value}
    (each : ∀ value ∈ values, ∀ other, same value other = true ↔ value = other) :
    sameInOrder values others = true ↔ values = others := by
  induction values generalizing others with
  | nil => cases others <;> simp [sameInOrder]
  | cons first rest ih =>
      obtain ⟨here, later⟩ := List.forall_mem_cons.1 each
      cases others with
      | nil => simp [sameInOrder]
      | cons second others => simp [sameInOrder, here, ih later]

/-- Messages are the same when they are equal. -/
theorem sameMembers_iff {members others : Message}
    (each : ∀ member ∈ members, ∀ other, same member.2 other = true ↔ member.2 = other) :
    sameMembers members others = true ↔ members = others := by
  induction members generalizing others with
  | nil => cases others <;> simp [sameMembers]
  | cons first rest ih =>
      obtain ⟨here, later⟩ := List.forall_mem_cons.1 each
      obtain ⟨name, value⟩ := first
      cases others with
      | nil => simp [sameMembers]
      | cons second others =>
          obtain ⟨other, found⟩ := second
          simp [sameMembers, here, ih later]

/-- Values are the same when they are equal. -/
theorem same_iff (value other : Value) : same value other = true ↔ value = other := by
  induction value using induction generalizing other with
  | scalar number => cases other <;> simp [same]
  | flag => cases other <;> simp [same]
  | text content => cases other <;> simp [same]
  | binary bytes => cases other <;> simp [same]
  | nest members ih =>
      have each (others : Message) : sameMembers members others = true ↔ members = others :=
        sameMembers_iff fun member inside => ih member inside _ List.mem_cons_self
      cases other <;> simp [same, each]
  | array entries ih => cases other <;> simp [same, sameInOrder_iff ih]
  | multi items ih => cases other <;> simp [same, sameInOrder_iff ih]

instance : DecidableEq Value := fun value other => decidable_of_iff _ (same_iff value other)

end Value

/-- What a message holds under a name is one of its members. -/
theorem Message.mem_of_get? {message : Message} {name : String} {value : Value}
    (held : message.get? name = some value) : (name, value) ∈ message := by
  obtain ⟨before, after, split, _⟩ := List.lookup_eq_some_iff.1 held
  rw [split]
  exact List.mem_append_right before List.mem_cons_self

end NetlinkFamily
