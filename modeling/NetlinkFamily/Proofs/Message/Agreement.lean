import Mathlib.Data.List.Perm.Subperm
import Mathlib.Data.Option.Basic
import NetlinkFamily.Proofs.Message.Value

namespace NetlinkFamily

namespace Value

/-- The values right inside a value. -/
def inside : Value → List Value
  | .nest members => members.map Prod.snd
  | .array values | .multi values => values
  | _ => []

/-- What holds of a value and of all values inside it. -/
inductive Everywhere (holds : Value → Prop) : Value → Prop where
  | intro {value : Value} (here : holds value)
      (inside : ∀ part ∈ value.inside, Everywhere holds part) : Everywhere holds value

variable {holds : Value → Prop} {value : Value}

/-- What holds everywhere holds of the value itself. -/
theorem Everywhere.here (all : value.Everywhere holds) : holds value := by
  cases all with
  | intro here _ => exact here

/-- What holds everywhere holds everywhere in a part. -/
theorem Everywhere.of_mem (all : value.Everywhere holds) {part : Value}
    (member : part ∈ value.inside) : part.Everywhere holds := by
  cases all with
  | intro _ inside => exact inside part member

/-- What follows from a property holds where the property does. -/
theorem Everywhere.imp {other : Value → Prop} (all : value.Everywhere holds)
    (implies : ∀ part, holds part → other part) : value.Everywhere other := by
  induction all with
  | intro here _ ih => exact .intro (implies _ here) ih

/-- The names of the members of a nest are distinct. -/
def IsKeyed : Value → Prop
  | .nest members => (Message.names members).Nodup
  | _ => True

end Value

/-- The names in a message are distinct, and so are those in every message inside it. -/
def Message.Keyed (message : Message) : Prop :=
  (Value.nest message).Everywhere Value.IsKeyed

/-- A member of a keyed message is keyed everywhere. -/
theorem Message.Keyed.member {message : Message} (keyed : message.Keyed) {name : String}
    {value : Value} (held : message.get? name = some value) : value.Everywhere Value.IsKeyed :=
  keyed.of_mem (List.mem_map.2 ⟨_, mem_of_get? held, rfl⟩)

namespace Value

/-- Lists agree in order when their values agree one by one. -/
theorem agreesInOrder_iff {values others : List Value} :
    agreesInOrder values others = true ↔
      List.Forall₂ (fun value other => value.agrees other = true) values others := by
  induction values generalizing others with
  | nil => cases others <;> simp [agreesInOrder]
  | cons first rest ih => cases others <;> simp [agreesInOrder, ih]

/-- A message agrees within another when its members agree with those of their names. -/
theorem agreesWithin_iff {whole message : Message} :
    agreesWithin whole message = true ↔ ∀ member ∈ message, ∃ value,
      whole.get? member.1 = some value ∧ member.2.agrees value = true := by
  induction message with
  | nil => simp [agreesWithin]
  | cons first rest ih =>
      rw [agreesWithin, Bool.and_eq_true, ih, List.forall_mem_cons]
      refine and_congr_left fun _ => ?_
      rw [Message.get?]
      cases whole.lookup first.1 <;> simp

end Value

namespace Message

open Value

variable {first second : Message}

/-- Where names are distinct, a name finds the member it stands in. -/
theorem get?_eq_some_iff (distinct : first.names.Nodup) {name : String} {value : Value} :
    first.get? name = some value ↔ (name, value) ∈ first :=
  Entries.lookup_eq_some_iff distinct

/-- Where names are distinct, a name is one of them when it finds a value. -/
theorem mem_names_iff (distinct : first.names.Nodup) {name : String} :
    name ∈ first.names ↔ ∃ value, first.get? name = some value := by
  simp only [get?_eq_some_iff distinct]
  exact List.mem_map.trans ⟨fun ⟨member, listed, same⟩ => ⟨member.2, same ▸ listed⟩,
    fun ⟨value, listed⟩ => ⟨_, listed, rfl⟩⟩

/-- Where names are distinct, a name that is none of them finds nothing. -/
theorem get?_eq_none_iff (distinct : first.names.Nodup) {name : String} :
    first.get? name = none ↔ name ∉ first.names := by
  rw [mem_names_iff distinct, Option.eq_none_iff_forall_ne_some, not_exists]

/-- Two optional values are related when both are missing or both are there and related. -/
theorem rel_cases {related : Value → Value → Prop} {held found : Option Value}
    (here : Option.Rel related held found) :
    held = none ∧ found = none ∨
      ∃ value other, held = some value ∧ found = some other ∧ related value other := by
  cases here with
  | none => exact .inl ⟨rfl, rfl⟩
  | some related => exact .inr ⟨_, _, rfl, rfl, related⟩

/-- Of two related optional values, both are there or none is. -/
theorem exists_iff_of_rel {related : Value → Value → Prop} {held found : Option Value}
    (here : Option.Rel related held found) :
    (∃ value, held = some value) ↔ ∃ value, found = some value := by
  cases here <;> simp

/-- Two messages agree exactly if under every name both hold nothing, or values that agree. -/
theorem agrees_iff (distinct : first.names.Nodup) (otherDistinct : second.names.Nodup) :
    first.agrees second = true ↔ ∀ name,
      Option.Rel (fun value other => value.agrees other = true) (first.get? name)
        (second.get? name) := by
  rw [agrees, Value.agrees, Bool.and_eq_true, beq_iff_eq, agreesWithin_iff]
  constructor
  · rintro ⟨length, within⟩ name
    cases held : first.get? name with
    | some value =>
        obtain ⟨other, found, agree⟩ := within _ ((get?_eq_some_iff distinct).1 held)
        rw [found]
        exact .some agree
    | none =>
        have sub : first.names ⊆ second.names := by
          intro name listed
          obtain ⟨value, held⟩ := (mem_names_iff distinct).1 listed
          obtain ⟨other, found, _⟩ := within _ ((get?_eq_some_iff distinct).1 held)
          exact (mem_names_iff otherDistinct).2 ⟨other, found⟩
        have same : first.names.Perm second.names :=
          (distinct.subperm sub).perm_of_length_le
            (by simp [names, Entries.names, length])
        rw [get?_eq_none_iff distinct, same.mem_iff, ← get?_eq_none_iff otherDistinct] at held
        rw [held]
        exact .none
  · intro related
    have names : first.names.Perm second.names := by
      refine (List.perm_ext_iff_of_nodup distinct otherDistinct).2 fun name => ?_
      rw [mem_names_iff distinct, mem_names_iff otherDistinct]
      exact exists_iff_of_rel (related name)
    refine ⟨by simpa [Message.names, Entries.names] using names.length_eq, fun member listed => ?_⟩
    have held := (get?_eq_some_iff distinct).2 listed
    obtain ⟨absent, _⟩ | ⟨value, other, same, found, agree⟩ := rel_cases (related member.1)
    · rw [absent] at held
      cases held
    · cases held.symm.trans same
      exact ⟨other, found, agree⟩

/-- Messages that agree have the same names. -/
theorem mem_names_of_agrees (distinct : first.names.Nodup) (otherDistinct : second.names.Nodup)
    (agree : first.agrees second = true) (name : String) :
    name ∈ first.names ↔ name ∈ second.names := by
  rw [mem_names_iff distinct, mem_names_iff otherDistinct]
  exact exists_iff_of_rel ((agrees_iff distinct otherDistinct).1 agree name)

end Message

namespace Value

/-- In which ways values can agree. -/
inductive Agreement : Value → Value → Prop where
  | same {value : Value} : Agreement value value
  | nest {members others : Message} (agree : members.agrees others = true) :
      Agreement (.nest members) (.nest others)
  | array {entries others : List Value}
      (each : List.Forall₂ (fun entry other => entry.agrees other = true) entries others) :
      Agreement (.array entries) (.array others)
  | multi {items others : List Value}
      (each : List.Forall₂ (fun item other => item.agrees other = true) items others) :
      Agreement (.multi items) (.multi others)

/-- Values that agree are in agreement. -/
theorem agreement_of_agrees {value other : Value} (agree : value.agrees other = true) :
    Agreement value other := by
  cases value with
  | scalar number =>
      cases other <;> simp only [agrees, beq_iff_eq, Bool.false_eq_true] at agree
      exact agree ▸ .same
  | flag =>
      cases other <;> simp only [agrees, Bool.false_eq_true] at agree
      exact .same
  | text content =>
      cases other <;> simp only [agrees, beq_iff_eq, Bool.false_eq_true] at agree
      exact agree ▸ .same
  | binary bytes =>
      cases other <;> simp only [agrees, beq_iff_eq, Bool.false_eq_true] at agree
      exact agree ▸ .same
  | nest members =>
      cases other with
      | nest others => exact .nest agree
      | _ => simp only [agrees, Bool.false_eq_true] at agree
  | array entries =>
      cases other <;> simp only [agrees, agreesInOrder_iff, Bool.false_eq_true] at agree
      exact .array agree
  | multi items =>
      cases other <;> simp only [agrees, agreesInOrder_iff, Bool.false_eq_true] at agree
      exact .multi agree

end Value

end NetlinkFamily
