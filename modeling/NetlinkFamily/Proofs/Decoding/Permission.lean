import NetlinkFamily.Proofs.Decoding.Projection

namespace NetlinkFamily

namespace Decoding

open Outcome

variable {scope : Scope} {set : AttributeSet} {list : AllowedList}

/-- Of the attributes that are defined, the originating peer keeps those in its list. -/
theorem recognise_listed (set : AttributeSet) (list : AllowedList) (type : Nat) :
    recognise .originating set (some list) type =
      .ok ((definition? set type).filter fun attr => list.names.contains attr.name) := by
  unfold recognise definition?
  cases set.withNumber? type with
  | none => rfl
  | some attr =>
      by_cases within : attr.name ∈ list.names <;> cases kind : attr.kind <;>
        simp [within, kind, CarriesNothing, Option.filter]

/-- The message under a list has the members of the whole message that the list allows. -/
theorem message_listed {data : Bytes} {found : Message}
    (taken : message scope .originating set none data = .ok found) :
    message scope .originating set (some list) data =
      .ok (found.filter fun member => list.names.contains member.1) :=
  message_filter (fun type known recognised => by
    rw [recognise_listed, recognise_eq_definition? recognised]) taken

/-- The type of an attribute that is defined and allowed. -/
def Permitted (set : AttributeSet) (names : List String) (type : Nat) : Prop :=
  ∃ attr, set.withNumber? type = some attr ∧ attr.name ∈ names

/-- The handling peer takes an attribute as it would without a list, if the list has it. Whether the
attribute carries anything does not matter to that. -/
theorem recognise_permitted {type : Nat} {known : Option Attribute} :
    recognise .handling set (some list) type = .ok known ↔
      recognise .handling set none type = .ok known ∧ Permitted set list.names type := by
  unfold recognise Permitted
  cases set.withNumber? type with
  | none => simp
  | some attr => by_cases within : attr.name ∈ list.names <;> simp [within, Option.filter]

/-- With a list, what is picked is what is picked without it, if all is permitted. -/
theorem pick_permitted {R : Type} {typeOf : R → Nat} {raws : List R}
    {found picked : List (Attribute × R)} :
    pick .handling set (some list) typeOf found raws = .ok picked ↔
      pick .handling set none typeOf found raws = .ok picked ∧
        ∀ raw ∈ raws, Permitted set list.names (typeOf raw) := by
  induction raws generalizing found with
  | nil => simp [pick]
  | cons raw rest ih =>
      simp only [pick_cons_eq_ok_iff, recognise_permitted, ih, List.forall_mem_cons]
      constructor
      · rintro ⟨known, ⟨recognised, permitted⟩, fresh, done, later⟩
        exact ⟨⟨known, recognised, fresh, done⟩, permitted, later⟩
      · rintro ⟨⟨known, recognised, fresh, done⟩, permitted, later⟩
        exact ⟨known, ⟨recognised, permitted⟩, fresh, done, later⟩

/-- With a list, a message is read as without it, if all is permitted. -/
theorem message_permitted {data : Bytes} {found : Message} :
    message scope .handling set (some list) data = .ok found ↔
      message scope .handling set none data = .ok found ∧
        ∃ raws, Stream.split data = .ok raws ∧
          ∀ raw ∈ raws, Permitted set list.names raw.type := by
  simp only [message_eq, bind_eq_ok_iff, pure_eq_ok_iff, attributes_eq_ok_iff, pick_permitted]
  constructor
  · rintro ⟨raws, parted, picked, ⟨chosen, permitted⟩, rest⟩
    exact ⟨⟨raws, parted, picked, chosen, rest⟩, raws, parted, permitted⟩
  · rintro ⟨⟨raws, parted, picked, chosen, rest⟩, others, again, permitted⟩
    obtain rfl : raws = others := Except.ok.inj (parted.symm.trans again)
    exact ⟨raws, parted, picked, ⟨chosen, permitted⟩, rest⟩

end Decoding

namespace Family

open Outcome

/-- What the list of an operation does to the messages of its set, in either direction. The
originating peer drops the members that are not in the list. The handling peer refuses streams with
attributes that are not in the list, skipped ones included, and takes all others as they are. -/
theorem decodeOperation_listed {family : Family} {operation : String} {mode : OperationMode}
    {direction : Direction} {names : List String} {set : String}
    (listed : family.allowed operation mode direction = .ok names)
    (used : family.setOf operation = .ok set) :
    (∀ data message, family.decode .originating set data = .ok message →
      family.decodeOperation .originating operation mode direction data =
        .ok (message.filter fun member => names.contains member.1)) ∧
    ∀ data message,
      family.decodeOperation .handling operation mode direction data = .ok message ↔
        family.decode .handling set data = .ok message ∧
          ∃ attrs raws, family.attributeSet set = .ok attrs ∧ Stream.split data = .ok raws ∧
            ∀ raw ∈ raws, ∃ attr, attrs.withNumber? raw.type = some attr ∧ attr.name ∈ names := by
  simp only [decodeOperation, decode, listed, used, CodecError.lift, bind, Except.bind]
  cases declared : family.attributeSet set with
  | error error =>
      simp
  | ok attrs =>
      refine ⟨fun data message taken => Decoding.message_listed taken, fun data message => ?_⟩
      simp only [Except.ok.injEq, exists_and_left, exists_eq_left']
      exact Decoding.message_permitted

/-- A number, padding, and a nest with a number. Requests carry the nest and replies the number. -/
def guarded : Spec.File where
  license := Spec.acceptedLicense
  family :=
    { name := "f"
      attributeSets :=
        [{ name := "f"
           attributes :=
            [{ name := "x", kind := some "u8" },
             { name := "gap", kind := some "pad" },
             { name := "inner", kind := some "nest", nestedAttributes := some "g" }] },
         { name := "g", attributes := [{ name := "x", kind := some "u8" }] }]
      operations :=
        { list :=
            [{ name := "get"
               attributeSet := some "f"
               doMode := some
                { request := some { attributes := ["inner"] }
                  reply := some { attributes := ["x"] } } }] } }

theorem isSome_ofSpec_guarded : (ofSpec guarded []).toOption.isSome = true := by
  decide +kernel

/-- The family whose requests carry the nest and whose replies carry the number. -/
def guardedFamily : Family :=
  (ofSpec guarded []).toOption.get isSome_ofSpec_guarded

/-- The number in the nest may have the name of one that the request lacks. Padding may not stand in
a request, though it carries nothing. A reply is read without the nest. -/
theorem decodeOperation_listed_guarded :
    guardedFamily.decodeOperation .handling "get" .call .request
        [12, 0, 3, 128, 5, 0, 1, 0, 9, 0, 0, 0] =
      .ok [("inner", .nest [("x", .scalar ⟨.u8, 9⟩)])] ∧
    (∀ message, guardedFamily.decodeOperation .handling "get" .call .request
        [12, 0, 3, 128, 5, 0, 1, 0, 9, 0, 0, 0, 4, 0, 2, 0] ≠ .ok message) ∧
    guardedFamily.decodeOperation .originating "get" .call .reply
        [12, 0, 3, 128, 5, 0, 1, 0, 9, 0, 0, 0, 5, 0, 1, 0, 7, 0, 0, 0] =
      .ok [("x", .scalar ⟨.u8, 7⟩)] := by
  have used : guardedFamily.setOf "get" = .ok "f" := by decide +kernel
  have request : guardedFamily.allowed "get" .call .request = .ok ["inner"] := by decide +kernel
  have reply : guardedFamily.allowed "get" .call .reply = .ok ["x"] := by decide +kernel
  obtain ⟨-, handled⟩ := decodeOperation_listed request used
  obtain ⟨filtered, -⟩ := decodeOperation_listed reply used
  have nested : guardedFamily.decode .handling "f" [12, 0, 3, 128, 5, 0, 1, 0, 9, 0, 0, 0] =
      .ok [("inner", .nest [("x", .scalar ⟨.u8, 9⟩)])] := by
    decide +kernel
  have whole : guardedFamily.decode .originating "f"
      [12, 0, 3, 128, 5, 0, 1, 0, 9, 0, 0, 0, 5, 0, 1, 0, 7, 0, 0, 0] =
        .ok [("inner", .nest [("x", .scalar ⟨.u8, 9⟩)]), ("x", .scalar ⟨.u8, 7⟩)] := by
    decide +kernel
  have parted : Stream.split [12, 0, 3, 128, 5, 0, 1, 0, 9, 0, 0, 0] =
      .ok [⟨3, true, [5, 0, 1, 0, 9, 0, 0, 0]⟩] := by
    decide +kernel
  have padded : Stream.split [12, 0, 3, 128, 5, 0, 1, 0, 9, 0, 0, 0, 4, 0, 2, 0] =
      .ok [⟨3, true, [5, 0, 1, 0, 9, 0, 0, 0]⟩, ⟨2, false, []⟩] := by
    decide +kernel
  obtain ⟨attrs, declared⟩ : ∃ attrs, guardedFamily.attributeSet "f" = .ok attrs :=
    ⟨_, Outcome.eq_ok_get (by decide +kernel)⟩
  have numbers : ((guardedFamily.attributeSet "f").toOption.all fun attrs =>
      (attrs.withNumber? 3).map Attribute.name = some "inner" ∧
        (attrs.withNumber? 2).map Attribute.name = some "gap") = true := by
    decide +kernel
  rw [declared] at numbers
  obtain ⟨inner, gap⟩ := of_decide_eq_true numbers
  refine ⟨(handled _ _).2 ⟨nested, attrs, _, declared, parted, ?_⟩, fun message taken => ?_,
    filtered _ _ whole⟩
  · simpa using inner
  · obtain ⟨-, others, raws, again, found, permitted⟩ := (handled _ _).1 taken
    obtain rfl : attrs = others := Except.ok.inj (declared.symm.trans again)
    obtain rfl := Except.ok.inj (padded.symm.trans found)
    obtain ⟨attr, numbered, within⟩ := permitted ⟨2, false, []⟩ (by simp)
    have named : attr.name = "gap" := by simpa [numbered] using gap
    rw [named] at within
    exact absurd within (by decide)

end Family

end NetlinkFamily
