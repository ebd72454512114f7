import NetlinkFamily.Proofs.Decoding.Fidelity
import NetlinkFamily.Proofs.Decoding.Leniency
import NetlinkFamily.Proofs.RoundTrip.Messages

namespace NetlinkFamily

namespace Decoding

open Outcome

mutual

/-- A stream of defined attributes, each with a payload that its definition admits. -/
inductive Vetted (scope : Scope) : AttributeSet → Bytes → Prop where
  | intro {set : AttributeSet} {data : Bytes} {raws : List RawAttribute}
      (parted : Stream.split data = .ok raws)
      (defined : ∀ raw ∈ raws, (set.withNumber? raw.type).isSome = true)
      (passes : ∀ raw ∈ raws, ∀ attr, set.withNumber? raw.type = some attr →
        VettedPayload scope attr raw.payload) :
      Vetted scope set data

/-- A payload that passes the policy of its attribute, or holds streams that are vetted. The
scalars in an array have no policy. -/
inductive VettedPayload (scope : Scope) : Attribute → Bytes → Prop where
  | nothing {attr : Attribute} {payload : Bytes} (nothing : CarriesNothing attr) :
      VettedPayload scope attr payload
  | scalar {attr : Attribute} {payload : Bytes} {type : ScalarType} {policy : WirePolicy}
      (kind : attr.kind = .scalar type) (width : payload.length = type.width)
      (chosen : attr.wirePolicy scope.constants = .ok (some policy))
      (passes : policy.checkScalar (.scalar (Scalar.ofBytes attr.isBigEndian type payload)) =
        .ok ()) :
      VettedPayload scope attr payload
  | flag {attr : Attribute} (kind : attr.kind = .flag) : VettedPayload scope attr []
  | text {attr : Attribute} {payload content : Bytes} {policy : WirePolicy}
      (kind : attr.kind = .text)
      (chosen : attr.wirePolicy scope.constants = .ok (some policy))
      (passes : policy.checkText payload = .ok content) :
      VettedPayload scope attr payload
  | binary {attr : Attribute} {payload : Bytes} {policy : WirePolicy}
      (kind : attr.kind = .binary)
      (chosen : attr.wirePolicy scope.constants = .ok (some policy))
      (passes : policy.checkBinary payload = .ok ()) :
      VettedPayload scope attr payload
  | nest {attr : Attribute} {payload : Bytes} {set : AttributeSet}
      (kind : attr.kind = .nest) (contents : attr.contents scope = .ok set)
      (inner : Vetted scope set payload) :
      VettedPayload scope attr payload
  | scalars {attr : Attribute} {payload : Bytes} {type : ScalarType} {raws : List RawAttribute}
      (kind : attr.kind = .arrayNest) (scalar : attr.entryScalar? = some type)
      (parted : Stream.split payload = .ok raws) :
      VettedPayload scope attr payload
  | nests {attr : Attribute} {payload : Bytes} {set : AttributeSet} {raws : List RawAttribute}
      (kind : attr.kind = .arrayNest) (nested : attr.entryScalar? = none)
      (contents : attr.contents scope = .ok set) (parted : Stream.split payload = .ok raws)
      (inner : ∀ raw ∈ raws, Vetted scope set raw.payload) :
      VettedPayload scope attr payload

end

/-- All parts of a value pass the policies of their attributes. -/
def Passing (scope : Scope) (attr : Attribute) (found : Value) : Prop :=
  ∀ part ∈ found.parts scope attr, part.1.accepts scope.constants part.2 = true

variable {scope : Scope} {set : AttributeSet} {attr : Attribute}

/-- The content of a text is found again behind a terminator of its own. -/
theorem textContent_again {terminated : Bool} {payload content : Bytes}
    (found : WirePolicy.textContent terminated payload = .ok content) :
    WirePolicy.textContent terminated (content ++ [0]) = .ok content := by
  cases terminated with
  | false => simp [WirePolicy.textContent]
  | true =>
      simp only [WirePolicy.textContent, if_true] at found
      split at found
      · rw [← Except.ok.inj found]
        have kept : ∀ byte ∈ payload.untilZero, (byte != 0) = true :=
          List.all_eq_true.1 List.all_takeWhile
        have cut : Bytes.untilZero (payload.untilZero ++ [0]) = payload.untilZero := by
          rw [Bytes.untilZero, List.takeWhile_append_of_pos kept]
          simp
        simp [WirePolicy.textContent, cut]
      · cases found

/-- A content that has passed its check passes it once more. -/
theorem isOk_checkText_again {terminated : Bool} {maxLength : Option UInt64}
    {payload content : Bytes}
    (passes : WirePolicy.checkText (.text terminated maxLength) payload = .ok content) :
    (WirePolicy.checkText (.text terminated maxLength) (content ++ [0])).isOk = true := by
  have found := textContent_of_checkText passes
  have same : WirePolicy.checkText (.text terminated maxLength) (content ++ [0]) =
      WirePolicy.checkText (.text terminated maxLength) payload := by
    simp only [WirePolicy.checkText, found, textContent_again found]
  rw [same, passes]
  rfl

/-- The handling peer looks for a policy of every number, text and binary payload. -/
theorem wirePolicy_of_policyOf {policy : Option WirePolicy}
    (asks : policyOf scope .handling attr = CodecError.lift (attr.wirePolicy scope.constants))
    (chosen : policyOf scope .handling attr = .ok policy) :
    attr.wirePolicy scope.constants = .ok policy := by
  rwa [asks, CodecError.lift_eq_ok_iff] at chosen

/-- A scalar always has a policy. -/
theorem scalar_policy {type : ScalarType} (kind : attr.kind = .scalar type)
    {policy : Option WirePolicy} (chosen : attr.wirePolicy scope.constants = .ok policy) :
    policy.isSome = true := by
  simp only [Attribute.wirePolicy, kind, map_eq_ok_iff] at chosen
  obtain ⟨_, _, rfl⟩ := chosen
  rfl

/-- The handling peer takes a number that is as wide as its type and passes its policy. -/
theorem scalar_eq_ok_iff {type : ScalarType} (kind : attr.kind = .scalar type) {payload : Bytes}
    {found : Value} :
    value scope .handling attr payload = .ok found ↔
      payload.length = type.width ∧
        found = .scalar (Scalar.ofBytes attr.isBigEndian type payload) ∧
        ∃ policy, attr.wirePolicy scope.constants = .ok (some policy) ∧
          policy.checkScalar found = .ok () := by
  have asks : policyOf scope .handling attr = CodecError.lift (attr.wirePolicy scope.constants) := by
    simp [policyOf, kind]
  rw [value_leaf (by simp [kind]) (by simp [kind]), leaf, asks, bind_eq_ok_iff]
  simp only [CodecError.lift_eq_ok_iff, kind, bind_eq_ok_iff, readScalar_eq_ok_iff]
  constructor
  · rintro ⟨policy, chosen, number, ⟨width, rfl⟩, taken⟩
    obtain ⟨rule, rfl⟩ := Option.isSome_iff_exists.1 (scalar_policy kind chosen)
    simp only [bind_eq_ok_iff, checked_eq_ok_iff, pure_eq_ok_iff] at taken
    obtain ⟨_, passes, rfl⟩ := taken
    exact ⟨width, rfl, rule, chosen, passes⟩
  · rintro ⟨width, rfl, rule, chosen, passes⟩
    refine ⟨some rule, chosen, _, ⟨width, rfl⟩, ?_⟩
    simp only [bind_eq_ok_iff, checked_eq_ok_iff, pure_eq_ok_iff, and_true]
    exact ⟨(), passes⟩

/-- Binary data always has a policy. -/
theorem binary_policy (kind : attr.kind = .binary) {policy : Option WirePolicy}
    (chosen : attr.wirePolicy scope.constants = .ok policy) : policy.isSome = true := by
  simp only [Attribute.wirePolicy, kind] at chosen
  split at chosen
  · exact Except.ok.inj chosen ▸ rfl
  · exact Except.ok.inj chosen ▸ rfl
  · cases chosen

/-- A leaf that is read was vetted and passes its policy. -/
theorem vetted_leaf {payload : Bytes} {found : Value}
    (taken : leaf scope .handling attr payload = .ok found) :
    VettedPayload scope attr payload ∧ Passing scope attr found := by
  simp only [leaf, bind_eq_ok_iff] at taken
  obtain ⟨policy, chosen, taken⟩ := taken
  cases kind : attr.kind with
  | scalar type =>
      have chosen := wirePolicy_of_policyOf (by simp [policyOf, kind]) chosen
      obtain ⟨rule, rfl⟩ := Option.isSome_iff_exists.1 (scalar_policy kind chosen)
      simp only [kind, bind_eq_ok_iff] at taken
      obtain ⟨number, read, taken⟩ := taken
      obtain ⟨width, rfl⟩ := readScalar_eq_ok_iff.1 read
      simp only [checked_eq_ok_iff, pure_eq_ok_iff] at taken
      obtain ⟨_, passes, rfl⟩ := taken
      refine ⟨.scalar kind width chosen passes, ?_⟩
      simpa [Passing, Value.parts, Attribute.accepts, chosen, WirePolicy.accepts] using
        isOk_iff.2 passes
  | flag =>
      simp only [kind] at taken
      split at taken
      · rename_i empty
        rw [pure_eq_ok_iff] at taken
        subst taken
        rw [List.isEmpty_iff.1 empty]
        exact ⟨.flag kind, by simp [Passing, Value.parts, Attribute.accepts]⟩
      · cases taken
  | text =>
      have policyIs : attr.wirePolicy scope.constants =
          .ok (some (.text (!attr.mayLackTerminator) attr.checks.maxLength)) := by
        simp [Attribute.wirePolicy, kind, Attribute.mayLackTerminator]
      have chosen := wirePolicy_of_policyOf (by simp [policyOf, kind]) chosen
      obtain rfl := Except.ok.inj (policyIs.symm.trans chosen)
      simp only [kind, readText, bind_eq_ok_iff, checked_eq_ok_iff] at taken
      obtain ⟨content, passes, taken⟩ := taken
      split at taken
      · rename_i text valid
        rw [pure_eq_ok_iff] at taken
        subst taken
        rw [Bytes.toText?_eq_some_iff] at valid
        subst valid
        refine ⟨.text kind chosen passes, ?_⟩
        simpa [Passing, Value.parts, Attribute.accepts, chosen, WirePolicy.accepts] using
          isOk_checkText_again passes
      · cases taken
  | binary =>
      have chosen := wirePolicy_of_policyOf (by simp [policyOf, kind]) chosen
      obtain ⟨rule, rfl⟩ := Option.isSome_iff_exists.1 (binary_policy kind chosen)
      simp only [kind, bind_eq_ok_iff, checked_eq_ok_iff, pure_eq_ok_iff] at taken
      obtain ⟨_, passes, rfl⟩ := taken
      refine ⟨.binary kind chosen passes, ?_⟩
      simpa [Passing, Value.parts, Attribute.accepts, chosen, WirePolicy.accepts] using
        isOk_iff.2 passes
  | _ => simp [kind] at taken

/-- The handling peer skips a defined attribute only if it carries nothing. -/
theorem defined_of_recognise {allowed : Option AllowedList} {type : Nat} {known : Option Attribute}
    (taken : recognise .handling set allowed type = .ok known) :
    ∃ attr, set.withNumber? type = some attr ∧ (known = some attr ∨ CarriesNothing attr) := by
  unfold recognise at taken
  cases numbered : set.withNumber? type with
  | none => simp [numbered] at taken
  | some attr =>
      refine ⟨attr, rfl, ?_⟩
      simp only [numbered] at taken
      split at taken
      · cases taken
      · cases kind : attr.kind <;> simp_all [CarriesNothing, eq_comm]

/-- A stream that the handling peer accepts is vetted, and so is the message in it. -/
def MessageVetted (scope : Scope) (data : Bytes) : Prop :=
  ∀ set allowed found, message scope .handling set allowed data = .ok found →
    Vetted scope set data ∧ found.PassesPolicies scope set

/-- The same for the payload of one attribute. -/
def ValueVetted (scope : Scope) (payload : Bytes) : Prop :=
  ∀ attr found, value scope .handling attr payload = .ok found →
    VettedPayload scope attr payload ∧ Passing scope attr found

/-- A nest passes where its members do. -/
theorem passing_nest {members : Message} (contents : attr.contents scope = .ok set)
    (inner : members.PassesPolicies scope set) : Passing scope attr (.nest members) := by
  rw [Passing, Value.parts_nest contents]
  exact List.forall_mem_cons.2 ⟨rfl, inner⟩

/-- A value is vetted where the messages inside are. -/
theorem valueVetted {payload : Bytes}
    (inner : ∀ data : Bytes, data.length ≤ payload.length → MessageVetted scope data) :
    ValueVetted scope payload := by
  intro attr found taken
  cases obtained_of_value taken with
  | nest kind contents inside =>
      obtain ⟨vetted, passes⟩ := inner payload (Nat.le_refl _) _ none _ inside
      exact ⟨.nest kind contents vetted, passing_nest contents passes⟩
  | scalars kind scalar parted _ =>
      refine ⟨.scalars kind scalar parted, ?_⟩
      rw [Passing, Value.parts_array, scalar]
      exact List.forall_mem_cons.2 ⟨rfl, by simp⟩
  | @nests set raws messages kind nested contents parted each =>
      have vetted (raw : RawAttribute) (among : raw ∈ raws) : MessageVetted scope raw.payload :=
        inner raw.payload (Nat.le_of_lt (Stream.payload_lt parted among))
      constructor
      · refine .nests kind nested contents parted fun raw among => ?_
        obtain ⟨members, _, taken⟩ := exists_of_forall₂ each.flip raw among
        exact (vetted raw among set none members taken).1
      · rw [Passing, Value.parts_array, nested]
        refine List.forall_mem_cons.2 ⟨rfl, ?_⟩
        simp only [Option.isSome_none, Bool.false_eq_true, if_false, List.forall_mem_flatMap,
          List.forall_mem_map]
        intro members member
        obtain ⟨raw, among, taken⟩ := exists_of_forall₂ each members member
        exact passing_nest contents (vetted raw among set none members taken).2
  | leaf _ _ taken => exact vetted_leaf taken

/-- What is gathered of passing values passes. -/
theorem passing_gathered {values : List Value} {found : Value}
    (each : ∀ value ∈ values, Passing scope attr value)
    (held : gathered attr values = some found) : Passing scope attr found := by
  unfold gathered at held
  split at held
  · split at held
    · cases held
    · rw [← Option.some.inj held, Passing, Value.parts, Value.partsOfEach_eq_flatMap,
        List.forall_mem_flatMap]
      exact each
  · exact each found (List.mem_of_getLast? held)

/-- A message is vetted where the values inside are. -/
theorem messageVetted {data : Bytes}
    (inner : ∀ payload : Bytes, payload.length < data.length → ValueVetted scope payload) :
    MessageVetted scope data := by
  intro set allowed found taken
  simp only [message_eq, bind_eq_ok_iff, pure_eq_ok_iff, attributes_eq_ok_iff] at taken
  obtain ⟨raws, parted, picked, chosen, values, done, rfl⟩ := taken
  have vetted (raw : RawAttribute) (among : raw ∈ raws) : ValueVetted scope raw.payload :=
    inner raw.payload (Stream.payload_lt parted among)
  constructor
  · refine .intro parted (fun raw among => ?_) fun raw among attr numbered => ?_
    · obtain ⟨known, recognised, _⟩ := (picked_of_recognise chosen).2 raw among
      obtain ⟨attr, numbered, _⟩ := defined_of_recognise recognised
      rw [numbered]
      rfl
    · obtain ⟨known, recognised, kept⟩ := (picked_of_recognise chosen).2 raw among
      obtain ⟨other, same, taken⟩ := defined_of_recognise recognised
      obtain rfl : attr = other := Option.some.inj (numbered.symm.trans same)
      rcases taken with taken | nothing
      · obtain ⟨result, read⟩ := exists_mapM_iff.1 ⟨values, done⟩ _ (kept attr taken)
        exact (vetted raw among attr _ (read_eq_ok_iff.1 read).2).1
      · exact .nothing nothing
  · have sources : ∀ entry ∈ values, entry.1 ∈ set.attrs.values ∧
        Passing scope entry.1 entry.2 := by
      intro entry member
      obtain ⟨source, inside, held⟩ := mem_of_mapM done entry member
      obtain ⟨same, read⟩ := read_eq_ok_iff.1 held
      obtain ⟨among, listed⟩ := source_of_pick chosen source inside
      rw [same]
      exact ⟨listed, (vetted _ among _ _ read).2⟩
    intro part inside
    obtain ⟨attr, listed, found, held, inside⟩ := Message.mem_parts_iff.1 inside
    have only : ∀ entry ∈ values, entry.1.name = attr.name → entry.1 = attr :=
      fun entry member named => eq_of_name listed (sources entry member).1 named
    rw [get?_collect only] at held
    refine passing_gathered (fun item member => ?_) held part inside
    obtain ⟨entry, among, rfl⟩ := List.mem_map.1 member
    obtain ⟨member, named⟩ := List.mem_filter.1 among
    exact only entry member (by simpa using named) ▸ (sources entry member).2

/-- A message is vetted. -/
theorem message_vetted (scope : Scope) (data : Bytes) : MessageVetted scope data :=
  induction_on_length (fun _ => valueVetted) (fun _ => messageVetted) data

end Decoding

namespace Family

open Outcome

/-- What the handling peer accepts has been checked throughout. At every depth, the attributes of
the stream are defined in their sets, and each number, text and binary payload, whether kept or
replaced by a later one, has a policy that accepts it. So all values of the message pass the
policies of their attributes. -/
theorem vetted_of_handling {family : Family} {set : String} {data : Bytes} {message : Message}
    (decoded : family.decode .handling set data = .ok message) :
    ∃ attrs, family.attributeSet set = .ok attrs ∧
      Decoding.Vetted family.toScope attrs data ∧
      message.PassesPolicies family.toScope attrs := by
  simp only [decode, bind_eq_ok_iff, CodecError.lift_eq_ok_iff] at decoded
  obtain ⟨attrs, declared, read⟩ := decoded
  exact ⟨attrs, declared, Decoding.message_vetted family.toScope data attrs none message read⟩

/-- A number with a minimum, in the set itself and in those of a nest and of an array. -/
def watched : Spec.File where
  license := Spec.acceptedLicense
  family :=
    { name := "f"
      attributeSets :=
        [{ name := "f"
           attributes :=
            [{ name := "level", kind := some "u8", checks := some { min := some 5 } },
             { name := "inner", kind := some "nest", nestedAttributes := some "part" },
             { name := "list", kind := some "array-nest", nestedAttributes := some "entry" }] },
         { name := "part"
           attributes :=
            [{ name := "size", kind := some "u8", multi := some true,
               checks := some { min := some 2 } }] },
         { name := "entry"
           attributes :=
            [{ name := "size", kind := some "u8", checks := some { min := some 3 } }] }]
      operations := { list := [{ name := "get", attributeSet := some "f" }] } }

theorem isSome_ofSpec_watched : (ofSpec watched []).toOption.isSome = true := by
  decide +kernel

/-- The family whose numbers have a minimum. -/
def watchedFamily : Family :=
  (ofSpec watched []).toOption.get isSome_ofSpec_watched

/-- Two levels, a nest of two sizes, and an array of one entry. -/
def watchedStream : Bytes :=
  [5, 0, 1, 0, 5, 0, 0, 0, 5, 0, 1, 0, 9, 0, 0, 0,
   20, 0, 2, 128, 5, 0, 1, 0, 2, 0, 0, 0, 5, 0, 1, 0, 3, 0, 0, 0,
   16, 0, 3, 128, 12, 0, 1, 128, 5, 0, 1, 0, 4, 0, 0, 0]

/-- The first level is replaced by the second, and was checked like it. -/
theorem vetted_of_handling_watched :
    watchedFamily.decode .handling "f" watchedStream =
        .ok [("level", .scalar ⟨.u8, 9⟩),
          ("inner", .nest [("size", .multi [.scalar ⟨.u8, 2⟩, .scalar ⟨.u8, 3⟩])]),
          ("list", .array [.nest [("size", .scalar ⟨.u8, 4⟩)]])] ∧
      ∃ attrs, watchedFamily.attributeSet "f" = .ok attrs ∧
        Decoding.Vetted watchedFamily.toScope attrs watchedStream ∧
        Message.PassesPolicies watchedFamily.toScope attrs
          [("level", .scalar ⟨.u8, 9⟩),
            ("inner", .nest [("size", .multi [.scalar ⟨.u8, 2⟩, .scalar ⟨.u8, 3⟩])]),
            ("list", .array [.nest [("size", .scalar ⟨.u8, 4⟩)]])] := by
  have decoded : watchedFamily.decode .handling "f" watchedStream =
      .ok [("level", .scalar ⟨.u8, 9⟩),
        ("inner", .nest [("size", .multi [.scalar ⟨.u8, 2⟩, .scalar ⟨.u8, 3⟩])]),
        ("list", .array [.nest [("size", .scalar ⟨.u8, 4⟩)]])] := by
    decide +kernel
  exact ⟨decoded, vetted_of_handling decoded⟩

end Family

end NetlinkFamily
