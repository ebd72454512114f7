import NetlinkFamily.Proofs.Decoding.Collecting
import NetlinkFamily.Proofs.Message.Terminator

namespace NetlinkFamily

/-- Texts that need no terminator end at their first NUL character. -/
def Rewriting.lenient : Rewriting where
  text attr content := if attr.mayLackTerminator then Text.untilNul content else content
  members _ message := message

namespace Decoding

open Outcome

variable {scope : Scope} {set : AttributeSet} {allowed : Option AllowedList}

/-- The originating peer takes every attribute that the handling peer takes. -/
theorem recognise_lenient {type : Nat} {known : Option Attribute}
    (taken : recognise .handling set allowed type = .ok known) :
    recognise .originating set allowed type = .ok known := by
  unfold recognise at taken ⊢
  cases numbered : set.withNumber? type with
  | none => simp [numbered] at taken
  | some attr =>
      simp only [numbered] at taken ⊢
      split at taken
      · cases taken
      · exact taken

/-- What the handling peer picks, the originating one does. -/
theorem pick_lenient {R : Type} {typeOf : R → Nat} {raws : List R}
    {found picked : List (Attribute × R)}
    (taken : pick .handling set allowed typeOf found raws = .ok picked) :
    pick .originating set allowed typeOf found raws = .ok picked := by
  induction raws generalizing found with
  | nil => exact taken
  | cons raw rest ih =>
      obtain ⟨known, recognised, fresh, taken⟩ := pick_cons_eq_ok_iff.1 taken
      exact pick_cons_eq_ok_iff.2 ⟨known, recognise_lenient recognised, fresh, ih taken⟩

/-- A zero byte behind a text, or none, leaves the cut of the text where it is. -/
theorem untilZero_of_terminated {payload content : Bytes} {text : String}
    (read : WirePolicy.textContent false payload = .ok content)
    (valid : content.toText? = some text) :
    payload.untilZero = Bytes.ofText (Text.untilNul text) := by
  rw [Bytes.toText?_eq_some_iff] at valid
  simp only [WirePolicy.textContent, Bool.false_eq_true, if_false] at read
  split at read
  · rename_i ended
    simp only [Except.ok.injEq] at read
    obtain ⟨front, rfl⟩ := List.getLast?_eq_some_iff.1 ended
    rw [List.dropLast_concat] at read
    rw [read, valid]
    exact Bytes.untilZero_ofText_append text [0] rfl
  · simp only [Except.ok.injEq] at read
    rw [read, valid]
    simpa using Bytes.untilZero_ofText_append text [] rfl

/-- The content that a text policy accepts is what its terminator rule leaves. -/
theorem textContent_of_checkText {terminated : Bool} {maxLength : Option UInt64}
    {payload content : Bytes}
    (accepted : WirePolicy.checkText (.text terminated maxLength) payload = .ok content) :
    WirePolicy.textContent terminated payload = .ok content := by
  simp only [WirePolicy.checkText, bind_eq_ok_iff] at accepted
  obtain ⟨found, read, accepted⟩ := accepted
  have same : found = content := by
    split at accepted
    · simpa using accepted
    · split at accepted
      · cases accepted
      · simpa using accepted
  exact same ▸ read

/-- A text that is checked is read without the check, cut where it ends. -/
theorem readText_lenient {attr : Attribute} {maxLength : Option UInt64} {payload : Bytes}
    {found : Value}
    (taken : readText attr (some (.text (!attr.mayLackTerminator) maxLength)) payload =
      .ok found) :
    readText attr none payload = .ok (Rewriting.lenient.value scope attr found) := by
  simp only [readText, bind_eq_ok_iff, checked_eq_ok_iff] at taken ⊢
  obtain ⟨content, accepted, taken⟩ := taken
  have read := textContent_of_checkText accepted
  cases valid : content.toText? with
  | none => simp [valid] at taken
  | some text =>
      simp only [valid, pure_eq_ok_iff] at taken
      subst taken
      refine ⟨payload.untilZero, rfl, ?_⟩
      cases open_ : attr.mayLackTerminator with
      | false =>
          rw [open_] at read
          simp only [WirePolicy.textContent, Bool.not_false, if_true] at read
          split at read
          · simp only [Except.ok.injEq] at read
            rw [read, valid]
            simp [Rewriting.lenient, open_]
          · cases read
      | true =>
          rw [open_] at read
          rw [untilZero_of_terminated read valid, Bytes.toText?_ofText]
          simp [Rewriting.lenient, open_]

/-- A leaf that is checked is read without the check. -/
theorem leaf_lenient {attr : Attribute} {payload : Bytes} {found : Value}
    (taken : leaf scope .handling attr payload = .ok found) :
    leaf scope .originating attr payload = .ok (Rewriting.lenient.value scope attr found) := by
  simp only [leaf, bind_eq_ok_iff] at taken ⊢
  obtain ⟨policy, chosen, taken⟩ := taken
  refine ⟨none, by simp [policyOf], ?_⟩
  cases kind : attr.kind with
  | scalar type =>
      simp only [kind, bind_eq_ok_iff] at taken ⊢
      obtain ⟨number, read, taken⟩ := taken
      obtain ⟨_, rfl⟩ := check_eq_ok_iff.1 taken
      obtain ⟨_, rfl⟩ := readScalar_eq_ok_iff.1 read
      exact ⟨_, read, rfl⟩
  | flag =>
      simp only [kind] at taken ⊢
      split at taken
      · rename_i empty
        rw [pure_eq_ok_iff] at taken
        subst taken
        rw [if_pos empty]
        rfl
      · cases taken
  | text =>
      simp only [kind] at taken ⊢
      have policyIs : policy = some (.text (!attr.mayLackTerminator) attr.checks.maxLength) := by
        simpa [policyOf, kind, Attribute.wirePolicy, CodecError.lift, Attribute.mayLackTerminator,
          eq_comm] using chosen
      rw [policyIs] at taken
      exact readText_lenient taken
  | binary =>
      simp only [kind] at taken ⊢
      obtain ⟨_, rfl⟩ := check_eq_ok_iff.1 taken
      rfl
  | _ => simp [kind] at taken

/-- What the handling peer makes of a stream, the originating peer makes of it up to texts that
need no terminator. -/
def MessageLenient (scope : Scope) (data : Bytes) : Prop :=
  ∀ set allowed found, message scope .handling set allowed data = .ok found →
    message scope .originating set allowed data = .ok (Rewriting.lenient.message scope set found)

/-- The same for the payload of one attribute. -/
def ValueLenient (scope : Scope) (payload : Bytes) : Prop :=
  ∀ attr found, value scope .handling attr payload = .ok found →
    value scope .originating attr payload = .ok (Rewriting.lenient.value scope attr found)

/-- The peers agree on an array if they agree on the shorter streams inside of it. -/
theorem array_lenient {attr : Attribute} (kind : attr.kind = .arrayNest) {payload : Bytes}
    (inner : ∀ data : Bytes, data.length ≤ payload.length → MessageLenient scope data)
    {found : Value} (taken : value scope .handling attr payload = .ok found) :
    value scope .originating attr payload = .ok (Rewriting.lenient.value scope attr found) := by
  rw [value_arrayNest kind] at taken ⊢
  simp only [bind_eq_ok_iff] at taken ⊢
  obtain ⟨entries, parted, taken⟩ := taken
  refine ⟨entries, parted, ?_⟩
  have shorter : ∀ entry ∈ entries, entry.payload.length ≤ payload.length := fun entry member =>
    Nat.le_of_lt (Stream.payload_lt (attributes_eq_ok_iff.1 parted) member)
  cases scalars : attr.entryScalar? with
  | some type =>
      simp only [scalars, bind_eq_ok_iff, pure_eq_ok_iff] at taken ⊢
      obtain ⟨numbers, read, rfl⟩ := taken
      refine ⟨_, mapM_transfer ?_ read, (Rewriting.value_array scope _ attr numbers).symm⟩
      intro entry _ number held
      obtain ⟨_, rfl⟩ := readScalar_eq_ok_iff.1 held
      exact held
  | none =>
      simp only [scalars, bind_eq_ok_iff, pure_eq_ok_iff] at taken ⊢
      obtain ⟨set, known, nests, read, rfl⟩ := taken
      refine ⟨set, known, _, mapM_transfer ?_ read,
        (Rewriting.value_array scope _ attr nests).symm⟩
      intro entry member nest held
      rw [bind_eq_ok_iff] at held ⊢
      obtain ⟨members, taken, same⟩ := held
      rw [pure_eq_ok_iff] at same
      subst same
      refine ⟨_, inner _ (shorter entry member) set none members taken, ?_⟩
      rw [pure_eq_ok_iff, Rewriting.value_nest scope _ known]

/-- A value is read leniently where the messages inside are. -/
theorem value_lenient {payload : Bytes}
    (inner : ∀ data : Bytes, data.length ≤ payload.length → MessageLenient scope data) :
    ValueLenient scope payload := by
  intro attr found taken
  by_cases isNest : attr.kind = .nest
  · rw [value_nest isNest] at taken ⊢
    simp only [bind_eq_ok_iff, pure_eq_ok_iff] at taken ⊢
    obtain ⟨set, known, members, read, rfl⟩ := taken
    exact ⟨set, known, _, inner payload (Nat.le_refl _) set none members read,
      (Rewriting.value_nest scope Rewriting.lenient known members).symm⟩
  · by_cases isArray : attr.kind = .arrayNest
    · exact array_lenient isArray inner taken
    · rw [value_leaf isNest isArray] at taken ⊢
      exact leaf_lenient taken

/-- A message is read leniently where the values inside are. -/
theorem message_lenient_of_values {data : Bytes}
    (inner : ∀ payload : Bytes, payload.length < data.length → ValueLenient scope payload) :
    MessageLenient scope data := by
  intro set allowed found taken
  rw [message_eq] at taken ⊢
  simp only [bind_eq_ok_iff, pure_eq_ok_iff] at taken ⊢
  obtain ⟨raws, parted, picked, chosen, values, done, rfl⟩ := taken
  have source := source_of_pick chosen
  refine ⟨raws, parted, picked, pick_lenient chosen, rewriteValues scope .lenient values, ?_, ?_⟩
  · refine mapM_transfer (fun entry member result held => ?_) done
    obtain ⟨same, taken⟩ := read_eq_ok_iff.1 held
    have shorter := Stream.payload_lt (attributes_eq_ok_iff.1 parted) (source entry member).1
    have lenient := inner _ shorter entry.1 result.2 taken
    rw [← same] at lenient
    exact read_eq_ok_iff.2 ⟨same, same ▸ lenient⟩
  · refine collect_rewriteValues fun entry member => AttributeSet.get?_name ?_
    obtain ⟨picked, inside, held⟩ := mem_of_mapM done entry member
    rw [(read_eq_ok_iff.1 held).1]
    exact (source picked inside).2

/-- A message is read leniently. -/
theorem message_lenient (scope : Scope) (data : Bytes) : MessageLenient scope data :=
  induction_on_length (fun _ => value_lenient) (fun _ => message_lenient_of_values) data

end Decoding

namespace Rewriting

/-- No attribute of any set may lack its terminator. -/
def AllTerminated (scope : Scope) : Prop :=
  ∀ set ∈ scope.sets.values, ∀ attr ∈ set.attrs.values, attr.mayLackTerminator = false

instance (scope : Scope) : Decidable (AllTerminated scope) :=
  inferInstanceAs (Decidable (∀ set ∈ _, ∀ attr ∈ _, _ = false))

/-- Leniency changes no member where all texts are terminated. -/
theorem lenient_member_eq_self {scope : Scope} (all : AllTerminated scope) {set : AttributeSet}
    (declared : set ∈ scope.sets.values) {value : Value}
    (same : ∀ attr : Attribute, attr.mayLackTerminator = false →
      lenient.value scope attr value = value) (name : String) :
    lenient.member scope set name value = value := by
  unfold member
  split
  · rename_i attr found
    exact same attr (all set declared attr (AttributeSet.name_of_get? found).2)
  · rfl

/-- A value stays as it is where every text needs its terminator. -/
theorem lenient_value_eq_self {scope : Scope} (all : AllTerminated scope) (value : Value) :
    ∀ attr : Attribute, attr.mayLackTerminator = false →
      lenient.value scope attr value = value := by
  induction value using Value.induction with
  | scalar number => exact fun _ _ => rfl
  | flag => exact fun _ _ => rfl
  | text content =>
      intro attr closed
      simp [lenient, closed]
  | binary bytes => exact fun _ _ => rfl
  | nest members ih =>
      intro attr _
      cases inner : attr.contents scope with
      | error error => simp [Rewriting.value, inner]
      | ok set =>
          have inScope := Attribute.mem_sets_of_contents inner
          rw [value_nest scope _ inner, Value.nest.injEq]
          exact eachMember_eq_self scope lenient fun entry member =>
            lenient_member_eq_self all inScope (ih entry member _ List.mem_cons_self) entry.1
  | array entries ih =>
      intro attr closed
      simp only [value_array, Value.array.injEq]
      exact (List.map_congr_left fun entry member => ih entry member attr closed).trans
        (List.map_id _)
  | multi items ih =>
      intro attr closed
      simp only [value_multi, Value.multi.injEq]
      exact (List.map_congr_left fun item member => ih item member attr closed).trans
        (List.map_id _)

/-- A message stays as it is where every text needs its terminator. -/
theorem lenient_message_eq_self {scope : Scope} (all : AllTerminated scope) {name : String}
    {set : AttributeSet} (declared : scope.sets.get? name = some set) (message : Message) :
    lenient.message scope set message = message := by
  have inScope := Registry.mem_values_of_get? declared
  exact eachMember_eq_self scope lenient fun entry _ =>
    lenient_member_eq_self all inScope (lenient_value_eq_self all entry.2) entry.1

end Rewriting

namespace Family

open Outcome

/-- What the handling peer decodes, the originating one decodes leniently. -/
theorem decode_lenient {family : Family} {set : String} {data : Bytes} {message : Message}
    (taken : family.decode .handling set data = .ok message) :
    ∃ attrs, family.attributeSet set = .ok attrs ∧
      family.decode .originating set data =
        .ok (Rewriting.lenient.message family.toScope attrs message) := by
  simp only [decode, bind_eq_ok_iff, CodecError.lift_eq_ok_iff] at taken ⊢
  obtain ⟨attrs, declared, taken⟩ := taken
  exact ⟨attrs, declared, attrs, declared,
    Decoding.message_lenient family.toScope data attrs none message taken⟩

/-- What the handling peer decodes for an operation, the originating one decodes leniently. -/
theorem decodeOperation_lenient {family : Family} {operation : String} {mode : OperationMode}
    {direction : Direction} {data : Bytes} {message : Message}
    (taken : family.decodeOperation .handling operation mode direction data = .ok message) :
    ∃ set attrs, family.setOf operation = .ok set ∧ family.attributeSet set = .ok attrs ∧
      family.decodeOperation .originating operation mode direction data =
        .ok (Rewriting.lenient.message family.toScope attrs message) := by
  simp only [decodeOperation, bind_eq_ok_iff, CodecError.lift_eq_ok_iff] at taken ⊢
  obtain ⟨names, allowed, attrs, ⟨set, used, declared⟩, taken⟩ := taken
  exact ⟨set, attrs, used, declared, names, allowed, attrs, ⟨set, used, declared⟩,
    Decoding.message_lenient family.toScope data attrs _ message taken⟩

/-- What the handling peer accepts, the originating peer reads as the same message, but for texts
that need no terminator, which it ends at their first NUL character. Where there are no such texts
the two messages are equal. -/
theorem originating_of_handling (family : Family) :
    (∀ set data message, family.decode .handling set data = .ok message →
      ∃ attrs, family.attributeSet set = .ok attrs ∧
        family.decode .originating set data =
          .ok (Rewriting.lenient.message family.toScope attrs message)) ∧
    (∀ operation mode direction data message,
      family.decodeOperation .handling operation mode direction data = .ok message →
        ∃ set attrs, family.setOf operation = .ok set ∧ family.attributeSet set = .ok attrs ∧
          family.decodeOperation .originating operation mode direction data =
            .ok (Rewriting.lenient.message family.toScope attrs message)) ∧
    (Rewriting.AllTerminated family.toScope →
      (∀ set data message, family.decode .handling set data = .ok message →
        family.decode .originating set data = .ok message) ∧
      (∀ operation mode direction data message,
        family.decodeOperation .handling operation mode direction data = .ok message →
          family.decodeOperation .originating operation mode direction data = .ok message)) := by
  refine ⟨fun set data message => decode_lenient,
    fun operation mode direction data message => decodeOperation_lenient,
    fun all => ⟨fun set data message taken => ?_,
      fun operation mode direction data message taken => ?_⟩⟩
  · obtain ⟨attrs, declared, read⟩ := decode_lenient taken
    rw [Scope.attributeSet_eq_ok_iff] at declared
    rwa [Rewriting.lenient_message_eq_self all declared] at read
  · obtain ⟨set, attrs, _, declared, read⟩ := decodeOperation_lenient taken
    rw [Scope.attributeSet_eq_ok_iff] at declared
    rwa [Rewriting.lenient_message_eq_self all declared] at read

/-- Labels inside of a nest, which may or may not lack their terminators. -/
def labels (unterminatedOk : Bool) : Spec.File where
  license := Spec.acceptedLicense
  family :=
    { name := "f"
      attributeSets :=
        [{ name := "f"
           attributes :=
            [{ name := "inner", kind := some "nest", nestedAttributes := some "part" }] },
         { name := "part"
           attributes :=
            [{ name := "label"
               kind := some "string"
               checks := some { unterminatedOk := some unterminatedOk } }] }]
      operations :=
        { list :=
            [{ name := "get"
               attributeSet := some "f"
               doMode := some { reply := some { attributes := ["inner"] } } }] } }

/-- The family whose labels may lack their terminators, or may not. -/
def labelFamily (unterminatedOk : Bool) : Family :=
  (ofSpec (labels unterminatedOk) []).toOption.get (by cases unterminatedOk <;> decide +kernel)

/-- The peers read an unterminated label differently, and a terminated one alike. -/
theorem originating_of_handling_labelFamily :
    ((labelFamily true).decode .handling "f" [12, 0, 1, 128, 7, 0, 1, 0, 97, 0, 98, 0] =
        .ok [("inner", .nest [("label", .text "a\x00b")])] ∧
      (labelFamily true).decode .originating "f" [12, 0, 1, 128, 7, 0, 1, 0, 97, 0, 98, 0] =
        .ok [("inner", .nest [("label", .text "a")])]) ∧
    (labelFamily false).decodeOperation .originating "get" .call .reply
        [12, 0, 1, 128, 6, 0, 1, 0, 97, 0, 0, 0] =
      .ok [("inner", .nest [("label", .text "a")])] := by
  have taken : (labelFamily true).decode .handling "f" [12, 0, 1, 128, 7, 0, 1, 0, 97, 0, 98, 0] =
      .ok [("inner", .nest [("label", .text "a\x00b")])] := by decide +kernel
  have cut : ((labelFamily true).attributeSet "f").toOption.all fun attrs =>
      Rewriting.lenient.message (labelFamily true).toScope attrs
          [("inner", .nest [("label", .text "a\x00b")])] =
        [("inner", .nest [("label", .text "a")])] := by decide +kernel
  refine ⟨⟨taken, ?_⟩, ?_⟩
  · obtain ⟨attrs, declared, read⟩ := (originating_of_handling (labelFamily true)).1 _ _ _ taken
    rw [declared] at cut
    rw [read, of_decide_eq_true cut]
  · exact ((originating_of_handling (labelFamily false)).2.2 (by decide +kernel)).2 _ _ _ _ _
      (by decide +kernel)

end Family

end NetlinkFamily
