import NetlinkFamily.Proofs.RoundTrip.Values

namespace NetlinkFamily

/-- Whether it is known of every empty array in a message what its entries would be. -/
def Message.KnowsArrays (scope : Scope) (set : AttributeSet) (message : Message) : Prop :=
  ∀ part ∈ message.parts scope set, part.2 = .array [] → part.1.knowsEntries scope = true

instance (scope : Scope) (set : AttributeSet) (message : Message) :
    Decidable (message.KnowsArrays scope set) :=
  inferInstanceAs (Decidable (∀ part ∈ message.parts scope set,
    part.2 = .array [] → part.1.knowsEntries scope = true))

/-- Whether all values in a message pass the policies of their attributes. -/
def Message.PassesPolicies (scope : Scope) (set : AttributeSet) (message : Message) : Prop :=
  ∀ part ∈ message.parts scope set, part.1.accepts scope.constants part.2 = true

instance (scope : Scope) (set : AttributeSet) (message : Message) :
    Decidable (message.PassesPolicies scope set) :=
  inferInstanceAs (Decidable (∀ part ∈ message.parts scope set,
    part.1.accepts scope.constants part.2 = true))

/-- Whether no array occurs twice in a message, at any depth. -/
def Message.RepeatsNoArray (scope : Scope) (set : AttributeSet) (message : Message) : Prop :=
  message.SingleArrays set ∧
    ∀ part ∈ message.parts scope set, part.2.repeatsNoArray scope part.1 = true

instance (scope : Scope) (set : AttributeSet) (message : Message) :
    Decidable (message.RepeatsNoArray scope set) :=
  inferInstanceAs (Decidable (message.SingleArrays set ∧
    ∀ part ∈ message.parts scope set, part.2.repeatsNoArray scope part.1 = true))

namespace Decoding

/-- All parts of a message are readable if its arrays are known, none of them occurs twice, and the
peer asks for no policy that fails. -/
theorem readable_message_iff {scope : Scope} {peer : Peer} {set : AttributeSet}
    {message : Message} :
    (message.SingleArrays set ∧ ∀ part ∈ message.parts scope set, Readable scope peer part) ↔
      message.RepeatsNoArray scope set ∧ message.KnowsArrays scope set ∧
        (peer = .handling → message.PassesPolicies scope set) := by
  constructor
  · rintro ⟨single, readable⟩
    exact ⟨⟨single, fun part member => (readable part member).once⟩,
      fun part member => (readable part member).entries,
      fun handling part member => (readable part member).accepted handling⟩
  · rintro ⟨⟨single, once⟩, known, accepted⟩
    exact ⟨single, fun part member =>
      ⟨known part member, once part member, fun handling => accepted handling part member⟩⟩

/-- Where no array may be repeated, none is. -/
theorem repeatsNoArray_of_unambiguous {scope : Scope} (clear : scope.Unambiguous)
    {set : AttributeSet} (declared : set ∈ scope.sets.values) (message : Message) :
    message.RepeatsNoArray scope set := by
  refine ⟨singleArrays_of_unambiguous (clear set declared) message, fun part _ => ?_⟩
  unfold Value.repeatsNoArray
  split
  · rename_i inner
    exact decide_eq_true
      (singleArrays_of_unambiguous (clear _ (Attribute.mem_sets_of_contents inner)) _)
  · rfl

/-- Where all numbers differ, an encoded message is read back in normal form if no array occurs
twice in it and its parts are readable. -/
theorem message_encode_numbered {scope : Scope} (distinct : scope.DistinctNumbers) (peer : Peer)
    {set : AttributeSet} (declared : set ∈ scope.sets.values) {members : Message} {data : Bytes}
    (done : Encoding.message scope set members = .ok data) (allowed : Option AllowedList)
    (within : ∀ list, allowed = some list → ∀ name ∈ members.names, name ∈ list.names)
    (result : Message) :
    message scope peer set allowed data = .ok result ↔
      (members.RepeatsNoArray scope set ∧ members.KnowsArrays scope set ∧
        (peer = .handling → members.PassesPolicies scope set)) ∧
        result = (Rewriting.normal peer).message scope set members := by
  have each : ∀ entry ∈ members.occurrences set, SingleReads scope peer entry.2 :=
    fun entry _ => (value_reads distinct entry.2).1
  rw [message_reads (distinct set declared) each done allowed within result, readable_message_iff]

/-- Every encoded message is read back in normal form where its parts are readable. -/
theorem message_encode {scope : Scope} (clear : scope.Unambiguous) (peer : Peer)
    {set : AttributeSet} (declared : set ∈ scope.sets.values) {members : Message} {data : Bytes}
    (done : Encoding.message scope set members = .ok data) (allowed : Option AllowedList)
    (within : ∀ list, allowed = some list → ∀ name ∈ members.names, name ∈ list.names)
    (result : Message) :
    message scope peer set allowed data = .ok result ↔
      (members.KnowsArrays scope set ∧ (peer = .handling → members.PassesPolicies scope set)) ∧
        result = (Rewriting.normal peer).message scope set members := by
  rw [message_encode_numbered clear.distinctNumbers peer declared done allowed within result,
    and_iff_right (repeatsNoArray_of_unambiguous clear declared members)]

end Decoding

namespace Family

/-- Where all attributes can be told apart, an encoded message is decoded exactly if it is known
of its empty arrays what their entries would be, and it is then decoded to its normal form. -/
theorem decode_encode (family : Family) (clear : family.Unambiguous) (set : String)
    (message : Message) (data : Bytes) (done : family.encode set message = .ok data) :
    ∃ attrs, family.attributeSet set = .ok attrs ∧
      ∀ result, family.decode .originating set data = .ok result ↔
        message.KnowsArrays family.toScope attrs ∧
          result = (Rewriting.normal .originating).message family.toScope attrs message := by
  obtain ⟨attrs, declared, done⟩ := encode_eq_ok_iff.1 done
  have inScope : attrs ∈ family.sets.values :=
    Registry.mem_values_of_get? (Scope.attributeSet_eq_ok_iff.1 declared)
  refine ⟨attrs, declared, fun result => ?_⟩
  have read := Decoding.message_encode clear .originating inScope done none (by simp) result
  simp only [decode, declared, CodecError.lift, bind, Except.bind]
  simpa using read

/-- Attributes of most kinds. It is not known what the entries of `list` are. -/
def kinds : Spec.File where
  license := Spec.acceptedLicense
  family :=
    { name := "f"
      attributeSets :=
        [{ name := "f"
           attributes :=
            [{ name := "list", kind := some "array-nest" },
             { name := "code"
               kind := some "u16"
               byteOrder := some "big-endian"
               checks := some { min := some 5 } },
             { name := "parts", kind := some "array-nest", nestedAttributes := some "part" },
             { name := "tags", kind := some "string", multi := some true }] },
         { name := "part"
           attributes := [{ name := "label", kind := some "string" }] }]
      operations :=
        { list :=
            [{ name := "set"
               attributeSet := some "f"
               doMode := some
                { request := some { attributes := ["list", "code", "parts", "tags"] } } }] } }

theorem isSome_ofSpec_kinds : (ofSpec kinds []).toOption.isSome = true := by decide +kernel

/-- The family with attributes of most kinds. -/
def kindsFamily : Family :=
  (ofSpec kinds []).toOption.get isSome_ofSpec_kinds

/-- That family is what its description builds. -/
theorem ofSpec_kinds : ofSpec kinds [] = .ok kindsFamily :=
  Outcome.eq_ok_get isSome_ofSpec_kinds

/-- A message with values at several depths. -/
def kindsMessage : Message :=
  [("parts", .array [.nest [("label", .text "x\x00y")]]), ("code", .scalar ⟨.u16, 7⟩),
    ("tags", .multi [.text "a", .text "b"])]

/-- The bytes of a message of that family. -/
def kindsStream : Bytes :=
  [6, 0, 2, 0, 0, 7, 0, 0, 16, 0, 3, 128, 12, 0, 0, 128, 8, 0, 1, 0, 120, 0, 121, 0,
    6, 0, 4, 0, 97, 0, 0, 0, 6, 0, 4, 0, 98, 0, 0, 0]

/-- The message comes back with its repeated attribute in front and its text cut. -/
theorem decode_encode_kinds :
    kindsFamily.encode "f" kindsMessage = .ok kindsStream ∧
      kindsFamily.decode .originating "f" kindsStream =
        .ok [("tags", .multi [.text "a", .text "b"]), ("code", .scalar ⟨.u16, 7⟩),
          ("parts", .array [.nest [("label", .text "x")]])] := by
  have done : kindsFamily.encode "f" kindsMessage = .ok kindsStream := by decide +kernel
  have normal : ((kindsFamily.attributeSet "f").toOption.all fun attrs =>
      kindsMessage.KnowsArrays kindsFamily.toScope attrs ∧
        [("tags", .multi [.text "a", .text "b"]), ("code", .scalar ⟨.u16, 7⟩),
          ("parts", .array [.nest [("label", .text "x")]])] =
        (Rewriting.normal .originating).message kindsFamily.toScope attrs kindsMessage) = true := by
    decide +kernel
  obtain ⟨attrs, declared, read⟩ := decode_encode kindsFamily (by decide +kernel) _ _ _ done
  rw [declared] at normal
  exact ⟨done, (read _).2 (of_decide_eq_true normal)⟩

/-- An empty array without known entries is encoded, but nothing can be decoded. -/
theorem not_forall_decode_encode :
    ¬∀ (file : Spec.File) (excludes : List Pattern) (family : Family),
      ofSpec file excludes = .ok family → family.Unambiguous →
        ∀ set message data, family.encode set message = .ok data →
          ∃ attrs, family.attributeSet set = .ok attrs ∧
            family.decode .originating set data =
              .ok ((Rewriting.normal .originating).message family.toScope attrs message) := by
  intro claim
  obtain ⟨attrs, _, read⟩ := claim kinds [] kindsFamily ofSpec_kinds (by decide +kernel) "f"
    [("list", .array [])] [4, 0, 1, 128] (by decide +kernel)
  have failed : (kindsFamily.decode .originating "f" [4, 0, 1, 128]).isOk = false := by
    decide +kernel
  rw [read] at failed
  cases failed

end Family

end NetlinkFamily
