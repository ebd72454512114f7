import NetlinkFamily.Proofs.Encoding.Content
import NetlinkFamily.Proofs.Encoding.Failure
import NetlinkFamily.Proofs.RoundTrip.Decoded

namespace NetlinkFamily

namespace Message

variable {set : AttributeSet} {message : Message}

/-- An arranged message holds attributes of its set only. -/
theorem exists_of_mem_arranged {entry : String × Value} (member : entry ∈ message.arranged set) :
    ∃ attr ∈ set.attrs.values, message.memberOf? attr = some entry := by
  obtain ⟨attr, listed, found⟩ := List.mem_filterMap.1 member
  refine ⟨attr, ?_, found⟩
  rcases List.mem_append.1 listed with repeated | single
  · exact (List.mem_filter.1 repeated).1
  · exact (List.mem_filter.1 single).1

/-- Arranged members are named in the set. -/
theorem mem_names_of_mem_arranged {name : String} (member : name ∈ (message.arranged set).names) :
    name ∈ set.attrs.names := by
  obtain ⟨entry, inside, rfl⟩ := List.mem_map.1 member
  obtain ⟨attr, listed, found⟩ := exists_of_mem_arranged inside
  rw [name_of_memberOf? found]
  exact Registry.mem_names_of_get? (AttributeSet.get?_name listed)

/-- A member found for an attribute of the set is arranged. -/
theorem mem_arranged_of_memberOf? {attr : Attribute} (listed : attr ∈ set.attrs.values)
    {entry : String × Value} (found : message.memberOf? attr = some entry) :
    entry ∈ message.arranged set := by
  refine List.mem_filterMap.2 ⟨attr, ?_, found⟩
  cases multi : attr.multi <;> simp [listed, multi]

/-- A member that occurs is found for its attribute. -/
theorem memberOf?_of_get? {attr : Attribute} {value : Value}
    (held : message.get? attr.name = some value) (occurs : value ≠ .multi []) :
    message.memberOf? attr = some (attr.name, value) := by
  unfold memberOf?
  rw [held]
  split
  · cases ‹some value = none›
  · rename_i same
    exact absurd (Option.some.inj same) occurs
  · rename_i same
    rw [Option.some.inj same]

/-- Arranging keeps what a message holds for an attribute, unless it occurs zero times. -/
theorem get?_arranged {attr : Attribute} (listed : attr ∈ set.attrs.values) :
    (message.arranged set).get? attr.name = (message.memberOf? attr).map Prod.snd := by
  ext value
  rw [get?_eq_some_iff (nodup_names_arranged set message)]
  constructor
  · intro member
    obtain ⟨other, among, found⟩ := exists_of_mem_arranged member
    have named := name_of_memberOf? found
    rw [Decoding.eq_of_name listed among named.symm] at found
    rw [found]
    rfl
  · intro held
    obtain ⟨⟨name, _⟩, found, rfl⟩ := Option.map_eq_some_iff.1 held
    obtain rfl : name = attr.name := name_of_memberOf? found
    exact mem_arranged_of_memberOf? listed found

end Message

namespace Rewriting

open Encoding

variable {scope : Scope} {set : AttributeSet} {attr : Attribute}

/-- A value agrees with its normal form. -/
def AgreesWithNormal (scope : Scope) (value : Value) : Prop :=
  ∀ attr, WellTyped scope attr value ∨ WellTypedEntry scope attr value →
    value.Everywhere Value.IsRead →
      ((normal .originating).value scope attr value).agrees value = true

/-- Values that agree with their normal forms do so one by one. -/
theorem forall₂_normal_agrees {values : List Value}
    (each : ∀ value ∈ values, ((normal .originating).value scope attr value).agrees value = true) :
    List.Forall₂ (fun value other => value.agrees other = true)
      (values.map ((normal .originating).value scope attr)) values :=
  List.forall₂_map_left_iff.2 (List.forall₂_same.2 each)

/-- A member agrees with its normal form where its parts do. -/
theorem member_normal_agrees {found : Value}
    (each : ∀ part ∈ found :: found.items, AgreesWithNormal scope part)
    (typed : WellTypedMember scope attr found) (read : found.Everywhere Value.IsRead) :
    ((normal .originating).value scope attr found).agrees found = true := by
  obtain ⟨here, inside⟩ := List.forall_mem_cons.1 each
  cases typed with
  | single _ _ one => exact here attr (.inl one) read
  | repeated _ _ items =>
      rw [value_multi, Value.agrees, Value.agreesInOrder_iff]
      exact forall₂_normal_agrees fun item member =>
        inside item member attr (.inl (items item member)) (read.of_mem member)

/-- A message agrees with its normal form: arranging and cutting change nothing in it. -/
theorem message_normal_agrees {members : Message}
    (each : ∀ member ∈ members, ∀ part ∈ member.2 :: member.2.items, AgreesWithNormal scope part)
    (typed : WellTypedMessage scope set members)
    (read : (Value.nest members).Everywhere Value.IsRead) :
    Message.agrees ((normal .originating).message scope set members) members = true := by
  obtain ⟨distinct, occurs⟩ := read.here
  obtain ⟨defined, typed⟩ := typed
  have rewritten (attr : Attribute) (listed : attr ∈ set.attrs.values) :
      Message.get? (eachMember scope (normal .originating) set members) attr.name =
        (members.get? attr.name).map ((normal .originating).value scope attr) :=
    get?_eachMember scope _ listed
  show Message.agrees
    (Message.arranged set (eachMember scope (normal .originating) set members)) members = true
  generalize eachMember scope (normal .originating) set members = turned at rewritten ⊢
  have order := Message.nodup_names_arranged set turned
  refine (Message.agrees_iff order distinct).2 fun name => ?_
  by_cases inSet : name ∈ set.attrs.names
  · obtain ⟨attr, declared⟩ := Registry.exists_get?_of_mem inSet
    obtain ⟨rfl, listed⟩ := AttributeSet.name_of_get? declared
    have here := rewritten attr listed
    rw [Message.get?_arranged listed]
    cases held : members.get? attr.name with
    | none =>
        rw [held] at here
        rw [Message.memberOf?, here]
        exact .none
    | some found =>
        have inside := (Message.get?_eq_some_iff distinct).1 held
        have agree := member_normal_agrees (each _ inside) (typed attr listed found held)
          (read.of_mem (List.mem_map.2 ⟨_, inside, rfl⟩))
        have repeats : (normal .originating).value scope attr found ≠ .multi [] := by
          intro none
          rw [none] at agree
          cases Value.agreement_of_agrees agree with
          | same => exact occurs _ inside rfl
          | multi related =>
              cases related
              exact occurs _ inside rfl
        rw [held] at here
        rw [Message.memberOf?_of_get? here repeats]
        exact .some agree
  · have absent : (turned.arranged set).get? name = none :=
      (Message.get?_eq_none_iff order).2 fun member =>
        inSet (Message.mem_names_of_mem_arranged member)
    rw [absent, (Message.get?_eq_none_iff distinct).2 fun member => inSet (defined name member)]
    exact .none

/-- By induction on the value. -/
theorem agreesWithNormal (scope : Scope) (value : Value) : AgreesWithNormal scope value := by
  induction value using Value.induction with
  | scalar number => exact fun _ _ _ => by simp [Value.agrees]
  | flag => exact fun _ _ _ => rfl
  | text content =>
      intro attr _ read
      have same : Text.untilNul content = content := read.here
      simp [Value.agrees, normal, same]
  | binary bytes => exact fun _ _ _ => by simp [Value.agrees]
  | nest members ih =>
      intro attr typed read
      rcases typed with (_ | _ | _ | _ | ⟨_, contents, inner⟩) | (_ | ⟨_, contents, inner⟩)
      all_goals
        rw [value_nest scope _ contents]
        exact message_normal_agrees ih inner read
  | array entries ih =>
      intro attr typed read
      rcases typed with typed | typed
      · cases typed with
        | array _ _ each =>
            rw [value_array, Value.agrees, Value.agreesInOrder_iff]
            exact forall₂_normal_agrees fun entry member =>
              ih entry member attr (.inr (each entry member)) (read.of_mem member)
      · cases typed
  | multi items _ =>
      intro attr typed _
      rcases typed with typed | typed <;> cases typed

end Rewriting

namespace Family

open Decoding Encoding Rewriting

/-- What the originating peer decodes, at every depth, it can encode again unless that is too long.
The new stream is decoded to a message that agrees with the first one, and which is encoded to the
same stream again. The bytes of any message depend on what it holds under each name only. -/
theorem encode_decode (family : Family) (clear : family.Unambiguous) (set : String) :
    (∀ data found, family.decode .originating set data = .ok found → found.Keyed ∧
      ((∃ place length, family.encode set found = .error (.tooLong place length)) ∨
        ∃ canonical again, family.encode set found = .ok canonical ∧
          family.decode .originating set canonical = .ok again ∧ again.agrees found = true ∧
          family.encode set again = .ok canonical)) ∧
    ∀ first second : Message, first.Keyed → second.Keyed → first.agrees second = true →
      ∀ data, family.encode set first = .ok data ↔ family.encode set second = .ok data := by
  have byContent (first second : Message) (keyed : first.Keyed) (otherKeyed : second.Keyed)
      (agree : first.agrees second = true) (data : Bytes) :=
    encode_of_agrees family set agree keyed otherKeyed data
  refine ⟨fun data found decoded => ?_, byContent⟩
  obtain ⟨attrs, declared, known⟩ := decodedMessage_of_decode decoded
  have keyed : found.Keyed := known.read.imp fun _ read => read.isKeyed
  refine ⟨keyed, ?_⟩
  cases done : family.encode set found with
  | error error =>
      obtain ⟨place, length, rfl⟩ := encode_failsByLength declared known.typed error done
      exact .inl ⟨place, length, rfl⟩
  | ok canonical =>
      obtain ⟨same, sameDeclared, written⟩ := encode_eq_ok_iff.1 done
      obtain rfl : same = attrs := Except.ok.inj (sameDeclared.symm.trans declared)
      have inScope : same ∈ family.sets.values :=
        Registry.mem_values_of_get? (Scope.attributeSet_eq_ok_iff.1 declared)
      have again : family.decode .originating set canonical =
          .ok ((normal .originating).message family.toScope same found) := by
        rw [decode, declared]
        exact (message_encode clear .originating inScope written none (by simp) _).2
          ⟨⟨known.known, by simp⟩, rfl⟩
      have agree := message_normal_agrees
        (fun _ _ part _ => agreesWithNormal family.toScope part) known.typed known.read
      obtain ⟨_, _, knownAgain⟩ := decodedMessage_of_decode again
      refine .inr ⟨canonical, _, rfl, again, agree, ?_⟩
      exact (byContent _ _ (knownAgain.read.imp fun _ read => read.isKeyed) keyed agree canonical).2
        done

/-- An unknown attribute, a number twice, an array with an odd index, texts without terminators and
an attribute without its padding. -/
def untidyStream : Bytes :=
  [4, 0, 9, 0, 6, 0, 2, 0, 0, 1, 0, 0, 16, 0, 3, 0, 9, 0, 77, 0, 5, 0, 1, 0, 120, 0, 0, 0,
    6, 0, 2, 0, 0, 7, 0, 0, 5, 0, 4, 0, 98]

/-- What is read of the untidy stream. -/
def untidyMessage : Message :=
  [("tags", .multi [.text "b"]), ("code", .scalar ⟨.u16, 7⟩),
    ("parts", .array [.nest [("label", .text "x")]])]

/-- What the peer reads of the untidy stream has a canonical form. -/
theorem encode_decode_untidy :
    kindsFamily.decode .originating "f" untidyStream = .ok untidyMessage ∧
      ∃ again, kindsFamily.encode "f" untidyMessage =
          .ok [6, 0, 2, 0, 0, 7, 0, 0, 16, 0, 3, 128, 12, 0, 0, 128, 6, 0, 1, 0, 120, 0, 0, 0,
            6, 0, 4, 0, 98, 0, 0, 0] ∧
        again.agrees untidyMessage = true ∧
        kindsFamily.encode "f" again = kindsFamily.encode "f" untidyMessage := by
  have decoded : kindsFamily.decode .originating "f" untidyStream = .ok untidyMessage := by
    decide +kernel
  have encoded : kindsFamily.encode "f" untidyMessage =
      .ok [6, 0, 2, 0, 0, 7, 0, 0, 16, 0, 3, 128, 12, 0, 0, 128, 6, 0, 1, 0, 120, 0, 0, 0,
        6, 0, 4, 0, 98, 0, 0, 0] := by decide +kernel
  have outcome := ((encode_decode kindsFamily (by decide +kernel) "f").1 _ _ decoded).2
  obtain ⟨_, _, failed⟩ | ⟨canonical, again, done, _, agree, same⟩ := outcome
  · rw [encoded] at failed
    cases failed
  · exact ⟨decoded, again, encoded, agree, same.trans done.symm⟩

end Family

end NetlinkFamily
