import NetlinkFamily.Proofs.Decoding.Fidelity
import NetlinkFamily.Proofs.Distinct
import NetlinkFamily.Proofs.Model.Subsets
import NetlinkFamily.Proofs.RoundTrip.Messages

namespace NetlinkFamily

/-- The members of a message that a set defines, in their order. -/
def Message.restrict (set : AttributeSet) (message : Message) : Message :=
  message.filter fun member => set.attrs.contains member.1

namespace Outcome

variable {A B E : Type}

/-- A choice of steps that shows in their results is a choice of results. -/
theorem mapM_filter {f : A → Except E B} {chosen : A → Bool} {kept : B → Bool} {list : List A}
    {results : List B} (shows : ∀ a b, f a = .ok b → chosen a = kept b)
    (done : list.mapM f = .ok results) :
    (list.filter chosen).mapM f = .ok (results.filter kept) := by
  rw [mapM_eq_ok_iff] at done ⊢
  induction done with
  | nil => exact .nil
  | @cons a b list results here _ ih =>
      rw [List.filter_cons, List.filter_cons, shows a b here]
      split
      · exact .cons here ih
      · exact ih

end Outcome

namespace Decoding

open Outcome

section Collect

/-- A member that is assigned is kept when its name is chosen. -/
theorem filter_assign (chosen : String → Bool) (name : String) (value : Value)
    (message : Message) :
    (Entries.assign name value message).filter (fun member => chosen member.1) =
      if chosen name then Entries.assign name value (message.filter fun member => chosen member.1)
      else message.filter fun member => chosen member.1 := by
  induction message with
  | nil => cases wanted : chosen name <;> simp [Entries.assign, wanted]
  | cons first rest ih =>
      by_cases same : first.1 = name
      · cases wanted : chosen name <;> simp [Entries.assign, same, wanted]
      · rw [Entries.assign, if_neg same, List.filter_cons, List.filter_cons, ih]
        cases wanted : chosen name <;> cases here : chosen first.1 <;>
          simp [Entries.assign, same]

/-- Choosing names before assigning is choosing them afterwards. -/
theorem foldl_assign_filter (chosen : String → Bool) (values : List (Attribute × Value))
    (start : Message) :
    (values.filter fun entry => chosen entry.1.name).foldl
        (fun message entry => Entries.assign entry.1.name entry.2 message)
        (start.filter fun member => chosen member.1) =
      (values.foldl (fun message entry => Entries.assign entry.1.name entry.2 message)
        start).filter fun member => chosen member.1 := by
  induction values generalizing start with
  | nil => rfl
  | cons entry rest ih =>
      rw [List.foldl_cons, ← ih, filter_assign, List.filter_cons]
      cases chosen entry.1.name <;> rfl

/-- The values of a chosen name are all chosen. -/
theorem valuesOf_chosen (chosen : String → Bool) {name : String} (wanted : chosen name = true)
    (values : List (Attribute × Value)) :
    valuesOf name (values.filter fun entry => chosen entry.1.name) = valuesOf name values := by
  rw [valuesOf, valuesOf, List.filter_filter]
  congr 1
  refine List.filter_congr fun entry _ => ?_
  by_cases same : entry.1.name = name <;> simp [same, wanted]

/-- The members of repeated attributes may be chosen before or after they are put together. -/
theorem repeated_filter (chosen : String → Bool) (values : List (Attribute × Value)) :
    (((values.filter fun entry => chosen entry.1.name).map fun entry =>
        entry.1.name).eraseDups.map fun name =>
        (name, Value.multi (valuesOf name (values.filter fun entry => chosen entry.1.name)))) =
      ((values.map fun entry => entry.1.name).eraseDups.map fun name =>
        (name, Value.multi (valuesOf name values))).filter fun member => chosen member.1 := by
  have names : (values.filter fun entry => chosen entry.1.name).map (fun entry => entry.1.name) =
      (values.map fun entry => entry.1.name).filter chosen := by
    rw [List.filter_map]
    rfl
  rw [names, eraseDups_filter, List.filter_map]
  refine List.map_congr_left fun name member => ?_
  rw [valuesOf_chosen chosen (List.mem_filter.1 member).2]

/-- A choice of names may be made before or after the values become members. -/
theorem collect_filter (chosen : String → Bool) (values : List (Attribute × Value)) :
    collect (values.filter fun entry => chosen entry.1.name) =
      (collect values).filter fun member => chosen member.1 := by
  have swap (kind : Attribute → Bool) :
      (values.filter fun entry => chosen entry.1.name).filter (fun entry => kind entry.1) =
        (values.filter fun entry => kind entry.1).filter fun entry => chosen entry.1.name := by
    simp only [List.filter_filter, Bool.and_comm]
  rw [collect, collect]
  simp only [swap Attribute.multi, swap fun attr => !attr.multi]
  rw [repeated_filter, foldl_assign_filter]

end Collect

section Subset

variable {scope : Scope} {peer : Peer} {part whole : AttributeSet}

/-- Of the attributes of a set, a subset holds those whose names it has. -/
theorem contains_iff (inside : part.attrs.values ⊆ whole.attrs.values) {attr : Attribute}
    (listed : attr ∈ whole.attrs.values) :
    part.attrs.contains attr.name = true ↔ attr ∈ part.attrs.values := by
  constructor
  · intro known
    obtain ⟨other, held⟩ := Option.isSome_iff_exists.1 known
    obtain ⟨same, member⟩ := AttributeSet.name_of_get? held
    exact eq_of_name listed (inside member) same ▸ member
  · exact fun member => Registry.contains_of_get? (AttributeSet.get?_name member)

/-- A subset finds by number what the whole set finds, if it has that attribute. -/
theorem withNumber?_subset (inside : part.attrs.values ⊆ whole.attrs.values)
    (distinct : (whole.attrs.values.map Attribute.value).Nodup) (type : Nat) :
    part.withNumber? type =
      (whole.withNumber? type).filter fun attr => part.attrs.contains attr.name := by
  have found {attr : Attribute} (taken : part.withNumber? type = some attr) :
      whole.withNumber? type = some attr := by
    obtain ⟨rfl, listed⟩ := value_of_withNumber? taken
    exact withNumber?_of_nodup distinct (inside listed)
  cases partly : part.withNumber? type with
  | some attr =>
      have listed := (value_of_withNumber? partly).2
      have known := (contains_iff inside (inside listed)).2 listed
      rw [found partly, Option.filter_some, if_pos known]
  | none =>
      cases wholly : whole.withNumber? type with
      | none => rfl
      | some attr =>
          obtain ⟨rfl, listed⟩ := value_of_withNumber? wholly
          have lacks : ¬part.attrs.contains attr.name = true := by
            intro known
            have missed := List.find?_eq_none.1 partly attr ((contains_iff inside listed).1 known)
            simp at missed
          rw [Option.filter_some, if_neg lacks]

/-- Without a list of allowed attributes, the originating peer takes all that is defined. -/
theorem recognise_originating (set : AttributeSet) (type : Nat) :
    recognise .originating set none type = .ok (definition? set type) := by
  cases taken : recognise .originating set none type with
  | ok known => rw [recognise_eq_definition? taken]
  | error error =>
      unfold recognise at taken
      split at taken
      · cases taken
      · simp only [Option.filter_none] at taken
        split at taken <;> cases taken

/-- A type is defined in a subset when it is in the whole and the subset has its name. -/
theorem definition?_subset (inside : part.attrs.values ⊆ whole.attrs.values)
    (distinct : (whole.attrs.values.map Attribute.value).Nodup) (type : Nat) :
    definition? part type =
      (definition? whole type).filter fun attr => part.attrs.contains attr.name := by
  rw [definition?, definition?, withNumber?_subset inside distinct, Option.filter_filter,
    Option.filter_filter]
  simp only [Bool.and_comm]

/-- What is picked under a choice of names is what is picked without it and has one of the names. -/
theorem pick_filter {R : Type} {set other : AttributeSet} {allowed narrower : Option AllowedList}
    {typeOf : R → Nat} {chosen : String → Bool}
    (step : ∀ type known, recognise peer set allowed type = .ok known →
      recognise peer other narrower type = .ok (known.filter fun attr => chosen attr.name))
    {raws : List R} {found picked : List (Attribute × R)}
    (done : pick peer set allowed typeOf found raws = .ok picked) :
    pick peer other narrower typeOf (found.filter fun entry => chosen entry.1.name) raws =
      .ok (picked.filter fun entry => chosen entry.1.name) := by
  induction raws generalizing found with
  | nil =>
      simp only [pick, Except.ok.injEq] at done ⊢
      rw [← done, List.filter_reverse]
  | cons raw rest ih =>
      obtain ⟨known, recognised, fresh, done⟩ := pick_cons_eq_ok_iff.1 done
      refine pick_cons_eq_ok_iff.2 ⟨_, step _ _ recognised, fun attr wanted clash => ?_, ?_⟩
      · obtain ⟨array, entry, member, same⟩ := clash
        exact fresh attr (Option.mem_filter_iff.1 wanted).1
          ⟨array, entry, (List.mem_filter.1 member).1, same⟩
      · have tail := ih done
        rw [List.filter_append] at tail
        cases known with
        | none => exact tail
        | some attr =>
            cases wanted : chosen attr.name <;>
              simpa [under, Option.filter_some, wanted] using tail

/-- So the message under a choice of names has the members of the whole message that it allows. -/
theorem message_filter {set other : AttributeSet} {allowed narrower : Option AllowedList}
    {chosen : String → Bool}
    (step : ∀ type known, recognise peer set allowed type = .ok known →
      recognise peer other narrower type = .ok (known.filter fun attr => chosen attr.name))
    {data : Bytes} {found : Message} (taken : message scope peer set allowed data = .ok found) :
    message scope peer other narrower data =
      .ok (found.filter fun member => chosen member.1) := by
  simp only [message_eq, bind_eq_ok_iff, pure_eq_ok_iff] at taken ⊢
  obtain ⟨raws, parted, picked, chosenAll, values, done, rfl⟩ := taken
  refine ⟨raws, parted, _, pick_filter step chosenAll, _, mapM_filter ?_ done,
    collect_filter chosen values⟩
  intro entry result read
  rw [(read_eq_ok_iff.1 read).1]

/-- The message under a subset is that under the whole set, restricted to the subset. -/
theorem message_subset (inside : part.attrs.values ⊆ whole.attrs.values)
    (distinct : (whole.attrs.values.map Attribute.value).Nodup) {data : Bytes} {found : Message}
    (taken : message scope .originating whole none data = .ok found) :
    message scope .originating part none data = .ok (found.restrict part) :=
  message_filter (fun type known recognised => by
    rw [recognise_originating, definition?_subset inside distinct,
      recognise_eq_definition? recognised]) taken

/-- Attributes with the numbers of a subset are picked under both sets, or under none. -/
theorem pick_known (inside : part.attrs.values ⊆ whole.attrs.values)
    (distinct : (whole.attrs.values.map Attribute.value).Nodup) {raws : List RawAttribute}
    (known : ∀ raw ∈ raws, ∃ attr ∈ part.attrs.values, raw.type = attr.value.toNat)
    {found picked : List (Attribute × RawAttribute)} :
    pick peer whole none RawAttribute.type found raws = .ok picked ↔
      pick peer part none RawAttribute.type found raws = .ok picked := by
  induction raws generalizing found with
  | nil => rfl
  | cons raw rest ih =>
      obtain ⟨⟨attr, listed, typed⟩, later⟩ := List.forall_mem_cons.1 known
      have wholly : whole.withNumber? raw.type = some attr := by
        rw [typed, withNumber?_of_nodup distinct (inside listed)]
      have partly : part.withNumber? raw.type = some attr := by
        rw [withNumber?_subset inside distinct, wholly, Option.filter_some,
          if_pos ((contains_iff inside (inside listed)).2 listed)]
      have alike : recognise peer whole none raw.type = recognise peer part none raw.type := by
        simp only [recognise, wholly, partly, Option.filter_none]
      simp only [pick_cons_eq_ok_iff, alike, ih later]

/-- A stream that was written under a subset is read alike under both sets. -/
theorem message_encoded (inside : part.attrs.values ⊆ whole.attrs.values)
    (distinct : (whole.attrs.values.map Attribute.value).Nodup) {given : Message} {data : Bytes}
    (written : Encoding.message scope part given = .ok data) (found : Message) :
    message scope peer whole none data = .ok found ↔
      message scope peer part none data = .ok found := by
  obtain ⟨raws, parted, carried⟩ := Encoding.raws_of_message (R := fun _ _ => True)
    (fun entry _ type stream one => by
      obtain ⟨payload, carries⟩ := Encoding.carries_of_single one
      exact ⟨payload, carries, trivial⟩) written
  have known : ∀ raw ∈ raws, ∃ attr ∈ part.attrs.values, raw.type = attr.value.toNat := by
    intro raw among
    have listed := (List.forall₂_and_left _ _).2 ⟨fun entry member =>
      Message.mem_values_of_mem_occurrences entry member, carried⟩
    obtain ⟨entry, _, member, typed, _⟩ := exists_of_forall₂ listed raw among
    exact ⟨entry.1, member, typed⟩
  simp only [message_eq, bind_eq_ok_iff, pure_eq_ok_iff, attributes_eq_ok_iff, parted,
    Except.ok.injEq, exists_eq_left', pick_known inside distinct known]

end Subset

end Decoding

namespace Family

open Outcome Relation

/-- A subset of sets reads a stream as a projection of what its parent reads. The parent may be
more than one step up, and only its own numbers must be distinct. A stream that was written under
the subset is read alike under both sets. If all sets can be told apart in a stream, this is the
written message in normal form, unless the entries of an empty array are unknown. -/
theorem decode_subset {file : Spec.File} {excludes : List Pattern} {family : Family}
    (built : ofSpec file excludes = .ok family)
    (distinct : (file.family.attributeSets.map Spec.AttributeSet.name).Nodup)
    {child parent : String} (below : TransGen family.IsSubset child parent)
    (numbers : ∀ whole, family.attributeSet parent = .ok whole →
      (whole.attrs.values.map Attribute.value).Nodup) :
    ∃ part, family.attributeSet child = .ok part ∧
      (∀ data message, family.decode .originating parent data = .ok message →
        family.decode .originating child data = .ok (message.restrict part)) ∧
      ∀ given data, family.encode child given = .ok data →
        (∀ message, family.decode .originating parent data = .ok message ↔
          family.decode .originating child data = .ok message) ∧
        (family.Unambiguous → ∀ message, family.decode .originating parent data = .ok message ↔
          given.KnowsArrays family.toScope part ∧
            message = (Rewriting.normal .originating).message family.toScope part given) := by
  obtain ⟨part, whole, partly, wholly, inside⟩ :=
    exists_whole (inherits_of_ofSpec built distinct) below
  rw [← Scope.attributeSet_eq_ok_iff] at partly wholly
  have distinctNumbers := numbers whole wholly
  refine ⟨part, partly, fun data message taken => ?_, fun given data written => ?_⟩
  · simp only [decode, wholly, partly, CodecError.lift, bind, Except.bind] at taken ⊢
    exact Decoding.message_subset inside distinctNumbers taken
  · obtain ⟨attrs, declared, written⟩ := encode_eq_ok_iff.1 written
    obtain rfl : part = attrs := Except.ok.inj (partly.symm.trans declared)
    have same (message : Message) : family.decode .originating parent data = .ok message ↔
        family.decode .originating child data = .ok message := by
      simp only [decode, wholly, partly, CodecError.lift, bind, Except.bind]
      exact Decoding.message_encoded inside distinctNumbers written message
    refine ⟨same, fun clear message => (same message).trans ?_⟩
    have inScope : part ∈ family.sets.values :=
      Registry.mem_values_of_get? (Scope.attributeSet_eq_ok_iff.1 declared)
    have read := Decoding.message_encode clear .originating inScope written none (by simp) message
    simp only [decode, declared, CodecError.lift, bind, Except.bind]
    simpa using read

/-- A subset of a subset, with the last two of three attributes, and then with the last one. -/
def layered : Spec.File where
  license := Spec.acceptedLicense
  family :=
    { name := "f"
      attributeSets :=
        [{ name := "f"
           attributes :=
            [{ name := "x", kind := some "u8" },
             { name := "y", kind := some "u8", value := some 5 },
             { name := "z", kind := some "u8", multi := some true }] },
         { name := "upper", subsetOf := some "f", attributes := [{ name := "y" }, { name := "z" }] },
         { name := "top", subsetOf := some "upper", attributes := [{ name := "z" }] }]
      operations := { list := [{ name := "get", attributeSet := some "f" }] } }

theorem isSome_ofSpec_layered : (ofSpec layered []).toOption.isSome = true := by
  decide +kernel

/-- The family with a subset of a subset. -/
def layeredFamily : Family :=
  (ofSpec layered []).toOption.get isSome_ofSpec_layered

/-- That family is what its description builds. -/
theorem ofSpec_layered : ofSpec layered [] = .ok layeredFamily :=
  Outcome.eq_ok_get isSome_ofSpec_layered

/-- The last subset is below the whole set. -/
theorem top_below_f : TransGen layeredFamily.IsSubset "top" "f" := by
  have first : ((layeredFamily.sets.get? "top").bind AttributeSet.subsetOf) = some "upper" := by
    decide +kernel
  have second : ((layeredFamily.sets.get? "upper").bind AttributeSet.subsetOf) = some "f" := by
    decide +kernel
  exact .tail (.single (Option.bind_eq_some_iff.1 first)) (Option.bind_eq_some_iff.1 second)

/-- One of each attribute, and a second one of the last. -/
def layeredStream : Bytes :=
  [5, 0, 1, 0, 7, 0, 0, 0, 5, 0, 6, 0, 1, 0, 0, 0, 5, 0, 5, 0, 8, 0, 0, 0, 5, 0, 6, 0, 2, 0, 0, 0]

/-- Two steps down, both values of the last attribute are left. Written under that subset, they
are read under the whole set. -/
theorem decode_subset_layered :
    layeredFamily.decode .originating "f" layeredStream =
        .ok [("z", .multi [.scalar ⟨.u8, 1⟩, .scalar ⟨.u8, 2⟩]), ("x", .scalar ⟨.u8, 7⟩),
          ("y", .scalar ⟨.u8, 8⟩)] ∧
      layeredFamily.decode .originating "top" layeredStream =
        .ok [("z", .multi [.scalar ⟨.u8, 1⟩, .scalar ⟨.u8, 2⟩])] ∧
      layeredFamily.encode "top" [("z", .multi [.scalar ⟨.u8, 3⟩])] =
        .ok [5, 0, 6, 0, 3, 0, 0, 0] ∧
      layeredFamily.decode .originating "f" [5, 0, 6, 0, 3, 0, 0, 0] =
        .ok [("z", .multi [.scalar ⟨.u8, 3⟩])] := by
  have numbers : ((layeredFamily.attributeSet "f").toOption.all fun whole =>
      (whole.attrs.values.map Attribute.value).Nodup) = true := by
    decide +kernel
  have decoded : layeredFamily.decode .originating "f" layeredStream =
      .ok [("z", .multi [.scalar ⟨.u8, 1⟩, .scalar ⟨.u8, 2⟩]), ("x", .scalar ⟨.u8, 7⟩),
        ("y", .scalar ⟨.u8, 8⟩)] := by
    decide +kernel
  have written : layeredFamily.encode "top" [("z", .multi [.scalar ⟨.u8, 3⟩])] =
      .ok [5, 0, 6, 0, 3, 0, 0, 0] := by
    decide +kernel
  have again : layeredFamily.decode .originating "top" [5, 0, 6, 0, 3, 0, 0, 0] =
      .ok [("z", .multi [.scalar ⟨.u8, 3⟩])] := by
    decide +kernel
  obtain ⟨part, declared, projection, encoded⟩ :=
    decode_subset ofSpec_layered (by decide +kernel) top_below_f fun whole held => by
      rw [held] at numbers
      exact of_decide_eq_true numbers
  have restricted : ((layeredFamily.attributeSet "top").toOption.all fun part =>
      Message.restrict part [("z", .multi [.scalar ⟨.u8, 1⟩, .scalar ⟨.u8, 2⟩]),
        ("x", .scalar ⟨.u8, 7⟩), ("y", .scalar ⟨.u8, 8⟩)] =
        [("z", .multi [.scalar ⟨.u8, 1⟩, .scalar ⟨.u8, 2⟩])]) = true := by
    decide +kernel
  rw [declared] at restricted
  exact ⟨decoded, (projection _ _ decoded).trans (congrArg _ (of_decide_eq_true restricted)),
    written, ((encoded _ _ written).1 _).2 again⟩

end Family

end NetlinkFamily
