import NetlinkFamily.Proofs.Decoding.Collecting
import NetlinkFamily.Proofs.RoundTrip.Picking

namespace NetlinkFamily

namespace Decoding

open Outcome

/-- The payloads of the attributes of a type, in the order of the stream. -/
def payloadsOf (type : Nat) (raws : List RawAttribute) : List Bytes :=
  (raws.filter fun raw => raw.type == type).map RawAttribute.payload

/-- An attribute is found by its number if it is the first one of its set with that number. -/
def IsFirst (set : AttributeSet) (attr : Attribute) : Prop :=
  set.withNumber? attr.value.toNat = some attr

instance (set : AttributeSet) (attr : Attribute) : Decidable (IsFirst set attr) :=
  inferInstanceAs (Decidable (_ = _))

/-- Padding and unused attributes carry no value. -/
def CarriesNothing (attr : Attribute) : Prop :=
  attr.kind = .pad ∨ attr.kind = .unused

instance (attr : Attribute) : Decidable (CarriesNothing attr) :=
  inferInstanceAs (Decidable (_ ∨ _))

mutual

/-- A message holds exactly the attributes of a stream, each under the first definition with its
number. -/
inductive Faithful (scope : Scope) (peer : Peer) : AttributeSet → Bytes → Message → Prop where
  | intro {set : AttributeSet} {data : Bytes} {raws : List RawAttribute} {message : Message}
      (parted : Stream.split data = .ok raws)
      (distinct : message.names.Nodup)
      (named : ∀ name ∈ message.names, ∃ attr, IsFirst set attr ∧ attr.name = name)
      (members : ∀ attr, IsFirst set attr → FaithfulMember scope peer attr
        (payloadsOf attr.value.toNat raws) (message.get? attr.name)) :
      Faithful scope peer set data message

/-- What a message holds for an attribute, given all of its payloads. -/
inductive FaithfulMember (scope : Scope) (peer : Peer) :
    Attribute → List Bytes → Option Value → Prop where
  | absent {attr : Attribute} {payloads : List Bytes}
      (without : payloads = [] ∨ CarriesNothing attr) :
      FaithfulMember scope peer attr payloads none
  | repeated {attr : Attribute} {payloads : List Bytes} {items : List Value}
      (carries : ¬CarriesNothing attr) (multi : attr.multi = true) (occurs : payloads ≠ [])
      (once : attr.kind = .arrayNest → payloads.length = 1)
      (read : List.Forall₂ (fun payload item => value scope peer attr payload = .ok item)
        payloads items)
      (inside : ∀ pair ∈ payloads.zip items, FaithfulInside scope peer attr pair.1 pair.2) :
      FaithfulMember scope peer attr payloads (some (.multi items))
  | last {attr : Attribute} {payloads : List Bytes} {payload : Bytes} {found : Value}
      (carries : ¬CarriesNothing attr) (single : attr.multi = false)
      (last : payloads.getLast? = some payload)
      (once : attr.kind = .arrayNest → payloads.length = 1)
      (read : value scope peer attr payload = .ok found)
      (inside : FaithfulInside scope peer attr payload found) :
      FaithfulMember scope peer attr payloads (some found)

/-- The messages inside a value are faithful to the streams inside its payload. -/
inductive FaithfulInside (scope : Scope) (peer : Peer) : Attribute → Bytes → Value → Prop where
  | leaf {attr : Attribute} {payload : Bytes} {found : Value}
      (notNest : attr.kind ≠ .nest) (notArray : attr.kind ≠ .arrayNest) :
      FaithfulInside scope peer attr payload found
  | nest {attr : Attribute} {payload : Bytes} {set : AttributeSet} {members : Message}
      (kind : attr.kind = .nest) (contents : attr.contents scope = .ok set)
      (inner : Faithful scope peer set payload members) :
      FaithfulInside scope peer attr payload (.nest members)
  | scalars {attr : Attribute} {payload : Bytes} {found : Value} {type : ScalarType}
      (kind : attr.kind = .arrayNest) (scalar : attr.entryScalar? = some type) :
      FaithfulInside scope peer attr payload found
  | nests {attr : Attribute} {payload : Bytes} {set : AttributeSet} {raws : List RawAttribute}
      {messages : List Message}
      (kind : attr.kind = .arrayNest) (nested : attr.entryScalar? = none)
      (contents : attr.contents scope = .ok set) (parted : Stream.split payload = .ok raws)
      (count : messages.length = raws.length)
      (inner : ∀ pair ∈ raws.zip messages, Faithful scope peer set pair.1.payload pair.2) :
      FaithfulInside scope peer attr payload (.array (messages.map .nest))

end

/-- The definition under which an attribute of a stream is kept. -/
def definition? (set : AttributeSet) (type : Nat) : Option Attribute :=
  (set.withNumber? type).filter fun attr => ¬CarriesNothing attr

/-- The attributes of a stream that are kept, with their definitions. -/
def kept (set : AttributeSet) (raws : List RawAttribute) : List (Attribute × RawAttribute) :=
  raws.filterMap fun raw => (definition? set raw.type).map (·, raw)

variable {scope : Scope} {peer : Peer} {set : AttributeSet} {attr : Attribute}
  {raws : List RawAttribute}

section Kept

/-- A type is defined by the attribute of its number, unless that carries nothing. -/
theorem definition?_eq_some_iff {type : Nat} :
    definition? set type = some attr ↔
      set.withNumber? type = some attr ∧ ¬CarriesNothing attr := by
  rw [definition?, Option.filter_eq_some_iff, decide_eq_true_iff]

/-- The attribute of a number has it. -/
theorem value_of_withNumber? {type : Nat} (found : set.withNumber? type = some attr) :
    attr.value.toNat = type ∧ attr ∈ set.attrs.values :=
  ⟨by simpa using List.find?_some found, List.mem_of_find?_eq_some found⟩

/-- What is kept was in the stream and is defined. -/
theorem mem_kept {entry : Attribute × RawAttribute} (member : entry ∈ kept set raws) :
    entry.2 ∈ raws ∧ definition? set entry.2.type = some entry.1 := by
  obtain ⟨raw, inside, chosen⟩ := List.mem_filterMap.1 member
  obtain ⟨attr, defined, rfl⟩ := Option.map_eq_some_iff.1 chosen
  exact ⟨inside, defined⟩

/-- A definition that is kept is the first one with its number. -/
theorem isFirst_of_mem_kept {entry : Attribute × RawAttribute} (member : entry ∈ kept set raws) :
    IsFirst set entry.1 := by
  have found := (definition?_eq_some_iff.1 (mem_kept member).2).1
  rw [IsFirst, (value_of_withNumber? found).1, found]

/-- In a set, attributes of one name are one attribute. -/
theorem eq_of_name {other : Attribute} (listed : attr ∈ set.attrs.values)
    (otherListed : other ∈ set.attrs.values) (same : other.name = attr.name) : other = attr := by
  have held := AttributeSet.get?_name otherListed
  rw [same, AttributeSet.get?_name listed] at held
  exact (Option.some.inj held).symm

/-- Of one name, only the first attribute is kept. -/
theorem eq_of_mem_kept (first : IsFirst set attr) :
    ∀ entry ∈ kept set raws, entry.1.name = attr.name → entry.1 = attr := by
  intro entry member same
  have found := (value_of_withNumber? first).2
  exact eq_of_name found (value_of_withNumber? (isFirst_of_mem_kept member)).2 same

/-- The payloads of a type are those of the attributes with that type. -/
theorem payloadsOf_cons (type : Nat) (raw : RawAttribute) (rest : List RawAttribute) :
    payloadsOf type (raw :: rest) =
      if raw.type = type then raw.payload :: payloadsOf type rest else payloadsOf type rest := by
  by_cases here : raw.type = type <;> simp [payloadsOf, here]

/-- An attribute is kept where its type is defined. -/
theorem kept_cons (raw : RawAttribute) (rest : List RawAttribute) :
    kept set (raw :: rest) =
      ((definition? set raw.type).map (·, raw)).toList ++ kept set rest := by
  rw [kept, List.filterMap_cons]
  cases definition? set raw.type <;> rfl

/-- The first attribute with a number is the definition of that number, if it is kept at all. -/
theorem definition?_first (first : IsFirst set attr) :
    definition? set attr.value.toNat = if CarriesNothing attr then none else some attr := by
  rw [definition?, first]
  by_cases nothing : CarriesNothing attr <;> simp [nothing, Option.filter]

/-- Under another number stands an attribute of another name. -/
theorem name_ne_of_definition? {other : Attribute} {type : Nat} (first : IsFirst set attr)
    (known : definition? set type = some other) (differs : type ≠ attr.value.toNat) :
    other.name ≠ attr.name := by
  intro same
  have found := (definition?_eq_some_iff.1 known).1
  have one := eq_of_name (value_of_withNumber? first).2 (value_of_withNumber? found).2 same
  rw [one] at found
  exact differs (value_of_withNumber? found).1.symm

/-- Of the first attribute with a number, all payloads of that number are kept. -/
theorem payloads_kept (first : IsFirst set attr) (raws : List RawAttribute) :
    ((kept set raws).filter fun entry => entry.1.name == attr.name).map
        (fun entry => entry.2.payload) =
      if CarriesNothing attr then [] else payloadsOf attr.value.toNat raws := by
  induction raws with
  | nil => simp [kept, payloadsOf]
  | cons raw rest ih =>
      rw [kept_cons, payloadsOf_cons, List.filter_append, List.map_append, ih]
      by_cases here : raw.type = attr.value.toNat
      · rw [here, definition?_first first]
        by_cases nothing : CarriesNothing attr <;> simp [nothing]
      · rw [if_neg here]
        cases known : definition? set raw.type with
        | none => rfl
        | some other => simp [name_ne_of_definition? first known here]

end Kept

/-- Without a list, what is recognised is what is defined. -/
theorem recognise_eq_definition? {type : Nat} {known : Option Attribute}
    (taken : recognise peer set none type = .ok known) : known = definition? set type := by
  unfold recognise at taken
  unfold definition?
  cases numbered : set.withNumber? type with
  | none =>
      rw [numbered] at taken
      cases peer with
      | handling => cases taken
      | originating => exact (Except.ok.inj taken).symm
  | some attr =>
      simp only [numbered, Option.filter_none] at taken
      cases kind : attr.kind <;> simp_all [CarriesNothing, Option.filter]

/-- An attribute is picked exactly if it is kept, and an array that is picked occurs once. -/
theorem pick_eq_kept {found picked : List (Attribute × RawAttribute)}
    (once : ArraysOnce (found.map Prod.fst).reverse)
    (done : pick peer set none RawAttribute.type found raws = .ok picked) :
    picked = found.reverse ++ kept set raws ∧ ArraysOnce (picked.map Prod.fst) := by
  induction raws generalizing found with
  | nil =>
      simp only [pick, Except.ok.injEq] at done
      subst done
      exact ⟨by simp [kept], by simpa using once⟩
  | cons raw rest ih =>
      obtain ⟨known, recognised, fresh, done⟩ := pick_cons_eq_ok_iff.1 done
      obtain ⟨same, arrays⟩ := ih (arraysOnce_under once fresh) done
      have defined := recognise_eq_definition? recognised
      cases known <;> exact ⟨by simpa [kept, under, ← defined] using same, arrays⟩

/-- The values of an attribute are read from its payloads. -/
theorem read_valuesOf {picked : List (Attribute × RawAttribute)}
    {values : List (Attribute × Value)}
    (only : ∀ entry ∈ picked, entry.1.name = attr.name → entry.1 = attr)
    (done : List.Forall₂ (fun entry result => read scope peer entry = .ok result) picked values) :
    List.Forall₂ (fun payload item => value scope peer attr payload = .ok item)
      ((picked.filter fun entry => entry.1.name == attr.name).map fun entry => entry.2.payload)
      (valuesOf attr.name values) := by
  induction done with
  | nil => exact .nil
  | @cons entry result picked values here _ ih =>
      obtain ⟨same, taken⟩ := read_eq_ok_iff.1 here
      obtain ⟨first, later⟩ := List.forall_mem_cons.1 only
      rw [valuesOf_cons, same, List.filter_cons]
      by_cases named : entry.1.name = attr.name
      · rw [first named] at taken
        rw [if_pos (by simpa using named), if_pos named]
        exact .cons taken (ih later)
      · simpa [named] using ih later

/-- An array that is picked occurs once. -/
theorem length_le_one_of_arraysOnce {picked : List (Attribute × RawAttribute)}
    (once : ArraysOnce (picked.map Prod.fst))
    (only : ∀ entry ∈ picked, entry.1.name = attr.name → entry.1 = attr)
    (array : attr.kind = .arrayNest) :
    (picked.filter fun entry => entry.1.name == attr.name).length ≤ 1 := by
  have apart := (List.pairwise_map.1 once).sublist
    (List.filter_sublist (p := fun entry => entry.1.name == attr.name))
  have named : ∀ entry ∈ picked.filter (fun entry => entry.1.name == attr.name),
      entry.1 = attr := by
    intro entry member
    obtain ⟨inside, same⟩ := List.mem_filter.1 member
    exact only entry inside (by simpa using same)
  generalize picked.filter (fun entry => entry.1.name == attr.name) = chosen at apart named
  match chosen with
  | [] => simp
  | [_] => simp
  | first :: second :: rest =>
      have here := named first List.mem_cons_self
      have there := named second (List.mem_cons_of_mem _ List.mem_cons_self)
      have differ := List.rel_of_pairwise_cons apart List.mem_cons_self
      rw [here, there] at differ
      exact absurd rfl (differ array)

/-- What the values of an attribute gather is faithful to its payloads. -/
theorem faithful_gathered {payloads : List Bytes} {items : List Value}
    (carries : ¬CarriesNothing attr) (once : attr.kind = .arrayNest → payloads.length ≤ 1)
    (read : List.Forall₂ (fun payload item => value scope peer attr payload = .ok item)
      payloads items)
    (inside : ∀ payload ∈ payloads, ∀ item, value scope peer attr payload = .ok item →
      FaithfulInside scope peer attr payload item) :
    FaithfulMember scope peer attr payloads (gathered attr items) := by
  have lengths := read.length_eq
  by_cases empty : payloads = []
  · rw [empty, List.length_nil] at lengths
    have nothing : gathered attr items = none := by
      simp [gathered, List.length_eq_zero_iff.1 lengths.symm]
    exact nothing ▸ .absent (.inl empty)
  · have occurs := List.length_pos_iff.2 empty
    have some : items ≠ [] := List.length_pos_iff.1 (lengths ▸ occurs)
    have exactlyOnce : attr.kind = .arrayNest → payloads.length = 1 := fun array => by
      have bound := once array
      omega
    cases multi : attr.multi with
    | true =>
        have all : gathered attr items = Option.some (.multi items) := by
          simp [gathered, multi, some]
        refine all ▸ .repeated carries multi empty exactlyOnce read fun pair member => ?_
        have decoded := (List.forall₂_iff_zip.1 read).2 member
        exact inside pair.1 (List.of_mem_zip member).1 pair.2 decoded
    | false =>
        have one : gathered attr items = Option.some (items.getLast some) := by
          simp [gathered, multi, List.getLast?_eq_some_getLast some]
        obtain ⟨payload, last, decoded⟩ :=
          exists_getLast?_of_forall₂ read (List.getLast?_eq_some_getLast some)
        refine one ▸ .last carries multi last exactlyOnce decoded ?_
        exact inside payload (List.mem_of_getLast? last) _ decoded

/-- Every message in a stream is faithful to it. -/
def MessageFaithful (scope : Scope) (peer : Peer) (data : Bytes) : Prop :=
  ∀ set found, message scope peer set none data = .ok found → Faithful scope peer set data found

/-- The same for the messages inside of values. -/
def ValueFaithful (scope : Scope) (peer : Peer) (payload : Bytes) : Prop :=
  ∀ attr found, value scope peer attr payload = .ok found →
    FaithfulInside scope peer attr payload found

/-- A value is read faithfully where the messages inside are. -/
theorem value_faithful {payload : Bytes}
    (inner : ∀ data : Bytes, data.length ≤ payload.length → MessageFaithful scope peer data) :
    ValueFaithful scope peer payload := by
  intro attr found taken
  cases obtained_of_value taken with
  | nest kind contents inside =>
      exact .nest kind contents (inner payload (Nat.le_refl _) _ _ inside)
  | scalars kind scalar _ _ => exact .scalars kind scalar
  | nests kind nested contents parted each =>
      refine .nests kind nested contents parted each.length_eq.symm fun pair member => ?_
      have shorter := Stream.payload_lt parted (List.of_mem_zip member).1
      exact inner pair.1.payload (Nat.le_of_lt shorter) _ pair.2
        ((List.forall₂_iff_zip.1 each).2 member)
  | leaf notNest notArray _ => exact .leaf notNest notArray

/-- What a message holds for an attribute is faithful, given all the values that were read. -/
theorem member_faithful {values : List (Attribute × Value)} (first : IsFirst set attr)
    (once : ArraysOnce ((kept set raws).map Prod.fst))
    (done : (kept set raws).mapM (read scope peer) = .ok values)
    (inner : ∀ raw ∈ raws, ValueFaithful scope peer raw.payload) :
    FaithfulMember scope peer attr (payloadsOf attr.value.toNat raws)
      (gathered attr (valuesOf attr.name values)) := by
  have read := read_valuesOf (eq_of_mem_kept first) (mapM_eq_ok_iff.1 done)
  rw [payloads_kept first] at read
  by_cases nothing : CarriesNothing attr
  · rw [if_pos nothing] at read
    have absent : gathered attr (valuesOf attr.name values) = none := by
      simp [gathered, List.forall₂_nil_left_iff.1 read]
    exact absent ▸ .absent (.inr nothing)
  · rw [if_neg nothing] at read
    refine faithful_gathered nothing (fun array => ?_) read fun payload member item decoded => ?_
    · have arrays := length_le_one_of_arraysOnce once (eq_of_mem_kept first) array
      have payloads := congrArg List.length (payloads_kept first raws)
      rw [if_neg nothing, List.length_map] at payloads
      exact payloads ▸ arrays
    · obtain ⟨raw, among, rfl⟩ := List.mem_map.1 member
      exact inner raw (List.mem_filter.1 among).1 attr item decoded

/-- A message is read faithfully where the values inside are. -/
theorem message_faithful_of_values {data : Bytes}
    (inner : ∀ payload : Bytes, payload.length < data.length → ValueFaithful scope peer payload) :
    MessageFaithful scope peer data := by
  intro set found taken
  simp only [message_eq, bind_eq_ok_iff, pure_eq_ok_iff] at taken
  obtain ⟨raws, parted, picked, chosen, values, done, rfl⟩ := taken
  obtain ⟨rfl, once⟩ := pick_eq_kept (by simp [ArraysOnce]) chosen
  rw [List.reverse_nil, List.nil_append] at once done
  have split := attributes_eq_ok_iff.1 parted
  have sources : ∀ entry ∈ values, ∃ source ∈ kept set raws, entry.1 = source.1 := by
    intro entry member
    obtain ⟨source, inside, held⟩ := mem_of_mapM done entry member
    exact ⟨source, inside, (read_eq_ok_iff.1 held).1⟩
  refine .intro split (nodup_names_collect values) (fun name member => ?_) fun attr first => ?_
  · obtain ⟨entry, inside, rfl⟩ := exists_of_mem_names_collect member
    obtain ⟨source, among, same⟩ := sources entry inside
    exact ⟨entry.1, same ▸ isFirst_of_mem_kept among, rfl⟩
  · have only : ∀ entry ∈ values, entry.1.name = attr.name → entry.1 = attr := by
      intro entry member named
      obtain ⟨source, inside, same⟩ := sources entry member
      rw [same] at named ⊢
      exact eq_of_mem_kept first source inside named
    rw [get?_collect only]
    exact member_faithful first once done fun raw among =>
      inner raw.payload (Stream.payload_lt split among)

/-- A message is read faithfully. -/
theorem message_faithful (scope : Scope) (peer : Peer) (data : Bytes) :
    MessageFaithful scope peer data :=
  induction_on_length (fun _ => value_faithful) (fun _ => message_faithful_of_values) data

end Decoding

namespace Family

open Outcome

/-- Whichever peer decodes a stream, and however its attributes are mixed, the message holds for
every attribute that is found by its number what the payloads of that number say: nothing if there
are none or the attribute carries no value, the values of all payloads in order if the attribute may
be repeated, and the value of the last payload otherwise. There are no other members, and the same
holds of all messages inside. -/
theorem decode_faithful {family : Family} {peer : Peer} {set : String} {data : Bytes}
    {message : Message} (decoded : family.decode peer set data = .ok message) :
    ∃ attrs, family.attributeSet set = .ok attrs ∧
      Decoding.Faithful family.toScope peer attrs data message := by
  simp only [decode, bind_eq_ok_iff, CodecError.lift_eq_ok_iff] at decoded
  obtain ⟨attrs, declared, read⟩ := decoded
  exact ⟨attrs, declared, Decoding.message_faithful family.toScope peer data attrs message read⟩

/-- A repeated number, a text under a number that two attributes share, padding, and a nest. -/
def mixed : Spec.File where
  license := Spec.acceptedLicense
  family :=
    { name := "f"
      attributeSets :=
        [{ name := "f"
           attributes :=
            [{ name := "count", kind := some "u8", multi := some true },
             { name := "label", kind := some "string" },
             { name := "shadow", kind := some "u16", value := some 2 },
             { name := "fill", kind := some "pad" },
             { name := "inner", kind := some "nest", nestedAttributes := some "part" }] },
         { name := "part"
           attributes := [{ name := "size", kind := some "u8", multi := some true }] }]
      operations := { list := [{ name := "get", attributeSet := some "f" }] } }

theorem isSome_ofSpec_mixed : (ofSpec mixed []).toOption.isSome = true := by
  decide +kernel

/-- The family with a repeated number, padding and a nest. -/
def mixedFamily : Family :=
  (ofSpec mixed []).toOption.get isSome_ofSpec_mixed

/-- Counts around two labels, an unknown attribute, padding, and a nest of two sizes. -/
def mixedStream : Bytes :=
  [5, 0, 1, 0, 7, 0, 0, 0, 6, 0, 2, 0, 97, 0, 0, 0, 4, 0, 9, 0, 5, 0, 1, 0, 8, 0, 0, 0,
   4, 0, 3, 0, 6, 0, 2, 0, 98, 0, 0, 0, 20, 0, 4, 128, 5, 0, 1, 0, 3, 0, 0, 0,
   5, 0, 1, 0, 4, 0, 0, 0]

/-- Both counts are there, only the last label, and both sizes. -/
theorem decode_faithful_mixed :
    mixedFamily.decode .originating "f" mixedStream =
        .ok [("count", .multi [.scalar ⟨.u8, 7⟩, .scalar ⟨.u8, 8⟩]), ("label", .text "b"),
          ("inner", .nest [("size", .multi [.scalar ⟨.u8, 3⟩, .scalar ⟨.u8, 4⟩])])] ∧
      ∃ attrs, mixedFamily.attributeSet "f" = .ok attrs ∧
        Decoding.Faithful mixedFamily.toScope .originating attrs mixedStream
          [("count", .multi [.scalar ⟨.u8, 7⟩, .scalar ⟨.u8, 8⟩]), ("label", .text "b"),
            ("inner", .nest [("size", .multi [.scalar ⟨.u8, 3⟩, .scalar ⟨.u8, 4⟩])])] := by
  have decoded : mixedFamily.decode .originating "f" mixedStream =
      .ok [("count", .multi [.scalar ⟨.u8, 7⟩, .scalar ⟨.u8, 8⟩]), ("label", .text "b"),
        ("inner", .nest [("size", .multi [.scalar ⟨.u8, 3⟩, .scalar ⟨.u8, 4⟩])])] := by
    decide +kernel
  exact ⟨decoded, decode_faithful decoded⟩

end Family

end NetlinkFamily
