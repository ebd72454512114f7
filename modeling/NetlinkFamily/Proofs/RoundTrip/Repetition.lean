import NetlinkFamily.Proofs.RoundTrip.Messages

namespace NetlinkFamily

/-- Whether a value is read back: it is known of every empty array inside what its entries would
be, and no nest inside holds an array twice. -/
def Value.ReadsBack (scope : Scope) (attr : Attribute) (value : Value) : Prop :=
  ∀ part ∈ value.parts scope attr,
    (part.2 = .array [] → part.1.knowsEntries scope = true) ∧
      part.2.repeatsNoArray scope part.1 = true

instance (scope : Scope) (attr : Attribute) (value : Value) :
    Decidable (value.ReadsBack scope attr) :=
  inferInstanceAs (Decidable (∀ part ∈ value.parts scope attr, _ ∧ _))

namespace Message

variable {scope : Scope} {set : AttributeSet} {attr : Attribute} {items : List Value}

/-- The message of one repeated attribute. -/
def ofItems (attr : Attribute) (items : List Value) : Message :=
  [(attr.name, .multi items)]

/-- The occurrences of items are the items. -/
theorem occurrencesOf_ofItems (multi : attr.multi = true) :
    (ofItems attr items).occurrencesOf attr = items.map fun item => (attr, item) := by
  simp [occurrencesOf, ofItems, Message.get?, multi, Value.items]

/-- Its occurrences are its items. -/
theorem occurrences_ofItems (listed : attr ∈ set.attrs.values) (multi : attr.multi = true) :
    (ofItems attr items).occurrences set = items.map fun item => (attr, item) := by
  have named : ((ofItems attr items).occurrences set).filter
      (fun entry => entry.1.name == attr.name) = (ofItems attr items).occurrences set := by
    refine List.filter_eq_self.2 fun entry member => ?_
    obtain ⟨source, inside, same, -⟩ := member_of_mem_occurrences entry member
    rw [List.mem_singleton.1 inside] at same
    exact beq_iff_eq.2 same.symm
  rw [← named, occurrences, filter_flatMap_occurrencesOf (ofItems attr items) fun other =>
    other.name == attr.name, filter_name set.nodup_names listed, List.flatMap_singleton,
    occurrencesOf_ofItems multi]

/-- An array may have one item only. -/
theorem singleArrays_ofItems (listed : attr ∈ set.attrs.values) (multi : attr.multi = true) :
    (ofItems attr items).SingleArrays set ↔ (attr.kind = .arrayNest → items.length ≤ 1) := by
  rw [← Decoding.arraysOnce_occurrences_iff, occurrences_ofItems listed multi]
  by_cases array : attr.kind = .arrayNest <;>
    simp [Decoding.ArraysOnce, Function.comp_def, array]

/-- A message of one repeated attribute is collected from its items. -/
theorem collect_ofItems (multi : attr.multi = true) (occurs : items ≠ []) :
    Decoding.collect (items.map fun item => (attr, item)) = ofItems attr items := by
  have repeated : (items.map fun item => (attr, item)).filter (fun entry => entry.1.multi) =
      items.map fun item => (attr, item) :=
    List.filter_eq_self.2 (by simp [multi])
  have others : (items.map fun item => (attr, item)).filter (fun entry => !entry.1.multi) = [] := by
    simp [multi]
  have values : Decoding.valuesOf attr.name (items.map fun item => (attr, item)) = items := by
    simp [Decoding.valuesOf, List.filter_map, Function.comp_def]
  have names : ((items.map fun item => (attr, item)).map fun entry => entry.1.name).eraseDups =
      [attr.name] := by
    obtain ⟨first, rest, rfl⟩ := List.exists_cons_of_ne_nil occurs
    have once : (List.replicate (rest.length + 1) attr.name ++ []).eraseDups =
        attr.name :: [].eraseDups :=
      eraseDups_replicate_append rest.length (by simp)
    simpa [Function.comp_def, List.replicate_succ] using once
  simp only [Decoding.collect, repeated, others, names, values, List.map_cons, List.map_nil,
    List.foldl_nil, ofItems]

/-- Its normal form has the normal forms of its items. -/
theorem normal_ofItems {peer : Peer} (listed : attr ∈ set.attrs.values) (multi : attr.multi = true)
    (occurs : items ≠ []) (fits : (ofItems attr items).Fits set) :
    (Rewriting.normal peer).message scope set (ofItems attr items) =
      ofItems attr (items.map ((Rewriting.normal peer).value scope attr)) := by
  rw [← Rewriting.collect_normal scope peer fits, occurrences_ofItems listed multi, List.map_map,
    ← collect_ofItems multi (by simpa using occurs), List.map_map]
  rfl

/-- Its parts are those of its items. -/
theorem parts_ofItems (listed : attr ∈ set.attrs.values) (multi : attr.multi = true)
    (fits : (ofItems attr items).Fits set) :
    (ofItems attr items).parts scope set = items.flatMap (Value.parts scope attr) := by
  rw [parts_eq fits, occurrences_ofItems listed multi, List.flatMap_map]

end Message

namespace Encoding

open Outcome

variable {scope : Scope} {set : AttributeSet} {attr : Attribute} {items : List Value}

/-- What is written for an attribute that holds no attributes is read back. -/
theorem readsBack_of_single {type : UInt16} {value : Value} {stream : Bytes}
    (notNest : attr.kind ≠ .nest) (notArray : attr.kind ≠ .arrayNest)
    (done : single scope attr type value = .ok stream) : value.ReadsBack scope attr := by
  cases written_of_single done with
  | scalar _ _ | flag _ _ | text _ _ | binary _ _ =>
      exact List.forall_mem_singleton.2 ⟨by simp, rfl⟩
  | nest kind _ _ _ => exact absurd kind notNest
  | array kind _ _ => exact absurd kind notArray

/-- Every item of a message of one attribute is written on its own. -/
theorem single_of_ofItems (listed : attr ∈ set.attrs.values) (multi : attr.multi = true)
    {data : Bytes} (done : message scope set (Message.ofItems attr items) = .ok data) :
    ∀ item ∈ items, ∃ type stream, single scope attr type item = .ok stream := by
  obtain ⟨-, streams, -, written⟩ := streams_of_message done
  rw [Message.occurrences_ofItems listed multi, List.mapM_map] at written
  intro item member
  obtain ⟨stream, one⟩ := exists_mapM_iff.1 ⟨streams, written⟩ item member
  obtain ⟨type, -, one⟩ := bind_eq_ok_iff.1 one
  exact ⟨type, stream, one⟩

end Encoding

namespace Family

open Outcome

/-- The conditions on a message of one repeated attribute are conditions on its items. -/
theorem readable_ofItems_iff {scope : Scope} {set : AttributeSet} {attr : Attribute}
    {items : List Value} (listed : attr ∈ set.attrs.values) (multi : attr.multi = true)
    (occurs : items ≠ []) (fits : (Message.ofItems attr items).Fits set) :
    ((Message.ofItems attr items).RepeatsNoArray scope set ∧
        (Message.ofItems attr items).KnowsArrays scope set) ↔
      (attr.kind = .arrayNest → items.length = 1) ∧ ∀ item ∈ items, item.ReadsBack scope attr := by
  have length : items.length ≤ 1 ↔ items.length = 1 := by
    have := List.length_pos_iff.2 occurs
    omega
  simp only [Message.RepeatsNoArray, Message.KnowsArrays, Message.singleArrays_ofItems listed multi,
    Message.parts_ofItems listed multi fits, length, List.forall_mem_flatMap, Value.ReadsBack,
    forall_and]
  tauto

/-- Where all numbers differ, the items of a repeated attribute are decoded to as many items in
their order, each in normal form. Only arrays may fail to be decoded: if there are several of them,
if a nest inside holds one twice, or if an empty one leaves open what its entries are. -/
theorem decode_encode_ofItems {family : Family} (distinct : family.DistinctNumbers) {set : String}
    {attrs : AttributeSet} (declared : family.attributeSet set = .ok attrs) {attr : Attribute}
    (listed : attr ∈ attrs.attrs.values) (multi : attr.multi = true) {items : List Value}
    (occurs : items ≠ []) {data : Bytes}
    (done : family.encode set (Message.ofItems attr items) = .ok data) :
    (∀ result, family.decode .originating set data = .ok result ↔
      ((attr.kind = .arrayNest → items.length = 1) ∧
        ∀ item ∈ items, item.ReadsBack family.toScope attr) ∧
      result = Message.ofItems attr
        (items.map ((Rewriting.normal .originating).value family.toScope attr))) ∧
    (attr.kind ≠ .nest → attr.kind ≠ .arrayNest →
      family.decode .originating set data = .ok (Message.ofItems attr
        (items.map ((Rewriting.normal .originating).value family.toScope attr)))) := by
  obtain ⟨attrs', declared', done⟩ := encode_eq_ok_iff.1 done
  obtain rfl : attrs = attrs' := Except.ok.inj (declared.symm.trans declared')
  have inScope : attrs ∈ family.sets.values :=
    Registry.mem_values_of_get? (Scope.attributeSet_eq_ok_iff.1 declared)
  have fits := (Encoding.streams_of_message done).1
  have decoded (result : Message) : family.decode .originating set data = .ok result ↔
      ((attr.kind = .arrayNest → items.length = 1) ∧
        ∀ item ∈ items, item.ReadsBack family.toScope attr) ∧
      result = Message.ofItems attr
        (items.map ((Rewriting.normal .originating).value family.toScope attr)) := by
    have read := Decoding.message_encode_numbered distinct .originating inScope done none (by simp)
      result
    rw [Message.normal_ofItems listed multi occurs fits] at read
    simp only [reduceCtorEq, false_imp_iff, and_true,
      readable_ofItems_iff listed multi occurs fits] at read
    simpa only [decode, declared, CodecError.lift, bind, Except.bind] using read
  refine ⟨decoded, fun notNest notArray =>
    (decoded _).2 ⟨⟨fun array => absurd array notArray, fun item member => ?_⟩, rfl⟩⟩
  obtain ⟨type, stream, one⟩ := Encoding.single_of_ofItems listed multi done item member
  exact Encoding.readsBack_of_single notNest notArray one

/-- Texts, nests and arrays of numbers, all of which may be repeated. -/
def repeating : Spec.File where
  license := Spec.acceptedLicense
  family :=
    { name := "f"
      attributeSets :=
        [{ name := "f"
           attributes :=
            [{ name := "list", kind := some "array-nest", subType := some "u8", multi := some true },
             { name := "tag", kind := some "string", multi := some true },
             { name := "inner"
               kind := some "nest"
               nestedAttributes := some "g"
               multi := some true }] },
         { name := "g"
           attributes :=
            [{ name := "list"
               kind := some "array-nest"
               subType := some "u8"
               multi := some true }] }]
      operations := { list := [{ name := "get", attributeSet := some "f" }] } }

theorem isSome_ofSpec_repeating : (ofSpec repeating []).toOption.isSome = true := by
  decide +kernel

/-- The family whose attributes may be repeated. -/
def repeatingFamily : Family :=
  (ofSpec repeating []).toOption.get isSome_ofSpec_repeating

/-- That family is what its description builds. -/
theorem ofSpec_repeating : ofSpec repeating [] = .ok repeatingFamily :=
  Outcome.eq_ok_get isSome_ofSpec_repeating

/-- Two nests with an array each. -/
def repeatingNests : List Value :=
  [.nest [("list", .multi [.array [.scalar ⟨.u8, 1⟩]])],
    .nest [("list", .multi [.array [.scalar ⟨.u8, 2⟩]])]]

/-- Two arrays for that attribute. -/
def repeatingArrays : List Value :=
  [.array [.scalar ⟨.u8, 1⟩], .array [.scalar ⟨.u8, 2⟩]]

/-- What is written for the two arrays. -/
def repeatingStream : Bytes :=
  [12, 0, 1, 128, 5, 0, 0, 0, 1, 0, 0, 0, 12, 0, 1, 128, 5, 0, 0, 0, 2, 0, 0, 0]

/-- Two nests with an array each are read back. Two arrays are written and not read. -/
theorem decode_encode_ofItems_repeating :
    repeatingFamily.decode .originating "f"
        [16, 0, 3, 128, 12, 0, 1, 128, 5, 0, 0, 0, 1, 0, 0, 0,
          16, 0, 3, 128, 12, 0, 1, 128, 5, 0, 0, 0, 2, 0, 0, 0] =
      .ok [("inner", .multi repeatingNests)] ∧
    ∀ result, repeatingFamily.decode .originating "f" repeatingStream ≠ .ok result := by
  have distinct : repeatingFamily.DistinctNumbers := by decide +kernel
  have nests : repeatingFamily.encode "f" [("inner", .multi repeatingNests)] =
      .ok [16, 0, 3, 128, 12, 0, 1, 128, 5, 0, 0, 0, 1, 0, 0, 0,
        16, 0, 3, 128, 12, 0, 1, 128, 5, 0, 0, 0, 2, 0, 0, 0] := by
    decide +kernel
  have arrays : repeatingFamily.encode "f" [("list", .multi repeatingArrays)] =
      .ok repeatingStream := by
    decide +kernel
  have inner : ((repeatingFamily.attributeSet "f").toOption.all fun attrs =>
      ∃ attr ∈ attrs.attrs.values, attr.name = "inner" ∧ attr.multi = true ∧
        attr.kind ≠ .arrayNest ∧
        (∀ item ∈ repeatingNests, item.ReadsBack repeatingFamily.toScope attr) ∧
        repeatingNests.map ((Rewriting.normal .originating).value repeatingFamily.toScope attr) =
          repeatingNests) = true := by
    decide +kernel
  have list : ((repeatingFamily.attributeSet "f").toOption.all fun attrs =>
      ∃ attr ∈ attrs.attrs.values, attr.name = "list" ∧ attr.multi = true ∧
        attr.kind = .arrayNest) = true := by
    decide +kernel
  obtain ⟨attrs, declared⟩ : ∃ attrs, repeatingFamily.attributeSet "f" = .ok attrs :=
    ⟨_, Outcome.eq_ok_get (by decide +kernel)⟩
  rw [declared] at inner list
  constructor
  · obtain ⟨attr, listed, named, multi, notArray, readsBack, same⟩ := of_decide_eq_true inner
    have written := named.symm ▸ nests
    have decoded := (decode_encode_ofItems distinct declared listed multi (by decide) written).1
    rw [(decoded _).2 ⟨⟨fun array => absurd array notArray, readsBack⟩, rfl⟩, same,
      Message.ofItems, named]
  · intro result taken
    obtain ⟨attr, listed, named, multi, array⟩ := of_decide_eq_true list
    have written := named.symm ▸ arrays
    have decoded := (decode_encode_ofItems distinct declared listed multi (by decide) written).1
    exact absurd (((decoded result).1 taken).1.1 array) (by decide)

/-- So not every list that is written is read as a list of the same length: two arrays are not. -/
theorem not_forall_decode_encode_ofItems :
    ¬∀ (file : Spec.File) (excludes : List Pattern) (family : Family),
      ofSpec file excludes = .ok family → family.DistinctNumbers →
        ∀ set attrs, family.attributeSet set = .ok attrs →
          ∀ attr ∈ attrs.attrs.values, attr.multi = true → ∀ items ≠ [], ∀ data,
            family.encode set (Message.ofItems attr items) = .ok data →
              ∃ message found, family.decode .originating set data = .ok message ∧
                message.get? attr.name = some (.multi found) ∧ found.length = items.length := by
  intro claim
  have list : ((repeatingFamily.attributeSet "f").toOption.all fun attrs =>
      ∃ attr ∈ attrs.attrs.values, attr.name = "list" ∧ attr.multi = true) = true := by
    decide +kernel
  obtain ⟨attrs, declared⟩ : ∃ attrs, repeatingFamily.attributeSet "f" = .ok attrs :=
    ⟨_, Outcome.eq_ok_get (by decide +kernel)⟩
  rw [declared] at list
  obtain ⟨attr, listed, named, multi⟩ := of_decide_eq_true list
  have written : repeatingFamily.encode "f" (Message.ofItems attr repeatingArrays) =
      .ok repeatingStream := by
    rw [Message.ofItems, named]
    decide +kernel
  obtain ⟨message, found, taken, -⟩ := claim repeating [] repeatingFamily ofSpec_repeating
    (by decide +kernel) "f" attrs declared attr listed multi repeatingArrays (by decide) _ written
  have failed : (repeatingFamily.decode .originating "f" repeatingStream).isOk = false := by
    decide +kernel
  rw [taken] at failed
  cases failed

end Family

end NetlinkFamily
