import Mathlib.Data.List.Basic
import NetlinkFamily.Message.Decoding
import NetlinkFamily.Proofs.Distinct
import NetlinkFamily.Proofs.Message.Rewriting
import NetlinkFamily.Proofs.Message.Value

namespace NetlinkFamily

namespace Message

/-- The occurrences of one attribute, each with its value. -/
def occurrencesOf (message : Message) (attr : Attribute) : List (Attribute × Value) :=
  match message.get? attr.name with
  | none => []
  | some value =>
      if attr.multi then value.items.map fun item => (attr, item) else [(attr, value)]

/-- The occurrences of all attributes of a set, in the order of their declaration. -/
def occurrences (set : AttributeSet) (message : Message) : List (Attribute × Value) :=
  set.attrs.values.flatMap message.occurrencesOf

/-- No array of the set occurs more than once. -/
def SingleArrays (set : AttributeSet) (message : Message) : Prop :=
  ∀ attr ∈ set.attrs.values, attr.kind = .arrayNest → (message.occurrencesOf attr).length ≤ 1

instance (set : AttributeSet) (message : Message) : Decidable (message.SingleArrays set) :=
  inferInstanceAs (Decidable (∀ attr ∈ set.attrs.values, _ → _))

/-- Exactly the attributes of a set that may be repeated hold lists of occurrences. -/
def Fits (set : AttributeSet) (message : Message) : Prop :=
  ∀ attr ∈ set.attrs.values, ∀ value, message.get? attr.name = some value →
    (attr.multi = true ↔ value = .multi value.items)

/-- The member of an attribute, unless it is absent or occurs zero times. -/
def memberOf? (message : Message) (attr : Attribute) : Option (String × Value) :=
  match message.get? attr.name with
  | none | some (.multi []) => none
  | some value => some (attr.name, value)

/-- The message with its members in order: first the repeated attributes that occur, then all
other ones, both as the set declares them. -/
def arranged (set : AttributeSet) (message : Message) : Message :=
  (set.attrs.values.filter (fun attr => attr.multi) ++
    set.attrs.values.filter fun attr => !attr.multi).filterMap message.memberOf?

variable {set : AttributeSet} {message : Message}

/-- All occurrences of an attribute are under that attribute. -/
theorem fst_of_mem_occurrencesOf {attr : Attribute} :
    ∀ entry ∈ message.occurrencesOf attr, entry.1 = attr := by
  intro entry member
  unfold occurrencesOf at member
  split at member
  · cases member
  · split at member
    · obtain ⟨item, _, rfl⟩ := List.mem_map.1 member
      rfl
    · rw [List.mem_singleton.1 member]

/-- All occurrences of an attribute are of that attribute. -/
theorem map_fst_occurrencesOf (message : Message) (attr : Attribute) :
    (message.occurrencesOf attr).map Prod.fst =
      List.replicate (message.occurrencesOf attr).length attr :=
  List.map_eq_replicate_iff.2 fst_of_mem_occurrencesOf

/-- Occurrences are of attributes of the set. -/
theorem mem_values_of_mem_occurrences :
    ∀ entry ∈ message.occurrences set, entry.1 ∈ set.attrs.values := by
  intro entry member
  obtain ⟨attr, listed, inside⟩ := List.mem_flatMap.1 member
  exact fst_of_mem_occurrencesOf entry inside ▸ listed

/-- An occurrence has the value of a member of its name, or of an item of that value. -/
theorem member_of_mem_occurrences :
    ∀ entry ∈ message.occurrences set,
      ∃ member ∈ message, member.1 = entry.1.name ∧ entry.2 ∈ member.2 :: member.2.items := by
  intro entry member
  obtain ⟨attr, _, inside⟩ := List.mem_flatMap.1 member
  have named := fst_of_mem_occurrencesOf entry inside
  unfold occurrencesOf at inside
  split at inside
  · cases inside
  · rename_i value held
    refine ⟨_, mem_of_get? held, congrArg Attribute.name named.symm, ?_⟩
    split at inside
    · obtain ⟨item, among, rfl⟩ := List.mem_map.1 inside
      exact List.mem_cons_of_mem _ among
    · rw [List.mem_singleton.1 inside]
      exact List.mem_cons_self

/-- A choice of attributes is a choice of their occurrences. -/
theorem filter_flatMap_occurrencesOf (message : Message) (kind : Attribute → Bool)
    (attrs : List Attribute) :
    (attrs.flatMap message.occurrencesOf).filter (fun entry => kind entry.1) =
      (attrs.filter kind).flatMap message.occurrencesOf := by
  induction attrs with
  | nil => rfl
  | cons attr rest ih =>
      rw [List.flatMap_cons, List.filter_append, ih]
      cases wanted : kind attr with
      | true =>
          have all : (message.occurrencesOf attr).filter (fun entry => kind entry.1) =
              message.occurrencesOf attr :=
            List.filter_eq_self.2 fun entry member => by
              rw [fst_of_mem_occurrencesOf entry member, wanted]
          rw [all, List.filter_cons_of_pos wanted, List.flatMap_cons]
      | false =>
          have none : (message.occurrencesOf attr).filter (fun entry => kind entry.1) = [] :=
            List.filter_eq_nil_iff.2 fun entry member => by
              rw [fst_of_mem_occurrencesOf entry member, wanted]
              decide
          rw [none, List.filter_cons_of_neg (by simp [wanted]), List.nil_append]

/-- Under distinct names, the only attribute with the name of an attribute is that attribute. -/
theorem filter_name {attrs : List Attribute} (distinct : (attrs.map Attribute.name).Nodup)
    {attr : Attribute} (listed : attr ∈ attrs) :
    attrs.filter (fun other => other.name == attr.name) = [attr] :=
  Entries.filter_key distinct listed

/-- The values under a name are those of the attribute of that name. -/
theorem valuesOf_occurrences {attrs : List Attribute}
    (distinct : (attrs.map Attribute.name).Nodup) {attr : Attribute} (listed : attr ∈ attrs) :
    Decoding.valuesOf attr.name (attrs.flatMap message.occurrencesOf) =
      (message.occurrencesOf attr).map Prod.snd := by
  have chosen := filter_flatMap_occurrencesOf message
    (fun other => other.name == attr.name) attrs
  rw [Decoding.valuesOf, chosen, filter_name distinct listed, List.flatMap_singleton]

/-- Each attribute that occurs is named once, in order. -/
theorem eraseDups_names {attrs : List Attribute}
    (distinct : (attrs.map Attribute.name).Nodup) :
    ((attrs.flatMap message.occurrencesOf).map fun entry => entry.1.name).eraseDups =
      (attrs.filter fun attr => !(message.occurrencesOf attr).isEmpty).map Attribute.name := by
  induction attrs with
  | nil => rfl
  | cons attr rest ih =>
      rw [List.map_cons, List.nodup_cons] at distinct
      have named : (message.occurrencesOf attr).map (fun entry => entry.1.name) =
          List.replicate (message.occurrencesOf attr).length attr.name := by
        have names := congrArg (List.map Attribute.name) (map_fst_occurrencesOf message attr)
        simpa [Function.comp_def] using names
      have absent : attr.name ∉
          (rest.flatMap message.occurrencesOf).map (fun entry => entry.1.name) := by
        intro member
        obtain ⟨entry, inside, same⟩ := List.mem_map.1 member
        obtain ⟨other, listed, occurs⟩ := List.mem_flatMap.1 inside
        rw [fst_of_mem_occurrencesOf entry occurs] at same
        exact distinct.1 (same ▸ List.mem_map_of_mem listed)
      rw [List.flatMap_cons, List.map_append, named]
      cases occurs : message.occurrencesOf attr with
      | nil => simpa [occurs] using ih distinct.2
      | cons first others =>
          rw [List.length_cons, eraseDups_replicate_append _ absent, ih distinct.2,
            List.filter_cons_of_pos (by simp [occurs]), List.map_cons]

/-- A repeated attribute is a member if it occurs, with the values of all its occurrences. -/
theorem memberOf?_repeated (fits : Fits set message) {attr : Attribute}
    (listed : attr ∈ set.attrs.values) (repeated : attr.multi = true) :
    message.memberOf? attr =
      if (message.occurrencesOf attr).isEmpty then none
      else some (attr.name, .multi ((message.occurrencesOf attr).map Prod.snd)) := by
  cases held : message.get? attr.name with
  | none => simp [memberOf?, occurrencesOf, held]
  | some value =>
      obtain ⟨items, rfl⟩ : ∃ items, value = .multi items :=
        ⟨_, (fits attr listed value held).1 repeated⟩
      cases items with
      | nil => simp [memberOf?, occurrencesOf, held, repeated, Value.items]
      | cons first rest =>
          simp [memberOf?, occurrencesOf, held, repeated, Value.items, Function.comp_def]

/-- Any other attribute is a member with the value of its only occurrence. -/
theorem memberOf?_single (fits : Fits set message) {attr : Attribute}
    (listed : attr ∈ set.attrs.values) (single : attr.multi = false) :
    (message.memberOf? attr).toList =
      (message.occurrencesOf attr).map fun entry => (entry.1.name, entry.2) := by
  cases held : message.get? attr.name with
  | none => simp [memberOf?, occurrencesOf, held]
  | some value =>
      have whole : value ≠ .multi value.items := fun same => by
        simpa [single] using (fits attr listed value held).2 same
      have shown : message.memberOf? attr = some (attr.name, value) := by
        unfold memberOf?
        rw [held]
        split
        · cases ‹some value = none›
        · rename_i same
          cases same
          exact absurd rfl whole
        · rename_i same
          cases same
          rfl
      simp [shown, occurrencesOf, held, single]

/-- The member found for an attribute has its name. -/
theorem name_of_memberOf? {attr : Attribute} {entry : String × Value}
    (member : message.memberOf? attr = some entry) : entry.1 = attr.name := by
  unfold memberOf? at member
  split at member
  · cases member
  · cases member
  · rw [← Option.some.inj member]

/-- The members of an arranged message have distinct names. -/
theorem nodup_names_arranged (set : AttributeSet) (message : Message) :
    (Entries.names (message.arranged set)).Nodup := by
  have sublist (attrs : List Attribute) :
      (Entries.names (attrs.filterMap message.memberOf?)).Sublist (attrs.map Attribute.name) := by
    induction attrs with
    | nil => exact List.Sublist.refl _
    | cons attr rest ih =>
        cases found : message.memberOf? attr with
        | none =>
            rw [List.filterMap_cons_none found]
            exact ih.cons _
        | some entry =>
            rw [List.filterMap_cons_some found]
            simp only [Entries.names, List.map_cons, name_of_memberOf? found]
            exact ih.cons_cons _
  have order := (List.filter_append_perm (fun attr => attr.multi) set.attrs.values).map Attribute.name
  exact (order.nodup_iff.2 set.nodup_names).sublist (sublist _)

/-- The repeated attributes that occur, each with all of its values. -/
theorem collect_repeated (fits : Fits set message) {attrs : List Attribute}
    (distinct : (attrs.map Attribute.name).Nodup)
    (chosen : ∀ attr ∈ attrs, attr ∈ set.attrs.values ∧ attr.multi = true) :
    (((attrs.flatMap message.occurrencesOf).map fun entry => entry.1.name).eraseDups.map fun name =>
        (name, Value.multi (Decoding.valuesOf name (attrs.flatMap message.occurrencesOf)))) =
      attrs.filterMap message.memberOf? := by
  rw [eraseDups_names distinct, List.map_map, ← List.filterMap_eq_map, List.filterMap_filter]
  refine List.filterMap_congr fun attr member => ?_
  rw [memberOf?_repeated fits (chosen attr member).1 (chosen attr member).2]
  simp only [Function.comp_apply, valuesOf_occurrences distinct member]
  cases (message.occurrencesOf attr).isEmpty <;> rfl

/-- All other attributes that occur, each with its value. -/
theorem collect_single (fits : Fits set message) {attrs : List Attribute}
    (chosen : ∀ attr ∈ attrs, attr ∈ set.attrs.values ∧ attr.multi = false) :
    ((attrs.flatMap message.occurrencesOf).map fun entry => (entry.1.name, entry.2)) =
      attrs.filterMap message.memberOf? := by
  rw [List.map_flatMap, List.filterMap_eq_flatMap_toList]
  refine List.flatMap_congr fun attr member => ?_
  rw [memberOf?_single fits (chosen attr member).1 (chosen attr member).2]

/-- What is collected from the occurrences in a message is the message in order. -/
theorem collect_occurrences (fits : Fits set message) :
    Decoding.collect (message.occurrences set) = message.arranged set := by
  let repeated := set.attrs.values.filter fun attr => attr.multi
  let others := set.attrs.values.filter fun attr => !attr.multi
  have repeatedNames : (repeated.map Attribute.name).Nodup :=
    set.nodup_names.sublist (List.filter_sublist.map _)
  have front := collect_repeated fits repeatedNames fun attr member => List.mem_filter.1 member
  have inSet : ∀ attr ∈ others, attr ∈ set.attrs.values ∧ attr.multi = false := by
    intro attr member
    simpa [others] using member
  have back := collect_single fits inSet
  have distinct := nodup_names_arranged set message
  rw [arranged, List.filterMap_append] at distinct
  have inRepeated : ((message.occurrences set).filter fun entry => entry.1.multi) =
      repeated.flatMap message.occurrencesOf :=
    filter_flatMap_occurrencesOf message (fun attr => attr.multi) set.attrs.values
  have inOthers : ((message.occurrences set).filter fun entry => !entry.1.multi) =
      others.flatMap message.occurrencesOf :=
    filter_flatMap_occurrencesOf message (fun attr => !attr.multi) set.attrs.values
  simp only [Decoding.collect, inRepeated, inOthers]
  rw [front, arranged, List.filterMap_append, ← Entries.foldl_assign distinct, ← back,
    List.foldl_map]

end Message

end NetlinkFamily
