import NetlinkFamily.Proofs.Decoding.Reading
import NetlinkFamily.Proofs.Distinct
import NetlinkFamily.Proofs.Message.Rewriting

namespace NetlinkFamily.Decoding

variable {scope : Scope} {rule : Rewriting}

/-- The values of a stream, rewritten one by one. -/
def rewriteValues (scope : Scope) (rule : Rewriting) (values : List (Attribute × Value)) :
    List (Attribute × Value) :=
  values.map fun entry => (entry.1, rule.value scope entry.1 entry.2)

/-- Rewriting the values of a name is rewriting them as values of the attribute of that name. -/
theorem valuesOf_rewriteValues {name : String} {attr : Attribute}
    {values : List (Attribute × Value)}
    (same : ∀ entry ∈ values, entry.1.name = name → entry.1 = attr) :
    valuesOf name (rewriteValues scope rule values) =
      (valuesOf name values).map (rule.value scope attr) := by
  simp only [valuesOf, rewriteValues, List.filter_map, List.map_map, Function.comp_def]
  apply List.map_congr_left
  intro entry member
  obtain ⟨listed, named⟩ := List.mem_filter.1 member
  rw [same entry listed (by simpa using named)]

/-- Rewriting after assigning is assigning what is rewritten. -/
theorem assign_map (f : String → Value → Value) (name : String) (value : Value)
    (message : Message) :
    (Entries.assign name value message).map (fun entry => (entry.1, f entry.1 entry.2)) =
      Entries.assign name (f name value)
        (message.map fun entry => (entry.1, f entry.1 entry.2)) := by
  induction message with
  | nil => rfl
  | cons first rest ih =>
      by_cases same : first.1 = name
      · simp [Entries.assign, same]
      · simp [Entries.assign, same, ih]

/-- Values of one kind are rewritten to values of that kind. -/
theorem filter_rewriteValues (kind : Attribute → Bool) (values : List (Attribute × Value)) :
    (rewriteValues scope rule values).filter (fun entry => kind entry.1) =
      rewriteValues scope rule (values.filter fun entry => kind entry.1) := by
  rw [rewriteValues, List.filter_map]
  rfl

/-- Values may be rewritten before they become members. -/
theorem foldl_assign_rewriteValues {set : AttributeSet} {values : List (Attribute × Value)}
    (listed : ∀ entry ∈ values, set.attrs.get? entry.1.name = some entry.1) (message : Message) :
    (rewriteValues scope rule values).foldl
        (fun message entry => Entries.assign entry.1.name entry.2 message)
        (rule.eachMember scope set message) =
      rule.eachMember scope set (values.foldl
        (fun message entry => Entries.assign entry.1.name entry.2 message) message) := by
  induction values generalizing message with
  | nil => rfl
  | cons first rest ih =>
      obtain ⟨here, later⟩ := List.forall_mem_cons.1 listed
      have rewritten : rule.member scope set first.1.name first.2 =
          rule.value scope first.1 first.2 := by
        rw [Rewriting.member, here]
      have step := assign_map (rule.member scope set) first.1.name first.2 message
      rw [rewritten, ← Rewriting.eachMember_eq_map, ← Rewriting.eachMember_eq_map] at step
      simp only [rewriteValues, List.map_cons, List.foldl_cons]
      rw [← step]
      exact ih later _

/-- Values of repeated attributes may be rewritten before they are put together. -/
theorem repeated_rewriteValues {set : AttributeSet} {values : List (Attribute × Value)}
    (listed : ∀ entry ∈ values, set.attrs.get? entry.1.name = some entry.1) :
    (((rewriteValues scope rule values).map fun entry => entry.1.name).eraseDups.map fun name =>
        (name, Value.multi (valuesOf name (rewriteValues scope rule values)))) =
      rule.eachMember scope set
        ((values.map fun entry => entry.1.name).eraseDups.map fun name =>
          (name, .multi (valuesOf name values))) := by
  have names : (rewriteValues scope rule values).map (fun entry => entry.1.name) =
      values.map fun entry => entry.1.name := by
    rw [rewriteValues, List.map_map]
    rfl
  rw [names, Rewriting.eachMember_eq_map, List.map_map]
  apply List.map_congr_left
  intro name member
  obtain ⟨entry, inside, rfl⟩ := List.mem_map.1 (List.mem_eraseDups.1 member)
  have held := listed entry inside
  have only : ∀ other ∈ values, other.1.name = entry.1.name → other.1 = entry.1 := by
    intro other found named
    have same := listed other found
    rw [named, held] at same
    exact (Option.some.inj same).symm
  simp only [Function.comp_apply, Rewriting.member, held, Rewriting.value_multi,
    valuesOf_rewriteValues only]

/-- Values may be rewritten before they are collected, if every one belongs to the attribute that
the set holds under its name. -/
theorem collect_rewriteValues {set : AttributeSet} {values : List (Attribute × Value)}
    (listed : ∀ entry ∈ values, set.attrs.get? entry.1.name = some entry.1) :
    collect (rewriteValues scope rule values) = rule.eachMember scope set (collect values) := by
  have chosen (kind : Attribute → Bool) : ∀ entry ∈ values.filter (fun entry => kind entry.1),
      set.attrs.get? entry.1.name = some entry.1 := fun entry member =>
    listed entry (List.mem_filter.1 member).1
  unfold collect
  simp only [filter_rewriteValues Attribute.multi, filter_rewriteValues fun attr => !attr.multi]
  rw [← foldl_assign_rewriteValues (chosen fun attr => !attr.multi),
    ← repeated_rewriteValues (chosen Attribute.multi)]

/-- What a message holds of the values of one attribute: all of them if the attribute may be
repeated, or else the last one. -/
def gathered (attr : Attribute) (values : List Value) : Option Value :=
  if attr.multi then if values.isEmpty then none else some (.multi values) else values.getLast?

/-- The values of a name are those of its attributes. -/
theorem valuesOf_cons (name : String) (entry : Attribute × Value)
    (rest : List (Attribute × Value)) :
    valuesOf name (entry :: rest) =
      if entry.1.name = name then entry.2 :: valuesOf name rest else valuesOf name rest := by
  by_cases same : entry.1.name = name <;> simp [valuesOf, same]

/-- The last one of the values that are assigned to a name counts. -/
theorem lookup_foldl_assign (values : List (Attribute × Value)) (start : Message) (name : String) :
    (values.foldl (fun message entry => Entries.assign entry.1.name entry.2 message)
        start).lookup name =
      (valuesOf name values).getLast?.or (start.lookup name) := by
  induction values generalizing start with
  | nil => rfl
  | cons entry rest ih =>
      rw [List.foldl_cons, ih, Entries.lookup_assign, valuesOf_cons]
      by_cases same : entry.1.name = name
      · simp only [same, if_true, List.getLast?_cons]
        cases (valuesOf name rest).getLast? <;> rfl
      · rw [if_neg same, if_neg (Ne.symm same)]

/-- A name that is assigned was there or is one of the values'. -/
theorem mem_names_foldl_assign {values : List (Attribute × Value)} {start : Message}
    {name : String}
    (member : name ∈ Entries.names (values.foldl
      (fun message entry => Entries.assign entry.1.name entry.2 message) start)) :
    name ∈ Entries.names start ∨ ∃ entry ∈ values, entry.1.name = name := by
  induction values generalizing start with
  | nil => exact .inl member
  | cons entry rest ih =>
      rcases ih member with before | ⟨other, later, named⟩
      · obtain ⟨assigned, inside, rfl⟩ := List.mem_map.1 before
        rcases Entries.mem_assign inside with rfl | earlier
        · exact .inr ⟨entry, List.mem_cons_self, rfl⟩
        · exact .inl (List.mem_map_of_mem earlier)
      · exact .inr ⟨other, List.mem_cons_of_mem _ later, named⟩

/-- Every member of a message has a value among those that are collected. -/
theorem exists_of_mem_names_collect {values : List (Attribute × Value)} {name : String}
    (member : name ∈ (collect values).names) : ∃ entry ∈ values, entry.1.name = name := by
  rcases mem_names_foldl_assign member with before | ⟨entry, inside, named⟩
  · simp only [Entries.names, List.map_map, Function.comp_def, List.map_id'] at before
    obtain ⟨entry, inside, named⟩ := List.mem_map.1 (List.mem_eraseDups.1 before)
    exact ⟨entry, (List.mem_filter.1 inside).1, named⟩
  · exact ⟨entry, (List.mem_filter.1 inside).1, named⟩

/-- The members of a collected message have distinct names. -/
theorem nodup_names_collect (values : List (Attribute × Value)) :
    (collect values).names.Nodup := by
  have assigned : ∀ (others : List (Attribute × Value)) (start : Message),
      (Entries.names start).Nodup → (Entries.names (others.foldl
        (fun message entry => Entries.assign entry.1.name entry.2 message) start)).Nodup := by
    intro others
    induction others with
    | nil => exact fun start distinct => distinct
    | cons entry rest ih => exact fun start distinct => ih _ (Entries.nodup_assign distinct)
  refine assigned _ _ ?_
  rw [Entries.names, List.map_map]
  simpa [Function.comp_def] using nodup_eraseDups _

/-- A repeated attribute has one member with all of its values. -/
theorem lookup_repeated (values : List (Attribute × Value)) (name : String) :
    ((values.map fun entry => entry.1.name).eraseDups.map fun name =>
        (name, Value.multi (valuesOf name values))).lookup name =
      if (valuesOf name values).isEmpty then none else some (.multi (valuesOf name values)) := by
  have listed : name ∈ (values.map fun entry => entry.1.name).eraseDups ↔
      valuesOf name values ≠ [] := by
    rw [List.mem_eraseDups]
    simp [valuesOf]
  by_cases empty : valuesOf name values = []
  · have absent : name ∉ (values.map fun entry => entry.1.name).eraseDups := fun member =>
      listed.1 member empty
    rw [empty, List.isEmpty_nil, if_pos rfl, List.lookup_eq_none_iff]
    intro entry member
    obtain ⟨other, inside, rfl⟩ := List.mem_map.1 member
    have differs : name ≠ other := fun same => absent (same ▸ inside)
    simpa using differs
  · rw [List.lookup_graph (fun name => Value.multi (valuesOf name values)) (listed.2 empty),
      if_neg (by simpa using empty)]

/-- A choice of attributes keeps the values of an attribute or drops all of them. -/
theorem valuesOf_filter {values : List (Attribute × Value)} {attr : Attribute}
    (only : ∀ entry ∈ values, entry.1.name = attr.name → entry.1 = attr)
    (kind : Attribute → Bool) :
    valuesOf attr.name (values.filter fun entry => kind entry.1) =
      if kind attr then valuesOf attr.name values else [] := by
  induction values with
  | nil => simp [valuesOf]
  | cons entry rest ih =>
      obtain ⟨here, later⟩ := List.forall_mem_cons.1 only
      have tail := ih later
      rw [List.filter_cons]
      by_cases same : entry.1.name = attr.name
      · rw [here same]
        cases wanted : kind attr <;> simp [valuesOf_cons, same, wanted, tail]
      · cases kind entry.1 <;> simp [valuesOf_cons, same, tail]

/-- A message holds what its values gather for each attribute. -/
theorem get?_collect {values : List (Attribute × Value)} {attr : Attribute}
    (only : ∀ entry ∈ values, entry.1.name = attr.name → entry.1 = attr) :
    (collect values).get? attr.name = gathered attr (valuesOf attr.name values) := by
  have repeated := valuesOf_filter only Attribute.multi
  have others := valuesOf_filter only fun attr => !attr.multi
  rw [Message.get?, collect, lookup_foldl_assign, lookup_repeated, others, repeated, gathered]
  cases attr.multi <;> simp

end NetlinkFamily.Decoding
