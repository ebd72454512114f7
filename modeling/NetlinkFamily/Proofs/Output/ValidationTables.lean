import NetlinkFamily.Proofs.Model.Subsets
import NetlinkFamily.Proofs.Output.Enumerations
import NetlinkFamily.Proofs.Output.Notifications

namespace NetlinkFamily

namespace Declaration

/-- The constants that a declaration defines as macros: numbers, and what is one less than an
enumerator that is known. -/
def macros (known : List (String × Int)) : Declaration → List (String × Int)
  | .defines values =>
      values.filterMap fun
        | (name, .number value) => some (name, value)
        | (_, .text _) => none
  | .line text =>
      known.filterMap fun (count, value) =>
        ((text.toList.dropPrefix? "#define ".toList).bind fun rest =>
          rest.dropSuffix? (" (" ++ count ++ " - 1)").toList).map fun name =>
            (String.ofList name, value - 1)
  | _ => []

/-- The constants of a header by the rules of C: its enumerators, and its macros. -/
def constants (declarations : List Declaration) : List (String × Int) :=
  let enumerators := (enumerations declarations).flatMap Enumeration.values
  enumerators ++ declarations.flatMap (macros enumerators)

variable {declarations : List Declaration}

/-- The values of an enumeration are among those of all. -/
theorem values_subset {enumeration : Enumeration}
    (listed : .enumeration enumeration ∈ declarations) :
    enumeration.values ⊆ (enumerations declarations).flatMap Enumeration.values := fun _ told =>
  List.mem_flatMap.2 ⟨enumeration, List.mem_filterMap.2 ⟨_, listed, rfl⟩, told⟩

/-- A macro that is one less than an enumerator is read as such. -/
theorem mem_constants_of_macro {count name : String} {value : Int}
    (known : (count, value) ∈ (enumerations declarations).flatMap Enumeration.values)
    (listed : .line ("#define " ++ name ++ " (" ++ count ++ " - 1)") ∈ declarations) :
    (name, value - 1) ∈ constants declarations := by
  have behind : ((name.toList ++ (" (" ++ count ++ " - 1)").toList).dropSuffix?
      (" (" ++ count ++ " - 1)").toList) = some name.toList :=
    List.dropSuffix?_eq_some_iff.2 ⟨_, rfl, beq_self_eq_true _⟩
  have before : ("#define " ++ name ++ " (" ++ count ++ " - 1)").toList.dropPrefix?
      "#define ".toList = some (name.toList ++ (" (" ++ count ++ " - 1)").toList) :=
    List.dropPrefix?_eq_some_iff.2 ⟨"#define ".toList, by simp, beq_self_eq_true _⟩
  refine List.mem_append_right _ (List.mem_flatMap.2 ⟨_, listed, ?_⟩)
  refine List.mem_filterMap.2 ⟨(count, value), known, ?_⟩
  simp only [before, Option.bind_some, behind, Option.map_some, String.ofList_toList]

end Declaration

/-- The number that the enumeration of a set arrives at, one less than none if it is empty. -/
def AttributeSet.lastNumber (set : AttributeSet) : Int :=
  (set.attrs.values.getLast?.map fun attr => (attr.value.toNat : Int)).getD (-1)

namespace Constants

open Declaration Enumeration

variable {family : Family} {declarations : List Declaration}

/-- The constants that numbers tell. -/
def told (list : List (String × Nat)) : List (String × Int) :=
  list.map fun entry => (entry.1, (entry.2 : Int))

/-- An enumeration of numbers gives them their names. Behind them, the count goes on with what
follows. -/
theorem exists_known {printed : Enumeration} {list : List (String × Nat)}
    (listed : .enumeration printed ∈ declarations)
    (numbers : printed.enumerators = numbered 0 list) :
    ∃ all, told list ++ readFrom (arrived 0 (told list)) all printed.last ⊆
      (enumerations declarations).flatMap Enumeration.values := by
  have tells : Tells 0 (numbered 0 list) (told list) := tells_numbered 0 list
  obtain ⟨all, read⟩ := tells.readFrom_append [] printed.last
  have inside := values_subset listed
  rw [Enumeration.values, numbers, read] at inside
  exact ⟨all, inside⟩

/-- Numbers with a count behind them are constants, and so is the name for the last one of them. -/
theorem mem_constants_withCount {header countName maxName : String} {list : List (String × Nat)}
    (inside : ∀ declaration ∈
      withCount family { header, enumerators := numbered 0 list } countName maxName,
        declaration ∈ declarations) :
    told list ⊆ constants declarations ∧
      (maxName, arrived 0 (told list) - 1) ∈ constants declarations := by
  have known {all : List (String × Int)}
      (within : told list ++ all ⊆ (enumerations declarations).flatMap Enumeration.values) :
      told list ⊆ constants declarations := fun _ member =>
    List.mem_append_left _ (within (List.mem_append_left _ member))
  unfold withCount at inside
  -- the name for the last number is a macro in some headers, and an enumerator in others
  cases byDefine : family.maxByDefine with
  | true =>
      simp only [byDefine, if_true, List.cons_append, List.nil_append, List.forall_mem_cons] at inside
      obtain ⟨listed, line, -⟩ := inside
      obtain ⟨all, within⟩ := exists_known listed rfl
      have counted : (countName, arrived 0 (told list)) ∈ _ :=
        within (List.mem_append_right _ List.mem_cons_self)
      exact ⟨known within, mem_constants_of_macro counted line⟩
  | false =>
      simp only [byDefine, Bool.false_eq_true, if_false, List.cons_append, List.nil_append,
        List.forall_mem_cons] at inside
      obtain ⟨listed, -⟩ := inside
      obtain ⟨all, within⟩ := exists_known listed rfl
      have last : (maxName, arrived 0 (told list) - 1) ∈ _ :=
        within (List.mem_append_right _ (by simp [readFrom]))
      exact ⟨known within, List.mem_append_left _ last⟩

/-- The enumeration of a set that is no subset is in the header. -/
theorem mem_header_of_attributes {set : AttributeSet} (listed : set ∈ family.sets.values) :
    ∀ declaration ∈ attributes family set, declaration ∈ header family := by
  intro declaration member
  have inside := List.mem_flatMap.2 ⟨set, listed, member⟩
  simp [header, inside]

/-- The header gives each attribute of a set its number, and the bound of the set that of the last
attribute. -/
theorem mem_constants_header {set : AttributeSet} (listed : set ∈ family.sets.values)
    (top : set.subsetOf = none) :
    set.constants ⊆ constants (header family) ∧
      (set.maxName, set.lastNumber) ∈ constants (header family) := by
  have inside := mem_header_of_attributes listed
  simp only [attributes, top, Option.isSome_none, Bool.false_eq_true, if_false] at inside
  obtain ⟨numbers, last⟩ := mem_constants_withCount inside
  have numbered : told (set.attrs.values.map fun attr => (attr.enumName, attr.value.toNat)) =
      set.constants := List.map_map
  have same : arrived 0 set.constants - 1 = set.lastNumber := by
    rw [arrived, AttributeSet.lastNumber, AttributeSet.constants, List.getLast?_map]
    cases set.attrs.values.getLast? <;> simp
  rw [numbered] at numbers last
  exact ⟨numbers, same ▸ last⟩

end Constants

namespace Registry

/-- The values of a registry are what it holds under its names. -/
theorem filterMap_get?_names {A : Type} (registry : Registry A) :
    registry.names.filterMap registry.get? = registry.values := by
  rw [names, Entries.names, List.filterMap_map, values, ← List.filterMap_eq_map]
  exact List.filterMap_congr fun entry member => get?_eq_some_iff.2 member

end Registry

namespace Library

open Declaration Outcome

variable {family : Family} {declarations definitions : List Declaration} {table : ValidationTable}

/-- The layout of a set has all of its attributes. -/
theorem attributes_ofSet {scope : Scope} {name : String} {layout : Layout}
    (built : Layout.ofSet scope name = .ok layout) :
    ∃ set, scope.sets.get? name = some set ∧ layout.space = name ∧
      layout.renderName = Layout.stem scope.name name ∧
      layout.attributes scope = set.attrs.values := by
  simp only [Layout.ofSet, bind_eq_ok_iff, pure_eq_ok_iff, Scope.attributeSet_eq_ok_iff] at built
  obtain ⟨set, held, made⟩ := built
  have space : layout.space = name := made ▸ rfl
  have members : layout.members = set.attrs.names := made ▸ rfl
  refine ⟨set, held, space, made ▸ rfl, ?_⟩
  simp only [Layout.attributes, space, held, members, Registry.filterMap_get?_names]

/-- A table that user space validates the attributes of a set with. -/
structure Validates (family : Family) (set : AttributeSet) (table : ValidationTable) : Prop where
  declared : ∃ name, family.sets.get? name = some set ∧ table.stem = Layout.stem family.name name
  bound : table.bound = set.maxName
  entries : set.attrs.values.mapM Attribute.validationEntry = .ok table.entries

/-- The table of a layout of a set. -/
theorem validates_of_validation {name : String}
    (made : (do
      let layout ← Layout.ofSet family.toScope name
      validation family layout) = .ok declarations)
    (listed : .validation table ∈ declarations) : ∃ set, Validates family set table := by
  simp only [validation, bind_eq_ok_iff, pure_eq_ok_iff, Scope.attributeSet_eq_ok_iff] at made
  obtain ⟨layout, built, set, held, entries, written, rfl⟩ := made
  obtain ⟨same, found, space, stem, attributes⟩ := attributes_ofSet built
  rw [space] at held
  obtain rfl : set = same := Option.some.inj (held.symm.trans found)
  rw [attributes] at written
  obtain rfl := Declaration.validation.inj (List.mem_singleton.1 listed)
  exact ⟨set, ⟨name, held, stem⟩, rfl, written⟩

/-- Every table for validation in the source is that of a set. -/
theorem exists_validates (defines : source family = .ok definitions)
    (listed : .validation table ∈ definitions) : ∃ set, Validates family set table := by
  obtain ⟨before, tables, between, description, _, _, rfl, validated, described, _, _, _, _,
    plainBefore, plainBetween⟩ := exists_source_eq defines
  simp only [List.mem_append] at listed
  rcases listed with ((listed | listed) | listed) | listed
  · cases plainBefore _ listed
  · obtain ⟨name, _, part, made, inside⟩ := exists_item_of_each validated listed
    exact validates_of_validation made inside
  · cases plainBetween _ listed
  · simp only [familyDescription, bind_eq_ok_iff, pure_eq_ok_iff] at described
    obtain ⟨entries, _, rfl⟩ := described
    split at listed <;> simp at listed

end Library

/-- Whether a table has room for all attributes of a set: its bound has a value in the header, and
the number of no attribute, by which its entry is placed, is above that. -/
def ValidationTable.Fits (table : ValidationTable) (constants : List (String × Int))
    (set : AttributeSet) : Prop :=
  ∃ bound, constants.lookup table.bound = some bound ∧
    ∀ attr ∈ set.attrs.values,
      constants.lookup attr.enumName = some (attr.value.toNat : Int) ∧
        (attr.value.toNat : Int) ≤ bound

namespace Family

open Constants Declaration Library Outcome

variable {file : Spec.File} {excludes : List Pattern} {family : Family}
  {definitions : List Declaration} {table : ValidationTable}

/-- In a header without two constants of one name, the bound of a table has the number of the last
attribute of the set that the header counts, be it that of the table or one of its parents. So the
table has room for all of its attributes exactly if none of them has a greater number. -/
theorem validationTable_fits_iff (built : ofSpec file excludes = .ok family)
    (distinct : (file.family.attributeSets.map Spec.AttributeSet.name).Nodup)
    (named : ((Declaration.constants (header family)).map Prod.fst).Nodup)
    (defines : source family = .ok definitions) (listed : .validation table ∈ definitions) :
    ∃ set whole, Validates family set table ∧ whole ∈ family.sets.values ∧ whole.IsBase set ∧
      (table.Fits (Declaration.constants (header family)) set ↔
        ∀ attr ∈ set.attrs.values, (attr.value.toNat : Int) ≤ whole.lastNumber) := by
  obtain ⟨set, validates⟩ := exists_validates defines listed
  obtain ⟨name, held, _⟩ := validates.declared
  obtain ⟨root, whole, found, base⟩ := based_of_ofSpec built distinct name set held
  have among := Registry.mem_values_of_get? found
  obtain ⟨numbers, last⟩ := mem_constants_header among base.top
  have bound : (Declaration.constants (header family)).lookup table.bound =
      some whole.lastNumber := by
    rw [validates.bound, ← base.maxName]
    exact (Entries.lookup_eq_some_iff named).2 last
  have placed : ∀ attr ∈ set.attrs.values, (Declaration.constants (header family)).lookup
      attr.enumName = some (attr.value.toNat : Int) := fun attr member =>
    (Entries.lookup_eq_some_iff named).2 (numbers (List.mem_map_of_mem (base.attrs member)))
  refine ⟨set, whole, validates, among, base, ?_⟩
  constructor
  · rintro ⟨value, valued, fits⟩ attr member
    obtain rfl := Option.some.inj (bound.symm.trans valued)
    exact (fits attr member).2
  · exact fun fits => ⟨whole.lastNumber, bound, fun attr member =>
      ⟨placed attr member, fits attr member⟩⟩

/-- The numbers of `f` go down, and those of `g` go up. -/
def descending : Spec.File where
  license := Spec.acceptedLicense
  family :=
    { name := "f"
      attributeSets :=
        [{ name := "f"
           attributes :=
            [{ name := "x", value := some 9, kind := some "u8" },
             { name := "y", value := some 2, kind := some "nest", nestedAttributes := some "g" }] },
         { name := "g"
           attributes :=
            [{ name := "u", value := some 3, kind := some "u8" },
             { name := "v", value := some 7, kind := some "u8" }] }]
      operations :=
        { list :=
            [{ name := "get"
               attributeSet := some "f"
               doMode := some { request := some { attributes := ["x", "y"] } } }] } }

theorem isSome_ofSpec_descending : (ofSpec descending []).toOption.isSome = true := by
  decide +kernel

/-- The family with values in descending order. -/
def descendingFamily : Family :=
  (ofSpec descending []).toOption.get isSome_ofSpec_descending

/-- That family is what its description builds. -/
theorem ofSpec_descending : ofSpec descending [] = .ok descendingFamily :=
  Outcome.eq_ok_get isSome_ofSpec_descending

theorem isSome_source_descending : (source descendingFamily).toOption.isSome = true := by
  decide +kernel

/-- The source of that family. -/
def descendingSource : List Declaration :=
  (source descendingFamily).toOption.get isSome_source_descending

/-- That source is what is printed for the family. -/
theorem source_descending : source descendingFamily = .ok descendingSource :=
  Outcome.eq_ok_get isSome_source_descending

/-- The bounds of all tables for validation. -/
def boundsOf (definitions : List Declaration) : List String :=
  definitions.filterMap fun
    | .validation table => some table.bound
    | _ => none

/-- Every bound is that of a validation table. -/
theorem exists_of_mem_boundsOf {name : String} (member : name ∈ boundsOf definitions) :
    ∃ table, .validation table ∈ definitions ∧ table.bound = name := by
  obtain ⟨declaration, listed, found⟩ := List.mem_filterMap.1 member
  split at found
  · exact ⟨_, listed, Option.some.inj found⟩
  · cases found

/-- A set that is validated is one of the family's. -/
theorem mem_sets_of_validates {set : AttributeSet} (validates : Validates family set table) :
    set ∈ family.sets.values := by
  obtain ⟨name, held, _⟩ := validates.declared
  exact Registry.mem_values_of_get? held

/-- The table of `g` has room for all of its attributes, and that of `f` has not. -/
theorem validationTable_fits_iff_descending :
    (∃ table set, .validation table ∈ descendingSource ∧ table.bound = "F_A_G_MAX" ∧
      Validates descendingFamily set table ∧
        table.Fits (Declaration.constants (header descendingFamily)) set) ∧
    ∃ table set, .validation table ∈ descendingSource ∧ table.bound = "F_A_MAX" ∧
      Validates descendingFamily set table ∧
        ¬table.Fits (Declaration.constants (header descendingFamily)) set := by
  have bounds : "F_A_G_MAX" ∈ boundsOf descendingSource ∧ "F_A_MAX" ∈ boundsOf descendingSource := by
    decide +kernel
  have rooms : ∀ set ∈ descendingFamily.sets.values, ∀ whole ∈ descendingFamily.sets.values,
      whole.maxName = set.maxName →
        ((∀ attr ∈ set.attrs.values, (attr.value.toNat : Int) ≤ whole.lastNumber) ↔
          set.maxName = "F_A_G_MAX") := by
    decide +kernel
  have fits {table : ValidationTable} (listed : .validation table ∈ descendingSource) :
      ∃ set, Validates descendingFamily set table ∧
        (table.Fits (Declaration.constants (header descendingFamily)) set ↔
          table.bound = "F_A_G_MAX") := by
    obtain ⟨set, whole, validates, among, base, fits⟩ := validationTable_fits_iff ofSpec_descending
      (by decide +kernel) (by decide +kernel) source_descending listed
    refine ⟨set, validates, ?_⟩
    rw [fits, rooms set (mem_sets_of_validates validates) whole among base.maxName, validates.bound]
  obtain ⟨table, listed, bound⟩ := exists_of_mem_boundsOf bounds.1
  obtain ⟨other, otherListed, otherBound⟩ := exists_of_mem_boundsOf bounds.2
  obtain ⟨set, validates, room⟩ := fits listed
  obtain ⟨otherSet, otherValidates, noRoom⟩ := fits otherListed
  refine ⟨⟨table, set, listed, bound, validates, room.2 bound⟩,
    other, otherSet, otherListed, otherBound, otherValidates, fun taken => ?_⟩
  exact absurd (otherBound.symm.trans (noRoom.1 taken)) (by decide)

/-- So a table may lack room: the bound of `f` is 2, and one of its entries is at 9. -/
theorem not_forall_validationTable_fits :
    ¬∀ (file : Spec.File) (excludes : List Pattern) (family : Family),
      ofSpec file excludes = .ok family → family.numbering = .unified →
        ∀ definitions, source family = .ok definitions →
          ∀ table, .validation table ∈ definitions → ∀ set, Validates family set table →
            table.Fits (Declaration.constants (header family)) set := by
  intro claim
  have known : "F_A_MAX" ∈ boundsOf descendingSource := by decide +kernel
  have valued : (Declaration.constants (header descendingFamily)).lookup "F_A_MAX" = some 2 := by
    decide +kernel
  have beyond : ∀ set ∈ descendingFamily.sets.values, set.maxName = "F_A_MAX" →
      ∃ attr ∈ set.attrs.values, (2 : Int) < attr.value.toNat := by
    decide +kernel
  obtain ⟨table, listed, bound⟩ := exists_of_mem_boundsOf known
  obtain ⟨set, validates⟩ := exists_validates source_descending listed
  obtain ⟨value, found, fits⟩ := claim descending [] descendingFamily ofSpec_descending
    (by decide +kernel) descendingSource source_descending table listed set validates
  obtain ⟨attr, member, above⟩ := beyond set (mem_sets_of_validates validates)
    (validates.bound.symm.trans bound)
  rw [bound, valued] at found
  obtain rfl := Option.some.inj found
  exact absurd (fits attr member).2 (Int.not_le.2 above)

end Family

end NetlinkFamily
