import NetlinkFamily.Proofs.Output.Listing
import NetlinkFamily.Proofs.Output.SetterWays

namespace NetlinkFamily

namespace Setter

open Outcome

variable {file : Spec.File} {excludes : List Pattern} {family : Family} {subject : Subject}
  {part : Part} {space : Space}

section Spelling

/-- The names of the attributes on a way, with underscores between them. -/
def spelled (way : List Attribute) : String :=
  "_".intercalate (way.map Attribute.cName)

/-- Whether code gives memory back without asking for any. -/
def takesOver (code : List C.Code) : Bool :=
  mentions code "free(" && !mentions code "alloc("

/-- What the names of all functions for a subject have in common. -/
def nameStart (subject : Subject) (part : Part) : String :=
  subject.stem part false ++ "_set_"

/-- A way of one attribute is spelled as its name. -/
theorem spelled_singleton (attr : Attribute) : spelled [attr] = attr.cName :=
  String.intercalate_singleton

/-- A longer way is spelled with an underscore behind its first name. -/
theorem spelled_cons (attr : Attribute) {rest : List Attribute} (longer : rest ≠ []) :
    spelled (attr :: rest) = attr.cName ++ "_" ++ spelled rest :=
  String.intercalate_cons_of_ne_nil (by simpa using longer)

/-- Two underscores in front stand in front of the whole. -/
theorem marked_eq (condition : Bool) (text : String) :
    (if condition then "__" ++ text else text) = (if condition then "__" else "") ++ text := by
  cases condition <;> simp

/-- A setter is named by the start of the message and the spelling of its way. -/
theorem name_of_isLeaf {way : List Attribute} {setter : Function}
    (isLeaf : IsLeaf space subject part [] way setter) :
    setter.signature.name =
      (if takesOver setter.body then "__" else "") ++ (nameStart subject part ++ spelled way) := by
  obtain ⟨nests, member, rfl, made⟩ := isLeaf
  simp only [leaf, bind_eq_ok_iff, pure_eq_ok_iff] at made
  obtain ⟨stored, _, parameters, _, rfl⟩ := made
  simp only [takesOver, nameStart, spelled, List.nil_append, List.map_append, List.map_cons,
    List.map_nil]
  exact marked_eq _ _

/-- A text that goes on as it does two characters later repeats these two. -/
theorem eq_of_shifted {first : Char} {front rest others : List Char}
    (same : first :: first :: (front ++ rest) = front ++ others) : ∀ char ∈ front, char = first := by
  induction front with
  | nil => simp
  | cons char front ih =>
      rw [List.cons_append, List.cons_append, List.cons.injEq] at same
      obtain ⟨rfl, same⟩ := same
      exact List.forall_mem_cons.2 ⟨rfl, ih same⟩

/-- The mark of a function that takes over memory is not mistaken for a part of the name. -/
theorem marked_ne (subject : Subject) (part : Part) (first second : String) :
    "__" ++ (nameStart subject part ++ first) ≠ nameStart subject part ++ second := by
  intro same
  have shifted : '_' :: '_' :: ((nameStart subject part).toList ++ first.toList) =
      (nameStart subject part).toList ++ second.toList := by
    have mark : "__".toList = ['_', '_'] := by decide
    have whole := congrArg String.toList same
    rw [String.toList_append, String.toList_append, String.toList_append, mark] at whole
    exact whole
  have letter : 's' ∈ (nameStart subject part).toList := by simp [nameStart]
  exact absurd (eq_of_shifted shifted 's' letter) (by decide)

/-- Names are equal if the marks are and the ways are spelled alike. -/
theorem name_eq_iff {way other : List Attribute} {setter another : Function}
    (first : IsLeaf space subject part [] way setter)
    (second : IsLeaf space subject part [] other another) :
    setter.signature.name = another.signature.name ↔
      takesOver setter.body = takesOver another.body ∧ spelled way = spelled other := by
  rw [name_of_isLeaf first, name_of_isLeaf second]
  cases takesOver setter.body <;> cases takesOver another.body
  · simp
  · simpa using (marked_ne subject part (spelled other) (spelled way)).symm
  · simpa using marked_ne subject part (spelled way) (spelled other)
  · simp

end Spelling

section Siblings

/-- Within a set, the attributes have different C names. -/
def HasDistinctNames (family : Family) : Prop :=
  ∀ set ∈ family.sets.values, (set.attrs.values.map Attribute.cName).Nodup

/-- No nest has a C name that starts, with an underscore behind it, the one of a sibling. -/
def IsSeparated (family : Family) : Prop :=
  ∀ set ∈ family.sets.values, ∀ nest ∈ set.attrs.values, ∀ other ∈ set.attrs.values,
    isTransparent nest = true → ¬(nest.cName ++ "_").toList <+: other.cName.toList

/-- Two attributes of one set. -/
def Siblings (family : Family) (first second : Attribute) : Prop :=
  ∃ set ∈ family.sets.values, first ∈ set.attrs.values ∧ second ∈ set.attrs.values

variable {first second : Attribute}

/-- Siblings are so in both orders. -/
theorem Siblings.symm (siblings : Siblings family first second) :
    Siblings family second first := by
  obtain ⟨set, held, left, right⟩ := siblings
  exact ⟨set, held, right, left⟩

/-- Siblings with one name are the same where names are distinct. -/
theorem Siblings.eq_of_cName (siblings : Siblings family first second)
    (distinct : HasDistinctNames family) (same : first.cName = second.cName) : first = second := by
  obtain ⟨set, held, left, right⟩ := siblings
  exact List.inj_on_of_nodup_map (distinct set held) left right same

/-- The name of a nest starts no sibling's name where they are separated. -/
theorem Siblings.not_prefix (siblings : Siblings family first second)
    (separated : IsSeparated family) (transparent : isTransparent first = true) :
    ¬(first.cName ++ "_").toList <+: second.cName.toList := by
  obtain ⟨set, held, left, right⟩ := siblings
  exact separated set held first left second right transparent

/-- A text starts with its first half. -/
theorem toList_prefix_append (first second : String) :
    first.toList <+: (first ++ second).toList := by
  rw [String.toList_append]
  exact List.prefix_append _ _

/-- Of two names before an underscore in one text, they are equal or one goes on in the other. -/
theorem eq_or_prefix_of_append_eq {name other rest others : String}
    (same : name ++ "_" ++ rest = other ++ "_" ++ others) :
    name = other ∨ (name ++ "_").toList <+: other.toList ∨
      (other ++ "_").toList <+: name.toList := by
  have whole : (name ++ "_").toList <+: (other ++ "_" ++ others).toList :=
    same ▸ toList_prefix_append ..
  have part : (other ++ "_").toList <+: (other ++ "_" ++ others).toList :=
    toList_prefix_append ..
  have underscored (text : String) : (text ++ "_").toList = text.toList ++ ['_'] :=
    String.toList_append
  rcases List.prefix_or_prefix_of_prefix whole part with within | within
  · rw [underscored other, List.prefix_concat_iff, underscored name] at within
    rcases within with equal | shorter
    · exact .inl (String.toList_injective (List.append_cancel_right equal))
    · exact .inr (.inl (underscored name ▸ shorter))
  · rw [underscored name, List.prefix_concat_iff, underscored other] at within
    rcases within with equal | shorter
    · exact .inl (String.toList_injective (List.append_cancel_right equal)).symm
    · exact .inr (.inr (underscored other ▸ shorter))

/-- Ways from siblings are told apart by how they are spelled. The induction follows the first
way. -/
theorem eq_of_spelled (built : Family.ofSpec file excludes = .ok family)
    (distinct : HasDistinctNames family) (separated : IsSeparated family)
    {way other : List Attribute} (leads : LeadsTo (entered family) first way)
    (others : LeadsTo (entered family) second other) (siblings : Siblings family first second)
    (same : spelled way = spelled other) : way = other := by
  have isEntered := isEntered_entered built
  -- A name that goes on behind a nest's name would start with it.
  have starts {nest other : Attribute} {rest : List Attribute}
      (equal : other.cName = nest.cName ++ "_" ++ spelled rest) :
      (nest.cName ++ "_").toList <+: other.cName.toList :=
    equal ▸ toList_prefix_append ..
  induction leads generalizing second other with
  | here ends busy =>
      cases others with
      | here => rw [siblings.eq_of_cName distinct (by simpa only [spelled_singleton] using same)]
      | through member rest =>
          obtain ⟨_, rfl⟩ := exists_cons_of_leadsTo rest
          rw [spelled_singleton, spelled_cons _ (List.cons_ne_nil _ _)] at same
          exact absurd (starts same)
            (siblings.symm.not_prefix separated (isEntered.transparent member))
  | @through outer inner way member rest ih =>
      have transparent := isEntered.transparent member
      have longer : way ≠ [] := by
        obtain ⟨_, rfl⟩ := exists_cons_of_leadsTo rest
        exact List.cons_ne_nil _ _
      rw [spelled_cons _ longer] at same
      cases others with
      | here =>
          rw [spelled_singleton] at same
          exact absurd (starts same.symm) (siblings.not_prefix separated transparent)
      | @through _ next other later behind =>
          have longer : other ≠ [] := by
            obtain ⟨_, rfl⟩ := exists_cons_of_leadsTo behind
            exact List.cons_ne_nil _ _
          rw [spelled_cons _ longer] at same
          rcases eq_or_prefix_of_append_eq same with equal | starts | starts
          · obtain rfl := siblings.eq_of_cName distinct equal
            obtain ⟨set, held, all⟩ := exists_set_of_mem_entered built member
            have siblings : Siblings family inner next := ⟨set, held, all ▸ member, all ▸ later⟩
            rw [ih behind siblings (by simpa using same)]
          · exact absurd starts (siblings.not_prefix separated transparent)
          · exact absurd starts
              (siblings.symm.not_prefix separated (isEntered.transparent later))

end Siblings

section Requests

variable {operation : Operation} {mode : OperationMode} {layout : Layout}
  {declarations : List Declaration}

/-- The functions that set the members of a request which lists each attribute once. -/
structure SetsOnce (family : Family) (operation : Operation) (mode : OperationMode)
    (subject : Subject) (layout : Layout) (declarations : List Declaration) : Prop where
  selected : operation ∈ family.operations
  described : Subject.ofOperation family operation mode = .ok subject
  asked : subject.request = some layout
  once : ∀ attributes, operation.requestAttributes mode = some attributes → attributes.Nodup
  done : Library.setters family subject layout = .ok declarations

/-- The names of the functions among declarations. -/
def functionNames (declarations : List Declaration) : List String :=
  (Declaration.functions declarations).map C.Signature.name

/-- The functions of setters are named as the setters are. -/
theorem functionNames_setters (setters : List Function) :
    functionNames (setters.map fun setter => .function setter.signature setter.body) =
      setters.map fun setter => setter.signature.name := by
  simp [functionNames, Declaration.functions, Declaration.function?, List.filterMap_map,
    Function.comp_def]

/-- Different attributes have different ways. -/
theorem nodup_of_lists {members : Attribute → List Attribute} {attrs : List Attribute}
    {groups : List (List (List Attribute))} (distinct : ∀ outer, (members outer).Nodup)
    (lists : List.Forall₂ (ListsWays members) attrs groups) (once : attrs.Nodup) :
    groups.flatten.Nodup := by
  induction lists with
  | nil => exact .nil
  | @cons attr ways attrs groups here others ih =>
      obtain ⟨fresh, once⟩ := List.nodup_cons.1 once
      rw [List.flatten_cons]
      refine List.nodup_append'.2 ⟨here.nodup distinct, ih once, ?_⟩
      intro way left right
      obtain ⟨other, member, leads⟩ := (mem_flatten_of_lists others way).1 right
      obtain ⟨_, rfl⟩ := exists_cons_of_leadsTo ((here.complete way).1 left)
      obtain ⟨_, same⟩ := exists_cons_of_leadsTo leads
      exact fresh ((List.cons.inj same).1 ▸ member)

/-- The attributes of a request are different ones of a set. -/
theorem SetsOnce.attributes (request : SetsOnce family operation mode subject layout declarations) :
    (layout.attributes family.toScope).Nodup ∧ ∃ set ∈ family.sets.values,
      ∀ attr ∈ layout.attributes family.toScope, attr ∈ set.attrs.values := by
  have describes := Subject.describes_of_ofOperation request.described
  obtain ⟨listed, carried, made⟩ := Layout.ofList_of_mapM (request.asked ▸ describes.request)
  obtain ⟨set, attrs, holds⟩ := Layout.exists_holds_of_ofList made
  have once := request.once listed carried
  rw [← (Layout.ofList_eq made).2.2, holds.members] at once
  rw [holds.attributes]
  exact ⟨once.of_map _, set, Registry.mem_values_of_get? holds.declared, holds.listed⟩

/-- The functions of a request are those of the ways from its attributes. -/
theorem SetsOnce.exists_ways (built : Family.ofSpec file excludes = .ok family)
    (request : SetsOnce family operation mode subject layout declarations) :
    ∃ ways setters,
      declarations = setters.map (fun setter => .function setter.signature setter.body) ∧
      ways.Nodup ∧
      (∀ way, way ∈ ways ↔ ∃ attr ∈ layout.attributes family.toScope,
        LeadsTo (entered family) attr way) ∧
      List.Forall₂ (IsLeaf .user subject .request []) ways setters := by
  have isEntered := isEntered_entered built
  obtain ⟨once, set, held, listed⟩ := request.attributes
  have done := request.done
  simp only [Library.setters, bind_eq_ok_iff, pure_eq_ok_iff] at done
  obtain ⟨parts, made, rfl⟩ := done
  have each := (forall₂_mem (mapM_eq_ok_iff.1 made)).imp fun attr setters both => by
    have whole : functions .user family subject .request family.nestedSets.size
        (([] : List Attribute).map Attribute.cName) attr = .ok setters := both.2
    exact Setter.exists_ways built isEntered ⟨set, held, listed attr both.1⟩ whole
  obtain ⟨groups, lists, leaves⟩ := exists_groups each
  exact ⟨groups.flatten, parts.flatten, rfl, nodup_of_lists isEntered.distinct lists once,
    mem_flatten_of_lists lists, leaves⟩

/-- Functions have different names if no two ways are spelled alike, or only one of the two takes
over memory. -/
theorem nodup_names_iff {ways : List (List Attribute)} {setters : List Function}
    (leaves : List.Forall₂ (IsLeaf space subject part []) ways setters) :
    (setters.map fun setter => setter.signature.name).Nodup ↔
      (ways.zip setters).Pairwise fun one other =>
        spelled one.1 = spelled other.1 → takesOver one.2.body ≠ takesOver other.2.body := by
  obtain ⟨size, each⟩ := List.forall₂_iff_zip.1 leaves
  have setters_eq : (ways.zip setters).map Prod.snd = setters :=
    List.map_snd_zip (Nat.le_of_eq size.symm)
  show (setters.map fun setter => setter.signature.name).Pairwise (· ≠ ·) ↔ _
  nth_rewrite 1 [← setters_eq]
  rw [List.map_map, List.pairwise_map]
  refine List.Pairwise.iff_of_mem fun {one other} first second => ?_
  have same := name_eq_iff (each first) (each second)
  show one.2.signature.name ≠ other.2.signature.name ↔ _
  rw [Ne, same]
  tauto

end Requests

/-- There is one function for each way from the attributes of a request. Two of them have the same
name exactly if the ways are spelled alike and both or none take over memory. No ways are spelled
alike if the names of nests are no starts of those of their siblings. -/
theorem nodup_functionNames (built : Family.ofSpec file excludes = .ok family)
    (distinct : HasDistinctNames family) {operation : Operation} {mode : OperationMode}
    {layout : Layout} {declarations : List Declaration}
    (request : SetsOnce family operation mode subject layout declarations) :
    (∃ ways setters,
      declarations = setters.map (fun setter => .function setter.signature setter.body) ∧
      ways.Nodup ∧
      (∀ way, way ∈ ways ↔ ∃ attr ∈ layout.attributes family.toScope,
        LeadsTo (entered family) attr way) ∧
      List.Forall₂ (IsLeaf .user subject .request []) ways setters ∧
      ((functionNames declarations).Nodup ↔
        (ways.zip setters).Pairwise fun one other =>
          spelled one.1 = spelled other.1 → takesOver one.2.body ≠ takesOver other.2.body)) ∧
    (IsSeparated family → (functionNames declarations).Nodup) := by
  obtain ⟨ways, setters, rfl, once, complete, leaves⟩ := request.exists_ways built
  have iff := nodup_names_iff leaves
  rw [← functionNames_setters] at iff
  refine ⟨⟨ways, setters, rfl, once, complete, leaves, iff⟩, fun separated => iff.2 ?_⟩
  obtain ⟨size, _⟩ := List.forall₂_iff_zip.1 leaves
  have apart : (ways.zip setters).Pairwise fun one other => one.1 ≠ other.1 := by
    rw [← List.pairwise_map, List.map_fst_zip (Nat.le_of_eq size)]
    exact once
  obtain ⟨_, set, held, listed⟩ := request.attributes
  refine apart.imp_of_mem fun {one other} first second differ same => ?_
  obtain ⟨attr, member, leads⟩ := (complete _).1 (List.of_mem_zip first).1
  obtain ⟨another, among, others⟩ := (complete _).1 (List.of_mem_zip second).1
  exact absurd (eq_of_spelled built distinct separated leads others
    ⟨set, held, listed _ member, listed _ among⟩ same) differ

/-- A request of a nest and another attribute, with one member in the nest. -/
def besideNest (name : String) : Spec.File where
  license := Spec.acceptedLicense
  family :=
    { name := "f"
      attributeSets :=
        [{ name := "f"
           attributes :=
            [{ name, kind := some "u8" },
             { name := "a", kind := some "nest", nestedAttributes := some "inner" }] },
         { name := "inner", attributes := [{ name := "b", kind := some "u8" }] }]
      operations :=
        { list :=
            [{ name := "get"
               attributeSet := some "f"
               doMode := some { request := some { attributes := [name, "a"] } } }] } }

/-- The functions for the call of the first operation. -/
def firstSetters (family : Family) : Except ModelError (List Declaration) :=
  match family.operations with
  | [] => .ok []
  | operation :: _ => do
      let subject ← Subject.ofOperation family operation .call
      match subject.request with
      | none => return []
      | some layout => Library.setters family subject layout

/-- Setters that are printed set each attribute of a request once. -/
theorem exists_setsOnce {declarations : List Declaration}
    (done : firstSetters family = .ok declarations) (some : declarations ≠ [])
    (once : ∀ operation ∈ family.operations,
      ((operation.requestAttributes .call).getD []).Nodup) :
    ∃ operation subject layout, SetsOnce family operation .call subject layout declarations := by
  unfold firstSetters at done
  split at done
  · cases done
    exact absurd rfl some
  · rename_i operation rest listed
    have selected : operation ∈ family.operations := listed ▸ List.mem_cons_self
    obtain ⟨subject, described, done⟩ := bind_eq_ok_iff.1 done
    split at done
    · cases done
      exact absurd rfl some
    · rename_i layout asked
      refine ⟨operation, subject, layout, selected, described, asked, ?_, done⟩
      intro attributes carried
      simpa [carried] using once operation selected

theorem isSome_ofSpec_clash : (Family.ofSpec (besideNest "a-b") []).toOption.isSome = true := by
  decide +kernel

/-- The family with two attributes whose setters clash. -/
def clashFamily : Family :=
  (Family.ofSpec (besideNest "a-b") []).toOption.get isSome_ofSpec_clash

/-- Setters can be printed for that family. -/
theorem isSome_firstSetters_clash : (firstSetters clashFamily).toOption.isSome = true := by
  decide +kernel

/-- The member of the nest and the other attribute are set by functions of one name. -/
theorem not_forall_nodup_functionNames :
    ¬∀ (file : Spec.File) (excludes : List Pattern) (family : Family) (operation : Operation)
      (mode : OperationMode) (subject : Subject) (layout : Layout)
      (declarations : List Declaration), Family.ofSpec file excludes = .ok family →
      HasDistinctNames family → SetsOnce family operation mode subject layout declarations →
        (functionNames declarations).Nodup := by
  intro always
  have built : Family.ofSpec _ [] = .ok clashFamily := eq_ok_get isSome_ofSpec_clash
  have done := eq_ok_get isSome_firstSetters_clash
  have names : functionNames ((firstSetters clashFamily).toOption.get isSome_firstSetters_clash) =
      ["f_get_req_set_a_b", "f_get_req_set_a_b"] := by
    decide +kernel
  obtain ⟨operation, subject, layout, request⟩ := exists_setsOnce done
    (by intro none; rw [none] at names; cases names) (by decide +kernel)
  have distinct : HasDistinctNames clashFamily := by
    unfold HasDistinctNames
    decide +kernel
  have different := always _ _ _ _ _ _ _ _ built distinct request
  rw [names] at different
  exact absurd different (by decide)

theorem isSome_ofSpec_apart : (Family.ofSpec (besideNest "b") []).toOption.isSome = true := by
  decide +kernel

/-- The family with two attributes whose setters do not clash. -/
def apartFamily : Family :=
  (Family.ofSpec (besideNest "b") []).toOption.get isSome_ofSpec_apart

/-- Setters can be printed for that family. -/
theorem isSome_firstSetters_apart : (firstSetters apartFamily).toOption.isSome = true := by
  decide +kernel

/-- Members of one name are told apart by the nest around one of them. -/
theorem nodup_functionNames_apart :
    ∃ operation subject layout declarations,
      SetsOnce apartFamily operation .call subject layout declarations ∧
      HasDistinctNames apartFamily ∧ IsSeparated apartFamily ∧
      functionNames declarations = ["f_get_req_set_b", "f_get_req_set_a_b"] ∧
      (functionNames declarations).Nodup := by
  have built : Family.ofSpec _ [] = .ok apartFamily := eq_ok_get isSome_ofSpec_apart
  have done := eq_ok_get isSome_firstSetters_apart
  have names : functionNames ((firstSetters apartFamily).toOption.get isSome_firstSetters_apart) =
      ["f_get_req_set_b", "f_get_req_set_a_b"] := by
    decide +kernel
  obtain ⟨operation, subject, layout, request⟩ := exists_setsOnce done
    (by intro none; rw [none] at names; cases names) (by decide +kernel)
  have distinct : HasDistinctNames apartFamily := by
    unfold HasDistinctNames
    decide +kernel
  have separated : IsSeparated apartFamily := by
    unfold IsSeparated
    decide +kernel
  exact ⟨operation, subject, layout, _, request, distinct, separated, names,
    (nodup_functionNames built distinct request).2 separated⟩

end Setter

end NetlinkFamily
