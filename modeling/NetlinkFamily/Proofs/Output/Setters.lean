import NetlinkFamily.Proofs.Output.SetterWays

namespace NetlinkFamily

namespace Setter

open Outcome

variable {file : Spec.File} {excludes : List Pattern} {family : Family} {subject : Subject}
  {part : Part} {space : Space} {attr : Attribute}

section Bodies

/-- A place in a request, behind the nests around it. -/
def place (parents : List Attribute) (text : String) : String :=
  "req->" ++ String.join (parents.map fun parent => parent.cName ++ ".") ++ text

/-- The bit that records the presence of an attribute. -/
def bitPlace (parents : List Attribute) (attr : Attribute) : String :=
  place parents ("_present." ++ attr.cName)

/-- The lines that set the bits of nests, each behind the nests around it. -/
def nestMarks (nests : List Attribute) : List C.Code :=
  nests.mapIdx fun index nest => .assign (bitPlace (nests.take index) nest) "1"

/-- A function marks the nests on a way as present, the outermost one first, before it deals with
the member at its end. -/
structure Sets (way : List Attribute) (function : Function) : Prop where
  body : ∃ nests member stored, way = nests ++ [member] ∧
    store member (place nests member.cName) (bitPlace nests member)
      (place nests ("n_" ++ member.cName)) = .ok stored ∧
    function.body = nestMarks nests ++
      ((if member.presence = .bit then [.assign (bitPlace nests member) "1"] else []) ++ stored)

/-- Names joined by dots are a place below each of its parents. -/
theorem intercalate_dots (parents : List Attribute) (name : String) :
    ".".intercalate (parents.map Attribute.cName ++ [name]) =
      String.join (parents.map fun parent => parent.cName ++ ".") ++ name := by
  induction parents with
  | nil => simp
  | cons parent rest ih =>
      rw [List.map_cons, List.cons_append, String.intercalate_cons_of_ne_nil (by simp), ih,
        List.map_cons, String.join_cons]
      simp only [String.append_assoc]

/-- An outermost nest without a name would leave out the nests inside it. -/
def IsSpelled (parents : List Attribute) : Prop :=
  ∀ outermost ∈ parents.head?, outermost.cName ≠ ""

/-- A path is written with a dot behind every parent. -/
theorem dotted_eq {parents : List Attribute} (spelled : IsSpelled parents) :
    dotted (parents.map Attribute.cName) =
      String.join (parents.map fun parent => parent.cName ++ ".") := by
  cases parents with
  | nil => rfl
  | cons outermost rest =>
      have names : outermost.cName :: rest.map Attribute.cName ≠ [] := List.cons_ne_nil _ _
      have joined := intercalate_dots (outermost :: rest) ""
      rw [List.map_cons, String.intercalate_append_of_ne_nil names (by simp)] at joined
      have some : ".".intercalate (outermost.cName :: rest.map Attribute.cName) ≠ "" := by
        have first := spelled outermost rfl
        cases rest with
        | nil => simpa using first
        | cons next rest => simp [first]
      rw [dotted, List.map_cons]
      simp only [String.isEmpty_iff, some, if_false]
      simpa using joined

/-- Presence is told at the bit of the path. -/
theorem presencePlace_eq {parents : List Attribute} (spelled : IsSpelled parents)
    (attr : Attribute) :
    presencePlace "req" (parents.map Attribute.cName) attr.cName = bitPlace parents attr := by
  rw [presencePlace, dotted_eq spelled, bitPlace, place]
  simp [String.append_assoc]

/-- By induction on the nests that are left to be marked. -/
theorem markNests_eq {parents nests : List Attribute} (spelled : IsSpelled (parents ++ nests)) :
    markNests "req" (parents.map Attribute.cName) (nests.map Attribute.cName) =
      nests.mapIdx fun index nest =>
        .assign (bitPlace (parents ++ nests.take index) nest) "1" := by
  induction nests generalizing parents with
  | nil => rfl
  | cons nest rest ih =>
      have before : IsSpelled parents := by
        intro outermost first
        refine spelled outermost ?_
        cases parents with
        | nil => cases first
        | cons => exact first
      have behind : IsSpelled (parents ++ [nest] ++ rest) := by
        rwa [List.append_assoc, List.singleton_append]
      have others := ih behind
      rw [List.map_append, List.map_singleton] at others
      rw [List.map_cons, markNests, presencePlace_eq before, others, List.mapIdx_cons]
      simp [List.append_assoc]

/-- The setter of a single attribute sets that attribute below its nests. -/
theorem sets_of_leaf {nests : List Attribute} {member : Attribute} {setter : Function}
    (spelled : IsSpelled nests)
    (made : leaf space subject part (nests.map Attribute.cName) member = .ok setter) :
    Sets (nests ++ [member]) setter := by
  have marks : markNests "req" [] (nests.map Attribute.cName) = nestMarks nests := by
    have outer : IsSpelled ([] ++ nests) := spelled
    exact markNests_eq outer
  simp only [leaf, bind_eq_ok_iff, pure_eq_ok_iff] at made
  obtain ⟨stored, stores, parameters, _, rfl⟩ := made
  refine ⟨nests, member, stored, rfl, ?_, ?_⟩
  · rw [intercalate_dots, presencePlace_eq spelled, dotted_eq spelled] at stores
    simpa [place, String.append_assoc] using stores
  · simp only [marks, presencePlace_eq spelled, List.append_assoc]

end Bodies

/-- The functions for an attribute are made in bounded depth, and there is one for each way from it,
in order, that marks all nests on the way first. -/
structure SetsEachWay (family : Family) (attr : Attribute) : Prop where
  ends : EndsWithin family (family.nestedSets.size + 1) attr
  steady : ∀ space subject part depth, family.nestedSets.size ≤ depth →
    functions space family subject part depth [] attr = ofAttribute family subject part [] attr space
  sets : ∀ space subject part setters, ofAttribute family subject part [] attr space = .ok setters →
    ∃ ways, ways.Nodup ∧ ListsWays (inside family) attr ways ∧ List.Forall₂ Sets ways setters

/-- There are as many nested sets as names of them. -/
theorem size_eq (family : Family) : family.nestedSets.size = family.nestedSets.names.length :=
  (List.length_map _).symm

/-- If nests name the sets inside them and have names themselves, each way has its function. -/
theorem setsEachWay (built : Family.ofSpec file excludes = .ok family)
    (named : NamesNests family) (declared : IsDeclared family attr)
    (spelled : isTransparent attr = true → attr.cName ≠ "") : SetsEachWay family attr where
  ends := by
    rw [size_eq]
    exact endsWithin_of_within built named (List.append_nil _).symm (within_names declared)
  steady space subject part depth enough := by
    rw [ofAttribute, size_eq]
    rw [size_eq] at enough
    exact functions_of_within built named (List.append_nil _).symm (within_names declared) enough []
  sets space subject part setters done := by
    have whole : functions space family subject part family.nestedSets.size
        (([] : List Attribute).map Attribute.cName) attr = .ok setters := done
    have isEntered := isEntered_inside built named
    obtain ⟨ways, lists, leaves⟩ := exists_ways built isEntered declared whole
    refine ⟨ways, lists.nodup isEntered.distinct, lists, ?_⟩
    have each := (List.forall₂_and_left _ _).2 ⟨fun way => (lists.complete way).1, leaves⟩
    refine each.imp fun way setter both => ?_
    obtain ⟨leads, nests, member, rfl, made⟩ := both
    refine sets_of_leaf (fun outermost first => ?_) made
    obtain ⟨others, rfl⟩ : ∃ others, nests = outermost :: others := by
      cases nests with
      | nil => cases first
      | cons => exact ⟨_, by rw [Option.some.inj first]⟩
    obtain ⟨rfl, transparent⟩ := isEntered.transparent_of_leadsTo leads (by simp)
    exact spelled transparent

/-- An attribute found in a set is declared. -/
theorem isDeclared_of_get? {space name : String}
    (found : ((family.sets.get? space).bind fun set => set.attrs.get? name) = some attr) :
    IsDeclared family attr := by
  obtain ⟨set, held, listed⟩ := Option.bind_eq_some_iff.1 found
  exact ⟨set, Registry.mem_values_of_get? held, Registry.mem_values_of_get? listed⟩

/-- Nests in a nest, with padding between the other members. -/
def layered : Spec.File where
  license := Spec.acceptedLicense
  family :=
    { name := "f"
      attributeSets :=
        [{ name := "f"
           attributes := [{ name := "n", kind := some "nest", nestedAttributes := some "inner" }] },
         { name := "inner"
           attributes :=
            [{ name := "m", kind := some "nest", nestedAttributes := some "deep" },
             { name := "p", kind := some "pad" },
             { name := "x", kind := some "u8" }] },
         { name := "deep", attributes := [{ name := "y", kind := some "string" }] }]
      operations := { list := [{ name := "get", attributeSet := some "f" }] } }

theorem isSome_ofSpec_layered : (Family.ofSpec layered []).toOption.isSome = true := by
  decide +kernel

/-- The family with a nest inside a nest. -/
def layeredFamily : Family :=
  (Family.ofSpec layered []).toOption.get isSome_ofSpec_layered

/-- Its outer nest can be found. -/
theorem isSome_layered : ((layeredFamily.sets.get? "f").bind fun set =>
    set.attrs.get? "n").isSome = true := by
  decide +kernel

/-- The outer nest of that family. -/
def layeredNest : Attribute :=
  ((layeredFamily.sets.get? "f").bind fun set => set.attrs.get? "n").get isSome_layered

/-- Two ways lead from the outer nest, and the longer one comes first. -/
theorem setsEachWay_layered :
    Family.ofSpec layered [] = .ok layeredFamily ∧ SetsEachWay layeredFamily layeredNest ∧
      (ofAttribute layeredFamily (Subject.ofSet layeredFamily "f") .request [] layeredNest).map
          (List.map fun setter => setter.signature.name) =
        .ok ["f_f_req_set_n_m_y", "f_f_req_set_n_x"] := by
  have built : Family.ofSpec layered [] = .ok layeredFamily := eq_ok_get isSome_ofSpec_layered
  have named : NamesNests layeredFamily := fun _ _ _ _ => by decide +kernel
  have declared : IsDeclared layeredFamily layeredNest :=
    isDeclared_of_get? (Option.some_get isSome_layered).symm
  exact ⟨built, setsEachWay built named declared (fun _ => by decide +kernel), by decide +kernel⟩

/-- A nest that names no set beside one that names the set of the empty name. -/
def stray (members : List Spec.Attribute) : Spec.File where
  license := Spec.acceptedLicense
  family :=
    { name := "f"
      attributeSets :=
        [{ name := "f"
           attributes :=
            [{ name := "x", kind := some "nest" },
             { name := "n", kind := some "nest", nestedAttributes := some "" }] },
         { name := "", attributes := members }]
      operations := { list := [{ name := "get", attributeSet := some "f" }] } }

theorem isSome_ofSpec_stray : (Family.ofSpec (stray [{ name := "y", kind := some "u8" }])
    []).toOption.isSome = true := by
  decide +kernel

/-- The family with the nest that names no set. -/
def strayFamily : Family :=
  (Family.ofSpec (stray [{ name := "y", kind := some "u8" }]) []).toOption.get isSome_ofSpec_stray

/-- That nest can be found. -/
theorem isSome_stray : ((strayFamily.sets.get? "f").bind fun set =>
    set.attrs.get? "x").isSome = true := by
  decide +kernel

/-- The nest that names no set. -/
def strayNest : Attribute :=
  ((strayFamily.sets.get? "f").bind fun set => set.attrs.get? "x").get isSome_stray

/-- That nest has setters. -/
theorem isSome_ofAttribute_stray : (ofAttribute strayFamily (Subject.ofSet strayFamily "f")
    .request [] strayNest).toOption.isSome = true := by
  decide +kernel

/-- A nest that names no set has the functions of the set of the empty name. -/
theorem not_forall_setsEachWay :
    ¬∀ (file : Spec.File) (excludes : List Pattern) (family : Family) (attr : Attribute),
      Family.ofSpec file excludes = .ok family → IsDeclared family attr →
        SetsEachWay family attr := by
  intro always
  have declared : IsDeclared strayFamily strayNest :=
    isDeclared_of_get? (Option.some_get isSome_stray).symm
  have built : Family.ofSpec _ [] = .ok strayFamily := eq_ok_get isSome_ofSpec_stray
  have each := always _ _ _ _ built declared
  obtain ⟨ways, _, lists, sets⟩ := each.sets .user _ .request _ (eq_ok_get isSome_ofAttribute_stray)
  have one : ways.length = 1 := sets.length_eq.trans (by decide +kernel)
  obtain ⟨way, rfl⟩ := List.length_eq_one_iff.1 one
  have transparent : isTransparent strayNest = true := by decide +kernel
  have empty : (inside strayFamily strayNest).length = 0 := by decide +kernel
  cases (lists.complete way).1 List.mem_cons_self with
  | here ends =>
      rw [transparent] at ends
      cases ends
  | through member =>
      rw [List.length_eq_zero_iff.1 empty] at member
      cases member

theorem isSome_ofSpec_turning : (Family.ofSpec (stray [{ name := "z", kind := some "nest" }])
    []).toOption.isSome = true := by
  decide +kernel

/-- The family whose set without a name nests itself. -/
def turningFamily : Family :=
  (Family.ofSpec (stray [{ name := "z", kind := some "nest" }]) []).toOption.get
    isSome_ofSpec_turning

/-- The nest of that set can be found. -/
theorem isSome_turning : ((turningFamily.sets.get? "").bind fun set =>
    set.attrs.get? "z").isSome = true := by
  decide +kernel

/-- The nest of the set without a name. -/
def turningNest : Attribute :=
  ((turningFamily.sets.get? "").bind fun set => set.attrs.get? "z").get isSome_turning

/-- That nest leads to itself. -/
theorem mem_entered_turning : turningNest ∈ entered turningFamily turningNest := by
  decide +kernel

/-- Inside that set, such a nest leads back to itself and the recursion never ends. -/
theorem not_endsWithin_turning (depth : Nat) : ¬EndsWithin turningFamily depth turningNest := by
  induction depth with
  | zero => exact id
  | succ depth ih => exact fun ends => ih (ends turningNest mem_entered_turning)

end Setter

end NetlinkFamily
