import NetlinkFamily.Proofs.Model.Layouts
import NetlinkFamily.Proofs.Output.Dispatch
import NetlinkFamily.Proofs.Output.Listing
import NetlinkFamily.Proofs.Output.Rendering
import NetlinkFamily.Proofs.Output.Structures

namespace NetlinkFamily

namespace Attribute

open C (Arm)
open Outcome

/-- An attribute is an array of structures. -/
def HoldsStructures (attr : Attribute) : Prop :=
  attr.multi = true ∧ attr.kind = .nest ∨
    attr.multi = false ∧ attr.kind = .arrayNest ∧
      (attr.subType = none ∨ attr.subType = some "nest")

/-- The type of the elements of an array. -/
inductive HoldsEach (attr : Attribute) : String → Prop where
  | structures {nested : NestedSet} (holds : attr.HoldsStructures)
      (inside : attr.nested = some nested) : HoldsEach attr nested.structType
  | numbers {type : ScalarType} (kind : attr.multi = true ∧ attr.kind = .scalar type ∨
      attr.multi = false ∧ attr.kind = .arrayNest ∧ attr.entryScalar? = some type) :
      HoldsEach attr ("__" ++ type.name)

/-- The lines of a structure that hold the value of an attribute. -/
inductive Held (attr : Attribute) : List String → Prop where
  | array {type : String} (each : attr.HoldsEach type) :
      Held attr ["\tunsigned int n_" ++ attr.cName ++ ";", "\t" ++ type ++ " *" ++ attr.cName ++ ";"]
  | number {type : ScalarType} (single : attr.multi = false) (kind : attr.kind = .scalar type) :
      Held attr ["\t" ++ attr.typeName ++ " " ++ attr.cName ++ attr.byteOrderRemark ++ ";"]
  | text (single : attr.multi = false) (kind : attr.kind = .text) :
      Held attr ["\tchar *" ++ attr.cName ++ ";"]
  | binary (single : attr.multi = false) (kind : attr.kind = .binary) :
      Held attr ["\tvoid *" ++ attr.cName ++ ";"]
  | nest {nested : NestedSet} (single : attr.multi = false)
      (kind : attr.kind = .nest ∨ attr.kind = .nestTypeValue)
      (inside : attr.nested = some nested) :
      Held attr ["\t" ++ nested.structType ++ " " ++ attr.cName ++ ";"]
  | nothing (single : attr.multi = false)
      (kind : attr.kind = .flag ∨ attr.kind = .pad ∨ attr.kind = .unused) : Held attr []

/-- The lines of a structure that record whether an attribute was set. -/
inductive Recorded (attr : Attribute) : List String → Prop where
  | bit (single : attr.multi = false)
      (kind : (∃ type, attr.kind = .scalar type) ∨ attr.kind = .flag ∨ attr.kind = .nest ∨
        attr.kind = .nestTypeValue) :
      Recorded attr ["\t\t__u32 " ++ attr.cName ++ ":1;"]
  | length (single : attr.multi = false) (kind : attr.kind = .text ∨ attr.kind = .binary) :
      Recorded attr ["\t\t__u32 " ++ attr.cName ++ "_len;"]
  | nothing (other : attr.multi = true ∨ attr.kind = .pad ∨ attr.kind = .unused ∨
      attr.kind = .arrayNest) : Recorded attr []

/-- What is done with one occurrence of an attribute, for the structure at `dst`. -/
inductive Takes (attr : Attribute) (body : List C.Code) : Prop where
  | counted (repeated : attr.multi = true)
      (counts : .line ("n_" ++ attr.cName ++ "++;") ∈ body)
  | kept (single : attr.multi = false) (kind : attr.kind = .arrayNest)
      (keeps : .assign ("attr_" ++ attr.cName) "attr" ∈ body)
  | refused (single : attr.multi = false) (kind : attr.kind = .unused)
      (fails : .line "return MNL_CB_ERROR;" ∈ body)
  | noted (single : attr.multi = false) (kind : attr.kind = .flag)
      (marks : .assign ("dst->_present." ++ attr.cName) "1" ∈ body)
  | number {type : ScalarType} (single : attr.multi = false) (kind : attr.kind = .scalar type)
      (marks : .assign ("dst->_present." ++ attr.cName) "1" ∈ body)
      (stores : .assign ("dst->" ++ attr.cName) ("mnl_attr_get_" ++ type.accessorName ++ "(attr)") ∈
        body)
  | copied {source : String} (single : attr.multi = false)
      (kind : attr.kind = .text ∧ source = "mnl_attr_get_str(attr)" ∨
        attr.kind = .binary ∧ source = "mnl_attr_get_payload(attr)")
      (marks : .assign ("dst->_present." ++ attr.cName ++ "_len") "len" ∈ body)
      (copies : .call "memcpy" ["dst->" ++ attr.cName, source, "len"] ∈ body)
  | parsed {nested : NestedSet} {arguments : List String} (single : attr.multi = false)
      (kind : attr.kind = .nest ∨ attr.kind = .nestTypeValue)
      (inside : attr.nested = some nested)
      (marks : .assign ("dst->_present." ++ attr.cName) "1" ∈ body)
      (places : .assign "parg.data" ("&dst->" ++ attr.cName) ∈ body)
      (parses : .check (nested.renderName ++ "_parse") arguments ∈ body)

/-- The arm of a parser for an attribute. -/
structure HasArm (attr : Attribute) (arm : Arm) : Prop where
  condition : arm.condition = "type == " ++ attr.enumName
  takes : attr.Takes arm.body

/-- What is done with one element of an array, for the structure at `dst`. -/
inductive TakesEach (attr : Attribute) (body : List C.Code) : Prop where
  | numbers {type : ScalarType} (each : attr.HoldsEach ("__" ++ type.name))
      (stores : .assign ("dst->" ++ attr.cName ++ "[i]")
        ("mnl_attr_get_" ++ type.accessorName ++ "(attr)") ∈ body)
  | structures {nested : NestedSet} {arguments : List String}
      (inside : attr.nested = some nested)
      (places : .assign "parg.data" ("&dst->" ++ attr.cName ++ "[i]") ∈ body)
      (parses : .check (nested.renderName ++ "_parse") arguments ∈ body)

/-- A block makes room for the elements of an array and goes over them in a loop, the one over all
attributes if the attribute may be repeated. -/
inductive Filled (loop : String) (attr : Attribute) : C.Code → Prop where
  | entries {body each : List C.Code} (single : attr.multi = false)
      (stores : .assign ("dst->n_" ++ attr.cName) ("n_" ++ attr.cName) ∈ body)
      (loops : .block ("mnl_attr_for_each_nested(attr, attr_" ++ attr.cName ++ ")")
        (each ++ [.line "i++;"]) "" ∈ body)
      (takes : attr.TakesEach each) :
      Filled loop attr (.block ("if (n_" ++ attr.cName ++ ")") body "")
  | occurrences {body each : List C.Code} (repeated : attr.multi = true)
      (stores : .assign ("dst->n_" ++ attr.cName) ("n_" ++ attr.cName) ∈ body)
      (loops : .block loop
        [.block ("if (mnl_attr_get_type(attr) == " ++ attr.enumName ++ ")")
          (each ++ [.line "i++;"]) ""] "" ∈ body)
      (takes : attr.TakesEach each) :
      Filled loop attr (.block ("if (n_" ++ attr.cName ++ ")") body "")

/-- The code that releases an attribute at the end of a path. -/
inductive Freed (path : String) (attr : Attribute) : List C.Code → Prop where
  | structures {nested : NestedSet} (holds : attr.HoldsStructures)
      (inside : attr.nested = some nested) :
      Freed path attr
        [.line ("for (i = 0; i < " ++ path ++ "n_" ++ attr.cName ++ "; i++)"),
          .call (nested.renderName ++ "_free") ["&" ++ (path ++ attr.cName) ++ "[i]"],
          .call "free" [path ++ attr.cName]]
  | nest {nested : NestedSet} (single : attr.multi = false)
      (kind : attr.kind = .nest ∨ attr.kind = .nestTypeValue)
      (inside : attr.nested = some nested) :
      Freed path attr [.call (nested.renderName ++ "_free") ["&" ++ (path ++ attr.cName)]]
  | memory (other : ¬attr.HoldsStructures)
      (kind : attr.multi = true ∨ attr.kind = .text ∨ attr.kind = .binary ∨
        attr.kind = .arrayNest) :
      Freed path attr [.call "free" [path ++ attr.cName]]
  | nothing (single : attr.multi = false)
      (kind : (∃ type, attr.kind = .scalar type) ∨ attr.kind = .flag ∨ attr.kind = .pad ∨
        attr.kind = .unused) : Freed path attr []

variable {attr : Attribute}

/-- The test for nests tells whether the attribute holds structures. -/
theorem holdsNests_iff : attr.holdsNests = true ↔ attr.HoldsStructures := by
  unfold holdsNests HoldsStructures
  cases attr.multi <;> simp

/-- The type of a member: that of the elements of an array, a structure, or one of its own. -/
theorem elementType?_cases {type? : Option String} (done : attr.elementType? .user = .ok type?) :
    (∃ type, type? = some type ∧ attr.isCounted = true ∧ attr.HoldsEach type) ∨
      (∃ nested, type? = some nested.structType ∧ attr.multi = false ∧
        (attr.kind = .nest ∨ attr.kind = .nestTypeValue) ∧ attr.nested = some nested) ∨
      type? = none ∧ attr.multi = false ∧ attr.kind ≠ .nest ∧ attr.kind ≠ .nestTypeValue ∧
        attr.kind ≠ .arrayNest := by
  have structures (made : nestedType attr = .ok type?) :
      ∃ nested, type? = some nested.structType ∧ attr.nested = some nested := by
    obtain ⟨nested, inside, rfl⟩ := nestedType_eq_ok_iff.1 made
    exact ⟨nested, rfl, inside⟩
  unfold elementType? at done
  cases several : attr.multi with
  | true =>
      rw [several, if_pos rfl] at done
      have counted : attr.isCounted = true := by simp [isCounted, several]
      cases kind : attr.kind <;> rw [kind] at done <;> dsimp only at done
      case nest =>
        obtain ⟨nested, rfl, inside⟩ := structures done
        exact .inl ⟨_, rfl, counted, .structures (.inl ⟨several, kind⟩) inside⟩
      case scalar type =>
        obtain rfl := Except.ok.inj done
        exact .inl ⟨_, rfl, counted, .numbers (.inl ⟨several, kind⟩)⟩
      all_goals cases done
  | false =>
      rw [several, if_neg Bool.false_ne_true] at done
      cases kind : attr.kind <;> rw [kind] at done <;> dsimp only at done
      case nest | nestTypeValue =>
        obtain ⟨nested, rfl, inside⟩ := structures done
        exact .inr (.inl ⟨nested, rfl, rfl, by simp, inside⟩)
      case arrayNest =>
        have counted : attr.isCounted = true := by simp [isCounted, kind]
        split at done
        · rename_i none
          obtain ⟨nested, rfl, inside⟩ := structures done
          exact .inl ⟨_, rfl, counted, .structures (.inr ⟨several, kind, .inl none⟩) inside⟩
        · rename_i nest
          obtain ⟨nested, rfl, inside⟩ := structures done
          exact .inl ⟨_, rfl, counted, .structures (.inr ⟨several, kind, .inr nest⟩) inside⟩
        · rename_i name _ named
          split at done
          · rename_i type found
            obtain rfl := Except.ok.inj done
            have entry : attr.entryScalar? = some type := by rw [entryScalar?, named]; exact found
            exact .inl ⟨_, rfl, counted, .numbers (.inr ⟨several, kind, entry⟩)⟩
          · cases done
      all_goals exact .inr (.inr ⟨(Except.ok.inj done).symm, rfl, by simp⟩)

/-- A field that points to its value. -/
theorem text_pointer (type name : String) :
    "\t" ++ ({ holding := .pointer, type, name } : C.Field).text =
      "\t" ++ type ++ " *" ++ name ++ ";" := by
  apply String.toList_injective
  simp [C.Field.text]

/-- A pointer to values of the type, with their count, holds each of them. -/
theorem held_array {type : String} (each : attr.HoldsEach type) :
    attr.Held ([countField attr, { holding := .pointer, type, name := attr.cName }].map
      fun field => "\t" ++ field.text) := by
  have count : "\t" ++ (countField attr).text = "\tunsigned int n_" ++ attr.cName ++ ";" := by
    apply String.toList_injective
    simp [countField, C.Field.text]
  rw [List.map_cons, List.map_singleton, count, text_pointer]
  exact .array each

/-- The fields of one element hold the attribute unless it is a single text or binary. -/
theorem held_elementFields {fields : List C.Field} (made : attr.elementFields .user = .ok fields)
    (other : attr.multi = false → attr.kind ≠ .text ∧ attr.kind ≠ .binary) :
    attr.Held (fields.map fun field => "\t" ++ field.text) := by
  simp only [elementFields, bind_eq_ok_iff] at made
  obtain ⟨type?, found, made⟩ := made
  rcases elementType?_cases found with ⟨type, rfl, counted, each⟩ |
    ⟨nested, rfl, single, kind, inside⟩ | ⟨rfl, single, unlike⟩
  · dsimp only at made
    rw [counted, if_pos rfl] at made
    exact Except.ok.inj made ▸ held_array each
  · have one : attr.isCounted = false := by rcases kind with kind | kind <;> simp [isCounted, single, kind]
    have text : "\t" ++ ({ holding := .embedded, type := nested.structType, name := attr.cName } :
        C.Field).text = "\t" ++ nested.structType ++ " " ++ attr.cName ++ ";" := by
      apply String.toList_injective
      simp [C.Field.text]
    dsimp only at made
    rw [one, if_neg Bool.false_ne_true] at made
    rw [← Except.ok.inj made, List.map_singleton, text]
    exact .nest single kind inside
  · obtain ⟨notText, notBinary⟩ := other single
    cases kind : attr.kind <;> simp only [kind, pure_eq_ok_iff] at made
    case scalar type =>
      have text : "\t" ++ (scalarField attr).text =
          "\t" ++ attr.typeName ++ " " ++ attr.cName ++ attr.byteOrderRemark ++ ";" := by
        apply String.toList_injective
        simp [scalarField, C.Field.text]
      rw [← made, List.map_singleton, text]
      exact .number single kind
    case flag | pad | unused => exact made ▸ .nothing single (by simp [kind])
    all_goals simp_all

/-- The fields of a member are those that its kind asks for. -/
theorem held_of_fields {fields : List C.Field} (made : attr.fields .user = .ok fields) :
    attr.Held (fields.map fun field => "\t" ++ field.text) := by
  unfold Attribute.fields at made
  cases several : attr.multi with
  | true =>
      rw [several, if_pos rfl] at made
      exact held_elementFields made (by simp [several])
  | false =>
      rw [several, if_neg Bool.false_ne_true] at made
      split at made
      · rename_i kind
        rw [← Except.ok.inj made, List.map_singleton, text_pointer]
        exact .text several kind
      · rename_i kind
        rw [← Except.ok.inj made, List.map_singleton, text_pointer]
        exact .binary several kind
      · rename_i notText notBinary
        exact held_elementFields made fun _ => ⟨notText, notBinary⟩

/-- The lines that record the presence of an attribute, according to how it is told. -/
def presenceLines (attr : Attribute) : Presence → List String
  | .bit => ["\t\t__u32 " ++ attr.cName ++ ":1;"]
  | .length => ["\t\t__u32 " ++ attr.cName ++ "_len;"]
  | .none | .count => []

/-- The fields that tell presence print the lines of the attribute's presence. -/
theorem text_presenceFields (attr : Attribute) :
    ((attr.presenceField? .user .length).toList ++
        (attr.presenceField? .user .bit).toList).map (fun field => "\t\t" ++ field.text) =
      attr.presenceLines attr.presence := by
  have bit : "\t\t" ++ ({ type := "__u32", name := attr.cName, ending := ":1" } : C.Field).text =
      "\t\t__u32 " ++ attr.cName ++ ":1;" := by
    apply String.toList_injective
    simp [C.Field.text]
  have length : "\t\t" ++ ({ type := "__u32", name := attr.cName ++ "_len" } : C.Field).text =
      "\t\t__u32 " ++ attr.cName ++ "_len;" := by
    apply String.toList_injective
    simp [C.Field.text]
  unfold presenceField?
  cases attr.presence
  case bit => exact congrArg ([·]) bit
  case length => exact congrArg ([·]) length
  all_goals rfl

/-- The fields that record presence are those that the kind asks for. -/
theorem recorded (attr : Attribute) :
    attr.Recorded (((attr.presenceField? .user .length).toList ++
      (attr.presenceField? .user .bit).toList).map fun field => "\t\t" ++ field.text) := by
  rw [text_presenceFields, Attribute.presence]
  cases several : attr.multi with
  | true => exact .nothing (.inl several)
  | false =>
      rw [if_neg Bool.false_ne_true]
      cases kind : attr.kind
      case scalar type => exact .bit several (.inl ⟨type, kind⟩)
      case flag | nest | nestTypeValue => exact .bit several (by simp [kind])
      case text | binary => exact .length several (by simp [kind])
      all_goals exact .nothing (by simp [kind])

section Parsing

variable {branch : Branch} {loop : String}

/-- A branch's body is part of what stands in its arm. -/
theorem mem_branchBody_of_body {code : C.Code} (member : code ∈ branch.body) :
    code ∈ attr.branchBody "dst" branch :=
  List.mem_append_right _ member

/-- A branch's setup is part of what stands in its arm. -/
theorem mem_branchBody_of_setup {code : C.Code} (member : code ∈ branch.setup) :
    code ∈ attr.branchBody "dst" branch := by
  refine List.mem_append_left _ (List.mem_append_right _ ?_)
  unfold spacedBefore
  cases setup : branch.setup with
  | nil =>
      rw [setup] at member
      cases member
  | cons first rest => exact List.mem_cons_of_mem _ (setup ▸ member)

/-- That a member is present is recorded with a bit if there is one for it. -/
theorem mem_branchBody_of_bit (present : attr.presence = .bit) (uncounted : attr.isCounted = false) :
    .assign ("dst->_present." ++ attr.cName) "1" ∈ attr.branchBody "dst" branch := by
  refine List.mem_append_left _ (List.mem_append_left _ (List.mem_append_right _ ?_))
  simp [validate, uncounted, present]

/-- A nest is parsed into its place. -/
theorem mem_nestSetup (renderName name : String) :
    .assign "parg.data" ("&dst->" ++ name) ∈ nestSetup renderName ("dst" ++ "->" ++ name) := by
  have place : "&dst->" ++ name = "&" ++ ("dst" ++ "->" ++ name) := by
    rw [← String.append_assoc]
    rfl
  rw [place]
  exact List.mem_cons_of_mem _ (List.mem_singleton_self _)

/-- An arm reads an attribute as its kind asks for. -/
theorem hasArm_of_isArm {arm : Arm} (reads : IsArm "dst" attr arm)
    (read : attr.isPassedOver = false) : attr.HasArm arm := by
  obtain ⟨branch, told, rfl⟩ := reads
  refine ⟨rfl, ?_⟩
  show attr.Takes (attr.branchBody "dst" branch)
  unfold Attribute.branch at told
  dsimp only at told
  cases several : attr.multi with
  | true =>
      rw [several, if_pos rfl, Except.ok.injEq] at told
      exact .counted several (mem_branchBody_of_body (by simp [← told]))
  | false =>
      rw [several, if_neg Bool.false_ne_true] at told
      have marks (present : attr.presence = .bit) (other : attr.kind ≠ .arrayNest) :
          .assign ("dst->_present." ++ attr.cName) "1" ∈ attr.branchBody "dst" branch :=
        mem_branchBody_of_bit present (by simp [isCounted, several, other])
      cases kind : attr.kind with
      | pad => simp [isPassedOver, kind, several] at read
      | unused =>
          rw [kind, Except.ok.injEq] at told
          exact .refused several kind (mem_branchBody_of_body (by simp [← told, failed]))
      | flag =>
          exact .noted several kind
            (marks (by simp [Attribute.presence, several, kind]) (by simp [kind]))
      | scalar type =>
          rw [kind, Except.ok.injEq] at told
          exact .number several kind
            (marks (by simp [Attribute.presence, several, kind]) (by simp [kind]))
            (mem_branchBody_of_body (by simp [← told, getScalar]))
      | text =>
          rw [kind, Except.ok.injEq] at told
          exact .copied several (.inl ⟨kind, rfl⟩) (mem_branchBody_of_body (by simp [← told]))
            (mem_branchBody_of_body (by simp [← told]))
      | binary =>
          rw [kind, Except.ok.injEq] at told
          exact .copied several (.inr ⟨kind, rfl⟩) (mem_branchBody_of_body (by simp [← told]))
            (mem_branchBody_of_body (by simp [← told]))
      | arrayNest =>
          rw [kind, Except.ok.injEq] at told
          exact .kept several kind (mem_branchBody_of_body (by simp [← told]))
      | nest =>
          simp only [kind, bind_eq_ok_iff, pure_eq_ok_iff] at told
          obtain ⟨nested, found, rfl⟩ := told
          exact .parsed several (.inl kind) (nestedSet_eq_ok_iff.1 found)
            (marks (by simp [Attribute.presence, several, kind]) (by simp [kind]))
            (mem_branchBody_of_setup (mem_nestSetup _ attr.cName))
            (mem_branchBody_of_body List.mem_cons_self)
      | nestTypeValue =>
          simp only [kind, bind_eq_ok_iff, pure_eq_ok_iff] at told
          obtain ⟨nested, found, rfl⟩ := told
          exact .parsed several (.inr kind) (nestedSet_eq_ok_iff.1 found)
            (marks (by simp [Attribute.presence, several, kind]) (by simp [kind]))
            (mem_branchBody_of_setup (mem_nestSetup _ attr.cName))
            (mem_branchBody_of_body (List.mem_append_right _ List.mem_cons_self))

/-- The number of elements is stored with them. -/
theorem mem_allocate (attr : Attribute) :
    .assign ("dst->n_" ++ attr.cName) ("n_" ++ attr.cName) ∈ attr.allocate := by
  have place : "dst->n_" ++ attr.cName = "dst->" ++ ("n_" ++ attr.cName) := by
    rw [← String.append_assoc]
    rfl
  rw [place]
  exact List.mem_cons_of_mem _ List.mem_cons_self

/-- An element that is a number is stored at its index. -/
theorem takesEach_number {type : ScalarType} (each : attr.HoldsEach ("__" ++ type.name)) :
    attr.TakesEach [getScalar ("dst->" ++ attr.cName ++ "[i]") type] :=
  .numbers each (List.mem_singleton_self _)

/-- An element that is a structure is parsed at its index. -/
theorem takesEach_structure {nested : NestedSet} (found : attr.nestedSet = .ok nested)
    (arguments : List String) :
    attr.TakesEach
      [.assign "parg.data" ("&" ++ ("dst->" ++ attr.cName ++ "[i]")),
        .check (nested.renderName ++ "_parse") arguments, failed] := by
  have place : "&dst->" ++ attr.cName ++ "[i]" = "&" ++ ("dst->" ++ attr.cName ++ "[i]") := by
    rw [← String.append_assoc, ← String.append_assoc]
    rfl
  refine .structures (nestedSet_eq_ok_iff.1 found) ?_ (List.mem_cons_of_mem _ List.mem_cons_self)
  rw [place]
  exact List.mem_cons_self

/-- An array with its entries inside is filled in a loop over these. -/
theorem filled_of_fillArray {code : List C.Code} (single : attr.multi = false)
    (kind : attr.kind = .arrayNest) (done : attr.fillArray = .ok code) :
    ∃ block, code = [block] ∧ attr.Filled loop block := by
  unfold fillArray at done
  dsimp only at done
  have stored (policy : List C.Code) (inner : C.Code) :
      .assign ("dst->n_" ++ attr.cName) ("n_" ++ attr.cName) ∈ allocate attr ++ policy ++ [inner] :=
    List.mem_append_left _ (List.mem_append_left _ (mem_allocate attr))
  have last (policy : List C.Code) (inner : C.Code) : inner ∈ allocate attr ++ policy ++ [inner] :=
    List.mem_append_right _ (List.mem_singleton_self inner)
  split at done
  · rename_i type entry
    simp only [bind_eq_ok_iff, pure_eq_ok_iff, exists_eq_left'] at done
    have numbers : attr.HoldsEach ("__" ++ type.name) := .numbers (.inr ⟨single, kind, entry⟩)
    exact ⟨_, done.symm, .entries single (stored _ _) (last _ _) (takesEach_number numbers)⟩
  · simp only [bind_eq_ok_iff, pure_eq_ok_iff] at done
    obtain ⟨nested, found, policy, _, filled⟩ := done
    obtain ⟨_, rfl, filled⟩ := filled
    exact ⟨_, filled.symm, .entries single (stored _ _) (last _ _) (takesEach_structure found _)⟩

/-- An array of an attribute that may be repeated is filled in a loop over all attributes. -/
theorem filled_of_fillRepeated {code : List C.Code} (repeated : attr.multi = true)
    (done : attr.fillRepeated loop = .ok code) :
    ∃ block, code = [block] ∧ attr.Filled loop block := by
  have holds {policy element : List C.Code} (takes : attr.TakesEach element) :
      attr.Filled loop (.block ("if (n_" ++ attr.cName ++ ")")
        (allocate attr ++ policy ++
          [.block loop
            [.block ("if (mnl_attr_get_type(attr) == " ++ attr.enumName ++ ")")
              (element ++ [.line "i++;"]) ""]
            ""])
        "") :=
    .occurrences repeated (List.mem_append_left _ (List.mem_append_left _ (mem_allocate attr)))
      (List.mem_append_right _ (List.mem_singleton_self _)) takes
  unfold fillRepeated at done
  dsimp only at done
  -- With a nest and without one, the rest is the same.
  split at done <;> obtain ⟨policy, _, done⟩ := bind_eq_ok_iff.1 done <;> cases kind : attr.kind <;>
    simp only [kind, bind_eq_ok_iff, pure_eq_ok_iff, exists_eq_left'] at done
  case isTrue.nest | isFalse.nest =>
    obtain ⟨nested, found, rfl⟩ := done
    exact ⟨_, rfl, holds (takesEach_structure found _)⟩
  case isTrue.scalar type | isFalse.scalar type =>
    exact ⟨_, done.symm, holds (takesEach_number (.numbers (.inl ⟨repeated, kind⟩)))⟩
  all_goals
    obtain ⟨_, made, _⟩ := done
    cases made

end Parsing

/-- A member is released as its kind asks for. -/
theorem freed_of_free {holder inner : String} {code : List C.Code}
    (done : attr.free holder inner = .ok code) : attr.Freed (holder ++ "->" ++ inner) code := by
  unfold Attribute.free at done
  dsimp only at done
  split at done
  · rename_i holds
    simp only [bind_eq_ok_iff, pure_eq_ok_iff] at done
    obtain ⟨nested, found, rfl⟩ := done
    have loop : "for (i = 0; i < " ++ holder ++ "->" ++ inner ++ "n_" ++ attr.cName ++ "; i++)" =
        "for (i = 0; i < " ++ (holder ++ "->" ++ inner) ++ "n_" ++ attr.cName ++ "; i++)" := by
      simp only [String.append_assoc]
    rw [loop]
    exact .structures (holdsNests_iff.1 holds) (nestedSet_eq_ok_iff.1 found)
  · rename_i other
    rw [holdsNests_iff] at other
    cases several : attr.multi with
    | true =>
        rw [isCounted, several, Bool.true_or, if_pos rfl, Except.ok.injEq] at done
        exact done ▸ .memory other (.inl several)
    | false =>
        rw [isCounted, several] at done
        cases kind : attr.kind <;> rw [kind] at done
        case nest | nestTypeValue =>
          obtain ⟨nested, found, made⟩ := bind_eq_ok_iff.1 done
          obtain rfl := Except.ok.inj made
          exact .nest several (by simp [kind]) (nestedSet_eq_ok_iff.1 found)
        case text | binary | arrayNest => exact Except.ok.inj done ▸ .memory other (by simp [kind])
        all_goals exact Except.ok.inj done ▸ .nothing several (by simp [kind])

end Attribute

namespace Layout

open Outcome

/-- What the layout of a message has: the listed attributes, and nothing of a nest. -/
structure IsMessage (scope : Scope) (layout : Layout) : Prop where
  members : layout.members = (layout.attributes scope).map Attribute.name
  flat : layout.nested = false
  bare : layout.inherited = []

/-- A layout made from a list is that of a message. -/
theorem isMessage_of_ofList {scope : Scope} {space : String} {members : List String}
    {layout : Layout} (made : ofList scope space members = .ok layout) :
    layout.IsMessage scope := by
  obtain ⟨set, attrs, holds⟩ := exists_holds_of_ofList made
  simp only [ofList, bind_eq_ok_iff, pure_eq_ok_iff] at made
  obtain ⟨_, _, _, _, rfl⟩ := made
  exact ⟨holds.attributes.symm ▸ holds.members, rfl, rfl⟩

end Layout

namespace Library

open Outcome

/-- A group of lines is a structure for the attributes, in order. The fields that record presence
are in front of the others. -/
def PrintsStructure (name : String) (attrs : List Attribute) (group : List String) : Prop :=
  ∃ presence fields gap, List.Forall₂ Attribute.Recorded attrs presence ∧
    List.Forall₂ Attribute.Held attrs fields ∧ gap ∈ [[], [""]] ∧
    group = (name ++ " \x7b") ::
      (if presence.flatten.isEmpty then []
        else "\tstruct \x7b" :: presence.flatten ++ "\t\x7d _present;" :: gap) ++
      fields.flatten ++ ["\x7d;"]

/-- The structure for the layout of a message has the fields of its members. -/
theorem printsStructure_of_structureOf {family : Family} {layout : Layout} {name : String}
    {type : StructureType} (made : structureOf family name layout = .ok type)
    (message : layout.IsMessage family.toScope) (filled : name ≠ "") :
    PrintsStructure name (layout.attributes family.toScope)
      (Declaration.structure type).lines := by
  simp only [structureOf, bind_eq_ok_iff, pure_eq_ok_iff] at made
  obtain ⟨fields, each, rfl⟩ := made
  let attrs := layout.attributes family.toScope
  let presence := attrs.map fun attr => ((attr.presenceField? .user .length).toList ++
    (attr.presenceField? .user .bit).toList).map fun field => "\t\t" ++ field.text
  obtain ⟨gap, known, whole⟩ := Declaration.exists_lines_structure
    { name
      presence := Attribute.presenceFields attrs .user
      fields := fields.flatten } filled
  have recorded : (Attribute.presenceFields attrs .user).map (fun field => "\t\t" ++ field.text) =
      presence.flatten := by
    rw [Attribute.presenceFields, List.map_flatMap, List.flatMap_def]
  have none : (Attribute.presenceFields attrs .user).isEmpty = presence.flatten.isEmpty := by
    rw [← recorded, List.isEmpty_map]
  refine ⟨presence, fields.map fun group => group.map fun field => "\t" ++ field.text, gap, ?_, ?_,
    known, ?_⟩
  · rw [List.forall₂_map_right_iff, List.forall₂_same]
    exact fun attr _ => attr.recorded
  · rw [List.forall₂_map_right_iff]
    exact (mapM_eq_ok_iff.1 each).imp fun attr fields made => Attribute.held_of_fields made
  · rw [message.bare, List.map_nil, List.nil_append, whole, recorded, none, List.map_flatten]

end Library

end NetlinkFamily
