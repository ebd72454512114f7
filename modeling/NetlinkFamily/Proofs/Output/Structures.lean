import NetlinkFamily.Proofs.Output.Listing
import NetlinkFamily.Proofs.Output.Rendering

namespace NetlinkFamily

/-- The types of the members that are held by value. -/
def C.embedded (fields : List C.Field) : List String :=
  (fields.filter fun field => field.holding = .embedded).map C.Field.type

/-- The structures embedded by two lists of fields are those of the first and then those of the
second. -/
@[simp] theorem C.embedded_append (first second : List C.Field) :
    C.embedded (first ++ second) = C.embedded first ++ C.embedded second := by
  simp [C.embedded]

/-- The types of the structures that a structure contains. -/
def StructureType.embedded (type : StructureType) : List String :=
  C.embedded type.fields

namespace Declaration

/-- The structure a declaration prints. -/
def structure? : Declaration → Option StructureType
  | .structure type => some type
  | _ => none

/-- The structures among declarations, in order. -/
def structures (declarations : List Declaration) : List StructureType :=
  declarations.filterMap structure?

/-- Structures of two lists are those of the first and then those of the second. -/
@[simp] theorem structures_append (first second : List Declaration) :
    structures (first ++ second) = structures first ++ structures second :=
  List.filterMap_append

/-- No declarations have no structures. -/
@[simp] theorem structures_nil : structures [] = [] := rfl

/-- Structures of a list are that of its head, if any, before those of its tail. -/
@[simp] theorem structures_cons (first : Declaration) (rest : List Declaration) :
    structures (first :: rest) = (structure? first).toList ++ structures rest := by
  rw [structures, List.filterMap_cons]
  cases structure? first <;> rfl

/-- A blank line prints no structure. -/
@[simp] theorem structure?_space : structure? .space = none := rfl

/-- A comment prints no structure. -/
@[simp] theorem structure?_comment (text : String) : structure? (.comment text) = none := rfl

/-- A prototype prints no structure. -/
@[simp] theorem structure?_prototype (doc : Option String) (signature : C.Signature) :
    structure? (.prototype doc signature) = none := rfl

/-- A function prints no structure. -/
@[simp] theorem structure?_function (signature : C.Signature) (body : List C.Code) :
    structure? (.function signature body) = none := rfl

/-- A structure is listed exactly when it is declared. -/
theorem mem_structures {type : StructureType} {declarations : List Declaration} :
    type ∈ structures declarations ↔ .structure type ∈ declarations := by
  unfold structures
  rw [List.mem_filterMap]
  constructor
  · rintro ⟨declaration, listed, found⟩
    unfold structure? at found
    split at found
    · exact Option.some.inj found ▸ listed
    · cases found
  · exact fun listed => ⟨_, listed, rfl⟩

/-- The structures of a file stand in its text. -/
theorem follow_structures {declarations : List Declaration}
    (stand : ∀ declaration ∈ declarations, declaration.Stands) :
    Follow ((structures declarations).map fun type => (Declaration.structure type).lines)
      (printed declarations) := by
  refine follow_selected stand fun declaration _ type selected => ?_
  unfold structure? at selected
  split at selected
  · obtain rfl := Option.some.inj selected
    rfl
  · cases selected

/-- The types that structures embed are known or stand in front, apart from those lacking. -/
def EmbedsKnown (lacking : String → Prop) : List String → List StructureType → Prop
  | _, [] => True
  | known, type :: rest =>
      (∀ name ∈ type.embedded, name ∈ known ∨ lacking name) ∧
        EmbedsKnown lacking (known ++ [type.name]) rest

section EmbedsKnown

variable {lacking : String → Prop} {known more : List String} {first second : List StructureType}

/-- Structures embed known ones when the first do, and the second do knowing the first as well. -/
theorem embedsKnown_append :
    EmbedsKnown lacking known (first ++ second) ↔
      EmbedsKnown lacking known first ∧
        EmbedsKnown lacking (known ++ first.map StructureType.name) second := by
  induction first generalizing known with
  | nil => simp [EmbedsKnown]
  | cons type rest ih =>
      simp only [List.cons_append, EmbedsKnown, ih, List.map_cons, List.append_assoc,
        List.nil_append, and_assoc]

/-- Structures that embed known ones do so when more are known. -/
theorem EmbedsKnown.mono (embeds : EmbedsKnown lacking known first)
    (within : ∀ name ∈ known, name ∈ more) : EmbedsKnown lacking more first := by
  induction first generalizing known more with
  | nil => trivial
  | cons type rest ih =>
      refine ⟨fun name member => (embeds.1 name member).imp_left (within name), ih embeds.2 ?_⟩
      intro name listed
      rw [List.mem_append] at listed ⊢
      exact listed.imp_left (within name)

end EmbedsKnown

/-- What structures embed are structures in front of them, apart from those lacking. -/
def DefinedBeforeUse (lacking : String → Prop) (types : List StructureType) : Prop :=
  ∀ before type after, types = before ++ type :: after →
    ∀ name ∈ type.embedded, name ∈ before.map StructureType.name ∨ lacking name

section DefinedBeforeUse

variable {lacking : String → Prop} {types : List StructureType}

/-- With nothing known before, what is known stands in front. -/
theorem EmbedsKnown.definedBeforeUse (embeds : EmbedsKnown lacking [] types) :
    DefinedBeforeUse lacking types := by
  rintro before type after rfl name member
  exact (embedsKnown_append.1 embeds).2.1 name member

/-- What is embedded at all is a structure then. -/
theorem DefinedBeforeUse.mem_names (defined : DefinedBeforeUse lacking types)
    {type : StructureType} (listed : type ∈ types) {name : String} (member : name ∈ type.embedded) :
    name ∈ types.map StructureType.name ∨ lacking name := by
  obtain ⟨before, after, rfl⟩ := List.append_of_mem listed
  refine (defined before type after rfl name member).imp_left fun earlier => ?_
  rw [List.map_append]
  exact List.mem_append_left _ earlier

end DefinedBeforeUse

end Declaration

namespace Attribute

open Outcome

/-- Whether a structure holds the set inside an attribute by value. -/
def isEmbedded (attr : Attribute) : Bool :=
  !attr.isCounted && (attr.kind == .nest || attr.kind == .nestTypeValue)

/-- An attribute embeds the structure that it names the set inside it by. -/
def Embeds (attr : Attribute) (name : String) : Prop :=
  attr.isEmbedded = true ∧ ∃ nested, attr.nested = some nested ∧ nested.structType = name

/-- The type of the structure an attribute holds is that of its nested set. -/
theorem nestedType_eq_ok_iff {attr : Attribute} {type : Option String} :
    attr.nestedType = .ok type ↔ ∃ nested, attr.nested = some nested ∧
      some nested.structType = type := by
  unfold nestedType nestedSet
  cases attr.nested <;> simp [Except.map]

/-- Apart from arrays, the elements of an attribute are structures if they are embedded. -/
theorem elementType?_of_single {attr : Attribute} {space : Space} {type : Option String}
    (single : attr.isCounted = false) (done : attr.elementType? space = .ok type) (name : String) :
    type = some name ↔ attr.Embeds name := by
  obtain ⟨notMulti, notArray⟩ := Bool.or_eq_false_iff.1 single
  unfold elementType? at done
  rw [notMulti, if_neg Bool.false_ne_true] at done
  unfold Embeds isEmbedded
  cases kind : attr.kind with
  | nest | nestTypeValue =>
      simp only [kind, nestedType_eq_ok_iff] at done
      obtain ⟨nested, inside, rfl⟩ := done
      simp [single, inside]
  | arrayNest => simp [kind] at notArray
  | _ =>
      simp only [kind, Except.ok.injEq] at done
      simp [← done]

/-- The fields of one element embed what the attribute embeds. -/
theorem mem_embedded_elementFields {attr : Attribute} {space : Space} {fields : List C.Field}
    (done : attr.elementFields space = .ok fields) (name : String) :
    name ∈ C.embedded fields ↔ attr.Embeds name := by
  simp only [elementFields, bind_eq_ok_iff] at done
  obtain ⟨type, looked, done⟩ := done
  cases counted : attr.isCounted with
  | true =>
      have arrays : ¬attr.Embeds name := by simp [Embeds, isEmbedded, counted]
      refine iff_of_false ?_ arrays
      cases type with
      | some type =>
          simp only [counted, if_true, pure_eq_ok_iff] at done
          simp [← done, C.embedded, countField]
      | none =>
          simp only at done
          split at done <;> obtain rfl := (pure_eq_ok_iff ..).1 done <;>
            simp [C.embedded, scalarField]
  | false =>
      rw [← elementType?_of_single counted looked]
      cases type with
      | some type =>
          simp only [counted, Bool.false_eq_true, if_false, pure_eq_ok_iff] at done
          simp [← done, C.embedded, eq_comm]
      | none =>
          simp only at done
          split at done <;> obtain rfl := (pure_eq_ok_iff ..).1 done <;>
            simp [C.embedded, scalarField]

/-- The fields of an attribute embed the structure inside it, unless it is an array. -/
theorem mem_embedded_fields {attr : Attribute} {space : Space} {fields : List C.Field}
    (done : attr.fields space = .ok fields) (name : String) :
    name ∈ C.embedded fields ↔ attr.Embeds name := by
  have pointers {type : String} (kind : (attr.kind == .nest || attr.kind == .nestTypeValue) = false)
      (only : fields = [{ holding := .pointer, type, name := attr.cName }]) :
      name ∈ C.embedded fields ↔ attr.Embeds name := by
    simp [only, C.embedded, Embeds, isEmbedded, kind]
  unfold Attribute.fields at done
  split at done
  · exact mem_embedded_elementFields done name
  · split at done
    · rename_i kind
      exact pointers (by rw [kind]; rfl) (Except.ok.inj done).symm
    · rename_i kind
      exact pointers (by rw [kind]; rfl) (Except.ok.inj done).symm
    · exact mem_embedded_elementFields done name

end Attribute

/-- A layout embeds what its members embed. -/
def Layout.Embeds (layout : Layout) (scope : Scope) (name : String) : Prop :=
  ∃ attr ∈ layout.attributes scope, attr.Embeds name

namespace Library

open Declaration Outcome

variable {family : Family} {operation : Operation} {subject : Subject} {layout : Layout}
  {declarations : List Declaration}

/-- The structure of a layout embeds what its members embed. -/
theorem mem_embedded_structureOf {name : String} {type : StructureType}
    (done : structureOf family name layout = .ok type) :
    type.name = name ∧ ∀ inner, inner ∈ type.embedded ↔ layout.Embeds family.toScope inner := by
  simp only [structureOf, bind_eq_ok_iff, pure_eq_ok_iff] at done
  obtain ⟨fields, made, rfl⟩ := done
  refine ⟨rfl, fun inner => ?_⟩
  have handed : C.embedded (layout.inherited.map fun name => { type := "__u32", name }) = [] := by
    simp [C.embedded]
  rw [StructureType.embedded, C.embedded_append, handed, List.nil_append, Layout.Embeds]
  have each := mapM_eq_ok_iff.1 made
  clear made handed
  generalize layout.attributes family.toScope = attrs at each ⊢
  induction each with
  | nil => simp [C.embedded]
  | @cons attr own attrs others here _ ih =>
      rw [List.flatten_cons, C.embedded_append, List.mem_append,
        List.exists_mem_cons_iff fun attr : Attribute => attr.Embeds inner]
      exact or_congr (Attribute.mem_embedded_fields here inner) ih

/-- The comment over a mode prints no structure. -/
@[simp] theorem structure?_modeComment (mode : OperationMode) :
    structure? (modeComment operation mode) = none := rfl

/-- The comment over an operation prints no structure. -/
@[simp] theorem structure?_banner : structure? (banner operation) = none := rfl

/-- The structure of a nested set. -/
theorem structures_nestType (done : nestType family layout = .ok declarations) :
    ∃ type, structureOf family layout.structName layout = .ok type ∧
      structures declarations = [type] := by
  simp only [nestType, bind_eq_ok_iff, pure_eq_ok_iff] at done
  obtain ⟨type, made, rfl⟩ := done
  exact ⟨type, made, rfl⟩

/-- The type of a message is one structure. -/
theorem structures_messageType {part : Part}
    (done : messageType family subject part layout = .ok declarations) :
    ∃ type, structureOf family (subject.structType part true) layout = .ok type ∧
      structures declarations = [type] := by
  simp only [messageType, bind_eq_ok_iff, pure_eq_ok_iff] at done
  obtain ⟨type, made, rfl⟩ := done
  exact ⟨type, made, rfl⟩

/-- Setters print no structure. -/
theorem structures_setters (done : setters family subject layout = .ok declarations) :
    structures declarations = [] := by
  simp only [setters, bind_eq_ok_iff, pure_eq_ok_iff] at done
  obtain ⟨functions, _, rfl⟩ := done
  simp [structures, List.filterMap_map, Function.comp_def]

/-- The types of the messages of a part: one if the part has a layout. -/
def TypesOf (family : Family) (subject : Subject) (part : Part) (type? : Option StructureType) :
    Prop :=
  (subject.layout? part).mapM (structureOf family (subject.structType part true)) = .ok type?

/-- A request has one structure, and functions beside it. -/
theorem structures_requestType (done : requestType family subject = .ok declarations) :
    ∃ type?, TypesOf family subject .request type? ∧ structures declarations = type?.toList := by
  unfold requestType at done
  unfold TypesOf Subject.layout?
  cases asked : subject.request with
  | none =>
      rw [asked, Except.ok.injEq] at done
      exact ⟨none, rfl, done ▸ rfl⟩
  | some layout =>
      simp only [asked, bind_eq_ok_iff, pure_eq_ok_iff] at done
      obtain ⟨typed, made, setters, set, rfl⟩ := done
      obtain ⟨type, made, only⟩ := structures_messageType made
      refine ⟨some type, by rw [Option.mapM_some, made]; rfl, ?_⟩
      simp [only, structures_setters set, allocation]

/-- A reply has one structure, but that of a notification is left to the call. -/
theorem structures_replyType (own : subject.mode ≠ some .notify)
    (done : replyType family subject = .ok declarations) :
    ∃ type?, TypesOf family subject .reply type? ∧ structures declarations = type?.toList := by
  unfold replyType at done
  unfold TypesOf Subject.layout?
  split at done
  · rename_i silent
    rw [silent]
    exact ⟨none, rfl, Except.ok.inj done ▸ rfl⟩
  · exact absurd ‹_› own
  · rename_i layout told _
    obtain ⟨type, made, only⟩ := structures_messageType done
    rw [told]
    exact ⟨some type, by rw [Option.mapM_some, made]; rfl, only⟩

/-- The structure that wraps a reply embeds it, and nothing else. -/
theorem structures_wrapper (subject : Subject) :
    ∃ type, structures (wrapper subject) = [type] ∧
      type.embedded = [subject.structType .reply true] := by
  refine ⟨_, rfl, ?_⟩
  unfold wrapperFields
  split <;> rfl

/-- The header of a call prints the type of its request and then that of its reply. -/
theorem structures_callHeader (described : Subject.ofOperation family operation .call = .ok subject)
    (declares : callHeader family operation = .ok declarations) :
    ∃ request? reply?, TypesOf family subject .request request? ∧
      TypesOf family subject .reply reply? ∧
      structures declarations = request?.toList ++ reply?.toList := by
  simp only [callHeader, described, bind_eq_ok_iff, pure_eq_ok_iff, Except.ok.injEq,
    exists_eq_left'] at declares
  obtain ⟨request, asked, reply, told, rfl⟩ := declares
  have describes := Subject.describes_of_ofOperation described
  obtain ⟨request?, ofRequest, requests⟩ := structures_requestType asked
  obtain ⟨reply?, ofReply, replies⟩ := structures_replyType (by simp [describes.inMode]) told
  have helpers : structures (if subject.reply.isSome then
      [.prototype none (releaseSignature subject .reply), .space, .space] else []) = [] := by
    split <;> rfl
  exact ⟨request?, reply?, ofRequest, ofReply, by simp [requests, replies, helpers]⟩

/-- A dump has a structure for its reply unless it shares that of the call. -/
theorem structures_dumpHeader (described : Subject.ofOperation family operation .dump = .ok subject)
    (declares : dumpHeader family operation = .ok declarations) :
    ∃ request? reply?, TypesOf family subject .request request? ∧
      (if subject.sharesReply then reply? = none else TypesOf family subject .reply reply?) ∧
      structures declarations =
        request?.toList ++ (reply?.toList ++ structures (wrapper subject)) := by
  simp only [dumpHeader, described, bind_eq_ok_iff, pure_eq_ok_iff, Except.ok.injEq,
    exists_eq_left'] at declares
  obtain ⟨request, asked, reply, told, rfl⟩ := declares
  have describes := Subject.describes_of_ofOperation described
  obtain ⟨request?, ofRequest, requests⟩ := structures_requestType asked
  obtain ⟨reply?, ofReply, replies⟩ : ∃ reply?,
      (if subject.sharesReply then reply? = none else TypesOf family subject .reply reply?) ∧
        structures reply = reply?.toList := by
    rw [whenever_eq_ok_iff] at told
    cases shares : subject.sharesReply with
    | true =>
        rw [shares, Bool.not_true, if_neg Bool.false_ne_true] at told
        exact ⟨none, rfl, told ▸ rfl⟩
    | false =>
        rw [shares, Bool.not_false, if_pos rfl] at told
        exact structures_replyType (by simp [describes.inMode]) told
  exact ⟨request?, reply?, ofRequest, ofReply, by simp [requests, replies]⟩

/-- The header of an event prints the type of its reply and then what wraps it. -/
theorem structures_eventHeader
    (described : Subject.ofOperation family operation .event = .ok subject)
    (declares : eventHeader family operation = .ok declarations) :
    ∃ reply?, TypesOf family subject .reply reply? ∧
      structures declarations = reply?.toList ++ structures (wrapper subject) := by
  simp only [eventHeader, described, bind_eq_ok_iff, pure_eq_ok_iff, Except.ok.injEq,
    exists_eq_left'] at declares
  obtain ⟨reply, told, rfl⟩ := declares
  have describes := Subject.describes_of_ofOperation described
  obtain ⟨reply?, ofReply, replies⟩ := structures_replyType (by simp [describes.inMode]) told
  exact ⟨reply?, ofReply, by simp [replies]⟩

end Library

end NetlinkFamily
