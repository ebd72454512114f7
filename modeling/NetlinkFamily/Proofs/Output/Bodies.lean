import NetlinkFamily.Proofs.Nesting.Naming
import NetlinkFamily.Proofs.Output.SetterWays
import NetlinkFamily.Proofs.Output.Standing

namespace NetlinkFamily

namespace C.Code

/-- What the last of some lists ends with, all of them end with. -/
theorem suffix_flatten {A : Type} {parts : List (List A)} {last ending : List A}
    (final : parts.getLast? = some last) (ends : ending <:+ last) : ending <:+ parts.flatten := by
  obtain ⟨front, rfl⟩ := List.getLast?_eq_some_iff.1 final
  rw [List.flatten_append, List.flatten_singleton]
  exact ends.trans (List.suffix_append _ _)

variable {code : List Code}

/-- Code that ends in a line guards nothing if the line is no condition. -/
theorem frees_of_suffix {text : String} (quiet : isCondition text = false)
    (ends : [.line text] <:+ code) : Frees code := by
  obtain ⟨front, rfl⟩ := ends
  exact frees_of_line front quiet

end C.Code

open C.Code C.Signature Declaration Outcome

namespace Attribute

/-- The release of a member ends in a call. -/
theorem frees_free {attr : Attribute} {holder inner : String} {code : List C.Code}
    (done : attr.free holder inner = .ok code) : Frees code := by
  unfold Attribute.free at done
  dsimp only at done
  split at done
  · simp only [bind_eq_ok_iff, pure_eq_ok_iff] at done
    obtain ⟨nested, _, rfl⟩ := done
    exact frees_of_call [_, _] _ _
  · split at done
    · exact Except.ok.inj done ▸ frees_of_call [] _ _
    · split at done
      · simp only [bind_eq_ok_iff, pure_eq_ok_iff] at done
        obtain ⟨nested, _, rfl⟩ := done
        exact frees_of_call [] _ _
      · simp only [bind_eq_ok_iff, pure_eq_ok_iff] at done
        obtain ⟨nested, _, rfl⟩ := done
        exact frees_of_call [] _ _
      · exact Except.ok.inj done ▸ frees_of_call [] _ _
      · exact Except.ok.inj done ▸ frees_of_call [] _ _
      · exact Except.ok.inj done ▸ frees_nil

end Attribute

namespace Setter

variable {family : Family} {subject : Subject} {part : Part} {attr : Attribute}

/-- A setter has no result, and its body guards nothing. -/
structure Function.IsPlain (setter : Function) : Prop where
  result : setter.signature.result = "static inline void"
  frees : Frees setter.body

/-- Marking the nests on a path guards nothing behind it. -/
theorem frees_markNests (holder : String) (before nests : List String) :
    Frees (markNests holder before nests) := by
  induction nests generalizing before with
  | nil => exact frees_nil
  | cons name rest ih => exact (frees_assign _ _).append (ih _)

/-- Storing an argument guards nothing behind it. -/
theorem frees_store {member presence count : String} {code : List C.Code}
    (done : store attr member presence count = .ok code) : Frees code := by
  have assigned (place value : String) : Frees [.assign place value] := frees_assign place value
  unfold store at done
  dsimp only at done
  split at done
  · exact Except.ok.inj done ▸
      (frees_of_call [] _ _).append ((assigned _ _).append (assigned _ _))
  · split at done
    · exact Except.ok.inj done ▸ assigned _ _
    · exact Except.ok.inj done ▸ frees_nil
    · exact Except.ok.inj done ▸ frees_nil
    · exact Except.ok.inj done ▸
        (frees_of_call [_, _, _] _ _).append (assigned _ _)
    · exact Except.ok.inj done ▸ frees_of_call [_, _, _] _ _
    all_goals cases done

/-- The setter of a single attribute is plain. -/
theorem isPlain_leaf {space : Space} {path : List String} {setter : Function}
    (done : leaf space subject part path attr = .ok setter) : setter.IsPlain := by
  simp only [leaf, bind_eq_ok_iff, pure_eq_ok_iff] at done
  obtain ⟨stored, kept, parameters, _, rfl⟩ := done
  refine ⟨rfl, ((frees_markNests _ _ _).append ?_).append (frees_store kept)⟩
  split
  · exact frees_assign _ _
  · exact frees_nil

/-- Every setter of an attribute, those of its nested sets included, is plain. -/
theorem isPlain_functions {space : Space} {depth : Nat} {path : List String}
    {setters : List Function}
    (done : functions space family subject part depth path attr = .ok setters) :
    ∀ setter ∈ setters, setter.IsPlain := by
  induction depth generalizing path attr setters with
  | zero =>
      rcases functions_cases done with
        ⟨_, rfl⟩ | ⟨_, _, setter, made, rfl⟩ | ⟨_, _, _, impossible, _⟩
      · exact List.forall_mem_nil _
      · exact List.forall_mem_singleton.2 (isPlain_leaf made)
      · cases impossible
  | succ depth ih =>
      rcases functions_cases done with
        ⟨_, rfl⟩ | ⟨_, _, setter, made, rfl⟩ | ⟨_, less, parts, same, each, rfl⟩
      · exact List.forall_mem_nil _
      · exact List.forall_mem_singleton.2 (isPlain_leaf made)
      · obtain rfl := Nat.succ.inj same
        intro setter member
        obtain ⟨part, listed, inside⟩ := List.mem_flatten.1 member
        obtain ⟨inner, _, made⟩ := mem_of_mapM each part listed
        exact ih made setter inside

end Setter

namespace Library

variable {family : Family} {operation : Operation} {subject : Subject} {layout : Layout}
  {declarations : List Declaration} {members : List C.Code}

section Bodies

/-- A declared counter guards nothing behind it. -/
theorem frees_counter (attrs : List Attribute) : Frees (counter attrs) := by
  have quiet : C.isCondition "unsigned int i;" = false := by decide
  unfold counter
  split
  · exact (frees_of_line [] quiet).append frees_space
  · exact frees_nil

/-- Releasing the members guards nothing behind it. -/
theorem frees_releaseMembers {attrs : List Attribute} {holder inner : String}
    (done : releaseMembers attrs holder inner = .ok members) : Frees members := by
  simp only [releaseMembers, bind_eq_ok_iff, pure_eq_ok_iff] at done
  obtain ⟨parts, made, rfl⟩ := done
  refine frees_flatten fun part listed => ?_
  obtain ⟨_, _, done⟩ := mem_of_mapM made part listed
  exact Attribute.frees_free done

/-- A parser ends in a result. -/
theorem frees_parserBody {setup body : List C.Code} {locals : List String}
    (done : parserBody family layout setup locals = .ok body) : Frees body := by
  simp only [parserBody, bind_eq_ok_iff, pure_eq_ok_iff] at done
  obtain ⟨_, _, _, _, _, _, rfl⟩ := done
  refine frees_of_suffix ?_ (suffix_flatten rfl ⟨[.space], rfl⟩)
  split <;> decide

/-- The body of a call without a reply guards nothing behind it. -/
theorem frees_silentCall (operation : Operation) (subject : Subject) (members : List C.Code) :
    Frees (silentCall operation subject members) := by
  have quiet : C.isCondition "return 0;" = false := by decide
  have ends : [.line "return 0;", .space] <:+ silentCall operation subject members :=
    suffix_flatten rfl ⟨[.space], rfl⟩
  obtain ⟨front, same⟩ := ends
  rw [← same, List.append_cons]
  exact (frees_of_line front quiet).append frees_space

/-- The body of a call with a reply guards nothing behind it. -/
theorem frees_answeredCall (operation : Operation) (subject : Subject) (reply : Layout)
    (members : List C.Code) : Frees (answeredCall operation subject reply members) :=
  frees_of_suffix (by decide) (suffix_flatten rfl
    ⟨[.space, .line "return rsp;", .space, .line "err_free:",
      .call (releaseName subject .reply) ["rsp"]], rfl⟩)

end Bodies

section Functions

/-- The result types that functions of the library have, apart from structures. -/
theorem isType_known {result : String}
    (known : result ∈ ["int", "void", "static inline void", "const char *"]) : IsType result := by
  simp only [List.mem_cons, List.not_mem_nil, or_false] at known
  rcases known with rfl | rfl | rfl | rfl
  all_goals exact ⟨by decide, C.isApart_of_any (by decide)⟩

/-- What performs an operation returns a type. -/
theorem isType_callSignature (operation : Operation) (subject : Subject) :
    IsType (callSignature operation subject).result := by
  rw [callSignature]
  dsimp only
  split
  · exact isType_structure (C.isApart_of_any (by decide)) _
  · exact isType_known (by simp)

/-- A function with an empty line behind it is settled. -/
theorem isSettled_function {signature : C.Signature} {body : List C.Code}
    (type : IsType signature.result) (frees : Frees body) :
    ∀ declaration ∈ [Declaration.function signature body, .space], declaration.IsSettled := by
  rw [List.forall_mem_cons, List.forall_mem_singleton]
  exact ⟨⟨type, frees⟩, trivial⟩

/-- The definition of a release is settled. -/
theorem isSettled_release {part : Part}
    (done : release family subject part layout = .ok declarations) :
    ∀ declaration ∈ declarations, declaration.IsSettled := by
  simp only [release, bind_eq_ok_iff, pure_eq_ok_iff] at done
  obtain ⟨members, released, rfl⟩ := done
  refine isSettled_function (isType_known (by simp [releaseSignature])) ?_
  refine ((frees_counter _).append (frees_releaseMembers released)).append ?_
  split
  · exact frees_nil
  · exact frees_of_call [] _ _

/-- All that releases a part is settled. -/
theorem isSettled_releasePart {part : Part}
    (done : releasePart family subject part = .ok declarations) :
    ∀ declaration ∈ declarations, declaration.IsSettled := by
  unfold releasePart at done
  split at done
  · exact Except.ok.inj done ▸ List.forall_mem_nil _
  · exact isSettled_release done

/-- All that releases a list is settled. -/
theorem isSettled_releaseList (done : releaseList family subject = .ok declarations) :
    ∀ declaration ∈ declarations, declaration.IsSettled := by
  unfold releaseList at done
  split at done
  · exact Except.ok.inj done ▸ List.forall_mem_nil _
  · simp only [bind_eq_ok_iff, pure_eq_ok_iff] at done
    obtain ⟨members, _, rfl⟩ := done
    exact isSettled_function (isType_known (by simp [releaseSignature]))
      ((frees_of_call _ "free" ["rsp"]).block [_, .space] _ _)

/-- All that releases a notification is settled. -/
theorem isSettled_releaseNotification
    (done : releaseNotification family subject = .ok declarations) :
    ∀ declaration ∈ declarations, declaration.IsSettled := by
  unfold releaseNotification at done
  split at done
  · exact Except.ok.inj done ▸ List.forall_mem_nil _
  · simp only [bind_eq_ok_iff, pure_eq_ok_iff] at done
    obtain ⟨members, _, rfl⟩ := done
    exact isSettled_function (isType_known (by simp [releaseSignature])) (frees_of_call _ _ _)

/-- The definition of a reply's parser is settled. -/
theorem isSettled_replyParser {element : Bool}
    (done : replyParser family subject element = .ok declarations) :
    ∀ declaration ∈ declarations, declaration.IsSettled := by
  unfold replyParser at done
  split at done
  · exact Except.ok.inj done ▸ List.forall_mem_nil _
  · dsimp only at done
    split at done
    · obtain rfl := Except.ok.inj done
      exact isSettled_function (isType_known (by simp)) (frees_of_line [] (by decide))
    · simp only [bind_eq_ok_iff, pure_eq_ok_iff] at done
      obtain ⟨body, parsed, rfl⟩ := done
      exact isSettled_function (isType_known (by simp)) (frees_parserBody parsed)

/-- The definition that performs a call is settled. -/
theorem isSettled_call (done : call family operation subject = .ok declarations) :
    ∀ declaration ∈ declarations, declaration.IsSettled := by
  simp only [call, bind_eq_ok_iff, pure_eq_ok_iff] at done
  obtain ⟨members, _, rfl⟩ := done
  rw [List.forall_mem_singleton]
  refine ⟨isType_callSignature operation subject, ?_⟩
  split
  · exact frees_silentCall operation subject members
  · exact frees_answeredCall operation subject _ members

/-- The definition that performs a dump is settled. -/
theorem isSettled_dump (done : dump family operation subject = .ok declarations) :
    ∀ declaration ∈ declarations, declaration.IsSettled := by
  unfold dump at done
  split at done
  · cases done
  · simp only [bind_eq_ok_iff, pure_eq_ok_iff] at done
    obtain ⟨members, _, rfl⟩ := done
    have quiet : C.isCondition "return NULL;" = false := by decide
    rw [List.forall_mem_singleton]
    exact ⟨isType_callSignature operation subject, frees_of_suffix quiet (suffix_flatten rfl
      ⟨[.space, .line "return yds.first;", .space, .line "free_list:",
        .call (releaseName subject .reply) ["yds.first"]], rfl⟩)⟩

/-- What is made under a condition is settled where its body is. -/
theorem isSettled_whenever {condition : Bool} {made : Except ModelError (List Declaration)}
    (done : whenever condition made = .ok declarations)
    (each : made = .ok declarations → ∀ declaration ∈ declarations, declaration.IsSettled) :
    ∀ declaration ∈ declarations, declaration.IsSettled := by
  rw [whenever_eq_ok_iff] at done
  split at done
  · exact each done
  · exact done ▸ List.forall_mem_nil _

/-- What is made of each item is settled where every part is. -/
theorem isSettled_each {A : Type} {items : List A} {f : A → Except ModelError (List Declaration)}
    (done : each items f = .ok declarations)
    (made : ∀ item part, f item = .ok part → ∀ declaration ∈ part, declaration.IsSettled) :
    ∀ declaration ∈ declarations, declaration.IsSettled := by
  intro declaration member
  obtain ⟨item, _, part, done, inside⟩ := exists_item_of_each done member
  exact made item part done declaration inside

/-- The source of a nested set is settled. -/
theorem isSettled_nestSource {entry : String × Layout}
    (done : nestSource family entry = .ok declarations) :
    ∀ declaration ∈ declarations, declaration.IsSettled := by
  simp only [nestSource, bind_eq_ok_iff, pure_eq_ok_iff] at done
  obtain ⟨release, released, put, putting, parser, parsing, rfl⟩ := done
  rw [List.forall_mem_append, List.forall_mem_append]
  refine ⟨⟨isSettled_release released, isSettled_whenever putting fun made => ?_⟩,
    isSettled_whenever parsing fun made => ?_⟩
  · simp only [putNest, bind_eq_ok_iff, pure_eq_ok_iff] at made
    obtain ⟨members, _, rfl⟩ := made
    have quiet : C.isCondition "return 0;" = false := by decide
    exact isSettled_function (isType_known (by simp)) (frees_of_suffix quiet
      (suffix_flatten rfl ⟨[.call "mnl_attr_nest_end" ["nlh", "nest"], .space], rfl⟩))
  · simp only [nestParser, bind_eq_ok_iff, pure_eq_ok_iff] at made
    obtain ⟨body, parsed, rfl⟩ := made
    exact isSettled_function (isType_known (by simp)) (frees_parserBody parsed)

/-- The source of a call is settled. -/
theorem isSettled_callSource (done : callSource family operation = .ok declarations) :
    ∀ declaration ∈ declarations, declaration.IsSettled := by
  simp only [callSource, bind_eq_ok_iff, pure_eq_ok_iff] at done
  obtain ⟨subject, _, request, asked, reply, told, parser, parsed, call, called, rfl⟩ := done
  simp only [List.flatten_cons, List.flatten_nil, List.append_nil, List.forall_mem_append,
    List.forall_mem_singleton]
  exact ⟨isSettled_comment _, isSettled_releasePart asked, isSettled_releasePart told,
    isSettled_replyParser parsed, isSettled_call called, trivial⟩

/-- The source of a dump is settled. -/
theorem isSettled_dumpSource (done : dumpSource family operation = .ok declarations) :
    ∀ declaration ∈ declarations, declaration.IsSettled := by
  simp only [dumpSource, bind_eq_ok_iff, pure_eq_ok_iff] at done
  obtain ⟨subject, _, parser, parsed, list, released, dump, dumped, rfl⟩ := done
  simp only [List.flatten_cons, List.flatten_nil, List.append_nil, List.forall_mem_append,
    List.forall_mem_singleton]
  exact ⟨isSettled_comment _, isSettled_whenever parsed isSettled_replyParser,
    isSettled_releaseList released, isSettled_dump dumped, trivial⟩

/-- The source of an operation is settled. -/
theorem isSettled_operationSource (done : operationSource family operation = .ok declarations) :
    ∀ declaration ∈ declarations, declaration.IsSettled := by
  simp only [operationSource, bind_eq_ok_iff, pure_eq_ok_iff] at done
  obtain ⟨call, called, dump, dumped, notify, told, rfl⟩ := done
  rw [List.forall_mem_append, List.forall_mem_append, List.forall_mem_cons]
  refine ⟨⟨⟨isSettled_comment _, isSettled_whenever called isSettled_callSource⟩,
    isSettled_whenever dumped isSettled_dumpSource⟩, isSettled_whenever told fun made => ?_⟩
  simp only [notificationSource, bind_eq_ok_iff, pure_eq_ok_iff] at made
  obtain ⟨subject, _, release, released, rfl⟩ := made
  exact List.forall_mem_cons.2 ⟨isSettled_comment _, isSettled_releaseNotification released⟩

/-- The source of an event is settled. -/
theorem isSettled_eventSource (done : eventSource family operation = .ok declarations) :
    ∀ declaration ∈ declarations, declaration.IsSettled := by
  simp only [eventSource, bind_eq_ok_iff, pure_eq_ok_iff] at done
  obtain ⟨call, _, parser, parsed, event, _, release, released, rfl⟩ := done
  rw [List.forall_mem_append, List.forall_mem_cons]
  exact ⟨⟨isSettled_comment _, isSettled_replyParser parsed⟩,
    isSettled_releaseNotification released⟩

/-- A table of names with the function that looks names up in it. -/
theorem isSettled_names (stem table parameter : String) (set : Option EnumSet)
    (entries : List C.Code) :
    ∀ declaration ∈ nameTable table entries ++ lookUpName stem table parameter set,
      declaration.IsSettled := by
  have apart : C.IsApart "static const char * const " := C.isApart_of_any (by decide)
  have ends : C.isCondition ("return " ++ table ++ "[" ++ parameter ++ "];") = false :=
    (C.isLevel_of_endsWith (C.endsWith_append (by decide) _ ';') (by decide)).quiet
  rw [List.forall_mem_append, nameTable, List.forall_mem_cons, List.forall_mem_singleton]
  refine ⟨⟨(apart.append _).append _, trivial⟩, isSettled_function (isType_known ?_) ?_⟩
  · simp [nameSignature]
  · rw [List.append_cons, List.append_cons]
    exact frees_of_line _ ends

/-- The description of a family for the library is settled. -/
theorem isSettled_familyDescription (done : familyDescription family = .ok declarations) :
    ∀ declaration ∈ declarations, declaration.IsSettled := by
  have described : C.IsApart "const struct ynl_family ynl_" := C.isApart_of_any (by decide)
  have listed : C.IsApart "static const struct ynl_ntf_info " := C.isApart_of_any (by decide)
  simp only [familyDescription, bind_eq_ok_iff, pure_eq_ok_iff] at done
  obtain ⟨entries, _, rfl⟩ := done
  rw [List.forall_mem_append, List.forall_mem_singleton]
  refine ⟨?_, ((described.append _).append _).append _⟩
  split
  · exact List.forall_mem_nil _
  · rw [List.forall_mem_cons, List.forall_mem_singleton]
    exact ⟨(listed.append _).append _, trivial⟩

/-- All parts of the source of the library are settled. -/
theorem isSettled_source (defines : source family = .ok declarations) :
    ∀ declaration ∈ declarations, declaration.IsSettled := by
  simp only [source, bind_eq_ok_iff, pure_eq_ok_iff] at defines
  obtain ⟨tables, validated, nests, nested, operations, made, events, told, description, described,
    rfl⟩ := defines
  have ofTables : ∀ declaration ∈ tables, declaration.IsSettled := by
    refine isSettled_each validated fun set part done => ?_
    simp only [validation, bind_eq_ok_iff, pure_eq_ok_iff] at done
    obtain ⟨_, _, _, _, _, _, rfl⟩ := done
    exact List.forall_mem_singleton.2 trivial
  have ofNames : ∀ declaration ∈ family.enumSets.flatMap entryNames, declaration.IsSettled := by
    intro declaration member
    obtain ⟨set, _, inside⟩ := List.mem_flatMap.1 member
    exact isSettled_names _ _ _ _ _ declaration inside
  simp only [List.flatten_cons, List.flatten_nil, List.append_nil, List.forall_mem_append,
    List.forall_mem_cons]
  exact ⟨⟨isSettled_comment _, List.forall_mem_nil _⟩, isSettled_names _ _ _ _ _, ofNames,
    ⟨trivial, isSettled_comment _, List.forall_mem_nil _⟩, ofTables,
    ⟨isSettled_comment _, List.forall_mem_nil _⟩,
    isSettled_each nested fun _ _ => isSettled_nestSource,
    isSettled_each made fun _ _ => isSettled_operationSource,
    isSettled_each told fun _ _ => isSettled_eventSource, ⟨trivial, List.forall_mem_nil _⟩,
    isSettled_familyDescription described⟩

end Functions

section Types

/-- A structure is settled if its name starts with the keyword. -/
theorem isSettled_structureOf {name : String} {type : StructureType}
    (made : structureOf family name layout = .ok type) (apart : C.IsApart name) :
    ∀ declaration ∈ [Declaration.structure type, .space], declaration.IsSettled := by
  simp only [structureOf, bind_eq_ok_iff, pure_eq_ok_iff] at made
  obtain ⟨fields, _, rfl⟩ := made
  rw [List.forall_mem_cons, List.forall_mem_singleton]
  exact ⟨apart, trivial⟩

/-- The name of a structure never starts with `else`. -/
theorem isApart_structure (name : String) : C.IsApart ("struct " ++ name) :=
  C.IsApart.append (C.isApart_of_any (by decide)) name

/-- The type of a message is settled. -/
theorem isSettled_messageType {part : Part}
    (done : messageType family subject part layout = .ok declarations) :
    ∀ declaration ∈ declarations, declaration.IsSettled := by
  simp only [messageType, bind_eq_ok_iff, pure_eq_ok_iff] at done
  obtain ⟨type, made, rfl⟩ := done
  exact isSettled_structureOf made (isApart_structure _)

/-- A request's type and its setters are settled. -/
theorem isSettled_requestType (done : requestType family subject = .ok declarations) :
    ∀ declaration ∈ declarations, declaration.IsSettled := by
  unfold requestType at done
  split at done
  · exact Except.ok.inj done ▸ List.forall_mem_nil _
  · simp only [bind_eq_ok_iff, pure_eq_ok_iff] at done
    obtain ⟨type, typed, declared, set, rfl⟩ := done
    simp only [setters, bind_eq_ok_iff, pure_eq_ok_iff] at set
    obtain ⟨functions, made, rfl⟩ := set
    have ofSetters : ∀ declaration ∈ functions.flatten.map fun setter : Setter.Function =>
        Declaration.function setter.signature setter.body, declaration.IsSettled := by
      intro declaration member
      obtain ⟨setter, listed, rfl⟩ := List.mem_map.1 member
      obtain ⟨part, among, inside⟩ := List.mem_flatten.1 listed
      obtain ⟨attr, _, done⟩ := mem_of_mapM made part among
      have plain := Setter.isPlain_functions done setter inside
      exact ⟨isType_known (by simp [plain.result]), plain.frees⟩
    have allocated : C.isCondition ("return calloc(1, sizeof(struct " ++
        subject.stem .request false ++ "));") = false :=
      (C.isLevel_of_endsWith (C.endsWith_append (by decide) _ ';') (by decide)).quiet
    rw [List.forall_mem_append, List.forall_mem_append, List.forall_mem_append]
    refine ⟨⟨⟨isSettled_messageType typed, ?_⟩, ofSetters⟩, List.forall_mem_singleton.2 trivial⟩
    simp only [List.forall_mem_cons]
    exact ⟨⟨isType_structure (C.isApart_of_any (by decide)) _, frees_of_line [] allocated⟩,
      isType_known (by simp [releaseSignature]), trivial, List.forall_mem_nil _⟩

/-- A reply's type is settled. -/
theorem isSettled_replyType (done : replyType family subject = .ok declarations) :
    ∀ declaration ∈ declarations, declaration.IsSettled := by
  unfold replyType at done
  split at done
  · exact Except.ok.inj done ▸ List.forall_mem_nil _
  · exact Except.ok.inj done ▸ List.forall_mem_nil _
  · exact isSettled_messageType done

/-- A wrapped reply is settled. -/
theorem isSettled_wrapper (subject : Subject) :
    ∀ declaration ∈ wrapper subject, declaration.IsSettled := by
  unfold wrapper
  simp only [List.forall_mem_cons]
  exact ⟨isApart_structure _, trivial, isType_known (by simp [releaseSignature]), trivial,
    List.forall_mem_nil _⟩

/-- The header of a call is settled. -/
theorem isSettled_callHeader (done : callHeader family operation = .ok declarations) :
    ∀ declaration ∈ declarations, declaration.IsSettled := by
  simp only [callHeader, bind_eq_ok_iff, pure_eq_ok_iff] at done
  obtain ⟨subject, _, request, asked, reply, told, rfl⟩ := done
  simp only [List.flatten_cons, List.flatten_nil, List.append_nil, List.forall_mem_append,
    List.forall_mem_cons]
  refine ⟨⟨isSettled_comment _, List.forall_mem_nil _⟩, isSettled_requestType asked,
    ⟨trivial, List.forall_mem_nil _⟩, isSettled_replyType told, ?_,
    trivial, isType_callSignature operation subject, trivial, List.forall_mem_nil _⟩
  split
  · simp only [List.forall_mem_cons]
    exact ⟨isType_known (by simp [releaseSignature]), trivial, trivial, List.forall_mem_nil _⟩
  · exact List.forall_mem_nil _

/-- The header of a dump is settled. -/
theorem isSettled_dumpHeader (done : dumpHeader family operation = .ok declarations) :
    ∀ declaration ∈ declarations, declaration.IsSettled := by
  simp only [dumpHeader, bind_eq_ok_iff, pure_eq_ok_iff] at done
  obtain ⟨subject, _, request, asked, reply, told, rfl⟩ := done
  simp only [List.flatten_cons, List.flatten_nil, List.append_nil, List.forall_mem_append,
    List.forall_mem_cons]
  exact ⟨⟨isSettled_comment _, List.forall_mem_nil _⟩, isSettled_requestType asked,
    isSettled_whenever told isSettled_replyType, isSettled_wrapper subject,
    isType_callSignature operation subject, trivial, List.forall_mem_nil _⟩

/-- The header of an operation is settled. -/
theorem isSettled_operationHeader (done : operationHeader family operation = .ok declarations) :
    ∀ declaration ∈ declarations, declaration.IsSettled := by
  simp only [operationHeader, bind_eq_ok_iff, pure_eq_ok_iff] at done
  obtain ⟨call, called, dump, dumped, notify, told, rfl⟩ := done
  rw [List.forall_mem_append, List.forall_mem_append, List.forall_mem_cons]
  refine ⟨⟨⟨isSettled_comment _, isSettled_whenever called isSettled_callHeader⟩,
    isSettled_whenever dumped isSettled_dumpHeader⟩, isSettled_whenever told fun made => ?_⟩
  simp only [notificationHeader, bind_eq_ok_iff, pure_eq_ok_iff] at made
  obtain ⟨subject, _, rfl⟩ := made
  exact List.forall_mem_cons.2 ⟨isSettled_comment _, isSettled_wrapper subject⟩

/-- The header of an event is settled. -/
theorem isSettled_eventHeader (done : eventHeader family operation = .ok declarations) :
    ∀ declaration ∈ declarations, declaration.IsSettled := by
  simp only [eventHeader, bind_eq_ok_iff, pure_eq_ok_iff] at done
  obtain ⟨subject, _, reply, told, rfl⟩ := done
  simp only [List.flatten_cons, List.flatten_nil, List.append_nil, List.forall_mem_append,
    List.forall_mem_singleton]
  exact ⟨isSettled_comment _, isSettled_replyType told, trivial, isSettled_wrapper subject⟩

/-- All parts of the header of the library are settled. -/
theorem isSettled_header {file : Spec.File} {excludes : List Pattern}
    (built : Family.ofSpec file excludes = .ok family)
    (declares : header family = .ok declarations) :
    ∀ declaration ∈ declarations, declaration.IsSettled := by
  simp only [header, bind_eq_ok_iff, pure_eq_ok_iff] at declares
  obtain ⟨nests, nested, operations, made, events, told, rfl⟩ := declares
  have ofNests : ∀ declaration ∈ nests, declaration.IsSettled := by
    intro declaration member
    obtain ⟨layout, listed, part, done, inside⟩ := exists_item_of_each nested member
    obtain ⟨⟨name, _⟩, held, rfl⟩ := List.mem_map.1 listed
    simp only [nestType, bind_eq_ok_iff, pure_eq_ok_iff] at done
    obtain ⟨type, typed, rfl⟩ := done
    refine isSettled_structureOf typed ?_ declaration inside
    rw [(Family.namedAfter built (Registry.get?_eq_some_iff.2 held)).structName,
      String.append_assoc]
    exact isApart_structure _
  have ofNames : ∀ declaration ∈ family.enumSets.map fun set =>
      Declaration.prototype none (entryNameSignature set), declaration.IsSettled :=
    List.forall_mem_map.2 fun _ _ => isType_known (by simp [entryNameSignature, nameSignature])
  have operationName : IsType (operationNameSignature family).result :=
    isType_known (by simp [operationNameSignature, nameSignature])
  simp only [List.flatten_cons, List.flatten_nil, List.append_nil, List.forall_mem_append,
    List.forall_mem_cons]
  exact ⟨⟨isSettled_comment _, operationName, List.forall_mem_nil _⟩, ofNames,
    ⟨trivial, isSettled_comment _, List.forall_mem_nil _⟩, ofNests,
    isSettled_each made fun _ _ => isSettled_operationHeader,
    isSettled_each told fun _ _ => isSettled_eventHeader, trivial, List.forall_mem_nil _⟩

end Types

end Library

end NetlinkFamily
