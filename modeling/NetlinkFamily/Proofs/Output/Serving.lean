import NetlinkFamily.Proofs.Model.Layouts
import NetlinkFamily.Proofs.Output.Callbacks
import NetlinkFamily.Proofs.Output.Embedding
import NetlinkFamily.Proofs.Output.Notifications

namespace NetlinkFamily

namespace Declaration

/-- A function that is defined, with its body. -/
def definition? : Declaration → Option (C.Signature × List C.Code)
  | .function signature body => some (signature, body)
  | _ => none

/-- The functions that are defined, with their bodies. -/
def definitions (declarations : List Declaration) : List (C.Signature × List C.Code) :=
  declarations.filterMap definition?

/-- A function with this body is the only one of its name, and its text stands in a file. -/
structure Implements (declarations : List Declaration) (lines : List String)
    (signature : C.Signature) (body : List C.Code) : Prop where
  only : (definitions declarations).filter (fun other => other.1.name == signature.name) =
    [(signature, body)]
  printed : ∃ group, group <:+: lines ∧ PrintsFunction signature body group

/-- No two functions of a part of a file are called alike, and their text stands in the file. -/
structure Distinguishes (declarations : List Declaration) (lines : List String) : Prop where
  distinct : ((functions declarations).map C.Signature.name).Nodup
  printed : ∀ signature body, .function signature body ∈ declarations →
    ∃ group, group <:+: lines ∧ PrintsFunction signature body group

/-- Signatures of the definitions are the functions defined. -/
theorem map_definitions (declarations : List Declaration) :
    (definitions declarations).map Prod.fst = functions declarations := by
  rw [definitions, functions, List.map_filterMap]
  congr 1
  funext declaration
  cases declaration <;> rfl

/-- A function that is listed is a definition. -/
theorem mem_definitions {declarations : List Declaration} {signature : C.Signature}
    {body : List C.Code} (listed : .function signature body ∈ declarations) :
    (signature, body) ∈ definitions declarations :=
  List.mem_filterMap.2 ⟨_, listed, rfl⟩

/-- Where no two functions are called alike, each is the only one of its name. -/
theorem Distinguishes.implements {declarations : List Declaration} {lines : List String}
    (part : Distinguishes declarations lines) {signature : C.Signature} {body : List C.Code}
    (listed : .function signature body ∈ declarations) :
    Implements declarations lines signature body where
  only := by
    have distinct := part.distinct
    rw [← map_definitions, List.map_map] at distinct
    exact Entries.filter_key distinct (mem_definitions listed)
  printed := part.printed signature body listed

end Declaration

namespace Library

open Declaration Outcome C.Code

/-- What the names for one element of a reply start with. A dump has elements of its own unless its
reply is that of the call. -/
def elementStem (operation : Operation) (mode : OperationMode) : String :=
  operation.renderName ++
    if Subject.sharedReply operation mode then "_rsp" else "_rsp_dump"

/-- What the names for a whole reply start with, which is a list for a dump. -/
def replyStem (operation : Operation) (mode : OperationMode) : String :=
  operation.renderName ++
    match mode with
    | .dump => if Subject.sharedReply operation mode then "_list" else "_rsp_list"
    | .call | .notify | .event => "_rsp"

/-- The name of the function that performs an operation. -/
def performerName (operation : Operation) (mode : OperationMode) : String :=
  operation.renderName ++ if mode = .dump then "_dump" else ""

/-- The parser of one element of a reply. -/
def elementParser (operation : Operation) (mode : OperationMode) : C.Signature where
  result := "int"
  name := elementStem operation mode ++ "_parse"
  parameters := ["const struct nlmsghdr *nlh", "void *data"]

/-- The function that releases a whole reply. -/
def replyRelease (operation : Operation) (mode : OperationMode) : C.Signature where
  result := "void"
  name := replyStem operation mode ++ "_free"
  parameters := ["struct " ++ replyStem operation mode ++ " *rsp"]

/-- The attributes that a mode replies, in order, as the set of the operation declares them. -/
def Replies (family : Family) (operation : Operation) (mode : OperationMode)
    (attrs : List Attribute) : Prop :=
  ∃ name set, operation.attrSet = some name ∧ family.sets.get? name = some set ∧
    operation.replyAttributes mode = some (attrs.map Attribute.name) ∧
    ∀ attr ∈ attrs, set.attrs.get? attr.name = some attr

/-- A part of the source serves a mode of an operation: the callback and the release are functions
of that part, and both are for the attributes of the reply. -/
structure ServesReply (operation : Operation) (mode : OperationMode) (attrs : List Attribute)
    (part : List Declaration) (lines : List String) : Prop where
  performer : ∃ signature body, signature.name = performerName operation mode ∧
    Implements part lines signature body ∧
    Registers mode (elementParser operation mode).name (replyRelease operation mode).name body
  parser : ∃ body, Implements part lines (elementParser operation mode) body ∧
    ParsesInto attrs ("struct " ++ elementStem operation mode) body
  release : ∃ body, Implements part lines (replyRelease operation mode) body ∧
    ReleasesReply attrs ("struct " ++ replyStem operation mode) mode body

/-- The lines of an entry of a list of replies. -/
def listLines (operation : Operation) : List String :=
  ["struct " ++ replyStem operation .dump ++ " \x7b",
    "\tstruct " ++ replyStem operation .dump ++ " *next;",
    "\tstruct " ++ elementStem operation .dump ++ " obj __attribute__ ((aligned (8)));",
    "\x7d;"]

/-- The text of a header has the structure of an element, with a field for each attribute of the
reply, and for a dump that of a list of these. -/
structure DeclaresReply (operation : Operation) (mode : OperationMode) (attrs : List Attribute)
    (lines : List String) : Prop where
  element : ∃ group, group <:+: lines ∧
    PrintsStructure ("struct " ++ elementStem operation mode) attrs group
  list : mode = .dump → listLines operation <:+: lines

/-- An entry of a list of replies. -/
def listType (operation : Operation) : StructureType where
  name := "struct " ++ replyStem operation .dump
  fields :=
    [{ holding := .pointer, type := "struct " ++ replyStem operation .dump, name := "next" },
      { holding := .embedded
        type := "struct " ++ elementStem operation .dump
        name := "obj"
        ending := " __attribute__ ((aligned (8)))" }]

/-- The structures that a header has for a reply, as they are put together from its layout. -/
structure ReplyTypes (family : Family) (operation : Operation) (mode : OperationMode)
    (declarations : List Declaration) (layout : Layout) : Prop where
  element : ∃ type ∈ structures declarations,
    structureOf family ("struct " ++ elementStem operation mode) layout = .ok type
  list : mode = .dump → listType operation ∈ structures declarations

variable {family : Family} {operation : Operation} {mode : OperationMode} {subject : Subject}
  {layout : Layout} {declarations : List Declaration}

section Names

/-- A part has at most its one release. -/
theorem releases_sublist (subject : Subject) (part : Part) :
    (releases subject part).Sublist [releaseSignature subject part] := by
  unfold releases
  split <;> simp

/-- A reply has at most its one parser. -/
theorem parsers_sublist (subject : Subject) (element : Bool) :
    (parsers subject element).Sublist [parserSignature subject element] := by
  unfold parsers
  split <;> simp

/-- The names of all functions for an operation start with the name of the operation. -/
theorem stem_eq (describes : subject.Describes family operation mode)
    (settled : operation.Settled family.name) (part : Part) (element : Bool) :
    subject.stem part element = operation.renderName ++ subject.ending part element := by
  rw [Subject.stem, describes.familyName, describes.typeName, settled.renderName]

/-- The endings of the names of functions for an operation. -/
def functionEndings : List String :=
  ["_req_free", "_rsp_free", "_rsp_parse", ""] ++
    ["_rsp_dump_parse", "_rsp_list_free", "_list_free", "_dump"] ++ ["_ntf_free"]

/-- A stem gives different names with different endings. -/
theorem nodup_named (name : String) : (functionEndings.map (name ++ ·)).Nodup := by
  refine List.Nodup.map ?_ (by decide)
  intro first second same
  exact String.append_right_inj name |>.1 same

/-- The source of a call names its functions by the stem and one of four endings. -/
theorem names_callSource (settled : operation.Settled family.name)
    (done : callSource family operation = .ok declarations) :
    ((functions declarations).map C.Signature.name).Sublist
      (["_req_free", "_rsp_free", "_rsp_parse", ""].map (operation.renderName ++ ·)) := by
  obtain ⟨subject, described, _⟩ := bind_eq_ok_iff.1 done
  have describes := Subject.describes_of_ofOperation described
  have all : (functions declarations).Sublist
      ([releaseSignature subject .request] ++ [releaseSignature subject .reply] ++
        [parserSignature subject false] ++ [callSignature operation subject]) := by
    rw [(defines_callSource described done).functions]
    exact (((releases_sublist subject _).append (releases_sublist subject _)).append
      (parsers_sublist subject _)).append (.refl _)
  have names := all.map C.Signature.name
  simpa [releaseSignature, releaseName, parserSignature, parserName, callSignature,
    stem_eq describes settled, Subject.ending, describes.inMode, Part.suffix, String.append_assoc]
    using names

/-- The source of a dump defines at most its parser, the release of the list and the dump. -/
theorem functions_dumpSource (described : Subject.ofOperation family operation .dump = .ok subject)
    (done : dumpSource family operation = .ok declarations) :
    (functions declarations).Sublist
      ((if subject.sharesReply then [] else [parserSignature subject true]) ++
        [releaseSignature subject .reply] ++ [callSignature operation subject]) := by
  simp only [dumpSource, described, bind_eq_ok_iff, pure_eq_ok_iff, Except.ok.injEq,
    exists_eq_left'] at done
  obtain ⟨parser, parsed, list, released, dumps, dumped, rfl⟩ := done
  have ofParser : (functions parser).Sublist
      (if subject.sharesReply then [] else [parserSignature subject true]) := by
    rw [whenever_eq_ok_iff] at parsed
    cases shares : subject.sharesReply with
    | true =>
        rw [shares, Bool.not_true, if_neg Bool.false_ne_true] at parsed
        exact parsed ▸ List.nil_sublist _
    | false =>
        rw [shares, Bool.not_false, if_pos rfl] at parsed
        rw [(defines_replyParser parsed).functions, if_neg Bool.false_ne_true]
        exact parsers_sublist subject true
  have ofList : (functions list).Sublist [releaseSignature subject .reply] := by
    rw [(defines_releaseList released).functions]
    exact releases_sublist subject _
  have ofDump : functions dumps = [callSignature operation subject] :=
    (defines_dump dumped).2.functions
  have none : functions [] = [] := rfl
  have all := (ofParser.append ofList).append (.refl (functions dumps))
  simpa [ofDump, none, modeComment] using all

/-- The source of a dump names its functions by the stem and one of four endings. -/
theorem names_dumpSource (settled : operation.Settled family.name)
    (done : dumpSource family operation = .ok declarations) :
    ((functions declarations).map C.Signature.name).Sublist
      (["_rsp_dump_parse", "_rsp_list_free", "_list_free", "_dump"].map
        (operation.renderName ++ ·)) := by
  obtain ⟨subject, described, _⟩ := bind_eq_ok_iff.1 done
  have describes := Subject.describes_of_ofOperation described
  have names := (functions_dumpSource described done).map C.Signature.name
  refine names.trans ?_
  cases shares : subject.sharesReply <;>
    simp [releaseSignature, releaseName, parserSignature, parserName, callSignature,
      stem_eq describes settled, Subject.ending, describes.inMode, shares, String.append_assoc]

/-- The source of a notification names its one function by the stem and `_ntf_free`. -/
theorem names_notificationSource (settled : operation.Settled family.name)
    (done : notificationSource family operation = .ok declarations) :
    ((functions declarations).map C.Signature.name).Sublist
      (["_ntf_free"].map (operation.renderName ++ ·)) := by
  obtain ⟨subject, told, _⟩ := bind_eq_ok_iff.1 done
  obtain ⟨described, shares⟩ := notification_eq_ok_iff.1 told
  have describes := Subject.describes_of_ofOperation described
  rw [(defines_notificationSource told done).functions]
  have names := (releases_sublist subject .reply).map C.Signature.name
  simpa [releaseSignature, releaseName, stem_eq describes settled, Subject.ending,
    describes.inMode, shares, String.append_assoc] using names

/-- Names under a condition are among those of its body. -/
theorem sublist_whenever {condition : Bool} {body : Except ModelError (List Declaration)}
    (done : whenever condition body = .ok declarations) {names : List String}
    (step : body = .ok declarations →
      ((functions declarations).map C.Signature.name).Sublist names) :
    ((functions declarations).map C.Signature.name).Sublist names := by
  rw [whenever_eq_ok_iff] at done
  split at done
  · exact step done
  · exact done ▸ List.nil_sublist _

/-- No two functions for an operation are called alike. -/
theorem nodup_operationSource (settled : operation.Settled family.name)
    (done : operationSource family operation = .ok declarations) :
    ((functions declarations).map C.Signature.name).Nodup := by
  simp only [operationSource, bind_eq_ok_iff, pure_eq_ok_iff] at done
  obtain ⟨call, called, dump, dumped, notify, told, rfl⟩ := done
  refine (nodup_named operation.renderName).sublist ?_
  have all := ((sublist_whenever called (names_callSource settled)).append
    (sublist_whenever dumped (names_dumpSource settled))).append
    (sublist_whenever told (names_notificationSource settled))
  simpa [functionEndings] using all

end Names

section Serving

variable {part : List Declaration} {shown : List String}

/-- A reply's stem is read off the operation and the mode. -/
theorem replyStem_eq (describes : subject.Describes family operation mode)
    (settled : operation.Settled family.name) (asked : mode = .call ∨ mode = .dump) :
    subject.stem .reply false = replyStem operation mode := by
  rw [stem_eq describes settled, Subject.ending, describes.inMode, describes.sharesReply]
  rcases asked with rfl | rfl
  · rfl
  · cases shares : Subject.sharedReply operation .dump <;> simp [replyStem, shares]

/-- An element's stem is read off the operation and the mode. -/
theorem elementStem_eq (describes : subject.Describes family operation mode)
    (settled : operation.Settled family.name) (asked : mode = .call ∨ mode = .dump) :
    subject.stem .reply true = elementStem operation mode := by
  rw [stem_eq describes settled, Subject.ending, describes.inMode, describes.sharesReply]
  rcases asked with rfl | rfl
  · rfl
  · cases shares : Subject.sharedReply operation .dump <;> simp [elementStem, shares, Part.suffix]

/-- The members of a reply are the attributes that the mode replies. -/
theorem replies_attributes (describes : subject.Describes family operation mode)
    (told : subject.reply = some layout) :
    Replies family operation mode (layout.attributes family.toScope) := by
  obtain ⟨_, _, made⟩ := Layout.ofList_of_mapM (told ▸ describes.reply)
  obtain ⟨set, attrs, holds⟩ := Layout.exists_holds_of_ofList made
  obtain ⟨space, _, _⟩ := Layout.ofList_eq made
  rw [holds.attributes]
  refine ⟨subject.attrSet, set, describes.attrSet, space ▸ holds.declared, ?_, fun attr listed =>
    AttributeSet.get?_name (holds.listed attr listed)⟩
  rw [describes.replyAttributes told, holds.members]

/-- The layout of a reply is one of a message. -/
theorem isMessage_reply (describes : subject.Describes family operation mode)
    (told : subject.reply = some layout) : layout.IsMessage family.toScope := by
  obtain ⟨_, _, made⟩ := Layout.ofList_of_mapM (told ▸ describes.reply)
  exact Layout.isMessage_of_ofList made

/-- A dump that shares the reply of the call has its layout. -/
theorem reply_eq_of_sharedReply {call dump : Subject}
    (ofCall : call.Describes family operation .call)
    (ofDump : dump.Describes family operation .dump) (dumps : operation.dumpMode.isSome = true)
    (shares : Subject.sharedReply operation .dump = true) : call.reply = dump.reply := by
  obtain ⟨mode, dumped⟩ := Option.isSome_iff_exists.1 dumps
  have attributes : operation.replyAttributes .call = operation.replyAttributes .dump := by
    unfold Subject.sharedReply at shares
    simp only [dumped] at shares
    split at shares
    · rename_i call called
      simp [Operation.replyAttributes, Operation.attributesOf, Operation.mode, dumped, called,
        beq_iff_eq.1 shares]
    · cases shares
  have sets : call.attrSet = dump.attrSet :=
    Option.some.inj (ofCall.attrSet.symm.trans ofDump.attrSet)
  have made := ofCall.reply
  rw [attributes, sets, ofDump.reply] at made
  exact (Except.ok.inj made).symm

/-- The release of a reply is read off the operation and the mode. -/
theorem releaseSignature_eq (describes : subject.Describes family operation mode)
    (settled : operation.Settled family.name) (asked : mode = .call ∨ mode = .dump) :
    releaseSignature subject .reply = replyRelease operation mode := by
  simp [releaseSignature, releaseName, Subject.structType, replyStem_eq describes settled asked,
    describes.clashes, replyRelease, Part.parameter, String.append_assoc]

/-- The parser of an element is read off the operation and the mode. -/
theorem parserSignature_eq (describes : subject.Describes family operation mode)
    (settled : operation.Settled family.name) (asked : mode = .call ∨ mode = .dump) :
    parserSignature subject true = elementParser operation mode := by
  rw [parserSignature, parserName, elementStem_eq describes settled asked, elementParser]

/-- Dump and call have one parser if they share the reply. -/
theorem elementStem_of_sharedReply (shares : Subject.sharedReply operation .dump = true) :
    elementStem operation .dump = elementStem operation .call := by
  rw [elementStem, shares]
  rfl

/-- The function that performs an operation is named by the operation and the mode. -/
theorem name_callSignature (describes : subject.Describes family operation mode) :
    (callSignature operation subject).name = performerName operation mode := by
  simp [callSignature, performerName, describes.inMode]

/-- The functions that perform a call, parse its reply and release it. -/
theorem exists_functions_callSource
    (described : Subject.ofOperation family operation .call = .ok subject)
    (told : subject.reply = some layout)
    (done : callSource family operation = .ok declarations) :
    (∃ body, .function (callSignature operation subject) body ∈ declarations ∧
      Registers .call (parserName subject false) (releaseName subject .reply) body) ∧
    (∃ body, .function (parserSignature subject false) body ∈ declarations ∧
      ParsesInto (layout.attributes family.toScope) (subject.structType .reply false) body) ∧
    ∃ body, .function (releaseSignature subject .reply) body ∈ declarations ∧
      ReleasesReply (layout.attributes family.toScope) (subject.structType .reply false) .call
        body := by
  have message := isMessage_reply (Subject.describes_of_ofOperation described) told
  simp only [callSource, described, bind_eq_ok_iff, pure_eq_ok_iff, Except.ok.injEq,
    exists_eq_left'] at done
  obtain ⟨request, _, reply, released, parser, parsed, calls, called, rfl⟩ := done
  obtain ⟨performer, performs, registers⟩ := exists_call called told
  obtain ⟨parserBody, parses, into⟩ := exists_replyParser parsed told message
  obtain ⟨releaseBody, releases, frees⟩ := exists_release released told
  exact ⟨⟨performer, by simp [performs], registers⟩, ⟨parserBody, by simp [parses], into⟩,
    releaseBody, by simp [releases], frees⟩

/-- The functions that perform a dump, parse its elements unless the call does, and release it. -/
theorem exists_functions_dumpSource
    (described : Subject.ofOperation family operation .dump = .ok subject)
    (told : subject.reply = some layout)
    (done : dumpSource family operation = .ok declarations) :
    (∃ body, .function (callSignature operation subject) body ∈ declarations ∧
      Registers .dump (parserName subject true) (releaseName subject .reply) body) ∧
    (subject.sharesReply = false →
      ∃ body, .function (parserSignature subject true) body ∈ declarations ∧
        ParsesInto (layout.attributes family.toScope) (subject.structType .reply true) body) ∧
    ∃ body, .function (releaseSignature subject .reply) body ∈ declarations ∧
      ReleasesReply (layout.attributes family.toScope) (subject.structType .reply false) .dump
        body := by
  have message := isMessage_reply (Subject.describes_of_ofOperation described) told
  simp only [dumpSource, described, bind_eq_ok_iff, pure_eq_ok_iff, Except.ok.injEq,
    exists_eq_left'] at done
  obtain ⟨parser, parsed, list, released, dumps, dumped, rfl⟩ := done
  obtain ⟨performer, performs, registers⟩ := exists_dump dumped
  obtain ⟨releaseBody, releases, frees⟩ := exists_releaseList released told
  refine ⟨⟨performer, by simp [performs], registers⟩, fun apart => ?_,
    releaseBody, by simp [releases], frees⟩
  rw [whenever_eq_ok_iff, apart, Bool.not_false, if_pos rfl] at parsed
  obtain ⟨parserBody, parses, into⟩ := exists_replyParser parsed told message
  exact ⟨parserBody, by simp [parses], into⟩

/-- A call that is answered is served by its own functions. -/
theorem servesReply_call (settled : operation.Settled family.name)
    (described : Subject.ofOperation family operation .call = .ok subject)
    (told : subject.reply = some layout)
    (distinguishes : Distinguishes part shown)
    (done : callSource family operation = .ok declarations)
    (within : ∀ declaration ∈ declarations, declaration ∈ part) :
    ServesReply operation .call (layout.attributes family.toScope) part shown := by
  have describes := Subject.describes_of_ofOperation described
  have stem : subject.stem .reply false = elementStem operation .call :=
    replyStem_eq describes settled (.inl rfl)
  obtain ⟨⟨performer, performs, registers⟩, ⟨parserBody, parses, into⟩, releaseBody, releases,
    frees⟩ := exists_functions_callSource described told done
  rw [releaseSignature_eq describes settled (.inl rfl)] at releases
  rw [parserSignature, parserName, stem] at parses
  rw [Subject.structType, stem] at into
  rw [Subject.structType, replyStem_eq describes settled (.inl rfl)] at frees
  rw [parserName, stem, releaseName, replyStem_eq describes settled (.inl rfl)] at registers
  exact {
    performer := ⟨_, performer, name_callSignature describes,
      distinguishes.implements (within _ performs), registers⟩
    parser := ⟨parserBody, distinguishes.implements (within _ parses), into⟩
    release := ⟨releaseBody, distinguishes.implements (within _ releases), frees⟩ }

/-- A dump is served by a parser of its own, or by that of the call if both have one reply. -/
theorem servesReply_dump (settled : operation.Settled family.name)
    (described : Subject.ofOperation family operation .dump = .ok subject)
    (told : subject.reply = some layout)
    (distinguishes : Distinguishes part shown)
    (done : dumpSource family operation = .ok declarations)
    (within : ∀ declaration ∈ declarations, declaration ∈ part)
    (shared : Subject.sharedReply operation .dump = true →
      ServesReply operation .call (layout.attributes family.toScope) part shown) :
    ServesReply operation .dump (layout.attributes family.toScope) part shown := by
  have describes := Subject.describes_of_ofOperation described
  have whole := replyStem_eq describes settled (.inr rfl)
  have element := elementStem_eq describes settled (.inr rfl)
  obtain ⟨⟨performer, performs, registers⟩, own, releaseBody, releases, frees⟩ :=
    exists_functions_dumpSource described told done
  have parser : ∃ body, Implements part shown (elementParser operation .dump) body ∧
      ParsesInto (layout.attributes family.toScope) ("struct " ++ elementStem operation .dump) body := by
    cases shares : Subject.sharedReply operation .dump with
    | true =>
        rw [elementParser, elementStem_of_sharedReply shares]
        exact (shared shares).parser
    | false =>
        obtain ⟨parserBody, parses, into⟩ := own (describes.sharesReply.trans shares)
        rw [parserSignature_eq describes settled (.inr rfl)] at parses
        rw [Subject.structType, element] at into
        exact ⟨parserBody, distinguishes.implements (within _ parses), into⟩
  rw [releaseSignature_eq describes settled (.inr rfl)] at releases
  rw [Subject.structType, whole] at frees
  rw [parserName, element, releaseName, whole] at registers
  exact {
    performer := ⟨_, performer, name_callSignature describes,
      distinguishes.implements (within _ performs), registers⟩
    parser
    release := ⟨releaseBody, distinguishes.implements (within _ releases), frees⟩ }

end Serving

section Types

/-- A dump wraps its replies in the type of the list. -/
theorem structures_wrapper_dump (describes : subject.Describes family operation .dump)
    (settled : operation.Settled family.name) :
    structures (wrapper subject) = [listType operation] := by
  have whole := replyStem_eq describes settled (.inr rfl)
  have element := elementStem_eq describes settled (.inr rfl)
  simp [wrapper, wrapperFields, describes.inMode, Subject.structType, whole, element, listType,
    structure?]

/-- The structure of the elements of a reply is the one that its layout has. -/
theorem exists_element_of_typesOf (describes : subject.Describes family operation mode)
    (settled : operation.Settled family.name) (asked : mode = .call ∨ mode = .dump)
    (told : subject.reply = some layout) {type? : Option StructureType}
    (made : TypesOf family subject .reply type?) :
    ∃ type, type? = some type ∧
      structureOf family ("struct " ++ elementStem operation mode) layout = .ok type := by
  simp only [TypesOf, Subject.layout?, told, Option.mapM_some, Functor.map, map_eq_ok_iff,
    Subject.structType, elementStem_eq describes settled asked] at made
  obtain ⟨type, made, rfl⟩ := made
  exact ⟨type, rfl, made⟩

/-- The header of a call with a reply prints the type of the reply. -/
theorem replyTypes_call (settled : operation.Settled family.name)
    (described : Subject.ofOperation family operation .call = .ok subject)
    (told : subject.reply = some layout) (called : isCalled operation = true)
    (declares : header family = .ok declarations) (listed : operation ∈ family.operations) :
    ReplyTypes family operation .call declarations layout := by
  obtain ⟨call, _, _, calling, _, _, inHeader⟩ := Family.exists_operationHeader declares listed
  rw [whenever_eq_ok_iff, if_pos called] at calling
  obtain ⟨_, reply?, _, ofReply, only⟩ := structures_callHeader described calling
  obtain ⟨type, rfl, made⟩ := exists_element_of_typesOf
    (Subject.describes_of_ofOperation described) settled (.inl rfl) told ofReply
  refine ⟨⟨type, inHeader type ?_, made⟩, fun other => by cases other⟩
  simp [only]

/-- The header of a dump prints the type of the list, and that of the reply unless the call has it.
-/
theorem replyTypes_dump (settled : operation.Settled family.name)
    (described : Subject.ofOperation family operation .dump = .ok subject)
    (told : subject.reply = some layout) (dumps : operation.dumpMode.isSome = true)
    (declares : header family = .ok declarations) (listed : operation ∈ family.operations)
    (shared : Subject.sharedReply operation .dump = true →
      ReplyTypes family operation .call declarations layout) :
    ReplyTypes family operation .dump declarations layout := by
  have describes := Subject.describes_of_ofOperation described
  obtain ⟨_, dump, _, _, dumped, _, inHeader⟩ := Family.exists_operationHeader declares listed
  rw [whenever_eq_ok_iff, if_pos dumps] at dumped
  obtain ⟨_, reply?, _, ofReply, only⟩ := structures_dumpHeader described dumped
  rw [structures_wrapper_dump describes settled] at only
  refine ⟨?_, fun _ => inHeader _ (by simp [only])⟩
  cases shares : Subject.sharedReply operation .dump with
  | true =>
      rw [elementStem_of_sharedReply shares]
      exact (shared shares).element
  | false =>
      rw [describes.sharesReply.trans shares, if_neg Bool.false_ne_true] at ofReply
      obtain ⟨type, rfl, made⟩ :=
        exists_element_of_typesOf describes settled (.inr rfl) told ofReply
      exact ⟨type, inHeader type (by simp [only]), made⟩

/-- The lines of an entry of a list. -/
theorem lines_listType (operation : Operation) :
    (Declaration.structure (listType operation)).lines = listLines operation := by
  have named : "struct " ++ replyStem operation .dump ≠ "" := by simp
  have fields : (listType operation).fields.map (fun field => "\t" ++ field.text) =
      ["\tstruct " ++ replyStem operation .dump ++ " *next;",
        "\tstruct " ++ elementStem operation .dump ++ " obj __attribute__ ((aligned (8)));"] := by
    have texts : Function.Injective String.toList := fun _ _ same => String.toList_injective same
    apply List.map_injective_iff.2 texts
    simp [listType, C.Field.text]
  obtain ⟨_, _, whole⟩ := exists_lines_structure (listType operation) named
  rw [whole, fields]
  rfl

/-- The structures of a reply stand in the text of the header, with the fields of its members. -/
theorem ReplyTypes.declaresReply (types : ReplyTypes family operation mode declarations layout)
    (settled : ∀ declaration ∈ declarations, declaration.IsSettled)
    (message : layout.IsMessage family.toScope) :
    DeclaresReply operation mode (layout.attributes family.toScope) (printed declarations) where
  element := by
    obtain ⟨type, listed, made⟩ := types.element
    have named : "struct " ++ elementStem operation mode ≠ "" := by simp
    have follow := follow_structures fun declaration member =>
      stands_of_isSettled (settled declaration member)
    exact ⟨_, follow.infix (List.mem_map_of_mem listed),
      printsStructure_of_structureOf made message named⟩
  list dumps := by
    have follow := follow_structures fun declaration member =>
      stands_of_isSettled (settled declaration member)
    rw [← lines_listType]
    exact follow.infix (List.mem_map_of_mem (types.list dumps))

end Types

end Library

namespace Family

open Declaration Library Outcome

variable {file : Spec.File} {excludes : List Pattern} {family : Family} {operation : Operation}
  {definitions : List Declaration}

/-- A call with a reply is served by its own functions, for the members of its layout. -/
theorem exists_serves_call (selected : family.IsSelected operation)
    (listed : operation ∈ family.operations) (replies : operation.hasReply .call = true)
    {part : List Declaration} {shown : List String}
    (defined : operationSource family operation = .ok part)
    (distinguishes : Distinguishes part shown) :
    ∃ subject layout, Subject.ofOperation family operation .call = .ok subject ∧
      subject.reply = some layout ∧
      ServesReply operation .call (layout.attributes family.toScope) part shown ∧
      ∀ declarations, header family = .ok declarations →
        ReplyTypes family operation .call declarations layout := by
  have called := isCalled_of_hasReply selected replies
  simp only [operationSource, bind_eq_ok_iff, pure_eq_ok_iff] at defined
  obtain ⟨call, calling, dump, _, notify, _, rfl⟩ := defined
  rw [whenever_eq_ok_iff, if_pos called] at calling
  obtain ⟨subject, described, _⟩ := bind_eq_ok_iff.1 calling
  obtain ⟨layout, told⟩ := Option.isSome_iff_exists.1
    ((Subject.describes_of_ofOperation described).isSome_reply.trans replies)
  refine ⟨subject, layout, described, told, ?_, fun declarations declares => ?_⟩
  · exact servesReply_call selected.settled described told distinguishes calling
      fun declaration member => by simp [member]
  · exact replyTypes_call selected.settled described told called declares listed

/-- A dump has a reply wherever the source is made, and may share all that serves that of the
call. -/
theorem exists_serves_dump (selected : family.IsSelected operation)
    (listed : operation ∈ family.operations) (dumps : operation.dumpMode.isSome = true)
    {part : List Declaration} {shown : List String}
    (defined : operationSource family operation = .ok part)
    (distinguishes : Distinguishes part shown) :
    ∃ subject layout, Subject.ofOperation family operation .dump = .ok subject ∧
      subject.reply = some layout ∧
      ServesReply operation .dump (layout.attributes family.toScope) part shown ∧
      ∀ declarations, header family = .ok declarations →
        ReplyTypes family operation .dump declarations layout := by
  have parts := defined
  simp only [operationSource, bind_eq_ok_iff, pure_eq_ok_iff] at parts
  obtain ⟨_, _, dump, dumped, _, _, whole⟩ := parts
  rw [whenever_eq_ok_iff, if_pos dumps] at dumped
  have within : ∀ declaration ∈ dump, declaration ∈ part := fun declaration member => by
    simp [← whole, member]
  obtain ⟨subject, described, made⟩ := bind_eq_ok_iff.1 dumped
  have describes := Subject.describes_of_ofOperation described
  have replies : subject.reply.isSome = true := by
    simp only [bind_eq_ok_iff] at made
    obtain ⟨_, _, _, _, _, performed, _⟩ := made
    exact (defines_dump performed).1
  obtain ⟨layout, told⟩ := Option.isSome_iff_exists.1 replies
  -- What serves the call is for the same layout, since the replies are equal.
  have shared (shares : Subject.sharedReply operation .dump = true) :
      ServesReply operation .call (layout.attributes family.toScope) part shown ∧
        ∀ declarations, header family = .ok declarations →
          ReplyTypes family operation .call declarations layout := by
    obtain ⟨call, other, ofCall, toldToo, serves, declares⟩ := exists_serves_call selected listed
      (hasReply_of_sharedReply dumps (describes.isSome_reply.symm.trans replies) shares) defined
      distinguishes
    have same := reply_eq_of_sharedReply (Subject.describes_of_ofOperation ofCall) describes dumps
      shares
    obtain rfl : other = layout := Option.some.inj (toldToo.symm.trans (same.trans told))
    exact ⟨serves, declares⟩
  refine ⟨subject, layout, described, told, ?_, fun declarations declares => ?_⟩
  · exact servesReply_dump selected.settled described told distinguishes dumped within
      fun shares => (shared shares).1
  · exact replyTypes_dump selected.settled described told dumps declares listed fun shares =>
      (shared shares).2 declarations declares

/-- Of a selected operation, the call with a reply and the dump store the parser and call the
release that the source defines for this operation. Both are for the attributes that the mode
replies, and so are the structures of the header. -/
theorem exists_servesReply (built : ofSpec file excludes = .ok family)
    (defines : source family = .ok definitions) (listed : operation ∈ family.operations)
    {mode : OperationMode} (answered : mode = .call ∧ operation.hasReply .call = true ∨
      mode = .dump ∧ operation.dumpMode.isSome = true) :
    ∃ part attrs shown, operationSource family operation = .ok part ∧
      (∀ declaration ∈ part, declaration ∈ definitions) ∧
      render definitions = String.join (shown.map (· ++ "\n")) ∧
      Replies family operation mode attrs ∧ ServesReply operation mode attrs part shown ∧
      ∀ declarations, header family = .ok declarations →
        ∃ headerLines, render declarations = String.join (headerLines.map (· ++ "\n")) ∧
          DeclaresReply operation mode attrs headerLines := by
  have selected := isSelected_of_mem built listed
  obtain ⟨_, operations, _, _, _, made, _, _, inSource, _⟩ := parts_of_source defines
  obtain ⟨part, defined, fromPart⟩ := exists_part_of_each made listed
  have within : ∀ declaration ∈ part, declaration ∈ definitions := fun declaration member =>
    inSource _ (.inr (.inl (fromPart _ member)))
  have distinguishes : Distinguishes part (printed definitions) :=
    ⟨nodup_operationSource selected.settled defined, fun signature body member =>
      exists_printed_function (isSettled_source defines) (within _ member)⟩
  obtain ⟨subject, layout, described, told, serves, types⟩ : ∃ subject layout,
      Subject.ofOperation family operation mode = .ok subject ∧ subject.reply = some layout ∧
      ServesReply operation mode (layout.attributes family.toScope) part (printed definitions) ∧
      ∀ declarations, header family = .ok declarations →
        ReplyTypes family operation mode declarations layout := by
    rcases answered with ⟨rfl, replies⟩ | ⟨rfl, dumps⟩
    · exact exists_serves_call selected listed replies defined distinguishes
    · exact exists_serves_dump selected listed dumps defined distinguishes
  have describes := Subject.describes_of_ofOperation described
  have message := isMessage_reply describes told
  exact ⟨part, _, _, defined, within, render_eq definitions, replies_attributes describes told,
    serves, fun declarations declares => ⟨_, render_eq declarations,
      (types declarations declares).declaresReply (isSettled_header built declares) message⟩⟩

/-- An operation that replies more to a dump than to a call. -/
def detailed : Spec.File where
  license := Spec.acceptedLicense
  family :=
    { name := "f"
      attributeSets :=
        [{ name := "dev"
           attributes := [{ name := "x", kind := some "u8" }, { name := "y", kind := some "u8" }] }]
      operations :=
        { list :=
            [{ name := "get"
               attributeSet := some "dev"
               doMode := some { reply := some { attributes := ["x"] } }
               dumpMode := some { reply := some { attributes := ["y", "x"] } } }] } }

theorem isSome_ofSpec_detailed : (ofSpec detailed []).toOption.isSome = true := by decide +kernel

/-- The family whose operation replies more to a dump than to a call. -/
def detailedFamily : Family :=
  (ofSpec detailed []).toOption.get isSome_ofSpec_detailed

theorem isSome_source_detailed : (source detailedFamily).toOption.isSome = true := by
  decide +kernel

/-- The dump is served by a parser of its own, for two attributes. -/
theorem exists_servesReply_detailed :
    ∃ definitions, ∃ operation ∈ detailedFamily.operations,
      ofSpec detailed [] = .ok detailedFamily ∧ source detailedFamily = .ok definitions ∧
      operation.dumpMode.isSome = true ∧
      (elementParser operation .dump).name = "f_get_rsp_dump_parse" ∧
      operation.replyAttributes .dump = some ["y", "x"] ∧
      ∃ part attrs shown, operationSource detailedFamily operation = .ok part ∧
        (∀ declaration ∈ part, declaration ∈ definitions) ∧
        render definitions = String.join (shown.map (· ++ "\n")) ∧
        Replies detailedFamily operation .dump attrs ∧
        ServesReply operation .dump attrs part shown ∧
        ∀ declarations, header detailedFamily = .ok declarations →
          ∃ headerLines, render declarations = String.join (headerLines.map (· ++ "\n")) ∧
            DeclaresReply operation .dump attrs headerLines := by
  have built : ofSpec detailed [] = .ok detailedFamily := eq_ok_get isSome_ofSpec_detailed
  have defines := eq_ok_get isSome_source_detailed
  have listed : detailedFamily.operations.headI ∈ detailedFamily.operations := by decide +kernel
  have dumps : detailedFamily.operations.headI.dumpMode.isSome = true := by decide +kernel
  exact ⟨_, _, listed, built, defines, dumps, by decide +kernel, by decide +kernel,
    exists_servesReply built defines listed (.inr ⟨rfl, dumps⟩)⟩

end Family

end NetlinkFamily
