import NetlinkFamily.Output.Library.Files
import NetlinkFamily.Proofs.Outcome

namespace NetlinkFamily

namespace Layout

open Outcome

variable {scope : Scope} {layout : Layout}

/-- A layout of a list has the set it is of, the name the set renders to and the members listed. -/
theorem ofList_eq {space : String} {members : List String}
    (made : ofList scope space members = .ok layout) :
    layout.space = space ∧ layout.renderName = stem scope.name space ∧
      layout.members = members := by
  simp only [ofList, bind_eq_ok_iff, pure_eq_ok_iff] at made
  obtain ⟨_, _, _, _, rfl⟩ := made
  exact ⟨rfl, rfl, rfl⟩

/-- A message has a layout if attributes are listed for it. -/
theorem ofList_of_mapM {attributes : Option (List String)} {space : String}
    (made : attributes.mapM (ofList scope space) = .ok (some layout)) :
    ∃ members, attributes = some members ∧ ofList scope space members = .ok layout := by
  cases attributes with
  | none =>
      rw [Option.mapM_none, pure_eq_ok_iff] at made
      cases made
  | some members =>
      simp only [Option.mapM_some, Functor.map, map_eq_ok_iff, Option.some.injEq] at made
      obtain ⟨_, made, rfl⟩ := made
      exact ⟨members, rfl, made⟩

end Layout

namespace Subject

open Outcome

/-- What the subject of a mode of an operation says of it. -/
structure Describes (family : Family) (operation : Operation) (mode : OperationMode)
    (subject : Subject) : Prop where
  familyName : subject.familyName = family.name
  attrSet : operation.attrSet = some subject.attrSet
  inMode : subject.mode = some mode
  sharesReply : subject.sharesReply = sharedReply operation mode
  typeName : subject.typeName = CName.lower operation.name
  clashes : subject.clashes = false
  request : (operation.requestAttributes mode).mapM
    (Layout.ofList family.toScope subject.attrSet) = .ok subject.request
  reply : (operation.replyAttributes mode).mapM
    (Layout.ofList family.toScope subject.attrSet) = .ok subject.reply

variable {family : Family} {operation : Operation} {mode : OperationMode} {subject : Subject}

/-- The subject made for an operation in a mode describes that operation in that mode. -/
theorem describes_of_ofOperation (done : ofOperation family operation mode = .ok subject) :
    Describes family operation mode subject := by
  unfold ofOperation at done
  split at done
  · cases done
  · rename_i set given
    simp only [bind_eq_ok_iff, pure_eq_ok_iff] at done
    obtain ⟨request, asked, reply, told, rfl⟩ := done
    exact ⟨rfl, given, rfl, rfl, rfl, rfl, asked, told⟩

/-- A subject has a request layout exactly when its operation has a request in the mode. -/
theorem Describes.isSome_request (describes : Describes family operation mode subject) :
    subject.request.isSome = operation.hasRequest mode :=
  isSome_of_mapM describes.request

/-- A subject has a reply layout exactly when its operation has a reply in the mode. -/
theorem Describes.isSome_reply (describes : Describes family operation mode subject) :
    subject.reply.isSome = operation.hasReply mode :=
  isSome_of_mapM describes.reply

/-- The layout of a message is one of the set of the operation, and named after it. -/
theorem Describes.layout (describes : Describes family operation mode subject) (part : Part)
    {layout : Layout} (told : subject.layout? part = some layout) :
    layout.space = subject.attrSet ∧
      layout.renderName = Layout.stem family.name subject.attrSet := by
  have ofList {attributes : Option (List String)} {layout? : Option Layout}
      (made : attributes.mapM (Layout.ofList family.toScope subject.attrSet) = .ok layout?)
      (same : layout? = some layout) :
      layout.space = subject.attrSet ∧
        layout.renderName = Layout.stem family.name subject.attrSet := by
    obtain ⟨_, _, made⟩ := Layout.ofList_of_mapM (same ▸ made)
    obtain ⟨space, renderName, _⟩ := Layout.ofList_eq made
    exact ⟨space, renderName⟩
  cases part with
  | request => exact ofList describes.request told
  | reply => exact ofList describes.reply told
  | nest => cases told

/-- The layout of a reply lists what the operation replies. -/
theorem Describes.replyAttributes (describes : Describes family operation mode subject)
    {layout : Layout} (told : subject.reply = some layout) :
    operation.replyAttributes mode = some layout.members := by
  obtain ⟨members, listed, made⟩ := Layout.ofList_of_mapM (told ▸ describes.reply)
  rw [listed, (Layout.ofList_eq made).2.2]

end Subject

namespace Declaration

/-- A function that is declared without its body. -/
def prototype? : Declaration → Option C.Signature
  | .prototype _ signature => some signature
  | _ => none

/-- The signature of the function a declaration defines. -/
def function? : Declaration → Option C.Signature
  | .function signature _ => some signature
  | _ => none

/-- The policy table a declaration is. -/
def policy? : Declaration → Option PolicyTable
  | .policy table => some table
  | _ => none

/-- The table of operations a declaration is. -/
def operations? : Declaration → Option OperationTable
  | .operations table => some table
  | _ => none

/-- The entries of the table of notifications a declaration is. -/
def notifications? : Declaration → Option (List NotificationEntry)
  | .notifications _ entries => some entries
  | _ => none

/-- The prototypes among declarations, in order. -/
def prototypes (declarations : List Declaration) : List C.Signature :=
  declarations.filterMap prototype?

/-- The policies of the kernel among declarations, in order. -/
def policies (declarations : List Declaration) : List PolicyTable :=
  declarations.filterMap policy?

/-- The functions that are defined, in order. -/
def functions (declarations : List Declaration) : List C.Signature :=
  declarations.filterMap function?

/-- Prototypes of two lists are those of the first and then those of the second. -/
@[simp] theorem prototypes_append (first second : List Declaration) :
    prototypes (first ++ second) = prototypes first ++ prototypes second :=
  List.filterMap_append

/-- Functions of two lists are those of the first and then those of the second. -/
@[simp] theorem functions_append (first second : List Declaration) :
    functions (first ++ second) = functions first ++ functions second :=
  List.filterMap_append

/-- No declarations have no prototypes. -/
@[simp] theorem prototypes_nil : prototypes [] = [] := rfl

/-- Prototypes of a list are that of its head, if any, before those of its tail. -/
@[simp] theorem prototypes_cons (first : Declaration) (rest : List Declaration) :
    prototypes (first :: rest) = (prototype? first).toList ++ prototypes rest := by
  rw [prototypes, List.filterMap_cons]
  cases prototype? first <;> rfl

/-- Functions of a list are that of its head, if any, before those of its tail. -/
@[simp] theorem functions_cons (first : Declaration) (rest : List Declaration) :
    functions (first :: rest) = (function? first).toList ++ functions rest := by
  rw [functions, List.filterMap_cons]
  cases function? first <;> rfl

/-- Whether a declaration is a table that attributes, messages or operations are looked up in. -/
def isTable : Declaration → Bool
  | .policy _ | .validation _ | .notifications _ _ | .operations _ => true
  | _ => false

/-- A declaration that is no table is no policy table. -/
theorem policy?_of_plain {declaration : Declaration} (plain : declaration.isTable = false) :
    declaration.policy? = none := by
  cases declaration with
  | policy => cases plain
  | _ => rfl

/-- A declaration that is no table is no table of operations. -/
theorem operations?_of_plain {declaration : Declaration} (plain : declaration.isTable = false) :
    declaration.operations? = none := by
  cases declaration with
  | operations => cases plain
  | _ => rfl

/-- A declaration that is no table is no table of notifications. -/
theorem notifications?_of_plain {declaration : Declaration} (plain : declaration.isTable = false) :
    declaration.notifications? = none := by
  cases declaration with
  | notifications => cases plain
  | _ => rfl

/-- Declarations that define functions of these signatures, in order, and hold no tables. -/
structure Defines (signatures : List C.Signature) (declarations : List Declaration) : Prop where
  functions : functions declarations = signatures
  plain : ∀ declaration ∈ declarations, declaration.isTable = false

namespace Defines

variable {signatures more : List C.Signature} {declarations others : List Declaration}

/-- No declarations define no function. -/
theorem nil : Defines [] [] where
  functions := rfl
  plain := by simp

/-- What is neither a function nor a table changes nothing. -/
theorem cons {first : Declaration} (silent : first.function? = none)
    (plain : first.isTable = false) (rest : Defines signatures declarations) :
    Defines signatures (first :: declarations) where
  functions := by rw [functions_cons, silent, rest.functions]; rfl
  plain := List.forall_mem_cons.2 ⟨plain, rest.plain⟩

/-- A blank line defines no function. -/
theorem space : Defines [] [.space] :=
  .cons rfl rfl .nil

/-- A function and the blank line behind it define its signature. -/
theorem function (signature : C.Signature) (body : List C.Code) :
    Defines [signature] [.function signature body, .space] where
  functions := rfl
  plain := by simp [isTable]

/-- What two lists define stands in the order of the lists. -/
theorem append (first : Defines signatures declarations) (second : Defines more others) :
    Defines (signatures ++ more) (declarations ++ others) where
  functions := by rw [functions_append, first.functions, second.functions]
  plain := List.forall_mem_append.2 ⟨first.plain, second.plain⟩

end Defines

end Declaration

namespace Library

open Declaration Outcome

variable {family : Family} {operation : Operation} {subject : Subject}
  {declarations : List Declaration}

/-- What is made of each item is a list of parts, one for every item in their order. -/
theorem each_eq_ok_iff {A : Type} {items : List A} {f : A → Except ModelError (List Declaration)} :
    each items f = .ok declarations ↔
      ∃ parts, List.Forall₂ (fun item part => f item = .ok part) items parts ∧
        parts.flatten = declarations := by
  unfold each
  simp only [map_eq_ok_iff, mapM_eq_ok_iff]

/-- What each item lists makes up what all of them list. -/
theorem filterMap_each {A B : Type} {items : List A}
    {f : A → Except ModelError (List Declaration)} (done : each items f = .ok declarations)
    {select : Declaration → Option B} {listed : A → List B}
    (step : ∀ item ∈ items, ∀ part, f item = .ok part → part.filterMap select = listed item) :
    declarations.filterMap select = items.flatMap listed := by
  obtain ⟨parts, made, rfl⟩ := each_eq_ok_iff.1 done
  clear done
  induction made with
  | nil => rfl
  | @cons item part items parts here _ ih =>
      rw [List.flatten_cons, List.filterMap_append, List.flatMap_cons,
        step item List.mem_cons_self part here,
        ih fun other member => step other (List.mem_cons_of_mem _ member)]

/-- If no item lists anything, all of them list nothing. -/
theorem filterMap_each_eq_nil {A B : Type} {items : List A}
    {f : A → Except ModelError (List Declaration)} (done : each items f = .ok declarations)
    {select : Declaration → Option B}
    (step : ∀ item ∈ items, ∀ part, f item = .ok part → part.filterMap select = []) :
    declarations.filterMap select = [] := by
  rw [filterMap_each done step]
  exact List.flatMap_eq_nil_iff.2 fun _ _ => rfl

/-- What all items declare is declared by some item. -/
theorem exists_item_of_each {A : Type} {items : List A}
    {f : A → Except ModelError (List Declaration)} (done : each items f = .ok declarations)
    {declaration : Declaration} (listed : declaration ∈ declarations) :
    ∃ item ∈ items, ∃ part, f item = .ok part ∧ declaration ∈ part := by
  obtain ⟨parts, made, rfl⟩ := each_eq_ok_iff.1 done
  obtain ⟨part, among, inside⟩ := List.mem_flatten.1 listed
  obtain ⟨item, member, done⟩ := exists_of_forall₂ made part among
  exact ⟨item, member, part, done, inside⟩

/-- The part of an item is among the parts of all. -/
theorem exists_part_of_each {A : Type} {items : List A}
    {f : A → Except ModelError (List Declaration)} (done : each items f = .ok declarations)
    {item : A} (listed : item ∈ items) :
    ∃ part, f item = .ok part ∧ ∀ declaration ∈ part, declaration ∈ declarations := by
  obtain ⟨parts, made, rfl⟩ := each_eq_ok_iff.1 done
  clear done
  induction made with
  | nil => cases listed
  | @cons first part items parts here _ ih =>
      rw [List.flatten_cons]
      rcases List.mem_cons.1 listed with rfl | later
      · exact ⟨part, here, fun _ => List.mem_append_left _⟩
      · obtain ⟨other, made, inside⟩ := ih later
        exact ⟨other, made, fun declaration member =>
          List.mem_append_right _ (inside declaration member)⟩

/-- What is made under a condition is the body where it holds and nothing where it does not. -/
theorem whenever_eq_ok_iff {condition : Bool} {body : Except ModelError (List Declaration)} :
    whenever condition body = .ok declarations ↔
      if condition then body = .ok declarations else declarations = [] := by
  unfold whenever
  cases condition <;> simp [eq_comm]

/-- The function that releases a part, if the subject has it. -/
def releases (subject : Subject) (part : Part) : List C.Signature :=
  if (subject.layout? part).isSome then [releaseSignature subject part] else []

/-- A request is released where the subject has one. -/
theorem releases_request (subject : Subject) :
    releases subject .request =
      if subject.request.isSome then [releaseSignature subject .request] else [] := rfl

/-- A reply is released where the subject has one. -/
theorem releases_reply (subject : Subject) :
    releases subject .reply =
      if subject.reply.isSome then [releaseSignature subject .reply] else [] := rfl

/-- A subject with a reply releases it. -/
theorem mem_releases (told : subject.reply.isSome = true) :
    releaseSignature subject .reply ∈ releases subject .reply := by
  rw [releases_reply, if_pos told]
  exact List.mem_singleton_self _

section Header

/-- A blank line declares no function. -/
@[simp] theorem prototype?_space : prototype? .space = none := rfl

/-- A prototype declares its own signature. -/
@[simp] theorem prototype?_prototype (doc : Option String) (signature : C.Signature) :
    prototype? (.prototype doc signature) = some signature := rfl

/-- A comment declares no function. -/
@[simp] theorem prototype?_comment (text : String) : prototype? (.comment text) = none := rfl

/-- The comment over an operation declares no function. -/
@[simp] theorem prototype?_banner : prototype? (banner operation) = none := rfl

/-- The comment over a mode declares no function. -/
@[simp] theorem prototype?_modeComment (mode : OperationMode) :
    prototype? (modeComment operation mode) = none := rfl

/-- A type is no prototype. -/
theorem prototypes_messageType {part : Part} {layout : Layout}
    (done : messageType family subject part layout = .ok declarations) :
    prototypes declarations = [] := by
  simp only [messageType, bind_eq_ok_iff, pure_eq_ok_iff] at done
  obtain ⟨_, _, rfl⟩ := done
  rfl

/-- The functions that set the members of a request are defined in the header. -/
theorem prototypes_setters {layout : Layout}
    (done : setters family subject layout = .ok declarations) : prototypes declarations = [] := by
  simp only [setters, bind_eq_ok_iff, pure_eq_ok_iff] at done
  obtain ⟨functions, _, rfl⟩ := done
  simp [prototypes, List.filterMap_map, Function.comp_def, prototype?]

/-- A request's type comes with the prototype of its release. -/
theorem prototypes_requestType (done : requestType family subject = .ok declarations) :
    prototypes declarations = releases subject .request := by
  unfold requestType at done
  cases asked : subject.request with
  | none =>
      rw [asked, Except.ok.injEq] at done
      rw [← done, releases_request, asked]
      rfl
  | some layout =>
      simp only [asked, bind_eq_ok_iff, pure_eq_ok_iff] at done
      obtain ⟨type, typed, setters, set, rfl⟩ := done
      rw [releases_request, asked]
      simp only [prototypes_append, prototypes_messageType typed, prototypes_setters set]
      rfl

/-- A reply's type comes with no prototype. -/
theorem prototypes_replyType (done : replyType family subject = .ok declarations) :
    prototypes declarations = [] := by
  unfold replyType at done
  split at done
  · rw [← Except.ok.inj done]
    rfl
  · rw [← Except.ok.inj done]
    rfl
  · exact prototypes_messageType done

/-- A wrapped reply comes with the prototype of its release. -/
theorem prototypes_wrapper (subject : Subject) :
    prototypes (wrapper subject) = [releaseSignature subject .reply] := rfl

/-- The type of a nested set comes with no prototype. -/
theorem prototypes_nestType {layout : Layout} (done : nestType family layout = .ok declarations) :
    prototypes declarations = [] := by
  simp only [nestType, bind_eq_ok_iff, pure_eq_ok_iff] at done
  obtain ⟨_, _, rfl⟩ := done
  rfl

/-- The header of a call declares its releases and then the function that performs it. -/
theorem prototypes_callHeader (described : Subject.ofOperation family operation .call = .ok subject)
    (declares : callHeader family operation = .ok declarations) :
    prototypes declarations =
      releases subject .request ++ releases subject .reply ++
        [callSignature operation subject] := by
  simp only [callHeader, described, bind_eq_ok_iff, pure_eq_ok_iff, Except.ok.injEq,
    exists_eq_left'] at declares
  obtain ⟨request, asked, reply, told, rfl⟩ := declares
  have helpers : prototypes (if subject.reply.isSome then
      [.prototype none (releaseSignature subject .reply), .space, .space] else []) =
        releases subject .reply := by
    unfold releases
    split <;> simp_all [Subject.layout?]
  simp only [List.flatten_cons, List.flatten_nil, prototypes_append, prototypes_requestType asked,
    prototypes_replyType told, helpers]
  simp

/-- The header of a dump declares the release of its request, that of the list, and the dump. -/
theorem prototypes_dumpHeader (described : Subject.ofOperation family operation .dump = .ok subject)
    (declares : dumpHeader family operation = .ok declarations) :
    prototypes declarations =
      releases subject .request ++
        [releaseSignature subject .reply, callSignature operation subject] := by
  simp only [dumpHeader, described, bind_eq_ok_iff, pure_eq_ok_iff, Except.ok.injEq,
    exists_eq_left'] at declares
  obtain ⟨request, asked, reply, told, rfl⟩ := declares
  have silent : prototypes reply = [] := by
    rw [whenever_eq_ok_iff] at told
    split at told
    · exact prototypes_replyType told
    · rw [told, prototypes_nil]
  simp only [List.flatten_cons, List.flatten_nil, prototypes_append, prototypes_requestType asked,
    prototypes_wrapper, silent]
  simp

end Header

section Source

/-- A blank line defines no function. -/
@[simp] theorem function?_space : function? .space = none := rfl

/-- A comment defines no function. -/
@[simp] theorem function?_comment (text : String) : function? (.comment text) = none := rfl

/-- The comment over an operation defines no function. -/
@[simp] theorem function?_banner : function? (banner operation) = none := rfl

/-- What is made under a condition makes functions only if it does so when the condition holds. -/
theorem defines_whenever {condition : Bool} {body : Except ModelError (List Declaration)}
    (done : whenever condition body = .ok declarations)
    (made : body = .ok declarations → ∃ signatures, Defines signatures declarations) :
    ∃ signatures, Defines signatures declarations := by
  rw [whenever_eq_ok_iff] at done
  split at done
  · exact made done
  · exact ⟨[], done ▸ .nil⟩

/-- What is made for a release defines that release alone. -/
theorem defines_release {part : Part} {layout : Layout}
    (done : release family subject part layout = .ok declarations) :
    Defines [releaseSignature subject part] declarations := by
  simp only [release, bind_eq_ok_iff, pure_eq_ok_iff] at done
  obtain ⟨_, _, rfl⟩ := done
  exact .function _ _

/-- Releasing a part defines its release where the subject has the part. -/
theorem defines_releasePart {part : Part}
    (done : releasePart family subject part = .ok declarations) :
    Defines (releases subject part) declarations := by
  unfold releasePart at done
  rw [releases]
  cases held : subject.layout? part with
  | none =>
      rw [held, Except.ok.injEq] at done
      exact done ▸ .nil
  | some layout =>
      rw [held] at done
      exact defines_release done

/-- Releasing a list defines the release of the reply where there is one. -/
theorem defines_releaseList (done : releaseList family subject = .ok declarations) :
    Defines (releases subject .reply) declarations := by
  unfold releaseList at done
  rw [releases_reply]
  cases told : subject.reply with
  | none =>
      rw [told, Except.ok.injEq] at done
      exact done ▸ .nil
  | some layout =>
      simp only [told, bind_eq_ok_iff, pure_eq_ok_iff] at done
      obtain ⟨_, _, rfl⟩ := done
      exact .function _ _

/-- Releasing a notification defines the release of the reply where there is one. -/
theorem defines_releaseNotification
    (done : releaseNotification family subject = .ok declarations) :
    Defines (releases subject .reply) declarations := by
  unfold releaseNotification at done
  rw [releases_reply]
  cases told : subject.reply with
  | none =>
      rw [told, Except.ok.injEq] at done
      exact done ▸ .nil
  | some layout =>
      simp only [told, bind_eq_ok_iff, pure_eq_ok_iff] at done
      obtain ⟨_, _, rfl⟩ := done
      exact .function _ _

/-- The signature of the parser of a reply. -/
def parserSignature (subject : Subject) (element : Bool) : C.Signature :=
  { result := "int"
    name := parserName subject element
    parameters := ["const struct nlmsghdr *nlh", "void *data"] }

/-- The parser of a reply, if there is one. -/
def parsers (subject : Subject) (element : Bool) : List C.Signature :=
  if subject.reply.isSome then [parserSignature subject element] else []

/-- A subject with a reply has a parser for it. -/
theorem mem_parsers {element : Bool} (told : subject.reply.isSome = true) :
    parserSignature subject element ∈ parsers subject element := by
  rw [parsers, if_pos told]
  exact List.mem_singleton_self _

/-- What is made to parse a reply defines its parser where there is a reply. -/
theorem defines_replyParser {element : Bool}
    (done : replyParser family subject element = .ok declarations) :
    Defines (parsers subject element) declarations := by
  unfold replyParser at done
  rw [parsers]
  cases told : subject.reply with
  | none =>
      rw [told, Except.ok.injEq] at done
      exact done ▸ .nil
  | some layout =>
      simp only [told] at done
      split at done
      all_goals
        simp only [bind_eq_ok_iff, pure_eq_ok_iff] at done
        obtain ⟨_, _, rfl⟩ := done
        exact .function _ _

/-- What is made to perform a call defines the one function that does. -/
theorem defines_call (done : call family operation subject = .ok declarations) :
    Defines [callSignature operation subject] declarations := by
  simp only [call, bind_eq_ok_iff, pure_eq_ok_iff] at done
  obtain ⟨_, _, rfl⟩ := done
  exact ⟨rfl, by simp [isTable]⟩

/-- A dump is only defined for an operation that replies to it. -/
theorem defines_dump (done : dump family operation subject = .ok declarations) :
    subject.reply.isSome = true ∧ Defines [callSignature operation subject] declarations := by
  unfold dump at done
  cases told : subject.reply with
  | none => simp [told] at done
  | some layout =>
      simp only [told, bind_eq_ok_iff, pure_eq_ok_iff] at done
      obtain ⟨_, _, rfl⟩ := done
      exact ⟨rfl, rfl, by simp [isTable]⟩

/-- The table of operation names defines the function that reads it. -/
theorem defines_operationNames (family : Family) :
    Defines [operationNameSignature family] (operationNames family) :=
  .cons rfl rfl (.cons rfl rfl (.function _ _))

/-- The table of entry names defines the function that reads it. -/
theorem defines_entryNames (set : EnumSet) :
    Defines [entryNameSignature set] (entryNames set) :=
  .cons rfl rfl (.cons rfl rfl (.function _ _))

/-- The source of a call defines its releases, its parser and the function that performs it. -/
theorem defines_callSource (described : Subject.ofOperation family operation .call = .ok subject)
    (defines : callSource family operation = .ok declarations) :
    Defines
      (releases subject .request ++ releases subject .reply ++ parsers subject false ++
        [callSignature operation subject]) declarations := by
  simp only [callSource, described, bind_eq_ok_iff, pure_eq_ok_iff, Except.ok.injEq,
    exists_eq_left'] at defines
  obtain ⟨request, asked, reply, told, parser, parsed, calls, called, rfl⟩ := defines
  have parts := ((defines_releasePart asked).append (defines_releasePart told)).append
    (defines_replyParser parsed)
  have all := (parts.append (defines_call called)).append .space
  exact .cons rfl rfl (by simpa using all)

/-- The source of a dump ends with the release of the list and the dump. -/
theorem defines_dumpSource (described : Subject.ofOperation family operation .dump = .ok subject)
    (defines : dumpSource family operation = .ok declarations) :
    ∃ others, Defines
      (others ++ [releaseSignature subject .reply, callSignature operation subject])
      declarations := by
  simp only [dumpSource, described, bind_eq_ok_iff, pure_eq_ok_iff, Except.ok.injEq,
    exists_eq_left'] at defines
  obtain ⟨parser, parsed, list, released, dumps, dumped, rfl⟩ := defines
  obtain ⟨replies, called⟩ := defines_dump dumped
  have release := defines_releaseList released
  rw [releases_reply, if_pos replies] at release
  obtain ⟨others, first⟩ := defines_whenever parsed fun made => ⟨_, defines_replyParser made⟩
  have all := ((first.append release).append called).append .space
  exact ⟨others, .cons rfl rfl (by simpa using all)⟩

/-- A notification is released as the subject says that its checks let through. -/
theorem notification_eq_ok_iff :
    notification family operation = .ok subject ↔
      Subject.ofOperation family operation .notify = .ok subject ∧ subject.sharesReply = true := by
  simp only [notification, bind_eq_ok_iff]
  constructor
  · rintro ⟨other, described, told⟩
    split at told
    · rename_i shares
      rw [pure_eq_ok_iff] at told
      exact told ▸ ⟨described, shares⟩
    · cases told
  · rintro ⟨described, shares⟩
    exact ⟨subject, described, by rw [if_pos shares]; rfl⟩

/-- The source of a notification defines the release of what it carries. -/
theorem defines_notificationSource (told : notification family operation = .ok subject)
    (defines : notificationSource family operation = .ok declarations) :
    Defines (releases subject .reply) declarations := by
  simp only [notificationSource, told, bind_eq_ok_iff, pure_eq_ok_iff, Except.ok.injEq,
    exists_eq_left'] at defines
  obtain ⟨release, released, rfl⟩ := defines
  exact .cons rfl rfl (defines_releaseNotification released)

/-- The source of an event defines the parser of the call and the release of the event. -/
theorem defines_eventSource {call event : Subject}
    (called : Subject.ofOperation family operation .call = .ok call)
    (described : Subject.ofOperation family operation .event = .ok event)
    (defines : eventSource family operation = .ok declarations) :
    Defines (parsers call false ++ releases event .reply) declarations := by
  simp only [eventSource, called, described, bind_eq_ok_iff, pure_eq_ok_iff, Except.ok.injEq,
    exists_eq_left'] at defines
  obtain ⟨parser, parsed, release, released, rfl⟩ := defines
  exact .cons rfl rfl ((defines_replyParser parsed).append (defines_releaseNotification released))

/-- The source of an operation is made of functions only. -/
theorem defines_operationSource (defines : operationSource family operation = .ok declarations) :
    ∃ signatures, Defines signatures declarations := by
  simp only [operationSource, bind_eq_ok_iff, pure_eq_ok_iff] at defines
  obtain ⟨call, called, dump, dumped, notify, told, rfl⟩ := defines
  obtain ⟨ofCall, first⟩ := defines_whenever called fun made => by
    obtain ⟨subject, described, _⟩ := bind_eq_ok_iff.1 made
    exact ⟨_, defines_callSource described made⟩
  obtain ⟨ofDump, second⟩ := defines_whenever dumped fun made => by
    obtain ⟨subject, described, _⟩ := bind_eq_ok_iff.1 made
    obtain ⟨others, defined⟩ := defines_dumpSource described made
    exact ⟨_, defined⟩
  obtain ⟨ofNotification, third⟩ := defines_whenever told fun made => by
    obtain ⟨subject, described, _⟩ := bind_eq_ok_iff.1 made
    exact ⟨_, defines_notificationSource described made⟩
  exact ⟨_, .cons rfl rfl ((first.append second).append third)⟩

/-- A set that is nested in others has functions only. -/
theorem defines_nestSource {entry : String × Layout}
    (defines : nestSource family entry = .ok declarations) :
    ∃ signatures, Defines signatures declarations := by
  simp only [nestSource, bind_eq_ok_iff, pure_eq_ok_iff] at defines
  obtain ⟨release, released, put, putting, parser, parsing, rfl⟩ := defines
  obtain ⟨ofPut, second⟩ := defines_whenever putting fun made => by
    simp only [putNest, bind_eq_ok_iff, pure_eq_ok_iff] at made
    obtain ⟨_, _, rfl⟩ := made
    exact ⟨_, .function _ _⟩
  obtain ⟨ofParser, third⟩ := defines_whenever parsing fun made => by
    simp only [nestParser, bind_eq_ok_iff, pure_eq_ok_iff] at made
    obtain ⟨_, _, rfl⟩ := made
    exact ⟨_, .function _ _⟩
  exact ⟨_, ((defines_release released).append second).append third⟩

end Source

end Library

end NetlinkFamily
