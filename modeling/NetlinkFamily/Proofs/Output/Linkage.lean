import NetlinkFamily.Proofs.Model.Selection
import NetlinkFamily.Proofs.Output.Listing

namespace NetlinkFamily

namespace Library

open Declaration Outcome

/-- All functions that are declared are defined in the same order, apart from those forgotten. -/
def Covers (declared defined forgotten : List C.Signature) : Prop :=
  ∃ kept, declared.Perm (kept ++ forgotten) ∧ kept.Sublist defined

section Covers

variable {declared declared' defined defined' forgotten forgotten' : List C.Signature}

/-- With nothing declared nothing is forgotten. -/
theorem covers_nil : Covers [] defined [] :=
  ⟨[], .nil, List.nil_sublist _⟩

/-- Nothing is forgotten when all that is declared is defined. -/
theorem covers_of_sublist (kept : declared.Sublist defined) : Covers declared defined [] :=
  ⟨declared, by rw [List.append_nil], kept⟩

/-- All that is declared may be forgotten. -/
theorem covers_forgotten : Covers declared defined declared :=
  ⟨[], .refl _, List.nil_sublist _⟩

/-- What two parts forget is what each of them forgets. -/
theorem Covers.append (first : Covers declared defined forgotten)
    (second : Covers declared' defined' forgotten') :
    Covers (declared ++ declared') (defined ++ defined') (forgotten ++ forgotten') := by
  obtain ⟨kept, account, inside⟩ := first
  obtain ⟨kept', account', inside'⟩ := second
  refine ⟨kept ++ kept', ?_, inside.append inside'⟩
  calc (declared ++ declared').Perm ((kept ++ forgotten) ++ (kept' ++ forgotten')) :=
        account.append account'
    _ = kept ++ (forgotten ++ kept') ++ forgotten' := by simp only [List.append_assoc]
    List.Perm _ (kept ++ (kept' ++ forgotten) ++ forgotten') :=
        (List.perm_append_comm.append_left kept).append_right forgotten'
    _ = (kept ++ kept') ++ (forgotten ++ forgotten') := by simp only [List.append_assoc]

/-- What each item declares is covered by what it defines. -/
theorem covers_each {A : Type} {items : List A} {header source : A → Except ModelError _}
    {declarations definitions : List Declaration} {forgotten : A → List C.Signature}
    (declares : each items header = .ok declarations)
    (defines : each items source = .ok definitions)
    (step : ∀ item ∈ items, ∀ declared defined, header item = .ok declared →
      source item = .ok defined →
        Covers (prototypes declared) (functions defined) (forgotten item)) :
    Covers (prototypes declarations) (functions definitions) (items.flatMap forgotten) := by
  obtain ⟨declared, made, rfl⟩ := each_eq_ok_iff.1 declares
  obtain ⟨defined, also, rfl⟩ := each_eq_ok_iff.1 defines
  clear declares defines
  induction made generalizing defined with
  | nil =>
      cases also
      exact covers_nil
  | @cons item part items parts here _ ih =>
      cases also with
      | @cons _ other _ others there later =>
          simp only [List.flatten_cons, prototypes_append, functions_append, List.flatMap_cons]
          refine (step item List.mem_cons_self part other here there).append ?_
          exact ih (fun item member => step item (List.mem_cons_of_mem _ member)) others later

/-- What is declared and defined under one condition is covered if it is so when the condition
holds, and nothing is forgotten otherwise. -/
theorem covers_whenever {condition : Bool} {header source : Except ModelError (List Declaration)}
    {declarations definitions : List Declaration}
    (declares : whenever condition header = .ok declarations)
    (defines : whenever condition source = .ok definitions)
    (step : condition = true → header = .ok declarations → source = .ok definitions →
      Covers (prototypes declarations) (functions definitions) forgotten)
    (silent : condition = false → forgotten = []) :
    Covers (prototypes declarations) (functions definitions) forgotten := by
  rw [whenever_eq_ok_iff] at declares defines
  cases holds : condition with
  | true =>
      rw [if_pos holds] at declares defines
      exact step holds declares defines
  | false =>
      rw [holds, if_neg Bool.false_ne_true] at declares
      rw [declares, silent holds]
      exact covers_nil

end Covers

section Parts

variable {family : Family} {operation : Operation} {subject : Subject}
  {declarations definitions : List Declaration}

/-- The request of a dump is released by a function that is declared only. -/
def dumpRequestRelease (family : Family) (operation : Operation) : C.Signature :=
  let stem := family.name ++ "_" ++ CName.lower operation.name ++ "_req_dump"
  { result := "void", name := stem ++ "_free", parameters := ["struct " ++ stem ++ " *req"] }

/-- The release of a notification, which is defined only if there is a reply to wrap. -/
def notificationRelease (family : Family) (operation : Operation) : C.Signature :=
  let stem := family.name ++ "_" ++ CName.lower operation.name ++ "_ntf"
  { result := "void", name := stem ++ "_free", parameters := ["struct " ++ stem ++ " *rsp"] }

/-- The functions for an operation that the source forgets to define. -/
def forgottenFor (family : Family) (operation : Operation) : List C.Signature :=
  (if operation.hasRequest .dump then [dumpRequestRelease family operation] else []) ++
    if operation.hasNotification && !operation.hasReply .notify then
      [notificationRelease family operation]
    else []

/-- Functions that are declared and never defined. -/
def forgotten (family : Family) : List C.Signature :=
  family.operations.flatMap (forgottenFor family)

/-- The request of a dump is released where the dump has one. -/
theorem releases_dumpRequest (describes : subject.Describes family operation .dump) :
    releases subject .request =
      if operation.hasRequest .dump then [dumpRequestRelease family operation] else [] := by
  have signature : releaseSignature subject .request = dumpRequestRelease family operation := by
    simp [releaseSignature, releaseName, Subject.structType, Subject.stem, Subject.ending,
      describes.inMode, describes.familyName, describes.typeName, describes.clashes,
      dumpRequestRelease, Part.parameter, String.append_assoc]
  rw [releases, signature, ← describes.isSome_request]
  rfl

/-- A notification that shares its reply has the release of a notification. -/
theorem releaseSignature_notification (describes : subject.Describes family operation .notify)
    (shares : subject.sharesReply = true) :
    releaseSignature subject .reply = notificationRelease family operation := by
  simp [releaseSignature, releaseName, Subject.structType, Subject.stem, Subject.ending,
    describes.inMode, describes.familyName, describes.typeName, describes.clashes, shares,
    notificationRelease, Part.parameter, String.append_assoc]

/-- The source of a call defines all its header declares. -/
theorem covers_call (declares : callHeader family operation = .ok declarations)
    (defines : callSource family operation = .ok definitions) :
    Covers (prototypes declarations) (functions definitions) [] := by
  obtain ⟨subject, described, _⟩ := bind_eq_ok_iff.1 declares
  rw [prototypes_callHeader described declares, (defines_callSource described defines).functions]
  apply covers_of_sublist
  exact (List.sublist_append_left _ _).append (.refl _)

/-- A dump whose request is released by nobody. -/
theorem covers_dump (declares : dumpHeader family operation = .ok declarations)
    (defines : dumpSource family operation = .ok definitions) :
    Covers (prototypes declarations) (functions definitions)
      (if operation.hasRequest .dump then [dumpRequestRelease family operation] else []) := by
  obtain ⟨subject, described, _⟩ := bind_eq_ok_iff.1 declares
  obtain ⟨others, defined⟩ := defines_dumpSource described defines
  have describes := Subject.describes_of_ofOperation described
  rw [prototypes_dumpHeader described declares, defined.functions,
    ← releases_dumpRequest describes]
  have request : Covers (releases subject .request) others (releases subject .request) :=
    covers_forgotten
  have both := request.append (covers_of_sublist
    (.refl [releaseSignature subject .reply, callSignature operation subject]))
  rwa [List.append_nil] at both

/-- A notification is only released if it wraps a reply. -/
theorem covers_notification (declares : notificationHeader family operation = .ok declarations)
    (defines : notificationSource family operation = .ok definitions) :
    Covers (prototypes declarations) (functions definitions)
      (if operation.hasReply .notify then [] else [notificationRelease family operation]) := by
  obtain ⟨subject, told, declares⟩ := bind_eq_ok_iff.1 declares
  rw [pure_eq_ok_iff] at declares
  subst declares
  obtain ⟨described, shares⟩ := notification_eq_ok_iff.1 told
  have describes := Subject.describes_of_ofOperation described
  have declared : prototypes (modeComment operation .notify :: wrapper subject) =
      [notificationRelease family operation] := by
    rw [prototypes_cons, prototypes_wrapper, releaseSignature_notification describes shares]
    rfl
  rw [declared, (defines_notificationSource told defines).functions, ← describes.isSome_reply]
  by_cases replies : subject.reply.isSome = true
  · rw [if_pos replies, releases_reply, if_pos replies,
      releaseSignature_notification describes shares]
    exact covers_of_sublist (.refl _)
  · rw [if_neg replies]
    exact covers_forgotten

/-- Each operation is covered, apart from what the source forgets of it. -/
theorem covers_operation (declares : operationHeader family operation = .ok declarations)
    (defines : operationSource family operation = .ok definitions) :
    Covers (prototypes declarations) (functions definitions) (forgottenFor family operation) := by
  simp only [operationHeader, operationSource, bind_eq_ok_iff, pure_eq_ok_iff] at declares defines
  obtain ⟨call, called, dump, dumped, notify, told, rfl⟩ := declares
  obtain ⟨call', called', dump', dumped', notify', told', rfl⟩ := defines
  have ofCall : Covers (prototypes call) (functions call') [] :=
    covers_whenever called called' (fun _ => covers_call) fun _ => rfl
  have ofDump : Covers (prototypes dump) (functions dump')
      (if operation.hasRequest .dump then [dumpRequestRelease family operation] else []) := by
    refine covers_whenever dumped dumped' (fun _ => covers_dump) fun absent => ?_
    rw [Option.isSome_eq_false_iff, Option.isNone_iff_eq_none] at absent
    have silent : operation.hasRequest .dump = false := by
      simp [Operation.hasRequest, Operation.requestAttributes, Operation.mode, absent]
    rw [silent]
    rfl
  have ofNotification : Covers (prototypes notify) (functions notify')
      (if operation.hasNotification && !operation.hasReply .notify then
        [notificationRelease family operation] else []) := by
    apply covers_whenever told told'
    · intro isTold declares defines
      have covered := covers_notification declares defines
      rw [isTold]
      cases replies : operation.hasReply .notify <;> simpa [replies] using covered
    · intro untold
      rw [untold]
      rfl
  have all := (ofCall.append ofDump).append ofNotification
  simpa [forgottenFor] using all

/-- Of an event, the release of its type is declared, and events always have a reply. -/
theorem covers_event (replies : operation.hasReply .event = true)
    (declares : eventHeader family operation = .ok declarations)
    (defines : eventSource family operation = .ok definitions) :
    Covers (prototypes declarations) (functions definitions) [] := by
  simp only [eventHeader, bind_eq_ok_iff, pure_eq_ok_iff] at declares
  obtain ⟨subject, described, reply, typed, rfl⟩ := declares
  obtain ⟨call, called, _⟩ := bind_eq_ok_iff.1 defines
  have describes := Subject.describes_of_ofOperation described
  have some : subject.reply.isSome = true := describes.isSome_reply.trans replies
  have declared : prototypes (List.flatten
      [[modeComment operation .event], reply, [.space], wrapper subject]) =
        [releaseSignature subject .reply] := by
    simp only [List.flatten_cons, List.flatten_nil, prototypes_append, prototypes_wrapper,
      prototypes_replyType typed]
    simp
  rw [declared, (defines_eventSource called described defines).functions, releases_reply,
    if_pos some]
  exact covers_of_sublist (List.sublist_append_right _ _)

end Parts

/-- A function is defined once, and as it is declared. -/
def DefinedOnce (definitions : List Declaration) (signature : C.Signature) : Prop :=
  (functions definitions).filter (fun other => other.name == signature.name) = [signature]

/-- If no two functions are called alike, all that are declared are defined once, apart from those
forgotten. -/
theorem Covers.definedOnce_iff {declared forgotten : List C.Signature}
    {definitions : List Declaration} (covers : Covers declared (functions definitions) forgotten)
    (distinct : ((functions definitions ++ forgotten).map C.Signature.name).Nodup)
    {signature : C.Signature} (listed : signature ∈ declared) :
    DefinedOnce definitions signature ↔ signature ∉ forgotten := by
  obtain ⟨kept, account, inside⟩ := covers
  rw [List.map_append, List.nodup_append] at distinct
  obtain ⟨apart, _, disjoint⟩ := distinct
  constructor
  · intro once absent
    rw [DefinedOnce] at once
    have chosen : signature ∈
        (functions definitions).filter (fun other => other.name == signature.name) := by
      rw [once]
      exact List.mem_singleton_self signature
    have held : signature ∈ functions definitions := List.mem_of_mem_filter chosen
    exact disjoint _ (List.mem_map_of_mem held) _ (List.mem_map_of_mem absent) rfl
  · intro present
    have held : signature ∈ kept :=
      (List.mem_append.1 (account.mem_iff.1 listed)).resolve_right present
    exact Entries.filter_key apart (inside.subset held)

end Library

namespace Family

open Declaration Library Outcome

variable {file : Spec.File} {excludes : List Pattern} {family : Family}
  {declarations definitions : List Declaration}

/-- Every event has a reply. -/
theorem hasReply_of_mem_events (built : ofSpec file excludes = .ok family) {operation : Operation}
    (listed : operation ∈ events family) : operation.hasReply .event = true := by
  obtain ⟨selected, event⟩ := List.mem_filter.1 listed
  have found := (found_of_mem_notifications built selected).1
  exact (message_of_get? built found).2.eventReply event

/-- The source defines what the header declares, apart from what it forgets. -/
theorem covers_library (built : ofSpec file excludes = .ok family)
    (declares : header family = .ok declarations) (defines : source family = .ok definitions) :
    Covers (prototypes declarations) (functions definitions) (forgotten family) := by
  simp only [header, source, bind_eq_ok_iff, pure_eq_ok_iff] at declares defines
  obtain ⟨types, typed, operations, called, told, noted, rfl⟩ := declares
  obtain ⟨tables, _, nests, _, operations', called', told', noted', description, _, rfl⟩ := defines
  have enums :
      prototypes (family.enumSets.map fun set => .prototype none (entryNameSignature set)) =
        functions (family.enumSets.flatMap entryNames) := by
    induction family.enumSets with
    | nil => rfl
    | cons set rest ih =>
        rw [List.map_cons, List.flatMap_cons, prototypes_cons, functions_append, ih,
          (defines_entryNames set).functions]
        rfl
  have ofNests : prototypes types = [] :=
    filterMap_each_eq_nil typed fun _ _ _ => prototypes_nestType
  have ofOperations : Covers (prototypes operations) (functions operations') (forgotten family) :=
    covers_each called called' fun operation _ _ _ => covers_operation
  have ofEvents : Covers (prototypes told) (functions told')
      ((events family).flatMap fun _ => []) :=
    covers_each noted noted' fun operation listed _ _ =>
      covers_event (hasReply_of_mem_events built listed)
  rw [List.flatMap_eq_nil_iff.2 fun _ _ => rfl] at ofEvents
  have front : Covers
      (operationNameSignature family :: functions (family.enumSets.flatMap entryNames))
      (operationNameSignature family :: functions (family.enumSets.flatMap entryNames) ++
        (functions tables ++ functions nests)) [] :=
    covers_of_sublist (List.sublist_append_left _ _)
  have all := ((front.append ofOperations).append ofEvents).append
    (covers_nil : Covers [] (functions description) [])
  simpa [(defines_operationNames family).functions, ofNests, enums] using all

/-- Nothing is forgotten exactly when no dump has a request and every notification has a reply. -/
theorem forgotten_eq_nil_iff (family : Family) :
    forgotten family = [] ↔ ∀ operation ∈ family.operations,
      operation.hasRequest .dump = false ∧
        (operation.hasNotification = true → operation.hasReply .notify = true) := by
  simp [forgotten, forgottenFor, List.flatMap_eq_nil_iff]

/-- The source defines all functions that the header declares, but for those that release the
request of a dump, or a notification about an operation without reply. If no two functions get the
same name, each declared function is defined exactly once, as it is declared, exactly if no selected
operation has such a dump or such a notification. -/
theorem prototypes_definedOnce_iff (built : ofSpec file excludes = .ok family)
    (declares : header family = .ok declarations) (defines : source family = .ok definitions) :
    Covers (prototypes declarations) (functions definitions) (forgotten family) ∧
    (((functions definitions ++ forgotten family).map C.Signature.name).Nodup →
      ((∀ signature ∈ prototypes declarations, DefinedOnce definitions signature) ↔
        ∀ operation ∈ family.operations, operation.hasRequest .dump = false ∧
          (operation.hasNotification = true → operation.hasReply .notify = true))) := by
  have covers := covers_library built declares defines
  refine ⟨covers, fun distinct => ?_⟩
  rw [← forgotten_eq_nil_iff]
  constructor
  · intro all
    refine List.eq_nil_iff_forall_not_mem.2 fun signature absent => ?_
    have listed : signature ∈ prototypes declarations := by
      obtain ⟨kept, account, _⟩ := covers
      exact account.mem_iff.2 (List.mem_append_right kept absent)
    exact (covers.definedOnce_iff distinct listed).1 (all signature listed) absent
  · intro none signature listed
    rw [covers.definedOnce_iff distinct listed, none]
    exact List.not_mem_nil

/-- A call and a dump with a notification, an event, and a nested set. -/
def complete : Spec.File where
  license := Spec.acceptedLicense
  family :=
    { name := "f"
      attributeSets :=
        [{ name := "dev"
           attributes :=
            [{ name := "x", kind := some "u8" },
             { name := "in", kind := some "nest", nestedAttributes := some "addr" }] },
         { name := "addr", attributes := [{ name := "y", kind := some "u8" }] }]
      operations :=
        { list :=
            [{ name := "get"
               attributeSet := some "dev"
               doMode := some
                 { request := some { attributes := ["x"] }
                   reply := some { attributes := ["x", "in"] } }
               dumpMode := some { reply := some { attributes := ["x", "in"] } } },
             { name := "changed", notify := some "get" },
             { name := "gone", attributeSet := some "dev", event := some ["x"] }] } }

/-- A dump with a request. -/
def asking : Spec.File where
  license := Spec.acceptedLicense
  family :=
    { name := "f"
      attributeSets := [{ name := "f", attributes := [{ name := "x", kind := some "u8" }] }]
      operations :=
        { list :=
            [{ name := "get"
               attributeSet := some "f"
               dumpMode := some
                 { request := some { attributes := ["x"] }
                   reply := some { attributes := ["x"] } } }] } }

theorem isSome_ofSpec_complete : (ofSpec complete []).toOption.isSome = true := by decide +kernel

/-- The family with a call, a dump, a notification and an event. -/
def completeFamily : Family :=
  (ofSpec complete []).toOption.get isSome_ofSpec_complete

theorem isSome_header_complete : (header completeFamily).toOption.isSome = true := by
  decide +kernel

theorem isSome_source_complete : (source completeFamily).toOption.isSome = true := by
  decide +kernel

/-- All eight functions that a header declares are defined once. -/
theorem prototypes_definedOnce_iff_complete :
    ∃ declarations definitions, ofSpec complete [] = .ok completeFamily ∧
      header completeFamily = .ok declarations ∧ source completeFamily = .ok definitions ∧
      ((functions definitions ++ forgotten completeFamily).map C.Signature.name).Nodup ∧
      (prototypes declarations).length = 8 ∧
      ∀ signature ∈ prototypes declarations, DefinedOnce definitions signature := by
  have built : ofSpec complete [] = .ok completeFamily := eq_ok_get isSome_ofSpec_complete
  have declares := eq_ok_get isSome_header_complete
  have defines := eq_ok_get isSome_source_complete
  have distinct : ((functions ((source completeFamily).toOption.get isSome_source_complete) ++
      forgotten completeFamily).map C.Signature.name).Nodup := by decide +kernel
  have count : (prototypes
      ((header completeFamily).toOption.get isSome_header_complete)).length = 8 := by
    decide +kernel
  have told : ∀ operation ∈ completeFamily.operations, operation.hasRequest .dump = false ∧
      (operation.hasNotification = true → operation.hasReply .notify = true) := by decide +kernel
  obtain ⟨_, once⟩ := prototypes_definedOnce_iff built declares defines
  exact ⟨_, _, built, declares, defines, distinct, count, (once distinct).2 told⟩

theorem isSome_ofSpec_asking : (ofSpec asking []).toOption.isSome = true := by decide +kernel

/-- The family whose dump has a request. -/
def askingFamily : Family :=
  (ofSpec asking []).toOption.get isSome_ofSpec_asking

theorem isSome_header_asking : (header askingFamily).toOption.isSome = true := by decide +kernel

theorem isSome_source_asking : (source askingFamily).toOption.isSome = true := by decide +kernel

/-- The function that releases the request of a dump is declared and never defined. -/
theorem not_forall_definedOnce :
    ¬∀ (file : Spec.File) (excludes : List Pattern) (family : Family)
      (declarations definitions : List Declaration), ofSpec file excludes = .ok family →
      header family = .ok declarations → source family = .ok definitions →
        ∀ signature ∈ prototypes declarations,
          ((functions definitions).filter fun other => other.name == signature.name).length =
            1 := by
  intro always
  have built : ofSpec asking [] = .ok askingFamily := eq_ok_get isSome_ofSpec_asking
  have declares := eq_ok_get isSome_header_asking
  have defines := eq_ok_get isSome_source_asking
  have listed : dumpRequestRelease askingFamily (askingFamily.operations.headI) ∈
      prototypes ((header askingFamily).toOption.get isSome_header_asking) := by decide +kernel
  have once := always _ _ _ _ _ built declares defines _ listed
  have absent : ((functions
      ((source askingFamily).toOption.get isSome_source_asking)).filter fun other =>
        other.name ==
          (dumpRequestRelease askingFamily (askingFamily.operations.headI)).name).length = 0 := by
    decide +kernel
  rw [absent] at once
  cases once

end Family

end NetlinkFamily
