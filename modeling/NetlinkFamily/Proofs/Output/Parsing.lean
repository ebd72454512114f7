import NetlinkFamily.Proofs.Output.Calling
import NetlinkFamily.Proofs.Output.Listing

namespace NetlinkFamily

namespace Attribute

open C.Code Outcome

/-- Whether the contents of an attribute are left to the parser of the set inside it. -/
def isParsedInside (attr : Attribute) : Bool :=
  match attr.kind with
  | .nest => true
  | .arrayNest => !attr.multi && attr.entryScalar?.isNone
  | .nestTypeValue => !attr.multi
  | _ => false

/-- The levels around the contents of an attribute, as they are spelled in code. -/
def levels (attr : Attribute) : List String :=
  attr.typeValue.map CName.lower

/-- The attribute that is handed to the parser of the set inside. -/
def handed (attr : Attribute) : String :=
  match attr.kind with
  | .nestTypeValue => innermost attr.levels
  | _ => "attr"

/-- What is handed to the parser of the set inside besides. -/
def handedBesides (attr : Attribute) : List String :=
  match attr.kind with
  | .arrayNest => ["mnl_attr_get_type(attr)"]
  | .nestTypeValue => if attr.levels.isEmpty then [""] else attr.levels
  | _ => []

/-- The call of the parser of the set inside an attribute. -/
def Calls (attr : Attribute) (call : String × List String) : Prop :=
  attr.isParsedInside = true ∧ ∃ nested, attr.nested = some nested ∧
    call = (nested.renderName ++ "_parse", "&parg" :: attr.handed :: attr.handedBesides)

variable {attr : Attribute} {holder : String} {code : List C.Code}

/-- Entering levels is a matter of assignments only. -/
theorem callsIn_enterLevels (outer : String) (levels : List String) :
    callsIn (enterLevels outer levels) = [] := by
  induction levels generalizing outer with
  | nil => rfl
  | cons level rest ih => simp [enterLevels, callsIn, calls, ih]

/-- One call is made for an attribute whose contents are parsed inside. -/
theorem callsFor_check {nested : NestedSet} (inside : attr.nested = some nested)
    (parsed : attr.isParsedInside = true) {arguments : List String}
    (given : arguments = "&parg" :: attr.handed :: attr.handedBesides) :
    CallsFor attr.Calls [.check (nested.renderName ++ "_parse") arguments, failed] := by
  intro call _
  simp [Calls, callsIn, calls, failed, parsed, inside, given]

/-- The calls of an attribute that is read where it stands. -/
def CallsAtOnce (attr : Attribute) (call : String × List String) : Prop :=
  attr.isCounted = false ∧ attr.Calls call

/-- The place for the contents is set first. -/
theorem callsFor_entry {nested : NestedSet} (inside : attr.nested = some nested)
    (parsed : attr.isParsedInside = true) {place : String} {arguments : List String}
    (given : arguments = "&parg" :: attr.handed :: attr.handedBesides) :
    CallsFor attr.Calls
      [.assign "parg.data" place, .check (nested.renderName ++ "_parse") arguments, failed] := by
  intro call parser
  rw [← callsFor_check inside parsed given call parser]
  simp [callsIn, calls]

/-- An attribute that is counted first calls no parser at once. -/
theorem callsFor_of_counted (counted : attr.isCounted = true) (silent : Silent code) :
    CallsFor attr.CallsAtOnce code :=
  silent.callsFor.congr fun call => by simp [CallsAtOnce, counted]

/-- An attribute that is not parsed inside calls no parser at once. -/
theorem callsFor_of_own (own : attr.isParsedInside = false) (silent : Silent code) :
    CallsFor attr.CallsAtOnce code :=
  silent.callsFor.congr fun call => by simp [CallsAtOnce, Calls, own]

/-- An attribute that is not counted makes all its calls at once. -/
theorem callsFor_of_once (once : attr.isCounted = false) (calls : CallsFor attr.Calls code) :
    CallsFor attr.CallsAtOnce code :=
  calls.congr fun call => by simp [CallsAtOnce, once]

/-- The code for one occurrence of an attribute calls the parser of the set inside it, unless it
only counts what an array will hold. -/
theorem callsFor_branch {branch : Branch} (done : attr.branch holder = .ok branch) :
    Silent branch.setup ∧ CallsFor attr.CallsAtOnce branch.body := by
  unfold Attribute.branch at done
  dsimp only at done
  split at done
  · rename_i multi
    obtain rfl := Except.ok.inj done
    have counted : attr.isCounted = true := by rw [isCounted, multi, Bool.true_or]
    exact ⟨silent_of_eq_nil rfl, callsFor_of_counted counted (silent_of_eq_nil rfl)⟩
  · rename_i single
    rw [Bool.not_eq_true] at single
    have memory : ¬IsParser "memcpy" := not_isParser (by decide)
    cases kind : attr.kind with
    | unused | pad | flag | scalar =>
        rw [kind, Except.ok.injEq] at done
        subst done
        have own : attr.isParsedInside = false := by rw [isParsedInside, kind]
        exact ⟨silent_of_eq_nil rfl, callsFor_of_own own (silent_of_eq_nil rfl)⟩
    | text | binary =>
        rw [kind, Except.ok.injEq] at done
        subst done
        have own : attr.isParsedInside = false := by rw [isParsedInside, kind]
        refine ⟨silent_of_eq_nil rfl, callsFor_of_own own ?_⟩
        simp [Silent, callsIn, calls, memory]
    | arrayNest =>
        rw [kind, Except.ok.injEq] at done
        subst done
        have counted : attr.isCounted = true := by rw [isCounted, single, kind]; rfl
        exact ⟨silent_of_eq_nil rfl, callsFor_of_counted counted (silent_of_eq_nil rfl)⟩
    | nest =>
        simp only [kind, bind_eq_ok_iff, pure_eq_ok_iff, nestedSet_eq_ok_iff] at done
        obtain ⟨nested, inside, rfl⟩ := done
        have once : attr.isCounted = false := by rw [isCounted, single, kind]; rfl
        refine ⟨silent_of_eq_nil rfl, callsFor_of_once once (callsFor_check inside ?_ ?_)⟩
        · rw [isParsedInside, kind]
        · simp only [handed, handedBesides, kind]
    | nestTypeValue =>
        simp only [kind, bind_eq_ok_iff, pure_eq_ok_iff, nestedSet_eq_ok_iff] at done
        obtain ⟨nested, inside, rfl⟩ := done
        have once : attr.isCounted = false := by rw [isCounted, single, kind]; rfl
        have entering : Silent (enterLevels "attr" attr.levels) :=
          silent_of_eq_nil (callsIn_enterLevels _ _)
        refine ⟨silent_of_eq_nil rfl,
          callsFor_of_once once (entering.append_callsFor (callsFor_check inside ?_ ?_))⟩
        · rw [isParsedInside, kind, single]
          rfl
        · simp only [handed, handedBesides, kind]
          rfl

/-- The check of a member that is read where it stands calls no parser. -/
theorem silent_validate (attr : Attribute) (holder : String) : Silent (attr.validate holder) := by
  have check : ¬IsParser "ynl_attr_validate" := not_isParser (by decide)
  unfold validate
  split
  · exact silent_of_eq_nil rfl
  · refine silent_append_iff.2 ⟨by simp [Silent, callsIn, calls, failed, check], ?_⟩
    split <;> exact silent_of_eq_nil rfl

/-- Silent code with a blank line behind it is silent. -/
theorem silent_spacedAfter (silent : Silent code) : Silent (spacedAfter code) := by
  unfold spacedAfter
  split
  · exact silent_of_eq_nil rfl
  · exact silent_append_iff.2 ⟨silent, silent_of_eq_nil rfl⟩

/-- Silent code with a blank line before it is silent. -/
theorem silent_spacedBefore (silent : Silent code) : Silent (spacedBefore code) := by
  unfold spacedBefore
  split
  · exact silent_of_eq_nil rfl
  · exact silent_cons_iff.2 ⟨silent_of_eq_nil rfl, silent⟩

/-- The branch of a parser for an attribute. -/
theorem callsFor_parseBranch? {first : Bool} {branch : Option C.Code}
    (done : attr.parseBranch? holder first = .ok branch) :
    CallsFor attr.CallsAtOnce branch.toList := by
  unfold parseBranch? at done
  split at done
  · rename_i idle
    obtain rfl := Except.ok.inj done
    have own : attr.isParsedInside = false := by rw [isParsedInside, idle.1]
    exact callsFor_of_own own (silent_of_eq_nil rfl)
  · simp only [bind_eq_ok_iff, pure_eq_ok_iff] at done
    obtain ⟨branch, read, rfl⟩ := done
    obtain ⟨setup, body⟩ := callsFor_branch read
    have locals : Silent (spacedAfter (branch.locals.map .line)) :=
      silent_spacedAfter (silent_of_eq_nil (callsIn_map_line _))
    have front := silent_append_iff.2
      ⟨silent_append_iff.2 ⟨locals, silent_validate attr holder⟩, silent_spacedBefore setup⟩
    exact (front.append_callsFor body).block

/-- The branches of a parser make the calls of all members that are read where they stand. -/
theorem callsFor_parseBranches {first : Bool} {attrs : List Attribute}
    (done : parseBranches holder first attrs = .ok code) :
    CallsFor (fun call => ∃ attr ∈ attrs, attr.CallsAtOnce call) code := by
  induction attrs generalizing first code with
  | nil =>
      obtain rfl := Except.ok.inj done
      exact (silent_of_eq_nil rfl).callsFor.congr fun _ => by simp
  | cons attr rest ih =>
      simp only [parseBranches, bind_eq_ok_iff] at done
      obtain ⟨branch, made, done⟩ := done
      have here := callsFor_parseBranch? made
      cases branch with
      | none =>
          refine (here.append (ih done)).congr fun call => ?_
          rw [List.exists_mem_cons_iff fun attr : Attribute => attr.CallsAtOnce call]
      | some branch =>
          simp only [bind_eq_ok_iff, pure_eq_ok_iff] at done
          obtain ⟨others, later, rfl⟩ := done
          refine (here.append (ih later)).congr fun call => ?_
          rw [List.exists_mem_cons_iff fun attr : Attribute => attr.CallsAtOnce call]

/-- Allocating an array is silent. -/
theorem silent_allocate (attr : Attribute) : Silent attr.allocate :=
  silent_of_eq_nil rfl

/-- Naming the policy of a nest is silent. -/
theorem silent_nestPolicy {policy : C.Code} (done : attr.nestPolicy = .ok policy) :
    Silent [policy] := by
  obtain ⟨nested, _, rfl⟩ := map_eq_ok_iff.1 done
  exact silent_of_eq_nil rfl

/-- An array is filled by the calls that fill one of its entries. -/
theorem callsFor_filling {expected : String × List String → Prop} {policy element : List C.Code}
    (silent : Silent policy) (entry : CallsFor expected element) {condition loop : String} :
    CallsFor expected
      [.block condition
        (attr.allocate ++ policy ++ [C.Code.block loop (element ++ [C.Code.line "i++;"]) ""])
        ""] := by
  have front := silent_append_iff.2 ⟨silent_allocate attr, silent⟩
  exact (front.append_callsFor (entry.append_silent (silent_of_eq_nil rfl)).block).block

/-- The loop that fills an array calls a parser for each of its entries, if these are nests. -/
theorem callsFor_fillArray (single : attr.multi = false) (kind : attr.kind = .arrayNest)
    (done : attr.fillArray = .ok code) : CallsFor attr.Calls code := by
  unfold fillArray at done
  dsimp only at done
  cases entries : attr.entryScalar? with
  | some type =>
      simp only [entries, bind_eq_ok_iff, pure_eq_ok_iff, exists_eq_left'] at done
      subst done
      have own : attr.isParsedInside = false := by simp [isParsedInside, kind, entries]
      refine callsFor_filling (silent_of_eq_nil rfl) ?_
      exact (silent_of_eq_nil rfl).callsFor.congr fun call => by simp [Calls, own]
  | none =>
      simp only [entries, bind_eq_ok_iff, pure_eq_ok_iff, exists_eq_left',
        nestedSet_eq_ok_iff] at done
      obtain ⟨nested, inside, policy, given, rfl⟩ := done
      have parsed : attr.isParsedInside = true := by simp [isParsedInside, kind, entries, single]
      refine callsFor_filling (silent_nestPolicy given) (callsFor_entry inside parsed ?_)
      simp only [handed, handedBesides, kind]

/-- The loop that fills an array calls a parser for each occurrence of a nest. -/
theorem callsFor_fillRepeated {loop : String} (done : attr.fillRepeated loop = .ok code) :
    CallsFor attr.Calls code := by
  have filled {policy element : List C.Code} (silent : Silent policy)
      (entry : CallsFor attr.Calls element) {condition own : String} :
      CallsFor attr.Calls
        [.block condition
          (attr.allocate ++ policy ++
            [C.Code.block loop [.block own (element ++ [C.Code.line "i++;"]) ""] ""])
          ""] := by
    have front := silent_append_iff.2 ⟨silent_allocate attr, silent⟩
    have counts : Silent [C.Code.line "i++;"] := silent_of_eq_nil rfl
    exact (front.append_callsFor (entry.append_silent counts).block.block).block
  unfold fillRepeated nestPolicy at done
  dsimp only at done
  have reads (type : ScalarType) (own : attr.isParsedInside = false) :
      CallsFor attr.Calls [getScalar ("dst->" ++ attr.cName ++ "[i]") type] :=
    (silent_of_eq_nil rfl).callsFor.congr fun call => by simp [Calls, own]
  cases inside : attr.nested with
  | none =>
      simp only [inside, Option.isSome_none, Bool.false_eq_true, if_false, bind_eq_ok_iff,
        pure_eq_ok_iff, exists_eq_left'] at done
      split at done
      · simp only [bind_eq_ok_iff, nestedSet_eq_ok_iff, inside] at done
        obtain ⟨_, absent, _⟩ := done
        cases absent
      · rename_i kind
        simp only [bind_eq_ok_iff, pure_eq_ok_iff, exists_eq_left'] at done
        exact done ▸ filled (silent_of_eq_nil rfl) (reads _ (by rw [isParsedInside, kind]))
      · cases done
  | some nested =>
      have looked : attr.nestedSet = .ok nested := nestedSet_eq_ok_iff.2 inside
      simp only [inside, looked, Option.isSome_some, if_true, Except.map, bind_eq_ok_iff,
        exists_eq_left', Except.ok.injEq] at done
      split at done
      · rename_i kind
        simp only [bind_eq_ok_iff, pure_eq_ok_iff, exists_eq_left', Except.ok.injEq] at done
        refine done ▸ filled (silent_of_eq_nil rfl) (callsFor_entry inside ?_ ?_)
        · rw [isParsedInside, kind]
        · simp only [handed, handedBesides, kind]
      · rename_i kind
        simp only [bind_eq_ok_iff, pure_eq_ok_iff, exists_eq_left'] at done
        exact done ▸ filled (silent_of_eq_nil rfl) (reads _ (by rw [isParsedInside, kind]))
      · cases done

end Attribute

/-- The calls of the parsers of the sets inside the members of a layout. -/
def Layout.Calls (layout : Layout) (scope : Scope) (call : String × List String) : Prop :=
  ∃ attr ∈ layout.attributes scope, attr.Calls call

namespace Library

open C.Code Declaration Outcome

variable {family : Family} {layout : Layout} {code : List C.Code}

/-- Sorting by name keeps the attributes. -/
@[simp] theorem mem_sortedByName {attr : Attribute} {attrs : List Attribute} :
    attr ∈ sortedByName attrs ↔ attr ∈ attrs :=
  List.mem_mergeSort

/-- Refusing a second occurrence is silent. -/
theorem silent_refuseSecond (layout : Layout) (attrs : List Attribute) :
    Silent (attrs.flatMap (refuseSecond layout)) := by
  induction attrs with
  | nil => exact silent_of_eq_nil rfl
  | cons attr rest ih =>
      rw [List.flatMap_cons]
      exact silent_append_iff.2 ⟨silent_of_eq_nil rfl, ih⟩

/-- Assignments are silent. -/
theorem silent_assignments {A : Type} (place value : A → String) (list : List A) :
    Silent (list.map fun a => .assign (place a) (value a)) := by
  induction list with
  | nil => exact silent_of_eq_nil rfl
  | cons a rest ih => exact silent_cons_iff.2 ⟨silent_of_eq_nil rfl, ih⟩

/-- A parser reads its members where they stand, or fills an array with them. -/
theorem callsFor_parserBody {setup : List C.Code} {locals : List String} (silent : Silent setup)
    (done : parserBody family layout setup locals = .ok code) :
    CallsFor (layout.Calls family.toScope) code := by
  simp only [parserBody, bind_eq_ok_iff, pure_eq_ok_iff] at done
  obtain ⟨branches, read, arrays, filled, repeated, refilled, rfl⟩ := done
  have ofBranches := Attribute.callsFor_parseBranches read
  have ofArrays := callsFor_flatten <|
    (forall₂_mem (mapM_eq_ok_iff.1 filled)).imp fun attr code both => by
      have member := List.mem_filter.1 (mem_sortedByName.1 both.1)
      simp only [Bool.and_eq_true, Bool.not_eq_true', beq_iff_eq] at member
      exact Attribute.callsFor_fillArray member.2.1 member.2.2 both.2
  have ofRepeated := callsFor_flatten <|
    (mapM_eq_ok_iff.1 refilled).imp fun _ _ => Attribute.callsFor_fillRepeated
  intro call parser
  have none {code : List C.Code} (silent : Silent code) : call ∈ callsIn code ↔ False :=
    silent.callsFor call parser
  have state {nests : Bool} : Silent (if nests then [.assign "parg.ys" "yarg->ys"] else []) := by
    split <;> exact silent_of_eq_nil rfl
  simp only [List.flatten_cons, List.flatten_nil, List.append_nil, callsIn_append, List.mem_append,
    callsIn_locals, none silent, none state, none (silent_refuseSecond _ _),
    none (silent_assignments _ _ _), callsIn, calls, ofBranches call parser, ofArrays call parser,
    ofRepeated call parser, false_or, mem_sortedByName,
    List.nil_append]
  constructor
  · rintro (⟨attr, listed, _, called⟩ | ⟨attr, listed, called⟩ | ⟨attr, listed, called⟩)
    · exact ⟨attr, listed, called⟩
    · exact ⟨attr, List.mem_of_mem_filter listed, called⟩
    · exact ⟨attr, List.mem_of_mem_filter listed, called⟩
  · rintro ⟨attr, listed, called⟩
    cases multi : attr.multi with
    | true => exact .inr (.inr ⟨attr, List.mem_filter.2 ⟨listed, multi⟩, called⟩)
    | false =>
        by_cases kind : attr.kind = .arrayNest
        · exact .inr (.inl ⟨attr, List.mem_filter.2 ⟨listed, by simp [multi, kind]⟩, called⟩)
        · exact .inl ⟨attr, listed, by simp [Attribute.isCounted, multi, kind], called⟩

section Parts

variable {operation : Operation} {subject : Subject} {declarations : List Declaration}

/-- The parser of a nested set calls the parsers of what its set nests. -/
theorem callsFor_nestParser (done : nestParser family layout = .ok declarations) :
    CallsFor (layout.Calls family.toScope) (allCode declarations) := by
  simp only [nestParser, bind_eq_ok_iff, pure_eq_ok_iff] at done
  obtain ⟨body, parsed, rfl⟩ := done
  exact callsFor_function _ (callsFor_parserBody (silent_of_eq_nil rfl) parsed)

/-- The calls of the parsers of the sets inside a reply. -/
def ReplyCalls (family : Family) (subject : Subject) (call : String × List String) : Prop :=
  ∃ layout, subject.reply = some layout ∧ layout.Calls family.toScope call

/-- The parser of a reply calls the parsers of what the reply nests. -/
theorem callsFor_replyParser {element : Bool}
    (done : replyParser family subject element = .ok declarations) :
    CallsFor (ReplyCalls family subject) (allCode declarations) := by
  unfold replyParser at done
  cases replies : subject.reply with
  | none =>
      rw [replies] at done
      obtain rfl := Except.ok.inj done
      exact silent_nil.callsFor.congr fun call => by simp [ReplyCalls, replies]
  | some layout =>
      have calls {body : List C.Code} (made : CallsFor (layout.Calls family.toScope) body) :
          CallsFor (ReplyCalls family subject) body :=
        made.congr fun call => by simp [ReplyCalls, replies]
      simp only [replies] at done
      split at done
      · rename_i empty
        simp only [bind_eq_ok_iff, pure_eq_ok_iff, exists_eq_left'] at done
        subst done
        refine callsFor_function _ (calls ((silent_of_eq_nil rfl).callsFor.congr fun call => ?_))
        have none : layout.attributes family.toScope = [] := by
          rw [Layout.attributes, List.isEmpty_iff.1 empty]
          split <;> rfl
        simp [Layout.Calls, none]
      · simp only [bind_eq_ok_iff, pure_eq_ok_iff] at done
        obtain ⟨body, parsed, rfl⟩ := done
        exact callsFor_function _ (calls (callsFor_parserBody (silent_of_eq_nil rfl) parsed))

/-- Of a nested set, the functions that parse its contents call parsers. -/
theorem callsFor_nestSource {entry : String × Layout}
    (done : nestSource family entry = .ok declarations) :
    CallsFor (fun call => entry.2.reply = true ∧ entry.2.Calls family.toScope call)
      (allCode declarations) := by
  simp only [nestSource, bind_eq_ok_iff, pure_eq_ok_iff] at done
  obtain ⟨released, releasing, put, putting, parser, parsing, rfl⟩ := done
  have silent := silent_whenever putting silent_putNest
  rw [allCode_append, allCode_append]
  exact (silent_append_iff.2 ⟨silent_release releasing, silent⟩).append_callsFor
    (callsFor_whenever parsing callsFor_nestParser)

/-- The calls of the parsers of the sets inside the reply of one mode. -/
def ModeCalls (family : Family) (operation : Operation) (mode : OperationMode)
    (call : String × List String) : Prop :=
  ∃ subject, Subject.ofOperation family operation mode = .ok subject ∧
    ReplyCalls family subject call

/-- What a mode calls is what its reply calls. -/
theorem modeCalls_iff {mode : OperationMode}
    (described : Subject.ofOperation family operation mode = .ok subject)
    (call : String × List String) :
    ModeCalls family operation mode call ↔ ReplyCalls family subject call := by
  simp [ModeCalls, described]

/-- The source of a call calls the parsers of its reply. -/
theorem callsFor_callSource (done : callSource family operation = .ok declarations) :
    CallsFor (ModeCalls family operation .call) (allCode declarations) := by
  simp only [callSource, bind_eq_ok_iff, pure_eq_ok_iff] at done
  obtain ⟨subject, described, request, asked, reply, told, parser, parsed, calls, called, rfl⟩ :=
    done
  refine CallsFor.congr ?_ fun call => (modeCalls_iff described call).symm
  simp only [List.flatten_cons, List.flatten_nil, allCode_append]
  have behind := silent_append_iff.2 ⟨silent_call called,
    silent_append_iff.2 ⟨silent_space, silent_nil⟩⟩
  exact (silent_comment _).append_callsFor <| (silent_releasePart asked).append_callsFor <|
    (silent_releasePart told).append_callsFor <|
      (callsFor_replyParser parsed).append_silent behind

/-- The source of a dump calls the parsers of its reply unless the call has them. -/
theorem callsFor_dumpSource (done : dumpSource family operation = .ok declarations) :
    CallsFor
      (fun call => Subject.sharedReply operation .dump = false ∧
        ModeCalls family operation .dump call)
      (allCode declarations) := by
  simp only [dumpSource, bind_eq_ok_iff, pure_eq_ok_iff] at done
  obtain ⟨subject, described, parser, parsed, list, released, dumps, dumped, rfl⟩ := done
  have shares := (Subject.describes_of_ofOperation described).sharesReply
  have behind := silent_append_iff.2 ⟨silent_releaseList released,
    silent_append_iff.2 ⟨silent_dump dumped, silent_append_iff.2 ⟨silent_space, silent_nil⟩⟩⟩
  have ofParser := (callsFor_whenever parsed callsFor_replyParser).append_silent behind
  simp only [List.flatten_cons, List.flatten_nil, allCode_append]
  refine ((silent_comment _).append_callsFor ofParser).congr fun call => ?_
  rw [Bool.not_eq_true', shares, modeCalls_iff described]

/-- The source of a notification is silent. -/
theorem silent_notificationSource (done : notificationSource family operation = .ok declarations) :
    Silent (allCode declarations) := by
  simp only [notificationSource, bind_eq_ok_iff, pure_eq_ok_iff] at done
  obtain ⟨subject, _, release, released, rfl⟩ := done
  exact silent_cons (silent_of_eq_nil rfl) (silent_releaseNotification released)

/-- An event is parsed as the reply that its operation would have. -/
theorem callsFor_eventSource (done : eventSource family operation = .ok declarations) :
    CallsFor (ModeCalls family operation .call) (allCode declarations) := by
  simp only [eventSource, bind_eq_ok_iff, pure_eq_ok_iff] at done
  obtain ⟨subject, described, parser, parsed, event, _, release, released, rfl⟩ := done
  refine CallsFor.congr ?_ fun call => (modeCalls_iff described call).symm
  rw [List.cons_append, allCode_cons, allCode_append]
  exact (silent_comment _).append_callsFor <|
    (callsFor_replyParser parsed).append_silent (silent_releaseNotification released)

/-- The replies that have parsers. That of a dump has one if it differs from the reply of the call,
and an event is parsed as a reply of its operation. -/
def IsParsed (family : Family) (operation : Operation) : OperationMode → Prop
  | .call => operation ∈ family.operations ∧ isCalled operation = true ∨ operation ∈ events family
  | .dump => operation ∈ family.operations ∧ operation.dumpMode.isSome = true ∧
      Subject.sharedReply operation .dump = false
  | .notify | .event => False

/-- The source of an operation calls the parsers of its call and of its dump. -/
theorem callsFor_operationSource (done : operationSource family operation = .ok declarations) :
    CallsFor
      (fun call => isCalled operation = true ∧ ModeCalls family operation .call call ∨
        operation.dumpMode.isSome = true ∧ Subject.sharedReply operation .dump = false ∧
          ModeCalls family operation .dump call)
      (allCode declarations) := by
  simp only [operationSource, bind_eq_ok_iff, pure_eq_ok_iff] at done
  obtain ⟨call, called, dump, dumped, notify, told, rfl⟩ := done
  rw [List.cons_append, List.cons_append, allCode_cons, allCode_append, allCode_append]
  exact (silent_comment _).append_callsFor <|
    ((callsFor_whenever called callsFor_callSource).append
      (callsFor_whenever dumped callsFor_dumpSource)).append_silent
        (silent_whenever told silent_notificationSource)

end Parts

/-- The layouts that have parsers: those of nested sets that are part of replies, and those of
replies. -/
inductive Parsed (family : Family) : Layout → Prop
  | nest {set : String} {layout : Layout} (held : family.nestedSets.get? set = some layout)
      (told : layout.reply = true) : Parsed family layout
  | reply {operation : Operation} {mode : OperationMode} {subject : Subject} {layout : Layout}
      (parsed : IsParsed family operation mode)
      (described : Subject.ofOperation family operation mode = .ok subject)
      (replies : subject.reply = some layout) : Parsed family layout

/-- The source calls the parsers of the sets inside all layouts that have parsers, and no others. -/
theorem callsFor_source {definitions : List Declaration} (done : source family = .ok definitions) :
    CallsFor (fun call => ∃ layout, Parsed family layout ∧ layout.Calls family.toScope call)
      (allCode definitions) := by
  simp only [source, bind_eq_ok_iff, pure_eq_ok_iff] at done
  obtain ⟨tables, validated, nests, nested, operations, called, told, noted, description,
    described, rfl⟩ := done
  have ofTables : Silent (allCode tables) := silent_each validated fun set part made => by
    obtain ⟨layout, _, made⟩ := bind_eq_ok_iff.1 made
    exact silent_validation made
  have ofEnums : Silent (allCode (family.enumSets.flatMap entryNames)) := by
    induction family.enumSets with
    | nil => exact silent_nil
    | cons set rest ih =>
        rw [List.flatMap_cons, allCode_append]
        exact silent_append_iff.2 ⟨silent_entryNames set, ih⟩
  have ofNests := callsFor_each nested fun entry _ part => callsFor_nestSource
  have ofOperations := callsFor_each called fun operation _ part => callsFor_operationSource
  have ofEvents := callsFor_each noted fun operation _ part => callsFor_eventSource
  simp only [List.flatten_cons, List.flatten_nil, allCode_append]
  have title (text : String) : Silent (allCode [.space, .comment text]) :=
    silent_cons (silent_of_eq_nil rfl) (silent_comment text)
  have behind := silent_append_iff.2 ⟨silent_space, silent_append_iff.2
    ⟨silent_familyDescription described, silent_nil⟩⟩
  have all := (silent_comment "Enums").append_callsFor <|
    (silent_operationNames family).append_callsFor <| ofEnums.append_callsFor <|
      (title "Policies").append_callsFor <| ofTables.append_callsFor <|
        (silent_comment "Common nested types").append_callsFor <|
          ofNests.append <| ofOperations.append <| ofEvents.append_silent behind
  refine all.congr fun call => ?_
  constructor
  · rintro (⟨⟨set, layout⟩, listed, told, called⟩ |
      ⟨operation, listed, ⟨isCalled, subject, described, layout, replies, called⟩ |
        ⟨dumps, differs, subject, described, layout, replies, called⟩⟩ |
      ⟨operation, listed, subject, described, layout, replies, called⟩)
    · exact ⟨layout, .nest (Registry.get?_eq_some_iff.2 listed) told, called⟩
    · have parsed : IsParsed family operation .call := .inl ⟨listed, isCalled⟩
      exact ⟨layout, .reply parsed described replies, called⟩
    · have parsed : IsParsed family operation .dump := ⟨listed, dumps, differs⟩
      exact ⟨layout, .reply parsed described replies, called⟩
    · have parsed : IsParsed family operation .call := .inr listed
      exact ⟨layout, .reply parsed described replies, called⟩
  · rintro ⟨layout, parsed, called⟩
    cases parsed with
    | nest held told => exact .inl ⟨_, Registry.get?_eq_some_iff.1 held, told, called⟩
    | @reply operation mode subject _ parsed described replies =>
        have calls : ModeCalls family operation mode call :=
          ⟨subject, described, layout, replies, called⟩
        cases mode with
        | call =>
            rcases parsed with ⟨listed, isCalled⟩ | listed
            · exact .inr (.inl ⟨operation, listed, .inl ⟨isCalled, calls⟩⟩)
            · exact .inr (.inr ⟨operation, listed, calls⟩)
        | dump =>
            obtain ⟨listed, dumps, differs⟩ := parsed
            exact .inr (.inl ⟨operation, listed, .inr ⟨dumps, differs, calls⟩⟩)
        | notify | event => exact parsed.elim

end Library

end NetlinkFamily
