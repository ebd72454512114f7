import NetlinkFamily.Proofs.Output.Bodies
import NetlinkFamily.Proofs.Output.Members

namespace NetlinkFamily

namespace C.Code

open Outcome

mutual

/-- The assignments in the code: the places with their values. -/
def assignments : Code → List (String × String)
  | .assign place value => [(place, value)]
  | .block _ body _ => assignmentsIn body
  | .line _ | .check _ _ | .call _ _ | .space => []

/-- Places and values of the assignments in a body, those inside its blocks included. -/
def assignmentsIn : List Code → List (String × String)
  | [] => []
  | code :: rest => assignments code ++ assignmentsIn rest

end

/-- Whether a piece of code is a block. -/
def isBlock : Code → Bool
  | .block _ _ _ => true
  | .line _ | .check _ _ | .call _ _ | .assign _ _ | .space => false

/-- Assignments of two bodies are those of the first and then those of the second. -/
@[simp] theorem assignmentsIn_append (first second : List Code) :
    assignmentsIn (first ++ second) = assignmentsIn first ++ assignmentsIn second := by
  induction first with
  | nil => simp [assignmentsIn]
  | cons code rest ih => simp [assignmentsIn, ih]

/-- Declaring locals assigns nothing. -/
@[simp] theorem assignmentsIn_locals (declarations : List String) :
    assignmentsIn (locals declarations) = [] := by
  have lines (texts : List String) : assignmentsIn (texts.map .line) = [] := by
    induction texts with
    | nil => simp [assignmentsIn]
    | cons text rest ih => simp [assignmentsIn, assignments, ih]
  unfold locals
  split <;> simp [assignmentsIn, assignments, lines]

/-- Bodies that assign nothing assign nothing together. -/
theorem assignmentsIn_flatten {parts : List (List Code)}
    (each : ∀ part ∈ parts, assignmentsIn part = []) : assignmentsIn parts.flatten = [] := by
  induction parts with
  | nil => simp [assignmentsIn]
  | cons part rest ih =>
      obtain ⟨here, later⟩ := List.forall_mem_cons.1 each
      rw [List.flatten_cons, assignmentsIn_append, here, ih later, List.append_nil]

end C.Code

namespace Attribute

open C.Code Outcome

variable {attr : Attribute} {holder : String} {code : List C.Code}

/-- Testing for presence assigns nothing. -/
theorem assignmentsIn_presenceCheck (attr : Attribute) (holder : String) :
    assignmentsIn (attr.presenceCheck holder) = [] := by
  unfold presenceCheck
  dsimp only
  split <;> simp [assignmentsIn, assignments]

/-- Writing a nest assigns nothing. -/
theorem assignments_putNest {place : String} {line : C.Code}
    (done : attr.putNest place = .ok line) : assignments line = [] := by
  obtain ⟨nested, _, rfl⟩ := map_eq_ok_iff.1 done
  rw [assignments]

/-- Writing a scalar assigns nothing. -/
theorem assignments_putScalar (attr : Attribute) (type : ScalarType) (place : String) :
    assignments (attr.putScalar type place) = [] := by
  rw [putScalar, assignments]

/-- Writing each element assigns nothing. -/
theorem assignmentsIn_putEach (done : attr.putEach holder = .ok code) :
    assignmentsIn code = [] := by
  unfold putEach at done
  dsimp only at done
  split at done
  · simp only [bind_eq_ok_iff, pure_eq_ok_iff, exists_eq_left'] at done
    simp [← done, assignmentsIn, assignments, assignments_putScalar]
  · simp only [bind_eq_ok_iff, pure_eq_ok_iff] at done
    obtain ⟨line, made, rfl⟩ := done
    simp [assignmentsIn, assignments, assignments_putNest made]
  · cases done

/-- Putting a member into a message assigns nothing. -/
theorem assignmentsIn_put (done : attr.put holder = .ok code) : assignmentsIn code = [] := by
  have guarded {line : C.Code} (quiet : assignments line = []) :
      assignmentsIn (attr.presenceCheck holder ++ [line]) = [] := by
    simp [assignmentsIn_presenceCheck, assignmentsIn, quiet]
  unfold put at done
  dsimp only at done
  split at done
  · exact assignmentsIn_putEach done
  · split at done
    · rw [← Except.ok.inj done, assignmentsIn]
    · cases done
    · cases done
    · cases done
    · exact Except.ok.inj done ▸ guarded (assignments_putScalar attr _ _)
    · exact Except.ok.inj done ▸ guarded (by rw [assignments])
    · exact Except.ok.inj done ▸ guarded (by rw [assignments])
    · exact Except.ok.inj done ▸ guarded (by rw [assignments])
    · obtain ⟨line, made, rfl⟩ := map_eq_ok_iff.1 done
      exact guarded (assignments_putNest made)

end Attribute

namespace Library

open Declaration Outcome C.Code

/-- Where the callback is stored. -/
def callbackPlace : OperationMode → String
  | .dump => "yds.cb"
  | .call | .notify | .event => "yrs.cb"

/-- Where a call goes on after an error. -/
def errorLabel : OperationMode → String
  | .dump => "free_list"
  | .call | .notify | .event => "err_free"

/-- What holds the reply when an error occurs. -/
def replyHolder : OperationMode → String
  | .dump => "yds.first"
  | .call | .notify | .event => "rsp"

/-- A body stores one callback, and behind the label that errors go to it calls the release. -/
structure Registers (mode : OperationMode) (parser release : String) (body : List C.Code) :
    Prop where
  callback : (assignmentsIn body).filter (fun assignment =>
      assignment.1 == "yrs.cb" || assignment.1 == "yds.cb") = [(callbackPlace mode, parser)]
  leaves : .line ("goto " ++ errorLabel mode ++ ";") ∈ body
  errorPath : [.line (errorLabel mode ++ ":"), .call release [replyHolder mode],
    .line "return NULL;"] <:+ body

/-- The loop over the attributes of a message. -/
def messageLoop : String :=
  "mnl_attr_for_each(attr, nlh, sizeof(struct genlmsghdr))"

/-- A body parses attributes into a structure of a type. In one loop, a chain has an arm for each of
them that is no single pad, in order. Behind the loop, each array has a block that fills it. -/
inductive ParsesInto (attrs : List Attribute) (type : String) : List C.Code → Prop where
  | nothing (empty : attrs = []) : ParsesInto attrs type [.line "return MNL_CB_OK;"]
  | members {front back : List C.Code} {arms : List C.Arm} {counted : List Attribute}
      (target : .line (type ++ " *dst;") ∈ front) (placed : .assign "dst" "yarg->data" ∈ front)
      (reads : List.Forall₂ Attribute.HasArm
        (attrs.filter fun attr => !(attr.kind == .pad && !attr.multi)) arms)
      (arrays : counted.Perm (attrs.filter fun attr => attr.multi || attr.kind == .arrayNest))
      (fills : List.Forall₂ (Attribute.Filled messageLoop) counted (back.filter isBlock)) :
      ParsesInto attrs type
        (front ++ .block messageLoop
          (.assign "unsigned int type" "mnl_attr_get_type(attr)" :: .space ::
            C.Arm.chain true arms) "" :: back)

/-- A counter is declared if an array of structures is among the attributes. -/
inductive Counts (attrs : List Attribute) : List C.Code → Prop where
  | needed {attr : Attribute} (listed : attr ∈ attrs) (holds : attr.HoldsStructures) :
      Counts attrs [.line "unsigned int i;", .space]
  | idle (none : ∀ attr ∈ attrs, ¬attr.HoldsStructures) : Counts attrs []

/-- A body releases attributes, in order, and then what holds them. A dump does so for all elements
of its list. -/
inductive ReleasesReply (attrs : List Attribute) (type : String) :
    OperationMode → List C.Code → Prop where
  | one {mode : OperationMode} {count : List C.Code} {parts : List (List C.Code)}
      (other : mode ≠ .dump) (counts : Counts attrs count)
      (frees : List.Forall₂ (Attribute.Freed "rsp->") attrs parts) :
      ReleasesReply attrs type mode (count ++ parts.flatten ++ [.call "free" ["rsp"]])
  | list {count : List C.Code} {parts : List (List C.Code)} (counts : Counts attrs count)
      (frees : List.Forall₂ (Attribute.Freed "rsp->obj.") attrs parts) :
      ReleasesReply attrs type .dump
        [.line (type ++ " *next = rsp;"), .space,
          .block "while ((void *)next != YNL_LIST_END)"
            (count ++ [.assign "rsp" "next", .assign "next" "rsp->next", .space] ++
              parts.flatten ++ [.call "free" ["rsp"]]) ""]

variable {family : Family} {operation : Operation} {subject : Subject} {layout : Layout}
  {declarations : List Declaration}

/-- Writing the members of a message assigns nothing. -/
theorem assignmentsIn_putMembers {holder : String} {members : List C.Code}
    (done : putMembers family layout holder = .ok members) : assignmentsIn members = [] := by
  simp only [putMembers, bind_eq_ok_iff, pure_eq_ok_iff] at done
  obtain ⟨lines, made, rfl⟩ := done
  refine assignmentsIn_flatten fun part listed => ?_
  obtain ⟨_, _, done⟩ := mem_of_mapM made part listed
  exact Attribute.assignmentsIn_put done

/-- Writing a request assigns nothing. -/
theorem assignmentsIn_putRequest {members : List C.Code}
    (done : putRequest family subject = .ok members) : assignmentsIn members = [] := by
  unfold putRequest at done
  split at done
  · rw [← Except.ok.inj done, assignmentsIn]
  · exact assignmentsIn_putMembers done

/-- The policy of a request is no callback. -/
theorem assignmentsIn_requestPolicy (subject : Subject) :
    (assignmentsIn (requestPolicy subject)).filter (fun assignment =>
      assignment.1 == "yrs.cb" || assignment.1 == "yds.cb") = [] := by
  unfold requestPolicy
  cases subject.request <;> simp [assignmentsIn, assignments]

/-- A call with a reply registers the reply's parser and its release. -/
theorem registers_answeredCall {members : List C.Code} (quiet : assignmentsIn members = [])
    (operation : Operation) (subject : Subject) (reply : Layout) :
    Registers .call (parserName subject false) (releaseName subject .reply)
      (answeredCall operation subject reply members) where
  callback := by
    simp [answeredCall, failure, start, assignmentsIn, assignments, quiet,
      assignmentsIn_requestPolicy, callbackPlace]
  leaves := by simp [answeredCall, failure, errorLabel]
  errorPath := suffix_flatten rfl ⟨[.space, .line "return rsp;", .space], rfl⟩

/-- A call that is answered is performed by a function that registers parser and release. -/
theorem exists_call (done : call family operation subject = .ok declarations)
    (told : subject.reply = some layout) :
    ∃ body, .function (callSignature operation subject) body ∈ declarations ∧
      Registers .call (parserName subject false) (releaseName subject .reply) body := by
  simp only [call, told, bind_eq_ok_iff, pure_eq_ok_iff] at done
  obtain ⟨members, put, rfl⟩ := done
  exact ⟨_, List.mem_singleton_self _,
    registers_answeredCall (assignmentsIn_putRequest put) operation subject layout⟩

/-- A dump registers the parser of an element and the release of the list. -/
theorem exists_dump (done : dump family operation subject = .ok declarations) :
    ∃ body, .function (callSignature operation subject) body ∈ declarations ∧
      Registers .dump (parserName subject true) (releaseName subject .reply) body := by
  unfold dump at done
  cases told : subject.reply with
  | none => simp [told] at done
  | some layout =>
      simp only [told, bind_eq_ok_iff, pure_eq_ok_iff] at done
      obtain ⟨members, put, rfl⟩ := done
      refine ⟨_, List.mem_singleton_self _, ?_, by simp [failure, errorLabel],
        suffix_flatten rfl ⟨[.space, .line "return yds.first;", .space], rfl⟩⟩
      have quiet := assignmentsIn_putRequest put
      cases subject.request.isSome <;>
        simp [failure, start, assignmentsIn, assignments, quiet, assignmentsIn_requestPolicy,
          callbackPlace]

/-- The arrays among attributes are those that are repeated and those with entries inside. -/
theorem perm_counted (attrs : List Attribute) :
    (sortedByName (attrs.filter fun attr => !attr.multi && attr.kind == .arrayNest) ++
        sortedByName (attrs.filter Attribute.multi)).Perm
      (attrs.filter fun attr => attr.multi || attr.kind == .arrayNest) := by
  have sorted (some : List Attribute) : (sortedByName some).Perm some := List.mergeSort_perm ..
  have split := List.filter_append_perm (fun attr : Attribute => !attr.multi)
    (attrs.filter fun attr => attr.multi || attr.kind == .arrayNest)
  rw [List.filter_filter, List.filter_filter] at split
  refine ((sorted _).append (sorted _)).trans (.trans (.of_eq ?_) split)
  congr 2
  · funext attr
    cases attr.multi <;> rfl
  · funext attr
    cases attr.multi <;> rfl

/-- Single blocks that stand for attributes are kept where blocks are picked out. -/
theorem exists_fills {loop : String} {attrs : List Attribute} {parts : List (List C.Code)}
    (each : List.Forall₂ (fun attr code => ∃ block, code = [block] ∧ attr.Filled loop block) attrs
      parts) :
    List.Forall₂ (Attribute.Filled loop) attrs (parts.flatten.filter isBlock) := by
  induction each with
  | nil => exact .nil
  | cons here _ ih =>
      obtain ⟨block, rfl, fills⟩ := here
      have picked : isBlock block = true := by cases fills <;> rfl
      rw [List.flatten_cons, List.singleton_append, List.filter_cons_of_pos picked]
      exact .cons fills ih

/-- What the parser of a message holds is told by the members of its layout. -/
theorem parsesInto_parserBody {type : String} {body : List C.Code}
    (message : layout.IsMessage family.toScope)
    (parsed : parserBody family layout [.assign "dst" "yarg->data"]
      [type ++ " *dst;", "struct ynl_parse_arg *yarg = data;", "const struct nlattr *attr;"] =
        .ok body) :
    ParsesInto (layout.attributes family.toScope) type body := by
  have loop : attributeLoop layout = messageLoop := by
    rw [attributeLoop, message.flat, if_neg Bool.false_ne_true, messageLoop]
  obtain ⟨arms, front, arrays, repeated, each, filled, refilled, declares, prepares, rfl⟩ :=
    exists_parts parsed
  rw [loop] at refilled ⊢
  have reads := (forall₂_mem each).imp fun attr arm both => by
    have read := (List.mem_filter.1 both.1).2
    exact Attribute.hasArm_of_isArm both.2 (by simpa using read)
  have ofArrays := exists_fills ((forall₂_mem (mapM_eq_ok_iff.1 filled)).imp fun attr code both => by
    have kept := (List.mem_filter.1 (List.mem_mergeSort.1 both.1)).2
    obtain ⟨single, kind⟩ := Bool.and_eq_true_iff.1 kept
    have fills : ∃ block, code = [block] ∧ attr.Filled messageLoop block :=
      Attribute.filled_of_fillArray (by simpa using single) (by simpa using kind) both.2
    exact fills)
  have ofRepeated := exists_fills ((forall₂_mem (mapM_eq_ok_iff.1 refilled)).imp
    fun attr code both => by
      have kept := (List.mem_filter.1 (List.mem_mergeSort.1 both.1)).2
      exact Attribute.filled_of_fillRepeated kept both.2)
  refine .members (declares _ List.mem_cons_self) (prepares _ List.mem_cons_self) reads
    (perm_counted _) ?_
  have blocks (result : String) :
      (C.Code.space :: [arrays.flatten, [.space], repeated.flatten,
        [.space, .line result]].flatten).filter isBlock =
      arrays.flatten.filter isBlock ++ repeated.flatten.filter isBlock := by
    simp [isBlock]
  rw [blocks]
  exact List.rel_append ofArrays ofRepeated

/-- The release of the members is told by the attributes. -/
theorem freed_of_releaseMembers {attrs : List Attribute} {holder inner : String}
    {members : List C.Code} (done : releaseMembers attrs holder inner = .ok members) :
    ∃ parts, List.Forall₂ (Attribute.Freed (holder ++ "->" ++ inner)) attrs parts ∧
      members = parts.flatten := by
  simp only [releaseMembers, bind_eq_ok_iff, pure_eq_ok_iff] at done
  obtain ⟨parts, made, rfl⟩ := done
  exact ⟨parts, (mapM_eq_ok_iff.1 made).imp fun attr part freed => Attribute.freed_of_free freed, rfl⟩

/-- A counter is declared where a loop needs one. -/
theorem counts_counter (attrs : List Attribute) : Counts attrs (counter attrs) := by
  unfold counter
  split
  · rename_i some
    obtain ⟨attr, listed, loops⟩ := List.any_eq_true.1 some
    exact .needed listed (Attribute.holdsNests_iff.1 loops)
  · rename_i none
    refine .idle fun attr listed holds => none ?_
    exact List.any_eq_true.2 ⟨attr, listed, Attribute.holdsNests_iff.2 holds⟩

/-- The parser of a reply parses the members of its layout. -/
theorem exists_replyParser {element : Bool}
    (done : replyParser family subject element = .ok declarations)
    (told : subject.reply = some layout) (message : layout.IsMessage family.toScope) :
    ∃ body, .function (parserSignature subject element) body ∈ declarations ∧
      ParsesInto (layout.attributes family.toScope) (subject.structType .reply element) body := by
  simp only [replyParser, told] at done
  split at done
  · rename_i empty
    simp only [bind_eq_ok_iff, pure_eq_ok_iff, exists_eq_left'] at done
    have none : layout.attributes family.toScope = [] := by
      rw [List.isEmpty_iff, message.members, List.map_eq_nil_iff] at empty
      exact empty
    exact ⟨_, done ▸ List.mem_cons_self, .nothing none⟩
  · simp only [bind_eq_ok_iff, pure_eq_ok_iff] at done
    obtain ⟨body, parsed, rfl⟩ := done
    exact ⟨body, List.mem_cons_self, parsesInto_parserBody message parsed⟩

/-- The release of a reply releases the members of its layout. -/
theorem exists_release (done : releasePart family subject .reply = .ok declarations)
    (told : subject.reply = some layout) :
    ∃ body, .function (releaseSignature subject .reply) body ∈ declarations ∧
      ReleasesReply (layout.attributes family.toScope) (subject.structType .reply false) .call
        body := by
  simp only [releasePart, Subject.layout?, told, release, bind_eq_ok_iff, pure_eq_ok_iff] at done
  obtain ⟨members, released, rfl⟩ := done
  obtain ⟨parts, frees, rfl⟩ := freed_of_releaseMembers released
  have path : "rsp" ++ "->" ++ "" = "rsp->" := rfl
  exact ⟨_, List.mem_cons_self, .one (by decide) (counts_counter _) (path ▸ frees)⟩

/-- The release of a list releases the members of each element. -/
theorem exists_releaseList (done : releaseList family subject = .ok declarations)
    (told : subject.reply = some layout) :
    ∃ body, .function (releaseSignature subject .reply) body ∈ declarations ∧
      ReleasesReply (layout.attributes family.toScope) (subject.structType .reply false) .dump
        body := by
  simp only [releaseList, told, bind_eq_ok_iff, pure_eq_ok_iff] at done
  obtain ⟨members, released, rfl⟩ := done
  obtain ⟨parts, frees, rfl⟩ := freed_of_releaseMembers released
  have path : "rsp" ++ "->" ++ "obj." = "rsp->obj." := rfl
  exact ⟨_, List.mem_cons_self, .list (counts_counter _) (path ▸ frees)⟩

end Library

end NetlinkFamily
