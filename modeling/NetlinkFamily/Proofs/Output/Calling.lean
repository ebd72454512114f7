import NetlinkFamily.Output.Library.Files
import NetlinkFamily.Proofs.Outcome

namespace NetlinkFamily

/-- The ending of the names of all parsers. -/
def IsParser (name : String) : Prop :=
  ∃ stem, name = stem ++ "_parse"

/-- Read backwards, a text starts with what was added last. -/
theorem toList_reverse_append (first second : String) :
    (first ++ second).toList.reverse = second.toList.reverse ++ first.toList.reverse := by
  rw [String.toList_append, List.reverse_append]

/-- Names that end in two other characters are not those of parsers. -/
theorem not_isParser {name : String} (other : name.toList.reverse.take 2 ≠ ['e', 's']) :
    ¬IsParser name := by
  rintro ⟨stem, rfl⟩
  apply other
  rw [toList_reverse_append]
  rfl

/-- A name that ends otherwise than a parser's name is none. -/
theorem not_isParser_append (stem : String) {ending : String}
    (long : 2 ≤ ending.toList.reverse.length)
    (other : ending.toList.reverse.take 2 ≠ ['e', 's']) : ¬IsParser (stem ++ ending) := by
  apply not_isParser
  rwa [toList_reverse_append, List.take_append_of_le_length long]

namespace C.Code

open Outcome

/-- Code that calls no parser. -/
def Silent (code : List Code) : Prop :=
  ∀ call ∈ callsIn code, ¬IsParser call.1

/-- Code without calls is silent. -/
theorem silent_of_eq_nil {code : List Code} (none : callsIn code = []) : Silent code := by
  simp [Silent, none]

/-- Code is silent exactly when both its halves are. -/
theorem silent_append_iff {first second : List Code} :
    Silent (first ++ second) ↔ Silent first ∧ Silent second := by
  simp only [Silent, callsIn_append, List.forall_mem_append]

/-- Code is silent exactly when its first line and the rest of it are. -/
theorem silent_cons_iff {first : Code} {rest : List Code} :
    Silent (first :: rest) ↔ Silent [first] ∧ Silent rest := by
  rw [← silent_append_iff, List.singleton_append]

/-- A call is silent exactly when what it calls is no parser. -/
theorem silent_call_iff {function : String} {arguments : List String} :
    Silent [.call function arguments] ↔ ¬IsParser function := by
  simp [Silent, callsIn, calls]

/-- Code is silent when every line of it is. -/
theorem silent_of_forall {code : List Code} (each : ∀ line ∈ code, Silent [line]) :
    Silent code := by
  induction code with
  | nil => exact silent_of_eq_nil rfl
  | cons line rest ih =>
      obtain ⟨here, later⟩ := List.forall_mem_cons.1 each
      exact silent_cons_iff.2 ⟨here, ih later⟩

/-- A block around silent code is silent. -/
theorem Silent.block {code : List Code} (silent : Silent code) {header closing : String} :
    Silent [.block header code closing] := by
  simpa [Silent, callsIn, calls] using silent

/-- What is collected from silent steps is silent. -/
theorem silent_flatten_of_mapM {A E : Type} {f : A → Except E (List Code)} {list : List A}
    {parts : List (List Code)} (done : list.mapM f = .ok parts)
    (step : ∀ a code, f a = .ok code → Silent code) : Silent parts.flatten := by
  intro call called
  obtain ⟨part, listed, inside⟩ := mem_callsIn_flatten.1 called
  obtain ⟨a, _, made⟩ := mem_of_mapM done part listed
  exact step a part made call inside

/-- The parsers that code calls, with the arguments of each call. -/
def CallsFor (expected : String × List String → Prop) (code : List Code) : Prop :=
  ∀ call, IsParser call.1 → (call ∈ callsIn code ↔ expected call)

section CallsFor

variable {expected others : String × List String → Prop} {code rest : List Code}

/-- Silent code calls no parsers. -/
theorem Silent.callsFor (silent : Silent code) : CallsFor (fun _ => False) code :=
  fun call parser => iff_of_false (fun called => silent call called parser) id

/-- Expected calls may be told by any equivalent property. -/
theorem CallsFor.congr (calls : CallsFor expected code)
    (same : ∀ call, expected call ↔ others call) : CallsFor others code :=
  fun call parser => (calls call parser).trans (same call)

/-- Code that follows adds its own calls. -/
theorem CallsFor.append (first : CallsFor expected code) (second : CallsFor others rest) :
    CallsFor (fun call => expected call ∨ others call) (code ++ rest) := by
  intro call parser
  rw [callsIn_append, List.mem_append, first call parser, second call parser]

/-- Silent code behind adds no calls. -/
theorem CallsFor.append_silent (first : CallsFor expected code) (silent : Silent rest) :
    CallsFor expected (code ++ rest) :=
  (first.append silent.callsFor).congr fun _ => .of_eq (or_false _)

/-- Silent code in front adds no calls. -/
theorem Silent.append_callsFor (silent : Silent code) (second : CallsFor expected rest) :
    CallsFor expected (code ++ rest) :=
  (silent.callsFor.append second).congr fun _ => .of_eq (false_or _)

/-- A block makes the calls of what it holds. -/
theorem CallsFor.block (calls : CallsFor expected code) {header closing : String} :
    CallsFor expected [.block header code closing] := by
  intro call parser
  rw [← calls call parser]
  simp [callsIn, C.Code.calls]

/-- Steps that are collected call what each of them calls. -/
theorem callsFor_flatten {A : Type} {list : List A} {parts : List (List Code)}
    {expected : A → String × List String → Prop}
    (each : List.Forall₂ (fun a part => CallsFor (expected a) part) list parts) :
    CallsFor (fun call => ∃ a ∈ list, expected a call) parts.flatten := by
  induction each with
  | nil => exact (silent_of_eq_nil rfl).callsFor.congr fun _ => by simp
  | cons here _ ih =>
      rw [List.flatten_cons]
      refine (here.append ih).congr fun call => ?_
      rw [List.exists_mem_cons_iff fun item => expected item call]

end CallsFor

end C.Code

namespace Attribute

open C.Code Outcome

variable {attr : Attribute} {holder inner : String} {code : List C.Code}

/-- A release is no parser. -/
theorem not_isParser_free (stem : String) : ¬IsParser (stem ++ "_free") :=
  not_isParser_append stem (by decide) (by decide)

/-- The release of a member calls no parser. -/
theorem silent_free (done : attr.free holder inner = .ok code) : Silent code := by
  have memory : ¬IsParser "free" := not_isParser (by decide)
  unfold free at done
  dsimp only at done
  split at done
  · simp only [bind_eq_ok_iff, pure_eq_ok_iff] at done
    obtain ⟨nested, _, rfl⟩ := done
    simp [Silent, callsIn, calls, memory, not_isParser_free]
  · split at done
    · rw [← Except.ok.inj done]
      exact silent_call_iff.2 memory
    · split at done
      · simp only [bind_eq_ok_iff, pure_eq_ok_iff] at done
        obtain ⟨nested, _, rfl⟩ := done
        exact silent_call_iff.2 (not_isParser_free _)
      · simp only [bind_eq_ok_iff, pure_eq_ok_iff] at done
        obtain ⟨nested, _, rfl⟩ := done
        exact silent_call_iff.2 (not_isParser_free _)
      · rw [← Except.ok.inj done]
        exact silent_call_iff.2 memory
      · rw [← Except.ok.inj done]
        exact silent_call_iff.2 memory
      · rw [← Except.ok.inj done]
        exact silent_of_eq_nil rfl

/-- Testing for presence is silent. -/
theorem silent_presenceCheck (attr : Attribute) (holder : String) :
    Silent (attr.presenceCheck holder) := by
  unfold presenceCheck
  dsimp only
  split <;> exact silent_of_eq_nil rfl

/-- Writing a scalar is silent. -/
theorem silent_putScalar (attr : Attribute) (type : ScalarType) (place : String) :
    Silent [attr.putScalar type place] := by
  refine silent_call_iff.2 (not_isParser_append _ ?_ ?_) <;> cases type <;> decide

/-- Writing a nest is silent. -/
theorem silent_putNest {place : String} {line : C.Code} (done : attr.putNest place = .ok line) :
    Silent [line] := by
  obtain ⟨nested, _, rfl⟩ := map_eq_ok_iff.1 done
  exact silent_call_iff.2 (not_isParser_append _ (by decide) (by decide))

/-- Writing each element is silent. -/
theorem silent_putEach (done : attr.putEach holder = .ok code) : Silent code := by
  have loop {line : C.Code} {text : String} (silent : Silent [line]) :
      Silent [.line text, line] :=
    silent_cons_iff.2 ⟨silent_of_eq_nil rfl, silent⟩
  unfold putEach at done
  dsimp only at done
  split at done
  · simp only [bind_eq_ok_iff, pure_eq_ok_iff, exists_eq_left'] at done
    exact done ▸ loop (silent_putScalar attr _ _)
  · simp only [bind_eq_ok_iff, pure_eq_ok_iff] at done
    obtain ⟨line, made, rfl⟩ := done
    exact loop (silent_putNest made)
  · cases done

/-- Putting a member into a message calls no parser. -/
theorem silent_put (done : attr.put holder = .ok code) : Silent code := by
  have guarded {line : C.Code} (silent : Silent [line]) :
      Silent (attr.presenceCheck holder ++ [line]) :=
    silent_append_iff.2 ⟨silent_presenceCheck attr holder, silent⟩
  unfold put at done
  dsimp only at done
  split at done
  · exact silent_putEach done
  · split at done
    · exact silent_of_eq_nil (by rw [← Except.ok.inj done]; rfl)
    · cases done
    · cases done
    · cases done
    · exact Except.ok.inj done ▸ guarded (silent_putScalar attr _ _)
    · exact Except.ok.inj done ▸ guarded (silent_call_iff.2 (not_isParser (by decide)))
    · exact Except.ok.inj done ▸ guarded (silent_call_iff.2 (not_isParser (by decide)))
    · exact Except.ok.inj done ▸ guarded (silent_call_iff.2 (not_isParser (by decide)))
    · obtain ⟨line, made, rfl⟩ := map_eq_ok_iff.1 done
      exact guarded (silent_putNest made)

end Attribute

namespace Declaration

open C.Code Outcome

/-- All code of some declarations. -/
def allCode (declarations : List Declaration) : List C.Code :=
  declarations.flatMap code

/-- Code of two lists is that of the first and then that of the second. -/
@[simp] theorem allCode_append (first second : List Declaration) :
    allCode (first ++ second) = allCode first ++ allCode second :=
  List.flatMap_append

/-- Code of a list is that of its head and then that of its tail. -/
theorem allCode_cons (first : Declaration) (rest : List Declaration) :
    allCode (first :: rest) = first.code ++ allCode rest :=
  List.flatMap_cons

/-- A comment is silent. -/
theorem silent_comment (text : String) : Silent (allCode [.comment text]) :=
  silent_of_eq_nil rfl

/-- A blank line is silent. -/
theorem silent_space : Silent (allCode [.space]) :=
  silent_of_eq_nil rfl

variable {expected : String × List String → Prop} {body : List C.Code}

/-- No declarations are silent. -/
theorem silent_nil : Silent (allCode []) :=
  silent_of_eq_nil rfl

/-- A silent declaration in front of silent ones keeps them silent. -/
theorem silent_cons {first : Declaration} {rest : List Declaration} (here : Silent first.code)
    (later : Silent (allCode rest)) : Silent (allCode (first :: rest)) := by
  rw [allCode_cons]
  exact silent_append_iff.2 ⟨here, later⟩

/-- A function makes the calls of its body. -/
theorem callsFor_code (signature : C.Signature) (calls : CallsFor expected body) :
    CallsFor expected (Declaration.function signature body).code := by
  have front : Silent (signature.prototype none "" ++ locals []) :=
    silent_append_iff.2 ⟨silent_of_eq_nil (callsIn_map_line _), silent_of_eq_nil rfl⟩
  exact front.append_callsFor calls.block

/-- A function calls what its body calls. -/
theorem callsFor_function (signature : C.Signature) (calls : CallsFor expected body) :
    CallsFor expected (allCode [.function signature body, .space]) := by
  rw [allCode_cons]
  exact (callsFor_code signature calls).append_silent silent_space

/-- A function with a silent body is silent. -/
theorem silent_code (signature : C.Signature) (silent : Silent body) :
    Silent (Declaration.function signature body).code := fun call called parser =>
  (callsFor_code signature silent.callsFor call parser).1 called

/-- A function with a silent body and the blank line behind it are silent. -/
theorem silent_function (signature : C.Signature) (silent : Silent body) :
    Silent (allCode [.function signature body, .space]) :=
  silent_cons (silent_code signature silent) silent_space

/-- What is made of each item calls what is made of one of them. -/
theorem callsFor_each {A : Type} {items : List A} {f : A → Except ModelError (List Declaration)}
    {declarations : List Declaration} {expected : A → String × List String → Prop}
    (done : Library.each items f = .ok declarations)
    (step : ∀ item ∈ items, ∀ part, f item = .ok part → CallsFor (expected item) (allCode part)) :
    CallsFor (fun call => ∃ item ∈ items, expected item call) (allCode declarations) := by
  obtain ⟨parts, made, rfl⟩ := map_eq_ok_iff.1 done
  have each := forall₂_mem (mapM_eq_ok_iff.1 made)
  have whole : allCode parts.flatten = (parts.map allCode).flatten := by
    simp only [allCode, List.flatMap_def, List.map_flatten, List.flatten_flatten, List.map_map,
      Function.comp_def]
    rfl
  rw [whole]
  refine callsFor_flatten (List.forall₂_map_right_iff.2 (each.imp fun item part both => ?_))
  exact step item both.1 part both.2

/-- What is made under a condition makes the calls of its body where the condition holds. -/
theorem callsFor_whenever {condition : Bool} {made : Except ModelError (List Declaration)}
    {declarations : List Declaration} (done : Library.whenever condition made = .ok declarations)
    (step : made = .ok declarations → CallsFor expected (allCode declarations)) :
    CallsFor (fun call => condition = true ∧ expected call) (allCode declarations) := by
  unfold Library.whenever at done
  cases holds : condition with
  | true =>
      rw [if_pos holds] at done
      exact (step done).congr fun call => by simp
  | false =>
      rw [holds, if_neg Bool.false_ne_true] at done
      obtain rfl := Except.ok.inj done
      exact (silent_of_eq_nil rfl).callsFor.congr fun call => by simp

/-- What is made under a condition is silent where its body is. -/
theorem silent_whenever {condition : Bool} {made : Except ModelError (List Declaration)}
    {declarations : List Declaration} (done : Library.whenever condition made = .ok declarations)
    (step : made = .ok declarations → Silent (allCode declarations)) :
    Silent (allCode declarations) := fun call called parser =>
  ((callsFor_whenever done fun here => (step here).callsFor) call parser).1 called |>.2

/-- What is made of each item is silent where every part is. -/
theorem silent_each {A : Type} {items : List A} {f : A → Except ModelError (List Declaration)}
    {declarations : List Declaration} (done : Library.each items f = .ok declarations)
    (step : ∀ item part, f item = .ok part → Silent (allCode part)) :
    Silent (allCode declarations) := by
  intro call called parser
  obtain ⟨_, _, absurd⟩ :=
    (callsFor_each done (fun item _ part made => (step item part made).callsFor) call parser).1
      called
  exact absurd

end Declaration

namespace Library

open C.Code Declaration Outcome

variable {family : Family} {operation : Operation} {subject : Subject} {layout : Layout}
  {declarations : List Declaration}

/-- A declared counter is silent. -/
theorem silent_counter (attrs : List Attribute) : Silent (counter attrs) := by
  unfold counter
  split <;> exact silent_of_eq_nil rfl

/-- Releasing the members is silent. -/
theorem silent_releaseMembers {attrs : List Attribute} {holder inner : String}
    {members : List C.Code} (done : releaseMembers attrs holder inner = .ok members) :
    Silent members := by
  simp only [releaseMembers, bind_eq_ok_iff, pure_eq_ok_iff] at done
  obtain ⟨lines, released, rfl⟩ := done
  exact silent_flatten_of_mapM released fun _ _ => Attribute.silent_free

/-- The release of members, with what stands around it. -/
theorem silent_releasing {attrs : List Attribute} {members own : List C.Code}
    (silent : Silent members) (last : Silent own) :
    Silent (counter attrs ++ members ++ own) :=
  silent_append_iff.2 ⟨silent_append_iff.2 ⟨silent_counter attrs, silent⟩, last⟩

/-- Freeing memory is silent. -/
theorem silent_memory (place : String) : Silent [.call "free" [place]] :=
  silent_call_iff.2 (not_isParser (by decide))

/-- The definition of a release is silent. -/
theorem silent_release {part : Part}
    (done : release family subject part layout = .ok declarations) :
    Silent (allCode declarations) := by
  simp only [release, bind_eq_ok_iff, pure_eq_ok_iff] at done
  obtain ⟨members, released, rfl⟩ := done
  refine silent_function _ (silent_releasing ?_ ?_)
  · exact silent_releaseMembers released
  · split
    · exact silent_of_eq_nil rfl
    · exact silent_memory _

/-- All that releases a part is silent. -/
theorem silent_releasePart {part : Part}
    (done : releasePart family subject part = .ok declarations) :
    Silent (allCode declarations) := by
  unfold releasePart at done
  split at done
  · exact Except.ok.inj done ▸ silent_of_eq_nil rfl
  · exact silent_release done

/-- All that releases a list is silent. -/
theorem silent_releaseList (done : releaseList family subject = .ok declarations) :
    Silent (allCode declarations) := by
  unfold releaseList at done
  split at done
  · exact Except.ok.inj done ▸ silent_of_eq_nil rfl
  · simp only [bind_eq_ok_iff, pure_eq_ok_iff] at done
    obtain ⟨members, released, rfl⟩ := done
    refine silent_function _ ?_
    refine silent_cons_iff.2 ⟨silent_of_eq_nil rfl, silent_cons_iff.2 ⟨silent_of_eq_nil rfl, ?_⟩⟩
    refine Silent.block (silent_append_iff.2 ⟨silent_append_iff.2 ⟨silent_append_iff.2
      ⟨silent_counter _, silent_of_eq_nil rfl⟩, silent_releaseMembers released⟩, silent_memory _⟩)

/-- All that releases a notification is silent. -/
theorem silent_releaseNotification
    (done : releaseNotification family subject = .ok declarations) :
    Silent (allCode declarations) := by
  unfold releaseNotification at done
  split at done
  · exact Except.ok.inj done ▸ silent_of_eq_nil rfl
  · simp only [bind_eq_ok_iff, pure_eq_ok_iff] at done
    obtain ⟨members, released, rfl⟩ := done
    refine silent_function _ ?_
    exact silent_releasing (silent_releaseMembers released) (silent_memory _)

/-- Writing the members of a message is silent. -/
theorem silent_putMembers {holder : String} {members : List C.Code}
    (done : putMembers family layout holder = .ok members) : Silent members := by
  simp only [putMembers, bind_eq_ok_iff, pure_eq_ok_iff] at done
  obtain ⟨lines, put, rfl⟩ := done
  exact silent_flatten_of_mapM put fun _ _ => Attribute.silent_put

/-- The definition that writes a nest is silent. -/
theorem silent_putNest (done : putNest family layout = .ok declarations) :
    Silent (allCode declarations) := by
  simp only [putNest, bind_eq_ok_iff, pure_eq_ok_iff] at done
  obtain ⟨members, put, rfl⟩ := done
  have ends : ¬IsParser "mnl_attr_nest_end" := not_isParser (by decide)
  refine silent_function _ ?_
  simp only [List.flatten_cons, List.flatten_nil, silent_append_iff]
  refine ⟨silent_of_eq_nil (callsIn_locals _), silent_of_eq_nil rfl, silent_putMembers put, ?_,
    silent_of_eq_nil rfl⟩
  simp [Silent, callsIn, calls, ends]

/-- Writing a request is silent. -/
theorem silent_putRequest {members : List C.Code}
    (done : putRequest family subject = .ok members) : Silent members := by
  unfold putRequest at done
  split at done
  · exact Except.ok.inj done ▸ silent_of_eq_nil rfl
  · exact silent_putMembers done

/-- Naming the policy of a request is silent. -/
theorem silent_requestPolicy (subject : Subject) : Silent (requestPolicy subject) := by
  unfold requestPolicy
  cases subject.request <;> exact silent_of_eq_nil rfl

/-- The function that calls an operation leaves the reply to its parser, by name. -/
theorem silent_call (done : call family operation subject = .ok declarations) :
    Silent (allCode declarations) := by
  simp only [call, bind_eq_ok_iff, pure_eq_ok_iff] at done
  obtain ⟨members, put, rfl⟩ := done
  have silent := silent_putRequest put
  refine silent_cons (silent_code _ ?_) silent_nil
  split
  · simp only [silentCall, List.flatten_cons, List.flatten_nil, silent_append_iff]
    exact ⟨silent_of_eq_nil (callsIn_locals _), silent_of_eq_nil rfl, silent_requestPolicy _,
      silent_of_eq_nil rfl, silent, silent_of_eq_nil rfl, silent_of_eq_nil rfl,
      silent_of_eq_nil rfl, silent_of_eq_nil rfl⟩
  · simp only [answeredCall, List.flatten_cons, List.flatten_nil, silent_append_iff]
    refine ⟨silent_of_eq_nil (callsIn_locals _), silent_of_eq_nil rfl, silent_requestPolicy _,
      silent_of_eq_nil rfl, silent, silent_of_eq_nil rfl, silent_of_eq_nil rfl, ?_,
      silent_of_eq_nil rfl⟩
    simp [Silent, callsIn, calls, releaseName, Attribute.not_isParser_free]

/-- The definition that performs a dump is silent. -/
theorem silent_dump (done : dump family operation subject = .ok declarations) :
    Silent (allCode declarations) := by
  unfold dump at done
  split at done
  · cases done
  · simp only [bind_eq_ok_iff, pure_eq_ok_iff] at done
    obtain ⟨members, put, rfl⟩ := done
    refine silent_cons (silent_code _ ?_) silent_nil
    simp only [List.flatten_cons, List.flatten_nil, silent_append_iff]
    refine ⟨silent_of_eq_nil rfl, ?_, silent_of_eq_nil rfl, silent_of_eq_nil rfl, ?_,
      silent_of_eq_nil rfl⟩
    · split
      · simp only [silent_append_iff]
        exact ⟨⟨silent_requestPolicy _, silent_of_eq_nil rfl⟩, silent_putRequest put⟩
      · exact silent_of_eq_nil rfl
    · simp [Silent, callsIn, calls, releaseName, Attribute.not_isParser_free]

/-- Tables and the functions that look names up call no functions of their own. -/
theorem silent_lookUpName (stem table parameter : String) (set : Option EnumSet) :
    Silent (allCode (lookUpName stem table parameter set)) := by
  refine silent_function _ ?_
  refine silent_append_iff.2 ⟨?_, silent_of_eq_nil rfl⟩
  split <;> exact silent_of_eq_nil rfl

/-- A table of names is silent. -/
theorem silent_nameTable {table : String} {entries : List C.Code}
    (silent : ∀ entry ∈ entries, Silent [entry]) : Silent (allCode (nameTable table entries)) :=
  silent_cons (silent_of_forall silent).block silent_space

/-- The table of operation names is silent. -/
theorem silent_operationNames (family : Family) : Silent (allCode (operationNames family)) := by
  unfold operationNames
  rw [allCode_append]
  refine silent_append_iff.2 ⟨silent_nameTable fun entry listed => ?_, silent_lookUpName _ _ _ _⟩
  obtain ⟨⟨name, operation⟩, _, made⟩ := List.mem_filterMap.1 listed
  obtain ⟨value, _, rfl⟩ := Option.map_eq_some_iff.1 made
  split <;> exact silent_of_eq_nil rfl

/-- The table of entry names is silent. -/
theorem silent_entryNames (set : EnumSet) : Silent (allCode (entryNames set)) := by
  unfold entryNames
  rw [allCode_append]
  refine silent_append_iff.2 ⟨silent_nameTable fun entry listed => ?_, silent_lookUpName _ _ _ _⟩
  obtain ⟨value, _, rfl⟩ := List.mem_map.1 listed
  exact silent_of_eq_nil rfl

/-- A validation table is silent. -/
theorem silent_validation (done : validation family layout = .ok declarations) :
    Silent (allCode declarations) := by
  simp only [validation, bind_eq_ok_iff, pure_eq_ok_iff] at done
  obtain ⟨set, _, entries, made, rfl⟩ := done
  have rows : Silent entries := silent_of_forall fun entry listed => by
    obtain ⟨attr, _, line⟩ := mem_of_mapM made entry listed
    obtain ⟨_, _, rfl⟩ := map_eq_ok_iff.1 line
    exact silent_of_eq_nil rfl
  exact silent_cons (silent_append_iff.2 ⟨rows.block, silent_of_eq_nil rfl⟩) silent_nil

/-- The description of a family is silent. -/
theorem silent_familyDescription (done : familyDescription family = .ok declarations) :
    Silent (allCode declarations) := by
  simp only [familyDescription, bind_eq_ok_iff, pure_eq_ok_iff] at done
  obtain ⟨entries, _, rfl⟩ := done
  have told : Silent (entries.map NotificationEntry.code) := silent_of_forall fun line listed => by
    obtain ⟨entry, _, rfl⟩ := List.mem_map.1 listed
    exact silent_of_eq_nil rfl
  rw [allCode_append]
  refine silent_append_iff.2 ⟨?_, silent_cons (Silent.block ?_) silent_nil⟩
  · split
    · exact silent_nil
    · exact silent_cons told.block silent_space
  · split <;> exact silent_of_eq_nil rfl

end Library

end NetlinkFamily
