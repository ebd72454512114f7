import NetlinkFamily.Proofs.Model.Counting
import NetlinkFamily.Proofs.Model.Subsets
import NetlinkFamily.Proofs.Nesting.Failure

namespace NetlinkFamily

open Outcome

namespace Spec

/-- What an attribute means to the counter of its set. -/
def Attribute.count (attr : Attribute) : Count :=
  { given := attr.value }

/-- An attribute that can be declared. -/
def Attribute.IsTyped (attr : Attribute) : Prop :=
  (AttributeKind.ofName? (attr.kind.getD "")).isSome = true

/-- Whether an attribute is typed can be tested. -/
instance decidableIsTyped (attr : Attribute) : Decidable attr.IsTyped :=
  inferInstanceAs (Decidable (_ = true))

/-- The attributes of a set with their numbers, under their names. -/
def AttributeSet.rows (set : AttributeSet) : Registry (Attribute × Nat) :=
  Registry.ofList ((withNumbers Attribute.count 1 set.attributes).map fun row => (row.1.name, row))

/-- Whether an operation stands for a message that comes without being asked for. -/
def Operation.isNotice (operation : Operation) : Bool :=
  operation.notify.isSome || operation.event.isSome

/-- The mode that the numbers of a call are taken from. -/
def Operation.leading (operation : Operation) : Option Mode :=
  operation.doMode.or operation.dumpMode

/-- What an operation means to the counter of a direction. -/
def Operation.count (operation : Operation) : NumberingModel → NetlinkFamily.Direction → Count
  | .unified, _ => { given := operation.value }
  | .directional, .request =>
      if operation.isNotice then { advances := false }
      else { given := (operation.leading.bind Mode.request).bind Direction.value }
  | .directional, .reply =>
      if operation.isNotice then { given := operation.value }
      else
        { given := (operation.leading.bind Mode.reply).bind Direction.value
          advances := (operation.leading.bind Mode.reply).isSome }

/-- An operation that a model can number. -/
def Operation.Fits (numbering : NumberingModel) (operation : Operation) : Prop :=
  numbering = .directional → operation.isNotice = true ∨ operation.leading.isSome = true

/-- The operations with their numbers for a direction, under their names. -/
def Operations.rows (operations : Operations) (direction : NetlinkFamily.Direction) :
    Registry (Operation × Nat) :=
  Registry.ofList ((withNumbers (fun operation => operation.count operations.numbering direction) 1
    operations.list).map fun row => (row.1.name, row))

/-- The attribute sets under their names. One that repeats a name takes the place of the earlier. -/
def Family.namedSets (spec : Family) : Registry AttributeSet :=
  Registry.ofList (spec.attributeSets.map fun set => (set.name, set))

/-- A counter of the family comes to its end, and nothing has failed before. -/
inductive Family.RunsOut (spec : Family) : Prop where
  | ofSet {before after : List AttributeSet} {set : AttributeSet}
      {known : Registry NetlinkFamily.AttributeSet}
      (split : spec.attributeSets = before ++ set :: after)
      (declared : NetlinkFamily.AttributeSet.declare spec.name
        (Constant.declare spec.name spec.definitions) before = .ok known)
      (whole : set.subsetOf = none)
      (full : Exhausts Attribute.count Attribute.IsTyped 1 set.attributes)
  | ofMessages {known : Registry NetlinkFamily.AttributeSet} {direction : NetlinkFamily.Direction}
      (declared : NetlinkFamily.AttributeSet.declare spec.name
        (Constant.declare spec.name spec.definitions) spec.attributeSets = .ok known)
      (full : Exhausts (fun operation => operation.count spec.operations.numbering direction)
        (Operation.Fits spec.operations.numbering) 1 spec.operations.list)

end Spec

/-- Where rows that are declared under their names differ in some of them, those that are kept do. -/
theorem Registry.nodup_ofList {A K : Type} {rows : List A} {name : A → String} {chosen : A → Bool}
    {key : A → K} (distinct : ((rows.filter chosen).map key).Nodup) :
    (((ofList (rows.map fun row => (name row, row))).values.filter chosen).map key).Nodup := by
  let declared := ofList (rows.map fun row => (name row, row))
  have listed : ∀ entry ∈ declared.entries, entry.1 = name entry.2 ∧ entry.2 ∈ rows := by
    refine forall_ofList fun entry member => ?_
    obtain ⟨row, inside, rfl⟩ := List.mem_map.1 member
    exact ⟨rfl, inside⟩
  have values : declared.values.Nodup := by
    have names : declared.values.map name = declared.names := by
      rw [Registry.values, List.map_map]
      exact List.map_congr_left fun entry member => (listed entry member).1.symm
    exact .of_map name (names ▸ declared.distinct)
  refine List.Nodup.map_on (fun first inFirst second inSecond same => ?_) (values.filter _)
  have inside {row : A} (member : row ∈ declared.values.filter chosen) :
      row ∈ rows.filter chosen := by
    obtain ⟨among, picked⟩ := List.mem_filter.1 member
    obtain ⟨entry, held, rfl⟩ := List.mem_map.1 among
    exact List.mem_filter.2 ⟨(listed entry held).2, picked⟩
  exact List.inj_on_of_nodup_map distinct (inside inFirst) (inside inSecond) same

/-- The numbers behind which a counter goes on increase as the elements are declared. Those that are
kept under the names of the elements differ, and they increase too if no name is repeated. -/
structure Count.Increases (counts : List Count) (names : List String) (kept : List UInt32) :
    Prop where
  declared : (Count.taken 1 counts).Pairwise (· < ·)
  distinct : kept.Nodup
  ordered : names.Nodup → kept.Pairwise (· < ·)

/-- Numbers that ascend increase along the entries kept of a registry. -/
theorem Count.increases_of_ascends {A : Type} {count : A → Count} {list : List A}
    {name : A → String} (ascends : Count.Ascends 1 (list.map count)) {kept : List UInt32}
    (same : kept.map UInt32.toNat =
      ((Registry.ofList ((withNumbers count 1 list).map fun row => (name row.1, row))).values.filter
        fun row => (count row.1).advances).map Prod.snd) :
    Count.Increases (list.map count) (list.map name) kept := by
  have increasing : (((withNumbers count 1 list).filter fun row =>
      (count row.1).advances).map Prod.snd).Pairwise (· < ·) := by
    rw [map_filter_withNumbers]
    exact Count.pairwise_taken ascends
  refine ⟨Count.pairwise_taken ascends, ?_, fun distinct => ?_⟩
  · exact .of_map UInt32.toNat (same ▸ Registry.nodup_ofList (increasing.imp Nat.ne_of_lt))
  · have names : (Entries.names
        ((withNumbers count 1 list).map fun row => (name row.1, row))).Nodup := by
      rw [Entries.names, List.map_map]
      rw [← map_fst_withNumbers count 1 list, List.map_map] at distinct
      exact distinct
    rw [Registry.values, Registry.entries_ofList_of_nodup names, List.map_map,
      Function.comp_def, List.map_id'] at same
    rw [← same, List.pairwise_map] at increasing
    exact increasing

/-- A counter that gives no numbers. -/
def Count.idle : Count :=
  { advances := false }

namespace AttributeSet

variable {familyName : String} {constants : Registry Constant} {setName namePrefix : String}

/-- Attributes are numbered by one counter. -/
def numbering (familyName : String) (constants : Registry Constant)
    (setName namePrefix : String) : Numbering Spec.Attribute Attribute where
  first := Spec.Attribute.count
  second _ := .idle
  build spec value _ := Attribute.ofSpec familyName constants setName namePrefix spec value

/-- Numbering attributes is a run of their numbering. -/
theorem numberAttributes_eq_run (next other : UInt32) (specs : List Spec.Attribute) :
    numberAttributes familyName constants setName namePrefix next specs =
      (numbering familyName constants setName namePrefix).run next other specs := by
  induction specs generalizing next with
  | nil => rfl
  | cons spec rest ih =>
      simp only [numberAttributes, Numbering.run, ih]
      rfl

/-- An attribute has the name of its description and the value it is given. -/
theorem value_of_ofSpec {spec : Spec.Attribute} {value : UInt32} {attr : Attribute}
    (built : Attribute.ofSpec familyName constants setName namePrefix spec value = .ok attr) :
    attr.name = spec.name ∧ attr.value = value := by
  unfold Attribute.ofSpec at built
  split at built
  · cases built
  · rw [← Except.ok.inj built]
    exact ⟨rfl, rfl⟩

/-- Numbering attributes overflows exactly when their count is exhausted. -/
theorem numberAttributes_eq_overflow_iff {specs : List Spec.Attribute} :
    numberAttributes familyName constants setName namePrefix 1 specs =
        .error .numberingOverflow ↔
      Exhausts Spec.Attribute.count Spec.Attribute.IsTyped 1 specs := by
  rw [numberAttributes_eq_run 1 1]
  refine (Numbering.run_eq_overflow_iff Spec.Attribute.IsTyped ?_ ?_).trans
    (or_iff_left (not_exhausts_of_idle (fun _ => rfl) specs))
  · intro spec value _ typed
    obtain ⟨kind, named⟩ := Option.isSome_iff_exists.1 typed
    simp [numbering, Attribute.ofSpec, named]
  · intro spec value _ typeless
    have none := Option.not_isSome_iff_eq_none.1 typeless
    simp [numbering, Attribute.ofSpec, none]

/-- A set that is no subset has the attributes with the numbers of its counter. -/
structure IsNumbered (spec : Spec.AttributeSet) (set : AttributeSet) : Prop where
  subsetOf : set.subsetOf = spec.subsetOf
  attrs : spec.subsetOf = none →
    Entries.Alike (fun row attr => attr.value.toNat = row.2) spec.rows.entries set.attrs.entries

variable {known sets : Registry AttributeSet} {spec : Spec.AttributeSet} {set : AttributeSet}

/-- A set is numbered as its description says. -/
theorem isNumbered_of_ofSpec (done : ofSpec familyName constants known spec = .ok set) :
    IsNumbered spec set := by
  unfold ofSpec at done
  cases parent : spec.subsetOf with
  | none =>
      simp only [parent, bind_eq_ok_iff, pure_eq_ok_iff] at done
      obtain ⟨attrs, numbers, rfl⟩ := done
      refine ⟨parent.symm, fun _ => Registry.alike_ofList ?_⟩
      rw [numberAttributes_eq_run 1 1] at numbers
      refine List.forall₂_map_left_iff.2 (List.forall₂_map_right_iff.2 ?_)
      refine (Numbering.forall₂_of_run numbers).1.imp fun row attr built => ?_
      obtain ⟨value, _, same, built⟩ := built
      obtain ⟨name, number⟩ := value_of_ofSpec built
      exact ⟨name.symm, (congrArg UInt32.toNat number).trans same⟩
  | some parentName =>
      simp only [parent] at done
      cases held : known.get? parentName with
      | none => simp [held] at done
      | some whole =>
          simp only [held, bind_eq_ok_iff, pure_eq_ok_iff] at done
          obtain ⟨_, _, rfl⟩ := done
          exact ⟨parent.symm, fun none => by rw [parent] at none; cases none⟩

/-- Sets are declared one by one under their names. -/
theorem alike_of_declare {specs : List Spec.AttributeSet}
    (declared : declare familyName constants specs = .ok sets) :
    Entries.Alike IsNumbered (Registry.ofList (specs.map fun spec => (spec.name, spec))).entries
      sets.entries := by
  suffices general : ∀ (first : Registry Spec.AttributeSet) (known sets : Registry AttributeSet),
      Entries.Alike IsNumbered first.entries known.entries →
        specs.foldlM (fun known spec => do
          let set ← ofSpec familyName constants known spec
          return known.insert set.name set) known = .ok sets →
          Entries.Alike IsNumbered
            ((specs.map fun spec => (spec.name, spec)).foldl
              (fun registry entry => registry.insert entry.1 entry.2) first).entries sets.entries from
    general .empty .empty sets .nil declared
  clear declared
  induction specs with
  | nil =>
      intro first known sets before done
      rw [List.foldlM_nil, pure_eq_ok_iff] at done
      exact done ▸ before
  | cons spec rest ih =>
      intro first known sets before done
      simp only [List.foldlM_cons, bind_eq_ok_iff, pure_eq_ok_iff] at done
      obtain ⟨_, ⟨set, built, rfl⟩, done⟩ := done
      refine ih _ _ sets ?_ done
      rw [name_of_ofSpec built]
      exact Entries.alike_assign before spec.name (isNumbered_of_ofSpec built)

/-- Looking up references leaves the numbers as they are. -/
theorem IsNumbered.resolve {resolved : AttributeSet} (numbered : IsNumbered spec set)
    (done : set.resolve constants = .ok resolved) : IsNumbered spec resolved := by
  obtain ⟨subset, attrs⟩ := resolve_eq_ok done
  refine ⟨subset.trans numbered.subsetOf, fun whole => ?_⟩
  refine ((numbered.attrs whole).trans (Registry.alike_mapM attrs)).imp fun row attr both => ?_
  obtain ⟨name, source, same, found⟩ := both
  refine ⟨name, ?_⟩
  simp only [Attribute.resolve, bind_eq_ok_iff, pure_eq_ok_iff] at found
  obtain ⟨_, _, _, _, result⟩ := found
  rw [← result]
  exact same

/-- A set cannot be declared for want of numbers exactly if its counter comes to its end. -/
theorem ofSpec_eq_overflow_iff :
    ofSpec familyName constants known spec = .error .numberingOverflow ↔
      spec.subsetOf = none ∧
        Exhausts Spec.Attribute.count Spec.Attribute.IsTyped 1 spec.attributes := by
  unfold ofSpec
  cases parent : spec.subsetOf with
  | none =>
      simp only [bind_pure_eq_error_iff, numberAttributes_eq_overflow_iff, true_and]
  | some parentName =>
      simp only [reduceCtorEq, false_and, iff_false]
      intro failed
      split at failed
      · cases failed
      · rw [bind_pure_eq_error_iff] at failed
        exact absurd (onlyDangles_inheritAttributes _ _ _ _ failed) (by decide)

/-- Sets cannot be declared for want of numbers exactly if one of them cannot, and all before can. -/
theorem declare_eq_overflow_iff {specs : List Spec.AttributeSet} :
    declare familyName constants specs = .error .numberingOverflow ↔
      ∃ before spec after known, specs = before ++ spec :: after ∧
        declare familyName constants before = .ok known ∧ spec.subsetOf = none ∧
        Exhausts Spec.Attribute.count Spec.Attribute.IsTyped 1 spec.attributes := by
  constructor
  · intro failed
    obtain ⟨before, spec, after, known, split, run, failed⟩ := exists_failure_of_foldlM failed
    rw [bind_pure_eq_error_iff, ofSpec_eq_overflow_iff] at failed
    exact ⟨before, spec, after, known, split, run, failed⟩
  · rintro ⟨before, spec, after, known, rfl, run, failed⟩
    have failed : ofSpec familyName constants known spec = .error .numberingOverflow :=
      ofSpec_eq_overflow_iff.2 failed
    unfold declare at run ⊢
    rw [List.foldlM_append, run]
    simp only [bind, Except.bind, List.foldlM_cons, failed]

end AttributeSet

namespace Operation

/-- The number of a message in a direction. -/
def number (operation : Operation) : Direction → Option UInt32
  | .request => operation.requestValue
  | .reply => operation.replyValue

/-- Whether the counter of a direction goes on behind a message. -/
def takes (operation : Operation) : Spec.NumberingModel → Direction → Bool
  | .unified, _ => true
  | .directional, .request => !operation.isAsync
  | .directional, .reply =>
      operation.isAsync || ((operation.doMode.or operation.dumpMode).bind Spec.Mode.reply).isSome

/-- A message with the number that its operation has in a direction. Only in the directional model a
notification or event has no number for a request. -/
structure IsNumbered (model : Spec.NumberingModel) (direction : Direction)
    (row : Spec.Operation × Nat) (message : Operation) : Prop where
  specValue : message.specValue = row.1.value
  value : model = .unified → message.value.map UInt32.toNat = some row.2
  number : (message.number direction).map UInt32.toNat =
    if model = .directional ∧ direction = .request ∧ row.1.isNotice = true then none else some row.2
  takes : message.takes model direction = (row.1.count model direction).advances
  event : message.event.isSome = true → message.isAsync = true

variable {familyName : String}

/-- In the unified model one counter numbers all operations. -/
def unified (familyName : String) : Numbering Spec.Operation Operation where
  first spec := spec.count .unified .request
  second _ := .idle
  build spec value _ := .ok (ofSpec familyName spec (some value) (some value))

/-- The numbering with a count for each direction. -/
def directional (familyName : String) : Numbering Spec.Operation Operation where
  first spec := spec.count .directional .request
  second spec := spec.count .directional .reply
  build spec request reply :=
    if spec.isNotice then .ok (ofSpec familyName spec none (some reply))
    else
      match spec.leading with
      | none => .error (.notDirectional spec.name)
      | some _ => .ok (ofSpec familyName spec (some request) (some reply))

/-- Numbering operations with one count is a run of that numbering. -/
theorem numberUnified_eq_run (next other : UInt32) (specs : List Spec.Operation) :
    numberUnified familyName next specs = (unified familyName).run next other specs := by
  induction specs generalizing next with
  | nil => rfl
  | cons spec rest ih =>
      simp only [numberUnified, Numbering.run, ih]
      rfl

/-- Numbering operations by direction is a run of that numbering. -/
theorem numberDirectional_eq_run (nextRequest nextReply : UInt32) (specs : List Spec.Operation) :
    numberDirectional familyName nextRequest nextReply specs =
      (directional familyName).run nextRequest nextReply specs := by
  induction specs generalizing nextRequest nextReply with
  | nil => rfl
  | cons spec rest ih =>
      rw [numberDirectional, Numbering.run]
      simp only [ih]
      by_cases notice : (spec.notify.isSome || spec.event.isSome) = true
      · simp only [notice, directional, Spec.Operation.count, Spec.Operation.isNotice, if_true]
        rfl
      · simp only [notice, directional, Spec.Operation.count, Spec.Operation.isNotice,
          Spec.Operation.leading, Bool.false_eq_true, if_false]
        cases spec.doMode.or spec.dumpMode with
        | none => rfl
        | some mode =>
            obtain ⟨request, reply, _, _⟩ := mode
            cases reply with
            | none => rfl
            | some reply => rfl

variable {row : Spec.Operation × Nat} {message : Operation} {value second : UInt32}

/-- An operation has its one number in both directions. -/
theorem isNumbered_unified (direction : Direction) (same : value.toNat = row.2) :
    IsNumbered .unified direction row (ofSpec familyName row.1 (some value) (some value)) where
  specValue := rfl
  value _ := by simp [ofSpec, same]
  number := by cases direction <;> simp [number, ofSpec, same]
  takes := rfl
  event some := by simp [ofSpec, show row.1.event.isSome = true from some]

/-- What the directional model makes of an operation. -/
theorem directional_eq_ok (built : (directional familyName).build row.1 value second = .ok message) :
    message = ofSpec familyName row.1 (if row.1.isNotice then none else some value)
      (some second) := by
  simp only [directional] at built
  split at built
  · rename_i notice
    rw [if_pos notice, Except.ok.inj built]
  · rename_i call
    split at built
    · cases built
    · rw [if_neg call, Except.ok.inj built]

/-- An operation has the number of its request. -/
theorem isNumbered_request (same : value.toNat = row.2)
    (built : (directional familyName).build row.1 value second = .ok message) :
    IsNumbered .directional .request row message := by
  rw [directional_eq_ok built]
  refine ⟨rfl, nofun, ?_, ?_, fun some => by simp [ofSpec, show row.1.event.isSome = true from some]⟩
  · by_cases notice : row.1.isNotice = true <;> simp [number, ofSpec, notice, same]
  · show (!row.1.isNotice) = _
    by_cases notice : row.1.isNotice = true <;> simp [Spec.Operation.count, notice]

/-- An operation has the number of its reply. -/
theorem isNumbered_reply (same : second.toNat = row.2)
    (built : (directional familyName).build row.1 value second = .ok message) :
    IsNumbered .directional .reply row message := by
  rw [directional_eq_ok built]
  refine ⟨rfl, nofun, ?_, ?_, fun some => by simp [ofSpec, show row.1.event.isSome = true from some]⟩
  · simp [number, ofSpec, same]
  · show (row.1.isNotice || (row.1.leading.bind Spec.Mode.reply).isSome) = _
    by_cases notice : row.1.isNotice = true <;> simp [Spec.Operation.count, notice]

/-- Operations are numbered in either direction, and kept under their names. -/
theorem alike_of_declare {spec : Spec.Operations} {messages : Registry Operation}
    (done : declare familyName spec = .ok messages) (direction : Direction) :
    Entries.Alike (IsNumbered spec.numbering direction) (spec.rows direction).entries
      messages.entries := by
  obtain ⟨operations, each, rfl⟩ : ∃ operations,
      List.Forall₂
          (fun row operation => row.1.name = operation.name ∧
            IsNumbered spec.numbering direction row operation)
          (withNumbers (fun operation => operation.count spec.numbering direction) 1 spec.list)
          operations ∧
        messages =
          Registry.ofList (operations.map fun operation => (operation.name, operation)) := by
    unfold declare at done
    cases model : spec.numbering with
    | unified =>
        simp only [model, bind_eq_ok_iff, pure_eq_ok_iff] at done
        obtain ⟨operations, done, rfl⟩ := done
        rw [numberUnified_eq_run 1 1] at done
        refine ⟨operations, (Numbering.forall₂_of_run done).1.imp fun row operation built => ?_, rfl⟩
        obtain ⟨value, _, same, built⟩ := built
        obtain rfl := Except.ok.inj built
        exact ⟨rfl, isNumbered_unified direction same⟩
    | directional =>
        simp only [model, bind_eq_ok_iff, pure_eq_ok_iff] at done
        obtain ⟨operations, done, rfl⟩ := done
        rw [numberDirectional_eq_run] at done
        obtain ⟨requests, replies⟩ := Numbering.forall₂_of_run done
        refine ⟨operations, ?_, rfl⟩
        cases direction with
        | request =>
            refine requests.imp fun row operation built => ?_
            obtain ⟨value, second, same, built⟩ := built
            exact ⟨congrArg name (directional_eq_ok built).symm, isNumbered_request same built⟩
        | reply =>
            refine replies.imp fun row operation built => ?_
            obtain ⟨value, second, same, built⟩ := built
            exact ⟨congrArg name (directional_eq_ok built).symm, isNumbered_reply same built⟩
  exact Registry.alike_ofList (List.forall₂_map_left_iff.2 (List.forall₂_map_right_iff.2 each))

/-- Operations cannot be declared for want of numbers exactly if a counter comes to its end. -/
theorem declare_eq_overflow_iff {spec : Spec.Operations} :
    declare familyName spec = .error .numberingOverflow ↔
      ∃ direction, Exhausts (fun operation => operation.count spec.numbering direction)
        (Spec.Operation.Fits spec.numbering) 1 spec.list := by
  unfold declare
  cases model : spec.numbering with
  | unified =>
      simp only [bind_pure_eq_error_iff]
      rw [numberUnified_eq_run 1 1, Numbering.run_eq_overflow_iff
        (Spec.Operation.Fits .unified) (fun _ _ _ _ => ⟨_, rfl⟩)
        (fun _ _ _ misfit => absurd nofun misfit),
        or_iff_left (not_exhausts_of_idle (fun _ => rfl) _)]
      exact ⟨fun full => ⟨.request, full⟩, fun ⟨_, full⟩ => full⟩
  | directional =>
      simp only [bind_pure_eq_error_iff]
      rw [numberDirectional_eq_run, Numbering.run_eq_overflow_iff
        (Spec.Operation.Fits .directional) ?_ ?_]
      · constructor
        · rintro (full | full)
          · exact ⟨.request, full⟩
          · exact ⟨.reply, full⟩
        · rintro ⟨_ | _, full⟩
          · exact .inl full
          · exact .inr full
      · intro spec value second fits
        simp only [directional]
        split
        · exact ⟨_, rfl⟩
        · rename_i call
          obtain ⟨mode, leading⟩ :=
            Option.isSome_iff_exists.1 ((fits rfl).resolve_left call)
          rw [leading]
          exact ⟨_, rfl⟩
      · intro spec value second misfit
        simp only [Spec.Operation.Fits, forall_const, not_or, Bool.not_eq_true,
          Option.isSome_eq_false_iff, Option.isNone_iff_eq_none] at misfit
        simp [directional, misfit]

/-- An operation that takes a number in a direction has the number of its row. -/
theorem IsNumbered.number_of_takes {model : Spec.NumberingModel} {direction : Direction}
    (numbered : IsNumbered model direction row message)
    (taken : message.takes model direction = true) :
    (message.number direction).map UInt32.toNat = some row.2 := by
  rw [numbered.number, if_neg]
  rintro ⟨rfl, rfl, notice⟩
  rw [numbered.takes] at taken
  simp [Spec.Operation.count, notice] at taken

/-- Resolving a message leaves its numbers as they are. -/
theorem IsNumbered.resolved {model : Spec.NumberingModel} {direction : Direction}
    (numbered : IsNumbered model direction row message) {attrSet : Option String} {told : Bool}
    {namePrefix asyncPrefix : String} :
    IsNumbered model direction row
      (({ message with attrSet, hasNotification := told }.withEnumName namePrefix
        asyncPrefix).withEventReply) := by
  unfold withEventReply
  split
  · exact ⟨numbered.specValue, numbered.value, numbered.number, numbered.takes, numbered.event⟩
  · rename_i attributes event
    have async : message.isAsync = true :=
      numbered.event (Option.isSome_iff_exists.2 ⟨attributes, event⟩)
    refine ⟨numbered.specValue, numbered.value, numbered.number, ?_, numbered.event⟩
    rw [← numbered.takes]
    -- The call that an event is given does not matter, since it is counted as an event.
    cases model <;> cases direction <;> simp [Operation.takes, withEnumName, async]

end Operation

namespace Family

variable {file : Spec.File} {excludes : List Pattern} {family : Family}

/-- The sets of a family are numbered as their descriptions say. -/
theorem alike_sets (built : ofSpec file excludes = .ok family) :
    Entries.Alike AttributeSet.IsNumbered file.family.namedSets.entries family.sets.entries := by
  obtain ⟨outline, begun, same, _, _⟩ := outline_of_ofSpec built
  obtain ⟨declared, declares, resolves⟩ := (Outline.builtFrom begun).sets
  rw [congrArg Scope.sets same]
  refine ((AttributeSet.alike_of_declare declares).trans (Registry.alike_mapM resolves)).imp
    fun spec set both => ⟨both.1, ?_⟩
  obtain ⟨_, numbered, resolved⟩ := both.2
  exact numbered.resolve resolved

/-- The messages of a family are numbered as their rows say. -/
theorem alike_messages (built : ofSpec file excludes = .ok family) (direction : Direction) :
    Entries.Alike (Operation.IsNumbered file.family.operations.numbering direction)
      (file.family.operations.rows direction).entries family.messages.entries := by
  simp only [ofSpec, bind_eq_ok_iff, pure_eq_ok_iff] at built
  obtain ⟨outline, begun, _, _, _, _, rfl⟩ := built
  have steps := Outline.builtFrom begun
  refine ((Operation.alike_of_declare steps.numbered direction).trans
    (alike_of_resolveMessages steps.messages)).imp fun row message both => ⟨both.1, ?_⟩
  obtain ⟨_, numbered, _, _, resolved⟩ := both.2
  rw [resolved]
  exact numbered.resolved

/-- A family is numbered by the model its description names. -/
theorem numbering_eq (built : ofSpec file excludes = .ok family) :
    family.numbering = file.family.operations.numbering := by
  simp only [ofSpec, bind_eq_ok_iff, pure_eq_ok_iff] at built
  obtain ⟨_, _, _, _, _, _, rfl⟩ := built
  rfl

/-- The values of a whole set increase where its counts ascend. -/
theorem increases_attributes {spec : Spec.AttributeSet} {set : AttributeSet}
    (isNumbered : AttributeSet.IsNumbered spec set) (whole : spec.subsetOf = none)
    (ascends : Count.Ascends 1 (spec.attributes.map Spec.Attribute.count)) :
    Count.Increases (spec.attributes.map Spec.Attribute.count)
      (spec.attributes.map Spec.Attribute.name) (set.attrs.values.map Attribute.value) := by
  refine Count.increases_of_ascends ascends ?_
  have related := (isNumbered.attrs whole).values
  show _ = (spec.rows.values.filter _).map _
  generalize spec.rows.values = rows, set.attrs.values = attrs at related ⊢
  induction related with
  | nil => rfl
  | cons here _ ih =>
      rw [List.filter_cons_of_pos rfl, List.map_cons, List.map_cons, List.map_cons, ih, here]

/-- The numbers of a direction, of the messages behind which its counter goes on. -/
def takenNumbers (family : Family) (direction : Direction) : List UInt32 :=
  (family.messages.values.filter fun message =>
    message.takes family.numbering direction).filterMap fun message => message.number direction

/-- The numbers of the messages increase where their counts ascend. -/
theorem increases_messages (built : ofSpec file excludes = .ok family) {direction : Direction}
    (ascends : Count.Ascends 1 (file.family.operations.list.map fun operation =>
      operation.count file.family.operations.numbering direction)) :
    Count.Increases
      (file.family.operations.list.map fun operation =>
        operation.count file.family.operations.numbering direction)
      (file.family.operations.list.map Spec.Operation.name) (family.takenNumbers direction) := by
  refine Count.increases_of_ascends ascends ?_
  have related := (alike_messages built direction).values
  show _ = ((file.family.operations.rows direction).values.filter _).map _
  rw [takenNumbers, numbering_eq built]
  generalize (file.family.operations.rows direction).values = rows,
    family.messages.values = messages at related ⊢
  induction related with
  | nil => rfl
  | @cons row message _ _ here _ ih =>
      rw [List.filter_cons, List.filter_cons, ← here.takes]
      split
      · rename_i taken
        obtain ⟨value, given, same⟩ := Option.map_eq_some_iff.1 (here.number_of_takes taken)
        rw [List.filterMap_cons, given, List.map_cons, List.map_cons, ih, same]
      · exact ih

/-- References that dangle are found behind the counters. -/
theorem ne_numberingOverflow_of_isDangling (error : ModelError)
    (dangling : error.isDangling = true) : error ≠ .numberingOverflow := by
  rintro rfl
  cases dangling

/-- What fails for its references alone does not overflow. -/
theorem ne_overflow_of_onlyDangles {A : Type} {outcome : Except ModelError A}
    (dangles : OnlyDangles outcome) : outcome ≠ .error .numberingOverflow := fun failed =>
  ne_numberingOverflow_of_isDangling _ (dangles _ failed) rfl

/-- Numbers are given out while a family is declared: what follows only looks names up. -/
theorem outline_eq_overflow_iff :
    Outline.ofSpec file.family = .error .numberingOverflow ↔ file.family.RunsOut := by
  constructor
  · intro failed
    rw [Outline.ofSpec, bind_eq_error_iff] at failed
    rcases failed with failed | ⟨declared, declares, failed⟩
    · obtain ⟨before, set, after, known, split, run, whole, full⟩ :=
        AttributeSet.declare_eq_overflow_iff.1 failed
      exact .ofSet split run whole full
    rcases bind_eq_error_iff.1 failed with failed | ⟨numbered, _, failed⟩
    · obtain ⟨direction, full⟩ := Operation.declare_eq_overflow_iff.1 failed
      exact .ofMessages declares full
    dsimp only at failed
    split at failed
    · cases failed
    rcases bind_eq_error_iff.1 failed with failed | ⟨sets, _, failed⟩
    · exact absurd failed (ne_overflow_of_onlyDangles
        (Registry.failsWith_mapM (AttributeSet.onlyDangles_resolve _) _))
    rcases bind_eq_error_iff.1 failed with failed | ⟨messages, _, failed⟩
    · exact absurd failed (ne_overflow_of_onlyDangles (onlyDangles_resolveMessages _ _ _ _))
    · have failed := bind_pure_eq_error_iff.1 failed
      exact absurd failed (ne_overflow_of_onlyDangles (RootSet.onlyDangles_collect _ _))
  · intro ends
    rw [Outline.ofSpec]
    cases ends with
    | ofSet split run whole full =>
        have failed := AttributeSet.declare_eq_overflow_iff.2
          ⟨_, _, _, _, split, run, whole, full⟩
        exact bind_eq_error_iff.2 (.inl failed)
    | ofMessages declares full =>
        have failed : Operation.declare file.family.name file.family.operations = _ :=
          Operation.declare_eq_overflow_iff.2 ⟨_, full⟩
        exact bind_eq_error_iff.2 (.inr ⟨_, declares, bind_eq_error_iff.2 (.inl failed)⟩)

/-- Construction fails for want of numbers exactly if a counter comes to its end. -/
theorem ofSpec_eq_overflow_iff :
    ofSpec file excludes = .error .numberingOverflow ↔ file.family.RunsOut := by
  rw [← outline_eq_overflow_iff, ofSpec, bind_eq_error_iff]
  refine ⟨fun failed => ?_, .inl⟩
  rcases failed with failed | ⟨outline, _, failed⟩
  · exact failed
  rcases bind_eq_error_iff.1 failed with failed | ⟨_, _, failed⟩
  · exact absurd failed Nesting.resolve_ne_numberingOverflow
  · have failed := bind_pure_eq_error_iff.1 failed
    have other : ModelError.globalPolicySets ≠ .numberingOverflow := by
      intro same
      cases same
    exact absurd rfl
      (failsWith_globalPolicyOf ne_numberingOverflow_of_isDangling other _ _ _ _ failed)

/-- Every attribute of a set that is no subset and every message has the number of its counter, or a
counter comes to its end. The numbers of a counter that is never set back increase. -/
theorem ofSpec_numbers (file : Spec.File) (excludes : List Pattern) :
    (ofSpec file excludes = .error .numberingOverflow ↔ file.family.RunsOut) ∧
      ∀ family, ofSpec file excludes = .ok family →
        Entries.Alike AttributeSet.IsNumbered file.family.namedSets.entries family.sets.entries ∧
        (∀ direction,
          Entries.Alike (Operation.IsNumbered file.family.operations.numbering direction)
            (file.family.operations.rows direction).entries family.messages.entries) ∧
        (∀ name spec set, file.family.namedSets.get? name = some spec →
          family.sets.get? name = some set → spec.subsetOf = none →
          Count.Ascends 1 (spec.attributes.map Spec.Attribute.count) →
            Count.Increases (spec.attributes.map Spec.Attribute.count)
              (spec.attributes.map Spec.Attribute.name) (set.attrs.values.map Attribute.value)) ∧
        ∀ direction,
          Count.Ascends 1 (file.family.operations.list.map fun operation =>
            operation.count file.family.operations.numbering direction) →
          Count.Increases
            (file.family.operations.list.map fun operation =>
              operation.count file.family.operations.numbering direction)
            (file.family.operations.list.map Spec.Operation.name)
            (family.takenNumbers direction) := by
  refine ⟨ofSpec_eq_overflow_iff, fun family built =>
    ⟨alike_sets built, alike_messages built, fun name spec set specified held whole ascends => ?_,
      fun direction => increases_messages built⟩⟩
  obtain ⟨_, found, isNumbered⟩ := (alike_sets built).exists_lookup held
  obtain rfl := Option.some.inj (specified.symm.trans found)
  exact increases_attributes isNumbered whole ascends

/-- Operations of all kinds: a call, its notification, a call without a reply and another call. -/
def counted : Spec.File where
  license := Spec.acceptedLicense
  family :=
    { name := "f"
      attributeSets :=
        [{ name := "f"
           attributes :=
            [{ name := "x", kind := some "u8" }, { name := "y", kind := some "u8", value := some 5 },
             { name := "z", kind := some "u8" }] }]
      operations :=
        { numbering := .directional
          list :=
            [{ name := "get", attributeSet := some "f"
               doMode := some { request := some {}, reply := some { value := some 10 } } },
             { name := "changed", notify := some "get" },
             { name := "set", attributeSet := some "f"
               doMode := some { request := some { value := some 4 } } },
             { name := "del", attributeSet := some "f"
               doMode := some { request := some {}, reply := some {} } }] } }

theorem isSome_ofSpec_counted : (ofSpec counted []).toOption.isSome = true := by
  decide +kernel

/-- The family with operations of all kinds. -/
def countedFamily : Family :=
  (ofSpec counted []).toOption.get isSome_ofSpec_counted

/-- A set whose last attribute takes up the last number. -/
def fullSet : Spec.AttributeSet where
  name := "f"
  attributes :=
    [{ name := "x", kind := some "u8" },
     { name := "y", kind := some "u8", value := some 4294967295 }]

/-- The same operations beside a set whose numbers are used up. -/
def overcounted : Spec.File :=
  { counted with family := { counted.family with attributeSets := [fullSet] } }

/-- The call without a reply takes no number from the last one. -/
theorem ofSpec_numbers_counted :
    ofSpec counted [] = .ok countedFamily ∧
      ((countedFamily.sets.get? "f").map fun set => set.attrs.values.map Attribute.value) =
        some [1, 5, 6] ∧
      countedFamily.takenNumbers .request = [1, 4, 5] ∧
      (countedFamily.takenNumbers .request).Pairwise (· < ·) ∧
      countedFamily.takenNumbers .reply = [10, 11, 12] ∧
      (countedFamily.takenNumbers .reply).Pairwise (· < ·) ∧
      ofSpec overcounted [] = .error .numberingOverflow := by
  have built := eq_ok_get isSome_ofSpec_counted
  obtain ⟨_, numbers⟩ := ofSpec_numbers counted []
  obtain ⟨_, _, _, increase⟩ := numbers countedFamily built
  refine ⟨built, by decide +kernel, by decide +kernel, ?_, by decide +kernel, ?_, ?_⟩
  · exact (increase .request (by decide)).ordered (by decide)
  · exact (increase .reply (by decide)).ordered (by decide)
  · have split : overcounted.family.attributeSets = [] ++ fullSet :: [] := rfl
    refine (ofSpec_numbers overcounted []).1.2 (.ofSet split rfl rfl ?_)
    exact ⟨[{ name := "x", kind := some "u8" }], _, [], rfl, by decide +kernel, by decide +kernel,
      rfl, by decide⟩

end Family

end NetlinkFamily
