import NetlinkFamily.Output.File
import NetlinkFamily.Proofs.Model.References
import NetlinkFamily.Proofs.Output.Failure
import NetlinkFamily.Proofs.Output.ParserArguments
import NetlinkFamily.Proofs.Output.PolicyTables

namespace NetlinkFamily

open Outcome

/-- The values of a scalar are masks, but no enumeration is named for the flags. -/
def Attribute.IsUnnamedMask (attr : Attribute) : Prop :=
  (∃ type, attr.kind = .scalar type) ∧ attr.enumAsFlags = true ∧ attr.enumRef = none

/-- The layouts that the source of the kernel side has a policy for: those of nested sets that
requests use, and that of each request or the one that all requests share. -/
inductive Kernel.HasPolicy (family : Family) : Layout → Prop where
  | nested {layout : Layout} (used : layout ∈ requestedNests family) : HasPolicy family layout
  | shared {layout : Layout} (whole : family.kernelPolicy = .global)
      (laidOut : globalLayout family = .ok (some layout)) : HasPolicy family layout
  | request {operation : Operation} {mode : OperationMode} {set : String}
      {attributes : List String} {layout : Layout} (apart : family.kernelPolicy ≠ .global)
      (asks : (operation, mode) ∈ requests family) (named : operation.attrSet = some set)
      (carried : operation.requestAttributes mode = some attributes)
      (laidOut : Layout.ofList family.toScope set attributes = .ok layout) :
      HasPolicy family layout

namespace Family

/-- A mask without an enumeration stands for the enumeration of the empty name. -/
def DefinesMasks (family : Family) : Prop :=
  ∀ layout, Kernel.HasPolicy family layout → ∀ attr ∈ layout.attributes family.toScope,
    attr.IsUnnamedMask → ∃ set, Constant.lookupEnum family.constants "" = .ok set

/-- The attributes of all selected events are defined. -/
def DefinesEvents (family : Family) : Prop :=
  ∀ event ∈ Library.events family, event.IsDeclared family.toScope .event

/-- The targets of all selected notifications have sets that define their attributes. -/
def DefinesTargets (family : Family) : Prop :=
  ∀ notification ∈ family.notifications, ∀ target told, notification.notify = some target →
    family.messages.get? target = some told → told.IsDeclared family.toScope .notify

end Family

/-- The names that a generated file follows unchecked lead to something. -/
def OutputOptions.IsGrounded (options : OutputOptions) (family : Family) : Prop :=
  match options.consumer, options.header with
  | .kernel, false => family.DefinesMasks
  | .user, true => family.DefinesEvents
  | .user, false => family.DefinesEvents ∧ family.DefinesTargets
  | _, _ => True

namespace Attribute

variable {constants : Registry Constant} {attr : Attribute}

/-- The policy of a scalar meets no unknown definition where its enumeration is known. -/
theorem neverDangles_scalarPolicy (resolved : attr.IsResolved constants)
    (masks : attr.IsUnnamedMask → ∃ set, Constant.lookupEnum constants "" = .ok set)
    {type : ScalarType} (kind : attr.kind = .scalar type) :
    NeverDangles (attr.scalarPolicy constants type) := by
  unfold scalarPolicy
  split
  · rename_i masked
    refine FailsWith.bind (.of_exists ?_) fun _ _ => .ok _
    cases named : attr.enumRef with
    | none => exact masks ⟨⟨type, kind⟩, resolved.mask named ▸ masked, named⟩
    | some name => exact resolved.enumRef name named
  · split
    · rename_i name named
      exact FailsWith.bind (.of_exists (resolved.flagsMask name named)) fun _ _ => .ok _
    · exact .ok _
    · rename_i name _ _ named
      refine FailsWith.bind (.of_exists (resolved.enumRef name named)) fun set _ => ?_
      refine FailsWith.bind ?_ fun _ _ => .ok _
      unfold EnumSet.valueRange
      split
      · exact .error rfl
      · dsimp only
        split
        · exact .ok _
        · exact .error rfl
    · exact .ok _

/-- A policy refers to enumerations. All of them are known, except for that of an unnamed mask. -/
theorem neverDangles_wirePolicy (resolved : attr.IsResolved constants)
    (masks : attr.IsUnnamedMask → ∃ set, Constant.lookupEnum constants "" = .ok set) :
    NeverDangles (attr.wirePolicy constants) := by
  unfold wirePolicy
  split
  case h_3 kind => exact (neverDangles_scalarPolicy resolved masks kind).map _
  case h_6 => split <;> first | exact .ok _ | exact .error rfl
  all_goals
    first
      | exact .ok _
      | exact .error rfl
      | exact attr.neverDangles_nestedSet.map _

/-- The policy of an unnamed mask is made from the enumeration of the empty name. -/
theorem exists_enumeration_of_wirePolicy (resolved : attr.IsResolved constants)
    (unnamed : attr.IsUnnamedMask) {policy : Option WirePolicy}
    (done : attr.wirePolicy constants = .ok policy) :
    ∃ set, Constant.lookupEnum constants "" = .ok set := by
  obtain ⟨⟨type, kind⟩, flags, none⟩ := unnamed
  have masked : attr.isBitfield = true := (resolved.mask none).trans flags
  simp only [wirePolicy, kind, scalarPolicy, masked, none, if_true, map_eq_ok_iff,
    bind_eq_ok_iff] at done
  obtain ⟨_, ⟨set, found, _⟩, _⟩ := done
  exact ⟨set, found⟩

end Attribute

variable {file : Spec.File} {excludes : List Pattern} {family : Family}

/-- A mode of an operation has a subject if the attributes of its messages are defined. -/
theorem Subject.exists_ofOperation_iff {operation : Operation} {mode : OperationMode} :
    (∃ subject, ofOperation family operation mode = .ok subject) ↔
      operation.IsDeclared family.toScope mode := by
  constructor
  · rintro ⟨subject, described⟩
    have describes := describes_of_ofOperation described
    refine ⟨subject.attrSet, describes.attrSet, fun direction attributes carried => ?_⟩
    have laidOut {found : Option Layout} (made : (operation.attributesOf mode direction).mapM
        (Layout.ofList family.toScope subject.attrSet) = .ok found) :
        family.toScope.Defines subject.attrSet attributes := by
      simp only [carried, Option.mapM_some, Functor.map, map_eq_ok_iff] at made
      obtain ⟨layout, made, _⟩ := made
      exact Layout.exists_ofList_iff.1 ⟨layout, made⟩
    cases direction with
    | request => exact laidOut describes.request
    | reply => exact laidOut describes.reply
  · rintro ⟨set, named, defined⟩
    have laidOut (direction : Direction) :
        ∃ found, (operation.attributesOf mode direction).mapM
          (Layout.ofList family.toScope set) = .ok found := by
      cases carried : operation.attributesOf mode direction with
      | none => exact ⟨none, rfl⟩
      | some attributes =>
          obtain ⟨layout, made⟩ :=
            Layout.exists_ofList_iff.2 (defined direction attributes carried)
          exact ⟨some layout, by simp [made, Functor.map, Except.map]⟩
    obtain ⟨request, asked⟩ := laidOut .request
    obtain ⟨reply, told⟩ := laidOut .reply
    simp only [ofOperation, named, bind_eq_ok_iff, pure_eq_ok_iff, Operation.requestAttributes,
      Operation.replyAttributes]
    exact ⟨_, request, asked, reply, told, rfl⟩

/-- A declared operation has a subject, as far as its references go. -/
theorem Subject.neverDangles_ofOperation {operation : Operation} {mode : OperationMode}
    (declared : operation.IsDeclared family.toScope mode) :
    NeverDangles (ofOperation family operation mode) :=
  .of_exists (exists_ofOperation_iff.2 declared)

/-- A list of defined attributes has a layout, as far as its references go. -/
theorem Layout.neverDangles_ofList {scope : Scope} {set : String} {attributes : List String}
    (defined : scope.Defines set attributes) : NeverDangles (ofList scope set attributes) :=
  .of_exists (exists_ofList_iff.2 defined)

namespace Family

/-- The attributes of a selected call or dump are defined. -/
theorem isDeclared_of_mem_operations (built : ofSpec file excludes = .ok family)
    {operation : Operation} (selected : operation ∈ family.operations) (mode : OperationMode) :
    operation.IsDeclared family.toScope mode := by
  have known := isSelected_of_mem built selected
  exact isDeclared_of_get? built known.found known.notify known.attrSet mode

/-- So are those of a selected event that is no notification as well. -/
theorem isDeclared_of_mem_notifications (built : ofSpec file excludes = .ok family)
    {event : Operation} (selected : event ∈ family.notifications) (own : event.notify = none)
    (mode : OperationMode) : event.IsDeclared family.toScope mode := by
  obtain ⟨found, async⟩ := found_of_mem_notifications built selected
  have settled := (message_of_get? built found).2
  have active : event.isReserved = false := by
    rw [settled.isReserved, settled.isAsync, async]
    rfl
  exact isDeclared_of_get? built found own (isSome_attrSet built found active) mode

/-- All sets in use are declared. -/
theorem mem_sets_of_used (built : ofSpec file excludes = .ok family) {set : String}
    (used : set ∈ family.nestedSets.names ++ family.rootSets.names) : set ∈ family.sets.names := by
  obtain ⟨_, _, _, _, resolved⟩ := outline_of_ofSpec built
  have consistent := Nesting.consistent_of_resolve resolved
  rcases List.mem_append.1 used with nested | root
  · exact consistent.declared set (.inr ((Nesting.mem_names_of_resolve resolved set).1 nested))
  · exact consistent.declared set (.inl root)

/-- The policy that all requests share lists attributes that are defined. -/
theorem defines_globalPolicy (built : ofSpec file excludes = .ok family) {shared : GlobalPolicy}
    (given : family.globalPolicy = some shared) :
    family.toScope.Defines shared.set shared.attrs := by
  simp only [ofSpec, bind_eq_ok_iff, pure_eq_ok_iff] at built
  obtain ⟨outline, _, _, _, policy, made, rfl⟩ := built
  rw [show policy = some shared from given] at made
  unfold globalPolicyOf shareGlobalPolicy at made
  split at made
  · split at made
    · cases made
    · split at made
      · simp only [bind_eq_ok_iff, pure_eq_ok_iff, Scope.attributeSet_eq_ok_iff,
          Option.some.injEq] at made
        obtain ⟨set, found, rfl⟩ := made
        exact ⟨set, found, fun name member => (List.mem_filter.1 member).1⟩
      · cases made
  · cases made

end Family

namespace Library

variable {operation : Operation}

section Header

/-- A declared notification has a subject, as far as its references go. -/
theorem neverDangles_notification (declared : operation.IsDeclared family.toScope .notify) :
    NeverDangles (notification family operation) := by
  refine (Subject.neverDangles_ofOperation declared).bind fun subject _ => ?_
  split
  · exact .ok _
  · exact .error rfl

/-- The header of a declared call meets no unknown definition. -/
theorem neverDangles_callHeader (declared : operation.IsDeclared family.toScope .call) :
    NeverDangles (callHeader family operation) :=
  (Subject.neverDangles_ofOperation declared).bind fun subject _ =>
    (neverDangles_requestType family subject).bind fun _ _ =>
      (neverDangles_replyType family subject).bind fun _ _ => .ok _

/-- The header of a declared dump meets no unknown definition. -/
theorem neverDangles_dumpHeader (declared : operation.IsDeclared family.toScope .dump) :
    NeverDangles (dumpHeader family operation) :=
  (Subject.neverDangles_ofOperation declared).bind fun subject _ =>
    (neverDangles_requestType family subject).bind fun _ _ =>
      (neverDangles_whenever fun _ => neverDangles_replyType family subject).bind fun _ _ => .ok _

/-- The header of a declared notification meets no unknown definition. -/
theorem neverDangles_notificationHeader
    (declared : operation.IsDeclared family.toScope .notify) :
    NeverDangles (notificationHeader family operation) :=
  (neverDangles_notification declared).bind fun _ _ => .ok _

/-- The header of a declared operation meets no unknown definition. -/
theorem neverDangles_operationHeader
    (declared : ∀ mode, operation.IsDeclared family.toScope mode) :
    NeverDangles (operationHeader family operation) :=
  (neverDangles_whenever fun _ => neverDangles_callHeader (declared .call)).bind fun _ _ =>
    (neverDangles_whenever fun _ => neverDangles_dumpHeader (declared .dump)).bind fun _ _ =>
      (neverDangles_whenever fun _ =>
        neverDangles_notificationHeader (declared .notify)).bind fun _ _ => .ok _

/-- The header of a declared event meets no unknown definition. -/
theorem neverDangles_eventHeader (declared : operation.IsDeclared family.toScope .event) :
    NeverDangles (eventHeader family operation) :=
  (Subject.neverDangles_ofOperation declared).bind fun subject _ =>
    (neverDangles_replyType family subject).bind fun _ _ => .ok _

/-- The header of the library meets no unknown definition where the events are defined. -/
theorem neverDangles_header (built : Family.ofSpec file excludes = .ok family)
    (events : family.DefinesEvents) : NeverDangles (header family) :=
  (neverDangles_each fun layout _ => neverDangles_nestType family layout).bind fun _ _ =>
    (neverDangles_each fun _ selected => neverDangles_operationHeader
      (Family.isDeclared_of_mem_operations built selected)).bind fun _ _ =>
        (neverDangles_each fun event selected =>
          neverDangles_eventHeader (events event selected)).bind fun _ _ => .ok _

/-- A header is generated only if the attributes of events are defined. -/
theorem definesEvents_of_header {declarations : List Declaration}
    (declares : header family = .ok declarations) : family.DefinesEvents := by
  intro event selected
  obtain ⟨_, _, _, told, _⟩ := parts_of_header declares
  obtain ⟨_, made, _⟩ := exists_part_of_each told selected
  simp only [eventHeader, bind_eq_ok_iff] at made
  obtain ⟨subject, described, _⟩ := made
  exact Subject.exists_ofOperation_iff.1 ⟨subject, described⟩

end Header

section Source

/-- The source of a declared call meets no unknown definition. -/
theorem neverDangles_callSource (declared : operation.IsDeclared family.toScope .call) :
    NeverDangles (callSource family operation) :=
  (Subject.neverDangles_ofOperation declared).bind fun subject _ =>
    (neverDangles_releasePart family subject .request).bind fun _ _ =>
      (neverDangles_releasePart family subject .reply).bind fun _ _ =>
        (neverDangles_replyParser family subject false).bind fun _ _ =>
          (neverDangles_call family subject operation).bind fun _ _ => .ok _

/-- The source of a declared dump meets no unknown definition. -/
theorem neverDangles_dumpSource (declared : operation.IsDeclared family.toScope .dump) :
    NeverDangles (dumpSource family operation) :=
  (Subject.neverDangles_ofOperation declared).bind fun subject _ =>
    (neverDangles_whenever fun _ =>
      neverDangles_replyParser family subject true).bind fun _ _ =>
        (neverDangles_releaseList family subject).bind fun _ _ =>
          (neverDangles_dump family subject operation).bind fun _ _ => .ok _

/-- The source of a declared notification meets no unknown definition. -/
theorem neverDangles_notificationSource
    (declared : operation.IsDeclared family.toScope .notify) :
    NeverDangles (notificationSource family operation) :=
  (neverDangles_notification declared).bind fun subject _ =>
    (neverDangles_releaseNotification family subject).bind fun _ _ => .ok _

/-- The source of a declared operation meets no unknown definition. -/
theorem neverDangles_operationSource
    (declared : ∀ mode, operation.IsDeclared family.toScope mode) :
    NeverDangles (operationSource family operation) :=
  (neverDangles_whenever fun _ => neverDangles_callSource (declared .call)).bind fun _ _ =>
    (neverDangles_whenever fun _ => neverDangles_dumpSource (declared .dump)).bind fun _ _ =>
      (neverDangles_whenever fun _ =>
        neverDangles_notificationSource (declared .notify)).bind fun _ _ => .ok _

/-- The messages of an event are those of the call that it stands for. -/
theorem neverDangles_eventSource (declared : operation.IsDeclared family.toScope .event) :
    NeverDangles (eventSource family operation) :=
  have called : operation.IsDeclared family.toScope .call := declared
  (Subject.neverDangles_ofOperation called).bind fun subject _ =>
    (neverDangles_replyParser family subject false).bind fun _ _ =>
      (Subject.neverDangles_ofOperation declared).bind fun told _ =>
        (neverDangles_releaseNotification family told).bind fun _ _ => .ok _

/-- The validation tables meet no unknown definition. -/
theorem neverDangles_validations (built : Family.ofSpec file excludes = .ok family) :
    NeverDangles (validations family) := by
  refine neverDangles_each fun name used => ?_
  obtain ⟨set, found⟩ := Registry.exists_get?_of_mem (Family.mem_sets_of_used built used)
  have declared := Scope.attributeSet_eq_ok_iff.2 found
  refine FailsWith.bind (.of_exists ?_) fun layout laidOut => ?_
  · exact Layout.exists_ofSet (Registry.mem_names_of_get? found)
  · simp only [Layout.ofSet, bind_eq_ok_iff, pure_eq_ok_iff] at laidOut
    obtain ⟨_, _, rfl⟩ := laidOut
    exact FailsWith.bind (.of_exists ⟨set, declared⟩) fun _ _ =>
      FailsWith.bind (.mapM fun attr _ => attr.neverDangles_validationEntry) fun _ _ => .ok _

/-- The entry of a notification meets no unknown definition where its target is defined. -/
theorem neverDangles_notificationEntry (built : Family.ofSpec file excludes = .ok family)
    (targets : family.DefinesTargets) (selected : operation ∈ family.notifications) :
    NeverDangles (notificationEntry family operation) := by
  unfold notificationEntry
  cases tells : operation.notify with
  | some target =>
      obtain ⟨told, found⟩ := Family.exists_target built
        (Family.found_of_mem_notifications built selected).1 tells
      have declared := targets operation selected target told tells found
      refine FailsWith.bind (.of_exists ⟨told, Family.operation_eq_ok_iff.2 found⟩) fun _ same => ?_
      obtain rfl := Option.some.inj (found.symm.trans (Family.operation_eq_ok_iff.1 same))
      refine (neverDangles_notification declared).bind fun subject _ => ?_
      dsimp only
      split
      · exact .error rfl
      · exact .ok _
  | none =>
      have declared := Family.isDeclared_of_mem_notifications built selected tells .event
      refine (Subject.neverDangles_ofOperation declared).bind fun subject _ => ?_
      dsimp only
      split
      · exact .error rfl
      · exact .ok _

/-- The description of a family meets no unknown definition where the targets are defined. -/
theorem neverDangles_familyDescription (built : Family.ofSpec file excludes = .ok family)
    (targets : family.DefinesTargets) : NeverDangles (familyDescription family) :=
  FailsWith.bind (.mapM fun _ selected => neverDangles_notificationEntry built targets selected)
    fun _ _ => .ok _

/-- The source of the library meets no unknown definition where events and targets are defined. -/
theorem neverDangles_source (built : Family.ofSpec file excludes = .ok family)
    (events : family.DefinesEvents) (targets : family.DefinesTargets) :
    NeverDangles (source family) :=
  (neverDangles_validations built).bind fun _ _ =>
    (neverDangles_each fun entry _ => neverDangles_nestSource family entry).bind fun _ _ =>
      (neverDangles_each fun _ selected => neverDangles_operationSource
        (Family.isDeclared_of_mem_operations built selected)).bind fun _ _ =>
          (neverDangles_each fun event selected =>
            neverDangles_eventSource (events event selected)).bind fun _ _ =>
              (neverDangles_familyDescription built targets).bind fun _ _ => .ok _

/-- A source is generated only if the attributes of events and of targets are defined. -/
theorem defines_of_source {definitions : List Declaration}
    (defines : source family = .ok definitions) :
    family.DefinesEvents ∧ family.DefinesTargets := by
  obtain ⟨_, _, _, _, _, _, told, described, _⟩ := parts_of_source defines
  constructor
  · intro event selected
    obtain ⟨_, made, _⟩ := exists_part_of_each told selected
    simp only [eventSource, bind_eq_ok_iff] at made
    obtain ⟨_, _, _, _, subject, describes, _⟩ := made
    exact Subject.exists_ofOperation_iff.1 ⟨subject, describes⟩
  · intro notification selected target told tells found
    simp only [familyDescription, bind_eq_ok_iff] at described
    obtain ⟨entries, listed, _⟩ := described
    obtain ⟨_, made⟩ := exists_mapM_iff.1 ⟨entries, listed⟩ notification selected
    obtain ⟨subject, _, handles, _⟩ := exists_entryOf made
    simp only [Handles, tells, notification_eq_ok_iff] at handles
    obtain ⟨_, same, describes, _⟩ := handles
    obtain rfl := Option.some.inj (found.symm.trans same)
    exact Subject.exists_ofOperation_iff.1 ⟨subject, describes⟩

end Source

end Library

namespace Kernel

variable {operation : Operation} {layout : Layout}

/-- Opening a policy table meets no unknown definition. -/
theorem neverDangles_tableOf (storage stem : String) :
    NeverDangles (tableOf family storage stem layout) := by
  unfold tableOf
  split
  · exact .error rfl
  · exact .ok _

/-- The attributes of a layout were looked up while the family was built. -/
theorem isResolved_of_mem_attributes (built : Family.ofSpec file excludes = .ok family)
    {attr : Attribute} (listed : attr ∈ layout.attributes family.toScope) :
    attr.IsResolved family.constants := by
  obtain ⟨set, held, inside, _⟩ := Layout.exists_of_mem_attributes listed
  exact Family.isResolved_of_get? built held inside

/-- Filling a policy table meets no unknown definition where the masks are defined. -/
theorem neverDangles_filledTable (built : Family.ofSpec file excludes = .ok family)
    (masks : family.DefinesMasks) (has : HasPolicy family layout) (storage stem : String) :
    NeverDangles (filledTable family storage stem layout) :=
  (neverDangles_tableOf storage stem).bind fun _ _ =>
    FailsWith.bind (.mapM fun attr listed =>
      (Attribute.neverDangles_wirePolicy (isResolved_of_mem_attributes built listed)
        (masks layout has attr listed)).bind fun _ _ => .ok _) fun _ _ => .ok _

/-- Declaring a policy table meets no unknown definition. -/
theorem neverDangles_sharedTable (stem : String) :
    NeverDangles (sharedTable family stem layout) :=
  (neverDangles_tableOf _ stem).bind fun _ _ => .ok _

section Sections

/-- The shared tables meet no unknown definition where none of them does. -/
theorem neverDangles_globalSection (built : Family.ofSpec file excludes = .ok family)
    {table : Layout → Except ModelError (List Declaration)}
    (each : ∀ layout, HasPolicy family layout → NeverDangles (table layout)) :
    NeverDangles (globalSection family table) := by
  unfold globalSection
  split
  · rename_i whole
    refine FailsWith.bind ?shared fun found laidOut => ?_
    case shared =>
      unfold globalLayout
      cases given : family.globalPolicy with
      | none => exact .ok _
      | some policy =>
          exact (Layout.neverDangles_ofList (Family.defines_globalPolicy built given)).map some
    cases found with
    | none => exact .ok _
    | some layout => exact (each layout (.shared whole laidOut)).bind fun _ _ => .ok _
  · exact .ok _

/-- The tables of the operations meet no unknown definition where none of them does. -/
theorem neverDangles_operationSection
    {policies : Operation → Except ModelError (List Declaration)}
    (each : family.kernelPolicy ≠ .global →
      ∀ operation ∈ family.operations, NeverDangles (policies operation)) :
    NeverDangles (operationSection family policies) := by
  unfold operationSection
  split
  · exact .ok _
  · rename_i apart
    exact (FailsWith.mapM (each apart)).map _

end Sections

section Header

/-- Declaring the policies of a call meets no unknown definition. -/
theorem neverDangles_callPolicyHeader (declared : operation.IsDeclared family.toScope .call) :
    NeverDangles (callPolicyHeader family operation) := by
  unfold callPolicyHeader
  split
  · exact .ok _
  · refine (Subject.neverDangles_ofOperation declared).bind fun subject _ => ?_
    split
    · exact .ok _
    · split
      · exact .ok _
      · exact (neverDangles_sharedTable _).bind fun _ _ => .ok _

/-- The kernel header meets no unknown definition. -/
theorem neverDangles_header (built : Family.ofSpec file excludes = .ok family) :
    NeverDangles (header family) :=
  FailsWith.bind (.mapM fun _ _ => neverDangles_sharedTable _) fun _ _ =>
    (neverDangles_globalSection built fun _ _ =>
      (neverDangles_sharedTable _).bind fun _ _ => .ok _).bind fun _ _ =>
        (neverDangles_operationSection fun _ _ selected => neverDangles_callPolicyHeader
          (Family.isDeclared_of_mem_operations built selected .call)).bind fun _ _ => .ok _

end Header

section Source

/-- The policies of a request meet no unknown definition where the masks are defined. -/
theorem neverDangles_requestPolicies (built : Family.ofSpec file excludes = .ok family)
    (masks : family.DefinesMasks) (apart : family.kernelPolicy ≠ .global)
    (selected : operation ∈ family.operations) :
    NeverDangles (requestPolicies family operation) := by
  refine FailsWith.bind (.mapM fun mode asked => ?_) fun _ _ => .ok _
  have declared := Family.isDeclared_of_mem_operations built selected mode
  refine (Subject.neverDangles_ofOperation declared).bind fun subject described => ?_
  have describes := Subject.describes_of_ofOperation described
  dsimp only
  split
  · exact .ok _
  · rename_i layout requested
    obtain ⟨attributes, carried, laidOut⟩ := Layout.ofList_of_mapM (requested ▸ describes.request)
    obtain ⟨known, hasRequest⟩ := List.mem_filter.1 asked
    have inRequests : (operation, mode) ∈ requests family :=
      mem_requests.2 ⟨selected, by simpa using known, hasRequest⟩
    have has : HasPolicy family layout := .request apart inRequests describes.attrSet carried laidOut
    exact (neverDangles_filledTable built masks has _ _).bind fun _ _ => .ok _

/-- Naming the policy of a declared request meets no unknown definition. -/
theorem neverDangles_policyMembers {mode : OperationMode}
    (declared : operation.IsDeclared family.toScope mode) {symbol : String}
    {attributes : List String} (carried : operation.requestAttributes mode = some attributes) :
    NeverDangles (policyMembers family operation symbol attributes) := by
  obtain ⟨set, named, defined⟩ := declared
  have listed := defined .request attributes carried
  simp only [policyMembers, named]
  refine (Layout.neverDangles_ofList listed).bind fun layout _ => ?_
  split
  · exact .error rfl
  · exact .ok _

/-- The entry of a declared operation meets no unknown definition. -/
theorem neverDangles_operationEntry (declared : operation.IsDeclared family.toScope .call) :
    NeverDangles (operationEntry family operation) := by
  unfold operationEntry
  dsimp only
  split
  · rename_i carried
    exact (neverDangles_policyMembers declared carried).bind fun _ _ => .ok _
  · exact .ok _

/-- The entry of a declared mode meets no unknown definition. -/
theorem neverDangles_modeEntry {mode : OperationMode} {spec : Spec.Mode}
    (declared : operation.IsDeclared family.toScope mode)
    (listed : (mode, spec) ∈ callModes operation) :
    NeverDangles (modeEntry family operation mode spec) := by
  have inMode := mode_of_mem_callModes listed
  unfold modeEntry
  dsimp only
  split
  · exact .ok _
  · rename_i request asked
    have carried : operation.requestAttributes mode = some request.attributes := by
      simp [Operation.requestAttributes, Operation.attributesOf, inMode, asked]
    exact (neverDangles_policyMembers declared carried).bind fun _ _ => .ok _

/-- The table of operations meets no unknown definition. -/
theorem neverDangles_operationEntries (built : Family.ofSpec file excludes = .ok family) :
    NeverDangles (operationEntries family) := by
  have declared {operation : Operation} (selected : operation ∈ family.operations) :=
    Family.isDeclared_of_mem_operations built selected
  unfold operationEntries
  split
  · exact .mapM fun _ selected => neverDangles_operationEntry (declared selected .call)
  · exact .mapM fun _ selected => neverDangles_operationEntry (declared selected .call)
  · exact FailsWith.bind (.mapM fun _ selected =>
      .mapM fun mode listed => neverDangles_modeEntry (declared selected mode.1) listed)
      fun _ _ => .ok _

/-- The kernel source meets no unknown definition where the masks are defined. -/
theorem neverDangles_source (built : Family.ofSpec file excludes = .ok family)
    (masks : family.DefinesMasks) : NeverDangles (source family) :=
  FailsWith.bind (.mapM fun _ used => neverDangles_filledTable built masks (.nested used) _ _)
    fun _ _ =>
      (neverDangles_globalSection built fun _ has =>
        neverDangles_filledTable built masks has _ _).bind fun _ _ =>
          (neverDangles_operationSection fun apart _ selected =>
            neverDangles_requestPolicies built masks apart selected).bind fun _ _ =>
              (neverDangles_operationEntries built).bind fun _ _ => .ok _

/-- A source has a table for each policy. -/
theorem exists_table_of_hasPolicy {definitions : List Declaration}
    (defines : source family = .ok definitions) (has : HasPolicy family layout) :
    ∃ storage stem table, table ∈ Declaration.policies definitions ∧
      filledTable family storage stem layout = .ok [.policy table, .space] := by
  obtain ⟨nests, shared, own, _, nested, whole, made, _, tables, _⟩ := parts_of_source defines
  simp only [tables, List.mem_append]
  cases has with
  | nested used =>
      obtain ⟨table, member, filled⟩ :=
        exists_of_forall₂ (policies_nests nested).1.flip layout used
      exact ⟨_, _, table, .inl (.inl member), filled⟩
  | shared isGlobal laidOut =>
      simp only [globalSection, if_pos isGlobal, laidOut, bind_eq_ok_iff, pure_eq_ok_iff,
        Except.ok.injEq, exists_eq_left'] at whole
      obtain ⟨_, filled, rfl⟩ := whole
      obtain ⟨table, _, rfl, _⟩ := filledTable_eq_ok filled
      exact ⟨_, _, table, .inl (.inr List.mem_cons_self), filled⟩
  | request apart asks named carried laidOut =>
      simp only [operationSection, if_neg apart, map_eq_ok_iff] at made
      obtain ⟨parts, made, rfl⟩ := made
      obtain ⟨table, member, _, _, _, sameSet, sameList, built, filled⟩ :=
        exists_of_forall₂ (policies_operations made).1.flip _ asks
      obtain rfl := Option.some.inj (named.symm.trans sameSet)
      obtain rfl := Option.some.inj (carried.symm.trans sameList)
      obtain rfl := Except.ok.inj (laidOut.symm.trans built)
      exact ⟨_, _, table, .inr member, filled⟩

/-- A source is generated only if the enumerations of all masks are defined. -/
theorem definesMasks_of_source (built : Family.ofSpec file excludes = .ok family)
    {definitions : List Declaration} (defines : source family = .ok definitions) :
    family.DefinesMasks := by
  intro layout has attr listed unnamed
  obtain ⟨_, _, _, _, filled⟩ := exists_table_of_hasPolicy defines has
  simp only [filledTable, bind_eq_ok_iff] at filled
  obtain ⟨_, _, entries, made, _⟩ := filled
  obtain ⟨_, entry⟩ := exists_mapM_iff.1 ⟨entries, made⟩ attr listed
  simp only [policyEntry, bind_eq_ok_iff] at entry
  obtain ⟨_, policy, _⟩ := entry
  exact Attribute.exists_enumeration_of_wirePolicy (isResolved_of_mem_attributes built listed)
    unnamed policy

end Source

end Kernel

namespace OutputOptions

variable {options : OutputOptions}

/-- The contents of a grounded family meet no unknown definition. -/
theorem neverDangles_contents (built : Family.ofSpec file excludes = .ok family)
    (unshared : options.consumer ≠ .shared) (grounded : options.IsGrounded family) :
    NeverDangles (options.contents family) := by
  unfold IsGrounded at grounded
  unfold contents
  cases consumer : options.consumer <;> cases header : options.header
  case shared.true | shared.false => exact absurd consumer unshared
  all_goals simp only [consumer, header] at grounded ⊢
  case kernel.true => exact Kernel.neverDangles_header built
  case kernel.false => exact Kernel.neverDangles_source built grounded
  case user.true => exact (Library.neverDangles_header built grounded).bind fun _ _ => .ok _
  case user.false =>
    exact (Library.neverDangles_source built grounded.1 grounded.2).bind fun _ _ => .ok _

/-- Generating from a grounded family meets no unknown definition. -/
theorem neverDangles_generate (built : Family.ofSpec file excludes = .ok family)
    (grounded : options.IsGrounded family) : NeverDangles (options.generate family) := by
  refine FailsWith.map ?_ _
  unfold declarations
  split
  · split
    · exact .error rfl
    · exact .ok _
  · rename_i unshared
    exact (neverDangles_contents built unshared grounded).bind fun _ _ => .ok _

/-- A family is grounded when its contents can be made. -/
theorem isGrounded_of_contents (built : Family.ofSpec file excludes = .ok family)
    {declarations : List Declaration} (done : options.contents family = .ok declarations) :
    options.IsGrounded family := by
  unfold IsGrounded
  unfold contents at done
  cases consumer : options.consumer <;> cases header : options.header
  all_goals simp only [consumer, header, bind_eq_ok_iff] at done ⊢
  case kernel.false => exact Kernel.definesMasks_of_source built done
  case user.true =>
    obtain ⟨_, done, _⟩ := done
    exact Library.definesEvents_of_header done
  case user.false =>
    obtain ⟨_, done, _⟩ := done
    exact Library.defines_of_source done

/-- A family is grounded when text can be generated from it. -/
theorem isGrounded_of_generate (built : Family.ofSpec file excludes = .ok family) {text : String}
    (done : options.generate family = .ok text) : options.IsGrounded family := by
  obtain ⟨_, done, _⟩ := map_eq_ok_iff.1 done
  unfold declarations at done
  split at done
  · rename_i shared
    simp [IsGrounded, shared]
  · obtain ⟨_, done, _⟩ := bind_eq_ok_iff.1 done
    exact isGrounded_of_contents built done

end OutputOptions

namespace Family

/-- A file of a built family is generated only if the names that were left unchecked lead to
something. Then no failure is a name that nothing defines. -/
theorem generate_grounded (built : ofSpec file excludes = .ok family) (options : OutputOptions) :
    (∀ text, options.generate family = .ok text → options.IsGrounded family) ∧
      (options.IsGrounded family → ∀ error, options.generate family = .error error →
        error.isDangling = false) :=
  ⟨fun _ done => OutputOptions.isGrounded_of_generate built done,
    fun grounded => OutputOptions.neverDangles_generate built grounded⟩

/-- A request with a mask that names no enumeration. -/
def unnamed : Spec.File where
  license := Spec.acceptedLicense
  family :=
    { name := "f"
      attributeSets :=
        [{ name := "f"
           attributes := [{ name := "x", kind := some "u8", enumAsFlags := some true }] }]
      operations :=
        { list :=
            [{ name := "get"
               attributeSet := some "f"
               doMode := some { request := some { attributes := ["x"] } } }] } }

theorem isSome_ofSpec_unnamed : (ofSpec unnamed []).toOption.isSome = true := by
  decide +kernel

/-- The family with a mask that names no enumeration. -/
def unnamedFamily : Family :=
  (ofSpec unnamed []).toOption.get isSome_ofSpec_unnamed

/-- That family is what its description builds. -/
theorem ofSpec_unnamed : ofSpec unnamed [] = .ok unnamedFamily :=
  eq_ok_get isSome_ofSpec_unnamed

/-- The options for the source of the library. -/
def userSource : OutputOptions := { consumer := .user, header := false }

/-- The options for the source of the kernel side. -/
def kernelSource : OutputOptions := { consumer := .kernel, header := false }

/-- The library of that family can be generated. -/
theorem isSome_generate_unnamed : (userSource.generate unnamedFamily).toOption.isSome = true := by
  decide +kernel

/-- The kernel source of that family is refused for the enumeration without a name. -/
theorem generate_unnamed :
    kernelSource.generate unnamedFamily = .error (.unknownDefinition "") := by
  decide +kernel

/-- The user source does not look at the mask, and the kernel source does. -/
theorem generate_grounded_unnamed :
    userSource.IsGrounded unnamedFamily ∧ ¬kernelSource.IsGrounded unnamedFamily := by
  have forUser := generate_grounded ofSpec_unnamed userSource
  have forKernel := generate_grounded ofSpec_unnamed kernelSource
  refine ⟨forUser.1 _ (eq_ok_get isSome_generate_unnamed), fun grounded => ?_⟩
  have resolved := forKernel.2 grounded _ generate_unnamed
  cases resolved

/-- A built family may refer to a definition that it does not have. -/
theorem not_forall_resolved :
    ¬∀ (file : Spec.File) (excludes : List Pattern) (family : Family) (options : OutputOptions),
      ofSpec file excludes = .ok family → ∀ error, options.generate family = .error error →
        error.isDangling = false := by
  intro always
  have resolved := always unnamed [] _ kernelSource ofSpec_unnamed _ generate_unnamed
  cases resolved

end Family

end NetlinkFamily
