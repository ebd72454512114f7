import NetlinkFamily.Output.Library.Files
import NetlinkFamily.Proofs.Outcome

namespace NetlinkFamily

open Outcome

/-- If there is no result, then not because of a name that nothing defines. -/
abbrev NeverDangles {A : Type} (outcome : Except ModelError A) : Prop :=
  FailsWith (fun error => error.isDangling = false) outcome

namespace Attribute

variable (attr : Attribute)

/-- Looking up the nested set of an attribute meets no unknown definition. -/
theorem neverDangles_nestedSet : NeverDangles attr.nestedSet := by
  unfold nestedSet
  split
  · exact .ok _
  · exact .error rfl

section Fields

variable (space : Space)

/-- The type of the structure an attribute holds meets no unknown definition. -/
theorem neverDangles_nestedType : NeverDangles attr.nestedType :=
  attr.neverDangles_nestedSet.map _

/-- The type of one element meets no unknown definition. -/
theorem neverDangles_elementType : NeverDangles (attr.elementType? space) := by
  have nested := attr.neverDangles_nestedType
  unfold elementType?
  split
  · split
    · exact nested
    · exact .ok _
    · exact .error rfl
  · split
    · exact nested
    · exact nested
    · split
      · exact nested
      · exact nested
      · split
        · exact .ok _
        · exact .error rfl
    · exact .ok _

/-- The parameters for one element meet no unknown definition. -/
theorem neverDangles_elementParameters : NeverDangles (attr.elementParameters space) := by
  unfold elementParameters
  refine (attr.neverDangles_elementType space).bind fun type _ => ?_
  cases type with
  | none => exact .error rfl
  | some type => exact .ok _

/-- The parameters of a setter meet no unknown definition. -/
theorem neverDangles_parameters : NeverDangles (attr.parameters space) := by
  have elements := attr.neverDangles_elementParameters space
  unfold parameters
  split
  · exact elements
  · split <;> first | exact .ok _ | exact elements

/-- The fields of one element meet no unknown definition. -/
theorem neverDangles_elementFields : NeverDangles (attr.elementFields space) := by
  unfold elementFields
  refine (attr.neverDangles_elementType space).bind fun type _ => ?_
  cases type with
  | none =>
      dsimp only
      split <;> exact .ok _
  | some type =>
      dsimp only
      split <;> exact .ok _

/-- The fields of an attribute in a structure meet no unknown definition. -/
theorem neverDangles_fields : NeverDangles (attr.fields space) := by
  have elements := attr.neverDangles_elementFields space
  unfold fields
  split
  · exact elements
  · split <;> first | exact .ok _ | exact elements

end Fields

section Code

variable (holder inner : String)

/-- Releasing an attribute meets no unknown definition. -/
theorem neverDangles_free : NeverDangles (attr.free holder inner) := by
  unfold free
  dsimp only
  split
  · exact attr.neverDangles_nestedSet.bind fun _ _ => .ok _
  · split
    · exact .ok _
    · split
      · exact attr.neverDangles_nestedSet.bind fun _ _ => .ok _
      · exact attr.neverDangles_nestedSet.bind fun _ _ => .ok _
      all_goals exact .ok _

/-- Writing a nest meets no unknown definition. -/
theorem neverDangles_putNest (place : String) : NeverDangles (attr.putNest place) :=
  attr.neverDangles_nestedSet.map _

/-- Writing each element meets no unknown definition. -/
theorem neverDangles_putEach : NeverDangles (attr.putEach holder) := by
  unfold putEach
  dsimp only
  split
  · exact .ok _
  · exact (attr.neverDangles_putNest _).bind fun _ _ => .ok _
  · exact .error rfl

/-- Writing an attribute meets no unknown definition. -/
theorem neverDangles_put : NeverDangles (attr.put holder) := by
  unfold put
  dsimp only
  split
  · exact attr.neverDangles_putEach holder
  · split
    case h_9 => exact (attr.neverDangles_putNest _).map _
    all_goals first | exact .ok _ | exact .error rfl

/-- The branch that reads an attribute meets no unknown definition. -/
theorem neverDangles_branch : NeverDangles (attr.branch holder) := by
  unfold branch
  dsimp only
  split
  · exact .ok _
  · split <;>
      first
        | exact .ok _
        | exact attr.neverDangles_nestedSet.bind fun _ _ => .ok _

/-- The arm with that branch meets no unknown definition. -/
theorem neverDangles_parseBranch (first : Bool) :
    NeverDangles (attr.parseBranch? holder first) := by
  unfold parseBranch?
  split
  · exact .ok _
  · exact (attr.neverDangles_branch holder).bind fun _ _ => .ok _

/-- The chain of all arms meets no unknown definition. -/
theorem neverDangles_parseBranches (attrs : List Attribute) (first : Bool) :
    NeverDangles (parseBranches holder first attrs) := by
  induction attrs generalizing first with
  | nil => exact .ok _
  | cons attr rest ih =>
      rw [parseBranches]
      refine (attr.neverDangles_parseBranch holder first).bind fun branch _ => ?_
      cases branch with
      | none => exact ih first
      | some branch => exact (ih false).bind fun _ _ => .ok _

/-- Naming the policy of a nest meets no unknown definition. -/
theorem neverDangles_nestPolicy : NeverDangles attr.nestPolicy :=
  attr.neverDangles_nestedSet.map _

/-- Reading all occurrences meets no unknown definition. -/
theorem neverDangles_fillRepeated (loop : String) : NeverDangles (attr.fillRepeated loop) := by
  unfold fillRepeated
  dsimp only
  split
  · refine (attr.neverDangles_nestPolicy.map _).bind fun _ _ => ?_
    split
    · exact attr.neverDangles_nestedSet.bind fun _ _ => .ok _
    · exact .ok _
    · exact .error rfl
  · refine FailsWith.bind (.ok _) fun _ _ => ?_
    split
    · exact attr.neverDangles_nestedSet.bind fun _ _ => .ok _
    · exact .ok _
    · exact .error rfl

/-- Reading all entries meets no unknown definition. -/
theorem neverDangles_fillArray : NeverDangles attr.fillArray := by
  unfold fillArray
  dsimp only
  split
  · exact .ok _
  · exact attr.neverDangles_nestedSet.bind fun _ _ =>
      attr.neverDangles_nestPolicy.bind fun _ _ => .ok _

/-- The entry in a validation table meets no unknown definition. -/
theorem neverDangles_validationEntry : NeverDangles attr.validationEntry := by
  refine FailsWith.map ?_ _
  unfold validation
  split <;> first | exact .ok _ | exact attr.neverDangles_nestedSet.map _

end Code

end Attribute

namespace Setter

/-- Storing an argument meets no unknown definition. -/
theorem neverDangles_store (attr : Attribute) (member presence count : String) :
    NeverDangles (store attr member presence count) := by
  unfold store
  dsimp only
  split
  · exact .ok _
  · split <;> first | exact .ok _ | exact .error rfl

/-- The setter of a single attribute meets no unknown definition. -/
theorem neverDangles_leaf (space : Space) (subject : Subject) (part : Part) (path : List String)
    (attr : Attribute) : NeverDangles (leaf space subject part path attr) := by
  unfold leaf
  exact (neverDangles_store attr _ _ _).bind fun _ _ =>
    (attr.neverDangles_parameters space).bind fun _ _ => .ok _

/-- By induction on the depth of nests. -/
theorem neverDangles_functions (space : Space) (family : Family) (subject : Subject) (part : Part)
    (depth : Nat) (path : List String) (attr : Attribute) :
    NeverDangles (functions space family subject part depth path attr) := by
  induction depth generalizing path attr with
  | zero =>
      unfold functions
      split
      · exact .ok _
      · split
        · exact .error rfl
        · exact (neverDangles_leaf space subject part path attr).map _
  | succ depth ih =>
      unfold functions
      split
      · exact .ok _
      · split
        · split
          · rename_i below _
            cases below
            exact FailsWith.bind (.mapM fun inner _ => ih _ inner) fun _ _ => .ok _
          · exact .error rfl
        · exact (neverDangles_leaf space subject part path attr).map _

end Setter

namespace Library

/-- What is made of each item meets no unknown definition where no part does. -/
theorem neverDangles_each {A : Type} {items : List A}
    {f : A → Except ModelError (List Declaration)} (all : ∀ item ∈ items, NeverDangles (f item)) :
    NeverDangles (each items f) :=
  (FailsWith.mapM all).map _

/-- What is made under a condition meets no unknown definition where its body does not. -/
theorem neverDangles_whenever {condition : Bool} {body : Except ModelError (List Declaration)}
    (inside : condition = true → NeverDangles body) : NeverDangles (whenever condition body) := by
  unfold whenever
  split
  · rename_i holds
    exact inside holds
  · exact .ok _

variable (family : Family) (subject : Subject) (part : Part) (layout : Layout)

section Types

/-- A structure meets no unknown definition. -/
theorem neverDangles_structureOf (name : String) :
    NeverDangles (structureOf family name layout) :=
  FailsWith.bind (.mapM fun attr _ => attr.neverDangles_fields .user) fun _ _ => .ok _

/-- The type of a nested set meets no unknown definition. -/
theorem neverDangles_nestType : NeverDangles (nestType family layout) :=
  (neverDangles_structureOf family layout _).bind fun _ _ => .ok _

/-- The type of a message meets no unknown definition. -/
theorem neverDangles_messageType : NeverDangles (messageType family subject part layout) :=
  (neverDangles_structureOf family layout _).bind fun _ _ => .ok _

/-- The setters of a layout meet no unknown definition. -/
theorem neverDangles_setters : NeverDangles (setters family subject layout) :=
  FailsWith.bind (.mapM fun attr _ => Setter.neverDangles_functions _ family subject _ _ _ attr)
    fun _ _ => .ok _

/-- A request's type meets no unknown definition. -/
theorem neverDangles_requestType : NeverDangles (requestType family subject) := by
  unfold requestType
  split
  · exact .ok _
  · rename_i layout _
    exact (neverDangles_messageType family subject .request layout).bind fun _ _ =>
      (neverDangles_setters family subject layout).bind fun _ _ => .ok _

/-- A reply's type meets no unknown definition. -/
theorem neverDangles_replyType : NeverDangles (replyType family subject) := by
  unfold replyType
  split
  · exact .ok _
  · exact .ok _
  · exact neverDangles_messageType family subject .reply _

end Types

section Releases

/-- Releasing the members meets no unknown definition. -/
theorem neverDangles_releaseMembers (attrs : List Attribute) (holder inner : String) :
    NeverDangles (releaseMembers attrs holder inner) :=
  FailsWith.bind (.mapM fun attr _ => attr.neverDangles_free holder inner) fun _ _ => .ok _

/-- The definition of a release meets no unknown definition. -/
theorem neverDangles_release : NeverDangles (release family subject part layout) :=
  (neverDangles_releaseMembers _ _ _).bind fun _ _ => .ok _

/-- Releasing a part meets no unknown definition. -/
theorem neverDangles_releasePart : NeverDangles (releasePart family subject part) := by
  unfold releasePart
  split
  · exact .ok _
  · exact neverDangles_release family subject part _

/-- Releasing a list meets no unknown definition. -/
theorem neverDangles_releaseList : NeverDangles (releaseList family subject) := by
  unfold releaseList
  split
  · exact .ok _
  · exact (neverDangles_releaseMembers _ _ _).bind fun _ _ => .ok _

/-- Releasing a notification meets no unknown definition. -/
theorem neverDangles_releaseNotification : NeverDangles (releaseNotification family subject) := by
  unfold releaseNotification
  split
  · exact .ok _
  · exact (neverDangles_releaseMembers _ _ _).bind fun _ _ => .ok _

end Releases

section Functions

/-- Writing the members meets no unknown definition. -/
theorem neverDangles_putMembers (holder : String) :
    NeverDangles (putMembers family layout holder) :=
  FailsWith.bind (.mapM fun attr _ => attr.neverDangles_put holder) fun _ _ => .ok _

/-- The definition that writes a nest meets no unknown definition. -/
theorem neverDangles_putNest : NeverDangles (putNest family layout) :=
  (neverDangles_putMembers family layout _).bind fun _ _ => .ok _

/-- The body of a parser meets no unknown definition. -/
theorem neverDangles_parserBody (setup : List C.Code) (locals : List String) :
    NeverDangles (parserBody family layout setup locals) :=
  (Attribute.neverDangles_parseBranches _ _ _).bind fun _ _ =>
    FailsWith.bind (.mapM fun attr _ => attr.neverDangles_fillArray) fun _ _ =>
      FailsWith.bind (.mapM fun attr _ => attr.neverDangles_fillRepeated _) fun _ _ => .ok _

/-- The parser of a nested set meets no unknown definition. -/
theorem neverDangles_nestParser : NeverDangles (nestParser family layout) :=
  (neverDangles_parserBody family layout _ _).bind fun _ _ => .ok _

/-- The parser of a reply meets no unknown definition. -/
theorem neverDangles_replyParser (element : Bool) :
    NeverDangles (replyParser family subject element) := by
  unfold replyParser
  split
  · exact .ok _
  · dsimp only
    split
    · exact .ok _
    · exact (neverDangles_parserBody family _ _ _).bind fun _ _ => .ok _

/-- Writing a request meets no unknown definition. -/
theorem neverDangles_putRequest : NeverDangles (putRequest family subject) := by
  unfold putRequest
  split
  · exact .ok _
  · exact neverDangles_putMembers family _ _

/-- The definition that performs a call meets no unknown definition. -/
theorem neverDangles_call (operation : Operation) :
    NeverDangles (call family operation subject) :=
  (neverDangles_putRequest family subject).bind fun _ _ => .ok _

/-- The definition that performs a dump meets no unknown definition. -/
theorem neverDangles_dump (operation : Operation) :
    NeverDangles (dump family operation subject) := by
  unfold dump
  split
  · exact .error rfl
  · exact (neverDangles_putRequest family subject).bind fun _ _ => .ok _

/-- The source of a nested set meets no unknown definition. -/
theorem neverDangles_nestSource (entry : String × Layout) :
    NeverDangles (nestSource family entry) :=
  (neverDangles_release family _ .nest entry.2).bind fun _ _ =>
    (neverDangles_whenever fun _ => neverDangles_putNest family entry.2).bind fun _ _ =>
      (neverDangles_whenever fun _ => neverDangles_nestParser family entry.2).bind fun _ _ => .ok _

end Functions

end Library

end NetlinkFamily
