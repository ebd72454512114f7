import Mathlib.Data.List.Forall2
import NetlinkFamily.Model.Family
import NetlinkFamily.Output.Library.Parser
import NetlinkFamily.Proofs.C.Chains
import NetlinkFamily.Proofs.Outcome

namespace NetlinkFamily

namespace Attribute

open C (Arm)
open C.Code Outcome

variable {attr : Attribute} {holder : String} {branch : Branch}

/-- Whether a parser passes an attribute over: a pad that occurs once. -/
def isPassedOver (attr : Attribute) : Bool :=
  attr.kind == .pad && !attr.multi

/-- The code between the braces of a branch. -/
def branchBody (attr : Attribute) (holder : String) (branch : Branch) : List C.Code :=
  spacedAfter (branch.locals.map .line) ++ attr.validate holder ++ spacedBefore branch.setup ++
    branch.body

/-- The arm that reads an attribute. -/
def IsArm (holder : String) (attr : Attribute) (arm : Arm) : Prop :=
  ∃ branch, attr.branch holder = .ok branch ∧
    arm = ⟨"type == " ++ attr.enumName, attr.branchBody holder branch⟩

/-- An arm that compares the type opens with that comparison. -/
theorem header_type (first : Bool) (name : String) (body : List C.Code) :
    Arm.header first ⟨"type == " ++ name, body⟩ =
      (if first then "if" else "else if") ++ " (type == " ++ name ++ ")" := by
  apply String.toList_injective
  cases first <;> simp [Arm.header]

/-- A branch is left out for a single pad and is an arm for every other attribute. -/
theorem parseBranch?_eq_ok {first : Bool} {result : Option C.Code}
    (done : attr.parseBranch? holder first = .ok result) :
    attr.isPassedOver = true ∧ result = none ∨
      attr.isPassedOver = false ∧ ∃ arm, IsArm holder attr arm ∧ result = some (arm.code first) := by
  have idle : attr.kind = .pad ∧ attr.multi = false ↔ attr.isPassedOver = true := by
    simp [isPassedOver]
  unfold parseBranch? at done
  simp only [idle] at done
  split at done
  · rename_i passed
    exact .inl ⟨passed, (Except.ok.inj done).symm⟩
  · rename_i read
    simp only [bind_eq_ok_iff, pure_eq_ok_iff] at done
    obtain ⟨branch, told, rfl⟩ := done
    refine .inr ⟨by simpa using read, _, ⟨branch, told, rfl⟩, ?_⟩
    rw [Arm.code, header_type]
    rfl

/-- The branches of a parser are a chain, wherever pads stand between its members. -/
theorem exists_chain {first : Bool} {attrs : List Attribute} {code : List C.Code}
    (done : parseBranches holder first attrs = .ok code) :
    ∃ arms, List.Forall₂ (IsArm holder) (attrs.filter fun attr => !attr.isPassedOver) arms ∧
      code = Arm.chain first arms := by
  induction attrs generalizing first code with
  | nil => exact ⟨[], .nil, (Except.ok.inj done).symm⟩
  | cons attr rest ih =>
      simp only [parseBranches, bind_eq_ok_iff] at done
      obtain ⟨branch, made, done⟩ := done
      rcases parseBranch?_eq_ok made with ⟨passed, rfl⟩ | ⟨read, arm, reads, rfl⟩
      · -- The rest of the chain is still to be started, if it was before.
        obtain ⟨arms, each, chained⟩ := ih done
        refine ⟨arms, ?_, chained⟩
        rwa [List.filter_cons_of_neg (by simp [passed])]
      · simp only [bind_eq_ok_iff, pure_eq_ok_iff] at done
        obtain ⟨others, later, rfl⟩ := done
        obtain ⟨arms, each, rfl⟩ := ih later
        refine ⟨arm :: arms, ?_, rfl⟩
        rw [List.filter_cons_of_pos (by simp [read])]
        exact .cons reads each

/-- Returning the failure is steady. -/
theorem isSteady_failed : IsSteady [failed] :=
  isSteady_line (by decide) (by decide)

/-- A check and the return of its failure are steady. -/
theorem isSteady_refused (function : String) (arguments : List String) :
    IsSteady [.check function arguments, failed] :=
  isSteady_check function arguments (by decide) (by decide)

/-- Setting up the argument of a nested parser is steady. -/
theorem isSteady_nestSetup (renderName place : String) : IsSteady (nestSetup renderName place) :=
  (isSteady_assign _ _).append (isSteady_assign _ _)

/-- Entering the levels of a type-value is steady. -/
theorem isSteady_enterLevels (outer : String) (levels : List String) :
    IsSteady (enterLevels outer levels) := by
  induction levels generalizing outer with
  | nil => exact isSteady_nil
  | cons level rest ih =>
      exact (isSteady_assign _ _).append ((isSteady_assign _ _).append (ih _))

/-- Statements that end with a semicolon are steady. -/
theorem isSteady_map_line {lines : List String} (ends : ∀ line ∈ lines, C.endsWith line ';' = true) :
    IsSteady (lines.map .line) := by
  induction lines with
  | nil => exact isSteady_nil
  | cons line rest ih =>
      obtain ⟨here, later⟩ := List.forall_mem_cons.1 ends
      exact (isSteady_statement (.line line) (fun _ => rfl) here).append (ih later)

/-- Code with a blank line behind it stays steady. -/
theorem isSteady_spacedAfter {code : List C.Code} (steady : IsSteady code) :
    IsSteady (spacedAfter code) := by
  unfold spacedAfter
  split
  · exact isSteady_nil
  · exact steady.append isSteady_space

/-- Code with a blank line before it stays steady. -/
theorem isSteady_spacedBefore {code : List C.Code} (steady : IsSteady code) :
    IsSteady (spacedBefore code) := by
  unfold spacedBefore
  split
  · exact isSteady_nil
  · exact isSteady_space.append steady

/-- Checking an attribute's length is steady. -/
theorem isSteady_validate (attr : Attribute) (holder : String) :
    IsSteady (attr.validate holder) := by
  unfold validate
  split
  · exact isSteady_nil
  · refine (isSteady_refused _ _).append ?_
    split
    · exact isSteady_assign _ _
    · exact isSteady_nil

/-- A statement that is put together from some text ends where its semicolon is. -/
theorem endsWith_semicolon (text : String) : C.endsWith (text ++ ";") ';' = true :=
  C.endsWith_append (by decide) text ';'

/-- Parts of a branch that guard nothing behind them. -/
structure Branch.IsSteady (branch : Branch) : Prop where
  locals : C.Code.IsSteady (branch.locals.map .line)
  setup : C.Code.IsSteady branch.setup
  body : C.Code.IsSteady branch.body

/-- The branch of a type-value is steady. -/
theorem isSteady_levelsBranch (attr : Attribute) (place renderName : String) :
    (levelsBranch attr place renderName).IsSteady where
  locals := by
    refine isSteady_map_line ?_
    unfold levelsBranch
    dsimp only
    split
    · simp
    · simp [endsWith_semicolon]
  setup := isSteady_nestSetup _ _
  body := (isSteady_enterLevels _ _).append (isSteady_refused _ _)

/-- Counting an occurrence is steady. -/
theorem isSteady_count (front name : String) : IsSteady [.line (front ++ name ++ "++;")] :=
  isSteady_map_line (List.forall_mem_singleton.2 (C.endsWith_append (by decide) _ ';'))

/-- Nothing that is done for an attribute of any kind guards what stands behind it. -/
theorem isSteady_branch (done : attr.branch holder = .ok branch) : branch.IsSteady := by
  have length : IsSteady (["unsigned int len;"].map .line) := isSteady_map_line (by decide)
  unfold Attribute.branch at done
  dsimp only at done
  split at done
  · obtain rfl := Except.ok.inj done
    exact ⟨isSteady_nil, isSteady_nil, isSteady_count "n_" _⟩
  · cases kind : attr.kind with
    | unused =>
        rw [kind, Except.ok.injEq] at done
        exact done ▸ ⟨isSteady_nil, isSteady_nil, isSteady_failed⟩
    | pad | flag =>
        rw [kind, Except.ok.injEq] at done
        exact done ▸ ⟨isSteady_nil, isSteady_nil, isSteady_nil⟩
    | scalar =>
        rw [kind, Except.ok.injEq] at done
        exact done ▸ ⟨isSteady_nil, isSteady_nil, isSteady_assign _ _⟩
    | text =>
        rw [kind, Except.ok.injEq] at done
        have copied := (isSteady_call "memcpy"
          [holder ++ "->" ++ attr.cName, "mnl_attr_get_str(attr)", "len"]).append
          (isSteady_assign (holder ++ "->" ++ attr.cName ++ "[len]") "0")
        exact done ▸ ⟨length, isSteady_assign _ _,
          (isSteady_assign _ _).append ((isSteady_assign _ _).append copied)⟩
    | binary =>
        rw [kind, Except.ok.injEq] at done
        exact done ▸ ⟨length, isSteady_assign _ _,
          (isSteady_assign _ _).append ((isSteady_assign _ _).append (isSteady_call _ _))⟩
    | arrayNest =>
        rw [kind, Except.ok.injEq] at done
        have loop : IsSteady [.line "mnl_attr_for_each_nested(attr2, attr)"] :=
          isSteady_line (by decide) (by decide)
        have inner : IsSteady (["const struct nlattr *attr2;"].map .line) :=
          isSteady_map_line (by decide)
        exact done ▸ ⟨inner, isSteady_nil,
          (isSteady_assign _ _).append (loop.append (isSteady_count "\tn_" _))⟩
    | nest =>
        simp only [kind, bind_eq_ok_iff, pure_eq_ok_iff] at done
        obtain ⟨nested, _, rfl⟩ := done
        exact ⟨isSteady_nil, isSteady_nestSetup _ _, isSteady_refused _ _⟩
    | nestTypeValue =>
        simp only [kind, bind_eq_ok_iff, pure_eq_ok_iff] at done
        obtain ⟨nested, _, rfl⟩ := done
        exact isSteady_levelsBranch _ _ _

/-- The body of an arm is steady. -/
theorem IsArm.isSteady {arm : Arm} (reads : IsArm holder attr arm) : IsSteady arm.body := by
  obtain ⟨branch, told, rfl⟩ := reads
  obtain ⟨locals, setup, body⟩ := isSteady_branch told
  exact (((isSteady_spacedAfter locals).append (isSteady_validate _ _)).append
    (isSteady_spacedBefore setup)).append body

/-- An array is filled behind a condition of its own. -/
theorem startsElse_filled {code : List C.Code} {count : String} {body : List C.Code}
    (filled : code = [.block ("if (n_" ++ count ++ ")") body ""]) :
    ∀ part ∈ code, C.Code.startsElse [part] = false := by
  rw [filled]
  refine List.forall_mem_singleton.2 ?_
  simp [startsElse, C.startsWith, List.isPrefixOf]

/-- Filling an array starts with no `else`. -/
theorem startsElse_fillArray {code : List C.Code} (done : attr.fillArray = .ok code) :
    ∀ part ∈ code, C.Code.startsElse [part] = false := by
  unfold fillArray at done
  dsimp only at done
  split at done <;>
    simp only [bind_eq_ok_iff, pure_eq_ok_iff, exists_eq_left'] at done
  · exact startsElse_filled done.symm
  · obtain ⟨_, _, _, _, filled⟩ := done
    exact startsElse_filled filled.symm

/-- Filling a repeated attribute starts with no `else`. -/
theorem startsElse_fillRepeated {loop : String} {code : List C.Code}
    (done : attr.fillRepeated loop = .ok code) :
    ∀ part ∈ code, C.Code.startsElse [part] = false := by
  unfold fillRepeated at done
  dsimp only at done
  -- With a nest and without one, the rest is the same.
  split at done <;> obtain ⟨policy, _, done⟩ := bind_eq_ok_iff.1 done <;> cases kind : attr.kind <;>
    simp only [kind, bind_eq_ok_iff, pure_eq_ok_iff] at done <;> obtain ⟨_, made, done⟩ := done
  case isTrue.nest | isFalse.nest =>
    obtain ⟨_, _, filled⟩ := done
    exact startsElse_filled filled.symm
  case isTrue.scalar | isFalse.scalar => exact startsElse_filled done.symm
  all_goals cases made

end Attribute

namespace Library

open C (Arm)
open C.Code Outcome

variable {family : Family} {layout : Layout} {code setup : List C.Code} {locals : List String}

/-- The list is split in front of the last two lists of the group in the middle. -/
theorem flatten_split {A : Type} (before : List (List A)) (first middle last : A)
    (after : List (List A)) :
    (before ++ [first, middle, last] :: after).flatten =
      (before.flatten ++ [first]) ++ middle :: last :: after.flatten := by
  simp

/-- A local variable is declared, wherever the others stand. -/
theorem mem_locals {declarations : List String} {text : String} (listed : text ∈ declarations) :
    .line text ∈ C.Code.locals declarations := by
  have filled : declarations.isEmpty = false := by
    cases declarations with
    | nil => cases listed
    | cons first rest => rfl
  rw [C.Code.locals, filled, if_neg Bool.false_ne_true]
  exact List.mem_append_left _ (List.mem_map_of_mem (List.mem_mergeSort.2 listed))

/-- A parser declares its variables and prepares, and then goes over the attributes in a loop that
holds its chain. Behind that it fills the arrays. -/
theorem exists_parts (done : parserBody family layout setup locals = .ok code) :
    ∃ arms front arrays repeated,
      List.Forall₂ (Attribute.IsArm "dst")
        ((layout.attributes family.toScope).filter fun attr => !attr.isPassedOver) arms ∧
      (sortedByName ((layout.attributes family.toScope).filter fun attr =>
        !attr.multi && attr.kind == .arrayNest)).mapM Attribute.fillArray = .ok arrays ∧
      (sortedByName ((layout.attributes family.toScope).filter Attribute.multi)).mapM
        (fun attr => attr.fillRepeated (attributeLoop layout)) = .ok repeated ∧
      (∀ text ∈ locals, .line text ∈ front) ∧ (∀ part ∈ setup, part ∈ front) ∧
      code = front ++
        .block (attributeLoop layout)
          (.assign "unsigned int type" "mnl_attr_get_type(attr)" :: .space :: Arm.chain true arms)
          "" :: .space ::
        [arrays.flatten, [.space], repeated.flatten,
          [.space, .line (if layout.nested then "return 0;" else "return MNL_CB_OK;")]].flatten := by
  simp only [parserBody, bind_eq_ok_iff, pure_eq_ok_iff] at done
  obtain ⟨branches, read, arrays, filled, repeated, refilled, rfl⟩ := done
  obtain ⟨arms, each, rfl⟩ := Attribute.exists_chain read
  refine ⟨arms, _, arrays, repeated, each, filled, refilled, ?_, ?_,
    flatten_split [_, _, _, _, _, _] _ _ _ _⟩
  · intro text listed
    exact List.mem_append_left _ (List.mem_append_left _ (mem_locals (List.mem_append_left _ listed)))
  · intro part listed
    exact List.mem_append_left _ (List.mem_append_right _ (List.mem_append_left _ listed))

/-- What stands behind the loop of a parser does not go on with it. -/
theorem exists_loop (done : parserBody family layout setup locals = .ok code) :
    ∃ arms front back,
      List.Forall₂ (Attribute.IsArm "dst")
        ((layout.attributes family.toScope).filter fun attr => !attr.isPassedOver) arms ∧
      code = front ++
        .block (attributeLoop layout)
          (.assign "unsigned int type" "mnl_attr_get_type(attr)" :: .space :: Arm.chain true arms)
          "" :: back ∧
      startsElse back = false := by
  obtain ⟨arms, front, arrays, repeated, each, filled, refilled, _, _, rfl⟩ := exists_parts done
  refine ⟨arms, front, _, each, rfl, startsElse_of_forall ?_⟩
  have ofArrays : ∀ part ∈ arrays.flatten, startsElse [part] = false := by
    intro part member
    obtain ⟨code, listed, inside⟩ := List.mem_flatten.1 member
    obtain ⟨attr, _, fills⟩ := mem_of_mapM filled code listed
    exact Attribute.startsElse_fillArray fills part inside
  have ofRepeated : ∀ part ∈ repeated.flatten, startsElse [part] = false := by
    intro part member
    obtain ⟨code, listed, inside⟩ := List.mem_flatten.1 member
    obtain ⟨attr, _, fills⟩ := mem_of_mapM refilled code listed
    exact Attribute.startsElse_fillRepeated fills part inside
  have gap : startsElse [.space] = false := rfl
  have last : startsElse [.line (if layout.nested then "return 0;" else "return MNL_CB_OK;")] =
      false := by
    split <;> decide
  simp only [List.flatten_cons, List.flatten_nil, List.append_nil, List.forall_mem_cons,
    List.forall_mem_append]
  exact ⟨gap, ofArrays, ⟨gap, List.forall_mem_nil _⟩, ofRepeated, gap, last, List.forall_mem_nil _⟩

/-- The lines in the loop: the type is read, and told apart by the chain. -/
def loopLines (depth : Nat) (arms : List Arm) : List String :=
  (C.tabs depth ++ "unsigned int type = mnl_attr_get_type(attr);") ::
    if arms.isEmpty then [] else "" :: Arm.chainLines depth arms

/-- Inside its loop, a chain prints one arm behind the other. -/
theorem goes_inside {arms : List Arm} (steady : ∀ arm ∈ arms, IsSteady arm.body)
    (before : List String) (depth : Nat) :
    C.Writer.Goes (.resting before depth) false (loopLines depth arms)
      (writeAll (.resting before depth)
        (.assign "unsigned int type" "mnl_attr_get_type(attr)" :: .space ::
          Arm.chain true arms)) := by
  have ordinary : C.IsOrdinary "unsigned int type = mnl_attr_get_type(attr);" :=
    ⟨by decide, by decide, by decide⟩
  have resting : (C.Writer.resting before depth).guarded = false := rfl
  have typed := C.Writer.line_ordinary resting ordinary
  have free : (C.Writer.resting (before ++
      [C.tabs depth ++ "unsigned int type = mnl_attr_get_type(attr);"]) depth).space.guarded =
    false := rfl
  obtain ⟨printed, same, guarded⟩ := Arm.goes_chain steady free rfl
  rw [C.Writer.printed_resting] at typed
  show C.Writer.Goes _ _ _ (writeAll ((C.Writer.resting before depth).line
    "unsigned int type = mnl_attr_get_type(attr);").space (Arm.chain true arms))
  rw [typed]
  refine ⟨printed.trans ?_, same, guarded⟩
  cases arms <;>
    simp [loopLines, C.Writer.front, C.Writer.resting, C.Writer.printed, C.Writer.space,
      C.Piece.spacing]

/-- A loop that holds a chain leaves its brace to what comes next. -/
theorem write_loop {arms : List Arm} (steady : ∀ arm ∈ arms, IsSteady arm.body) (header : String)
    (writer : C.Writer) :
    write writer
        (.block header
          (.assign "unsigned int type" "mnl_attr_get_type(attr)" :: .space :: Arm.chain true arms)
          "") =
      .holding ((writer.openBlock header).printed ++ loopLines (writer.depth + 1) arms)
        writer.depth := by
  have within := goes_inside steady (writer.openBlock header).printed (writer.depth + 1)
  rw [← C.Writer.openBlock_eq_resting] at within
  have inside := within.depth.trans (congrArg C.Writer.depth (writer.openBlock_eq_resting header))
  rw [write, C.Writer.closeBlock_eq_holding inside within.guarded, within.printed]
  rfl

/-- In its loop over the attributes, a parser prints one chain. It has an arm for each of the
members that are no single pads, in order. Between its conditions stand the bodies of the arms, all
of them deeper, and nothing else. -/
theorem exists_printed_chain (done : parserBody family layout setup locals = .ok code)
    (writer : C.Writer) :
    ∃ arms front back,
      List.Forall₂ (Attribute.IsArm "dst")
        ((layout.attributes family.toScope).filter fun attr => !attr.isPassedOver) arms ∧
      code = front ++
        .block (attributeLoop layout)
          (.assign "unsigned int type" "mnl_attr_get_type(attr)" :: .space :: Arm.chain true arms)
          "" :: back ∧
      (∀ arm ∈ arms, ∀ depth, ∀ line ∈ linesAt depth arm.body,
        line = "" ∨ C.startsWith line (C.tabs depth) = true) ∧
      ∃ rest, (writeAll writer code).printed =
        ((writeAll writer front).openBlock (attributeLoop layout)).printed ++
          loopLines (writer.depth + 1) arms ++ [C.tabs writer.depth ++ "\x7d"] ++ rest := by
  obtain ⟨arms, front, back, each, rfl, apart⟩ := exists_loop done
  have steady : ∀ arm ∈ arms, IsSteady arm.body := fun arm member => by
    obtain ⟨attr, _, reads⟩ := exists_of_forall₂ each arm member
    exact reads.isSteady
  refine ⟨arms, front, back, each, rfl, fun arm member => (steady arm member).inside, ?_⟩
  have depth : (writeAll writer front).depth = writer.depth := (grows_writeAll writer front).depth
  obtain ⟨rest, printed⟩ := printed_prefix_writeAll apart
    (.holding
      (((writeAll writer front).openBlock (attributeLoop layout)).printed ++
        loopLines (writer.depth + 1) arms)
      writer.depth)
  refine ⟨rest, ?_⟩
  rw [writeAll_append, writeAll, write_loop steady, depth, ← printed, C.Writer.printed_holding]

/-- A set with pads in front, in between and at the end. -/
def padded : Spec.File where
  license := Spec.acceptedLicense
  family :=
    { name := "f"
      attributeSets :=
        [{ name := "dev"
           attributes :=
             [{ name := "p", kind := some "pad" }, { name := "q", kind := some "pad" },
               { name := "x", kind := some "u8" }, { name := "r", kind := some "pad" },
               { name := "s", kind := some "pad" }, { name := "y", kind := some "unused" },
               { name := "t", kind := some "pad" }] }]
      operations := { list := [{ name := "get", attributeSet := some "dev" }] } }

theorem isSome_ofSpec_padded : (Family.ofSpec padded []).toOption.isSome = true := by
  decide +kernel

/-- The family whose set has pads in front, in between and at the end. -/
def paddedFamily : Family :=
  (Family.ofSpec padded []).toOption.get isSome_ofSpec_padded

/-- The set of that family has a layout. -/
theorem isSome_ofSet_padded : (Layout.ofSet paddedFamily.toScope "dev").toOption.isSome = true := by
  decide +kernel

/-- The layout of that set. -/
def paddedLayout : Layout :=
  (Layout.ofSet paddedFamily.toScope "dev").toOption.get isSome_ofSet_padded

/-- A parser can be printed for that set. -/
theorem isSome_parserBody_padded :
    (parserBody paddedFamily paddedLayout [] []).toOption.isSome = true := by
  decide +kernel

/-- The pads leave no trace in the chain. -/
example : (parserBody paddedFamily paddedLayout [] []).toOption.map
      (fun code => (writeAll {} code).printed) =
    some
      ["", "mnl_attr_for_each_nested(attr, nested) \x7b",
        "\tunsigned int type = mnl_attr_get_type(attr);", "",
        "\tif (type == F_A_DEV_X) \x7b",
        "\t\tif (ynl_attr_validate(yarg, attr))", "\t\t\treturn MNL_CB_ERROR;",
        "\t\tdst->_present.x = 1;", "\t\tdst->x = mnl_attr_get_u8(attr);",
        "\t\x7d else if (type == F_A_DEV_Y) \x7b",
        "\t\tif (ynl_attr_validate(yarg, attr))", "\t\t\treturn MNL_CB_ERROR;",
        "\t\treturn MNL_CB_ERROR;",
        "\t\x7d", "\x7d", "", "return 0;"] := by
  decide +kernel

/-- For that set the printed loop is a chain without the pads. -/
theorem exists_printed_chain_padded :
    Family.ofSpec padded [] = .ok paddedFamily ∧
      Layout.ofSet paddedFamily.toScope "dev" = .ok paddedLayout ∧
      ∃ code, parserBody paddedFamily paddedLayout [] [] = .ok code ∧
        ∃ arms front back,
          List.Forall₂ (Attribute.IsArm "dst")
            ((paddedLayout.attributes paddedFamily.toScope).filter fun attr => !attr.isPassedOver)
            arms ∧
          code = front ++
            .block (attributeLoop paddedLayout)
              (.assign "unsigned int type" "mnl_attr_get_type(attr)" :: .space ::
                Arm.chain true arms)
              "" :: back ∧
          (∀ arm ∈ arms, ∀ depth, ∀ line ∈ linesAt depth arm.body,
            line = "" ∨ C.startsWith line (C.tabs depth) = true) ∧
          ∃ rest, (writeAll {} code).printed =
            ((writeAll {} front).openBlock (attributeLoop paddedLayout)).printed ++
              loopLines 1 arms ++ [C.tabs 0 ++ "\x7d"] ++ rest := by
  have done := eq_ok_get isSome_parserBody_padded
  exact ⟨eq_ok_get isSome_ofSpec_padded, eq_ok_get isSome_ofSet_padded, _, done,
    exists_printed_chain done {}⟩

end Library

end NetlinkFamily
