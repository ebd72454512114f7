import NetlinkFamily.Proofs.C.Alignment
import NetlinkFamily.Proofs.C.Chains
import NetlinkFamily.Proofs.C.Prototypes

namespace NetlinkFamily.C

open Piece (behind ending indented opening spacing)

/-- A line that stands at the depth of the writer and guards nothing. -/
structure IsLevel (line : String) : Prop where
  quiet : isCondition line = false
  unlabelled : endsWith line ':' = false

/-- Text that ends in another sign than a condition or a label is level. -/
theorem isLevel_of_endsWith {line : String} {last : Char} (ends : endsWith line last = true)
    (other : ')' ≠ last ∧ ':' ≠ last) : IsLevel line where
  quiet := by rw [isCondition, endsWith_other ends other.1, Bool.false_and]
  unlabelled := endsWith_other ends other.2

/-- A line that ends in a comma is level. -/
theorem isLevel_comma (text : String) : IsLevel (text ++ ",") :=
  isLevel_of_endsWith (endsWith_append (by decide) text ',') (by decide)

/-- So is a statement. -/
theorem isLevel_semicolon (text : String) : IsLevel (text ++ ";") :=
  isLevel_of_endsWith (endsWith_append (by decide) text ';') (by decide)

namespace Writer

variable {writer : Writer}

/-- A level line is written behind what a resting writer has printed. -/
theorem line_resting_level {text : String} (level : IsLevel text) (before : List String)
    (depth : Nat) :
    (resting before depth).line text = resting (before ++ [tabs depth ++ text]) depth := by
  have free : (resting before depth).guarded = false := rfl
  have written := line_plain free ⟨text, level.quiet⟩
  have front : (resting before depth).front false = before := printed_resting before depth
  have alone : ((resting before depth).closing && startsWith text "else") = false := rfl
  have plain : indented depth (behind false text) = tabs depth ++ text := by
    rw [indented, behind, if_neg Bool.false_ne_true, level.unlabelled, if_neg Bool.false_ne_true]
  simp only [alone, front] at written
  rw [written]
  exact congrArg (fun line => resting (before ++ [line]) depth) plain

/-- A writer that has printed some other lines in front of its own. -/
def prepend (front : List String) (writer : Writer) : Writer :=
  { writer with lines := writer.lines ++ front.reverse }

/-- The other lines stand in front. -/
@[simp] theorem printed_prepend (front : List String) (writer : Writer) :
    (writer.prepend front).printed = front ++ writer.printed := by
  unfold prepend printed
  cases writer.closing <;> simp

/-- A line is written in the same way behind other lines. -/
theorem line_prepend (front : List String) (writer : Writer) (text : String) :
    (writer.prepend front).line text = (writer.line text).prepend front := by
  rw [line_eq, line_eq, printed_prepend]
  cases joins : writer.closing && startsWith text "else" <;> cases blank : writer.blank <;>
    simp [prepend, joins, blank]

/-- So is the line that opens a block. -/
theorem openBlock_prepend (front : List String) (writer : Writer) (header : String) :
    (writer.prepend front).openBlock header = (writer.openBlock header).prepend front := by
  rw [openBlock_eq_line, openBlock_eq_line, line_prepend]
  rfl

/-- So is the end of a block. -/
theorem closeBlock_prepend (front : List String) {depth : Nat} (inside : writer.depth = depth + 1)
    (closing : String) :
    (writer.prepend front).closeBlock closing = (writer.closeBlock closing).prepend front := by
  let outer : Writer :=
    { lines := writer.printed.reverse
      blank := false
      closing := closing.isEmpty
      guarded := writer.guarded
      depth }
  have moved : (writer.prepend front).depth = depth + 1 := inside
  rw [closeBlock_eq moved, closeBlock_eq inside, printed_prepend, List.reverse_append]
  dsimp only
  split
  · rfl
  · split
    · exact line_prepend front outer _
    · exact line_prepend front outer _

/-- A block without a text behind it ends with its brace, even if something guards that. -/
theorem printed_closeBlock {depth : Nat} (inside : writer.depth = depth + 1) :
    (writer.closeBlock "").printed = writer.printed ++ [tabs depth ++ "\x7d"] := by
  rw [closeBlock_eq inside]
  simp [printed]

/-- A block opens on its line, which stands deeper if it is guarded. -/
theorem printed_openBlock (before : List String) (guards : Bool) (header : String) :
    ({ resting before 0 with guarded := guards }.openBlock header).printed =
      before ++ [(if guards then "\t" else "") ++ opening header] := by
  obtain ⟨start, brace⟩ := Piece.exists_opening_eq false header
  have unlabelled : endsWith (opening header) ':' = false := by
    rw [show opening header = start ++ "\x7b" from brace]
    exact endsWith_brace start (by decide)
  have none : tabs 0 = "" := rfl
  rw [openBlock_eq_line, line_eq_resting]
  simp [resting, printed, front, indented, behind, spacing, unlabelled, none]

/-- A line that joins nothing is written as it is by a writer that has printed nothing. -/
theorem line_eq_prepend (free : writer.guarded = false) {text : String}
    (apart : (writer.closing && startsWith text "else") = false) :
    writer.line text =
      ((resting [] writer.depth).line text).prepend (writer.printed ++ spacing writer.blank) := by
  have alone : ((resting [] writer.depth).closing && startsWith text "else") = false := rfl
  rw [line_eq_resting, line_eq_resting, alone, apart, free]
  simp [resting, prepend, front, Writer.printed, spacing]

/-- A line that is no condition guards nothing. -/
theorem guarded_line {text : String} (quiet : isCondition text = false) (writer : Writer) :
    (writer.line text).guarded = false := by
  rw [line_eq_resting]
  exact Piece.isCondition_behind _ ⟨text, quiet⟩

/-- The end of a block guards nothing if there is a text behind its brace. -/
theorem guarded_closeBlock {depth : Nat} (inside : writer.depth = depth + 1) {closing : String}
    (frees : closing.isEmpty = true → writer.guarded = false) :
    (writer.closeBlock closing).guarded = false := by
  rw [closeBlock_eq inside]
  dsimp only
  split
  · rename_i empty
    exact frees empty
  · split
    · exact guarded_line (isCondition_of_brace (by simp)) _
    · exact guarded_line (isCondition_of_brace (by simp)) _

/-- What opens a block is printed as it is by a writer that has printed nothing. -/
theorem openBlock_eq_prepend (free : writer.guarded = false) {header : String}
    (apart : (writer.closing && startsWith header "else") = false) :
    writer.openBlock header =
      ((resting [] writer.depth).openBlock header).prepend
        (writer.printed ++ spacing writer.blank) := by
  rw [← Piece.startsWith_opening] at apart
  rw [openBlock_eq_line, openBlock_eq_line, line_eq_prepend free apart]
  rfl

end Writer

namespace Code

open Writer

variable {code body : List Code} {writer : Writer}

/-- Inside a block the writer is one level deeper. -/
theorem depth_inside (writer : Writer) (header : String) (body : List Code) :
    (writeAll (writer.openBlock header) body).depth = writer.depth + 1 :=
  (grows_writeAll _ body).depth.trans (congrArg depth (openBlock_eq_resting writer header))

mutual

/-- What is written does not depend on the lines printed before. -/
theorem write_prepend (front : List String) (writer : Writer) :
    (code : Code) → write (writer.prepend front) code = (write writer code).prepend front
  | .space => rfl
  | .line _ | .check _ _ | .call _ _ | .assign _ _ => line_prepend front writer _
  | .block header body closing => by
      rw [write, write, openBlock_prepend, writeAll_prepend front _ body,
        closeBlock_prepend front (depth_inside writer header body)]

/-- A body is written alike whatever lines were printed before it. -/
theorem writeAll_prepend (front : List String) (writer : Writer) :
    (code : List Code) → writeAll (writer.prepend front) code = (writeAll writer code).prepend front
  | [] => rfl
  | first :: rest => by
      rw [writeAll, writeAll, write_prepend front writer first, writeAll_prepend front _ rest]

end

/-- Code is printed behind the lines of a resting writer as it is on its own. -/
theorem printed_writeAll_resting (before : List String) (depth : Nat) (code : List Code) :
    (writeAll (resting before depth) code).printed = before ++ linesAt depth code := by
  have start : resting before depth = (resting [] depth).prepend before := by
    simp [resting, prepend]
  rw [start, writeAll_prepend, printed_prepend, linesAt]

/-- The first part of some code is no request for an empty line. -/
def Leads : List Code → Prop
  | [] | .space :: _ => False
  | _ :: _ => True

/-- Code that does not go on with what is in front of it is printed behind that, at its depth. -/
theorem printed_writeAll (free : writer.guarded = false) (leads : Leads code)
    (apart : (writer.closing && startsElse code) = false) :
    (writeAll writer code).printed =
      writer.printed ++ spacing writer.blank ++ linesAt writer.depth code := by
  -- The first line alone looks at what the writer holds. Behind it the two writers differ in the
  -- lines printed before.
  have start : writeAll writer code =
      (writeAll (resting [] writer.depth) code).prepend
        (writer.printed ++ spacing writer.blank) := by
    cases code with
    | nil => exact leads.elim
    | cons part rest =>
        rw [writeAll, writeAll, ← writeAll_prepend _ _ rest]
        congr 1
        cases part with
        | space => exact leads.elim
        | line | check | call | assign => exact line_eq_prepend free apart
        | block header body closing =>
            rw [write, write, openBlock_eq_prepend free apart, writeAll_prepend,
              closeBlock_prepend _ (depth_inside _ header body)]
  rw [start, printed_prepend, linesAt]

/-- Code that guards nothing behind it. -/
def Frees (code : List Code) : Prop :=
  ∀ writer : Writer, writer.guarded = false → (writeAll writer code).guarded = false

/-- No code guards nothing. -/
theorem frees_nil : Frees [] :=
  fun _ free => free

/-- Code that guards nothing behind it does so together with more such code. -/
theorem Frees.append {first second : List Code} (left : Frees first) (right : Frees second) :
    Frees (first ++ second) := by
  intro writer free
  rw [writeAll_append]
  exact right _ (left writer free)

/-- Parts that guard nothing guard nothing together. -/
theorem frees_flatten {parts : List (List Code)} (each : ∀ part ∈ parts, Frees part) :
    Frees parts.flatten := by
  induction parts with
  | nil => exact frees_nil
  | cons part rest ih =>
      obtain ⟨here, later⟩ := List.forall_mem_cons.1 each
      exact here.append (ih later)

/-- A request for an empty line guards nothing. -/
theorem frees_space : Frees [.space] :=
  fun _ free => free

/-- A line that is no condition guards nothing, whatever stands in front of it. -/
theorem frees_of_line (front : List Code) {text : String} (quiet : isCondition text = false) :
    Frees (front ++ [.line text]) := by
  intro writer _
  rw [writeAll_append]
  exact guarded_line quiet _

/-- Neither does a call behind other code. -/
theorem frees_of_call (front : List Code) (function : String) (arguments : List String) :
    Frees (front ++ [.call function arguments]) := by
  have quiet : isCondition (Code.call function arguments).text = false :=
    (isLevel_semicolon _).quiet
  intro writer _
  rw [writeAll_append]
  exact guarded_line quiet _

/-- Neither does an assignment. -/
theorem frees_assign (place value : String) : Frees [.assign place value] := by
  have quiet : isCondition (Code.assign place value).text = false := (isLevel_semicolon _).quiet
  exact fun _ _ => guarded_line quiet _

/-- Code guards nothing if none of its parts does. -/
theorem frees_of_forall (each : ∀ part ∈ code, Frees [part]) : Frees code := by
  induction code with
  | nil => exact frees_nil
  | cons part rest ih =>
      obtain ⟨here, later⟩ := List.forall_mem_cons.1 each
      exact here.append (ih later)

/-- Lines guard nothing if none of them is a condition. -/
theorem frees_lines {lines : List String} (quiet : ∀ line ∈ lines, isCondition line = false) :
    Frees (lines.map .line) := by
  refine frees_of_forall fun part member => ?_
  obtain ⟨line, listed, rfl⟩ := List.mem_map.1 member
  exact frees_of_line [] (quiet line listed)

/-- A block with a text behind its brace guards nothing. -/
theorem frees_block (header : String) (body : List Code) {closing : String}
    (filled : closing.isEmpty = false) : Frees [.block header body closing] := by
  intro writer _
  refine guarded_closeBlock (depth_inside writer header body) fun empty => ?_
  rw [filled] at empty
  cases empty

/-- A block guards nothing if its body guards nothing, whatever stands in front of it. -/
theorem Frees.block (frees : Frees body) (front : List Code) (header closing : String) :
    Frees (front ++ [.block header body closing]) := by
  intro writer _
  rw [writeAll_append]
  refine guarded_closeBlock (depth_inside _ header body) fun _ => frees _ ?_
  rw [openBlock_eq_resting]
  rfl

/-- A block on its own is what its body leaves, with its end. -/
theorem linesAt_block_eq (depth : Nat) (header : String) (body : List Code) (closing : String) :
    linesAt depth [.block header body closing] =
      ((writeAll (resting [tabs depth ++ opening header] (depth + 1)) body).closeBlock
        closing).printed := by
  have opened : (resting [] depth).openBlock header =
      resting [tabs depth ++ opening header] (depth + 1) :=
    openBlock_eq rfl header
  rw [← opened]
  rfl

/-- A block is printed as the line that opens it, its body one level deeper and its last line. -/
theorem linesAt_block (frees : Frees body) (depth : Nat) (header closing : String) :
    linesAt depth [.block header body closing] =
      (tabs depth ++ opening header) :: linesAt (depth + 1) body ++
        [indented depth (ending closing)] := by
  have inside : (writeAll (resting [tabs depth ++ opening header] (depth + 1)) body).depth =
      depth + 1 := (grows_writeAll _ body).depth
  have brace : indented depth "\x7d" = tabs depth ++ "\x7d" := rfl
  rw [linesAt_block_eq, closeBlock_eq_resting inside (frees _ rfl), printed_writeAll_resting]
  cases empty : closing.isEmpty with
  | true =>
      rw [ending, empty, if_pos rfl, if_pos rfl, brace]
      exact printed_holding _ _
  | false => exact printed_resting _ _

/-- A block with a text behind its brace holds nothing back. -/
theorem write_block (frees : Frees body) {closing : String} (filled : closing.isEmpty = false)
    (before : List String) (depth : Nat) (header : String) :
    write (resting before depth) (.block header body closing) =
      resting (before ++ linesAt depth [.block header body closing]) depth := by
  have front : (resting before depth).front false = before := printed_resting before depth
  have free : (resting before depth).guarded = false := rfl
  have opened := openBlock_eq free header
  have alone : ((resting before depth).closing && startsWith header "else") = false := rfl
  simp only [alone, front] at opened
  have inside := depth_inside (resting before depth) header body
  rw [write, linesAt_block frees]
  rw [opened] at inside ⊢
  rw [closeBlock_eq_resting inside (frees _ rfl), filled, if_neg Bool.false_ne_true,
    printed_writeAll_resting]
  congr 1
  simp [spacing, resting, behind]

/-- An empty line may stand between a block and what comes next. -/
theorem exists_linesAt_spaced (frees : Frees body) {closing : String}
    (filled : closing.isEmpty = false) (known : code = [] ∨ Leads code) (depth : Nat)
    (header : String) :
    ∃ gap ∈ [[], [""]], linesAt depth ([.block header body closing, .space] ++ code) =
      linesAt depth [.block header body closing] ++ gap ++ linesAt depth code := by
  have first := write_block frees filled [] depth header
  rw [List.nil_append] at first
  rw [linesAt, writeAll_append, writeAll, writeAll, writeAll, first]
  generalize linesAt depth [.block header body closing] = block
  rcases known with rfl | leads
  · refine ⟨[], by simp, ?_⟩
    show (resting block depth).printed = block ++ [] ++ (resting [] depth).printed
    simp
  · have free : (resting block depth).space.guarded = false := rfl
    have shown := printed_writeAll free leads rfl
    refine ⟨[""], by simp, shown.trans ?_⟩
    show (resting block depth).printed ++ [""] ++ linesAt depth code = _
    rw [printed_resting]

/-- Blocks that hold nothing back are written one behind another. -/
theorem linesAt_blocks {A : Type} {body : A → List Code} (frees : ∀ a, Frees (body a))
    {closing : String} (filled : closing.isEmpty = false) (depth : Nat) (header : String)
    (items : List A) :
    linesAt depth (items.map fun a => .block header (body a) closing) =
      items.flatMap fun a => linesAt depth [.block header (body a) closing] := by
  suffices general : ∀ before, writeAll (resting before depth)
      (items.map fun a => .block header (body a) closing) =
        resting (before ++ items.flatMap fun a => linesAt depth [.block header (body a) closing])
          depth by
    rw [linesAt, general, printed_resting, List.nil_append]
  induction items with
  | nil => simp [writeAll]
  | cons first rest ih =>
      intro before
      rw [List.map_cons, writeAll, write_block (frees first) filled, ih, List.flatMap_cons,
        List.append_assoc]

/-- Level lines are written as they are, at the depth of the writer. -/
theorem writeAll_lines {lines : List String} (level : ∀ line ∈ lines, IsLevel line)
    (before : List String) (depth : Nat) :
    writeAll (resting before depth) (lines.map .line) =
      resting (before ++ lines.map (tabs depth ++ ·)) depth := by
  induction lines generalizing before with
  | nil => simp [writeAll]
  | cons first rest ih =>
      obtain ⟨here, later⟩ := List.forall_mem_cons.1 level
      rw [List.map_cons, writeAll]
      show writeAll ((resting before depth).line first) _ = _
      rw [line_resting_level here, ih later]
      simp

/-- Statements at one level are printed with the tabs of that level. -/
theorem linesAt_lines {lines : List String} (level : ∀ line ∈ lines, IsLevel line)
    (depth : Nat) : linesAt depth (lines.map .line) = lines.map (tabs depth ++ ·) := by
  rw [linesAt, writeAll_lines level, printed_resting, List.nil_append]

/-- What a writer that holds no brace back has printed is kept by one that goes on from it. -/
theorem printed_prefix_of_lines {before later : Writer} (none : before.closing = false)
    (kept : before.lines <:+ later.lines) : before.printed <+: later.printed := by
  rw [Writer.printed, none, if_neg Bool.false_ne_true, List.append_nil]
  exact (List.reverse_prefix.2 kept).trans (List.prefix_append _ _)

/-- The first lines in a block are kept, whatever stands behind them. -/
theorem prefix_linesAt_block {lines : List String} (level : ∀ line ∈ lines, IsLevel line)
    (rest : List Code) (depth : Nat) (header closing : String) :
    (tabs depth ++ opening header) :: lines.map (tabs (depth + 1) ++ ·) <+:
      linesAt depth [.block header (lines.map .line ++ rest) closing] := by
  rw [linesAt_block_eq, writeAll_append, writeAll_lines level]
  generalize filled : resting ([tabs depth ++ opening header] ++
    lines.map (tabs (depth + 1) ++ ·)) (depth + 1) = writer
  have none : writer.closing = false := filled ▸ rfl
  have first : writer.printed = (tabs depth ++ opening header) ::
      lines.map (tabs (depth + 1) ++ ·) := by
    rw [← filled, printed_resting]
    rfl
  have inside : (writeAll writer rest).depth = depth + 1 :=
    (grows_writeAll writer rest).depth.trans (filled ▸ rfl)
  have kept := (grows_writeAll writer rest).lines.trans (grows_closeBlock inside closing).2
  rw [← first]
  exact printed_prefix_of_lines none kept

/-- Lines at the outermost level are written as they are if only the last one may be a condition. -/
theorem exists_writeAll_lines {lines : List String}
    (quiet : ∀ line ∈ lines.dropLast, isCondition line = false) (before : List String) :
    ∃ guards, writeAll (resting before 0) (lines.map .line) =
      { resting (before ++ lines) 0 with guarded := guards } := by
  induction lines generalizing before with
  | nil => exact ⟨false, by simp [writeAll, resting]⟩
  | cons first rest ih =>
      cases rest with
      | nil => exact ⟨isCondition first, line_resting before first⟩
      | cons second others =>
          rw [List.dropLast_cons_cons] at quiet
          obtain ⟨here, later⟩ := List.forall_mem_cons.1 quiet
          obtain ⟨guards, written⟩ := ih later (before ++ [first])
          refine ⟨guards, ?_⟩
          rw [List.map_cons, writeAll]
          show writeAll ((resting before 0).line first) _ = _
          rw [line_resting, here]
          exact written.trans (by simp)

/-- A line shows a statement, behind its indentation and perhaps a brace that it joins. -/
def Shows (statement line : String) : Prop :=
  ∃ count, ∃ brace ∈ ["", "\x7d "], line = tabs count ++ (brace ++ statement)

mutual

/-- The statements of some code and the lines that open its blocks. -/
def statements : Code → List String
  | .line text => [text]
  | .check function arguments =>
      ["if (" ++ (function ++ "(" ++ ", ".intercalate arguments ++ ")") ++ ")"]
  | .call function arguments => [function ++ "(" ++ ", ".intercalate arguments ++ ")" ++ ";"]
  | .assign place value => [place ++ " = " ++ value ++ ";"]
  | .space => []
  | .block header body _ => opening header :: statementsIn body

/-- Statements of a body in the order they are printed. -/
def statementsIn : List Code → List String
  | [] => []
  | code :: rest => statements code ++ statementsIn rest

end

/-- Some statements were printed, in order. The lines are those of writers, the last one first. -/
def Printed (statements before after : List String) : Prop :=
  ∃ fresh shown, after = fresh ++ before ∧ shown.Sublist fresh.reverse ∧
    List.Forall₂ Shows statements shown

/-- No statements are printed wherever lines are only added. -/
theorem printed_nil {before after : List String} (grows : before <:+ after) :
    Printed [] before after := by
  obtain ⟨fresh, rfl⟩ := grows
  exact ⟨fresh, [], rfl, List.nil_sublist _, .nil⟩

/-- Statements printed by two steps are printed by both together. -/
theorem Printed.append {first second before middle after : List String}
    (here : Printed first before middle) (later : Printed second middle after) :
    Printed (first ++ second) before after := by
  obtain ⟨fresh, shown, rfl, within, each⟩ := here
  obtain ⟨others, more, rfl, inside, rest⟩ := later
  refine ⟨others ++ fresh, shown ++ more, (List.append_assoc ..).symm, ?_, List.rel_append each rest⟩
  rw [List.reverse_append]
  exact within.append inside

/-- A line prints its statement. -/
theorem printed_line (writer : Writer) (statement : String) :
    Printed [statement] writer.lines (writer.line statement).lines := by
  obtain ⟨line, rest, shows, kept, same⟩ : ∃ line rest, Shows statement line ∧
      writer.lines <:+ rest ∧ (writer.line statement).lines = line :: rest := by
    have all := lines_suffix_printed writer
    rw [line_eq]
    cases joins : writer.closing && startsWith statement "else" with
    | true =>
        refine ⟨_, _, ?_, List.suffix_append _ _, rfl⟩
        exact ⟨_, "\x7d ", by simp, rfl⟩
    | false =>
        refine ⟨_, _, ?_, all.trans (List.suffix_append _ _), rfl⟩
        exact ⟨_, "", by simp, congrArg (tabs _ ++ ·) String.empty_append.symm⟩
  obtain ⟨between, rfl⟩ := kept
  refine ⟨line :: between, [line], same, ?_, .cons shows .nil⟩
  rw [List.reverse_cons]
  exact List.sublist_append_right _ _

mutual

/-- Code prints its statements in order, whatever the writer has printed before. -/
theorem printed_write (writer : Writer) :
    (code : Code) → Printed (statements code) writer.lines (write writer code).lines
  | .space => printed_nil List.suffix_rfl
  | .line _ | .check _ _ | .call _ _ | .assign _ _ => printed_line writer _
  | .block header body closing => by
      have opened := printed_line writer (opening header)
      have inside := printed_writeAll_lines (writer.openBlock header) body
      have closed := (grows_closeBlock (depth_inside writer header body) closing).2
      have whole := (opened.append inside).append (printed_nil closed)
      rwa [List.append_nil] at whole

/-- All statements of a body are printed among the lines written for it. -/
theorem printed_writeAll_lines (writer : Writer) :
    (code : List Code) → Printed (statementsIn code) writer.lines (writeAll writer code).lines
  | [] => printed_nil List.suffix_rfl
  | first :: rest =>
      (printed_write writer first).append (printed_writeAll_lines (write writer first) rest)

end

/-- The lines of some code show its statements in order. -/
theorem exists_shown (depth : Nat) (code : List Code) :
    ∃ shown, shown.Sublist (linesAt depth code) ∧ List.Forall₂ Shows (statementsIn code) shown := by
  obtain ⟨fresh, shown, same, within, each⟩ := printed_writeAll_lines (resting [] depth) code
  have none : (resting [] depth).lines = [] := rfl
  rw [none, List.append_nil] at same
  refine ⟨shown, within.trans ?_, each⟩
  rw [linesAt, Writer.printed, same]
  exact (List.prefix_append _ _).sublist

end Code

/-- A text that does not start with `else`, whatever is added to it. -/
def IsApart (text : String) : Prop :=
  ∀ more, startsWith (text ++ more) "else" = false

/-- A text that does not start with `else` still does not when more is added. -/
theorem IsApart.append {text : String} (apart : IsApart text) (more : String) :
    IsApart (text ++ more) := by
  intro others
  rw [String.append_assoc]
  exact apart _

/-- Such a text itself does not start with `else`. -/
theorem IsApart.startsWith {text : String} (apart : IsApart text) :
    startsWith text "else" = false := by
  simpa using apart ""

/-- The characters of a list are those that it starts with. -/
theorem eq_of_mem_zip {letters chars more : List Char} (starts : letters <+: chars ++ more) :
    ∀ pair ∈ chars.zip letters, pair.1 = pair.2 := by
  induction chars generalizing letters with
  | nil => simp
  | cons c rest ih =>
      cases letters with
      | nil => simp
      | cons letter others =>
          rw [List.cons_append, List.cons_prefix_cons] at starts
          rw [List.zip_cons_cons]
          exact List.forall_mem_cons.2 ⟨starts.1.symm, ih starts.2⟩

/-- A text is apart from `else` if one of its first characters differs. -/
theorem isApart_of_any {text : String}
    (differs : ((text.toList.zip "else".toList).any fun pair => pair.1 != pair.2) = true) :
    IsApart text := by
  intro more
  obtain ⟨pair, member, other⟩ := List.any_eq_true.1 differs
  rw [startsWith, Bool.eq_false_iff, ne_eq, List.isPrefixOf_iff_prefix, String.toList_append]
  intro starts
  rw [eq_of_mem_zip starts pair member] at other
  simp at other

/-- A line that starts with a sign instead of a letter. -/
def IsMarked (line : String) : Prop :=
  ∃ mark rest, line.toList = mark :: rest ∧ mark.isAlpha = false

/-- A line that starts with a sign still does when more is added. -/
theorem IsMarked.append {line : String} (marked : IsMarked line) (more : String) :
    IsMarked (line ++ more) := by
  obtain ⟨mark, rest, parted, sign⟩ := marked
  exact ⟨mark, rest ++ more.toList, by rw [String.toList_append, parted]; rfl, sign⟩

/-- A line that starts with a sign does not start with `else`. -/
theorem IsMarked.isApart {line : String} (marked : IsMarked line) : IsApart line := by
  obtain ⟨mark, rest, parted, sign⟩ := marked
  have letter : mark ≠ 'e' := by
    rintro rfl
    cases sign
  refine isApart_of_any ?_
  simp [parted, letter]

/-- It is no condition. -/
theorem IsMarked.quiet {line : String} (marked : IsMarked line) : isCondition line = false := by
  obtain ⟨mark, rest, parted, sign⟩ := marked
  -- Conditions start with `if`, `while` or `for`.
  have letters : mark ≠ 'i' ∧ mark ≠ 'w' ∧ mark ≠ 'f' := by
    refine ⟨?_, ?_, ?_⟩ <;> rintro rfl <;> cases sign
  simp [isCondition, startsWith, parted, List.isPrefixOf, letters.1.symm, letters.2.1.symm,
    letters.2.2.symm]

/-- A macro starts with a sign. -/
theorem isMarked_define : IsMarked "#define " :=
  ⟨'#', ['d', 'e', 'f', 'i', 'n', 'e', ' '], rfl, rfl⟩

/-- So does every line of some macros. -/
theorem isMarked_defineLines (values : List (String × DefineValue)) :
    ∀ line ∈ defineLines values, IsMarked line := by
  intro line member
  obtain ⟨_, _, rfl⟩ := List.mem_map.1 member
  exact ((isMarked_define.append _).append _).append _

end NetlinkFamily.C
