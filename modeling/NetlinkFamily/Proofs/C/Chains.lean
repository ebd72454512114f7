import Mathlib.Data.List.Infix
import NetlinkFamily.Proofs.C.Printing

namespace NetlinkFamily.C

open Piece (behind codeOf indented opening spacing)

namespace Writer

variable {writer after : Writer}

/-- A writer has gone on to print lines and stands at the same depth again. -/
structure Grows (writer after : Writer) : Prop where
  depth : after.depth = writer.depth
  lines : writer.lines <:+ after.lines

/-- What grows in two steps grows. -/
theorem Grows.trans {last : Writer} (first : Grows writer after) (second : Grows after last) :
    Grows writer last :=
  ⟨second.depth.trans first.depth, first.lines.trans second.lines⟩

/-- The lines of a writer end what it has printed so far, read backwards. -/
theorem lines_suffix_printed (writer : Writer) : writer.lines <:+ writer.printed.reverse := by
  rw [printed, List.reverse_append, List.reverse_reverse]
  exact List.suffix_append _ _

/-- A line makes the text grow. -/
theorem grows_line (writer : Writer) (text : String) : Grows writer (writer.line text) := by
  rw [line_eq]
  refine ⟨rfl, .trans ?_ (List.suffix_cons _ _)⟩
  refine .trans ?_ (List.suffix_append _ _)
  split
  · exact List.suffix_rfl
  · exact lines_suffix_printed writer

/-- Closing a block goes one level up and takes no line back. -/
theorem grows_closeBlock {depth : Nat} (inside : writer.depth = depth + 1) (closing : String) :
    (writer.closeBlock closing).depth = depth ∧
      writer.lines <:+ (writer.closeBlock closing).lines := by
  have before := lines_suffix_printed writer
  rw [closeBlock_eq inside]
  dsimp only
  split
  · exact ⟨rfl, before⟩
  · split <;> exact ⟨(grows_line _ _).depth, before.trans (grows_line ⟨_, _, _, _, _⟩ _).lines⟩

/-- A writer that has printed some lines and holds a brace back. -/
def holding (lines : List String) (depth : Nat) : Writer :=
  { resting lines depth with closing := true }

/-- A writer that holds a closing brace prints it behind its lines. -/
@[simp] theorem printed_holding (lines : List String) (depth : Nat) :
    (holding lines depth).printed = lines ++ [tabs depth ++ "\x7d"] := by
  simp [holding, resting, printed]

/-- An `else` takes the closing brace that is held. -/
@[simp] theorem front_holding (lines : List String) (depth : Nat) :
    (holding lines depth).front true = lines :=
  List.reverse_reverse lines

/-- A block without a text behind it leaves its brace to what comes next. -/
theorem closeBlock_eq_holding {depth : Nat} (inside : writer.depth = depth + 1)
    (free : writer.guarded = false) : writer.closeBlock "" = holding writer.printed depth :=
  closeBlock_eq_resting inside free ""

/-- What is printed is kept by a line that does not start with `else`. -/
theorem printed_prefix_line {text : String} (apart : startsWith text "else" = false)
    (writer : Writer) : writer.printed <+: (writer.line text).lines.reverse := by
  have kept : writer.front (writer.closing && startsWith text "else") = writer.printed := by
    rw [apart, Bool.and_false]
    rfl
  rw [line_eq_resting, resting, kept, List.reverse_reverse]
  exact List.prefix_append _ _

/-- Opening a block writes a line and goes one level down. -/
theorem openBlock_eq_line (writer : Writer) (header : String) :
    writer.openBlock header =
      { writer.line (opening header) with depth := (writer.line (opening header)).depth + 1 } :=
  rfl

/-- A writer that has opened a block rests inside it, whatever was asked of it before. -/
theorem openBlock_eq_resting (writer : Writer) (header : String) :
    writer.openBlock header =
      resting (writer.openBlock header).printed (writer.depth + 1) := by
  obtain ⟨start, brace⟩ :=
    Piece.exists_opening_eq (writer.closing && startsWith (opening header) "else") header
  have quiet : isCondition
      (behind (writer.closing && startsWith (opening header) "else") (opening header)) = false := by
    rw [isCondition, brace, endsWith_brace start (by decide), Bool.false_and]
  rw [openBlock_eq_line, line_eq_resting, quiet]
  simp [resting, printed]

end Writer

namespace Piece

/-- A line or a guarded line that is no label, or an empty line. -/
def IsFlat : Piece → Prop
  | .line text | .guarded _ text => endsWith text.1 ':' = false
  | .gap => True
  | .block _ _ _ => False

/-- Code of two lists of pieces is that of the first and then that of the second. -/
theorem codeOf_append (first second : List Piece) :
    codeOf (first ++ second) = codeOf first ++ codeOf second := by
  induction first with
  | nil => rfl
  | cons piece rest ih => simp [codeOf, ih]

/-- A condition is no label. -/
theorem not_label (condition : Condition) : endsWith condition.1 ':' = false :=
  endsWith_other (Bool.and_eq_true_iff.1 condition.2).1 (by decide)

/-- A line that is no label starts with the tabs of its level. -/
theorem startsWith_indented {text : String} (unlabelled : endsWith text ':' = false)
    (depth : Nat) : startsWith (indented depth text) (tabs depth) = true := by
  simp [indented, unlabelled, startsWith, List.isPrefixOf_iff_prefix]

/-- So does a guarded line, with one tab more. -/
theorem startsWith_guarded {text : String} (unlabelled : endsWith text ':' = false)
    (depth : Nat) : startsWith ("\t" ++ indented depth text) (tabs depth) = true := by
  have turned : "\t" ++ tabs depth = tabs depth ++ "\t" := by
    rw [← tabs_succ]
    apply String.toList_injective
    simp [tabs, List.replicate_succ']
  have deeper : "\t" ++ indented depth text = tabs depth ++ ("\t" ++ text) := by
    rw [indented, unlabelled, if_neg Bool.false_ne_true, ← String.append_assoc, turned,
      String.append_assoc]
  simp [deeper, startsWith, List.isPrefixOf_iff_prefix]

/-- Every line printed of flat pieces is empty or starts with the tabs of its level. -/
theorem inside_printed {pieces : List Piece} (flat : ∀ piece ∈ pieces, piece.IsFlat)
    (depth : Nat) (blank : Bool) :
    ∀ line ∈ printed depth false blank pieces,
      line = "" ∨ startsWith line (tabs depth) = true := by
  induction pieces generalizing blank with
  | nil => simp [printed]
  | cons piece rest ih =>
      obtain ⟨here, later⟩ := List.forall_mem_cons.1 flat
      have front : ∀ line ∈ spacing blank, line = "" ∨ startsWith line (tabs depth) = true := by
        cases blank <;> simp [spacing]
      cases piece with
      | gap =>
          rw [printed]
          exact ih later true
      | block => exact here.elim
      | line text =>
          rw [printed, List.forall_mem_append, List.forall_mem_append, List.forall_mem_singleton]
          exact ⟨⟨front, .inr (startsWith_indented here depth)⟩, ih later false⟩
      | guarded condition text =>
          rw [printed, List.forall_mem_append, List.forall_mem_append, List.forall_mem_cons,
            List.forall_mem_singleton]
          exact ⟨⟨front, .inr (startsWith_indented (not_label condition) depth),
            .inr (startsWith_guarded here depth)⟩, ih later false⟩

end Piece

namespace Code

open Piece (goes_writeAll)
open Writer

variable {code : List Code}

/-- Code is written part after part. -/
theorem writeAll_append (writer : Writer) (first second : List Code) :
    writeAll writer (first ++ second) = writeAll (writeAll writer first) second := by
  induction first generalizing writer with
  | nil => rfl
  | cons code rest ih => exact ih (write writer code)

/-- Behind the line that opens a block, its body and its end are printed. -/
theorem grows_block {writer : Writer} {header : String} {body : List Code}
    (within : Grows (writer.openBlock header) (writeAll (writer.openBlock header) body))
    (closing : String) :
    Grows (writer.line (opening header)) (write writer (.block header body closing)) := by
  have inside : (writeAll (writer.openBlock header) body).depth =
      (writer.line (opening header)).depth + 1 := within.depth
  obtain ⟨depth, lines⟩ := grows_closeBlock inside closing
  exact ⟨depth, within.lines.trans lines⟩

mutual

/-- Writing code takes no line back. -/
theorem grows_write (writer : Writer) : (code : Code) → Grows writer (write writer code)
  | .space => ⟨rfl, List.suffix_rfl⟩
  | .line _ | .check _ _ | .call _ _ | .assign _ _ => grows_line writer _
  | .block _ body closing =>
      (grows_line writer _).trans (grows_block (grows_writeAll _ body) closing)

/-- Writing a body takes no line back. -/
theorem grows_writeAll (writer : Writer) :
    (code : List Code) → Grows writer (writeAll writer code)
  | [] => ⟨rfl, List.suffix_rfl⟩
  | first :: rest => (grows_write writer first).trans (grows_writeAll (write writer first) rest)

end

/-- Whether the next line of some code starts with `else`. -/
def startsElse : List Code → Bool
  | [] => false
  | .space :: rest => startsElse rest
  | .block header _ _ :: _ => startsWith header "else"
  | code :: _ => startsWith code.text "else"

/-- A body starts with no `else` when none of its parts does. -/
theorem startsElse_of_forall (apart : ∀ part ∈ code, startsElse [part] = false) :
    startsElse code = false := by
  induction code with
  | nil => rfl
  | cons part rest ih =>
      obtain ⟨here, later⟩ := List.forall_mem_cons.1 apart
      cases part with
      | space => exact ih later
      | line | check | call | assign | block => exact here

/-- A line that does not start with `else` leaves everything that is printed as it is. -/
theorem printed_prefix_of_grows {writer next : Writer} {text : String}
    (apart : startsWith text "else" = false) (goes : Grows (writer.line text) next) :
    writer.printed <+: next.printed :=
  (printed_prefix_line apart writer).trans
    ((List.reverse_prefix.2 goes.lines).trans (List.prefix_append _ _))

/-- So does code that does not go on with a block. -/
theorem printed_prefix_writeAll (apart : startsElse code = false) (writer : Writer) :
    writer.printed <+: (writeAll writer code).printed := by
  induction code generalizing writer with
  | nil => exact List.prefix_rfl
  | cons part rest ih =>
      cases part with
      | space => exact ih apart writer.space
      | line | check | call | assign =>
          exact printed_prefix_of_grows apart (grows_writeAll _ rest)
      | block header body closing =>
          -- The header decides. What the body prints goes behind it.
          have opens : startsWith (opening header) "else" = false :=
            (Piece.startsWith_opening header).trans apart
          have block := grows_block (grows_writeAll (writer.openBlock header) body) closing
          exact printed_prefix_of_grows opens (block.trans (grows_writeAll _ rest))

/-- The lines that code has on its own at some depth. -/
def linesAt (depth : Nat) (code : List Code) : List String :=
  (writeAll (resting [] depth) code).printed

/-- Code that is written as lines, none of them a label, and as conditions with the lines that they
guard. -/
def IsSteady (code : List Code) : Prop :=
  ∃ pieces : List Piece, (∀ piece ∈ pieces, piece.IsFlat) ∧
    ∀ writer, writeAll writer code = writeAll writer (codeOf pieces)

/-- No code is steady. -/
theorem isSteady_nil : IsSteady [] :=
  ⟨[], by simp, fun _ => rfl⟩

/-- Steady code behind steady code is steady. -/
theorem IsSteady.append {first second : List Code} (left : IsSteady first)
    (right : IsSteady second) : IsSteady (first ++ second) := by
  obtain ⟨pieces, flat, same⟩ := left
  obtain ⟨others, flatToo, sameToo⟩ := right
  refine ⟨pieces ++ others, List.forall_mem_append.2 ⟨flat, flatToo⟩, fun writer => ?_⟩
  rw [writeAll_append, same, sameToo, Piece.codeOf_append, writeAll_append]

/-- A blank line is steady. -/
theorem isSteady_space : IsSteady [.space] :=
  ⟨[.gap], by simp [Piece.IsFlat], fun _ => rfl⟩

/-- A line that is neither a condition nor a label is steady. -/
theorem isSteady_line {text : String} (quiet : isCondition text = false)
    (unlabelled : endsWith text ':' = false) : IsSteady [.line text] :=
  ⟨[.line ⟨text, quiet⟩], by simpa [Piece.IsFlat] using unlabelled, fun _ => rfl⟩

/-- A check and the line it guards are steady. -/
theorem isSteady_check (function : String) (arguments : List String) {text : String}
    (quiet : isCondition text = false) (unlabelled : endsWith text ':' = false) :
    IsSteady [.check function arguments, .line text] := by
  have guards : isCondition (Code.check function arguments).text = true := by
    rw [Code.text, isCondition, endsWith_append (by decide)]
    simp [startsWith, List.isPrefixOf]
    decide
  exact ⟨[.guarded ⟨_, guards⟩ ⟨text, quiet⟩], by simpa [Piece.IsFlat] using unlabelled,
    fun _ => rfl⟩

/-- A statement is no condition and no label. -/
theorem isSteady_statement (part : Code)
    (single : ∀ writer, write writer part = writer.line part.text)
    (ends : endsWith part.text ';' = true) : IsSteady [part] := by
  have quiet : isCondition part.text = false := by
    rw [isCondition, endsWith_other ends (by decide), Bool.false_and]
  obtain ⟨pieces, flat, same⟩ := isSteady_line quiet (endsWith_other ends (by decide))
  exact ⟨pieces, flat, fun writer => (single writer).trans (same writer)⟩

/-- An assignment is steady. -/
theorem isSteady_assign (place value : String) : IsSteady [.assign place value] :=
  isSteady_statement _ (fun _ => rfl) (endsWith_append (by decide) _ ';')

/-- A call is steady. -/
theorem isSteady_call (function : String) (arguments : List String) :
    IsSteady [.call function arguments] :=
  isSteady_statement _ (fun _ => rfl) (endsWith_append (by decide) _ ';')

/-- Code that is written like flat pieces is printed as they are. -/
theorem linesAt_eq_printed {pieces : List Piece}
    (same : ∀ writer, writeAll writer code = writeAll writer (codeOf pieces)) (depth : Nat) :
    linesAt depth code = Piece.printed depth false false pieces := by
  rw [linesAt, same, (goes_writeAll pieces (resting [] depth) rfl).printed]
  rfl

/-- Code that is written in a block is written as it is on its own. -/
theorem IsSteady.goes (steady : IsSteady code) (before : List String) (depth : Nat) :
    Goes (resting before depth) false (linesAt depth code)
      (writeAll (resting before depth) code) := by
  obtain ⟨pieces, _, same⟩ := steady
  rw [linesAt_eq_printed same, same]
  exact goes_writeAll pieces (resting before depth) rfl

/-- All lines of it stand deep enough. -/
theorem IsSteady.inside (steady : IsSteady code) (depth : Nat) :
    ∀ line ∈ linesAt depth code, line = "" ∨ startsWith line (tabs depth) = true := by
  obtain ⟨pieces, flat, same⟩ := steady
  rw [linesAt_eq_printed same]
  exact Piece.inside_printed flat depth false

end Code

/-- An arm of a chain. -/
structure Arm where
  condition : String
  body : List Code

namespace Arm

/-- The condition of an arm, the `first` one or one behind another. -/
def header (first : Bool) (arm : Arm) : String :=
  (if first then "if" else "else if") ++ " (" ++ arm.condition ++ ")"

/-- An arm as code, with an `else` unless it is the first. -/
def code (first : Bool) (arm : Arm) : Code :=
  .block (arm.header first) arm.body ""

/-- The lines of an arm without its closing brace. One behind another starts with the brace of that
one. -/
def lines (first : Bool) (depth : Nat) (arm : Arm) : List String :=
  (tabs depth ++ (if first then "if (" else "\x7d else if (") ++ arm.condition ++ ") \x7b") ::
    Code.linesAt (depth + 1) arm.body

/-- The blocks of a chain, which starts with the `first` arm or goes on behind one. -/
def chain : Bool → List Arm → List Code
  | _, [] => []
  | first, arm :: rest => arm.code first :: chain false rest

/-- The lines of a whole chain. Nothing stands between its arms. -/
def chainLines (depth : Nat) : List Arm → List String
  | [] => []
  | first :: rest =>
      first.lines true depth ++ rest.flatMap (lines false depth) ++ [tabs depth ++ "\x7d"]

end Arm

namespace Arm

open Code (IsSteady write writeAll linesAt)
open Writer (Goes resting)

/-- Every arm but the first starts with `else`. -/
theorem startsWith_header (first : Bool) (arm : Arm) :
    startsWith (arm.header first) "else" = !first := by
  cases first <;> simp [header, startsWith, List.isPrefixOf]

/-- An arm opens with `if` or closes the one before it with `else if`. -/
theorem opening_header (first : Bool) (arm : Arm) :
    behind (!first) (opening (arm.header first)) =
      (if first then "if (" else "\x7d else if (") ++ arm.condition ++ ") \x7b" := by
  apply String.toList_injective
  cases first <;> simp [behind, opening, header]

/-- An arm leaves its brace to what comes next. -/
theorem write_code {arm : Arm} (steady : IsSteady arm.body) (first : Bool) {writer : Writer}
    (free : writer.guarded = false) (place : writer.closing = !first) :
    write writer (arm.code first) =
      .holding (writer.front (!first) ++ (spacing writer.blank ++ arm.lines first writer.depth))
        writer.depth := by
  -- A brace is held back just where the header starts with `else`, so it is always joined.
  have joins : (writer.closing && startsWith (arm.header first) "else") = !first := by
    rw [place, startsWith_header, Bool.and_self]
  have opened := Writer.openBlock_eq free (arm.header first)
  dsimp only at opened
  rw [joins, opening_header] at opened
  have within := steady.goes (writer.openBlock (arm.header first)).printed (writer.depth + 1)
  rw [← Writer.openBlock_eq_resting] at within
  have inside : (writeAll (writer.openBlock (arm.header first)) arm.body).depth =
      writer.depth + 1 := within.depth.trans (congrArg Writer.depth opened)
  show (writeAll (writer.openBlock (arm.header first)) arm.body).closeBlock "" = _
  rw [Writer.closeBlock_eq_holding inside within.guarded, within.printed, opened]
  simp [Writer.front, lines, String.append_assoc]

/-- Arms behind another one print their lines without anything in between. -/
theorem writeAll_chain {arms : List Arm} (steady : ∀ arm ∈ arms, IsSteady arm.body)
    (before : List String) (depth : Nat) :
    writeAll (.holding before depth) (chain false arms) =
      .holding (before ++ arms.flatMap (lines false depth)) depth := by
  induction arms generalizing before with
  | nil => simp [chain, writeAll]
  | cons arm rest ih =>
      obtain ⟨here, later⟩ := List.forall_mem_cons.1 steady
      have free : (Writer.holding before depth).guarded = false := rfl
      have written := write_code here false free rfl
      rw [Bool.not_false, Writer.front_holding] at written
      show writeAll (write _ (arm.code false)) (chain false rest) = _
      rw [written]
      exact (ih later _).trans (by simp [Writer.holding, resting, spacing])

/-- A chain is printed as its lines, and an empty line in front if one was asked for. -/
theorem goes_chain {arms : List Arm} (steady : ∀ arm ∈ arms, IsSteady arm.body)
    {writer : Writer} (free : writer.guarded = false) (flat : writer.closing = false) :
    Goes writer false
      (if arms.isEmpty then [] else spacing writer.blank ++ chainLines writer.depth arms)
      (writeAll writer (chain true arms)) := by
  cases arms with
  | nil => exact ⟨by simp [chain, writeAll, Writer.front], rfl, free⟩
  | cons first rest =>
      obtain ⟨here, later⟩ := List.forall_mem_cons.1 steady
      show Goes _ _ _ (writeAll (write writer (first.code true)) (chain false rest))
      rw [write_code here true free flat, writeAll_chain later]
      refine ⟨?_, rfl, rfl⟩
      simp [Writer.front, chainLines]

end Arm

end NetlinkFamily.C
