import NetlinkFamily.C.Code

namespace NetlinkFamily.C

/-- A line that guards no other one. -/
abbrev PlainLine := { text : String // isCondition text = false }

/-- A condition without braces. -/
abbrev Condition := { text : String // isCondition text = true }

/-- A piece of code: a line, a condition with the one line that it guards, a request for an empty
line, or a block. A block whose header starts with `else` goes on with the block before it. -/
inductive Piece where
  | line (text : PlainLine)
  | guarded (condition : Condition) (text : PlainLine)
  | gap
  | block (header : String) (body : List Piece) (closing : String)

namespace Piece

/-- Whether the next line of the pieces starts with `else`. -/
def startsElse : List Piece → Bool
  | [] => false
  | .gap :: rest => startsElse rest
  | .line text :: _ => startsWith text.1 "else"
  | .guarded _ _ :: _ => false
  | .block header _ _ :: _ => startsWith header "else"

/-- An empty line, if one is asked for. -/
def spacing (blank : Bool) : List String :=
  if blank then [""] else []

/-- A line at some depth. A label stands one level out. -/
def indented (depth : Nat) (text : String) : String :=
  tabs (if endsWith text ':' then depth - 1 else depth) ++ text

/-- A line behind the brace of the block before it, if it joins that. -/
def behind (joins : Bool) (text : String) : String :=
  if joins then "\x7d " ++ text else text

/-- The line that opens a block. -/
def opening (header : String) : String :=
  if header.isEmpty then "\x7b" else header ++ " \x7b"

/-- The last line of a block. -/
def ending (closing : String) : String :=
  if closing.isEmpty then "\x7d"
  else if startsWith closing ";" || startsWith closing "," then "\x7d" ++ closing
  else "\x7d " ++ closing

/-- The lines of pieces at some depth. The first one `joins` the brace before it if that was left to
it, and has an empty line in front if one is asked for by `blank`. A block leaves its brace to the
pieces behind it if they start with `else` and no text stands behind the brace. -/
def printed (depth : Nat) (joins blank : Bool) (pieces : List Piece) : List String :=
  match pieces with
  | [] => []
  | .gap :: rest => printed depth joins true rest
  | .line text :: rest =>
      spacing blank ++ [indented depth (behind joins text.1)] ++ printed depth false false rest
  | .guarded condition text :: rest =>
      spacing blank ++ [indented depth condition.1, "\t" ++ indented depth text.1] ++
        printed depth false false rest
  | .block header body closing :: rest =>
      let continues := closing.isEmpty && startsElse rest
      spacing blank ++ [tabs depth ++ behind joins (opening header)] ++
        printed (depth + 1) false false body ++
        (if continues then [] else [indented depth (ending closing)]) ++
        printed depth continues false rest
termination_by sizeOf pieces

mutual

/-- The code that a piece is driven through the writer as. -/
def code : Piece → List Code
  | .line text => [.line text.1]
  | .guarded condition text => [.line condition.1, .line text.1]
  | .gap => [.space]
  | .block header body closing => [.block header (codeOf body) closing]

/-- Pieces as code. -/
def codeOf : List Piece → List Code
  | [] => []
  | piece :: rest => code piece ++ codeOf rest

end

/-- Induction over pieces. What holds of a block in front may be shown from what holds of its body
and of the pieces behind it. -/
@[elab_as_elim]
theorem induction {motive : List Piece → Prop} (nil : motive [])
    (line : ∀ text rest, motive rest → motive (.line text :: rest))
    (guarded : ∀ condition text rest, motive rest → motive (.guarded condition text :: rest))
    (gap : ∀ rest, motive rest → motive (.gap :: rest))
    (block : ∀ header body closing rest, motive body → motive rest →
      motive (.block header body closing :: rest))
    (pieces : List Piece) : motive pieces := by
  apply @Piece.rec_1 (fun piece => ∀ rest, motive rest → motive (piece :: rest)) motive
  · exact line
  · exact guarded
  · exact gap
  · exact fun header body closing inside rest => block header body closing rest inside
  · exact nil
  · exact fun first rest here later => here rest later

end Piece

/-- One more tab stands in front. -/
theorem tabs_succ (count : Nat) : tabs (count + 1) = "\t" ++ tabs count := by
  apply String.toList_injective
  simp [tabs, List.replicate_succ]

/-- A line that starts with a brace is no condition. -/
theorem isCondition_of_brace {text : String} (brace : text.toList.head? = some '\x7d') :
    isCondition text = false := by
  obtain ⟨rest, parted⟩ := List.head?_eq_some_iff.1 brace
  simp [isCondition, startsWith, parted, List.isPrefixOf]

/-- A text ends as what was added last. -/
theorem endsWith_append {second : String} (filled : second ≠ "") (first : String) (last : Char) :
    endsWith (first ++ second) last = endsWith second last := by
  have some : second.toList ≠ [] := by simpa using filled
  rw [endsWith, String.toList_append, List.getLast?_append, List.getLast?_eq_some_getLast some,
    Option.some_or, endsWith, List.getLast?_eq_some_getLast some]

/-- A text ends with one character only. -/
theorem endsWith_other {text : String} {last other : Char} (ends : endsWith text last = true)
    (apart : other ≠ last) : endsWith text other = false := by
  simp only [endsWith, beq_iff_eq, beq_eq_false_iff_ne] at ends ⊢
  rw [ends]
  simpa using apart.symm

/-- A line that ends in a brace is neither a condition nor a label. -/
theorem endsWith_brace (text : String) {last : Char} (other : last ≠ '\x7b') :
    endsWith (text ++ "\x7b") last = false := by
  simp [endsWith, other.symm]

namespace Piece

/-- A condition starts with no `else`. -/
theorem not_startsElse (condition : Condition) : startsWith condition.1 "else" = false := by
  obtain ⟨text, holds⟩ := condition
  simp only [isCondition, Bool.and_eq_true, Bool.or_eq_true, startsWith] at holds ⊢
  cases parted : text.toList with
  | nil => rfl
  | cons first rest =>
      have other : first ≠ 'e' := by
        rintro rfl
        simp [parted, List.isPrefixOf] at holds
      simp [List.isPrefixOf, other.symm]

/-- A plain line is no condition, also behind a brace. -/
theorem isCondition_behind (joins : Bool) (text : PlainLine) :
    isCondition (behind joins text.1) = false := by
  cases joins with
  | false => exact text.2
  | true => exact isCondition_of_brace (by simp [behind])

/-- A block opens with a brace at the end of its line. -/
theorem exists_opening_eq (joins : Bool) (header : String) :
    ∃ start, behind joins (opening header) = start ++ "\x7b" := by
  unfold behind opening
  cases joins <;> cases header.isEmpty
  · exact ⟨header ++ " ", by simp [String.append_assoc]⟩
  · exact ⟨"", by simp⟩
  · exact ⟨"\x7d " ++ header ++ " ", by simp [String.append_assoc]⟩
  · exact ⟨"\x7d ", by simp⟩

/-- A block ends with a brace. -/
theorem exists_ending_eq (closing : String) : ∃ rest, ending closing = "\x7d" ++ rest := by
  unfold ending
  split
  · exact ⟨"", by simp⟩
  · split
    · exact ⟨closing, rfl⟩
    · exact ⟨" " ++ closing, by rw [← String.append_assoc]; rfl⟩

/-- The line that opens a block starts with `else` if the header does. -/
theorem startsWith_opening (header : String) :
    startsWith (opening header) "else" = startsWith header "else" := by
  unfold opening startsWith
  cases empty : header.isEmpty with
  | true =>
      rw [String.isEmpty_iff.1 empty]
      decide
  | false =>
      simp only [Bool.false_eq_true, if_false, String.toList_append]
      rcases header.toList with _ | ⟨a, _ | ⟨b, _ | ⟨c, _ | ⟨d, rest⟩⟩⟩⟩ <;> simp [List.isPrefixOf]

end Piece

/-- A line that is written as it is: no condition, no label and nothing that joins a brace. -/
structure IsOrdinary (line : String) : Prop where
  quiet : isCondition line = false
  apart : startsWith line "else" = false
  unlabelled : endsWith line ':' = false

namespace Writer

open Piece

/-- What stands in front of a line, with or without the brace that is held back. -/
def front (writer : Writer) (joins : Bool) : List String :=
  if joins then writer.lines.reverse else writer.printed

/-- A writer that has printed some lines and holds nothing back. -/
def resting (lines : List String) (depth : Nat) : Writer :=
  { lines := lines.reverse, depth }

/-- A writer at rest has printed its lines. -/
@[simp] theorem printed_resting (lines : List String) (depth : Nat) :
    (resting lines depth).printed = lines := by
  simp [resting, Writer.printed]

/-- A writer has printed some lines and stands at the same depth. No condition guards what comes
next. -/
structure Goes (writer : Writer) (joins : Bool) (lines : List String) (after : Writer) : Prop where
  printed : after.printed = writer.front joins ++ lines
  depth : after.depth = writer.depth
  guarded : after.guarded = false

/-- Lines that are printed from where a writer rests are printed behind its own. -/
theorem Goes.behind {writer after : Writer} {joins : Bool} {first second : List String}
    (goes : Goes (resting (writer.front joins ++ first) writer.depth) false second after) :
    Goes writer joins (first ++ second) after where
  printed := by
    rw [goes.printed, ← List.append_assoc]
    exact congrArg (· ++ second) (printed_resting _ _)
  depth := goes.depth
  guarded := goes.guarded

variable {writer : Writer}

/-- A line is printed behind what stands in front of it, and one level deeper if it is guarded. -/
theorem line_eq_resting (writer : Writer) (text : String) :
    let joins := writer.closing && startsWith text "else"
    let line := behind joins text
    writer.line text =
      { resting
          (writer.front joins ++
            (spacing writer.blank ++
              [(if writer.guarded then "\t" else "") ++ indented writer.depth line]))
          writer.depth with
        guarded := isCondition line } := by
  rw [line_eq]
  unfold resting front spacing indented behind
  cases writer.guarded <;> cases writer.blank <;> cases writer.closing && startsWith text "else" <;>
    simp [tabs_succ, String.append_assoc]

/-- A plain line joins a brace that is held or stands on its own. -/
theorem line_plain (free : writer.guarded = false) (text : PlainLine) :
    let joins := writer.closing && startsWith text.1 "else"
    writer.line text.1 =
      resting
        (writer.front joins ++
          (spacing writer.blank ++ [indented writer.depth (behind joins text.1)]))
        writer.depth := by
  intro joins
  rw [line_eq_resting, isCondition_behind, free]
  simp [resting, joins]

/-- An ordinary line stands on its own, behind the spacing. -/
theorem line_ordinary (free : writer.guarded = false) {line : String}
    (ordinary : IsOrdinary line) :
    writer.line line =
      resting (writer.printed ++ (spacing writer.blank ++ [tabs writer.depth ++ line]))
        writer.depth := by
  have written := line_plain free ⟨line, ordinary.quiet⟩
  simp only [ordinary.apart, Bool.and_false, behind, indented, Bool.false_eq_true, if_false,
    ordinary.unlabelled, front] at written
  exact written

/-- A condition is printed at its depth, and the line that it guards one level deeper. -/
theorem line_guarded (free : writer.guarded = false) (condition : Condition) (text : PlainLine) :
    (writer.line condition.1).line text.1 =
      resting
        (writer.front false ++
          (spacing writer.blank ++
            [indented writer.depth condition.1, "\t" ++ indented writer.depth text.1]))
        writer.depth := by
  have apart : (writer.closing && startsWith condition.1 "else") = false := by
    rw [not_startsElse condition, Bool.and_false]
  have first : writer.line condition.1 =
      { resting
          (writer.front false ++ (spacing writer.blank ++ [indented writer.depth condition.1]))
          writer.depth with
        guarded := true } := by
    have guards : isCondition (behind false condition.1) = true := condition.2
    rw [line_eq_resting, apart, guards, free]
    simp [behind]
  rw [first, line_eq_resting]
  simp [resting, front, Writer.printed, spacing, behind, text.2]

/-- The line that opens a block stands at the depth of its header, and the body one level deeper. -/
theorem openBlock_eq (free : writer.guarded = false) (header : String) :
    let joins := writer.closing && startsWith header "else"
    writer.openBlock header =
      resting
        (writer.front joins ++
          (spacing writer.blank ++ [tabs writer.depth ++ behind joins (opening header)]))
        (writer.depth + 1) := by
  intro joins
  obtain ⟨start, brace⟩ := exists_opening_eq joins header
  have label : indented writer.depth (behind joins (opening header)) =
      tabs writer.depth ++ behind joins (opening header) := by
    rw [indented, brace, endsWith_brace start (by decide), if_neg Bool.false_ne_true]
  have quiet : isCondition (behind joins (opening header)) = false := by
    rw [isCondition, brace, endsWith_brace start (by decide), Bool.false_and]
  have first : (writer.closing && startsWith (opening header) "else") = joins := by
    rw [startsWith_opening]
  have opened : writer.openBlock header =
      { writer.line (opening header) with depth := (writer.line (opening header)).depth + 1 } := rfl
  rw [opened, line_eq_resting, first, label, quiet, free]
  simp [resting]

/-- A block ends at the depth of its header. Without a text behind it the brace is held back. -/
theorem closeBlock_eq_resting {depth : Nat} (inside : writer.depth = depth + 1)
    (free : writer.guarded = false) (closing : String) :
    writer.closeBlock closing =
      if closing.isEmpty then { resting writer.printed depth with closing := true }
      else resting (writer.printed ++ [indented depth (ending closing)]) depth := by
  cases empty : closing.isEmpty with
  | true => rw [closeBlock_eq inside, free, empty]; rfl
  | false =>
      obtain ⟨rest, brace⟩ := exists_ending_eq closing
      have quiet : isCondition (ending closing) = false := isCondition_of_brace (by simp [brace])
      have last : writer.closeBlock closing =
          (resting writer.printed depth).line (ending closing) := by
        rw [closeBlock_eq inside, free, ending, empty]
        exact (apply_ite (Writer.line _) _ _ _).symm
      rw [last, line_eq_resting]
      simp [resting, front, Writer.printed, spacing, behind, quiet]

/-- A block is printed behind the line that opens it. Its last line is left out if something
`continues` the block. -/
theorem Goes.closeBlock {lines inner : List String} {depth : Nat} {filled : Writer}
    (within : Goes (resting lines (depth + 1)) false inner filled) {closing : String}
    {continues : Bool} (bare : continues = true → closing.isEmpty = true) :
    let closed := filled.closeBlock closing
    closed.front continues =
        lines ++ inner ++ (if continues then [] else [indented depth (ending closing)]) ∧
      closed.depth = depth ∧ closed.closing = closing.isEmpty ∧ closed.blank = false ∧
        closed.guarded = false := by
  have printed : filled.printed = lines ++ inner :=
    within.printed.trans (congrArg (· ++ inner) (printed_resting _ _))
  rw [closeBlock_eq_resting within.depth within.guarded, printed]
  cases empty : closing.isEmpty with
  | true =>
      have brace : indented depth (ending closing) = tabs depth ++ "\x7d" := by
        rw [ending, empty, if_pos rfl]
        rfl
      cases continues <;> simp [front, resting, Writer.printed, brace]
  | false =>
      have apart : continues = false := by
        rw [empty] at bare
        simpa using bare
      simp [apart, front, resting, Writer.printed]

end Writer

namespace Piece

open Writer

/-- Writing pieces prints them behind the lines before. -/
theorem goes_writeAll (pieces : List Piece) (writer : Writer) (free : writer.guarded = false) :
    let joins := writer.closing && startsElse pieces
    Goes writer joins (printed writer.depth joins writer.blank pieces)
      (Code.writeAll writer (codeOf pieces)) := by
  induction pieces using induction generalizing writer with
  | nil =>
      simp only [startsElse, Bool.and_false, printed, codeOf, Code.writeAll]
      exact ⟨(List.append_nil _).symm, rfl, free⟩
  | gap rest ih =>
      simp only [startsElse, printed, codeOf, code, List.cons_append, List.nil_append,
        Code.writeAll, Code.write]
      obtain ⟨printed, depth, guarded⟩ := ih writer.space free
      exact ⟨printed, depth, guarded⟩
  | line text rest ih =>
      simp only [startsElse, printed, codeOf, code, List.cons_append, List.nil_append,
        Code.writeAll, Code.write, line_plain free]
      exact (ih _ rfl).behind
  | guarded condition text rest ih =>
      simp only [startsElse, Bool.and_false, printed, codeOf, code, List.cons_append,
        List.nil_append, Code.writeAll, Code.write, line_guarded free]
      exact (ih _ rfl).behind
  | block header body closing rest inside ih =>
      simp only [startsElse, printed, codeOf, code, List.cons_append, List.nil_append,
        Code.writeAll, Code.write]
      have within := inside (writer.openBlock header) (by rw [openBlock_eq free]; rfl)
      rw [openBlock_eq free] at within ⊢
      have bare : (closing.isEmpty && startsElse rest) = true → closing.isEmpty = true :=
        fun both => (Bool.and_eq_true_iff.1 both).1
      obtain ⟨printed, depth, closed, blank, guarded⟩ := within.closeBlock bare
      have later := ih _ guarded
      rw [closed, blank, depth] at later
      refine ⟨?_, later.depth.trans depth, later.guarded⟩
      rw [later.printed, printed]
      simp only [List.append_assoc]
      rfl

/-- Pieces of code that are written from the start have the text that their structure tells. -/
theorem render_codeOf (pieces : List Piece) :
    Code.render (codeOf pieces) =
      String.join ((printed 0 false false pieces).map fun line => line ++ "\n") := by
  have goes := goes_writeAll pieces {} rfl
  rw [Code.render, finish_eq, goes.printed]
  rfl

/-- A block that goes on behind nested ends, and empty lines that stand and that are dropped. -/
example : Code.render (codeOf
    [.block "while (a)"
      [.gap, .block "if (b)" [.guarded ⟨"if (c)", by decide⟩ ⟨"d();", by decide⟩, .gap] "",
        .block "else" [.line ⟨"end:", by decide⟩] ""] "",
      .gap, .gap, .line ⟨"e();", by decide⟩, .block "" [] ";"]) =
    "while (a) \x7b\n\n\tif (b) \x7b\n\t\tif (c)\n\t\t\td();\n\t\x7d else \x7b\n\tend:\n" ++
      "\t\x7d\n\x7d\n\ne();\n\x7b\n\x7d;\n" := by
  decide +kernel

end Piece

namespace Code

open Piece Writer

/-- At the outermost level a line is printed as it is. -/
theorem line_resting (before : List String) (text : String) :
    (resting before 0).line text =
      { resting (before ++ [text]) 0 with guarded := isCondition text } := by
  have plain : indented 0 text = text := by
    have none : tabs 0 = "" := rfl
    simp [indented, none]
  have front : (resting before 0).front false = before := printed_resting before 0
  rw [line_eq_resting]
  show { resting ((resting before 0).front false ++ ([] ++ ["" ++ indented 0 text])) 0 with
    guarded := isCondition text } = _
  rw [front, plain]
  simp

/-- Lines of which only the last may be a condition are printed as they are. -/
theorem printed_lines {lines : List String}
    (quiet : ∀ line ∈ lines.dropLast, isCondition line = false) (before : List String) :
    (writeAll (resting before 0) (lines.map .line)).printed = before ++ lines := by
  induction lines generalizing before with
  | nil => simp [writeAll]
  | cons first rest ih =>
      show (writeAll ((resting before 0).line first) (rest.map .line)).printed = _
      rw [line_resting]
      cases rest with
      | nil => exact printed_resting _ 0
      | cons second others =>
          rw [List.dropLast_cons_cons] at quiet
          obtain ⟨here, later⟩ := List.forall_mem_cons.1 quiet
          rw [here]
          exact (ih later (before ++ [first])).trans (by simp)

/-- Lines of which only the last one may be a condition are written as they are. -/
theorem render_lines {lines : List String}
    (quiet : ∀ line ∈ lines.dropLast, isCondition line = false) :
    render (lines.map .line) = String.join (lines.map fun line => line ++ "\n") := by
  rw [render, finish_eq]
  exact congrArg (fun printed => String.join (printed.map fun line => line ++ "\n"))
    (printed_lines quiet [])

end Code

end NetlinkFamily.C
