/-!
A writer of indented C lines. It holds a closing brace back until the next line, so that an `else`
can join it, and it indents the one line that a condition without braces guards.
-/

namespace NetlinkFamily.C

/-- The width of a text, in bytes. -/
def width (text : String) : Nat :=
  text.utf8ByteSize

def tabs (count : Nat) : String :=
  String.ofList (List.replicate count '\t')

def spaces (count : Nat) : String :=
  String.ofList (List.replicate count ' ')

def startsWith (text start : String) : Bool :=
  start.toList.isPrefixOf text.toList

def endsWith (text : String) (last : Char) : Bool :=
  text.toList.getLast? == some last

/-- Whether a line guards the one after it. -/
def isCondition (text : String) : Bool :=
  endsWith text ')' &&
    (startsWith text "if" || startsWith text "while" || startsWith text "for")

structure Writer where
  /-- The finished lines, the last one first. -/
  lines : List String := []
  /-- Whether an empty line goes before the next line. -/
  blank : Bool := false
  /-- Whether a closing brace is held back. -/
  closing : Bool := false
  /-- Whether a condition guards the next line. -/
  guarded : Bool := false
  depth : Nat := 0
  deriving DecidableEq, Inhabited

namespace Writer

private def push (writer : Writer) (depth : Nat) (text : String) : Writer :=
  { writer with lines := (tabs depth ++ text) :: writer.lines }

/-- This writes the brace that is held back, unless `text` starts an `else` that joins it. -/
private def release (writer : Writer) (text : String) : Writer × String :=
  if writer.closing then
    if startsWith text "else" then ({ writer with closing := false }, "\x7d " ++ text)
    else ({ writer.push writer.depth "\x7d" with closing := false }, text)
  else (writer, text)

/-- This writes a line, indented by `extra` more tabs. A label stands one level out. -/
def lineIndented (writer : Writer) (text : String) (extra : Nat) : Writer :=
  let (released, text) := writer.release text
  let spaced :=
    if released.blank then { released with lines := "" :: released.lines, blank := false }
    else released
  let outer := if endsWith text ':' then spaced.depth - 1 else spaced.depth
  let depth := (if spaced.guarded then outer + 1 else outer) + extra
  { spaced.push depth text with guarded := isCondition text }

def line (writer : Writer) (text : String) : Writer :=
  writer.lineIndented text 0

/-- This asks for an empty line before the next line. Asking again changes nothing. -/
def space (writer : Writer) : Writer :=
  { writer with blank := true }

def openBlock (writer : Writer) (header : String) : Writer :=
  let opened := writer.line (if header.isEmpty then "\x7b" else header ++ " \x7b")
  { opened with depth := opened.depth + 1 }

/-- This writes the brace that an inner block has left. -/
private def closeInner (writer : Writer) : Writer :=
  if writer.closing then
    { writer.push (writer.depth + 1) "\x7d" with closing := false }
  else writer

/-- This ends a block. With a text behind the brace it is written at once. -/
def closeBlock (writer : Writer) (text : String) : Writer :=
  let outer := { writer with depth := writer.depth - 1, blank := false }.closeInner
  if text.isEmpty then { outer with closing := true }
  else if startsWith text ";" || startsWith text "," then outer.line ("\x7d" ++ text)
  else outer.line ("\x7d " ++ text)

/-- The text that has been written, with any brace that is held back. -/
def finish (writer : Writer) : String :=
  let ended := if writer.closing then writer.push writer.depth "\x7d" else writer
  String.join (ended.lines.reverse.map fun text => text ++ "\n")

/-- The lines that have been written, with any brace that is held back. -/
def printed (writer : Writer) : List String :=
  writer.lines.reverse ++ if writer.closing then [tabs writer.depth ++ "\x7d"] else []

theorem finish_eq (writer : Writer) :
    writer.finish = String.join (writer.printed.map fun text => text ++ "\n") := by
  unfold finish printed push
  cases writer.closing <;> simp

/-- A line goes behind what is printed, and behind an empty line if one was asked for. One that
starts with `else` takes the brace that is held back into its own line. -/
theorem line_eq (writer : Writer) (text : String) :
    writer.line text =
      let joins := writer.closing && startsWith text "else"
      let line := if joins then "\x7d " ++ text else text
      let level := if endsWith line ':' then writer.depth - 1 else writer.depth
      { lines :=
          (tabs (if writer.guarded then level + 1 else level) ++ line) ::
            ((if writer.blank then [""] else []) ++
              if joins then writer.lines else writer.printed.reverse)
        blank := false
        closing := false
        guarded := isCondition line
        depth := writer.depth } := by
  unfold line lineIndented release printed push
  cases closing : writer.closing with
  | false => cases blank : writer.blank <;> simp [closing, blank]
  | true =>
      cases joins : startsWith text "else" <;> cases blank : writer.blank <;> simp

/-- The end of a block is printed behind its lines, without an empty line in front. -/
theorem closeBlock_eq {writer : Writer} {depth : Nat} (inside : writer.depth = depth + 1)
    (text : String) :
    writer.closeBlock text =
      let outer : Writer :=
        { lines := writer.printed.reverse
          blank := false
          closing := text.isEmpty
          guarded := writer.guarded
          depth }
      if text.isEmpty then outer
      else if startsWith text ";" || startsWith text "," then outer.line ("\x7d" ++ text)
      else outer.line ("\x7d " ++ text) := by
  unfold closeBlock closeInner printed push
  cases closing : writer.closing <;> cases empty : text.isEmpty <;> simp [inside]

end Writer

end NetlinkFamily.C
