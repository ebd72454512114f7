import NetlinkFamily.C.Writer

/-!
C code as nested lines. Calls and assignments keep their parts.
-/

namespace NetlinkFamily.C

inductive Code where
  | line (text : String)
  /-- A condition on the result of a call. It guards the line after it. -/
  | check (function : String) (arguments : List String)
  | call (function : String) (arguments : List String)
  | assign (place value : String)
  /-- An empty line before the next line. -/
  | space
  /-- Lines between braces, with `closing` behind the last brace. -/
  | block (header : String) (body : List Code) (closing : String)
  deriving Inhabited

namespace Code

def application (function : String) (arguments : List String) : String :=
  function ++ "(" ++ ", ".intercalate arguments ++ ")"

/-- The text of a single line. -/
def text : Code → String
  | .line text => text
  | .check function arguments => "if (" ++ application function arguments ++ ")"
  | .call function arguments => application function arguments ++ ";"
  | .assign place value => place ++ " = " ++ value ++ ";"
  | .space | .block _ _ _ => ""

mutual

def write (writer : Writer) : Code → Writer
  | .space => writer.space
  | .block header body closing => (writeAll (writer.openBlock header) body).closeBlock closing
  | .line text => writer.line text
  | .check function arguments => writer.line (text (.check function arguments))
  | .call function arguments => writer.line (text (.call function arguments))
  | .assign place value => writer.line (text (.assign place value))

def writeAll (writer : Writer) : List Code → Writer
  | [] => writer
  | code :: rest => writeAll (write writer code) rest

end

/-- The text of code on its own. -/
def render (code : List Code) : String :=
  (writeAll {} code).finish

mutual

/-- The functions that the code calls, with the arguments of each call. -/
def calls : Code → List (String × List String)
  | .check function arguments | .call function arguments => [(function, arguments)]
  | .block _ body _ => callsIn body
  | .line _ | .assign _ _ | .space => []

def callsIn : List Code → List (String × List String)
  | [] => []
  | code :: rest => calls code ++ callsIn rest

end

@[simp] theorem callsIn_append (first second : List Code) :
    callsIn (first ++ second) = callsIn first ++ callsIn second := by
  induction first with
  | nil => simp [callsIn]
  | cons code rest ih => simp [callsIn, ih]

@[simp] theorem callsIn_map_line (lines : List String) : callsIn (lines.map .line) = [] := by
  induction lines with
  | nil => simp [callsIn]
  | cons line rest ih => simp [callsIn, calls, ih]

theorem mem_callsIn_flatten {call : String × List String} {parts : List (List Code)} :
    call ∈ callsIn parts.flatten ↔ ∃ part ∈ parts, call ∈ callsIn part := by
  induction parts with
  | nil => simp [callsIn]
  | cons part rest ih => simp [ih]

/-- Declarations of local variables, the longest one first, with an empty line behind them. -/
def locals (declarations : List String) : List Code :=
  if declarations.isEmpty then []
  else
    (declarations.mergeSort fun first second => width second ≤ width first).map .line ++ [.space]

@[simp] theorem callsIn_locals (declarations : List String) : callsIn (locals declarations) = [] := by
  unfold locals
  split <;> simp [callsIn, calls]

end Code

end NetlinkFamily.C
