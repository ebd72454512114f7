import NetlinkFamily.C.Code
import NetlinkFamily.Text.Blank

/-!
Lines whose parts are aligned by tabs, and comments whose words are wrapped.
-/

namespace NetlinkFamily.C

inductive DefineValue where
  | number (value : Int)
  | text (value : String)
  deriving DecidableEq, Inhabited

def DefineValue.written : DefineValue → String
  | number value => toString value
  | text value => "\"" ++ value ++ "\""

/-- The greatest width of a list of texts. -/
def widest (texts : List String) : Nat :=
  (texts.map width).foldl max 0

/-- The next multiple of eight above `count`. -/
def tabStop (count : Nat) : Nat :=
  (count + 8) / 8 * 8

/-- The tabs that lead from a column to the tab stop `stop`. -/
def tabsTo (stop column : Nat) : String :=
  tabs ((stop - column + 7) / 8)

/-- Macros with their values in one column. -/
def defineLines (defines : List (String × DefineValue)) : List String :=
  let stop := tabStop (widest (defines.map Prod.fst))
  defines.map fun (name, value) =>
    "#define " ++ name ++ tabsTo stop (width name) ++ value.written

/-- Members of an initializer with their values in one column. -/
def initializerLines (members : List (String × String)) : List String :=
  let stop := tabStop (widest (members.map Prod.fst) + 1)
  members.map fun (name, value) =>
    "." ++ name ++ tabsTo stop (width name + 1) ++ "= " ++ value ++ ","

/-- The lines of a comment from `line` on. A word that would reach column 79 starts a new line. -/
def wrapWords (continuation line : String) : List String → List String
  | [] => [line]
  | word :: rest =>
      if 79 ≤ width line + width word then
        line :: wrapWords continuation (continuation ++ " " ++ word) rest
      else wrapWords continuation (line ++ " " ++ word) rest

/-- The lines of a text inside a comment. `indent` moves all but the first line in. -/
def commentLines (text : String) (indent : Bool) : List String :=
  wrapWords (if indent then " *  " else " *") " *" (Text.words text)

end NetlinkFamily.C
