/-!
JSON texts: on one line without spaces, or with one member or entry a line.
-/

namespace NetlinkFamily

inductive Json where
  | null
  | bool (value : Bool)
  | number (value : Int)
  | text (value : String)
  | array (entries : List Json)
  | object (members : List (String × Json))
  deriving Inhabited

namespace Json

def option {A : Type} (write : A → Json) : Option A → Json
  | none => .null
  | some value => write value

def list {A : Type} (write : A → Json) (values : List A) : Json :=
  .array (values.map write)

def texts (values : List String) : Json :=
  .array (values.map .text)

/-- The four digits of a character code. -/
private def codeDigits (code : Nat) : List Char :=
  let digits := Nat.toDigits 16 code
  List.replicate (4 - digits.length) '0' ++ digits

/-- Only quotes, backslashes and control characters are escaped. -/
def escapedChar (c : Char) : List Char :=
  if c = '"' then ['\\', '"']
  else if c = '\\' then ['\\', '\\']
  else if c = '\x08' then ['\\', 'b']
  else if c = '\x0c' then ['\\', 'f']
  else if c = '\n' then ['\\', 'n']
  else if c = '\r' then ['\\', 'r']
  else if c = '\t' then ['\\', 't']
  else if c.toNat < 0x20 then ['\\', 'u'] ++ codeDigits c.toNat
  else [c]

def quoted (text : String) : String :=
  String.ofList ('"' :: text.toList.flatMap escapedChar ++ ['"'])

mutual

/-- This writes a value behind `written`, on the same line. -/
def compactBehind (written : String) : Json → String
  | .null => written ++ "null"
  | .bool value => written ++ (if value then "true" else "false")
  | .number value => written ++ toString value
  | .text value => written ++ quoted value
  | .array entries => compactEntries (written ++ "[") true entries ++ "]"
  | .object members => compactMembers (written ++ "\x7b") true members ++ "\x7d"

def compactEntries (written : String) (first : Bool) : List Json → String
  | [] => written
  | entry :: rest =>
      let separated := if first then written else written ++ ","
      compactEntries (compactBehind separated entry) false rest

def compactMembers (written : String) (first : Bool) : List (String × Json) → String
  | [] => written
  | (name, value) :: rest =>
      let separated := if first then written else written ++ ","
      compactMembers (compactBehind (separated ++ quoted name ++ ":") value) false rest

end

def compact (json : Json) : String :=
  json.compactBehind ""

/-- A line end and the indentation of a depth. -/
private def newLine (depth : Nat) : String :=
  String.ofList ('\n' :: List.replicate (2 * depth) ' ')

mutual

/-- This writes a value behind `written`, which is at `depth`. -/
def prettyBehind (written : String) (depth : Nat) : Json → String
  | .array [] => written ++ "[]"
  | .array entries =>
      prettyEntries (written ++ "[") (depth + 1) true entries ++ newLine depth ++ "]"
  | .object [] => written ++ "\x7b\x7d"
  | .object members =>
      prettyMembers (written ++ "\x7b") (depth + 1) true members ++ newLine depth ++ "\x7d"
  | .null => written ++ "null"
  | .bool value => written ++ (if value then "true" else "false")
  | .number value => written ++ toString value
  | .text value => written ++ quoted value

def prettyEntries (written : String) (depth : Nat) (first : Bool) : List Json → String
  | [] => written
  | entry :: rest =>
      let separated := (if first then written else written ++ ",") ++ newLine depth
      prettyEntries (prettyBehind separated depth entry) depth false rest

def prettyMembers (written : String) (depth : Nat) (first : Bool) :
    List (String × Json) → String
  | [] => written
  | (name, value) :: rest =>
      let separated := (if first then written else written ++ ",") ++ newLine depth
      prettyMembers (prettyBehind (separated ++ quoted name ++ ": ") depth value) depth false rest

end

/-- Indented by two spaces a level. Empty arrays and objects stay on one line. -/
def pretty (json : Json) : String :=
  json.prettyBehind "" 0

end Json

end NetlinkFamily
