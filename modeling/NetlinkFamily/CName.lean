import NetlinkFamily.Text.Case

/-!
Names as they appear in C text: a hyphen becomes an underscore, constants are written in upper
case and identifiers in lower case.
-/

namespace NetlinkFamily.CName

/-- The words of C that cannot be used as identifiers. -/
def keywords : List String :=
  ["auto", "bool", "break", "case", "char", "const", "continue", "default", "do", "double",
    "else", "enum", "extern", "float", "for", "goto", "if", "inline", "int", "long", "register",
    "return", "short", "signed", "sizeof", "static", "struct", "switch", "typedef", "union",
    "unsigned", "void", "volatile", "while"]

def isKeyword (name : String) : Bool :=
  keywords.contains name

def underscored (name : String) : String :=
  name.map fun c => if c = '-' then '_' else c

/-- The spelling of a constant. -/
def upper (name : String) : String :=
  underscored (Text.upper name)

/-- The spelling of a type, function or variable. -/
def lower (name : String) : String :=
  underscored (Text.lower name)

/-- The lower-case spelling, with an underscore behind it when it would be a keyword. -/
def ident (name : String) : String :=
  let spelling := lower name
  if isKeyword spelling then spelling ++ "_" else spelling

end NetlinkFamily.CName
