import NetlinkFamily.C.Code

/-!
Signatures of functions. One that is too long for a line is broken between its parameters, with the
result type on a line of its own.
-/

namespace NetlinkFamily.C

structure Signature where
  /-- The type of the result, with any qualifiers. -/
  result : String
  name : String
  parameters : List String
  deriving DecidableEq, Inhabited

namespace Signature

/-- The parameters as they are written. -/
def written (signature : Signature) : List String :=
  if signature.parameters.isEmpty then ["void"] else signature.parameters

/-- The result type with the space that a name needs behind it. -/
def spacedResult (signature : Signature) : String :=
  if endsWith signature.result '*' then signature.result else signature.result ++ " "

def oneLine (signature : Signature) (ending : String) : String :=
  signature.spacedResult ++ Code.application signature.name signature.written ++ ending

/-- White space as wide as `count` characters, with a tab for every eight. -/
def indentation (count : Nat) : String :=
  tabs (count / 8) ++ spaces (count % 8)

/-- The lines of parameters behind `line`. Lines that start with a tab are wider than their bytes
by `correction`. -/
def wrapFrom (indent : String) (correction : Nat) (ending line : String) :
    List String → List String
  | [] => [line ++ ")" ++ ending]
  | parameter :: rest =>
      let correction' := if startsWith line "\t" then correction else 0
      if 76 < width line + width parameter + correction' then
        (line ++ ",") :: wrapFrom indent correction ending (indent ++ parameter) rest
      else wrapFrom indent correction ending (line ++ ", " ++ parameter) rest

/-- A short result type stays on the line of the name. -/
def wrapped (signature : Signature) (ending : String) : List String :=
  let alone := 3 < width signature.result
  let start :=
    (if alone then "" else signature.spacedResult) ++ signature.name ++ "("
  let indent := indentation (width start)
  let parameters :=
    match signature.written with
    | [] => []
    | first :: rest =>
        wrapFrom indent (width start - width indent) ending (start ++ first) rest
  if alone then signature.result :: parameters else parameters

/-- The lines of a signature, on one line if that is below 80 columns. -/
def lines (signature : Signature) (ending : String) : List String :=
  let line := signature.oneLine ending
  if width line < 80 then [line] else signature.wrapped ending

/-- A comment of one line in front of a declaration. -/
def docLines : Option String → List String
  | none => []
  | some doc => ["/*", " * " ++ doc, " */"]

/-- The declaration of a function without its body. -/
def prototype (signature : Signature) (doc : Option String) (ending : String) : List Code :=
  (docLines doc ++ signature.lines ending).map .line

/-- A function with its body. The declarations stand in front of the braces. -/
def defineWith (signature : Signature) (declarations : List String) (body : List Code) :
    List Code :=
  signature.prototype none "" ++ Code.locals declarations ++ [.block "" body ""]

def define (signature : Signature) (body : List Code) : List Code :=
  signature.defineWith [] body

end Signature

end NetlinkFamily.C
