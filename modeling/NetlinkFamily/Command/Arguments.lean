/-!
Arguments of a command line: flags, and options with a value that stands in the same argument or in
the next one. Short options may share an argument.
-/

namespace NetlinkFamily.Command

inductive OptionKind where
  | flag
  /-- An option with a value that is given at most once. -/
  | single
  | repeated
  deriving DecidableEq, Inhabited

structure OptionForm where
  key : String
  long : Option String := none
  letter : Option Char := none
  kind : OptionKind := .single
  deriving DecidableEq, Inhabited

/-- The options in the order in which they were given, with their values. -/
abbrev Arguments := List (String × String)

namespace Arguments

/-- What an argument gives: options with their values, and an option whose value comes next. -/
abbrev Piece := Arguments × Option String

private def looksLikeOption (argument : String) : Bool :=
  argument.toList.head? == some '-' && argument != "-"

/-- The part of a text before the first equals sign, and the part behind it. -/
private def splitValue (chars : List Char) : String × Option String :=
  let name := chars.takeWhile (· != '=')
  (String.ofList name,
    match chars.drop name.length with
    | [] => none
    | _ :: value => some (String.ofList value))

private def readLong (forms : List OptionForm) (chars : List Char) : Option Piece := do
  let (name, value) := splitValue chars
  let form ← forms.find? fun form => form.long == some name
  match form.kind, value with
  | .flag, some _ => none
  | .flag, none => some ([(form.key, "")], none)
  | _, some value => some ([(form.key, value)], none)
  | _, none => some ([], some form.key)

private def readLetters (forms : List OptionForm) : List Char → Option Piece
  | [] => some ([], none)
  | letter :: rest => do
      let form ← forms.find? fun form => form.letter == some letter
      match form.kind, rest with
      | .flag, rest => do
          let (found, pending) ← readLetters forms rest
          return ((form.key, "") :: found, pending)
      | _, [] => some ([], some form.key)
      | _, '=' :: value | _, value => some ([(form.key, String.ofList value)], none)

private def readOption (forms : List OptionForm) (argument : String) : Option Piece :=
  match argument.toList with
  | '-' :: '-' :: rest => readLong forms rest
  | '-' :: letter :: rest => readLetters forms (letter :: rest)
  | _ => none

/-- This reads arguments behind those already found. An option may wait for its value, which must
not look like an option. Nothing may follow two hyphens that stand alone. -/
private def readFrom (forms : List OptionForm) (pending : Option String) (found : Arguments) :
    List String → Option Arguments
  | [] => if pending.isSome then none else some found
  | argument :: rest =>
      match pending with
      | some key =>
          if looksLikeOption argument then none
          else readFrom forms none (found ++ [(key, argument)]) rest
      | none =>
          if argument = "--" then if rest.isEmpty then some found else none
          else
            match readOption forms argument with
            | none => none
            | some (more, pending) => readFrom forms pending (found ++ more) rest

/-- Whether an option is given as often as it may be. -/
private def isCountAllowed (found : Arguments) (form : OptionForm) : Bool :=
  form.kind == .repeated || (found.filter fun entry => entry.1 == form.key).length ≤ 1

/-- The options of a list of arguments, if it has no others and none too often. -/
def read? (forms : List OptionForm) (arguments : List String) : Option Arguments :=
  (readFrom forms none [] arguments).filter fun found => forms.all (isCountAllowed found)

def given (arguments : Arguments) (key : String) : Bool :=
  (arguments.lookup key).isSome

/-- All values of an option, in order. -/
def values (arguments : Arguments) (key : String) : List String :=
  (arguments.filter fun entry => entry.1 == key).map Prod.snd

/-- The value of an option that names a file, which must not be empty. -/
def path? (arguments : Arguments) (key : String) : Option (Option String) :=
  match arguments.lookup key with
  | none => some none
  | some path => if path.isEmpty then none else some (some path)

end Arguments

end NetlinkFamily.Command
