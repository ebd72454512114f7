/-!
Paths of files as texts.
-/

namespace NetlinkFamily.Path

/-- The names in a path that lead somewhere else. -/
def components (path : String) : List String :=
  (path.splitOn "/").filter fun name => name != "" && name != "."

def isAbsolute (path : String) : Bool :=
  path.toList.head? == some '/'

/-- The name of the file that a path leads to. -/
def fileName? (path : String) : Option String :=
  (components path).getLast?.filter (· != "..")

/-- A name without its extension. A dot at its start begins no extension. -/
def withoutExtension (name : String) : String :=
  let back := name.toList.reverse
  let stem := (back.dropWhile (· != '.')).drop 1
  if stem.isEmpty then name else String.ofList stem.reverse

/-- The name of a file without directories and extension. -/
def fileStem? (path : String) : Option String :=
  (fileName? path).map withoutExtension

end NetlinkFamily.Path
