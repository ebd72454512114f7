import NetlinkFamily.Command.Failure
import NetlinkFamily.Text.Path
import NetlinkFamily.Wire.Bytes

/-!
What a command needs of the files around it, and a tree of files that is held in memory.
-/

namespace NetlinkFamily.Command

/-- A place is the names that lead to it from the root, without steps back. -/
abbrev Place := List String

structure FileSystem (m : Type → Type) where
  read : String → m (Except FileFailure Bytes)
  write : String → Bytes → m (Except FileFailure Unit)
  /-- The place to which a path leads, if something is there. -/
  locate : String → m (Option Place)
  /-- Whether a file or a directory is at a place. -/
  isThere : Place → m Bool

/-- The names below the nearest of some directories that holds a file of this name. The directories
are those in which `inner` is, under the place `outer`. -/
private def belowHolder {m : Type → Type} [Monad m] (files : FileSystem m) (name : String)
    (outer : Place) : Place → m (Option Place)
  | [] => return none
  | step :: inner => do
      match ← belowHolder files name (outer ++ [step]) inner with
      | some below => return some below
      | none => return if ← files.isThere (outer ++ [name]) then some (step :: inner) else none

/-- The path of a file below the nearest directory around it that holds a file of this name. -/
def FileSystem.pathBelow? {m : Type → Type} [Monad m] (files : FileSystem m) (name path : String) :
    m (Option String) := do
  match ← files.locate path with
  | none => return none
  | some place => return (← belowHolder files name [] place).map fun below => "/".intercalate below

/-- Files in memory by their places. The directories are those that lead to a file. -/
abbrev FileTree := List (Place × Bytes)

namespace FileTree

inductive Content where
  | file (bytes : Bytes)
  | directory
  | nothing
  deriving DecidableEq, Inhabited

def content (tree : FileTree) (place : Place) : Content :=
  match tree.lookup place with
  | some bytes => .file bytes
  | none =>
      if place.isEmpty || tree.any (fun entry => place.isPrefixOf entry.1) then .directory
      else .nothing

/-- The tree in which this file is at its place. -/
def put (tree : FileTree) (place : Place) (bytes : Bytes) : FileTree :=
  (place, bytes) :: tree.filter fun entry => entry.1 != place

/-- The place to which steps lead. A step needs a directory to start from, and none leads out of
the tree. -/
private def walk (tree : FileTree) (place : Place) : List String → Except FileFailure Place
  | [] => .ok place
  | step :: rest =>
      match tree.content place with
      | .file _ => .error .notADirectory
      | .nothing => .error .notFound
      | .directory =>
          match step with
          | "" | "." => walk tree place rest
          | ".." => if place.isEmpty then .error .notFound else walk tree place.dropLast rest
          | name => walk tree (place ++ [name]) rest

/-- A path from outside the tree leads to nothing in it. -/
private def follow (tree : FileTree) (path : String) (steps : List String) :
    Except FileFailure Place :=
  if Path.isAbsolute path || path.isEmpty then .error .notFound else walk tree [] steps

def read (tree : FileTree) (path : String) : Except FileFailure Bytes := do
  match tree.content (← follow tree path (path.splitOn "/")) with
  | .file bytes => return bytes
  | .directory => throw .isADirectory
  | .nothing => throw .notFound

/-- The tree after a file has been written. Its directory must be there already, and its path may
not end like that of a directory. -/
def write (tree : FileTree) (path : String) (bytes : Bytes) : Except FileFailure FileTree := do
  let steps := (path.splitOn "/").reverse.dropWhile (· == "")
  let holder ← follow tree path steps.tail.reverse
  let name := steps.headD ""
  match tree.content holder with
  | .file _ => throw .notADirectory
  | .nothing => throw .notFound
  | .directory =>
      let place := holder ++ [name]
      if path.endsWith "/" || [".", ".."].contains name || tree.content place = .directory then
        throw .isADirectory
      else return tree.put place bytes

/-- The tree as the files around a command. -/
def system : FileSystem (StateM FileTree) where
  read path := return (← get).read path
  write path bytes := do
    match (← get).write path bytes with
    | .ok tree =>
        set tree
        return .ok ()
    | .error failure => return .error failure
  locate path := do
    let tree ← get
    match follow tree path (path.splitOn "/") with
    | .ok place => return if tree.content place = .nothing then none else some place
    | .error _ => return none
  isThere place := return (← get).content place ≠ .nothing

end FileTree

end NetlinkFamily.Command
