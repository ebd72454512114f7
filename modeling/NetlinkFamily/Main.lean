import NetlinkFamily.Command.Execution

/-!
The command line. Its first argument names the program, and the others are those of the program.
-/

namespace NetlinkFamily.Command

def FileFailure.ofError (error : IO.Error) : FileFailure :=
  match error with
  | .noFileOrDirectory .. => .notFound
  | .inappropriateType _ code _ => if code = 21 then .isADirectory else .notADirectory
  | error => .other (toString error)

private def attempt {A : Type} (action : IO A) : IO (Except FileFailure A) := do
  return (← action.toBaseIO).mapError FileFailure.ofError

/-- The files of the disk. Places start at its root. -/
def disk : FileSystem IO where
  read path := attempt do
    return (← IO.FS.readBinFile path).toList
  write path bytes := attempt (IO.FS.writeBinFile path ⟨bytes.toArray⟩)
  locate path := do
    match ← attempt (IO.FS.realPath path) with
    | .ok place => return some (Path.components (toString place))
    | .error _ => return none
  isThere place := do
    return (← attempt (IO.FS.realPath ("/" ++ "/".intercalate place))).isOk

end NetlinkFamily.Command

open NetlinkFamily.Command in
def main (arguments : List String) : IO UInt32 := do
  match arguments with
  | [] => return 2
  | name :: rest =>
      match Program.ofName? name with
      | none => return 2
      | some program =>
          let outcome ← execute disk program rest
          IO.print outcome.printed
          IO.eprint outcome.complaint
          return UInt32.ofNat outcome.exitCode
