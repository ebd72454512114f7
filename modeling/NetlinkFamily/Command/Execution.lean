import NetlinkFamily.Command.FileSystem
import NetlinkFamily.Command.Run

/-!
The execution of a command line among files: what its request names is read, and its file is
written.
-/

namespace NetlinkFamily.Command

/-- The root of a source tree holds a file of this name. -/
private def rootMark : String := "MAINTAINERS"

private def gather {m : Type → Type} [Monad m] (files : FileSystem m) (request : Request) :
    m Inputs := do
  let spec ← files.read request.spec
  let specBelowRoot ← files.pathBelow? rootMark request.spec
  let data ←
    match request.data? with
    | some path => files.read path
    | none => pure (.error .notFound)
  let output ←
    match request.output? with
    | some path => files.read path
    | none => pure (.error .notFound)
  return { spec, specBelowRoot, data, output := output.toOption }

/-- This runs a program with its arguments. -/
def execute {m : Type → Type} [Monad m] (files : FileSystem m) (program : Program)
    (arguments : List String) : m Outcome := do
  match Request.ofArguments? program arguments with
  | none => return { ending := .misuse }
  | some request =>
      let outcome := run request (← gather files request)
      match outcome.ending with
      | .write path text _ => return outcome.afterWriting (← files.write path (Bytes.ofText text))
      | _ => return outcome

end NetlinkFamily.Command
