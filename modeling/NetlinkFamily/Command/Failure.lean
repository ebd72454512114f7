import NetlinkFamily.Message.Error
import NetlinkFamily.Spec.File

/-!
Failures of commands as they are told: what failed, and the causes below it.
-/

namespace NetlinkFamily.Command

/-- Why a file cannot be read or written. -/
inductive FileFailure where
  | notFound
  | notADirectory
  | isADirectory
  | invalidText
  | other (text : String)
  deriving DecidableEq, Inhabited

def FileFailure.message : FileFailure → String
  | notFound => "No such file or directory (os error 2)"
  | notADirectory => "Not a directory (os error 20)"
  | isADirectory => "Is a directory (os error 21)"
  | invalidText => "stream did not contain valid UTF-8"
  | other text => text

inductive Failure where
  /-- What failed, and its causes from the nearest one down. -/
  | told (what : String) (causes : List String)
  /-- The program stops in the middle, since a number leaves its range. -/
  | stopped
  deriving DecidableEq, Inhabited

namespace Failure

/-- Lines behind the first one are moved in below it. -/
private def indented (start : String) (text : String) : String :=
  let rest := String.ofList ('\n' :: List.replicate start.length ' ')
  start ++ rest.intercalate (text.splitOn "\n")

private def numbered (index : Nat) (cause : String) : String :=
  let number := toString index
  indented (String.ofList (List.replicate (5 - number.length) ' ') ++ number ++ ": ") cause

/-- Several causes are numbered. -/
private def causeLines : List String → List String
  | [] => []
  | [cause] => ["", "Caused by:", indented "    " cause]
  | causes => ["", "Caused by:"] ++ causes.mapIdx numbered

/-- The text that tells a failure. -/
def text : Failure → String
  | told what causes =>
      String.join ((("Error: " ++ what) :: causeLines causes).map fun line => line ++ "\n")
  | stopped => ""

/-- A failure of the model, below what it kept from happening. -/
def ofModel (what : Option String) (error : ModelError) : Failure :=
  match error, what with
  | .numberingOverflow, _ => stopped
  | error, none => told error.message []
  | error, some what => told what [error.message]

def ofCodec : CodecError → Failure
  | .model .numberingOverflow => stopped
  | .model error => told (CodecError.message (.model error)) [error.message]
  | error => told error.message []

end Failure

end NetlinkFamily.Command
