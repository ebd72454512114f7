import NetlinkFamily.Command.Failure
import NetlinkFamily.Command.Request
import NetlinkFamily.Message.Text
import NetlinkFamily.Model.Json
import NetlinkFamily.Pattern.Reader
import NetlinkFamily.Spec.Document
import NetlinkFamily.Text.Path

/-!
What a request prints and writes, given the contents of the files that it names.
-/

namespace NetlinkFamily.Command

/-- What the files that a request names hold. -/
structure Inputs where
  spec : Except FileFailure Bytes
  /-- The path of the specification below the root of its source tree, if it is in one. -/
  specBelowRoot : Option String
  data : Except FileFailure Bytes
  /-- What the file that is to be written holds already. -/
  output : Option Bytes

/-- How a run ends. -/
inductive Ending where
  | success
  | failure (failure : Failure)
  /-- The arguments are wrong. -/
  | misuse
  /-- A file is to be written. The message is printed once that is done. -/
  | write (path text message : String)
  deriving DecidableEq, Inhabited

structure Outcome where
  /-- What is printed. -/
  printed : String := ""
  ending : Ending
  deriving DecidableEq, Inhabited

namespace Outcome

def exitCode (outcome : Outcome) : Nat :=
  match outcome.ending with
  | .success | .write _ _ _ => 0
  | .failure (.told _ _) => 1
  | .failure .stopped => 101
  | .misuse => 2

/-- What is told about a failure. -/
def complaint (outcome : Outcome) : String :=
  match outcome.ending with
  | .failure failure => failure.text
  | _ => ""

/-- The outcome once the file has been written, or has not. -/
def afterWriting (outcome : Outcome) (result : Except FileFailure Unit) : Outcome :=
  match outcome.ending, result with
  | .write _ _ message, .ok _ =>
      { printed := outcome.printed ++ message, ending := .success }
  | .write path _ _, .error failure =>
      { outcome with
        ending := .failure (.told ("failed to write " ++ path) [failure.message]) }
  | _, _ => outcome

end Outcome

private def lines (texts : List String) : String :=
  String.join (texts.map fun text => text ++ "\n")

private def readText (bytes : Except FileFailure Bytes) : Except FileFailure String := do
  match (← bytes).toText? with
  | some text => return text
  | none => throw .invalidText

/-- The specification in a file. -/
private def loadFile (path : String) (inputs : Inputs) : Except Failure Spec.File :=
  let what := "failed to load spec " ++ path
  match readText inputs.spec with
  | .error failure =>
      .error (.told what
        ["failed to read spec '" ++ path ++ "': " ++ failure.message, failure.message])
  | .ok text =>
      match Spec.File.ofText text with
      | .ok file => .ok file
      | .error .malformed =>
          .error (.told what [Spec.FileError.malformed.message, "malformed document"])
      | .error error => .error (.told what [error.message])

/-- A pattern that matches from the start of a name. -/
private def compile (pattern : String) : Except Failure Pattern :=
  match Pattern.ofString? ("^(?:" ++ pattern ++ ")") with
  | some compiled => .ok compiled
  | none =>
      .error (.told ("invalid --exclude-op pattern '" ++ pattern ++ "'") ["malformed pattern"])

/-- The family of a specification whose license is accepted. -/
private def loadFamily (path : String) (excludes : List String) (inputs : Inputs) :
    Except Failure Family := do
  let file ← loadFile path inputs
  file.checkLicense.mapError fun error => .told error.message []
  let patterns ← excludes.mapM compile
  (Family.ofSpec file patterns).mapError
    (.ofModel (some ("failed to resolve family from " ++ path)))

private def configuration (request : GenerateRequest) : String :=
  lines
    (["YNL Generator - C Code Generation",
        "=================================",
        "",
        "[~] Configuration:",
        "  Mode: " ++ request.consumer.name,
        "  Output: " ++ if request.header then "header" else "source",
        "  Spec: " ++ request.spec] ++
      (request.excludes.map fun pattern => "    - excluding ops matching '" ++ pattern ++ "'") ++
      [""])

private def generatedText (request : GenerateRequest) (inputs : Inputs) :
    Except Failure String := do
  let family ← loadFamily request.spec request.excludes inputs
  let options : OutputOptions :=
    { consumer := request.consumer
      header := request.header
      userHeaders := request.userHeaders
      excludes := request.excludes
      fileStem := request.output.bind Path.fileStem?
      specPath := inputs.specBelowRoot.getD request.spec }
  (options.generate family).mapError
    (.ofModel (some ("failed to generate " ++ request.consumer.name ++ " code for '" ++
      family.name ++ "'")))

/-- A file that holds the text already is left alone. -/
def generate (request : GenerateRequest) (inputs : Inputs) : Outcome :=
  if !request.header && !request.source then
    { ending := .failure (.told "--header or --source is required" []) }
  else
    let head := if request.verbose then configuration request else ""
    match generatedText request inputs with
    | .error failure => { printed := head, ending := .failure failure }
    | .ok text =>
        match request.output with
        | none => { printed := head ++ text, ending := .success }
        | some path =>
            let remark (text : String) : String := if request.verbose then lines [text] else ""
            if inputs.output = some (Bytes.ofText text) then
              { printed := head ++ remark ("[~] " ++ path ++ " is up to date")
                ending := .success }
            else
              { printed := head
                ending := .write path text (remark ("[~] Wrote " ++ path)) }

private def setLine (set : AttributeSet) : String :=
  "    - " ++ set.name ++ (if set.subsetOf.isSome then " (subset)" else "") ++ ": " ++
    toString set.attrs.size ++ " attr(s)"

private def rootLine (entry : String × RootSet) : String :=
  "    - " ++ entry.1 ++ " (request: " ++ toString entry.2.request.length ++ ", reply: " ++
    toString entry.2.reply.length ++ ")"

private def nestLines (layout : Layout) : List String :=
  let uses :=
    (if layout.request then ["request"] else []) ++ if layout.reply then ["reply"] else []
  ("    - " ++ layout.space ++ " [" ++ ", ".intercalate uses ++ "]") ::
    if layout.inherited.isEmpty then []
    else ["      inherited: " ++ ", ".intercalate layout.inherited]

/-- The report on a family. -/
private def reportLines (family : Family) : List String :=
  ["[~] Family '" ++ family.name ++ "' (version " ++ toString family.version.toNat ++ ")",
      "[~] Attribute sets: " ++ toString family.sets.size] ++
    family.sets.values.map setLine ++ ["[~] Root sets:"] ++
    family.rootSets.entries.map rootLine ++ ["[~] Nested structs in emission order:"] ++
    family.nestedSets.values.flatMap nestLines ++
    ["[~] Operations: " ++ toString family.operations.length,
      "[~] Notifications: " ++ toString family.notifications.length]

def analyze (request : AnalyzeRequest) (inputs : Inputs) : Outcome :=
  let head :=
    lines
      ["YNL Generator - Model Analysis",
        "==============================",
        "",
        "[~] Loading " ++ request.spec]
  match loadFamily request.spec request.excludes inputs with
  | .error failure => { printed := head, ending := .failure failure }
  | .ok family =>
      let model := if request.printModel then ["", family.report.pretty] else []
      { printed := head ++ lines (reportLines family ++ model), ending := .success }

/-- The handling peer receives requests, the originating one replies. -/
private def decodeStream (family : Family) (request : DecodeRequest) (data : Bytes) :
    Coded Message :=
  match request.subject with
  | .set name => family.decode request.peer name data
  | .operation name mode =>
      let direction :=
        match request.peer with
        | .handling => Direction.request
        | .originating => .reply
      family.decodeOperation request.peer name mode direction data

private def decodedMessage (request : DecodeRequest) (inputs : Inputs) :
    Except Failure Message := do
  let family ← loadFamily request.spec [] inputs
  let data ← inputs.data.mapError fun failure =>
    .told ("failed to read " ++ request.data) [failure.message]
  (decodeStream family request data).mapError .ofCodec

def decode (request : DecodeRequest) (inputs : Inputs) : Outcome :=
  match decodedMessage request inputs with
  | .error failure => { ending := .failure failure }
  | .ok message =>
      let json := Message.toJson message
      { printed := lines [if request.pretty then json.pretty else json.compact]
        ending := .success }

/-- The outcome of a request. -/
def run (request : Request) (inputs : Inputs) : Outcome :=
  match request with
  | .generate request => generate request inputs
  | .analyze request => analyze request inputs
  | .decode request => decode request inputs

end NetlinkFamily.Command
