import NetlinkFamily.Command.Arguments
import NetlinkFamily.Message.Decoding
import NetlinkFamily.Output.File

/-!
What a command line asks for: to generate a file, to report the model of a family, or to decode a
stream of attributes.
-/

namespace NetlinkFamily.Command

/-- The programs: one generates, the other decodes. -/
inductive Program where
  | generator
  | decoder
  deriving DecidableEq, Inhabited

/-- The program that is called by a name. -/
def Program.ofName? : String → Option Program
  | "ynl-gen" => some generator
  | "ynl-reflect" => some decoder
  | _ => none

structure GenerateRequest where
  spec : String
  consumer : Consumer
  header : Bool
  source : Bool
  userHeaders : List String
  excludes : List String
  output : Option String
  verbose : Bool
  deriving DecidableEq, Inhabited

structure AnalyzeRequest where
  spec : String
  excludes : List String
  printModel : Bool
  deriving DecidableEq, Inhabited

/-- What a stream holds: attributes of a set, or a message of an operation. -/
inductive StreamSubject where
  | set (name : String)
  | operation (name : String) (mode : OperationMode)
  deriving DecidableEq, Inhabited

structure DecodeRequest where
  spec : String
  subject : StreamSubject
  data : String
  peer : Peer
  pretty : Bool
  deriving DecidableEq, Inhabited

inductive Request where
  | generate (request : GenerateRequest)
  | analyze (request : AnalyzeRequest)
  | decode (request : DecodeRequest)
  deriving Inhabited

namespace Request

/-- The specification that the request is about. -/
def spec : Request → String
  | generate request => request.spec
  | analyze request => request.spec
  | decode request => request.spec

/-- The stream that is to be decoded. -/
def data? : Request → Option String
  | decode request => some request.data
  | _ => none

/-- The file that is to be written. -/
def output? : Request → Option String
  | generate request => request.output
  | _ => none

private def specForm : OptionForm := { key := "spec", long := some "spec" }

private def excludeForm : OptionForm :=
  { key := "exclude-op", long := some "exclude-op", kind := .repeated }

private def verboseForm : OptionForm :=
  { key := "verbose", long := some "verbose", letter := some 'v', kind := .flag }

private def consumers : List (String × Consumer) :=
  [Consumer.user, .kernel, .shared].map fun consumer => (consumer.name, consumer)

private def generate? (arguments : List String) : Option Request := do
  let found ← Arguments.read?
    [specForm, { key := "mode", long := some "mode" },
      { key := "header", long := some "header", kind := .flag },
      { key := "source", long := some "source", kind := .flag },
      { key := "user-header", long := some "user-header", kind := .repeated }, excludeForm,
      { key := "output", letter := some 'o' }, verboseForm]
    arguments
  let spec ← (← found.path? "spec")
  let mode ← found.lookup "mode"
  let consumer ← consumers.lookup mode
  let output ← found.path? "output"
  if found.given "header" && found.given "source" then none
  else
    return .generate
      { spec
        consumer
        header := found.given "header"
        source := found.given "source"
        userHeaders := found.values "user-header"
        excludes := found.values "exclude-op"
        output
        verbose := found.given "verbose" }

private def analyze? (arguments : List String) : Option Request := do
  let found ← Arguments.read?
    [specForm, excludeForm, { key := "print-ir", long := some "print-ir", kind := .flag },
      verboseForm]
    arguments
  let spec ← (← found.path? "spec")
  return .analyze
    { spec, excludes := found.values "exclude-op", printModel := found.given "print-ir" }

private def peers : List (String × Peer) :=
  [("originating", .originating), ("handling", .handling)]

/-- Either a set or an operation is named. Only an operation has a dump. -/
private def streamSubject? (found : Arguments) : Option StreamSubject :=
  match found.lookup "attr-set", found.lookup "op" with
  | some set, none => if found.given "dump" then none else some (.set set)
  | none, some operation =>
      some (.operation operation (if found.given "dump" then .dump else .call))
  | _, _ => none

private def decode? (arguments : List String) : Option Request := do
  let found ← Arguments.read?
    [{ key := "spec", long := some "spec", letter := some 's' },
      { key := "attr-set", long := some "attr-set", letter := some 'a' },
      { key := "op", long := some "op" },
      { key := "dump", long := some "dump", kind := .flag },
      { key := "data-file", long := some "data-file", letter := some 'd' },
      { key := "side", long := some "side" },
      { key := "pretty", long := some "pretty", letter := some 'p', kind := .flag }]
    arguments
  let spec ← (← found.path? "spec")
  let data ← (← found.path? "data-file")
  let subject ← streamSubject? found
  let peer ← peers.lookup ((found.lookup "side").getD "originating")
  return .decode { spec, subject, data, peer, pretty := found.given "pretty" }

/-- The request of a command line, unless its arguments are wrong. -/
def ofArguments? (program : Program) (arguments : List String) : Option Request :=
  match program, arguments with
  | .generator, "generate" :: rest => generate? rest
  | .generator, "analyze" :: rest => analyze? rest
  | .generator, _ => none
  | .decoder, arguments => decode? arguments

end Request

end NetlinkFamily.Command
