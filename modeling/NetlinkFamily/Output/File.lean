import NetlinkFamily.Output.Constants
import NetlinkFamily.Output.Kernel
import NetlinkFamily.Output.Library.Files

/-!
Whole generated files: a banner that tells where they come from, includes, and the declarations of
the chosen consumer.
-/

namespace NetlinkFamily

/-- Who the generated code is for. -/
inductive Consumer where
  | user
  | kernel
  /-- Both sides, which share a header of constants. -/
  | shared
  deriving DecidableEq, Inhabited

def Consumer.name : Consumer → String
  | user => "user"
  | kernel => "kernel"
  | shared => "uapi"

structure OutputOptions where
  consumer : Consumer := .user
  /-- Whether the header is generated, rather than the source. -/
  header : Bool := true
  /-- What the user source includes besides. -/
  userHeaders : List String := []
  /-- The patterns of operations that are left out, as they were given. -/
  excludes : List String := []
  /-- The name of the generated file without directories and extension. -/
  fileStem : Option String := none
  /-- The specification as the banner names it. -/
  specPath : String := ""
  deriving DecidableEq, Inhabited

namespace OutputOptions

private def argumentsComment (options : OutputOptions) : List Declaration :=
  let arguments :=
    (options.userHeaders.map fun header => " --user-header " ++ header) ++
      options.excludes.map fun pattern => " --exclude-op " ++ pattern
  if arguments.isEmpty then [] else [.line ("/* YNL-ARG" ++ String.join arguments ++ " */")]

private def licenseLine (options : OutputOptions) (license : String) : Declaration :=
  let text := "SPDX-License-Identifier: " ++ license
  if options.consumer = .shared ∨ options.header then .comment text else .line ("// " ++ text)

def banner (options : OutputOptions) (family : Family) : List Declaration :=
  let part := if options.header then "header" else "source"
  List.flatten
    [[licenseLine options family.license,
        .comment "Do not edit directly, auto-generated from:",
        .line ("/*\t" ++ options.specPath ++ " */"),
        .comment ("YNL-GEN " ++ options.consumer.name ++ " " ++ part)],
      argumentsComment options,
      [.space]]

private def includeSystem (name : String) : Declaration :=
  .line ("#include <" ++ name ++ ">")

private def includeOwn (name : String) : Declaration :=
  .line ("#include \"" ++ name ++ "\"")

private def kernelIncludes (options : OutputOptions) (family : Family) : List Declaration :=
  [includeSystem "net/netlink.h", includeSystem "net/genetlink.h", .space] ++
    (if options.header then []
      else (options.fileStem.map fun stem => includeOwn (stem ++ ".h")).toList ++ [.space]) ++
    [includeSystem ("uapi/" ++ family.headerName)]

private def userIncludes (options : OutputOptions) (family : Family) : List Declaration :=
  [includeSystem "stdlib.h", includeSystem "string.h"] ++
    (if options.header then [includeSystem "linux/types.h"]
      else [includeOwn (family.name ++ "-user.h"), includeOwn "ynl.h"]) ++
    [includeSystem family.headerName]

/-- The includes, at last those of the headers that definitions name. -/
def includes (options : OutputOptions) (family : Family) : List Declaration :=
  (match options.consumer with
    | .kernel => kernelIncludes options family
    | .user | .shared => userIncludes options family) ++
    (family.definitions.filterMap Spec.Definition.header).map includeSystem ++ [.space]

/-- The declarations between the includes and the end of the file. -/
def contents (options : OutputOptions) (family : Family) :
    Except ModelError (List Declaration) :=
  match options.consumer, options.header with
  | .kernel, true => Kernel.header family
  | .kernel, false => Kernel.source family
  | _, true => do
      let declarations ← Library.header family
      return [.line "struct ynl_sock;", .space, Library.familyPrototype family, .space] ++
        declarations
  | _, false => do
      let declarations ← Library.source family
      return List.flatten
        [[includeSystem "libmnl/libmnl.h", includeSystem "linux/genetlink.h", .space],
          options.userHeaders.map includeOwn, [.space], declarations]

private def guarded (options : OutputOptions) (family : Family)
    (declarations : List Declaration) : List Declaration :=
  let guard := "_LINUX_" ++ CName.upper family.name ++ "_GEN_H"
  if options.header then
    [.line ("#ifndef " ++ guard), .line ("#define " ++ guard), .space] ++ declarations ++
      [.line ("#endif /* " ++ guard ++ " */")]
  else declarations

/-- All declarations of a file. Shared constants need numbers that both directions share. -/
def declarations (options : OutputOptions) (family : Family) :
    Except ModelError (List Declaration) :=
  if options.consumer = .shared then
    if family.numbering = .directional then
      .error (.unsupportedNumbering "directional" options.consumer.name)
    else .ok (options.banner family ++ Constants.header family)
  else do
    let contents ← options.contents family
    return options.banner family ++ guarded options family (options.includes family ++ contents)

/-- The text of a generated file. -/
def generate (options : OutputOptions) (family : Family) : Except ModelError String :=
  (options.declarations family).map Declaration.render

end OutputOptions

end NetlinkFamily
