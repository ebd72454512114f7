import NetlinkFamily.Output.Library.Parser
import NetlinkFamily.Output.Library.Types

/-!
The functions of the user-space library that perform an operation: a call that waits for one reply,
and a dump that collects a list of replies.
-/

namespace NetlinkFamily.Library

/-- The function that performs an operation in a mode. -/
def callSignature (operation : Operation) (subject : Subject) : C.Signature :=
  let request := subject.request.map fun _ =>
    subject.structType .request false ++ " *" ++ Part.request.parameter
  { result :=
      if subject.reply.isSome then subject.structType .reply false ++ " *" else "int"
    name :=
      operation.renderName ++ if subject.mode = some .dump then "_dump" else ""
    parameters := "struct ynl_sock *ys" :: request.toList }

/-- The number of the reply: by name if the request has the same one. -/
def replyCommand (operation : Operation) : String :=
  match operation.value, operation.replyValue with
  | none, some value => toString value.toNat
  | _, _ => operation.enumName

def start (function : String) (operation : Operation) : C.Code :=
  .assign "nlh" (C.Code.application function ["ys", "ys->family_id", operation.enumName, "1"])

private def nestOf (layout : Layout) : String :=
  "&" ++ layout.renderName ++ "_nest"

/-- The members of the request, if there is one. -/
def putRequest (family : Family) (subject : Subject) : Except ModelError (List C.Code) :=
  match subject.request with
  | none => .ok []
  | some layout => putMembers family layout Part.request.parameter

/-- The policy that a request is checked with before it is sent. -/
def requestPolicy (subject : Subject) : List C.Code :=
  (subject.request.map fun layout => C.Code.assign "ys->req_policy" (nestOf layout)).toList

def failure (body : C.Code) : List C.Code :=
  [.line "if (err < 0)", body]

/-- A call without a reply. -/
def silentCall (operation : Operation) (subject : Subject) (members : List C.Code) :
    List C.Code :=
  List.flatten
    [C.Code.locals ["struct nlmsghdr *nlh;", "int err;"],
      [start "ynl_gemsg_start_req" operation],
      requestPolicy subject,
      [.space],
      members,
      [.space, .assign "err" "ynl_exec(ys, nlh, NULL)"],
      failure (.line "return -1;"),
      [.space, .line "return 0;", .space]]

/-- A call that waits for its reply. -/
def answeredCall (operation : Operation) (subject : Subject) (reply : Layout)
    (members : List C.Code) : List C.Code :=
  List.flatten
    [C.Code.locals
        ["struct nlmsghdr *nlh;", "int err;", subject.structType .reply false ++ " *rsp;",
          "struct ynl_req_state yrs = \x7b .yarg = \x7b .ys = ys, \x7d, \x7d;"],
      [start "ynl_gemsg_start_req" operation],
      requestPolicy subject,
      [.assign "yrs.yarg.rsp_policy" (nestOf reply), .space],
      members,
      [.space,
        .assign "rsp" "calloc(1, sizeof(*rsp))",
        .assign "yrs.yarg.data" "rsp",
        .assign "yrs.cb" (parserName subject false),
        .assign "yrs.rsp_cmd" (replyCommand operation),
        .space,
        .assign "err" "ynl_exec(ys, nlh, &yrs)"],
      failure (.line "goto err_free;"),
      [.space,
        .line "return rsp;",
        .space,
        .line "err_free:",
        .call (releaseName subject .reply) ["rsp"],
        .line "return NULL;"]]

/-- The function that calls an operation. -/
def call (family : Family) (operation : Operation) (subject : Subject) :
    Except ModelError (List Declaration) := do
  let members ← putRequest family subject
  let body :=
    match subject.reply with
    | none => silentCall operation subject members
    | some reply => answeredCall operation subject reply members
  return [.function (callSignature operation subject) body]

/-- The function that dumps an operation. -/
def dump (family : Family) (operation : Operation) (subject : Subject) :
    Except ModelError (List Declaration) :=
  match subject.reply with
  | none => .error (.dumpWithoutReply operation.name)
  | some reply => do
      let members ← putRequest family subject
      let request :=
        if subject.request.isSome then requestPolicy subject ++ [.space] ++ members else []
      return [
        .function (callSignature operation subject)
          (List.flatten
            [[.line "struct ynl_dump_state yds = \x7b\x7d;",
                .line "struct nlmsghdr *nlh;",
                .line "int err;",
                .space,
                .assign "yds.ys" "ys",
                .assign "yds.alloc_sz" ("sizeof(" ++ subject.structType .reply false ++ ")"),
                .assign "yds.cb" (parserName subject true),
                .assign "yds.rsp_cmd" (replyCommand operation),
                .assign "yds.rsp_policy" (nestOf reply),
                .space,
                start "ynl_gemsg_start_dump" operation],
              request,
              [.space, .assign "err" "ynl_exec_dump(ys, nlh, &yds)"],
              failure (.line "goto free_list;"),
              [.space,
                .line "return yds.first;",
                .space,
                .line "free_list:",
                .call (releaseName subject .reply) ["yds.first"],
                .line "return NULL;"]])]

end NetlinkFamily.Library
