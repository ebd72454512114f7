import NetlinkFamily.Output.Declaration
import NetlinkFamily.Output.Subject

/-!
The header and the source of the kernel side of a family: policy tables, the table of operations,
multicast groups and the description of the family.
-/

namespace NetlinkFamily.Kernel

/-- Whether the description of the family is generated too. -/
def describesFamily (family : Family) : Bool :=
  family.protocol == "genetlink"

/-- Whether the policies of operations are private to the source. -/
def hidesPolicies (family : Family) : Bool :=
  family.kernelPolicy == .split || describesFamily family

/-- The table of a layout without its entries. -/
def tableOf (family : Family) (storage stem : String) (layout : Layout) :
    Except ModelError PolicyTable :=
  match layout.maxAttribute family.toScope with
  | none => .error (.emptyPolicy layout.space)
  | some attr => .ok { storage, stem, bound := attr.enumName }

/-- The entry of an attribute, unless it never gets one. -/
def policyEntry (family : Family) (attr : Attribute) :
    Except ModelError (Option (String × WirePolicy)) := do
  let policy ← attr.wirePolicy family.constants
  return policy.map fun policy => (attr.enumName, policy)

/-- The table of a layout with an entry for each of its attributes. -/
def filledTable (family : Family) (storage stem : String) (layout : Layout) :
    Except ModelError (List Declaration) := do
  let table ← tableOf family storage stem layout
  let entries ← (layout.attributes family.toScope).mapM (policyEntry family)
  return [.policy { table with entries := entries.filterMap id }, .space]

/-- The declaration of a table that other sources may use. -/
def sharedTable (family : Family) (stem : String) (layout : Layout) :
    Except ModelError Declaration := do
  let table ← tableOf family "extern " stem layout
  return .line (table.declarator ++ ";")

/-- What the name of the policy of a request starts with. -/
def policyStem (operation : Operation) (mode : OperationMode) : String :=
  if operation.dualPolicy then operation.renderName ++ "_" ++ mode.name
  else operation.renderName

/-- The nested sets that requests use, sorted by name. -/
def requestedNests (family : Family) : List Layout :=
  let used := family.nestedSets.entries.filter fun entry => entry.2.request
  (used.mergeSort fun first second => !(second.1 < first.1)).map Prod.snd

def nestsComment (family : Family) : List Declaration :=
  if (requestedNests family).isEmpty then [] else [.comment "Common nested types"]

/-- The layout that all requests share, if the family asks for one. -/
def globalLayout (family : Family) : Except ModelError (Option Layout) :=
  family.globalPolicy.mapM fun shared => Layout.ofList family.toScope shared.set shared.attrs

def globalSection (family : Family)
    (table : Layout → Except ModelError (List Declaration)) :
    Except ModelError (List Declaration) :=
  if family.kernelPolicy = .global then do
    let tables ←
      match ← globalLayout family with
      | none => pure []
      | some layout => table layout
    return [.comment ("Global operation policy for " ++ family.name)] ++ tables ++ [.space]
  else .ok []

/-- The policies of the operations, if they are not shared by all. -/
def operationSection (family : Family)
    (policies : Operation → Except ModelError (List Declaration)) :
    Except ModelError (List Declaration) :=
  if family.kernelPolicy = .global then .ok []
  else (family.operations.mapM policies).map List.flatten

/-- The C name of the handler of an operation in a mode. -/
def handler (family : Family) (operation : Operation) (mode : OperationMode) : String :=
  CName.lower (family.name ++ "-nl-" ++ operation.name ++ "-" ++ mode.name ++ "it")

/-- The modes in which an operation can be called, in order. -/
def callModes (operation : Operation) : List (OperationMode × Spec.Mode) :=
  (operation.doMode.map fun mode => (.call, mode)).toList ++
    (operation.dumpMode.map fun mode => (.dump, mode)).toList

/-- The type of the entries in the table of operations. -/
def tableType (family : Family) : String :=
  match family.kernelPolicy with
  | .global => "genl_small_ops"
  | .perOperation => "genl_ops"
  | .split => "genl_split_ops"

/-- The number of entries in the table of operations. -/
def entryCount (family : Family) : Nat :=
  if family.kernelPolicy = .split then
    (family.operations.flatMap callModes).length
  else family.operations.length

def tableComment (family : Family) : Declaration :=
  .comment ("Ops table for " ++ family.name)

/-- The type and name of the table of operations. It is private if the family is described here. -/
def tableDeclarator (family : Family) : String :=
  let hidden := describesFamily family
  (if hidden then "static const" else "const") ++ " struct " ++ tableType family ++ " " ++
    family.name ++ "_nl_ops[" ++ (if hidden then "" else toString (entryCount family)) ++ "]"

def joinedFlags (start : String) (flags : List String) : String :=
  " | ".intercalate (flags.map fun flag => CName.upper (start ++ flag))

/-- A member for a list of flags, if there are any. -/
def flagMember (name start : String) (flags : List String) : List (String × String) :=
  if flags.isEmpty then [] else [(name, joinedFlags start flags)]

/-- The members that name the policy of a request and its greatest attribute. -/
def policyMembers (family : Family) (operation : Operation) (symbol : String)
    (attributes : List String) : Except ModelError (List (String × String)) :=
  match operation.attrSet with
  | none => .ok []
  | some set => do
      let layout ← Layout.ofList family.toScope set attributes
      match layout.maxAttribute family.toScope with
      | none => throw (.emptyPolicy operation.name)
      | some attr => return [("policy", CName.lower symbol), ("maxattr", attr.enumName)]

/-- The entry of an operation in a table that has one for each operation. -/
def operationEntry (family : Family) (operation : Operation) :
    Except ModelError (List (String × String)) := do
  let policy ←
    match family.kernelPolicy, operation.requestAttributes .call with
    | .perOperation, some attributes =>
        policyMembers family operation (family.name ++ "-" ++ operation.name ++ "-nl-policy")
          attributes
    | _, _ => pure []
  return List.flatten
    [[("cmd", operation.enumName)],
      flagMember "validate" "genl-dont-validate-" operation.dontValidate,
      (callModes operation).map fun (mode, _) =>
        (mode.name ++ "it", handler family operation mode),
      policy,
      flagMember "flags" "genl-" operation.flags]

/-- Strict checks that are left out make sense for the matching mode only. -/
def leftOutChecks (operation : Operation) (mode : OperationMode) : List String :=
  operation.dontValidate.filter fun flag =>
    match mode with
    | .call => flag != "dump" && flag != "dump-strict"
    | _ => flag != "strict"

/-- The members that are called before and after the handler of a mode. -/
def callbackNames : OperationMode → String × String
  | .dump => ("start", "done")
  | _ => ("pre_doit", "post_doit")

def callback (name : String) (function : Option String) : List (String × String) :=
  (function.map fun function => (name, CName.lower function)).toList

/-- The entry of one mode of an operation in a table that has one for each mode. -/
def modeEntry (family : Family) (operation : Operation) (mode : OperationMode)
    (spec : Spec.Mode) : Except ModelError (List (String × String)) := do
  let (before, after) := callbackNames mode
  let policy ←
    match spec.request with
    | none => pure []
    | some request =>
        let modeName := if operation.dualPolicy then "-" ++ mode.name else ""
        policyMembers family operation
          (family.name ++ "-" ++ operation.name ++ modeName ++ "-nl-policy") request.attributes
  return List.flatten
    [[("cmd", operation.enumName)],
      flagMember "validate" "genl-dont-validate-" (leftOutChecks operation mode),
      callback before spec.pre,
      [(mode.name ++ "it", handler family operation mode)],
      callback after spec.post,
      policy,
      [("flags", joinedFlags "genl-" (operation.flags ++ ["cmd-cap-" ++ mode.name]))]]

/-- The entries of the table of operations. -/
def operationEntries (family : Family) :
    Except ModelError (List (List (String × String))) :=
  match family.kernelPolicy with
  | .global | .perOperation => family.operations.mapM (operationEntry family)
  | .split => do
      let entries ← family.operations.mapM fun operation =>
        (callModes operation).mapM fun (mode, spec) => modeEntry family operation mode spec
      return entries.flatten

/-- A function that another source defines. -/
def prototype (result name : String) (parameters : List String) : Declaration :=
  .prototype none { result, name, parameters }

/-- The prototypes of the callbacks around calls and dumps. -/
def hookPrototypes (family : Family) : List Declaration :=
  let callParameters :=
    ["const struct genl_split_ops *ops", "struct sk_buff *skb", "struct genl_info *info"]
  let dumpParameters := ["struct netlink_callback *cb"]
  let hooks (result : String) (parameters names : List String) : List Declaration :=
    names.map fun name => prototype result (CName.lower name) parameters
  hooks "int" callParameters family.hooks.pre.call ++
    hooks "void" callParameters family.hooks.post.call ++
    hooks "int" dumpParameters family.hooks.pre.dump ++
    hooks "int" dumpParameters family.hooks.post.dump

/-- The prototypes of the handlers of an operation. -/
def handlerPrototypes (family : Family) (operation : Operation) : List Declaration :=
  (callModes operation).map fun (mode, _) =>
    let context :=
      if mode = .dump then "struct netlink_callback *cb" else "struct genl_info *info"
    prototype "int" (handler family operation mode) ["struct sk_buff *skb", context]

/-- What the header declares for the table of operations and the functions in it. -/
def tableHeader (family : Family) : List Declaration :=
  List.flatten
    [if describesFamily family then []
      else [tableComment family, .line ("extern " ++ tableDeclarator family ++ ";")],
      [.space],
      hookPrototypes family,
      [.space],
      family.operations.flatMap (handlerPrototypes family),
      [.space]]

private def groupName (family : Family) (group : Spec.MulticastGroup) : String :=
  CName.upper (family.name ++ "-nlgrp-" ++ group.name)

def groupHeader (family : Family) : List Declaration :=
  if family.multicastGroups.isEmpty then []
  else
    [.enumeration
      { header := "enum"
        enumerators :=
          family.multicastGroups.map fun group => { name := groupName family group } },
      .space]

def groupSource (family : Family) : List Declaration :=
  if family.multicastGroups.isEmpty then []
  else
    [.object ("static const struct genl_multicast_group " ++ family.name ++ "_nl_mcgrps[] =")
      (family.multicastGroups.map fun group =>
        .line ("[" ++ groupName family group ++ "] = \x7b \"" ++ group.name ++ "\", \x7d,")),
      .space]

def familyHeader (family : Family) : List Declaration :=
  if describesFamily family then
    [.line ("extern struct genl_family " ++ family.name ++ "_nl_family;"), .space]
  else []

def familySource (family : Family) : List Declaration :=
  let table (field size : String) : List String :=
    [field ++ family.name ++ "_nl_ops,", size ++ "ARRAY_SIZE(" ++ family.name ++ "_nl_ops),"]
  let operations :=
    match family.kernelPolicy with
    | .perOperation => table ".ops\t\t= " ".n_ops\t\t= "
    | .split => table ".split_ops\t= " ".n_split_ops\t= "
    | .global => []
  let groups :=
    if family.multicastGroups.isEmpty then []
    else
      [".mcgrps\t\t= " ++ family.name ++ "_nl_mcgrps,",
        ".n_mcgrps\t= ARRAY_SIZE(" ++ family.name ++ "_nl_mcgrps),"]
  if describesFamily family then
    [.object ("struct genl_family " ++ family.name ++ "_nl_family __ro_after_init =")
      (([".name\t\t= " ++ family.familyKey ++ ",",
          ".version\t= " ++ family.versionKey ++ ",",
          ".netnsok\t= true,",
          ".parallel_ops\t= true,",
          ".module\t\t= THIS_MODULE,"] ++ operations ++ groups).map .line)]
  else []

/-- The declaration of the policy of a call. -/
def callPolicyHeader (family : Family) (operation : Operation) :
    Except ModelError (List Declaration) :=
  if operation.doMode.isNone || operation.event.isSome then .ok []
  else do
    let subject ← Subject.ofOperation family operation .call
    match subject.request with
    | none => return []
    | some layout =>
        if hidesPolicies family then return [.space]
        else
          let table ← sharedTable family (policyStem operation .call) layout
          return [table, .space]

/-- The policy of each request of an operation. -/
def requestPolicies (family : Family) (operation : Operation) :
    Except ModelError (List Declaration) := do
  let tables ← ([.call, .dump].filter operation.hasRequest).mapM fun mode => do
    let subject ← Subject.ofOperation family operation mode
    let storage := if hidesPolicies family then "static " else ""
    let table ←
      match subject.request with
      | none => pure []
      | some layout => filledTable family storage (policyStem operation mode) layout
    return [.comment (operation.enumName ++ " - " ++ mode.name)] ++ table ++ [.space]
  return tables.flatten

/-- The declarations that other sources of the kernel use. -/
def header (family : Family) : Except ModelError (List Declaration) := do
  let nests ← (requestedNests family).mapM fun layout =>
    sharedTable family layout.renderName layout
  let shared ← globalSection family fun layout => do
    let table ← sharedTable family layout.renderName layout
    return [table]
  let policies ← operationSection family (callPolicyHeader family)
  return List.flatten
    [nestsComment family, nests, [.space], shared, policies, tableHeader family,
      groupHeader family, familyHeader family]

/-- The tables of the kernel side. -/
def source (family : Family) : Except ModelError (List Declaration) := do
  let nests ← (requestedNests family).mapM fun layout =>
    filledTable family "" layout.renderName layout
  let shared ← globalSection family fun layout => filledTable family "" layout.renderName layout
  let policies ← operationSection family (requestPolicies family)
  let entries ← operationEntries family
  return List.flatten
    [nestsComment family, nests.flatten, [.space], shared, policies,
      [tableComment family,
        .operations { declarator := tableDeclarator family, entries }, .space],
      groupSource family, familySource family]

end NetlinkFamily.Kernel
