import NetlinkFamily.Model.Nesting
import NetlinkFamily.Pattern.Basic
import NetlinkFamily.Spec.File

/-!
A family with all of its references resolved: numbered messages and attributes, the root sets that
operations use, the sets nested inside them, and what is selected for generation.
-/

namespace NetlinkFamily

/-- Callbacks around calls and dumps, each listed once in the order of first use. -/
structure HookList where
  call : List String := []
  dump : List String := []
  deriving DecidableEq, Inhabited

structure Hooks where
  pre : HookList := {}
  post : HookList := {}
  deriving DecidableEq, Inhabited

/-- One policy for all requests: the attributes of a set that some request carries. -/
structure GlobalPolicy where
  set : String
  attrs : List String
  deriving DecidableEq, Inhabited

structure Family extends Scope where
  cName : String
  license : String
  doc : Option String
  protocol : String
  version : UInt32
  familyKey : String
  versionKey : String
  headerName : String
  kernelPolicy : Spec.KernelPolicy
  numbering : Spec.NumberingModel
  operationPrefix : String
  asyncPrefix : String
  /-- Whether notifications and events have an enumeration of their own. -/
  separateNotifications : Bool
  maxByDefine : Bool
  commandMaxName : Option String
  commandCountName : Option String
  attributeCountName : Option String
  operationsEnumName : Spec.NameKey
  asyncEnumName : Spec.NameKey
  definitions : List Spec.Definition
  /-- Every message, whether it is selected or not. -/
  messages : Registry Operation
  operationNames : List String
  notificationNames : List String
  multicastGroups : List Spec.MulticastGroup
  hooks : Hooks
  rootSets : Registry RootSet
  nestedSets : Registry Layout
  globalPolicy : Option GlobalPolicy

namespace Family

def supportedProtocols : List String :=
  ["genetlink", "genetlink-c", "genetlink-legacy"]

/-- The operations of a registry under the given names. -/
def pick (messages : Registry Operation) (names : List String) : List Operation :=
  names.filterMap messages.get?

/-- The calls and dumps that are selected for generation. -/
def operations (family : Family) : List Operation :=
  pick family.messages family.operationNames

/-- The notifications and events that are selected for generation. -/
def notifications (family : Family) : List Operation :=
  pick family.messages family.notificationNames

def operation (family : Family) (name : String) : Except ModelError Operation :=
  match family.messages.get? name with
  | some operation => .ok operation
  | none => .error (.unknownOperation name)

/-- Whether an operation can be selected as a call or dump. -/
def isRequest (operation : Operation) : Bool :=
  !operation.isReserved && !operation.isAsync && operation.attrSet.isSome

/-- The operations that satisfy `kind` and match no exclusion pattern. -/
def select (messages : Registry Operation) (excludes : List Pattern)
    (kind : Operation → Bool) : List String :=
  (messages.entries.filter fun entry =>
    kind entry.2 && !Pattern.anyMatchesStart excludes entry.1).map Prod.fst

/-- The set that an operation uses: its own, or for a notification that of its target. An
operation that does nothing needs none. -/
def operationSet (scope : Scope) (messages : Registry Operation) (operation : Operation) :
    Except ModelError (Option String) :=
  match operation.attrSet, operation.notify with
  | some name, _ => do
      let _ ← scope.attributeSet name
      return some name
  | none, some target =>
      match messages.get? target with
      | none => .error (.unknownOperation target)
      | some told =>
          match told.attrSet with
          | none => .error (.operationWithoutSet target)
          | some name => .ok (some name)
  | none, none =>
      if operation.isReserved then .ok none else .error (.operationWithoutSet operation.name)

/-- Whether some notification tells about the operation of this name. -/
def isNotifiedAbout (messages : Registry Operation) (name : String) : Bool :=
  messages.values.any fun operation => operation.notify == some name

/-- Every operation that is told about must exist. -/
def checkTargets (messages : Registry Operation) : Except ModelError Unit := do
  for operation in messages.values do
    match operation.notify with
    | none => pure ()
    | some target =>
        if messages.contains target then pure () else throw (.unknownOperation target)

/-- All messages with their sets, constants and notifications looked up. -/
def resolveMessages (scope : Scope) (namePrefix asyncPrefix : String)
    (messages : Registry Operation) : Except ModelError (Registry Operation) := do
  let withSets ← messages.mapM fun operation => do
    let attrSet ← operationSet scope messages operation
    return { operation with attrSet }
  checkTargets messages
  return withSets.map fun operation =>
    ({ operation with
        hasNotification := isNotifiedAbout messages operation.name }.withEnumName
      namePrefix asyncPrefix).withEventReply

private def addOnce (name : Option String) (names : List String) : List String :=
  match name with
  | none => names
  | some name => if names.contains name then names else names ++ [name]

@[simp] theorem mem_addOnce {given : Option String} {names : List String} {name : String} :
    name ∈ addOnce given names ↔ name ∈ names ∨ given = some name := by
  cases given with
  | none => simp [addOnce]
  | some other =>
      by_cases listed : other ∈ names
      · simp only [addOnce, List.contains_iff_mem, listed, if_true, Option.some.injEq]
        exact ⟨.inl, fun either => either.elim id fun same => same ▸ listed⟩
      · simp [addOnce, listed, eq_comm]

/-- The callbacks that the selected operations name. -/
def collectHooks (operations : List Operation) : Hooks :=
  operations.foldl
    (fun hooks operation =>
      let callPre := operation.doMode.bind Spec.Mode.pre
      let callPost := operation.doMode.bind Spec.Mode.post
      let dumpPre := operation.dumpMode.bind Spec.Mode.pre
      let dumpPost := operation.dumpMode.bind Spec.Mode.post
      { pre :=
          { call := addOnce callPre hooks.pre.call
            dump := addOnce dumpPre hooks.pre.dump }
        post :=
          { call := addOnce callPost hooks.post.call
            dump := addOnce dumpPost hooks.post.dump } })
    {}

/-- Whether a call or dump of the operation requests an attribute. -/
def requests (operation : Operation) (attr : String) : Bool :=
  ((operation.requestAttributes .call).getD []).contains attr ||
    ((operation.requestAttributes .dump).getD []).contains attr

/-- The policy that all selected operations share. They must all use the same set. -/
def shareGlobalPolicy (scope : Scope) (operations : List Operation) :
    Except ModelError (Option GlobalPolicy) :=
  match operations.filterMap Operation.attrSet with
  | [] => .ok none
  | name :: others =>
      if others.all (· = name) then do
        let set ← scope.attributeSet name
        return some
          { set := name
            attrs := set.attrs.names.filter fun attr => operations.any (requests · attr) }
      else .error .globalPolicySets

def globalPolicyOf (policy : Spec.KernelPolicy) (scope : Scope) (operations : List Operation) :
    Except ModelError (Option GlobalPolicy) :=
  if policy = .global then shareGlobalPolicy scope operations else .ok none

/-- What is known of a family before its nested sets are looked for. -/
structure Outline extends Scope where
  protocol : String
  operationPrefix : String
  asyncPrefix : String
  /-- The messages as they were numbered. -/
  numbered : Registry Operation
  messages : Registry Operation
  rootSets : Registry RootSet

def Outline.ofSpec (spec : Spec.Family) : Except ModelError Outline := do
  let name := spec.name
  let constants := Constant.declare name spec.definitions
  let declared ← AttributeSet.declare name constants spec.attributeSets
  let numbered ← Operation.declare name spec.operations
  let operationPrefix := CName.upper (spec.operations.namePrefix.getD (name ++ "-cmd-"))
  let asyncPrefix := (spec.operations.asyncPrefix.map CName.upper).getD operationPrefix
  let protocol := spec.protocol.getD "genetlink"
  if !supportedProtocols.contains protocol then throw (.unsupportedProtocol protocol)
  let sets ← declared.mapM (AttributeSet.resolve constants)
  let scope : Scope := { name, constants, sets }
  let messages ← resolveMessages scope operationPrefix asyncPrefix numbered
  let rootSets ← RootSet.collect scope messages.values
  return { toScope := scope, protocol, operationPrefix, asyncPrefix, numbered, messages, rootSets }

/-- This builds and resolves a family. Operations that match an exclusion pattern from the start
of their name are not selected. -/
def ofSpec (file : Spec.File) (excludes : List Pattern) : Except ModelError Family := do
  let spec := file.family
  let outline ← Outline.ofSpec spec
  let nestedSets ← Nesting.resolve outline.toScope outline.rootSets
  let operationNames := select outline.numbered excludes isRequest
  let selected := pick outline.messages operationNames
  let globalPolicy ← globalPolicyOf spec.kernelPolicy outline.toScope selected
  return {
    toScope := outline.toScope
    cName := CName.lower spec.name
    license := file.license
    doc := spec.doc
    protocol := outline.protocol
    version := spec.version.getD 1
    familyKey := CName.upper (spec.familyDefine.getD (spec.name ++ "_FAMILY_NAME"))
    versionKey := CName.upper (spec.versionDefine.getD (spec.name ++ "_FAMILY_VERSION"))
    headerName := spec.headerName.getD ("linux/" ++ spec.name ++ ".h")
    kernelPolicy := spec.kernelPolicy
    numbering := spec.operations.numbering
    operationPrefix := outline.operationPrefix
    asyncPrefix := outline.asyncPrefix
    separateNotifications := spec.operations.asyncPrefix.isSome
    maxByDefine := spec.maxByDefine
    commandMaxName := spec.commandMaxName
    commandCountName := spec.commandCountName
    attributeCountName := spec.attributeCountName
    operationsEnumName := spec.operations.enumName
    asyncEnumName := spec.operations.asyncEnum
    definitions := spec.definitions
    messages := outline.messages
    operationNames
    notificationNames := select outline.numbered excludes Operation.isAsync
    multicastGroups := spec.multicastGroups
    hooks := collectHooks selected
    rootSets := outline.rootSets
    nestedSets
    globalPolicy }

end Family

end NetlinkFamily
