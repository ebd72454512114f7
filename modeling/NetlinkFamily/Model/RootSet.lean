import NetlinkFamily.Model.Operation
import NetlinkFamily.Model.Scope

/-!
Root sets: the attribute sets that operations use directly, with the attributes that requests and
replies carry.
-/

namespace NetlinkFamily

/-- The attributes used in each direction, sorted and each listed once. -/
structure RootSet where
  request : List String
  reply : List String
  deriving DecidableEq, Inhabited

namespace RootSet

/-- This puts a name in its place in a sorted list, unless it is there. -/
def insertSorted (name : String) : List String → List String
  | [] => [name]
  | first :: rest =>
      if name < first then name :: first :: rest
      else if name = first then first :: rest
      else first :: insertSorted name rest

/-- The sorted union of a sorted list and any other names. -/
def union (names more : List String) : List String :=
  more.foldl (fun sorted name => insertSorted name sorted) names

/-- What one operation uses of its attribute set. -/
def ofOperation (operation : Operation) : RootSet :=
  let both (attributes : OperationMode → Option (List String)) : List String :=
    (attributes .call).getD [] ++ (attributes .dump).getD []
  { request := union [] (both operation.requestAttributes)
    reply := union [] (both operation.replyAttributes ++ operation.event.getD []) }

/-- This adds the use of one operation. A notification reuses what its operation uses. -/
def addOperation (scope : Scope) (roots : Registry RootSet) (operation : Operation) :
    Except ModelError (Registry RootSet) :=
  if operation.notify.isSome then .ok roots
  else
    match operation.attrSet with
    | none => .ok roots
    | some name => do
        let set ← scope.attributeSet name
        let usage := ofOperation operation
        let _ ← (usage.request ++ usage.reply).mapM set.find
        let known := (roots.get? name).getD ⟨[], []⟩
        return roots.insert name
          ⟨union known.request usage.request, union known.reply usage.reply⟩

/-- The root sets of all operations, in the order of their first use. -/
def collect (scope : Scope) (operations : List Operation) :
    Except ModelError (Registry RootSet) :=
  operations.foldlM (addOperation scope) Registry.empty

end RootSet

end NetlinkFamily
