import NetlinkFamily.C.Code
import NetlinkFamily.Model.Attribute

/-!
The code that releases the memory of a member.
-/

namespace NetlinkFamily.Attribute

/-- Whether the member is an array of structures. -/
def holdsNests (attr : Attribute) : Bool :=
  if attr.multi then attr.kind == .nest
  else attr.kind == .arrayNest && (attr.subType.isNone || attr.subType == some "nest")

/-- Whether a loop releases the elements one by one. -/
def freesInLoop (attr : Attribute) : Bool :=
  attr.holdsNests

/-- This releases a member of the structure that `holder` points to, through the path `inner`. -/
def free (attr : Attribute) (holder inner : String) : Except ModelError (List C.Code) :=
  let place := holder ++ "->" ++ inner ++ attr.cName
  if attr.holdsNests then do
    let nested ← attr.nestedSet
    return [
      .line ("for (i = 0; i < " ++ holder ++ "->" ++ inner ++ "n_" ++ attr.cName ++ "; i++)"),
      .call (nested.renderName ++ "_free") ["&" ++ place ++ "[i]"],
      .call "free" [place]]
  else if attr.isCounted then .ok [.call "free" [place]]
  else
    match attr.kind with
    | .nest | .nestTypeValue => do
        let nested ← attr.nestedSet
        return [.call (nested.renderName ++ "_free") ["&" ++ place]]
    | .text | .binary => .ok [.call "free" [place]]
    | _ => .ok []

end NetlinkFamily.Attribute
