import NetlinkFamily.Model.Family
import NetlinkFamily.Output.Declaration

/-!
The header of constants that both sides of a family share: its name and version, its definitions,
and the numbers of attributes, operations and multicast groups. A value is written only where
counting up from the enumerator before would miss it.
-/

namespace NetlinkFamily.Constants

/-- The keyword of an enumeration with its name: the given one, or else one made from `standard`. -/
def enumHeader (family : Family) (given : Spec.NameKey) (standard : Option String) : String :=
  match given, standard with
  | .given name, _ => if name.isEmpty then "enum" else "enum " ++ CName.lower name
  | .empty, _ | .absent, none => "enum"
  | .absent, some name => "enum " ++ family.name ++ "_" ++ CName.lower name

/-- The enumerators of named numbers. A number that follows the one before is not written. -/
def numbered (next : Nat) : List (String × Nat) → List Enumerator
  | [] => []
  | (name, value) :: rest =>
      { name, value := if value = next then .implicit else .number value } ::
        numbered (value + 1) rest

/-- An enumerator for the number of entries follows the others, and the greatest number is one
less. The latter may be a macro behind the enumeration. -/
def withCount (family : Family) (enumeration : Enumeration) (countName maxName : String) :
    List Declaration :=
  let greatest : Enumerator := { name := maxName, value := .below countName }
  let last : List Enumerator :=
    if family.maxByDefine then [{ name := countName }] else [{ name := countName }, greatest]
  let define : List Declaration :=
    if family.maxByDefine then
      [.line ("#define " ++ maxName ++ " (" ++ countName ++ " - 1)")]
    else []
  [.enumeration { enumeration with last, lastComma := false }] ++ define ++ [.space]

/-- The description of an enumeration and of its entries. -/
def description (set : EnumSet) : List String :=
  if set.hasDoc then
    let title := set.enumName.getD set.renderName
    let head := title ++ (set.doc.map fun doc => " - " ++ doc).getD ""
    let entries := set.entries.values.filterMap fun entry =>
      entry.doc.map fun doc => "@" ++ entry.cName ++ ": " ++ doc
    ["/**"] ++ (head :: entries).flatMap (C.commentLines · true) ++ [" */"]
  else []

/-- The enumerators that bound an enumeration: the mask of all flags, or the greatest value. -/
def bounds (set : EnumSet) : List Enumerator :=
  if !set.renderMax then []
  else if set.isFlags then
    [{ name := CName.upper (set.valuePrefix ++ "mask")
       value := .number (set.mask false).toNat }]
  else
    let name := CName.upper (set.valuePrefix ++ "max")
    [{ name := "__" ++ name }, { name, value := .below ("__" ++ name) }]

/-- The enumeration of a definition. -/
def enumeration (family : Family) (definition : Spec.Definition) (set : EnumSet) : Enumeration :=
  { header := enumHeader family definition.enumName (some definition.name)
    enumerators := set.entries.values.map fun entry =>
      { name := entry.cName
        value :=
          if entry.valueChange then .number (entry.userValue set.isFlags).toNat else .implicit }
    remark := some "/* private: */"
    last := bounds set
    lastComma := set.isFlags }

/-- The macro of a constant. -/
def constant (family : Family) (definition : Spec.Definition) : String × C.DefineValue :=
  (CName.upper (definition.defineName.getD (family.name ++ "-" ++ definition.name)),
    .number ((definition.value.map Int64.toInt).getD 0))

/-- The definitions in order. The macros of constants that follow one another are aligned. -/
def definitionsFrom (family : Family) (constants : List (String × C.DefineValue)) :
    List Spec.Definition → List Declaration
  | [] => if constants.isEmpty then [] else [.defines constants, .space]
  | definition :: rest =>
      match definition.kind with
      | .const => definitionsFrom family (constants ++ [constant family definition]) rest
      | .enum | .flags =>
          let own : List Declaration :=
            match family.enumSet? definition.name with
            | none => []
            | some set =>
                (description set).map .line ++
                  [.enumeration (enumeration family definition set), .space]
          [.defines constants, .space] ++ own ++ definitionsFrom family [] rest

/-- The enumeration of the attributes of a set that is not a subset. -/
def attributes (family : Family) (set : AttributeSet) : List Declaration :=
  if set.subsetOf.isSome then []
  else
    let enumerators := numbered 0 (set.attrs.values.map fun attr =>
      (attr.enumName, attr.value.toNat))
    let countName :=
      (family.attributeCountName.map CName.upper).getD ("__" ++ set.namePrefix ++ "MAX")
    withCount family { header := enumHeader family set.enumName none, enumerators } countName
      set.maxName

/-- The messages with their numbers. One without a number takes the next one. -/
def numberedMessages (next : Nat) : List Operation → List (String × Nat)
  | [] => []
  | operation :: rest =>
      let value := ((operation.value.or operation.requestValue).map UInt32.toNat).getD next
      (operation.enumName, value) :: numberedMessages (value + 1) rest

/-- The enumeration of the messages, and one of the notifications if they are kept apart. -/
def commands (family : Family) : List Declaration :=
  let listed :=
    family.messages.values.filter fun operation =>
      !(family.separateNotifications && operation.isAsync)
  let maxName := CName.upper (family.commandMaxName.getD (family.operationPrefix ++ "MAX"))
  let countName :=
    CName.upper (family.commandCountName.getD ("__" ++ family.operationPrefix ++ "MAX"))
  let asynchronous :=
    (family.messages.values.filter Operation.isAsync).map fun operation : Operation =>
      ({ name := operation.enumName
         value :=
          match operation.specValue with
          | some value => .number value.toNat
          | none => .implicit } : Enumerator)
  withCount family
      { header := enumHeader family family.operationsEnumName none
        enumerators := numbered 0 (numberedMessages 0 listed) }
      countName maxName ++
    if family.separateNotifications then
      [.enumeration
          { header := enumHeader family family.asyncEnumName none
            enumerators := asynchronous },
        .space]
    else []

def groups (family : Family) : List Declaration :=
  let names := family.multicastGroups.map fun group =>
    (CName.upper (group.defineName.getD (family.name ++ "-mcgrp-" ++ group.name)),
      C.DefineValue.text group.name)
  if names.isEmpty then [] else [.defines names, .space]

/-- The header of constants. -/
def header (family : Family) : List Declaration :=
  let guard := "_UAPI_LINUX_" ++ CName.upper family.name ++ "_H"
  List.flatten
    [[.line ("#ifndef " ++ guard),
        .line ("#define " ++ guard),
        .space,
        .defines
          [(family.familyKey, .text family.name),
            (family.versionKey, .number family.version.toNat)],
        .space],
      definitionsFrom family [] family.definitions,
      family.sets.values.flatMap (attributes family),
      commands family,
      [.space],
      groups family,
      [.line ("#endif /* " ++ guard ++ " */")]]

end NetlinkFamily.Constants
