import NetlinkFamily.Output.Declaration
import NetlinkFamily.Output.Subject

/-!
The functions of the user-space library that give names to numbers: those of operations, and those
of the entries of each enumeration.
-/

namespace NetlinkFamily.Library

/-- The signature of a function that names the values of an enumeration, or plain integers. -/
def nameSignature (stem parameter : String) (set : Option EnumSet) : C.Signature :=
  let type := (set.bind EnumSet.enumName).getD "int"
  { result := "const char *", name := stem ++ "_str", parameters := [type ++ " " ++ parameter] }

def operationNameSignature (family : Family) : C.Signature :=
  nameSignature (family.name ++ "_op") "op" none

def entryNameSignature (set : EnumSet) : C.Signature :=
  nameSignature set.renderName "value" (some set)

/-- The function that looks a number up in a table of names. A flag is looked up by its index. -/
def lookUpName (stem table parameter : String) (set : Option EnumSet) : List Declaration :=
  let index :=
    if set.any EnumSet.isFlags then [C.Code.assign parameter ("ffs(" ++ parameter ++ ") - 1")]
    else []
  [.function (nameSignature stem parameter set)
      (index ++
        [.line
            ("if (" ++ parameter ++ " < 0 || " ++ parameter ++ " >= (int)MNL_ARRAY_SIZE(" ++
              table ++ "))"),
          .line "return NULL;",
          .line ("return " ++ table ++ "[" ++ parameter ++ "];")]),
    .space]

def nameEntry (index name : String) : C.Code :=
  .line ("[" ++ index ++ "] = \"" ++ name ++ "\",")

def nameTable (table : String) (entries : List C.Code) : List Declaration :=
  [.object ("static const char * const " ++ table ++ "[] =") entries, .space]

/-- The names of all messages that have a reply number. -/
def operationNames (family : Family) : List Declaration :=
  let table := family.name ++ "_op_strmap"
  let entries := family.messages.entries.filterMap fun (name, operation) =>
    operation.replyValue.map fun value =>
      if operation.requestValue = some value then nameEntry operation.enumName name
      else nameEntry (toString value.toNat) name
  nameTable table entries ++ lookUpName (family.name ++ "_op") table "op" none

/-- The names of the entries of an enumeration. -/
def entryNames (set : EnumSet) : List Declaration :=
  let table := set.renderName ++ "_strmap"
  let entries := set.entries.values.map fun entry =>
    nameEntry (toString entry.value.toNat) entry.name
  nameTable table entries ++ lookUpName set.renderName table "value" (some set)

end NetlinkFamily.Library
