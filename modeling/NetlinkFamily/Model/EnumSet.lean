import NetlinkFamily.CName
import NetlinkFamily.Model.Error
import NetlinkFamily.Registry
import NetlinkFamily.Spec.Records

/-!
Enumerations and sets of flags with their values filled in. An entry without a value follows the
entry before it, and an entry of a flags set holds the index of its bit.
-/

namespace NetlinkFamily

structure EnumEntry where
  name : String
  value : UInt64
  doc : Option String
  /-- Whether the value has to be written, since counting up from the entry before misses it. -/
  valueChange : Bool
  cName : String
  deriving DecidableEq, Inhabited

/-- The value an entry stands for in a message: its bit for flags, and zero past the last bit.
Only the low 32 bits of the index are looked at. -/
def EnumEntry.userValue (entry : EnumEntry) (asFlags : Bool) : UInt64 :=
  if asFlags then
    let index := entry.value.toNat % UInt32.size
    if index < 64 then UInt64.ofNat (1 <<< index) else 0
  else entry.value

structure EnumSet where
  name : String
  isFlags : Bool
  renderName : String
  /-- The C type, unless the enumeration has no name of its own. -/
  enumName : Option String
  anonymous : Bool
  valuePrefix : String
  doc : Option String
  header : Option String
  renderMax : Bool
  entries : Registry EnumEntry

namespace EnumSet

/-- The value of an entry: as given, or one more than before, or the start of the count. -/
def entryValue (start : UInt64) (before : Option UInt64) (given : Option UInt64) : UInt64 :=
  match given, before with
  | some value, _ => value
  | none, some previous => previous + 1
  | none, none => start

/-- Whether counting up from the entry before gives a different value. The count starts at zero
and does not wrap. -/
def leavesCount (before : Option UInt64) (value : UInt64) : Bool :=
  match before with
  | some previous => previous.toNat + 1 != value.toNat
  | none => value != 0

/-- The entries in order, each with its value. -/
def numberEntries (valuePrefix : String) (isFlags : Bool) (start : UInt64) :
    Option UInt64 → List Spec.EnumEntry → List EnumEntry
  | _, [] => []
  | before, entry :: rest =>
      let value := entryValue start before entry.value
      { name := entry.name
        value
        doc := entry.doc
        valueChange := isFlags || leavesCount before value
        cName := CName.upper (valuePrefix ++ entry.name) } ::
        numberEntries valuePrefix isFlags start (some value) rest

def ofDefinition (familyName : String) (definition : Spec.Definition) : EnumSet :=
  let renderName := CName.lower (familyName ++ "-" ++ definition.name)
  let enumName :=
    match definition.enumName with
    | .given name => if name.isEmpty then none else some ("enum " ++ CName.lower name)
    | .empty => none
    | .absent => some ("enum " ++ renderName)
  let valuePrefix :=
    definition.namePrefix.getD (familyName ++ "-" ++ definition.name ++ "-")
  let isFlags := definition.kind == .flags
  let entries :=
    numberEntries valuePrefix isFlags (definition.valueStart.getD 0) none definition.entries
  { name := definition.name
    isFlags
    renderName
    enumName
    anonymous := enumName.isNone
    valuePrefix
    doc := definition.doc
    header := definition.header
    renderMax := definition.renderMax
    entries := Registry.ofList (entries.map fun entry => (entry.name, entry)) }

/-- The lowest and the highest value, if the entries fill the whole range between them. -/
def valueRange (set : EnumSet) : Except ModelError (UInt64 × UInt64) :=
  match set.entries.values.map EnumEntry.value with
  | [] => .error (.noncontiguousEnum set.name)
  | first :: rest =>
      let low := rest.foldl min first
      let high := rest.foldl max first
      if high.toNat - low.toNat = rest.length then .ok (low, high)
      else .error (.noncontiguousEnum set.name)

/-- All values of the set combined. The entries of a flags set always count as bits. -/
def mask (set : EnumSet) (asFlags : Bool) : UInt64 :=
  (set.entries.values.map fun entry => entry.userValue (asFlags || set.isFlags)).foldl
    (· ||| ·) 0

def hasDoc (set : EnumSet) : Bool :=
  set.doc.isSome || set.entries.values.any fun entry => entry.doc.isSome

end EnumSet

/-- What a name among the definitions stands for. -/
inductive Constant where
  | enumeration (set : EnumSet)
  | value (definition : Spec.Definition)

namespace Constant

/-- All definitions of a family under their names. -/
def declare (familyName : String) (definitions : List Spec.Definition) : Registry Constant :=
  Registry.ofList (definitions.map fun definition =>
    (definition.name,
      match definition.kind with
      | .const => value definition
      | .enum | .flags => enumeration (EnumSet.ofDefinition familyName definition)))

/-- The enumeration that a name refers to. -/
def lookupEnum (constants : Registry Constant) (name : String) : Except ModelError EnumSet :=
  match constants.get? name with
  | some (enumeration set) => .ok set
  | some (value _) => .error (.notAnEnum name)
  | none => .error (.unknownDefinition name)

end Constant

end NetlinkFamily
