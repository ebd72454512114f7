import NetlinkFamily.Spec.Reader
import NetlinkFamily.Text.Json

/-!
The records of a specification as JSON, with the keys that its documents use. Every key is written,
but a name key only if it was given. A record may also be read from a list of its fields in order.
-/

namespace NetlinkFamily.Spec

namespace JsonForm

private def text : Json → Option String
  | .text value => some value
  | _ => none

private def within (least most : Int) : Json → Option Int
  | .number value => if least ≤ value && value ≤ most then some value else none
  | _ => none

private def unsigned (most : Nat) (json : Json) : Option Nat :=
  (within 0 most json).map Int.toNat

private def enumEntry : Json → Option EnumEntry
  | .text name => some (.bare name)
  | .object members => do
      let name ← (members.lookup "name").bind text
      let value ←
        match members.lookup "value" with
        | none | some .null => some none
        | some json => (unsigned (UInt64.size - 1) json).map fun value => some (UInt64.ofNat value)
      let doc ←
        match members.lookup "doc" with
        | none | some .null => some none
        | some json => (text json).map some
      return .full name value doc
  | _ => none

/-- The values of a JSON text. -/
def source : Source Json where
  text := text
  bool
    | .bool value => some value
    | _ => none
  unsigned := unsigned
  signed := within
  isNull
    | .null => true
    | _ => false
  list
    | .array entries => some entries
    | _ => none
  fields known
    | .object members => some members
    | .array entries =>
        if entries.length ≤ known.length then some (known.zip entries) else none
    | _ => none
  enumEntry := enumEntry

end JsonForm

def Definition.ofJson? : Json → Option Definition :=
  readDefinition JsonForm.source

def Family.ofJson? : Json → Option Family :=
  readFamily JsonForm.source

private def nat32 (value : UInt32) : Json := .number value.toNat

private def nat64 (value : UInt64) : Json := .number value.toNat

private def int64 (value : Int64) : Json := .number value.toInt

private def NameKey.members (key : String) : NameKey → List (String × Json)
  | .absent => []
  | .empty => [(key, .null)]
  | .given name => [(key, .text name)]

def EnumEntry.toJson : EnumEntry → Json
  | .bare name => .text name
  | .full name value doc =>
      .object
        [("name", .text name), ("value", .option nat64 value), ("doc", .option .text doc)]

def DefinitionKind.word : DefinitionKind → String
  | .const => "const"
  | .enum => "enum"
  | .flags => "flags"

def KernelPolicy.word : KernelPolicy → String
  | .split => "split"
  | .perOperation => "per-op"
  | .global => "global"

def NumberingModel.word : NumberingModel → String
  | .unified => "unified"
  | .directional => "directional"

def Definition.toJson (definition : Definition) : Json :=
  .object
    (List.flatten
      [[("name", .text definition.name), ("type", .text definition.kind.word),
          ("value", .option int64 definition.value), ("doc", .option .text definition.doc),
          ("header", .option .text definition.header),
          ("entries", .list EnumEntry.toJson definition.entries),
          ("value-start", .option nat64 definition.valueStart),
          ("name-prefix", .option .text definition.namePrefix)],
        definition.enumName.members "enum-name",
        [("render-max", .bool definition.renderMax),
          ("c-define-name", .option .text definition.defineName)]])

def Checks.toJson (checks : Checks) : Json :=
  .object
    [("min", .option int64 checks.min), ("max-len", .option nat64 checks.maxLength),
      ("min-len", .option nat64 checks.minLength),
      ("flags-mask", .option .text checks.flagsMask),
      ("unterminated-ok", .option .bool checks.unterminatedOk)]

def Attribute.toJson (attr : Attribute) : Json :=
  .object
    [("name", .text attr.name), ("type", .option .text attr.kind),
      ("value", .option nat32 attr.value), ("doc", .option .text attr.doc),
      ("checks", .option Checks.toJson attr.checks),
      ("nested-attributes", .option .text attr.nestedAttributes),
      ("multi-attr", .option .bool attr.multi), ("sub-type", .option .text attr.subType),
      ("type-value", .option Json.texts attr.typeValue),
      ("byte-order", .option .text attr.byteOrder), ("enum", .option .text attr.enumRef),
      ("enum-as-flags", .option .bool attr.enumAsFlags),
      ("name-prefix", .option .text attr.namePrefix)]

def AttributeSet.toJson (set : AttributeSet) : Json :=
  .object
    (List.flatten
      [[("name", .text set.name), ("doc", .option .text set.doc),
          ("name-prefix", .option .text set.namePrefix)],
        set.enumName.members "enum-name",
        [("attr-max-name", .option .text set.maxName),
          ("subset-of", .option .text set.subsetOf),
          ("attributes", .list Attribute.toJson set.attributes)]])

def Direction.toJson (direction : Direction) : Json :=
  .object
    [("value", .option nat32 direction.value), ("attributes", .texts direction.attributes)]

def Mode.toJson (mode : Mode) : Json :=
  .object
    [("request", .option Direction.toJson mode.request),
      ("reply", .option Direction.toJson mode.reply), ("pre", .option .text mode.pre),
      ("post", .option .text mode.post)]

def Operation.toJson (operation : Operation) : Json :=
  .object
    [("name", .text operation.name), ("doc", .option .text operation.doc),
      ("attribute-set", .option .text operation.attributeSet),
      ("value", .option nat32 operation.value), ("flags", .texts operation.flags),
      ("dont-validate", .texts operation.dontValidate),
      ("notify", .option .text operation.notify),
      ("event",
        .option (fun attributes => .object [("attributes", .texts attributes)]) operation.event),
      ("mcgrp", .option .text operation.multicastGroup),
      ("do", .option Mode.toJson operation.doMode),
      ("dump", .option Mode.toJson operation.dumpMode)]

def Operations.toJson (operations : Operations) : Json :=
  .object
    (List.flatten
      [[("name-prefix", .option .text operations.namePrefix),
          ("async-prefix", .option .text operations.asyncPrefix),
          ("enum-model", .text operations.numbering.word)],
        operations.enumName.members "enum-name",
        operations.asyncEnum.members "async-enum",
        [("list", .list Operation.toJson operations.list)]])

def MulticastGroup.toJson (group : MulticastGroup) : Json :=
  .object [("name", .text group.name), ("c-define-name", .option .text group.defineName)]

def Family.toJson (family : Family) : Json :=
  .object
    [("name", .text family.name), ("protocol", .option .text family.protocol),
      ("doc", .option .text family.doc), ("version", .option nat32 family.version),
      ("uapi-header", .option .text family.headerName),
      ("c-family-name", .option .text family.familyDefine),
      ("c-version-name", .option .text family.versionDefine),
      ("kernel-policy", .text family.kernelPolicy.word),
      ("max-by-define", .bool family.maxByDefine),
      ("cmd-max-name", .option .text family.commandMaxName),
      ("cmd-cnt-name", .option .text family.commandCountName),
      ("attr-cnt-name", .option .text family.attributeCountName),
      ("definitions", .list Definition.toJson family.definitions),
      ("attribute-sets", .list AttributeSet.toJson family.attributeSets),
      ("operations", family.operations.toJson),
      ("mcast-groups",
        .object [("list", .list MulticastGroup.toJson family.multicastGroups)])]

end NetlinkFamily.Spec
