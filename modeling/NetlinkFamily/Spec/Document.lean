import NetlinkFamily.Spec.File
import NetlinkFamily.Spec.Reader
import NetlinkFamily.Text.Blank
import NetlinkFamily.Yaml.Node
import NetlinkFamily.Yaml.Plain

/-!
Specifications as YAML documents: the license in the first line, and the records below. A text may
be written in any notation, but numbers and truth values only as plain scalars. An empty value is
an empty collection.
-/

namespace NetlinkFamily.Spec

open Yaml (Node Plain.kind)

namespace Document

def text : Node → Option String
  | .scalar _ text => some text
  | _ => none

/-- A plain scalar that is empty or a word for nothing stands for no value. -/
def isNull : Node → Bool
  | .scalar true text => text.isEmpty || Yaml.Plain.isNull text
  | _ => false

/-- Unknown fields are passed over, but a known one may not occur twice. -/
def fields (known : List String) : Node → Option (List (String × Node))
  | .mapping entries => do
      let fields ← entries.mapM fun entry => (text entry.1).map fun name => (name, entry.2)
      let names := (fields.map Prod.fst).filter known.contains
      if names.eraseDups.length = names.length then some fields else none
  | .scalar true "" => some []
  | _ => none

/-- The type that a node has of its own, when it stands for one entry of an enumeration. -/
private def ownText : Node → Option (Option String)
  | .scalar false text => some (some text)
  | .scalar true text =>
      match Plain.kind text with
      | .text => some (some text)
      | .null => some none
      | _ => none
  | _ => none

private def ownNumber : Node → Option (Option UInt64)
  | .scalar true text =>
      match Plain.kind text with
      | .int value =>
          if 0 ≤ value && value < UInt64.size then some (some (UInt64.ofNat value.toNat)) else none
      | .null => some none
      | _ => none
  | _ => none

/-- The field that a key of an entry names, by its name or by its place. -/
private def entryKey : Node → Option String
  | .scalar false text => some text
  | .scalar true text =>
      match Plain.kind text with
      | .text => some text
      | .int 0 => some "name"
      | .int 1 => some "value"
      | .int 2 => some "doc"
      | .int value => if value < 0 then none else some ""
      | _ => none
  | _ => none

/-- Whether all integers inside a node fit into 64 bits. -/
private def fitsWords : Node → Bool
  | .scalar plain text => !plain || Plain.kind text != .wideInt
  | .sequence items => items.attach.all fun item => fitsWords item.val
  | .mapping entries =>
      entries.attach.all fun entry => fitsWords entry.val.1 && fitsWords entry.val.2
termination_by node => sizeOf node
decreasing_by
  all_goals simp_wf
  · have bound := List.sizeOf_lt_of_mem item.property
    omega
  · have bound := List.sizeOf_lt_of_mem entry.property
    have inside : sizeOf entry.val.1 < sizeOf entry.val := by
      cases entry.val
      simp only [Prod.mk.sizeOf_spec]
      omega
    omega
  · have bound := List.sizeOf_lt_of_mem entry.property
    have inside : sizeOf entry.val.2 < sizeOf entry.val := by
      cases entry.val
      simp only [Prod.mk.sizeOf_spec]
      omega
    omega

/-- An entry of an enumeration is read by the types that its scalars have of their own. -/
def enumEntry : Node → Option EnumEntry
  | .mapping entries =>
      if fitsWords (.mapping entries) then do
        let fields ← entries.mapM fun entry =>
          (entryKey entry.1).map fun name => (name, entry.2)
        let names := (fields.map Prod.fst).filter ["name", "value", "doc"].contains
        if names.eraseDups.length = names.length then
          let name ← (← fields.lookup "name" |>.bind ownText)
          let value ← ((fields.lookup "value").map ownNumber).getD (some none)
          let doc ← ((fields.lookup "doc").map ownText).getD (some none)
          return .full name value doc
        else none
      else none
  | node => do
      let name ← (← ownText node)
      return .bare name

/-- The values of a YAML document. -/
def source : Source Node where
  text := text
  bool
    | .scalar true text => Yaml.Plain.bool? text
    | _ => none
  unsigned most
    | .scalar true text => Yaml.Plain.unsigned? most text
    | _ => none
  signed least most
    | .scalar true text => Yaml.Plain.signed? least most text
    | _ => none
  isNull := isNull
  list
    | .sequence items => some items
    | .scalar true "" => some []
    | _ => none
  fields := fields
  enumEntry := enumEntry

end Document

/-- The license that the first line of a text names. -/
def licenseOf? (text : String) : Option String :=
  let line := (Text.trimmed (Text.firstLine text)).toList
  if licenseTag.toList.isPrefixOf line then
    some (String.ofList (line.drop licenseTag.length))
  else none

/-- A specification from its text. -/
def File.ofText (text : String) : Except FileError File :=
  match licenseOf? text with
  | none => .error .missingLicense
  | some license =>
      match (Node.ofText? text).bind (readFamily Document.source) with
      | none => .error .malformed
      | some family => .ok { license, family }

end NetlinkFamily.Spec
