import NetlinkFamily.Model.Family
import NetlinkFamily.Text.Json

/-!
The resolved model as JSON: root sets, and nested structures in the order of their declaration.
-/

namespace NetlinkFamily

def RootSet.toJson (root : RootSet) : Json :=
  .object [("request", .texts root.request), ("reply", .texts root.reply)]

def Layout.toJson (layout : Layout) : Json :=
  .object
    [("space_name", .text layout.space), ("render_name", .text layout.renderName),
      ("struct_name", .text layout.structName), ("ptr_name", .text layout.pointerName),
      ("nested", .bool layout.nested), ("request", .bool layout.request),
      ("reply", .bool layout.reply), ("attr_list", .texts layout.members),
      ("attr_max", .option .text layout.maxMember), ("inherited", .texts layout.inherited)]

/-- What generation is driven by: the sets in use and the selected operations. -/
def Family.report (family : Family) : Json :=
  .object
    [("family", .text family.name),
      ("root_sets",
        .object (family.rootSets.entries.map fun entry => (entry.1, entry.2.toJson))),
      ("nested_structs", .list Layout.toJson family.nestedSets.values),
      ("ops", .texts (family.operations.map Operation.name)),
      ("ntfs", .texts (family.notifications.map Operation.name))]

end NetlinkFamily
