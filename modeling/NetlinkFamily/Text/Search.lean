/-!
Texts inside other texts.
-/

namespace NetlinkFamily.Text

private def containsFrom (part : List Char) : List Char → Bool
  | [] => part.isEmpty
  | c :: rest => part.isPrefixOf (c :: rest) || containsFrom part rest

/-- Whether a text occurs in another one. -/
def contains (text part : String) : Bool :=
  containsFrom part.toList text.toList

end NetlinkFamily.Text
