import NetlinkFamily.Pattern.CharSet

/-!
Character properties that a pattern may name: the general categories, alone or in groups.
-/

namespace NetlinkFamily.Pattern

open Text (Category)

private def categoryNames : List (String × List Category) :=
  [("l", [.lu, .ll, .lt, .lm, .lo]), ("letter", [.lu, .ll, .lt, .lm, .lo]),
    ("lc", [.lu, .ll, .lt]), ("casedletter", [.lu, .ll, .lt]),
    ("lu", [.lu]), ("uppercaseletter", [.lu]), ("ll", [.ll]), ("lowercaseletter", [.ll]),
    ("lt", [.lt]), ("titlecaseletter", [.lt]), ("lm", [.lm]), ("modifierletter", [.lm]),
    ("lo", [.lo]), ("otherletter", [.lo]),
    ("m", [.mn, .mc, .me]), ("mark", [.mn, .mc, .me]), ("combiningmark", [.mn, .mc, .me]),
    ("mn", [.mn]), ("nonspacingmark", [.mn]), ("mc", [.mc]), ("spacingmark", [.mc]),
    ("me", [.me]), ("enclosingmark", [.me]),
    ("n", [.nd, .nl, .no]), ("number", [.nd, .nl, .no]), ("nd", [.nd]), ("decimalnumber", [.nd]),
    ("digit", [.nd]), ("nl", [.nl]), ("letternumber", [.nl]), ("no", [.no]),
    ("othernumber", [.no]),
    ("p", [.pc, .pd, .ps, .pe, .pi, .pf, .po]),
    ("punctuation", [.pc, .pd, .ps, .pe, .pi, .pf, .po]),
    ("punct", [.pc, .pd, .ps, .pe, .pi, .pf, .po]),
    ("pc", [.pc]), ("connectorpunctuation", [.pc]), ("pd", [.pd]), ("dashpunctuation", [.pd]),
    ("ps", [.ps]), ("openpunctuation", [.ps]), ("pe", [.pe]), ("closepunctuation", [.pe]),
    ("pi", [.pi]), ("initialpunctuation", [.pi]), ("pf", [.pf]), ("finalpunctuation", [.pf]),
    ("po", [.po]), ("otherpunctuation", [.po]),
    ("s", [.sm, .sc, .sk, .so]), ("symbol", [.sm, .sc, .sk, .so]), ("sm", [.sm]),
    ("mathsymbol", [.sm]), ("sc", [.sc]), ("currencysymbol", [.sc]), ("sk", [.sk]),
    ("modifiersymbol", [.sk]), ("so", [.so]), ("othersymbol", [.so]),
    ("z", [.zs, .zl, .zp]), ("separator", [.zs, .zl, .zp]), ("zs", [.zs]),
    ("spaceseparator", [.zs]), ("zl", [.zl]), ("lineseparator", [.zl]), ("zp", [.zp]),
    ("paragraphseparator", [.zp]),
    ("c", [.cc, .cf, .cs, .co, .cn]), ("other", [.cc, .cf, .cs, .co, .cn]), ("cc", [.cc]),
    ("control", [.cc]), ("cntrl", [.cc]), ("cf", [.cf]), ("format", [.cf]), ("cs", [.cs]),
    ("surrogate", [.cs]), ("co", [.co]), ("privateuse", [.co]), ("cn", [.cn]),
    ("unassigned", [.cn])]

/-- Names of properties are compared without case, blanks, hyphens and underscores. -/
def propertyKey (name : List Char) : String :=
  let kept := (name.filter fun c => c != ' ' && c != '-' && c != '_').map Char.toLower
  String.ofList
    (match kept with
    | 'i' :: 's' :: rest => if rest.isEmpty then kept else rest
    | _ => kept)

private def bySymbol (key : String) : Option CharSet :=
  match categoryNames.lookup key with
  | some members => some (.categories members)
  | none =>
      match key with
      | "any" => some .all
      | "assigned" => some (.complement (.categories [.cn]))
      | "ascii" => some (.range '\x00' '\x7f')
      | _ => none

private def splitAtChar (separator : Char) (chars : List Char) : Option (List Char × List Char) :=
  match chars.span (· != separator) with
  | (_, []) => none
  | (name, _ :: value) => some (name, value)

private def valued (name value : List Char) : Option CharSet :=
  if ["gc", "generalcategory"].contains (propertyKey name) then bySymbol (propertyKey value)
  else none

/-- The set that stands between the braces of a property. -/
def property? (chars : List Char) : Option CharSet :=
  match splitAtChar '!' chars with
  | some (name, '=' :: value) => (valued name value).map .complement
  | _ =>
      match splitAtChar ':' chars with
      | some (name, value) => valued name value
      | none =>
          match splitAtChar '=' chars with
          | some (name, value) => valued name value
          | none => bySymbol (propertyKey chars)

end NetlinkFamily.Pattern
