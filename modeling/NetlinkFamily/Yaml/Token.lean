import NetlinkFamily.Yaml.Scalar

/-!
The tokens of a document. Block collections are opened where indentation grows and closed where it
shrinks. A key is recognised only at the colon behind it, so its tokens are put in front of what
was read since the place where the key may have begun.
-/

namespace NetlinkFamily.Yaml

inductive Token where
  | documentStart
  | documentEnd
  | blockSequence
  | blockMapping
  | blockEnd
  | sequenceStart
  | sequenceEnd
  | mappingStart
  | mappingEnd
  | dash
  | comma
  | key
  | value
  | scalar (plain : Bool) (text : String)
  deriving DecidableEq, Inhabited

/-- A place where a key may have begun. -/
structure KeyPlace where
  /-- Whether the indentation demands a key here. -/
  required : Bool
  /-- The number of tokens before it. -/
  tokens : Nat
  line : Nat
  column : Nat
  index : Nat

/-- The state of the scan. `keys` holds a place for every flow collection around the cursor, and
one for the block around them all, the innermost first. -/
structure Scan where
  cursor : Cursor
  tokens : Array Token := #[]
  indent : Option Nat := none
  outerIndents : List (Option Nat) := []
  flowLevel : Nat := 0
  keys : List (Option KeyPlace) := [none]
  keyAllowed : Bool := true

namespace Scan

def emit (scan : Scan) (token : Token) : Scan :=
  { scan with tokens := scan.tokens.push token }

/-- This emits a token of `count` characters. -/
private def take (scan : Scan) (token : Token) (count : Nat) : Scan :=
  { scan with tokens := scan.tokens.push token, cursor := scan.cursor.skip count }

private def insideIndent (scan : Scan) (column : Nat) : Bool :=
  match scan.indent with
  | none => true
  | some indent => indent < column

/-- A block collection is opened when the indentation grows to `column`. Its token goes behind the
first `place` tokens. -/
private def rollIndent (scan : Scan) (column place : Nat) (token : Token) : Scan :=
  if scan.flowLevel == 0 && scan.insideIndent column then
    { scan with
      indent := some column
      outerIndents := scan.indent :: scan.outerIndents
      tokens := scan.tokens.insertIdxIfInBounds place token }
  else scan

/-- Block collections are closed down to `column`, or all of them when there is none. -/
private def unrollFrom (column : Option Nat) : List (Option Nat) → Scan → Scan
  | [], scan => scan
  | outer :: rest, scan =>
      let deeper :=
        match scan.indent, column with
        | none, _ => false
        | some _, none => true
        | some indent, some column => column < indent
      if deeper then
        unrollFrom column rest
          { scan with
            indent := outer
            outerIndents := rest
            tokens := scan.tokens.push .blockEnd }
      else scan

private def unrollIndent (scan : Scan) (column : Option Nat) : Scan :=
  if scan.flowLevel == 0 then unrollFrom column scan.outerIndents scan else scan

/-- A place for a key is given up. That fails where the indentation demands a key. -/
private def dropKey (scan : Scan) : Option Scan :=
  match scan.keys with
  | some place :: rest =>
      if place.required then none else some { scan with keys := none :: rest }
  | _ => some scan

private def saveKey (scan : Scan) : Option Scan :=
  if scan.keyAllowed then do
    let scan ← scan.dropKey
    let place : KeyPlace :=
      { required := scan.flowLevel == 0 && scan.indent == some scan.cursor.column
        tokens := scan.tokens.size
        line := scan.cursor.line
        column := scan.cursor.column
        index := scan.cursor.index }
    return { scan with keys := some place :: scan.keys.drop 1 }
  else some scan

/-- A key has to end on its line and within 1024 characters. -/
private def dropStaleKeys (scan : Scan) : Option Scan := do
  let keys ← scan.keys.mapM fun
    | none => some none
    | some place =>
        if place.line < scan.cursor.line || place.index + 1024 < scan.cursor.index then
          if place.required then none else some none
        else some (some place)
  return { scan with keys }

/-- This passes blanks, comments and line breaks. A tab may not stand where a key could begin. -/
private def skipGap : Nat → Scan → Scan
  | 0, scan => scan
  | fuel + 1, scan =>
      let cursor := scan.cursor
      match cursor.rest with
      | [] => scan
      | c :: _ =>
          if c == ' ' || (c == '\t' && (0 < scan.flowLevel || !scan.keyAllowed)) then
            skipGap fuel { scan with cursor := cursor.skip 1 }
          else if c == '#' then
            skipGap fuel { scan with cursor := (cursor.takeWhile fun _ => true).2 }
          else if isBreak c then
            skipGap fuel
              { scan with
                cursor := cursor.takeBreak.2
                keyAllowed := scan.keyAllowed || scan.flowLevel == 0 }
          else scan

private def markDocument (scan : Scan) (token : Token) : Option Scan := do
  let scan ← (scan.unrollIndent none).dropKey
  return { scan with keyAllowed := false }.take token 3

private def openFlow (scan : Scan) (token : Token) : Option Scan := do
  let scan ← scan.saveKey
  return { scan with
    flowLevel := scan.flowLevel + 1
    keys := none :: scan.keys
    keyAllowed := true }.take token 1

private def closeFlow (scan : Scan) (token : Token) : Option Scan := do
  let scan ← scan.dropKey
  let keys := if scan.flowLevel == 0 then scan.keys else scan.keys.drop 1
  return { scan with flowLevel := scan.flowLevel - 1, keys, keyAllowed := false }.take token 1

private def takeComma (scan : Scan) : Option Scan := do
  let scan ← scan.dropKey
  return { scan with keyAllowed := true }.take .comma 1

private def takeDash (scan : Scan) : Option Scan := do
  let scan ←
    if scan.flowLevel == 0 then
      if scan.keyAllowed then
        some (scan.rollIndent scan.cursor.column scan.tokens.size .blockSequence)
      else none
    else some scan
  let scan ← scan.dropKey
  return { scan with keyAllowed := true }.take .dash 1

private def takeKey (scan : Scan) : Option Scan := do
  let scan ←
    if scan.flowLevel == 0 then
      if scan.keyAllowed then
        some (scan.rollIndent scan.cursor.column scan.tokens.size .blockMapping)
      else none
    else some scan
  let scan ← scan.dropKey
  return { scan with keyAllowed := scan.flowLevel == 0 }.take .key 1

private def takeValue (scan : Scan) : Option Scan :=
  match scan.keys with
  | some place :: rest =>
      let scan := { scan with tokens := scan.tokens.insertIdxIfInBounds place.tokens .key }
      let scan := scan.rollIndent place.column place.tokens .blockMapping
      some ({ scan with keys := none :: rest, keyAllowed := false }.take .value 1)
  | _ => do
      let scan ←
        if scan.flowLevel == 0 then
          if scan.keyAllowed then
            some (scan.rollIndent scan.cursor.column scan.tokens.size .blockMapping)
          else none
        else some scan
      return { scan with keyAllowed := scan.flowLevel == 0 }.take .value 1

private def takeQuoted (scan : Scan) (quote : Char) : Option Scan := do
  let scan ← scan.saveKey
  let (text, cursor) ← readQuoted quote scan.cursor
  return { scan with keyAllowed := false, cursor }.emit (.scalar false (String.ofList text))

private def takeBlock (scan : Scan) (folded : Bool) : Option Scan := do
  let scan ← scan.dropKey
  let (text, cursor) ← readBlock folded scan.indent scan.cursor
  return { scan with keyAllowed := true, cursor }.emit (.scalar false (String.ofList text))

private def takePlain (scan : Scan) : Option Scan := do
  let scan ← scan.saveKey
  let indent :=
    match scan.indent with
    | none => 0
    | some indent => indent + 1
  let plain ← readPlain (0 < scan.flowLevel) indent scan.cursor
  return { scan with keyAllowed := plain.endedLine, cursor := plain.after }.emit
    (.scalar true (String.ofList plain.text))

/-- Characters that cannot begin a plain scalar. -/
private def indicators : List Char :=
  "-?:,[]\x7b\x7d#&*!|>'\"%@\x60".toList

/-- This reads one token. Anchors, aliases, tags and directives are not part of the notation. -/
private def takeToken (scan : Scan) : Option Scan :=
  let cursor := scan.cursor
  let inFlow := 0 < scan.flowLevel
  match cursor.rest with
  | [] => some scan
  | c :: rest =>
      if cursor.atMarker '-' then scan.markDocument .documentStart
      else if cursor.atMarker '.' then scan.markDocument .documentEnd
      else if c == '[' then scan.openFlow .sequenceStart
      else if c == '\x7b' then scan.openFlow .mappingStart
      else if c == ']' then scan.closeFlow .sequenceEnd
      else if c == '\x7d' then scan.closeFlow .mappingEnd
      else if c == ',' then scan.takeComma
      else if c == '-' && endsWord rest then scan.takeDash
      else if c == '?' && (inFlow || endsWord rest) then scan.takeKey
      else if c == ':' && (inFlow || endsWord rest) then scan.takeValue
      else if c == '|' && !inFlow then scan.takeBlock false
      else if c == '>' && !inFlow then scan.takeBlock true
      else if c == '\'' || c == '"' then scan.takeQuoted c
      else if !indicators.contains c || c == '-' || (!inFlow && (c == '?' || c == ':')) then
        if isSpaceOrTab c then none else scan.takePlain
      else none

private def run : Nat → Scan → Option Scan
  | 0, _ => none
  | fuel + 1, scan => do
      let scan ← (skipGap (scan.cursor.rest.length + 1) scan).dropStaleKeys
      if scan.cursor.atEnd then (scan.unrollIndent none).dropKey
      else do
        let scan ← (scan.unrollIndent (some scan.cursor.column)).takeToken
        run fuel scan

end Scan

/-- The tokens of a text, unless it holds a character or a notation that no document has. -/
def tokens? (text : String) : Option (List Token) := do
  let chars := text.toList
  if chars.all isAllowed then
    let scan ← Scan.run (chars.length + 1) { cursor := { rest := chars } }
    return scan.tokens.toList
  else none

end NetlinkFamily.Yaml
