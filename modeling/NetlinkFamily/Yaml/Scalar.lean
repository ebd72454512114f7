import NetlinkFamily.Yaml.Cursor

/-!
The texts of scalars in their notations: plain, in single or double quotes, and as literal or
folded blocks.
-/

namespace NetlinkFamily.Yaml

/-- The blanks and line breaks between two parts of a scalar. -/
structure Gap where
  blanks : List Char := []
  /-- The first line break, if there is one. -/
  first : Option (List Char) := none
  /-- The line breaks after the first. -/
  further : List Char := []

namespace Gap

/-- What a gap contributes to the text: one line break counts as a space. -/
def text (gap : Gap) : List Char :=
  match gap.first with
  | none => gap.blanks
  | some ['\n'] => if gap.further.isEmpty then [' '] else gap.further
  | some first => first ++ gap.further

/-- The gap at a place. A tab may not indent a line to less than `indent` columns. -/
def read (indent : Option Nat) : Nat → Gap → Cursor → Option (Gap × Cursor)
  | 0, gap, cursor => some (gap, cursor)
  | fuel + 1, gap, cursor =>
      match cursor.rest with
      | [] => some (gap, cursor)
      | c :: _ =>
          if isSpaceOrTab c then
            if gap.first.isNone then
              read indent fuel { gap with blanks := gap.blanks ++ [c] } (cursor.skip 1)
            else if c == '\t' && (indent.any fun least => cursor.column < least) then none
            else read indent fuel gap (cursor.skip 1)
          else if isBreak c then
            let (broken, after) := cursor.takeBreak
            if gap.first.isNone then
              read indent fuel { gap with blanks := [], first := some broken } after
            else read indent fuel { gap with further := gap.further ++ broken } after
          else some (gap, cursor)

end Gap

/-- A plain scalar that was read, and whether it ended behind a line break. -/
structure Plain where
  text : List Char
  endedLine : Bool
  after : Cursor

private def isFlowIndicator (c : Char) : Bool :=
  c == ',' || c == '[' || c == ']' || c == '\x7b' || c == '\x7d'

/-- The characters of a plain scalar up to the next blank, line break or indicator. -/
private def plainWord (inFlow : Bool) : List Char → Option (List Char)
  | [] => some []
  | c :: rest =>
      if isSpaceOrTab c || isBreak c then some []
      else if inFlow && c == ':' &&
          (rest.head?.any fun next => isFlowIndicator next || next == '?') then none
      else if (c == ':' && endsWord rest) || (inFlow && isFlowIndicator c) then some []
      else (plainWord inFlow rest).map (c :: ·)

/-- A plain scalar goes on over lines that are indented to `indent` columns. -/
private def plainFrom (inFlow : Bool) (indent : Nat) :
    Nat → List Char → Gap → Cursor → Option Plain
  | 0, text, gap, cursor => some ⟨text, gap.first.isSome, cursor⟩
  | fuel + 1, text, gap, cursor =>
      if cursor.atDocumentMark || cursor.peek? == some '#' then
        some ⟨text, gap.first.isSome, cursor⟩
      else do
        let word ← plainWord inFlow cursor.rest
        let cursor := cursor.skip word.length
        let (text, before) := if word.isEmpty then (text, gap) else (text ++ gap.text ++ word, {})
        if !(cursor.atBlank || cursor.atBreak) then return ⟨text, before.first.isSome, cursor⟩
        let (gap, after) ← Gap.read (some indent) cursor.rest.length before cursor
        if !inFlow && after.column < indent then return ⟨text, gap.first.isSome, after⟩
        plainFrom inFlow indent fuel text gap after

def readPlain (inFlow : Bool) (indent : Nat) (cursor : Cursor) : Option Plain :=
  plainFrom inFlow indent (cursor.rest.length + 1) [] {} cursor

private def escapes : List (Char × Char) :=
  [('0', '\x00'), ('a', '\x07'), ('b', '\x08'), ('t', '\t'), ('\t', '\t'), ('n', '\n'),
    ('v', '\x0b'), ('f', '\x0c'), ('r', '\r'), ('e', '\x1b'), (' ', ' '), ('"', '"'),
    ('/', '/'), ('\\', '\\'), ('N', '\u0085'), ('_', '\u00a0'), ('L', '\u2028'),
    ('P', '\u2029')]

private def hexDigit? (c : Char) : Option Nat :=
  if c.isDigit then some (c.toNat - '0'.toNat)
  else if 'a' ≤ c && c ≤ 'f' then some (c.toNat - 'a'.toNat + 10)
  else if 'A' ≤ c && c ≤ 'F' then some (c.toNat - 'A'.toNat + 10)
  else none

private def hexChar? (digits : List Char) : Option Char := do
  let code ← digits.foldlM (fun value c => (hexDigit? c).map (16 * value + ·)) 0
  if (0xd800 ≤ code && code ≤ 0xdfff) || 0x10ffff < code then none else some (Char.ofNat code)

private def escape? (c : Char) (rest : List Char) : Option (Char × Nat) :=
  let coded (width : Nat) :=
    if rest.length < width then none
    else (hexChar? (rest.take width)).map fun found => (found, 2 + width)
  if c == 'x' then coded 2
  else if c == 'u' then coded 4
  else if c == 'U' then coded 8
  else (escapes.lookup c).map fun found => (found, 2)

/-- One part of a quoted scalar: characters up to a blank, a line break or the closing quote. An
escaped line break ends the part and joins the lines. -/
private def quotedPart (quote : Char) : Nat → List Char → Cursor →
    Option (List Char × Gap × Cursor)
  | 0, _, _ => none
  | fuel + 1, text, cursor =>
      match cursor.rest with
      | [] => none
      | c :: rest =>
          if isSpaceOrTab c || isBreak c then some (text, {}, cursor)
          else if quote == '\'' && c == '\'' && rest.head? == some '\'' then
            quotedPart quote fuel (text ++ ['\'']) (cursor.skip 2)
          else if c == quote then some (text, {}, cursor)
          else if quote == '"' && c == '\\' then
            match rest with
            | [] => none
            | next :: more =>
                if isBreak next then
                  some (text, { first := some [] }, ((cursor.skip 1).takeBreak).2)
                else do
                  let (found, length) ← escape? next more
                  quotedPart quote fuel (text ++ [found]) (cursor.skip length)
          else quotedPart quote fuel (text ++ [c]) (cursor.skip 1)

private def quotedFrom (quote : Char) : Nat → List Char → Cursor → Option (List Char × Cursor)
  | 0, _, _ => none
  | fuel + 1, text, cursor =>
      if cursor.atDocumentMark then none
      else do
        let (text, gap, cursor) ← quotedPart quote (cursor.rest.length + 1) text cursor
        if cursor.peek? == some quote && gap.first.isNone then return (text, cursor.skip 1)
        let (gap, after) ← Gap.read none cursor.rest.length gap cursor
        if after.peek? == some quote then return (text ++ gap.text, after.skip 1)
        quotedFrom quote fuel (text ++ gap.text) after

/-- A scalar in quotes. The cursor stands at the opening quote. -/
def readQuoted (quote : Char) (cursor : Cursor) : Option (List Char × Cursor) :=
  quotedFrom quote (cursor.rest.length + 1) [] (cursor.skip 1)

/-- What happens to the line breaks at the end of a block. -/
inductive Chomping where
  | strip
  | clip
  | keep
  deriving DecidableEq

private def chomping? : Char → Option Chomping
  | '-' => some .strip
  | '+' => some .keep
  | _ => none

private def increment? (c : Char) : Option Nat :=
  if c.isDigit then some (c.toNat - '0'.toNat) else none

/-- The indicators behind the sign of a block, in either order. The indentation is not zero. -/
private def blockIndicators (cursor : Cursor) : Option (Chomping × Option Nat × Cursor) :=
  let place (chomping : Option Chomping) (increment : Option Nat) (count : Nat) :=
    if increment == some 0 then none
    else some (chomping.getD .clip, increment, cursor.skip count)
  match cursor.rest with
  | first :: rest =>
      match chomping? first, increment? first with
      | some chomping, _ =>
          match rest.head?.bind increment? with
          | some increment => place (some chomping) (some increment) 2
          | none => place (some chomping) none 1
      | none, some increment =>
          match rest.head?.bind chomping? with
          | some chomping => place (some chomping) (some increment) 2
          | none => place none (some increment) 1
      | none, none => place none none 0
  | [] => place none none 0

/-- The empty lines before a line of a block, with the greatest column that was reached. An
indentation of `none` is still to be found out. -/
private def blockBreaks (indent : Option Nat) :
    Nat → List Char → Nat → Cursor → Option (List Char × Nat × Cursor)
  | 0, breaks, widest, cursor => some (breaks, widest, cursor)
  | fuel + 1, breaks, widest, cursor =>
      let allowed :=
        match indent with
        | none => cursor.rest.length
        | some indent => indent - cursor.column
      let spaces := (cursor.rest.take allowed).takeWhile (· == ' ')
      let cursor := cursor.skip spaces.length
      let widest := max widest cursor.column
      let inside := indent.all fun indent => cursor.column < indent
      if inside && cursor.peek? == some '\t' then none
      else if cursor.atBreak then
        let (broken, after) := cursor.takeBreak
        blockBreaks indent fuel (breaks ++ broken) widest after
      else some (breaks, widest, cursor)

/-- The state between two lines of a block. -/
structure BlockState where
  text : List Char := []
  /-- The line break behind the last line. -/
  leading : List Char := []
  /-- The empty lines behind it. -/
  trailing : List Char
  /-- Whether the last line started with a blank. -/
  startedBlank : Bool := false

private def blockLines (folded : Bool) (indent : Nat) :
    Nat → BlockState → Cursor → Option (BlockState × Cursor)
  | 0, state, cursor => some (state, cursor)
  | fuel + 1, state, cursor =>
      if cursor.column != indent || cursor.atEnd then some (state, cursor)
      else do
        let blank := cursor.atBlank
        let joined :=
          if folded && state.leading == ['\n'] && !state.startedBlank && !blank then
            if state.trailing.isEmpty then [' '] else []
          else state.leading
        let (line, cursor) := cursor.takeWhile fun _ => true
        let (leading, cursor) := cursor.takeBreak
        let (trailing, _, cursor) ←
          blockBreaks (some indent) (cursor.rest.length + 1) [] 0 cursor
        blockLines folded indent fuel
          { text := state.text ++ joined ++ state.trailing ++ line
            leading
            trailing
            startedBlank := blank }
          cursor

/-- A literal or folded block. The cursor stands at its sign, and `outer` is the indentation of
the collection around it. -/
def readBlock (folded : Bool) (outer : Option Nat) (cursor : Cursor) :
    Option (List Char × Cursor) := do
  let (chomping, increment, cursor) ← blockIndicators (cursor.skip 1)
  let (_, cursor) := cursor.takeWhile isSpaceOrTab
  let (_, cursor) :=
    if cursor.peek? == some '#' then cursor.takeWhile fun _ => true else ([], cursor)
  if !(cursor.atBreak || cursor.atEnd) then none
  else
    let (_, cursor) := cursor.takeBreak
    let given := increment.map fun increment => (outer.getD 0) + increment
    let (trailing, widest, cursor) ← blockBreaks given (cursor.rest.length + 1) [] 0 cursor
    let least :=
      match outer with
      | none => 1
      | some outer => outer + 1
    let indent := given.getD (max widest least)
    let (state, cursor) ←
      blockLines folded indent (cursor.rest.length + 1) { trailing } cursor
    let text :=
      match chomping with
      | .strip => state.text
      | .clip => state.text ++ state.leading
      | .keep => state.text ++ state.leading ++ state.trailing
    return (text, cursor)

end NetlinkFamily.Yaml
