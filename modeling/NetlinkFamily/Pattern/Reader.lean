import NetlinkFamily.Pattern.Basic
import NetlinkFamily.Pattern.Property

/-!
Reading a pattern from its text: alternatives of sequences of characters, classes, assertions and
groups, each with an optional repetition. A text that is no pattern has no reading.
-/

namespace NetlinkFamily.Pattern

/-- The switches that a pattern can turn on and off. -/
structure Flags where
  caseless : Bool := false
  multiLine : Bool := false
  dotAll : Bool := false
  verbose : Bool := false
  unicode : Bool := true
  crlf : Bool := false

/-- Patterns may not be nested deeper than this. -/
def nestingLimit : Nat := 250

/-- Patterns may not take more matching steps than this when their counts are written out. -/
def sizeLimit : Nat := 300000

/-- A pattern that was read, with the depth of its nesting. -/
structure Piece where
  pattern : Pattern
  depth : Nat
  /-- Whether a repetition may follow. -/
  repeatable : Bool := true

private def foldCase (flags : Flags) (members : CharSet) : CharSet :=
  if flags.caseless then
    if flags.unicode then .anyCase members else .anyAsciiCase members
  else members

/-- A class must not reach beyond ASCII where bytes are meant, for bytes above 127 are no
characters. -/
private def withinReach (flags : Flags) (members : CharSet) : Option CharSet :=
  if flags.unicode || members.isAscii then some members else none

private def skipBlanks (flags : Flags) : List Char → List Char
  | [] => []
  | c :: rest =>
      if !flags.verbose then c :: rest
      else if Text.isBlank c then skipBlanks flags rest
      else if c = '#' then skipComment rest
      else c :: rest
where
  /-- This drops the rest of a comment line. -/
  skipComment : List Char → List Char
    | [] => []
    | c :: rest => if c = '\n' then skipBlanks flags rest else skipComment rest

private def hexValue (digits : List Char) : Option Nat :=
  if digits.isEmpty then none
  else
    digits.foldlM
      (fun value c =>
        if c.isDigit then some (16 * value + (c.toNat - '0'.toNat))
        else if 'a' ≤ c && c ≤ 'f' then some (16 * value + (c.toNat - 'a'.toNat + 10))
        else if 'A' ≤ c && c ≤ 'F' then some (16 * value + (c.toNat - 'A'.toNat + 10))
        else none)
      0

private def scalar (code : Nat) : Option Char :=
  if code < 0xd800 || (0xdfff < code && code < 0x110000) then some (Char.ofNat code) else none

private def readHex (width : Nat) : List Char → Option (Char × List Char)
  | '\x7b' :: rest =>
      match rest.span (· != '\x7d') with
      | (digits, _ :: after) => do
          let code ← hexValue digits
          let c ← scalar code
          return (c, after)
      | (_, []) => none
  | rest =>
      if rest.length < width then none
      else do
        let code ← hexValue (rest.take width)
        let c ← scalar code
        return (c, rest.drop width)

/-- What follows a backslash. -/
inductive Escape where
  | literal (c : Char)
  | members (set : CharSet)
  | look (assertion : Assertion)

private def letterClass (flags : Flags) : Char → Option CharSet
  | 'd' => some (if flags.unicode then .digit else .range '0' '9')
  | 's' => some (if flags.unicode then .space else .union (.range '\t' '\r') (.single ' '))
  | 'w' => if flags.unicode then some .word else CharSet.named? "word"
  | _ => none

private def boundaryNames : List (String × Assertion) :=
  [("start", .wordStart), ("end", .wordEnd), ("start-half", .wordStartHalf),
    ("end-half", .wordEndHalf)]

private def readBoundary (rest : List Char) : Option (Escape × List Char) :=
  match rest with
  | '\x7b' :: inner =>
      let name := inner.takeWhile fun c => c.isAlpha || c == '-'
      match inner.drop name.length with
      | '\x7d' :: after =>
          if name.isEmpty then some (.look .wordBoundary, rest)
          else (boundaryNames.lookup (String.ofList name)).map fun found => (.look found, after)
      | [] => none
      | _ => some (.look .wordBoundary, rest)
  | _ => some (.look .wordBoundary, rest)

private def readProperty (flags : Flags) (negated : Bool) (rest : List Char) :
    Option (Escape × List Char) :=
  if !flags.unicode then none
  else
    let wrap (set : CharSet) :=
      let folded := foldCase flags set
      Escape.members (if negated then .complement folded else folded)
    match rest with
    | '\x7b' :: inner =>
        match inner.span (· != '\x7d') with
        | (name, _ :: after) => (property? name).map fun set => (wrap set, after)
        | (_, []) => none
    | '\\' :: _ | [] => none
    | c :: after => (property? [c]).map fun set => (wrap set, after)

private def isMeta (c : Char) : Bool :=
  "\\.+*?()|[]\x7b\x7d^$#&-~".toList.contains c

private def readEscape (flags : Flags) : List Char → Option (Escape × List Char)
  | [] => none
  | 'x' :: rest => do
      let (c, after) ← readHex 2 rest
      if flags.unicode || c.toNat < 128 || rest.head? == some '\x7b' then
        some (.literal c, after)
      else none
  | 'u' :: rest => (readHex 4 rest).map fun found => (.literal found.1, found.2)
  | 'U' :: rest => (readHex 8 rest).map fun found => (.literal found.1, found.2)
  | 'p' :: rest => readProperty flags false rest
  | 'P' :: rest => readProperty flags true rest
  | 'a' :: rest => some (.literal '\x07', rest)
  | 'f' :: rest => some (.literal '\x0c', rest)
  | 't' :: rest => some (.literal '\t', rest)
  | 'n' :: rest => some (.literal '\n', rest)
  | 'r' :: rest => some (.literal '\r', rest)
  | 'v' :: rest => some (.literal '\x0b', rest)
  | 'A' :: rest => some (.look .start, rest)
  | 'z' :: rest => some (.look .stop, rest)
  | 'b' :: rest => readBoundary rest
  | 'B' :: rest => some (.look .notWordBoundary, rest)
  | '<' :: rest => some (.look .wordStart, rest)
  | '>' :: rest => some (.look .wordEnd, rest)
  | c :: rest =>
      match letterClass flags c, letterClass flags c.toLower with
      | some set, _ => some (.members set, rest)
      | none, some set =>
          (withinReach flags (.complement set)).map fun set => (.members set, rest)
      | none, none =>
          if isMeta c || (c.toNat < 128 && !c.isAlphanum) then some (.literal c, rest) else none

/-- A member of a class: one character, which may begin a range, or a class of its own. -/
private def readClassItem (flags : Flags) : List Char → Option (Escape × List Char)
  | [] => none
  | '\\' :: rest => readEscape flags rest
  | c :: rest => some (.literal c, rest)

private def readClassRange (flags : Flags) (input : List Char) :
    Option (CharSet × List Char) := do
  let (first, rest) ← readClassItem flags input
  let rest := skipBlanks flags rest
  let alone : Option (CharSet × List Char) :=
    match first with
    | .literal c => if flags.unicode || c.toNat < 128 then some (.single c, rest) else none
    | .members set => some (set, rest)
    | .look _ => none
  match rest with
  | [] => none
  | '-' :: after =>
      match skipBlanks flags after with
      | ']' :: _ | '-' :: _ => alone
      | second => do
          let (last, rest) ← readClassItem flags second
          match first, last with
          | .literal low, .literal high =>
              if low ≤ high && (flags.unicode || high.toNat < 128) then
                some (.range low high, rest)
              else none
          | _, _ => none
  | _ => alone

private def readNamedClass : List Char → Option (CharSet × List Char)
  | '[' :: ':' :: rest => do
      let (negated, rest) :=
        match rest with
        | '^' :: after => (true, after)
        | _ => (false, rest)
      let name := rest.takeWhile (· != ':')
      let set ← CharSet.named? (String.ofList name)
      match rest.drop name.length with
      | ':' :: ']' :: after => some (if negated then .complement set else set, after)
      | _ => none
  | _ => none

/-- The operators between the parts of a class. They bind to the left. -/
inductive ClassOperator where
  | inter
  | minus
  | differ

private def combine (flags : Flags) (operator : ClassOperator) (left right : CharSet) : CharSet :=
  let left := foldCase flags left
  let right := foldCase flags right
  match operator with
  | .inter => .inter left right
  | .minus => .minus left right
  | .differ => .differ left right

private def closePart (flags : Flags) (before : Option (CharSet × ClassOperator))
    (part : CharSet) : CharSet :=
  match before with
  | none => part
  | some (left, operator) => combine flags operator left part

/-- The hyphens and the closing bracket that stand for themselves at the start of a class. -/
private def readLeading (flags : Flags) (part : CharSet) (bare : Bool) :
    List Char → CharSet × List Char
  | [] => (part, [])
  | c :: rest =>
      if c = '-' then readLeading flags (.union part (.single '-')) false rest
      else if Text.isBlank c && flags.verbose then readLeading flags part bare rest
      else if c = ']' && bare then (.union part (.single ']'), rest)
      else (part, c :: rest)

/-- The inside of a class, up to its closing bracket. -/
private def readClass (flags : Flags) :
    Nat → List Char → Option (CharSet × Nat × List Char)
  | 0, _ => none
  | fuel + 1, input =>
      let (negated, input) :=
        match skipBlanks flags input with
        | '^' :: rest => (true, skipBlanks flags rest)
        | rest => (false, rest)
      let (part, input) := readLeading flags .none true input
      body fuel negated none part 0 input
where
  /-- `before` is what stands to the left of the last operator. -/
  body : Nat → Bool → Option (CharSet × ClassOperator) → CharSet → Nat → List Char →
      Option (CharSet × Nat × List Char)
    | 0, _, _, _, _, _ => none
    | fuel + 1, negated, before, part, depth, input =>
        let next (operator : ClassOperator) (rest : List Char) :=
          body fuel negated (some (closePart flags before part, operator)) .none (depth + 1) rest
        match skipBlanks flags input with
        | [] => none
        | ']' :: rest =>
            let folded := foldCase flags (closePart flags before part)
            (withinReach flags (if negated then .complement folded else folded)).map
              fun members => (members, depth + 1, rest)
        | '&' :: '&' :: rest => next .inter rest
        | '-' :: '-' :: rest => next .minus rest
        | '~' :: '~' :: rest => next .differ rest
        | '[' :: rest =>
            match readNamedClass ('[' :: rest) with
            | some (set, after) => body fuel negated before (.union part set) depth after
            | none => do
                let (inner, innerDepth, after) ← readClass flags fuel rest
                body fuel negated before (.union part inner) (max depth innerDepth) after
        | input => do
            let (set, after) ← readClassRange flags input
            body fuel negated before (.union part set) depth after

private def readDecimal (input : List Char) : Option Nat × List Char :=
  let input := input.dropWhile Text.isBlank
  let digits := input.takeWhile Char.isDigit
  let value := digits.foldl (fun value c => 10 * value + (c.toNat - '0'.toNat)) 0
  (if digits.isEmpty || 4294967295 < value then none else some value,
    (input.drop digits.length).dropWhile Text.isBlank)

/-- The counts between the braces of a repetition. -/
private def readCounts (flags : Flags) (input : List Char) :
    Option (Nat × Option Nat × List Char) := do
  let (first, rest) := readDecimal input
  let least ← first
  match rest with
  | '\x7d' :: after => some (least, some least, after)
  | ',' :: rest =>
      match skipBlanks flags rest with
      | '\x7d' :: after => some (least, none, after)
      | rest => do
          let (second, rest) := readDecimal rest
          let most ← second
          match rest with
          | '\x7d' :: after => if least ≤ most then some (least, some most, after) else none
          | _ => none
  | _ => none

private def dropLazy : List Char → List Char
  | '?' :: rest => rest
  | rest => rest

/-- The switches of a group, up to the colon or the closing parenthesis behind them. -/
private def readFlags (flags : Flags) (seen : List Char) (negated : Bool) :
    List Char → Option (Flags × List Char × Char × List Char)
  | [] => none
  | c :: rest =>
      if c = ':' || c = ')' then
        if seen.head? = some '-' then none else some (flags, seen, c, rest)
      else if seen.contains c then none
      else if c = '-' then readFlags flags (c :: seen) true rest
      else
        let on := !negated
        match c with
        | 'i' => readFlags { flags with caseless := on } (c :: seen) negated rest
        | 'm' => readFlags { flags with multiLine := on } (c :: seen) negated rest
        | 's' => readFlags { flags with dotAll := on } (c :: seen) negated rest
        | 'U' => readFlags flags (c :: seen) negated rest
        | 'u' => readFlags { flags with unicode := on } (c :: seen) negated rest
        | 'x' => readFlags { flags with verbose := on } (c :: seen) negated rest
        | 'R' => readFlags { flags with crlf := on } (c :: seen) negated rest
        | _ => none

private def isLetter (c : Char) : Bool :=
  if c.toNat < 128 then c.isAlpha else Text.isWordChar c

private def isNameStart (c : Char) : Bool :=
  c == '_' || isLetter c

private def isNameChar (c : Char) : Bool :=
  isNameStart c || c == '.' || c == '[' || c == ']' || Text.isWordChar c

private def readGroupName (names : List String) (input : List Char) :
    Option (String × List Char) :=
  match input.span (· != '>') with
  | (first :: more, _ :: after) =>
      let name := String.ofList (first :: more)
      if isNameStart first && more.all isNameChar && !names.contains name then some (name, after)
      else none
  | _ => none

private def sequencePiece (pieces : List Piece) : Piece :=
  match pieces with
  | [] => ⟨.empty, 0, true⟩
  | [piece] => piece
  | first :: rest =>
      ⟨rest.foldl (fun pattern piece => .sequence pattern piece.pattern) first.pattern,
        rest.foldl (fun depth piece => max depth piece.depth) first.depth + 1, true⟩

private def eitherPiece (branches : List Piece) : Piece :=
  match branches with
  | [] => ⟨.empty, 0, true⟩
  | [piece] => piece
  | first :: rest =>
      ⟨rest.foldl (fun pattern piece => .either pattern piece.pattern) first.pattern,
        rest.foldl (fun depth piece => max depth piece.depth) first.depth + 1, true⟩

private def literalPiece (flags : Flags) (c : Char) : Piece :=
  ⟨.oneOf (foldCase flags (.single c)), 0, true⟩

private def dotPiece (flags : Flags) : Option Piece :=
  if !flags.unicode then none
  else
    some
      ⟨.oneOf
        (if flags.dotAll then .all
        else if flags.crlf then .complement (.union (.single '\n') (.single '\r'))
        else .complement (.single '\n')), 0, true⟩

private def startPiece (flags : Flags) : Piece :=
  ⟨.look
    (if !flags.multiLine then .start else if flags.crlf then .lineStartCrlf else .lineStart)
    false, 0, true⟩

private def stopPiece (flags : Flags) : Piece :=
  ⟨.look (if !flags.multiLine then .stop else if flags.crlf then .lineStopCrlf else .lineStop)
    false, 0, true⟩

private def escapePiece (flags : Flags) : Escape → Piece
  | .literal c => literalPiece flags c
  | .members set => ⟨.oneOf set, 0, true⟩
  | .look assertion => ⟨.look assertion (!flags.unicode), 0, true⟩

/-- This repeats the piece that was read last. -/
private def repeatLast (pieces : List Piece) (least : Nat) (most : Option Nat) :
    Option (List Piece) :=
  match pieces with
  | last :: before =>
      if last.repeatable then
        some (⟨.repeated last.pattern least most, last.depth + 1, true⟩ :: before)
      else none
  | [] => none

/-- Where the reading of one group stands. The lists hold the newest element first. -/
structure GroupState where
  flags : Flags
  pieces : List Piece := []
  branches : List Piece := []
  names : List String

private def GroupState.push (state : GroupState) (piece : Piece) : GroupState :=
  { state with pieces := piece :: state.pieces }

private def GroupState.close (state : GroupState) : Piece :=
  eitherPiece ((sequencePiece state.pieces.reverse :: state.branches).reverse)

/-- The inside of a group, up to its closing parenthesis or the end of the text. -/
private def readGroup :
    Nat → GroupState → List Char → Option (Piece × List String × List Char)
  | 0, _, _ => none
  | fuel + 1, state, input =>
      let flags := state.flags
      let again := readGroup fuel
      let group (inner : Flags) (names : List String) (rest : List Char) := do
        let (piece, names, rest) ← readGroup fuel { flags := inner, names } rest
        match rest with
        | ')' :: after =>
            readGroup fuel
              { state with
                pieces := ⟨piece.pattern, piece.depth + 1, true⟩ :: state.pieces, names }
              after
        | _ => none
      let counted (least : Nat) (most : Option Nat) (rest : List Char) := do
        let pieces ← repeatLast state.pieces least most
        again { state with pieces } (dropLazy rest)
      match skipBlanks flags input with
      | [] => some (state.close, state.names, [])
      | ')' :: rest => some (state.close, state.names, ')' :: rest)
      | '|' :: rest =>
          again
            { state with
              pieces := [], branches := sequencePiece state.pieces.reverse :: state.branches }
            rest
      | '(' :: rest =>
          match skipBlanks flags rest with
          | '?' :: 'P' :: '<' :: rest | '?' :: '<' :: rest => do
              let (name, after) ← readGroupName state.names rest
              group flags (name :: state.names) after
          | '?' :: rest => do
              let (inner, seen, close, after) ← readFlags flags [] false rest
              if close = ':' then group inner state.names after
              else if seen.isEmpty then none
              else again ({ state with flags := inner }.push ⟨.empty, 0, false⟩) after
          | rest => group flags state.names rest
      | '*' :: rest => counted 0 none rest
      | '+' :: rest => counted 1 none rest
      | '?' :: rest => counted 0 (some 1) rest
      | '\x7b' :: rest => do
          let (least, most, after) ← readCounts flags rest
          counted least most (skipBlanks flags after)
      | '[' :: rest => do
          let (members, depth, after) ← readClass flags fuel rest
          again (state.push ⟨.oneOf members, depth, true⟩) after
      | '.' :: rest => do
          let piece ← dotPiece flags
          again (state.push piece) rest
      | '^' :: rest => again (state.push (startPiece flags)) rest
      | '$' :: rest => again (state.push (stopPiece flags)) rest
      | '\\' :: rest => do
          let (escape, after) ← readEscape flags rest
          again (state.push (escapePiece flags escape)) after
      | c :: rest => again (state.push (literalPiece flags c)) rest

/-- The number of matching steps when all counts are written out. -/
def steps : Pattern → Nat
  | empty => 1
  | oneOf _ => 1
  | look _ _ => 1
  | sequence first second => first.steps + second.steps
  | either first second => first.steps + second.steps + 1
  | repeated body least most => (body.steps + 1) * max 1 (most.getD least) + 1

/-- The pattern that a text stands for. -/
def ofString? (text : String) : Option Pattern := do
  let chars := text.toList
  let (piece, _, rest) ← readGroup (2 * chars.length + 2) { flags := {}, names := [] } chars
  if rest.isEmpty && piece.depth ≤ nestingLimit && piece.pattern.steps ≤ sizeLimit then
    some piece.pattern
  else none

end NetlinkFamily.Pattern
