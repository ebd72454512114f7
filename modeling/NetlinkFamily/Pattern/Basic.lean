import NetlinkFamily.Pattern.CharSet

/-!
Patterns over operation names and the positions they can match. A match is described by the set of
positions where it may end, so the choice between greedy and lazy repetition plays no part.
-/

namespace NetlinkFamily

namespace Pattern

/-- Conditions on the place between two characters. -/
inductive Assertion where
  | start
  | stop
  | lineStart
  | lineStop
  | lineStartCrlf
  | lineStopCrlf
  | wordBoundary
  | notWordBoundary
  | wordStart
  | wordEnd
  | wordStartHalf
  | wordEndHalf
  deriving DecidableEq, Inhabited

end Pattern

inductive Pattern where
  | empty
  | oneOf (members : Pattern.CharSet)
  | look (assertion : Pattern.Assertion) (ascii : Bool)
  | sequence (first second : Pattern)
  | either (first second : Pattern)
  | repeated (body : Pattern) (least : Nat) (most : Option Nat)
  deriving Inhabited

namespace Pattern

private def isWord (ascii : Bool) (c : Option Char) : Bool :=
  match c with
  | none => false
  | some c => if ascii then c.isAlphanum || c == '_' else Text.isWordChar c

/-- Whether an assertion holds between two neighbouring characters. -/
def Assertion.holds (assertion : Assertion) (ascii : Bool) (before after : Option Char) : Bool :=
  let wordBefore := isWord ascii before
  let wordAfter := isWord ascii after
  match assertion with
  | .start => before.isNone
  | .stop => after.isNone
  | .lineStart => before.isNone || before == some '\n'
  | .lineStop => after.isNone || after == some '\n'
  | .lineStartCrlf =>
      before.isNone || before == some '\n' || (before == some '\r' && after != some '\n')
  | .lineStopCrlf =>
      after.isNone || after == some '\r' || (after == some '\n' && before != some '\r')
  | .wordBoundary => wordBefore != wordAfter
  | .notWordBoundary => wordBefore == wordAfter
  | .wordStart => !wordBefore && wordAfter
  | .wordEnd => wordBefore && !wordAfter
  | .wordStartHalf => !wordBefore
  | .wordEndHalf => !wordAfter

/-- The union of two sets of positions. -/
def merge (first second : List Nat) : List Nat :=
  first ++ second.filter fun position => !first.contains position

private def exactly (step : List Nat → List Nat) : Nat → List Nat → List Nat
  | 0, positions => positions
  | count + 1, positions => if positions.isEmpty then [] else exactly step count (step positions)

private def upTo (step : List Nat → List Nat) : Nat → List Nat → List Nat
  | 0, positions => positions
  | count + 1, positions => upTo step count (merge positions (step positions))

private def characterBefore (text : Array Char) : Nat → Option Char
  | 0 => none
  | position + 1 => text[position]?

/-- The positions where a match may end that begins at one of `starts`. No more than the length of
the text of further repetitions can reach a new position. -/
def ends (text : Array Char) : Pattern → List Nat → List Nat
  | empty, starts => starts
  | oneOf members, starts =>
      starts.filterMap fun position =>
        match text[position]? with
        | some c => if members.contains c then some (position + 1) else none
        | none => none
  | look assertion ascii, starts =>
      starts.filter fun position =>
        assertion.holds ascii (characterBefore text position) text[position]?
  | sequence first second, starts => second.ends text (first.ends text starts)
  | either first second, starts => merge (first.ends text starts) (second.ends text starts)
  | repeated body least most, starts =>
      let further :=
        match most with
        | none => text.size + 1
        | some most => min (most - least) (text.size + 1)
      upTo (body.ends text) further (exactly (body.ends text) least starts)

/-- Whether a match begins at the start of a text. -/
def matchesStart (pattern : Pattern) (text : String) : Bool :=
  !(pattern.ends text.toList.toArray [0]).isEmpty

/-- Whether one of several patterns matches from the start. -/
def anyMatchesStart (patterns : List Pattern) (text : String) : Bool :=
  patterns.any fun pattern => pattern.matchesStart text

end Pattern

end NetlinkFamily
