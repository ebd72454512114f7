/-!
A place in a text, with the line and column that indentation and one-line keys depend on.
-/

namespace NetlinkFamily.Yaml

structure Cursor where
  rest : List Char
  line : Nat := 0
  column : Nat := 0
  index : Nat := 0
  deriving Inhabited

def isSpaceOrTab (c : Char) : Bool :=
  c == ' ' || c == '\t'

def isBreak (c : Char) : Bool :=
  c == '\n' || c == '\r' || c == '\u0085' || c == '\u2028' || c == '\u2029'

/-- Whether a text ends here or goes on with a blank or a line break. -/
def endsWord : List Char → Bool
  | [] => true
  | c :: _ => isSpaceOrTab c || isBreak c

/-- The characters that a document may contain. -/
def isAllowed (c : Char) : Bool :=
  let code := c.toNat
  code == 9 || code == 10 || code == 13 || (0x20 ≤ code && code ≤ 0x7e) || code == 0x85 ||
    (0xa0 ≤ code && code ≤ 0xfffd) || 0x10000 ≤ code

namespace Cursor

def atEnd (cursor : Cursor) : Bool :=
  cursor.rest.isEmpty

def peek? (cursor : Cursor) : Option Char :=
  cursor.rest.head?

/-- This passes `count` characters of the current line. -/
def skip (cursor : Cursor) (count : Nat) : Cursor :=
  { cursor with
    rest := cursor.rest.drop count
    column := cursor.column + count
    index := cursor.index + count }

private def nextLine (cursor : Cursor) (rest : List Char) (count : Nat) : Cursor :=
  { rest, line := cursor.line + 1, column := 0, index := cursor.index + count }

/-- A line break with the characters it stands for in a scalar, and the place behind it. -/
def takeBreak (cursor : Cursor) : List Char × Cursor :=
  match cursor.rest with
  | '\r' :: '\n' :: rest => (['\n'], cursor.nextLine rest 2)
  | '\r' :: rest | '\n' :: rest | '\u0085' :: rest => (['\n'], cursor.nextLine rest 1)
  | '\u2028' :: rest => (['\u2028'], cursor.nextLine rest 1)
  | '\u2029' :: rest => (['\u2029'], cursor.nextLine rest 1)
  | _ => ([], cursor)

def atBreak (cursor : Cursor) : Bool :=
  match cursor.rest with
  | c :: _ => isBreak c
  | [] => false

def atBlank (cursor : Cursor) : Bool :=
  match cursor.rest with
  | c :: _ => isSpaceOrTab c
  | [] => false

/-- The characters up to the first that fails a test, none of which is a line break. -/
def takeWhile (cursor : Cursor) (test : Char → Bool) : List Char × Cursor :=
  let taken := cursor.rest.takeWhile fun c => test c && !isBreak c
  (taken, cursor.skip taken.length)

/-- Whether a line starts here with the three characters that begin or end a document. -/
def atMarker (cursor : Cursor) (mark : Char) : Bool :=
  cursor.column == 0 && cursor.rest.take 3 == [mark, mark, mark] && endsWord (cursor.rest.drop 3)

def atDocumentMark (cursor : Cursor) : Bool :=
  cursor.atMarker '-' || cursor.atMarker '.'

end Cursor

end NetlinkFamily.Yaml
