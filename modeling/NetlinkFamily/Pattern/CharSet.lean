import NetlinkFamily.Text.Blank
import NetlinkFamily.Text.Case
import NetlinkFamily.Text.Category

/-!
Sets of characters, built from ranges and named classes by the usual operations.
-/

namespace NetlinkFamily.Pattern

inductive CharSet where
  | none
  | range (first last : Char)
  | digit
  | space
  | word
  | categories (members : List Text.Category)
  | union (left right : CharSet)
  | inter (left right : CharSet)
  | minus (left right : CharSet)
  | differ (left right : CharSet)
  | complement (set : CharSet)
  /-- All characters that equal a member without regard to case. -/
  | anyCase (set : CharSet)
  /-- The same for the letters of ASCII only. -/
  | anyAsciiCase (set : CharSet)

namespace CharSet

def single (c : Char) : CharSet :=
  range c c

def all : CharSet :=
  complement none

def unions (sets : List CharSet) : CharSet :=
  sets.foldl union none

def contains : CharSet → Char → Bool
  | none, _ => false
  | range first last, c => first ≤ c && c ≤ last
  | digit, c => Text.isDecimalDigit c
  | space, c => Text.isBlank c
  | word, c => Text.isWordChar c
  | categories members, c => members.contains (Text.category c)
  | union left right, c => left.contains c || right.contains c
  | inter left right, c => left.contains c && right.contains c
  | minus left right, c => left.contains c && !right.contains c
  | differ left right, c => left.contains c != right.contains c
  | complement set, c => !set.contains c
  | anyCase set, c => (Text.foldingClass c).any fun d => set.contains d
  | anyAsciiCase set, c => set.contains c || set.contains c.toLower || set.contains c.toUpper

/-- Whether all members are below code 128, among the codes of one byte. -/
def isAscii (set : CharSet) : Bool :=
  (List.range 128).all fun index => !set.contains (Char.ofNat (128 + index))

private def asciiRanges (ranges : List (Char × Char)) : CharSet :=
  unions (ranges.map fun pair => range pair.1 pair.2)

/-- The classes that are written as `[:name:]` inside brackets. -/
def named? : String → Option CharSet
  | "alnum" => some (asciiRanges [('0', '9'), ('A', 'Z'), ('a', 'z')])
  | "alpha" => some (asciiRanges [('A', 'Z'), ('a', 'z')])
  | "ascii" => some (range '\x00' '\x7f')
  | "blank" => some (asciiRanges [('\t', '\t'), (' ', ' ')])
  | "cntrl" => some (asciiRanges [('\x00', '\x1f'), ('\x7f', '\x7f')])
  | "digit" => some (range '0' '9')
  | "graph" => some (range '!' '~')
  | "lower" => some (range 'a' 'z')
  | "print" => some (range ' ' '~')
  | "punct" => some (asciiRanges [('!', '/'), (':', '@'), ('[', '\x60'), ('\x7b', '~')])
  | "space" => some (asciiRanges [('\t', '\r'), (' ', ' ')])
  | "upper" => some (range 'A' 'Z')
  | "word" => some (asciiRanges [('0', '9'), ('A', 'Z'), ('_', '_'), ('a', 'z')])
  | "xdigit" => some (asciiRanges [('0', '9'), ('A', 'F'), ('a', 'f')])
  | _ => Option.none

end CharSet

end NetlinkFamily.Pattern
