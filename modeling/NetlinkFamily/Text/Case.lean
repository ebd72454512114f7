import NetlinkFamily.Text.CaseTable

/-!
Upper and lower case of whole texts, for every character of Unicode. A capital sigma becomes the
final form at the end of a word and the ordinary small form elsewhere.
-/

namespace NetlinkFamily.Text

private def shiftedBy (runs : List CaseRun) (code : Nat) : Option Nat :=
  (runs.find? fun run => run.covers code).map fun run => (Int.ofNat code + run.shift).toNat

private def mapCase (runs : List CaseRun) (expansions : List (Nat × List Nat)) (c : Char) :
    List Char :=
  match expansions.lookup c.toNat with
  | some codes => codes.map Char.ofNat
  | none =>
      match shiftedBy runs c.toNat with
      | some code => [Char.ofNat code]
      | none => [c]

/-- The upper-case form of one character. -/
def upperChar (c : Char) : List Char :=
  if c.toNat < 128 then [c.toUpper] else mapCase upperRuns upperExpansions c

/-- The lower-case form of one character, apart from the rule for a final sigma. -/
def lowerChar (c : Char) : List Char :=
  if c.toNat < 128 then [c.toLower] else mapCase lowerRuns lowerExpansions c

/-- The upper-case form of a text. -/
def upper (text : String) : String :=
  String.ofList (text.toList.flatMap upperChar)

def inRanges (ranges : List (Nat × Nat)) (c : Char) : Bool :=
  ranges.any fun range => range.1 ≤ c.toNat && c.toNat ≤ range.2

/-- This test skips ignorable characters and asks whether a cased character comes next. -/
def startsCased : List Char → Bool
  | [] => false
  | c :: rest =>
      if inRanges caseIgnorableRanges c then startsCased rest else inRanges casedRanges c

/-- `before` holds the characters already read, the nearest first. -/
def lowerFrom (before : List Char) : List Char → List Char
  | [] => []
  | c :: rest =>
      let mapped :=
        if c = 'Σ' then
          if startsCased before && !startsCased rest then ['ς'] else ['σ']
        else lowerChar c
      mapped ++ lowerFrom (c :: before) rest

/-- The lower-case form of a text. -/
def lower (text : String) : String :=
  String.ofList (lowerFrom [] text.toList)

private def oneChar (mapped : List Char) (c : Char) : Char :=
  match mapped with
  | [single] => single
  | _ => c

/-- All characters that equal `c` without regard to case, `c` among them. -/
def foldingClass (c : Char) : List Char :=
  match foldingClasses.find? fun members => members.contains c.toNat with
  | some members => members.map Char.ofNat
  | none => [c, oneChar (upperChar c) c, oneChar (lowerChar c) c]

end NetlinkFamily.Text
