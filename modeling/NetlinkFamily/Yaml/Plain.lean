/-!
What a plain scalar stands for when its field has a type: a number, a truth value, nothing, or
its own text.
-/

namespace NetlinkFamily.Yaml.Plain

def isNull (text : String) : Bool :=
  ["null", "Null", "NULL", "~"].contains text

def bool? (text : String) : Option Bool :=
  if ["true", "True", "TRUE"].contains text then some true
  else if ["false", "False", "FALSE"].contains text then some false
  else none

private def digitValue (c : Char) : Nat :=
  if c.isDigit then c.toNat - '0'.toNat
  else if 'a' ≤ c && c ≤ 'z' then c.toNat - 'a'.toNat + 10
  else if 'A' ≤ c && c ≤ 'Z' then c.toNat - 'A'.toNat + 10
  else 36

private def digits? (radix : Nat) (chars : List Char) : Option Nat :=
  if chars.isEmpty then none
  else
    chars.foldlM
      (fun value c => if digitValue c < radix then some (radix * value + digitValue c) else none)
      0

private def dropSign : List Char → List Char
  | '+' :: rest | '-' :: rest => rest
  | chars => chars

private def dropPlus : List Char → List Char
  | '+' :: rest => rest
  | chars => chars

private def startsSigned : List Char → Bool
  | '+' :: _ | '-' :: _ => true
  | _ => false

/-- Digits behind a leading zero, which are no number. -/
def isPadded (text : String) : Bool :=
  match dropSign text.toList with
  | '0' :: rest => !rest.isEmpty && rest.all Char.isDigit
  | _ => false

private def signedDigits? (radix : Nat) : List Char → Option Int
  | '-' :: rest => (digits? radix rest).map fun value => -(value : Int)
  | '+' :: rest => (digits? radix rest).map Int.ofNat
  | chars => (digits? radix chars).map Int.ofNat

private def within (least most : Int) (value : Option Int) : Option Int :=
  value.bind fun value => if least ≤ value && value ≤ most then some value else none

private def radixPrefixes : List (List Char × Nat) :=
  [(['0', 'x'], 16), (['0', 'o'], 8), (['0', 'b'], 2)]

private def stripStart (start chars : List Char) : Option (List Char) :=
  if start.isPrefixOf chars then some (chars.drop start.length) else none

/-- A number that is not negative, in decimal or behind the mark of another base. -/
def unsigned? (most : Nat) (text : String) : Option Nat :=
  let chars := dropPlus text.toList
  let coded := radixPrefixes.findSome? fun mark =>
    (stripStart mark.1 chars).map fun rest => (rest, mark.2)
  let decimal :=
    if startsSigned chars || isPadded text then none else digits? 10 chars
  let value :=
    match coded with
    | some (rest, radix) => if startsSigned rest then none else (digits? radix rest).or decimal
    | none => decimal
  value.bind fun value => if value ≤ most then some value else none

/-- A number in decimal or behind the mark of another base, with a sign in front. -/
def signed? (least most : Int) (text : String) : Option Int :=
  let chars := dropPlus text.toList
  if chars.length < text.length && startsSigned chars then none
  else
    let coded := radixPrefixes.findSome? fun mark =>
      match stripStart mark.1 chars with
      | some rest =>
          if startsSigned rest then none else within least most (signedDigits? mark.2 rest)
      | none =>
          (stripStart ('-' :: mark.1) text.toList).bind fun rest =>
            if startsSigned rest then none
            else within least most (signedDigits? mark.2 ('-' :: rest))
    let decimal :=
      if isPadded text then none else within least most (signedDigits? 10 chars)
    coded.or decimal

private def allDigits (chars : List Char) : Bool :=
  chars.all Char.isDigit

/-- The digits and the power of ten of a decimal fraction without a sign. -/
private def decimal? (chars : List Char) : Option (Nat × Int) :=
  let mantissa := chars.takeWhile fun c => c != 'e' && c != 'E'
  let exponent := chars.drop mantissa.length
  let whole := mantissa.takeWhile (· != '.')
  let fraction := (mantissa.drop whole.length).drop 1
  let power : Option Int :=
    match exponent with
    | [] => some 0
    | _ :: rest => signedDigits? 10 rest
  if (whole.isEmpty && fraction.isEmpty) || !allDigits whole || !allDigits fraction then none
  else
    power.map fun power =>
      ((whole ++ fraction).foldl (fun value c => 10 * value + digitValue c) 0,
        power - fraction.length)

/-- From here on a fraction is nearer to the power of two above all 64-bit fractions than to the
greatest of them. -/
private def overflowThreshold : Nat :=
  1 <<< 1024 - 1 <<< 970

private def isFiniteDecimal (digits : Nat) (power : Int) : Bool :=
  if digits = 0 then true
  else if 400 < (toString digits).length + power then false
  else if power < 0 then digits < overflowThreshold * Nat.pow 10 (min (-power).toNat 100000)
  else digits * Nat.pow 10 power.toNat < overflowThreshold

/-- Whether a text is a decimal fraction within the range of 64-bit fractions, or names an
infinite one. -/
def isFloat (text : String) : Bool :=
  let chars := dropPlus text.toList
  if chars.length < text.length && startsSigned chars then false
  else
    [".inf", ".Inf", ".INF"].contains (String.ofList chars) ||
      ["-.inf", "-.Inf", "-.INF", ".nan", ".NaN", ".NAN"].contains text ||
      match decimal? (dropSign chars) with
      | some (digits, power) => isFiniteDecimal digits power
      | none => false

/-- The type that a plain scalar has of its own. -/
inductive Kind where
  | null
  | bool
  | int (value : Int)
  /-- An integer past 64 bits, which no field can hold. -/
  | wideInt
  | float
  | text
  deriving DecidableEq

def kind (text : String) : Kind :=
  if text.isEmpty || isNull text then .null
  else if (bool? text).isSome then .bool
  else
    match unsigned? (UInt64.size - 1) text, signed? Int64.minValue.toInt 0 text with
    | some value, _ => .int value
    | none, some value => .int value
    | none, none =>
        if (unsigned? (1 <<< 128 - 1) text).isSome ||
            (signed? (-(1 <<< 127)) 0 text).isSome then
          .wideInt
        else if !isPadded text && isFloat text then .float
        else .text

end NetlinkFamily.Yaml.Plain
