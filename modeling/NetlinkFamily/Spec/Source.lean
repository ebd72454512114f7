import NetlinkFamily.Spec.Records

/-!
How the records of a specification are read from a document, whatever its form. A form tells which
of its values are texts, numbers, lists and records.
-/

namespace NetlinkFamily.Spec

/-- The ways to read a value of a document. Each fails on a value of another type. -/
structure Source (N : Type) where
  text : N → Option String
  bool : N → Option Bool
  /-- A number up to a bound. -/
  unsigned : Nat → N → Option Nat
  /-- A number between two bounds. -/
  signed : Int → Int → N → Option Int
  /-- Whether a value stands for no value, where one may be left out. -/
  isNull : N → Bool
  list : N → Option (List N)
  /-- The fields of a record, of which the given ones are known. -/
  fields : List String → N → Option (List (String × N))
  enumEntry : N → Option EnumEntry

namespace Source

variable {N : Type} (source : Source N)

/-- One of a few words. -/
def word {A : Type} (words : List (String × A)) (node : N) : Option A := do
  let text ← source.text node
  words.lookup text

def uint32 (node : N) : Option UInt32 :=
  (source.unsigned (UInt32.size - 1) node).map UInt32.ofNat

def uint64 (node : N) : Option UInt64 :=
  (source.unsigned (UInt64.size - 1) node).map UInt64.ofNat

def int64 (node : N) : Option Int64 :=
  (source.signed Int64.minValue.toInt Int64.maxValue.toInt node).map Int64.ofInt

def listOf {A : Type} (read : N → Option A) (node : N) : Option (List A) := do
  let items ← source.list node
  items.mapM read

def texts (node : N) : Option (List String) :=
  source.listOf source.text node

def required {A : Type} (fields : List (String × N)) (name : String) (read : N → Option A) :
    Option A :=
  (fields.lookup name).bind read

def optional {A : Type} (fields : List (String × N)) (name : String) (read : N → Option A) :
    Option (Option A) :=
  match fields.lookup name with
  | none => some none
  | some node => if source.isNull node then some none else (read node).map some

def default {A : Type} (fields : List (String × N)) (name : String) (value : A)
    (read : N → Option A) : Option A :=
  match fields.lookup name with
  | none => some value
  | some node => read node

def nameKey (fields : List (String × N)) (name : String) : Option NameKey :=
  match fields.lookup name with
  | none => some .absent
  | some node => if source.isNull node then some .empty else (source.text node).map .given

end Source

end NetlinkFamily.Spec
