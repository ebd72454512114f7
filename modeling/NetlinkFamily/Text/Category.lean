import NetlinkFamily.Text.CategoryTable

/-!
General categories of characters, and the classes of characters that are built from them.
-/

namespace NetlinkFamily.Text

inductive Category where
  | lu | ll | lt | lm | lo
  | mn | mc | me
  | nd | nl | no
  | pc | pd | ps | pe | pi | pf | po
  | sm | sc | sk | so
  | zs | zl | zp
  | cc | cf | cs | co | cn
  deriving DecidableEq, Inhabited

namespace Category

/-- The categories in the order of the letters that stand for them. -/
def all : List Category :=
  [lu, ll, lt, lm, lo, mn, mc, me, nd, nl, no, pc, pd, ps, pe, pi, pf, po, sm, sc, sk, so, zs,
    zl, zp, cc, cf, cs, co, cn]

private def letters : List Char :=
  "ABCDEFGHIJKLMNOPQRSTUVWXYZabcd".toList

def ofLetter? (c : Char) : Option Category :=
  (letters.zip all).lookup c

/-- One run: the code after it and what its characters are. -/
structure Run where
  stop : Nat
  category : Category
  /-- Whether upper-case and lower-case letters take turns, upper case first. -/
  alternating : Bool := false
  deriving Inhabited

private def takeNumber (value : Nat) : List Char → Nat × List Char
  | [] => (value, [])
  | c :: rest =>
      if c.isDigit then takeNumber (10 * value + (c.toNat - '0'.toNat)) rest else (value, c :: rest)

theorem length_takeNumber (value : Nat) (chars : List Char) :
    (takeNumber value chars).2.length ≤ chars.length := by
  fun_induction takeNumber value chars with
  | case1 => simp
  | case2 value c rest digit ih => simp only [List.length_cons]; omega
  | case3 => simp

/-- The runs that a table spells out, from the code `start` on. -/
def readRuns (start : Nat) : List Char → List Run
  | [] => []
  | c :: rest =>
      let counted := takeNumber 0 rest
      let length := if counted.1 = 0 then 1 else counted.1
      if c = '+' then
        ⟨start + 2 * length, lu, true⟩ :: readRuns (start + 2 * length) counted.2
      else
        ⟨start + length, (ofLetter? c).getD cn, false⟩ :: readRuns (start + length) counted.2
termination_by chars => chars.length
decreasing_by
  all_goals
    have bound := length_takeNumber 0 rest
    simp only [List.length_cons]
    omega

def runs : List Run :=
  readRuns 0 categoryRuns.toList

private def inRuns (code start : Nat) : List Run → Category
  | [] => cn
  | run :: rest =>
      if code < run.stop then
        if run.alternating && (code - start) % 2 == 1 then ll else run.category
      else inRuns code run.stop rest

end Category

/-- The general category of a character. -/
def category (c : Char) : Category :=
  Category.inRuns c.toNat 0 Category.runs

def isDecimalDigit (c : Char) : Bool :=
  if c.toNat < 128 then c.isDigit else category c == .nd

private def enclosedLetters : List (Nat × Nat) :=
  [(0x24b6, 0x24e9), (0x1f130, 0x1f149), (0x1f150, 0x1f169), (0x1f170, 0x1f189)]

/-- Letters, marks, digits and connectors: the characters that words are made of. -/
def isWordChar (c : Char) : Bool :=
  if c.toNat < 128 then c.isAlphanum || c == '_'
  else
    [.lu, .ll, .lt, .lm, .lo, .mn, .mc, .me, .nd, .nl, .pc].contains (category c) ||
      c.toNat == 0x200c || c.toNat == 0x200d ||
      enclosedLetters.any fun range => range.1 ≤ c.toNat && c.toNat ≤ range.2

/-- Spacing characters that extend the character before them, as marks without width do. -/
def extendingRanges : List (Nat × Nat) :=
  [(2494, 2494), (2519, 2519), (2878, 2878), (2903, 2903), (3006, 3006), (3031, 3031),
    (3264, 3264), (3266, 3266), (3271, 3272), (3274, 3275), (3285, 3286), (3390, 3390),
    (3415, 3415), (3535, 3535), (3551, 3551), (5909, 5909), (5940, 5940), (6965, 6965),
    (6971, 6971), (6973, 6973), (6979, 6980), (7082, 7082), (7154, 7155), (8204, 8204),
    (12334, 12335), (43347, 43347), (43456, 43456), (65438, 65439), (70080, 70080),
    (70197, 70197), (70462, 70462), (70477, 70477), (70487, 70487), (70832, 70832),
    (70845, 70845), (71087, 71087), (71350, 71350), (71984, 71984), (71997, 71997),
    (73537, 73537), (119141, 119142), (119149, 119154), (917536, 917631)]

/-- Characters without a printed form of their own: controls, separators other than the space,
unassigned and private codes, and marks that extend the character before them. -/
def isUnprintable (c : Char) : Bool :=
  if 32 ≤ c.toNat && c.toNat < 127 then false
  else
    [.cc, .cf, .cs, .co, .cn, .zs, .zl, .zp, .mn, .me].contains (category c) ||
      extendingRanges.any fun range => range.1 ≤ c.toNat && c.toNat ≤ range.2

end NetlinkFamily.Text
