import NetlinkFamily.C.Code

/-!
Members of C structures.
-/

namespace NetlinkFamily.C

/-- How a structure holds a member. -/
inductive Holding where
  | value
  | pointer
  /-- Another structure by value. Its type must be complete. -/
  | embedded
  deriving DecidableEq, Inhabited

structure Field where
  holding : Holding := .value
  type : String
  name : String
  /-- What stands between the name and the semicolon. -/
  ending : String := ""
  deriving DecidableEq, Inhabited

def Field.text (field : Field) : String :=
  field.type ++ " " ++ (if field.holding = .pointer then "*" else "") ++ field.name ++
    field.ending ++ ";"

def Field.code (field : Field) : Code :=
  .line field.text

end NetlinkFamily.C
