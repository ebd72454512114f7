import NetlinkFamily.Wire.Bytes

/-!
Streams of attributes. Each attribute starts with a header of two words: the length of header and
payload, then the type with two flag bits. The next attribute starts at a multiple of four bytes.
-/

namespace NetlinkFamily

/-- The least multiple of four that is not below `length`. -/
def alignUp (length : Nat) : Nat :=
  (length + 3) / 4 * 4

theorem le_alignUp (length : Nat) : length ≤ alignUp length := by
  unfold alignUp
  omega

/-- An attribute as it stands in a stream. -/
structure RawAttribute where
  /-- The low 14 bits of the type field. -/
  type : Nat
  /-- The highest bit of the type field. -/
  nested : Bool
  payload : Bytes
  deriving DecidableEq, Inhabited

/-- Where a stream ends inside an attribute. -/
structure Truncation where
  offset : Nat
  needed : Nat
  available : Nat
  deriving DecidableEq, Inhabited

namespace Stream

def headerLength : Nat := 4

def maxLength : Nat := UInt16.size - 1

/-- The type field holds types below this bound next to its flags. -/
def typeBound : Nat := 0x4000

/-- The bit of the type field that marks a nest. -/
def nestedFlag : UInt16 := 0x8000

/-- The attributes of `data`, which starts at `offset`, behind those already read. The last
attribute may lack its padding. -/
def splitFrom (offset : Nat) (data : Bytes) (read : List RawAttribute) :
    Except Truncation (List RawAttribute) :=
  match data with
  | [] => .ok read.reverse
  | a :: b :: c :: d :: rest =>
      let length := Bytes.toNat [a, b]
      let field := Bytes.toNat [c, d]
      let payload := rest.take (length - headerLength)
      if length < headerLength ∨ payload.length < length - headerLength then
        .error
          { offset, needed := max length headerLength, available := headerLength + rest.length }
      else
        splitFrom (offset + alignUp length) (rest.drop (alignUp length - headerLength))
          ({ type := field % typeBound, nested := 0x8000 ≤ field, payload } :: read)
  | short => .error { offset, needed := headerLength, available := short.length }
termination_by data.length
decreasing_by simp; omega

/-- The attributes of a stream, in order. -/
def split (data : Bytes) : Except Truncation (List RawAttribute) :=
  splitFrom 0 data []

theorem splitFrom_payload {bound offset : Nat} {data : Bytes} {read attrs : List RawAttribute}
    (fits : data.length ≤ bound)
    (before : ∀ attr ∈ read, attr.payload.length + headerLength ≤ bound)
    (done : splitFrom offset data read = .ok attrs) :
    ∀ attr ∈ attrs, attr.payload.length + headerLength ≤ bound := by
  induction offset, data, read using splitFrom.induct with
  | case1 offset read =>
      simp only [splitFrom, Except.ok.injEq] at done
      subst done
      simpa using before
  | case2 offset read a b c d rest length payload bad =>
      rw [splitFrom, if_pos bad] at done
      cases done
  | case3 offset read a b c d rest length field payload good ih =>
      rw [splitFrom, if_neg good] at done
      refine ih ?_ ?_ done
      · have shorter := (List.drop_sublist (alignUp length - headerLength) rest).length_le
        simp only [List.length_cons] at fits
        omega
      · intro attr member
        rcases List.mem_cons.1 member with rfl | member
        · have shorter : payload.length ≤ rest.length := (List.take_sublist _ _).length_le
          simp only [List.length_cons] at fits
          simp only [headerLength]
          omega
        · exact before attr member
  | case4 offset data read notNil notLong =>
      rw [splitFrom] at done
      · cases done
      · exact notNil
      · exact notLong

/-- A payload is shorter than the stream around it. -/
theorem split_payload {data : Bytes} {attrs : List RawAttribute} (done : split data = .ok attrs) :
    ∀ attr ∈ attrs, attr.payload.length + headerLength ≤ data.length :=
  splitFrom_payload (Nat.le_refl _) (by simp) done

theorem payload_lt {data : Bytes} {attrs : List RawAttribute} (done : split data = .ok attrs)
    {attr : RawAttribute} (listed : attr ∈ attrs) : attr.payload.length < data.length := by
  have within := split_payload done attr listed
  simp only [headerLength] at within
  omega

/-- A buffer filled up with zeros to a multiple of four bytes. -/
def padded (buffer : Bytes) : Bytes :=
  buffer ++ Bytes.zeros (alignUp buffer.length - buffer.length)

/-- The two words in front of a payload. -/
def header (length : Nat) (type : UInt16) : Bytes :=
  Bytes.ofNat 2 length ++ Bytes.ofNat 2 type.toNat

/-- A buffer with one attribute behind it, unless the length does not fit the header. -/
def put? (buffer : Bytes) (type : UInt16) (payload : Bytes) : Option Bytes :=
  let length := headerLength + payload.length
  if length ≤ maxLength then some (padded (buffer ++ header length type ++ payload)) else none

/-- A buffer with the header of a nest behind it. Its length is filled in by `closeNest?`. -/
def openNest (buffer : Bytes) (type : UInt16) : Bytes :=
  buffer ++ header 0 (type ||| nestedFlag)

/-- This ends the nest that was opened at `start`, unless its length does not fit the header. -/
def closeNest? (buffer : Bytes) (start : Nat) : Option Bytes :=
  let length := buffer.length - start
  if length ≤ maxLength then
    some (padded (buffer.take start ++ Bytes.ofNat 2 length ++ buffer.drop (start + 2)))
  else none

end Stream

end NetlinkFamily
