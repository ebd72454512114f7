import Mathlib.Algebra.GroupWithZero.Nat
import NetlinkFamily.Wire.Stream

namespace NetlinkFamily

/-- An attribute that a header can announce. -/
structure RawAttribute.Fits (raw : RawAttribute) : Prop where
  type : raw.type < Stream.typeBound
  length : Stream.headerLength + raw.payload.length ≤ Stream.maxLength

/-- The bytes of an attribute, but for those that fill its last word. -/
def RawAttribute.size (raw : RawAttribute) : Nat :=
  Stream.headerLength + raw.payload.length

namespace Stream

/-- What is split off behind the attributes that were read before. -/
theorem splitFrom_bounds {offset : Nat} {data : Bytes} {read attrs : List RawAttribute}
    (done : splitFrom offset data read = .ok attrs) :
    ∃ found, attrs = read.reverse ++ found ∧ (∀ attr ∈ found, attr.Fits) ∧
      (found.map RawAttribute.size).sum ≤ data.length := by
  induction offset, data, read using splitFrom.induct with
  | case1 offset read =>
      simp only [splitFrom, Except.ok.injEq] at done
      exact ⟨[], by simp [done], by simp, by simp⟩
  | case2 offset read a b c d rest length payload bad =>
      rw [splitFrom, if_pos bad] at done
      cases done
  | case3 offset read a b c d rest length field payload good ih =>
      rw [splitFrom, if_neg good] at done
      obtain ⟨found, rfl, fits, bound⟩ := ih done
      refine ⟨{ type := field % typeBound, nested := 0x8000 ≤ field, payload } :: found, by simp,
        List.forall_mem_cons.2 ⟨⟨Nat.mod_lt field (by decide), ?_⟩, fits⟩, ?_⟩
      · have short : payload.length ≤ length - headerLength := List.length_take_le _ _
        have word : length < Nat.pow 256 2 := Bytes.toNat_lt [a, b]
        have words : Nat.pow 256 2 = maxLength + 1 := by decide
        have announced : headerLength ≤ length := Nat.le_of_not_lt fun few => good (.inl few)
        dsimp only
        omega
      · -- Both the payload and what is left out in front of the next attribute are cut off `rest`.
        have fill := le_alignUp length
        have cut : payload.length = min (length - headerLength) rest.length := List.length_take
        simp only [List.length_drop] at bound
        simp only [List.map_cons, List.sum_cons, List.length_cons, RawAttribute.size, headerLength]
          at bound fill cut ⊢
        omega
  | case4 offset data read notNil notLong =>
      rw [splitFrom] at done
      · cases done
      · exact notNil
      · exact notLong

/-- Every attribute that is split off fits a stream. -/
theorem split_fits {data : Bytes} {attrs : List RawAttribute} (done : split data = .ok attrs) :
    ∀ attr ∈ attrs, attr.Fits := by
  obtain ⟨found, rfl, fits, _⟩ := splitFrom_bounds done
  simpa using fits

/-- The attributes of a stream have room in it. -/
theorem size_split {data : Bytes} {attrs : List RawAttribute} (done : split data = .ok attrs) :
    (attrs.map RawAttribute.size).sum ≤ data.length := by
  obtain ⟨found, rfl, _, bound⟩ := splitFrom_bounds done
  simpa using bound

/-- Attributes take at least their headers. -/
theorem headerLength_mul_le_size (attrs : List RawAttribute) :
    headerLength * attrs.length ≤ (attrs.map RawAttribute.size).sum := by
  induction attrs with
  | nil => simp
  | cons attr rest ih =>
      simp only [List.map_cons, List.sum_cons, List.length_cons, RawAttribute.size, headerLength]
        at ih ⊢
      omega

/-- A stream has a header for each of its attributes. -/
theorem length_split {data : Bytes} {attrs : List RawAttribute} (done : split data = .ok attrs) :
    headerLength * attrs.length ≤ data.length :=
  Nat.le_trans (headerLength_mul_le_size attrs) (size_split done)

end Stream

end NetlinkFamily
