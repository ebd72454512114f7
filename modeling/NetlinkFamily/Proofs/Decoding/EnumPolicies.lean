import NetlinkFamily.Proofs.Decoding.Vetting
import NetlinkFamily.Proofs.Model.Ranges

namespace NetlinkFamily

open Outcome

/-- A scalar that is checked against an enumeration: there is no mask and no minimum. -/
structure Attribute.IsTypedBy (constants : Registry Constant) (attr : Attribute)
    (type : ScalarType) (set : EnumSet) : Prop where
  kind : attr.kind = .scalar type
  unmasked : attr.isBitfield = false ∧ attr.checks.flagsMask = none
  unbounded : attr.checks.min = none
  refers : ∃ name, attr.enumRef = some name ∧ Constant.lookupEnum constants name = .ok set

/-- The number in a payload, widened to 64 bits. -/
def Attribute.numberIn (attr : Attribute) (type : ScalarType) (payload : Bytes) : UInt64 :=
  ⟨(Scalar.ofBytes attr.isBigEndian type payload).wide⟩

/-- The policy for the numbers between two bounds. -/
def WirePolicy.ofRange (type : ScalarType) (range : UInt64 × UInt64) : WirePolicy :=
  if range.1 = 0 then .max type range.2 else .range type range.1 range.2

/-- A number passes a range when it lies within it. -/
theorem WirePolicy.checkScalar_ofRange {type : ScalarType} {low high : UInt64} (number : Scalar) :
    (ofRange type (low, high)).checkScalar (.scalar number) = .ok () ↔
      low ≤ ⟨number.wide⟩ ∧ ⟨number.wide⟩ ≤ high := by
  have found : (⟨number.wide⟩ : UInt64).toNat = number.wide.toNat := rfl
  rw [UInt64.le_iff_toNat_le, UInt64.le_iff_toNat_le, found, ofRange]
  by_cases zero : low = 0
  · subst zero
    change (if high.toNat < number.wide.toNat then _ else _) = _ ↔ _
    split <;> simp <;> omega
  · rw [if_neg zero]
    change (if number.wide.toNat < low.toNat ∨ high.toNat < number.wide.toNat then _ else _) = _ ↔ _
    split <;> simp <;> omega

namespace Attribute.IsTypedBy

variable {constants : Registry Constant} {attr : Attribute} {type : ScalarType} {set : EnumSet}

/-- A typed attribute is checked by the range of its enumeration. -/
theorem wirePolicy_eq (typed : attr.IsTypedBy constants type set) :
    attr.wirePolicy constants =
      set.valueRange.map fun range => some (WirePolicy.ofRange type range) := by
  obtain ⟨name, refers, looked⟩ := typed.refers
  simp only [wirePolicy, typed.kind, scalarPolicy, typed.unmasked.1, typed.unmasked.2,
    typed.unbounded, refers, looked, Bool.false_eq_true, if_false, bind, Except.bind]
  cases set.valueRange <;> rfl

/-- Without a range there is no policy. -/
theorem wirePolicy_eq_error_iff (typed : attr.IsTypedBy constants type set) :
    attr.wirePolicy constants = .error (.noncontiguousEnum set.name) ↔
      ∀ low high, ¬set.Spans low high := by
  rw [typed.wirePolicy_eq, ← EnumSet.valueRange_eq_error_iff]
  cases set.valueRange <;> simp [Except.map]

/-- The handling peer takes the numbers in the range. -/
theorem value_eq_ok_iff {scope : Scope} (typed : attr.IsTypedBy scope.constants type set)
    (payload : Bytes) (found : Value) :
    Decoding.value scope .handling attr payload = .ok found ↔
      payload.length = type.width ∧
        found = .scalar (Scalar.ofBytes attr.isBigEndian type payload) ∧
        ∃ low high, set.Spans low high ∧
          low ≤ attr.numberIn type payload ∧ attr.numberIn type payload ≤ high := by
  rw [Decoding.scalar_eq_ok_iff typed.kind, typed.wirePolicy_eq]
  refine and_congr_right fun _ => and_congr_right ?_
  rintro rfl
  simp only [map_eq_ok_iff, Option.some.injEq]
  constructor
  · rintro ⟨_, ⟨⟨low, high⟩, range, rfl⟩, passes⟩
    rw [WirePolicy.checkScalar_ofRange] at passes
    exact ⟨low, high, EnumSet.valueRange_eq_ok_iff.1 range, passes⟩
  · rintro ⟨low, high, spans, passes⟩
    exact ⟨_, ⟨(low, high), EnumSet.valueRange_eq_ok_iff.2 spans, rfl⟩,
      (WirePolicy.checkScalar_ofRange _).2 passes⟩

end Attribute.IsTypedBy

/-- What an enumeration asks of the handling peer: if the values fill a range, then it takes the
values of the entries, and otherwise there is no policy. -/
structure Attribute.FollowsEntries (scope : Scope) (attr : Attribute) (type : ScalarType)
    (set : EnumSet) : Prop where
  filled : ∀ low high, set.Fills low high →
    attr.wirePolicy scope.constants = .ok (some (WirePolicy.ofRange type (low, high))) ∧
    ∀ payload, (∃ found, Decoding.value scope .handling attr payload = .ok found) ↔
      payload.length = type.width ∧ attr.numberIn type payload ∈ set.values
  unfilled : (∀ low high, ¬set.Fills low high) →
    attr.wirePolicy scope.constants = .error (.noncontiguousEnum set.name)

namespace Attribute.IsTypedBy

variable {scope : Scope} {attr : Attribute} {type : ScalarType} {set : EnumSet}

/-- An attribute follows the entries where their range is exact. -/
theorem followsEntries (typed : attr.IsTypedBy scope.constants type set)
    (exact : set.RangeExact) : attr.FollowsEntries scope type set where
  filled low high fills := by
    have range := (exact low high).2 fills
    refine ⟨by rw [typed.wirePolicy_eq, range, Except.map], fun payload => ?_⟩
    simp only [typed.value_eq_ok_iff, fills.exact]
    constructor
    · rintro ⟨_, width, _, least, most, spans, passes⟩
      obtain ⟨rfl, rfl⟩ := fills.unique spans
      exact ⟨width, passes⟩
    · rintro ⟨width, passes⟩
      exact ⟨_, width, rfl, low, high, EnumSet.valueRange_eq_ok_iff.1 range, passes⟩
  unfilled none := by
    rw [typed.wirePolicy_eq_error_iff]
    intro low high spans
    exact none low high ((exact low high).1 (EnumSet.valueRange_eq_ok_iff.2 spans))

/-- The peer follows the entries exactly if the range is derived exactly. -/
theorem followsEntries_iff (typed : attr.IsTypedBy scope.constants type set) :
    attr.FollowsEntries scope type set ↔ set.RangeExact := by
  refine ⟨fun follows => ?_, typed.followsEntries⟩
  rw [EnumSet.rangeExact_iff]
  by_cases filled : ∃ low high, set.Fills low high
  · obtain ⟨low, high, fills⟩ := filled
    have policy := (follows.filled low high fills).1
    rw [typed.wirePolicy_eq, map_eq_ok_iff] at policy
    obtain ⟨⟨least, most⟩, range, _⟩ := policy
    have spans := EnumSet.valueRange_eq_ok_iff.1 range
    obtain ⟨rfl, rfl⟩ := fills.unique spans
    exact .inl (fills.spans_iff.1 spans)
  · simp only [not_exists] at filled
    have none := typed.wirePolicy_eq_error_iff.1 (follows.unfilled filled)
    exact .inr fun low high => ⟨none low high, filled low high⟩

end Attribute.IsTypedBy

namespace EnumSet

/-- An enumeration gives the range from its lowest to its highest value if there are as many entries
as numbers in it. That is right exactly if no two entries share a value, or if the entries that do
neither fit nor fill any range. What checks a scalar against the enumeration is the range, and it is
right in the same cases. -/
theorem valueRange_exact_iff (set : EnumSet) :
    (∀ low high, set.valueRange = .ok (low, high) ↔ set.Spans low high) ∧
    (set.RangeExact ↔
      set.values.Nodup ∨ ∀ low high, ¬set.Spans low high ∧ ¬set.Fills low high) ∧
    ∀ scope attr type, attr.IsTypedBy scope.constants type set →
      (∀ payload found, Decoding.value scope .handling attr payload = .ok found ↔
        payload.length = type.width ∧
          found = .scalar (Scalar.ofBytes attr.isBigEndian type payload) ∧
          ∃ low high, set.Spans low high ∧
            low ≤ attr.numberIn type payload ∧ attr.numberIn type payload ≤ high) ∧
      (attr.wirePolicy scope.constants = .error (.noncontiguousEnum set.name) ↔
        ∀ low high, ¬set.Spans low high) ∧
      (attr.FollowsEntries scope type set ↔ set.RangeExact) := by
  refine ⟨fun _ _ => valueRange_eq_ok_iff, rangeExact_iff, fun scope attr type typed => ?_⟩
  exact ⟨typed.value_eq_ok_iff, typed.wirePolicy_eq_error_iff, typed.followsEntries_iff⟩

/-- A number that is checked against grades from one to three. -/
def graded : Spec.File where
  license := Spec.acceptedLicense
  family :=
    { name := "f"
      definitions :=
        [{ name := "grade"
           kind := .enum
           valueStart := some 1
           entries := [.bare "low", .full "top" (some 3) none, .full "middle" (some 2) none] }]
      attributeSets :=
        [{ name := "f"
           attributes := [{ name := "x", kind := some "u8", enumRef := some "grade" }] }]
      operations := { list := [{ name := "get", attributeSet := some "f" }] } }

theorem isSome_ofSpec_graded : (Family.ofSpec graded []).toOption.isSome = true := by
  decide +kernel

/-- The family with an attribute of graded values. -/
def gradedFamily : Family :=
  (Family.ofSpec graded []).toOption.get isSome_ofSpec_graded

/-- The enumeration of that family can be found. -/
theorem isSome_grades :
    (Constant.lookupEnum gradedFamily.constants "grade").toOption.isSome = true := by
  decide +kernel

/-- The enumeration of that family. -/
def grades : EnumSet :=
  (Constant.lookupEnum gradedFamily.constants "grade").toOption.get isSome_grades

/-- The attribute of that family can be found. -/
theorem isSome_gradedAttribute :
    (gradedFamily.attributeSet "f" >>= (·.find "x")).toOption.isSome = true := by
  decide +kernel

/-- The attribute of that family. -/
def gradedAttribute : Attribute :=
  (gradedFamily.attributeSet "f" >>= (·.find "x")).toOption.get isSome_gradedAttribute

/-- The grades are given out of order. The handling peer takes the second one and not the fourth. -/
theorem valueRange_exact_iff_grades :
    grades.RangeExact ∧ gradedAttribute.FollowsEntries gradedFamily.toScope .u8 grades ∧
      (∃ found, Decoding.value gradedFamily.toScope .handling gradedAttribute [2] = .ok found) ∧
      ¬∃ found, Decoding.value gradedFamily.toScope .handling gradedAttribute [4] = .ok found := by
  have typed : gradedAttribute.IsTypedBy gradedFamily.constants .u8 grades :=
    ⟨by decide +kernel, by decide +kernel, by decide +kernel, "grade", by decide +kernel,
      eq_ok_get isSome_grades⟩
  obtain ⟨spans, exact, checks⟩ := valueRange_exact_iff grades
  have rangeExact : grades.RangeExact := exact.2 (.inl (by decide +kernel))
  have range : grades.valueRange = .ok (1, 3) := by decide +kernel
  have follows := (checks gradedFamily.toScope gradedAttribute .u8 typed).2.2.2 rangeExact
  have accepted := (follows.filled 1 3 ((rangeExact 1 3).1 range)).2
  exact ⟨rangeExact, follows, (accepted [2]).2 (by decide +kernel),
    fun taken => absurd ((accepted [4]).1 taken) (by decide +kernel)⟩

/-- An enumeration of which two entries share a value. -/
def clashing : Spec.Definition where
  name := "e"
  kind := .enum
  entries := [.full "a" (some 0) none, .full "b" (some 0) none, .full "c" (some 2) none]

/-- A range may be given for values that leave a gap. -/
theorem not_forall_rangeExact :
    ¬∀ (familyName : String) (definition : Spec.Definition), definition.kind = .enum →
      (EnumSet.ofDefinition familyName definition).RangeExact := by
  intro claim
  have range : (EnumSet.ofDefinition "f" clashing).valueRange = .ok (0, 2) := by decide +kernel
  have listed := (((claim "f" clashing rfl 0 2).1 range).exact 1).2 (by decide)
  exact absurd listed (by decide +kernel)

end EnumSet

end NetlinkFamily
