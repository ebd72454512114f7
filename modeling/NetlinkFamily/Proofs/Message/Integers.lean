import NetlinkFamily.Message.Policy
import NetlinkFamily.Model.Family
import NetlinkFamily.Proofs.Model.Ranges
import NetlinkFamily.Proofs.Outcome

namespace NetlinkFamily

open Outcome

/-- No scalar is wider than sixty-four bits. -/
theorem ScalarType.bits_le (type : ScalarType) : type.bits ≤ 64 := by
  cases type <;> decide

namespace Scalar

variable (number : Scalar)

/-- A number without a sign is not negative. -/
theorem toInt_nonneg (unsigned : number.type.isSigned = false) : 0 ≤ number.toInt := by
  rw [toInt, unsigned]
  exact Int.natCast_nonneg _

/-- Every number lies within the bounds of both signs. -/
theorem toInt_bounds : -2 ^ 63 ≤ number.toInt ∧ number.toInt < 2 ^ 64 := by
  obtain ⟨type, bits⟩ := number
  have below := bits.le_toInt
  have above := bits.toInt_lt
  have small := bits.isLt
  cases type <;>
    simp only [toInt, ScalarType.isSigned, ScalarType.bits, ScalarType.width] at * <;> omega

/-- A negative number widens to the one that lies above it by the number of 64-bit words. -/
theorem toNat_wide : (number.wide.toNat : Int) =
    if number.toInt < 0 then number.toInt + 2 ^ 64 else number.toInt := by
  obtain ⟨below, above⟩ := number.toInt_bounds
  rw [wide, BitVec.toNat_ofInt]
  split <;> omega

/-- The sign fills the bits that the type does not have. -/
theorem getLsbD_wide {bit : Nat} (within : bit < 64) :
    number.wide.getLsbD bit =
      if bit < number.type.bits then number.bits.getLsbD bit else decide (number.toInt < 0) := by
  rw [wide, toInt]
  cases number.type.isSigned with
  | true =>
      have extended : BitVec.ofInt 64 number.bits.toInt = number.bits.signExtend 64 := rfl
      rw [if_pos rfl, extended, BitVec.getLsbD_signExtend, BitVec.msb_eq_toInt]
      simp [within]
  | false =>
      rw [if_neg Bool.false_ne_true, BitVec.ofInt_natCast, BitVec.getLsbD_ofNat]
      split
      · simp [within, BitVec.getLsbD]
      · rename_i outside
        have clear := BitVec.getLsbD_of_ge number.bits bit (Nat.le_of_not_lt outside)
        rw [BitVec.getLsbD] at clear
        simp [clear]

end Scalar

namespace WirePolicy

/-- What a policy asks of a number: that all bits of its type that are set are in the mask, or that
it lies within the bounds. -/
def Admits (policy : WirePolicy) (number : Scalar) : Prop :=
  match policy with
  | .mask _ allowed =>
      ∀ bit < number.type.bits, number.bits.getLsbD bit = true → allowed.toNat.testBit bit = true
  | .min _ least => least.toInt ≤ number.toInt
  | .max _ most => 0 ≤ number.toInt ∧ number.toInt ≤ most.toNat
  | .range _ low high => low.toNat ≤ number.toInt ∧ number.toInt ≤ high.toNat
  | _ => True

/-- The check accepts a number exactly if the policy admits it. -/
def Decides (policy : WirePolicy) (number : Scalar) : Prop :=
  policy.checkScalar (.scalar number) = .ok () ↔ policy.Admits number

/-- A negative number is judged by the large one that it widens to, and the judgement is wrong. -/
def Misjudges (policy : WirePolicy) (number : Scalar) : Prop :=
  number.toInt < 0 ∧
    match policy with
    | .mask _ allowed =>
        policy.Admits number ∧
          ∃ bit < 64, number.type.bits ≤ bit ∧ allowed.toNat.testBit bit = false
    | .max _ most => number.toInt + 2 ^ 64 ≤ most.toNat
    | .range _ low high =>
        low.toNat ≤ number.toInt + 2 ^ 64 ∧ number.toInt + 2 ^ 64 ≤ high.toNat
    | _ => False

variable {type : ScalarType} {number : Scalar}

/-- No bit stands outside of a mask exactly if the mask has all bits. -/
theorem outside_eq_zero_iff {bits allowed : BitVec 64} :
    bits &&& ~~~allowed = 0 ↔
      ∀ bit < 64, bits.getLsbD bit = true → allowed.getLsbD bit = true := by
  constructor
  · intro empty bit within set
    have clear := congrArg (·.getLsbD bit) empty
    simpa [BitVec.getLsbD_and, BitVec.getLsbD_not, within, set] using clear
  · intro inside
    refine BitVec.eq_of_getLsbD_eq fun bit within => ?_
    rw [BitVec.getLsbD_and, BitVec.getLsbD_not]
    cases set : bits.getLsbD bit with
    | false => simp
    | true => simp [within, inside bit within set]

/-- A number passes a mask when all its bits are allowed. -/
theorem checkScalar_mask_iff {allowed : UInt64} :
    (mask type allowed).checkScalar (.scalar number) = .ok () ↔
      ∀ bit < 64, number.wide.getLsbD bit = true → allowed.toNat.testBit bit = true := by
  change (if number.wide &&& ~~~allowed.toBitVec = 0 then Except.ok () else _) = _ ↔ _
  refine Iff.trans ?_ outside_eq_zero_iff
  split <;> simp_all

/-- A number passes a minimum when it is no smaller. -/
theorem checkScalar_min_iff {least : Int64} :
    (min number.type least).checkScalar (.scalar number) = .ok () ↔
      least.toInt ≤ number.toInt := by
  have below : isBelow number.type least.toInt (.scalar number) =
      decide (number.toInt < least.toInt) := by
    rw [isBelow, Value.signed?, Value.unsigned?, Scalar.toInt]
    cases number.type.isSigned <;> rfl
  rw [checkScalar, below]
  split <;> simp_all

/-- A number passes a maximum when it is no greater as it is read. -/
theorem checkScalar_max_iff {most : UInt64} :
    (max type most).checkScalar (.scalar number) = .ok () ↔ number.wide.toNat ≤ most.toNat := by
  change (if most.toNat < number.wide.toNat then _ else _) = _ ↔ _
  split <;> simp <;> omega

/-- A number passes a range when it lies within it as it is read. -/
theorem checkScalar_range_iff {low high : UInt64} :
    (range type low high).checkScalar (.scalar number) = .ok () ↔
      low.toNat ≤ number.wide.toNat ∧ number.wide.toNat ≤ high.toNat := by
  change (if number.wide.toNat < low.toNat ∨ high.toNat < number.wide.toNat then _ else _) = _ ↔ _
  split <;> simp <;> omega

/-- A mask is asked about the bits of the type, and about the sign for all bits behind them. -/
theorem checkScalar_mask_iff_admits {allowed : UInt64} :
    (mask type allowed).checkScalar (.scalar number) = .ok () ↔
      (mask type allowed).Admits number ∧
        (number.toInt < 0 →
          ∀ bit < 64, number.type.bits ≤ bit → allowed.toNat.testBit bit = true) := by
  rw [checkScalar_mask_iff]
  constructor
  · intro inside
    refine ⟨fun bit own set => ?_, fun negative bit within beyond => ?_⟩
    · have within := Nat.lt_of_lt_of_le own number.type.bits_le
      exact inside bit within (by rw [number.getLsbD_wide within, if_pos own, set])
    · refine inside bit within ?_
      rw [number.getLsbD_wide within, if_neg (Nat.not_lt.2 beyond), decide_eq_true negative]
  · rintro ⟨admitted, filled⟩ bit within set
    rw [number.getLsbD_wide within] at set
    split at set
    · rename_i own
      exact admitted bit own set
    · rename_i beyond
      exact filled (of_decide_eq_true set) bit within (Nat.le_of_not_lt beyond)

/-- A mask decides a number unless it misjudges it. -/
theorem decides_mask_iff {allowed : UInt64} :
    (mask type allowed).Decides number ↔ ¬(mask type allowed).Misjudges number := by
  rw [Decides, checkScalar_mask_iff_admits, and_iff_left_iff_imp, Misjudges]
  constructor
  · rintro filled ⟨negative, admitted, bit, within, beyond, clear⟩
    have set := filled admitted negative bit within beyond
    rw [clear] at set
    cases set
  · intro right admitted negative bit within beyond
    by_contra clear
    exact right ⟨negative, admitted, bit, within, beyond, Bool.eq_false_of_not_eq_true clear⟩

/-- A check decides what its policy asks, but for negative numbers that are misjudged. A minimum
has to be for the type of the number, since it counts signs by its own type. -/
theorem decides_iff {policy : WirePolicy}
    (typed : ∀ type least, policy = .min type least → type = number.type) :
    policy.Decides number ↔ ¬policy.Misjudges number := by
  have widened := number.toNat_wide
  cases policy with
  | mask type allowed => exact decides_mask_iff
  | min type least =>
      obtain rfl := typed type least rfl
      simp only [Decides, checkScalar_min_iff, Admits, Misjudges]
      simp
  | max type most =>
      rw [Decides, checkScalar_max_iff, Admits, Misjudges]
      split at widened <;> omega
  | range type low high =>
      rw [Decides, checkScalar_range_iff, Admits, Misjudges]
      split at widened <;> omega
  | _ => simp [Decides, checkScalar, Admits, Misjudges]

end WirePolicy

namespace Attribute

variable {constants : Registry Constant} {attr : Attribute} {number : Scalar}
  {policy : WirePolicy}

/-- The policy of a scalar is for its type, and a maximum is one less than the number of entries of
the enumeration that it comes from. -/
theorem scalar_of_wirePolicy {type : ScalarType} (kind : attr.kind = .scalar type)
    (derived : attr.wirePolicy constants = .ok (some policy)) :
    (∀ other least, policy = .min other least → other = type) ∧
      ∀ other most, policy = .max other most → ∃ name set, attr.enumRef = some name ∧
        Constant.lookupEnum constants name = .ok set ∧ set.entries.size = most.toNat + 1 := by
  simp only [wirePolicy, kind, map_eq_ok_iff, Option.some.injEq, exists_eq_right] at derived
  unfold scalarPolicy at derived
  split at derived
  · simp only [bind_eq_ok_iff, pure_eq_ok_iff] at derived
    obtain ⟨_, _, rfl⟩ := derived
    simp
  · split at derived
    · simp only [bind_eq_ok_iff, pure_eq_ok_iff] at derived
      obtain ⟨_, _, rfl⟩ := derived
      simp
    · obtain rfl := Except.ok.inj derived
      simp
    · rename_i name _ _ refers
      simp only [bind_eq_ok_iff, pure_eq_ok_iff] at derived
      obtain ⟨set, looked, ⟨low, high⟩, range, rfl⟩ := derived
      dsimp only
      split
      · rename_i zero
        subst zero
        refine ⟨by simp, ?_⟩
        rintro _ _ ⟨⟩
        have count := (EnumSet.valueRange_eq_ok_iff.1 range).count
        rw [EnumSet.values, Registry.values, List.length_map, List.length_map] at count
        exact ⟨name, set, refers, looked, count.symm⟩
      · simp
    · obtain rfl := Except.ok.inj derived
      simp

/-- The check of a scalar decides the law of its policy, but for the negative numbers that it
misjudges. A maximum misjudges a number only if its enumeration has more than `2 ^ 63` entries. -/
theorem wirePolicy_decides_iff (kind : attr.kind = .scalar number.type)
    (derived : attr.wirePolicy constants = .ok (some policy)) :
    (policy.Decides number ↔ ¬policy.Misjudges number) ∧
      (0 ≤ number.toInt → policy.Decides number) ∧
      ∀ type most, policy = .max type most → policy.Misjudges number →
        ∃ name set, attr.enumRef = some name ∧ Constant.lookupEnum constants name = .ok set ∧
          2 ^ 63 < set.entries.size := by
  obtain ⟨typed, counted⟩ := scalar_of_wirePolicy kind derived
  have decides := WirePolicy.decides_iff typed
  refine ⟨decides, fun nonnegative => decides.2 fun misjudges => ?_, ?_⟩
  · exact absurd misjudges.1 (Int.not_lt.2 nonnegative)
  · rintro type most rfl ⟨_, large⟩
    obtain ⟨name, set, refers, looked, size⟩ := counted type most rfl
    have bound := number.toInt_bounds.1
    exact ⟨name, set, refers, looked, by dsimp only at large; omega⟩

/-- Signed attributes with a mask that has the bit of the sign, with the highest value of an
enumeration, and with a minimum. -/
def signed : Spec.File where
  license := Spec.acceptedLicense
  family :=
    { name := "f"
      definitions :=
        [{ name := "bits", kind := .flags, entries := [.bare "low", .full "top" (some 31) none] },
         { name := "last", kind := .enum
           entries := [.full "only" (some 18446744073709551615) none] }]
      attributeSets :=
        [{ name := "f"
           attributes :=
            [{ name := "x", kind := some "s32", enumRef := some "bits" },
             { name := "y", kind := some "s64", enumRef := some "last" },
             { name := "z", kind := some "s64", checks := some { min := some (-3) } }] }]
      operations := { list := [{ name := "get", attributeSet := some "f" }] } }

theorem isSome_ofSpec_signed : (Family.ofSpec signed []).toOption.isSome = true := by
  decide +kernel

/-- The family with signed attributes. -/
def signedFamily : Family :=
  (Family.ofSpec signed []).toOption.get isSome_ofSpec_signed

/-- One of the attributes of that family. -/
def signedAttribute (name : String) : Attribute :=
  ((signedFamily.sets.get? "f").bind (·.attrs.get? name)).getD default

/-- The mask is right for a positive number, and wrong for the sign alone. The minimum is right. -/
theorem wirePolicy_decides_iff_signed :
    (signedAttribute "x").wirePolicy signedFamily.constants =
        .ok (some (.mask .s32 2147483649)) ∧
      (WirePolicy.mask .s32 2147483649).Decides (Scalar.ofInt .s32 5) ∧
      ¬(WirePolicy.mask .s32 2147483649).Decides (Scalar.ofInt .s32 (-2147483648)) ∧
      (signedAttribute "z").wirePolicy signedFamily.constants = .ok (some (.min .s64 (-3))) ∧
      (WirePolicy.min .s64 (-3)).Decides (Scalar.ofInt .s64 (-4)) := by
  have masked : (signedAttribute "x").wirePolicy signedFamily.constants =
      .ok (some (.mask .s32 2147483649)) := by decide +kernel
  have bounded : (signedAttribute "z").wirePolicy signedFamily.constants =
      .ok (some (.min .s64 (-3))) := by decide +kernel
  refine ⟨masked, ?_, fun decides => ?_, bounded, ?_⟩
  · exact (wirePolicy_decides_iff (by decide +kernel) masked).2.1 (by decide)
  · have right := (wirePolicy_decides_iff (by decide +kernel) masked).1.1 decides
    refine right ⟨by decide, fun bit own => ?_, 32, by decide⟩
    revert bit
    decide
  · refine (wirePolicy_decides_iff (by decide +kernel) bounded).1.2 ?_
    rintro ⟨_, ⟨⟩⟩

/-- A negative number may pass for the highest value there is. -/
theorem not_forall_decides :
    ¬∀ (constants : Registry Constant) (attr : Attribute) (number : Scalar) (policy : WirePolicy),
      attr.kind = .scalar number.type → attr.wirePolicy constants = .ok (some policy) →
        policy.Decides number := by
  intro claim
  have ranged := claim signedFamily.constants (signedAttribute "y") (Scalar.ofInt .s64 (-1))
    (.range .s64 18446744073709551615 18446744073709551615) (by decide +kernel) (by decide +kernel)
  have admitted := ranged.1 (by decide +kernel)
  exact absurd admitted.1 (by decide +kernel)

end Attribute

end NetlinkFamily
