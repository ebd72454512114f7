import Mathlib.Data.List.Perm.Subperm
import NetlinkFamily.Proofs.Decoding.Vetting
import NetlinkFamily.Proofs.Message.Integers
import NetlinkFamily.Proofs.Model.Masks

namespace NetlinkFamily

open Outcome

/-- Words are the same if they have the same bits. -/
theorem eq_iff_testBit {first second : UInt64} :
    first = second ↔
      ∀ bit < 64, (first.toNat.testBit bit = true ↔ second.toNat.testBit bit = true) := by
  constructor
  · rintro rfl _ _
    rfl
  · intro same
    refine UInt64.toNat_inj.1 (Nat.eq_of_testBit_eq fun bit => ?_)
    by_cases within : bit < 64
    · exact Bool.eq_iff_iff.2 (same bit within)
    · have large : 2 ^ 64 ≤ 2 ^ bit := Nat.pow_le_pow_right (by decide) (Nat.le_of_not_lt within)
      rw [Nat.testBit_lt_two_pow (Nat.lt_of_lt_of_le first.toNat_lt large),
        Nat.testBit_lt_two_pow (Nat.lt_of_lt_of_le second.toNat_lt large)]

/-- Of a low mask, the bits below the count are set. -/
theorem Attribute.testBit_lowMask {count bit : Nat} (within : bit < 64) :
    (lowMask count).toNat.testBit bit = true ↔ bit < count := by
  unfold lowMask
  split
  · rename_i small
    have fits : 2 ^ count - 1 < UInt64.size :=
      Nat.lt_of_le_of_lt (Nat.sub_le _ _) (Nat.pow_lt_pow_right (by decide) small)
    rw [Nat.one_shiftLeft, UInt64.toNat_ofNat_of_lt' fits, Nat.testBit_two_pow_sub_one,
      decide_eq_true_iff]
  · rename_i large
    have whole : UInt64.size - 1 = 2 ^ 64 - 1 := rfl
    rw [UInt64.toNat_ofNat_of_lt' (by decide), whole, Nat.testBit_two_pow_sub_one,
      decide_eq_true_iff]
    omega

/-- The value of a flag is a power of two when its index is the exponent. -/
theorem EnumEntry.userValue_eq_iff (entry : EnumEntry) {bit : Nat} (within : bit < 64) :
    (entry.userValue true).toNat = 2 ^ bit ↔ entry.index = bit := by
  rw [entry.toNat_userValue]
  split
  · exact Nat.pow_right_inj (by decide)
  · have positive := Nat.two_pow_pos bit
    omega

namespace EnumSet

/-- The indexes of the entries, in order. -/
def indexes (set : EnumSet) : List Nat :=
  set.entries.values.map EnumEntry.index

/-- Of the bits below a width, those below the number of entries are flags. -/
def Covers (set : EnumSet) (width : Nat) : Prop :=
  ∀ bit < width, bit < set.entries.size → bit ∈ set.indexes

variable {set : EnumSet} {width : Nat}

/-- Entries for all bits below their number are used up by these. -/
theorem perm_range_of_filled (filled : List.range set.entries.size ⊆ set.indexes) :
    set.indexes.Perm (List.range set.entries.size) := by
  have length : set.indexes.length = set.entries.size := by
    rw [indexes, List.length_map, Registry.values, List.length_map, Registry.size]
  have within : (List.range set.entries.size).Subperm set.indexes :=
    List.subperm_of_subset List.nodup_range filled
  exact (within.perm_of_length_le (by simp [length])).symm

/-- No other bit is a flag then. -/
theorem covers_iff :
    set.Covers width ↔ ∀ bit < width, (bit < set.entries.size ↔ bit ∈ set.indexes) := by
  constructor
  · refine fun covers bit within => ⟨covers bit within, fun listed => ?_⟩
    by_contra beyond
    have filled : List.range set.entries.size ⊆ set.indexes := fun other below => by
      rw [List.mem_range] at below
      exact covers other (by omega) below
    exact beyond (List.mem_range.1 ((perm_range_of_filled filled).mem_iff.1 listed))
  · exact fun same bit within => (same bit within).1

/-- As many entries as there are bits, or fewer, have the lowest indexes in any order. -/
theorem covers_iff_perm (few : set.entries.size ≤ width) :
    set.Covers width ↔ set.indexes.Perm (List.range set.entries.size) := by
  constructor
  · intro covers
    refine perm_range_of_filled fun bit below => ?_
    rw [List.mem_range] at below
    exact covers bit (Nat.lt_of_lt_of_le below few) below
  · intro same bit _ below
    exact same.mem_iff.2 (List.mem_range.2 below)

/-- The mask of a set is the low one when its flags cover all bits below their number. -/
theorem mask_eq_lowMask_iff :
    set.mask true = Attribute.lowMask set.entries.size ↔ set.Covers 64 := by
  rw [eq_iff_testBit, covers_iff]
  refine forall₂_congr fun bit within => ?_
  rw [testBit_mask (by simp) within, Attribute.testBit_lowMask within, indexes, List.mem_map]
  exact Iff.comm

end EnumSet

/-- A scalar that is checked against the flags of a set, and has not these flags for its values. -/
structure Attribute.IsMaskedBy (constants : Registry Constant) (attr : Attribute)
    (type : ScalarType) (set : EnumSet) : Prop where
  kind : attr.kind = .scalar type
  plain : attr.isBitfield = false
  refers : ∃ name, attr.checks.flagsMask = some name ∧ Constant.lookupEnum constants name = .ok set

/-- The handling peer takes the numbers of which each bit is a flag of the set. -/
def Attribute.FollowsFlags (scope : Scope) (attr : Attribute) (type : ScalarType)
    (set : EnumSet) : Prop :=
  ∀ payload, (∃ found, Decoding.value scope .handling attr payload = .ok found) ↔
    payload.length = type.width ∧
      ∀ bit < type.bits, (Scalar.ofBytes attr.isBigEndian type payload).bits.getLsbD bit = true →
        ∃ entry ∈ set.entries.values, (entry.userValue true).toNat = 2 ^ bit

namespace Attribute

variable {scope : Scope} {constants : Registry Constant} {attr : Attribute} {type : ScalarType}
  {set : EnumSet}

/-- An attribute that has a set of flags for its values is checked against the mask of the set. -/
theorem wirePolicy_of_flags {resolved : Attribute} {name : String}
    (done : attr.resolve constants = .ok resolved) (kind : attr.kind = .scalar type)
    (refers : attr.enumRef = some name) (looked : Constant.lookupEnum constants name = .ok set)
    (flags : set.isFlags = true) :
    resolved.wirePolicy constants = .ok (some (.mask type (set.mask true))) := by
  simp only [resolve, refers, Option.mapM_some, looked, bind_eq_ok_iff, pure_eq_ok_iff,
    Functor.map, map_eq_ok_iff, Except.ok.injEq, exists_eq_left'] at done
  obtain ⟨_, _, rfl⟩ := done
  simp [wirePolicy, scalarPolicy, kind, flags, looked, bind, Except.bind, pure, Except.pure,
    Except.map]

namespace IsMaskedBy

/-- A masked attribute is checked by the low mask. -/
theorem wirePolicy_eq (masked : attr.IsMaskedBy constants type set) :
    attr.wirePolicy constants = .ok (some (.mask type (lowMask set.entries.size))) := by
  obtain ⟨name, refers, looked⟩ := masked.refers
  simp [wirePolicy, scalarPolicy, masked.kind, masked.plain, refers, looked, bind, Except.bind,
    pure, Except.pure, Except.map]

/-- The handling peer takes the unsigned numbers without bits from the number of entries on. -/
theorem value_eq_ok_iff (masked : attr.IsMaskedBy scope.constants type set)
    (unsigned : type.isSigned = false) (payload : Bytes) (found : Value) :
    Decoding.value scope .handling attr payload = .ok found ↔
      payload.length = type.width ∧
        found = .scalar (Scalar.ofBytes attr.isBigEndian type payload) ∧
        ∀ bit < type.bits,
          (Scalar.ofBytes attr.isBigEndian type payload).bits.getLsbD bit = true →
            bit < set.entries.size := by
  rw [Decoding.scalar_eq_ok_iff masked.kind, masked.wirePolicy_eq]
  refine and_congr_right fun _ => and_congr_right ?_
  rintro rfl
  have nonnegative := Int.not_lt.2 (Scalar.toInt_nonneg
    (Scalar.ofBytes attr.isBigEndian type payload) unsigned)
  simp only [Except.ok.injEq, Option.some.injEq, exists_eq_left',
    WirePolicy.checkScalar_mask_iff_admits, nonnegative, false_imp_iff, and_true, WirePolicy.Admits]
  refine forall₂_congr fun bit own => ?_
  rw [testBit_lowMask (Nat.lt_of_lt_of_le own type.bits_le)]

/-- A bit below the number of entries that is no flag is let through. -/
theorem followsFlags_iff (masked : attr.IsMaskedBy scope.constants type set)
    (unsigned : type.isSigned = false) :
    attr.FollowsFlags scope type set ↔ set.Covers type.bits := by
  have taken (payload : Bytes) :
      (∃ found, Decoding.value scope .handling attr payload = .ok found) ↔
        payload.length = type.width ∧ ∀ bit < type.bits,
          (Scalar.ofBytes attr.isBigEndian type payload).bits.getLsbD bit = true →
            bit < set.entries.size := by
    simp only [masked.value_eq_ok_iff unsigned]
    exact ⟨fun ⟨_, width, _, below⟩ => ⟨width, below⟩, fun ⟨width, below⟩ => ⟨_, width, rfl, below⟩⟩
  have flag {bit : Nat} (own : bit < type.bits) :
      (∃ entry ∈ set.entries.values, (entry.userValue true).toNat = 2 ^ bit) ↔
        bit ∈ set.indexes := by
    have within := Nat.lt_of_lt_of_le own type.bits_le
    simp [EnumSet.indexes, EnumEntry.userValue_eq_iff _ within]
  constructor
  · intro follows bit own below
    -- The number that has this bit alone.
    let single : Scalar := ⟨type, BitVec.twoPow type.bits bit⟩
    have read : Scalar.ofBytes attr.isBigEndian type (single.toBytes attr.isBigEndian) = single :=
      Scalar.ofBytes_toBytes _ single
    have only {other : Nat} (set : single.bits.getLsbD other = true) : other = bit := by
      simpa [single, own, eq_comm] using set
    have accepted := (taken (single.toBytes attr.isBigEndian)).2
      ⟨Scalar.length_toBytes _ _, fun other _ set => by
        rw [read] at set
        exact only set ▸ below⟩
    obtain ⟨_, flags⟩ := (follows _).1 accepted
    refine (flag own).1 (flags bit own ?_)
    rw [read]
    simp [single, own]
  · intro covers payload
    rw [taken]
    refine and_congr_right fun _ => forall₂_congr fun bit own => ?_
    rw [flag own, EnumSet.covers_iff.1 covers bit own]

end IsMaskedBy

/-- A check against a set of flags looks at the number of its entries, and the flags as values of an
attribute give their own mask. Both masks are the same exactly if all bits below the number of
entries are flags. The handling peer follows the flags if this holds for the bits of the type. -/
theorem masks_agree_iff (masked : attr.IsMaskedBy scope.constants type set) :
    attr.wirePolicy scope.constants = .ok (some (.mask type (lowMask set.entries.size))) ∧
      (∀ (other resolved : Attribute) (otherType : ScalarType) (name : String),
        other.resolve scope.constants = .ok resolved →
        other.kind = .scalar otherType → other.enumRef = some name →
        Constant.lookupEnum scope.constants name = .ok set → set.isFlags = true →
        resolved.wirePolicy scope.constants = .ok (some (.mask otherType (set.mask true)))) ∧
      (set.mask true = lowMask set.entries.size ↔ set.Covers 64) ∧
      (set.entries.size ≤ 64 →
        (set.Covers 64 ↔ set.indexes.Perm (List.range set.entries.size))) ∧
      (type.isSigned = false →
        (∀ payload found, Decoding.value scope .handling attr payload = .ok found ↔
          payload.length = type.width ∧
            found = .scalar (Scalar.ofBytes attr.isBigEndian type payload) ∧
            ∀ bit < type.bits,
              (Scalar.ofBytes attr.isBigEndian type payload).bits.getLsbD bit = true →
                bit < set.entries.size) ∧
        (attr.FollowsFlags scope type set ↔ set.Covers type.bits)) := by
  refine ⟨masked.wirePolicy_eq, fun other resolved otherType name done kind refers looked flags => ?_,
    EnumSet.mask_eq_lowMask_iff, EnumSet.covers_iff_perm, fun unsigned => ?_⟩
  · exact wirePolicy_of_flags done kind refers looked flags
  · exact ⟨masked.value_eq_ok_iff unsigned, masked.followsFlags_iff unsigned⟩

/-- Bytes that are checked against flags. One set has its bits out of order, the other leaves bits
out. -/
def flagged : Spec.File where
  license := Spec.acceptedLicense
  family :=
    { name := "f"
      definitions :=
        [{ name := "mixed", kind := .flags
           entries := [.full "a" (some 2) none, .full "b" (some 0) none, .bare "c"] },
         { name := "high", kind := .flags, entries := [.full "a" (some 3) none] }]
      attributeSets :=
        [{ name := "f"
           attributes :=
            [{ name := "x", kind := some "u8", checks := some { flagsMask := some "mixed" } },
             { name := "y", kind := some "u8", checks := some { flagsMask := some "high" } }] }]
      operations := { list := [{ name := "get", attributeSet := some "f" }] } }

theorem isSome_ofSpec_flagged : (Family.ofSpec flagged []).toOption.isSome = true := by
  decide +kernel

/-- The family with bytes that are checked against flags. -/
def flaggedFamily : Family :=
  (Family.ofSpec flagged []).toOption.get isSome_ofSpec_flagged

/-- The enumerations of that family can be found. -/
theorem isSome_lookupEnum_flagged : ∀ name ∈ ["mixed", "high"],
    (Constant.lookupEnum flaggedFamily.constants name).toOption.isSome = true := by
  decide +kernel

/-- One of the enumerations of that family. -/
def flaggedSet (name : String) (known : name ∈ ["mixed", "high"]) : EnumSet :=
  (Constant.lookupEnum flaggedFamily.constants name).toOption.get
    (isSome_lookupEnum_flagged name known)

/-- One of the attributes of that family. -/
def flaggedAttribute (name : String) : Attribute :=
  ((flaggedFamily.sets.get? "f").bind (·.attrs.get? name)).getD default

/-- All bits below the third are flags, so both masks are the same. The peer takes the first and the
third flag together, and nothing with a fourth bit. -/
theorem masks_agree_iff_mixed :
    (flaggedAttribute "x").IsMaskedBy flaggedFamily.constants .u8 (flaggedSet "mixed" (by simp)) ∧
      (flaggedSet "mixed" (by simp)).mask true = lowMask 3 ∧
      (flaggedAttribute "x").FollowsFlags flaggedFamily.toScope .u8 (flaggedSet "mixed" (by simp)) ∧
      (∃ found,
        Decoding.value flaggedFamily.toScope .handling (flaggedAttribute "x") [5] = .ok found) ∧
      ¬∃ found,
        Decoding.value flaggedFamily.toScope .handling (flaggedAttribute "x") [8] = .ok found := by
  have masked : (flaggedAttribute "x").IsMaskedBy flaggedFamily.constants .u8
      (flaggedSet "mixed" (by simp)) :=
    ⟨by decide +kernel, by decide +kernel, "mixed", by decide +kernel, eq_ok_get _⟩
  have three : (flaggedSet "mixed" (by simp)).entries.size = 3 := by decide +kernel
  have listed : ∀ bit < 3, bit ∈ (flaggedSet "mixed" (by simp)).indexes := by decide +kernel
  have covers {width : Nat} : (flaggedSet "mixed" (by simp)).Covers width :=
    fun bit _ below => listed bit (three ▸ below)
  obtain ⟨-, -, agree, -, checks⟩ := masks_agree_iff masked
  obtain ⟨taken, follows⟩ := checks rfl
  refine ⟨masked, three ▸ agree.2 covers, follows.2 covers, ⟨_, (taken _ _).2 ⟨rfl, rfl, ?_⟩⟩, ?_⟩
  · rw [three]
    decide +kernel
  · rintro ⟨found, accepted⟩
    have below := ((taken _ _).1 accepted).2.2 3 (by decide) (by decide +kernel)
    exact Nat.lt_irrefl 3 (three ▸ below)

/-- The only flag of the other set is the fourth bit, and its mask has the first. -/
theorem not_forall_masks_agree :
    ¬∀ (family : Family) (attr : Attribute) (type : ScalarType) (set : EnumSet),
      set.isFlags = true → attr.IsMaskedBy family.constants type set →
        attr.wirePolicy family.constants = .ok (some (.mask type (set.mask true))) := by
  intro all
  have masked : (flaggedAttribute "y").IsMaskedBy flaggedFamily.constants .u8
      (flaggedSet "high" (by simp)) :=
    ⟨by decide +kernel, by decide +kernel, "high", by decide +kernel, eq_ok_get _⟩
  have same := all _ _ _ _ (by decide +kernel) masked
  rw [masked.wirePolicy_eq] at same
  have equal : lowMask 1 = 8 := by
    simpa [show (flaggedSet "high" (by simp)).entries.size = 1 by decide +kernel,
      show (flaggedSet "high" (by simp)).mask true = 8 by decide +kernel] using same
  exact absurd equal (by decide)

end Attribute

end NetlinkFamily
