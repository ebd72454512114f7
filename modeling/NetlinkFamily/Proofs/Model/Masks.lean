import Mathlib.Data.Nat.Bitwise
import NetlinkFamily.Model.EnumSet

namespace NetlinkFamily

namespace EnumEntry

/-- The index that is left of a value. -/
def index (entry : EnumEntry) : Nat :=
  entry.value.toNat % UInt32.size

/-- The value of an entry among flags is the bit with its index, or zero if there is no such
bit. -/
def IsBit (entry : EnumEntry) : Prop :=
  (entry.userValue true).toNat = if entry.value.toNat < 64 then 2 ^ entry.value.toNat else 0

/-- The value lies beyond all bits, and what is left of it does not. -/
def Wraps (entry : EnumEntry) : Prop :=
  entry.index < 64 ∧ 64 ≤ entry.value.toNat

/-- The value of a flag is the power of two of its index, if that is below sixty-four. -/
theorem toNat_userValue (entry : EnumEntry) :
    (entry.userValue true).toNat = if entry.index < 64 then 2 ^ entry.index else 0 := by
  have unfolded : entry.userValue true =
      if entry.index < 64 then UInt64.ofNat (1 <<< entry.index) else 0 := rfl
  rw [unfolded]
  split
  · rename_i small
    have fits : 2 ^ entry.index < UInt64.size := Nat.pow_lt_pow_right (by decide) small
    rw [Nat.one_shiftLeft, UInt64.toNat_ofNat_of_lt' fits]
  · rfl

/-- A small index is the value itself. -/
theorem index_of_lt {entry : EnumEntry} (small : entry.value.toNat < 64) :
    entry.index = entry.value.toNat :=
  Nat.mod_eq_of_lt (Nat.lt_trans small (by decide))

/-- An entry is a bit unless its index wraps. -/
theorem isBit_iff (entry : EnumEntry) : entry.IsBit ↔ ¬entry.Wraps := by
  rw [IsBit, toNat_userValue, Wraps]
  by_cases small : entry.value.toNat < 64
  · rw [index_of_lt small]
    simp [small]
  · rw [if_neg small]
    by_cases left : entry.index < 64
    · simp [left, Nat.le_of_not_lt small]
    · simp [left]

/-- Of a flag, only the bit of its index is set. -/
theorem testBit_userValue (entry : EnumEntry) {bit : Nat} (within : bit < 64) :
    (entry.userValue true).toNat.testBit bit = true ↔ entry.index = bit := by
  rw [toNat_userValue]
  split
  · simp [Nat.testBit_two_pow]
  · rename_i large
    simp only [Nat.zero_testBit, Bool.false_eq_true, false_iff]
    omega

end EnumEntry

namespace EnumSet

/-- A mask of flags has exactly the bits whose indexes are values of entries. -/
def MaskExact (set : EnumSet) (asFlags : Bool) : Prop :=
  ∀ bit < 64, (set.mask asFlags).toNat.testBit bit = true ↔
    ∃ entry ∈ set.entries.values, entry.value.toNat = bit

/-- All entries are their bits, and the masks of the flags have exactly these. -/
structure FlagsExact (set : EnumSet) : Prop where
  entries : ∀ entry ∈ set.entries.values, entry.IsBit
  masks : ∀ asFlags, (asFlags || set.isFlags) = true → set.MaskExact asFlags

/-- A bit is set in a disjunction when it is in one of the values. -/
theorem testBit_foldl_or (list : List UInt64) (start : UInt64) (bit : Nat) :
    (list.foldl (· ||| ·) start).toNat.testBit bit = true ↔
      start.toNat.testBit bit = true ∨ ∃ value ∈ list, value.toNat.testBit bit = true := by
  induction list generalizing start with
  | nil => simp
  | cons first rest ih =>
      rw [List.foldl_cons, ih, UInt64.toNat_or, Nat.testBit_or, Bool.or_eq_true, or_assoc]
      simp only [List.mem_cons, exists_eq_or_imp]

variable {set : EnumSet} {asFlags : Bool}

/-- A bit is set in a mask when it is the index of an entry. -/
theorem testBit_mask (flags : (asFlags || set.isFlags) = true) {bit : Nat} (within : bit < 64) :
    (set.mask asFlags).toNat.testBit bit = true ↔
      ∃ entry ∈ set.entries.values, entry.index = bit := by
  rw [mask, flags, testBit_foldl_or]
  simp [EnumEntry.testBit_userValue _ within]

/-- What wraps around does not show in a mask if another entry has the bit. -/
theorem maskExact_iff (flags : (asFlags || set.isFlags) = true) :
    set.MaskExact asFlags ↔ ∀ entry ∈ set.entries.values, entry.Wraps →
      ∃ other ∈ set.entries.values, other.value.toNat = entry.index := by
  constructor
  · rintro exact entry listed ⟨left, _⟩
    exact (exact _ left).1 ((testBit_mask flags left).2 ⟨entry, listed, rfl⟩)
  · intro covered bit within
    rw [testBit_mask flags within]
    constructor
    · rintro ⟨entry, listed, rfl⟩
      by_cases small : entry.value.toNat < 64
      · exact ⟨entry, listed, (EnumEntry.index_of_lt small).symm⟩
      · exact covered entry listed ⟨within, Nat.le_of_not_lt small⟩
    · rintro ⟨entry, listed, rfl⟩
      exact ⟨entry, listed, EnumEntry.index_of_lt within⟩

/-- An entry among flags is the bit that the low half of its value is the index of, and a mask has
these bits. That is right for an entry exactly if it does not wrap around, and for a mask exactly if
there are other entries for the bits of those that do. -/
theorem flagsExact_iff (set : EnumSet) :
    (∀ entry : EnumEntry,
      ((entry.userValue true).toNat = if entry.index < 64 then 2 ^ entry.index else 0) ∧
      (entry.IsBit ↔ ¬entry.Wraps)) ∧
    (∀ asFlags, (asFlags || set.isFlags) = true →
      (∀ bit < 64, (set.mask asFlags).toNat.testBit bit = true ↔
        ∃ entry ∈ set.entries.values, entry.index = bit) ∧
      (set.MaskExact asFlags ↔ ∀ entry ∈ set.entries.values, entry.Wraps →
        ∃ other ∈ set.entries.values, other.value.toNat = entry.index)) ∧
    (set.FlagsExact ↔ ∀ entry ∈ set.entries.values, ¬entry.Wraps) := by
  refine ⟨fun entry => ⟨entry.toNat_userValue, entry.isBit_iff⟩, fun asFlags flags => ?_, ?_⟩
  · exact ⟨fun _ within => testBit_mask flags within, maskExact_iff flags⟩
  · constructor
    · exact fun exact entry listed => entry.isBit_iff.1 (exact.entries entry listed)
    · refine fun none => ⟨fun entry listed => entry.isBit_iff.2 (none entry listed), ?_⟩
      exact fun _ flags => (maskExact_iff flags).2 fun entry listed wraps =>
        absurd wraps (none entry listed)

/-- Flags of which the last two have no bit. -/
def sparse : Spec.Definition where
  name := "e"
  kind := .flags
  entries := [.full "a" (some 3) none, .full "b" (some 63) none, .bare "c",
    .full "d" (some 4294967360) none]

/-- The mask of flags has their bits, and those without one are zero. -/
theorem flagsExact_iff_sparse :
    (ofDefinition "f" sparse).FlagsExact ∧ (ofDefinition "f" sparse).MaskExact false ∧
      (ofDefinition "f" sparse).mask false = 9223372036854775816 := by
  have unwrapped : ∀ entry ∈ (ofDefinition "f" sparse).entries.values, ¬entry.Wraps := by
    simp only [EnumEntry.Wraps]
    decide +kernel
  obtain ⟨_, masks, exact⟩ := flagsExact_iff (ofDefinition "f" sparse)
  refine ⟨exact.2 unwrapped, (masks false rfl).2.2 ?_, by decide +kernel⟩
  exact fun entry listed wraps => absurd wraps (unwrapped entry listed)

/-- A single flag, far beyond all bits. -/
def distant : Spec.Definition where
  name := "e"
  kind := .flags
  entries := [.full "a" (some 4294967299) none]

/-- A flag may be taken for one with a lower index. -/
theorem not_forall_flagsExact :
    ¬∀ (familyName : String) (definition : Spec.Definition),
      (ofDefinition familyName definition).FlagsExact := by
  intro claim
  have exact := (claim "f" distant).masks false rfl 3 (by decide)
  exact absurd (exact.1 (by decide +kernel)) (by decide +kernel)

end EnumSet

end NetlinkFamily
