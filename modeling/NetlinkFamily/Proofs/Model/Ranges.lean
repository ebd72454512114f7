import Mathlib.Data.Finset.Card
import Mathlib.Order.Interval.Finset.Nat
import NetlinkFamily.Model.EnumSet

namespace NetlinkFamily

/-- A maximum is bounded exactly when both of its numbers are. -/
instance lawfulOrderMax : Std.LawfulOrderMax UInt64 :=
  .of_max_le_iff
    (fun first second bound => by
      change (if first ≤ second then second else first) ≤ bound ↔ _
      simp only [UInt64.le_iff_toNat_le]
      split <;> omega)
    (fun first second => by
      change (if first ≤ second then second else first) = _ ∨
        (if first ≤ second then second else first) = _
      split <;> simp)

namespace EnumSet

variable {set : EnumSet} {low high : UInt64}

/-- The values of the entries, in order. -/
def values (set : EnumSet) : List UInt64 :=
  set.entries.values.map EnumEntry.value

/-- The entries have all values between two bounds, and no others. -/
structure Fills (set : EnumSet) (low high : UInt64) : Prop where
  nonempty : set.values ≠ []
  exact : ∀ value, value ∈ set.values ↔ low ≤ value ∧ value ≤ high

/-- The bounds are the lowest and the highest value, and there are as many entries as numbers
between them. -/
structure Spans (set : EnumSet) (low high : UInt64) : Prop where
  lowest : low ∈ set.values ∧ ∀ value ∈ set.values, low ≤ value
  highest : high ∈ set.values ∧ ∀ value ∈ set.values, value ≤ high
  count : high.toNat - low.toNat + 1 = set.values.length

/-- A range is derived exactly from entries that fill it. -/
def RangeExact (set : EnumSet) : Prop :=
  ∀ low high, set.valueRange = .ok (low, high) ↔ set.Fills low high

/-- A set has a range exactly when it spans it. -/
theorem valueRange_eq_ok_iff : set.valueRange = .ok (low, high) ↔ set.Spans low high := by
  unfold valueRange
  have listed : set.values = set.entries.values.map EnumEntry.value := rfl
  rw [← listed]
  cases split : set.values with
  | nil =>
      refine iff_of_false (by simp) fun spans => ?_
      simpa [split] using spans.lowest.1
  | cons first rest =>
      have lowest (value : UInt64) : rest.foldl min first = value ↔
          value ∈ set.values ∧ ∀ other ∈ set.values, value ≤ other := by
        rw [← List.min?_eq_some_iff, split, List.min?_cons', Option.some.injEq]
      have highest (value : UInt64) : rest.foldl max first = value ↔
          value ∈ set.values ∧ ∀ other ∈ set.values, other ≤ value := by
        rw [← List.max?_eq_some_iff, split, List.max?_cons', Option.some.injEq]
      have length : set.values.length = rest.length + 1 := by rw [split, List.length_cons]
      dsimp only
      constructor
      · intro done
        split at done
        · rename_i spread
          obtain ⟨rfl, rfl⟩ := Prod.mk.inj (Except.ok.inj done)
          exact ⟨(lowest _).1 rfl, (highest _).1 rfl, by rw [spread, length]⟩
        · cases done
      · intro spans
        have count := spans.count
        rw [(lowest low).2 spans.lowest, (highest high).2 spans.highest, if_pos (by omega)]

/-- If there is no range, then because the values leave a gap or there are none. -/
theorem valueRange_eq_error_iff :
    set.valueRange = .error (.noncontiguousEnum set.name) ↔ ∀ low high, ¬set.Spans low high := by
  simp only [← valueRange_eq_ok_iff]
  unfold valueRange
  split
  · simp
  · dsimp only
    split <;> simp

/-- The values as a set of numbers. -/
def numbers (set : EnumSet) : Finset Nat :=
  (set.values.map UInt64.toNat).toFinset

/-- A number is a value of the set. -/
theorem mem_numbers_iff (value : UInt64) : value.toNat ∈ set.numbers ↔ value ∈ set.values := by
  simp [numbers, UInt64.toNat_inj]

/-- There are as many numbers as values when no value is repeated. -/
theorem card_numbers_iff : set.numbers.card = set.values.length ↔ set.values.Nodup := by
  have distinct : (set.values.map UInt64.toNat).Nodup ↔ set.values.Nodup :=
    List.nodup_map_iff fun _ _ => UInt64.toNat_inj.1
  rw [← distinct, numbers, ← List.length_map UInt64.toNat]
  exact Multiset.toFinset_card_eq_card_iff_nodup

namespace Fills

/-- The bounds of what is filled are in order. -/
theorem le (fills : set.Fills low high) : low ≤ high := by
  obtain ⟨value, listed⟩ := List.exists_mem_of_ne_nil _ fills.nonempty
  obtain ⟨above, below⟩ := (fills.exact value).1 listed
  exact UInt64.le_trans above below

/-- The lower bound is a value. -/
theorem low_mem (fills : set.Fills low high) : low ∈ set.values :=
  (fills.exact low).2 ⟨UInt64.le_refl _, fills.le⟩

/-- The upper bound is a value. -/
theorem high_mem (fills : set.Fills low high) : high ∈ set.values :=
  (fills.exact high).2 ⟨fills.le, UInt64.le_refl _⟩

/-- The numbers are all those between the bounds. -/
theorem numbers_eq (fills : set.Fills low high) :
    set.numbers = Finset.Icc low.toNat high.toNat := by
  ext number
  rw [Finset.mem_Icc]
  constructor
  · intro listed
    obtain ⟨value, among, rfl⟩ := List.mem_map.1 (List.mem_toFinset.1 listed)
    simpa only [UInt64.le_iff_toNat_le] using (fills.exact value).1 among
  · rintro ⟨above, below⟩
    have same : (UInt64.ofNat number).toNat = number :=
      UInt64.toNat_ofNat_of_lt (Nat.lt_of_le_of_lt below high.toNat_lt)
    rw [← same, mem_numbers_iff, fills.exact, UInt64.le_iff_toNat_le, UInt64.le_iff_toNat_le, same]
    exact ⟨above, below⟩

/-- There are as many numbers as the bounds are apart, and one. -/
theorem card_numbers (fills : set.Fills low high) :
    set.numbers.card = high.toNat - low.toNat + 1 := by
  have ordered := UInt64.le_iff_toNat_le.1 fills.le
  rw [fills.numbers_eq, Nat.card_Icc]
  omega

/-- Entries that fill a range fit it if they have different values. -/
theorem spans_iff (fills : set.Fills low high) : set.Spans low high ↔ set.values.Nodup := by
  rw [← card_numbers_iff, fills.card_numbers]
  constructor
  · exact Spans.count
  · intro count
    exact ⟨⟨fills.low_mem, fun value listed => ((fills.exact value).1 listed).1⟩,
      ⟨fills.high_mem, fun value listed => ((fills.exact value).1 listed).2⟩, count⟩

/-- A range that is filled has the lowest and the highest value for its bounds. -/
theorem unique (fills : set.Fills low high) {least most : UInt64} (spans : set.Spans least most) :
    least = low ∧ most = high := by
  have least_mem := (fills.exact least).1 spans.lowest.1
  have most_mem := (fills.exact most).1 spans.highest.1
  exact ⟨UInt64.le_antisymm (spans.lowest.2 low fills.low_mem) least_mem.1,
    UInt64.le_antisymm most_mem.2 (spans.highest.2 high fills.high_mem)⟩

end Fills

namespace Spans

/-- The numbers of what is spanned lie between the bounds. -/
theorem numbers_subset (spans : set.Spans low high) :
    set.numbers ⊆ Finset.Icc low.toNat high.toNat := by
  intro number listed
  obtain ⟨value, among, rfl⟩ := List.mem_map.1 (List.mem_toFinset.1 listed)
  rw [Finset.mem_Icc, ← UInt64.le_iff_toNat_le, ← UInt64.le_iff_toNat_le]
  exact ⟨spans.lowest.2 value among, spans.highest.2 value among⟩

/-- Entries that fit a range fill it if they have different values. -/
theorem fills_iff (spans : set.Spans low high) : set.Fills low high ↔ set.values.Nodup := by
  constructor
  · intro fills
    exact fills.spans_iff.1 spans
  · intro distinct
    have ordered := UInt64.le_iff_toNat_le.1 (spans.lowest.2 high spans.highest.1)
    have whole : set.numbers = Finset.Icc low.toNat high.toNat := by
      refine Finset.eq_of_subset_of_card_le spans.numbers_subset ?_
      rw [card_numbers_iff.2 distinct, ← spans.count, Nat.card_Icc]
      omega
    refine ⟨List.ne_nil_of_mem spans.lowest.1, fun value => ?_⟩
    rw [← mem_numbers_iff, whole, Finset.mem_Icc, UInt64.le_iff_toNat_le, UInt64.le_iff_toNat_le]

end Spans

/-- Ranges are exact if no two entries share a value. If some do, then the only ranges that are not
wrong are those that the entries neither fit nor fill. -/
theorem rangeExact_iff : set.RangeExact ↔
    set.values.Nodup ∨ ∀ low high, ¬set.Spans low high ∧ ¬set.Fills low high := by
  simp only [RangeExact, valueRange_eq_ok_iff]
  constructor
  · intro exact
    by_cases distinct : set.values.Nodup
    · exact .inl distinct
    · refine .inr fun low high => ⟨fun spans => ?_, fun fills => ?_⟩
      · exact distinct (spans.fills_iff.1 ((exact low high).1 spans))
      · exact distinct (fills.spans_iff.1 ((exact low high).2 fills))
  · rintro (distinct | neither) low high
    · exact ⟨fun spans => spans.fills_iff.2 distinct, fun fills => fills.spans_iff.2 distinct⟩
    · exact iff_of_false (neither low high).1 (neither low high).2

end EnumSet

end NetlinkFamily
