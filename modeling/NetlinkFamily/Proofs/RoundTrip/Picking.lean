import Mathlib.Data.List.Nodup
import NetlinkFamily.Proofs.Decoding.Reading
import NetlinkFamily.Proofs.Message.Occurrences

namespace NetlinkFamily

/-- The attributes of a set can be told apart in a stream: their numbers differ, and no array may
be repeated. -/
structure AttributeSet.Unambiguous (set : AttributeSet) : Prop where
  numbers : (set.attrs.values.map Attribute.value).Nodup
  arrays : ∀ attr ∈ set.attrs.values, attr.kind = .arrayNest → attr.multi = false

/-- The same for all sets that are declared. -/
def Scope.Unambiguous (scope : Scope) : Prop :=
  ∀ set ∈ scope.sets.values, set.Unambiguous

/-- The attributes of every declared set have numbers of their own. -/
def Scope.DistinctNumbers (scope : Scope) : Prop :=
  ∀ set ∈ scope.sets.values, (set.attrs.values.map Attribute.value).Nodup

/-- Where sets are unambiguous, their numbers are distinct. -/
theorem Scope.Unambiguous.distinctNumbers {scope : Scope} (clear : scope.Unambiguous) :
    scope.DistinctNumbers := fun set declared => (clear set declared).numbers

instance (set : AttributeSet) : Decidable set.Unambiguous :=
  decidable_of_iff
    ((set.attrs.values.map Attribute.value).Nodup ∧
      ∀ attr ∈ set.attrs.values, attr.kind = .arrayNest → attr.multi = false)
    ⟨fun both => ⟨both.1, both.2⟩, fun clear => ⟨clear.numbers, clear.arrays⟩⟩

instance (scope : Scope) : Decidable scope.Unambiguous :=
  inferInstanceAs (Decidable (∀ set ∈ _, _))

instance (scope : Scope) : Decidable scope.DistinctNumbers :=
  inferInstanceAs (Decidable (∀ set ∈ _, _))

namespace Decoding

open Outcome

variable {peer : Peer} {set : AttributeSet} {allowed : Option AllowedList}

/-- Under distinct numbers, an attribute is found under its own number. -/
theorem withNumber?_of_nodup (distinct : (set.attrs.values.map Attribute.value).Nodup)
    {attr : Attribute} (listed : attr ∈ set.attrs.values) :
    set.withNumber? attr.value.toNat = some attr := by
  unfold AttributeSet.withNumber?
  cases found : set.attrs.values.find? fun other => other.value.toNat == attr.value.toNat with
  | none =>
      have missed := List.find?_eq_none.1 found attr listed
      simp at missed
  | some other =>
      have same : other.value = attr.value := by
        have number := List.find?_some found
        exact UInt32.toNat_inj.1 (beq_iff_eq.1 number)
      rw [List.inj_on_of_nodup_map distinct (List.mem_of_find?_eq_some found) listed same]

/-- Both peers take an attribute that carries data and that the message may hold. -/
theorem recognise_value (distinct : (set.attrs.values.map Attribute.value).Nodup)
    {attr : Attribute} (listed : attr ∈ set.attrs.values)
    (within : ∀ list, allowed = some list → attr.name ∈ list.names)
    (carries : attr.kind ≠ .pad ∧ attr.kind ≠ .unused) :
    recognise peer set allowed attr.value.toNat = .ok (some attr) := by
  have kept : allowed.filter (fun list => !list.names.contains attr.name) = none := by
    cases allowed with
    | none => rfl
    | some list => simp [within list rfl]
  unfold recognise
  simp only [withNumber?_of_nodup distinct listed, kept]
  split
  · exact absurd ‹_› carries.1
  · exact absurd ‹_› carries.2
  · rfl

/-- No array comes behind an attribute of its name. -/
def ArraysOnce (attrs : List Attribute) : Prop :=
  attrs.Pairwise fun earlier attr => attr.kind = .arrayNest → earlier.name ≠ attr.name

/-- Behind attributes without such an array, one that does not clash with them may follow. -/
theorem arraysOnce_under {R : Type} {found : List (Attribute × R)} {known : Option Attribute}
    {raw : R} (before : ArraysOnce (found.map Prod.fst).reverse)
    (fresh : ∀ attr ∈ known, ¬Clashes found attr) :
    ArraysOnce ((under raw known ++ found).map Prod.fst).reverse := by
  cases known with
  | none => exact before
  | some attr =>
      rw [under, Option.toList_some, List.map_singleton, List.singleton_append, List.map_cons,
        List.reverse_cons, ArraysOnce, List.pairwise_append]
      refine ⟨before, List.pairwise_singleton _ _, fun earlier member other last array same => ?_⟩
      obtain rfl := List.mem_singleton.1 last
      obtain ⟨entry, inside, rfl⟩ := List.mem_map.1 (List.mem_reverse.1 member)
      exact fresh _ rfl ⟨array, entry, inside, same⟩

/-- Attributes of a stream that the peer takes are all picked, unless some array comes twice. -/
theorem pick_eq_ok_iff {R : Type} {typeOf : R → Nat} {attrs : List Attribute} {raws : List R}
    (known : List.Forall₂ (fun attr raw => recognise peer set allowed (typeOf raw) =
      .ok (some attr)) attrs raws) {found picked : List (Attribute × R)}
    (before : ArraysOnce (found.map Prod.fst).reverse) :
    pick peer set allowed typeOf found raws = .ok picked ↔
      ArraysOnce ((found.map Prod.fst).reverse ++ attrs) ∧
        picked = found.reverse ++ attrs.zip raws := by
  induction known generalizing found with
  | nil => simp [pick, before, eq_comm]
  | @cons attr raw attrs raws here _ ih =>
      by_cases clash : Clashes found attr
      · rw [pick_of_clashes here clash]
        obtain ⟨array, earlier, member, same⟩ := clash
        constructor
        · intro done
          cases done
        · rintro ⟨once, -⟩
          have apart := (List.pairwise_append.1 once).2.2 earlier.1
            (by simpa using ⟨earlier.2, member⟩) attr List.mem_cons_self
          exact absurd same (apart array)
      · have fresh : ∀ other ∈ some attr, ¬Clashes found other := by simpa using clash
        rw [pick_of_fresh here fresh, ih (arraysOnce_under before fresh)]
        simp [under]

/-- In the occurrences of a message no array comes twice if none occurs more than once. -/
theorem arraysOnce_occurrences_iff {message : Message} :
    ArraysOnce ((message.occurrences set).map Prod.fst) ↔ message.SingleArrays set := by
  have apart : set.attrs.values.Pairwise fun first second =>
      ∀ earlier ∈ (message.occurrencesOf first).map Prod.fst,
        ∀ later ∈ (message.occurrencesOf second).map Prod.fst,
          later.kind = .arrayNest → earlier.name ≠ later.name := by
    refine (List.pairwise_map.1 set.nodup_names).imp fun {first second} differ => ?_
    intro earlier inFirst later inSecond _
    rw [Message.map_fst_occurrencesOf] at inFirst inSecond
    rw [List.eq_of_mem_replicate inFirst, List.eq_of_mem_replicate inSecond]
    exact differ
  rw [Message.occurrences, List.map_flatMap, ArraysOnce, List.pairwise_flatMap, and_iff_left apart]
  refine forall₂_congr fun attr _ => ?_
  rw [Message.map_fst_occurrencesOf, List.pairwise_replicate]
  by_cases array : attr.kind = .arrayNest <;> simp [array]

/-- Where no array may be repeated, none is. -/
theorem singleArrays_of_unambiguous (clear : set.Unambiguous) (message : Message) :
    message.SingleArrays set := by
  intro attr listed array
  rw [Message.occurrencesOf, clear.arrays attr listed array]
  cases message.get? attr.name <;> simp

end Decoding

end NetlinkFamily
