import NetlinkFamily.Model.Counter
import NetlinkFamily.Proofs.Outcome

namespace NetlinkFamily

open Outcome

/-- The counter has no number left exactly behind the largest one. -/
theorem nextNumber_eq_ok_iff {value after : UInt32} :
    nextNumber value = .ok after ↔ after.toNat = value.toNat + 1 := by
  have bound := value.toNat_lt
  have other := after.toNat_lt
  unfold nextNumber
  split
  · rename_i small
    have next : (value + 1).toNat = value.toNat + 1 := by
      rw [UInt32.toNat_add, UInt32.toNat_one, Nat.mod_eq_of_lt small]
    rw [Except.ok.injEq, ← UInt32.toNat_inj, next]
    exact eq_comm
  · rename_i full
    have size : UInt32.size = 2 ^ 32 := rfl
    constructor
    · rintro ⟨⟩
    · omega

/-- Counting on fails at the last number only. -/
theorem nextNumber_eq_error_iff {value : UInt32} {error : ModelError} :
    nextNumber value = .error error ↔ value.toNat = 4294967295 ∧ error = .numberingOverflow := by
  have bound := value.toNat_lt
  have size : UInt32.size = 2 ^ 32 := rfl
  unfold nextNumber
  split
  · simp only [reduceCtorEq, false_iff, not_and]
    omega
  · rw [Except.error.injEq, eq_comm]
    simp only [iff_and_self]
    omega

/-- What an element means to a counter: the number that it comes with, if any, and whether the
counter goes on behind it. -/
structure Count where
  given : Option UInt32 := none
  advances : Bool := true

namespace Count

/-- The number of an element that the counter comes to at `next`. -/
def number (next : Nat) (count : Count) : Nat :=
  (count.given.map UInt32.toNat).getD next

/-- Where the counter stands behind an element. -/
def after (next : Nat) (count : Count) : Nat :=
  if count.advances then count.number next + 1 else count.number next

/-- Where the counter stands behind all elements of a list. -/
def reached (next : Nat) (counts : List Count) : Nat :=
  counts.foldl after next

/-- The numbers of all elements of a list: as given, or where the counter stands. -/
def numbers : Nat → List Count → List Nat
  | _, [] => []
  | next, count :: rest => count.number next :: numbers (count.after next) rest

/-- The numbers of the elements behind which the counter goes on. -/
def taken : Nat → List Count → List Nat
  | _, [] => []
  | next, count :: rest =>
      if count.advances then count.number next :: taken (count.after next) rest
      else taken (count.after next) rest

/-- No element comes with a number that is below where the counter stands. -/
def Ascends : Nat → List Count → Prop
  | _, [] => True
  | next, count :: rest => next ≤ count.number next ∧ Ascends (count.after next) rest

/-- Whether counts ascend can be tested. -/
instance decidableAscends : (next : Nat) → (counts : List Count) → Decidable (Ascends next counts)
  | _, [] => .isTrue trivial
  | next, count :: rest =>
      have := decidableAscends (count.after next) rest
      inferInstanceAs (Decidable (_ ∧ _))

/-- There is one number for every count. -/
@[simp] theorem length_numbers (next : Nat) (counts : List Count) :
    (numbers next counts).length = counts.length := by
  induction counts generalizing next with
  | nil => rfl
  | cons count rest ih => rw [numbers, List.length_cons, List.length_cons, ih]

/-- Where counts ascend, no number taken is smaller than the first. -/
theorem le_of_mem_taken {next number : Nat} {counts : List Count} (ascends : Ascends next counts)
    (member : number ∈ taken next counts) : next ≤ number := by
  induction counts generalizing next with
  | nil => cases member
  | cons count rest ih =>
      obtain ⟨here, later⟩ := ascends
      have passes : next ≤ count.after next := by
        unfold after
        split <;> omega
      rw [taken] at member
      split at member
      · rcases List.mem_cons.1 member with rfl | member
        · exact here
        · exact Nat.le_trans passes (ih later member)
      · exact Nat.le_trans passes (ih later member)

/-- A counter that is never set back gives larger and larger numbers. -/
theorem pairwise_taken {next : Nat} {counts : List Count} (ascends : Ascends next counts) :
    (taken next counts).Pairwise (· < ·) := by
  induction counts generalizing next with
  | nil => exact .nil
  | cons count rest ih =>
      obtain ⟨_, later⟩ := ascends
      rw [taken]
      split
      · rename_i advances
        refine .cons (fun number member => ?_) (ih later)
        have beyond := le_of_mem_taken later member
        rw [after, if_pos advances] at beyond
        exact beyond
      · exact ih later

/-- The counter behind an element, in 32 bits. -/
def pass (count : Count) (value : UInt32) : Except ModelError UInt32 :=
  if count.advances then nextNumber value else .ok value

/-- An element takes up the last number there is. -/
def IsFull (next : Nat) (count : Count) : Prop :=
  count.advances = true ∧ count.number next = 4294967295

variable {count : Count} {next after : UInt32}

/-- A count starts from the number it is given. -/
theorem toNat_getD (count : Count) (next : UInt32) :
    (count.given.getD next).toNat = count.number next.toNat := by
  unfold number
  cases count.given <;> rfl

/-- Passing a count goes on to the number behind it. -/
theorem pass_eq_ok_iff :
    count.pass (count.given.getD next) = .ok after ↔ after.toNat = count.after next.toNat := by
  unfold pass Count.after
  split
  · rw [nextNumber_eq_ok_iff, toNat_getD]
  · rw [Except.ok.injEq, ← UInt32.toNat_inj, toNat_getD]
    exact eq_comm

/-- A counter passes an element, or it is full there. -/
theorem pass_or_full (count : Count) (next : UInt32) :
    (count.IsFull next.toNat ∧
        count.pass (count.given.getD next) = .error .numberingOverflow) ∨
      (¬count.IsFull next.toNat ∧ ∃ after, count.pass (count.given.getD next) = .ok after ∧
        after.toNat = count.after next.toNat) := by
  cases passed : count.pass (count.given.getD next) with
  | ok after =>
      refine .inr ⟨fun ⟨advances, full⟩ => ?_, after, rfl, pass_eq_ok_iff.1 passed⟩
      rw [pass, if_pos advances, nextNumber_eq_ok_iff, toNat_getD, full] at passed
      exact absurd after.toNat_lt (by omega)
  | error error =>
      unfold pass at passed
      split at passed
      · rename_i advances
        rw [nextNumber_eq_error_iff, toNat_getD] at passed
        exact .inl ⟨⟨advances, passed.1⟩, congrArg _ passed.2⟩
      · cases passed

end Count

/-- The elements of a list with the numbers of a counter that stands at `next`. -/
def withNumbers {A : Type} (count : A → Count) (next : Nat) (list : List A) : List (A × Nat) :=
  list.zip (Count.numbers next (list.map count))

/-- The first has the number reached, and the rest counts on. -/
theorem withNumbers_cons {A : Type} (count : A → Count) (next : Nat) (a : A) (rest : List A) :
    withNumbers count next (a :: rest) =
      (a, (count a).number next) :: withNumbers count ((count a).after next) rest :=
  rfl

/-- Numbering keeps the list. -/
@[simp] theorem map_fst_withNumbers {A : Type} (count : A → Count) (next : Nat) (list : List A) :
    (withNumbers count next list).map Prod.fst = list :=
  List.map_fst_zip (by simp)

/-- A number is as given, or it is not zero for a counter that has left this behind. -/
theorem given_or_pos {A : Type} {count : A → Count} (advances : ∀ a, (count a).advances = true)
    {next : Nat} (positive : 0 < next) {list : List A} :
    ∀ row ∈ withNumbers count next list,
      ((count row.1).given.map UInt32.toNat = some row.2) ∨
        ((count row.1).given = none ∧ 0 < row.2) := by
  induction list generalizing next with
  | nil => nofun
  | cons a rest ih =>
      intro row member
      rcases List.mem_cons.1 member with rfl | member
      · show (count a).given.map UInt32.toNat = some ((count a).number next) ∨ _
        unfold Count.number
        cases (count a).given with
        | none => exact .inr ⟨rfl, positive⟩
        | some value => exact .inl rfl
      · refine ih ?_ row member
        rw [Count.after, if_pos (advances a)]
        exact Nat.succ_pos _

/-- The numbers of those that advance are those taken. -/
theorem map_filter_withNumbers {A : Type} (count : A → Count) (next : Nat) (list : List A) :
    ((withNumbers count next list).filter fun row => (count row.1).advances).map Prod.snd =
      Count.taken next (list.map count) := by
  induction list generalizing next with
  | nil => rfl
  | cons a rest ih =>
      have later := ih ((count a).after next)
      rw [List.map_cons, Count.taken, ← later, withNumbers_cons, List.filter_cons]
      split <;> rfl

/-- A counter that stands at `next` comes to an element that takes up the last number, and all
elements up to that one are sound. -/
def Exhausts {A : Type} (count : A → Count) (sound : A → Prop) (next : Nat) (list : List A) : Prop :=
  ∃ front last rest, list = front ++ last :: rest ∧ (∀ a ∈ front, sound a) ∧ sound last ∧
    (count last).IsFull (Count.reached next (front.map count))

section Exhausts

variable {A : Type} {count : A → Count} {sound : A → Prop} {next : Nat}

/-- Nothing exhausts no count. -/
theorem not_exhausts_nil : ¬Exhausts count sound next [] := by
  rintro ⟨front, last, rest, split, _⟩
  simp at split

/-- A count is exhausted at the first or behind it. -/
theorem exhausts_cons {first : A} {rest : List A} :
    Exhausts count sound next (first :: rest) ↔
      sound first ∧
        ((count first).IsFull next ∨ Exhausts count sound ((count first).after next) rest) := by
  constructor
  · rintro ⟨front, last, others, split, before, here, full⟩
    cases front with
    | nil =>
        obtain ⟨rfl, rfl⟩ := List.cons.inj split
        exact ⟨here, .inl full⟩
    | cons a front =>
        obtain ⟨rfl, rfl⟩ := List.cons.inj split
        obtain ⟨found, before⟩ := List.forall_mem_cons.1 before
        exact ⟨found, .inr ⟨front, last, others, rfl, before, here, full⟩⟩
  · rintro ⟨here, full | ⟨front, last, others, rfl, before, found, full⟩⟩
    · exact ⟨[], first, rest, rfl, by simp, here, full⟩
    · exact ⟨first :: front, last, others, rfl, List.forall_mem_cons.2 ⟨here, before⟩, found, full⟩

/-- A counter that no element moves never runs out. -/
theorem not_exhausts_of_idle (idle : ∀ a, (count a).advances = false) (list : List A) :
    ¬Exhausts count sound next list := by
  rintro ⟨_, last, _, _, _, _, full, _⟩
  rw [idle last] at full
  cases full

end Exhausts

/-- How the elements of a list are built from the numbers that two counters give them. -/
structure Numbering (A B : Type) where
  first : A → Count
  second : A → Count
  build : A → UInt32 → UInt32 → Except ModelError B

namespace Numbering

variable {A B : Type} (numbering : Numbering A B)

/-- All elements, with the counters standing at two numbers. -/
def run : UInt32 → UInt32 → List A → Except ModelError (List B)
  | _, _, [] => .ok []
  | next, other, a :: rest => do
      let value := (numbering.first a).given.getD next
      let second := (numbering.second a).given.getD other
      let built ← numbering.build a value second
      let after ← (numbering.first a).pass value
      let behind ← (numbering.second a).pass second
      let others ← run after behind rest
      return built :: others

variable {numbering} {next other : UInt32} {list : List A}

/-- Every element is built from the numbers that the counters give it. -/
theorem forall₂_of_run {results : List B} (done : numbering.run next other list = .ok results) :
    List.Forall₂
        (fun row b => ∃ value second, value.toNat = row.2 ∧
          numbering.build row.1 value second = .ok b)
        (withNumbers numbering.first next.toNat list) results ∧
      List.Forall₂
        (fun row b => ∃ value second, second.toNat = row.2 ∧
          numbering.build row.1 value second = .ok b)
        (withNumbers numbering.second other.toNat list) results := by
  induction list generalizing next other results with
  | nil =>
      rw [run, Except.ok.injEq] at done
      exact done ▸ ⟨.nil, .nil⟩
  | cons a rest ih =>
      simp only [run, bind_eq_ok_iff, pure_eq_ok_iff, Count.pass_eq_ok_iff] at done
      obtain ⟨built, here, after, first, behind, second, others, later, rfl⟩ := done
      obtain ⟨firsts, seconds⟩ := ih later
      rw [first] at firsts
      rw [second] at seconds
      exact ⟨.cons ⟨_, _, Count.toNat_getD _ _, here⟩ firsts,
        .cons ⟨_, _, Count.toNat_getD _ _, here⟩ seconds⟩

/-- A run fails for want of numbers exactly if a counter gets to the last number before any element
fails to be built. Whether it can be built does not depend on its numbers. -/
theorem run_eq_overflow_iff (sound : A → Prop)
    (built : ∀ a value second, sound a → ∃ b, numbering.build a value second = .ok b)
    (refused : ∀ a value second, ¬sound a →
      ∃ error, error ≠ .numberingOverflow ∧ numbering.build a value second = .error error) :
    numbering.run next other list = .error .numberingOverflow ↔
      Exhausts numbering.first sound next.toNat list ∨
        Exhausts numbering.second sound other.toNat list := by
  induction list generalizing next other with
  | nil => simp [run, not_exhausts_nil]
  | cons a rest ih =>
      rw [exhausts_cons, exhausts_cons, ← and_or_left, run]
      let value := (numbering.first a).given.getD next
      let second := (numbering.second a).given.getD other
      by_cases here : sound a
      · obtain ⟨b, made⟩ := built a value second here
        rcases (numbering.first a).pass_or_full next with
          ⟨full, failed⟩ | ⟨room, after, done, stands⟩
        · simp [made, here, failed, full, value, second, bind, Except.bind]
        rcases (numbering.second a).pass_or_full other with
          ⟨full, failed⟩ | ⟨space, behind, passed, remains⟩
        · simp [made, here, done, failed, full, value, second, bind, Except.bind]
        · have rest : (numbering.run after behind rest >>= fun others => pure (b :: others)) =
              .error .numberingOverflow ↔ _ := bind_pure_eq_error_iff.trans ih
          rw [stands, remains] at rest
          simpa [made, here, done, passed, room, space, value, second, bind, Except.bind] using rest
      · obtain ⟨error, differs, made⟩ := refused a value second here
        simp [made, here, bind, Except.bind, differs, value, second]

end Numbering

end NetlinkFamily
