import NetlinkFamily.Proofs.Model.Numbering
import NetlinkFamily.Proofs.Output.Enumerations

namespace NetlinkFamily

open Outcome

/-- The messages whose enumeration may stand apart. -/
def Family.asynchronous (family : Family) : List Operation :=
  family.messages.values.filter Operation.isAsync

namespace Operation

/-- What a notification means to the count of its enumeration. -/
def written (operation : Operation) : Count :=
  { given := operation.specValue }

/-- A notification that comes without a number of its own is numbered behind the one before. -/
def FollowsOn (before operation : Operation) : Prop :=
  operation.specValue = none →
    operation.value.map UInt32.toNat = before.value.map fun value => value.toNat + 1

/-- Whether an operation follows on can be tested. -/
instance decidableFollowsOn : DecidableRel FollowsOn := fun before operation =>
  inferInstanceAs (Decidable (operation.specValue = none →
    operation.value.map UInt32.toNat = before.value.map fun value => value.toNat + 1))

/-- A message with its number. This is what the specification gives, or it is not zero. -/
def IsCounted (operation : Operation) : Prop :=
  ∃ value, operation.value = some value ∧
    (operation.specValue = some value ∨ operation.specValue = none ∧ 0 < value.toNat)

/-- What the count gives to notifications are their numbers exactly if it arrives at each number
that is not given. -/
theorem map_withNumbers_eq_iff {next : Nat} {list : List Operation}
    (counted : ∀ operation ∈ list, operation.IsCounted) :
    ((withNumbers written next list).map fun row => (row.1.enumName, some (row.2 : Int))) =
        list.map constant ↔
      (∀ first ∈ list.head?, first.specValue = none → first.value.map UInt32.toNat = some next) ∧
        list.IsChain FollowsOn := by
  induction list generalizing next with
  | nil => simp [withNumbers, Count.numbers]
  | cons operation rest ih =>
      obtain ⟨⟨value, held, given⟩, later⟩ := List.forall_mem_cons.1 counted
      have after : operation.written.after next = operation.written.number next + 1 := rfl
      have here : operation.written.number next = value.toNat ↔
          (operation.specValue = none → value.toNat = next) := by
        rcases given with given | ⟨given, _⟩
        · simp [written, Count.number, given]
        · simp [written, Count.number, given, eq_comm]
      rw [withNumbers_cons, after, List.map_cons, List.map_cons, List.cons.injEq,
        List.isChain_cons]
      have same : (operation.enumName, some (operation.written.number next : Int)) =
          operation.constant ↔ operation.written.number next = value.toNat := by
        simp [constant, held]
      rw [same]
      constructor
      · rintro ⟨number, others⟩
        rw [number] at others
        obtain ⟨follows, chain⟩ := (ih later).1 others
        refine ⟨?_, fun second member none => ?_, chain⟩
        · simpa [held] using here.1 number
        · rw [follows second member none, held, Option.map_some]
      · rintro ⟨first, follows, chain⟩
        have number := here.2 (by simpa [held] using first)
        rw [number]
        refine ⟨rfl, (ih later).2 ⟨fun second member none => ?_, chain⟩⟩
        rw [follows second member none, held, Option.map_some]

end Operation

namespace Constants

open Declaration Enumeration

/-- The enumerator of a notification. -/
def notification (operation : Operation) : Enumerator where
  name := operation.enumName
  value :=
    match operation.specValue with
    | some value => .number value.toNat
    | none => .implicit

/-- Notifications are told with the values of their count. -/
theorem tells_notifications (next : Nat) (list : List Operation) :
    Tells next (list.map notification)
      ((withNumbers Operation.written next list).map fun row =>
        (row.1.enumName, (row.2 : Int))) := by
  induction list generalizing next with
  | nil => exact .nil
  | cons operation rest ih =>
      have later := ih (operation.written.number next + 1)
      have after : operation.written.after next = operation.written.number next + 1 := rfl
      push_cast at later
      rw [withNumbers_cons, after, List.map_cons, List.map_cons]
      cases given : operation.specValue with
      | none =>
          have number : operation.written.number next = next := by
            simp [Operation.written, Count.number, given]
          have enumerator : notification operation = { name := operation.enumName } := by
            simp [notification, given]
          rw [number] at later ⊢
          exact enumerator ▸ .counted later
      | some value =>
          have number : operation.written.number next = value.toNat := by
            simp [Operation.written, Count.number, given]
          have enumerator : notification operation =
              { name := operation.enumName, value := .number value.toNat } := by
            simp [notification, given]
          rw [number] at later ⊢
          exact enumerator ▸ .written later

/-- Notifications with a prefix of their own have an enumeration of their own. -/
theorem enumerations_commands {family : Family} (separate : family.separateNotifications = true) :
    ∃ listed, enumerations (commands family) =
      [listed,
        { header := enumHeader family family.asyncEnumName none
          enumerators := family.asynchronous.map notification }] := by
  obtain ⟨listed, only, _, _⟩ := enumerations_withCount family
    { header := enumHeader family family.operationsEnumName none
      enumerators := numbered 0 (numberedMessages 0 family.listed) }
    (CName.upper (family.commandCountName.getD ("__" ++ family.operationPrefix ++ "MAX")))
    (CName.upper (family.commandMaxName.getD (family.operationPrefix ++ "MAX")))
  refine ⟨listed, ?_⟩
  rw [commands, enumerations_append, if_pos separate]
  exact congrArg (· ++ _) only

end Constants

/-- Where nothing stands apart, an enumeration is read as what it tells. -/
theorem Enumeration.values_eq {enumeration : Enumeration} {told : List (String × Int)}
    (tells : Tells 0 enumeration.enumerators told) (whole : enumeration.last = []) :
    enumeration.values = told := by
  obtain ⟨all, same⟩ := tells.readFrom_append [] []
  rw [values, whole, same, readFrom, List.append_nil]

namespace Family

variable {file : Spec.File} {excludes : List Pattern} {family : Family}

/-- Every message of a family with one count is counted. -/
theorem isCounted_of_ofSpec (built : ofSpec file excludes = .ok family)
    (unified : family.numbering = .unified) :
    ∀ message ∈ family.messages.values, message.IsCounted := by
  intro message member
  rw [numbering_eq built] at unified
  have alike := alike_messages built .request
  rw [unified] at alike
  obtain ⟨row, listed, isNumbered⟩ := exists_of_forall₂ alike.values message member
  obtain ⟨entry, inside, rfl⟩ := List.mem_map.1 listed
  have counted : ∀ entry ∈ (file.family.operations.rows .request).entries,
      (entry.2.1.value.map UInt32.toNat = some entry.2.2) ∨
        (entry.2.1.value = none ∧ 0 < entry.2.2) := by
    refine Registry.forall_ofList fun entry member => ?_
    obtain ⟨row, inside, rfl⟩ := List.mem_map.1 member
    rw [unified] at inside
    exact given_or_pos (fun _ => rfl) Nat.one_pos row inside
  obtain ⟨value, held, same⟩ := Option.map_eq_some_iff.1 (isNumbered.value rfl)
  refine ⟨value, held, ?_⟩
  rw [isNumbered.specValue]
  refine (counted entry inside).imp (fun given => ?_) fun ⟨absent, positive⟩ =>
    ⟨absent, same ▸ positive⟩
  obtain ⟨other, given, number⟩ := Option.map_eq_some_iff.1 given
  rw [given, UInt32.toNat_inj.1 (number.trans same.symm)]

/-- The last enumeration of the header is that of the notifications, if they are kept apart. What is
read from it are the numbers of the model exactly if the first notification comes with a number, and
each other one without is numbered behind the one before it. -/
theorem notifications_keep_iff (built : ofSpec file excludes = .ok family)
    (unified : family.numbering = .unified) (separate : family.separateNotifications = true) :
    ∃ front printed,
      Declaration.enumerations (Constants.header family) = front ++ [printed] ∧
      printed.values = (withNumbers Operation.written 0 family.asynchronous).map
        (fun row => (row.1.enumName, (row.2 : Int))) ∧
      (printed.values.map (fun constant => (constant.1, some constant.2)) =
          family.asynchronous.map Operation.constant ↔
        (∀ first ∈ family.asynchronous.head?, first.specValue.isSome = true) ∧
          family.asynchronous.IsChain Operation.FollowsOn) := by
  obtain ⟨listed, only⟩ := Constants.enumerations_commands separate
  have counted : ∀ operation ∈ family.asynchronous, operation.IsCounted := fun operation member =>
    isCounted_of_ofSpec built unified operation (List.mem_of_mem_filter member)
  let printed : Enumeration :=
    { header := Constants.enumHeader family family.asyncEnumName none
      enumerators := family.asynchronous.map Constants.notification }
  have told : printed.values = (withNumbers Operation.written 0 family.asynchronous).map
      fun row => (row.1.enumName, (row.2 : Int)) :=
    Enumeration.values_eq (Constants.tells_notifications 0 family.asynchronous) rfl
  obtain ⟨front, all⟩ : ∃ front,
      Declaration.enumerations (Constants.header family) = front ++ [printed] := by
    rw [Constants.enumerations_header, only]
    exact ⟨_ ++ [listed], (List.append_assoc _ [listed] [printed]).symm⟩
  refine ⟨front, printed, all, told, ?_⟩
  rw [told, List.map_map]
  refine (Operation.map_withNumbers_eq_iff counted).trans (and_congr_left fun _ => ?_)
  refine forall₂_congr fun first leads => ?_
  -- A first number that is not given is not zero, and zero is what C takes for it.
  obtain ⟨value, held, given | ⟨absent, positive⟩⟩ := counted first (List.mem_of_mem_head? leads)
  · simp [given]
  · simp [absent, held, Nat.pos_iff_ne_zero.1 positive]

/-- Two notifications, the first of which may come with a number. -/
def notified (given : Option UInt32) : Spec.File where
  license := Spec.acceptedLicense
  family :=
    { name := "f"
      attributeSets := [{ name := "f", attributes := [{ name := "x", kind := some "u8" }] }]
      operations :=
        { asyncPrefix := some "f-ntf-"
          list :=
            [{ name := "get", attributeSet := some "f"
               doMode := some { reply := some { attributes := ["x"] } } },
             { name := "changed", notify := some "get", value := given },
             { name := "gone", notify := some "get" }] } }

/-- Both families can be built, with a number and without. -/
theorem isSome_ofSpec_notified : ∀ given ∈ [none, some 7],
    (ofSpec (notified given) []).toOption.isSome = true :=
  List.forall_mem_cons.2 ⟨by decide +kernel, List.forall_mem_singleton.2 (by decide +kernel)⟩

/-- The family whose first notification may come with a number. -/
def notifiedFamily (given : Option UInt32) (known : given ∈ [none, some 7]) : Family :=
  (ofSpec (notified given) []).toOption.get (isSome_ofSpec_notified given known)

/-- With a number for the first notification, C counts on to that of the second. -/
theorem notifications_keep_iff_given :
    ofSpec (notified (some 7)) [] = .ok (notifiedFamily (some 7) (by simp)) ∧
      ∃ front printed,
        Declaration.enumerations (Constants.header (notifiedFamily (some 7) (by simp))) =
          front ++ [printed] ∧
        printed.values = [("F_NTF_CHANGED", 7), ("F_NTF_GONE", 8)] ∧
        printed.values.map (fun constant => (constant.1, some constant.2)) =
          (notifiedFamily (some 7) (by simp)).asynchronous.map Operation.constant := by
  have built := eq_ok_get (isSome_ofSpec_notified (some 7) (by simp))
  obtain ⟨front, printed, all, values, kept⟩ :=
    notifications_keep_iff built (by decide +kernel) (by decide +kernel)
  refine ⟨built, front, printed, all, values.trans (by decide +kernel), kept.2 ?_⟩
  decide +kernel

/-- The call before the notifications has the first number, and C starts with zero all the same. -/
theorem not_forall_notifications_keep :
    ¬∀ (file : Spec.File) (family : Family) (front : List Enumeration) (printed : Enumeration),
      ofSpec file [] = .ok family → family.numbering = .unified →
        family.separateNotifications = true →
          Declaration.enumerations (Constants.header family) = front ++ [printed] →
            printed.values.map (fun constant => (constant.1, some constant.2)) =
              family.asynchronous.map Operation.constant := by
  intro all
  let family := notifiedFamily none (by simp)
  let printed := Declaration.enumerations (Constants.header family)
  have last : printed = printed.dropLast ++ [printed.getLastD default] := by decide +kernel
  have same := all (notified none) family _ _
    (eq_ok_get (isSome_ofSpec_notified none (by simp))) (by decide +kernel) (by decide +kernel) last
  have zero : (printed.getLastD default).values.head? = some ("F_NTF_CHANGED", 0) := by
    decide +kernel
  have two : (family.asynchronous.map Operation.constant).head? = some ("F_NTF_CHANGED", some 2) := by
    decide +kernel
  rw [← same, List.head?_map, zero] at two
  cases two

end Family

end NetlinkFamily
