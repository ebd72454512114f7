import NetlinkFamily.Proofs.Message.Occurrences
import NetlinkFamily.Proofs.Message.Terminator

namespace NetlinkFamily

namespace Rewriting

/-- What a peer reads back. The handling peer does not cut texts that need no terminator. -/
def normal (peer : Peer) : Rewriting where
  text attr content :=
    match peer with
    | .originating => Text.untilNul content
    | .handling => if attr.mayLackTerminator then content else Text.untilNul content
  members := Message.arranged

variable (scope : Scope) (rule : Rewriting) {set : AttributeSet} {message : Message}

/-- An attribute of a set has the rewritten value under its name. -/
theorem get?_eachMember {attr : Attribute} (listed : attr ∈ set.attrs.values) :
    (eachMember scope rule set message).get? attr.name =
      (message.get? attr.name).map (rule.value scope attr) := by
  rw [Message.get?, lookup_eachMember, Message.get?]
  congr 1
  funext found
  rw [member, AttributeSet.get?_name listed]

/-- A message that fits its set still does when its members are rewritten. -/
theorem fits_eachMember (fits : message.Fits set) :
    Message.Fits set (eachMember scope rule set message) := by
  intro attr listed value held
  rw [get?_eachMember scope rule listed, Option.map_eq_some_iff] at held
  obtain ⟨found, held, rfl⟩ := held
  rw [value_eq_multi_iff]
  exact fits attr listed found held

/-- The occurrences in a rewritten message are the rewritten occurrences. -/
theorem occurrences_eachMember :
    Message.occurrences set (eachMember scope rule set message) =
      (message.occurrences set).map fun entry => (entry.1, rule.value scope entry.1 entry.2) := by
  rw [Message.occurrences, Message.occurrences, List.map_flatMap]
  refine List.flatMap_congr fun attr listed => ?_
  rw [Message.occurrencesOf, Message.occurrencesOf, get?_eachMember scope rule listed]
  cases message.get? attr.name with
  | none => rfl
  | some found =>
      cases attr.multi with
      | true => simp [Function.comp_def]
      | false => simp

/-- The normal form of a message is collected from the normal forms of its occurrences. -/
theorem collect_normal (peer : Peer) (fits : message.Fits set) :
    Decoding.collect ((message.occurrences set).map fun entry =>
        (entry.1, (normal peer).value scope entry.1 entry.2)) =
      (normal peer).message scope set message := by
  rw [← occurrences_eachMember, Message.collect_occurrences (fits_eachMember scope _ fits)]
  rfl

end Rewriting

end NetlinkFamily
