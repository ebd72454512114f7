import Mathlib.Data.List.Basic

namespace NetlinkFamily

/-- By induction on the number of names: each one is taken out of the rest. -/
theorem nodup_eraseDups (names : List String) : names.eraseDups.Nodup := by
  induction count : names.length using Nat.strongRecOn generalizing names with
  | ind count ih =>
      subst count
      cases names with
      | nil => simp
      | cons name rest =>
          rw [List.eraseDups_cons, List.nodup_cons, List.mem_eraseDups]
          have fewer : (rest.filter fun other => !other == name).length < (name :: rest).length :=
            Nat.lt_succ_of_le (List.length_filter_le _ rest)
          exact ⟨by simp, ih _ fewer _ rfl⟩

/-- Names without duplicates stay as they are. -/
theorem eraseDups_of_nodup {names : List String} (distinct : names.Nodup) :
    names.eraseDups = names := by
  induction names with
  | nil => rfl
  | cons name rest ih =>
      obtain ⟨absent, distinct⟩ := List.nodup_cons.1 distinct
      have kept : rest.filter (fun other => !other == name) = rest :=
        List.filter_eq_self.2 fun other member => by
          have differs : other ≠ name := fun same => absent (same ▸ member)
          simpa using differs
      rw [List.eraseDups_cons, kept, ih distinct]

/-- Names in front may be made distinct first. -/
theorem eraseDups_append_left (names more : List String) :
    (names.eraseDups ++ more).eraseDups = (names ++ more).eraseDups := by
  have same : more.removeAll names.eraseDups = more.removeAll names := by
    refine List.filter_congr fun name _ => ?_
    have listed : List.elem name names.eraseDups = List.elem name names := by
      rw [Bool.eq_iff_iff, List.elem_iff, List.elem_iff, List.mem_eraseDups]
    rw [listed]
  rw [List.eraseDups_append, List.eraseDups_append, eraseDups_of_nodup (nodup_eraseDups names),
    same]

/-- Names that come behind do not change what stands in front. -/
theorem eraseDups_prefix {names longer : List String} (front : names <+: longer) :
    names.eraseDups <+: longer.eraseDups := by
  obtain ⟨rest, rfl⟩ := front
  rw [List.eraseDups_append]
  exact List.prefix_append _ _

/-- By induction on the number of names: each one is taken out of the rest. -/
theorem eraseDups_filter (chosen : String → Bool) (names : List String) :
    (names.filter chosen).eraseDups = names.eraseDups.filter chosen := by
  induction count : names.length using Nat.strongRecOn generalizing names with
  | ind count ih =>
      subst count
      cases names with
      | nil => rfl
      | cons name rest =>
          have fewer : (rest.filter fun other => !other == name).length < (name :: rest).length :=
            Nat.lt_succ_of_le (List.length_filter_le _ rest)
          have tail := ih _ fewer _ rfl
          rw [List.filter_filter] at tail
          rw [List.eraseDups_cons, List.filter_cons, List.filter_cons, ← tail]
          cases wanted : chosen name with
          | true => simp [List.eraseDups_cons, List.filter_filter, Bool.and_comm]
          | false =>
              have same : (rest.filter fun other => chosen other && !other == name) =
                  rest.filter chosen := by
                refine List.filter_congr fun other _ => ?_
                by_cases equal : other = name
                · simp [equal, wanted]
                · simp [equal]
              simp [same]

/-- Copies of a name in front of other names count once. -/
theorem eraseDups_replicate_append {name : String} (count : Nat) {others : List String}
    (absent : name ∉ others) :
    (List.replicate (count + 1) name ++ others).eraseDups = name :: others.eraseDups := by
  have copies : (List.replicate count name).filter (fun other => !other == name) = [] := by simp
  have kept : others.filter (fun other => !other == name) = others :=
    List.filter_eq_self.2 fun other member => by
      have differs : other ≠ name := fun same => absent (same ▸ member)
      simpa using differs
  rw [List.replicate_succ, List.cons_append, List.eraseDups_cons, List.filter_append, copies, kept,
    List.nil_append]

end NetlinkFamily
