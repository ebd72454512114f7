import NetlinkFamily.Proofs.Nesting.Dependencies

namespace NetlinkFamily

namespace Family

open Nesting Outcome Relation

/-- What is reported is left over by the ordering of all nested sets. -/
theorem reported_of_ofSpec {file : Spec.File} {excludes : List Pattern} {names : List String}
    (failed : ofSpec file excludes = .error (.nestedCycle names)) :
    ∃ outline, Outline.ofSpec file.family = .ok outline ∧
      names.Pairwise (· ≤ ·) ∧ names.Nodup ∧
      ∀ name, name ∈ names ↔
        IsNested outline.toScope outline.rootSets name ∧ outline.LeadsToCycle name := by
  obtain ⟨outline, begun, failed⟩ := (ofSpec_eq_error_iff rfl file excludes).1 failed
  obtain ⟨found, explored, failed⟩ := order_of_resolve_eq_nestedCycle failed
  have search := search_of_explore (search_start outline.toScope outline.rootSets) explored
  have closed : outline.IsClosed found.names := fun name listed => search.closed (.inr listed)
  have marked : (markRoots outline.toScope outline.rootSets found).names = found.names :=
    names_markRoots
  rw [← marked] at closed
  obtain ⟨sorted, distinct, members⟩ := reported_of_order closed failed
  refine ⟨outline, begun, sorted, distinct, fun name => ?_⟩
  rw [members, marked, search.mem_names_iff]

/-- A report of a cycle lists the nested sets that lead to a cycle, sorted and each once. Those are
the nested sets on a cycle exactly if no other nested set leads to one. -/
theorem nestedCycle_names_iff {file : Spec.File} {excludes : List Pattern} {names : List String}
    (failed : ofSpec file excludes = .error (.nestedCycle names)) :
    ∃ outline, Outline.ofSpec file.family = .ok outline ∧
      names.Pairwise (· ≤ ·) ∧ names.Nodup ∧
      (∀ name, name ∈ names ↔
        IsNested outline.toScope outline.rootSets name ∧ outline.LeadsToCycle name) ∧
      ((∀ name, name ∈ names ↔ IsNested outline.toScope outline.rootSets name ∧
          TransGen outline.Refers name name) ↔
        ∀ name, IsNested outline.toScope outline.rootSets name → outline.LeadsToCycle name →
          TransGen outline.Refers name name) := by
  obtain ⟨outline, begun, sorted, distinct, members⟩ := reported_of_ofSpec failed
  refine ⟨outline, begun, sorted, distinct, members, ?_⟩
  constructor
  · intro exact name nested leads
    exact ((exact name).1 ((members name).2 ⟨nested, leads⟩)).2
  · intro onCycle name
    rw [members]
    refine and_congr_right fun nested => ⟨onCycle name nested, fun cycle => ?_⟩
    exact ⟨name, .refl, cycle⟩

/-- A nested set that refers to itself, with one around it and one inside it. -/
def spur : Spec.File where
  license := Spec.acceptedLicense
  family :=
    { name := "f"
      attributeSets :=
        [{ name := "f"
           attributes :=
            [{ name := "out", kind := some "nest", nestedAttributes := some "above" }] },
         { name := "above"
           attributes :=
            [{ name := "in", kind := some "nest", nestedAttributes := some "loop" }] },
         { name := "loop"
           attributes :=
            [{ name := "again", kind := some "nest", nestedAttributes := some "loop" },
             { name := "end", kind := some "nest", nestedAttributes := some "below" }] },
         { name := "below", attributes := [{ name := "x", kind := some "u8" }] }]
      operations := { list := [{ name := "get", attributeSet := some "f" }] } }

theorem isSome_outline_spur : (Outline.ofSpec spur.family).toOption.isSome = true := by
  decide +kernel

/-- The outline of the family whose set refers to itself. -/
def spurOutline : Outline :=
  (Outline.ofSpec spur.family).toOption.get isSome_outline_spur

/-- That outline is what the description builds. -/
theorem outline_spur : Outline.ofSpec spur.family = .ok spurOutline :=
  eq_ok_get isSome_outline_spur

/-- Its nested sets can be found. -/
theorem isSome_explore_spur : (explore spurOutline.toScope spurOutline.rootSets Registry.empty
    spurOutline.rootSets.names).toOption.isSome = true := by
  decide +kernel

/-- The nested sets found in that outline. -/
def spurFound : Registry Layout :=
  (explore spurOutline.toScope spurOutline.rootSets Registry.empty
    spurOutline.rootSets.names).toOption.get isSome_explore_spur

/-- The family is refused for a cycle, and the set that leads to it is named. -/
theorem ofSpec_spur : ofSpec spur [] = .error (.nestedCycle ["above", "loop"]) := by
  have explored : explore spurOutline.toScope spurOutline.rootSets Registry.empty
      spurOutline.rootSets.names = .ok spurFound := eq_ok_get isSome_explore_spur
  have left : settle spurOutline.toScope 9
      (markRoots spurOutline.toScope spurOutline.rootSets spurFound).names [] =
        (["below"], ["above", "loop"]) := by decide +kernel
  have size : (markRoots spurOutline.toScope spurOutline.rootSets spurFound).size = 3 := by
    decide +kernel
  have sorted : (["above", "loop"].mergeSort fun a b => decide (a ≤ b)) = ["above", "loop"] :=
    List.mergeSort_of_pairwise (by decide +kernel)
  rw [ofSpec_eq_error_iff rfl]
  refine ⟨spurOutline, outline_spur, ?_⟩
  rw [resolve, explored]
  simp only [bind, Except.bind, order, size, left, sorted]

/-- The set around the one that refers to itself is named as well, and the one inside it is not. -/
theorem nestedCycle_names_iff_spur :
    ofSpec spur [] = .error (.nestedCycle ["above", "loop"]) ∧
      ∃ outline, Outline.ofSpec spur.family = .ok outline ∧ outline.LeadsToCycle "above" ∧
        outline.LeadsToCycle "loop" ∧
        (IsNested outline.toScope outline.rootSets "below" → ¬outline.LeadsToCycle "below") := by
  obtain ⟨outline, begun, _, _, members, _⟩ := nestedCycle_names_iff ofSpec_spur
  refine ⟨ofSpec_spur, outline, begun, ((members "above").1 (by simp)).2,
    ((members "loop").1 (by simp)).2, fun nested leads => ?_⟩
  simpa using (members "below").2 ⟨nested, leads⟩

/-- Not every set that a report names lies on a cycle. -/
theorem not_forall_reported_onCycle :
    ¬∀ (file : Spec.File) (excludes : List Pattern) (names : List String),
      ofSpec file excludes = .error (.nestedCycle names) →
        ∃ outline, Outline.ofSpec file.family = .ok outline ∧
          names.Pairwise (· ≤ ·) ∧ names.Nodup ∧
          ∀ name, name ∈ names ↔ IsNested outline.toScope outline.rootSets name ∧
            TransGen outline.Refers name name := by
  intro claim
  obtain ⟨outline, begun, _, _, members⟩ := claim spur [] _ ofSpec_spur
  rw [outline_spur] at begun
  obtain rfl := Except.ok.inj begun
  obtain ⟨_, cycle⟩ := (members "above").1 (by simp)
  obtain ⟨first, step, path⟩ := TransGen.head'_iff.1 cycle
  -- From inside the first set no reference leads back to it.
  have inside : ∀ name ∈ ["loop", "below"], ∀ inner ∈ spurOutline.references name,
      inner ∈ ["loop", "below"] := by decide +kernel
  have entered : ∀ inner ∈ spurOutline.references "above", inner ∈ ["loop", "below"] := by
    decide +kernel
  have back := mem_of_reflTransGen inside path (entered first step)
  simp at back

end Family

end NetlinkFamily
