import NetlinkFamily.Proofs.Nesting.Settling
import NetlinkFamily.Proofs.Outcome

namespace NetlinkFamily.Nesting

open Outcome Relation

variable {scope : Scope} {roots : Registry RootSet} {found : Registry Layout}

/-- Changes to entries that are there keep the names of a registry. -/
theorem names_foldl {A : Type} {step : Registry Layout → A → Registry Layout} {list : List A}
    (same : ∀ found a, (step found a).names = found.names) (found : Registry Layout) :
    (list.foldl step found).names = found.names := by
  induction list generalizing found with
  | nil => rfl
  | cons first rest ih => rw [List.foldl_cons, ih, same]

/-- An attribute of a root set marks the set that it refers to. -/
def markInside (usage : RootSet) (found : Registry Layout) (attr : Attribute) : Registry Layout :=
  match attr.nestedSet? with
  | none => found
  | some name =>
      found.update name fun layout =>
        { layout with
          request := layout.request || usage.request.contains attr.name
          reply := layout.reply || usage.reply.contains attr.name }

/-- Marking what an attribute nests keeps the names. -/
@[simp] theorem names_markInside (usage : RootSet) (attr : Attribute) :
    (markInside usage found attr).names = found.names := by
  unfold markInside
  cases attr.nestedSet? with
  | none => rfl
  | some name => exact found.names_update name _

/-- A root set marks the sets that its attributes refer to. -/
def markRoot (scope : Scope) (found : Registry Layout) (root : String × RootSet) :
    Registry Layout :=
  match scope.sets.get? root.1 with
  | none => found
  | some set => set.attrs.values.foldl (markInside root.2) found

/-- Marking a root set keeps the names. -/
@[simp] theorem names_markRoot (root : String × RootSet) :
    (markRoot scope found root).names = found.names := by
  unfold markRoot
  cases scope.sets.get? root.1 with
  | none => rfl
  | some set => exact names_foldl (fun _ attr => names_markInside root.2 attr) found

/-- Root sets are marked one after the other. -/
theorem markRoots_eq (scope : Scope) (roots : Registry RootSet) (found : Registry Layout) :
    markRoots scope roots found = roots.entries.foldl (markRoot scope) found := rfl

/-- Marking all root sets keeps the names. -/
@[simp] theorem names_markRoots : (markRoots scope roots found).names = found.names :=
  names_foldl (fun _ root => names_markRoot root) found

/-- A set hands its marks down to the sets inside it. -/
def handDown (scope : Scope) (found : Registry Layout) (name : String) : Registry Layout :=
  match found.get? name with
  | none => found
  | some outer =>
      (scope.references name).foldl
        (fun found inner =>
          found.update inner fun layout =>
            { layout with
              request := layout.request || outer.request
              reply := layout.reply || outer.reply })
        found

/-- Handing down keeps the names. -/
@[simp] theorem names_handDown {name : String} :
    (handDown scope found name).names = found.names := by
  unfold handDown
  cases found.get? name with
  | none => rfl
  | some outer => exact names_foldl (fun found inner => found.names_update inner _) found

/-- Sets hand down in the reverse order. -/
theorem propagate_eq (scope : Scope) (found : Registry Layout) :
    propagate scope found = found.names.reverse.foldl (handDown scope) found := rfl

/-- Propagating keeps the names. -/
@[simp] theorem names_propagate : (propagate scope found).names = found.names :=
  names_foldl (fun _ _ => names_handDown) found

/-- Sets are ordered by an arrangement of their names, each behind those inside it. -/
theorem exists_arrange_of_order {ordered : Registry Layout}
    (done : order scope found = .ok ordered) :
    ∃ names, names.Perm found.names ∧ InOrder scope.references names ∧
      ordered = found.arrange names := by
  obtain ⟨inOrder, kept⟩ :=
    settle_inOrder (found.size * found.size) found.names [] (.nil : InOrder scope.references [])
  unfold order at done
  split at done
  · rename_i settled run
    rw [run, List.append_nil, List.nil_append] at kept
    rw [run] at inOrder
    exact ⟨settled, kept, inOrder, (Except.ok.inj done).symm⟩
  · cases done

/-- Ordered sets are the same sets, each behind those inside it. -/
theorem order_inOrder {ordered : Registry Layout} (done : order scope found = .ok ordered) :
    ordered.names.Perm found.names ∧ InOrder scope.references ordered.names := by
  obtain ⟨names, kept, inOrder, rfl⟩ := exists_arrange_of_order done
  have known : ∀ name ∈ names, name ∈ found.names := fun name => kept.mem_iff.1
  rw [Registry.names_arrange (kept.nodup_iff.2 found.distinct) known]
  exact ⟨kept, inOrder⟩

/-- Ordering the sets changes nothing but their places. -/
theorem get?_order {ordered : Registry Layout} (done : order scope found = .ok ordered)
    {name : String} {layout : Layout} :
    ordered.get? name = some layout ↔ found.get? name = some layout := by
  obtain ⟨names, kept, _, rfl⟩ := exists_arrange_of_order done
  have known : ∀ name ∈ names, name ∈ found.names := fun name => kept.mem_iff.1
  rw [Registry.get?_arrange (kept.nodup_iff.2 found.distinct) known, kept.mem_iff]
  exact and_iff_right_of_imp Registry.mem_names_of_get?

/-- The sets that are never ordered are exactly those that lead to a cycle. -/
theorem mem_unordered_iff (closed : scope.IsClosed found.names) (name : String) :
    name ∈ (settle scope (found.size * found.size) found.names []).2 ↔
      name ∈ found.names ∧ scope.LeadsToCycle name := by
  have length : found.names.length = found.size := List.length_map _
  refine mem_left_iff closed ?_ name
  rw [length]
  have square : found.size ≤ found.size * found.size := Nat.le_mul_self _
  rw [Nat.mul_add, Nat.mul_one]
  omega

/-- Sets without a cycle are always ordered. -/
theorem exists_order (acyclic : ∀ name ∈ found.names, ¬TransGen scope.Refers name name)
    (closed : scope.IsClosed found.names) :
    ∃ ordered, order scope found = .ok ordered := by
  have all : (settle scope (found.size * found.size) found.names []).2 = [] := by
    refine List.eq_nil_iff_forall_not_mem.2 fun name left => ?_
    obtain ⟨listed, inner, path, cycle⟩ := (mem_unordered_iff closed name).1 left
    exact acyclic inner (mem_of_reflTransGen closed path listed) cycle
  unfold order
  split
  · exact ⟨_, rfl⟩
  · rename_i pending notEmpty run
    rw [run] at all
    exact absurd all notEmpty

/-- The sets that a report of a cycle names are sorted, each is named once, and they are exactly
those that lead to a cycle. -/
theorem reported_of_order {names : List String}
    (closed : scope.IsClosed found.names)
    (failed : order scope found = .error (.nestedCycle names)) :
    names.Pairwise (· ≤ ·) ∧ names.Nodup ∧
      ∀ name, name ∈ names ↔ name ∈ found.names ∧ scope.LeadsToCycle name := by
  have left := mem_unordered_iff closed
  obtain ⟨_, kept⟩ :=
    settle_inOrder (found.size * found.size) found.names [] (.nil : InOrder scope.references [])
  unfold order at failed
  split at failed
  · cases failed
  · rename_i settled pending _ run
    rw [run] at kept left
    obtain rfl := ModelError.nestedCycle.inj (Except.error.inj failed)
    have arranged := List.mergeSort_perm pending fun a b => decide (a ≤ b)
    refine ⟨?_, ?_, fun name => ?_⟩
    · have sorted : (pending.mergeSort fun a b => decide (a ≤ b)).Pairwise
          fun a b => decide (a ≤ b) = true := by
        refine List.pairwise_mergeSort (fun a b c first second => ?_) (fun a b => ?_) pending
        · exact decide_eq_true
            (String.le_trans (of_decide_eq_true first) (of_decide_eq_true second))
        · simpa using String.le_total a b
      exact sorted.imp of_decide_eq_true
    · have distinct : (settled ++ pending).Nodup := kept.nodup_iff.2 found.distinct
      exact arranged.nodup_iff.2 (List.nodup_append.1 distinct).2.1
    · rw [arranged.mem_iff]
      exact left name

/-- Ordering fails with a cycle only. -/
theorem order_eq_error {error : ModelError} (failed : order scope found = .error error) :
    ∃ names, error = .nestedCycle names := by
  unfold order at failed
  split at failed
  · cases failed
  · exact ⟨_, (Except.error.inj failed).symm⟩

/-- The nested sets of a family are those that the search finds, each behind those inside it. -/
theorem resolve_inOrder {nested : Registry Layout} (done : resolve scope roots = .ok nested) :
    ∃ found, explore scope roots Registry.empty roots.names = .ok found ∧
      nested.names.Perm found.names ∧ InOrder scope.references nested.names := by
  simp only [resolve, bind_eq_ok_iff, pure_eq_ok_iff] at done
  obtain ⟨found, explored, ordered, inOrder, rfl⟩ := done
  have kept := order_inOrder inOrder
  rw [names_markRoots] at kept
  exact ⟨found, explored, by simpa using kept⟩

/-- Once the search has found sets without a cycle, nothing else can fail. -/
theorem exists_resolve (explored : explore scope roots Registry.empty roots.names = .ok found)
    (acyclic : ∀ name ∈ found.names, ¬TransGen scope.Refers name name)
    (closed : scope.IsClosed found.names) :
    ∃ nested, resolve scope roots = .ok nested := by
  have names : (markRoots scope roots found).names = found.names := names_markRoots
  rw [← names] at acyclic closed
  obtain ⟨ordered, inOrder⟩ := exists_order acyclic closed
  refine ⟨propagate scope ordered, ?_⟩
  rw [resolve, explored]
  simp only [bind, Except.bind, inOrder]
  rfl

/-- Once the search has ended, a cycle is all that can go wrong. -/
theorem resolve_eq_error (explored : explore scope roots Registry.empty roots.names = .ok found)
    {error : ModelError} (failed : resolve scope roots = .error error) :
    ∃ names, error = .nestedCycle names := by
  rw [resolve, explored] at failed
  cases ordered : order scope (markRoots scope roots found) with
  | error other =>
      simp only [bind, Except.bind, ordered, Except.error.injEq] at failed
      exact failed ▸ order_eq_error ordered
  | ok result =>
      simp [bind, Except.bind, ordered, pure, Except.pure] at failed

end NetlinkFamily.Nesting
