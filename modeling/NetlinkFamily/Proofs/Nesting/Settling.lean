import Mathlib.Data.Fintype.Card
import Mathlib.Data.Set.Finite.List
import Mathlib.Logic.Relation
import Mathlib.Tactic.Ring
import NetlinkFamily.Model.Nesting

namespace NetlinkFamily

/-- A set refers to the sets inside its attributes. -/
def Scope.Refers (scope : Scope) (outer inner : String) : Prop :=
  inner ∈ scope.references outer

/-- No reference leads out of the given sets. -/
def Scope.IsClosed (scope : Scope) (names : List String) : Prop :=
  ∀ name ∈ names, ∀ inner ∈ scope.references name, inner ∈ names

/-- References from a set lead to one that lies on a cycle. The set itself need not lie on one. -/
def Scope.LeadsToCycle (scope : Scope) (name : String) : Prop :=
  ∃ inner, Relation.ReflTransGen scope.Refers name inner ∧
    Relation.TransGen scope.Refers inner inner

namespace Nesting

open Relation

/-- Every name stands behind all names that it refers to. -/
def InOrder (references : String → List String) (names : List String) : Prop :=
  ∀ before name after, names = before ++ name :: after →
    ∀ inner ∈ references name, inner ∈ before

namespace InOrder

variable {references : String → List String} {names : List String}

/-- No names are in order. -/
theorem nil : InOrder references [] := by
  intro before name after split
  cases before <;> cases split

/-- A name may be added behind all that it refers to. -/
theorem concat (ordered : InOrder references names) {last : String}
    (behind : ∀ inner ∈ references last, inner ∈ names) :
    InOrder references (names ++ [last]) := by
  intro before name after split inner member
  rcases List.eq_nil_or_concat after with rfl | ⟨rest, final, rfl⟩
  · obtain ⟨rfl, same⟩ := List.append_inj' split rfl
    cases same
    exact behind inner member
  · rw [List.concat_eq_append, ← List.cons_append, ← List.append_assoc] at split
    exact ordered before name rest (List.append_inj' split rfl).1 inner member

/-- Names that refer to earlier ones only may be added in any order. -/
theorem append (ordered : InOrder references names) {others : List String}
    (behind : ∀ name ∈ others, ∀ inner ∈ references name, inner ∈ names) :
    InOrder references (names ++ others) := by
  induction others using List.reverseRecOn with
  | nil => rwa [List.append_nil]
  | append_singleton others last ih =>
      rw [← List.append_assoc]
      have earlier := ih fun name member => behind name (List.mem_append_left _ member)
      refine earlier.concat fun inner member => List.mem_append_left _ ?_
      exact behind last (List.mem_append_right _ List.mem_cons_self) inner member

/-- All that a name refers to is listed as well. -/
theorem closed (ordered : InOrder references names) {name : String} (listed : name ∈ names) :
    ∀ inner ∈ references name, inner ∈ names := by
  obtain ⟨before, after, rfl⟩ := List.append_of_mem listed
  exact fun inner member => List.mem_append_left _ (ordered before name after rfl inner member)

end InOrder

variable {scope : Scope}

/-- Closed names hold all that is reached from them. -/
theorem mem_of_transGen {names : List String} (closed : scope.IsClosed names)
    {outer inner : String} (path : TransGen scope.Refers outer inner) (listed : outer ∈ names) :
    inner ∈ names := by
  induction path with
  | single step => exact closed outer listed _ step
  | tail _ step earlier => exact closed _ earlier _ step

/-- Names in order are on no cycle. By induction from the front: the last name refers to earlier
ones only, and from there no path leads back to it. -/
theorem acyclic_of_inOrder {names : List String} (ordered : InOrder scope.references names) :
    ∀ name ∈ names, ¬TransGen scope.Refers name name := by
  induction names using List.reverseRecOn with
  | nil => simp
  | append_singleton names last ih =>
      have earlier : InOrder scope.references names := by
        intro before name after split
        exact ordered before name (after ++ [last]) (by simp [split])
      have behind : ∀ inner ∈ scope.references last, inner ∈ names :=
        ordered names last [] rfl
      intro name listed cycle
      have within : name ∈ names := by
        rcases List.mem_append.1 listed with inside | same
        · exact inside
        · rw [List.mem_singleton.1 same] at cycle ⊢
          obtain ⟨first, step, rest⟩ := TransGen.head'_iff.1 cycle
          have inside := behind first step
          rcases reflTransGen_iff_eq_or_transGen.1 rest with same | path
          · exact same ▸ inside
          · exact mem_of_transGen (fun _ => earlier.closed) path inside
      exact ih earlier name within cycle

/-- Among names without a cycle some name refers to none of the others. -/
theorem exists_minimal {names : List String} (some : names ≠ [])
    (acyclic : ∀ name ∈ names, ¬TransGen scope.Refers name name) :
    ∃ name ∈ names, ∀ inner ∈ scope.references name, inner ∉ names := by
  let below (inner outer : { name // name ∈ names }) : Prop :=
    TransGen scope.Refers outer.val inner.val
  have : Finite { name // name ∈ names } := (List.finite_toSet names).to_subtype
  have : IsTrans _ below := ⟨fun _ _ _ first second => second.trans first⟩
  have : Std.Irrefl below := ⟨fun name => acyclic name.val name.property⟩
  have grounded : WellFounded below := Finite.wellFounded_of_trans_of_irrefl below
  obtain ⟨first, listed⟩ := List.exists_mem_of_ne_nil names some
  obtain ⟨least, _, minimal⟩ := grounded.has_min Set.univ ⟨⟨first, listed⟩, trivial⟩
  exact ⟨least.val, least.property, fun inner member inside =>
    minimal ⟨inner, inside⟩ trivial (.single member)⟩

/-- Closed names hold all that is reached from them, themselves included. -/
theorem mem_of_reflTransGen {names : List String}
    (closed : scope.IsClosed names)
    {outer inner : String} (path : ReflTransGen scope.Refers outer inner)
    (listed : outer ∈ names) : inner ∈ names := by
  rcases reflTransGen_iff_eq_or_transGen.1 path with rfl | path
  · exact listed
  · exact mem_of_transGen closed path listed

/-- From names in order no references lead to a cycle. -/
theorem not_leadsToCycle_of_inOrder {names : List String}
    (ordered : InOrder scope.references names) :
    ∀ name ∈ names, ¬scope.LeadsToCycle name := by
  rintro name listed ⟨inner, path, cycle⟩
  have within := mem_of_reflTransGen (fun _ => ordered.closed) path listed
  exact acyclic_of_inOrder ordered inner within cycle

/-- If each of some names refers to one of them, then they all lead to a cycle. Otherwise the names
that one of them leads to would have a minimal one. -/
theorem leadsToCycle_of_forall_exists {names : List String}
    (onward : ∀ name ∈ names, ∃ inner ∈ scope.references name, inner ∈ names) :
    ∀ name ∈ names, scope.LeadsToCycle name := by
  classical
  intro name listed
  by_contra none
  let reached := names.filter fun inner => ReflTransGen scope.Refers name inner
  have here : name ∈ reached := by simp [reached, listed, ReflTransGen.refl]
  have acyclic : ∀ inner ∈ reached, ¬TransGen scope.Refers inner inner := by
    intro inner member cycle
    exact none ⟨inner, of_decide_eq_true (List.mem_filter.1 member).2, cycle⟩
  obtain ⟨least, member, minimal⟩ := exists_minimal (List.ne_nil_of_mem here) acyclic
  obtain ⟨within, path⟩ := List.mem_filter.1 member
  obtain ⟨inner, refers, inside⟩ := onward least within
  have further : ReflTransGen scope.Refers name inner := (of_decide_eq_true path).tail refers
  exact minimal inner refers (List.mem_filter.2 ⟨inside, decide_eq_true further⟩)

/-- Whether all sets inside a set have settled. -/
def isFree (scope : Scope) (settled : List String) (name : String) : Bool :=
  (scope.references name).all settled.contains

/-- A set is free when all it refers to is settled. -/
theorem isFree_iff {settled : List String} {name : String} :
    isFree scope settled name = true ↔ ∀ inner ∈ scope.references name, inner ∈ settled := by
  simp [isFree]

/-- A set that is free is settled next. -/
theorem settle_free {settled rest : List String} {name : String}
    (free : isFree scope settled name = true) (rounds : Nat) :
    settle scope (rounds + 1) (name :: rest) settled =
      settle scope rounds rest (settled ++ [name]) := by
  rw [settle]
  exact if_pos free

/-- A set that is not free waits behind the others. -/
theorem settle_blocked {settled rest : List String} {name : String}
    (blocked : isFree scope settled name = false) (rounds : Nat) :
    settle scope (rounds + 1) (name :: rest) settled =
      settle scope rounds (rest ++ [name]) settled := by
  rw [settle]
  exact if_neg (Bool.eq_false_iff.1 blocked)

/-- Settling keeps what has settled in order, and it loses no set. -/
theorem settle_inOrder (rounds : Nat) (pending settled : List String)
    (ordered : InOrder scope.references settled) :
    InOrder scope.references (settle scope rounds pending settled).1 ∧
      ((settle scope rounds pending settled).1 ++ (settle scope rounds pending settled).2).Perm
        (settled ++ pending) := by
  induction rounds generalizing pending settled with
  | zero => exact ⟨ordered, .refl _⟩
  | succ rounds ih =>
      cases pending with
      | nil => exact ⟨ordered, .refl _⟩
      | cons name rest =>
          cases free : isFree scope settled name with
          | true =>
              rw [settle_free free]
              have kept := ih rest (settled ++ [name]) (ordered.concat (isFree_iff.1 free))
              exact ⟨kept.1, by simpa using kept.2⟩
          | false =>
              rw [settle_blocked free]
              have kept := ih (rest ++ [name]) settled ordered
              have turned : (settled ++ (rest ++ [name])).Perm (settled ++ name :: rest) :=
                List.perm_append_comm.append_left settled
              exact ⟨kept.1, kept.2.trans turned⟩

/-- Sets that are not free go to the end of the line. -/
theorem settle_skip {settled before : List String}
    (blocked : ∀ name ∈ before, isFree scope settled name = false) (rest : List String)
    (rounds : Nat) :
    settle scope (before.length + rounds) (before ++ rest) settled =
      settle scope rounds (rest ++ before) settled := by
  induction before generalizing rest with
  | nil => simp
  | cons name before ih =>
      obtain ⟨here, later⟩ := List.forall_mem_cons.1 blocked
      have turn := ih later (rest ++ [name])
      rw [List.length_cons, Nat.add_right_comm, List.cons_append, settle_blocked here,
        List.append_assoc, turn, List.append_assoc, List.singleton_append]

/-- If no set in the line is free, then the line only turns. -/
theorem settle_turn {settled pending : List String}
    (blocked : ∀ name ∈ pending, isFree scope settled name = false) (rounds : Nat) :
    (settle scope rounds pending settled).1 = settled ∧
      (settle scope rounds pending settled).2.Perm pending := by
  induction rounds generalizing pending with
  | zero => exact ⟨rfl, .refl _⟩
  | succ rounds ih =>
      cases pending with
      | nil => exact ⟨rfl, .refl _⟩
      | cons name rest =>
          obtain ⟨here, later⟩ := List.forall_mem_cons.1 blocked
          have turned : (rest ++ [name]).Perm (name :: rest) := List.perm_append_comm
          have kept := ih fun other member => blocked other (turned.mem_iff.1 member)
          rw [settle_blocked here]
          exact ⟨kept.1, kept.2.trans turned⟩

/-- After enough rounds no set that is left is free. By induction on the number of sets in the
line: the first free one comes up before the line has turned once. -/
theorem settle_stuck {rounds : Nat} {pending settled : List String}
    (enough : pending.length * (pending.length + 1) ≤ 2 * rounds) :
    ∀ name ∈ (settle scope rounds pending settled).2,
      isFree scope (settle scope rounds pending settled).1 name = false := by
  induction count : pending.length generalizing rounds pending settled with
  | zero =>
      rw [List.length_eq_zero_iff.1 count]
      cases rounds <;> exact fun _ left => nomatch left
  | succ number ih =>
      cases found : pending.find? (isFree scope settled) with
      | none =>
          have blocked : ∀ name ∈ pending, isFree scope settled name = false := by
            simpa using List.find?_eq_none.1 found
          obtain ⟨same, kept⟩ := settle_turn blocked rounds
          rw [same]
          exact fun name left => blocked name (kept.mem_iff.1 left)
      | some name =>
          obtain ⟨free, before, after, rfl, earlier⟩ := List.find?_eq_some_iff_append.1 found
          have blocked : ∀ other ∈ before, isFree scope settled other = false :=
            fun other member => by simpa using earlier other member
          have lengths : before.length + after.length = number := by
            simp only [List.length_append, List.length_cons] at count
            omega
          rw [count] at enough
          have expanded :
              (number + 1) * (number + 1 + 1) = number * (number + 1) + 2 * (number + 1) := by
            ring
          obtain ⟨left, rfl⟩ : ∃ left, rounds = before.length + (left + 1) :=
            ⟨rounds - before.length - 1, by omega⟩
          rw [settle_skip blocked, List.cons_append, settle_free free]
          have fewer : (after ++ before).length = number := by
            rw [List.length_append, Nat.add_comm, lengths]
          exact ih (by rw [fewer]; omega) fewer

/-- After enough rounds exactly those names are left that lead to a cycle: those that have settled
are in order, and each one that is left refers to another one. -/
theorem mem_left_iff {rounds : Nat} {names : List String}
    (closed : scope.IsClosed names)
    (enough : names.length * (names.length + 1) ≤ 2 * rounds) (name : String) :
    name ∈ (settle scope rounds names []).2 ↔ name ∈ names ∧ scope.LeadsToCycle name := by
  obtain ⟨inOrder, kept⟩ := settle_inOrder rounds names [] (.nil : InOrder scope.references [])
  have members (other : String) : other ∈ names ↔
      other ∈ (settle scope rounds names []).1 ∨ other ∈ (settle scope rounds names []).2 := by
    rw [← List.mem_append, kept.mem_iff, List.nil_append]
  constructor
  · intro left
    refine ⟨(members name).2 (.inr left), leadsToCycle_of_forall_exists (fun outer left => ?_) name
      left⟩
    have blocked := settle_stuck enough outer left
    have listed := (members outer).2 (.inr left)
    rw [← Bool.not_eq_true, isFree_iff] at blocked
    push Not at blocked
    obtain ⟨inner, refers, unsettled⟩ := blocked
    exact ⟨inner, refers, ((members inner).1 (closed outer listed inner refers)).resolve_left
      unsettled⟩
  · rintro ⟨listed, leads⟩
    refine ((members name).1 listed).resolve_left fun settled => ?_
    exact not_leadsToCycle_of_inOrder inOrder name settled leads

end Nesting

end NetlinkFamily
