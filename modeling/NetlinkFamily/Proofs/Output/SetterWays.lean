import NetlinkFamily.Proofs.Model.Layouts

namespace NetlinkFamily

namespace Setter

open Outcome

variable {file : Spec.File} {excludes : List Pattern} {family : Family} {subject : Subject}
  {part : Part} {space : Space} {members : Attribute → List Attribute}
  {attr outer inner : Attribute}

section Ways

/-- A way through single nests to a member that is no such nest and no padding. -/
inductive LeadsTo (members : Attribute → List Attribute) : Attribute → List Attribute → Prop where
  | here {attr : Attribute} (ends : isTransparent attr = false) (busy : isIdle attr = false) :
      LeadsTo members attr [attr]
  | through {outer inner : Attribute} {way : List Attribute} (member : inner ∈ members outer)
      (rest : LeadsTo members inner way) : LeadsTo members outer (outer :: way)

/-- Two ways part at a nest, and the first one takes the earlier member there. -/
inductive Before (members : Attribute → List Attribute) :
    List Attribute → List Attribute → Prop where
  | branch {outer first second : Attribute} {rest others : List Attribute}
      (order : [first, second].Sublist (members outer)) :
      Before members (outer :: first :: rest) (outer :: second :: others)
  | deeper {outer : Attribute} {way other : List Attribute} (rest : Before members way other) :
      Before members (outer :: way) (outer :: other)

/-- All ways from an attribute, in the order of the members at which they part. -/
structure ListsWays (members : Attribute → List Attribute) (attr : Attribute)
    (ways : List (List Attribute)) : Prop where
  complete : ∀ way, way ∈ ways ↔ LeadsTo members attr way
  inOrder : ways.Pairwise (Before members)

/-- A way from an attribute starts with it. -/
theorem exists_cons_of_leadsTo {way : List Attribute} (leads : LeadsTo members attr way) :
    ∃ rest, way = attr :: rest := by
  cases leads with
  | here => exact ⟨[], rfl⟩
  | through => exact ⟨_, rfl⟩

/-- No way comes before itself. -/
theorem not_before_self (distinct : ∀ outer, (members outer).Nodup) (way : List Attribute) :
    ¬Before members way way := by
  induction way with
  | nil => intro before; cases before
  | cons outer way ih =>
      intro before
      cases before with
      | branch order =>
          have twice := (distinct outer).sublist order
          simp at twice
      | deeper rest => exact ih rest

/-- Ways that are listed are listed once. -/
theorem ListsWays.nodup {ways : List (List Attribute)} (lists : ListsWays members attr ways)
    (distinct : ∀ outer, (members outer).Nodup) : ways.Nodup := by
  show ways.Pairwise (· ≠ ·)
  refine lists.inOrder.imp ?_
  rintro way _ before rfl
  exact not_before_self distinct way before

/-- The ways from several attributes are those from one of them. -/
theorem mem_flatten_of_lists {attrs : List Attribute} {groups : List (List (List Attribute))}
    (lists : List.Forall₂ (ListsWays members) attrs groups) (way : List Attribute) :
    way ∈ groups.flatten ↔ ∃ attr ∈ attrs, LeadsTo members attr way := by
  induction lists with
  | nil => simp
  | cons here _ ih =>
      simp only [List.flatten_cons, List.mem_append, here.complete, ih, List.mem_cons,
        exists_eq_or_imp]

/-- The ways from an earlier member come before those from a later one. -/
theorem pairwise_before_of_lists {attrs : List Attribute} {groups : List (List (List Attribute))}
    (lists : List.Forall₂ (ListsWays members) attrs groups)
    (order : attrs.Sublist (members outer)) :
    (groups.flatten.map (outer :: ·)).Pairwise (Before members) := by
  induction lists with
  | nil => exact .nil
  | @cons inner first attrs groups here others ih =>
      rw [List.flatten_cons, List.map_append]
      refine List.pairwise_append.2 ⟨?_, ih ((List.sublist_cons_self ..).trans order), ?_⟩
      · exact List.pairwise_map.2 (here.inOrder.imp .deeper)
      · intro way left other right
        obtain ⟨_, listed, rfl⟩ := List.mem_map.1 left
        obtain ⟨_, among, rfl⟩ := List.mem_map.1 right
        obtain ⟨later, member, leads⟩ := (mem_flatten_of_lists others _).1 among
        obtain ⟨_, rfl⟩ := exists_cons_of_leadsTo ((here.complete _).1 listed)
        obtain ⟨_, rfl⟩ := exists_cons_of_leadsTo leads
        refine .branch (List.Sublist.trans ?_ order)
        exact (List.singleton_sublist.2 member).cons_cons inner

end Ways

section Nests

/-- The set that a single nest is looked up by. A nest that names none stands for the empty name. -/
def nest? (family : Family) (outer : Attribute) : Option Layout :=
  if isTransparent outer then family.nestedSets.get? (outer.nestedSet?.getD "") else none

/-- The members that are gone through for an attribute. -/
def entered (family : Family) (outer : Attribute) : List Attribute :=
  match nest? family outer with
  | none => []
  | some layout => layout.attributes family.toScope

/-- The members of the set that a single nest names. -/
def inside (family : Family) (outer : Attribute) : List Attribute :=
  if isTransparent outer then
    match outer.nestedSet?.bind family.nestedSets.get? with
    | none => []
    | some layout => layout.attributes family.toScope
  else []

/-- An attribute of some set of the family. -/
def IsDeclared (family : Family) (attr : Attribute) : Prop :=
  ∃ set ∈ family.sets.values, attr ∈ set.attrs.values

/-- A single nest that names no set does not stand for a nested set by accident. -/
def NamesNests (family : Family) : Prop :=
  ∀ attr, IsDeclared family attr → isTransparent attr = true → attr.nestedSet? = none →
    family.nestedSets.get? "" = none

/-- The members by which ways are told are those that are gone through. -/
structure IsEntered (family : Family) (members : Attribute → List Attribute) : Prop where
  nest : ∀ outer, isTransparent outer = false → members outer = []
  entered : ∀ outer, IsDeclared family outer → members outer = entered family outer
  distinct : ∀ outer, (members outer).Nodup

/-- A nest that is entered is transparent and its set is known. -/
theorem transparent_of_nest? {layout : Layout} (found : nest? family outer = some layout) :
    isTransparent outer = true ∧
      family.nestedSets.get? (outer.nestedSet?.getD "") = some layout := by
  unfold nest? at found
  split at found
  · exact ⟨‹_›, found⟩
  · cases found

/-- A nest is entered when it is transparent and the set it names is known. -/
theorem nest?_eq (named : NamesNests family) (declared : IsDeclared family outer) :
    nest? family outer =
      if isTransparent outer then outer.nestedSet?.bind family.nestedSets.get? else none := by
  unfold nest?
  split
  · rename_i transparent
    cases inner : outer.nestedSet? with
    | none => exact named outer declared transparent inner
    | some name => rfl
  · rfl

/-- A nested set has the attributes of its declaration. -/
theorem attributes_nestedSet (built : Family.ofSpec file excludes = .ok family) {name : String}
    {layout : Layout} (held : family.nestedSets.get? name = some layout) :
    ∃ set, family.sets.get? name = some set ∧
      layout.attributes family.toScope = set.attrs.values := by
  obtain ⟨set, found, holds⟩ := Family.holdsAll built held
  exact ⟨set, found, holds.attributes⟩

/-- No attribute stands twice in a nested set. -/
theorem nodup_attributes (built : Family.ofSpec file excludes = .ok family) {name : String}
    {layout : Layout} (held : family.nestedSets.get? name = some layout) :
    (layout.attributes family.toScope).Nodup := by
  obtain ⟨set, _, members⟩ := attributes_nestedSet built held
  have names : (set.attrs.values.map Attribute.name).Nodup := set.names_eq ▸ set.attrs.distinct
  exact members ▸ names.of_map _

/-- Entering a nest leads to the attributes of its set. -/
theorem entered_of_nest? {layout : Layout} (found : nest? family outer = some layout) :
    entered family outer = layout.attributes family.toScope := by
  rw [entered, found]

/-- What is entered is in the set of the nest. -/
theorem exists_of_mem_entered (member : inner ∈ entered family outer) :
    ∃ layout, nest? family outer = some layout ∧
      inner ∈ layout.attributes family.toScope := by
  unfold entered at member
  split at member
  · cases member
  · exact ⟨_, ‹_›, member⟩

/-- What is gone through for an attribute are all attributes of one set. -/
theorem exists_set_of_mem_entered (built : Family.ofSpec file excludes = .ok family)
    (member : inner ∈ entered family outer) :
    ∃ set ∈ family.sets.values, entered family outer = set.attrs.values := by
  obtain ⟨layout, found, _⟩ := exists_of_mem_entered member
  obtain ⟨set, held, same⟩ := attributes_nestedSet built (transparent_of_nest? found).2
  exact ⟨set, Registry.mem_values_of_get? held, (entered_of_nest? found).trans same⟩

/-- What is entered is declared. -/
theorem isDeclared_of_mem_entered (built : Family.ofSpec file excludes = .ok family)
    (member : inner ∈ entered family outer) : IsDeclared family inner := by
  obtain ⟨set, held, same⟩ := exists_set_of_mem_entered built member
  exact ⟨set, held, same ▸ member⟩

/-- The attributes entered are those of the nests. -/
theorem isEntered_entered (built : Family.ofSpec file excludes = .ok family) :
    IsEntered family (entered family) where
  nest outer ends := by simp [entered, nest?, ends]
  entered outer _ := rfl
  distinct outer := by
    unfold entered
    split
    · exact .nil
    · rename_i layout found
      exact nodup_attributes built (transparent_of_nest? found).2

/-- If nests name the sets inside them, these are gone through. -/
theorem isEntered_inside (built : Family.ofSpec file excludes = .ok family)
    (named : NamesNests family) : IsEntered family (inside family) where
  nest outer ends := by simp [inside, ends]
  entered outer declared := by
    rw [entered, nest?_eq named declared, inside]
    cases isTransparent outer <;> rfl
  distinct outer := by
    unfold inside
    split
    · split
      · exact .nil
      · rename_i layout found
        obtain ⟨name, _, held⟩ := Option.bind_eq_some_iff.1 found
        exact nodup_attributes built held
    · exact .nil

/-- Only transparent attributes are entered. -/
theorem IsEntered.transparent (isEntered : IsEntered family members)
    (member : inner ∈ members outer) : isTransparent outer = true := by
  by_contra ends
  rw [isEntered.nest outer (by simpa using ends)] at member
  cases member

/-- A longer way starts at a nest. -/
theorem IsEntered.transparent_of_leadsTo (isEntered : IsEntered family members)
    {rest : List Attribute} (leads : LeadsTo members attr (outer :: rest)) (longer : rest ≠ []) :
    outer = attr ∧ isTransparent attr = true := by
  cases leads with
  | here => exact absurd rfl longer
  | through member => exact ⟨rfl, isEntered.transparent member⟩

end Nests

section Functions

variable {depth : Nat} {path : List String}

/-- An idle attribute has no setter. -/
theorem functions_of_idle (idle : isIdle attr = true) :
    functions space family subject part depth path attr = .ok [] := by
  unfold functions
  rw [if_pos idle]

/-- A transparent attribute is not idle. -/
theorem not_idle_of_transparent (transparent : isTransparent attr = true) :
    isIdle attr = false := by
  unfold isTransparent at transparent
  unfold isIdle
  rw [beq_iff_eq.1 (Bool.and_eq_true_iff.1 transparent).1]
  rfl

/-- An attribute that ends a way has the one setter of a leaf. -/
theorem functions_of_leaf (busy : isIdle attr = false) (ends : isTransparent attr = false) :
    functions space family subject part depth path attr =
      (leaf space subject part path attr).map ([·]) := by
  unfold functions
  rw [if_neg (by simp [busy]), if_neg (by simp [ends])]

/-- A nest whose set is not known has no setters. -/
theorem functions_of_lost (transparent : isTransparent attr = true)
    (lost : nest? family attr = none) :
    functions space family subject part depth path attr = .error (attr.unsupported "setter") := by
  rw [nest?, if_pos transparent] at lost
  unfold functions
  rw [if_neg (by simp [not_idle_of_transparent transparent]), if_pos transparent, lost]
  cases depth <;> rfl

/-- A nest has the setters of all that is in its set. -/
theorem functions_of_nest {nested : Layout} (found : nest? family attr = some nested) :
    functions space family subject part (depth + 1) path attr =
      ((entered family attr).mapM
        (functions space family subject part depth (path ++ [attr.cName]))).map List.flatten := by
  obtain ⟨transparent, held⟩ := transparent_of_nest? found
  rw [entered_of_nest? found]
  unfold functions
  rw [if_neg (by simp [not_idle_of_transparent transparent]), if_pos transparent]
  simp only [held]
  cases (nested.attributes family.toScope).mapM
      (functions space family subject part depth (path ++ [attr.cName])) <;> rfl

/-- A nest beyond the depth has no setters. -/
theorem functions_of_spent (transparent : isTransparent attr = true) :
    functions space family subject part 0 path attr = .error (attr.unsupported "setter") := by
  unfold functions
  rw [if_neg (by simp [not_idle_of_transparent transparent]), if_pos transparent]

/-- Padding needs no functions, a single nest has those of its members, and all else has one. -/
theorem functions_cases {setters : List Function}
    (done : functions space family subject part depth path attr = .ok setters) :
    isIdle attr = true ∧ setters = [] ∨
      isIdle attr = false ∧ isTransparent attr = false ∧
        (∃ setter, leaf space subject part path attr = .ok setter ∧ setters = [setter]) ∨
      isTransparent attr = true ∧ ∃ less parts, depth = less + 1 ∧
        (entered family attr).mapM
          (functions space family subject part less (path ++ [attr.cName])) = .ok parts ∧
        setters = parts.flatten := by
  cases idle : isIdle attr with
  | true =>
      rw [functions_of_idle idle] at done
      exact .inl ⟨rfl, (Except.ok.inj done).symm⟩
  | false =>
      cases transparent : isTransparent attr with
      | false =>
          rw [functions_of_leaf idle transparent] at done
          obtain ⟨setter, made, rfl⟩ := map_eq_ok_iff.1 done
          exact .inr (.inl ⟨rfl, rfl, setter, made, rfl⟩)
      | true =>
          cases depth with
          | zero =>
              rw [functions_of_spent transparent] at done
              cases done
          | succ less =>
              cases found : nest? family attr with
              | none =>
                  rw [functions_of_lost transparent found] at done
                  cases done
              | some nested =>
                  rw [functions_of_nest found] at done
                  obtain ⟨parts, made, rfl⟩ := map_eq_ok_iff.1 done
                  exact .inr (.inr ⟨rfl, less, parts, rfl, made, rfl⟩)

end Functions

section Depth

/-- The recursion at an attribute ends, with at most this many attributes at once. -/
def EndsWithin (family : Family) : Nat → Attribute → Prop
  | 0, _ => False
  | depth + 1, outer => ∀ inner ∈ entered family outer, EndsWithin family depth inner

/-- Ways that end within a depth end within a greater one. -/
theorem EndsWithin.mono {depth more : Nat} (ends : EndsWithin family depth attr)
    (least : depth ≤ more) : EndsWithin family more attr := by
  induction depth generalizing attr more with
  | zero => exact ends.elim
  | succ depth ih =>
      obtain ⟨more, rfl⟩ : ∃ other, more = other + 1 := ⟨more - 1, by omega⟩
      exact fun inner enters => ih (ends inner enters) (by omega)

/-- An attribute that enters one of the given nested sets, if it enters a set at all. -/
structure Within (family : Family) (names : List String) (attr : Attribute) : Prop where
  declared : IsDeclared family attr
  nest : ∀ layout, nest? family attr = some layout → attr.nestedSet?.getD "" ∈ names

/-- The names of all nested sets bound the ways from a declared attribute. -/
theorem within_names (declared : IsDeclared family attr) :
    Within family family.nestedSets.names attr where
  declared := declared
  nest _ found := Registry.mem_names_of_get? (transparent_of_nest? found).2

/-- A set stands behind those that its members enter. -/
theorem Within.step (built : Family.ofSpec file excludes = .ok family)
    (named : NamesNests family) {before after : List String}
    (split : family.nestedSets.names = before ++ after) (within : Within family before outer)
    (enters : inner ∈ entered family outer) :
    ∃ earlier later, family.nestedSets.names = earlier ++ later ∧
      earlier.length < before.length ∧ Within family earlier inner := by
  obtain ⟨layout, found, listed⟩ := exists_of_mem_entered enters
  obtain ⟨earlier, later, rfl⟩ := List.append_of_mem (within.nest layout found)
  have declared := isDeclared_of_mem_entered built enters
  refine ⟨earlier, _, by rw [split, List.append_assoc, List.cons_append], by simp, declared, ?_⟩
  intro deeper looked
  have transparent := (transparent_of_nest? looked).1
  rw [nest?_eq named declared, if_pos transparent] at looked
  obtain ⟨name, named, _⟩ := Option.bind_eq_some_iff.1 looked
  obtain ⟨set, held, same⟩ := attributes_nestedSet built (transparent_of_nest? found).2
  obtain ⟨_, _, _, _, resolved⟩ := Family.outline_of_ofSpec built
  obtain ⟨_, _, _, inOrder⟩ := Nesting.resolve_inOrder resolved
  apply inOrder earlier _ (later ++ after) (by rw [split, List.append_assoc, List.cons_append])
  exact Scope.refers_iff.2 ⟨set, held, inner, same ▸ listed, by rw [named]; rfl⟩

/-- By induction along the order of the nested sets. -/
theorem endsWithin_of_within (built : Family.ofSpec file excludes = .ok family)
    (named : NamesNests family) {before after : List String}
    (split : family.nestedSets.names = before ++ after) (within : Within family before attr) :
    EndsWithin family (before.length + 1) attr := by
  induction counted : before.length using Nat.strong_induction_on
      generalizing before after attr with
  | _ size ih =>
      intro inner enters
      obtain ⟨earlier, later, split, less, deeper⟩ := within.step built named split enters
      exact (ih earlier.length (counted ▸ less) split deeper rfl).mono (by omega)

/-- The recursion needs no more steps than there are nested sets. -/
theorem functions_of_within (built : Family.ofSpec file excludes = .ok family)
    (named : NamesNests family) {before after : List String}
    (split : family.nestedSets.names = before ++ after) (within : Within family before attr)
    {depth : Nat} (enough : before.length ≤ depth) (path : List String) :
    functions space family subject part depth path attr =
      functions space family subject part before.length path attr := by
  induction counted : before.length using Nat.strong_induction_on
      generalizing before after attr depth path with
  | _ size ih =>
      cases idle : isIdle attr with
      | true => rw [functions_of_idle idle, functions_of_idle idle]
      | false =>
          cases transparent : isTransparent attr with
          | false => rw [functions_of_leaf idle transparent, functions_of_leaf idle transparent]
          | true =>
              cases found : nest? family attr with
              | none => rw [functions_of_lost transparent found, functions_of_lost transparent found]
              | some layout =>
                  have some : 0 < before.length :=
                    List.length_pos_of_mem (within.nest layout found)
                  obtain ⟨least, rfl⟩ : ∃ other, size = other + 1 := ⟨size - 1, by omega⟩
                  obtain ⟨more, rfl⟩ : ∃ other, depth = other + 1 := ⟨depth - 1, by omega⟩
                  rw [functions_of_nest found, functions_of_nest found]
                  have same : List.Forall₂ Eq (entered family attr) (entered family attr) :=
                    List.forall₂_same.2 fun _ _ => rfl
                  refine congrArg _ (mapM_eq_of_forall₂ same ?_)
                  rintro inner enters _ rfl
                  obtain ⟨earlier, later, split, less, deeper⟩ :=
                    within.step built named split enters
                  have small : earlier.length < least + 1 := counted ▸ less
                  rw [ih _ small split deeper (by omega) _ rfl,
                    ih _ small split deeper (Nat.le_of_lt_succ small) _ rfl]

end Depth

section Listed

/-- The function of a way is that of the member at its end. -/
def IsLeaf (space : Space) (subject : Subject) (part : Part) (enclosing : List Attribute)
    (way : List Attribute) (function : Function) : Prop :=
  ∃ nests member, way = nests ++ [member] ∧
    leaf space subject part ((enclosing ++ nests).map Attribute.cName) member = .ok function

/-- A leaf below a nest is one at the end of the longer way. -/
theorem isLeaf_cons {enclosing way : List Attribute} {function : Function}
    (isLeaf : IsLeaf space subject part (enclosing ++ [outer]) way function) :
    IsLeaf space subject part enclosing (outer :: way) function := by
  obtain ⟨nests, member, rfl, made⟩ := isLeaf
  exact ⟨outer :: nests, member, rfl, by rwa [List.append_assoc] at made⟩

/-- The only way from anything but a nest is the attribute itself. -/
theorem listsWays_of_ends (isEntered : IsEntered family members)
    (ends : isTransparent attr = false) :
    ListsWays members attr (if isIdle attr then [] else [[attr]]) where
  complete way := by
    constructor
    · intro member
      split at member
      · cases member
      · rename_i busy
        rw [List.mem_singleton.1 member]
        exact .here ends (by simpa using busy)
    · intro leads
      cases leads with
      | here _ busy => simp [busy]
      | through member =>
          rw [isEntered.nest attr ends] at member
          cases member
  inOrder := by split <;> simp

/-- The ways from a nest are those of its members. -/
theorem listsWays_of_transparent (transparent : isTransparent outer = true)
    {groups : List (List (List Attribute))}
    (lists : List.Forall₂ (ListsWays members) (members outer) groups) :
    ListsWays members outer (groups.flatten.map (outer :: ·)) where
  complete way := by
    simp only [List.mem_map, mem_flatten_of_lists lists]
    constructor
    · rintro ⟨rest, ⟨inner, member, leads⟩, rfl⟩
      exact .through member leads
    · intro leads
      cases leads with
      | here ends =>
          rw [transparent] at ends
          cases ends
      | through member rest => exact ⟨_, ⟨_, member, rest⟩, rfl⟩
  inOrder := pairwise_before_of_lists lists (List.Sublist.refl _)

/-- What holds for each of some attributes holds for their ways in a row. -/
theorem exists_groups {R : List Attribute → Function → Prop} {attrs : List Attribute}
    {parts : List (List Function)}
    (each : List.Forall₂ (fun attr setters => ∃ ways, ListsWays members attr ways ∧
      List.Forall₂ R ways setters) attrs parts) :
    ∃ groups, List.Forall₂ (ListsWays members) attrs groups ∧
      List.Forall₂ R groups.flatten parts.flatten := by
  induction each with
  | nil => exact ⟨[], .nil, .nil⟩
  | cons here _ ih =>
      obtain ⟨ways, lists, leaves⟩ := here
      obtain ⟨groups, others, rest⟩ := ih
      exact ⟨ways :: groups, .cons lists others, List.rel_append leaves rest⟩

/-- There is one function for each way. The induction is on the depth, whatever nests are around. -/
theorem exists_ways (built : Family.ofSpec file excludes = .ok family)
    (isEntered : IsEntered family members) {depth : Nat} {enclosing : List Attribute}
    (declared : IsDeclared family attr) {setters : List Function}
    (done : functions space family subject part depth (enclosing.map Attribute.cName) attr =
      .ok setters) :
    ∃ ways, ListsWays members attr ways ∧
      List.Forall₂ (IsLeaf space subject part enclosing) ways setters := by
  induction depth using Nat.strong_induction_on generalizing attr enclosing setters with
  | _ depth ih =>
      rcases functions_cases done with ⟨idle, rfl⟩ | ⟨busy, ends, setter, made, rfl⟩ |
        ⟨transparent, less, parts, rfl, made, rfl⟩
      · have ends : isTransparent attr = false := by
          by_contra transparent
          rw [not_idle_of_transparent (by simpa using transparent)] at idle
          cases idle
        refine ⟨_, listsWays_of_ends isEntered ends, ?_⟩
        rw [if_pos idle]
        exact .nil
      · refine ⟨_, listsWays_of_ends isEntered ends, ?_⟩
        rw [if_neg (by simp [busy])]
        exact .cons ⟨[], attr, rfl, by rwa [List.append_nil]⟩ .nil
      · have each := (forall₂_mem (mapM_eq_ok_iff.1 made)).imp fun inner setters both => by
          obtain ⟨enters, done⟩ := both
          have declared := isDeclared_of_mem_entered built enters
          rw [← List.map_singleton (f := Attribute.cName), ← List.map_append] at done
          exact ih less (Nat.lt_succ_self less) declared done
        rw [← isEntered.entered attr declared] at each
        obtain ⟨groups, lists, leaves⟩ := exists_groups each
        refine ⟨_, listsWays_of_transparent transparent lists, ?_⟩
        exact List.forall₂_map_left_iff.2 (leaves.imp fun _ _ => isLeaf_cons)

end Listed

end Setter

end NetlinkFamily
