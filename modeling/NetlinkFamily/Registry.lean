/-!
Named entries in the order of their declaration. Declaring a name again replaces its entry and
keeps its place. Functions on plain lists of named entries come first, then `Registry`, whose
names are distinct by construction.
-/

namespace NetlinkFamily

namespace Entries

variable {A : Type}

def names (entries : List (String × A)) : List String :=
  entries.map Prod.fst

/-- The list in which `name` stands for `value`, at its old place or else at the end. -/
def assign (name : String) (value : A) : List (String × A) → List (String × A)
  | [] => [(name, value)]
  | entry :: rest =>
      if entry.1 = name then (name, value) :: rest else entry :: assign name value rest

/-- The list without the first entry of a name. -/
def discard (name : String) : List (String × A) → List (String × A)
  | [] => []
  | entry :: rest => if entry.1 = name then rest else entry :: discard name rest

theorem names_assign_of_mem {name : String} {value : A} {entries : List (String × A)}
    (member : name ∈ names entries) : names (assign name value entries) = names entries := by
  induction entries with
  | nil => simp [names] at member
  | cons entry rest ih =>
      by_cases same : entry.1 = name
      · simp [assign, names, same]
      · have inRest : name ∈ names rest := by
          simp only [names, List.map_cons, List.mem_cons] at member
          exact member.resolve_left fun equal => same equal.symm
        have tail := ih inRest
        simp only [names] at tail
        simp [assign, names, same, tail]

theorem names_assign_of_not_mem {name : String} {value : A} {entries : List (String × A)}
    (fresh : name ∉ names entries) :
    names (assign name value entries) = names entries ++ [name] := by
  induction entries with
  | nil => simp [assign, names]
  | cons entry rest ih =>
      simp only [names, List.map_cons, List.mem_cons, not_or] at fresh
      have tail := ih fresh.2
      simp only [names] at tail
      simp [assign, names, Ne.symm fresh.1, tail]

theorem assign_of_not_mem {name : String} {value : A} {entries : List (String × A)}
    (fresh : name ∉ names entries) : assign name value entries = entries ++ [(name, value)] := by
  induction entries with
  | nil => rfl
  | cons entry rest ih =>
      simp only [names, List.map_cons, List.mem_cons, not_or] at fresh
      rw [assign, if_neg (Ne.symm fresh.1), ih fresh.2, List.cons_append]

/-- Entries under new names are added at the end. -/
theorem foldl_assign {start entries : List (String × A)}
    (distinct : (names (start ++ entries)).Nodup) :
    entries.foldl (fun done entry => assign entry.1 entry.2 done) start = start ++ entries := by
  induction entries generalizing start with
  | nil => simp
  | cons entry rest ih =>
      have fresh : entry.1 ∉ names start := by
        simp only [names, List.map_append, List.map_cons] at distinct
        exact fun member => (List.nodup_append.1 distinct).2.2 _ member _ List.mem_cons_self rfl
      rw [List.foldl_cons, assign_of_not_mem fresh, ih (by simpa using distinct)]
      simp

theorem nodup_assign {name : String} {value : A} {entries : List (String × A)}
    (distinct : (names entries).Nodup) : (names (assign name value entries)).Nodup := by
  by_cases member : name ∈ names entries
  · rwa [names_assign_of_mem member]
  · rw [names_assign_of_not_mem member]
    refine List.nodup_append.2 ⟨distinct, by simp, ?_⟩
    intro first inFirst second inSecond
    simp only [List.mem_singleton] at inSecond
    rintro rfl
    exact member (inSecond ▸ inFirst)

theorem lookup_assign (name other : String) (value : A) (entries : List (String × A)) :
    (assign name value entries).lookup other =
      if other = name then some value else entries.lookup other := by
  induction entries with
  | nil =>
      by_cases same : other = name
      · simp [assign, same]
      · have differs : (other == name) = false := by simp [same]
        simp [assign, List.lookup_cons, same, differs]
  | cons entry rest ih =>
      obtain ⟨key, held⟩ := entry
      by_cases here : key = name
      · by_cases same : other = name
        · simp [assign, here, same]
        · have differs : (other == name) = false := by simp [same]
          simp [assign, here, same, List.lookup_cons, differs]
      · by_cases same : other = key
        · simp [assign, here, same]
        · have differs : (other == key) = false := by simp [same]
          simp [assign, here, List.lookup_cons, differs, ih]

/-- A change to every value changes what is looked up. -/
theorem lookup_map {B : Type} (f : String → A → B) (entries : List (String × A)) (name : String) :
    (entries.map fun entry => (entry.1, f entry.1 entry.2)).lookup name =
      (entries.lookup name).map (f name) := by
  induction entries with
  | nil => rfl
  | cons entry rest ih =>
      obtain ⟨key, held⟩ := entry
      by_cases same : name = key
      · subst same
        simp
      · have differs : (name == key) = false := by simp [same]
        rw [List.map_cons, List.lookup_cons, List.lookup_cons, differs]
        exact ih

theorem lookup_eq_some_iff {name : String} {value : A} {entries : List (String × A)}
    (distinct : (names entries).Nodup) :
    entries.lookup name = some value ↔ (name, value) ∈ entries := by
  induction entries with
  | nil => simp
  | cons entry rest ih =>
      obtain ⟨key, held⟩ := entry
      simp only [names, List.map_cons, List.nodup_cons] at distinct
      by_cases same : name = key
      · subst same
        have absent : (name, value) ∉ rest := fun member =>
          distinct.1 (List.mem_map.2 ⟨_, member, rfl⟩)
        simp [absent, eq_comm]
      · have differs : (name == key) = false := by simp [same]
        simp only [List.lookup_cons, differs, List.mem_cons, Prod.mk.injEq, same, false_and,
          false_or]
        exact ih distinct.2

/-- Where no two members have the same key, a member is the only one with its key. -/
theorem filter_key {K : Type} [DecidableEq K] {key : A → K} {list : List A}
    (distinct : (list.map key).Nodup) {a : A} (member : a ∈ list) :
    list.filter (fun other => key other == key a) = [a] := by
  induction list with
  | nil => cases member
  | cons first rest ih =>
      rw [List.map_cons, List.nodup_cons] at distinct
      rcases List.mem_cons.1 member with rfl | later
      · have others : rest.filter (fun other => key other == key a) = [] := by
          refine List.filter_eq_nil_iff.2 fun other inside same => distinct.1 ?_
          rw [← beq_iff_eq.1 same]
          exact List.mem_map_of_mem inside
        rw [List.filter_cons_of_pos (by simp), others]
      · have differs : key first ≠ key a := fun same =>
          distinct.1 (same ▸ List.mem_map_of_mem later)
        rw [List.filter_cons_of_neg (by simpa using differs), ih distinct.2 later]

theorem mem_assign {name : String} {value : A} {entry : String × A} {entries : List (String × A)}
    (member : entry ∈ assign name value entries) : entry = (name, value) ∨ entry ∈ entries := by
  induction entries with
  | nil => exact .inl (by simpa [assign] using member)
  | cons first rest ih =>
      by_cases same : first.1 = name
      · rw [assign, if_pos same] at member
        exact (List.mem_cons.1 member).imp_right (List.mem_cons_of_mem first)
      · rw [assign, if_neg same] at member
        rcases List.mem_cons.1 member with here | later
        · exact .inr (here ▸ List.mem_cons_self)
        · exact (ih later).imp_right (List.mem_cons_of_mem first)

end Entries

/-- Entries under distinct names, in declaration order. -/
structure Registry (A : Type) where
  entries : List (String × A)
  distinct : (Entries.names entries).Nodup

namespace Registry

variable {A B : Type}

def empty : Registry A :=
  ⟨[], by simp [Entries.names]⟩

instance : Inhabited (Registry A) := ⟨empty⟩

def names (registry : Registry A) : List String :=
  Entries.names registry.entries

def values (registry : Registry A) : List A :=
  registry.entries.map Prod.snd

def size (registry : Registry A) : Nat :=
  registry.entries.length

def get? (registry : Registry A) (name : String) : Option A :=
  registry.entries.lookup name

def contains (registry : Registry A) (name : String) : Bool :=
  (registry.get? name).isSome

/-- The registry in which `name` stands for `value`. -/
def insert (registry : Registry A) (name : String) (value : A) : Registry A :=
  ⟨Entries.assign name value registry.entries, Entries.nodup_assign registry.distinct⟩

@[simp] theorem get?_insert (registry : Registry A) (name other : String) (value : A) :
    (registry.insert name value).get? other =
      if other = name then some value else registry.get? other :=
  Entries.lookup_assign name other value registry.entries

/-- What a registry answers for a name is its one entry of that name. -/
theorem get?_eq_some_iff {registry : Registry A} {name : String} {value : A} :
    registry.get? name = some value ↔ (name, value) ∈ registry.entries :=
  Entries.lookup_eq_some_iff registry.distinct

theorem mem_values_of_get? {registry : Registry A} {name : String} {value : A}
    (found : registry.get? name = some value) : value ∈ registry.values :=
  List.mem_map.2 ⟨_, get?_eq_some_iff.1 found, rfl⟩

theorem contains_insert (registry : Registry A) (name other : String) (value : A) :
    (registry.insert name value).contains other =
      (decide (other = name) || registry.contains other) := by
  by_cases same : other = name <;> simp [contains, same]

theorem contains_of_get? {registry : Registry A} {name : String} {value : A}
    (found : registry.get? name = some value) : registry.contains name = true := by
  simp [contains, found]

/-- A registry holds exactly its names. -/
theorem mem_names_iff (registry : Registry A) (name : String) :
    name ∈ registry.names ↔ registry.contains name = true := by
  simp only [names, contains, get?, Entries.names]
  induction registry.entries with
  | nil => simp
  | cons entry rest ih =>
      obtain ⟨key, held⟩ := entry
      by_cases same : name = key
      · simp [same]
      · have differs : (name == key) = false := by simp [same]
        simp only [List.map_cons, List.mem_cons, same, false_or, List.lookup_cons, differs]
        exact ih

theorem mem_names_insert {registry : Registry A} {name other : String} {value : A} :
    other ∈ (registry.insert name value).names ↔ other = name ∨ other ∈ registry.names := by
  simp [mem_names_iff, contains_insert]

theorem mem_names_of_get? {registry : Registry A} {name : String} {value : A}
    (found : registry.get? name = some value) : name ∈ registry.names :=
  (mem_names_iff registry name).2 (contains_of_get? found)

theorem exists_get?_of_mem {registry : Registry A} {name : String}
    (listed : name ∈ registry.names) :
    ∃ value, registry.get? name = some value := by
  rw [mem_names_iff, contains, Option.isSome_iff_exists] at listed
  exact listed

/-- Later entries of a name replace earlier ones. -/
def ofList (entries : List (String × A)) : Registry A :=
  entries.foldl (fun registry entry => registry.insert entry.1 entry.2) empty

theorem entries_ofList (entries : List (String × A)) :
    (ofList entries).entries =
      entries.foldl (fun done entry => Entries.assign entry.1 entry.2 done) [] :=
  (List.foldl_hom Registry.entries fun _ _ => rfl).symm

/-- Entries under distinct names are kept as they are listed. -/
theorem entries_ofList_of_nodup {entries : List (String × A)}
    (distinct : (Entries.names entries).Nodup) : (ofList entries).entries = entries := by
  rw [entries_ofList, Entries.foldl_assign (by simpa using distinct), List.nil_append]

/-- A property of all listed entries holds of all entries of the registry. -/
theorem forall_ofList {entries : List (String × A)} {property : String × A → Prop}
    (listed : ∀ entry ∈ entries, property entry) :
    ∀ entry ∈ (ofList entries).entries, property entry := by
  suffices general : ∀ (more : List (String × A)) (registry : Registry A),
      (∀ entry ∈ more, property entry) → (∀ entry ∈ registry.entries, property entry) →
        ∀ entry ∈ (more.foldl (fun registry entry => registry.insert entry.1 entry.2)
          registry).entries, property entry from
    general entries empty listed (by simp [empty])
  intro more
  induction more with
  | nil => exact fun registry _ held => held
  | cons first rest ih =>
      intro registry fromList held
      refine ih _ (fun entry member => fromList entry (List.mem_cons_of_mem _ member)) ?_
      intro entry member
      rcases Entries.mem_assign member with rfl | earlier
      · exact fromList _ List.mem_cons_self
      · exact held entry earlier

def map (f : A → B) (registry : Registry A) : Registry B :=
  ⟨registry.entries.map fun entry => (entry.1, f entry.2), by
    simpa [Entries.names, Function.comp_def] using registry.distinct⟩

/-- This changes the entry of one name, if there is one. -/
def update (registry : Registry A) (name : String) (f : A → A) : Registry A :=
  ⟨registry.entries.map fun entry => (entry.1, if entry.1 = name then f entry.2 else entry.2), by
    simpa [Entries.names, Function.comp_def] using registry.distinct⟩

@[simp] theorem names_update (registry : Registry A) (name : String) (f : A → A) :
    (registry.update name f).names = registry.names := by
  simp [names, update, Entries.names, Function.comp_def]

@[simp] theorem get?_update (registry : Registry A) (name other : String) (f : A → A) :
    (registry.update name f).get? other =
      (registry.get? other).map fun value => if other = name then f value else value :=
  Entries.lookup_map (fun key value => if key = name then f value else value) registry.entries other

private def mapEntriesM {E : Type} (f : A → Except E B) :
    (entries : List (String × A)) →
      Except E { mapped : List (String × B) // Entries.names mapped = Entries.names entries }
  | [] => .ok ⟨[], rfl⟩
  | entry :: rest =>
      match f entry.2 with
      | .error error => .error error
      | .ok value =>
          match mapEntriesM f rest with
          | .error error => .error error
          | .ok mapped =>
              .ok ⟨(entry.1, value) :: mapped.val, by
                have tail := mapped.property
                simp only [Entries.names] at tail
                simp [Entries.names, tail]⟩

/-- This applies a function that may fail to every entry in order. -/
def mapM {E : Type} (f : A → Except E B) (registry : Registry A) : Except E (Registry B) :=
  match mapEntriesM f registry.entries with
  | .error error => .error error
  | .ok mapped => .ok ⟨mapped.val, by rw [mapped.property]; exact registry.distinct⟩

private theorem mem_of_mapEntriesM {E : Type} {f : A → Except E B} {entries : List (String × A)}
    {mapped : { mapped : List (String × B) // Entries.names mapped = Entries.names entries }}
    (done : mapEntriesM f entries = .ok mapped) :
    ∀ entry ∈ mapped.val, ∃ value, (entry.1, value) ∈ entries ∧ f value = .ok entry.2 := by
  induction entries with
  | nil =>
      simp only [mapEntriesM, Except.ok.injEq] at done
      subst done
      simp
  | cons first rest ih =>
      rw [mapEntriesM] at done
      split at done
      · cases done
      · rename_i value found
        split at done
        · cases done
        · rename_i others read
          simp only [Except.ok.injEq] at done
          subst done
          intro entry member
          rcases List.mem_cons.1 member with rfl | later
          · exact ⟨first.2, List.mem_cons_self, found⟩
          · obtain ⟨source, member, same⟩ := ih read entry later
            exact ⟨source, List.mem_cons_of_mem _ member, same⟩

private theorem mapM_of_mapEntriesM {E : Type} {f : A → Except E B} {entries : List (String × A)}
    {mapped : { mapped : List (String × B) // Entries.names mapped = Entries.names entries }}
    (done : mapEntriesM f entries = .ok mapped) :
    entries.mapM (fun entry => (f entry.2).map (entry.1, ·)) = .ok mapped.val := by
  induction entries with
  | nil =>
      simp only [mapEntriesM, Except.ok.injEq] at done
      subst done
      rfl
  | cons first rest ih =>
      rw [mapEntriesM] at done
      split at done
      · cases done
      · rename_i value found
        split at done
        · cases done
        · rename_i others read
          simp only [Except.ok.injEq] at done
          subst done
          rw [List.mapM_cons, found, ih read]
          rfl

private theorem exists_error_of_mapEntriesM {E : Type} {f : A → Except E B}
    {entries : List (String × A)} {error : E} (failed : mapEntriesM f entries = .error error) :
    ∃ entry ∈ entries, f entry.2 = .error error := by
  induction entries with
  | nil => cases failed
  | cons first rest ih =>
      rw [mapEntriesM] at failed
      split at failed
      · rename_i refused
        exact ⟨first, List.mem_cons_self, Except.error.inj failed ▸ refused⟩
      · split at failed
        · rename_i refused
          rw [Except.error.inj failed] at refused
          obtain ⟨entry, member, same⟩ := ih refused
          exact ⟨entry, List.mem_cons_of_mem _ member, same⟩
        · cases failed

/-- The entries of a mapped registry are the mapped entries, in order. -/
theorem mapM_entries {E : Type} {f : A → Except E B} {registry : Registry A} {mapped : Registry B}
    (done : registry.mapM f = .ok mapped) :
    registry.entries.mapM (fun entry => (f entry.2).map (entry.1, ·)) = .ok mapped.entries := by
  unfold mapM at done
  split at done
  · cases done
  · rename_i entries read
    simp only [Except.ok.injEq] at done
    subst done
    exact mapM_of_mapEntriesM read

/-- Every entry of a mapped registry comes from the entry of its name. -/
theorem mem_of_mapM {E : Type} {f : A → Except E B} {registry : Registry A} {mapped : Registry B}
    (done : registry.mapM f = .ok mapped) :
    ∀ entry ∈ mapped.entries,
      ∃ value, (entry.1, value) ∈ registry.entries ∧ f value = .ok entry.2 := by
  unfold mapM at done
  split at done
  · cases done
  · rename_i entries read
    simp only [Except.ok.injEq] at done
    subst done
    exact mem_of_mapEntriesM read

/-- A registry that cannot be mapped has an entry for which the function fails. -/
theorem exists_error_of_mapM {E : Type} {f : A → Except E B} {registry : Registry A} {error : E}
    (failed : registry.mapM f = .error error) :
    ∃ value ∈ registry.values, f value = .error error := by
  unfold mapM at failed
  split at failed
  · rename_i refused
    obtain ⟨entry, member, same⟩ := exists_error_of_mapEntriesM refused
    exact ⟨entry.2, List.mem_map_of_mem member, Except.error.inj failed ▸ same⟩
  · cases failed

/-- The registry with its entries in the order of `order`. Names outside of it are left out. -/
def arrange (registry : Registry A) (order : List String) : Registry A :=
  ofList (order.filterMap fun name => (registry.get? name).map (name, ·))

private theorem names_chosen {registry : Registry A} {order : List String}
    (known : ∀ name ∈ order, name ∈ registry.names) :
    Entries.names (order.filterMap fun name => (registry.get? name).map (name, ·)) = order := by
  induction order with
  | nil => rfl
  | cons name rest ih =>
      obtain ⟨here, later⟩ := List.forall_mem_cons.1 known
      obtain ⟨value, found⟩ := exists_get?_of_mem here
      have tail := ih later
      simp only [Entries.names] at tail ⊢
      simp [found, tail]

private theorem entries_arrange {registry : Registry A} {order : List String}
    (distinct : order.Nodup) (known : ∀ name ∈ order, name ∈ registry.names) :
    (registry.arrange order).entries =
      order.filterMap fun name => (registry.get? name).map (name, ·) :=
  entries_ofList_of_nodup (by rwa [names_chosen known])

/-- An arrangement of distinct names of the registry has these names. -/
theorem names_arrange {registry : Registry A} {order : List String} (distinct : order.Nodup)
    (known : ∀ name ∈ order, name ∈ registry.names) : (registry.arrange order).names = order := by
  rw [names, entries_arrange distinct known, names_chosen known]

/-- An arrangement holds what the registry holds under the names that it lists. -/
theorem get?_arrange {registry : Registry A} {order : List String} (distinct : order.Nodup)
    (known : ∀ name ∈ order, name ∈ registry.names) {name : String} {value : A} :
    (registry.arrange order).get? name = some value ↔
      name ∈ order ∧ registry.get? name = some value := by
  rw [get?_eq_some_iff, entries_arrange distinct known]
  simp only [List.mem_filterMap, Option.map_eq_some_iff, Prod.mk.injEq]
  constructor
  · rintro ⟨_, listed, _, found, rfl, rfl⟩
    exact ⟨listed, found⟩
  · rintro ⟨listed, found⟩
    exact ⟨name, listed, value, found, rfl, rfl⟩

end Registry

end NetlinkFamily
