import Mathlib.Data.List.Forall2

namespace NetlinkFamily.Outcome

variable {A B C E : Type}

/-- A pure outcome is the value it is made of. -/
@[simp] theorem pure_eq_ok_iff (value result : A) :
    (pure value : Except E A) = .ok result ↔ value = result := by
  simp [pure, Except.pure]

/-- An outcome with a value is that value. -/
theorem eq_ok_get {outcome : Except E A} (some : outcome.toOption.isSome = true) :
    outcome = .ok (outcome.toOption.get some) := by
  cases outcome with
  | error error => cases some
  | ok value => rfl

/-- The error of an outcome that has failed. -/
def error? : Except E A → Option E
  | .error error => some error
  | .ok _ => none

/-- An outcome has an error exactly when it has failed with it. -/
theorem error?_eq_some_iff {outcome : Except E A} {error : E} :
    error? outcome = some error ↔ outcome = .error error := by
  cases outcome <;> simp [error?]

/-- A step and its continuation succeed if both do. -/
theorem bind_eq_ok_iff {first : Except E A} {next : A → Except E B} {result : B} :
    (first >>= next) = .ok result ↔ ∃ value, first = .ok value ∧ next value = .ok result := by
  cases first <;> simp [bind, Except.bind]

/-- A step and its continuation fail if one of them does. -/
theorem bind_eq_error_iff {first : Except E A} {next : A → Except E B} {error : E} :
    (first >>= next) = .error error ↔
      first = .error error ∨ ∃ value, first = .ok value ∧ next value = .error error := by
  cases first <;> simp [bind, Except.bind]

/-- A step fails if it does so itself, whatever is made of its result. -/
theorem bind_pure_eq_error_iff {first : Except E A} {f : A → B} {error : E} :
    (first >>= fun value => pure (f value)) = .error error ↔ first = .error error := by
  cases first <;> simp [bind, Except.bind, pure, Except.pure]

/-- A step with one result under a condition passes it on. -/
theorem exists_result_iff {condition : Prop} {value : A} {next : A → B} {result : B} :
    (∃ found, (condition ∧ found = value) ∧ next found = result) ↔
      condition ∧ result = next value := by
  constructor
  · rintro ⟨_, ⟨holds, rfl⟩, rfl⟩
    exact ⟨holds, rfl⟩
  · rintro ⟨holds, rfl⟩
    exact ⟨value, ⟨holds, rfl⟩, rfl⟩

/-- A mapped outcome is the image of a value. -/
theorem map_eq_ok_iff {first : Except E A} {f : A → B} {result : B} :
    first.map f = .ok result ↔ ∃ value, first = .ok value ∧ f value = result := by
  cases first <;> simp [Except.map]

/-- A traversal succeeds if every step does, and it collects their results. -/
theorem mapM_eq_ok_iff {f : A → Except E B} {list : List A} {results : List B} :
    list.mapM f = .ok results ↔ List.Forall₂ (fun a b => f a = .ok b) list results := by
  induction list generalizing results with
  | nil => cases results <;> simp
  | cons first rest ih =>
      simp only [List.mapM_cons, bind_eq_ok_iff, pure_eq_ok_iff]
      cases results with
      | nil => simp
      | cons result results =>
          simp only [List.cons.injEq, List.forall₂_cons, ← ih]
          constructor
          · rintro ⟨value, here, values, others, rfl, rfl⟩
            exact ⟨here, others⟩
          · rintro ⟨here, others⟩
            exact ⟨result, here, results, others, rfl, rfl⟩

/-- A traversal succeeds if every step does. -/
theorem exists_mapM_iff {f : A → Except E B} {list : List A} :
    (∃ results, list.mapM f = .ok results) ↔ ∀ a ∈ list, ∃ b, f a = .ok b := by
  induction list with
  | nil => simp
  | cons first rest ih =>
      simp only [List.mapM_cons, bind_eq_ok_iff, pure_eq_ok_iff, List.forall_mem_cons, ← ih]
      constructor
      · rintro ⟨_, value, here, values, later, _⟩
        exact ⟨⟨value, here⟩, values, later⟩
      · rintro ⟨⟨value, here⟩, values, later⟩
        exact ⟨_, value, here, values, later, rfl⟩

/-- A step on an optional value gives a result if there is a value. -/
theorem isSome_of_mapM {f : A → Except E B} {value : Option A} {result : Option B}
    (done : value.mapM f = .ok result) : result.isSome = value.isSome := by
  cases value with
  | none =>
      rw [Option.mapM_none, pure_eq_ok_iff] at done
      subst done
      rfl
  | some value =>
      simp only [Option.mapM_some, Functor.map, map_eq_ok_iff] at done
      obtain ⟨_, _, rfl⟩ := done
      rfl

/-- What every step of a fold keeps holds at its end. -/
theorem foldlM_preserves {f : B → A → Except E B} (holds : B → Prop) {list : List A}
    (step : ∀ before, ∀ a ∈ list, ∀ after, holds before → f before a = .ok after → holds after)
    {start result : B} (first : holds start) (done : list.foldlM f start = .ok result) :
    holds result := by
  induction list generalizing start with
  | nil =>
      rw [List.foldlM_nil, pure_eq_ok_iff] at done
      exact done ▸ first
  | cons a rest ih =>
      rw [List.foldlM_cons, bind_eq_ok_iff] at done
      obtain ⟨middle, here, done⟩ := done
      have kept := step start a List.mem_cons_self middle first here
      exact ih (fun before other member => step before other (List.mem_cons_of_mem a member)) kept
        done

/-- Every step of a fold that succeeds has succeeded. -/
theorem exists_step_of_foldlM {f : B → A → Except E B} {list : List A} {start result : B}
    (done : list.foldlM f start = .ok result) :
    ∀ a ∈ list, ∃ before after, f before a = .ok after := by
  induction list generalizing start with
  | nil => simp
  | cons first rest ih =>
      rw [List.foldlM_cons, bind_eq_ok_iff] at done
      obtain ⟨middle, here, done⟩ := done
      exact List.forall_mem_cons.2 ⟨⟨start, middle, here⟩, ih done⟩

/-- Everything in the second of two related lists is related to something in the first. -/
theorem exists_of_forall₂ {R : A → B → Prop} {list : List A} {results : List B}
    (each : List.Forall₂ R list results) : ∀ b ∈ results, ∃ a ∈ list, R a b := by
  intro b member
  induction each with
  | nil => cases member
  | @cons a first rest others here _ ih =>
      rcases List.mem_cons.1 member with rfl | member
      · exact ⟨a, List.mem_cons_self, here⟩
      · obtain ⟨source, inside, same⟩ := ih member
        exact ⟨source, List.mem_cons_of_mem _ inside, same⟩

/-- Every result of a traversal comes from a step. -/
theorem mem_of_mapM {f : A → Except E B} {list : List A} {results : List B}
    (done : list.mapM f = .ok results) : ∀ b ∈ results, ∃ a ∈ list, f a = .ok b :=
  exists_of_forall₂ (mapM_eq_ok_iff.1 done)

/-- What is related to a list step by step is related to its members. -/
theorem forall₂_mem {R : A → B → Prop} {list : List A} {results : List B}
    (each : List.Forall₂ R list results) :
    List.Forall₂ (fun a b => a ∈ list ∧ R a b) list results :=
  (List.forall₂_and_left list results).2 ⟨fun _ member => member, each⟩

/-- If the results of one traversal can be turned into those of another one, step by step, then
so can the results of the whole. -/
theorem mapM_transfer {f : A → Except E B} {g : A → Except E C} {turn : B → C} {list : List A}
    {results : List B} (step : ∀ a ∈ list, ∀ b, f a = .ok b → g a = .ok (turn b))
    (done : list.mapM f = .ok results) : list.mapM g = .ok (results.map turn) := by
  rw [mapM_eq_ok_iff, List.forall₂_map_right_iff]
  exact (forall₂_mem (mapM_eq_ok_iff.1 done)).imp fun a b both => step a both.1 b both.2

/-- Traversals whose steps succeed alike succeed alike. -/
theorem mapM_congr_of_forall₂ {f : A → Except E C} {g : B → Except E C} {list : List A}
    {others : List B} {results : List C}
    (each : List.Forall₂ (fun a b => ∀ c, f a = .ok c ↔ g b = .ok c) list others) :
    list.mapM f = .ok results ↔ others.mapM g = .ok results := by
  induction each generalizing results with
  | nil => simp
  | cons here _ ih => simp only [List.mapM_cons, bind_eq_ok_iff, pure_eq_ok_iff, here, ih]

/-- Traversals with the same steps have the same outcome. -/
theorem mapM_eq_of_forall₂ {R : A → B → Prop} {f : A → Except E C} {g : B → Except E C}
    {list : List A} {others : List B} (related : List.Forall₂ R list others)
    (same : ∀ a ∈ list, ∀ b, R a b → f a = g b) : list.mapM f = others.mapM g := by
  induction related with
  | nil => rfl
  | cons here _ ih =>
      obtain ⟨first, later⟩ := List.forall_mem_cons.1 same
      simp only [List.mapM_cons, first _ here, ih later]

/-- Two computations that fail with the same error, or succeed with related results. -/
inductive Paired (R : A → B → Prop) : Except E A → Except E B → Prop where
  | failed (error : E) : Paired R (.error error) (.error error)
  | done {a : A} {b : B} (related : R a b) : Paired R (.ok a) (.ok b)

/-- Continuations that agree on related results make the outcomes equal. -/
theorem Paired.bind_eq {R : A → B → Prop} {first : Except E A} {second : Except E B}
    {next : A → Except E C} {other : B → Except E C} (paired : Paired R first second)
    (agree : ∀ a b, first = .ok a → R a b → next a = other b) :
    first >>= next = second >>= other := by
  cases paired with
  | failed error => rfl
  | done related => exact agree _ _ rfl related

/-- If there is no result, then the error is one of those that are allowed. -/
def FailsWith (allowed : E → Prop) (outcome : Except E A) : Prop :=
  ∀ error, outcome = .error error → allowed error

namespace FailsWith

variable {allowed : E → Prop}

/-- A value fails with nothing. -/
theorem ok (value : A) : FailsWith allowed (.ok value) := by
  rintro _ ⟨⟩

/-- An allowed error is allowed. -/
theorem error {error : E} (holds : allowed error) :
    FailsWith allowed (.error error : Except E A) := by
  rintro _ ⟨⟩
  exact holds

/-- What fails with some errors fails with more of them. -/
theorem imp {others : E → Prop} {outcome : Except E A} (here : FailsWith allowed outcome)
    (also : ∀ error, allowed error → others error) : FailsWith others outcome :=
  fun error failed => also error (here error failed)

/-- What gives a value fails with nothing. -/
theorem of_exists {outcome : Except E A} (done : ∃ value, outcome = .ok value) :
    FailsWith allowed outcome := by
  obtain ⟨value, rfl⟩ := done
  exact ok value

/-- Two steps fail with what each of them fails with. -/
theorem bind {first : Except E A} {next : A → Except E B} (here : FailsWith allowed first)
    (later : ∀ value, first = .ok value → FailsWith allowed (next value)) :
    FailsWith allowed (first >>= next) := by
  cases first with
  | error _ => exact error (here _ rfl)
  | ok value => exact later value rfl

/-- Mapping adds no failure. -/
theorem map {first : Except E A} (here : FailsWith allowed first) (f : A → B) :
    FailsWith allowed (first.map f) := by
  cases first with
  | error _ => exact error (here _ rfl)
  | ok value => exact ok (f value)

/-- A list fails with what each element fails with. -/
theorem mapM {f : A → Except E B} {list : List A}
    (each : ∀ a ∈ list, FailsWith allowed (f a)) : FailsWith allowed (list.mapM f) := by
  induction list with
  | nil => exact ok []
  | cons first rest ih =>
      obtain ⟨here, later⟩ := List.forall_mem_cons.1 each
      rw [List.mapM_cons]
      exact here.bind fun value _ => (ih later).bind fun values _ => ok (value :: values)

/-- An optional element fails with what the element fails with. -/
theorem mapM_option {f : A → Except E B} (each : ∀ a, FailsWith allowed (f a))
    (value : Option A) : FailsWith allowed (value.mapM f) := by
  cases value with
  | none => exact ok none
  | some a => exact (each a).map some

/-- A fold fails with what each step fails with. -/
theorem foldlM {f : B → A → Except E B} {list : List A}
    (each : ∀ before, ∀ a ∈ list, FailsWith allowed (f before a)) (start : B) :
    FailsWith allowed (list.foldlM f start) := by
  induction list generalizing start with
  | nil => exact ok start
  | cons first rest ih =>
      rw [List.foldlM_cons]
      refine (each start first List.mem_cons_self).bind fun middle _ => ?_
      exact ih (fun before a later => each before a (List.mem_cons_of_mem first later)) middle

/-- A loop fails with what each round fails with. -/
theorem forIn {f : A → B → Except E (ForInStep B)} {list : List A}
    (each : ∀ a ∈ list, ∀ before, FailsWith allowed (f a before)) (start : B) :
    FailsWith allowed (ForIn.forIn list start f) := by
  induction list generalizing start with
  | nil => exact ok start
  | cons first rest ih =>
      obtain ⟨here, later⟩ := List.forall_mem_cons.1 each
      rw [List.forIn_cons]
      refine (here start).bind fun step _ => ?_
      cases step with
      | done result => exact ok result
      | yield middle => exact ih later middle

end FailsWith

/-- A fold that fails has come to a step that fails, and to no such step before. -/
theorem exists_failure_of_foldlM {f : B → A → Except E B} {list : List A} {start : B} {error : E}
    (failed : list.foldlM f start = .error error) :
    ∃ before a after middle, list = before ++ a :: after ∧ before.foldlM f start = .ok middle ∧
      f middle a = .error error := by
  induction list generalizing start with
  | nil => cases failed
  | cons first rest ih =>
      rw [List.foldlM_cons] at failed
      cases here : f start first with
      | error found =>
          rw [here] at failed
          exact ⟨[], first, rest, start, rfl, rfl, Except.error.inj failed ▸ here⟩
      | ok next =>
          rw [here] at failed
          obtain ⟨before, a, after, middle, rfl, run, same⟩ := ih failed
          refine ⟨first :: before, a, after, middle, rfl, ?_, same⟩
          rw [List.foldlM_cons, here]
          exact run

/-- What stands between two lists step by step is a list itself. -/
theorem exists_forall₂_between {R : A → C → Prop} {S : B → C → Prop} {list : List A}
    {results : List B} (each : List.Forall₂ (fun a b => ∃ c, R a c ∧ S b c) list results) :
    ∃ between, List.Forall₂ R list between ∧ List.Forall₂ S results between := by
  induction each with
  | nil => exact ⟨[], .nil, .nil⟩
  | @cons a b list results here _ ih =>
      obtain ⟨c, left, right⟩ := here
      obtain ⟨between, lefts, rights⟩ := ih
      exact ⟨c :: between, .cons left lefts, .cons right rights⟩

/-- Lists that are related part by part are related as a whole. -/
theorem forall₂_flatten {R : C → B → Prop} {list : List A} {parts : List (List B)}
    {g : A → List C} (each : List.Forall₂ (fun a part => List.Forall₂ R (g a) part) list parts) :
    List.Forall₂ R (list.flatMap g) parts.flatten := by
  induction each with
  | nil => exact .nil
  | cons here _ ih =>
      rw [List.flatMap_cons, List.flatten_cons]
      exact List.rel_append here ih

/-- The last ones of two related lists are related. -/
theorem exists_getLast?_of_forall₂ {R : A → B → Prop} {list : List A} {results : List B}
    (each : List.Forall₂ R list results) {b : B} (last : results.getLast? = some b) :
    ∃ a, list.getLast? = some a ∧ R a b := by
  induction each with
  | nil => cases last
  | @cons first result list results here rest ih =>
      cases rest with
      | nil => exact ⟨first, rfl, Option.some.inj last ▸ here⟩
      | cons _ _ =>
          rw [List.getLast?_cons_cons] at last ⊢
          exact ih last

/-- A list next to values of another one is related to it step by step. -/
theorem forall₂_zip_map {R : A → C × B → Prop} {f : A → C} {list : List A} {results : List B}
    (each : List.Forall₂ (fun a b => R a (f a, b)) list results) :
    List.Forall₂ R list ((list.map f).zip results) := by
  induction each with
  | nil => exact .nil
  | cons here _ ih => exact .cons here ih

/-- If every step succeeds under a condition and with one result, then so does the traversal. -/
theorem mapM_eq_ok_iff_of_forall₂ {f : B → Except E C} {condition : A → Prop} {g : A → C}
    {sources : List A} {list : List B} {results : List C}
    (each : List.Forall₂ (fun a b => ∀ c, f b = .ok c ↔ condition a ∧ c = g a) sources list) :
    list.mapM f = .ok results ↔ (∀ a ∈ sources, condition a) ∧ results = sources.map g := by
  induction each generalizing results with
  | nil =>
      simp only [List.mapM_nil, pure_eq_ok_iff, List.not_mem_nil, false_imp_iff, implies_true,
        List.map_nil, true_and]
      exact eq_comm
  | @cons a b sources list here _ ih =>
      simp only [List.mapM_cons, bind_eq_ok_iff, pure_eq_ok_iff, here, ih, List.forall_mem_cons,
        List.map_cons]
      constructor
      · rintro ⟨_, ⟨first, rfl⟩, _, ⟨others, rfl⟩, rfl⟩
        exact ⟨⟨first, others⟩, rfl⟩
      · rintro ⟨⟨first, others⟩, rfl⟩
        exact ⟨_, ⟨first, rfl⟩, _, ⟨others, rfl⟩, rfl⟩

end NetlinkFamily.Outcome
