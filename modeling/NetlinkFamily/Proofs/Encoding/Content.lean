import NetlinkFamily.Proofs.Encoding.Acceptance
import NetlinkFamily.Proofs.Message.Agreement

namespace NetlinkFamily.Encoding

open Outcome

variable {scope : Scope} {set : AttributeSet} {attr : Attribute}

/-- Under each attribute, the same is written for two values. -/
def SameSingle (scope : Scope) (value other : Value) : Prop :=
  ∀ (attr : Attribute) (type : UInt16) (stream : Bytes),
    single scope attr type value = .ok stream ↔ single scope attr type other = .ok stream

/-- For each set, the same is written for the members of two nests. -/
def SameNest (scope : Scope) (value other : Value) : Prop :=
  ∀ members others, value = .nest members → other = .nest others → ∀ set data,
    message scope set members = .ok data ↔ message scope set others = .ok data

/-- The same is written for a value and for any that agrees with it. -/
def WritesAlike (scope : Scope) (value : Value) : Prop :=
  ∀ other, value.agrees other = true → value.Everywhere Value.IsKeyed →
    other.Everywhere Value.IsKeyed → SameSingle scope value other ∧ SameNest scope value other

/-- A value is written like itself. -/
theorem sameSingle_refl (value : Value) : SameSingle scope value value :=
  fun _ _ _ => Iff.rfl

/-- A nest is written like itself. -/
theorem sameNest_refl (value : Value) : SameNest scope value value := by
  rintro members _ rfl same set data
  cases same
  exact Iff.rfl

/-- What is no nest has no members to differ in. -/
theorem sameNest_of_members? {value other : Value} (none : value.members? = none) :
    SameNest scope value other := by
  rintro members _ rfl
  cases none

/-- What is written for a message, attribute by attribute. -/
theorem message_eq_ok_iff {members : Message} {data : Bytes} :
    message scope set members = .ok data ↔
      (∀ name ∈ members.names, name ∈ set.attrs.names) ∧ ∃ rows,
        (set.attrs.values.mapM fun attr =>
          ((members.get? attr.name).map (ofMember scope attr)).getD (.ok [])) = .ok rows ∧
        rows.flatten = data := by
  have each (rows : List Bytes) :
      (set.attrs.values.mapM fun attr =>
        ((eachMember scope set members).lookup attr.name).getD (.ok [])) = .ok rows ↔
      (set.attrs.values.mapM fun attr =>
        ((members.get? attr.name).map (ofMember scope attr)).getD (.ok [])) = .ok rows := by
    refine mapM_congr_of_forall₂ (List.forall₂_same.2 fun attr listed row => ?_)
    rw [lookup_eachMember members listed]
  simp only [message, assemble, bind_eq_ok_iff, map_eq_ok_iff, each, ← checkMembers_eq_ok_iff]
  constructor
  · rintro ⟨_, checked, rest⟩
    exact ⟨checked, rest⟩
  · rintro ⟨checked, rest⟩
    exact ⟨(), checked, rest⟩

/-- Lists that agree one by one are written alike one by one. -/
theorem forall₂_alike {values others : List Value}
    (each : ∀ value ∈ values, WritesAlike scope value)
    (keyed : ∀ value ∈ values, value.Everywhere Value.IsKeyed)
    (otherKeyed : ∀ other ∈ others, other.Everywhere Value.IsKeyed)
    (agree : List.Forall₂ (fun value other => value.agrees other = true) values others) :
    List.Forall₂ (fun value other =>
        value.agrees other = true ∧ SameSingle scope value other ∧ SameNest scope value other)
      values others := by
  induction agree with
  | nil => exact .nil
  | @cons value other values others here _ ih =>
      obtain ⟨alike, later⟩ := List.forall_mem_cons.1 each
      obtain ⟨first, rest⟩ := List.forall_mem_cons.1 keyed
      obtain ⟨second, others⟩ := List.forall_mem_cons.1 otherKeyed
      exact .cons ⟨here, alike other here first second⟩ (ih later rest others)

/-- Members that agree are written alike. -/
theorem ofMember_alike {value other : Value}
    (each : ∀ part ∈ value :: value.items, WritesAlike scope part)
    (agree : value.agrees other = true) (keyed : value.Everywhere Value.IsKeyed)
    (otherKeyed : other.Everywhere Value.IsKeyed) (row : Bytes) :
    ofMember scope attr value = .ok row ↔ ofMember scope attr other = .ok row := by
  obtain ⟨alike, inside⟩ := List.forall_mem_cons.1 each
  have whole := (alike other agree keyed otherKeyed).1
  simp only [ofMember_eq_ok_iff]
  refine exists_congr fun type => and_congr_right fun _ => or_congr ?_ ?_
  · refine and_congr_right fun _ => ?_
    cases Value.agreement_of_agrees agree with
    | same => exact Iff.rfl
    | nest => simp
    | array => simp
    | @multi items others related =>
        have each := forall₂_alike inside (fun item => keyed.of_mem) (fun item => otherKeyed.of_mem)
          related
        have written (streams : List Bytes) :
            items.mapM (single scope attr type) = .ok streams ↔
              others.mapM (single scope attr type) = .ok streams :=
          mapM_congr_of_forall₂ (each.imp fun _ _ alike => alike.2.1 attr type)
        simp [written]
  · exact and_congr_right fun _ => whole attr type row

/-- Messages that agree are written alike. -/
theorem message_alike {members others : Message}
    (each : ∀ member ∈ members, ∀ part ∈ member.2 :: member.2.items, WritesAlike scope part)
    (agree : members.agrees others = true) (keyed : members.Keyed) (otherKeyed : others.Keyed)
    (set : AttributeSet) (data : Bytes) :
    message scope set members = .ok data ↔ message scope set others = .ok data := by
  have names := Message.mem_names_of_agrees keyed.here otherKeyed.here agree
  have related := (Message.agrees_iff keyed.here otherKeyed.here).1 agree
  have same (attr : Attribute) (row : Bytes) :
      ((members.get? attr.name).map (ofMember scope attr)).getD (.ok []) = .ok row ↔
        ((others.get? attr.name).map (ofMember scope attr)).getD (.ok []) = .ok row := by
    obtain ⟨held, found⟩ | ⟨value, other, held, found, agree⟩ := Message.rel_cases (related attr.name)
    · rw [held, found]
    · rw [held, found]
      have listed := (Message.get?_eq_some_iff keyed.here).1 held
      exact ofMember_alike (each _ listed) agree (keyed.member held) (otherKeyed.member found) row
  have rows (rows : List Bytes) :
      (set.attrs.values.mapM fun attr =>
        ((members.get? attr.name).map (ofMember scope attr)).getD (.ok [])) = .ok rows ↔
      (set.attrs.values.mapM fun attr =>
        ((others.get? attr.name).map (ofMember scope attr)).getD (.ok [])) = .ok rows :=
    mapM_congr_of_forall₂ (List.forall₂_same.2 fun attr _ => same attr)
  simp only [message_eq_ok_iff, names, rows]

/-- The entries of an array are written alike. -/
theorem entry_alike {value other : Value} (agree : value.agrees other = true)
    (nest : SameNest scope value other) (type : UInt16) (stream : Bytes) :
    entry scope attr type value = .ok stream ↔ entry scope attr type other = .ok stream := by
  cases scalars : attr.entryScalar? with
  | some expected =>
      cases Value.agreement_of_agrees agree <;> simp [scalar_entry_eq_ok_iff scalars]
  | none =>
      cases Value.agreement_of_agrees agree with
      | @nest members others =>
          have inner := nest members others rfl rfl
          simp [nested_entry_eq_ok_iff scalars, inner]
      | _ => simp [nested_entry_eq_ok_iff scalars]

/-- Entries that are written alike make arrays that are. -/
theorem eachEntry_alike {entries others : List Value}
    (each : List.Forall₂ (fun value other => ∀ type stream,
      entry scope attr type value = .ok stream ↔ entry scope attr type other = .ok stream)
      entries others) (index : Nat) (written : List Bytes) (data : Bytes) :
    eachEntry scope attr index entries written = .ok data ↔
      eachEntry scope attr index others written = .ok data := by
  induction each generalizing index written with
  | nil => exact Iff.rfl
  | cons here _ ih => simp only [eachEntry_cons, bind_eq_ok_iff, here, ih]

/-- Nests are written alike where their members are. -/
theorem sameSingle_nest {members others : Message}
    (inner : ∀ set data, message scope set members = .ok data ↔
      message scope set others = .ok data) :
    SameSingle scope (.nest members) (.nest others) := by
  intro attr type stream
  simp only [single_eq_ok_iff]
  constructor
  · rintro (_ | _ | _ | _ | ⟨kind, known, inside, done⟩)
    exact .nest kind known ((inner _ _).1 inside) done
  · rintro (_ | _ | _ | _ | ⟨kind, known, inside, done⟩)
    exact .nest kind known ((inner _ _).2 inside) done

/-- Arrays are written alike where their entries are. -/
theorem sameSingle_array {entries others : List Value}
    (each : List.Forall₂ (fun entry other => entry.agrees other = true ∧
      SameNest scope entry other) entries others) :
    SameSingle scope (.array entries) (.array others) := by
  intro attr type stream
  have inner (data : Bytes) :
      eachEntry scope attr 0 entries [] = .ok data ↔ eachEntry scope attr 0 others [] = .ok data :=
    eachEntry_alike (each.imp fun _ _ both => entry_alike both.1 both.2) 0 [] data
  simp only [single_eq_ok_iff]
  constructor
  · rintro (_ | _ | _ | _ | _ | ⟨kind, inside, done⟩)
    exact .array kind ((inner _).1 inside) done
  · rintro (_ | _ | _ | _ | _ | ⟨kind, inside, done⟩)
    exact .array kind ((inner _).2 inside) done

/-- By induction on the value. -/
theorem writesAlike (scope : Scope) (value : Value) : WritesAlike scope value := by
  induction value using Value.induction with
  | nest members ih =>
      intro other agree keyed otherKeyed
      cases Value.agreement_of_agrees agree with
      | same => exact ⟨sameSingle_refl _, sameNest_refl _⟩
      | nest related =>
          have inner := message_alike ih related keyed otherKeyed
          refine ⟨sameSingle_nest inner, fun _ _ same otherSame => ?_⟩
          cases same
          cases otherSame
          exact inner
  | array entries ih =>
      intro other agree keyed otherKeyed
      cases Value.agreement_of_agrees agree with
      | same => exact ⟨sameSingle_refl _, sameNest_refl _⟩
      | array related =>
          have each := forall₂_alike ih (fun entry => keyed.of_mem) (fun entry => otherKeyed.of_mem)
            related
          exact ⟨sameSingle_array (each.imp fun _ _ alike => ⟨alike.1, alike.2.2⟩),
            sameNest_of_members? rfl⟩
  | multi items _ =>
      intro other agree _ _
      cases Value.agreement_of_agrees agree with
      | same => exact ⟨sameSingle_refl _, sameNest_refl _⟩
      | multi =>
          refine ⟨fun attr type stream => ?_, sameNest_of_members? rfl⟩
          exact iff_of_false single_multi_ne_ok single_multi_ne_ok
  | _ =>
      intro other agree _ _
      cases Value.agreement_of_agrees agree
      exact ⟨sameSingle_refl _, sameNest_refl _⟩

end NetlinkFamily.Encoding

namespace NetlinkFamily.Family

/-- The bytes of a message depend on what it holds under each name, at every depth, and on nothing
else. -/
theorem encode_of_agrees (family : Family) (set : String) {first second : Message}
    (agree : first.agrees second = true) (keyed : first.Keyed) (otherKeyed : second.Keyed)
    (data : Bytes) : family.encode set first = .ok data ↔ family.encode set second = .ok data := by
  have alike (attrs : AttributeSet) :
      Encoding.message family.toScope attrs first = .ok data ↔
        Encoding.message family.toScope attrs second = .ok data :=
    Encoding.message_alike (fun _ _ part _ => Encoding.writesAlike family.toScope part) agree keyed
      otherKeyed attrs data
  simp only [encode, Outcome.bind_eq_ok_iff, alike]

end NetlinkFamily.Family
