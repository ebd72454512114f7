import NetlinkFamily.Message.Decoding
import NetlinkFamily.Proofs.Outcome

namespace NetlinkFamily.Decoding

open Outcome

/-- The attributes of a stream. -/
def attributes (data : Bytes) : Coded (List RawAttribute) :=
  match Stream.split data with
  | .error truncation => .error (.truncated truncation)
  | .ok raws => .ok raws

/-- Reading attributes splits the stream. -/
theorem attributes_eq_ok_iff {data : Bytes} {raws : List RawAttribute} :
    attributes data = .ok raws ↔ Stream.split data = .ok raws := by
  unfold attributes
  split <;> simp_all

/-- Attributes with their bounds are the attributes. -/
theorem map_attributesIn (data : Bytes) :
    (attributesIn data).map (List.map Subtype.val) = attributes data := by
  unfold attributesIn
  split
  · rename_i truncation found
    simp only [attributes, found, Except.map]
  · rename_i raws found
    simp only [attributes, found, Except.map, List.map_map, Function.comp_def, Except.ok.injEq]
    exact List.attach_map_subtype_val raws

/-- To go on with the attributes of a stream is to go on with them as they stand in it. -/
theorem attributesIn_bind {A : Type} (data : Bytes) (next : List RawAttribute → Coded A) :
    (attributesIn data >>= fun raws => next (raws.map Subtype.val)) = attributes data >>= next := by
  rw [← map_attributesIn]
  cases attributesIn data <;> rfl

/-- Picking looks at the types of attributes only. -/
theorem pick_map {R S : Type} (peer : Peer) (set : AttributeSet) (allowed : Option AllowedList)
    (typeOf : S → Nat) (f : R → S) (found : List (Attribute × R)) (raws : List R) :
    pick peer set allowed typeOf (found.map (Prod.map id f)) (raws.map f) =
      (pick peer set allowed (typeOf ∘ f) found raws).map (List.map (Prod.map id f)) := by
  induction raws generalizing found with
  | nil => simp [pick, Except.map]
  | cons raw rest ih =>
      simp only [List.map_cons, pick, Function.comp_apply]
      cases recognise peer set allowed (typeOf (f raw)) with
      | error error => rfl
      | ok known =>
          cases known with
          | none => exact ih found
          | some attr =>
              have tail := ih ((attr, raw) :: found)
              simp only [List.map_cons, Prod.map_apply, id_eq] at tail
              simp only [bind, Except.bind, List.any_map, Function.comp_def, Prod.map_fst, id_eq]
              split
              · rfl
              · exact tail

/-- A definition that a peer takes is the one with the number in the stream. -/
theorem withNumber?_of_recognise {peer : Peer} {set : AttributeSet}
    {allowed : Option AllowedList} {type : Nat} {attr : Attribute}
    (known : recognise peer set allowed type = .ok (some attr)) :
    set.withNumber? type = some attr := by
  unfold recognise at known
  cases numbered : set.withNumber? type with
  | none => cases peer <;> simp [numbered] at known
  | some other =>
      simp only [numbered] at known
      split at known
      · cases peer <;> simp at known
      · split at known <;> simp_all

/-- A definition that a peer takes is one of the set, under the number in the stream. -/
theorem mem_of_recognise {peer : Peer} {set : AttributeSet} {allowed : Option AllowedList}
    {type : Nat} {attr : Attribute} (known : recognise peer set allowed type = .ok (some attr)) :
    attr ∈ set.attrs.values ∧ attr.value.toNat = type := by
  have numbered := withNumber?_of_recognise known
  have number := List.find?_some numbered
  exact ⟨List.mem_of_find?_eq_some numbered, by simpa using number⟩

section Picking

variable {R : Type} {peer : Peer} {set : AttributeSet} {allowed : Option AllowedList}
  {typeOf : R → Nat} {raw : R} {raws : List R} {found picked : List (Attribute × R)}

/-- An array clashes with an attribute of its name that was found before it. -/
def Clashes (found : List (Attribute × R)) (attr : Attribute) : Prop :=
  attr.kind = .arrayNest ∧ ∃ earlier ∈ found, earlier.1.name = attr.name

/-- An attribute of a stream under the definition by which a peer takes it, if there is one. -/
def under (raw : R) (known : Option Attribute) : List (Attribute × R) :=
  known.toList.map fun attr => (attr, raw)

/-- An attribute stands under what it is known as. -/
theorem mem_under {known : Option Attribute} {entry : Attribute × R} :
    entry ∈ under raw known ↔ known = some entry.1 ∧ entry.2 = raw := by
  obtain ⟨attr, other⟩ := entry
  cases known <;> simp [under, eq_comm]

/-- A second array of one attribute is refused. -/
theorem pick_of_clashes {attr : Attribute}
    (recognised : recognise peer set allowed (typeOf raw) = .ok (some attr))
    (clash : Clashes found attr) :
    pick peer set allowed typeOf found (raw :: raws) =
      .error (.alreadyPresent ⟨set.name, attr.name⟩) := by
  have twice : attr.kind = .arrayNest ∧
      (found.any fun earlier => earlier.1.name == attr.name) = true := by
    simpa [Clashes] using clash
  simp only [pick, recognised, bind, Except.bind, if_pos twice]
  rfl

/-- An attribute that does not clash is taken up as what it is known as. -/
theorem pick_of_fresh {known : Option Attribute}
    (recognised : recognise peer set allowed (typeOf raw) = .ok known)
    (fresh : ∀ attr ∈ known, ¬Clashes found attr) :
    pick peer set allowed typeOf found (raw :: raws) =
      pick peer set allowed typeOf (under raw known ++ found) raws := by
  cases known with
  | none => simp [pick, recognised, under, bind, Except.bind]
  | some attr =>
      have once : ¬(attr.kind = .arrayNest ∧
          (found.any fun earlier => earlier.1.name == attr.name) = true) := by
        simpa [Clashes] using fresh attr rfl
      simp [pick, recognised, under, bind, Except.bind, if_neg once]

/-- What it takes for an attribute to be picked or skipped. -/
theorem pick_cons_eq_ok_iff :
    pick peer set allowed typeOf found (raw :: raws) = .ok picked ↔
      ∃ known, recognise peer set allowed (typeOf raw) = .ok known ∧
        (∀ attr ∈ known, ¬Clashes found attr) ∧
          pick peer set allowed typeOf (under raw known ++ found) raws = .ok picked := by
  constructor
  · intro done
    obtain ⟨known, recognised⟩ : ∃ known, recognise peer set allowed (typeOf raw) = .ok known := by
      simp only [pick, bind_eq_ok_iff] at done
      exact done.imp fun _ step => step.1
    have fresh : ∀ attr ∈ known, ¬Clashes found attr := by
      rintro attr rfl clash
      rw [pick_of_clashes recognised clash] at done
      cases done
    exact ⟨known, recognised, fresh, pick_of_fresh recognised fresh ▸ done⟩
  · rintro ⟨known, recognised, fresh, done⟩
    rw [pick_of_fresh recognised fresh, done]

/-- A picked attribute stands in the stream, under a definition that the peer takes. -/
theorem recognise_of_mem_pick (done : pick peer set allowed typeOf found raws = .ok picked) :
    ∀ entry ∈ picked, entry ∈ found ∨
      entry.2 ∈ raws ∧ recognise peer set allowed (typeOf entry.2) = .ok (some entry.1) := by
  induction raws generalizing found with
  | nil =>
      simp only [pick, Except.ok.injEq] at done
      subst done
      exact fun entry member => .inl (List.mem_reverse.1 member)
  | cons raw rest ih =>
      obtain ⟨known, recognised, -, done⟩ := pick_cons_eq_ok_iff.1 done
      intro entry member
      rcases ih done entry member with before | ⟨later, taken⟩
      · rcases List.mem_append.1 before with here | before
        · obtain ⟨rfl, same⟩ := mem_under.1 here
          exact .inr ⟨same ▸ List.mem_cons_self, same ▸ recognised⟩
        · exact .inl before
      · exact .inr ⟨List.mem_cons_of_mem _ later, taken⟩

/-- So it is one of the stream, and defined in the set. -/
theorem source_of_pick (done : pick peer set allowed typeOf [] raws = .ok picked) :
    ∀ entry ∈ picked, entry.2 ∈ raws ∧ entry.1 ∈ set.attrs.values := by
  intro entry member
  rcases recognise_of_mem_pick done entry member with before | ⟨among, known⟩
  · cases before
  · exact ⟨among, (mem_of_recognise known).1⟩

/-- Attributes are picked in the order of the stream, each at most once. -/
theorem sublist_of_pick (done : pick peer set allowed typeOf found raws = .ok picked) :
    ∃ kept, picked = found.reverse ++ kept ∧ (kept.map Prod.snd).Sublist raws := by
  induction raws generalizing found with
  | nil =>
      simp only [pick, Except.ok.injEq] at done
      exact ⟨[], by rw [← done, List.append_nil], .slnil⟩
  | cons raw rest ih =>
      obtain ⟨known, -, -, done⟩ := pick_cons_eq_ok_iff.1 done
      obtain ⟨kept, rfl, sublist⟩ := ih done
      refine ⟨(under raw known).reverse ++ kept, by simp, ?_⟩
      cases known with
      | none => exact sublist.cons raw
      | some attr => exact sublist.cons_cons raw

/-- Every attribute of a stream is picked under its definition, unless it is skipped. -/
theorem picked_of_recognise (done : pick peer set allowed typeOf found raws = .ok picked) :
    (∀ entry ∈ found, entry ∈ picked) ∧ ∀ raw ∈ raws, ∃ known,
      recognise peer set allowed (typeOf raw) = .ok known ∧
        ∀ attr, known = some attr → (attr, raw) ∈ picked := by
  induction raws generalizing found with
  | nil =>
      simp only [pick, Except.ok.injEq] at done
      subst done
      simp
  | cons raw rest ih =>
      obtain ⟨known, recognised, -, done⟩ := pick_cons_eq_ok_iff.1 done
      obtain ⟨kept, later⟩ := ih done
      obtain ⟨here, kept⟩ := List.forall_mem_append.1 kept
      refine ⟨kept, List.forall_mem_cons.2 ⟨⟨known, recognised, fun attr isKnown => ?_⟩, later⟩⟩
      exact here _ (mem_under.2 ⟨isKnown, rfl⟩)

end Picking

/-- The value of a picked attribute. -/
def read (scope : Scope) (peer : Peer) (entry : Attribute × RawAttribute) :
    Coded (Attribute × Value) := do
  let value ← value scope peer entry.1 entry.2.payload
  return (entry.1, value)

/-- Reading keeps the attribute and reads the payload. -/
theorem read_eq_ok_iff {scope : Scope} {peer : Peer} {entry : Attribute × RawAttribute}
    {result : Attribute × Value} :
    read scope peer entry = .ok result ↔
      result.1 = entry.1 ∧ value scope peer entry.1 entry.2.payload = .ok result.2 := by
  rw [read, bind_eq_ok_iff]
  simp only [pure_eq_ok_iff, Prod.ext_iff]
  constructor
  · rintro ⟨found, done, same, rfl⟩
    exact ⟨same.symm, done⟩
  · rintro ⟨same, done⟩
    exact ⟨result.2, done, same.symm, rfl⟩

/-- A check that passes gives what it checked. -/
theorem checked_eq_ok_iff {A : Type} {attr : Attribute} {check : Except Violation A} {result : A} :
    checked attr check = .ok result ↔ check = .ok result := by
  cases check <;> simp [checked]

/-- A check is passed exactly when it gives no violation. -/
theorem isOk_iff {check : Except Violation Unit} : check.isOk = true ↔ check = .ok () := by
  cases check <;> simp [Except.isOk, Except.toBool]

/-- A value that is held against a policy is read if the check passes. -/
theorem check_eq_ok_iff {attr : Attribute} {policy : Option WirePolicy}
    {check : WirePolicy → Except Violation Unit} {value result : Value} :
    (match policy with
      | some rule => do
          checked attr (check rule)
          return value
      | none => pure value : Coded Value) = .ok result ↔
      policy.all (fun rule => (check rule).isOk) = true ∧ result = value := by
  cases policy with
  | none =>
      simp only [Option.all_none, true_and]
      exact (pure_eq_ok_iff _ _).trans eq_comm
  | some rule =>
      simp only [bind_eq_ok_iff, checked_eq_ok_iff, pure_eq_ok_iff, Option.all_some, isOk_iff]
      constructor
      · rintro ⟨_, done, rfl⟩
        exact ⟨done, rfl⟩
      · rintro ⟨done, rfl⟩
        exact ⟨(), done, rfl⟩

/-- A scalar is read in one way only. -/
theorem readScalar_eq_ok_iff {attr : Attribute} {type : ScalarType} {payload : Bytes}
    {found : Value} :
    readScalar attr type payload = .ok found ↔
      payload.length = type.width ∧
        found = .scalar (Scalar.ofBytes attr.isBigEndian type payload) := by
  unfold readScalar
  split
  · rename_i width
    simp [width, eq_comm]
  · rename_i width
    simp [width]

/-- A message is split, picked and read. -/
theorem message_eq (scope : Scope) (peer : Peer) (set : AttributeSet)
    (allowed : Option AllowedList) (data : Bytes) :
    message scope peer set allowed data = do
      let raws ← attributes data
      let picked ← pick peer set allowed RawAttribute.type [] raws
      let values ← picked.mapM (read scope peer)
      return collect values := by
  rw [message, ← attributesIn_bind]
  congr 1
  funext raws
  have picked := pick_map peer set allowed RawAttribute.type Subtype.val [] raws
  rw [List.map_nil] at picked
  rw [picked]
  cases found : pick peer set allowed (RawAttribute.type ∘ Subtype.val) [] raws with
  | error error =>
      have same : pick peer set allowed (fun raw => raw.val.type) [] raws = .error error := found
      rw [same]
      rfl
  | ok entries =>
      have same : pick peer set allowed (fun raw => raw.val.type) [] raws = .ok entries := found
      rw [same]
      simp only [Except.map, bind, Except.bind, List.mapM_map]
      rfl

/-- A nest holds the message of its set. -/
theorem value_nest {attr : Attribute} (kind : attr.kind = .nest) (scope : Scope) (peer : Peer)
    (payload : Bytes) :
    value scope peer attr payload = do
      let set ← attr.contents scope
      let members ← message scope peer set none payload
      return .nest members := by
  rw [value, kind]

/-- An array holds scalars, or nests of one set. -/
theorem value_arrayNest {attr : Attribute} (kind : attr.kind = .arrayNest) (scope : Scope)
    (peer : Peer) (payload : Bytes) :
    value scope peer attr payload = do
      let entries ← attributes payload
      match attr.entryScalar? with
      | some type =>
          let scalars ← entries.mapM fun entry => readScalar attr type entry.payload
          return .array scalars
      | none =>
          let set ← attr.contents scope
          let nests ← entries.mapM fun entry => do
            let members ← message scope peer set none entry.payload
            return Value.nest members
          return .array nests := by
  rw [value, kind, ← attributesIn_bind]
  dsimp only
  congr 1
  funext entries
  cases attr.entryScalar? <;> simp only [List.mapM_map] <;> rfl

/-- Any other attribute holds no attributes. -/
theorem value_leaf {attr : Attribute} (notNest : attr.kind ≠ .nest)
    (notArray : attr.kind ≠ .arrayNest) (scope : Scope) (peer : Peer) (payload : Bytes) :
    value scope peer attr payload = leaf scope peer attr payload := by
  rw [value]
  split
  · exact absurd ‹_› notNest
  · exact absurd ‹_› notArray
  · rfl

/-- What the decoder makes of a payload, by the kind of the attribute around it. -/
inductive Obtained (scope : Scope) (peer : Peer) (attr : Attribute) (payload : Bytes) :
    Value → Prop where
  | nest {set : AttributeSet} {members : Message} (kind : attr.kind = .nest)
      (contents : attr.contents scope = .ok set)
      (inside : message scope peer set none payload = .ok members) :
      Obtained scope peer attr payload (.nest members)
  | scalars {type : ScalarType} {raws : List RawAttribute} {entries : List Value}
      (kind : attr.kind = .arrayNest) (scalar : attr.entryScalar? = some type)
      (parted : Stream.split payload = .ok raws)
      (each : List.Forall₂ (fun raw entry => readScalar attr type raw.payload = .ok entry)
        raws entries) :
      Obtained scope peer attr payload (.array entries)
  | nests {set : AttributeSet} {raws : List RawAttribute} {messages : List Message}
      (kind : attr.kind = .arrayNest) (nested : attr.entryScalar? = none)
      (contents : attr.contents scope = .ok set) (parted : Stream.split payload = .ok raws)
      (each : List.Forall₂
        (fun raw members => message scope peer set none raw.payload = .ok members) raws messages) :
      Obtained scope peer attr payload (.array (messages.map .nest))
  | leaf {found : Value} (notNest : attr.kind ≠ .nest) (notArray : attr.kind ≠ .arrayNest)
      (taken : leaf scope peer attr payload = .ok found) :
      Obtained scope peer attr payload found

/-- An array is obtained from its entries. -/
theorem obtained_array {scope : Scope} {peer : Peer} {attr : Attribute} {payload : Bytes}
    {found : Value} (kind : attr.kind = .arrayNest)
    (taken : value scope peer attr payload = .ok found) :
    Obtained scope peer attr payload found := by
  simp only [value_arrayNest kind, bind_eq_ok_iff, attributes_eq_ok_iff] at taken
  obtain ⟨raws, parted, taken⟩ := taken
  cases scalar : attr.entryScalar? with
  | some type =>
      simp only [scalar, bind_eq_ok_iff, pure_eq_ok_iff] at taken
      obtain ⟨entries, read, rfl⟩ := taken
      exact .scalars kind scalar parted (mapM_eq_ok_iff.1 read)
  | none =>
      simp only [scalar, bind_eq_ok_iff, pure_eq_ok_iff] at taken
      obtain ⟨set, contents, nests, read, rfl⟩ := taken
      have each := mapM_eq_ok_iff.1 read
      simp only [bind_eq_ok_iff, pure_eq_ok_iff] at each
      obtain ⟨messages, decoded, same⟩ := exists_forall₂_between each
      have wrapped : nests = messages.map .nest := by
        rw [← List.forall₂_eq_eq_eq, List.forall₂_map_right_iff]
        exact same.imp fun _ _ equal => equal.symm
      rw [wrapped]
      exact .nests kind scalar contents parted decoded

/-- A value is obtained from its payload. -/
theorem obtained_of_value {scope : Scope} {peer : Peer} {attr : Attribute} {payload : Bytes}
    {found : Value} (taken : value scope peer attr payload = .ok found) :
    Obtained scope peer attr payload found := by
  by_cases isNest : attr.kind = .nest
  · simp only [value_nest isNest, bind_eq_ok_iff, pure_eq_ok_iff] at taken
    obtain ⟨set, contents, members, read, rfl⟩ := taken
    exact .nest isNest contents read
  · by_cases isArray : attr.kind = .arrayNest
    · exact obtained_array isArray taken
    · rw [value_leaf isNest isArray] at taken
      exact .leaf isNest isArray taken

/-- Payloads take up what holds of the streams inside them, and streams what holds of their
payloads. By induction on the length of the stream. -/
theorem induction_on_length {ofMessage ofValue : Bytes → Prop}
    (value : ∀ payload : Bytes, (∀ data : Bytes, data.length ≤ payload.length → ofMessage data) →
      ofValue payload)
    (message : ∀ data : Bytes, (∀ payload : Bytes, payload.length < data.length →
      ofValue payload) → ofMessage data) (data : Bytes) : ofMessage data := by
  induction length : data.length using Nat.strongRecOn generalizing data with
  | ind length ih =>
      subst length
      refine message data fun payload shorter => value payload fun inside within => ?_
      exact ih inside.length (Nat.lt_of_le_of_lt within shorter) inside rfl

end NetlinkFamily.Decoding
