import NetlinkFamily.Proofs.Decoding.Fidelity
import NetlinkFamily.Proofs.Message.Agreement
import NetlinkFamily.Proofs.Wire.Padding

namespace NetlinkFamily

/-- What two messages hold for an attribute together: all values of an attribute that may be
repeated, and of any other one the later value if there is one. -/
def Attribute.joined (attr : Attribute) (earlier later : Option Value) : Option Value :=
  match earlier, later with
  | some (.multi items), some (.multi others) =>
      if attr.multi then some (.multi (items ++ others)) else later
  | _, _ => later.or earlier

/-- An array that both of two messages have. -/
structure SharedArray (set : AttributeSet) (before after : Message) (attr : Attribute) : Prop where
  listed : attr ∈ set.attrs.values
  array : attr.kind = .arrayNest
  earlier : before.isPresent attr.name = true
  later : after.isPresent attr.name = true

/-- A message that has the members of two others. -/
structure Joined (set : AttributeSet) (before after joined : Message) : Prop where
  distinct : joined.names.Nodup
  listed : ∀ name ∈ joined.names, ∃ attr ∈ set.attrs.values, attr.name = name
  names : ∀ name, name ∈ joined.names ↔ name ∈ before.names ∨ name ∈ after.names
  members : ∀ attr ∈ set.attrs.values,
    joined.get? attr.name = attr.joined (before.get? attr.name) (after.get? attr.name)

namespace Decoding

open Outcome

section Picking

variable {R : Type} {peer : Peer} {set : AttributeSet} {allowed : Option AllowedList}
  {typeOf : R → Nat}

/-- Two lists are picked one behind the other. -/
theorem pick_append (found : List (Attribute × R)) (raws others : List R) :
    pick peer set allowed typeOf found (raws ++ others) =
      pick peer set allowed typeOf found raws >>= fun picked =>
        pick peer set allowed typeOf picked.reverse others := by
  induction raws generalizing found with
  | nil => simp [pick, bind, Except.bind]
  | cons raw rest ih =>
      rw [List.cons_append, pick, pick]
      cases recognise peer set allowed (typeOf raw) with
      | error error => rfl
      | ok known =>
          cases known with
          | none => exact ih found
          | some attr =>
              simp only [bind, Except.bind] at ih ⊢
              split
              · rfl
              · exact ih _

/-- An attribute clashes with one of the two halves. -/
theorem clashes_append {found earlier : List (Attribute × R)} {attr : Attribute} :
    Clashes (found ++ earlier) attr ↔ Clashes found attr ∨ Clashes earlier attr := by
  simp only [Clashes, List.mem_append, or_and_right, exists_or, and_or_left]

/-- Behind attributes that clash with none of them, the same attributes are picked. -/
theorem pick_behind {earlier found picked : List (Attribute × R)} {raws : List R}
    (done : pick peer set allowed typeOf found raws = .ok picked)
    (fresh : ∀ entry ∈ picked, ¬Clashes earlier entry.1) :
    pick peer set allowed typeOf (found ++ earlier) raws = .ok (earlier.reverse ++ picked) := by
  induction raws generalizing found with
  | nil =>
      simp only [pick, Except.ok.injEq] at done ⊢
      rw [List.reverse_append, done]
  | cons raw rest ih =>
      obtain ⟨known, recognised, once, done⟩ := pick_cons_eq_ok_iff.1 done
      have picks := (List.forall_mem_append.1 (picked_of_recognise done).1).1
      refine pick_cons_eq_ok_iff.2 ⟨known, recognised, fun attr taken => ?_, ?_⟩
      · have here := picks (attr, raw) (mem_under.2 ⟨taken, rfl⟩)
        exact clashes_append.not.2 (not_or.2 ⟨once attr taken, fresh _ here⟩)
      · rw [← List.append_assoc]
        exact ih done

/-- Behind an array of the same name, the first array that clashes is refused. -/
theorem pick_clash {earlier found picked : List (Attribute × R)} {raws : List R}
    (done : pick peer set allowed typeOf found raws = .ok picked)
    (fresh : ∀ entry ∈ found, ¬Clashes earlier entry.1)
    (clash : ∃ entry ∈ picked, Clashes earlier entry.1) :
    ∃ entry ∈ picked, Clashes earlier entry.1 ∧
      pick peer set allowed typeOf (found ++ earlier) raws =
        .error (.alreadyPresent ⟨set.name, entry.1.name⟩) := by
  induction raws generalizing found with
  | nil =>
      simp only [pick, Except.ok.injEq] at done
      subst done
      obtain ⟨entry, member, clashes⟩ := clash
      exact absurd clashes (fresh entry (List.mem_reverse.1 member))
  | cons raw rest ih =>
      obtain ⟨known, recognised, once, done⟩ := pick_cons_eq_ok_iff.1 done
      by_cases here : ∃ attr ∈ known, Clashes earlier attr
      · obtain ⟨attr, rfl, clashes⟩ := here
        have picks := (List.forall_mem_append.1 (picked_of_recognise done).1).1
        exact ⟨_, picks (attr, raw) (mem_under.2 ⟨rfl, rfl⟩), clashes,
          pick_of_clashes recognised (clashes_append.2 (.inr clashes))⟩
      · have apart : ∀ attr ∈ known, ¬Clashes earlier attr := by simpa using here
        have taken : ∀ entry ∈ under raw known, ¬Clashes earlier entry.1 := fun entry member =>
          apart entry.1 (mem_under.1 member).1
        rw [pick_of_fresh recognised fun attr member =>
          clashes_append.not.2 (not_or.2 ⟨once attr member, apart attr member⟩), ← List.append_assoc]
        exact ih done (List.forall_mem_append.2 ⟨taken, fresh⟩)

end Picking

/-- Two lists are gathered into the joined values. -/
theorem gathered_append (attr : Attribute) (items others : List Value) :
    gathered attr (items ++ others) =
      attr.joined (gathered attr items) (gathered attr others) := by
  unfold gathered Attribute.joined
  cases multi : attr.multi with
  | true =>
      cases items <;> cases others <;> simp
  | false => 
      simp only [Bool.false_eq_true, if_false, List.getLast?_append]
      split
      · rename_i same
        rw [same]
        rfl
      · rfl

section Joining

variable {scope : Scope} {peer : Peer} {set : AttributeSet} {allowed : Option AllowedList}
  {values : List (Attribute × Value)}

/-- A message has a member for every name among the values that it collects, and no others. -/
theorem mem_names_collect (listed : ∀ entry ∈ values, entry.1 ∈ set.attrs.values)
    {name : String} :
    name ∈ (collect values).names ↔ ∃ entry ∈ values, entry.1.name = name := by
  refine ⟨exists_of_mem_names_collect, ?_⟩
  rintro ⟨entry, member, rfl⟩
  have only : ∀ other ∈ values, other.1.name = entry.1.name → other.1 = entry.1 :=
    fun other among same => eq_of_name (listed entry member) (listed other among) same
  have occurs : valuesOf entry.1.name values ≠ [] := by
    refine List.ne_nil_of_mem (a := entry.2) (List.mem_map.2 ⟨entry, ?_, rfl⟩)
    exact List.mem_filter.2 ⟨member, by simp⟩
  have held := get?_collect only
  rw [Message.mem_names_iff (nodup_names_collect values), held, gathered]
  split
  · rw [if_neg (by simpa using occurs)]
    exact ⟨_, rfl⟩
  · exact ⟨_, List.getLast?_eq_some_getLast occurs⟩

/-- A member is present when one of the values is of its attribute. -/
theorem isPresent_collect_iff (listed : ∀ entry ∈ values, entry.1 ∈ set.attrs.values)
    {attr : Attribute} (among : attr ∈ set.attrs.values) :
    (collect values).isPresent attr.name = true ↔ attr ∈ values.map Prod.fst := by
  rw [Message.isPresent, Option.isSome_iff_exists,
    ← Message.mem_names_iff (nodup_names_collect values), mem_names_collect listed, List.mem_map]
  refine exists_congr fun entry => and_congr_right fun member => ⟨fun same => ?_, fun same => ?_⟩
  · exact eq_of_name among (listed entry member) same
  · rw [same]

/-- In a set, an attribute clashes with those before it if it is an array that is among them. -/
theorem clashes_iff {R : Type} {earlier : List (Attribute × R)} {attr : Attribute}
    (listed : ∀ entry ∈ earlier, entry.1 ∈ set.attrs.values) (among : attr ∈ set.attrs.values) :
    Clashes earlier attr ↔ attr.kind = .arrayNest ∧ attr ∈ earlier.map Prod.fst := by
  rw [Clashes, List.mem_map]
  refine and_congr_right fun _ => exists_congr fun entry => and_congr_right fun member =>
    ⟨fun same => ?_, fun same => ?_⟩
  · exact eq_of_name among (listed entry member) same
  · rw [same]

/-- The values that are read are under the attributes that were picked. -/
theorem definitions_of_read {picked : List (Attribute × RawAttribute)}
    (done : picked.mapM (read scope peer) = .ok values) :
    values.map Prod.fst = picked.map Prod.fst := by
  rw [← List.forall₂_eq_eq_eq, List.forall₂_map_left_iff, List.forall₂_map_right_iff]
  exact (mapM_eq_ok_iff.1 done).flip.imp fun _ _ one => (read_eq_ok_iff.1 one).1

/-- The values of two streams make up the members of both messages. -/
theorem joined_collect {others : List (Attribute × Value)}
    (listed : ∀ entry ∈ values, entry.1 ∈ set.attrs.values)
    (otherListed : ∀ entry ∈ others, entry.1 ∈ set.attrs.values) :
    Joined set (collect values) (collect others) (collect (values ++ others)) where
  distinct := nodup_names_collect _
  listed name member := by
    obtain ⟨entry, inside, same⟩ := exists_of_mem_names_collect member
    exact ⟨entry.1, List.forall_mem_append.2 ⟨listed, otherListed⟩ entry inside, same⟩
  names name := by
    have all : ∀ entry ∈ values ++ others, entry.1 ∈ set.attrs.values :=
      List.forall_mem_append.2 ⟨listed, otherListed⟩
    simp only [mem_names_collect listed, mem_names_collect otherListed, mem_names_collect all,
      List.mem_append, or_and_right, exists_or]
  members attr among := by
    have only {some : List (Attribute × Value)}
        (inside : ∀ entry ∈ some, entry.1 ∈ set.attrs.values) :
        ∀ entry ∈ some, entry.1.name = attr.name → entry.1 = attr := fun entry member same =>
      eq_of_name among (inside entry member) same
    rw [get?_collect (only (List.forall_mem_append.2 ⟨listed, otherListed⟩)),
      get?_collect (only listed), get?_collect (only otherListed), ← gathered_append]
    simp [valuesOf]

/-- The values of a stream are under the attributes that were picked. -/
theorem listed_of_read {picked : List (Attribute × RawAttribute)}
    (listed : ∀ entry ∈ picked, entry.1 ∈ set.attrs.values)
    (done : picked.mapM (read scope peer) = .ok values) :
    ∀ entry ∈ values, entry.1 ∈ set.attrs.values :=
  List.forall_mem_map.1 (definitions_of_read done ▸ List.forall_mem_map.2 listed)

/-- Two messages have an array in common if it was picked from both streams. -/
theorem sharedArray_iff {picked otherPicked : List (Attribute × RawAttribute)}
    {otherValues : List (Attribute × Value)}
    (listed : ∀ entry ∈ picked, entry.1 ∈ set.attrs.values)
    (otherListed : ∀ entry ∈ otherPicked, entry.1 ∈ set.attrs.values)
    (done : picked.mapM (read scope peer) = .ok values)
    (otherDone : otherPicked.mapM (read scope peer) = .ok otherValues) {attr : Attribute} :
    SharedArray set (collect values) (collect otherValues) attr ↔
      attr ∈ otherPicked.map Prod.fst ∧ Clashes picked.reverse attr := by
  have reversed : ∀ entry ∈ picked.reverse, entry.1 ∈ set.attrs.values := fun entry member =>
    listed entry (List.mem_reverse.1 member)
  have before (among : attr ∈ set.attrs.values) :
      (collect values).isPresent attr.name = true ↔ attr ∈ picked.reverse.map Prod.fst := by
    rw [isPresent_collect_iff (listed_of_read listed done) among, definitions_of_read done,
      List.map_reverse, List.mem_reverse]
  have after (among : attr ∈ set.attrs.values) :
      (collect otherValues).isPresent attr.name = true ↔ attr ∈ otherPicked.map Prod.fst := by
    rw [isPresent_collect_iff (listed_of_read otherListed otherDone) among,
      definitions_of_read otherDone]
  constructor
  · rintro ⟨among, array, earlier, later⟩
    exact ⟨(after among).1 later, (clashes_iff reversed among).2 ⟨array, (before among).1 earlier⟩⟩
  · rintro ⟨later, clash⟩
    have among : attr ∈ set.attrs.values := List.forall_mem_map.2 otherListed attr later
    obtain ⟨array, earlier⟩ := (clashes_iff reversed among).1 clash
    exact ⟨among, array, (before among).2 earlier, (after among).2 later⟩

/-- The second stream is picked behind the attributes of the first one: either some array is
refused, or all of them are kept. -/
theorem message_append {first second : Bytes} {before after : Message}
    (aligned : 4 ∣ first.length)
    (here : message scope peer set allowed first = .ok before)
    (later : message scope peer set allowed second = .ok after) :
    ((∃ attr, SharedArray set before after attr) →
      ∃ attr, SharedArray set before after attr ∧
        message scope peer set allowed (first ++ second) =
          .error (.alreadyPresent ⟨set.name, attr.name⟩)) ∧
    ((¬∃ attr, SharedArray set before after attr) →
      ∃ joined, message scope peer set allowed (first ++ second) = .ok joined ∧
        Joined set before after joined) := by
  simp only [message_eq, bind_eq_ok_iff, pure_eq_ok_iff, attributes_eq_ok_iff] at here later
  obtain ⟨raws, parted, picked, chosen, values, done, rfl⟩ := here
  obtain ⟨others, otherParted, otherPicked, otherChosen, otherValues, otherDone, rfl⟩ := later
  have listed := fun entry member => (source_of_pick chosen entry member).2
  have otherListed := fun entry member => (source_of_pick otherChosen entry member).2
  have shared {attr : Attribute} : SharedArray set (collect values) (collect otherValues) attr ↔
      attr ∈ otherPicked.map Prod.fst ∧ Clashes picked.reverse attr :=
    sharedArray_iff listed otherListed done otherDone
  have whole : attributes (first ++ second) = .ok (raws ++ others) :=
    attributes_eq_ok_iff.2 (Stream.split_append aligned parted otherParted)
  simp only [message_eq, whole, pick_append, chosen, bind, Except.bind]
  constructor
  · rintro ⟨attr, both⟩
    obtain ⟨after, clash⟩ := shared.1 both
    obtain ⟨entry, member, rfl⟩ := List.mem_map.1 after
    obtain ⟨refused, inside, clashes, failed⟩ :=
      pick_clash otherChosen (by simp) ⟨entry, member, clash⟩
    rw [List.nil_append] at failed
    exact ⟨refused.1, shared.2 ⟨List.mem_map_of_mem inside, clashes⟩, by rw [failed]⟩
  · intro apart
    have fresh : ∀ entry ∈ otherPicked, ¬Clashes picked.reverse entry.1 := fun entry member =>
      fun clash => apart ⟨entry.1, shared.2 ⟨List.mem_map_of_mem member, clash⟩⟩
    have taken := pick_behind otherChosen fresh
    rw [List.nil_append, List.reverse_reverse] at taken
    have read : (picked ++ otherPicked).mapM (read scope peer) = .ok (values ++ otherValues) :=
      mapM_eq_ok_iff.2 (List.rel_append (mapM_eq_ok_iff.1 done) (mapM_eq_ok_iff.1 otherDone))
    refine ⟨_, ?_, joined_collect (listed_of_read listed done)
      (listed_of_read otherListed otherDone)⟩
    simp only [taken, read]
    rfl

end Joining

end Decoding

namespace Family

/-- If both of two streams are messages and the first one ends with a whole word, then one behind
the other they are refused if both have the same array, and otherwise they are a message with the
members of both: values of a repeated attribute one behind the other, and of any other attribute
the later value. The second stream may lack its last padding. -/
theorem decode_append {family : Family} {peer : Peer} {set : String} {first second : Bytes}
    {before after : Message} (aligned : 4 ∣ first.length)
    (here : family.decode peer set first = .ok before)
    (later : family.decode peer set second = .ok after) :
    ∃ attrs, family.attributeSet set = .ok attrs ∧
      ((∃ attr, SharedArray attrs before after attr) →
        ∃ attr, SharedArray attrs before after attr ∧
          family.decode peer set (first ++ second) =
            .error (.alreadyPresent ⟨attrs.name, attr.name⟩)) ∧
      ((¬∃ attr, SharedArray attrs before after attr) →
        ∃ joined, family.decode peer set (first ++ second) = .ok joined ∧
          Joined attrs before after joined) := by
  unfold decode at here later ⊢
  cases declared : family.attributeSet set with
  | error error =>
      rw [declared] at here
      cases here
  | ok attrs =>
      rw [declared] at here later
      exact ⟨attrs, rfl, Decoding.message_append aligned here later⟩

/-- A number, an array of numbers and a repeated number. -/
def sequel : Spec.File where
  license := Spec.acceptedLicense
  family :=
    { name := "f"
      attributeSets :=
        [{ name := "f"
           attributes :=
            [{ name := "x", kind := some "u8" },
             { name := "list", kind := some "array-nest", subType := some "u8" },
             { name := "y", kind := some "u8", multi := some true }] }]
      operations := { list := [{ name := "get", attributeSet := some "f" }] } }

theorem isSome_ofSpec_sequel : (ofSpec sequel []).toOption.isSome = true := by
  decide +kernel

/-- The family with a number, an array and a repeated number. -/
def sequelFamily : Family :=
  (ofSpec sequel []).toOption.get isSome_ofSpec_sequel

/-- One of each attribute. -/
def sequelStream : Bytes :=
  [5, 0, 1, 0, 7, 0, 0, 0, 5, 0, 3, 0, 1, 0, 0, 0, 12, 0, 2, 0, 5, 0, 1, 0, 9, 0, 0, 0]

/-- A message of that family. -/
def sequelMessage : Message :=
  [("y", .multi [.scalar ⟨.u8, 1⟩]), ("x", .scalar ⟨.u8, 7⟩), ("list", .array [.scalar ⟨.u8, 9⟩])]

/-- Behind the array, another number and another repeated number are joined to the message, though
their stream ends without padding. The array itself is refused. -/
theorem decode_append_sequel :
    (∃ attrs joined, sequelFamily.attributeSet "f" = .ok attrs ∧
      sequelFamily.decode .handling "f" (sequelStream ++ [5, 0, 3, 0, 2, 0, 0, 0, 5, 0, 1, 0, 8]) =
        .ok joined ∧
      Joined attrs sequelMessage [("y", .multi [.scalar ⟨.u8, 2⟩]), ("x", .scalar ⟨.u8, 8⟩)]
        joined) ∧
    ∃ place, sequelFamily.decode .handling "f" (sequelStream ++ sequelStream) =
      .error (.alreadyPresent place) := by
  have first : sequelFamily.decode .handling "f" sequelStream = .ok sequelMessage := by
    decide +kernel
  have second : sequelFamily.decode .handling "f" [5, 0, 3, 0, 2, 0, 0, 0, 5, 0, 1, 0, 8] =
      .ok [("y", .multi [.scalar ⟨.u8, 2⟩]), ("x", .scalar ⟨.u8, 8⟩)] := by
    decide +kernel
  have array : ((sequelFamily.attributeSet "f").toOption.all fun attrs =>
      ∃ attr ∈ attrs.attrs.values, attr.kind = .arrayNest ∧ attr.name = "list") = true := by
    decide +kernel
  have onlyArray : ((sequelFamily.attributeSet "f").toOption.all fun attrs =>
      ∀ attr ∈ attrs.attrs.values, attr.kind = .arrayNest → attr.name = "list") = true := by
    decide +kernel
  constructor
  · obtain ⟨attrs, declared, -, apart⟩ := decode_append (by decide) first second
    rw [declared] at onlyArray
    obtain ⟨joined, decoded, members⟩ := apart <| by
      rintro ⟨attr, listed, kind, -, present⟩
      rw [of_decide_eq_true onlyArray attr listed kind] at present
      exact absurd present (by decide)
    exact ⟨attrs, joined, declared, decoded, members⟩
  · obtain ⟨attrs, declared, clash, -⟩ := decode_append (by decide) first first
    rw [declared] at array
    obtain ⟨attr, listed, kind, named⟩ := of_decide_eq_true array
    have present : sequelMessage.isPresent attr.name = true := by
      rw [named]
      decide
    obtain ⟨refused, -, failed⟩ := clash ⟨attr, listed, kind, present, present⟩
    exact ⟨_, failed⟩

end Family

end NetlinkFamily
