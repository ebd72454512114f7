import Mathlib.Algebra.Order.BigOperators.Group.List
import Mathlib.Algebra.Order.Group.Nat
import NetlinkFamily.Proofs.Decoding.Collecting
import NetlinkFamily.Proofs.Wire.Bounds

namespace NetlinkFamily

namespace Value

mutual

/-- What a value amounts to: one for itself, and what `join` makes of the values inside it. A list
of occurrences is not a value of its own. -/
def extent (join : Nat → Nat → Nat) (value : Value) : Nat :=
  match value with
  | .nest members => 1 + extentOfMembers join members
  | .array entries => 1 + extentOfEach join entries
  | .multi items => extentOfEach join items
  | _ => 1
termination_by structural value

/-- The extent of all members of a message. -/
def extentOfMembers (join : Nat → Nat → Nat) (message : Message) : Nat :=
  match message with
  | [] => 0
  | (_, value) :: rest => join (extent join value) (extentOfMembers join rest)
termination_by structural message

/-- The extent of all values of a list. -/
def extentOfEach (join : Nat → Nat → Nat) (values : List Value) : Nat :=
  match values with
  | [] => 0
  | value :: rest => join (extent join value) (extentOfEach join rest)
termination_by structural values

end

/-- The number of values in a value, itself included. -/
def valueCount (value : Value) : Nat :=
  value.extent (· + ·)

/-- The extent of a message folds the extents of its members. -/
theorem extentOfMembers_eq (join : Nat → Nat → Nat) (message : Message) :
    extentOfMembers join message =
      (message.map fun member => member.2.extent join).foldr join 0 := by
  induction message with
  | nil => rfl
  | cons first rest ih => rw [extentOfMembers, ih, List.map_cons, List.foldr_cons]

/-- The extent of a list folds the extents of its values. -/
theorem extentOfEach_eq (join : Nat → Nat → Nat) (values : List Value) :
    extentOfEach join values = (values.map (extent join)).foldr join 0 := by
  induction values with
  | nil => rfl
  | cons first rest ih => rw [extentOfEach, ih, List.map_cons, List.foldr_cons]

end Value

namespace Message

/-- The number of values in a message, at any depth. -/
def valueCount (message : Message) : Nat :=
  Value.extentOfMembers (· + ·) message

/-- How deep the values in a message are nested. -/
def depth (message : Message) : Nat :=
  Value.extentOfMembers max message

/-- The values of a message are those of its members. -/
theorem valueCount_eq (message : Message) :
    message.valueCount = (message.map fun member => member.2.valueCount).sum :=
  Value.extentOfMembers_eq (· + ·) message

end Message

namespace Value

/-- A nest is one value beside those it holds. -/
@[simp] theorem valueCount_nest (members : Message) :
    (nest members).valueCount = 1 + members.valueCount :=
  rfl

/-- An array is one value beside those it holds. -/
@[simp] theorem valueCount_array (entries : List Value) :
    (array entries).valueCount = 1 + (entries.map valueCount).sum :=
  congrArg (1 + ·) (extentOfEach_eq (· + ·) entries)

/-- A repeated attribute has the values of its occurrences. -/
@[simp] theorem valueCount_multi (items : List Value) :
    (multi items).valueCount = (items.map valueCount).sum :=
  extentOfEach_eq (· + ·) items

/-- Lists that are put together from larger numbers, and by a larger operation. -/
theorem foldr_le {A : Type} {first second : Nat → Nat → Nat}
    (larger : ∀ {a b c d}, a ≤ c → b ≤ d → first a b ≤ second c d) {f g : A → Nat} {list : List A}
    (each : ∀ a ∈ list, f a ≤ g a) : (list.map f).foldr first 0 ≤ (list.map g).foldr second 0 := by
  induction list with
  | nil => exact Nat.le_refl 0
  | cons a rest ih =>
      obtain ⟨here, later⟩ := List.forall_mem_cons.1 each
      exact larger here (ih later)

/-- A join that is never smaller gives no smaller extent. -/
theorem extent_le {first second : Nat → Nat → Nat}
    (larger : ∀ {a b c d}, a ≤ c → b ≤ d → first a b ≤ second c d) (value : Value) :
    value.extent first ≤ value.extent second := by
  induction value using Value.induction with
  | nest members ih =>
      simp only [extent, extentOfMembers_eq]
      exact Nat.add_le_add_left
        (foldr_le larger fun member inside => ih member inside _ List.mem_cons_self) 1
  | array entries ih =>
      simp only [extent, extentOfEach_eq]
      exact Nat.add_le_add_left (foldr_le larger ih) 1
  | multi items ih =>
      simp only [extent, extentOfEach_eq]
      exact foldr_le larger ih
  | _ => exact Nat.le_refl 1

end Value

/-- Values are not nested deeper than there are values, so that one bound is enough. -/
theorem Message.depth_le_valueCount (message : Message) : message.depth ≤ message.valueCount := by
  have larger {a b c d : Nat} (here : a ≤ c) (later : b ≤ d) : max a b ≤ c + d := by omega
  rw [depth, valueCount, Value.extentOfMembers_eq, Value.extentOfMembers_eq]
  exact Value.foldr_le larger fun member _ => Value.extent_le larger member.2

namespace Decoding

open Outcome

/-- The number of values that were read, those inside them included. -/
def total (values : List (Attribute × Value)) : Nat :=
  (values.map fun entry => entry.2.valueCount).sum

/-- The values of a list are those of one kind and those of the other. -/
theorem total_filter (kind : Attribute × Value → Bool) (values : List (Attribute × Value)) :
    total (values.filter kind) + total (values.filter fun entry => !kind entry) = total values := by
  have parted := ((List.filter_append_perm kind values).map fun entry => entry.2.valueCount).sum_eq
  rwa [List.map_append, List.sum_append] at parted

/-- To assign a value adds it, and may take away another one. -/
theorem valueCount_assign_le (name : String) (value : Value) (message : Message) :
    Message.valueCount (Entries.assign name value message) ≤
      message.valueCount + value.valueCount := by
  induction message with
  | nil => simp [Entries.assign, Message.valueCount_eq]
  | cons first rest ih =>
      simp only [Message.valueCount_eq] at ih ⊢
      by_cases same : first.1 = name
      · simp only [Entries.assign, if_pos same, List.map_cons, List.sum_cons]
        omega
      · simp only [Entries.assign, if_neg same, List.map_cons, List.sum_cons]
        omega

/-- Assigning values adds no more values than they have. -/
theorem valueCount_foldl_assign_le (values : List (Attribute × Value)) (start : Message) :
    Message.valueCount (values.foldl
      (fun message entry => Entries.assign entry.1.name entry.2 message) start) ≤
        start.valueCount + total values := by
  induction values generalizing start with
  | nil => exact Nat.le_refl _
  | cons entry rest ih =>
      have here := valueCount_assign_le entry.1.name entry.2 start
      have later := ih (Entries.assign entry.1.name entry.2 start)
      simp only [total, List.foldl_cons, List.map_cons, List.sum_cons] at later ⊢
      omega

/-- The values of a name stay if those of another one are taken out. -/
theorem valuesOf_filter_ne {name other : String} (differs : other ≠ name)
    (values : List (Attribute × Value)) :
    valuesOf other (values.filter fun entry => !(entry.1.name == name)) =
      valuesOf other values := by
  rw [valuesOf, valuesOf, List.filter_filter]
  apply congrArg
  apply List.filter_congr
  intro entry _
  by_cases named : entry.1.name = other <;> simp [named, differs]

/-- No value belongs to two names. By induction on the names: the values of the first one are taken
out for the others. -/
theorem valueCount_repeated_le {names : List String} (distinct : names.Nodup)
    (values : List (Attribute × Value)) :
    Message.valueCount (names.map fun name => (name, .multi (valuesOf name values))) ≤
      total values := by
  induction names generalizing values with
  | nil => exact Nat.zero_le _
  | cons name rest ih =>
      obtain ⟨fresh, distinct⟩ := List.nodup_cons.1 distinct
      have parted := total_filter (fun entry => entry.1.name == name) values
      have here : (Value.multi (valuesOf name values)).valueCount =
          total (values.filter fun entry => entry.1.name == name) := by
        rw [Value.valueCount_multi, valuesOf, List.map_map]
        rfl
      have later := ih distinct (values.filter fun entry => !(entry.1.name == name))
      have kept : (rest.map fun other => (other, Value.multi (valuesOf other
          (values.filter fun entry => !(entry.1.name == name))))) =
            rest.map fun other => (other, .multi (valuesOf other values)) :=
        List.map_congr_left fun other member => by
          rw [valuesOf_filter_ne (ne_of_mem_of_not_mem member fresh)]
      rw [kept] at later
      simp only [Message.valueCount_eq, List.map_cons, List.sum_cons] at later ⊢
      omega

/-- A message has no more values than were collected. -/
theorem valueCount_collect_le (values : List (Attribute × Value)) :
    (collect values).valueCount ≤ total values := by
  let repeated := values.filter fun entry => entry.1.multi
  let others := values.filter fun entry => !entry.1.multi
  let names := (repeated.map fun entry => entry.1.name).eraseDups
  let start : Message := names.map fun name => (name, .multi (valuesOf name repeated))
  have listed : start.valueCount ≤ total repeated :=
    valueCount_repeated_le (nodup_eraseDups _) repeated
  calc (collect values).valueCount
    _ ≤ start.valueCount + total others := valueCount_foldl_assign_le others start
    _ ≤ total repeated + total others := Nat.add_le_add_right listed _
    _ = total values := total_filter (fun entry => entry.1.multi) values

variable {scope : Scope} {peer : Peer} {set : AttributeSet} {attr : Attribute}

/-- An attribute has four bytes for each value that is read from it. -/
def Covers (raw : RawAttribute) (value : Value) : Prop :=
  4 * value.valueCount ≤ raw.size

/-- The values that raw attributes cover are bounded by the size of the attributes. -/
theorem total_le_of_covers {raws : List RawAttribute} {values : List Value}
    (each : List.Forall₂ Covers raws values) :
    4 * (values.map Value.valueCount).sum ≤ (raws.map RawAttribute.size).sum := by
  induction each with
  | nil => exact Nat.le_refl 0
  | cons here _ ih =>
      unfold Covers at here
      simp only [List.map_cons, List.sum_cons]
      omega

/-- What is read as a text is a text. -/
theorem exists_text_of_readText {policy : Option WirePolicy} {payload : Bytes} {found : Value}
    (taken : readText attr policy payload = .ok found) : ∃ content, found = .text content := by
  cases policy with
  | none =>
      simp only [readText, pure_bind] at taken
      split at taken
      · exact ⟨_, ((pure_eq_ok_iff _ _).1 taken).symm⟩
      · cases taken
  | some rule =>
      simp only [readText, bind_eq_ok_iff] at taken
      obtain ⟨content, -, taken⟩ := taken
      split at taken
      · exact ⟨_, ((pure_eq_ok_iff _ _).1 taken).symm⟩
      · cases taken

/-- A leaf is one value. -/
theorem valueCount_of_leaf {payload : Bytes} {found : Value}
    (taken : leaf scope peer attr payload = .ok found) : found.valueCount = 1 := by
  simp only [leaf, bind_eq_ok_iff] at taken
  obtain ⟨policy, -, taken⟩ := taken
  split at taken
  case h_1 =>
    rw [bind_eq_ok_iff] at taken
    obtain ⟨number, read, taken⟩ := taken
    obtain ⟨-, rfl⟩ := check_eq_ok_iff.1 taken
    obtain ⟨-, rfl⟩ := readScalar_eq_ok_iff.1 read
    rfl
  case h_2 =>
    split at taken
    · exact (pure_eq_ok_iff _ _).1 taken ▸ rfl
    · cases taken
  case h_3 =>
    obtain ⟨content, rfl⟩ := exists_text_of_readText taken
    rfl
  case h_4 =>
    obtain ⟨-, rfl⟩ := check_eq_ok_iff.1 taken
    rfl
  case h_5 => cases taken

/-- A message in a stream has at most one value for each word. -/
def MessageFits (scope : Scope) (peer : Peer) (data : Bytes) : Prop :=
  ∀ set allowed found, message scope peer set allowed data = .ok found →
    4 * found.valueCount ≤ data.length

/-- The same for a value in a payload and for its header. -/
def ValueFits (scope : Scope) (peer : Peer) (payload : Bytes) : Prop :=
  ∀ attr found, value scope peer attr payload = .ok found →
    4 * found.valueCount ≤ Stream.headerLength + payload.length

/-- An array fits if its entries do, each in its own place. -/
theorem array_fits {payload : Bytes} {raws : List RawAttribute} {values : List Value}
    (parted : Stream.split payload = .ok raws) (covered : List.Forall₂ Covers raws values) :
    4 * (Value.array values).valueCount ≤ Stream.headerLength + payload.length := by
  have within := total_le_of_covers covered
  have room := Stream.size_split parted
  simp only [Value.valueCount_array, Stream.headerLength]
  omega

/-- A value fits its payload where the messages inside fit theirs. -/
theorem value_fits {payload : Bytes}
    (inner : ∀ data : Bytes, data.length ≤ payload.length → MessageFits scope peer data) :
    ValueFits scope peer payload := by
  intro attr found taken
  cases obtained_of_value taken with
  | @nest set members _ _ inside =>
      have within := inner payload (Nat.le_refl _) set none members inside
      simp only [Value.valueCount_nest, Stream.headerLength]
      omega
  | scalars _ _ parted each =>
      apply array_fits parted
      apply each.imp
      intro raw value one
      obtain ⟨-, rfl⟩ := readScalar_eq_ok_iff.1 one
      exact Nat.le_add_right Stream.headerLength raw.payload.length
  | @nests set raws messages _ _ _ parted each =>
      apply array_fits parted
      rw [List.forall₂_map_right_iff]
      apply (forall₂_mem each).imp
      intro raw members both
      obtain ⟨member, decoded⟩ := both
      have shorter := Stream.payload_lt parted member
      have within := inner raw.payload (Nat.le_of_lt shorter) set none members decoded
      simp only [Covers, Value.valueCount_nest, RawAttribute.size, Stream.headerLength]
      omega
  | leaf _ _ taken =>
      rw [valueCount_of_leaf taken]
      exact Nat.le_add_right Stream.headerLength payload.length

/-- Skipped attributes take up room, too, and so do values that others replace. -/
theorem message_fits_of_values {data : Bytes}
    (inner : ∀ payload : Bytes, payload.length < data.length → ValueFits scope peer payload) :
    MessageFits scope peer data := by
  intro set allowed found taken
  simp only [message_eq, bind_eq_ok_iff, pure_eq_ok_iff] at taken
  obtain ⟨raws, parted, picked, chosen, values, read, rfl⟩ := taken
  have split := attributes_eq_ok_iff.1 parted
  obtain ⟨_, rfl, sublist⟩ := sublist_of_pick chosen
  have covered : List.Forall₂ Covers (picked.map Prod.snd) (values.map Prod.snd) := by
    rw [List.forall₂_map_left_iff, List.forall₂_map_right_iff]
    apply (forall₂_mem (mapM_eq_ok_iff.1 read)).imp
    intro entry result both
    obtain ⟨member, one⟩ := both
    have among := sublist.subset (List.mem_map_of_mem member)
    exact inner entry.2.payload (Stream.payload_lt split among) entry.1 result.2
      (read_eq_ok_iff.1 one).2
  have collected := valueCount_collect_le values
  have within := total_le_of_covers covered
  have fewer := (sublist.map RawAttribute.size).sum_le_sum fun _ _ => Nat.zero_le _
  have room := Stream.size_split split
  rw [List.map_map] at within
  unfold total at collected
  simp only [Function.comp_def] at within
  omega

/-- A message fits its bytes. -/
theorem message_fits (scope : Scope) (peer : Peer) (data : Bytes) : MessageFits scope peer data :=
  induction_on_length (fun _ => value_fits) (fun _ => message_fits_of_values) data

/-- The values and the depth of a message are bounded by a quarter of its bytes. -/
theorem extent_of_message {allowed : Option AllowedList} {data : Bytes} {found : Message}
    (taken : message scope peer set allowed data = .ok found) :
    found.valueCount ≤ data.length / 4 ∧ found.depth ≤ data.length / 4 := by
  have fits := message_fits scope peer data set allowed found taken
  have nested := found.depth_le_valueCount
  omega

end Decoding

namespace Family

open Outcome

/-- However a stream is made, and however sets nest in themselves, a decoded message has no more
values than the stream has words, at all depths together, and is not nested any deeper. -/
theorem decode_extent {family : Family} {peer : Peer} {set : String} {data : Bytes}
    {message : Message} (decoded : family.decode peer set data = .ok message) :
    message.valueCount ≤ data.length / 4 ∧ message.depth ≤ data.length / 4 := by
  simp only [decode, bind_eq_ok_iff] at decoded
  obtain ⟨attrs, -, read⟩ := decoded
  exact Decoding.extent_of_message read

/-- The same holds of the messages of operations, whatever they leave out. -/
theorem decodeOperation_extent {family : Family} {peer : Peer} {operation : String}
    {mode : OperationMode} {direction : Direction} {data : Bytes} {message : Message}
    (decoded : family.decodeOperation peer operation mode direction data = .ok message) :
    message.valueCount ≤ data.length / 4 ∧ message.depth ≤ data.length / 4 := by
  simp only [decodeOperation, bind_eq_ok_iff] at decoded
  obtain ⟨names, -, attrs, -, read⟩ := decoded
  exact Decoding.extent_of_message read

/-- A set that nests in itself, which no operation uses. -/
def spiral : Spec.File where
  license := Spec.acceptedLicense
  family :=
    { name := "f"
      attributeSets :=
        [{ name := "f"
           attributes := [{ name := "level", kind := some "u8" }] },
         { name := "turn"
           attributes :=
            [{ name := "next", kind := some "nest", nestedAttributes := some "turn" }] }]
      operations :=
        { list :=
            [{ name := "get"
               attributeSet := some "f"
               doMode := some { request := some { attributes := ["level"] } } }] } }

theorem isSome_ofSpec_spiral : (ofSpec spiral []).toOption.isSome = true := by decide +kernel

/-- The family with the set that nests in itself. -/
def spiralFamily : Family :=
  (ofSpec spiral []).toOption.get isSome_ofSpec_spiral

/-- Nests that are as small as they can be. -/
def turns : Message :=
  [("next", .nest [("next", .nest [("next", .nest [])])])]

/-- The bytes of a message of that family. -/
def turnsStream : Bytes :=
  [12, 0, 1, 128, 8, 0, 1, 128, 4, 0, 1, 128]

/-- Those bytes decode to no more values and no greater depth than a quarter of their length. -/
theorem decode_extent_turns :
    spiralFamily.decode .handling "turn" turnsStream = .ok turns ∧
      turns.valueCount ≤ turnsStream.length / 4 ∧ turns.depth ≤ turnsStream.length / 4 := by
  have decoded : spiralFamily.decode .handling "turn" turnsStream = .ok turns := by
    decide +kernel
  exact ⟨decoded, decode_extent decoded⟩

/-- They reach both bounds. -/
example : turns.valueCount = turnsStream.length / 4 ∧ turns.depth = turnsStream.length / 4 := by
  decide

end Family

end NetlinkFamily
