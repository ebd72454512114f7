import Mathlib.Algebra.BigOperators.Ring.List
import Mathlib.Algebra.Ring.Nat
import NetlinkFamily.Proofs.Encoding.Content
import NetlinkFamily.Proofs.Encoding.Length

namespace NetlinkFamily.Encoding

open Outcome

variable {scope : Scope} {set : AttributeSet} {attr : Attribute}

/-- The bytes of a scalar, as many as its type is wide and in the byte order of its attribute. -/
structure HoldsScalar (attr : Attribute) (number : Scalar) (payload : Bytes) : Prop where
  width : payload.length = number.type.width
  digits : Bytes.toNat (if attr.isBigEndian then payload.reverse else payload) =
    number.bits.toNat

/-- The header of an attribute has its number, and the bit of nests if its kind is one. -/
structure HasHeader (attr : Attribute) (raw : RawAttribute) : Prop where
  type : raw.type = attr.value.toNat
  nested : raw.nested = true ↔ attr.kind = .nest ∨ attr.kind = .arrayNest

mutual

/-- The payload of an attribute with one value. -/
inductive LaidOut (scope : Scope) : Attribute → Value → Bytes → Prop where
  | scalar {attr : Attribute} {number : Scalar} {payload : Bytes}
      (kind : attr.kind = .scalar number.type) (holds : HoldsScalar attr number payload) :
      LaidOut scope attr (.scalar number) payload
  | flag {attr : Attribute} (kind : attr.kind = .flag) : LaidOut scope attr .flag []
  | text {attr : Attribute} {content : String} (kind : attr.kind = .text) :
      LaidOut scope attr (.text content) (Bytes.ofText content ++ [0])
  | binary {attr : Attribute} {bytes : Bytes} (kind : attr.kind = .binary) :
      LaidOut scope attr (.binary bytes) bytes
  | nest {attr : Attribute} {set : AttributeSet} {members : Message} {payload : Bytes}
      (kind : attr.kind = .nest) (known : attr.contents scope = .ok set)
      (inside : LaidOutMessage scope set members payload) :
      LaidOut scope attr (.nest members) payload
  | array {attr : Attribute} {entries : List Value} {payload : Bytes} {raws : List RawAttribute}
      (kind : attr.kind = .arrayNest) (aligned : 4 ∣ payload.length)
      (parted : Stream.split payload = .ok raws)
      (numbered : raws.map RawAttribute.type = List.range entries.length)
      (each : ∀ pair ∈ entries.zip raws, LaidOutEntry scope attr pair.1 pair.2) :
      LaidOut scope attr (.array entries) payload

/-- An entry of an array, whatever its index. -/
inductive LaidOutEntry (scope : Scope) : Attribute → Value → RawAttribute → Prop where
  | scalar {attr : Attribute} {number : Scalar} {raw : RawAttribute}
      (scalars : attr.entryScalar? = some number.type) (unmarked : raw.nested = false)
      (holds : HoldsScalar attr number raw.payload) :
      LaidOutEntry scope attr (.scalar number) raw
  | nest {attr : Attribute} {set : AttributeSet} {members : Message} {raw : RawAttribute}
      (nests : attr.entryScalar? = none) (known : attr.contents scope = .ok set)
      (marked : raw.nested = true) (inside : LaidOutMessage scope set members raw.payload) :
      LaidOutEntry scope attr (.nest members) raw

/-- The attributes in a stream for the member of an attribute, if there is one. -/
inductive LaidOutMember (scope : Scope) : Attribute → Option Value → List RawAttribute → Prop where
  | absent {attr : Attribute} : LaidOutMember scope attr none []
  | single {attr : Attribute} {value : Value} {raw : RawAttribute} (once : attr.multi = false)
      (header : HasHeader attr raw) (inside : LaidOut scope attr value raw.payload) :
      LaidOutMember scope attr (some value) [raw]
  | repeated {attr : Attribute} {items : List Value} {raws : List RawAttribute}
      (often : attr.multi = true) (count : raws.length = items.length)
      (headers : ∀ raw ∈ raws, HasHeader attr raw)
      (each : ∀ pair ∈ items.zip raws, LaidOut scope attr pair.1 pair.2.payload) :
      LaidOutMember scope attr (some (.multi items)) raws

/-- The stream of a message: for each attribute of the set, in the order of declaration, what
stands there for its member. Nothing else does. -/
inductive LaidOutMessage (scope : Scope) : AttributeSet → Message → Bytes → Prop where
  | intro {set : AttributeSet} {message : Message} {data : Bytes} {rows : List (List RawAttribute)}
      (declared : ∀ name ∈ message.names, name ∈ set.attrs.names) (aligned : 4 ∣ data.length)
      (parted : Stream.split data = .ok rows.flatten)
      (count : rows.length = set.attrs.values.length)
      (each : ∀ pair ∈ set.attrs.values.zip rows,
        LaidOutMember scope pair.1 (message.get? pair.1.name) pair.2) :
      LaidOutMessage scope set message data

end

/-- The bytes of a scalar hold it. -/
theorem holdsScalar_toBytes (attr : Attribute) (number : Scalar) :
    HoldsScalar attr number (number.toBytes attr.isBigEndian) :=
  ⟨Scalar.length_toBytes _ number, Scalar.toNat_toBytes _ number⟩

/-- An aligned length is divided by four. -/
theorem four_dvd_alignUp (length : Nat) : 4 ∣ alignUp length :=
  Nat.dvd_mul_left _ _

/-- Every attribute fills its last word, and so does a stream of them. -/
theorem four_dvd_message {members : Message} {data : Bytes}
    (done : message scope set members = .ok data) : 4 ∣ data.length := by
  rw [length_of_message (fun entry _ => hasSpan scope entry.2) done,
    Message.streamLength_eq (streams_of_message done).1]
  exact List.dvd_sum (List.forall_mem_map.2 fun _ _ => four_dvd_alignUp _)

/-- The entries of an array are aligned. -/
theorem four_dvd_entries {entries : List Value} {data : Bytes}
    (done : eachEntry scope attr 0 entries [] = .ok data) : 4 ∣ data.length := by
  rw [length_of_entries (fun entry _ => hasSpan scope entry) done]
  exact List.dvd_sum (List.forall_mem_map.2 fun _ _ => four_dvd_alignUp _)

/-- An attribute that is not a nest keeps its type, and its highest bits are clear. -/
theorem holds_of_framed {number : Nat} {type : UInt16} (fits : attr.headerType number = .ok type)
    {payload stream : Bytes} (done : framed attr type payload = .ok stream) :
    Stream.Holds stream [{ type := number, nested := false, payload }] := by
  obtain ⟨rfl, small⟩ := toNat_headerType fits
  obtain ⟨short, rfl⟩ := framed_eq_ok_iff.1 done
  rw [← Stream.rawOf_of_lt small]
  exact Stream.Holds.frame short

/-- A nest keeps its type, too, with the bit of nests beside it. -/
theorem holds_of_nested {number : Nat} {type : UInt16} (fits : attr.headerType number = .ok type)
    {payload stream : Bytes} (done : nested attr type payload = .ok stream) :
    Stream.Holds stream [{ type := number, nested := true, payload }] := by
  obtain ⟨short, rfl⟩ := nested_eq_ok_iff.1 done
  rw [← headerType_eq_ok fits, ← Stream.rawOf_nested]
  exact Stream.Holds.frame short

/-- What is written for a value, or for an entry of an array, is one attribute that is laid out. -/
structure IsLaidOut (scope : Scope) (value : Value) : Prop where
  single : ∀ attr type stream, attr.headerType attr.value.toNat = .ok type →
    single scope attr type value = .ok stream →
      ∃ raw, Stream.Holds stream [raw] ∧ HasHeader attr raw ∧ LaidOut scope attr value raw.payload
  entry : ∀ attr index type stream, attr.headerType index = .ok type →
    entry scope attr type value = .ok stream →
      ∃ raw, Stream.Holds stream [raw] ∧ raw.type = index ∧ LaidOutEntry scope attr value raw

/-- A member is laid out occurrence by occurrence. -/
theorem laidOutMember_of_ofMember {value : Value} {row : Bytes}
    (each : ∀ part ∈ value :: value.items, IsLaidOut scope part)
    (done : ofMember scope attr value = .ok row) :
    ∃ raws, Stream.Holds row raws ∧ LaidOutMember scope attr (some value) raws := by
  obtain ⟨here, inside⟩ := List.forall_mem_cons.1 each
  obtain ⟨type, fits, ⟨often, items, streams, rfl, written, rfl⟩ | ⟨once, done⟩⟩ :=
    ofMember_eq_ok_iff.1 done
  · -- Each item is one attribute, and together they are the attributes of the member.
    have laid : List.Forall₂ (fun item stream => ∃ raw : RawAttribute,
        (HasHeader attr raw ∧ LaidOut scope attr item raw.payload) ∧ Stream.Holds stream [raw])
        items streams := by
      apply (forall₂_mem (mapM_eq_ok_iff.1 written)).imp
      intro item stream both
      obtain ⟨raw, holds, header, laid⟩ := (inside item both.1).single attr type stream fits both.2
      exact ⟨raw, ⟨header, laid⟩, holds⟩
    obtain ⟨raws, read, held⟩ := exists_forall₂_between laid
    refine ⟨raws, Stream.Holds.flatten_single held, .repeated often read.length_eq.symm ?_ ?_⟩
    · intro raw member
      obtain ⟨_, _, header, _⟩ := exists_of_forall₂ read raw member
      exact header
    · exact fun pair member => ((List.forall₂_iff_zip.1 read).2 member).2
  · obtain ⟨raw, holds, header, laid⟩ := here.single attr type row fits done
    exact ⟨[raw], holds, .single once header laid⟩

/-- A message is laid out attribute by attribute, in the order of its set. -/
theorem laidOutMessage_of_message {members : Message} {data : Bytes}
    (each : ∀ member ∈ members, ∀ part ∈ member.2 :: member.2.items, IsLaidOut scope part)
    (done : message scope set members = .ok data) : LaidOutMessage scope set members data := by
  have aligned := four_dvd_message done
  obtain ⟨declared, rows, written, rfl⟩ := message_eq_ok_iff.1 done
  have laid : List.Forall₂ (fun (attr : Attribute) row => ∃ raws,
      LaidOutMember scope attr (members.get? attr.name) raws ∧ Stream.Holds row raws)
      set.attrs.values rows := by
    apply (mapM_eq_ok_iff.1 written).imp
    intro attr row done
    cases held : members.get? attr.name with
    | none =>
        rw [held] at done
        obtain rfl := Except.ok.inj done
        exact ⟨[], .absent, .nil⟩
    | some value =>
        rw [held] at done
        obtain ⟨raws, holds, laid⟩ :=
          laidOutMember_of_ofMember (each _ (Message.mem_of_get? held)) done
        exact ⟨raws, laid, holds⟩
  obtain ⟨parts, read, held⟩ := exists_forall₂_between laid
  exact .intro declared aligned (Stream.Holds.flatten held).split read.length_eq.symm
    fun _ member => (List.forall₂_iff_zip.1 read).2 member

/-- The entries of an array are laid out one behind the other, and their types count up. -/
theorem laidOutEntries_of_eachEntry {index : Nat} {entries : List Value} {written : List Bytes}
    {data : Bytes} (each : ∀ entry ∈ entries, IsLaidOut scope entry)
    (done : eachEntry scope attr index entries written = .ok data) :
    ∃ stream raws, data = written.reverse.flatten ++ stream ∧ Stream.Holds stream raws ∧
      raws.map RawAttribute.type = List.range' index entries.length ∧
        List.Forall₂ (LaidOutEntry scope attr) entries raws := by
  induction entries generalizing index written with
  | nil =>
      rw [eachEntry, Except.ok.injEq] at done
      exact ⟨[], [], by rw [done, List.append_nil], .nil, rfl, .nil⟩
  | cons value rest ih =>
      obtain ⟨here, later⟩ := List.forall_mem_cons.1 each
      simp only [eachEntry_cons, bind_eq_ok_iff] at done
      obtain ⟨type, fits, first, made, done⟩ := done
      obtain ⟨raw, holds, numbered, laid⟩ := here.entry attr index type first fits made
      obtain ⟨stream, raws, rfl, held, counted, others⟩ := ih later done
      refine ⟨first ++ stream, raw :: raws, by simp, holds.append held, ?_, .cons laid others⟩
      rw [List.map_cons, numbered, counted, List.length_cons, List.range'_succ]

/-- Of the entries of an array only scalars and nests are written. -/
theorem laidOut_of_entry {value : Value}
    (inner : ∀ members : Message, value = .nest members → ∀ set data,
      message scope set members = .ok data → LaidOutMessage scope set members data)
    (attr : Attribute) (index : Nat) (type : UInt16) (stream : Bytes)
    (fits : attr.headerType index = .ok type)
    (done : Encoding.entry scope attr type value = .ok stream) :
    ∃ raw, Stream.Holds stream [raw] ∧ raw.type = index ∧ LaidOutEntry scope attr value raw := by
  cases scalars : attr.entryScalar? with
  | some expected =>
      obtain ⟨number, rfl, rfl, done⟩ := (scalar_entry_eq_ok_iff scalars).1 done
      exact ⟨_, holds_of_framed fits done, rfl,
        .scalar scalars rfl (holdsScalar_toBytes attr number)⟩
  | none =>
      obtain ⟨members, set, data, rfl, known, inside, done⟩ :=
        (nested_entry_eq_ok_iff scalars).1 done
      exact ⟨_, holds_of_nested fits done, rfl,
        .nest scalars known rfl (inner members rfl set data inside)⟩

/-- A value is written by the kind of its attribute. Only nests and arrays are marked. -/
theorem laidOut_of_single {value : Value}
    (nest : ∀ members : Message, value = .nest members → ∀ set data,
      message scope set members = .ok data → LaidOutMessage scope set members data)
    (array : ∀ entries, value = .array entries → ∀ entry ∈ entries, IsLaidOut scope entry)
    (attr : Attribute) (type : UInt16) (stream : Bytes)
    (fits : attr.headerType attr.value.toNat = .ok type)
    (done : single scope attr type value = .ok stream) :
    ∃ raw, Stream.Holds stream [raw] ∧ HasHeader attr raw ∧
      LaidOut scope attr value raw.payload := by
  cases written_of_single done with
  | scalar kind done =>
      exact ⟨_, holds_of_framed fits done, ⟨rfl, by simp [kind]⟩,
        .scalar kind (holdsScalar_toBytes attr _)⟩
  | flag kind done => exact ⟨_, holds_of_framed fits done, ⟨rfl, by simp [kind]⟩, .flag kind⟩
  | text kind done => exact ⟨_, holds_of_framed fits done, ⟨rfl, by simp [kind]⟩, .text kind⟩
  | binary kind done => exact ⟨_, holds_of_framed fits done, ⟨rfl, by simp [kind]⟩, .binary kind⟩
  | nest kind known inside done =>
      exact ⟨_, holds_of_nested fits done, ⟨rfl, by simp [kind]⟩,
        .nest kind known (nest _ rfl _ _ inside)⟩
  | array kind inside done =>
      have aligned := four_dvd_entries inside
      obtain ⟨inner, raws, rfl, holds, numbered, laid⟩ :=
        laidOutEntries_of_eachEntry (array _ rfl) inside
      rw [← List.range_eq_range'] at numbered
      exact ⟨_, holds_of_nested fits done, ⟨rfl, by simp [kind]⟩,
        .array kind aligned holds.split numbered
          fun _ member => (List.forall₂_iff_zip.1 laid).2 member⟩

/-- By induction on the value. -/
theorem isLaidOut (scope : Scope) (value : Value) : IsLaidOut scope value := by
  induction value using Value.induction with
  | nest members ih =>
      have inside : ∀ others : Message, Value.nest members = .nest others → ∀ set data,
          message scope set others = .ok data → LaidOutMessage scope set others data := by
        intro _ same set data
        cases same
        exact laidOutMessage_of_message ih
      exact ⟨laidOut_of_single inside (by simp), laidOut_of_entry inside⟩
  | array entries ih =>
      refine ⟨laidOut_of_single (by simp) fun _ same => ?_, laidOut_of_entry (by simp)⟩
      cases same
      exact ih
  | _ => exact ⟨laidOut_of_single (by simp) (by simp), laidOut_of_entry (by simp)⟩

end NetlinkFamily.Encoding

namespace NetlinkFamily.Family

/-- The stream of a message is a multiple of four bytes long and is split into the attributes of
its set, in the order of their declaration: none for one that is absent, one for a single value and
as many as there are items otherwise, each under its number and with the bit of nests exactly if its
kind nests. The same holds inside nests and arrays, down to the bytes of scalars and texts. The
order in which the members were assigned plays no part. -/
theorem encode_laidOut (family : Family) (set : String) (message : Message) (data : Bytes)
    (done : family.encode set message = .ok data) :
    (∃ attrs, family.attributeSet set = .ok attrs ∧
      Encoding.LaidOutMessage family.toScope attrs message data) ∧
    ∀ other : Message, message.Keyed → other.Keyed → message.agrees other = true →
      family.encode set other = .ok data := by
  obtain ⟨attrs, declared, written⟩ := encode_eq_ok_iff.1 done
  constructor
  · have each (part : Value) := Encoding.isLaidOut family.toScope part
    exact ⟨attrs, declared,
      Encoding.laidOutMessage_of_message (fun _ _ part _ => each part) written⟩
  · intro other keyed otherKeyed agree
    exact (family.encode_of_agrees set agree keyed otherKeyed data).1 done

/-- Attributes with all sorts of payloads. -/
def payloads : Spec.File where
  license := Spec.acceptedLicense
  family :=
    { name := "f"
      attributeSets :=
        [{ name := "f"
           attributes :=
            [{ name := "port", kind := some "u16", byteOrder := some "big-endian" },
             { name := "up", kind := some "flag" },
             { name := "tag", kind := some "string", multi := some true },
             { name := "part", kind := some "nest", nestedAttributes := some "part" },
             { name := "levels", kind := some "array-nest", subType := some "u32" },
             { name := "parts", kind := some "array-nest", nestedAttributes := some "part" }] },
         { name := "part"
           attributes := [{ name := "raw", kind := some "binary" }] }] }

theorem isSome_ofSpec_payloads : (ofSpec payloads []).toOption.isSome = true := by decide +kernel

/-- The family with all sorts of payloads. -/
def payloadsFamily : Family :=
  (ofSpec payloads []).toOption.get isSome_ofSpec_payloads

/-- A message whose members are not assigned in the order of their declaration. -/
def payloadsMessage : Message :=
  [("parts", .array [.nest [("raw", .binary [9])], .nest []]),
    ("levels", .array [.scalar ⟨.u32, 7⟩]), ("part", .nest [("raw", .binary [1, 2, 3, 4])]),
    ("tag", .multi [.text "a", .text "bcd"]), ("up", .flag), ("port", .scalar ⟨.u16, 0x1f90⟩)]

/-- The bytes of a message of that family. -/
def payloadsStream : Bytes :=
  [6, 0, 1, 0, 0x1f, 0x90, 0, 0, 4, 0, 2, 0, 6, 0, 3, 0, 97, 0, 0, 0, 8, 0, 3, 0, 98, 99, 100, 0,
    12, 0, 4, 128, 8, 0, 1, 0, 1, 2, 3, 4, 12, 0, 5, 128, 8, 0, 0, 0, 7, 0, 0, 0,
    20, 0, 6, 128, 12, 0, 0, 128, 5, 0, 1, 0, 9, 0, 0, 0, 4, 0, 1, 128]

/-- That message is encoded to those bytes, which are laid out. -/
theorem encode_payloads :
    payloadsFamily.encode "f" payloadsMessage = .ok payloadsStream ∧
      ∃ attrs, payloadsFamily.attributeSet "f" = .ok attrs ∧
        Encoding.LaidOutMessage payloadsFamily.toScope attrs payloadsMessage payloadsStream := by
  have done : payloadsFamily.encode "f" payloadsMessage = .ok payloadsStream := by
    decide +kernel
  exact ⟨done, (payloadsFamily.encode_laidOut "f" payloadsMessage payloadsStream done).1⟩

end NetlinkFamily.Family
