import Mathlib.Data.List.Forall2
import NetlinkFamily.Wire.Stream

namespace NetlinkFamily.Stream

/-- An attribute as it is written. -/
def frame (field : UInt16) (payload : Bytes) : Bytes :=
  padded (header (headerLength + payload.length) field ++ payload)

/-- A written attribute is its header, its payload and as many zeros as fill its last word. -/
theorem frame_eq (field : UInt16) (payload : Bytes) :
    frame field payload =
      header (headerLength + payload.length) field ++ payload ++
        Bytes.zeros
          (alignUp (headerLength + payload.length) - (headerLength + payload.length)) := by
  have inside : (header (headerLength + payload.length) field ++ payload).length =
      headerLength + payload.length := by
    simp [header, headerLength]
    omega
  rw [frame, padded, inside]

/-- An attribute ends at a multiple of four bytes. -/
theorem length_frame (field : UInt16) (payload : Bytes) :
    (frame field payload).length = alignUp (headerLength + payload.length) := by
  have fill := le_alignUp (headerLength + payload.length)
  rw [frame_eq]
  simp only [headerLength] at fill
  simp only [header, Bytes.zeros, headerLength, List.length_append, Bytes.length_ofNat,
    List.length_replicate]
  omega

/-- An attribute as it is read. -/
def rawOf (field : UInt16) (payload : Bytes) : RawAttribute where
  type := field.toNat % typeBound
  nested := 0x8000 ≤ field.toNat
  payload := payload

/-- What stands in front at a multiple of four bytes does not change the padding behind it. -/
theorem padded_append {buffer : Bytes} (aligned : 4 ∣ buffer.length) (behind : Bytes) :
    padded (buffer ++ behind) = buffer ++ padded behind := by
  have fill : alignUp (buffer ++ behind).length - (buffer ++ behind).length =
      alignUp behind.length - behind.length := by
    rw [List.length_append]
    unfold alignUp
    omega
  rw [padded, padded, fill, List.append_assoc]

/-- An attribute is written behind what is there, unless it is too long for its header. -/
theorem put?_aligned {buffer : Bytes} (aligned : 4 ∣ buffer.length) (field : UInt16)
    (payload : Bytes) :
    put? buffer field payload =
      if headerLength + payload.length ≤ maxLength then some (buffer ++ frame field payload)
      else none := by
  rw [put?, List.append_assoc, padded_append aligned, frame]

/-- A nest is an attribute whose type is marked. It is written behind what was there when it was
opened, unless it is too long. -/
theorem closeNest?_aligned {buffer : Bytes} (aligned : 4 ∣ buffer.length) (type : UInt16)
    (inner : Bytes) :
    closeNest? (openNest buffer type ++ inner) buffer.length =
      if headerLength + inner.length ≤ maxLength then
        some (buffer ++ frame (type ||| nestedFlag) inner)
      else none := by
  have whole : openNest buffer type ++ inner =
      buffer ++ (Bytes.ofNat 2 0 ++ (Bytes.ofNat 2 (type ||| nestedFlag).toNat ++ inner)) := by
    simp only [openNest, header, List.append_assoc]
  have length : (openNest buffer type ++ inner).length - buffer.length =
      headerLength + inner.length := by
    simp only [whole, List.length_append, Bytes.length_ofNat, headerLength]
    omega
  have front : (openNest buffer type ++ inner).take buffer.length = buffer := by
    rw [whole, List.take_left]
  have behind : (openNest buffer type ++ inner).drop (buffer.length + 2) =
      Bytes.ofNat 2 (type ||| nestedFlag).toNat ++ inner := by
    rw [whole, ← List.drop_drop, List.drop_left]
    rfl
  simp only [closeNest?, length, front, behind]
  rw [List.append_assoc, padded_append aligned, frame, header, List.append_assoc]

/-- A first attribute is its frame where there is room. -/
theorem put?_nil (field : UInt16) (payload : Bytes) :
    put? [] field payload =
      if headerLength + payload.length ≤ maxLength then some (frame field payload) else none :=
  @put?_aligned [] (Nat.dvd_zero 4) field payload

/-- A nest that is opened and closed is the frame of what is in it. -/
theorem closeNest?_openNest (type : UInt16) (inner : Bytes) :
    closeNest? (openNest [] type ++ inner) 0 =
      if headerLength + inner.length ≤ maxLength then some (frame (type ||| nestedFlag) inner)
      else none :=
  @closeNest?_aligned [] (Nat.dvd_zero 4) type inner

/-- What a header announces is read if enough bytes follow. The next attribute starts at a multiple
of four bytes. -/
theorem splitFrom_header {length : Nat} (small : length ≤ maxLength) (field : UInt16)
    (offset : Nat) (tail : Bytes) (read : List RawAttribute) :
    splitFrom offset (header length field ++ tail) read =
      if length < headerLength ∨ tail.length < length - headerLength then
        .error
          { offset, needed := max length headerLength, available := headerLength + tail.length }
      else
        splitFrom (offset + alignUp length) (tail.drop (alignUp length - headerLength))
          (rawOf field (tail.take (length - headerLength)) :: read) := by
  have announced : Bytes.toNat (Bytes.ofNat 2 length) = length := by
    rw [Bytes.toNat_ofNat]
    exact Nat.mod_eq_of_lt (Nat.lt_of_le_of_lt small (by decide))
  have type : Bytes.toNat (Bytes.ofNat 2 field.toNat) = field.toNat := by
    rw [Bytes.toNat_ofNat]
    exact Nat.mod_eq_of_lt field.toNat_lt
  have few : (tail.take (length - headerLength)).length < length - headerLength ↔
      tail.length < length - headerLength := by
    rw [List.length_take]
    omega
  simp only [Bytes.ofNat] at announced type
  simp only [header, Bytes.ofNat, List.cons_append, List.nil_append, splitFrom, announced, type,
    few]
  rfl

/-- An attribute in a stream: its header, its payload, the bytes behind it and the rest. -/
def placed (field : UInt16) (payload fill rest : Bytes) : Bytes :=
  header (headerLength + payload.length) field ++ (payload ++ (fill ++ rest))

/-- The bytes behind a payload fill its last word, or fewer if nothing follows. -/
structure Fills (payload fill rest : Bytes) : Prop where
  within : headerLength + payload.length + fill.length ≤ alignUp (headerLength + payload.length)
  ends : headerLength + payload.length + fill.length < alignUp (headerLength + payload.length) →
    rest = []

/-- Whatever bytes fill its last word, an attribute is read, and then what follows it. -/
theorem splitFrom_filled {payload fill rest : Bytes}
    (fits : headerLength + payload.length ≤ maxLength) (fills : Fills payload fill rest)
    (field : UInt16) (offset : Nat) (read : List RawAttribute) :
    splitFrom offset (placed field payload fill rest) read =
      splitFrom (offset + alignUp (headerLength + payload.length)) rest
        (rawOf field payload :: read) := by
  have room := le_alignUp (headerLength + payload.length)
  have behind : alignUp (headerLength + payload.length) - headerLength =
      payload.length +
        (alignUp (headerLength + payload.length) - (headerLength + payload.length)) := by
    omega
  have next : (fill ++ rest).drop
      (alignUp (headerLength + payload.length) - (headerLength + payload.length)) = rest := by
    have within := fills.within
    by_cases short : headerLength + payload.length + fill.length <
        alignUp (headerLength + payload.length)
    · rw [fills.ends short, List.append_nil, List.drop_eq_nil_iff]
      omega
    · exact List.drop_left' (by omega)
  rw [placed, splitFrom_header fits, if_neg (by simp), Nat.add_sub_cancel_left, List.take_left, behind,
    ← List.drop_drop, List.drop_left, next]

/-- One written attribute is read back, whatever follows it. -/
theorem splitFrom_frame {field : UInt16} {payload : Bytes}
    (fits : headerLength + payload.length ≤ maxLength) (offset : Nat) (rest : Bytes)
    (read : List RawAttribute) :
    splitFrom offset (frame field payload ++ rest) read =
      splitFrom (offset + (frame field payload).length) rest (rawOf field payload :: read) := by
  have room := le_alignUp (headerLength + payload.length)
  rw [length_frame, frame_eq, List.append_assoc, List.append_assoc]
  refine splitFrom_filled fits ⟨?_, fun short => ?_⟩ field offset read
  all_goals
    simp only [Bytes.zeros, List.length_replicate] at *
    omega

/-- A type that leaves room for the flags stands in a header as it is. -/
theorem rawOf_of_lt {type : UInt16} (small : type.toNat < typeBound) (payload : Bytes) :
    rawOf type payload = { type := type.toNat, nested := false, payload } := by
  have unmarked : ¬0x8000 ≤ type.toNat := by
    unfold typeBound at small
    omega
  rw [rawOf, Nat.mod_eq_of_lt small, decide_eq_false unmarked]

/-- The flag of a nest lies outside of the type. -/
theorem rawOf_nested (type : UInt16) (payload : Bytes) :
    rawOf (type ||| nestedFlag) payload =
      { type := type.toNat % typeBound, nested := true, payload } := by
  have marked : 0x8000 ≤ (type ||| nestedFlag).toNat := Nat.right_le_or
  have low : (type.toNat ||| 0x8000) % 2 ^ 14 = type.toNat % 2 ^ 14 ||| 0x8000 % 2 ^ 14 :=
    Nat.or_mod_two_pow
  have kept : (type ||| nestedFlag).toNat % typeBound = type.toNat % typeBound := by
    simpa [typeBound, nestedFlag] using low
  rw [rawOf, kept, decide_eq_true marked]

/-- A stream holds attributes if they are read from it, whatever follows. -/
def Holds (stream : Bytes) (raws : List RawAttribute) : Prop :=
  ∀ offset rest read, splitFrom offset (stream ++ rest) read =
    splitFrom (offset + stream.length) rest (raws.reverse ++ read)

namespace Holds

/-- No bytes hold no attributes. -/
theorem nil : Holds [] [] := fun _ _ _ => rfl

/-- Two streams hold together what each of them holds. -/
theorem append {first second : Bytes} {before after : List RawAttribute}
    (here : Holds first before) (later : Holds second after) :
    Holds (first ++ second) (before ++ after) := by
  intro offset rest read
  rw [List.append_assoc, here, later, List.length_append, Nat.add_assoc, List.reverse_append,
    List.append_assoc]

/-- A frame holds its one attribute. -/
theorem frame {field : UInt16} {payload : Bytes}
    (fits : headerLength + payload.length ≤ maxLength) :
    Holds (frame field payload) [rawOf field payload] :=
  splitFrom_frame fits

/-- Streams hold together what each of them holds. -/
theorem flatten {streams : List Bytes} {parts : List (List RawAttribute)}
    (each : List.Forall₂ Holds streams parts) : Holds streams.flatten parts.flatten := by
  induction each with
  | nil => exact nil
  | cons here _ later => exact here.append later

/-- Streams with one attribute each hold these. -/
theorem flatten_single {streams : List Bytes} {raws : List RawAttribute}
    (each : List.Forall₂ (fun stream raw => Holds stream [raw]) streams raws) :
    Holds streams.flatten raws := by
  have parts := flatten (List.forall₂_map_right_iff.2 each)
  rwa [← List.flatMap_def, List.flatMap_singleton'] at parts

/-- A stream is split into what it holds. -/
theorem split {stream : Bytes} {raws : List RawAttribute} (holds : Holds stream raws) :
    split stream = .ok raws := by
  have all := holds 0 [] []
  rw [List.append_nil, List.append_nil] at all
  rw [Stream.split, all, splitFrom, List.reverse_reverse]

end Holds

/-- A stream carries an attribute if it holds nothing else. Whether the attribute is marked as a
nest does not matter. -/
def Carries (stream : Bytes) (type : Nat) (payload : Bytes) : Prop :=
  ∃ raw, Holds stream [raw] ∧ raw.type = type ∧ raw.payload = payload

end NetlinkFamily.Stream
