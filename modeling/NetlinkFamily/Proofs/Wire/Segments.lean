import NetlinkFamily.Proofs.Wire.Padding

namespace NetlinkFamily

/-- An attribute under a field of 14 bits of type and two flags, the highest one for nests. -/
def RawAttribute.ofField (field : UInt16) (payload : Bytes) : RawAttribute where
  type := (field &&& 0x3fff).toNat
  nested := field.toNat.testBit 15
  payload := payload

namespace Stream

/-- The low 14 bits of a field are what is left of it below the bound of types. -/
theorem toNat_and_mask (field : UInt16) : (field &&& 0x3fff).toNat = field.toNat % typeBound := by
  rw [UInt16.toNat_and]
  exact Nat.and_two_pow_sub_one_eq_mod field.toNat 14

/-- An attribute is made of its field and payload. -/
theorem rawOf_eq_ofField (field : UInt16) (payload : Bytes) :
    rawOf field payload = RawAttribute.ofField field payload := by
  have nested : field.toNat.testBit 15 = decide (0x8000 ≤ field.toNat) := by
    have word : field.toNat < 65536 := field.toNat_lt
    rw [Nat.testBit_eq_decide_div_mod_eq, decide_eq_decide]
    omega
  rw [rawOf, RawAttribute.ofField, toNat_and_mask, nested]

/-- One attribute as it stands in a stream: the field of its type, its payload, and the bytes
between the payload and the next attribute. -/
structure Segment where
  field : UInt16
  payload : Bytes
  fill : Bytes

namespace Segment

/-- What the header of a segment tells as its length. -/
def length (segment : Segment) : Nat :=
  headerLength + segment.payload.length

/-- A segment as it stands in the stream. -/
def bytes (segment : Segment) : Bytes :=
  header segment.length segment.field ++ segment.payload ++ segment.fill

/-- The attribute in a segment. -/
def raw (segment : Segment) : RawAttribute :=
  RawAttribute.ofField segment.field segment.payload

/-- The length fits its field, and the fill goes no further than the next multiple of four. -/
structure WellFormed (segment : Segment) : Prop where
  fits : segment.length ≤ maxLength
  within : segment.length + segment.fill.length ≤ alignUp segment.length

/-- The fill goes up to the next multiple of four. -/
def IsFull (segment : Segment) : Prop :=
  segment.length + segment.fill.length = alignUp segment.length

variable {segment : Segment}

/-- A segment is as long as its length and its filling. -/
theorem length_bytes (segment : Segment) :
    segment.bytes.length = segment.length + segment.fill.length := by
  simp only [bytes, header, length, headerLength, List.length_append, Bytes.length_ofNat]

/-- A segment starts with its header, and what follows stands behind its filling. -/
theorem bytes_append (segment : Segment) (rest : Bytes) :
    segment.bytes ++ rest =
      header segment.length segment.field ++ (segment.payload ++ (segment.fill ++ rest)) := by
  simp only [bytes, List.append_assoc]

/-- A segment has bytes. -/
theorem bytes_append_ne_nil (segment : Segment) (rest : Bytes) : segment.bytes ++ rest ≠ [] := by
  intro empty
  have length := congrArg List.length empty
  rw [List.length_append, length_bytes, Segment.length, headerLength, List.length_nil] at length
  omega

/-- The bytes behind the payload part into the fill and the rest at the next multiple of four, or
there is no rest. -/
theorem fill_parted (wellFormed : segment.WellFormed) {rest : Bytes}
    (full : segment.IsFull ∨ rest = []) :
    (segment.fill ++ rest).take (alignUp segment.length - segment.length) = segment.fill ∧
      (segment.fill ++ rest).drop (alignUp segment.length - segment.length) = rest := by
  have within := wellFormed.within
  cases full with
  | inl full =>
      have width : alignUp segment.length - segment.length = segment.fill.length := by
        rw [IsFull] at full
        omega
      rw [width]
      exact ⟨List.take_left, List.drop_left⟩
  | inr last =>
      rw [last, List.append_nil, List.take_of_length_le (by omega), List.drop_eq_nil_iff]
      exact ⟨rfl, by omega⟩

end Segment

/-- A stream as a list of segments, of which only the last one may lack some of its fill. -/
structure IsCut (segments : List Segment) (data : Bytes) : Prop where
  whole : data = segments.flatMap Segment.bytes
  wellFormed : ∀ segment ∈ segments, segment.WellFormed
  full : ∀ segment ∈ segments.dropLast, segment.IsFull

/-- There are bytes left, and no segment starts with them. -/
structure Blocked (rest : Bytes) : Prop where
  some : rest ≠ []
  none : ∀ (segment : Segment) (behind : Bytes), segment.WellFormed →
    rest ≠ segment.bytes ++ behind

/-- A stream stops behind segments with all of their fill, where no further one starts. -/
structure Stops (before : List Segment) (rest data : Bytes) : Prop where
  whole : data = before.flatMap Segment.bytes ++ rest
  wellFormed : ∀ segment ∈ before, segment.WellFormed
  full : ∀ segment ∈ before, segment.IsFull
  blocked : Blocked rest

/-- The length that a header tells, zero where there is no whole header. -/
def announced (rest : Bytes) : Nat :=
  if rest.length < headerLength then 0 else Bytes.toNat (rest.take 2)

/-- What is told about a stream that stops behind some segments. -/
def stopping (before : List Segment) (rest : Bytes) : Truncation where
  offset := (before.flatMap Segment.bytes).length
  needed := max (announced rest) headerLength
  available := rest.length

variable {segment other : Segment} {segments before : List Segment} {rest data : Bytes}

/-- What follows two headers of lengths that fit is the same only if the headers are. -/
theorem header_append_inj {length otherLength : Nat} {field otherField : UInt16}
    {tail otherTail : Bytes} (small : length ≤ maxLength) (otherSmall : otherLength ≤ maxLength)
    (same : header length field ++ tail = header otherLength otherField ++ otherTail) :
    length = otherLength ∧ field = otherField ∧ tail = otherTail := by
  have word (number : Nat) (bound : number ≤ maxLength) :
      Bytes.toNat (Bytes.ofNat 2 number) = number := by
    rw [Bytes.toNat_ofNat]
    exact Nat.mod_eq_of_lt (Nat.lt_of_le_of_lt bound (by decide))
  have fits (field : UInt16) : field.toNat ≤ maxLength := Nat.le_of_lt_succ field.toNat_lt
  simp only [header, List.append_assoc] at same
  obtain ⟨lengths, behind⟩ := List.append_inj same (by simp)
  obtain ⟨fields, tails⟩ := List.append_inj behind (by simp)
  have lengthSame := congrArg Bytes.toNat lengths
  have fieldSame := congrArg Bytes.toNat fields
  rw [word _ small, word _ otherSmall] at lengthSame
  rw [word _ (fits field), word _ (fits otherField)] at fieldSame
  exact ⟨lengthSame, UInt16.toNat_inj.1 fieldSame, tails⟩

/-- A stream starts with no more than one segment. -/
theorem segment_unique (wellFormed : segment.WellFormed) (full : segment.IsFull ∨ rest = [])
    {otherRest : Bytes} (otherWellFormed : other.WellFormed)
    (otherFull : other.IsFull ∨ otherRest = [])
    (same : segment.bytes ++ rest = other.bytes ++ otherRest) :
    segment = other ∧ rest = otherRest := by
  rw [Segment.bytes_append, Segment.bytes_append] at same
  obtain ⟨lengths, fields, tails⟩ :=
    header_append_inj wellFormed.fits otherWellFormed.fits same
  have payloadLength : segment.payload.length = other.payload.length :=
    Nat.add_left_cancel lengths
  obtain ⟨payloads, behind⟩ := List.append_inj tails payloadLength
  obtain ⟨fill, left⟩ := Segment.fill_parted wellFormed full
  obtain ⟨otherFill, otherLeft⟩ := Segment.fill_parted otherWellFormed otherFull
  rw [behind, lengths] at fill left
  have fills : segment.fill = other.fill := fill.symm.trans otherFill
  constructor
  · cases segment
    cases other
    simp only [Segment.mk.injEq]
    exact ⟨fields, payloads, fills⟩
  · exact left.symm.trans otherLeft

/-- Where a header announces no more than follows, a segment starts. -/
theorem exists_segment {length : Nat} (small : length ≤ maxLength) (field : UInt16) {tail : Bytes}
    (header_fits : headerLength ≤ length) (payload_fits : length - headerLength ≤ tail.length) :
    ∃ (segment : Segment) (rest : Bytes), header length field ++ tail = segment.bytes ++ rest ∧
      segment.WellFormed ∧ (segment.IsFull ∨ rest = []) := by
  have room := le_alignUp length
  let segment : Segment :=
    { field
      payload := tail.take (length - headerLength)
      fill := (tail.drop (length - headerLength)).take (alignUp length - length) }
  have told : segment.length = length := by
    simp only [segment, Segment.length, List.length_take]
    omega
  have fill : segment.fill.length =
      min (alignUp length - length) (tail.length - (length - headerLength)) := by
    simp only [segment, List.length_take, List.length_drop]
  refine ⟨segment, (tail.drop (length - headerLength)).drop (alignUp length - length), ?_,
    ⟨?_, ?_⟩, ?_⟩
  · rw [Segment.bytes_append, told, List.take_append_drop, List.take_append_drop]
  · rw [told]
    exact small
  · rw [told, fill]
    omega
  · rw [Segment.IsFull, told, fill, List.drop_eq_nil_iff, List.length_drop]
    omega

/-- A stream that is not blocked starts with a segment. -/
theorem exists_segment_of_not_blocked (some : data ≠ []) (free : ¬Blocked data) :
    ∃ (segment : Segment) (rest : Bytes), data = segment.bytes ++ rest ∧ segment.WellFormed ∧
      (segment.IsFull ∨ rest = []) := by
  by_contra none
  apply free
  constructor
  · exact some
  · intro segment behind wellFormed same
    rw [Segment.bytes_append] at same
    have within : segment.length - headerLength ≤
        (segment.payload ++ (segment.fill ++ behind)).length := by
      rw [Segment.length, Nat.add_sub_cancel_left, List.length_append]
      exact Nat.le_add_right _ _
    have starts :=
      exists_segment wellFormed.fits segment.field (Nat.le_add_right headerLength _) within
    rw [← same] at starts
    exact none starts

/-- A segment is split off, and the scan goes on behind it. -/
theorem splitFrom_segment (wellFormed : segment.WellFormed) (full : segment.IsFull ∨ rest = [])
    (offset : Nat) (read : List RawAttribute) :
    splitFrom offset (segment.bytes ++ rest) read =
      splitFrom (offset + alignUp segment.length) rest (segment.raw :: read) := by
  have fills : Fills segment.payload segment.fill rest := by
    constructor
    · exact wellFormed.within
    · intro short
      cases full with
      | inl full => exact absurd full (Nat.ne_of_lt short)
      | inr last => exact last
  rw [Segment.bytes_append, Segment.raw, ← rawOf_eq_ofField]
  exact splitFrom_filled wellFormed.fits fills segment.field offset read

/-- Where no segment starts, the scan stops. -/
theorem splitFrom_blocked (blocked : Blocked rest) (offset : Nat) (read : List RawAttribute) :
    splitFrom offset rest read =
      .error
        { offset, needed := max (announced rest) headerLength, available := rest.length } := by
  match rest, blocked with
  | [], blocked => exact absurd rfl blocked.some
  | [_], _ | [_, _], _ | [_, _, _], _ => simp [splitFrom, announced, headerLength]
  | a :: b :: c :: d :: tail, blocked =>
      obtain ⟨field, _, headed⟩ := exists_header a b c d
      have small : Bytes.toNat [a, b] ≤ maxLength := toNat_word_le a b
      have whole : a :: b :: c :: d :: tail = header (Bytes.toNat [a, b]) field ++ tail := by
        rw [← headed]
        rfl
      have told : announced (a :: b :: c :: d :: tail) = Bytes.toNat [a, b] := by
        rw [announced, if_neg (by simp [headerLength])]
        rfl
      have short : Bytes.toNat [a, b] < headerLength ∨
          tail.length < Bytes.toNat [a, b] - headerLength := by
        by_contra fits
        obtain ⟨header_fits, payload_fits⟩ := not_or.1 fits
        obtain ⟨segment, behind, starts, wellFormed, _⟩ :=
          exists_segment small field (Nat.le_of_not_lt header_fits) (Nat.le_of_not_lt payload_fits)
        exact blocked.none segment behind wellFormed (whole.trans starts)
      rw [told, whole, splitFrom_header small, if_pos short, List.length_append]
      simp [header, headerLength]

/-- No bytes are cut into no segments. -/
theorem isCut_nil_iff : IsCut segments [] ↔ segments = [] := by
  constructor
  · intro cut
    cases segments with
    | nil => rfl
    | cons segment later => exact absurd cut.whole.symm (Segment.bytes_append_ne_nil segment _)
  · rintro rfl
    exact ⟨rfl, by simp, by simp⟩

/-- A cut of a stream is a segment in front of a cut of the rest. -/
theorem isCut_cons_iff :
    IsCut (segment :: segments) data ↔ ∃ rest, data = segment.bytes ++ rest ∧
      segment.WellFormed ∧ (segment.IsFull ∨ rest = []) ∧ IsCut segments rest := by
  constructor
  · intro cut
    obtain ⟨here, later⟩ := List.forall_mem_cons.1 cut.wellFormed
    refine ⟨segments.flatMap Segment.bytes, cut.whole, here, ?_, rfl, later, ?_⟩
    · cases segments with
      | nil => exact .inr rfl
      | cons next others => exact .inl (cut.full segment (by simp))
    · intro other member
      apply cut.full
      cases segments with
      | nil => cases member
      | cons next others => exact List.mem_cons_of_mem _ member
  · rintro ⟨rest, rfl, wellFormed, full, cut⟩
    refine ⟨by rw [List.flatMap_cons, ← cut.whole],
      List.forall_mem_cons.2 ⟨wellFormed, cut.wellFormed⟩, ?_⟩
    cases segments with
    | nil => simp
    | cons next others =>
        have more : rest ≠ [] := by
          rw [cut.whole]
          exact Segment.bytes_append_ne_nil next _
        exact List.forall_mem_cons.2 ⟨full.resolve_right more, cut.full⟩

/-- By induction on the segments: each one is all that the stream can start with. -/
theorem isCut_unique {others : List Segment} (cut : IsCut segments data)
    (otherCut : IsCut others data) : segments = others := by
  induction segments generalizing others data with
  | nil =>
      rw [cut.whole] at otherCut
      exact (isCut_nil_iff.1 otherCut).symm
  | cons segment segments ih =>
      obtain ⟨rest, whole, wellFormed, full, later⟩ := isCut_cons_iff.1 cut
      cases others with
      | nil =>
          have empty := whole.symm.trans otherCut.whole
          exact absurd empty (Segment.bytes_append_ne_nil segment rest)
      | cons other others =>
          obtain ⟨otherRest, otherWhole, otherWellFormed, otherFull, otherLater⟩ :=
            isCut_cons_iff.1 otherCut
          obtain ⟨rfl, rfl⟩ :=
            segment_unique wellFormed full otherWellFormed otherFull (whole.symm.trans otherWhole)
          rw [ih later otherLater]

/-- Every stream has a cut or stops. By induction on its length, segment by segment. -/
theorem exists_isCut_or_stops (data : Bytes) :
    (∃ segments, IsCut segments data) ∨ ∃ before rest, Stops before rest data := by
  induction length : data.length using Nat.strongRecOn generalizing data with
  | ind length ih =>
      subst length
      by_cases empty : data = []
      · exact .inl ⟨[], empty ▸ isCut_nil_iff.2 rfl⟩
      · by_cases blocked : Blocked data
        · exact .inr ⟨[], data, rfl, by simp, by simp, blocked⟩
        · obtain ⟨segment, rest, whole, wellFormed, full⟩ :=
            exists_segment_of_not_blocked empty blocked
          have shorter : rest.length < data.length := by
            rw [whole, List.length_append, Segment.length_bytes, Segment.length,
              headerLength]
            omega
          obtain ⟨segments, cut⟩ | ⟨before, left, stops⟩ := ih rest.length shorter rest rfl
          · exact .inl ⟨segment :: segments,
              isCut_cons_iff.2 ⟨rest, whole, wellFormed, full, cut⟩⟩
          · have more : rest ≠ [] := by
              intro nothing
              rw [nothing] at stops
              exact stops.blocked.some (List.append_eq_nil_iff.1 stops.whole.symm).2
            refine .inr ⟨segment :: before, left, ?_, ?_, ?_, stops.blocked⟩
            · rw [whole, stops.whole, List.flatMap_cons, List.append_assoc]
            · exact List.forall_mem_cons.2 ⟨wellFormed, stops.wellFormed⟩
            · exact List.forall_mem_cons.2 ⟨full.resolve_right more, stops.full⟩

/-- A stream that is cut is split into the attributes of the segments. -/
theorem splitFrom_of_isCut (cut : IsCut segments data) (offset : Nat) (read : List RawAttribute) :
    splitFrom offset data read = .ok (read.reverse ++ segments.map Segment.raw) := by
  induction segments generalizing data offset read with
  | nil => rw [cut.whole, List.flatMap_nil, splitFrom, List.map_nil, List.append_nil]
  | cons segment segments ih =>
      obtain ⟨rest, rfl, wellFormed, full, later⟩ := isCut_cons_iff.1 cut
      rw [splitFrom_segment wellFormed full, ih later, List.reverse_cons, List.append_assoc,
        List.map_cons, List.singleton_append]

/-- Behind segments with all of their fill, the scan is at the end of their bytes. -/
theorem splitFrom_before (wellFormed : ∀ segment ∈ before, segment.WellFormed)
    (full : ∀ segment ∈ before, segment.IsFull) (rest : Bytes) (offset : Nat)
    (read : List RawAttribute) :
    splitFrom offset (before.flatMap Segment.bytes ++ rest) read =
      splitFrom (offset + (before.flatMap Segment.bytes).length) rest
        ((before.map Segment.raw).reverse ++ read) := by
  induction before generalizing offset read with
  | nil => rfl
  | cons segment before ih =>
      obtain ⟨here, later⟩ := List.forall_mem_cons.1 wellFormed
      obtain ⟨hereFull, laterFull⟩ := List.forall_mem_cons.1 full
      have length : segment.bytes.length = alignUp segment.length := by
        rw [Segment.length_bytes, hereFull]
      rw [List.flatMap_cons, List.append_assoc, splitFrom_segment here (.inl hereFull),
        ih later laterFull, List.length_append, length, Nat.add_assoc]
      simp

/-- A stream that stops is refused where it does. -/
theorem split_of_stops (stops : Stops before rest data) :
    split data = .error (stopping before rest) := by
  rw [split, stops.whole, splitFrom_before stops.wellFormed stops.full, Nat.zero_add,
    splitFrom_blocked stops.blocked, stopping]

/-- Full segments are aligned. -/
theorem dvd_offset_of_full (full : ∀ segment ∈ before, segment.IsFull) :
    4 ∣ (before.flatMap Segment.bytes).length := by
  induction before with
  | nil => exact Nat.dvd_zero 4
  | cons segment before ih =>
      obtain ⟨here, later⟩ := List.forall_mem_cons.1 full
      rw [List.flatMap_cons, List.length_append, Segment.length_bytes, here]
      exact Nat.dvd_add (Nat.dvd_mul_left _ _) (ih later)

/-- A stream is split exactly if it can be cut into segments, and then into the attributes of
these. There is no more than one cut. Without one, the scan fails at the start of the first bytes
that no segment starts with, which is a multiple of four. -/
theorem split_grammar (data : Bytes) :
    (∀ attrs, split data = .ok attrs ↔
        ∃ segments, IsCut segments data ∧ attrs = segments.map Segment.raw) ∧
      (∀ segments others, IsCut segments data → IsCut others data → segments = others) ∧
      ∀ truncation, split data = .error truncation ↔
        ∃ before rest, Stops before rest data ∧ 4 ∣ truncation.offset ∧
          truncation = stopping before rest := by
  have done {segments : List Segment} (cut : IsCut segments data) :
      split data = .ok (segments.map Segment.raw) := splitFrom_of_isCut cut 0 []
  refine ⟨fun attrs => ⟨fun parted => ?_, ?_⟩, fun _ _ => isCut_unique,
    fun truncation => ⟨fun failed => ?_, ?_⟩⟩
  · obtain ⟨segments, cut⟩ | ⟨before, rest, stops⟩ := exists_isCut_or_stops data
    · exact ⟨segments, cut, Except.ok.inj (parted.symm.trans (done cut))⟩
    · cases parted.symm.trans (split_of_stops stops)
  · rintro ⟨segments, cut, rfl⟩
    exact done cut
  · obtain ⟨segments, cut⟩ | ⟨before, rest, stops⟩ := exists_isCut_or_stops data
    · cases failed.symm.trans (done cut)
    · have told := Except.error.inj (failed.symm.trans (split_of_stops stops))
      refine ⟨before, rest, stops, ?_, told⟩
      rw [told]
      exact dvd_offset_of_full stops.full
  · rintro ⟨before, rest, stops, -, rfl⟩
    exact split_of_stops stops

end Stream

end NetlinkFamily
