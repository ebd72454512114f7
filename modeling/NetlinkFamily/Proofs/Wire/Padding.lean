import NetlinkFamily.Proofs.Wire.Frames

namespace NetlinkFamily.Stream

/-- The attributes of a stream are appended to those already read, whichever these are. -/
theorem splitFrom_read (offset : Nat) (data : Bytes) (read : List RawAttribute) :
    (∃ truncation, ∀ read, splitFrom offset data read = .error truncation) ∨
      ∃ found, ∀ read, splitFrom offset data read = .ok (read.reverse ++ found) := by
  induction offset, data, read using splitFrom.induct with
  | case1 offset read =>
      exact .inr ⟨[], fun read => by rw [splitFrom, List.append_nil]⟩
  | case2 offset read a b c d rest length payload bad =>
      exact .inl ⟨_, fun read => by rw [splitFrom, if_pos bad]⟩
  | case3 offset read a b c d rest length field payload good ih =>
      rcases ih with ⟨truncation, fails⟩ | ⟨found, done⟩
      · exact .inl ⟨truncation, fun read => by rw [splitFrom, if_neg good, fails]⟩
      · exact .inr ⟨_ :: found, fun read => by
          rw [splitFrom, if_neg good, done, List.reverse_cons, List.append_assoc,
            List.singleton_append]⟩
  | case4 offset data read notNil notLong =>
      exact .inl ⟨_, fun read => splitFrom.eq_3 _ _ _ notNil notLong⟩

/-- The length of a stream up to the end of its last payload. -/
def occupied : List RawAttribute → Nat
  | [] => 0
  | [raw] => headerLength + raw.payload.length
  | raw :: next :: rest =>
      alignUp (headerLength + raw.payload.length) + occupied (next :: rest)

/-- An attribute with others behind it takes its length, aligned. -/
theorem occupied_cons {raw : RawAttribute} {rest : List RawAttribute} (more : rest ≠ []) :
    occupied (raw :: rest) = alignUp (headerLength + raw.payload.length) + occupied rest := by
  cases rest with
  | nil => exact absurd rfl more
  | cons next rest => rfl

/-- Attributes take a header at least. -/
theorem headerLength_le_occupied {attrs : List RawAttribute} (some : attrs ≠ []) :
    headerLength ≤ occupied attrs := by
  match attrs with
  | [] => exact absurd rfl some
  | [raw] => exact Nat.le_add_right _ _
  | raw :: next :: rest =>
      have room := le_alignUp (headerLength + raw.payload.length)
      rw [occupied]
      omega

/-- Behind an aligned start, alignment is that of what follows. -/
theorem alignUp_add (before length : Nat) :
    alignUp (alignUp before + length) = alignUp before + alignUp length := by
  unfold alignUp
  omega

/-- The attributes that are found in a stream reach up to its padding, and without the padding the
same attributes are found. -/
structure Unpadded (offset : Nat) (data : Bytes) (read found : List RawAttribute) : Prop where
  within : occupied found ≤ data.length
  padding : data.length ≤ alignUp (occupied found)
  again : splitFrom offset (data.take (occupied found)) read = .ok (read.reverse ++ found)

/-- A length of two bytes is within the maximum. -/
theorem toNat_word_le (low high : UInt8) : Bytes.toNat [low, high] ≤ maxLength := by
  have bound := Bytes.toNat_lt [low, high]
  simp only [List.length_cons, List.length_nil, Nat.pow_eq] at bound
  simp only [maxLength, UInt16.size]
  omega

/-- Any four bytes are a header. -/
theorem exists_header (a b c d : UInt8) :
    ∃ field : UInt16, field.toNat = Bytes.toNat [c, d] ∧
      [a, b, c, d] = header (Bytes.toNat [a, b]) field := by
  have word : Bytes.toNat [c, d] < UInt16.size := Nat.lt_of_le_of_lt (toNat_word_le c d) (by decide)
  refine ⟨UInt16.ofNatLT (Bytes.toNat [c, d]) word, UInt16.toNat_ofNatLT .., ?_⟩
  have length := Bytes.ofNat_toNat [a, b]
  have type := Bytes.ofNat_toNat [c, d]
  simp only [List.length_cons, List.length_nil] at length type
  rw [header, UInt16.toNat_ofNatLT, length, type]
  rfl

/-- A stream that is cut off behind its first attribute still starts with that attribute. -/
theorem splitFrom_take {length total : Nat} {field : UInt16} {tail : Bytes}
    (small : length ≤ maxLength) (header_fits : headerLength ≤ length)
    (payload_fits : length - headerLength ≤ tail.length) (covered : length ≤ total)
    (offset : Nat) (read : List RawAttribute) :
    splitFrom offset ((header length field ++ tail).take total) read =
      splitFrom (offset + alignUp length)
        ((tail.drop (alignUp length - headerLength)).take (total - alignUp length))
        (rawOf field (tail.take (length - headerLength)) :: read) := by
  have four : (header length field).length = headerLength := by simp [header, headerLength]
  have room := le_alignUp length
  have cut : (header length field ++ tail).take total =
      header length field ++ tail.take (total - headerLength) := by
    rw [List.take_append, four, List.take_of_length_le (by omega)]
  have payload : (tail.take (total - headerLength)).take (length - headerLength) =
      tail.take (length - headerLength) := by
    rw [List.take_take, Nat.min_eq_left (by omega)]
  have rest : (tail.take (total - headerLength)).drop (alignUp length - headerLength) =
      (tail.drop (alignUp length - headerLength)).take (total - alignUp length) := by
    rw [List.drop_take]
    congr 1
    omega
  rw [cut, splitFrom_header small, if_neg, payload, rest]
  rw [List.length_take]
  omega

/-- If what lies behind an attribute goes no further than its padding, then neither does the whole
stream. -/
theorem occupied_bounds {raw : RawAttribute} {found : List RawAttribute} {length behind : Nat}
    (exact : headerLength + raw.payload.length = length)
    (fits : length - headerLength ≤ behind)
    (within : occupied found ≤ behind - (alignUp length - headerLength))
    (padding : behind - (alignUp length - headerLength) ≤ alignUp (occupied found)) :
    length ≤ occupied (raw :: found) ∧
      occupied (raw :: found) - alignUp length = occupied found ∧
      occupied (raw :: found) ≤ behind + headerLength ∧
      behind + headerLength ≤ alignUp (occupied (raw :: found)) := by
  have room := le_alignUp length
  by_cases last : found = []
  · subst last
    have alone : occupied [raw] = length := exact
    have nothing : alignUp (occupied []) = 0 := rfl
    have zero : occupied [] = 0 := rfl
    rw [alone]
    omega
  · have some := headerLength_le_occupied last
    have more : occupied (raw :: found) = alignUp length + occupied found := by
      rw [occupied_cons last, exact]
    rw [more, alignUp_add]
    simp only [headerLength] at *
    omega

/-- By induction on the stream, attribute by attribute. -/
theorem splitFrom_unpadded {offset : Nat} {data : Bytes} {read attrs : List RawAttribute}
    (done : splitFrom offset data read = .ok attrs) :
    ∃ found, attrs = read.reverse ++ found ∧ Unpadded offset data read found := by
  induction offset, data, read using splitFrom.induct with
  | case1 offset read =>
      have same : attrs = read.reverse := by
        rw [splitFrom] at done
        exact (Except.ok.inj done).symm
      exact ⟨[], by rw [same, List.append_nil],
        ⟨Nat.le_refl _, Nat.zero_le _, by rw [List.take_nil, splitFrom, List.append_nil]⟩⟩
  | case2 offset read a b c d rest length payload bad =>
      rw [splitFrom, if_pos bad] at done
      cases done
  | case3 offset read a b c d rest length field payload good ih =>
      rw [splitFrom, if_neg good] at done
      obtain ⟨found, rfl, ⟨within, padding, again⟩⟩ := ih done
      obtain ⟨type, typed, headed⟩ := exists_header a b c d
      have whole : a :: b :: c :: d :: rest = header length type ++ rest := by
        rw [← headed]
        rfl
      have same : ({ type := field % typeBound, nested := 0x8000 ≤ field, payload } :
          RawAttribute) = rawOf type payload := by
        simp only [rawOf, typed, field]
      obtain ⟨header_fits, short⟩ := not_or.1 good
      rw [List.length_take] at short
      have payload_fits : length - headerLength ≤ rest.length := by omega
      have exact : headerLength + (rawOf type payload).payload.length = length := by
        show headerLength + payload.length = length
        rw [List.length_take, Nat.min_eq_left payload_fits]
        omega
      rw [List.length_drop] at within padding
      rw [same] at again ⊢
      obtain ⟨covered, left, inside, beyond⟩ := occupied_bounds exact payload_fits within padding
      refine ⟨rawOf type payload :: found, by simp, ⟨inside, beyond, ?_⟩⟩
      rw [whole, splitFrom_take (toNat_word_le a b) (Nat.le_of_not_lt header_fits) payload_fits
        covered, left]
      simpa using again
  | case4 offset data read notNil notLong =>
      rw [splitFrom] at done
      · cases done
      · exact notNil
      · exact notLong

/-- A stream may lack the padding of its last attribute. -/
theorem split_unpadded {data : Bytes} {attrs : List RawAttribute} (done : split data = .ok attrs) :
    occupied attrs ≤ data.length ∧ data.length ≤ alignUp (occupied attrs) ∧
      split (data.take (occupied attrs)) = .ok attrs := by
  obtain ⟨found, rfl, ⟨within, padding, again⟩⟩ := splitFrom_unpadded done
  exact ⟨within, padding, again⟩

/-- An attribute with all of its padding is read, whatever follows it. -/
theorem Holds.placed {field : UInt16} {payload fill : Bytes}
    (fits : headerLength + payload.length ≤ maxLength)
    (full : headerLength + payload.length + fill.length =
      alignUp (headerLength + payload.length)) :
    Holds (placed field payload fill []) [rawOf field payload] := by
  intro offset rest read
  have whole : Stream.placed field payload fill [] ++ rest =
      Stream.placed field payload fill rest := by
    simp [Stream.placed]
  have length : (Stream.placed field payload fill []).length =
      alignUp (headerLength + payload.length) := by
    rw [← full]
    simp [Stream.placed, header, headerLength]
    omega
  rw [whole, length, splitFrom_filled fits ⟨Nat.le_of_eq full, fun short => ?_⟩]
  · rfl
  · omega

/-- Up to a multiple of four bytes, an attribute stands there with all of its padding. -/
theorem eq_placed {length : Nat} (field : UInt16) {tail : Bytes}
    (header_fits : headerLength ≤ length) (payload_fits : length - headerLength ≤ tail.length)
    (aligned : 4 ∣ headerLength + tail.length) :
    ∃ fill,
      headerLength + (tail.take (length - headerLength)).length + fill.length =
        alignUp (headerLength + (tail.take (length - headerLength)).length) ∧
      header length field ++ tail =
        placed field (tail.take (length - headerLength)) fill [] ++
          tail.drop (alignUp length - headerLength) := by
  have room := le_alignUp length
  have covered : alignUp length ≤ headerLength + tail.length := by
    obtain ⟨words, count⟩ := aligned
    unfold alignUp
    omega
  have payload : (tail.take (length - headerLength)).length = length - headerLength := by
    rw [List.length_take, Nat.min_eq_left payload_fits]
  have whole : headerLength + (length - headerLength) = length := by omega
  refine ⟨(tail.drop (length - headerLength)).take (alignUp length - length), ?_, ?_⟩
  · rw [payload, whole, List.length_take, List.length_drop]
    omega
  · have behind : alignUp length - headerLength =
        length - headerLength + (alignUp length - length) := by omega
    rw [placed, payload, whole, behind, ← List.drop_drop, List.append_nil, List.append_assoc,
      List.append_assoc, List.take_append_drop, List.take_append_drop]

/-- By induction on the stream, attribute by attribute. -/
theorem holds_of_splitFrom {offset : Nat} {data : Bytes} {read attrs : List RawAttribute}
    (aligned : 4 ∣ data.length) (done : splitFrom offset data read = .ok attrs) :
    ∃ found, attrs = read.reverse ++ found ∧ Holds data found := by
  induction offset, data, read using splitFrom.induct with
  | case1 offset read =>
      rw [splitFrom] at done
      exact ⟨[], by rw [← Except.ok.inj done, List.append_nil], .nil⟩
  | case2 offset read a b c d rest length payload bad =>
      rw [splitFrom, if_pos bad] at done
      cases done
  | case3 offset read a b c d rest length field payload good ih =>
      rw [splitFrom, if_neg good] at done
      obtain ⟨type, typed, headed⟩ := exists_header a b c d
      have same : ({ type := field % typeBound, nested := 0x8000 ≤ field, payload } :
          RawAttribute) = rawOf type payload := by
        simp only [rawOf, typed, field]
      obtain ⟨header_fits, short⟩ := not_or.1 good
      have small : length ≤ maxLength := toNat_word_le a b
      rw [List.length_take] at short
      have payload_fits : length - headerLength ≤ rest.length := by omega
      have words : 4 ∣ headerLength + rest.length := by
        rw [List.length_cons, List.length_cons, List.length_cons, List.length_cons] at aligned
        simp only [headerLength]
        omega
      obtain ⟨fill, full, parted⟩ := eq_placed type (Nat.le_of_not_lt header_fits) payload_fits words
      have behind : 4 ∣ (rest.drop (alignUp length - headerLength)).length := by
        rw [List.length_drop]
        simp only [headerLength, alignUp] at words ⊢
        omega
      obtain ⟨found, rfl, later⟩ := ih behind done
      have fits : headerLength + payload.length ≤ maxLength := by
        rw [List.length_take]
        omega
      refine ⟨rawOf type payload :: found, by simp [same], ?_⟩
      have whole : a :: b :: c :: d :: rest = header length type ++ rest := by
        rw [← headed]
        rfl
      rw [whole, parted]
      exact (Holds.placed fits full).append later
  | case4 offset data read notNil notLong =>
      rw [splitFrom] at done
      · cases done
      · exact notNil
      · exact notLong

/-- A stream that ends with all of its padding may be followed by another one. -/
theorem holds_of_split {data : Bytes} {attrs : List RawAttribute} (aligned : 4 ∣ data.length)
    (done : split data = .ok attrs) : Holds data attrs := by
  obtain ⟨found, rfl, holds⟩ := holds_of_splitFrom aligned done
  exact holds

/-- Attributes are found wherever their stream starts and whatever was read before it. -/
theorem splitFrom_anywhere {offset : Nat} {data : Bytes} {read attrs : List RawAttribute}
    (done : splitFrom offset data read = .ok attrs) :
    ∃ found, attrs = read.reverse ++ found ∧
      ∀ start before, splitFrom start data before = .ok (before.reverse ++ found) := by
  induction offset, data, read using splitFrom.induct with
  | case1 offset read =>
      rw [splitFrom] at done
      exact ⟨[], by rw [← Except.ok.inj done, List.append_nil],
        fun start before => by rw [splitFrom, List.append_nil]⟩
  | case2 offset read a b c d rest length payload bad =>
      rw [splitFrom, if_pos bad] at done
      cases done
  | case3 offset read a b c d rest length field payload good ih =>
      rw [splitFrom, if_neg good] at done
      obtain ⟨found, rfl, anywhere⟩ := ih done
      refine ⟨_ :: found, by rw [List.reverse_cons, List.append_assoc, List.singleton_append],
        fun start before => ?_⟩
      rw [splitFrom, if_neg good, anywhere, List.reverse_cons, List.append_assoc,
        List.singleton_append]
  | case4 offset data read notNil notLong =>
      rw [splitFrom] at done
      · cases done
      · exact notNil
      · exact notLong

/-- A stream with an aligned first half is split half by half. -/
theorem split_append {first second : Bytes} {before after : List RawAttribute}
    (aligned : 4 ∣ first.length) (here : split first = .ok before)
    (later : split second = .ok after) : split (first ++ second) = .ok (before ++ after) := by
  obtain ⟨found, rfl, anywhere⟩ := splitFrom_anywhere later
  have reached := holds_of_split aligned here 0 second []
  rw [split, reached, anywhere]
  simp

end NetlinkFamily.Stream
