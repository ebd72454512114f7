import NetlinkFamily.Wire.Bytes

namespace NetlinkFamily

/-- A text up to its first NUL character. -/
def Text.untilNul (text : String) : String :=
  String.ofList (text.toList.takeWhile (· ≠ '\x00'))

namespace Bytes

/-- The bytes of a text are those of its characters. -/
theorem ofText_eq_flatMap (text : String) :
    ofText text = text.toList.flatMap String.utf8EncodeChar := by
  rw [ofText, String.toUTF8_eq_toByteArray, ← String.utf8Encode_toList]
  simp [List.utf8Encode]

/-- The texts that bytes hold are those with these bytes. -/
theorem toText?_eq_some_iff {bytes : Bytes} {text : String} :
    toText? bytes = some text ↔ bytes = ofText text := by
  have whole (array : ByteArray) : (⟨array.data.toList.toArray⟩ : ByteArray) = array := by simp
  unfold toText? String.fromUTF8?
  constructor
  · intro found
    split at found
    · cases found
      simp [ofText, String.fromUTF8]
    · cases found
  · rintro rfl
    have valid : (⟨(ofText text).toArray⟩ : ByteArray).IsValidUTF8 := by
      rw [ofText, whole, String.toUTF8_eq_toByteArray]
      exact text.isValidUTF8
    rw [dif_pos valid]
    rfl

/-- The bytes of a text are read back as the text. -/
theorem toText?_ofText (text : String) : toText? (ofText text) = some text :=
  toText?_eq_some_iff.2 rfl

/-- Only the NUL character has a zero byte in its encoding. -/
theorem zero_notMem_utf8EncodeChar {c : Char} (notNul : c ≠ '\x00') :
    0 ∉ String.utf8EncodeChar c := by
  have positive : c.val.toNat ≠ 0 := fun zero =>
    notNul (Char.ext (UInt32.toNat_inj.1 zero))
  have nonzero {n : Nat} (low : n % 256 ≠ 0) : (0 : UInt8) ≠ UInt8.ofNat n := fun same =>
    low (by simpa using congrArg UInt8.toNat same.symm)
  unfold String.utf8EncodeChar
  dsimp only
  split
  · simp only [List.mem_cons, List.not_mem_nil, or_false]
    exact nonzero (by omega)
  · split
    · simp only [List.mem_cons, List.not_mem_nil, or_false, not_or]
      exact ⟨nonzero (by omega), nonzero (by omega)⟩
    · split
      · simp only [List.mem_cons, List.not_mem_nil, or_false, not_or]
        exact ⟨nonzero (by omega), nonzero (by omega), nonzero (by omega)⟩
      · simp only [List.mem_cons, List.not_mem_nil, or_false, not_or]
        exact ⟨nonzero (by omega), nonzero (by omega), nonzero (by omega), nonzero (by omega)⟩

/-- The cut at the first zero byte is the cut at the first NUL character. -/
theorem untilZero_ofText_append (text : String) (rest : Bytes) (ended : rest.untilZero = []) :
    untilZero (ofText text ++ rest) = ofText (Text.untilNul text) := by
  have cut (cs : List Char) :
      (cs.flatMap String.utf8EncodeChar ++ rest).takeWhile (· != 0) =
        (cs.takeWhile (· ≠ '\x00')).flatMap String.utf8EncodeChar := by
    induction cs with
    | nil => simpa [untilZero] using ended
    | cons c cs ih =>
        rw [List.flatMap_cons, List.append_assoc]
        by_cases nul : c = '\x00'
        · subst nul
          have encoded : String.utf8EncodeChar '\x00' = [0] := by decide
          simp [encoded]
        · have kept : ∀ byte ∈ String.utf8EncodeChar c, (byte != 0) = true := by
            intro byte member
            have different : byte ≠ 0 := fun zero => zero_notMem_utf8EncodeChar nul (zero ▸ member)
            simpa using different
          rw [List.takeWhile_append_of_pos kept, ih]
          simp [nul]
  rw [ofText_eq_flatMap, ofText_eq_flatMap, Text.untilNul, String.toList_ofList, untilZero]
  exact cut text.toList

end Bytes

end NetlinkFamily
