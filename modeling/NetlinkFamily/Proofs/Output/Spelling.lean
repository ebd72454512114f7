import NetlinkFamily.CName

namespace NetlinkFamily

namespace Text

/-- A hyphen is no part of a word. -/
theorem startsCased_hyphen (rest : List Char) : startsCased ('-' :: rest) = false := by
  have seen : inRanges caseIgnorableRanges '-' = false := by decide +kernel
  have uncased : inRanges casedRanges '-' = false := by decide +kernel
  simp [startsCased, seen, uncased]

/-- What stands behind a hyphen does not matter to the case in front. -/
theorem startsCased_append_hyphen (chars rest : List Char) :
    startsCased (chars ++ '-' :: rest) = startsCased chars := by
  induction chars with
  | nil => exact startsCased_hyphen rest
  | cons c chars ih => simp only [List.cons_append, startsCased, ih]

/-- What stands in front of a hyphen has no effect on what follows. -/
theorem lowerFrom_behind_hyphen (chars near far : List Char) :
    lowerFrom (near ++ '-' :: far) chars = lowerFrom near chars := by
  induction chars generalizing near with
  | nil => rfl
  | cons c chars ih =>
      have later := ih (c :: near)
      rw [List.cons_append] at later
      simp only [lowerFrom, startsCased_append_hyphen, later]

/-- A name is lowered on both sides of a hyphen alike. -/
theorem lowerFrom_append_hyphen (first second before : List Char) :
    lowerFrom before (first ++ '-' :: second) =
      lowerFrom before first ++ '-' :: lowerFrom [] second := by
  induction first generalizing before with
  | nil =>
      have behind := lowerFrom_behind_hyphen second [] before
      have kept : (if '-' = 'Σ' then
          if startsCased before && !startsCased second then ['ς'] else ['σ']
        else lowerChar '-') = ['-'] := rfl
      rw [List.nil_append] at behind
      simp only [List.nil_append, lowerFrom, behind, kept]
      rfl
  | cons c first ih =>
      simp only [List.cons_append, lowerFrom, startsCased_append_hyphen, ih, List.append_assoc]

/-- Both halves around a hyphen are lowered on their own. -/
theorem lower_hyphen (first second : String) :
    lower (first ++ "-" ++ second) = lower first ++ "-" ++ lower second := by
  have joined : (first ++ "-" ++ second).toList = first.toList ++ '-' :: second.toList := by
    simp
  rw [lower, joined, lowerFrom_append_hyphen, lower, lower]
  apply String.toList_inj.1
  simp

end Text

namespace CName

/-- Both halves of a name are underscored on their own. -/
theorem underscored_append (first second : String) :
    underscored (first ++ second) = underscored first ++ underscored second := by
  apply String.toList_inj.1
  simp [underscored]

/-- A name with hyphens is spelled with underscores between its parts. -/
theorem lower_hyphen (first second : String) :
    lower (first ++ "-" ++ second) = lower first ++ "_" ++ lower second := by
  have hyphen : underscored "-" = "_" := by decide +kernel
  rw [lower, Text.lower_hyphen, underscored_append, underscored_append, hyphen]
  rfl

end CName

end NetlinkFamily
