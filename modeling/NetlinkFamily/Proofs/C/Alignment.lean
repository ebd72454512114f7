import Mathlib.Data.List.Forall2
import NetlinkFamily.C.Alignment
import NetlinkFamily.Proofs.C.Columns
import NetlinkFamily.Proofs.C.Printing

namespace NetlinkFamily.C

open Piece (spacing)
open Writer (line_ordinary)

/-- A text that stays on its line and has no tabs. -/
def IsBare (text : String) : Prop :=
  '\t' ∉ text.toList ∧ '\n' ∉ text.toList

instance (text : String) : Decidable (IsBare text) :=
  inferInstanceAs (Decidable ('\t' ∉ text.toList ∧ '\n' ∉ text.toList))

/-- Two bare texts are bare together. -/
theorem IsBare.append {first second : String} (left : IsBare first) (right : IsBare second) :
    IsBare (first ++ second) := by
  simp [IsBare, left.1, left.2, right.1, right.2]

/-- A line with a value that starts in some column, behind a text and at least one tab. -/
def Places (column : Nat) (text value line : String) : Prop :=
  ∃ count, 0 < count ∧ line = text ++ tabs count ++ value ∧
    columns (text ++ tabs count) = column ∧ '\n' ∉ text.toList

/-- Lines that a writer prints at its depth, behind what it has printed. Each holds a text and a
value, and all values start in one column. -/
structure Aligns (writer : Writer) (column : Nat) (entries : List (String × String))
    (lines : List String) : Prop where
  printed : (Code.writeAll writer (lines.map .line)).printed =
    writer.printed ++ (if lines.isEmpty then [] else spacing writer.blank) ++
      lines.map (tabs writer.depth ++ ·)
  placed : List.Forall₂
    (fun entry line =>
      Places column (tabs writer.depth ++ entry.1) entry.2 (tabs writer.depth ++ line))
    entries lines

/-- No text is wider than the widest. -/
theorem width_le_widest {text : String} {texts : List String} (member : text ∈ texts) :
    width text ≤ widest texts := by
  have greatest : (0 :: texts.map width).max? = some (widest texts) := List.max?_cons'
  exact (List.max?_eq_some_iff.1 greatest).2 _ (List.mem_cons_of_mem _ (List.mem_map_of_mem member))

/-- The next tab stop lies behind. -/
theorem lt_tabStop (count : Nat) : count < tabStop count := by
  unfold tabStop
  omega

/-- Each tab leads to the next tab stop. -/
theorem columns_append_tabs (text : String) {count : Nat} (some : 0 < count) :
    columns (text ++ tabs count) = 8 * (columns text / 8 + count) := by
  obtain ⟨others, rfl⟩ : ∃ others, count = others + 1 := ⟨count - 1, by omega⟩
  have next : advance (columns text) '\t' = 8 * (columns text / 8 + 1) := by
    simp [advance]
    omega
  have first : (text ++ tabs (others + 1)).toList =
      text.toList ++ '\t' :: List.replicate others '\t' := by
    simp [tabs, List.replicate_succ]
  rw [columns, first, List.foldl_append, List.foldl_cons, ← columns, next, foldl_advance_tabs]
  omega

/-- Tabs lead from any column to the tab stop that they were counted for. -/
theorem columns_append_tabsTo {text : String} {start column : Nat} (level : Nat)
    (reached : columns text = 8 * start + column) (before : column < 8 * level) :
    columns (text ++ tabsTo (8 * level) column) = 8 * (start + level) := by
  rw [tabsTo, columns_append_tabs text (by omega), reached]
  omega

/-- Ordinary lines are printed with the tabs of the level. -/
theorem printed_ordinary {writer : Writer} (free : writer.guarded = false) {lines : List String}
    (ordinary : ∀ line ∈ lines, IsOrdinary line) :
    (Code.writeAll writer (lines.map .line)).printed =
      writer.printed ++ (if lines.isEmpty then [] else spacing writer.blank) ++
        lines.map (tabs writer.depth ++ ·) := by
  induction lines generalizing writer with
  | nil => simp [Code.writeAll]
  | cons line rest ih =>
      obtain ⟨here, later⟩ := List.forall_mem_cons.1 ordinary
      show (Code.writeAll (writer.line line) (rest.map .line)).printed = _
      rw [line_ordinary free here, ih rfl later, Writer.printed_resting]
      simp [Writer.resting, spacing]

/-- A text does not end with a character it has not. -/
theorem endsWith_eq_false {text : String} {last : Char} (none : last ∉ text.toList) :
    endsWith text last = false := by
  rw [endsWith, beq_eq_false_iff_ne]
  exact fun ends => none (List.mem_of_getLast? ends)

/-- A text that does not end a label, whatever stands in front of it. -/
def EndsNoLabel (text : String) : Prop :=
  ∀ front, endsWith (front ++ text) ':' = false

/-- A text ends as no label when what was added last does not. -/
theorem EndsNoLabel.append {second : String} (ends : EndsNoLabel second) (first : String) :
    EndsNoLabel (first ++ second) := by
  intro front
  rw [← String.append_assoc]
  exact ends _

/-- A number ends as no label. -/
theorem endsNoLabel_repr (number : Nat) : EndsNoLabel number.repr := by
  intro front
  rw [endsWith_append Nat.repr_ne_empty]
  apply endsWith_eq_false
  rw [Nat.repr_eq_ofList_toDigits, String.toList_ofList]
  intro colon
  exact absurd (Nat.isDigit_of_mem_toDigits (by decide) (by decide) colon) (by decide)

/-- A quotation ends as no label. -/
theorem endsNoLabel_quote : EndsNoLabel "\"" :=
  fun front => endsWith_append (by decide) front ':'

/-- A comma ends as no label. -/
theorem endsNoLabel_comma : EndsNoLabel "," :=
  fun front => endsWith_append (by decide) front ':'

/-- A value of a macro ends in a digit or a quotation mark. -/
theorem endsNoLabel_written (value : DefineValue) : EndsNoLabel value.written := by
  cases value with
  | text value => exact endsNoLabel_quote.append _
  | number value =>
      cases value with
      | ofNat number => exact endsNoLabel_repr number
      | negSucc number => exact (endsNoLabel_repr number.succ).append "-"

/-- What stands in front of each of the names: characters of a macro or of a member. -/
structure IsMark (mark : String) : Prop where
  bare : IsBare mark
  starts : ∃ c ∈ ['#', '.'], mark.toList.head? = some c

/-- A line with a mark in front is ordinary unless it is a label. -/
theorem IsMark.isOrdinary {mark : String} (marks : IsMark mark) {rest : String}
    (unlabelled : endsWith (mark ++ rest) ':' = false) : IsOrdinary (mark ++ rest) := by
  obtain ⟨c, known, head⟩ := marks.starts
  obtain ⟨others, parted⟩ := List.head?_eq_some_iff.1 head
  simp only [List.mem_cons, List.not_mem_nil, or_false] at known
  refine ⟨?_, ?_, unlabelled⟩ <;> rcases known with rfl | rfl <;>
    simp [isCondition, startsWith, parted, List.isPrefixOf]

/-- Names behind a mark, with tabs from each of them to one tab stop. `shift` is what the mark moves
the names to the right of the tab stops. -/
def alignedLines (mark : String) (shift : Nat) (entries : List (String × String)) : List String :=
  let stop := tabStop (widest (entries.map Prod.fst) + shift)
  entries.map fun (name, value) => mark ++ name ++ tabsTo stop (width name + shift) ++ value

/-- Definitions are aligned lines. -/
theorem defineLines_eq (defines : List (String × DefineValue)) :
    defineLines defines =
      alignedLines "#define " 0 (defines.map fun (name, value) => (name, value.written)) := by
  simp [defineLines, alignedLines, Function.comp_def]

/-- Members of an initializer are aligned lines, one level deep. -/
theorem initializerLines_eq (members : List (String × String)) :
    initializerLines members =
      alignedLines "." 1 (members.map fun (name, value) => (name, "= " ++ value ++ ",")) := by
  simp [initializerLines, alignedLines, Function.comp_def, String.append_assoc]

/-- A name is never as wide as the tab stop that was chosen for the widest one. -/
theorem width_lt_tabStop {name : String} {names : List String} (member : name ∈ names)
    (shift : Nat) : width name + shift < tabStop (widest names + shift) := by
  have narrow := width_le_widest member
  have next := lt_tabStop (widest names + shift)
  omega

section Aligned

variable {mark : String} {front shift : Nat}

/-- The mark takes up some tab stops and the shift, and the names and tabs the rest. -/
theorem places_value (marks : IsMark mark) (wide : width mark = 8 * front + shift) {name : String}
    (bare : IsBare name) {names : List String} (member : name ∈ names) (depth : Nat)
    (value : String) :
    let stop := tabStop (widest names + shift)
    Places (8 * (depth + front) + stop) (tabs depth ++ (mark ++ name)) value
      (tabs depth ++ (mark ++ name ++ tabsTo stop (width name + shift) ++ value)) := by
  intro stop
  have inside := marks.bare.append bare
  have narrow : width name + shift < stop := width_lt_tabStop member shift
  have reached : columns (tabs depth ++ (mark ++ name)) =
      8 * (depth + front) + (width name + shift) := by
    rw [columns_append _ inside.1, columns_tabs, width_append, wide]
    omega
  -- The tabs were counted without the front of the mark. It is whole tab stops, so they fit it too.
  obtain ⟨level, chosen⟩ : ∃ level, stop = 8 * level := ⟨_, Nat.mul_comm _ _⟩
  rw [chosen] at narrow ⊢
  refine ⟨(8 * level - (width name + shift) + 7) / 8, by omega, ?_, ?_, ?_⟩
  · simp [tabsTo, String.append_assoc]
  · rw [← tabsTo, columns_append_tabsTo level reached narrow]
    omega
  · have printable : '\n' ∉ (tabs depth).toList := by simp [tabs, List.mem_replicate]
    rw [String.toList_append, List.mem_append]
    exact not_or_intro printable inside.2

/-- Lines with one mark are aligned at any depth. -/
theorem aligns_alignedLines (marks : IsMark mark) (wide : width mark = 8 * front + shift)
    {writer : Writer} (free : writer.guarded = false) {entries : List (String × String)}
    (bare : ∀ entry ∈ entries, IsBare entry.1)
    (unlabelled : ∀ entry ∈ entries, EndsNoLabel entry.2) :
    Aligns writer (8 * (writer.depth + front) + tabStop (widest (entries.map Prod.fst) + shift))
      (entries.map fun (name, value) => (mark ++ name, value))
      (alignedLines mark shift entries) where
  printed := by
    refine printed_ordinary free fun line member => ?_
    obtain ⟨⟨name, value⟩, known, rfl⟩ := List.mem_map.1 member
    have ends : EndsNoLabel value := unlabelled (name, value) known
    dsimp only
    rw [String.append_assoc, String.append_assoc]
    exact marks.isOrdinary ((ends.append _).append _ mark)
  placed := by
    rw [alignedLines, List.forall₂_map_left_iff, List.forall₂_map_right_iff, List.forall₂_same]
    intro (name, value) known
    exact places_value marks wide (bare (name, value) known) (List.mem_map_of_mem known)
      writer.depth value

end Aligned

/-- Behind anything but a condition, the values of macros are printed in one column, and so are those
of the members of an initializer. Each of the names leaves room for a tab. -/
theorem aligns_defines_and_members {writer : Writer} (free : writer.guarded = false)
    {defines : List (String × DefineValue)} (macros : ∀ define ∈ defines, IsBare define.1)
    {members : List (String × String)} (fields : ∀ member ∈ members, IsBare member.1) :
    ((∀ define ∈ defines, width define.1 < tabStop (widest (defines.map Prod.fst))) ∧
      Aligns writer (8 * (writer.depth + 1) + tabStop (widest (defines.map Prod.fst)))
        (defines.map fun (name, value) => ("#define " ++ name, value.written))
        (defineLines defines)) ∧
    ((∀ member ∈ members, width member.1 + 1 < tabStop (widest (members.map Prod.fst) + 1)) ∧
      Aligns writer (8 * writer.depth + tabStop (widest (members.map Prod.fst) + 1))
        (members.map fun (name, value) => ("." ++ name, "= " ++ value ++ ","))
        (initializerLines members)) := by
  have define : IsMark "#define " := ⟨by decide, '#', by decide, by decide⟩
  have member : IsMark "." := ⟨by decide, '.', by decide, by decide⟩
  refine ⟨⟨fun entry known => ?_, ?_⟩, ⟨fun entry known => ?_, ?_⟩⟩
  · exact width_lt_tabStop (List.mem_map_of_mem known) 0
  · let entries := defines.map fun (name, value) => (name, value.written)
    have names : ∀ entry ∈ entries, IsBare entry.1 := List.forall_mem_map.2 macros
    have values : ∀ entry ∈ entries, EndsNoLabel entry.2 := by
      refine List.forall_mem_map.2 fun (name, value) _ => ?_
      exact endsNoLabel_written value
    have wide : width "#define " = 8 * 1 + 0 := by decide
    have aligned := aligns_alignedLines define wide free names values
    simpa [entries, defineLines_eq, Function.comp_def] using aligned
  · exact width_lt_tabStop (List.mem_map_of_mem known) 1
  · let entries := members.map fun (name, value) => (name, "= " ++ value ++ ",")
    have names : ∀ entry ∈ entries, IsBare entry.1 := List.forall_mem_map.2 fields
    have values : ∀ entry ∈ entries, EndsNoLabel entry.2 := by
      refine List.forall_mem_map.2 fun (name, value) _ => ?_
      exact endsNoLabel_comma.append _
    have wide : width "." = 8 * 0 + 1 := by decide
    have aligned := aligns_alignedLines member wide free names values
    simpa [entries, initializerLines_eq, Function.comp_def] using aligned

/-- Names that are shorter than a tab stop, fill one, and need two. -/
def unevenMacros : List (String × DefineValue) :=
  [("F_A", .number (-1)), ("F_GRÜN_A", .text "a:"), ("F_FAMILY", .text "f"),
    ("F_GENL_VERSION_A", .number 1)]

/-- Members whose names differ in width. -/
def unevenFields : List (String × String) :=
  [("cmd", "F_CMD_GET"), ("validate", "GENL_DONT_VALIDATE_DUMP"), ("n_stops", "2")]

/-- The widest names are as wide as two tab stops, and as the rest of one behind the dot. -/
example : defineLines unevenMacros =
      ["#define F_A\t\t\t-1", "#define F_GRÜN_A\t\t\"a:\"", "#define F_FAMILY\t\t\"f\"",
        "#define F_GENL_VERSION_A\t1"] ∧
    initializerLines unevenFields =
      [".cmd\t\t= F_CMD_GET,", ".validate\t= GENL_DONT_VALIDATE_DUMP,", ".n_stops\t= 2,"] := by
  decide +kernel

/-- Names of different width are aligned. -/
theorem aligns_defines_and_members_uneven :
    ({} : Writer).guarded = false ∧ (∀ define ∈ unevenMacros, IsBare define.1) ∧
      (∀ member ∈ unevenFields, IsBare member.1) ∧
      ((∀ define ∈ unevenMacros, width define.1 < tabStop (widest (unevenMacros.map Prod.fst))) ∧
        Aligns {} (8 * (0 + 1) + tabStop (widest (unevenMacros.map Prod.fst)))
          (unevenMacros.map fun (name, value) => ("#define " ++ name, value.written))
          (defineLines unevenMacros)) ∧
      ((∀ member ∈ unevenFields,
          width member.1 + 1 < tabStop (widest (unevenFields.map Prod.fst) + 1)) ∧
        Aligns {} (8 * 0 + tabStop (widest (unevenFields.map Prod.fst) + 1))
          (unevenFields.map fun (name, value) => ("." ++ name, "= " ++ value ++ ","))
          (initializerLines unevenFields)) := by
  have free : ({} : Writer).guarded = false := rfl
  have macros : ∀ define ∈ unevenMacros, IsBare define.1 := by decide
  have fields : ∀ member ∈ unevenFields, IsBare member.1 := by decide
  exact ⟨free, macros, fields, aligns_defines_and_members free macros fields⟩

end NetlinkFamily.C
