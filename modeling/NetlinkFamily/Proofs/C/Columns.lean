import Mathlib.Data.String.Basic
import NetlinkFamily.C.Signature

namespace NetlinkFamily.C

/-- The column behind a character. -/
def advance (column : Nat) (c : Char) : Nat :=
  if c = '\t' then (column / 8 + 1) * 8 else column + c.utf8Size

/-- The columns of a line. -/
def columns (text : String) : Nat :=
  text.toList.foldl advance 0

/-- Only printable characters of ASCII, from the space to the tilde. -/
def IsPrintable (text : String) : Prop :=
  ∀ c ∈ text.toList, 32 ≤ c.toNat ∧ c.toNat ≤ 126

-- Over the list, by name: an instance over all characters could be found in its place.
instance (text : String) : Decidable (IsPrintable text) :=
  List.decidableBAll (fun c : Char => 32 ≤ c.toNat ∧ c.toNat ≤ 126) text.toList

/-- Two printable texts are printable together. -/
theorem IsPrintable.append {first second : String} (left : IsPrintable first)
    (right : IsPrintable second) : IsPrintable (first ++ second) := by
  intro c member
  rw [String.toList_append, List.mem_append] at member
  exact member.elim (left c) (right c)

/-- Printable texts are printable when joined by one. -/
theorem IsPrintable.intercalate {separator : String} (between : IsPrintable separator)
    {texts : List String} (all : ∀ text ∈ texts, IsPrintable text) :
    IsPrintable (separator.intercalate texts) := by
  induction texts with
  | nil => exact fun c member => absurd member List.not_mem_nil
  | cons first rest ih =>
      obtain ⟨here, later⟩ := List.forall_mem_cons.1 all
      cases rest with
      | nil => exact String.intercalate_singleton.symm ▸ here
      | cons second others =>
          rw [String.intercalate_cons_of_ne_nil (List.cons_ne_nil _ _)]
          exact (here.append between).append (ih later)

/-- A printable text has no control characters. -/
theorem IsPrintable.not_mem {text : String} (printable : IsPrintable text) {c : Char}
    (control : c.toNat < 32) : c ∉ text.toList := by
  intro member
  exact absurd (printable c member).1 (not_le.2 control)

/-- A printable text has no tabs. -/
theorem IsPrintable.no_tab {text : String} (printable : IsPrintable text) : '\t' ∉ text.toList :=
  printable.not_mem (by decide)

/-- A printable text has no line breaks. -/
theorem IsPrintable.no_newline {text : String} (printable : IsPrintable text) :
    '\n' ∉ text.toList :=
  printable.not_mem (by decide)

/-- The width of two texts is the sum of their widths. -/
@[simp] theorem width_append (first second : String) :
    width (first ++ second) = width first + width second :=
  String.utf8ByteSize_append

/-- The width of a text is the sum over its characters. -/
theorem width_eq (text : String) : width text = String.utf8Len text.toList := by
  rw [width, ← String.utf8ByteSize_ofList, String.ofList_toList]

/-- Characters other than tabs advance the column by their width. -/
theorem foldl_advance {chars : List Char} (none : '\t' ∉ chars) (column : Nat) :
    chars.foldl advance column = column + String.utf8Len chars := by
  induction chars generalizing column with
  | nil => rfl
  | cons c rest ih =>
      rw [List.mem_cons, not_or] at none
      rw [List.foldl_cons, advance, if_neg (Ne.symm none.1), ih none.2, String.utf8Len_cons]
      omega

/-- Behind a text, one without tabs takes up as many columns as it has bytes. -/
theorem columns_append (first : String) {second : String} (none : '\t' ∉ second.toList) :
    columns (first ++ second) = columns first + width second := by
  rw [columns, String.toList_append, List.foldl_append, foldl_advance none, ← columns, ← width_eq]

/-- A text without tabs takes as many columns as it is wide. -/
theorem columns_eq_width {text : String} (none : '\t' ∉ text.toList) :
    columns text = width text := by
  rw [columns, foldl_advance none, Nat.zero_add, ← width_eq]

/-- Tabs advance from one stop to the next. -/
theorem foldl_advance_tabs (start count : Nat) :
    (List.replicate count '\t').foldl advance (8 * start) = 8 * (start + count) := by
  induction count generalizing start with
  | zero => rfl
  | succ count ih =>
      have next : advance (8 * start) '\t' = 8 * (start + 1) := by
        simp [advance]
        omega
      rw [List.replicate_succ, List.foldl_cons, next, ih]
      omega

/-- Each tab takes eight columns. -/
theorem columns_tabs (count : Nat) : columns (tabs count) = 8 * count := by
  have all := foldl_advance_tabs 0 count
  rw [Nat.mul_zero, Nat.zero_add] at all
  rw [columns, tabs, String.toList_ofList, all]

/-- A narrow character repeated is as wide as it is often. -/
theorem width_replicate (count : Nat) {c : Char} (narrow : c.utf8Size = 1) :
    width (String.ofList (List.replicate count c)) = count := by
  rw [width_eq, String.toList_ofList]
  induction count with
  | zero => rfl
  | succ count ih => rw [List.replicate_succ, String.utf8Len_cons, ih, narrow]

/-- Tabs are as wide as they are many. -/
theorem width_tabs (count : Nat) : width (tabs count) = count :=
  width_replicate count (by decide)

/-- Spaces are as wide as they are many. -/
theorem width_spaces (count : Nat) : width (spaces count) = count :=
  width_replicate count (by decide)

namespace Signature

/-- Tabs do not make the indentation wider than the text that it replaces. -/
theorem columns_indentation (count : Nat) : columns (indentation count) = count := by
  have none : '\t' ∉ (spaces (count % 8)).toList := by
    simp [spaces, List.mem_replicate]
  rw [indentation, columns_append _ none, columns_tabs, width_spaces]
  omega

/-- Indentation takes a tab for every eight columns and spaces for the rest. -/
theorem width_indentation (count : Nat) :
    width (indentation count) = count / 8 + count % 8 := by
  rw [indentation, width_append, width_tabs, width_spaces]

/-- Indentation is no wider than the columns it takes. -/
theorem width_indentation_le (count : Nat) : width (indentation count) ≤ count := by
  rw [width_indentation]
  omega

end Signature

end NetlinkFamily.C
