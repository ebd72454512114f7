import Mathlib.Data.List.TakeWhile
import NetlinkFamily.Proofs.C.Columns
import NetlinkFamily.Proofs.C.Printing
import NetlinkFamily.Text.Blank

namespace NetlinkFamily.C

open Text (isBlank)

/-- A text without the white space in front of it. -/
def unindented (text : String) : String :=
  String.ofList (text.toList.dropWhile isBlank)

/-- A text that no white space stands in front of. -/
def IsFlush (text : String) : Prop :=
  ∀ c ∈ text.toList.head?, isBlank c = false

/-- Printable characters, the first of which is no space. -/
def IsPlain (text : String) : Prop :=
  IsPrintable text ∧ text.toList.head? ≠ some ' '

instance (text : String) : Decidable (IsPlain text) :=
  inferInstanceAs (Decidable (IsPrintable text ∧ text.toList.head? ≠ some ' '))

/-- A printable character other than a space is no blank. -/
theorem isBlank_of_printable {c : Char} (printable : 32 ≤ c.toNat ∧ c.toNat ≤ 126)
    (other : c ≠ ' ') : isBlank c = false := by
  have apart : c.toNat ≠ 32 := fun same => other (Char.toNat_inj.1 same)
  simp [isBlank]
  omega

/-- A plain text starts with no blank. -/
theorem IsPlain.isFlush {text : String} (plain : IsPlain text) : IsFlush text := by
  intro c first
  refine isBlank_of_printable (plain.1 c (List.mem_of_mem_head? first)) ?_
  rintro rfl
  exact plain.2 first

/-- Two texts that start with no blank do so together. -/
theorem IsFlush.append {first second : String} (left : IsFlush first) (right : IsFlush second) :
    IsFlush (first ++ second) := by
  intro c head
  rw [String.toList_append, List.head?_append] at head
  cases chars : first.toList with
  | nil => exact right c (by simpa [chars] using head)
  | cons _ _ => exact left c (by simpa [chars] using head)

/-- A text that starts with a visible character starts with no blank. -/
theorem isFlush_of_head {text : String} {c : Char} (head : text.toList.head? = some c)
    (visible : isBlank c = false) : IsFlush text := by
  intro d first
  obtain rfl : c = d := by simpa [head] using first
  exact visible

/-- A text that starts with no blank loses nothing when its indentation goes. -/
theorem unindented_of_isFlush {text : String} (flush : IsFlush text) : unindented text = text := by
  unfold unindented IsFlush at *
  cases chars : text.toList with
  | nil => rw [List.dropWhile_nil, ← chars, String.ofList_toList]
  | cons c rest =>
      rw [List.dropWhile_cons_of_neg, ← chars, String.ofList_toList]
      simpa [chars] using flush c (by simp [chars])

/-- Only what stands in front of a text can be its white space. -/
theorem unindented_append (first : String) {second : String} (flush : IsFlush second) :
    unindented (first ++ second) = unindented first ++ second := by
  have rest := unindented_of_isFlush flush
  unfold unindented at *
  rw [String.toList_append, List.dropWhile_append]
  cases empty : (first.toList.dropWhile isBlank).isEmpty with
  | true => simp [List.isEmpty_iff.1 empty, rest]
  | false => simp [String.ofList_append]

/-- Texts that are joined already may be joined with the rest as one. -/
theorem intercalate_merge (separator first second : String) (rest : List String) :
    separator.intercalate ((first ++ separator ++ second) :: rest) =
      separator.intercalate (first :: second :: rest) := by
  cases rest with
  | nil => simp [String.append_assoc]
  | cons third others => simp [String.append_assoc]

/-- A text in front of the first one stands in front of all. -/
theorem intercalate_append_cons (separator first second : String) (rest : List String) :
    separator.intercalate ((first ++ second) :: rest) =
      first ++ separator.intercalate (second :: rest) := by
  cases rest with
  | nil => simp
  | cons third others => simp [String.append_assoc]

/-- A line of a signature: some parameters with commas between them, and what stands around them. -/
structure Row where
  lead : String
  parameters : List String
  tail : String

namespace Row

/-- A row as it is printed. -/
def text (row : Row) : String :=
  row.lead ++ ", ".intercalate row.parameters ++ row.tail

/-- Rows that have some lines for their texts and hold some parameters. Each starts with one of some
leads, and one that holds several parameters is narrow. -/
structure Divide (leads : List String) (ending : String) (lines parameters : List String)
    (rows : List Row) : Prop where
  texts : rows.map Row.text = lines
  parameters : rows.flatMap Row.parameters = parameters
  framed : ∀ row ∈ rows, row.lead ∈ leads ∧ row.tail ∈ [",", ")" ++ ending]
  narrow : ∀ row ∈ rows, 2 ≤ row.parameters.length → columns row.text ≤ 80

end Row

namespace Signature

/-- A line that is wider than its bytes by `correction` if it starts with a tab. -/
def Measured (correction : Nat) (line : String) : Prop :=
  columns line = width line + if startsWith line "\t" then correction else 0

/-- A line stays measured when a text without tabs is added. -/
theorem Measured.append {correction : Nat} {line text : String}
    (measured : Measured correction line) (none : '\t' ∉ text.toList) :
    Measured correction (line ++ text) := by
  have start : startsWith (line ++ text) "\t" = startsWith line "\t" := by
    unfold startsWith
    rw [String.toList_append]
    cases line.toList with
    | nil =>
        cases chars : text.toList with
        | nil => rfl
        | cons c rest =>
            rw [chars, List.mem_cons, not_or] at none
            simp [List.isPrefixOf, none.1]
    | cons c rest => simp [List.isPrefixOf]
  unfold Measured at *
  rw [columns_append line none, measured, start, width_append]
  omega

/-- A line without tabs is measured. -/
theorem measured_of_no_tab (correction : Nat) {line : String} (none : '\t' ∉ line.toList) :
    Measured correction line := by
  have empty : Measured correction "" := rfl
  simpa using empty.append none

/-- The correction makes up for the tabs of an indentation. -/
theorem measured_indentation (count : Nat) :
    Measured (count - width (indentation count)) (indentation count) := by
  have narrow := width_indentation_le count
  unfold Measured
  rw [columns_indentation]
  cases few : count / 8 with
  | zero =>
      rw [width_indentation]
      split <;> omega
  | succ others =>
      have start : startsWith (indentation count) "\t" = true := by
        simp [indentation, few, startsWith, tabs, List.replicate_succ, List.isPrefixOf]
      rw [if_pos start]
      omega

variable {indent ending : String} {correction : Nat}

/-- A parameter starts a new line, or there is room for it on the line. -/
theorem wrapFrom_cons (line parameter : String) (rest : List String) :
    wrapFrom indent correction ending line (parameter :: rest) =
        (line ++ ",") :: wrapFrom indent correction ending (indent ++ parameter) rest ∨
      (width line + width parameter + (if startsWith line "\t" then correction else 0) ≤ 76 ∧
        wrapFrom indent correction ending line (parameter :: rest) =
          wrapFrom indent correction ending (line ++ ", " ++ parameter) rest) := by
  by_cases wide :
      76 < width line + width parameter + if startsWith line "\t" then correction else 0
  · exact .inl (if_pos wide)
  · exact .inr ⟨not_lt.1 wide, if_neg wide⟩

/-- Wrapping leaves a line at least. -/
theorem wrapFrom_ne_nil (line : String) (rest : List String) :
    wrapFrom indent correction ending line rest ≠ [] := by
  induction rest generalizing line with
  | nil => exact List.cons_ne_nil _ _
  | cons parameter rest ih =>
      obtain broken | ⟨_, kept⟩ := wrapFrom_cons line parameter rest
      · exact broken ▸ List.cons_ne_nil _ _
      · exact kept ▸ ih _

/-- A line that ends with a comma is no condition. -/
theorem isCondition_of_comma (text : String) : isCondition (text ++ ",") = false := by
  simp [isCondition, endsWith]

/-- No wrapped line but the last is a condition. -/
theorem quiet_wrapFrom (line : String) (rest : List String) :
    ∀ text ∈ (wrapFrom indent correction ending line rest).dropLast, isCondition text = false := by
  induction rest generalizing line with
  | nil => simp [wrapFrom]
  | cons parameter rest ih =>
      obtain broken | ⟨_, kept⟩ := wrapFrom_cons line parameter rest
      · rw [broken, List.dropLast_cons_of_ne_nil (wrapFrom_ne_nil _ _)]
        exact List.forall_mem_cons.2 ⟨isCondition_of_comma line, ih _⟩
      · exact kept ▸ ih _

/-- Wrapping brings in no characters but commas, spaces and a parenthesis. -/
theorem not_mem_wrapFrom {c : Char} (other : c ≠ ',' ∧ c ≠ ' ' ∧ c ≠ ')')
    (outside : c ∉ indent.toList) (last : c ∉ ending.toList) {line : String}
    {rest : List String} (before : c ∉ line.toList)
    (none : ∀ parameter ∈ rest, c ∉ parameter.toList) :
    ∀ text ∈ wrapFrom indent correction ending line rest, c ∉ text.toList := by
  induction rest generalizing line with
  | nil => simp [wrapFrom, before, last, other]
  | cons parameter rest ih =>
      obtain ⟨here, later⟩ := List.forall_mem_cons.1 none
      obtain broken | ⟨_, kept⟩ := wrapFrom_cons line parameter rest
      · rw [broken]
        refine List.forall_mem_cons.2 ⟨?_, ih ?_ later⟩
        · simp [before, other]
        · simp [outside, here]
      · rw [kept]
        exact ih (by simp [before, here, other]) later

/-- Without their indentation, the lines are the parameters with a comma between any two. -/
theorem intercalate_wrapFrom (blank : unindented indent = "") (last : IsFlush (")" ++ ending))
    (line : String) {rest : List String} (flush : ∀ parameter ∈ rest, IsFlush parameter) :
    " ".intercalate ((wrapFrom indent correction ending line rest).map unindented) =
      ", ".intercalate (unindented line :: rest) ++ (")" ++ ending) := by
  induction rest generalizing line with
  | nil =>
      simp only [wrapFrom, List.map_cons, List.map_nil, String.intercalate_singleton]
      rw [String.append_assoc, unindented_append line last]
  | cons parameter rest ih =>
      obtain ⟨here, later⟩ := List.forall_mem_cons.1 flush
      obtain broken | ⟨_, kept⟩ := wrapFrom_cons line parameter rest
      · have next := ih (indent ++ parameter) later
        rw [unindented_append indent here, blank, String.empty_append] at next
        have comma : unindented (line ++ ",") = unindented line ++ "," :=
          unindented_append line (isFlush_of_head rfl rfl)
        rw [broken, List.map_cons, String.intercalate_cons_of_ne_nil (by simp [wrapFrom_ne_nil]),
          next, comma, String.intercalate_cons_of_ne_nil (List.cons_ne_nil _ _)]
        simp [String.append_assoc]
      · have separator : IsFlush (", " ++ parameter) := isFlush_of_head (c := ',') (by simp) rfl
        have separated : unindented (line ++ ", " ++ parameter) =
            unindented line ++ ", " ++ parameter := by
          rw [String.append_assoc, unindented_append line separator, String.append_assoc]
        rw [kept, ih _ later, separated, intercalate_merge]

/-- The lines hold the parameters of the line before them and the ones behind it. -/
theorem exists_rows (short : width ending ≤ 1) (last : '\t' ∉ ending.toList)
    (start : Measured correction indent) (lead : String) (held : List String)
    {rest : List String} (none : ∀ parameter ∈ rest, '\t' ∉ parameter.toList)
    (measured : Measured correction (lead ++ ", ".intercalate held)) (some : held ≠ [])
    (narrow : 2 ≤ held.length → columns (lead ++ ", ".intercalate held) ≤ 78) :
    ∃ rows, Row.Divide [lead, indent] ending
      (wrapFrom indent correction ending (lead ++ ", ".intercalate held) rest) (held ++ rest)
      rows := by
  induction rest generalizing lead held with
  | nil =>
      refine ⟨[⟨lead, held, ")" ++ ending⟩], ?_, by simp, by simp, List.forall_mem_singleton.2 ?_⟩
      · simp [wrapFrom, Row.text, String.append_assoc]
      · intro several
        have behind : '\t' ∉ (")" ++ ending).toList := by simp [last]
        have wide : width (")" ++ ending) = 1 + width ending := width_append _ _
        have fits := narrow several
        show columns (lead ++ ", ".intercalate held ++ (")" ++ ending)) ≤ 80
        rw [columns_append _ behind, wide]
        omega
  | cons parameter rest ih =>
      obtain ⟨here, later⟩ := List.forall_mem_cons.1 none
      obtain broken | ⟨room, kept⟩ := wrapFrom_cons (lead ++ ", ".intercalate held) parameter rest
      · have alone : ", ".intercalate [parameter] = parameter := String.intercalate_singleton
        obtain ⟨rows, texts, parameters, framed, fit⟩ :=
          ih indent [parameter] later (alone.symm ▸ start.append here) (List.cons_ne_nil _ _)
            (by simp)
        rw [alone] at texts
        refine ⟨⟨lead, held, ","⟩ :: rows, ?_, ?_, List.forall_mem_cons.2 ⟨by simp, ?_⟩,
          List.forall_mem_cons.2 ⟨?_, fit⟩⟩
        · rw [broken, List.map_cons, texts]
          rfl
        · rw [List.flatMap_cons, parameters]
          rfl
        · exact fun row member =>
            ⟨List.mem_cons_of_mem _ (by simpa using (framed row member).1), (framed row member).2⟩
        · intro several
          have fits := narrow several
          have wide : width "," = 1 := by decide
          show columns (lead ++ ", ".intercalate held ++ ",") ≤ 80
          rw [columns_append _ (by decide), wide]
          omega
      · have joined : lead ++ ", ".intercalate (held ++ [parameter]) =
            lead ++ ", ".intercalate held ++ (", " ++ parameter) := by
          rw [String.intercalate_append_of_ne_nil some (List.cons_ne_nil _ _),
            String.intercalate_singleton]
          simp [String.append_assoc]
        have behind : '\t' ∉ (", " ++ parameter).toList := by simp [here]
        have wide : width (", " ++ parameter) = 2 + width parameter := width_append _ _
        have fits : columns (lead ++ ", ".intercalate (held ++ [parameter])) ≤ 78 := by
          rw [joined, columns_append _ behind, measured, wide]
          omega
        obtain ⟨rows, divide⟩ :=
          ih lead (held ++ [parameter]) later (joined ▸ measured.append behind) (by simp)
            (fun _ => fits)
        rw [joined, ← String.append_assoc, List.append_assoc, List.singleton_append] at divide
        exact ⟨rows, kept ▸ divide⟩

/-- Lines that make up a signature. They hold its parameters, are its text when they are joined
without their indentation, and are narrow if they hold several parameters. In front of parameters
stands the name or white space only. -/
structure Broken (signature : Signature) (ending : String) (rows : List Row) : Prop where
  parameters : rows.flatMap Row.parameters = signature.written
  framed : ∀ row ∈ rows, row.parameters = [] ∨
    (row.lead ∈ [signature.spacedResult ++ signature.name ++ "(", signature.name ++ "("] ∨
      unindented row.lead = "") ∧ row.tail ∈ [",", ")" ++ ending]
  joined : ∃ gap ∈ ["", " "],
    " ".intercalate (rows.map fun row => unindented row.text) =
      signature.result ++ gap ++ Code.application signature.name signature.written ++ ending
  narrow : ∀ row ∈ rows, 2 ≤ row.parameters.length → columns row.text ≤ 80
  unbroken : ∀ row ∈ rows, '\n' ∉ row.text.toList

/-- A result type, a name and parameters that white space neither stands in front of nor breaks. -/
structure Plain (signature : Signature) : Prop where
  result : IsPlain signature.result
  name : IsPlain signature.name
  parameters : ∀ parameter ∈ signature.parameters, IsPlain parameter

variable {signature : Signature}

/-- A prototype lists at least one parameter. -/
theorem written_eq_cons (signature : Signature) :
    ∃ first rest, signature.written = first :: rest := by
  unfold written
  cases signature.parameters with
  | nil => exact ⟨"void", [], rfl⟩
  | cons first rest => exact ⟨first, rest, rfl⟩

/-- The parameters of a plain signature are plain. -/
theorem Plain.written (plain : Plain signature) :
    ∀ parameter ∈ signature.written, IsPlain parameter := by
  unfold Signature.written
  split
  · exact List.forall_mem_singleton.2 (by decide)
  · exact plain.parameters

/-- At most one space stands behind the result. -/
theorem spacedResult_eq (signature : Signature) :
    ∃ gap ∈ ["", " "], signature.spacedResult = signature.result ++ gap := by
  unfold spacedResult
  split
  · exact ⟨"", by simp⟩
  · exact ⟨" ", by simp⟩

/-- Behind the result type stands at most one space. -/
theorem unindented_spacedResult (flush : IsFlush signature.result) :
    ∃ gap ∈ ["", " "], unindented signature.spacedResult = signature.result ++ gap := by
  obtain ⟨gap, known, spaced⟩ := spacedResult_eq signature
  rw [spaced]
  cases chars : signature.result.toList with
  | nil =>
      rw [String.toList_eq_nil_iff.1 chars]
      refine ⟨"", by simp, ?_⟩
      simp only [List.mem_cons, List.not_mem_nil, or_false] at known
      rcases known with rfl | rfl <;> decide
  | cons c rest =>
      refine ⟨gap, known, unindented_of_isFlush ?_⟩
      exact isFlush_of_head (c := c) (by simp [chars]) (flush c (by simp [chars]))

/-- Indentation is all blank. -/
theorem unindented_indentation (count : Nat) : unindented (indentation count) = "" := by
  have blank : ∀ c ∈ (indentation count).toList, isBlank c = true := by
    intro c member
    simp only [indentation, tabs, spaces, String.toList_append, String.toList_ofList,
      List.mem_append, List.mem_replicate] at member
    rcases member with ⟨_, rfl⟩ | ⟨_, rfl⟩ <;> rfl
  rw [unindented, List.dropWhile_eq_nil_iff.2 blank]

/-- Indentation breaks no line. -/
theorem no_newline_indentation (count : Nat) : '\n' ∉ (indentation count).toList := by
  simp [indentation, tabs, spaces, List.mem_replicate]

/-- The lines of the name and the parameters behind something `front`. -/
def linesBehind (signature : Signature) (front ending : String) : List String :=
  let start := front ++ signature.name ++ "("
  let indent := indentation (width start)
  match signature.written with
  | [] => []
  | first :: rest => wrapFrom indent (width start - width indent) ending (start ++ first) rest

/-- A wrapped prototype has its result on a line of its own unless that is short. -/
theorem wrapped_eq (signature : Signature) (ending : String) :
    signature.wrapped ending =
      if 3 < width signature.result then signature.result :: signature.linesBehind "" ending
      else signature.linesBehind signature.spacedResult ending := by
  obtain ⟨first, rest, parted⟩ := written_eq_cons signature
  by_cases long : 3 < width signature.result <;> simp [wrapped, linesBehind, parted, long]

/-- A wrapped prototype has a line at least. -/
theorem linesBehind_ne_nil (front : String) : signature.linesBehind front ending ≠ [] := by
  obtain ⟨first, rest, parted⟩ := written_eq_cons signature
  rw [linesBehind, parted]
  exact wrapFrom_ne_nil _ _

/-- No line of a wrapped prototype but the last is a condition. -/
theorem quiet_linesBehind (front : String) :
    ∀ line ∈ (signature.linesBehind front ending).dropLast, isCondition line = false := by
  obtain ⟨first, rest, parted⟩ := written_eq_cons signature
  rw [linesBehind, parted]
  exact quiet_wrapFrom _ _

/-- No line of a wrapped prototype is broken. -/
theorem unbroken_linesBehind (plain : Plain signature) (last : IsPlain ending) {front : String}
    (printable : IsPrintable front) :
    ∀ line ∈ signature.linesBehind front ending, '\n' ∉ line.toList := by
  obtain ⟨first, rest, parted⟩ := written_eq_cons signature
  have all := plain.written
  rw [parted] at all
  obtain ⟨here, later⟩ := List.forall_mem_cons.1 all
  rw [linesBehind, parted]
  refine not_mem_wrapFrom (by decide) (no_newline_indentation _) last.1.no_newline ?_
    fun parameter member => (later parameter member).1.no_newline
  simp [printable.no_newline, plain.name.1.no_newline, here.1.no_newline]

/-- A wrapped prototype divides the parameters into rows within the columns. -/
theorem exists_rows_linesBehind (plain : Plain signature) (last : IsPlain ending)
    (short : width ending ≤ 1) {front : String} (printable : IsPrintable front) :
    ∃ rows : List Row,
      Row.Divide [front ++ signature.name ++ "(",
        indentation (width (front ++ signature.name ++ "("))] ending
        (signature.linesBehind front ending) signature.written rows ∧
      " ".intercalate (rows.map fun row => unindented row.text) =
        unindented front ++ (Code.application signature.name signature.written ++ ending) := by
  obtain ⟨first, rest, parted⟩ := written_eq_cons signature
  have all := plain.written
  rw [parted] at all
  obtain ⟨here, later⟩ := List.forall_mem_cons.1 all
  have start : '\t' ∉ (front ++ signature.name ++ "(").toList := by
    simp [printable.no_tab, plain.name.1.no_tab]
  have alone : ", ".intercalate [first] = first := String.intercalate_singleton
  obtain ⟨rows, divide⟩ :=
    exists_rows short last.1.no_tab (measured_indentation (width (front ++ signature.name ++ "(")))
      (front ++ signature.name ++ "(") [first]
      (fun parameter member => (later parameter member).1.no_tab)
      (measured_of_no_tab _ (by simpa [alone, here.1.no_tab] using start)) (List.cons_ne_nil _ _)
      (by simp)
  rw [alone, List.singleton_append] at divide
  refine ⟨rows, by rw [linesBehind, parted]; exact divide, ?_⟩
  have named : unindented (front ++ signature.name ++ "(") =
      unindented front ++ (signature.name ++ "(") := by
    rw [String.append_assoc,
      unindented_append front (plain.name.isFlush.append (isFlush_of_head rfl rfl))]
  have joined := congrArg (fun texts => " ".intercalate (texts.map unindented)) divide.texts
  rw [List.map_map] at joined
  rw [parted]
  refine joined.trans ?_
  rw [intercalate_wrapFrom (unindented_indentation _) (isFlush_of_head (c := ')') (by simp) rfl) _
    fun parameter member => (later parameter member).isFlush]
  rw [unindented_append _ here.isFlush, intercalate_append_cons, named]
  simp [Code.application, String.append_assoc]

/-- A plain signature starts with no blank. -/
theorem Plain.isFlush_application (plain : Plain signature) (ending : String) :
    IsFlush (Code.application signature.name signature.written ++ ending) := by
  have behind : IsFlush ("(" ++ (", ".intercalate signature.written ++ (")" ++ ending))) :=
    isFlush_of_head (c := '(') (by simp) rfl
  have all := plain.name.isFlush.append behind
  simpa [Code.application, String.append_assoc] using all

/-- The result of a plain signature is printable, with the space behind it. -/
theorem Plain.spacedResult (plain : Plain signature) : IsPrintable signature.spacedResult := by
  unfold Signature.spacedResult
  split
  · exact plain.result.1
  · exact plain.result.1.append (by decide)

/-- A plain signature is printable on one line. -/
theorem Plain.oneLine (plain : Plain signature) (last : IsPlain ending) :
    IsPrintable (signature.oneLine ending) := by
  have parameters : IsPrintable (", ".intercalate signature.written) :=
    IsPrintable.intercalate (by decide) fun parameter member => (plain.written parameter member).1
  have application : IsPrintable (Code.application signature.name signature.written) :=
    ((plain.name.1.append (by decide)).append parameters).append (by decide)
  exact (plain.spacedResult.append application).append last.1

/-- A signature on one line. -/
def row (signature : Signature) (ending : String) : Row :=
  ⟨signature.spacedResult ++ signature.name ++ "(", signature.written, ")" ++ ending⟩

/-- The one row of a prototype is the prototype on one line. -/
theorem text_row (signature : Signature) (ending : String) :
    (signature.row ending).text = signature.oneLine ending := by
  simp [row, Row.text, oneLine, Code.application, String.append_assoc]

/-- A prototype that fits on one line is broken into that one. -/
theorem broken_row (plain : Plain signature) (last : IsPlain ending)
    (fits : width (signature.oneLine ending) < 80) :
    Broken signature ending [signature.row ending] := by
  obtain ⟨gap, known, spaced⟩ := unindented_spacedResult plain.result.isFlush
  have printable := plain.oneLine last
  refine ⟨by simp [row], by simp [row], ⟨gap, known, ?_⟩, ?_, ?_⟩
  · rw [List.map_singleton, String.intercalate_singleton, text_row, oneLine, String.append_assoc,
      unindented_append _ (plain.isFlush_application ending), spaced, ← String.append_assoc]
  · refine List.forall_mem_singleton.2 fun _ => ?_
    rw [text_row, columns_eq_width printable.no_tab]
    omega
  · exact List.forall_mem_singleton.2 (text_row signature ending ▸ printable.no_newline)

/-- The leads behind a result type, or behind nothing, are the name and white space. -/
theorem framed_of_divide {front : String} (known : front = signature.spacedResult ∨ front = "")
    {rows : List Row}
    (framed : ∀ row ∈ rows, row.lead ∈ [front ++ signature.name ++ "(",
      indentation (width (front ++ signature.name ++ "("))] ∧ row.tail ∈ [",", ")" ++ ending]) :
    ∀ row ∈ rows, row.parameters = [] ∨
      (row.lead ∈ [signature.spacedResult ++ signature.name ++ "(", signature.name ++ "("] ∨
        unindented row.lead = "") ∧ row.tail ∈ [",", ")" ++ ending] := by
  intro row member
  obtain ⟨lead, tail⟩ := framed row member
  refine .inr ⟨?_, tail⟩
  simp only [List.mem_cons, List.not_mem_nil, or_false] at lead ⊢
  rcases lead with named | blank
  · rcases known with rfl | rfl
    · exact .inl (.inl named)
    · exact .inl (.inr (by simpa using named))
  · exact .inr (blank ▸ unindented_indentation _)

/-- A signature that is broken has its result type on the first line, and alone there if it is
long. -/
theorem exists_broken_wrapped (plain : Plain signature) (last : IsPlain ending)
    (short : width ending ≤ 1) :
    ∃ rows : List Row, rows.map Row.text = signature.wrapped ending ∧
      Broken signature ending rows := by
  rw [wrapped_eq]
  by_cases long : 3 < width signature.result
  · have none : IsPrintable "" := by decide
    obtain ⟨rows, ⟨texts, parameters, framed, narrow⟩, joined⟩ :=
      exists_rows_linesBehind plain last short none
    have alone : Row.text ⟨signature.result, [], ""⟩ = signature.result := by simp [Row.text]
    have filled : rows ≠ [] := by
      rintro rfl
      exact linesBehind_ne_nil "" texts.symm
    rw [if_pos long]
    refine ⟨⟨signature.result, [], ""⟩ :: rows, by rw [List.map_cons, texts, alone], parameters,
      List.forall_mem_cons.2 ⟨.inl rfl, framed_of_divide (.inr rfl) framed⟩, ⟨" ", by simp, ?_⟩,
      List.forall_mem_cons.2 ⟨by simp, narrow⟩,
      List.forall_mem_cons.2 ⟨alone.symm ▸ plain.result.1.no_newline, ?_⟩⟩
    · rw [List.map_cons, String.intercalate_cons_of_ne_nil (by simp [filled]), joined, alone,
        unindented_of_isFlush plain.result.isFlush]
      have nothing : unindented "" = "" := rfl
      simp [nothing, String.append_assoc]
    · intro row member
      exact unbroken_linesBehind plain last none _ (texts ▸ List.mem_map_of_mem member)
  · obtain ⟨rows, ⟨texts, parameters, framed, narrow⟩, joined⟩ :=
      exists_rows_linesBehind plain last short plain.spacedResult
    obtain ⟨gap, known, spaced⟩ := unindented_spacedResult plain.result.isFlush
    rw [if_neg long]
    refine ⟨rows, texts, parameters, framed_of_divide (.inl rfl) framed, ⟨gap, known, ?_⟩, narrow,
      fun row member => ?_⟩
    · rw [joined, spaced, ← String.append_assoc]
    · exact unbroken_linesBehind plain last plain.spacedResult _
        (texts ▸ List.mem_map_of_mem member)

/-- No line of a prototype but the last is a condition. -/
theorem quiet_lines (ends : endsWith signature.result ')' = false) :
    ∀ line ∈ (signature.lines ending).dropLast, isCondition line = false := by
  have quiet : isCondition signature.result = false := by rw [isCondition, ends, Bool.false_and]
  by_cases fits : width (signature.oneLine ending) < 80
  · have one : signature.lines ending = [signature.oneLine ending] := if_pos fits
    simp [one]
  · have several : signature.lines ending = signature.wrapped ending := if_neg fits
    rw [several, wrapped_eq]
    split
    · rw [List.dropLast_cons_of_ne_nil (linesBehind_ne_nil "")]
      exact List.forall_mem_cons.2 ⟨quiet, quiet_linesBehind ""⟩
    · exact quiet_linesBehind _

/-- A prototype is printed as lines that hold its parameters and lose none of its text. Its
indentation is never wider than what it replaces. -/
theorem render_prototype (plain : Plain signature) (ends : endsWith signature.result ')' = false)
    (last : IsPlain ending) (short : width ending ≤ 1) :
    (∃ rows : List Row,
        Code.render (signature.prototype none ending) =
            String.join (rows.map fun row => row.text ++ "\n") ∧
          Broken signature ending rows) ∧
      ∀ count, width (indentation count) ≤ count := by
  refine ⟨?_, width_indentation_le⟩
  obtain ⟨rows, texts, holds⟩ : ∃ rows : List Row, rows.map Row.text = signature.lines ending ∧
      Broken signature ending rows := by
    by_cases fits : width (signature.oneLine ending) < 80
    · have one : signature.lines ending = [signature.oneLine ending] := if_pos fits
      exact ⟨[signature.row ending], by rw [one, List.map_singleton, text_row],
        broken_row plain last fits⟩
    · have several : signature.lines ending = signature.wrapped ending := if_neg fits
      exact several ▸ exists_broken_wrapped plain last short
  refine ⟨rows, ?_, holds⟩
  rw [prototype, docLines, List.nil_append, Code.render_lines (quiet_lines ends), ← texts,
    List.map_map]
  rfl

/-- A signature that is broken behind its result type and before its last parameter. -/
def policerGet : Signature where
  result := "struct devlink_trap_policer_get_rsp *"
  name := "devlink_trap_policer_get"
  parameters :=
    ["struct ynl_sock *ys", "struct devlink_trap_policer_get_req *req",
      "unsigned int extra_argument"]

/-- A long prototype is printed in rows. -/
theorem render_prototype_policerGet :
    policerGet.Plain ∧ endsWith policerGet.result ')' = false ∧ IsPlain ";" ∧ width ";" ≤ 1 ∧
      (∃ rows : List Row,
        Code.render (policerGet.prototype none ";") =
            String.join (rows.map fun row => row.text ++ "\n") ∧
          Broken policerGet ";" rows) ∧
      ∀ count, width (indentation count) ≤ count := by
  have plain : policerGet.Plain := ⟨by decide, by decide, by decide⟩
  have ends : endsWith policerGet.result ')' = false := by decide
  have last : IsPlain ";" := by decide
  have short : width ";" ≤ 1 := by decide
  exact ⟨plain, ends, last, short, render_prototype plain ends last short⟩

/-- The parameters stand below each other, with tabs in front of the later ones. -/
example : policerGet.lines ";" =
    ["struct devlink_trap_policer_get_rsp *", "devlink_trap_policer_get(struct ynl_sock *ys,",
      "\t\t\t struct devlink_trap_policer_get_req *req,",
      "\t\t\t unsigned int extra_argument);"] := by
  decide +kernel

/-- The characters of a text that are no white space. -/
def visible (text : String) : List Char :=
  text.toList.filter fun c => !isBlank c

/-- What is visible of two texts is what is visible of each. -/
@[simp] theorem visible_append (first second : String) :
    visible (first ++ second) = visible first ++ visible second := by
  simp [visible]

/-- Lines that tell a result type, a name and parameters, wherever white space stands between these.
The first line starts with the result type, and its name ends there. -/
structure Spells (signature : Signature) (ending : String) (lines : List String) : Prop where
  text : lines.flatMap visible =
    visible (signature.result ++ signature.name ++ "(" ++ ", ".intercalate signature.written ++
      ")" ++ ending)
  result : ∃ rest others, lines = (signature.result ++ rest) :: others ∧
    (rest = "" ∨ startsWith rest " " = true ∨ endsWith signature.result '*' = true)

/-- Nothing of indentation is visible. -/
theorem visible_indentation (count : Nat) : visible (indentation count) = [] := by
  have tab : isBlank '\t' = true := by decide
  have space : isBlank ' ' = true := by decide
  simp [visible, indentation, tabs, spaces, tab, space]

/-- Wherever parameters are wrapped, only white space is added. -/
theorem visible_wrapFrom (blank : visible indent = []) (line : String) (rest : List String) :
    (wrapFrom indent correction ending line rest).flatMap visible =
      visible (", ".intercalate (line :: rest) ++ ")" ++ ending) := by
  induction rest generalizing line with
  | nil => simp [wrapFrom]
  | cons parameter rest ih =>
      have comma : visible ", " = visible "," := by decide
      rw [String.intercalate_cons_of_ne_nil (List.cons_ne_nil _ _)]
      obtain broken | ⟨_, kept⟩ := wrapFrom_cons line parameter rest
      · rw [broken, List.flatMap_cons, ih, intercalate_append_cons]
        simp [blank, comma]
      · rw [kept, ih, intercalate_merge,
          String.intercalate_cons_of_ne_nil (List.cons_ne_nil _ _)]

/-- The line that was begun comes first. -/
theorem exists_wrapFrom_eq (line : String) (rest : List String) :
    ∃ more others, wrapFrom indent correction ending line rest = (line ++ more) :: others := by
  induction rest generalizing line with
  | nil => exact ⟨")" ++ ending, [], by rw [wrapFrom, String.append_assoc]⟩
  | cons parameter rest ih =>
      obtain broken | ⟨_, kept⟩ := wrapFrom_cons line parameter rest
      · exact ⟨",", _, broken⟩
      · obtain ⟨more, others, begun⟩ := ih (line ++ ", " ++ parameter)
        refine ⟨", " ++ parameter ++ more, others, ?_⟩
        rw [kept, begun]
        simp only [String.append_assoc]

/-- The ending comes last. -/
theorem exists_wrapFrom_concat (line : String) (rest : List String) :
    ∃ front text, wrapFrom indent correction ending line rest = front ++ [text ++ ending] := by
  induction rest generalizing line with
  | nil => exact ⟨[], line ++ ")", rfl⟩
  | cons parameter rest ih =>
      obtain broken | ⟨_, kept⟩ := wrapFrom_cons line parameter rest
      · obtain ⟨front, text, ends⟩ := ih (indent ++ parameter)
        exact ⟨(line ++ ",") :: front, text, by rw [broken, ends]; rfl⟩
      · exact kept ▸ ih _

/-- The last line of a signature has the ending. -/
theorem exists_lines_concat (signature : Signature) (ending : String) :
    ∃ front text, signature.lines ending = front ++ [text ++ ending] := by
  obtain ⟨first, rest, parted⟩ := written_eq_cons signature
  have behind (front : String) :
      ∃ lines text, signature.linesBehind front ending = lines ++ [text ++ ending] := by
    rw [linesBehind, parted]
    exact exists_wrapFrom_concat _ _
  by_cases fits : width (signature.oneLine ending) < 80
  · have one : signature.lines ending = [signature.oneLine ending] := if_pos fits
    exact ⟨[], _, one⟩
  · have several : signature.lines ending = signature.wrapped ending := if_neg fits
    rw [several, wrapped_eq]
    split
    · obtain ⟨front, text, ends⟩ := behind ""
      exact ⟨signature.result :: front, text, by rw [ends]; rfl⟩
    · exact behind _

/-- What stands in front of the name comes first. -/
theorem exists_linesBehind_eq (signature : Signature) (front ending : String) :
    ∃ more others, signature.linesBehind front ending = (front ++ more) :: others := by
  obtain ⟨first, rest, parted⟩ := written_eq_cons signature
  rw [linesBehind, parted]
  obtain ⟨more, others, begun⟩ := exists_wrapFrom_eq (front ++ signature.name ++ "(" ++ first) rest
  refine ⟨signature.name ++ "(" ++ first ++ more, others, begun.trans ?_⟩
  simp only [String.append_assoc]

/-- A line that goes on behind the result type starts with it. -/
theorem exists_spacedResult_eq (signature : Signature) (more : String) :
    ∃ rest, signature.spacedResult ++ more = signature.result ++ rest ∧
      (rest = "" ∨ startsWith rest " " = true ∨ endsWith signature.result '*' = true) := by
  unfold spacedResult
  split
  · rename_i pointer
    exact ⟨more, rfl, .inr (.inr pointer)⟩
  · exact ⟨" " ++ more, String.append_assoc, .inr (.inl (by simp [startsWith, List.isPrefixOf]))⟩

/-- The lines of a signature spell it. -/
theorem spells_lines (signature : Signature) (ending : String) :
    Spells signature ending (signature.lines ending) := by
  obtain ⟨gap, known, spaced⟩ := spacedResult_eq signature
  have unseen : visible signature.spacedResult = visible signature.result := by
    rw [spaced, visible_append]
    simp only [List.mem_cons, List.not_mem_nil, or_false] at known
    rcases known with rfl | rfl
    · exact List.append_nil _
    · exact List.append_nil _
  obtain ⟨first, rest, parted⟩ := written_eq_cons signature
  have behind (front : String) : (signature.linesBehind front ending).flatMap visible =
      visible (front ++ signature.name ++ "(" ++ ", ".intercalate signature.written ++ ")" ++
        ending) := by
    rw [linesBehind, parted, visible_wrapFrom (visible_indentation _), intercalate_append_cons]
  by_cases fits : width (signature.oneLine ending) < 80
  · have one : signature.lines ending = [signature.oneLine ending] := if_pos fits
    rw [one]
    obtain ⟨more, begun, apart⟩ := exists_spacedResult_eq signature
      (Code.application signature.name signature.written ++ ending)
    refine ⟨?_, more, [], ?_, apart⟩
    · simp [oneLine, Code.application, unseen]
    · rw [← begun, oneLine, String.append_assoc]
  · have several : signature.lines ending = signature.wrapped ending := if_neg fits
    rw [several, wrapped_eq]
    split
    · refine ⟨?_, "", _, by rw [String.append_empty], .inl rfl⟩
      rw [List.flatMap_cons, behind]
      simp only [String.empty_append, visible_append, List.append_assoc]
    · refine ⟨?_, ?_⟩
      · rw [behind]
        simp only [unseen, visible_append]
      · obtain ⟨more, others, begun⟩ :=
          exists_linesBehind_eq signature signature.spacedResult ending
        obtain ⟨tail, starts, apart⟩ := exists_spacedResult_eq signature more
        exact ⟨tail, others, by rw [begun, starts], apart⟩

end Signature

end NetlinkFamily.C
