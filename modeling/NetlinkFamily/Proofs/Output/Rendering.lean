import NetlinkFamily.Output.Declaration
import NetlinkFamily.Proofs.C.Placement

namespace NetlinkFamily

namespace C.Signature

/-- A result type that starts no condition and nothing that goes on with a block. -/
structure IsType (result : String) : Prop where
  plain : endsWith result ')' = false
  apart : IsApart result

/-- A pointer to a structure is such a type, whatever the name of the structure is. -/
theorem isType_structure {start : String} (apart : IsApart start) (name : String) :
    IsType (start ++ name ++ " *") where
  plain := endsWith_append (by decide) _ ')'
  apart := (apart.append _).append _

/-- The lines of a definition stand in front of its braces. -/
theorem define_eq (signature : Signature) (body : List Code) :
    signature.define body = (signature.lines "").map .line ++ [.block "" body ""] := by
  have none : Code.locals [] = [] := rfl
  rw [define, defineWith, none, List.append_nil]
  rfl

end C.Signature

namespace Declaration

open C (IsApart IsMarked isApart_of_any isMarked_defineLines)
open C.Code C.Signature

/-- The lines of a declaration on its own. -/
def lines (declaration : Declaration) : List String :=
  linesAt 0 declaration.code

/-- A declaration that neither goes on with what is in front of it nor guards what is behind it. -/
structure Stands (declaration : Declaration) : Prop where
  apart : startsElse declaration.code = false
  frees : Frees declaration.code

/-- The lines of a file. -/
def printed (declarations : List Declaration) : List String :=
  (writeAll {} (declarations.flatMap code)).printed

/-- The text of a file is made of its lines. -/
theorem render_eq (declarations : List Declaration) :
    render declarations = String.join ((printed declarations).map (· ++ "\n")) := by
  rw [render, C.Code.render, C.Writer.finish_eq]
  rfl

/-- Lines are no request for an empty line. -/
theorem code_map_line (lines : List String) :
    lines.map C.Code.line = [] ∨ Leads (lines.map C.Code.line) := by
  cases lines with
  | nil => exact .inl rfl
  | cons first rest => exact .inr trivial

/-- A declaration is nothing, a request for an empty line, or lines of its own. -/
theorem code_cases (declaration : Declaration) :
    declaration.code = [] ∨ declaration.code = [.space] ∨ Leads declaration.code := by
  cases declaration with
  | space => exact .inr (.inl rfl)
  | prototype => exact (code_map_line _).imp_right .inr
  | defines => exact (code_map_line _).imp_right .inr
  | policy => exact (code_map_line _).imp_right .inr
  | function signature body =>
      obtain ⟨rest, others, parted, _⟩ := (spells_lines signature "").result
      rw [code, define_eq, parted]
      exact .inr (.inr trivial)
  | _ => exact .inr (.inr trivial)

/-- The lines of a file are those of its declarations, one behind another. Some have an empty line
in front. -/
theorem exists_parts {declarations : List Declaration}
    (stand : ∀ declaration ∈ declarations, declaration.Stands) :
    ∃ parts, List.Forall₂ (fun (declaration : Declaration) part =>
        part = declaration.lines ∨ part = "" :: declaration.lines) declarations parts ∧
      printed declarations = parts.flatten := by
  -- Between two declarations the writer is at the outermost level and guards nothing. It may hold a
  -- brace or owe an empty line.
  suffices general : ∀ writer : C.Writer, writer.guarded = false → writer.depth = 0 →
      ∃ parts, List.Forall₂ (fun (declaration : Declaration) part =>
          part = declaration.lines ∨ part = "" :: declaration.lines) declarations parts ∧
        (writeAll writer (declarations.flatMap code)).printed = writer.printed ++ parts.flatten from
    general {} rfl rfl
  induction declarations with
  | nil => exact fun writer _ _ => ⟨[], .nil, (List.append_nil _).symm⟩
  | cons first rest ih =>
      obtain ⟨here, later⟩ := List.forall_mem_cons.1 stand
      intro writer free outermost
      have depth : (writeAll writer first.code).depth = 0 :=
        (grows_writeAll writer first.code).depth.trans outermost
      obtain ⟨parts, each, whole⟩ :=
        ih later (writeAll writer first.code) (here.frees writer free) depth
      have behind {part : List String} (own : part = first.lines ∨ part = "" :: first.lines)
          (shown : (writeAll writer first.code).printed = writer.printed ++ part) :
          ∃ parts, List.Forall₂ (fun (declaration : Declaration) part =>
              part = declaration.lines ∨ part = "" :: declaration.lines) (first :: rest) parts ∧
            (writeAll writer ((first :: rest).flatMap code)).printed =
              writer.printed ++ parts.flatten := by
        refine ⟨part :: parts, .cons own each, ?_⟩
        rw [List.flatMap_cons, writeAll_append, whole, shown, List.flatten_cons,
          List.append_assoc]
      have silent (none : first.lines = []) (same : (writeAll writer first.code).printed =
          writer.printed) := behind (.inl none.symm) (same.trans (List.append_nil _).symm)
      rcases code_cases first with none | gap | leads
      · exact silent (by rw [lines, none]; rfl) (by rw [none]; rfl)
      · exact silent (by rw [lines, gap]; rfl) (by rw [gap]; rfl)
      · have shown := printed_writeAll free leads
          (by rw [here.apart, Bool.and_false] : (writer.closing && startsElse first.code) = false)
        rw [outermost, List.append_assoc] at shown
        refine behind ?_ shown
        cases writer.blank
        · exact .inl rfl
        · exact .inr rfl

/-- Groups of lines stand in a file, one behind another. -/
def Follow : List (List String) → List String → Prop
  | [], _ => True
  | group :: rest, lines => ∃ front others, lines = front ++ group ++ others ∧ Follow rest others

/-- Lines that follow one another still do behind other lines. -/
theorem Follow.behind {groups : List (List String)} {lines : List String}
    (follow : Follow groups lines) (front : List String) : Follow groups (front ++ lines) := by
  cases groups with
  | nil => trivial
  | cons group rest =>
      obtain ⟨before, others, rfl, later⟩ := follow
      exact ⟨front ++ before, others, by simp only [List.append_assoc], later⟩

/-- What each of the groups ends with stands in the file, too. -/
theorem Follow.suffixes {groups ends : List (List String)} {lines : List String}
    (follow : Follow groups lines) (each : List.Forall₂ (fun last group => last <:+ group) ends
      groups) : Follow ends lines := by
  induction each generalizing lines with
  | nil => trivial
  | cons here _ ih =>
      obtain ⟨front, rfl⟩ := here
      obtain ⟨before, others, rfl, later⟩ := follow
      exact ⟨before ++ front, others, by simp only [List.append_assoc], ih later⟩

/-- Each of the groups stands in the file. -/
theorem Follow.infix {groups : List (List String)} {lines : List String}
    (follow : Follow groups lines) {group : List String} (member : group ∈ groups) :
    group <:+: lines := by
  induction groups generalizing lines with
  | nil => cases member
  | cons first rest ih =>
      obtain ⟨before, others, rfl, later⟩ := follow
      rcases List.mem_cons.1 member with rfl | behind
      · exact ⟨before, others, rfl⟩
      · exact (ih later behind).trans (List.suffix_append _ _).isInfix

section Files

variable {declarations : List Declaration}
  (stand : ∀ declaration ∈ declarations, declaration.Stands)

include stand

/-- What is selected from a file stands in its text, in order, as the lines that it has on its own. -/
theorem follow_selected {A : Type} {select : Declaration → Option A} {text : A → List String}
    (shape : ∀ declaration ∈ declarations, ∀ a, select declaration = some a →
      declaration.lines = text a) :
    Follow ((declarations.filterMap select).map text) (printed declarations) := by
  obtain ⟨parts, each, whole⟩ := exists_parts stand
  rw [whole]
  clear whole stand
  induction each with
  | nil => trivial
  | @cons first part rest parts here _ ih =>
      obtain ⟨own, others⟩ := List.forall_mem_cons.1 shape
      rw [List.flatten_cons, List.filterMap_cons]
      cases selected : select first with
      | none => exact (ih others).behind part
      | some a =>
          rw [own a selected] at here
          rcases here with rfl | rfl
          · exact ⟨[], parts.flatten, rfl, ih others⟩
          · exact ⟨[""], parts.flatten, rfl, ih others⟩

/-- Each declaration stands in the text of its file. -/
theorem lines_infix {declaration : Declaration} (listed : declaration ∈ declarations) :
    declaration.lines <:+: printed declarations := by
  have shape : ∀ declaration ∈ declarations, ∀ a, some declaration = some a →
      declaration.lines = a.lines :=
    fun _ _ _ same => congrArg lines (Option.some.inj same)
  have follow := follow_selected stand shape
  rw [List.filterMap_some] at follow
  exact follow.infix (List.mem_map_of_mem listed)

/-- Of the lines of a file, those of a kind that no empty line has are those of its declarations. -/
theorem filter_printed {kind : String → Bool} (blank : kind "" = false) :
    (printed declarations).filter kind =
      declarations.flatMap fun declaration => declaration.lines.filter kind := by
  obtain ⟨parts, each, whole⟩ := exists_parts stand
  rw [whole]
  clear whole stand
  induction each with
  | nil => rfl
  | cons here _ ih =>
      rw [List.flatten_cons, List.filter_append, List.flatMap_cons, ih]
      rcases here with rfl | rfl
      · rfl
      · rw [List.filter_cons_of_neg (by simp [blank])]

end Files

section Kinds

/-- What a declaration has to start with and to end with for it to stand on its own. -/
def IsSettled : Declaration → Prop
  | .line text => C.isCondition text = false ∧ IsApart text
  | .prototype _ signature => IsType signature.result
  | .function signature body => IsType signature.result ∧ Frees body
  | .structure type => IsApart type.name
  | .enumeration value => IsApart value.header
  | .object header _ | .notifications header _ => IsApart header
  | .policy table => IsApart table.declarator
  | .operations table => IsApart table.declarator
  | .space | .defines _ | .validation _ => True

/-- A line that starts with a sign is settled. -/
theorem isSettled_line {text : String} (marked : IsMarked text) : (line text).IsSettled :=
  ⟨marked.quiet, marked.isApart⟩

/-- A comment is settled, whatever it says. -/
theorem isSettled_comment (text : String) : (comment text).IsSettled :=
  isSettled_line (IsMarked.append (IsMarked.append ⟨'/', ['*', ' '], rfl, rfl⟩ text) _)

/-- Lines that are settled stand on their own. -/
theorem stands_of_lines {declaration : Declaration} {lines : List String}
    (same : declaration.code = lines.map .line)
    (apart : ∀ first ∈ lines.head?, IsApart first)
    (quiet : ∀ line ∈ lines, C.isCondition line = false) : declaration.Stands := by
  refine ⟨?_, same ▸ frees_lines quiet⟩
  rw [same]
  cases lines with
  | nil => rfl
  | cons first rest => exact (apart first rfl).startsWith

/-- A declaration that is one closed block stands on its own. -/
theorem stands_of_block {declaration : Declaration} {header closing : String} {body : List C.Code}
    (same : declaration.code = [.block header body closing]) (apart : IsApart header)
    (filled : closing.isEmpty = false) : declaration.Stands where
  apart := same ▸ apart.startsWith
  frees := same ▸ frees_block header body filled

/-- A comment starts with a sign on each of its lines. -/
theorem isMarked_docLines (doc : Option String) : ∀ line ∈ docLines doc, IsMarked line := by
  cases doc with
  | none => simp [docLines]
  | some doc =>
      have first : IsMarked "/*" := ⟨'/', ['*'], rfl, rfl⟩
      have start : IsMarked " * " := ⟨' ', ['*', ' '], rfl, rfl⟩
      have last : IsMarked " */" := ⟨' ', ['*', '/'], rfl, rfl⟩
      simp only [docLines, List.forall_mem_cons]
      exact ⟨first, start.append doc, last, List.forall_mem_nil _⟩

/-- The first line of a signature goes on with nothing. -/
theorem isApart_lines {signature : C.Signature} (type : IsType signature.result) (ending : String) :
    ∀ first ∈ (signature.lines ending).head?, IsApart first := by
  obtain ⟨rest, others, parted, _⟩ := (spells_lines signature ending).result
  rw [parted]
  rintro first ⟨⟩
  exact type.apart.append rest

/-- A prototype ends in a semicolon, so none of its lines is a condition. -/
theorem quiet_prototype (doc : Option String) {signature : C.Signature}
    (type : IsType signature.result) :
    ∀ line ∈ docLines doc ++ signature.lines ";", C.isCondition line = false := by
  obtain ⟨front, text, ends⟩ := exists_lines_concat signature ";"
  have others : ∀ line ∈ (signature.lines ";").dropLast, C.isCondition line = false :=
    quiet_lines type.plain
  rw [ends, List.dropLast_concat] at others
  rw [ends]
  exact List.forall_mem_append.2
    ⟨fun line member => (isMarked_docLines doc line member).quiet, List.forall_mem_append.2
      ⟨others, List.forall_mem_singleton.2 (C.isLevel_semicolon text).quiet⟩⟩

/-- Behind a comment or without one, a prototype goes on with nothing. -/
theorem isApart_prototype (doc : Option String) {signature : C.Signature}
    (type : IsType signature.result) :
    ∀ first ∈ (docLines doc ++ signature.lines ";").head?, IsApart first := by
  cases doc with
  | none => exact isApart_lines type ";"
  | some doc =>
      rintro first ⟨⟩
      exact isApart_of_any (by decide)

/-- No line of a table of policies is a condition. -/
theorem quiet_policy (table : PolicyTable) :
    ∀ line ∈ table.lines, C.isCondition line = false := by
  have brace : C.isCondition (table.declarator ++ " = \x7b") = false := by
    rw [C.isCondition, C.endsWith_append (by decide)]
    rfl
  rw [PolicyTable.lines, List.forall_mem_append, List.forall_mem_cons, List.forall_mem_map]
  exact ⟨⟨brace, fun entry _ => isCondition_of_comma _⟩,
    List.forall_mem_singleton.2 (by decide)⟩

/-- What is settled stands on its own. -/
theorem stands_of_isSettled {declaration : Declaration} (settled : declaration.IsSettled) :
    declaration.Stands := by
  have semicolon : ";".isEmpty = false := rfl
  cases declaration with
  | line text =>
      have same : (line text).code = [text].map .line := rfl
      exact stands_of_lines same (by rintro _ ⟨⟩; exact settled.2) (by simpa using settled.1)
  | space => exact ⟨rfl, frees_space⟩
  | prototype doc signature =>
      exact stands_of_lines rfl (isApart_prototype doc settled) (quiet_prototype doc settled)
  | function signature body =>
      obtain ⟨type, frees⟩ := settled
      obtain ⟨rest, others, parted, _⟩ := (spells_lines signature "").result
      refine ⟨?_, ?_⟩
      · rw [code, define_eq, parted]
        exact (type.apart.append rest).startsWith
      · rw [code, define_eq]
        exact frees.block _ "" ""
  | defines values =>
      exact stands_of_lines rfl
        (fun first head => (isMarked_defineLines values first (List.mem_of_mem_head? head)).isApart)
        fun line member => (isMarked_defineLines values line member).quiet
  | policy table =>
      refine stands_of_lines rfl ?_ (quiet_policy table)
      rintro first ⟨⟩
      exact IsApart.append settled _
  | validation table =>
      have apart : IsApart "struct ynl_policy_attr " := isApart_of_any (by decide)
      refine ⟨(((apart.append _).append _).append _).append _ |>.startsWith, ?_⟩
      have first := (frees_block ("struct ynl_policy_attr " ++ table.stem ++ "_policy[" ++
        table.bound ++ " + 1] =") table.entries semicolon).append frees_space
      exact first.append ((frees_block _ _ semicolon).append frees_space)
  | operations table => exact stands_of_block rfl (IsApart.append settled _) semicolon
  | _ => exact stands_of_block rfl settled semicolon

open C.Piece (indented ending opening)

/-- A header stands in front of the brace that it opens. -/
theorem opening_eq {header : String} (filled : header ≠ "") : opening header = header ++ " \x7b" := by
  have some : header.isEmpty = false := by simpa using filled
  rw [opening, some, if_neg Bool.false_ne_true]

/-- No tabs change nothing. -/
theorem tabs_zero_append (text : String) : C.tabs 0 ++ text = text :=
  String.empty_append

/-- A line is printed as it is. -/
theorem lines_line (text : String) : (line text).lines = [text] := by
  have quiet : ∀ line ∈ [text].dropLast, C.isCondition line = false := by simp
  exact printed_lines quiet []

/-- A table of policies has a line for each of its entries. -/
theorem lines_policy (table : PolicyTable) :
    (policy table).lines = (table.declarator ++ " = \x7b") ::
      (table.entries.map fun entry => "\t[" ++ entry.1 ++ "] = " ++ entry.2.initializer ++ ",") ++
        ["\x7d;"] := by
  exact printed_lines (fun line member => quiet_policy table line (List.mem_of_mem_dropLast member))
    []

/-- A prototype has the lines of its signature, behind those of its comment. -/
theorem lines_prototype (doc : Option String) {signature : C.Signature}
    (type : IsType signature.result) :
    (prototype doc signature).lines = docLines doc ++ signature.lines ";" := by
  exact printed_lines
    (fun line member => quiet_prototype doc type line (List.mem_of_mem_dropLast member)) []

/-- A function has the lines of its signature, and its body between braces. -/
theorem exists_lines_function {signature : C.Signature} (type : IsType signature.result)
    (body : List C.Code) :
    ∃ brace ∈ ["\x7b", "\t\x7b"], (function signature body).lines =
      signature.lines "" ++ brace :: linesAt 1 body ++ ["\x7d"] := by
  have quiet : ∀ line ∈ (signature.lines "").dropLast, C.isCondition line = false :=
    quiet_lines type.plain
  obtain ⟨guards, written⟩ := exists_writeAll_lines quiet []
  have opened := C.Writer.printed_openBlock (signature.lines "") guards ""
  have inside := depth_inside { C.Writer.resting (signature.lines "") 0 with guarded := guards } ""
    body
  have whole : (function signature body).lines = signature.lines "" ++
      [(if guards then "\t" else "") ++ opening ""] ++ linesAt 1 body ++ ["\x7d"] := by
    rw [lines, linesAt, code, define_eq, writeAll_append, written, writeAll, writeAll, write,
      List.nil_append, C.Writer.printed_closeBlock inside, C.Writer.openBlock_eq_resting,
      printed_writeAll_resting, opened]
    rfl
  refine ⟨(if guards then "\t" else "") ++ opening "", ?_, by simpa using whole⟩
  cases guards <;> decide

/-- A group of lines is a function: its signature, and between braces the statements of its body. -/
def PrintsFunction (signature : C.Signature) (body : List C.Code) (group : List String) : Prop :=
  ∃ front inside shown, signature.Spells "" front ∧
    (∃ brace ∈ ["\x7b", "\t\x7b"], group = front ++ brace :: inside ++ ["\x7d"]) ∧
    shown.Sublist inside ∧ List.Forall₂ Shows (statementsIn body) shown

/-- A function of a file stands in its text. -/
theorem exists_printed_function {declarations : List Declaration}
    (settled : ∀ declaration ∈ declarations, declaration.IsSettled) {signature : C.Signature}
    {body : List C.Code} (listed : .function signature body ∈ declarations) :
    ∃ group, group <:+: printed declarations ∧ PrintsFunction signature body group := by
  have type : IsType signature.result := (settled _ listed).1
  obtain ⟨brace, known, whole⟩ := exists_lines_function type body
  obtain ⟨shown, within, each⟩ := exists_shown 1 body
  have stands := lines_infix (fun declaration member =>
    stands_of_isSettled (settled declaration member)) listed
  exact ⟨_, stands, _, _, shown, signature.spells_lines "", ⟨brace, known, whole⟩, within, each⟩

/-- An object has the lines between its braces one level deeper. -/
theorem lines_object {header : String} (filled : header ≠ "") {lines : List String}
    (level : ∀ line ∈ lines, C.IsLevel line) :
    (object header (lines.map .line)).lines =
      (header ++ " \x7b") :: lines.map ("\t" ++ ·) ++ ["\x7d;"] := by
  have free : Frees (lines.map .line) := frees_lines fun line member => (level line member).quiet
  have closed : indented 0 (ending ";") = "\x7d;" := rfl
  show linesAt 0 [.block header (lines.map .line) ";"] = _
  rw [linesAt_block free, opening_eq filled, tabs_zero_append, linesAt_lines level, closed]
  rfl

/-- The numbers of an enumeration stand on lines of their own behind its header. -/
theorem prefix_lines_enumeration (enumeration : Enumeration) (filled : enumeration.header ≠ "") :
    (enumeration.header ++ " \x7b") ::
        enumeration.enumerators.map (fun enumerator => "\t" ++ enumerator.text ++ ",") <+:
      (Declaration.enumeration enumeration).lines := by
  have level : ∀ line ∈ enumeration.enumerators.map (fun enumerator => enumerator.text ++ ","),
      C.IsLevel line := by
    intro line member
    obtain ⟨enumerator, _, rfl⟩ := List.mem_map.1 member
    exact C.isLevel_comma _
  obtain ⟨rest, same⟩ : ∃ rest, enumeration.code = .block enumeration.header
      ((enumeration.enumerators.map fun enumerator => enumerator.text ++ ",").map .line ++ rest)
      ";" := by
    rw [List.map_map]
    exact ⟨_, rfl⟩
  have kept := prefix_linesAt_block level rest 0 enumeration.header ";"
  rw [opening_eq filled, tabs_zero_append, List.map_map] at kept
  rw [lines, code, same]
  exact kept

/-- A structure has a line for each of its fields. Those that record presence are in front of the
others, in a structure of their own. -/
theorem exists_lines_structure (type : StructureType) (filled : type.name ≠ "") :
    ∃ gap ∈ [[], [""]], (Declaration.structure type).lines = (type.name ++ " \x7b") ::
      (if type.presence.isEmpty then []
        else "\tstruct \x7b" :: type.presence.map (fun field => "\t\t" ++ field.text) ++
          "\t\x7d _present;" :: gap) ++
      type.fields.map (fun field => "\t" ++ field.text) ++ ["\x7d;"] := by
  have level : ∀ fields : List C.Field, ∀ line ∈ fields.map C.Field.text, C.IsLevel line := by
    intro fields line member
    obtain ⟨field, _, rfl⟩ := List.mem_map.1 member
    exact C.isLevel_semicolon _
  have coded (fields : List C.Field) : fields.map C.Field.code = (fields.map C.Field.text).map .line :=
    (List.map_map ..).symm
  have frees (fields : List C.Field) : Frees (fields.map C.Field.code) := by
    rw [coded]
    exact frees_lines fun line member => (level fields line member).quiet
  have closed : indented 0 (ending ";") = "\x7d;" := rfl
  have whole {body : List C.Code} (free : Frees body) :
      linesAt 0 [.block type.name body ";"] =
        (type.name ++ " \x7b") :: linesAt 1 body ++ ["\x7d;"] := by
    rw [linesAt_block free, opening_eq filled, tabs_zero_append, closed]
  have plain : linesAt 1 (type.fields.map C.Field.code) =
      type.fields.map fun field => "\t" ++ field.text := by
    rw [coded, linesAt_lines (level type.fields), List.map_map]
    rfl
  rw [lines, code, StructureType.code]
  split
  · refine ⟨[], by simp, ?_⟩
    rw [List.nil_append, whole (frees _), plain]
    rfl
  · have inner : linesAt 1 [.block "struct" (type.presence.map C.Field.code) "_present;"] =
        "\tstruct \x7b" :: type.presence.map (fun field => "\t\t" ++ field.text) ++
          ["\t\x7d _present;"] := by
      rw [linesAt_block (frees _), coded, linesAt_lines (level type.presence), List.map_map]
      rfl
    have text : "_present;".isEmpty = false := rfl
    have marked : Frees [.block "struct" (type.presence.map C.Field.code) "_present;", .space] :=
      (frees_block _ _ text).append frees_space
    have leads : type.fields.map C.Field.code = [] ∨ Leads (type.fields.map C.Field.code) := by
      rw [coded]
      exact code_map_line _
    obtain ⟨gap, known, separate⟩ :=
      exists_linesAt_spaced (frees type.presence) text leads 1 "struct"
    refine ⟨gap, known, ?_⟩
    rw [whole (marked.append (frees _)), separate, inner, plain]
    simp

/-- The table of operations has a block for each of its entries, with a line for each member. -/
theorem lines_operations (table : OperationTable) :
    (operations table).lines = (table.declarator ++ " = \x7b") ::
      (table.entries.flatMap fun members =>
        "\t\x7b" :: (C.initializerLines members).map ("\t\t" ++ ·) ++ ["\t\x7d,"]) ++
      ["\x7d;"] := by
  have level : ∀ members, ∀ line ∈ C.initializerLines members, C.IsLevel line := by
    intro members line member
    obtain ⟨_, _, rfl⟩ := List.mem_map.1 member
    exact C.isLevel_comma _
  have frees (members : List (String × String)) :
      Frees ((C.initializerLines members).map .line) :=
    frees_lines fun line member => (level members line member).quiet
  have entry (members : List (String × String)) :
      linesAt 1 [.block "" ((C.initializerLines members).map .line) ","] =
        "\t\x7b" :: (C.initializerLines members).map ("\t\t" ++ ·) ++ ["\t\x7d,"] := by
    rw [linesAt_block (frees members), linesAt_lines (level members)]
    rfl
  have comma : ",".isEmpty = false := rfl
  have free : Frees (table.entries.map fun members =>
      .block "" ((C.initializerLines members).map .line) ",") := by
    refine frees_of_forall fun part member => ?_
    obtain ⟨members, _, rfl⟩ := List.mem_map.1 member
    exact frees_block _ _ comma
  have filled : table.declarator ++ " =" ≠ "" := by simp
  have brace : table.declarator ++ " =" ++ " \x7b" = table.declarator ++ " = \x7b" := by
    rw [String.append_assoc]
    rfl
  rw [lines, code, OperationTable.code, linesAt_block free, opening_eq filled, tabs_zero_append,
    linesAt_blocks frees comma, brace]
  simp only [entry]
  rfl

end Kinds

end Declaration

end NetlinkFamily
