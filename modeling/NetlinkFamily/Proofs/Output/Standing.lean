import NetlinkFamily.Output.File
import NetlinkFamily.Proofs.Output.Listing
import NetlinkFamily.Proofs.Output.Rendering

namespace NetlinkFamily

open Declaration Outcome
open C (IsApart IsMarked isApart_of_any isMarked_define)
open C.Code C.Signature

/-- Lines that start with a sign are settled. -/
theorem isSettled_of_isMarked {lines : List String} (marked : ∀ line ∈ lines, IsMarked line) :
    ∀ declaration ∈ lines.map Declaration.line, declaration.IsSettled := by
  intro declaration member
  obtain ⟨line, listed, rfl⟩ := List.mem_map.1 member
  exact isSettled_line (marked line listed)

/-- A line that ends in a semicolon is settled if it is apart from what is in front of it. -/
theorem isSettled_statement {text : String} (apart : IsApart text) :
    (Declaration.line (text ++ ";")).IsSettled :=
  ⟨(C.isLevel_semicolon text).quiet, apart.append ";"⟩

/-- The policies of a file stand in its text. -/
theorem Declaration.follow_policies {declarations : List Declaration}
    (stand : ∀ declaration ∈ declarations, declaration.Stands) :
    Follow ((policies declarations).map fun table => (policy table).lines)
      (printed declarations) := by
  refine follow_selected stand fun declaration _ table selected => ?_
  cases declaration with
  | policy =>
      obtain rfl := Option.some.inj selected
      rfl
  | _ => cases selected

/-- A prototype with the comment in front of it. -/
def Declaration.documented? : Declaration → Option (Option String × C.Signature)
  | .prototype doc signature => some (doc, signature)
  | _ => none

/-- Prototypes with their comments are the prototypes, once the comments are dropped. -/
theorem Declaration.map_documented (declarations : List Declaration) :
    (declarations.filterMap documented?).map Prod.snd = prototypes declarations := by
  rw [prototypes, List.map_filterMap]
  congr 1
  funext declaration
  cases declaration <;> rfl

/-- The prototypes of a file stand in its text. -/
theorem Declaration.follow_prototypes {declarations : List Declaration}
    (settled : ∀ declaration ∈ declarations, declaration.IsSettled) :
    Follow ((prototypes declarations).map (·.lines ";")) (printed declarations) := by
  have stand : ∀ declaration ∈ declarations, declaration.Stands :=
    fun declaration member => stands_of_isSettled (settled declaration member)
  let text (both : Option String × C.Signature) : List String :=
    docLines both.1 ++ both.2.lines ";"
  have shape : ∀ declaration ∈ declarations, ∀ both, documented? declaration = some both →
      declaration.lines = text both := by
    intro declaration member both selected
    cases declaration with
    | prototype doc signature =>
        obtain rfl := Option.some.inj selected
        exact lines_prototype doc (settled _ member)
    | _ => cases selected
  have follow : Follow ((declarations.filterMap documented?).map text) (printed declarations) :=
    follow_selected stand shape
  rw [← map_documented, List.map_map]
  refine follow.suffixes ?_
  rw [List.forall₂_map_left_iff, List.forall₂_map_right_iff, List.forall₂_same]
  exact fun both _ => List.suffix_append _ _

/-- The words of a comment start with a sign on each line. -/
theorem isMarked_wrapWords {continuation line : String} (here : IsMarked line)
    (later : IsMarked continuation) (words : List String) :
    ∀ wrapped ∈ C.wrapWords continuation line words, IsMarked wrapped := by
  induction words generalizing line with
  | nil => exact List.forall_mem_singleton.2 here
  | cons word rest ih =>
      rw [C.wrapWords]
      split
      · exact List.forall_mem_cons.2 ⟨here, ih ((later.append _).append _)⟩
      · exact ih ((here.append _).append _)

/-- Every line of a comment starts with a sign. -/
theorem isMarked_commentLines (text : String) (indent : Bool) :
    ∀ line ∈ C.commentLines text indent, IsMarked line := by
  refine isMarked_wrapWords ⟨' ', ['*'], rfl, rfl⟩ ?_ _
  cases indent with
  | true => exact ⟨' ', ['*', ' ', ' '], rfl, rfl⟩
  | false => exact ⟨' ', ['*'], rfl, rfl⟩

namespace Constants

variable (family : Family)

/-- The keyword of an enumeration is apart from what is in front of it. -/
theorem isApart_enumHeader (given : Spec.NameKey) (standard : Option String) :
    IsApart (enumHeader family given standard) := by
  have plain : IsApart "enum" := isApart_of_any (by decide)
  have named : IsApart "enum " := isApart_of_any (by decide)
  unfold enumHeader
  split
  · split
    · exact plain
    · exact named.append _
  · exact plain
  · exact plain
  · exact ((named.append _).append _).append _

/-- An enumeration followed by its count is settled where its opening does not start with `else`. -/
theorem isSettled_withCount {enumeration : Enumeration} (apart : IsApart enumeration.header)
    (countName maxName : String) :
    ∀ declaration ∈ withCount family enumeration countName maxName, declaration.IsSettled := by
  unfold withCount
  rw [List.forall_mem_append, List.forall_mem_append]
  refine ⟨⟨List.forall_mem_singleton.2 apart, ?_⟩, List.forall_mem_singleton.2 trivial⟩
  split
  · rw [List.forall_mem_singleton]
    exact isSettled_line ((((isMarked_define.append _).append _).append _).append _)
  · exact List.forall_mem_nil _

/-- Every line that describes an enumeration starts with a sign. -/
theorem isMarked_description (set : EnumSet) : ∀ line ∈ description set, IsMarked line := by
  unfold description
  split
  · rw [List.forall_mem_append, List.forall_mem_append, List.forall_mem_singleton,
      List.forall_mem_singleton]
    refine ⟨⟨⟨'/', ['*', '*'], rfl, rfl⟩, fun line member => ?_⟩, ⟨' ', ['*', '/'], rfl, rfl⟩⟩
    obtain ⟨text, _, inside⟩ := List.mem_flatMap.1 member
    exact isMarked_commentLines text true line inside
  · exact List.forall_mem_nil _

/-- What is printed for the definitions is settled. -/
theorem isSettled_definitionsFrom (constants : List (String × C.DefineValue))
    (definitions : List Spec.Definition) :
    ∀ declaration ∈ definitionsFrom family constants definitions, declaration.IsSettled := by
  induction definitions generalizing constants with
  | nil =>
      rw [definitionsFrom]
      split
      · exact List.forall_mem_nil _
      · simp [IsSettled]
  | cons definition rest ih =>
      rw [definitionsFrom]
      cases definition.kind with
      | const => exact ih _
      | _ =>
          dsimp only
          rw [List.forall_mem_append, List.forall_mem_append]
          refine ⟨⟨by simp [IsSettled], ?_⟩, ih []⟩
          cases family.enumSet? definition.name with
          | none => exact List.forall_mem_nil _
          | some set =>
              dsimp only
              rw [List.forall_mem_append, List.forall_mem_cons, List.forall_mem_singleton]
              exact ⟨isSettled_of_isMarked (isMarked_description set),
                isApart_enumHeader family _ _, trivial⟩

/-- What is printed for an attribute set is settled. -/
theorem isSettled_attributes (set : AttributeSet) :
    ∀ declaration ∈ attributes family set, declaration.IsSettled := by
  unfold attributes
  split
  · exact List.forall_mem_nil _
  · apply isSettled_withCount
    exact isApart_enumHeader family set.enumName none

/-- What is printed for the commands is settled. -/
theorem isSettled_commands : ∀ declaration ∈ commands family, declaration.IsSettled := by
  unfold commands
  rw [List.forall_mem_append]
  constructor
  · apply isSettled_withCount
    exact isApart_enumHeader family family.operationsEnumName none
  split
  · rw [List.forall_mem_cons, List.forall_mem_singleton]
    exact ⟨isApart_enumHeader family family.asyncEnumName none, trivial⟩
  · exact List.forall_mem_nil _

/-- What is printed for the multicast groups is settled. -/
theorem isSettled_groups : ∀ declaration ∈ groups family, declaration.IsSettled := by
  unfold groups
  dsimp only
  split <;> simp [IsSettled]

/-- All parts of the header of constants are settled. -/
theorem isSettled_header : ∀ declaration ∈ header family, declaration.IsSettled := by
  have guard : IsMarked "#ifndef " := ⟨'#', ['i', 'f', 'n', 'd', 'e', 'f', ' '], rfl, rfl⟩
  have ending : IsMarked "#endif /* " :=
    ⟨'#', ['e', 'n', 'd', 'i', 'f', ' ', '/', '*', ' '], rfl, rfl⟩
  unfold header
  simp only [List.flatten_cons, List.flatten_nil, List.append_nil, List.forall_mem_append]
  refine ⟨?_, isSettled_definitionsFrom family [] _, ?_, isSettled_commands family, ?_,
    isSettled_groups family, ?_⟩
  · simp only [List.forall_mem_cons]
    exact ⟨isSettled_line (guard.append _), isSettled_line (isMarked_define.append _), trivial,
      trivial, trivial, List.forall_mem_nil _⟩
  · intro declaration member
    obtain ⟨set, _, inside⟩ := List.mem_flatMap.1 member
    exact isSettled_attributes family set declaration inside
  · exact List.forall_mem_singleton.2 trivial
  · rw [List.forall_mem_singleton]
    exact isSettled_line ((ending.append _).append _)

end Constants

namespace Kernel

variable {family : Family} {declarations : List Declaration}

section Sections

variable {holds : Declaration → Prop} (comment : ∀ text, holds (.comment text))
  (space : holds .space)

include comment space

/-- Tables stand under a title. -/
theorem forall_titled {tables : List Declaration} (each : ∀ declaration ∈ tables, holds declaration)
    (text : String) :
    ∀ declaration ∈ [Declaration.comment text] ++ tables ++ [.space], holds declaration := by
  rw [List.forall_mem_append, List.forall_mem_append, List.forall_mem_singleton,
    List.forall_mem_singleton]
  exact ⟨⟨comment text, each⟩, space⟩

/-- What holds of a title and of the tables holds of all that the operations share. -/
theorem forall_globalSection {table : Layout → Except ModelError (List Declaration)}
    (each : ∀ layout tables, table layout = .ok tables →
      ∀ declaration ∈ tables, holds declaration)
    (done : globalSection family table = .ok declarations) :
    ∀ declaration ∈ declarations, holds declaration := by
  unfold globalSection at done
  split at done
  · obtain ⟨layout, _, done⟩ := bind_eq_ok_iff.1 done
    cases layout with
    | none =>
        obtain rfl := Except.ok.inj done
        exact forall_titled comment space (List.forall_mem_nil _) _
    | some layout =>
        obtain ⟨tables, made, done⟩ := bind_eq_ok_iff.1 done
        obtain rfl := Except.ok.inj done
        exact forall_titled comment space (each layout tables made) _
  · exact Except.ok.inj done ▸ List.forall_mem_nil _

end Sections

/-- What holds of the policies of each operation holds of all of them. -/
theorem forall_operationSection {holds : Declaration → Prop}
    {policies : Operation → Except ModelError (List Declaration)}
    (each : ∀ operation tables, policies operation = .ok tables →
      ∀ declaration ∈ tables, holds declaration)
    (done : operationSection family policies = .ok declarations) :
    ∀ declaration ∈ declarations, holds declaration := by
  unfold operationSection at done
  split at done
  · exact Except.ok.inj done ▸ List.forall_mem_nil _
  · obtain ⟨parts, made, rfl⟩ := map_eq_ok_iff.1 done
    intro declaration member
    obtain ⟨part, listed, inside⟩ := List.mem_flatten.1 member
    obtain ⟨operation, _, done⟩ := mem_of_mapM made part listed
    exact each operation part done declaration inside

/-- What the source of the kernel side is made of. -/
inductive SourcePart (family : Family) : Declaration → Prop where
  | comment (text : String) : SourcePart family (comment text)
  | space : SourcePart family .space
  | policy {table : PolicyTable} (storage : table.storage ∈ ["", "static "]) :
      SourcePart family (.policy table)
  | operations (entries : List (List (String × String))) :
      SourcePart family (.operations { declarator := tableDeclarator family, entries })
  | object {start : String} (known : start ∈ ["static const struct genl_multicast_group ",
        "struct genl_family "]) {header rest : String} (same : header = start ++ rest)
      {contents : List C.Code} {lines : List String} (listed : contents = lines.map .line)
      (level : ∀ line ∈ lines, C.IsLevel line) : SourcePart family (.object header contents)

/-- The comment over nested policies is part of a kernel source. -/
theorem sourcePart_nestsComment :
    ∀ declaration ∈ nestsComment family, SourcePart family declaration := by
  unfold nestsComment
  split
  · exact List.forall_mem_nil _
  · exact List.forall_mem_singleton.2 (.comment _)

/-- A filled policy table is part of a kernel source. -/
theorem sourcePart_filledTable {storage stem : String} {layout : Layout}
    (known : storage ∈ ["", "static "])
    (filled : filledTable family storage stem layout = .ok declarations) :
    ∀ declaration ∈ declarations, SourcePart family declaration := by
  simp only [filledTable, bind_eq_ok_iff, pure_eq_ok_iff] at filled
  obtain ⟨table, outlined, entries, _, rfl⟩ := filled
  unfold tableOf at outlined
  split at outlined
  · cases outlined
  · obtain rfl := Except.ok.inj outlined
    rw [List.forall_mem_cons, List.forall_mem_singleton]
    exact ⟨.policy known, .space⟩

/-- The tables shared by all operations are parts of a kernel source. -/
theorem sourcePart_globalSection
    (done : (globalSection family fun layout => filledTable family "" layout.renderName layout) =
      .ok declarations) : ∀ declaration ∈ declarations, SourcePart family declaration :=
  forall_globalSection .comment .space (fun _ _ filled => sourcePart_filledTable (by simp) filled)
    done

/-- The tables of one operation's requests are parts of a kernel source. -/
theorem sourcePart_requestPolicies {operation : Operation}
    (done : requestPolicies family operation = .ok declarations) :
    ∀ declaration ∈ declarations, SourcePart family declaration := by
  simp only [requestPolicies, bind_eq_ok_iff, pure_eq_ok_iff] at done
  obtain ⟨parts, made, rfl⟩ := done
  intro declaration member
  obtain ⟨part, listed, inside⟩ := List.mem_flatten.1 member
  obtain ⟨mode, _, done⟩ := mem_of_mapM made part listed
  obtain ⟨subject, _, done⟩ := bind_eq_ok_iff.1 done
  have storage : (if hidesPolicies family then "static " else "") ∈ ["", "static "] := by
    split <;> simp
  have titled {tables : List Declaration}
      (each : ∀ declaration ∈ tables, SourcePart family declaration) (text : String) :=
    forall_titled .comment .space each text declaration
  cases asked : subject.request with
  | none =>
      rw [asked] at done
      obtain rfl := Except.ok.inj done
      exact titled (List.forall_mem_nil _) _ inside
  | some layout =>
      simp only [asked, bind_eq_ok_iff, pure_eq_ok_iff] at done
      obtain ⟨tables, filled, rfl⟩ := done
      exact titled (sourcePart_filledTable storage filled) _ inside

/-- The table of multicast groups is part of a kernel source. -/
theorem sourcePart_groupSource :
    ∀ declaration ∈ groupSource family, SourcePart family declaration := by
  unfold groupSource
  split
  · exact List.forall_mem_nil _
  · rw [List.forall_mem_cons, List.forall_mem_singleton]
    refine ⟨.object (by simp) (String.append_assoc ..) (List.map_map ..).symm ?_, .space⟩
    rw [List.forall_mem_map]
    exact fun group _ => C.isLevel_of_endsWith (C.endsWith_append (by decide) _ ',') (by decide)

/-- The family record is part of a kernel source. -/
theorem sourcePart_familySource :
    ∀ declaration ∈ familySource family, SourcePart family declaration := by
  unfold familySource
  dsimp only
  split
  · rw [List.forall_mem_singleton]
    refine .object (by simp) (String.append_assoc ..) rfl ?_
    have level (front : String) {last : String} (ends : last ≠ "" ∧ C.endsWith last ',' = true) :
        C.IsLevel (front ++ last) :=
      C.isLevel_of_endsWith ((C.endsWith_append ends.1 front ',').trans ends.2) (by decide)
    have plain {line : String} (ends : C.endsWith line ',' = true) : C.IsLevel line :=
      C.isLevel_of_endsWith ends (by decide)
    rw [List.forall_mem_append, List.forall_mem_append]
    refine ⟨⟨?_, ?_⟩, ?_⟩
    · simp only [List.forall_mem_cons]
      exact ⟨level _ (by decide), level _ (by decide), plain (by decide), plain (by decide),
        plain (by decide), List.forall_mem_nil _⟩
    · split
      · simp only [List.forall_mem_cons]
        exact ⟨level _ (by decide), level _ (by decide), List.forall_mem_nil _⟩
      · simp only [List.forall_mem_cons]
        exact ⟨level _ (by decide), level _ (by decide), List.forall_mem_nil _⟩
      · exact List.forall_mem_nil _
    · split
      · exact List.forall_mem_nil _
      · simp only [List.forall_mem_cons]
        exact ⟨level _ (by decide), level _ (by decide), List.forall_mem_nil _⟩
  · exact List.forall_mem_nil _

/-- The source of the kernel side is made of such parts only. -/
theorem sourcePart_source (rendered : source family = .ok declarations) :
    ∀ declaration ∈ declarations, SourcePart family declaration := by
  simp only [source, bind_eq_ok_iff, pure_eq_ok_iff] at rendered
  obtain ⟨nests, nested, shared, whole, own, made, entries, _, rfl⟩ := rendered
  have ofNests : ∀ declaration ∈ nests.flatten, SourcePart family declaration := by
    intro declaration member
    obtain ⟨part, listed, inside⟩ := List.mem_flatten.1 member
    obtain ⟨layout, _, filled⟩ := mem_of_mapM nested part listed
    exact sourcePart_filledTable (by simp) filled declaration inside
  have ofOperations : ∀ declaration ∈ own, SourcePart family declaration :=
    forall_operationSection (fun _ _ => sourcePart_requestPolicies) made
  simp only [List.flatten_cons, List.flatten_nil, List.append_nil, List.forall_mem_append,
    List.forall_mem_cons]
  exact ⟨sourcePart_nestsComment, ofNests, ⟨.space, List.forall_mem_nil _⟩,
    sourcePart_globalSection whole, ofOperations,
    ⟨.comment _, .operations entries, .space, List.forall_mem_nil _⟩,
    sourcePart_groupSource, sourcePart_familySource⟩

/-- The type and the name of the table of operations are apart from what is in front of them. -/
theorem isApart_tableDeclarator (family : Family) : IsApart (tableDeclarator family) := by
  have start : ∀ hidden : Bool, IsApart (if hidden then "static const" else "const") := by
    intro hidden
    cases hidden with
    | true => exact isApart_of_any (by decide)
    | false => exact isApart_of_any (by decide)
  unfold tableDeclarator
  exact (((((((start (describesFamily family)).append " struct ").append _).append " ").append
    _).append "_nl_ops[").append _).append "]"

/-- Every part of a kernel source is settled. -/
theorem SourcePart.isSettled {declaration : Declaration} (part : SourcePart family declaration) :
    declaration.IsSettled := by
  cases part with
  | comment text => exact isSettled_comment text
  | space => trivial
  | @policy table storage =>
      have start : IsApart (table.storage ++ "const struct nla_policy ") := by
        rcases List.mem_pair.1 storage with none | static
        · rw [none]
          exact isApart_of_any (by decide)
        · rw [static]
          exact isApart_of_any (by decide)
      exact (((start.append _).append _).append _).append _
  | operations => exact isApart_tableDeclarator family
  | object known same =>
      rw [same]
      refine IsApart.append ?_ _
      rcases List.mem_pair.1 known with rfl | rfl
      · exact isApart_of_any (by decide)
      · exact isApart_of_any (by decide)

/-- All parts of the source of the kernel side are settled. -/
theorem isSettled_source (rendered : source family = .ok declarations) :
    ∀ declaration ∈ declarations, declaration.IsSettled :=
  fun declaration member => (sourcePart_source rendered declaration member).isSettled

/-- A table that is only declared is settled. -/
theorem isSettled_sharedTable {stem : String} {layout : Layout} {declaration : Declaration}
    (shared : sharedTable family stem layout = .ok declaration) : declaration.IsSettled := by
  simp only [sharedTable, bind_eq_ok_iff, pure_eq_ok_iff] at shared
  obtain ⟨table, outlined, rfl⟩ := shared
  unfold tableOf at outlined
  split at outlined
  · cases outlined
  · obtain rfl := Except.ok.inj outlined
    have start : IsApart ("extern " ++ "const struct nla_policy ") := isApart_of_any (by decide)
    exact isSettled_statement ((((start.append _).append _).append _).append _)

/-- A function that another source defines returns a number or nothing. -/
theorem isType_plain {result : String} (known : result ∈ ["int", "void"]) : IsType result := by
  rcases List.mem_pair.1 known with rfl | rfl
  · exact ⟨by decide, isApart_of_any (by decide)⟩
  · exact ⟨by decide, isApart_of_any (by decide)⟩

/-- The prototypes of the hooks are settled. -/
theorem isSettled_hookPrototypes :
    ∀ declaration ∈ hookPrototypes family, declaration.IsSettled := by
  have hooks {result : String} (known : result ∈ ["int", "void"]) (parameters names : List String) :
      ∀ declaration ∈ names.map fun name => prototype result (CName.lower name) parameters,
        declaration.IsSettled :=
    List.forall_mem_map.2 fun _ _ => isType_plain known
  unfold hookPrototypes
  simp only [List.forall_mem_append]
  exact ⟨⟨⟨hooks (by simp) _ _, hooks (by simp) _ _⟩, hooks (by simp) _ _⟩, hooks (by simp) _ _⟩

/-- The prototypes of an operation's handlers are settled. -/
theorem isSettled_handlerPrototypes (operation : Operation) :
    ∀ declaration ∈ handlerPrototypes family operation, declaration.IsSettled :=
  List.forall_mem_map.2 fun _ _ => isType_plain (by simp)

/-- The declaration of the table of operations is settled. -/
theorem isSettled_tableHeader : ∀ declaration ∈ tableHeader family, declaration.IsSettled := by
  have outside : IsApart "extern " := isApart_of_any (by decide)
  have handlers : ∀ declaration ∈ family.operations.flatMap (handlerPrototypes family),
      declaration.IsSettled := by
    intro declaration member
    obtain ⟨operation, _, inside⟩ := List.mem_flatMap.1 member
    exact isSettled_handlerPrototypes operation declaration inside
  unfold tableHeader
  simp only [List.flatten_cons, List.flatten_nil, List.append_nil, List.forall_mem_append,
    List.forall_mem_singleton]
  refine ⟨?_, trivial, isSettled_hookPrototypes, trivial, handlers, trivial⟩
  split
  · exact List.forall_mem_nil _
  · rw [List.forall_mem_cons, List.forall_mem_singleton]
    exact ⟨isSettled_comment _, isSettled_statement (outside.append _)⟩

/-- The declared policies of a call are settled. -/
theorem isSettled_callPolicyHeader {operation : Operation}
    (done : callPolicyHeader family operation = .ok declarations) :
    ∀ declaration ∈ declarations, declaration.IsSettled := by
  unfold callPolicyHeader at done
  split at done
  · exact Except.ok.inj done ▸ List.forall_mem_nil _
  · obtain ⟨subject, _, done⟩ := bind_eq_ok_iff.1 done
    split at done
    · exact Except.ok.inj done ▸ List.forall_mem_nil _
    · split at done
      · exact Except.ok.inj done ▸ List.forall_mem_singleton.2 trivial
      · simp only [bind_eq_ok_iff, pure_eq_ok_iff] at done
        obtain ⟨table, shared, rfl⟩ := done
        rw [List.forall_mem_cons, List.forall_mem_singleton]
        exact ⟨isSettled_sharedTable shared, trivial⟩

/-- The enumeration of multicast groups is settled. -/
theorem isSettled_groupHeader : ∀ declaration ∈ groupHeader family, declaration.IsSettled := by
  have keyword : IsApart "enum" := isApart_of_any (by decide)
  unfold groupHeader
  split
  · exact List.forall_mem_nil _
  · rw [List.forall_mem_cons, List.forall_mem_singleton]
    exact ⟨keyword, trivial⟩

/-- The declaration of the family record is settled. -/
theorem isSettled_familyHeader : ∀ declaration ∈ familyHeader family, declaration.IsSettled := by
  have outside : IsApart "extern struct genl_family " := isApart_of_any (by decide)
  unfold familyHeader
  split
  · have level : C.IsLevel ("extern struct genl_family " ++ family.name ++ "_nl_family;") :=
      C.isLevel_of_endsWith (C.endsWith_append (by decide) _ ';') (by decide)
    rw [List.forall_mem_cons, List.forall_mem_singleton]
    exact ⟨⟨level.quiet, (outside.append _).append _⟩, trivial⟩
  · exact List.forall_mem_nil _

/-- All parts of the header of the kernel side are settled. -/
theorem isSettled_header (declared : header family = .ok declarations) :
    ∀ declaration ∈ declarations, declaration.IsSettled := by
  simp only [header, bind_eq_ok_iff, pure_eq_ok_iff] at declared
  obtain ⟨nests, nested, shared, whole, own, made, rfl⟩ := declared
  have title : ∀ declaration ∈ nestsComment family, declaration.IsSettled :=
    fun declaration member => (sourcePart_nestsComment declaration member).isSettled
  have ofNests : ∀ declaration ∈ nests, declaration.IsSettled := by
    intro declaration member
    obtain ⟨layout, _, made⟩ := mem_of_mapM nested declaration member
    exact isSettled_sharedTable made
  have ofAll : ∀ declaration ∈ shared, declaration.IsSettled := by
    apply forall_globalSection isSettled_comment trivial ?_ whole
    intro layout tables done
    obtain ⟨table, made, done⟩ := bind_eq_ok_iff.1 done
    exact Except.ok.inj done ▸ List.forall_mem_singleton.2 (isSettled_sharedTable made)
  have ofOperations : ∀ declaration ∈ own, declaration.IsSettled :=
    forall_operationSection (fun _ _ => isSettled_callPolicyHeader) made
  simp only [List.flatten_cons, List.flatten_nil, List.append_nil, List.forall_mem_append,
    List.forall_mem_singleton]
  exact ⟨title, ofNests, trivial, ofAll, ofOperations, isSettled_tableHeader,
    isSettled_groupHeader, isSettled_familyHeader⟩

end Kernel

end NetlinkFamily
