import NetlinkFamily.Proofs.Model.Messages
import NetlinkFamily.Proofs.Output.Standing

namespace NetlinkFamily

namespace Enumeration

/-- The values that C gives to enumerators behind others that are known, `next` being the count. -/
def readFrom (next : Int) (known : List (String × Int)) : List Enumerator → List (String × Int)
  | [] => []
  | enumerator :: rest =>
      let value :=
        match enumerator.value with
        | .implicit => next
        | .number value => (value : Int)
        | .below name => (known.lookup name).getD 0 - 1
      (enumerator.name, value) :: readFrom (value + 1) ((enumerator.name, value) :: known) rest

/-- The enumerators with the values that C gives them, in order. -/
def values (enumeration : Enumeration) : List (String × Int) :=
  readFrom 0 [] (enumeration.enumerators ++ enumeration.last)

/-- Enumerators tell values if each value is written, or is where the count has arrived. -/
inductive Tells : Int → List Enumerator → List (String × Int) → Prop where
  | nil {next : Int} : Tells next [] []
  | written {next : Int} {name : String} {value : Nat} {rest : List Enumerator}
      {others : List (String × Int)} (later : Tells (value + 1) rest others) :
      Tells next ({ name, value := .number value } :: rest) ((name, (value : Int)) :: others)
  | counted {next : Int} {name : String} {rest : List Enumerator} {others : List (String × Int)}
      (later : Tells (next + 1) rest others) :
      Tells next ({ name } :: rest) ((name, next) :: others)

/-- Lines are read as constants by the rule of C: what is written is the value of a constant, and one
without a value has the count, which is one more than the value before. -/
inductive Reads : Int → List String → List (String × Int) → Prop where
  | nil {next : Int} : Reads next [] []
  | written {next : Int} {name : String} {value : Nat} {lines : List String}
      {others : List (String × Int)} (later : Reads (value + 1) lines others) :
      Reads next (("\t" ++ name ++ " = " ++ toString value ++ ",") :: lines)
        ((name, (value : Int)) :: others)
  | counted {next : Int} {name : String} {lines : List String} {others : List (String × Int)}
      (later : Reads (next + 1) lines others) :
      Reads next (("\t" ++ name ++ ",") :: lines) ((name, next) :: others)

/-- A line with a value is none without one. -/
theorem written_ne_counted (name : String) (value : Nat) :
    "\t" ++ name ++ " = " ++ toString value ++ "," ≠ "\t" ++ name ++ "," := by
  intro same
  have behind := congrArg String.toList same
  simp at behind

/-- The first line of some has the value of the first constant, or leaves it out. -/
theorem Reads.cons {next : Int} {line : String} {lines : List String} {told : List (String × Int)}
    (reads : Reads next (line :: lines) told) :
    ∃ name value others, told = (name, value) :: others ∧ Reads (value + 1) lines others ∧
      ((∃ number : Nat, value = number ∧
          line = "\t" ++ name ++ " = " ++ toString number ++ ",") ∨
        value = next ∧ line = "\t" ++ name ++ ",") := by
  cases reads with
  | written later => exact ⟨_, _, _, rfl, later, .inl ⟨_, rfl, rfl⟩⟩
  | counted later => exact ⟨_, _, _, rfl, later, .inr ⟨rfl, rfl⟩⟩

/-- The same lines tell constants of the same names the same values. -/
theorem Reads.unique {next : Int} {lines : List String} {told others : List (String × Int)}
    (first : Reads next lines told) (second : Reads next lines others)
    (names : told.map Prod.fst = others.map Prod.fst) : told = others := by
  induction first generalizing others with
  | nil =>
      cases second
      rfl
  | @written next name value lines told later ih =>
      obtain ⟨other, _, rest, rfl, after, ⟨number, rfl, same⟩ | ⟨_, same⟩⟩ := second.cons
      · obtain ⟨rfl, behind⟩ := List.cons.inj names
        simp only [String.append_left_inj, String.append_right_inj] at same
        have digits := congrArg (fun text : String => Nat.ofDigitChars 10 text.toList 0) same
        obtain rfl : value = number := by simpa [Nat.toString_eq_ofList_toDigits] using digits
        rw [ih after behind]
      · obtain ⟨rfl, _⟩ := List.cons.inj names
        exact absurd same (written_ne_counted name value)
  | @counted next name lines told later ih =>
      obtain ⟨other, _, rest, rfl, after, ⟨number, rfl, same⟩ | ⟨rfl, _⟩⟩ := second.cons
      · obtain ⟨rfl, _⟩ := List.cons.inj names
        exact absurd same.symm (written_ne_counted name number)
      · obtain ⟨rfl, behind⟩ := List.cons.inj names
        rw [ih after behind]

/-- A group of lines is an enumeration in C whose first constants have these values. -/
def Enumerates (constants : List (String × Int)) (group : List String) : Prop :=
  ∃ header lines rest, C.startsWith header "enum" = true ∧
    group = (header ++ " \x7b") :: lines ++ rest ∧ Reads 0 lines constants

/-- Where the count has arrived behind some constants. -/
def arrived (next : Int) (told : List (String × Int)) : Int :=
  (told.getLast?.map fun constant => constant.2 + 1).getD next

/-- A constant sets the count behind its value. -/
theorem arrived_cons (next : Int) (constant : String × Int) (others : List (String × Int)) :
    arrived next (constant :: others) = arrived (constant.2 + 1) others := by
  cases others with
  | nil => rfl
  | cons second rest =>
      rw [arrived, arrived, List.getLast?_cons_cons, List.getLast?_cons]
      rfl

/-- What enumerators tell is read from them, and the count goes on with what follows. -/
theorem Tells.readFrom_append {next : Int} {enumerators : List Enumerator}
    {told : List (String × Int)} (tells : Tells next enumerators told)
    (known : List (String × Int)) (more : List Enumerator) :
    ∃ all, readFrom next known (enumerators ++ more) =
      told ++ readFrom (arrived next told) all more := by
  induction tells generalizing known with
  | nil => exact ⟨known, rfl⟩
  | written _ ih | counted _ ih =>
      obtain ⟨all, same⟩ := ih _
      exact ⟨all, by rw [arrived_cons, List.cons_append, List.cons_append, readFrom, same]⟩

/-- What enumerators tell is read from their lines. -/
theorem Tells.reads {next : Int} {enumerators : List Enumerator} {told : List (String × Int)}
    (tells : Tells next enumerators told) :
    Reads next (enumerators.map fun enumerator => "\t" ++ enumerator.text ++ ",") told := by
  induction tells with
  | nil => exact .nil
  | @written next name value rest others _ ih =>
      have text : "\t" ++ Enumerator.text { name, value := .number value } ++ "," =
          "\t" ++ name ++ " = " ++ toString value ++ "," := by
        simp [Enumerator.text, String.append_assoc]
      rw [List.map_cons, text]
      exact .written ih
  | counted _ ih => exact .counted ih

/-- An enumeration tells constants behind its keyword. -/
structure Declares (constants : List (String × Int)) (enumeration : Enumeration) : Prop where
  keyword : C.startsWith enumeration.header "enum" = true
  tells : Tells 0 enumeration.enumerators constants

/-- What is told is printed. -/
theorem Declares.enumerates {constants : List (String × Int)} {enumeration : Enumeration}
    (declares : Declares constants enumeration) :
    Enumerates constants (Declaration.enumeration enumeration).lines := by
  have filled : enumeration.header ≠ "" := by
    intro none
    have keyword := declares.keyword
    rw [none] at keyword
    exact absurd keyword (by decide)
  obtain ⟨rest, same⟩ := Declaration.prefix_lines_enumeration enumeration filled
  exact ⟨_, _, rest, declares.keyword, same.symm, declares.tells.reads⟩

end Enumeration

/-- The enumerations among declarations, in order. -/
def Declaration.enumerations (declarations : List Declaration) : List Enumeration :=
  declarations.filterMap fun
    | .enumeration found => some found
    | _ => none

/-- The enumerations of a file stand in its text. -/
theorem Declaration.follow_enumerations {declarations : List Declaration}
    (stand : ∀ declaration ∈ declarations, declaration.Stands) :
    Follow ((enumerations declarations).map fun printed => (enumeration printed).lines)
      (printed declarations) := by
  refine follow_selected stand fun declaration _ found selected => ?_
  cases declaration with
  | enumeration =>
      obtain rfl := Option.some.inj selected
      rfl
  | _ => cases selected

/-- The constant of an entry: its value, or its bit if it is a flag. -/
def EnumEntry.constant (isFlags : Bool) (entry : EnumEntry) : String × Int :=
  (entry.cName, ((if isFlags then entry.userValue true else entry.value).toNat : Int))

/-- An entry is printed under its C name with the value users see. -/
theorem EnumEntry.constant_eq (isFlags : Bool) (entry : EnumEntry) :
    entry.constant isFlags = (entry.cName, ((entry.userValue isFlags).toNat : Int)) := by
  cases isFlags <;> rfl

/-- The constants of a set of entries, in order. -/
def EnumSet.constants (set : EnumSet) : List (String × Int) :=
  set.entries.values.map (EnumEntry.constant set.isFlags)

/-- The constants of an attribute set, in order. -/
def AttributeSet.constants (set : AttributeSet) : List (String × Int) :=
  set.attrs.values.map fun attr => (attr.enumName, (attr.value.toNat : Int))

/-- The constant of an operation, if it has a number. -/
def Operation.constant (operation : Operation) : String × Option Int :=
  (operation.enumName, operation.value.map fun value => (value.toNat : Int))

/-- The messages whose enumeration is that of the operations. -/
def Family.listed (family : Family) : List Operation :=
  family.messages.values.filter fun operation =>
    !(family.separateNotifications && operation.isAsync)

namespace Constants

open Declaration Enumeration

/-- Numbers that are written where they leave the count are all told. -/
theorem tells_numbered (next : Nat) (list : List (String × Nat)) :
    Tells next (numbered next list) (list.map fun entry => (entry.1, (entry.2 : Int))) := by
  induction list generalizing next with
  | nil => exact .nil
  | cons entry rest ih =>
      obtain ⟨name, value⟩ := entry
      have later := ih (value + 1)
      push_cast at later
      rw [numbered, List.map_cons]
      by_cases same : value = next
      · subst same
        rw [if_pos rfl]
        exact .counted later
      · rw [if_neg same]
        exact .written later

/-- The enumerator of an entry. -/
def enumerator (isFlags : Bool) (entry : EnumEntry) : Enumerator where
  name := entry.cName
  value := if entry.valueChange then .number (entry.userValue isFlags).toNat else .implicit

/-- Where the count has arrived after a value. -/
def countAfter : Option UInt64 → Nat
  | none => 0
  | some previous => previous.toNat + 1

/-- A value that does not leave the count is where the count has arrived. -/
theorem countAfter_eq {before : Option UInt64} {value : UInt64}
    (follows : EnumSet.leavesCount before value = false) : countAfter before = value.toNat := by
  cases before with
  | none =>
      have zero : value = 0 := bne_eq_false_iff_eq.1 follows
      rw [zero]
      rfl
  | some previous => exact bne_eq_false_iff_eq.1 follows

/-- The entries of an enumeration are all told. Flags are always written. -/
theorem tells_entries (valuePrefix : String) (isFlags : Bool) (start : UInt64)
    (before : Option UInt64) (specs : List Spec.EnumEntry) (next : Int)
    (arrived : isFlags = false → next = countAfter before) :
    Tells next
      ((EnumSet.numberEntries valuePrefix isFlags start before specs).map (enumerator isFlags))
      ((EnumSet.numberEntries valuePrefix isFlags start before specs).map
        (EnumEntry.constant isFlags)) := by
  induction specs generalizing before next with
  | nil => exact .nil
  | cons spec rest ih =>
      rw [EnumSet.numberEntries]
      simp only [List.map_cons, enumerator, EnumEntry.constant_eq]
      generalize EnumSet.entryValue start before spec.value = value
      cases isFlags with
      | true => exact .written (ih (some value) _ (by simp))
      | false =>
          have counts : (value.toNat : Int) + 1 = countAfter (some value) := by
            rw [countAfter]
            push_cast
            rfl
          have later := ih (some value) (value.toNat + 1) fun _ => counts
          cases leaves : EnumSet.leavesCount before value with
          | true => exact .written later
          | false =>
              rw [arrived rfl, countAfter_eq leaves]
              exact .counted later

/-- Numbering keeps the names of the entries. -/
theorem names_numberEntries (valuePrefix : String) (isFlags : Bool) (start : UInt64)
    (before : Option UInt64) (specs : List Spec.EnumEntry) :
    (EnumSet.numberEntries valuePrefix isFlags start before specs).map EnumEntry.name =
      specs.map Spec.EnumEntry.name := by
  induction specs generalizing before with
  | nil => rfl
  | cons spec rest ih => rw [EnumSet.numberEntries, List.map_cons, ih, List.map_cons]

/-- Entries under distinct names are those that are numbered, in their order. -/
theorem exists_numberEntries (familyName : String) {source : Spec.Definition}
    (distinct : (source.entries.map Spec.EnumEntry.name).Nodup) :
    ∃ valuePrefix start, (EnumSet.ofDefinition familyName source).entries.values =
      EnumSet.numberEntries valuePrefix (EnumSet.ofDefinition familyName source).isFlags start none
        source.entries := by
  have named : ∀ numbered : List EnumEntry,
      numbered.map EnumEntry.name = source.entries.map Spec.EnumEntry.name →
        (Registry.ofList (numbered.map fun entry => (entry.name, entry))).values = numbered := by
    intro numbered names
    have apart : (Entries.names (numbered.map fun entry => (entry.name, entry))).Nodup := by
      rw [Entries.names, List.map_map]
      exact names ▸ distinct
    rw [Registry.values, Registry.entries_ofList_of_nodup apart, List.map_map]
    exact List.map_id numbered
  exact ⟨_, _, named _ (names_numberEntries _ _ _ _ _)⟩

/-- The printed entries of a definition under distinct names are all told. -/
theorem tells_enumeration (family : Family) (definition : Spec.Definition) (familyName : String)
    {source : Spec.Definition} (distinct : (source.entries.map Spec.EnumEntry.name).Nodup) :
    Tells 0 (enumeration family definition (EnumSet.ofDefinition familyName source)).enumerators
      (EnumSet.ofDefinition familyName source).constants := by
  obtain ⟨valuePrefix, start, numbered⟩ := exists_numberEntries familyName distinct
  rw [enumeration, EnumSet.constants, numbered]
  exact tells_entries valuePrefix _ start none source.entries 0 fun _ => rfl

section Header

variable (family : Family)

/-- The set whose enumeration is printed for a definition. -/
def printedSet? (definition : Spec.Definition) : Option EnumSet :=
  match definition.kind with
  | .const => none
  | .enum | .flags => family.enumSet? definition.name

/-- Enumerations of two lists are those of the first and then those of the second. -/
@[simp] theorem enumerations_append (first second : List Declaration) :
    enumerations (first ++ second) = enumerations first ++ enumerations second :=
  List.filterMap_append

/-- Lines print no enumeration. -/
theorem enumerations_lines (lines : List String) :
    enumerations (lines.map Declaration.line) = [] := by
  simp [enumerations]

/-- Definitions are printed in order. -/
theorem enumerations_definitionsFrom (constants : List (String × C.DefineValue))
    (definitions : List Spec.Definition) :
    enumerations (definitionsFrom family constants definitions) =
      definitions.filterMap fun definition =>
        (printedSet? family definition).map (enumeration family definition) := by
  induction definitions generalizing constants with
  | nil =>
      rw [definitionsFrom]
      split <;> rfl
  | cons definition rest ih =>
      rw [definitionsFrom, List.filterMap_cons, printedSet?]
      cases definition.kind with
      | const => exact ih _
      | _ =>
          cases family.enumSet? definition.name with
          | none => simpa [enumerations] using ih []
          | some set =>
              simp only [enumerations_append, enumerations_lines, ih []]
              rfl

/-- The count and the greatest number stand behind the numbers. -/
theorem enumerations_withCount (enumeration : Enumeration) (countName maxName : String) :
    ∃ printed, enumerations (withCount family enumeration countName maxName) = [printed] ∧
      printed.header = enumeration.header ∧ printed.enumerators = enumeration.enumerators := by
  unfold withCount
  cases family.maxByDefine <;> exact ⟨_, rfl, rfl, rfl⟩

/-- What is in front of the braces of an enumeration starts with the keyword. -/
theorem startsWith_enumHeader (given : Spec.NameKey) (standard : Option String) :
    C.startsWith (enumHeader family given standard) "enum" = true := by
  have keyword {start : String} (starts : C.startsWith start "enum" = true) (rest : String) :
      C.startsWith (start ++ rest) "enum" = true := by
    rw [C.startsWith, List.isPrefixOf_iff_prefix] at starts ⊢
    rw [String.toList_append]
    exact starts.trans (List.prefix_append _ _)
  unfold enumHeader
  split
  · split
    · decide
    · exact keyword (by decide) _
  · decide
  · decide
  · exact keyword (keyword (keyword (by decide) _) _) _

/-- Numbers with a count behind them are all told. -/
theorem exists_withCount (given : Spec.NameKey) (list : List (String × Nat))
    (countName maxName : String) :
    ∃ printed,
      enumerations (withCount family
        { header := enumHeader family given none, enumerators := numbered 0 list } countName
        maxName) = [printed] ∧
      Declares (list.map fun entry => (entry.1, (entry.2 : Int))) printed := by
  obtain ⟨printed, only, header, same⟩ := enumerations_withCount family
    { header := enumHeader family given none, enumerators := numbered 0 list } countName maxName
  exact ⟨printed, only, header ▸ startsWith_enumHeader family given none,
    same ▸ tells_numbered 0 list⟩

/-- A set without a parent is printed as one enumeration of its constants. -/
theorem exists_attributes {set : AttributeSet} (parent : set.subsetOf = none) :
    ∃ printed, enumerations (attributes family set) = [printed] ∧
      Declares set.constants printed := by
  obtain ⟨printed, only, told⟩ := exists_withCount family set.enumName
    (set.attrs.values.map fun attr => (attr.enumName, attr.value.toNat))
    ((family.attributeCountName.map CName.upper).getD ("__" ++ set.namePrefix ++ "MAX"))
    set.maxName
  rw [List.map_map] at told
  rw [attributes, parent]
  exact ⟨printed, only, told⟩

/-- Each set that is not a subset is printed, in order. -/
theorem enumerations_attributes (sets : List AttributeSet) :
    List.Forall₂ (fun (set : AttributeSet) printed => Declares set.constants printed)
      (sets.filter fun set => set.subsetOf.isNone)
      (enumerations (sets.flatMap (attributes family))) := by
  induction sets with
  | nil => exact .nil
  | cons set rest ih =>
      rw [List.flatMap_cons, enumerations_append, List.filter_cons]
      cases parent : set.subsetOf with
      | some _ => simpa [attributes, parent, enumerations] using ih
      | none =>
          obtain ⟨printed, only, told⟩ := exists_attributes family parent
          rw [only, Option.isNone_none, if_pos rfl]
          exact .cons told ih

/-- Messages that all have a number are printed with it. -/
theorem numberedMessages_eq {operations : List Operation}
    (known : ∀ operation ∈ operations, operation.value.isSome = true) (next : Nat) :
    (numberedMessages next operations).map (fun entry => (entry.1, some (entry.2 : Int))) =
      operations.map Operation.constant := by
  induction operations generalizing next with
  | nil => rfl
  | cons operation rest ih =>
      obtain ⟨here, later⟩ := List.forall_mem_cons.1 known
      obtain ⟨value, same⟩ := Option.isSome_iff_exists.1 here
      rw [numberedMessages, List.map_cons, ih later, List.map_cons, Operation.constant, same]
      rfl

/-- The enumeration of the messages comes first, and one of the notifications may follow. -/
theorem exists_commands :
    ∃ printed others told, enumerations (commands family) = printed :: others ∧
      Declares told printed ∧
      ((∀ operation ∈ family.listed, operation.value.isSome = true) →
        (told.map fun constant => (constant.1, some constant.2)) =
          family.listed.map Operation.constant) := by
  obtain ⟨printed, only, told⟩ := exists_withCount family family.operationsEnumName
    (numberedMessages 0 family.listed)
    (CName.upper (family.commandCountName.getD ("__" ++ family.operationPrefix ++ "MAX")))
    (CName.upper (family.commandMaxName.getD (family.operationPrefix ++ "MAX")))
  obtain ⟨others, first⟩ : ∃ others, enumerations (commands family) = printed :: others := by
    rw [commands, enumerations_append]
    exact ⟨_, congrArg (· ++ _) only⟩
  refine ⟨printed, others, _, first, told, fun known => ?_⟩
  rw [← numberedMessages_eq known 0, List.map_map]
  rfl

/-- Multicast groups are macros only. -/
theorem enumerations_groups : enumerations (groups family) = [] := by
  unfold groups
  dsimp only
  split <;> rfl

/-- The header has the enumerations of definitions, then those of sets, then those of messages. -/
theorem enumerations_header :
    enumerations (header family) =
      enumerations (definitionsFrom family [] family.definitions) ++
        enumerations (family.sets.values.flatMap (attributes family)) ++
          enumerations (commands family) := by
  simp only [header, List.flatten_cons, List.flatten_nil, enumerations_append, enumerations_groups]
  simp [enumerations]

/-- What the enumeration of a definition tells if no two of its entries share a name. -/
def TellsDefinition (set : EnumSet) (group : List String) : Prop :=
  ∀ familyName source, set = EnumSet.ofDefinition familyName source →
    (source.entries.map Spec.EnumEntry.name).Nodup → Enumerates set.constants group

/-- Each definition is printed with what it tells. -/
theorem tellsDefinition_definitionsFrom (constants : List (String × C.DefineValue))
    (definitions : List Spec.Definition) :
    List.Forall₂ (fun set printed => TellsDefinition set (Declaration.enumeration printed).lines)
      (definitions.filterMap (printedSet? family))
      (enumerations (definitionsFrom family constants definitions)) := by
  rw [enumerations_definitionsFrom]
  induction definitions with
  | nil => exact .nil
  | cons definition rest ih =>
      cases held : printedSet? family definition with
      | none => simpa only [List.filterMap_cons, held, Option.map_none] using ih
      | some set =>
          simp only [List.filterMap_cons, held, Option.map_some]
          refine .cons ?_ ih
          rintro familyName source rfl distinct
          exact Declares.enumerates ⟨startsWith_enumHeader family _ _,
            tells_enumeration family definition familyName distinct⟩

end Header

end Constants

namespace Family

open Constants Enumeration Outcome

variable {file : Spec.File} {excludes : List Pattern} {family : Family}

/-- A set of entries comes from a definition. -/
theorem exists_definition (built : ofSpec file excludes = .ok family) {name : String}
    {set : EnumSet} (found : family.enumSet? name = some set) :
    ∃ source ∈ family.definitions, set = EnumSet.ofDefinition family.name source := by
  simp only [ofSpec, bind_eq_ok_iff, pure_eq_ok_iff] at built
  obtain ⟨outline, begun, _, _, _, _, rfl⟩ := built
  have outlined := Outline.builtFrom begun
  have fromDefinition : ∀ entry ∈ outline.constants.entries, ∀ set,
      entry.2 = .enumeration set → ∃ source ∈ file.family.definitions,
        set = EnumSet.ofDefinition outline.name source := by
    rw [outlined.constants, outlined.name]
    refine Registry.forall_ofList fun entry member => ?_
    obtain ⟨source, listed, rfl⟩ := List.mem_map.1 member
    rintro set same
    refine ⟨source, listed, ?_⟩
    cases kind : source.kind <;> simp_all
  rw [Scope.enumSet?] at found
  split at found
  · rename_i held
    cases found
    exact fromDefinition _ (Registry.get?_eq_some_iff.1 held) set rfl
  · cases found

/-- One number serves both directions, so every message has it. -/
theorem isSome_value (built : ofSpec file excludes = .ok family)
    (unified : family.numbering = .unified) :
    ∀ operation ∈ family.messages.values, operation.value.isSome = true := by
  simp only [ofSpec, bind_eq_ok_iff, pure_eq_ok_iff] at built
  obtain ⟨outline, begun, _, _, _, _, rfl⟩ := built
  intro operation member
  obtain ⟨_, _, realises⟩ := exists_of_forall₂ (realises_of_outline begun).values operation member
  exact realises.value unified

/-- The text of the header gives every constant the value that the family has for it, though it
leaves out values. The enumerations in it are first those of the definitions that hold entries, then
those of the sets that are not subsets, and then the one of the messages. -/
theorem header_values (built : ofSpec file excludes = .ok family) :
    ∃ lines ofDefinitions ofSets ofMessages others,
      Declaration.render (header family) = String.join (lines.map (· ++ "\n")) ∧
      Declaration.Follow (ofDefinitions ++ ofSets ++ ofMessages :: others) lines ∧
      ((Declaration.enumerations (header family)).map fun printed =>
          (Declaration.enumeration printed).lines) =
        ofDefinitions ++ ofSets ++ ofMessages :: others ∧
      (∀ set ∈ family.definitions.filterMap (printedSet? family),
        ∃ source ∈ family.definitions, set = EnumSet.ofDefinition family.name source) ∧
      List.Forall₂ TellsDefinition (family.definitions.filterMap (printedSet? family))
        ofDefinitions ∧
      List.Forall₂ (fun (set : AttributeSet) group => Enumerates set.constants group)
        (family.sets.values.filter fun set => set.subsetOf.isNone) ofSets ∧
      (family.numbering = .unified →
        ∃ constants, Enumerates constants ofMessages ∧
          (constants.map fun constant => (constant.1, some constant.2)) =
            family.listed.map Operation.constant) := by
  obtain ⟨ofMessages, others, told, first, declares, numbers⟩ := exists_commands family
  let text (printed : Enumeration) : List String := (Declaration.enumeration printed).lines
  have listed : (Declaration.enumerations (header family)).map text =
      (Declaration.enumerations (definitionsFrom family [] family.definitions)).map text ++
        (Declaration.enumerations (family.sets.values.flatMap (attributes family))).map text ++
          text ofMessages :: others.map text := by
    rw [enumerations_header, first, List.map_append, List.map_append, List.map_cons]
  have sets := enumerations_attributes family family.sets.values
  have definitions := tellsDefinition_definitionsFrom family [] family.definitions
  have follow := Declaration.follow_enumerations fun declaration member =>
    Declaration.stands_of_isSettled (isSettled_header family declaration member)
  refine ⟨_, _, _, _, _, Declaration.render_eq _, listed ▸ follow, listed, fun set member => ?_,
    List.forall₂_map_right_iff.2 definitions,
    List.forall₂_map_right_iff.2 (sets.imp fun _ _ => Declares.enumerates), fun unified =>
      ⟨told, declares.enumerates, numbers fun operation selected =>
        isSome_value built unified operation (List.mem_of_mem_filter selected)⟩⟩
  obtain ⟨definition, _, held⟩ := List.mem_filterMap.1 member
  rw [printedSet?] at held
  split at held
  · cases held
  · exact exists_definition built held
  · exact exists_definition built held

/-- Values that repeat, go down and wrap, in each kind of enumeration. The notification has an
enumeration of its own. -/
def uneven : Spec.File where
  license := Spec.acceptedLicense
  family :=
    { name := "f"
      definitions :=
        [{ name := "m"
           kind := .enum
           entries :=
            [.full "a" (some 18446744073709551615) none, .bare "b", .full "c" (some 5) none,
             .full "d" (some 5) none, .bare "e"] },
         { name := "n"
           kind := .flags
           entries := [.bare "x", .full "y" (some 40) none, .bare "z"] }]
      attributeSets :=
        [{ name := "f"
           attributes :=
            [{ name := "p", value := some 9, kind := some "u8" },
             { name := "q", value := some 9, kind := some "u8" },
             { name := "r", value := some 0, kind := some "u8" },
             { name := "s", kind := some "u8" }] },
         { name := "part", subsetOf := some "f", attributes := [{ name := "r" }] }]
      operations :=
        { asyncPrefix := some "f-ntf-"
          list :=
            [{ name := "get", value := some 4, attributeSet := some "f" },
             { name := "changed", notify := some "get" },
             { name := "set", attributeSet := some "f" },
             { name := "del", value := some 0, attributeSet := some "f" }] } }

theorem isSome_ofSpec_uneven : (ofSpec uneven []).toOption.isSome = true := by
  decide +kernel

/-- The family of such values. -/
def unevenFamily : Family :=
  (ofSpec uneven []).toOption.get isSome_ofSpec_uneven

/-- Each value is read back, whether it is written or not. -/
theorem header_values_uneven :
    ofSpec uneven [] = .ok unevenFamily ∧ unevenFamily.numbering = .unified ∧
      ∃ lines values flags attributes messages others,
        Declaration.render (header unevenFamily) = String.join (lines.map (· ++ "\n")) ∧
        Declaration.Follow (values :: flags :: attributes :: messages :: others) lines ∧
        Enumerates [("F_M_A", 18446744073709551615), ("F_M_B", 0), ("F_M_C", 5), ("F_M_D", 5),
          ("F_M_E", 6)] values ∧
        Enumerates [("F_N_X", 1), ("F_N_Y", 1099511627776), ("F_N_Z", 2199023255552)] flags ∧
        Enumerates [("F_A_P", 9), ("F_A_Q", 9), ("F_A_R", 0), ("F_A_S", 1)] attributes ∧
        Enumerates [("F_CMD_GET", 4), ("F_CMD_SET", 6), ("F_CMD_DEL", 0)] messages := by
  have built : ofSpec uneven [] = .ok unevenFamily := Outcome.eq_ok_get isSome_ofSpec_uneven
  have unified : unevenFamily.numbering = .unified := by decide +kernel
  obtain ⟨lines, ofDefinitions, ofSets, messages, others, text, follow, _, sources, definitions,
    sets, operations⟩ := header_values built
  have distinct : ∀ source ∈ unevenFamily.definitions,
      (source.entries.map Spec.EnumEntry.name).Nodup := by decide +kernel
  have told : List.Forall₂ (fun (set : EnumSet) group => Enumerates set.constants group)
      (unevenFamily.definitions.filterMap (printedSet? unevenFamily)) ofDefinitions := by
    refine ((List.forall₂_and_left _ _).2 ⟨sources, definitions⟩).imp fun set group both => ?_
    obtain ⟨⟨source, listed, same⟩, tells⟩ := both
    exact tells _ source same (distinct source listed)
  have ofEntries : (unevenFamily.definitions.filterMap (printedSet? unevenFamily)).map
      EnumSet.constants =
        [[("F_M_A", 18446744073709551615), ("F_M_B", 0), ("F_M_C", 5), ("F_M_D", 5), ("F_M_E", 6)],
          [("F_N_X", 1), ("F_N_Y", 1099511627776), ("F_N_Z", 2199023255552)]] := by decide +kernel
  have ofAttributes : (unevenFamily.sets.values.filter fun set => set.subsetOf.isNone).map
      AttributeSet.constants =
        [[("F_A_P", 9), ("F_A_Q", 9), ("F_A_R", 0), ("F_A_S", 1)]] := by decide +kernel
  let numbered (constant : String × Int) : String × Option Int := (constant.1, some constant.2)
  have ofOperations : unevenFamily.listed.map Operation.constant =
      [("F_CMD_GET", 4), ("F_CMD_SET", 6), ("F_CMD_DEL", 0)].map numbered := by decide +kernel
  have entries := List.forall₂_map_left_iff (R := Enumerates) |>.2 told
  have attributes := List.forall₂_map_left_iff (R := Enumerates) |>.2 sets
  obtain ⟨constants, ofMessages, same⟩ := operations unified
  have apart : Function.Injective numbered := by
    rintro ⟨_, _⟩ ⟨_, _⟩ ⟨⟩
    rfl
  rw [ofEntries] at entries
  rw [ofAttributes] at attributes
  rw [ofOperations] at same
  obtain rfl := List.map_injective_iff.2 apart same
  obtain _ | ⟨values, _ | ⟨flags, ⟨⟩⟩⟩ := entries
  obtain _ | ⟨attributes, ⟨⟩⟩ := attributes
  exact ⟨built, unified, lines, _, _, _, messages, others, text, follow, values, flags, attributes,
    ofMessages⟩

end Family

end NetlinkFamily
