import Mathlib.Data.List.Chain
import NetlinkFamily.C.Alignment
import NetlinkFamily.Proofs.C.Columns
import NetlinkFamily.Proofs.C.Printing

namespace NetlinkFamily.Text

/-- A piece of text that blanks can stand around. -/
def IsWord (word : String) : Prop :=
  word ≠ "" ∧ ∀ c ∈ word.toList, isBlank c = false

/-- A blank ends the word before it, and the text behind it is read from the start. -/
theorem wordsFrom_append_blank {c : Char} (blank : isBlank c = true)
    (current first second : List Char) :
    wordsFrom current (first ++ c :: second) = wordsFrom current first ++ wordsFrom [] second := by
  induction first generalizing current with
  | nil =>
      simp only [List.nil_append, wordsFrom, blank, if_true]
      split <;> rfl
  | cons d rest ih =>
      rw [List.cons_append, wordsFrom, wordsFrom, ih, ih]
      split
      · split <;> rfl
      · rfl

/-- Characters without blanks are one word. -/
theorem wordsFrom_of_no_blank {current chars : List Char}
    (visible : ∀ c ∈ chars, isBlank c = false) (some : current.reverse ++ chars ≠ []) :
    wordsFrom current chars = [String.ofList (current.reverse ++ chars)] := by
  induction chars generalizing current with
  | nil =>
      have filled : current ≠ [] := by simpa using some
      simp [wordsFrom, filled]
  | cons c rest ih =>
      obtain ⟨here, later⟩ := List.forall_mem_cons.1 visible
      rw [wordsFrom, if_neg (by simp [here]), ih later (by simp)]
      simp

/-- Characters without blanks are a word, read backwards. -/
theorem isWord_reverse {chars : List Char} (filled : chars ≠ [])
    (visible : ∀ c ∈ chars, isBlank c = false) : IsWord (String.ofList chars.reverse) :=
  ⟨by simpa using filled, by simpa using visible⟩

/-- What is split at blanks are words. -/
theorem isWord_of_mem_wordsFrom {current chars : List Char}
    (visible : ∀ c ∈ current, isBlank c = false) :
    ∀ word ∈ wordsFrom current chars, IsWord word := by
  induction chars generalizing current with
  | nil =>
      cases current with
      | nil => simp [wordsFrom]
      | cons d others => simpa [wordsFrom] using isWord_reverse (List.cons_ne_nil d others) visible
  | cons c rest ih =>
      have fresh : ∀ word ∈ wordsFrom [] rest, IsWord word := ih (by simp)
      cases blank : isBlank c with
      | true =>
          cases current with
          | nil => simpa [wordsFrom, blank] using fresh
          | cons d others =>
              simp only [wordsFrom, blank, if_true, List.isEmpty_cons, Bool.false_eq_true, if_false]
              exact List.forall_mem_cons.2
                ⟨isWord_reverse (List.cons_ne_nil d others) visible, fresh⟩
      | false =>
          simp only [wordsFrom, blank, Bool.false_eq_true, if_false]
          exact ih (List.forall_mem_cons.2 ⟨blank, visible⟩)

/-- The words of a text are words. -/
theorem isWord_of_mem_words {text word : String} (member : word ∈ words text) : IsWord word :=
  isWord_of_mem_wordsFrom (by simp) word member

/-- A word behind a space is the last word of the text. -/
theorem words_append_word (text : String) {word : String} (read : IsWord word) :
    words (text ++ " " ++ word) = words text ++ [word] := by
  have alone : wordsFrom [] word.toList = [word] := by
    have some : ([] : List Char).reverse ++ word.toList ≠ [] := by simpa using read.1
    simpa using wordsFrom_of_no_blank read.2 some
  rw [words, String.append_assoc, String.toList_append, String.toList_append]
  show wordsFrom [] (text.toList ++ ' ' :: word.toList) = _
  rw [wordsFrom_append_blank rfl, alone, words]

end NetlinkFamily.Text

namespace NetlinkFamily.C

open Text (IsWord words words_append_word)

/-- The words of a line behind the sign of a comment. -/
def commentWords (line : String) : List String :=
  words (String.ofList (line.toList.drop 2))

/-- Lines of a comment with some words. Only a line of a single word may be wide, and the first word
of a line does not fit on the one before it. -/
structure Wraps (held lines : List String) : Prop where
  words : lines.flatMap commentWords = held
  narrow : ∀ line ∈ lines, width line ≤ 79 ∨ (commentWords line).length = 1
  greedy : lines.IsChain fun line next =>
    ∃ word ∈ (commentWords next).head?, 79 < width line + 1 + width word
  starts : ∀ line ∈ lines, startsWith line " *" = true
  unbroken : ∀ line ∈ lines, '\n' ∉ line.toList

/-- Something that words may stand behind in a comment. -/
structure IsStart (line : String) : Prop where
  starts : startsWith line " *" = true
  unbroken : '\n' ∉ line.toList

/-- A start stays one with a word behind it. -/
theorem IsStart.append {line word : String} (start : IsStart line) (read : IsWord word) :
    IsStart (line ++ " " ++ word) where
  starts := by
    have before := List.isPrefixOf_iff_prefix.1 start.starts
    rw [startsWith, List.isPrefixOf_iff_prefix, String.append_assoc, String.toList_append]
    exact before.trans (List.prefix_append _ _)
  unbroken := by
    have visible : '\n' ∉ word.toList := fun member => absurd (read.2 _ member) (by decide)
    simp [start.unbroken, visible]

/-- A word behind a start is its last word. -/
theorem IsStart.commentWords_append {line word : String} (start : IsStart line)
    (read : IsWord word) : commentWords (line ++ " " ++ word) = commentWords line ++ [word] := by
  obtain ⟨rest, parted⟩ := List.isPrefixOf_iff_prefix.1 start.starts
  have behind : String.ofList ((line ++ " " ++ word).toList.drop 2) =
      String.ofList (line.toList.drop 2) ++ " " ++ word := by
    apply String.toList_injective
    simp [← parted]
  rw [commentWords, behind, words_append_word _ read, commentWords]

/-- A word starts a new line, or there is room for it on the line. -/
theorem wrapWords_cons (continuation line word : String) (rest : List String) :
    (79 < width line + 1 + width word ∧
        wrapWords continuation line (word :: rest) =
          line :: wrapWords continuation (continuation ++ " " ++ word) rest) ∨
      (width (line ++ " " ++ word) ≤ 79 ∧
        wrapWords continuation line (word :: rest) =
          wrapWords continuation (line ++ " " ++ word) rest) := by
  have space : width " " = 1 := rfl
  rw [width_append, width_append, space]
  by_cases wide : 79 ≤ width line + width word
  · exact .inl ⟨by omega, if_pos wide⟩
  · exact .inr ⟨by omega, if_neg wide⟩

/-- The first line starts with the words that it had before. -/
theorem exists_wrapWords_eq_cons (continuation : String) {line : String} (start : IsStart line)
    {rest : List String} (read : ∀ word ∈ rest, IsWord word) :
    ∃ first others, wrapWords continuation line rest = first :: others ∧
      commentWords line <+: commentWords first := by
  induction rest generalizing line with
  | nil => exact ⟨line, [], rfl, List.prefix_rfl⟩
  | cons word rest ih =>
      obtain ⟨here, later⟩ := List.forall_mem_cons.1 read
      obtain ⟨_, broken⟩ | ⟨_, kept⟩ := wrapWords_cons continuation line word rest
      · exact ⟨line, _, broken, List.prefix_rfl⟩
      · obtain ⟨first, others, parted, before⟩ := ih (start.append here) later
        rw [start.commentWords_append here] at before
        exact ⟨first, others, kept.trans parted, (List.prefix_append _ _).trans before⟩

/-- A line is wrapped when the next word does not fit on it. -/
theorem Wraps.cons {line : String} (start : IsStart line)
    (narrow : width line ≤ 79 ∨ (commentWords line).length = 1) {held lines : List String}
    (full : ∀ next ∈ lines.head?,
      ∃ word ∈ (commentWords next).head?, 79 < width line + 1 + width word)
    (later : Wraps held lines) : Wraps (commentWords line ++ held) (line :: lines) where
  words := by rw [List.flatMap_cons, later.words]
  narrow := List.forall_mem_cons.2 ⟨narrow, later.narrow⟩
  greedy := List.isChain_cons.2 ⟨full, later.greedy⟩
  starts := List.forall_mem_cons.2 ⟨start.starts, later.starts⟩
  unbroken := List.forall_mem_cons.2 ⟨start.unbroken, later.unbroken⟩

/-- Lines that go on from a first one hold its words and the ones behind it. -/
theorem wraps_wrapWords {continuation : String} (again : IsStart continuation)
    (bare : commentWords continuation = []) {line : String} (start : IsStart line)
    (narrow : width line ≤ 79 ∨ (commentWords line).length = 1) {rest : List String}
    (read : ∀ word ∈ rest, IsWord word) :
    Wraps (commentWords line ++ rest) (wrapWords continuation line rest) := by
  induction rest generalizing line with
  | nil => exact Wraps.cons start narrow (by simp) ⟨rfl, by simp, .nil, by simp, by simp⟩
  | cons word rest ih =>
      obtain ⟨here, later⟩ := List.forall_mem_cons.1 read
      obtain ⟨full, broken⟩ | ⟨room, kept⟩ := wrapWords_cons continuation line word rest
      · have next : commentWords (continuation ++ " " ++ word) = [word] := by
          rw [again.commentWords_append here, bare, List.nil_append]
        obtain ⟨first, others, parted, before⟩ :=
          exists_wrapWords_eq_cons continuation (again.append here) later
        have wraps := ih (again.append here) (.inr (congrArg List.length next)) later
        rw [next] at wraps before
        obtain ⟨more, same⟩ := before
        rw [broken]
        refine Wraps.cons start narrow (fun line' head => ?_) wraps
        obtain rfl : first = line' := by simpa [parted] using head
        exact ⟨word, by simp [← same], full⟩
      · rw [kept]
        have longer := ih (start.append here) (.inl room) later
        rwa [start.commentWords_append here, List.append_assoc] at longer

/-- A text is printed as lines of a comment that hold its words, as many on each as fit. -/
theorem render_commentLines (text : String) (indent : Bool) :
    Code.render ((commentLines text indent).map .line) =
        String.join ((commentLines text indent).map fun line => line ++ "\n") ∧
      Wraps (words text) (commentLines text indent) := by
  have again : IsStart (if indent then " *  " else " *") := by
    cases indent <;> exact ⟨by decide, by decide⟩
  have bare : commentWords (if indent then " *  " else " *") = [] := by
    cases indent <;> decide
  have first : IsStart " *" := ⟨by decide, by decide⟩
  have wraps : Wraps (words text) (commentLines text indent) :=
    wraps_wrapWords again bare first (.inl (by decide)) fun _ => Text.isWord_of_mem_words
  refine ⟨Code.render_lines fun line member => ?_, wraps⟩
  obtain ⟨rest, parted⟩ :=
    List.isPrefixOf_iff_prefix.1 (wraps.starts line (List.dropLast_subset _ member))
  simp [isCondition, startsWith, ← parted, List.isPrefixOf]

/-- A word that is too long for any line leaves the first line bare. -/
example : commentLines (spaces 3 ++ String.ofList (List.replicate 77 'a') ++ " b c") true =
    [" *", " *   " ++ String.ofList (List.replicate 77 'a'), " *   b c"] := by
  decide +kernel

end NetlinkFamily.C
