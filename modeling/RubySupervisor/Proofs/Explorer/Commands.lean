import Mathlib.Data.List.DropRight
import RubySupervisor.Explorer.Item
import RubySupervisor.Explorer.Plan
import RubySupervisor.Proofs.Text.Cutting

/-!
# The word of a command that selects its test

The last word of a command selects its test, and in the command of a plan a selector stands in its
place. Words are apart at any blank, but the selector takes the place of what stands behind the last
space. The two are the same exactly if there is one word behind the last space.

The word is either the pattern of a name or a place in a file. Whatever stands before, a place is
the identifier as it is, and the pattern of a name is unwrapped to that name, unless the name has a
colon: the colon makes the whole word count as a place.
-/

/-! ## The selector in place of the word -/

namespace RubySupervisor.TestPlan

/-- What stands behind the last space of a command, or all of it if it has none. -/
def lastStretch (command : String) : String :=
  String.ofList (command.toList.rtakeWhile (· ≠ ' '))

/-- A command straggles: there is no word behind its last space, or more than one. -/
def Straggles (command : String) : Prop := (Text.words (lastStretch command)).length ≠ 1

instance (command : String) : Decidable (Straggles command) :=
  inferInstanceAs (Decidable (_ ≠ _))

/-- What selects one test: its place, or a filter of its name. -/
def selectorOf (identifier : String) : String :=
  if ':' ∈ identifier.toList then identifier else "\"/(" ++ identifier ++ ")/\""

theorem selector_singleton (test : PlannedTest) :
    selector test [test.identifier] = selectorOf test.identifier := by
  simp [selector, selectorOf]

/-- The words of the first command, and those of the command that runs several tests, are the same
up to the last space. -/
theorem exists_words_runCommand?_cons (first : PlannedTest) (others : List PlannedTest) :
    ∃ line front, runCommand? (first :: others) = some line ∧
      Text.words first.command = front ++ Text.words (lastStretch first.command) ∧
      Text.words line = front ++
        Text.words (selector first ((first :: others).map PlannedTest.identifier)) := by
  have hblank : Text.isBlank ' ' = true := by decide
  rw [runCommand?, List.head?_cons, Option.map_some]
  generalize selector first ((first :: others).map PlannedTest.identifier) = selected
  by_cases hspace : ' ' ∈ first.command.toList
  · obtain ⟨before, hsplit, hcut⟩ := Text.exists_cutLast?_of_mem hspace
    have hline : String.ofList before ++ " " ++ selected =
        String.ofList (before ++ ' ' :: selected.toList) := by
      rw [← String.toList_inj]
      simp
    refine ⟨String.ofList before ++ " " ++ selected, Text.words (String.ofList before),
      by rw [hcut], ?_, ?_⟩
    · rw [lastStretch, ← Text.words_append_blank hblank, ← hsplit, String.ofList_toList]
    · rw [hline, Text.words_append_blank hblank, String.ofList_toList]
  · have hnone : Text.cutLast? [' '] first.command.toList = none := by
      rw [Text.cutLast?_eq_none_iff (List.cons_ne_nil _ _), List.singleton_infix_iff]
      exact hspace
    have hall : ∀ c ∈ first.command.toList, decide (c ≠ ' ') = true :=
      fun c hc => decide_eq_true fun hblank => hspace (hblank ▸ hc)
    refine ⟨selected, [], by rw [hnone], ?_, rfl⟩
    rw [lastStretch, List.rtakeWhile_eq_self_iff.2 hall, String.ofList_toList, List.nil_append]

/-- The words of a command, and those of the command that runs its test, are the same up to the last
space. -/
theorem exists_words_runCommand? (test : PlannedTest) :
    ∃ line front, runCommand? [test] = some line ∧
      Text.words test.command = front ++ Text.words (lastStretch test.command) ∧
      Text.words line = front ++ Text.words (selectorOf test.identifier) := by
  have hwords := exists_words_runCommand?_cons test []
  rwa [List.map_singleton, selector_singleton] at hwords

/-- A command that has an identifier has words. -/
theorem words_ne_nil {command identifier : String}
    (h : TestItem.identifierOf? command = some identifier) : Text.words command ≠ [] := by
  intro hnil
  rw [TestItem.identifierOf?, hnil] at h
  cases h

/-- **Theorem (replaced words).** Running one test takes its command with the selector in place of
the last word, exactly unless the command straggles. -/
theorem last_word_replaced_iff {test : PlannedTest}
    (h : TestItem.identifierOf? test.command = some test.identifier) :
    ∃ line, runCommand? [test] = some line ∧
      (Text.words line =
          (Text.words test.command).dropLast ++ Text.words (selectorOf test.identifier) ↔
        ¬ Straggles test.command) := by
  obtain ⟨line, front, hline, hcommand, hwords⟩ := exists_words_runCommand? test
  have hsome := List.length_pos_iff.2 (words_ne_nil h)
  refine ⟨line, hline, ?_⟩
  rw [hwords, List.append_left_inj, Straggles, not_not]
  rw [hcommand] at hsome ⊢
  constructor
  · intro hsame
    have hlength := congrArg List.length hsame
    rw [List.length_dropLast, List.length_append] at hlength
    rw [List.length_append] at hsome
    omega
  · intro hone
    obtain ⟨word, hword⟩ := List.length_eq_one_iff.1 hone
    rw [hword, List.dropLast_concat]

/-- An example at a line of a file, whose command ends with a line feed. -/
def endedExample : PlannedTest :=
  ⟨"TestA#test_saves", "saves", "a.rb:3", "bin/rails\ttest  a.rb:3\n"⟩

/-- The line feed does not keep the last word from being replaced. -/
theorem ended_replaced :
    TestItem.identifierOf? endedExample.command = some endedExample.identifier ∧
      ∃ line, runCommand? [endedExample] = some line ∧
        Text.words line = ["bin/rails", "test"] ++ Text.words (selectorOf "a.rb:3") := by
  have hidentifier : TestItem.identifierOf? endedExample.command =
      some endedExample.identifier := by decide +kernel
  have hfront : (Text.words endedExample.command).dropLast = ["bin/rails", "test"] := by
    decide +kernel
  have hstraggles : ¬ Straggles endedExample.command := by decide +kernel
  obtain ⟨line, hline, hwords⟩ := last_word_replaced_iff hidentifier
  exact ⟨hidentifier, line, hline, hfront ▸ hwords.2 hstraggles⟩

/-- An example whose name stands behind a tab. -/
def tabbedExample : PlannedTest :=
  ⟨"TestA#test_saves", "test_saves", "test_saves", "ruby a.rb --name\t/test_saves$/"⟩

/-- Not every run of one test has the selector in place of the last word: behind a tab, the word
before it is replaced, too. -/
theorem not_always_replaced :
    ¬ ∀ test : PlannedTest, TestItem.identifierOf? test.command = some test.identifier →
      ∃ line, runCommand? [test] = some line ∧ Text.words line =
        (Text.words test.command).dropLast ++ Text.words (selectorOf test.identifier) := by
  intro h
  obtain ⟨line, hline, hwords⟩ := h tabbedExample (by decide +kernel)
  have hrun : runCommand? [tabbedExample] = some "ruby a.rb \"/(test_saves)/\"" := by
    decide +kernel
  obtain rfl := Option.some.inj (hline.symm.trans hrun)
  exact absurd hwords (by decide +kernel)

end RubySupervisor.TestPlan

/-! ## The identifier that the word stands for -/

namespace RubySupervisor.TestItem

/-- A name that is not empty and has no blank, no quote, no slash and no dollar sign. -/
def IsPatternName (name : String) : Prop :=
  name ≠ "" ∧ ∀ c ∈ name.toList, Text.isBlank c = false ∧ c ≠ '"' ∧ c ≠ '/' ∧ c ≠ '$'

instance (name : String) : Decidable (IsPatternName name) :=
  @instDecidableAnd _ _ _ (List.decidableBAll _ _)

/-- What stands around a word in a command: a quote, or nothing. -/
def quoteOf (quoted : Bool) : String := if quoted then "\"" else ""

/-- The pattern that selects a test by its name, in quotes or plain. -/
def patternOf (quoted : Bool) (name : String) : String :=
  quoteOf quoted ++ "/" ++ name ++ "$/" ++ quoteOf quoted

/-- The place that selects a test by a line of its file. -/
def placeOf (path line : String) : String := path ++ ":" ++ line

/-- A text without blanks. -/
def Unbroken (s : String) : Prop := ∀ c ∈ s.toList, Text.isBlank c = false

instance (s : String) : Decidable (Unbroken s) := List.decidableBAll _ _

theorem eq_quote_of_mem_quoteOf {quoted : Bool} {c : Char} (h : c ∈ (quoteOf quoted).toList) :
    c = '"' := by
  cases quoted with
  | true => simpa [quoteOf] using h
  | false => simp [quoteOf] at h

theorem toList_patternOf (quoted : Bool) (name : String) :
    (patternOf quoted name).toList = (quoteOf quoted).toList ++
      ((['/'] ++ ((name.toList ++ ['$']) ++ ['/'])) ++ (quoteOf quoted).toList) := by
  simp [patternOf]

theorem patternOf_ne_empty (quoted : Bool) (name : String) : patternOf quoted name ≠ "" := by
  rw [ne_eq, ← String.toList_eq_nil_iff, toList_patternOf]
  simp

theorem patternOf_ne (quoted : Bool) (name : String) : patternOf quoted name ≠ name := by
  intro h
  have hlength := congrArg List.length ((toList_patternOf quoted name).symm.trans (congrArg _ h))
  simp at hlength
  omega

theorem patternOf_unbroken {name : String} (h : Unbroken name) (quoted : Bool) :
    Unbroken (patternOf quoted name) := by
  intro c hc
  rw [toList_patternOf] at hc
  simp only [List.mem_append, List.mem_singleton] at hc
  rcases hc with hquote | (rfl | (hname | rfl) | rfl) | hquote
  · rw [eq_quote_of_mem_quoteOf hquote]
    rfl
  · rfl
  · exact h c hname
  · rfl
  · rfl
  · rw [eq_quote_of_mem_quoteOf hquote]
    rfl

/-- The pattern of a name is unwrapped to the name if this does not begin with a slash. -/
theorem unwrapped_patternOf {name : String} (h : name.toList.head? ≠ some '/') (quoted : Bool) :
    unwrapped (patternOf quoted name).toList = name.toList := by
  have hquotes : ∀ c ∈ (quoteOf quoted).toList, (c == '"') = true := fun c hc =>
    beq_iff_eq.2 (eq_quote_of_mem_quoteOf hc)
  have hfirst : ∀ c ∈ (name.toList ++ ['$']).head?, (c == '/') = false := by
    cases hname : name.toList with
    | nil => simp
    | cons c others => simpa [hname] using h
  have hslash : ∀ c ∈ (['/'] ++ ((name.toList ++ ['$']) ++ ['/'])).getLast?,
      (c == '"') = false := by
    rw [← List.append_assoc, List.getLast?_concat]
    simp
  have hbare := Text.dropWhile_ends hquotes hquotes (by simp) hslash (by simp)
  have hseparators : ∀ c ∈ ['/'], (c == '/') = true := by simp
  have hcore : name.toList ++ ['$'] ≠ [] := by simp
  have hpattern := Text.dropWhile_ends hseparators hseparators hfirst (by simp) hcore
  rw [unwrapped, toList_patternOf, hbare, hpattern, dropDollar]
  simp

/-- A word behind a space is the last word of a command. -/
theorem getLast?_words_append {word : String} (hne : word ≠ "") (h : Unbroken word)
    (base : String) : (Text.words (base ++ " " ++ word)).getLast? = some word := by
  have hblank : Text.isBlank ' ' = true := rfl
  have hcommand : base ++ " " ++ word = String.ofList (base.toList ++ ' ' :: word.toList) := by
    rw [← String.toList_inj]
    simp
  rw [hcommand, Text.words_append_blank hblank, String.ofList_toList (s := word),
    Text.words_eq_singleton hne h, List.getLast?_concat]

/-- The pattern of a name without a colon stands for the name, any other one for itself. -/
theorem identifierOf?_of_pattern {command name : String} {quoted : Bool}
    (h : name.toList.head? ≠ some '/')
    (hlast : (Text.words command).getLast? = some (patternOf quoted name)) :
    identifierOf? command =
      some (if ':' ∈ name.toList then patternOf quoted name else name) := by
  have hcolon : (patternOf quoted name).toList.contains ':' = true ↔ ':' ∈ name.toList := by
    rw [List.contains_iff_mem, toList_patternOf]
    have hquote : ':' ∉ (quoteOf quoted).toList := fun hc =>
      absurd (eq_quote_of_mem_quoteOf hc) (by decide)
    simp [hquote]
  rw [identifierOf?, hlast, Option.map_some, unwrapped_patternOf h, String.ofList_toList]
  simp only [hcolon]

/-- A place stands for itself. -/
theorem identifierOf?_placeOf {path line : String} (hpath : Unbroken path) (hline : Unbroken line)
    (base : String) :
    identifierOf? (base ++ " " ++ placeOf path line) = some (placeOf path line) := by
  have hcolon : ':' ∈ (placeOf path line).toList := by simp [placeOf]
  have hne : placeOf path line ≠ "" := by
    rw [ne_eq, ← String.toList_eq_nil_iff]
    exact List.ne_nil_of_mem hcolon
  have hunbroken : Unbroken (placeOf path line) := by
    intro c hc
    simp only [placeOf, String.toList_append, List.mem_append] at hc
    rcases hc with (hc | hc) | hc
    · exact hpath c hc
    · obtain rfl : c = ':' := by simpa using hc
      rfl
    · exact hline c hc
  rw [identifierOf?, getLast?_words_append hne hunbroken]
  simp [hcolon]

/-- **Theorem (unwrapped selectors).** Behind any command a place is the identifier as it is, and
the pattern of a name is unwrapped to that name exactly if the name has no colon. -/
theorem unwrapped_iff_no_colon (base : String) :
    (∀ (quoted : Bool) (name : String), IsPatternName name →
      (identifierOf? (base ++ " " ++ patternOf quoted name) = some name ↔ ':' ∉ name.toList)) ∧
    ∀ path line : String, Unbroken path → Unbroken line →
      identifierOf? (base ++ " " ++ placeOf path line) = some (placeOf path line) := by
  refine ⟨fun quoted name h => ?_, fun path line hpath hline =>
    identifierOf?_placeOf hpath hline base⟩
  have hslash : name.toList.head? ≠ some '/' := fun hhead =>
    (h.2 '/' (List.mem_of_mem_head? hhead)).2.2.1 rfl
  have hunbroken := patternOf_unbroken (fun c hc => (h.2 c hc).1) quoted
  rw [identifierOf?_of_pattern hslash
    (getLast?_words_append (patternOf_ne_empty quoted name) hunbroken base), Option.some_inj]
  split
  · next hcolon => exact iff_of_false (patternOf_ne quoted name) (not_not_intro hcolon)
  · next hcolon => exact iff_of_true rfl hcolon

/-- Behind a command that ends with a space, a name in quotes is unwrapped and one in a namespace is
not, and a place with dollar signs stays as it is. -/
theorem quoted_unwrapped :
    IsPatternName "test_a-1" ∧ IsPatternName "A::B" ∧ Unbroken "$/a.rb$" ∧ Unbroken "3" ∧
      identifierOf? ("ruby a.rb " ++ " " ++ patternOf true "test_a-1") = some "test_a-1" ∧
      identifierOf? ("ruby a.rb " ++ " " ++ patternOf false "A::B") ≠ some "A::B" ∧
      identifierOf? ("ruby a.rb " ++ " " ++ placeOf "$/a.rb$" "3") = some "$/a.rb$:3" := by
  have hplain : IsPatternName "test_a-1" := by decide +kernel
  have hscoped : IsPatternName "A::B" := by decide +kernel
  have hpath : Unbroken "$/a.rb$" := by decide +kernel
  have hline : Unbroken "3" := by decide +kernel
  obtain ⟨hpattern, hplace⟩ := unwrapped_iff_no_colon "ruby a.rb "
  refine ⟨hplain, hscoped, hpath, hline, ?_, ?_, hplace _ _ hpath hline⟩
  · exact (hpattern true _ hplain).2 (by decide +kernel)
  · exact (hpattern false _ hscoped).not.2 (by decide +kernel)

/-- Not every pattern is unwrapped: that of a name in a namespace stays as it is. -/
theorem not_always_unwrapped :
    ¬ ∀ (base name : String) (quoted : Bool), IsPatternName name →
      identifierOf? (base ++ " " ++ patternOf quoted name) = some name := by
  intro h
  have hname := h "ruby a.rb --name" "A::B" false (by decide +kernel)
  exact absurd hname (by decide +kernel)

end RubySupervisor.TestItem
