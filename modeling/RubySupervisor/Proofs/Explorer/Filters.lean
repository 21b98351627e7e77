import RubySupervisor.Proofs.Explorer.Commands

/-!
# Name filters

A pattern between slashes is searched for in the names of tests. The pattern of one example stands
at the end of a line, while in the command of a plan the names of its examples are alternatives that
may stand anywhere. So a plan selects what its examples select, and besides the names that go on
behind the name of one of them.
-/

namespace RubySupervisor

/-- What the name of a test can be searched for. -/
inductive NameFilter where
  | nothing
  | char (c : Char)
  /-- The end of a line. -/
  | lineEnd
  | both (first second : NameFilter)
  | either (first second : NameFilter)
  deriving DecidableEq, Repr

namespace NameFilter

/-- Whether a filter matches a text in front of a rest. -/
def Matches : NameFilter → List Char → List Char → Prop
  | nothing, s, _ => s = []
  | char c, s, _ => s = [c]
  | lineEnd, s, rest => s = [] ∧ ∀ c ∈ rest.head?, c = '\n'
  | both f g, s, rest => ∃ t u, s = t ++ u ∧ f.Matches t (u ++ rest) ∧ g.Matches u rest
  | either f g, s, rest => f.Matches s rest ∨ g.Matches s rest

/-- Whether a filter matches a part of a text. -/
def Found (f : NameFilter) (s : List Char) : Prop :=
  ∃ before part rest, s = before ++ (part ++ rest) ∧ f.Matches part rest

/-! ## Written filters -/

/-- The alternatives of a group that is being read: those before, the last one first, and the one
that goes on. -/
structure Branches where
  before : List NameFilter
  current : NameFilter

/-- A group of which nothing has been read. -/
def Branches.fresh : Branches := ⟨[], nothing⟩

/-- A group that goes on behind one more filter. -/
def Branches.add (b : Branches) (f : NameFilter) : Branches :=
  { b with current := both b.current f }

/-- A group with the next alternative begun. -/
def Branches.next (b : Branches) : Branches := ⟨b.current :: b.before, nothing⟩

/-- The filter of a group. -/
def Branches.filter (b : Branches) : NameFilter := b.before.foldl (fun f g => either g f) b.current

/-- The characters that can stand for something else than themselves. -/
def special : List Char :=
  ['\\', '^', '$', '.', '|', '?', '*', '+', '(', ')', '[', ']', '\x7b', '\x7d']

/-- Reads a filter of groups, alternatives, line ends and characters that stand for themselves,
inside of the groups around it, the innermost first. -/
def read? : List Branches → Branches → List Char → Option NameFilter
  | [], b, [] => some b.filter
  | _ :: _, _, [] => none
  | around, b, '(' :: rest => read? (b :: around) .fresh rest
  | [], _, ')' :: _ => none
  | outer :: around, b, ')' :: rest => read? around (outer.add b.filter) rest
  | around, b, '|' :: rest => read? around b.next rest
  | around, b, '$' :: rest => read? around (b.add lineEnd) rest
  | around, b, c :: rest => if c ∈ special then none else read? around (b.add (char c)) rest

/-- What stands between one character at both ends of a text. -/
def between? (c : Char) : List Char → Option (List Char)
  | [] => none
  | d :: rest => if d = c ∧ rest.getLast? = some c then some rest.dropLast else none

/-- The filter that a word writes between slashes, in quotes or plain. -/
def ofWord? (word : List Char) : Option NameFilter :=
  (between? '/' ((between? '"' word).getD word)).bind (read? [] .fresh)

/-- The filter in a command: what its last word writes. -/
def ofCommand? (command : String) : Option NameFilter :=
  (Text.words command).getLast?.bind fun word => ofWord? word.toList

/-- Whether the filter in a command selects a test with a name. -/
def Selects (command name : String) : Prop :=
  ∃ f, ofCommand? command = some f ∧ f.Found name.toList

/-! ## What filters match -/

/-- A filter with characters behind it. -/
def behind (f : NameFilter) (s : List Char) : NameFilter := s.foldl (fun f c => both f (char c)) f

theorem matches_behind {f : NameFilter} {s part rest : List Char} :
    (f.behind s).Matches part rest ↔ ∃ t, part = t ++ s ∧ f.Matches t (s ++ rest) := by
  induction s generalizing f with
  | nil => simp [behind]
  | cons c s ih =>
    rw [behind, List.foldl_cons, ← behind, ih]
    simp only [Matches]
    constructor
    · rintro ⟨_, rfl, t, _, rfl, ht, rfl⟩
      exact ⟨t, by simp, by simpa using ht⟩
    · rintro ⟨t, rfl, ht⟩
      exact ⟨t ++ [c], by simp, t, [c], rfl, by simpa using ht, rfl⟩

/-- A group matches what one of its alternatives matches. -/
theorem matches_filter {b : Branches} {part rest : List Char} :
    b.filter.Matches part rest ↔
      (∃ f ∈ b.before, f.Matches part rest) ∨ b.current.Matches part rest := by
  obtain ⟨before, current⟩ := b
  simp only [Branches.filter]
  induction before generalizing current with
  | nil => simp
  | cons f before ih =>
    rw [List.foldl_cons, ih]
    simp only [Matches, List.exists_mem_cons_iff]
    exact or_left_comm.trans or_assoc.symm

/-- Characters that stand for themselves are read one by one. -/
theorem read?_append {s : List Char} (h : ∀ c ∈ s, c ∉ special) (around : List Branches)
    (b : Branches) (rest : List Char) :
    read? around b (s ++ rest) = read? around { b with current := b.current.behind s } rest := by
  induction s generalizing b with
  | nil => rfl
  | cons c s ih =>
    have hc := h c List.mem_cons_self
    have hne {d : Char} (hd : d ∈ special) : c ≠ d := fun heq => hc (heq ▸ hd)
    have hread : read? around b (c :: (s ++ rest)) = read? around (b.add (char c)) (s ++ rest) := by
      cases around <;> simp [read?, hc, hne (d := '(') (by decide), hne (d := ')') (by decide),
        hne (d := '|') (by decide), hne (d := '$') (by decide)]
    rw [List.cons_append, hread, ih fun d hd => h d (List.mem_cons_of_mem c hd)]
    rfl

/-- A group of characters that stand for themselves is read whole. -/
theorem read?_group {s : List Char} (h : ∀ c ∈ s, c ∉ special) (around : List Branches)
    (b : Branches) (rest : List Char) :
    read? around b ('(' :: (s ++ ')' :: rest)) = read? around (b.add (nothing.behind s)) rest := by
  rw [read?, read?_append h, read?]
  rfl

/-- Names as alternatives, each in a group of its own. -/
def joined (names : List (List Char)) : List Char :=
  '(' :: (List.intercalate [')', '|', '('] names ++ [')'])

theorem joined_singleton (name : List Char) : joined [name] = '(' :: (name ++ ')' :: []) := by
  simp [joined]

theorem joined_cons_cons (name next : List Char) (names : List (List Char)) :
    joined (name :: next :: names) = '(' :: (name ++ ')' :: '|' :: joined (next :: names)) := by
  simp [joined, List.intercalate_cons_cons]

theorem mem_joined {names : List (List Char)} (hne : names ≠ []) {c : Char}
    (hc : c ∈ joined names) : c ∈ ['(', ')', '|'] ∨ ∃ name ∈ names, c ∈ name := by
  induction names with
  | nil => exact absurd rfl hne
  | cons name names ih =>
    cases names with
    | nil =>
      simp only [joined_singleton, List.mem_cons, List.mem_append] at hc ⊢
      grind
    | cons next names =>
      have hrest := ih (List.cons_ne_nil _ _)
      simp only [joined_cons_cons, List.mem_cons, List.mem_append] at hc hrest ⊢
      grind

/-- Alternatives match the names that they are made of. -/
theorem exists_read?_joined {names : List (List Char)} (hne : names ≠ [])
    (h : ∀ name ∈ names, ∀ c ∈ name, c ∉ special) (before : List NameFilter) :
    ∃ f, read? [] ⟨before, nothing⟩ (joined names) = some f ∧ ∀ part rest,
      f.Matches part rest ↔ (∃ g ∈ before, g.Matches part rest) ∨ part ∈ names := by
  -- on the names that are still to be read, before being the alternatives read so far
  induction names generalizing before with
  | nil => exact absurd rfl hne
  | cons name names ih =>
    have hname := h name List.mem_cons_self
    have hown (part rest : List Char) :
        (both nothing (nothing.behind name)).Matches part rest ↔ part = name := by
      simp [Matches, matches_behind]
    cases names with
    | nil =>
      refine ⟨_, (congrArg _ (joined_singleton name)).trans (read?_group hname [] _ []),
        fun part rest => ?_⟩
      rw [matches_filter]
      simp [Branches.add, hown]
    | cons next names =>
      obtain ⟨f, hread, hmatches⟩ := ih (List.cons_ne_nil _ _)
        (fun other hother => h other (List.mem_cons_of_mem name hother))
        (both nothing (nothing.behind name) :: before)
      refine ⟨f, ?_, fun part rest => ?_⟩
      · rw [joined_cons_cons, read?_group hname, read?]
        exact hread
      · rw [hmatches, List.exists_mem_cons_iff, hown, List.mem_cons (b := name)]
        exact or_assoc.trans or_left_comm

/-! ## Filters in commands -/

theorem between?_wrapped (c : Char) (s : List Char) : between? c (c :: (s ++ [c])) = some s := by
  simp [between?]

theorem between?_eq_none {c d : Char} (h : d ≠ c) (s : List Char) : between? c (d :: s) = none := by
  simp [between?, h]

/-- The pattern of a name writes the name with the end of a line behind it. -/
theorem ofWord?_patternOf {name : String} (h : ∀ c ∈ name.toList, c ∉ special) (quoted : Bool) :
    ofWord? (TestItem.patternOf quoted name).toList =
      some (both (nothing.behind name.toList) lineEnd) := by
  have hslashes : between? '/' ('/' :: ((name.toList ++ ['$']) ++ ['/'])) =
      some (name.toList ++ ['$']) := between?_wrapped '/' _
  have hread : read? [] .fresh (name.toList ++ ['$']) =
      some (both (nothing.behind name.toList) lineEnd) := by
    rw [read?_append h]
    rfl
  have hword : ((between? '"' (TestItem.patternOf quoted name).toList).getD
      (TestItem.patternOf quoted name).toList) = '/' :: ((name.toList ++ ['$']) ++ ['/']) := by
    cases quoted with
    | true =>
      have htext : (TestItem.patternOf true name).toList =
          '"' :: (('/' :: ((name.toList ++ ['$']) ++ ['/'])) ++ ['"']) := by
        simp [TestItem.patternOf, TestItem.quoteOf]
      rw [htext, between?_wrapped, Option.getD_some]
    | false =>
      have htext : (TestItem.patternOf false name).toList =
          '/' :: ((name.toList ++ ['$']) ++ ['/']) := by
        simp [TestItem.patternOf, TestItem.quoteOf]
      rw [htext, between?_eq_none (by decide), Option.getD_none]
  rw [ofWord?, hword, hslashes, Option.bind_some, hread]

/-- A name stands at the end of a line of a text. -/
def EndsLine (name s : List Char) : Prop :=
  ∃ before rest, s = before ++ (name ++ rest) ∧ ∀ c ∈ rest.head?, c = '\n'

/-- A line of a text goes on behind a name. -/
def GoesOn (name s : List Char) : Prop :=
  ∃ before c rest, s = before ++ (name ++ c :: rest) ∧ c ≠ '\n'

/-- In a text of one line, what ends a line ends the text. -/
theorem EndsLine.suffix {name s : List Char} (h : EndsLine name s) (hs : '\n' ∉ s) :
    name <:+ s := by
  obtain ⟨before, rest, rfl, hrest⟩ := h
  cases rest with
  | nil => exact ⟨before, by simp⟩
  | cons c rest =>
    obtain rfl := hrest c rfl
    simp at hs

/-- Where a name stands, it ends a line or the line goes on. -/
theorem infix_iff_endsLine_or_goesOn {name s : List Char} :
    name <:+: s ↔ EndsLine name s ∨ GoesOn name s := by
  constructor
  · rintro ⟨before, rest, rfl⟩
    cases rest with
    | nil => exact .inl ⟨before, [], by simp, by simp⟩
    | cons c rest =>
      by_cases hc : c = '\n'
      · exact .inl ⟨before, c :: rest, by simp, by simpa using hc⟩
      · exact .inr ⟨before, c, rest, by simp, hc⟩
  · rintro (⟨before, rest, rfl, -⟩ | ⟨before, c, rest, rfl, -⟩)
    · exact ⟨before, rest, by simp⟩
    · exact ⟨before, c :: rest, by simp⟩

/-- The pattern of a name selects the names in which a line ends with it. -/
theorem selects_of_pattern {command name m : String} {quoted : Bool}
    (h : ∀ c ∈ name.toList, c ∉ special)
    (hlast : (Text.words command).getLast? = some (TestItem.patternOf quoted name)) :
    Selects command m ↔ EndsLine name.toList m.toList := by
  have hfilter : ofCommand? command = some (both (nothing.behind name.toList) lineEnd) := by
    rw [ofCommand?, hlast, Option.bind_some, ofWord?_patternOf h]
  have hmatches (part rest : List Char) :
      (both (nothing.behind name.toList) lineEnd).Matches part rest ↔
        part = name.toList ∧ ∀ c ∈ rest.head?, c = '\n' := by
    simp [Matches, matches_behind]
  simp [Selects, hfilter, Found, hmatches, EndsLine]

/-! ## Plans -/

/-- Letters, digits and underscores. -/
def isWordChar (c : Char) : Bool := Text.isAsciiAlphanumeric c || c == '_'

theorem not_mem_special {c : Char} (h : isWordChar c = true) : c ∉ special := by
  have hall : special.all (fun d => !isWordChar d) = true := by decide
  intro hc
  have hnot := List.all_eq_true.1 hall c hc
  simp [h] at hnot

theorem isBlank_of_isWordChar {c : Char} (h : isWordChar c = true) : Text.isBlank c = false := by
  have hrange : 48 ≤ c.toNat ∧ c.toNat ≤ 122 := by
    simp only [isWordChar, Text.isAsciiAlphanumeric, Text.isAsciiLetter, Text.isAsciiDigit,
      Bool.or_eq_true, Bool.and_eq_true, decide_eq_true_eq, beq_iff_eq, Char.le_def,
      UInt32.le_iff_toNat_le] at h
    rcases h with ((h | h) | h) | rfl
    · exact ⟨Nat.le_trans (by decide) h.1, h.2⟩
    · exact ⟨Nat.le_trans (by decide) h.1, Nat.le_trans h.2 (by decide)⟩
    · exact ⟨h.1, Nat.le_trans h.2 (by decide)⟩
    · decide
  simp [Text.isBlank]
  omega

/-- An example whose command ends with the pattern of a name of letters, digits and underscores. -/
def IsNamed (test : PlannedTest) : Prop :=
  TestItem.identifierOf? test.command = some test.identifier ∧
    ∃ (name : String) (quoted : Bool), (∀ c ∈ name.toList, isWordChar c = true) ∧
      (Text.words test.command).getLast? = some (TestItem.patternOf quoted name)

/-- The identifier of such an example is its name. -/
theorem IsNamed.identifier {test : PlannedTest} (h : IsNamed test) :
    (∀ c ∈ test.identifier.toList, isWordChar c = true) ∧ ∃ quoted,
      (Text.words test.command).getLast? = some (TestItem.patternOf quoted test.identifier) := by
  obtain ⟨hidentifier, name, quoted, hname, hlast⟩ := h
  have hslash : name.toList.head? ≠ some '/' := fun hhead =>
    absurd (hname '/' (List.mem_of_mem_head? hhead)) (by decide)
  have hcolon : ':' ∉ name.toList := fun hc => absurd (hname ':' hc) (by decide)
  rw [TestItem.identifierOf?_of_pattern hslash hlast, if_neg hcolon, Option.some_inj] at hidentifier
  exact hidentifier ▸ ⟨hname, quoted, hlast⟩

/-- The command of an example selects the names in which a line ends with its identifier. -/
theorem IsNamed.selects_iff {test : PlannedTest} (h : IsNamed test) (m : String) :
    Selects test.command m ↔ EndsLine test.identifier.toList m.toList := by
  obtain ⟨hplain, quoted, hlast⟩ := h.identifier
  exact selects_of_pattern (fun c hc => not_mem_special (hplain c hc)) hlast

/-- The selector of several names is one word, with their alternatives between slashes. -/
theorem toList_selector {first : PlannedTest} (h : ':' ∉ first.identifier.toList)
    (names : List String) : (TestPlan.selector first names).toList =
      '"' :: (('/' :: (joined (names.map String.toList) ++ ['/'])) ++ ['"']) := by
  simp [TestPlan.selector, h, joined, String.toList_intercalate]

/-- A word of alternatives in quotes writes a filter that matches the names themselves. -/
theorem exists_ofWord?_selector {first : PlannedTest} {names : List String} (hne : names ≠ [])
    (hfirst : ':' ∉ first.identifier.toList)
    (h : ∀ name ∈ names, ∀ c ∈ name.toList, c ∉ special) :
    ∃ f, ofWord? (TestPlan.selector first names).toList = some f ∧
      ∀ part rest, f.Matches part rest ↔ ∃ name ∈ names, part = name.toList := by
  have hall : ∀ name ∈ names.map String.toList, ∀ c ∈ name, c ∉ special := by simpa using h
  obtain ⟨f, hread, hmatches⟩ := exists_read?_joined (by simpa using hne) hall []
  refine ⟨f, ?_, fun part rest => ?_⟩
  · rw [ofWord?, toList_selector hfirst, between?_wrapped, Option.getD_some, between?_wrapped,
      Option.bind_some]
    exact hread
  · rw [hmatches]
    simp [eq_comm]

theorem selector_unbroken {first : PlannedTest} {names : List String} (hne : names ≠ [])
    (hfirst : ':' ∉ first.identifier.toList)
    (h : ∀ name ∈ names, ∀ c ∈ name.toList, Text.isBlank c = false) :
    TestItem.Unbroken (TestPlan.selector first names) := by
  intro c hc
  rw [toList_selector hfirst] at hc
  simp only [List.mem_cons, List.mem_append, List.not_mem_nil, or_false] at hc
  rcases hc with rfl | (rfl | hjoined | rfl) | rfl
  · rfl
  · rfl
  · rcases mem_joined (by simpa using hne) hjoined with hmark | ⟨_, hname, hc⟩
    · have hall : ['(', ')', '|'].all (fun d => !Text.isBlank d) = true := by decide
      simpa using List.all_eq_true.1 hall c hmark
    · obtain ⟨name, hmem, rfl⟩ := List.mem_map.1 hname
      exact h name hmem c hc
  · rfl
  · rfl

/-- The command of a plan selects the names in which one of the identifiers stands. -/
theorem selects_runCommand?_iff {tests : List PlannedTest} (hne : tests ≠ [])
    (h : ∀ test ∈ tests, IsNamed test) (m : String) :
    ∃ line, TestPlan.runCommand? tests = some line ∧
      (Selects line m ↔ ∃ test ∈ tests, test.identifier.toList <:+: m.toList) := by
  obtain ⟨first, others, rfl⟩ := List.exists_cons_of_ne_nil hne
  obtain ⟨line, front, hline, -, hwords⟩ := TestPlan.exists_words_runCommand?_cons first others
  have hnames : (first :: others).map PlannedTest.identifier ≠ [] := by simp
  have hplain : ∀ name ∈ (first :: others).map PlannedTest.identifier,
      ∀ c ∈ name.toList, isWordChar c = true := by
    intro name hname
    obtain ⟨test, htest, rfl⟩ := List.mem_map.1 hname
    exact (h test htest).identifier.1
  -- the first identifier is no place in a file, so that the names are filtered
  have hfirst : ':' ∉ first.identifier.toList := fun hc =>
    absurd (hplain _ List.mem_cons_self ':' hc) (by decide)
  obtain ⟨f, hword, hmatches⟩ := exists_ofWord?_selector hnames hfirst
    fun name hname c hc => not_mem_special (hplain name hname c hc)
  have hselector := Text.words_eq_singleton
    (by rw [ne_eq, ← String.toList_eq_nil_iff, toList_selector hfirst]; exact List.cons_ne_nil _ _)
    (selector_unbroken hnames hfirst fun name hname c hc =>
      isBlank_of_isWordChar (hplain name hname c hc))
  have hfilter : ofCommand? line = some f := by
    rw [ofCommand?, hwords, hselector, List.getLast?_concat, Option.bind_some, hword]
  have hselects : Selects line m ↔ f.Found m.toList := by simp [Selects, hfilter]
  refine ⟨line, hline, hselects.trans ?_⟩
  constructor
  · rintro ⟨before, part, rest, hm, hpart⟩
    obtain ⟨name, hname, rfl⟩ := (hmatches part rest).1 hpart
    obtain ⟨test, htest, rfl⟩ := List.mem_map.1 hname
    exact ⟨test, htest, before, rest, by simp [hm]⟩
  · rintro ⟨test, htest, before, rest, hm⟩
    refine ⟨before, test.identifier.toList, rest, by simp [← hm], (hmatches _ _).2 ?_⟩
    exact ⟨test.identifier, List.mem_map_of_mem htest, rfl⟩

/-- **Theorem (names of a plan).** The command of a plan selects exactly the names that the command
of one of its examples selects, and those in which a line goes on behind the name of one of them. -/
theorem plan_selects_iff {tests : List PlannedTest} (hne : tests ≠ [])
    (h : ∀ test ∈ tests, IsNamed test) (m : String) :
    ∃ line, TestPlan.runCommand? tests = some line ∧
      (Selects line m ↔ (∃ test ∈ tests, Selects test.command m) ∨
        ∃ test ∈ tests, GoesOn test.identifier.toList m.toList) := by
  obtain ⟨line, hline, hselects⟩ := selects_runCommand?_iff hne h m
  refine ⟨line, hline, hselects.trans ?_⟩
  rw [← exists_or]
  refine exists_congr fun test => ?_
  rw [← and_or_left]
  refine and_congr_right fun htest => ?_
  rw [(h test htest).selects_iff, infix_iff_endsLine_or_goesOn]

/-- An example that its command selects by a plain pattern. -/
def savingTest : PlannedTest :=
  ⟨"TestA#test_save", "test_save", "test_save", "ruby a.rb --name /test_save$/"⟩

theorem savingTest_named : IsNamed savingTest :=
  ⟨by decide +kernel, "test_save", false, List.all_eq_true.1 (by decide +kernel), by decide +kernel⟩

/-- An example whose name goes on behind that of the other one, with its pattern in quotes. -/
def savingAllTest : PlannedTest :=
  ⟨"TestA#test_save_all", "test_save_all", "test_save_all", "ruby a.rb\t\"/test_save_all$/\""⟩

theorem savingAllTest_named : IsNamed savingAllTest :=
  ⟨by decide +kernel, "test_save_all", true, List.all_eq_true.1 (by decide +kernel),
    by decide +kernel⟩

/-- A third name that begins like that of the first example is selected together with them. -/
theorem saving_selected :
    (∀ test ∈ [savingTest, savingAllTest], IsNamed test) ∧
      ∃ line, TestPlan.runCommand? [savingTest, savingAllTest] = some line ∧
        Selects line "test_saves" := by
  have hnamed : ∀ test ∈ [savingTest, savingAllTest], IsNamed test := by
    simpa using ⟨savingTest_named, savingAllTest_named⟩
  have hgoesOn : GoesOn savingTest.identifier.toList "test_saves".toList :=
    ⟨[], 's', [], by decide +kernel, by decide⟩
  obtain ⟨line, hline, hselects⟩ := plan_selects_iff (List.cons_ne_nil _ _) hnamed "test_saves"
  exact ⟨hnamed, line, hline, hselects.2 (.inr ⟨savingTest, List.mem_cons_self, hgoesOn⟩)⟩

/-- Not every name that a plan selects is selected by one of its examples: a plan of one example
selects a name that goes on behind that of the example. -/
theorem not_always_selected_alone :
    ¬ ∀ tests : List PlannedTest, tests ≠ [] → (∀ test ∈ tests, IsNamed test) → ∀ m : String,
      ∃ line, TestPlan.runCommand? tests = some line ∧
        (Selects line m ↔ ∃ test ∈ tests, Selects test.command m) := by
  intro h
  have hnamed : ∀ test ∈ [savingTest], IsNamed test := by simpa using savingTest_named
  have hne : [savingTest] ≠ [] := List.cons_ne_nil _ _
  obtain ⟨line, hline, hsame⟩ := h [savingTest] hne hnamed "test_saves"
  obtain ⟨line', hline', hinfix⟩ := selects_runCommand?_iff hne hnamed "test_saves"
  obtain rfl : line = line' := Option.some.inj (hline.symm.trans hline')
  have hselected : Selects line "test_saves" :=
    hinfix.2 ⟨savingTest, List.mem_cons_self, by decide +kernel⟩
  have halone : Selects savingTest.command "test_saves" := by simpa using hsame.1 hselected
  have hends := ((savingTest_named.selects_iff _).1 halone).suffix (by decide +kernel)
  exact absurd hends (by decide +kernel)

end NameFilter

end RubySupervisor
