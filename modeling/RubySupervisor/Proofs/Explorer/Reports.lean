import RubySupervisor.Explorer.Report
import RubySupervisor.Proofs.Files.Naming
import RubySupervisor.Proofs.Text.Cutting

/-!
# Printed reports are read back

A test runner prints a report for each failure. One that stands below its mark has the identity of
the example and its place on the next line; one beside its mark has the name of the example and its
class on the same line. Any lines follow, the last of them up to the next mark. Reading the output
gives the failures that were printed, in their order.
-/

namespace RubySupervisor.TestFailure

/-- A line of a report. The carriage returns before a line feed belong to the end of the line, which
may have one of them, none or more. -/
structure ReportLine where
  text : List Char
  returns : Nat
  feed_not_mem : '\n' ∉ text
  getLast?_ne : text.getLast? ≠ some '\r'

/-- The line as it is printed, without its line feed. -/
def ReportLine.chars (line : ReportLine) : List Char :=
  line.text ++ List.replicate line.returns '\r'

/-- What is printed below a mark: the identity of an example, and its place in brackets. -/
structure Located where
  id : List Char
  place : List Char
  feed_not_mem_id : '\n' ∉ id
  feed_not_mem_place : '\n' ∉ place
  bracket_not_infix : ¬ [' ', '['] <:+: place

/-- What is printed beside a mark: the name of an example, and its class in parentheses. -/
structure Titled where
  name : List Char
  className : List Char
  feed_not_mem_name : '\n' ∉ name
  feed_not_mem_className : '\n' ∉ className
  isBlank_head : ∀ c ∈ name.head?, Text.isBlank c = false
  paren_not_mem : '(' ∉ className

/-- The line of a place. -/
def Located.line (title : Located) (returns : Nat) : ReportLine where
  text := title.id ++ ' ' :: '[' :: (title.place ++ [']', ':'])
  returns := returns
  feed_not_mem := by simp [title.feed_not_mem_id, title.feed_not_mem_place]
  getLast?_ne := by simp [List.getLast?_cons]

/-- The name of an example and its class. -/
def Titled.heading (title : Titled) : List Char :=
  title.name ++ '(' :: (title.className ++ [')', ':'])

/-- The line of a mark with a name beside it. -/
def Titled.line (title : Titled) (returns : Nat) : ReportLine where
  text := ' ' :: title.heading
  returns := returns
  feed_not_mem := by
    simp [Titled.heading, title.feed_not_mem_name, title.feed_not_mem_className]
  getLast?_ne := by simp [Titled.heading, List.getLast?_cons]

/-- A report of one failure. -/
inductive Printed where
  | below (markReturns : Nat) (title : Located) (returns : Nat) (rest : List ReportLine)
  | beside (title : Titled) (returns : Nat) (rest : List ReportLine)

namespace Printed

/-- The lines of a report, the first of them behind the mark. The last one is empty in a report that
ends with the end of a line. -/
def lines : Printed → List ReportLine
  | below markReturns title returns rest =>
    ⟨[], markReturns, List.not_mem_nil, by simp⟩ :: title.line returns :: rest
  | beside title returns rest => title.line returns :: rest

/-- A report behind its mark. -/
def body (report : Printed) : List Char := ['\n'].intercalate (report.lines.map (·.chars))

def chars (report : Printed) : List Char := mark ++ report.body

/-- The failure that a report is about: its identity, or its class and its name; with up to three
lines of what stands below the mark, or with what stands beside it. -/
def failure : Printed → TestFailure
  | below _ title returns rest =>
    ⟨String.ofList title.id,
      String.intercalate "\n" (((title.line returns :: rest).take 3).map (String.ofList ·.text))⟩
  | beside title _ _ =>
    ⟨String.ofList title.className ++ "#" ++ String.ofList title.name,
      String.ofList title.heading⟩

end Printed

/-! ## One report -/

theorem ReportLine.dropReturns_chars (line : ReportLine) : dropReturns line.chars = line.text := by
  have hreturns : ∀ c ∈ List.replicate line.returns '\r', (c == '\r') = true := by simp
  have hlast : line.text.reverse.dropWhile (· == '\r') = line.text.reverse := by
    have hne := line.getLast?_ne
    rw [← List.head?_reverse] at hne
    cases hreverse : line.text.reverse with
    | nil => rfl
    | cons c front =>
      have hc : c ≠ '\r' := by simpa [hreverse] using hne
      simp [hc]
  rw [dropReturns, ReportLine.chars, List.reverse_append, List.reverse_replicate,
    List.dropWhile_append_of_pos hreturns, hlast, List.reverse_reverse]

theorem ReportLine.feed_not_mem_chars (line : ReportLine) : '\n' ∉ line.chars := by
  simp [ReportLine.chars, line.feed_not_mem]

/-- The lines of a report are read back. -/
theorem Printed.pieceLines_body (report : Printed) :
    pieceLines report.body = report.lines.map (·.text) := by
  have hne : report.lines.map (·.chars) ≠ [] := by cases report <;> simp [Printed.lines]
  have hfeeds : ∀ line ∈ report.lines.map (·.chars), ∀ c ∈ line, (c == '\n') = false := by
    intro line hline c hc
    obtain ⟨printed, -, rfl⟩ := List.mem_map.1 hline
    exact beq_false_of_ne fun hfeed => printed.feed_not_mem_chars (hfeed ▸ hc)
  have hlines := Text.splitChars_intercalate (p := (· == '\n')) (c := '\n') rfl hne hfeeds
  rw [pieceLines, Printed.body, hlines, List.map_map]
  exact List.map_congr_left fun line _ => line.dropReturns_chars

/-- No place begins again behind the beginning of a place. -/
theorem Located.bracket_not_infix_rest (title : Located) :
    ¬ [' ', '['] <:+: ['['] ++ (title.place ++ [']', ':']) := by
  rw [List.singleton_append, List.infix_cons_iff, List.cons_prefix_cons, List.append_cons]
  rintro (⟨hhere, -⟩ | hlater)
  · exact absurd hhere (by decide)
  · have hplace := Text.infix_of_infix_concat (t := [' ']) (by decide) hlater
    exact title.bracket_not_infix (Text.infix_of_infix_concat (t := [' ']) (by decide) hplace)

/-- The failure below a mark is read back. -/
theorem ofFollowingLines?_line (title : Located) (returns : Nat) (rest : List ReportLine) :
    ofFollowingLines? ((title.line returns :: rest).map (·.text)) =
      some ⟨String.ofList title.id, String.intercalate "\n"
        (((title.line returns :: rest).take 3).map (String.ofList ·.text))⟩ := by
  have hcut : Text.cutLast? [' ', '['] (title.line returns).text =
      some (title.id, title.place ++ [']', ':']) :=
    Text.cutLast?_append_mark title.bracket_not_infix_rest title.id
  rw [ofFollowingLines?, ← List.map_take, List.take_succ_cons, List.map_cons,
    List.findSome?_cons, hcut]
  simp [Function.comp_def]

/-- Trimming leaves the name and the class of a line. -/
theorem Titled.trimChars_line (title : Titled) (returns : Nat) :
    Text.trimChars (title.line returns).text = title.heading := by
  have hhead : ∀ c ∈ title.heading.head?, Text.isBlank c = false := by
    have hname := title.isBlank_head
    rw [Titled.heading]
    cases hfirst : title.name with
    | nil => simp [show Text.isBlank '(' = false by decide]
    | cons first others => simpa [hfirst] using hname
  have hstart : Text.trimStart (title.line returns).text = title.heading := by
    rw [← Text.trimStart_of_head? hhead]
    rfl
  have hcolon : Text.isBlank ':' = false := by decide
  rw [Text.trimChars, hstart]
  simp [Text.trimEnd, Titled.heading, hcolon]

/-- The failure beside a mark is read back. -/
theorem ofSameLine?_line (title : Titled) (returns : Nat) :
    ofSameLine? (title.line returns).text =
      some ⟨String.ofList title.className ++ "#" ++ String.ofList title.name,
        String.ofList title.heading⟩ := by
  have hclass : Text.cutLast? [')', ':'] title.heading =
      some (title.name ++ '(' :: title.className, []) := by
    have hend : ¬ [')', ':'] <:+: [':'] ++ [] := by decide
    have hcut := Text.cutLast?_append_mark hend (title.name ++ '(' :: title.className)
    rwa [List.append_assoc] at hcut
  have hname : Text.cutLast? ['('] (title.name ++ '(' :: title.className) =
      some (title.name, title.className) := by
    have hparen : ¬ ['('] <:+: [] ++ title.className := by
      simpa [List.singleton_infix_iff] using title.paren_not_mem
    exact Text.cutLast?_append_mark hparen title.name
  rw [ofSameLine?, title.trimChars_line]
  simp [hclass, hname]

/-- The failure of a report is read back. -/
theorem ofPiece?_body (report : Printed) : ofPiece? report.body = some report.failure := by
  rw [ofPiece?, report.pieceLines_body]
  cases report with
  | below markReturns title returns rest => exact ofFollowingLines?_line title returns rest
  | beside title returns rest => exact ofSameLine?_line title returns

/-! ## All reports -/

variable {before : List Char}

theorem cutFirst?_mark (hbefore : ¬ mark <:+: before) (after : List Char) :
    Text.cutFirst? mark (before ++ (mark ++ after)) = some (before, after) := by
  have honce : 'F' ∉ "ailure:".toList := by decide
  exact Text.cutFirst?_append_mark honce hbefore after

/-- A piece ends where the next mark begins. -/
theorem piece_eq {body : List Char} (hbody : ¬ mark <:+: body) (bodies : List (List Char)) :
    (match Text.cutFirst? mark (body ++ bodies.flatMap (mark ++ ·)) with
      | some (piece, _) => piece
      | none => body ++ bodies.flatMap (mark ++ ·)) = body := by
  cases bodies with
  | nil =>
    have hnone := (Text.cutFirst?_eq_none_iff (by decide)).2 hbody
    simp [hnone]
  | cons next bodies =>
    rw [List.flatMap_cons, List.append_assoc, cutFirst?_mark hbody]

/-- An output is cut into what stands behind its marks. -/
theorem piecesAfterMark_append {bodies : List (List Char)} (hbefore : ¬ mark <:+: before)
    (hbodies : ∀ body ∈ bodies, ¬ mark <:+: body) {fuel : Nat} (hfuel : bodies.length < fuel) :
    piecesAfterMark fuel (before ++ bodies.flatMap (mark ++ ·)) = bodies := by
  induction bodies generalizing before fuel with
  | nil =>
    obtain ⟨fuel, rfl⟩ := Nat.exists_eq_add_one_of_ne_zero (Nat.ne_of_gt hfuel)
    have hnone := (Text.cutFirst?_eq_none_iff (by decide)).2 hbefore
    simp [piecesAfterMark, hnone]
  | cons body bodies ih =>
    have hpos := Nat.zero_lt_of_lt hfuel
    obtain ⟨fuel, rfl⟩ := Nat.exists_eq_add_one_of_ne_zero (Nat.ne_of_gt hpos)
    have hbody := hbodies body List.mem_cons_self
    -- What stands before the next mark is the piece that has just been cut off.
    have hrest := ih hbody (fun other hother => hbodies other (List.mem_cons_of_mem body hother))
      (Nat.lt_of_succ_lt_succ hfuel)
    rw [List.flatMap_cons, List.append_assoc, piecesAfterMark, cutFirst?_mark hbefore]
    simp only [hrest]
    exact congrArg (· :: bodies) (piece_eq hbody bodies)

theorem length_le_length_flatMap (bodies : List (List Char)) :
    bodies.length ≤ (bodies.flatMap (mark ++ ·)).length := by
  induction bodies with
  | nil => exact Nat.le_refl 0
  | cons body bodies ih =>
    have hmark : mark.length = 8 := by decide
    rw [List.flatMap_cons, List.length_append, List.length_append, List.length_cons, hmark]
    omega

/-- **Theorem (reports read back).** The failures in the output of a test runner are those that it
has printed reports of, in their order. -/
theorem inOutput_reports {reports : List Printed} (hbefore : ¬ mark <:+: before)
    (hreports : ∀ report ∈ reports, ¬ mark <:+: report.body) :
    inOutput (String.ofList (before ++ reports.flatMap (·.chars))) =
      reports.map (·.failure) := by
  have hchars : reports.flatMap (·.chars) = (reports.map (·.body)).flatMap (mark ++ ·) := by
    rw [List.flatMap_map]
    rfl
  have hbodies : ∀ body ∈ reports.map (·.body), ¬ mark <:+: body :=
    List.forall_mem_map.2 hreports
  have hlength := length_le_length_flatMap (reports.map (·.body))
  have hfuel : (reports.map (·.body)).length <
      (before ++ (reports.map (·.body)).flatMap (mark ++ ·)).length + 1 := by
    rw [List.length_append]
    omega
  rw [inOutput, String.toList_ofList, hchars]
  simp only [piecesAfterMark_append hbefore hbodies hfuel, List.filterMap_map]
  rw [← List.filterMap_eq_map]
  exact List.filterMap_congr fun report _ => ofPiece?_body report

/-- A report below a mark, with carriage returns, and one beside a mark, whose name has parentheses
and a colon, too. -/
def sampleReports : List Printed :=
  [.below 1
    ⟨"UserTest#test_admin[1]".toList, "/app/[test]/user_test.rb:7".toList,
      by decide, by decide, by decide⟩ 1
    [⟨"Expected false to be truthy.".toList, 1, by decide, by decide⟩,
      ⟨"in the office".toList, 0, by decide, by decide⟩,
      ⟨"  2) ".toList, 0, by decide, by decide⟩],
  .beside
    ⟨"test_age(of: 1): kept".toList, "UserTest".toList,
      by decide, by decide, by rintro c ⟨⟩; decide, by decide⟩ 0
    [⟨"  <1> expected".toList, 0, by decide, by decide⟩, ⟨[], 0, by decide, by decide⟩]]

/-- What is printed before the first of them. -/
def sampleBefore : List Char := "Failures:\r\n  1) ".toList

def sampleOutput : String :=
  "Failures:\r\n  1) Failure:\r\nUserTest#test_admin[1] [/app/[test]/user_test.rb:7]:\r\n" ++
    "Expected false to be truthy.\r\nin the office\n  2) " ++
    "Failure: test_age(of: 1): kept(UserTest):\n  <1> expected\n"

/-- Both reports are in the output, and their failures are read back from it. -/
theorem sample_read_back :
    sampleOutput = String.ofList (sampleBefore ++ sampleReports.flatMap (·.chars)) ∧
      inOutput sampleOutput =
        [⟨"UserTest#test_admin[1]", "UserTest#test_admin[1] [/app/[test]/user_test.rb:7]:\n" ++
            "Expected false to be truthy.\nin the office"⟩,
          ⟨"UserTest#test_age(of: 1): kept", "test_age(of: 1): kept(UserTest):"⟩] := by
  have houtput : sampleOutput =
      String.ofList (sampleBefore ++ sampleReports.flatMap (·.chars)) := by decide +kernel
  have hbefore : ¬ mark <:+: sampleBefore := by decide +kernel
  have hreports : ∀ report ∈ sampleReports, ¬ mark <:+: report.body := by decide +kernel
  have hread := inOutput_reports hbefore hreports
  rw [← houtput] at hread
  exact ⟨houtput, hread.trans (by decide +kernel)⟩

end RubySupervisor.TestFailure
