import Mathlib.Data.List.Nodup
import RubySupervisor.Proofs.Explorer.Scheduling

/-!
# Which failure an example is charged with

Failures take their examples one after the other. A failure with the very name of an example takes
this one unless, when its turn comes, an earlier failure has taken the example, or another one in
front of it ends the name as well.

Whatever was reported, every example has one result. The examples that are taken come first, in the
order of their failures; those that are left have passed, and stand in the order of the document.
-/

namespace RubySupervisor.TestRunReport

/-- The failures that take an example, each with what it takes. -/
def charges : List PlannedTest → List TestFailure → List (TestFailure × PlannedTest)
  | _, [] => []
  | tests, failure :: rest =>
    match take? failure tests with
    | none => charges tests rest
    | some (test, remaining) => (failure, test) :: charges remaining rest

/-- The examples that failures leave. -/
def leftAfter : List PlannedTest → List TestFailure → List PlannedTest
  | tests, [] => tests
  | tests, failure :: rest =>
    match take? failure tests with
    | none => leftAfter tests rest
    | some (_, remaining) => leftAfter remaining rest

/-- The result of an example that a failure took. -/
def failedResult (charge : TestFailure × PlannedTest) : TestResult :=
  ⟨charge.2.fullId, .failed charge.1.message⟩

/-- The result of an example that is left. -/
def passedResult (test : PlannedTest) : TestResult := ⟨test.fullId, .passed⟩

/-- A report says what every example is charged with, and that the others passed. -/
theorem resultsOf_eq (tests : List PlannedTest) (failures : List TestFailure) :
    resultsOf tests failures =
      (charges tests failures).map failedResult ++ (leftAfter tests failures).map passedResult := by
  induction failures generalizing tests with
  | nil => rfl
  | cons failure rest ih =>
    rw [resultsOf, charges, leftAfter]
    cases take? failure tests with
    | none => exact ih tests
    | some taken => exact congrArg (failedResult (failure, taken.1) :: ·) (ih taken.2)

theorem charges_append (tests : List PlannedTest) (before after : List TestFailure) :
    charges tests (before ++ after) =
      charges tests before ++ charges (leftAfter tests before) after := by
  induction before generalizing tests with
  | nil => rfl
  | cons failure before ih =>
    rw [List.cons_append, charges, charges, leftAfter]
    cases take? failure tests with
    | none => exact ih tests
    | some taken => exact congrArg ((failure, taken.1) :: ·) (ih taken.2)

/-- Every example is taken once or left. -/
theorem perm_charges_leftAfter (tests : List PlannedTest) (failures : List TestFailure) :
    ((charges tests failures).map Prod.snd ++ leftAfter tests failures).Perm tests := by
  induction failures generalizing tests with
  | nil => exact .refl _
  | cons failure rest ih =>
    rw [charges, leftAfter]
    cases htake : take? failure tests with
    | none => exact ih tests
    | some taken =>
      obtain ⟨front, back, rfl, hremaining, -, -⟩ :=
        (take?_eq_some_iff failure tests taken.1 taken.2).1 htake
      dsimp only
      refine ((ih taken.2).cons taken.1).trans ?_
      rw [hremaining]
      exact List.perm_middle.symm

/-- A report has one result for every example. -/
theorem perm_fullIds (tests : List PlannedTest) (failures : List TestFailure) :
    ((ofFailures tests failures).results.map TestResult.fullId).Perm
      (tests.map PlannedTest.fullId) := by
  have hsame : (ofFailures tests failures).results.map TestResult.fullId =
      ((charges tests failures).map Prod.snd ++ leftAfter tests failures).map
        PlannedTest.fullId := by
    simp [ofFailures, resultsOf_eq, Function.comp_def, failedResult, passedResult]
  rw [hsame]
  exact (perm_charges_leftAfter tests failures).map _

/-- A failure takes an example only if it is one of the failures and concerns the example. -/
theorem of_mem_charges {tests : List PlannedTest} {failures : List TestFailure}
    {charge : TestFailure × PlannedTest} (h : charge ∈ charges tests failures) :
    charge.1 ∈ failures ∧ concerns charge.1 charge.2 = true := by
  induction failures generalizing tests with
  | nil => cases h
  | cons failure rest ih =>
    rw [charges] at h
    cases htake : take? failure tests with
    | none =>
      rw [htake] at h
      exact (ih h).imp_left (.tail _)
    | some taken =>
      rw [htake] at h
      rcases List.mem_cons.1 h with rfl | h
      · obtain ⟨front, back, -, -, hconcerns, -⟩ :=
          (take?_eq_some_iff failure tests taken.1 taken.2).1 htake
        exact ⟨.head _, hconcerns⟩
      · exact (ih h).imp_left (.tail _)

/-- A failure goes astray from an example: when its turn comes, an earlier failure has taken the
example, or another one in front of it ends the name of the failure. -/
inductive Astray (tests : List PlannedTest) (failures : List TestFailure) (failure : TestFailure)
    (test : PlannedTest) : Prop where
  | taken {before after : List TestFailure} {earlier : TestFailure}
      (hsplit : failures = before ++ failure :: after) (h : (earlier, test) ∈ charges tests before)
  | diverted {before after : List TestFailure} {front back : List PlannedTest} {other : PlannedTest}
      (hsplit : failures = before ++ failure :: after)
      (hleft : leftAfter tests before = front ++ test :: back) (hother : other ∈ front)
      (h : concerns failure other = true)

/-- A report has one result for an example, and it is this one. -/
def Reports (r : TestRunReport) (fullId : String) (outcome : TestOutcome) : Prop :=
  r.results.filter (·.fullId = fullId) = [⟨fullId, outcome⟩]

instance (r : TestRunReport) (fullId : String) (outcome : TestOutcome) :
    Decidable (Reports r fullId outcome) :=
  inferInstanceAs (Decidable (_ = _))

section Distinct

variable {tests : List PlannedTest} {failures : List TestFailure} {failure : TestFailure}
  {test : PlannedTest}

/-- An example with its own identity is left only if no failure took it. -/
theorem not_mem_leftAfter (hids : (tests.map PlannedTest.fullId).Nodup) {earlier : TestFailure}
    (h : (earlier, test) ∈ charges tests failures) : test ∉ leftAfter tests failures := by
  have hnodup := ((perm_charges_leftAfter tests failures).nodup_iff).2 hids.of_map
  exact fun hleft => (List.nodup_append.1 hnodup).2.2 test (List.mem_map_of_mem h) test hleft rfl

/-- What a failure takes is decided when its turn comes. -/
theorem mem_charges_iff {before after : List TestFailure} (hbefore : failure ∉ before)
    (hafter : failure ∉ after) :
    (failure, test) ∈ charges tests (before ++ failure :: after) ↔
      ∃ front back, leftAfter tests before = front ++ test :: back ∧
        concerns failure test = true ∧ ∀ other ∈ front, concerns failure other = false := by
  have htaken : (∃ front back, leftAfter tests before = front ++ test :: back ∧
      concerns failure test = true ∧ ∀ other ∈ front, concerns failure other = false) ↔
        ∃ remaining, take? failure (leftAfter tests before) = some (test, remaining) := by
    simp only [take?_eq_some_iff]
    constructor
    · rintro ⟨front, back, hleft, hconcerns, hnone⟩
      exact ⟨_, front, back, hleft, rfl, hconcerns, hnone⟩
    · rintro ⟨_, front, back, hleft, -, hconcerns, hnone⟩
      exact ⟨front, back, hleft, hconcerns, hnone⟩
  have hearlier : (failure, test) ∉ charges tests before := fun h => hbefore (of_mem_charges h).1
  have hlater (left : List PlannedTest) : (failure, test) ∉ charges left after :=
    fun h => hafter (of_mem_charges h).1
  rw [htaken, charges_append, List.mem_append, or_iff_right hearlier, charges]
  cases take? failure (leftAfter tests before) with
  | none => simp [hlater]
  | some taken => simp [hlater, Prod.ext_iff, eq_comm]

/-- A failure takes the example of its name exactly if it does not go astray. -/
theorem mem_charges_iff_not_astray (hids : (tests.map PlannedTest.fullId).Nodup)
    (hnames : (failures.map TestFailure.testId).Nodup) (hfailure : failure ∈ failures)
    (htest : test ∈ tests) (hown : concerns failure test = true) :
    (failure, test) ∈ charges tests failures ↔ ¬ Astray tests failures failure test := by
  -- the turn of the failure: what the earlier ones took is gone, and the others are in order
  obtain ⟨before, after, rfl⟩ := List.append_of_mem hfailure
  have hnodup := hnames.of_map
  have hbefore : failure ∉ before := fun h =>
    (List.nodup_append.1 hnodup).2.2 failure h failure (.head _) rfl
  have hafter : failure ∉ after :=
    (List.nodup_cons.1 (List.nodup_append.1 hnodup).2.1).1
  have hsame {before' after' : List TestFailure}
      (hsplit : before ++ failure :: after = before' ++ failure :: after') : before = before' :=
    ((List.append_cons_inj_of_notMem hbefore hafter).1 hsplit).1
  rw [mem_charges_iff hbefore hafter]
  constructor
  · rintro ⟨front, back, hleft, -, hnone⟩ hastray
    -- what is left of distinct examples is distinct, so that it is split at the example in one way
    have hleftNodup : (front ++ test :: back).Nodup := by
      have hall := (perm_charges_leftAfter tests before).nodup_iff.2 hids.of_map
      exact hleft ▸ (List.nodup_append.1 hall).2.1
    cases hastray with
    | taken hsplit h =>
      obtain rfl := hsame hsplit
      exact not_mem_leftAfter hids h (by simp [hleft])
    | @diverted _ _ front' back' other hsplit hleft' hother h =>
      obtain rfl := hsame hsplit
      have hfront : test ∉ front := fun hmem =>
        (List.nodup_append.1 hleftNodup).2.2 test hmem test (.head _) rfl
      have hback : test ∉ back := (List.nodup_cons.1 (List.nodup_append.1 hleftNodup).2.1).1
      obtain ⟨rfl, -⟩ :=
        (List.append_cons_inj_of_notMem hfront hback).1 (hleft.symm.trans hleft')
      rw [hnone other hother] at h
      cases h
  · intro hastray
    have hmem := (perm_charges_leftAfter tests before).mem_iff.2 htest
    have hleft : test ∈ leftAfter tests before := by
      rcases List.mem_append.1 hmem with htaken | hleft
      · obtain ⟨⟨earlier, _⟩, hcharge, rfl⟩ := List.mem_map.1 htaken
        exact absurd (.taken rfl hcharge) hastray
      · exact hleft
    obtain ⟨front, back, hsplit⟩ := List.append_of_mem hleft
    refine ⟨front, back, hsplit, hown, fun other hother => ?_⟩
    exact Bool.eq_false_iff.2 fun h => hastray (.diverted rfl hsplit hother h)

/-- A failure does not go astray where it concerns no other example and nothing else concerns its
own. -/
theorem not_astray_of_apart (hids : (tests.map PlannedTest.fullId).Nodup)
    (hnames : (failures.map TestFailure.testId).Nodup)
    (htests : ∀ other ∈ tests, concerns failure other = true → other = test)
    (hfailures : ∀ other ∈ failures, concerns other test = true → other = failure) :
    ¬ Astray tests failures failure test := by
  intro hastray
  cases hastray with
  | @taken before after earlier hsplit h =>
    obtain ⟨hearlier, hconcerns⟩ := of_mem_charges h
    obtain rfl : earlier = failure :=
      hfailures earlier (hsplit ▸ List.mem_append_left _ hearlier) hconcerns
    exact (List.nodup_append.1 (hsplit ▸ hnames.of_map)).2.2 earlier hearlier earlier (.head _) rfl
  | @diverted before after front back other hsplit hleft hother h =>
    have hall := perm_charges_leftAfter tests before
    have hmem : other ∈ tests := hall.mem_iff.1 (by simp [hleft, hother])
    obtain rfl := htests other hmem h
    have hnodup := (List.nodup_append.1 (hall.nodup_iff.2 hids.of_map)).2.1
    rw [hleft] at hnodup
    exact (List.nodup_append.1 hnodup).2.2 other hother other (.head _) rfl

/-- Examples with identities of their own have one result each. -/
theorem nodup_results (hids : (tests.map PlannedTest.fullId).Nodup) (failures : List TestFailure) :
    ((ofFailures tests failures).results.map TestResult.fullId).Nodup :=
  (perm_fullIds tests failures).nodup_iff.2 hids

/-- A result is the only one of its example. -/
theorem reports_iff (hids : (tests.map PlannedTest.fullId).Nodup) {fullId : String}
    {outcome : TestOutcome} :
    Reports (ofFailures tests failures) fullId outcome ↔
      ⟨fullId, outcome⟩ ∈ (ofFailures tests failures).results := by
  constructor
  · intro h
    exact List.mem_of_mem_filter (h ▸ List.mem_singleton_self _)
  · intro h
    exact filter_key_eq_singleton (nodup_results hids failures) h

/-- **Theorem (charges).** Among examples with identities of their own and failures with names of
their own, a failure with the name of an example fails this example, with its message, unless it
goes astray. If it does, and its message is that of no other failure, then the example is reported
in another way. -/
theorem charged_unless_astray (hids : (tests.map PlannedTest.fullId).Nodup)
    (hnames : (failures.map TestFailure.testId).Nodup) (hfailure : failure ∈ failures)
    (htest : test ∈ tests) (hown : failure.testId = test.fullId) :
    (¬ Astray tests failures failure test →
      Reports (ofFailures tests failures) test.fullId (.failed failure.message)) ∧
    (Astray tests failures failure test →
      (∀ other ∈ failures, other.message = failure.message → other = failure) →
      ¬ Reports (ofFailures tests failures) test.fullId (.failed failure.message)) := by
  have hconcerns : concerns failure test = true := by
    rw [concerns, hown]
    exact Text.endsWith_iff.2 List.suffix_rfl
  have hcharged := mem_charges_iff_not_astray hids hnames hfailure htest hconcerns
  rw [reports_iff hids, ofFailures, resultsOf_eq]
  constructor
  · intro hastray
    exact List.mem_append_left _ (List.mem_map.2 ⟨_, hcharged.2 hastray, rfl⟩)
  -- the message is that of no other failure, and no two examples share an identity
  · intro hastray hmessages h
    rcases List.mem_append.1 h with h | h
    · obtain ⟨⟨other, taken⟩, hcharge, hresult⟩ := List.mem_map.1 h
      obtain ⟨hid, houtcome⟩ := TestResult.mk.inj hresult
      obtain rfl := hmessages other (of_mem_charges hcharge).1 (TestOutcome.failed.inj houtcome)
      have hmem : taken ∈ tests := (perm_charges_leftAfter tests failures).mem_iff.1
        (List.mem_append_left _ (List.mem_map_of_mem hcharge))
      obtain rfl : taken = test := List.inj_on_of_nodup_map hids hmem htest hid
      exact hcharged.1 hcharge hastray
    · obtain ⟨passed, -, hresult⟩ := List.mem_map.1 h
      cases congrArg TestResult.outcome hresult

end Distinct

/-- An example of a group. -/
def exampleOf (group : String) : PlannedTest :=
  ⟨group ++ "#test_valid", "test_valid", "test_valid", "ruby a.rb --name /test_valid$/"⟩

/-- A failure of this example. -/
def failureOf (group : String) : TestFailure :=
  ⟨group ++ "#test_valid", group ++ "#test_valid [a.rb:3]:"⟩

/-- Groups whose names do not end each other are told apart. -/
theorem charged_apart :
    Reports (ofFailures [exampleOf "UserTest", exampleOf "AdminTest"]
        [failureOf "AdminTest", failureOf "UserTest"])
      "UserTest#test_valid" (.failed "UserTest#test_valid [a.rb:3]:") := by
  have hids : ([exampleOf "UserTest", exampleOf "AdminTest"].map PlannedTest.fullId).Nodup := by
    decide
  have hnames : ([failureOf "AdminTest", failureOf "UserTest"].map TestFailure.testId).Nodup := by
    decide
  have hastray : ¬ Astray [exampleOf "UserTest", exampleOf "AdminTest"]
      [failureOf "AdminTest", failureOf "UserTest"] (failureOf "UserTest")
      (exampleOf "UserTest") :=
    not_astray_of_apart hids hnames (by decide +kernel) (by decide +kernel)
  exact (charged_unless_astray hids hnames (.tail _ (.head _)) (.head _) rfl).1 hastray

/-- A failure in a namespace is charged to the example outside of it that comes first. -/
theorem not_always_charged :
    ¬ ∀ (tests : List PlannedTest) (failures : List TestFailure) (failure : TestFailure)
      (test : PlannedTest), (tests.map PlannedTest.fullId).Nodup →
      (failures.map TestFailure.testId).Nodup → failure ∈ failures → test ∈ tests →
      failure.testId = test.fullId →
      Reports (ofFailures tests failures) test.fullId (.failed failure.message) := by
  intro h
  have hreports := h [exampleOf "UserTest", exampleOf "Admin::UserTest"]
    [failureOf "Admin::UserTest"] (failureOf "Admin::UserTest") (exampleOf "Admin::UserTest")
    (by decide) (by decide) (.head _) (.tail _ (.head _)) rfl
  exact absurd hreports (by decide +kernel)

/-! ## Every example is accounted for -/

/-- Every failure in its turn, with the example that it takes if one is left for it. -/
def takings : List PlannedTest → List TestFailure → List (TestFailure × Option PlannedTest)
  | _, [] => []
  | tests, failure :: rest =>
    match take? failure tests with
    | none => (failure, none) :: takings tests rest
    | some (test, remaining) => (failure, some test) :: takings remaining rest

/-- What a failure is charged to, if it takes anything. -/
def charge? (taking : TestFailure × Option PlannedTest) : Option (TestFailure × PlannedTest) :=
  taking.2.map (taking.1, ·)

theorem filterMap_takings (tests : List PlannedTest) (failures : List TestFailure) :
    (takings tests failures).filterMap charge? = charges tests failures := by
  induction failures generalizing tests with
  | nil => rfl
  | cons failure rest ih =>
    rw [takings, charges]
    cases take? failure tests with
    | none => exact ih tests
    | some taken => exact congrArg ((failure, taken.1) :: ·) (ih taken.2)

theorem map_fst_takings (tests : List PlannedTest) (failures : List TestFailure) :
    (takings tests failures).map Prod.fst = failures := by
  induction failures generalizing tests with
  | nil => rfl
  | cons failure rest ih =>
    rw [takings]
    cases take? failure tests with
    | none => exact congrArg (failure :: ·) (ih tests)
    | some taken => exact congrArg (failure :: ·) (ih taken.2)

/-- What is left stands in its old order. -/
theorem leftAfter_sublist (tests : List PlannedTest) (failures : List TestFailure) :
    (leftAfter tests failures).Sublist tests := by
  induction failures generalizing tests with
  | nil => exact .refl tests
  | cons failure rest ih =>
    rw [leftAfter]
    cases htake : take? failure tests with
    | none => exact ih tests
    | some taken =>
      obtain ⟨front, back, rfl, hremaining, -, -⟩ :=
        (take?_eq_some_iff failure tests taken.1 taken.2).1 htake
      refine (ih taken.2).trans ?_
      rw [hremaining]
      exact (List.sublist_cons_self taken.1 back).append_left front

/-- A failure that takes nothing concerns no example that is left in the end. -/
theorem not_concerns_of_mem_takings {tests : List PlannedTest} {failures : List TestFailure}
    {failure : TestFailure} (h : (failure, none) ∈ takings tests failures) :
    ∀ test ∈ leftAfter tests failures, concerns failure test = false := by
  induction failures generalizing tests with
  | nil => cases h
  | cons first rest ih =>
    rw [takings] at h
    rw [leftAfter]
    cases htake : take? first tests with
    | none =>
      rw [htake] at h
      rcases List.mem_cons.1 h with hfirst | hrest
      · obtain rfl := (Prod.mk.inj hfirst).1
        have hnone := (take?_eq_none_iff failure tests).1 htake
        exact fun test htest => hnone test ((leftAfter_sublist tests rest).subset htest)
      · exact ih hrest
    | some taken =>
      rw [htake] at h
      rcases List.mem_cons.1 h with hfirst | hrest
      · cases hfirst
      · exact ih hrest

/-- A report accounts for its examples: it has one result for each of them, first for those that a
failure takes and then for those that are left, which have passed. -/
structure Accounts (tests : List PlannedTest) (failures : List TestFailure) (r : TestRunReport)
    (takings : List (TestFailure × Option PlannedTest)) (left : List PlannedTest) : Prop where
  /-- No example is lost, and none has a second result. -/
  ids : (r.results.map TestResult.fullId).Perm (tests.map PlannedTest.fullId)
  /-- Every failure, in its order, takes one example or none. -/
  turns : takings.map Prod.fst = failures
  /-- The failed examples come first, in the order of their failures. -/
  results : r.results = (takings.filterMap charge?).map failedResult ++ left.map passedResult
  /-- Every example is taken once or left. -/
  perm : (takings.filterMap Prod.snd ++ left).Perm tests
  /-- What is left stands in the order of the document. -/
  order : left.Sublist tests
  /-- What a failure takes ends its name. -/
  suffix : ∀ taking ∈ takings, ∀ test ∈ taking.2, test.fullId.toList <:+ taking.1.testId.toList
  /-- Nothing that is left ends the name of a failure that takes nothing. -/
  unmatched : ∀ taking ∈ takings, taking.2 = none →
    ∀ test ∈ left, ¬ test.fullId.toList <:+ taking.1.testId.toList

/-- **Theorem (complete reports).** Every report accounts for its examples, whatever they are and
whichever failures were reported. -/
theorem accounts_for_every_example (tests : List PlannedTest) (failures : List TestFailure) :
    ∃ takings left, Accounts tests failures (ofFailures tests failures) takings left := by
  have hcharges := filterMap_takings tests failures
  have htaken : (takings tests failures).filterMap Prod.snd =
      (charges tests failures).map Prod.snd := by
    rw [← hcharges, List.map_filterMap]
    refine List.filterMap_congr fun taking _ => ?_
    cases hexample : taking.2 <;> simp [charge?, hexample]
  refine ⟨takings tests failures, leftAfter tests failures,
    { ids := perm_fullIds tests failures
      turns := map_fst_takings tests failures
      results := ?_
      perm := htaken ▸ perm_charges_leftAfter tests failures
      order := leftAfter_sublist tests failures
      suffix := ?_
      unmatched := ?_ }⟩
  · rw [hcharges]
    exact resultsOf_eq tests failures
  · rintro ⟨failure, example?⟩ htaking test hexample
    have hcharge : (failure, test) ∈ charges tests failures := by
      rw [← hcharges]
      exact List.mem_filterMap.2 ⟨_, htaking, by simpa [charge?] using hexample⟩
    exact Text.endsWith_iff.1 (of_mem_charges hcharge).2
  · rintro ⟨failure, example?⟩ htaking rfl test htest hsuffix
    have hapart := not_concerns_of_mem_takings htaking test htest
    rw [concerns, Text.endsWith_iff.2 hsuffix] at hapart
    cases hapart

end RubySupervisor.TestRunReport
