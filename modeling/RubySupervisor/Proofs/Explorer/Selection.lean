import RubySupervisor.Proofs.Explorer.Verdicts

/-!
# Which test a lens runs

A test lens is run by the name that it shows: the tests are searched in the order of the document for
an identity made of the name, and whatever is found first is run. A lens runs its own example unless
something else of that name is found.
-/

open RubySupervisor.Task

namespace RubySupervisor

namespace TestNode

/-- The examples in front of everything else. -/
def leading (items : List TestItem) : List TestItem := items.takeWhile (·.kind = .example)

/-- The first item of a document with an identity. A group comes with the examples that follow it. -/
def locate? (id : String) : List TestItem → Option TestNode
  | [] => none
  | item :: rest =>
    if item.id = id then
      some ⟨item, match item.kind with
        | .example => []
        | .group => leading rest⟩
    else locate? id rest

/-- What is found has the identity that was looked for. -/
theorem item_id_of_locate? {id : String} {items : List TestItem} {node : TestNode}
    (h : locate? id items = some node) : node.item.id = id := by
  induction items with
  | nil => cases h
  | cons first rest ih =>
    rw [locate?] at h
    split at h
    · next hid =>
      obtain rfl := Option.some.inj h
      exact hid
    · exact ih h

/-- Something is found under the identity of each item. -/
theorem locate?_isSome {items : List TestItem} {item : TestItem} (h : item ∈ items) :
    (locate? item.id items).isSome = true := by
  induction items with
  | nil => cases h
  | cons first rest ih =>
    rw [locate?]
    split
    · rfl
    · next hid =>
      obtain rfl | hrest := List.mem_cons.1 h
      · exact absurd rfl hid
      · exact ih hrest

theorem mem_of_locate? {id : String} {items : List TestItem} {node : TestNode}
    (h : locate? id items = some node) : node.item ∈ items := by
  induction items with
  | nil => cases h
  | cons first rest ih =>
    rw [locate?] at h
    split at h
    · obtain rfl := Option.some.inj h
      exact .head _
    · exact .tail _ (ih h)

/-- The examples among an item and those under it. -/
def tests (node : TestNode) : List TestItem := node.items.filter (·.kind = .example)

/-- An example that is found comes alone. -/
theorem tests_of_locate? {id : String} {items : List TestItem} {node : TestNode}
    (h : locate? id items = some node) (hkind : node.item.kind = .example) :
    node.tests = [node.item] := by
  induction items with
  | nil => cases h
  | cons first rest ih =>
    rw [locate?] at h
    split at h
    · obtain rfl := Option.some.inj h
      have hkind : first.kind = .example := hkind
      simp [tests, TestNode.items, hkind]
    · exact ih h

/-- No item outside the groups has examples under it. -/
def Bare (nodes : List TestNode) : Prop := ∀ node ∈ nodes, node.isGroup = false → node.examples = []

theorem bare_ofItems (items : List TestItem) : Bare (ofItems items) := by
  induction items with
  | nil => simp [Bare, ofItems]
  | cons first rest ih =>
    change Bare (place first (ofItems rest))
    cases hkind : first.kind with
    | «example» =>
      rw [place, hkind]
      exact List.forall_mem_cons.2 ⟨fun _ => rfl, ih⟩
    | group =>
      rw [place, hkind]
      refine List.forall_mem_cons.2 ⟨fun hgroup => ?_, fun node hnode => ?_⟩
      · simp [isGroup, hkind] at hgroup
      · exact ih node (List.mem_of_mem_drop hnode)

/-- Nothing is under the items in front of the first group. -/
theorem Bare.examples_eq_nil {nodes : List TestNode} (h : Bare nodes) :
    ∀ node ∈ nodes.takeWhile (fun node => !node.isGroup), node.examples = [] :=
  fun node hnode => h node ((List.takeWhile_sublist _).subset hnode)
    (by simpa using List.all_eq_true.1 List.all_takeWhile node hnode)

/-- The nodes in front of the first group are the leading examples. -/
theorem leading_ofItems (items : List TestItem) :
    ((ofItems items).takeWhile (fun node => !node.isGroup)).map item = leading items := by
  induction items with
  | nil => rfl
  | cons first rest ih =>
    change ((place first (ofItems rest)).takeWhile _).map item = _
    cases hkind : first.kind <;> simp [place, hkind, isGroup, leading]
    exact ih

theorem find?_append (nodes nodes' : List TestNode) (id : String) :
    find? (nodes ++ nodes') id = (find? nodes id).or (find? nodes' id) :=
  List.findSome?_append

/-- Among items with nothing under them, the first one with an identity is found. -/
theorem find?_of_forall_examples_eq_nil {nodes : List TestNode}
    (h : ∀ node ∈ nodes, node.examples = []) (id : String) :
    find? nodes id = ((nodes.map item).find? (·.id = id)).map (⟨·, []⟩) := by
  induction nodes with
  | nil => rfl
  | cons node rest ih =>
    obtain ⟨first, examples⟩ := node
    obtain rfl : examples = [] := h _ (.head _)
    have hrest := ih fun node hnode => h node (.tail _ hnode)
    unfold find? at hrest ⊢
    by_cases hid : first.id = id <;> simp [hid, hrest]

/-- An item that is taken in is found under its identity; it hides nothing else. -/
theorem find?_place {nodes : List TestNode} (h : Bare nodes) (first : TestItem) (id : String) :
    find? (place first nodes) id =
      if first.id = id then
        some ⟨first, match first.kind with
          | .example => []
          | .group => (nodes.takeWhile (fun node => !node.isGroup)).map item⟩
      else find? nodes id := by
  cases hkind : first.kind with
  | «example» =>
    by_cases hid : first.id = id <;> simp [place, hkind, find?, hid]
  | group =>
    rw [place, hkind]
    dsimp only
    have hsplit := List.prefix_iff_eq_append.1
      (List.takeWhile_prefix (l := nodes) (fun node => !node.isGroup))
    have hbare := h.examples_eq_nil
    generalize nodes.takeWhile (fun node => !node.isGroup) = own at hsplit hbare
    calc find? (⟨first, own.map item⟩ :: nodes.drop own.length) id
        = if first.id = id then some ⟨first, own.map item⟩
          else (find? own id).or (find? (nodes.drop own.length) id) := by
          rw [find?_of_forall_examples_eq_nil hbare]
          by_cases hid : first.id = id
          · simp [find?, hid]
          · rw [find?, List.findSome?_cons]
            simp only [if_neg hid]
            cases (own.map item).find? (·.id = id) <;> rfl
      _ = _ := by rw [← find?_append, hsplit]

/-- What is found under an identity is the first item of the document that has it. -/
theorem find?_ofItems (items : List TestItem) (id : String) :
    find? (ofItems items) id = locate? id items := by
  induction items with
  | nil => rfl
  | cons first rest ih =>
    change find? (place first (ofItems rest)) id = _
    rw [find?_place (bare_ofItems rest), leading_ofItems, ih]
    rfl

end TestNode

namespace TestPlan

/-- A run of one item schedules the examples among it and those under it. -/
theorem ofNode_single (id : String) (group : Option String) (node : TestNode) :
    (PlannedTest.ofNode (.single id) group node).map PlannedTest.identifier =
      node.tests.map TestItem.identifier := by
  have hitem (group : Option String) (item : TestItem) :
      PlannedTest.ofItem? (.single id) group item = if item.kind = .example then
        some ⟨PlannedTest.fullIdOf group item.id, item.label, item.identifier, item.command⟩
      else none := by
    simp [PlannedTest.ofItem?, TestRunRequest.single]
  have hexamples (group : Option String) (items : List TestItem) :
      (items.filterMap (PlannedTest.ofItem? (.single id) group)).map PlannedTest.identifier =
        (items.filter (·.kind = .example)).map TestItem.identifier := by
    induction items with
    | nil => rfl
    | cons first rest ih =>
      by_cases hkind : first.kind = .example
      · rw [List.filterMap_cons_some ((hitem group first).trans (if_pos hkind)),
          List.filter_cons_of_pos (by simpa using hkind), List.map_cons, List.map_cons, ih]
      · rw [List.filterMap_cons_none ((hitem group first).trans (if_neg hkind)),
          List.filter_cons_of_neg (by simpa using hkind), ih]
  have hnode : PlannedTest.ofNode (.single id) group node =
      [node.item].filterMap (PlannedTest.ofItem? (.single id) group) ++
        node.examples.filterMap (PlannedTest.ofItem? (.single id) (some node.item.id)) := by
    rw [PlannedTest.ofNode, if_neg (by simp [TestRunRequest.single])]
    cases hfirst : PlannedTest.ofItem? (.single id) group node.item <;> simp [hfirst]
  rw [hnode, List.map_append, hexamples, hexamples, ← List.map_append, ← List.filter_append]
  rfl

/-- A run of one item covers what is found under its identity. -/
theorem covered_single (nodes : List TestNode) (id : String) :
    (covered nodes (.single id)).map PlannedTest.identifier =
      ((TestNode.find? nodes id).elim [] TestNode.tests).map TestItem.identifier := by
  have hcovered : covered nodes (.single id) = under nodes (.single id) id := by
    simp [covered, TestRunRequest.single]
  rw [hcovered, under]
  cases TestNode.find? nodes id with
  | none => rfl
  | some node => exact ofNode_single id _ node

end TestPlan

namespace Workspace

/-- The plan of a run of the test of a name. -/
def planFor? (tests : List TestNode) (name : String) : Option TestPlan :=
  (findTest? tests name).bind fun node => TestPlan.ofRequest? tests (.single node.item.id)

/-- The node that a name leads to in a document. -/
def meant? (items : List TestItem) (name : String) : Option TestNode :=
  (TestNode.locate? (testId name) items).or (TestNode.locate? ("test_" ++ testId name) items)

theorem findTest?_ofItems (items : List TestItem) (name : String) :
    findTest? (TestNode.ofItems items) name = meant? items name := by
  rw [findTest?, meant?, TestNode.find?_ofItems, TestNode.find?_ofItems]
  cases TestNode.locate? (testId name) items <;> rfl

/-- What a name leads to is found under its own identity, too. -/
theorem locate?_of_meant? {items : List TestItem} {name : String} {node : TestNode}
    (h : meant? items name = some node) : TestNode.locate? node.item.id items = some node := by
  rcases Option.or_eq_some_iff.1 h with hplain | ⟨-, hprefixed⟩
  · rwa [TestNode.item_id_of_locate? hplain]
  · rwa [TestNode.item_id_of_locate? hprefixed]

/-- A run of the test of a name covers the examples among what the name leads to. -/
theorem planFor?_ofItems (items : List TestItem) (name : String) :
    ((planFor? (TestNode.ofItems items) name).elim [] TestPlan.tests).map PlannedTest.identifier =
      ((meant? items name).elim [] TestNode.tests).map TestItem.identifier := by
  rw [planFor?, findTest?_ofItems]
  cases hmeant : meant? items name with
  | none => rfl
  | some node =>
    have hcovered := TestPlan.covered_single (TestNode.ofItems items) node.item.id
    rw [TestNode.find?_ofItems, locate?_of_meant? hmeant] at hcovered
    rw [Option.bind_some, Option.elim_some, ← Option.elim_some [] TestNode.tests, ← hcovered]
    cases hplan : TestPlan.ofRequest? (TestNode.ofItems items) (.single node.item.id) with
    | none => rw [(TestPlan.ofRequest?_eq_none_iff _ _).1 hplan, Option.elim_none]
    | some plan => rw [Option.elim_some, TestPlan.tests_of_ofRequest? hplan]

/-- How a run of the test of a name goes: without a plan nothing happens, and with one there is no
Ruby for it, or its command is the only one that runs. -/
theorem ensures_runTest (c : WorkspaceContext) (name : String) (w : Workspace) :
    (runTest c name).Ensures (fun l r _ =>
      match planFor? w.tests name with
      | none => l = []
      | some plan => (∃ e, r = .error (.ruby e)) ∨ ∃ environment, commandsOf l =
          [shellCommand c environment plan.command (some w.settings.testTimeout)]) w := by
  rw [runTest, ensures_bind, ensures_get, planFor?]
  cases hfound : findTest? w.tests name with
  | none => rfl
  | some node =>
    rw [ensures_bind, Option.bind_some]
    refine (ensures_runTests c (.single node.item.id) w).mono fun l r w' hran => ?_
    cases hran with
    | nothing hplan =>
      rw [hplan]
      rfl
    | withoutRuby hplan hl =>
      rw [hplan]
      exact .inl ⟨_, rfl⟩
    | @finished plan l environment answer hplan hl =>
      rw [hplan]
      have hcommands : commandsOf (l ++ [⟨.run (shellCommand c environment plan.command
          (some w.settings.testTimeout)), answer⟩]) =
          [shellCommand c environment plan.command (some w.settings.testTimeout)] := by
        rw [commandsOf_append, hl]
        rfl
      cases answer <;> exact .inr ⟨environment, by rwa [List.append_nil]⟩

/-- A test is run by itself: its plan schedules one example, with the identifier of the test, and
the command of the plan is the only one that runs. -/
def RunsItself (c : WorkspaceContext) (w : Workspace) (item : TestItem) (l : List Exchange) : Prop :=
  ∃ plan environment, planFor? w.tests item.label = some plan ∧
    plan.tests.map PlannedTest.identifier = [item.identifier] ∧
    commandsOf l = [shellCommand c environment plan.command (some w.settings.testTimeout)]

/-- An example of a document is mistaken for something else: its name leads to an example with
another identifier, or to a group whose examples do not have that identifier alone. -/
def Mistaken (items : List TestItem) (item : TestItem) : Prop :=
  ∃ node, meant? items item.label = some node ∧
    node.tests.map TestItem.identifier ≠ [item.identifier]

/-- What the item of a lens says of its name, and where the lens has that name. -/
theorem label_of_ofLens? {lens : CodeLens} {item : TestItem}
    (h : TestItem.ofLens? lens = some item) :
    item.id = TestItem.idOf item.kind item.label ∧
      ∀ arguments, lens.command.bind (·.arguments) = some arguments →
        lensArgument? arguments 1 = some item.label := by
  obtain ⟨range, command, data⟩ := lens
  simp only [TestItem.ofLens?, Option.bind_eq_bind, Option.bind_eq_some_iff] at h
  obtain ⟨data, -, kind, -, command, rfl, h⟩ := h
  split at h
  · next path name line place harguments =>
    simp only [Option.bind_eq_some_iff, Option.pure_def, Option.some.injEq] at h
    obtain ⟨label, hlabel, line, -, path, -, range, -, identifier, -, rfl⟩ := h
    refine ⟨rfl, fun arguments hsome => ?_⟩
    obtain rfl : _ = arguments := Option.some.inj (harguments.symm.trans hsome)
    exact hlabel
  · cases h

/-- The name of an example leads somewhere in a document that has the example. -/
theorem meant?_isSome {items : List TestItem} {item : TestItem} (hkind : item.kind = .example)
    (hid : item.id = TestItem.idOf item.kind item.label) (h : item ∈ items) :
    (meant? items item.label).isSome = true := by
  have hfound := TestNode.locate?_isSome h
  rw [meant?, Option.isSome_or, Bool.or_eq_true]
  rw [hid, hkind, TestItem.idOf] at hfound
  split at hfound
  · exact .inr hfound
  · exact .inl hfound

/-- A test is run by itself exactly if its name leads to it alone. -/
theorem runTest_runs_itself_iff {c : WorkspaceContext} {w w' : Workspace} {items : List TestItem}
    {item : TestItem} {l : List Exchange} {r : Outcome (Option TestRunReport)}
    (htests : w.tests = TestNode.ofItems items) (hsome : (meant? items item.label).isSome = true)
    (h : (runTest c item.label).Yields w l r w') (hruby : ∀ e, r ≠ .error (.ruby e)) :
    RunsItself c w item l ↔ ¬ Mistaken items item := by
  obtain ⟨node, hnode⟩ := Option.isSome_iff_exists.1 hsome
  have hplanned := planFor?_ofItems items item.label
  rw [hnode, Option.elim_some, ← htests] at hplanned
  have hmistaken : ¬ Mistaken items item ↔
      node.tests.map TestItem.identifier = [item.identifier] := by
    simp [Mistaken, hnode]
  have hran := (ensures_runTest c item.label w).yields h
  rw [hmistaken, ← hplanned]
  cases hplan : planFor? w.tests item.label with
  | none => simp [RunsItself, hplan]
  | some plan =>
    rw [hplan] at hran
    obtain ⟨e, he⟩ | ⟨environment, hcommands⟩ := hran
    · exact absurd he (hruby e)
    · constructor
      · rintro ⟨plan', environment', hplan', hidentifiers, -⟩
        rwa [Option.some.inj (hplan.symm.trans hplan')]
      · exact fun hidentifiers => ⟨plan, environment, hplan, hidentifiers, hcommands⟩

/-- **Theorem (runs of lenses).** Where Ruby is there, performing the action of a lens that describes
an example runs this example by itself exactly if the document does not mistake it. -/
theorem runs_itself_iff_not_mistaken {c : WorkspaceContext} {w w' : Workspace}
    {lenses : List CodeLens} {lens : CodeLens} {item : TestItem} {arguments : List Json}
    {l : List Exchange} {r : Outcome Unit} (htests : w.tests = TestNode.ofLenses lenses)
    (hlens : lens ∈ lenses) (hitem : TestItem.ofLens? lens = some item)
    (hkind : item.kind = .example) (harguments : lens.command.bind (·.arguments) = some arguments)
    (h : (perform c .runTest arguments).Yields w l r w') (hruby : ∀ e, r ≠ .error (.ruby e)) :
    RunsItself c w item l ↔ ¬ Mistaken (lenses.filterMap TestItem.ofLens?) item := by
  obtain ⟨hid, hlabel⟩ := label_of_ofLens? hitem
  have hsome := meant?_isSome hkind hid (List.mem_filterMap.2 ⟨lens, hlens, hitem⟩)
  have hperform : (perform c .runTest arguments).Ensures (fun l r _ => ∃ report w',
      (runTest c item.label).Yields w l report w' ∧ r = done report) w := by
    rw [perform]
    simp only [hlabel arguments harguments]
    rw [ensures_bind]
    exact ensures_of_yields fun l report w' hyields =>
      ⟨report, w', by rwa [List.append_nil], rfl⟩
  obtain ⟨report, w₁, hyields, rfl⟩ := hperform.yields h
  refine runTest_runs_itself_iff htests hsome hyields fun e he => hruby e ?_
  rw [he, done]

/-- An example is not mistaken where no other item has its identity, or the identity of a group of
its name. -/
theorem not_mistaken_of_alone {items : List TestItem} {item : TestItem}
    (hkind : item.kind = .example) (hid : item.id = TestItem.idOf item.kind item.label)
    (h : item ∈ items)
    (halone : ∀ other ∈ items, other.id = item.id ∨ other.id = testId item.label → other = item) :
    ¬ Mistaken items item := by
  rintro ⟨node, hnode, hother⟩
  have hfound := locate?_of_meant? hnode
  have hnamed : node.item.id = item.id ∨ node.item.id = testId item.label := by
    rcases Option.or_eq_some_iff.1 hnode with hplain | ⟨hnone, hprefixed⟩
    · exact .inr (TestNode.item_id_of_locate? hplain)
    · rw [TestNode.item_id_of_locate? hprefixed, hid, hkind, TestItem.idOf]
      split
      · exact .inl rfl
      · next hstarts =>
        have hplain : item.id = testId item.label := by
          rw [hid, hkind, TestItem.idOf, if_neg hstarts]
          rfl
        have hsome := TestNode.locate?_isSome h
        rw [hplain, hnone] at hsome
        cases hsome
  have hsame := halone node.item (TestNode.mem_of_locate? hfound) hnamed
  rw [TestNode.tests_of_locate? hfound (by rw [hsame, hkind]), hsame] at hother
  exact hother rfl

/-- The item of the plain lens. -/
def plainItem : TestItem :=
  { id := "test_a", label := "test_a", path := ⟨"/w/a.rb"⟩, range := ⟨⟨0, 0⟩, ⟨2, 3⟩⟩,
    kind := .example, command := "ruby a.rb --name /test_a$/", identifier := "test_a" }

/-- The arguments of the lens that describes an item. -/
def lensArguments (item : TestItem) : List Json :=
  [.text item.path.text, .text item.label, .text item.command,
    .object [("end_column", .int 3), ("end_line", .int 2), ("start_column", .int 0),
      ("start_line", .int 0)]]

/-- The trace of performing the action of such a lens. -/
def performance (w : Workspace) (item : TestItem) : List Exchange :=
  (perform plainContext .runTest (lensArguments item)).trace ending w assertionFailure

/-- The only lens of a document runs its own example. -/
theorem plainLens_runs_itself :
    TestItem.ofLens? plainLens = some plainItem ∧
      (perform plainContext .runTest (lensArguments plainItem)).Yields rehearsed
        (performance rehearsed plainItem) (.ok ()) rehearsed ∧
      RunsItself plainContext rehearsed plainItem (performance rehearsed plainItem) := by
  have hitem : TestItem.ofLens? plainLens = some plainItem := by decide +kernel
  have htests : rehearsed.tests = TestNode.ofLenses [plainLens] := rfl
  have hrun : (perform plainContext .runTest (lensArguments plainItem)).Yields rehearsed
      (performance rehearsed plainItem) (.ok ()) rehearsed :=
    yields_of_toOption (by decide +kernel)
  have hmistaken : ¬ Mistaken ([plainLens].filterMap TestItem.ofLens?) plainItem := by
    rw [List.filterMap_cons_some hitem]
    exact not_mistaken_of_alone rfl (by decide +kernel) (.head _) (by simp)
  exact ⟨hitem, hrun, (runs_itself_iff_not_mistaken htests (.head _) hitem rfl rfl hrun
    fun _ he => nomatch he).2 hmistaken⟩

/-- A document with two groups that have an example of the same name. -/
def twins : List CodeLens :=
  [testLens "group" "TestA" "bin/rails test a.rb",
    testLens "example" "saves" "bin/rails test a.rb:3",
    testLens "group" "TestB" "bin/rails test a.rb",
    testLens "example" "saves" "bin/rails test a.rb:8"]

/-- A workspace that shows this document. -/
def doubled : Workspace := showing twins

/-- The example of the second group. -/
def laterTwin : TestItem :=
  { id := "test_saves", label := "saves", path := ⟨"/w/a.rb"⟩, range := ⟨⟨0, 0⟩, ⟨2, 3⟩⟩,
    kind := .example, command := "bin/rails test a.rb:8", identifier := "a.rb:8" }

/-- Not every lens runs its own example. -/
theorem not_always_itself :
    ¬ ∀ (c : WorkspaceContext) (w w' : Workspace) (lenses : List CodeLens) (lens : CodeLens)
      (item : TestItem) (arguments : List Json) (l : List Exchange) (r : Outcome Unit),
      w.tests = TestNode.ofLenses lenses → lens ∈ lenses → TestItem.ofLens? lens = some item →
      item.kind = .example → lens.command.bind (·.arguments) = some arguments →
      (perform c .runTest arguments).Yields w l r w' → (∀ e, r ≠ .error (.ruby e)) →
      RunsItself c w item l := by
  intro h
  have hitem : TestItem.ofLens? (testLens "example" "saves" "bin/rails test a.rb:8") =
      some laterTwin := by decide +kernel
  have hrun : (perform plainContext .runTest (lensArguments laterTwin)).Yields doubled
      (performance doubled laterTwin) (.ok ()) doubled := yields_of_toOption (by decide +kernel)
  have hplanned : (planFor? doubled.tests laterTwin.label).map
      (·.tests.map PlannedTest.identifier) = some ["a.rb:3"] := by decide +kernel
  obtain ⟨plan, environment, hplan, hidentifiers, -⟩ :=
    h _ _ _ twins _ _ _ _ _ rfl (by decide +kernel) hitem rfl rfl hrun fun _ he => nomatch he
  rw [hplan, Option.map_some, hidentifiers] at hplanned
  exact absurd hplanned (by decide)

end Workspace

end RubySupervisor
