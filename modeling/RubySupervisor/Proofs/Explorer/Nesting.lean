import RubySupervisor.Proofs.Explorer.Scheduling

/-!
# How a document is nested

The tree of a document has its items in their order. Examples in front of every group stand at the
top, and behind them come the groups, each with the examples that follow it. So the place of an item
is told by what stands before it in the document, even where several items are the same.
-/

namespace RubySupervisor

/-- A list is split in one way at the last element of a kind. -/
theorem eq_of_last_split {α : Type} {p : α → Prop} {before before' after after' : List α} {a a' : α}
    (h : before ++ a :: after = before' ++ a' :: after') (ha : p a) (ha' : p a')
    (hafter : ∀ b ∈ after, ¬ p b) (hafter' : ∀ b ∈ after', ¬ p b) :
    before = before' ∧ a = a' ∧ after = after' := by
  rcases List.append_eq_append_iff.1 h with ⟨between, rfl, hrest⟩ | ⟨between, rfl, hrest⟩
  · cases between with
    | nil => simpa using hrest
    | cons b between =>
      obtain ⟨-, rfl⟩ := List.cons.inj hrest
      exact absurd ha' (hafter a' (by simp))
  · cases between with
    | nil => simpa [eq_comm] using hrest
    | cons b between =>
      obtain ⟨-, rfl⟩ := List.cons.inj hrest
      exact absurd ha (hafter' a (by simp))

namespace TestItem

/-- Names lose their blanks. -/
theorem isBlank_of_mem_withoutBlanks {label : String} {c : Char}
    (h : c ∈ (withoutBlanks label).toList) : Text.isBlank c = false := by
  rw [withoutBlanks, String.toList_ofList] at h
  obtain ⟨d, -, rfl⟩ := List.mem_map.1 h
  split
  · decide
  · next hd => exact Bool.eq_false_iff.2 hd

/-- There is no blank in an identity. -/
theorem isBlank_of_mem_idOf {kind : TestKind} {label : String} {c : Char}
    (h : c ∈ (idOf kind label).toList) : Text.isBlank c = false := by
  rw [idOf] at h
  split at h
  · rw [String.toList_append] at h
    rcases List.mem_append.1 h with hprefix | hname
    · have hall : examplePrefix.toList.all (fun c => !Text.isBlank c) = true := by decide
      simpa using List.all_eq_true.1 hall c hprefix
    · exact isBlank_of_mem_withoutBlanks hname
  · exact isBlank_of_mem_withoutBlanks h

/-- The identity of an example begins in the way of examples. -/
theorem examplePrefix_prefix_idOf (label : String) :
    examplePrefix.toList <+: (idOf .example label).toList := by
  rw [idOf]
  split
  · rw [String.toList_append]
    exact List.prefix_append _ _
  · next hstarts => exact Text.startsWith_iff.1 (by simpa using hstarts)

end TestItem

namespace TestNode

/-- The layout of a tree: examples with nothing under them, and then groups with examples only. -/
structure LaidOut (tops : List TestItem) (groups nodes : List TestNode) : Prop where
  eq_append : nodes = tops.map (⟨·, []⟩) ++ groups
  tops_kind : ∀ item ∈ tops, item.kind = .example
  groups_kind : ∀ node ∈ groups, node.item.kind = .group
  children_kind : ∀ node ∈ groups, ∀ child ∈ node.examples, child.kind = .example

namespace LaidOut

variable {tops : List TestItem} {groups nodes : List TestNode} {item : TestItem}

/-- An example is taken in at the top. -/
theorem place_example (h : LaidOut tops groups nodes) (hkind : item.kind = .example) :
    LaidOut (item :: tops) groups (place item nodes) where
  eq_append := by rw [place, hkind, h.eq_append]; rfl
  tops_kind := List.forall_mem_cons.2 ⟨hkind, h.tops_kind⟩
  groups_kind := h.groups_kind
  children_kind := h.children_kind

/-- A group is taken in with the examples that were at the top. -/
theorem place_group (h : LaidOut tops groups nodes) (hkind : item.kind = .group) :
    LaidOut [] (⟨item, tops⟩ :: groups) (place item nodes) where
  eq_append := by
    have htops : ∀ node ∈ tops.map (⟨·, []⟩ : TestItem → TestNode), (!node.isGroup) = true := by
      intro node hnode
      obtain ⟨top, htop, rfl⟩ := List.mem_map.1 hnode
      simp [isGroup, h.tops_kind top htop]
    have hgroups : groups.takeWhile (fun node => !node.isGroup) = [] := by
      cases hcases : groups with
      | nil => rfl
      | cons group others =>
        have hgroup := h.groups_kind group (by simp [hcases])
        simp [isGroup, hgroup]
    have hown : nodes.takeWhile (fun node => !node.isGroup) = tops.map (⟨·, []⟩) := by
      rw [h.eq_append, List.takeWhile_append_of_pos htops, hgroups, List.append_nil]
    have hbehind : nodes.drop (tops.map (⟨·, []⟩ : TestItem → TestNode)).length = groups := by
      rw [h.eq_append, List.drop_left]
    rw [place, hkind]
    simp only [hown, hbehind, List.map_map]
    simp [Function.comp_def]
  tops_kind := by simp
  groups_kind := List.forall_mem_cons.2 ⟨hkind, h.groups_kind⟩
  children_kind := List.forall_mem_cons.2 ⟨h.tops_kind, h.children_kind⟩

/-- Only groups have something under them, and it is examples. -/
theorem nested (h : LaidOut tops groups nodes) {node : TestNode} (hnode : node ∈ nodes)
    {child : TestItem} (hchild : child ∈ node.examples) :
    node.item.kind = .group ∧ child.kind = .example := by
  rw [h.eq_append] at hnode
  rcases List.mem_append.1 hnode with htop | hgroup
  · obtain ⟨top, -, rfl⟩ := List.mem_map.1 htop
    cases hchild
  · exact ⟨h.groups_kind node hgroup, h.children_kind node hgroup child hchild⟩

/-- Nothing but examples stands in front of an example at the top. -/
theorem forall_before_example (h : LaidOut tops groups nodes) {front back : List TestNode}
    {node : TestNode} (hnodes : nodes = front ++ node :: back) (hkind : node.item.kind = .example) :
    ∀ other ∈ front.flatMap items, other.kind = .example := by
  rcases List.append_eq_append_iff.1 (h.eq_append.symm.trans hnodes) with
    ⟨between, -, hgroups⟩ | ⟨between, htops, -⟩
  · have hgroup := h.groups_kind node (by simp [hgroups])
    rw [hkind] at hgroup
    cases hgroup
  · intro other hother
    obtain ⟨node', hnode', hother⟩ := List.mem_flatMap.1 hother
    have hmem : node' ∈ tops.map (⟨·, []⟩ : TestItem → TestNode) := by
      rw [htops]
      exact List.mem_append_left between hnode'
    obtain ⟨top, htop, rfl⟩ := List.mem_map.1 hmem
    obtain rfl : other = top := by simpa [items] using hother
    exact h.tops_kind other htop

end LaidOut

/-- The tree of a document has the layout of trees. -/
theorem exists_laidOut (items : List TestItem) :
    ∃ tops groups, LaidOut tops groups (ofItems items) := by
  induction items with
  | nil => exact ⟨[], [], rfl, by simp, by simp, by simp⟩
  | cons item rest ih =>
    obtain ⟨tops, groups, h⟩ := ih
    cases hkind : item.kind with
    | «example» => exact ⟨_, _, h.place_example hkind⟩
    | group => exact ⟨_, _, h.place_group hkind⟩

/-- An item stands at the top of a tree, behind these items of the document. -/
def AtTop (nodes : List TestNode) (before : List TestItem) (item : TestItem) : Prop :=
  ∃ front node back, nodes = front ++ node :: back ∧ front.flatMap items = before ∧
    node.item = item

/-- An item stands under a group that is behind these items of the document, and between the two are
these other items. -/
def Under (nodes : List TestNode) (before : List TestItem) (group : TestItem)
    (between : List TestItem) (item : TestItem) : Prop :=
  ∃ front node back later, nodes = front ++ node :: back ∧ front.flatMap items = before ∧
    node.item = group ∧ node.examples = between ++ item :: later

variable {nodes : List TestNode} {node : TestNode} {before between : List TestItem}
  {item group : TestItem}

theorem AtTop.cons (h : AtTop nodes before item) :
    AtTop (node :: nodes) (node.items ++ before) item := by
  obtain ⟨front, own, back, rfl, rfl, rfl⟩ := h
  exact ⟨node :: front, own, back, rfl, List.flatMap_cons, rfl⟩

theorem Under.cons (h : Under nodes before group between item) :
    Under (node :: nodes) (node.items ++ before) group between item := by
  obtain ⟨front, own, back, later, rfl, rfl, rfl, hexamples⟩ := h
  exact ⟨node :: front, own, back, later, rfl, List.flatMap_cons, rfl, hexamples⟩

/-- Every item of a document stands somewhere in the tree. -/
theorem atTop_or_under {after : List TestItem}
    (h : nodes.flatMap items = before ++ item :: after) :
    AtTop nodes before item ∨ ∃ outer group between, before = outer ++ group :: between ∧
      Under nodes outer group between item := by
  induction nodes generalizing before with
  | nil => simp at h
  | cons node rest ih =>
    -- behind the node and all of its examples
    have hlater {behind : List TestItem} (hbehind : rest.flatMap items = behind ++ item :: after) :
        AtTop (node :: rest) (node.items ++ behind) item ∨
          ∃ outer group between, node.items ++ behind = outer ++ group :: between ∧
            Under (node :: rest) outer group between item := by
      rcases ih hbehind with htop | ⟨outer, group, between, rfl, hunder⟩
      · exact .inl htop.cons
      · exact .inr ⟨_, group, between, (List.append_assoc _ _ _).symm, hunder.cons⟩
    cases before with
    | nil =>
      have hitem : node.item = item := by
        rw [List.flatMap_cons, items] at h
        exact (List.cons.inj h).1
      exact .inl ⟨[], node, rest, rfl, rfl, hitem⟩
    | cons first before =>
      rw [List.flatMap_cons, items, List.cons_append, List.cons_append] at h
      obtain ⟨rfl, hrest⟩ := List.cons.inj h
      rcases List.append_eq_append_iff.1 hrest with
        ⟨behind, rfl, hbehind⟩ | ⟨later, hexamples, hitem⟩
      · exact hlater hbehind
      · cases later with
        | nil =>
          have hbehind : rest.flatMap items = [] ++ item :: after := hitem.symm
          have hall := hlater hbehind
          rwa [items, hexamples, List.append_nil, List.append_nil] at hall
        | cons first later =>
          obtain ⟨rfl, -⟩ := List.cons.inj hitem
          exact .inr ⟨[], node.item, before, rfl, [], node, rest, later, rfl, rfl, rfl, hexamples⟩

/-- A tree is faithful to the items of a document. -/
structure Faithful (document : List TestItem) (nodes : List TestNode) : Prop where
  /-- No item is lost, doubled or out of its order. -/
  preorder : nodes.flatMap items = document
  /-- Only groups have something under them, and it is examples. -/
  nested : ∀ node ∈ nodes, ∀ child ∈ node.examples,
    node.item.kind = .group ∧ child.kind = .example
  /-- Every group stands at the top. -/
  group_atTop : ∀ before item after, document = before ++ item :: after → item.kind = .group →
    AtTop nodes before item
  /-- An example stands at the top exactly if no group is before it. -/
  atTop_iff : ∀ before item after, document = before ++ item :: after → item.kind = .example →
    (AtTop nodes before item ↔ ∀ other ∈ before, other.kind = .example)
  /-- An example stands exactly under the closest group before it. -/
  under_iff : ∀ before group between item after,
    document = before ++ group :: (between ++ item :: after) → item.kind = .example →
    (Under nodes before group between item ↔
      group.kind = .group ∧ ∀ other ∈ between, other.kind = .example)
  /-- There is no blank in an identity, and that of an example begins in the way of examples. -/
  ids : ∀ item ∈ document, (∀ c ∈ item.id.toList, Text.isBlank c = false) ∧
    (item.kind = .example → TestItem.examplePrefix.toList <+: item.id.toList)

/-- What stands under something is an example, behind other examples of a group. -/
theorem Under.kinds {tops : List TestItem} {groups : List TestNode}
    (hlaid : LaidOut tops groups nodes) (h : Under nodes before group between item) :
    group.kind = .group ∧ item.kind = .example ∧ ∀ other ∈ between, other.kind = .example := by
  obtain ⟨front, node, back, later, hnodes, -, rfl, hexamples⟩ := h
  have hnode : node ∈ nodes := by simp [hnodes]
  have hitem : item ∈ node.examples := by simp [hexamples]
  obtain ⟨hgroup, hexample⟩ := hlaid.nested hnode hitem
  refine ⟨hgroup, hexample, fun other hother => ?_⟩
  exact (hlaid.nested hnode (by simp [hexamples, hother])).2

/-- An example that stands at the top has nothing but examples before it. -/
theorem AtTop.kinds {tops : List TestItem} {groups : List TestNode}
    (hlaid : LaidOut tops groups nodes) (h : AtTop nodes before item)
    (hkind : item.kind = .example) : ∀ other ∈ before, other.kind = .example := by
  obtain ⟨front, node, back, hnodes, rfl, rfl⟩ := h
  exact hlaid.forall_before_example hnodes hkind

/-- **Theorem (faithful trees).** The tree of a document is faithful to the items of its well-formed
lenses. -/
theorem faithful_ofLenses (lenses : List CodeLens) :
    Faithful (lenses.filterMap TestItem.ofLens?) (ofLenses lenses) := by
  have hpreorder := flatMap_items_ofItems (lenses.filterMap TestItem.ofLens?)
  obtain ⟨tops, groups, hlaid⟩ := exists_laidOut (lenses.filterMap TestItem.ofLens?)
  have hnotBoth {item : TestItem} (hgroup : item.kind = .group) : ¬ item.kind = .example := by
    rw [hgroup]
    decide
  refine ⟨hpreorder, fun node hnode child hchild => hlaid.nested hnode hchild, ?_, ?_, ?_, ?_⟩
  · intro before item after hsplit hgroup
    rcases atTop_or_under (hpreorder.trans hsplit) with htop | ⟨outer, group, between, -, hunder⟩
    · exact htop
    · exact absurd (hunder.kinds hlaid).2.1 (hnotBoth hgroup)
  · intro before item after hsplit hexample
    refine ⟨fun htop => htop.kinds hlaid hexample, fun hbefore => ?_⟩
    rcases atTop_or_under (hpreorder.trans hsplit) with htop | ⟨outer, group, between, rfl, hunder⟩
    · exact htop
    · exact absurd (hbefore group (by simp)) (hnotBoth (hunder.kinds hlaid).1)
  · intro before group between item after hsplit hexample
    refine ⟨fun hunder => ⟨(hunder.kinds hlaid).1, (hunder.kinds hlaid).2.2⟩, ?_⟩
    rintro ⟨hgroup, hbetween⟩
    have hbehind : lenses.filterMap TestItem.ofLens? =
        (before ++ group :: between) ++ item :: after := by
      rw [hsplit, List.append_assoc, List.cons_append]
    rcases atTop_or_under (hpreorder.trans hbehind) with
      htop | ⟨outer, group', between', hsame, hunder⟩
    · exact absurd (htop.kinds hlaid hexample group (by simp)) (hnotBoth hgroup)
    · obtain ⟨hgroup', -, hbetween'⟩ := hunder.kinds hlaid
      -- both groups are the last item in front that is no example
      obtain ⟨rfl, rfl, rfl⟩ := eq_of_last_split (p := fun item => ¬ item.kind = .example) hsame
        (hnotBoth hgroup) (hnotBoth hgroup') (by simpa using hbetween) (by simpa using hbetween')
      exact hunder
  · intro item hitem
    obtain ⟨lens, -, hlens⟩ := List.mem_filterMap.1 hitem
    obtain ⟨hid, -⟩ := Workspace.label_of_ofLens? hlens
    refine ⟨fun c hc => TestItem.isBlank_of_mem_idOf (hid ▸ hc), fun hexample => ?_⟩
    rw [hid, hexample]
    exact TestItem.examplePrefix_prefix_idOf item.label

end TestNode

end RubySupervisor
