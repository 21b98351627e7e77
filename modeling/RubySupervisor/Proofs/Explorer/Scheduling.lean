import Mathlib.Data.List.Nodup
import RubySupervisor.Proofs.Explorer.Selection

/-!
# What a run schedules

A run names items to cover and items to leave out. Each name is looked up for itself, so that its
plan has exactly the examples asked for, and each of them once, unless two names lead to one example,
or an example is named whose group is left out.
-/

namespace RubySupervisor

/-- An element whose key no other one has is the only one of its key. -/
theorem filter_key_eq_singleton {α β : Type} [DecidableEq β] {key : α → β} {l : List α}
    (h : (l.map key).Nodup) {a : α} (ha : a ∈ l) : l.filter (key · = key a) = [a] := by
  obtain ⟨front, back, rfl⟩ := List.append_of_mem ha
  rw [List.map_append, List.map_cons] at h
  obtain ⟨-, hback, happart⟩ := List.nodup_append.1 h
  have hfront : ∀ b ∈ front, key b ≠ key a := fun b hb =>
    happart _ (List.mem_map_of_mem hb) _ List.mem_cons_self
  have hback : ∀ b ∈ back, key b ≠ key a := fun b hb heq =>
    (List.nodup_cons.1 hback).1 (List.mem_map.2 ⟨b, hb, heq⟩)
  rw [List.filter_append, List.filter_cons_of_pos (by simp),
    List.filter_eq_nil_iff.2 (by simpa using hfront),
    List.filter_eq_nil_iff.2 (by simpa using hback), List.nil_append]

/-- The place of an item in the tree: under a group, or at the top. -/
structure Place where
  group : Option TestItem
  item : TestItem
  deriving DecidableEq

namespace Place

/-- The place is that of an item, or under it. -/
def IsUnder (place : Place) (id : String) : Prop :=
  place.item.id = id ∨ ∃ group ∈ place.group, group.id = id

instance (place : Place) (id : String) : Decidable (place.IsUnder id) :=
  inferInstanceAs (Decidable (_ ∨ _))

/-- The example of a place as part of a plan, with the identity of its group before its own. -/
def planned (place : Place) : PlannedTest where
  fullId := place.group.elim place.item.id fun group => group.id ++ "#" ++ place.item.id
  label := place.item.label
  identifier := place.item.identifier
  command := place.item.command

end Place

namespace TestNode

/-- The places of a node and of the examples under it. -/
def places (node : TestNode) : List Place :=
  ⟨none, node.item⟩ :: node.examples.map (⟨some node.item, ·⟩)

/-- The examples of a tree with their places. -/
def examplePlaces (nodes : List TestNode) : List Place :=
  (nodes.flatMap places).filter (·.item.kind = .example)

end TestNode

namespace TestRunRequest

/-- A run asks for an example: it covers the example or its group, or everything, and leaves out
neither of them. -/
def Wants (r : TestRunRequest) (place : Place) : Prop :=
  (r.included = [] ∨ ∃ id ∈ r.included, place.IsUnder id) ∧ place.item.id ∉ r.excluded ∧
    ∀ group ∈ place.group, group.id ∉ r.excluded

instance (r : TestRunRequest) (place : Place) : Decidable (r.Wants place) :=
  inferInstanceAs (Decidable (_ ∧ _ ∧ _))

end TestRunRequest

namespace TestPlan

/-- The examples that the plan of a run schedules. -/
def scheduled (nodes : List TestNode) (r : TestRunRequest) : List PlannedTest :=
  (ofRequest? nodes r).elim [] tests

/-- A run schedules exactly the examples that it asks for, each of them once. -/
structure AsRequested (nodes : List TestNode) (r : TestRunRequest) : Prop where
  only : ∀ test ∈ scheduled nodes r, ∃ place ∈ TestNode.examplePlaces nodes, test = place.planned
  iff : ∀ place ∈ TestNode.examplePlaces nodes,
    place.planned ∈ scheduled nodes r ↔ r.Wants place
  once : (scheduled nodes r).Nodup

/-- Two names of a run lead to one of its examples. -/
def Overlaps (nodes : List TestNode) (r : TestRunRequest) : Prop :=
  ∃ place ∈ TestNode.examplePlaces nodes, r.Wants place ∧
    1 < r.included.countP (place.IsUnder ·)

instance (nodes : List TestNode) (r : TestRunRequest) : Decidable (Overlaps nodes r) :=
  inferInstanceAs (Decidable (∃ place ∈ TestNode.examplePlaces nodes, _))

/-- A run names an example whose group it leaves out. -/
def Smuggles (nodes : List TestNode) (r : TestRunRequest) : Prop :=
  ∃ place ∈ TestNode.examplePlaces nodes, place.item.id ∈ r.included ∧
    place.item.id ∉ r.excluded ∧ ∃ group ∈ place.group, group.id ∈ r.excluded

instance (nodes : List TestNode) (r : TestRunRequest) : Decidable (Smuggles nodes r) :=
  inferInstanceAs (Decidable (∃ place ∈ TestNode.examplePlaces nodes, _))

end TestPlan

namespace TestNode

variable {nodes rest : List TestNode} {node : TestNode} {id : String}

theorem map_item_places (nodes : List TestNode) :
    (nodes.flatMap places).map Place.item = nodes.flatMap items := by
  simp only [List.map_flatMap, places, List.map_cons, List.map_map, Function.comp_def, List.map_id']
  rfl

/-- Nothing is under a name that no item has. -/
theorem not_isUnder_of_not_mem (h : id ∉ (nodes.flatMap items).map TestItem.id) :
    ∀ place ∈ nodes.flatMap places, ¬ place.IsUnder id := by
  intro place hplace hunder
  obtain ⟨node, hnode, hplace⟩ := List.mem_flatMap.1 hplace
  have hnone (item : TestItem) (hitem : item ∈ node.items) : item.id ≠ id := fun hid =>
    h (List.mem_map.2 ⟨item, List.mem_flatMap.2 ⟨node, hnode, hitem⟩, hid⟩)
  rcases List.mem_cons.1 hplace with rfl | hplace
  · rcases hunder with hid | ⟨group, hgroup, -⟩
    · exact hnone _ (.head _) hid
    · cases hgroup
  · obtain ⟨child, hchild, rfl⟩ := List.mem_map.1 hplace
    rcases hunder with hid | ⟨group, hgroup, hid⟩
    · exact hnone _ (.tail _ hchild) hid
    · obtain rfl := Option.some.inj hgroup
      exact hnone _ (.head _) hid

end TestNode

namespace PlannedTest

/-- An example is part of a plan unless it is left out. -/
def isKept (r : TestRunRequest) (place : Place) : Bool :=
  place.item.kind = .example ∧ place.item.id ∉ r.excluded

theorem ofItem?_eq (r : TestRunRequest) (place : Place) :
    ofItem? r (place.group.map TestItem.id) place.item =
      if isKept r place then some place.planned else none := by
  obtain ⟨group, item⟩ := place
  cases group <;> simp [ofItem?, fullIdOf, Place.planned, isKept]

/-- The plan of a node has the examples of its places, unless the node is left out. -/
theorem ofNode_eq (r : TestRunRequest) (group : Option TestItem) (node : TestNode) :
    ofNode r (group.map TestItem.id) node =
      if node.item.id ∈ r.excluded then []
      else ((⟨group, node.item⟩ :: node.examples.map (⟨some node.item, ·⟩)).filter (isKept r)).map
        Place.planned := by
  have hexamples (children : List TestItem) :
      children.filterMap (ofItem? r (some node.item.id)) =
        ((children.map (⟨some node.item, ·⟩ : TestItem → Place)).filter (isKept r)).map
          Place.planned := by
    induction children with
    | nil => rfl
    | cons child children ih =>
      have hchild := ofItem?_eq r ⟨some node.item, child⟩
      rw [Option.map_some] at hchild
      rw [List.filterMap_cons, hchild, ih, List.map_cons, List.filter_cons]
      cases isKept r ⟨some node.item, child⟩ <;> rfl
  rw [ofNode, hexamples, ofItem?_eq r ⟨group, node.item⟩, List.filter_cons]
  by_cases hnode : node.item.id ∈ r.excluded
  · simp [hnode]
  · rw [if_neg (by simpa using hnode), if_neg hnode]
    cases isKept r ⟨group, node.item⟩ <;> rfl

end PlannedTest

namespace TestPlan

open TestNode (places items)

variable {nodes rest : List TestNode} {node : TestNode} {r : TestRunRequest} {id : String}

/-- A name of a run leads to a place: the example is under it, and neither of them is left out. -/
def leadsTo (r : TestRunRequest) (id : String) (place : Place) : Bool :=
  place.IsUnder id ∧ id ∉ r.excluded ∧ PlannedTest.isKept r place

theorem filter_leadsTo_eq_nil {places : List Place} (h : ∀ place ∈ places, ¬ place.IsUnder id) :
    places.filter (leadsTo r id) = [] :=
  List.filter_eq_nil_iff.2 fun place hplace => by simp [leadsTo, h place hplace]

/-- A node is passed over in search of a name that neither it nor one of its examples has. -/
theorem under_cons_of_not_mem (h : id ∉ node.items.map TestItem.id) :
    under (node :: rest) r id = under rest r id := by
  have hitem : node.item.id ≠ id := fun hid => h (by simp [items, hid])
  have hexamples : ∀ child ∈ node.examples, child.id ≠ id := fun child hchild hid =>
    h (List.mem_map.2 ⟨child, .tail _ hchild, hid⟩)
  have hnone : node.examples.find? (fun child => child.id = id) = none :=
    List.find?_eq_none.2 fun child hchild => by simp [hexamples child hchild]
  have hany : node.examples.any (fun child => child.id = id) = false := by
    simpa using hexamples
  simp [under, TestNode.find?, groupOf?, hitem, hnone, hany]

/-- What is planned for a node by its own name. -/
theorem under_cons_self (h : ∀ child ∈ (node :: rest).flatMap TestNode.examples,
    child.id ≠ node.item.id) :
    under (node :: rest) r node.item.id = PlannedTest.ofNode r none node := by
  have hgroup : groupOf? (node :: rest) node.item.id = none := by
    rw [groupOf?, Option.map_eq_none_iff, List.find?_eq_none]
    intro other hother
    have hexamples : ∀ child ∈ other.examples, child.id ≠ node.item.id := fun child hchild =>
      h child (List.mem_flatMap.2 ⟨other, hother, hchild⟩)
    simpa using hexamples
  simp [under, TestNode.find?, hgroup]

/-- What is planned for an example by its name. -/
theorem under_cons_example {child : TestItem} (hitem : node.item.id ≠ child.id)
    (h : node.examples.find? (fun other => other.id = child.id) = some child) :
    under (node :: rest) r child.id =
      PlannedTest.ofNode r (some node.item.id) ⟨child, []⟩ := by
  have hany : node.examples.any (fun other => other.id = child.id) = true :=
    List.any_eq_true.2 ⟨child, List.mem_of_find?_eq_some h, by simp⟩
  simp [under, TestNode.find?, groupOf?, hitem, h, hany]

/-- The name of a node leads to all of its examples. -/
theorem filter_places_self (r : TestRunRequest) (node : TestNode) :
    node.places.filter (leadsTo r node.item.id) =
      if node.item.id ∈ r.excluded then [] else node.places.filter (PlannedTest.isKept r) := by
  have hplaces : ∀ place ∈ node.places, place.IsUnder node.item.id := by
    intro place hplace
    rcases List.mem_cons.1 hplace with rfl | hplace
    · exact .inl rfl
    · obtain ⟨child, -, rfl⟩ := List.mem_map.1 hplace
      exact .inr ⟨_, rfl, rfl⟩
  split
  · next hexcluded => exact List.filter_eq_nil_iff.2 fun place _ => by simp [leadsTo, hexcluded]
  · next hincluded =>
    exact List.filter_congr fun place hplace => by simp [leadsTo, hplaces place hplace, hincluded]

/-- The name of an example leads to this example. -/
theorem filter_places_example (h : (node.items.map TestItem.id).Nodup) (r : TestRunRequest)
    {child : TestItem} (hchild : child ∈ node.examples) :
    node.places.filter (leadsTo r child.id) =
      [⟨some node.item, child⟩].filter (PlannedTest.isKept r) := by
  obtain ⟨hitem, hexamples⟩ := List.nodup_cons.1 h
  have hne : node.item.id ≠ child.id := fun hid => hitem (List.mem_map.2 ⟨child, hchild, hid.symm⟩)
  have hleads : (fun other => leadsTo r child.id ⟨some node.item, other⟩) = fun other =>
      PlannedTest.isKept r ⟨some node.item, other⟩ && decide (other.id = child.id) := by
    funext other
    by_cases hid : other.id = child.id <;>
      simp [leadsTo, Place.IsUnder, hid, hne, PlannedTest.isKept]
  rw [places, List.filter_cons_of_neg (by simp [leadsTo, Place.IsUnder, hne]), List.filter_map]
  simp only [Function.comp_def, hleads]
  rw [← List.filter_filter, filter_key_eq_singleton hexamples hchild]
  cases hkept : PlannedTest.isKept r ⟨some node.item, child⟩ <;> simp [hkept]

/-- What is planned for a name is what the name leads to. -/
theorem under_eq (h : ((nodes.flatMap items).map TestItem.id).Nodup) (r : TestRunRequest)
    (id : String) :
    under nodes r id = ((nodes.flatMap places).filter (leadsTo r id)).map Place.planned := by
  induction nodes with
  | nil => rfl
  | cons node rest ih =>
    rw [List.flatMap_cons, List.map_append] at h
    obtain ⟨hnode, hrest, happart⟩ := List.nodup_append.1 h
    rw [List.flatMap_cons, List.filter_append]
    -- identifiers are distinct, so that the name is found in one node of the tree at most
    by_cases hmem : id ∈ node.items.map TestItem.id
    · have hnone : id ∉ (rest.flatMap items).map TestItem.id := fun hlater =>
        happart id hmem id hlater rfl
      rw [filter_leadsTo_eq_nil (TestNode.not_isUnder_of_not_mem hnone), List.append_nil]
      obtain ⟨item, hitem, rfl⟩ := List.mem_map.1 hmem
      rcases List.mem_cons.1 hitem with rfl | hchild
      · have hexamples : ∀ child ∈ (node :: rest).flatMap TestNode.examples,
            child.id ≠ node.item.id := by
          intro child hchild hid
          rcases List.mem_append.1 (List.flatMap_cons ▸ hchild) with hchild | hchild
          · exact (List.nodup_cons.1 hnode).1 (List.mem_map.2 ⟨child, hchild, hid⟩)
          · obtain ⟨other, hother, hchild⟩ := List.mem_flatMap.1 hchild
            exact hnone (List.mem_map.2
              ⟨child, List.mem_flatMap.2 ⟨other, hother, .tail _ hchild⟩, hid⟩)
        rw [under_cons_self hexamples, filter_places_self]
        refine (PlannedTest.ofNode_eq r none node).trans ?_
        split <;> rfl
      · have hne : node.item.id ≠ item.id := fun hid =>
          (List.nodup_cons.1 hnode).1 (List.mem_map.2 ⟨item, hchild, hid.symm⟩)
        have hfind : node.examples.find? (fun other => other.id = item.id) = some item := by
          rw [← List.head?_filter, filter_key_eq_singleton (List.nodup_cons.1 hnode).2 hchild]
          rfl
        rw [under_cons_example hne hfind, filter_places_example hnode r hchild]
        refine (PlannedTest.ofNode_eq r (some node.item) ⟨item, []⟩).trans ?_
        by_cases hexcluded : item.id ∈ r.excluded <;> simp [hexcluded, PlannedTest.isKept]
    · have hnone : id ∉ ([node].flatMap items).map TestItem.id := by simpa using hmem
      have hpassed := filter_leadsTo_eq_nil (r := r) (TestNode.not_isUnder_of_not_mem hnone)
      rw [List.flatMap_singleton] at hpassed
      rw [under_cons_of_not_mem hmem, hpassed, List.nil_append, ih hrest]

/-- A run without names plans every example that it does not leave out. -/
theorem covered_of_included_eq_nil (h : r.included = []) (nodes : List TestNode) :
    covered nodes r = ((TestNode.examplePlaces nodes).filter (r.Wants ·)).map Place.planned := by
  have hnode (node : TestNode) : PlannedTest.ofNode r none node =
      ((node.places.filter (·.item.kind = .example)).filter (r.Wants ·)).map Place.planned := by
    have hwants (place : Place) (hplace : place ∈ node.places) :
        (decide (r.Wants place) && decide (place.item.kind = .example)) =
          (PlannedTest.isKept r place && decide (node.item.id ∉ r.excluded)) := by
      rcases List.mem_cons.1 hplace with rfl | hplace
      · by_cases hexcluded : node.item.id ∈ r.excluded <;>
          simp [TestRunRequest.Wants, PlannedTest.isKept, h, hexcluded]
      · obtain ⟨child, -, rfl⟩ := List.mem_map.1 hplace
        by_cases hexcluded : node.item.id ∈ r.excluded <;>
          simp [TestRunRequest.Wants, PlannedTest.isKept, h, hexcluded, Bool.and_comm]
    rw [List.filter_filter, List.filter_congr hwants, ← List.filter_filter]
    refine (PlannedTest.ofNode_eq r none node).trans ?_
    by_cases hexcluded : node.item.id ∈ r.excluded <;> simp [hexcluded, places]
  rw [covered, h, List.isEmpty_nil, if_pos rfl, TestNode.examplePlaces]
  induction nodes with
  | nil => rfl
  | cons node rest ih =>
    rw [List.flatMap_cons, List.flatMap_cons, List.filter_append, List.filter_append,
      List.map_append, hnode, ih]

/-- A run with names plans what each of them leads to. -/
theorem covered_of_included_ne_nil (h : r.included ≠ [])
    (hids : ((nodes.flatMap items).map TestItem.id).Nodup) :
    covered nodes r = r.included.flatMap fun id =>
      ((TestNode.examplePlaces nodes).filter (leadsTo r id)).map Place.planned := by
  have hexamples (id : String) : (TestNode.examplePlaces nodes).filter (leadsTo r id) =
      (nodes.flatMap places).filter (leadsTo r id) := by
    rw [TestNode.examplePlaces, List.filter_filter]
    refine List.filter_congr fun place _ => ?_
    by_cases hkind : place.item.kind = .example <;> simp [leadsTo, PlannedTest.isKept, hkind]
  simp only [hexamples, ← under_eq hids]
  rw [covered, if_neg (by simpa using h)]

theorem scheduled_eq_covered (nodes : List TestNode) (r : TestRunRequest) :
    scheduled nodes r = covered nodes r := by
  rw [scheduled]
  cases hplan : ofRequest? nodes r with
  | none => exact ((ofRequest?_eq_none_iff nodes r).1 hplan).symm
  | some plan => exact tests_of_ofRequest? hplan

/-- The items of a tree have identities of their own, and its examples are told apart by what is
planned for them. -/
structure Distinct (nodes : List TestNode) : Prop where
  ids : ((nodes.flatMap items).map TestItem.id).Nodup
  planned : ∀ place ∈ TestNode.examplePlaces nodes, ∀ other ∈ TestNode.examplePlaces nodes,
    place.planned = other.planned → place = other

/-- How often an example is planned. -/
theorem count_planned (h : Distinct nodes) (r : TestRunRequest) {place : Place}
    (hplace : place ∈ TestNode.examplePlaces nodes) :
    (scheduled nodes r).count place.planned =
      if r.included = [] then if r.Wants place then 1 else 0
      else r.included.countP (leadsTo r · place) := by
  have hnodup : (TestNode.examplePlaces nodes).Nodup := by
    have hids := h.ids
    rw [← TestNode.map_item_places, List.map_map] at hids
    exact hids.of_map.filter _
  -- no example is planned twice for one name: places with the same plan are the same
  have hcount (keep : Place → Bool) :
      (((TestNode.examplePlaces nodes).filter keep).map Place.planned).count place.planned =
        if keep place then 1 else 0 := by
    have hmapped : (((TestNode.examplePlaces nodes).filter keep).map Place.planned).Nodup :=
      (hnodup.filter keep).map_on fun a ha b hb =>
        h.planned a (List.mem_of_mem_filter ha) b (List.mem_of_mem_filter hb)
    have hmem : place.planned ∈ ((TestNode.examplePlaces nodes).filter keep).map Place.planned ↔
        keep place = true := by
      constructor
      · intro hmem
        obtain ⟨other, hother, hsame⟩ := List.mem_map.1 hmem
        obtain ⟨hother, hkeep⟩ := List.mem_filter.1 hother
        rwa [← h.planned other hother place hplace hsame]
      · exact fun hkeep => List.mem_map_of_mem (List.mem_filter.2 ⟨hplace, hkeep⟩)
    simp only [hmapped.count, hmem]
  rw [scheduled_eq_covered]
  split
  · next hnil => simp only [covered_of_included_eq_nil hnil, hcount, decide_eq_true_eq]
  · next hsome =>
    rw [covered_of_included_ne_nil hsome h.ids]
    clear hsome
    induction r.included with
    | nil => rfl
    | cons id rest ih =>
      rw [List.flatMap_cons, List.count_append, hcount, ih, List.countP_cons, Nat.add_comm]

/-- Only examples of the tree are scheduled. -/
theorem exists_place_of_mem_scheduled (h : ((nodes.flatMap items).map TestItem.id).Nodup)
    {test : PlannedTest} (htest : test ∈ scheduled nodes r) :
    ∃ place ∈ TestNode.examplePlaces nodes, test = place.planned := by
  rw [scheduled_eq_covered] at htest
  have hof (keep : Place → Bool)
      (htest : test ∈ ((TestNode.examplePlaces nodes).filter keep).map Place.planned) :
      ∃ place ∈ TestNode.examplePlaces nodes, test = place.planned := by
    obtain ⟨place, hplace, rfl⟩ := List.mem_map.1 htest
    exact ⟨place, List.mem_of_mem_filter hplace, rfl⟩
  by_cases hnil : r.included = []
  · exact hof _ (covered_of_included_eq_nil hnil nodes ▸ htest)
  · rw [covered_of_included_ne_nil hnil h] at htest
    obtain ⟨id, -, htest⟩ := List.mem_flatMap.1 htest
    exact hof _ htest

/-- A run schedules what it asks for exactly if each example is planned once or never. -/
theorem asRequested_iff_count (h : ((nodes.flatMap items).map TestItem.id).Nodup) :
    AsRequested nodes r ↔ ∀ place ∈ TestNode.examplePlaces nodes,
      (scheduled nodes r).count place.planned = if r.Wants place then 1 else 0 := by
  constructor
  · intro hrequested place hplace
    simp only [hrequested.once.count, hrequested.iff place hplace]
  · intro hcount
    refine ⟨fun test => exists_place_of_mem_scheduled h, fun place hplace => ?_,
      List.nodup_iff_count_le_one.2 fun test => ?_⟩
    · rw [← List.count_pos_iff, hcount place hplace]
      split <;> simp_all
    · by_cases htest : test ∈ scheduled nodes r
      · obtain ⟨place, hplace, rfl⟩ := exists_place_of_mem_scheduled h htest
        rw [hcount place hplace]
        split <;> decide
      · rw [List.count_eq_zero_of_not_mem htest]
        exact Nat.zero_le 1

/-- An example is planned as it is asked for unless its names overlap, or it is smuggled in. -/
theorem countP_leadsTo_eq_iff {place : Place} (hkind : place.item.kind = .example)
    (hsome : r.included ≠ []) :
    r.included.countP (leadsTo r · place) = (if r.Wants place then 1 else 0) ↔
      ¬ (r.Wants place ∧ 1 < r.included.countP (place.IsUnder ·)) ∧
      ¬ (place.item.id ∈ r.included ∧ place.item.id ∉ r.excluded ∧
        ∃ group ∈ place.group, group.id ∈ r.excluded) := by
  -- an example that is excluded itself is never planned
  by_cases hitem : place.item.id ∈ r.excluded
  · have hnone : r.included.countP (leadsTo r · place) = 0 :=
      List.countP_eq_zero.2 fun id _ => by simp [leadsTo, PlannedTest.isKept, hitem]
    simp [hnone, TestRunRequest.Wants, hitem]
  -- one whose group is excluded is planned by its own name alone
  by_cases hgroup : ∃ group ∈ place.group, group.id ∈ r.excluded
  · have hwants : ¬ r.Wants place := by
      rintro ⟨-, -, hall⟩
      obtain ⟨group, hmem, hexcluded⟩ := hgroup
      exact hall group hmem hexcluded
    have hleads : r.included.countP (leadsTo r · place) = 0 ↔ place.item.id ∉ r.included := by
      rw [List.countP_eq_zero]
      constructor
      · intro hnone hmem
        exact hnone _ hmem (by simp [leadsTo, Place.IsUnder, PlannedTest.isKept, hkind, hitem])
      · intro hmem id hid hleads
        obtain ⟨hunder, hincluded, -⟩ : place.IsUnder id ∧ id ∉ r.excluded ∧ _ :=
          of_decide_eq_true hleads
        rcases hunder with rfl | ⟨group, hsome, rfl⟩
        · exact hmem hid
        · obtain ⟨other, hother, hexcluded⟩ := hgroup
          obtain rfl := Option.mem_unique hsome hother
          exact hincluded hexcluded
    simp only [hwants, if_false, hleads, false_and, not_false_eq_true, true_and, hitem, hgroup,
      and_true]
  · have hkept : ∀ group ∈ place.group, group.id ∉ r.excluded := fun group hmem hexcluded =>
      hgroup ⟨group, hmem, hexcluded⟩
    have hleads : r.included.countP (leadsTo r · place) = r.included.countP (place.IsUnder ·) := by
      refine List.countP_congr fun id _ => ?_
      have hincluded (hunder : place.IsUnder id) : id ∉ r.excluded := by
        rcases hunder with rfl | ⟨group, hmem, rfl⟩
        · exact hitem
        · exact hkept group hmem
      simp only [leadsTo, PlannedTest.isKept, hkind, hitem, decide_eq_true_eq]
      exact ⟨And.left, fun hunder => ⟨hunder, hincluded hunder, by simp⟩⟩
    have hwants : r.Wants place ↔ 0 < r.included.countP (place.IsUnder ·) := by
      simp only [TestRunRequest.Wants, hsome, false_or, List.countP_pos_iff, decide_eq_true_eq]
      exact ⟨And.left, fun hunder => ⟨hunder, hitem, hkept⟩⟩
    simp only [hleads, hwants, hgroup, and_false, not_false_eq_true, and_true]
    split <;> omega

end TestPlan

namespace TestNode

/-- The items of a document are in its tree, in their order. -/
theorem flatMap_items_ofItems (items : List TestItem) :
    (ofItems items).flatMap TestNode.items = items := by
  induction items with
  | nil => rfl
  | cons first rest ih =>
    change (place first (ofItems rest)).flatMap TestNode.items = _
    cases hkind : first.kind with
    | «example» =>
      rw [place, hkind]
      exact congrArg (first :: ·) ih
    | group =>
      rw [place, hkind]
      -- the group takes the examples in front of the next group
      have hsplit := List.prefix_iff_eq_append.1
        (List.takeWhile_prefix (l := ofItems rest) (fun node => !node.isGroup))
      have hbare := (bare_ofItems rest).examples_eq_nil
      generalize (ofItems rest).takeWhile (fun node => !node.isGroup) = own at hsplit hbare
      have hown : own.flatMap TestNode.items = own.map TestNode.item := by
        rw [← List.flatMap_singleton' (own.map TestNode.item), List.flatMap_map]
        exact List.flatMap_congr fun node hnode => by rw [TestNode.items, hbare node hnode]
      calc (⟨first, own.map TestNode.item⟩ :: (ofItems rest).drop own.length).flatMap TestNode.items
          = first :: (own.flatMap TestNode.items ++
              ((ofItems rest).drop own.length).flatMap TestNode.items) := by rw [hown]; rfl
        _ = first :: (ofItems rest).flatMap TestNode.items := by
          rw [← List.flatMap_append, hsplit]
        _ = first :: rest := by rw [ih]

/-- Items of lenses with identities of their own are told apart by their names. -/
theorem distinct_ofLenses {lenses : List CodeLens}
    (h : (((ofLenses lenses).flatMap items).map TestItem.id).Nodup) :
    TestPlan.Distinct (ofLenses lenses) where
  ids := h
  planned place hplace other hother hsame := by
    have hid {place : Place} (hplace : place ∈ examplePlaces (ofLenses lenses)) :
        place.item.id = TestItem.idOf .example place.item.label := by
      obtain ⟨hplace, hkind⟩ := List.mem_filter.1 hplace
      have hmem : place.item ∈ (ofLenses lenses).flatMap items := by
        rw [← map_item_places]
        exact List.mem_map_of_mem hplace
      rw [ofLenses, flatMap_items_ofItems] at hmem
      obtain ⟨lens, -, hlens⟩ := List.mem_filterMap.1 hmem
      rw [← of_decide_eq_true hkind]
      exact (Workspace.label_of_ofLens? hlens).1
    have hsameId : place.item.id = other.item.id := by
      rw [hid hplace, hid hother]
      exact congrArg (TestItem.idOf .example) (congrArg PlannedTest.label hsame)
    rw [← map_item_places, List.map_map] at h
    exact List.inj_on_of_nodup_map h (List.mem_of_mem_filter hplace) (List.mem_of_mem_filter hother)
      hsameId

end TestNode

namespace TestPlan

/-- **Theorem (scheduled examples).** Where the items of a document have identities of their own, a
run schedules exactly the examples that it asks for, each of them once and under its group, unless
two of its names lead to one of them, or it names an example whose group it leaves out. -/
theorem as_requested_iff {lenses : List CodeLens} {r : TestRunRequest}
    (h : (((TestNode.ofLenses lenses).flatMap TestNode.items).map TestItem.id).Nodup) :
    AsRequested (TestNode.ofLenses lenses) r ↔
      ¬ Overlaps (TestNode.ofLenses lenses) r ∧ ¬ Smuggles (TestNode.ofLenses lenses) r := by
  have hdistinct := TestNode.distinct_ofLenses h
  rw [asRequested_iff_count h]
  by_cases hnil : r.included = []
  · refine iff_of_true (fun place hplace => ?_) ⟨?_, ?_⟩
    · rw [count_planned hdistinct r hplace, if_pos hnil]
    · rintro ⟨place, -, -, htwice⟩
      simp [hnil] at htwice
    · rintro ⟨place, -, hmem, -⟩
      simp [hnil] at hmem
  · simp only [Overlaps, Smuggles, not_exists, not_and, ← forall_and]
    refine forall₂_congr fun place hplace => ?_
    have hkind : place.item.kind = .example := by simpa using (List.mem_filter.1 hplace).2
    rw [count_planned hdistinct r hplace, if_neg hnil, countP_leadsTo_eq_iff hkind hnil]
    simp only [not_and, not_exists]

/-- A document with a group of two examples. -/
def pair : List CodeLens :=
  [Workspace.testLens "group" "TestA" "bin/rails test a.rb",
    Workspace.testLens "example" "saves" "bin/rails test a.rb:3",
    Workspace.testLens "example" "loads" "bin/rails test a.rb:8"]

theorem nodup_pair :
    (((TestNode.ofLenses pair).flatMap TestNode.items).map TestItem.id).Nodup := by
  decide +kernel

/-- A run of a group without one of its examples schedules the other one. -/
theorem group_without_example :
    AsRequested (TestNode.ofLenses pair) ⟨["TestA"], ["test_loads"]⟩ :=
  (as_requested_iff nodup_pair).2 ⟨by decide +kernel, by decide +kernel⟩

/-- An example that is named is scheduled although its group is left out. -/
theorem not_always_as_requested :
    ¬ ∀ (lenses : List CodeLens) (r : TestRunRequest),
      (((TestNode.ofLenses lenses).flatMap TestNode.items).map TestItem.id).Nodup →
      AsRequested (TestNode.ofLenses lenses) r := by
  intro h
  have hrequested := h pair ⟨["test_saves"], ["TestA"]⟩ nodup_pair
  exact absurd hrequested.iff (by decide +kernel)

end TestPlan

end RubySupervisor
