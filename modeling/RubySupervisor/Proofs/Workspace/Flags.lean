import RubySupervisor.Proofs.Host.Trace
import RubySupervisor.Proofs.State.Memory
import RubySupervisor.Workspace.Extension

/-!
# The flags of extensions

Whether an extension is activated stands in the store and once more at every place where the
extension is listed. Switching an extension changes the store first and then the first place of the
list. So the copies part where the store cannot be written, since the list is not reached then, and
where an extension is listed twice; nothing else parts them.

To choose among the reported extensions is to switch them one after another. A choice that ends well
leaves each of them switched as it is chosen and touches nothing else in the store; it says that
something changed exactly if one of them was switched otherwise before; and it has nothing left to
do when it is made again.
-/

namespace RubySupervisor.ExtensionSet

/-! ## What is said of one extension -/

/-- The flag of an extension in the store and at the places of the list. -/
structure Copies where
  stored : Bool
  listed : List Bool

namespace Copies

/-- All places have the flag of the store. -/
def Agree (c : Copies) : Prop := ∀ flag ∈ c.listed, flag = c.stored

/-- The flag switched in the store alone. -/
def switchStored (flag : Bool) (c : Copies) : Copies := { c with stored := flag }

/-- The flag switched at the first of its places. -/
def switchFirst (flag : Bool) : List Bool → List Bool
  | [] => []
  | _ :: rest => flag :: rest

/-- The flag switched in the store and at the first place, unless the store has it so. -/
def switch (flag : Bool) (c : Copies) : Copies :=
  if c.stored = flag then c else ⟨flag, switchFirst flag c.listed⟩

@[simp] theorem stored_switch (flag : Bool) (c : Copies) : (c.switch flag).stored = flag := by
  by_cases h : c.stored = flag <;> simp [switch, h]

/-- What is switched already stays as it is. -/
@[simp] theorem switch_switch (flag : Bool) (c : Copies) :
    (c.switch flag).switch flag = c.switch flag := by
  rw [switch.eq_1 flag (c.switch flag), if_pos (stored_switch flag c)]

/-- Copies that agree part when only the store is switched, if there is any place. -/
theorem Agree.switchStored_iff {c : Copies} (h : c.Agree) {flag : Bool} (hflag : c.stored ≠ flag) :
    (c.switchStored flag).Agree ↔ c.listed = [] := by
  constructor
  · intro hagree
    apply List.eq_nil_iff_forall_not_mem.2
    intro copy hcopy
    exact hflag ((h copy hcopy).symm.trans (hagree copy hcopy))
  · intro hempty
    simp [Agree, switchStored, hempty]

/-- Copies that agree part when they are switched, if there is a second place. -/
theorem Agree.switch_iff {c : Copies} (h : c.Agree) (flag : Bool) :
    (c.switch flag).Agree ↔ ¬ (c.stored ≠ flag ∧ 2 ≤ c.listed.length) := by
  by_cases hflag : c.stored = flag
  · simpa [switch, hflag] using h
  · obtain ⟨stored, listed⟩ := c
    rcases listed with _ | ⟨first, _ | ⟨second, rest⟩⟩
    · simp [switch, switchFirst, hflag, Agree]
    · simp [switch, switchFirst, hflag, Agree]
    · have hsecond : second = stored := h second (by simp)
      have hparted : ¬ (switch flag ⟨stored, first :: second :: rest⟩).Agree := by
        intro hagree
        have hnew := hagree second (by simp [switch, switchFirst, hflag])
        exact hflag (hsecond.symm.trans (by simpa using hnew))
      simpa [hflag] using hparted

end Copies

/-- The copies of the flag of an extension. -/
def copies (s : ExtensionSet) (name : String) : Copies :=
  ⟨s.store.extensionActivated name, (s.list.filter (·.name = name)).map (·.activated)⟩

/-- Every listed extension has the flag that the store keeps of it. -/
def Agrees (s : ExtensionSet) : Prop :=
  ∀ e ∈ s.list, e.activated = s.store.extensionActivated e.name

theorem agrees_iff {s : ExtensionSet} : s.Agrees ↔ ∀ name, (s.copies name).Agree := by
  constructor
  · intro h name flag hflag
    obtain ⟨e, he, rfl⟩ := List.mem_map.1 hflag
    obtain ⟨hmem, hname⟩ := List.mem_filter.1 he
    obtain rfl : e.name = name := by simpa using hname
    exact h e hmem
  · intro h e he
    exact h e.name _ (List.mem_map.2 ⟨e, List.mem_filter.2 ⟨he, by simp⟩, rfl⟩)

/-! ## What the operations do to the copies -/

/-- The set with the flag of an extension recorded in the store alone. -/
def recorded (name : String) (flag : Bool) (s : ExtensionSet) : ExtensionSet :=
  { s with store := s.store.insert (Store.extensionKey name) (.bool flag) }

/-- The set with the flag of an extension recorded in the store and switched in the list. -/
def withFlag (name : String) (flag : Bool) (s : ExtensionSet) : ExtensionSet :=
  if s.store.extensionActivated name = flag then s
  else { s.recorded name flag with list := switched name flag s.list }

theorem copies_recorded (s : ExtensionSet) (name : String) (flag : Bool) (other : String) :
    (s.recorded name flag).copies other =
      if name = other then (s.copies name).switchStored flag else s.copies other := by
  by_cases h : name = other <;> simp [copies, recorded, h, Copies.switchStored]

/-- Switching an extension in a list changes the first of its places. -/
theorem copies_switched (name : String) (flag : Bool) (l : List Extension) (other : String) :
    ((switched name flag l).filter (·.name = other)).map (·.activated) =
      if name = other then Copies.switchFirst flag ((l.filter (·.name = other)).map (·.activated))
      else (l.filter (·.name = other)).map (·.activated) := by
  induction l with
  | nil => by_cases h : name = other <;> simp [switched, Copies.switchFirst, h]
  | cons e rest ih =>
    by_cases hname : e.name = name
    · by_cases hother : name = other
      · simp [switched, hname, hother, Copies.switchFirst]
      · simp [switched, hname, hother]
    · by_cases hother : e.name = other
      · subst hother
        simpa [switched, hname, Ne.symm hname] using ih
      · simpa [switched, hname, hother] using ih

theorem copies_withFlag (s : ExtensionSet) (name : String) (flag : Bool) (other : String) :
    (s.withFlag name flag).copies other =
      if name = other then (s.copies name).switch flag else s.copies other := by
  by_cases hflag : s.store.extensionActivated name = flag
  · by_cases hname : name = other
    · subst hname
      simp [withFlag, hflag, Copies.switch, copies]
    · simp [withFlag, hflag, hname]
  · by_cases hname : name = other
    · subst hname
      simp [withFlag, recorded, copies, copies_switched, hflag, Copies.switch]
    · simp [withFlag, recorded, copies, copies_switched, hflag, hname]

/-- How often an extension is listed. -/
def places (s : ExtensionSet) (name : String) : Nat := (s.copies name).listed.length

theorem places_eq_count (s : ExtensionSet) (name : String) :
    s.places name = (s.list.map (·.name)).count name := by
  rw [List.count, List.countP_map, List.countP_eq_length_filter, places, copies, List.length_map]
  rfl

theorem places_eq_zero_iff {s : ExtensionSet} {name : String} :
    s.places name = 0 ↔ name ∉ s.list.map (·.name) := by
  rw [places_eq_count, List.count_eq_zero]

theorem Agrees.copies {s : ExtensionSet} (h : s.Agrees) (name : String) : (s.copies name).Agree :=
  agrees_iff.1 h name

/-- Where one extension alone is treated, all depends on its copies. -/
theorem Agrees.treated_iff {s s' : ExtensionSet} {name : String} {c : Copies} (h : s.Agrees)
    (hcopies : ∀ other, s'.copies other = if name = other then c else s.copies other) :
    s'.Agrees ↔ c.Agree := by
  rw [agrees_iff]
  constructor
  · intro hagree
    simpa [hcopies] using hagree name
  · intro hagree other
    rw [hcopies]
    split
    · exact hagree
    · exact h.copies other

theorem Agrees.withFlag_iff {s : ExtensionSet} (h : s.Agrees) (name : String) (flag : Bool) :
    (s.withFlag name flag).Agrees ↔
      ¬ (s.store.extensionActivated name ≠ flag ∧ 2 ≤ s.places name) := by
  rw [h.treated_iff (copies_withFlag s name flag)]
  exact (h.copies name).switch_iff flag

theorem Agrees.recorded_iff {s : ExtensionSet} (h : s.Agrees) {name : String} {flag : Bool}
    (hflag : s.store.extensionActivated name ≠ flag) :
    (s.recorded name flag).Agrees ↔ s.places name = 0 := by
  rw [h.treated_iff (copies_recorded s name flag), places, List.length_eq_zero_iff]
  exact (h.copies name).switchStored_iff hflag

/-- A report takes its flags from the store. -/
theorem agrees_replace (s : ExtensionSet) (reported : List (String × List String)) :
    (s.replace reported).Agrees := by
  intro e he
  obtain ⟨entry, -, rfl⟩ := List.mem_map.1 he
  rfl

/-! ## What the operations do -/

theorem storePart_lawful : storePart.Lawful :=
  ⟨fun _ _ => rfl, fun _ _ _ => rfl, fun _ => rfl⟩

/-- An extension is switched in the store and the list, or, where the store could not be written, in
the store alone. -/
theorem ensures_setActivated (name : String) (flag : Bool) (s : ExtensionSet) :
    (setActivated name flag).Ensures (fun l r s' =>
      ¬ Faulty l ∧ s' = s.withFlag name flag ∧
          r = .ok (s.store.extensionActivated name != flag) ∨
        Faulty l ∧ s.store.extensionActivated name ≠ flag ∧ s' = s.recorded name flag ∧
          ∃ error, r = .error error) s := by
  simp only [setActivated, Task.ensures_bind, Task.ensures_get]
  split
  · rename_i hsame
    exact .inl ⟨faulty_nil, by simp [withFlag, hsame], by simp [hsame]⟩
  · rename_i hother
    simp only [Task.ensures_bind, Task.ensures_within storePart_lawful]
    refine (Store.ensures_update _ _ _).mono ?_
    rintro l r store ⟨rfl, ⟨hfaulty, error, rfl⟩ | ⟨hfine, rfl⟩⟩
    · exact .inr ⟨by simpa using hfaulty, hother, rfl, error, rfl⟩
    · simp only [Task.ensures_bind, Task.ensures_change, Task.ensures_pure]
      refine .inl ⟨by simpa using hfine, ?_, by simp [hother]⟩
      simp [withFlag, hother, recorded, storePart]

/-- A choice that ends well switches each of the names as it is chosen, and leaves all others as
they were. One that fails leaves a name behind that is switched in the store alone. -/
theorem ensures_selectFrom (chosen names : List String) (s : ExtensionSet) :
    (selectFrom chosen names).Ensures (fun l r s' =>
      ¬ Faulty l ∧ (∃ changed, r = .ok changed) ∧ (∀ name, s'.copies name =
          if name ∈ names then (s.copies name).switch (chosen.contains name) else s.copies name) ∨
        Faulty l ∧ (∃ error, r = .error error) ∧ ∃ name ∈ names,
          (s.copies name).stored ≠ chosen.contains name ∧
            s'.copies name = (s.copies name).switchStored (chosen.contains name)) s := by
  induction names generalizing s with
  | nil => exact .inl ⟨faulty_nil, ⟨_, rfl⟩, by simp⟩
  | cons first rest ih =>
    simp only [selectFrom, Task.ensures_bind]
    refine (ensures_setActivated _ _ _).mono ?_
    rintro l r s' (⟨hfine, rfl, rfl⟩ | ⟨hfaulty, hother, rfl, error, rfl⟩)
    · simp only [Task.ensures_bind]
      refine (ih _).mono ?_
      rintro l' r s' (⟨hfine', ⟨changed, rfl⟩, hcopies⟩ |
        ⟨hfaulty, ⟨error, rfl⟩, name, hmem, hother, hcopies⟩)
      · refine .inl ⟨by simp [hfine, hfine'], ⟨_, rfl⟩, fun name => ?_⟩
        rw [hcopies, copies_withFlag]
        by_cases hfirst : first = name
        · subst hfirst
          simp
        · simp [hfirst, Ne.symm hfirst]
      · -- the first name is switched by now, so that it is another one that fails
        have hfirst : first ≠ name := by
          rintro rfl
          simp [copies_withFlag] at hother
        rw [copies_withFlag, if_neg hfirst] at hother hcopies
        exact .inr ⟨by simp [hfaulty], ⟨error, rfl⟩, name, .tail _ hmem, hother, hcopies⟩
    · refine .inr ⟨by simpa using hfaulty, ⟨error, rfl⟩, first, .head _, hother, ?_⟩
      rw [copies_recorded, if_pos rfl]

/-! ## Histories of a set -/

/-- What is asked of a set of extensions. -/
inductive Deed where
  | replace (reported : List (String × List String))
  | setActivated (name : String) (flag : Bool)
  | select (chosen : List String)

/-- How it is done. -/
def Deed.task : Deed → Task ExtensionSet Unit
  | replace reported => Task.change fun s => s.replace reported
  | setActivated name flag => do let _ ← ExtensionSet.setActivated name flag
  | select chosen => do let _ ← ExtensionSet.select chosen

/-- A call strays if it switches an extension at one of its places only, or at none: the store
cannot be written, though the extension is listed, or the extension is listed more than once. -/
def Strays (e : Episode ExtensionSet Deed) : Prop :=
  match e.deed with
  | .replace _ => False
  | .setActivated name flag =>
    e.before.store.extensionActivated name ≠ flag ∧
      (Faulty e.trace ∧ 1 ≤ e.before.places name ∨ 2 ≤ e.before.places name)
  | .select chosen =>
    Faulty e.trace ∨ ∃ name, e.before.store.extensionActivated name ≠ chosen.contains name ∧
      2 ≤ e.before.places name

/-- No call strays that can write the store, where every extension is listed once. -/
theorem not_strays_of_nodup {e : Episode ExtensionSet Deed} (hfine : ¬ Faulty e.trace)
    (hnodup : (e.before.list.map (·.name)).Nodup) : ¬ Strays e := by
  have hplaces (name : String) : e.before.places name ≤ 1 := by
    rw [places_eq_count]
    exact List.nodup_iff_count.1 hnodup name
  obtain ⟨s, deed, l⟩ := e
  cases deed with
  | replace reported => simp [Strays]
  | setActivated name flag =>
    have hplace := hplaces name
    rintro ⟨-, ⟨hfaulty, -⟩ | htwice⟩
    · exact hfine hfaulty
    · omega
  | select chosen =>
    rintro (hfaulty | ⟨name, -, htwice⟩)
    · exact hfine hfaulty
    · have hplace := hplaces name
      omega

/-- From a set whose copies agree, they agree after a call exactly if it does not stray. -/
theorem Agrees.step {e : Episode ExtensionSet Deed} {s' : ExtensionSet} (h : e.before.Agrees)
    (hstep : e.deed.task.Yields e.before e.trace () s') : s'.Agrees ↔ ¬ Strays e := by
  obtain ⟨s, deed, l⟩ := e
  change s.Agrees at h
  cases deed with
  | replace reported =>
    have hreplaced : (Deed.replace reported).task.Ensures (fun _ _ s' => s'.Agrees) s :=
      agrees_replace s reported
    simpa [Strays] using hreplaced.yields hstep
  | setActivated name flag =>
    obtain ⟨r, hset⟩ := hstep.of_discarded
    rcases (ensures_setActivated name flag s).yields hset with
      ⟨hfine, rfl, -⟩ | ⟨hfaulty, hother, rfl, -⟩
    · rw [h.withFlag_iff]
      simp [Strays, show ¬ Faulty l from hfine]
    · rw [h.recorded_iff hother]
      have hfaulty : Faulty l := hfaulty
      simp only [Strays, hfaulty, ne_eq, hother, not_false_eq_true, true_and]
      omega
  | select chosen =>
    obtain ⟨r, hselect⟩ := hstep.of_discarded
    have hchoose : (select chosen).Ensures _ s := ensures_selectFrom chosen (s.list.map (·.name)) s
    rcases hchoose.yields hselect with
      ⟨hfine, -, hcopies⟩ | ⟨hfaulty, -, name, hmem, hother, hcopies⟩
    · have hfine : ¬ Faulty l := hfine
      simp only [Strays, hfine, false_or, not_exists]
      rw [agrees_iff]
      refine forall_congr' fun name => ?_
      rw [hcopies name]
      split
      · exact (h.copies name).switch_iff _
      · rename_i hunlisted
        have hplaces := places_eq_zero_iff.2 hunlisted
        exact iff_of_true (h.copies name) (by omega)
    · have hfaulty : Faulty l := hfaulty
      -- the name that failed is reported, so that its copies are not both empty
      have hparted : ¬ s'.Agrees := by
        intro hagree
        have hempty := hagree.copies name
        rw [hcopies, (h.copies name).switchStored_iff hother] at hempty
        exact places_eq_zero_iff.1 (by simp [places, hempty]) hmem
      simp [Strays, hfaulty, hparted]

/-- **Theorem (flags).** Through a history of a set, the listed flags are those of the store after
each call exactly if no call of it strays. -/
theorem agree_throughout_iff_not_strays {start s : ExtensionSet}
    {history : List (Episode ExtensionSet Deed)} (hstart : start.Agrees)
    (h : Lives Deed.task start history s) :
    (∀ e ∈ history, e.before.Agrees) ∧ s.Agrees ↔ ∀ e ∈ history, ¬ Strays e := by
  induction h with
  | fresh => simpa using hstart
  | @step history s s' deed l h hstep ih =>
    simp only [List.forall_mem_append, List.forall_mem_singleton, ← ih]
    constructor
    · rintro ⟨⟨hbefore, hs⟩, hs'⟩
      exact ⟨⟨hbefore, hs⟩, (hs.step hstep).1 hs'⟩
    · rintro ⟨⟨hbefore, hs⟩, hnot⟩
      exact ⟨⟨hbefore, hs⟩, (Agrees.step (e := ⟨s, deed, l⟩) hs hstep).2 hnot⟩

instance (s : ExtensionSet) : Decidable s.Agrees :=
  inferInstanceAs (Decidable (∀ e ∈ s.list, e.activated = s.store.extensionActivated e.name))

/-- A set that knows of no extension yet, on a store with a file. -/
def fresh : ExtensionSet := ⟨⟨some ⟨"/state/app.json"⟩, []⟩, []⟩

/-- Two extensions are reported, one of them is switched off, and then all are. -/
def switchingOff : List Deed :=
  [.replace [("rails", []), ("rspec", ["uninitialized constant"])], .setActivated "rails" false,
    .select []]

/-- What happens to a set so on a host on which everything succeeds. -/
def switchedOff : List (Episode ExtensionSet Deed) × ExtensionSet × Except RubyError Activation :=
  enact agreeable Deed.task switchingOff fresh (.error .rubyNotOnPath)

/-- The set is of one mind with its store all the time. -/
theorem switchedOff_agree :
    fresh.Agrees ∧ Lives Deed.task fresh switchedOff.1 switchedOff.2.1 ∧
      (∀ e ∈ switchedOff.1, e.before.Agrees) ∧ switchedOff.2.1.Agrees := by
  have hstart : fresh.Agrees := by decide
  have hlives : Lives Deed.task fresh switchedOff.1 switchedOff.2.1 :=
    Lives.enact_fresh agreeable Deed.task switchingOff fresh (.error .rubyNotOnPath)
  have hfine : ∀ e ∈ switchedOff.1, ∀ x ∈ e.trace, ¬ x.IsFailedWrite :=
    forall_enact (by rintro ⟨⟩ <;> exact fun _ _ => id) Deed.task switchingOff fresh _
  have hnodup : ∀ e ∈ switchedOff.1, (e.before.list.map (·.name)).Nodup := by decide +kernel
  refine ⟨hstart, hlives, (agree_throughout_iff_not_strays hstart hlives).2 fun e he => ?_⟩
  refine not_strays_of_nodup ?_ (hnodup e he)
  rintro ⟨x, hx, hfailed⟩
  exact hfine e he x hx hfailed

/-- A host on which no file can be written. -/
def obstructed (c : Call) (_ : ExtensionSet) (w : Unit) : c.Answer × Unit :=
  match c with
  | .writeFile .. => (.error .permissionDenied, w)
  | c => (agreed (.error .rubyNotOnPath) c, w)

/-- An extension that is switched while the store cannot be written is listed with the old flag. -/
theorem not_always_agree :
    ¬ ∀ (start s : ExtensionSet) (history : List (Episode ExtensionSet Deed)),
      start.Agrees → Lives Deed.task start history s → s.Agrees := by
  intro h
  have hagree := h fresh _ _ (by decide) (Lives.enact_fresh obstructed Deed.task
    [.replace [("rails", [])], .setActivated "rails" false] fresh ())
  revert hagree
  decide +kernel

/-- An extension that is reported twice is listed with both flags once it is switched. -/
example : ¬ (enact agreeable Deed.task
    [.replace [("rails", []), ("rails", [])], .setActivated "rails" false] fresh
    (.error .rubyNotOnPath)).2.1.Agrees := by
  decide +kernel

/-- The names of the extensions that were reported. -/
def names (s : ExtensionSet) : List String := s.list.map Extension.name

/-! ## Switching one extension -/

theorem map_name_switched (name : String) (flag : Bool) (l : List Extension) :
    (switched name flag l).map Extension.name = l.map Extension.name := by
  induction l with
  | nil => rfl
  | cons e rest ih =>
    by_cases hname : e.name = name
    · simp [switched, hname]
    · simp [switched, hname, ih]

section WithFlag

variable (s : ExtensionSet) (name : String) (flag : Bool)

theorem names_withFlag : (s.withFlag name flag).names = s.names := by
  by_cases hflag : s.store.extensionActivated name = flag
  · rw [withFlag, if_pos hflag]
  · rw [withFlag, if_neg hflag]
    exact map_name_switched name flag s.list

theorem extensionActivated_withFlag (other : String) :
    (s.withFlag name flag).store.extensionActivated other =
      if name = other then flag else s.store.extensionActivated other := by
  by_cases hflag : s.store.extensionActivated name = flag
  · rw [withFlag, if_pos hflag]
    by_cases hother : name = other
    · rw [if_pos hother, ← hother, hflag]
    · rw [if_neg hother]
  · rw [withFlag, if_neg hflag]
    exact Store.extensionActivated_insert s.store name flag other

/-- Switching an extension touches its flag alone. -/
theorem get?_withFlag {key : String} (hkey : key ≠ Store.extensionKey name) :
    (s.withFlag name flag).store.get? key = s.store.get? key := by
  by_cases hflag : s.store.extensionActivated name = flag
  · rw [withFlag, if_pos hflag]
  · rw [withFlag, if_neg hflag]
    have hinsert := Store.get?_insert s.store (Store.extensionKey name) (.bool flag) key
    rwa [if_neg (Ne.symm hkey)] at hinsert

end WithFlag

/-- An operation that calls nobody, changes nothing and says so. -/
def Idle (task : Task ExtensionSet (Except RubyError Bool)) (s : ExtensionSet) : Prop :=
  task.Ensures (fun l r s' => l = [] ∧ r = .ok false ∧ s' = s) s

/-- An extension that is switched as it should be is left alone. -/
theorem idle_setActivated {s : ExtensionSet} {name : String} {flag : Bool}
    (h : s.store.extensionActivated name = flag) : Idle (setActivated name flag) s := by
  simp only [Idle, setActivated, Task.ensures_bind, Task.ensures_get]
  rw [if_pos h]
  exact ⟨rfl, rfl, rfl⟩

/-- However an extension was switched, switching it again does nothing: a flag that could not be
written is not written then either. -/
theorem idle_setActivated_again {s s' : ExtensionSet} {name : String} {flag : Bool}
    {l : List Exchange} {r : Except RubyError Bool} (h : (setActivated name flag).Yields s l r s') :
    Idle (setActivated name flag) s' := by
  apply idle_setActivated
  rcases (ensures_setActivated name flag s).yields h with ⟨-, rfl, -⟩ | ⟨-, -, rfl, -⟩
  · rw [extensionActivated_withFlag, if_pos rfl]
  · have hinsert := Store.extensionActivated_insert s.store name flag name
    rwa [if_pos rfl] at hinsert

/-! ## Choosing among several -/

/-- Some extensions are switched as they are chosen, and the store has everything else as it had it.
-/
structure Settles (chosen names : List String) (s s' : ExtensionSet) : Prop where
  flags : ∀ name ∈ names, s'.store.extensionActivated name = chosen.contains name
  others : ∀ key, (∀ name ∈ names, key ≠ Store.extensionKey name) →
    s'.store.get? key = s.store.get? key
  names_eq : s'.names = s.names

/-- The flags of all other extensions are among what stays. -/
theorem Settles.extensionActivated {chosen names : List String} {s s' : ExtensionSet}
    (h : Settles chosen names s s') {name : String} (hname : name ∉ names) :
    s'.store.extensionActivated name = s.store.extensionActivated name := by
  have hkey : s'.store.get? (Store.extensionKey name) = s.store.get? (Store.extensionKey name) := by
    refine h.others _ fun other hother hsame => ?_
    rw [Store.extensionKey_inj] at hsame
    exact hname (hsame ▸ hother)
  rw [Store.extensionActivated, Store.extensionActivated, hkey]

/-- One more extension may be switched before the others. -/
theorem Settles.cons {chosen rest : List String} {first : String} {s s' : ExtensionSet}
    (h : Settles chosen rest (s.withFlag first (chosen.contains first)) s') :
    Settles chosen (first :: rest) s s' := by
  refine ⟨fun name hname => ?_, fun key hkey => ?_, ?_⟩
  · by_cases hrest : name ∈ rest
    · exact h.flags name hrest
    · obtain rfl : name = first := (List.mem_cons.1 hname).resolve_right hrest
      rw [h.extensionActivated hrest, extensionActivated_withFlag, if_pos rfl]
  · rw [h.others key fun name hname => hkey name (.tail _ hname)]
    exact get?_withFlag s first _ (hkey first (.head _))
  · rw [h.names_eq, names_withFlag]

/-- One of some extensions is not switched as it is chosen. -/
def Deviates (chosen names : List String) (s : ExtensionSet) : Prop :=
  ∃ name ∈ names, s.store.extensionActivated name ≠ chosen.contains name

/-- When the first of them is switched, the others deviate as before, except for its own further
mentions. -/
theorem deviates_cons_iff {chosen rest : List String} {first : String} {s : ExtensionSet} :
    Deviates chosen (first :: rest) s ↔
      s.store.extensionActivated first ≠ chosen.contains first ∨
        Deviates chosen rest (s.withFlag first (chosen.contains first)) := by
  by_cases hfirst : s.store.extensionActivated first = chosen.contains first
  · have hsame : s.withFlag first (chosen.contains first) = s := by rw [withFlag, if_pos hfirst]
    rw [hsame, Deviates, Deviates]
    simp [hfirst]
  · exact iff_of_true ⟨first, .head _, hfirst⟩ (.inl hfirst)

/-- A choice that ends well settles the names that it goes through, and says whether any of them
deviated. -/
theorem ensures_selectFrom_settles (chosen names : List String) (s : ExtensionSet) :
    (selectFrom chosen names).Ensures (fun _ r s' => ∀ changed, r = .ok changed →
      Settles chosen names s s' ∧ (changed = true ↔ Deviates chosen names s)) s := by
  induction names generalizing s with
  | nil =>
    rintro changed ⟨⟩
    exact ⟨⟨nofun, fun _ _ => rfl, rfl⟩, by simp [Deviates]⟩
  | cons first rest ih =>
    simp only [selectFrom, Task.ensures_bind]
    refine (ensures_setActivated _ _ _).mono ?_
    rintro l r s₁ (⟨-, rfl, rfl⟩ | ⟨-, -, -, error, rfl⟩)
    · simp only [Task.ensures_bind]
      refine (ih _).mono ?_
      -- a later name that fails makes the whole choice fail, of which nothing is claimed
      rintro l' (error | changedLater) s' hrest changed hchanged
      · cases hchanged
      · obtain rfl := Except.ok.inj hchanged
        obtain ⟨hsettles, hlater⟩ := hrest changedLater rfl
        refine ⟨hsettles.cons, ?_⟩
        rw [Bool.or_eq_true, bne_iff_ne, hlater, deviates_cons_iff]
    · rintro changed ⟨⟩

/-- Where no extension deviates, there is nothing to do. -/
theorem idle_selectFrom {chosen names : List String} {s : ExtensionSet}
    (h : ¬ Deviates chosen names s) : Idle (selectFrom chosen names) s := by
  induction names with
  | nil => exact ⟨rfl, rfl, rfl⟩
  | cons first rest ih =>
    have hfirst : s.store.extensionActivated first = chosen.contains first :=
      Decidable.of_not_not fun hne => h ⟨first, .head _, hne⟩
    have hrest : ¬ Deviates chosen rest s := fun ⟨name, hname, hne⟩ => h ⟨name, .tail _ hname, hne⟩
    simp only [Idle, selectFrom, Task.ensures_bind]
    refine (idle_setActivated hfirst).mono ?_
    rintro l r s' ⟨rfl, rfl, rfl⟩
    simp only [Task.ensures_bind]
    refine (ih hrest).mono ?_
    rintro l r s' ⟨rfl, rfl, rfl⟩
    exact ⟨rfl, rfl, rfl⟩

/-- **Theorem (a choice).** When a choice ends well, a reported extension is activated exactly if it
is chosen. Every value of the store that is not the flag of a reported extension is what it was, so
that nothing is recorded of chosen names that were not reported. The answer says whether a reported
extension was activated without being chosen before, or chosen without being activated. Made again,
the choice does nothing. -/
theorem select_exact {chosen : List String} {s s' : ExtensionSet} {l : List Exchange}
    {changed : Bool} (h : (select chosen).Yields s l (.ok changed) s') :
    (∀ name ∈ s.names, s'.store.extensionActivated name = true ↔ name ∈ chosen) ∧
      (∀ key, (∀ name ∈ s.names, key ≠ Store.extensionKey name) →
        s'.store.get? key = s.store.get? key) ∧
      (∀ name ∈ chosen, name ∉ s.names →
        s'.store.get? (Store.extensionKey name) = s.store.get? (Store.extensionKey name)) ∧
      (changed = true ↔
        ∃ name ∈ s.names, ¬ (s.store.extensionActivated name = true ↔ name ∈ chosen)) ∧
      Idle (select chosen) s' := by
  have hselect : (select chosen).Ensures _ s := ensures_selectFrom_settles chosen s.names s
  obtain ⟨hsettles, hchanged⟩ := hselect.yields h changed rfl
  refine ⟨fun name hname => ?_, hsettles.others, fun name _ hname => ?_, ?_, ?_⟩
  · rw [hsettles.flags name hname, List.contains_iff_mem]
  · refine hsettles.others _ fun other hother hsame => ?_
    rw [Store.extensionKey_inj] at hsame
    exact hname (hsame ▸ hother)
  · rw [hchanged]
    refine exists_congr fun name => and_congr_right fun _ => not_congr ?_
    rw [← List.contains_iff_mem, Bool.eq_iff_iff]
  · have hagain : ¬ Deviates chosen s'.names s' := by
      rintro ⟨name, hname, hother⟩
      rw [hsettles.names_eq] at hname
      exact hother (hsettles.flags name hname)
    exact idle_selectFrom hagain

/-- A set with an extension that is reported twice, one that is switched off, and one whose flag is
no truth value. -/
def mixedSet : ExtensionSet :=
  ⟨⟨some ⟨"/state/app.json"⟩,
      [("extensions.rspec.activated", .bool false), ("extensions.slim.activated", .int 0)]⟩,
    [⟨"rails", [], true⟩, ⟨"rspec", [], false⟩, ⟨"rails", [], true⟩, ⟨"slim", [], true⟩]⟩

/-- Choosing among them, a name that was not reported included, where everything succeeds. -/
def chosenSet : Except RubyError Bool × ExtensionSet × Except RubyError Activation :=
  (select ["rspec", "slim", "haml"]).run agreeable mixedSet (.error .rubyNotOnPath)

/-- The choice is what is in the store afterwards, and nothing else is. -/
theorem chosenSet_settled :
    (∃ l, (select ["rspec", "slim", "haml"]).Yields mixedSet l (.ok true) chosenSet.2.1) ∧
      chosenSet.2.1.store.extensionActivated "rails" = false ∧
      chosenSet.2.1.store.extensionActivated "rspec" = true ∧
      chosenSet.2.1.store.get? (Store.extensionKey "haml") = none ∧
      Idle (select ["rspec", "slim", "haml"]) chosenSet.2.1 := by
  have hok : chosenSet.1.toOption = some true := by decide +kernel
  have hrun : (select ["rspec", "slim", "haml"]).Yields mixedSet _ (.ok true) chosenSet.2.1 :=
    Task.yields_of_toOption hok
  obtain ⟨hflags, -, hunknown, -, hagain⟩ := select_exact hrun
  have hrails := hflags "rails" (by decide)
  have hrspec := hflags "rspec" (by decide)
  have hhaml := hunknown "haml" (by decide) (by decide)
  refine ⟨⟨_, hrun⟩, ?_, hrspec.2 (by decide), ?_, hagain⟩
  · exact Bool.eq_false_iff.2 fun htrue => absurd (hrails.1 htrue) (by decide)
  · exact hhaml.trans (by decide +kernel)

end RubySupervisor.ExtensionSet
