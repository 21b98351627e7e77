import RubySupervisor.Proofs.Files.Naming
import RubySupervisor.Proofs.Files.Walking

/-!
# Making directories

Directories are made where nothing was, and nothing else changes. When a path without steps that
lead back has led nowhere, the directory that it leads to afterwards is empty.
-/

namespace RubySupervisor

namespace Path

/-- A path that the files are asked for: it names something and is not too long. -/
structure Admissible (p : Path) : Prop where
  no_nul : p.text.toList.contains '\x00' = false
  ne_empty : p.text ≠ ""
  size : p.text.utf8ByteSize ≤ 4095

/-- What is above a path above has some of its first steps. -/
theorem exists_of_suffix_ancestorsUpTo {n : Nat} {p : Path} {above : List Path}
    (h : above <:+ ancestorsUpTo n p) :
    above = [] ∨ ∃ m q, above = ancestorsUpTo m q ∧ q.isAbsolute = p.isAbsolute ∧
      FileTree.steps q.text <+: FileTree.steps p.text := by
  have hself (h : above = ancestorsUpTo n p) : ∃ m q, above = ancestorsUpTo m q ∧
      q.isAbsolute = p.isAbsolute ∧ FileTree.steps q.text <+: FileTree.steps p.text :=
    ⟨n, p, h, rfl, List.prefix_rfl⟩
  -- on the ancestors, the path itself being the first of them
  induction n generalizing p with
  | zero =>
    rcases List.suffix_cons_iff.1 h with rfl | h
    · exact .inr (hself rfl)
    · exact .inl (List.suffix_nil.1 h)
  | succ n ih =>
    cases hparent : p.parent? with
    | none =>
      rw [ancestorsUpTo, hparent] at h hself
      rcases List.suffix_cons_iff.1 h with rfl | h
      · exact .inr (hself rfl)
      · exact .inl (List.suffix_nil.1 h)
    | some q =>
      rw [ancestorsUpTo, hparent] at h hself
      rcases List.suffix_cons_iff.1 h with rfl | h
      · exact .inr (hself rfl)
      · refine (ih h fun heq => ⟨n, q, heq, rfl, List.prefix_rfl⟩).imp_right ?_
        rintro ⟨m, r, rfl, habsolute, hsteps⟩
        obtain ⟨hsame, hlast⟩ := steps_of_parent? hparent
        refine ⟨m, r, rfl, habsolute.trans hsame, hsteps.trans ?_⟩
        rcases hlast with ⟨last, hlast⟩ | ⟨hnil, hnil'⟩
        · exact ⟨[last], hlast.symm⟩
        · exact hnil'.trans hnil.symm ▸ List.prefix_rfl

end Path

namespace FileTree

variable {t t' : FileTree} {p : Path}

/-- Where the steps of a path begin. -/
def start (t : FileTree) (p : Path) : Location := if p.isAbsolute then [] else t.origin

/-- A path is looked at before its steps are taken. -/
theorem follow_eq_ite (t : FileTree) (last : Bool) (p : Path) :
    t.follow last p =
      if p.text.toList.contains '\x00' then .error .nulInName
      else if p.text = "" then .error .notFound
      else if 4095 < p.text.utf8ByteSize then .error .nameTooLong
      else t.walk last linkLimit (Asking.of p.text) (t.start p) (steps p.text) := by
  by_cases hnul : p.text.toList.contains '\x00' = true <;>
    by_cases hempty : p.text = "" <;>
    by_cases hsize : 4095 < p.text.utf8ByteSize <;>
    simp only [follow, hnul, hempty, hsize, start] <;> rfl

theorem follow_eq (h : p.Admissible) (t : FileTree) (last : Bool) :
    t.follow last p = t.walk last linkLimit (Asking.of p.text) (t.start p) (steps p.text) := by
  rw [follow_eq_ite, h.no_nul, if_neg Bool.false_ne_true, if_neg h.ne_empty,
    if_neg (Nat.not_lt.2 h.size)]

theorem admissible_of_follow {last : Bool} {r : Resolved × Asking} (h : t.follow last p = .ok r) :
    p.Admissible := by
  rw [follow_eq_ite] at h
  split at h
  · cases h
  · next hnul =>
    split at h
    · cases h
    · next hempty =>
      split at h
      · cases h
      · next hsize => exact ⟨Bool.eq_false_iff.2 hnul, hempty, Nat.not_lt.1 hsize⟩

theorem walk_of_follow {last : Bool} {r : Resolved × Asking} (h : t.follow last p = .ok r) :
    t.walk last linkLimit (Asking.of p.text) (t.start p) (steps p.text) = .ok r := by
  rw [← follow_eq (admissible_of_follow h), h]

theorem Grounded.start (h : t.Grounded) (p : Path) : t.entry? (t.start p) = some .directory := by
  unfold FileTree.start
  split
  · exact entry?_nil t
  · exact h.origin

/-! ## Trees with more directories -/

/-- A tree has grown out of another one: directories have been made where nothing was. -/
structure Grown (t t' : FileTree) : Prop where
  grounded : t'.Grounded
  origin : t'.origin = t.origin
  entry : ∀ at_, t'.entry? at_ = t.entry? at_ ∨
    t.entry? at_ = none ∧ t'.entry? at_ = some .directory

namespace Grown

theorem refl (h : t.Grounded) : t.Grown t := ⟨h, rfl, fun _ => .inl rfl⟩

theorem trans {t'' : FileTree} (h : t.Grown t') (h' : t'.Grown t'') : t.Grown t'' where
  grounded := h'.grounded
  origin := h'.origin.trans h.origin
  entry at_ := by
    rcases h.entry at_ with hold | ⟨hnone, hmade⟩ <;>
      rcases h'.entry at_ with hold' | ⟨hnone', hmade'⟩
    · exact .inl (hold'.trans hold)
    · exact .inr ⟨hold ▸ hnone', hmade'⟩
    · exact .inr ⟨hnone, hold'.trans hmade⟩
    · exact .inr ⟨hnone, hmade'⟩

/-- What was there is there. -/
theorem entry_of_some (h : t.Grown t') {at_ : Location} {entry : Entry}
    (hat : t.entry? at_ = some entry) : t'.entry? at_ = some entry := by
  rcases h.entry at_ with hold | ⟨hnone, -⟩
  · rw [hold, hat]
  · cases hat.symm.trans hnone

theorem keeps (h : t.Grown t') : t.Keeps t' :=
  ⟨fun _ => h.entry_of_some, fun _ _ => h.entry_of_some⟩

/-- Whatever is no directory was there. -/
theorem entry_of_ne_directory (h : t.Grown t') {at_ : Location}
    (hat : t'.entry? at_ ≠ some .directory) : t'.entry? at_ = t.entry? at_ :=
  (h.entry at_).resolve_right fun hmade => hat hmade.2

theorem start_eq (h : t.Grown t') (p : Path) : t'.start p = t.start p := by
  unfold FileTree.start
  rw [h.origin]

/-- Where nothing was, the steps lead on through what has been made. -/
theorem leads (h : t.Grown t') (ht : t.Grounded) {links left : Nat} {place goal : Location}
    {name : String} {rest : List String} (hfree : t.entry? (place ++ [name]) = none)
    (hup : ".." ∉ name :: rest) (hleads : t'.Leads links place (name :: rest) goal left) :
    goal = place ++ name :: rest := by
  -- what is new are directories, so that the steps never go along a link
  induction rest generalizing place name with
  | nil =>
    cases hleads with
    | up => exact absurd (.head _) hup
    | down _ _ _ hleads =>
      cases hleads
      rfl
    | along _ _ hentry =>
      rcases h.entry (place ++ [name]) with hold | ⟨-, hmade⟩
      · cases hfree.symm.trans (hold.symm.trans hentry)
      · cases hmade.symm.trans hentry
  | cons next rest ih =>
    cases hleads with
    | up => exact absurd (.head _) hup
    | down _ _ _ hleads =>
      have hbelow : t.entry? (place ++ [name] ++ [next]) = none :=
        ht.entry?_below (by rw [hfree]; exact nofun) (List.cons_ne_nil _ _)
      rw [ih hbelow (fun hrest => hup (.tail _ hrest)) hleads, List.append_assoc]
      rfl
    | along _ _ hentry =>
      rcases h.entry (place ++ [name]) with hold | ⟨-, hmade⟩
      · cases hfree.symm.trans (hold.symm.trans hentry)
      · cases hmade.symm.trans hentry

end Grown

/-- A directory is made under a free name, where the steps in front of it lead. -/
theorem exists_of_makeDirectory (h : t.makeDirectory p = .ok t') :
    ∃ front name goal left, steps p.text = front ++ [name] ∧
      t.Leads linkLimit (t.start p) front goal left ∧ t.entry? (goal ++ [name]) = none ∧
      t' = t.set (goal ++ [name]) .directory := by
  obtain ⟨habsolute, hsteps, hasking⟩ := Path.withoutEnd_spec p
  unfold makeDirectory at h
  cases hfollow : t.follow false (withoutEnd p) with
  | error e => simp [hfollow, bind, Except.bind] at h
  | ok r =>
    obtain ⟨resolved, asked⟩ := r
    have hwalk := walk_of_follow hfollow
    rw [hsteps] at hwalk
    have hstart : t.start (withoutEnd p) = t.start p := by rw [start, start, habsolute]
    cases resolved with
    | found at_ entry => simp [hfollow, bind, Except.bind] at h
    | absent at_ =>
      -- a path that ends in a step up or in a dot names no new place
      have hasked : asked ≠ .step := by
        rintro rfl
        simp [hfollow, bind, Except.bind] at h
      obtain ⟨front, name, goal, left, hfront, -, hleads, hentry, rfl⟩ :=
        leads_of_walk_absent hasking hwalk hasked
      have hset : t' = t.set (goal ++ [name]) .directory := by
        cases asked with
        | nothing | separator =>
          simp only [hfollow, bind, Except.bind] at h
          exact (Except.ok.inj h).symm
        | step => exact absurd rfl hasked
      exact ⟨front, name, goal, left, hfront, hstart ▸ hleads, hentry, hset⟩

theorem grown_of_makeDirectory (ht : t.Grounded) (h : t.makeDirectory p = .ok t') : t.Grown t' := by
  obtain ⟨front, name, goal, left, -, hleads, hentry, rfl⟩ := exists_of_makeDirectory h
  have hgoal := hleads.directory ht (ht.start p)
  refine ⟨ht.set goal name .directory hgoal (by rw [hentry]; exact nofun), rfl, fun at_ => ?_⟩
  by_cases hat : at_ = goal ++ [name]
  · subst hat
    exact .inr ⟨hentry, entry?_set_self _ (by simp)⟩
  · exact .inl (entry?_set_of_ne _ hat)

theorem ensureDirectory_cases (h : t.ensureDirectory p = .ok t') :
    t' = t ∨ t.makeDirectory p = .ok t' := by
  unfold ensureDirectory at h
  split at h
  · split at h
    · exact .inl (Except.ok.inj h).symm
    · cases h
  · exact .inr h

/-- Directories are made one behind the other, those above first. -/
theorem makeUpwards_cases {above : List Path} (h : t.makeUpwards (p :: above) = .ok t') :
    t' = t ∨ t.makeDirectory p = .ok t' ∨
      ∃ between, t.makeUpwards above = .ok between ∧
        (t' = between ∨ between.makeDirectory p = .ok t') := by
  rw [makeUpwards] at h
  split at h
  · exact .inl (Except.ok.inj h).symm
  · split at h
    · cases habove : t.makeUpwards above with
      | error e => simp [habove, bind, Except.bind] at h
      | ok between =>
        rw [habove] at h
        exact .inr (.inr ⟨between, rfl, ensureDirectory_cases h⟩)
    · exact (ensureDirectory_cases h).imp_right .inl

theorem grown_of_makeUpwards {above : List Path} (ht : t.Grounded)
    (h : t.makeUpwards above = .ok t') : t.Grown t' := by
  induction above generalizing t' with
  | nil =>
    obtain rfl := Except.ok.inj h
    exact .refl ht
  | cons p above ih =>
    rcases makeUpwards_cases h with rfl | hmade | ⟨between, habove, rfl | hmade⟩
    · exact .refl ht
    · exact grown_of_makeDirectory ht hmade
    · exact ih habove
    · have hgrown := ih habove
      exact hgrown.trans (grown_of_makeDirectory hgrown.grounded hmade)

/-- What is new stands behind the place to which the first steps of a path led, and nothing was
there from the next of its names on. -/
def NewAlong (t : FileTree) (p : Path) (t' : FileTree) : Prop :=
  ∃ front name rest goal left, steps p.text = front ++ name :: rest ∧
    t.Leads linkLimit (t.start p) front goal left ∧ t.entry? (goal ++ [name]) = none ∧
    ∀ at_, t'.entry? at_ = t.entry? at_ ∨ at_ <+: goal ++ name :: rest

theorem newAlong_of_makeDirectory (h : t.makeDirectory p = .ok t') : t.NewAlong p t' := by
  obtain ⟨front, name, goal, left, hsteps, hleads, hentry, rfl⟩ := exists_of_makeDirectory h
  refine ⟨front, name, [], goal, left, hsteps, hleads, hentry, fun at_ => ?_⟩
  by_cases hat : at_ = goal ++ [name]
  · exact .inr (hat ▸ List.prefix_rfl)
  · exact .inl (entry?_set_of_ne _ hat)

theorem newAlong_of_makeUpwards_alone (h : t.makeUpwards [p] = .ok t') :
    t' = t ∨ t.NewAlong p t' := by
  rcases makeUpwards_cases h with rfl | hmade | ⟨between, habove, hmade⟩
  · exact .inl rfl
  · exact .inr (newAlong_of_makeDirectory hmade)
  · obtain rfl := Except.ok.inj habove
    exact hmade.imp_right newAlong_of_makeDirectory

/-- What is new along a path is new along the one that goes a step further, and so is a directory
that is made at its end. -/
theorem NewAlong.further {q : Path} {between : FileTree} {last : String}
    (hnew : t.NewAlong q between) (hgrown : t.Grown between) (ht : t.Grounded)
    (hup : ".." ∉ steps q.text) (hstart : t.start q = t.start p)
    (hlast : steps p.text = steps q.text ++ [last])
    (hmade : t' = between ∨ between.makeDirectory p = .ok t') : t.NewAlong p t' := by
  obtain ⟨front, name, rest, goal, left, hfront, hleads, hfree, hnew⟩ := hnew
  refine ⟨front, name, rest ++ [last], goal, left, ?_, hstart ▸ hleads, hfree, fun at_ => ?_⟩
  · rw [hlast, hfront, List.append_assoc, List.cons_append]
  have hlonger : goal ++ name :: rest <+: goal ++ name :: (rest ++ [last]) := ⟨[last], by simp⟩
  rcases hmade with rfl | hmade
  · exact (hnew at_).imp_right fun hat => hat.trans hlonger
  -- the last one is made in the directory that has been made before it
  obtain ⟨front', name', goal', left', hsteps', hleads', hfree', rfl⟩ :=
    exists_of_makeDirectory hmade
  obtain ⟨rfl, hname'⟩ := List.append_inj' (hsteps'.symm.trans hlast) rfl
  obtain rfl : name' = last := by simpa using hname'
  rw [hgrown.start_eq, ← hstart, hfront] at hleads'
  obtain ⟨middle, remaining, hfirst, hsecond⟩ := hleads'.split
  obtain ⟨rfl, -⟩ := hfirst.unique (hleads.mono hgrown.keeps)
  have hgoal' := hgrown.leads ht hfree
    (fun hmem => hup (hfront ▸ List.mem_append_right _ hmem)) hsecond
  subst hgoal'
  by_cases hat : at_ = middle ++ name :: rest ++ [name']
  · exact .inr (by rw [hat]; exact ⟨[], by simp⟩)
  · rw [entry?_set_of_ne _ hat]
    exact (hnew at_).imp_right fun hat => hat.trans hlonger

theorem newAlong_of_makeUpwards {n : Nat} (ht : t.Grounded) (hup : ".." ∉ steps p.text)
    (h : t.makeUpwards (Path.ancestorsUpTo n p) = .ok t') : t' = t ∨ t.NewAlong p t' := by
  induction n generalizing p t' with
  | zero => exact newAlong_of_makeUpwards_alone h
  | succ n ih =>
    cases hparent : p.parent? with
    | none =>
      rw [Path.ancestorsUpTo, hparent] at h
      exact newAlong_of_makeUpwards_alone h
    | some q =>
      rw [Path.ancestorsUpTo, hparent] at h
      obtain ⟨habsolute, hsteps⟩ := Path.steps_of_parent? hparent
      rcases makeUpwards_cases h with rfl | hmade | ⟨between, habove, hmade⟩
      -- either it is there already, or it is made by itself, or after what is above it
      · exact .inl rfl
      · exact .inr (newAlong_of_makeDirectory hmade)
      have hup' : ".." ∉ steps q.text := by
        rcases hsteps with ⟨last, hlast⟩ | ⟨-, hnil⟩
        · exact fun hmem => hup (hlast ▸ List.mem_append_left _ hmem)
        · rw [hnil]
          exact List.not_mem_nil
      rcases ih hup' habove with rfl | hnew
      · exact hmade.imp_right newAlong_of_makeDirectory
      obtain ⟨last, hlast⟩ : ∃ last, steps p.text = steps q.text ++ [last] := by
        rcases hsteps with hlast | ⟨-, hnil⟩
        · exact hlast
        · obtain ⟨front, name, rest, -, -, hfront, -⟩ := hnew
          simp [hnil] at hfront
      have hstart : t.start q = t.start p := by rw [start, start, habsolute]
      exact .inr (hnew.further (grown_of_makeUpwards ht habove) ht hup' hstart hlast hmade)

/-- Where a path led nowhere before directories were made above it, nothing is in the directory to
which it leads now. -/
theorem entry?_of_new_directory {n left : Nat} {above : List Path} {goal : Location} {name : String}
    (ht : t.Grounded) (hup : ".." ∉ steps p.text) (habove : above <:+ Path.ancestorsUpTo n p)
    (h : t.makeUpwards above = .ok t')
    (hnowhere : ∀ goal left, ¬ t.Leads linkLimit (t.start p) (steps p.text) goal left)
    (hleads : t'.Leads linkLimit (t.start p) (steps p.text) goal left) :
    t'.entry? (goal ++ [name]) = none := by
  rcases Path.exists_of_suffix_ancestorsUpTo habove with rfl | ⟨m, q, rfl, habsolute, more, hmore⟩
  · obtain rfl := Except.ok.inj h
    exact absurd hleads (hnowhere _ _)
  have hstart : t.start q = t.start p := by rw [start, start, habsolute]
  have hup' : ".." ∉ steps q.text := fun hmem => hup (hmore ▸ List.mem_append_left _ hmem)
  rcases newAlong_of_makeUpwards ht hup' h with
    rfl | ⟨front, first, rest, middle, remaining, hfront, hway, hfree, hnew⟩
  · exact absurd hleads (hnowhere _ _)
  have hgrown := grown_of_makeUpwards ht h
  have hsteps : steps p.text = front ++ first :: (rest ++ more) := by
    rw [← hmore, hfront, List.append_assoc, List.cons_append]
  rw [hsteps] at hleads
  obtain ⟨middle', remaining', hfirst, hsecond⟩ := hleads.split
  obtain ⟨rfl, -⟩ := hfirst.unique ((hstart ▸ hway).mono hgrown.keeps)
  obtain rfl := hgrown.leads ht hfree
    (fun hmem => hup (hsteps ▸ List.mem_append_right _ hmem)) hsecond
  -- the new directory is below a place that was free, so that nothing was under it
  have hbelow : t.entry? (middle' ++ first :: (rest ++ more) ++ [name]) = none := by
    have hsplit : middle' ++ first :: (rest ++ more) ++ [name] =
        middle' ++ [first] ++ (rest ++ more ++ [name]) := by simp
    rw [hsplit]
    exact ht.entry?_below (by rw [hfree]; exact nofun) (by simp)
  rcases hnew (middle' ++ first :: (rest ++ more) ++ [name]) with hold | hprefix
  · rw [hold, hbelow]
  · have hlength := hprefix.length_le
    simp only [List.length_append, List.length_cons, List.length_nil] at hlength
    omega

end FileTree

end RubySupervisor
