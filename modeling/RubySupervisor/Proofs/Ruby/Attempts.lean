import RubySupervisor.Proofs.Ruby.Remembering

/-!
# What an attempt leaves in the store

A Ruby is remembered as soon as it is taken, before its interpreter is asked and its environment is
built. So an attempt that fails afterwards leaves it there. What an attempt takes can be read off its
first exchanges: a discovery, or a choice of the user for a declared version. An attempt that takes
nothing leaves the store as it was.
-/

namespace RubySupervisor.Resolution

/-- An attempt at an environment. -/
inductive Attempt where
  | activate
  | changeVersion

/-- How it is made. -/
def Attempt.task (o : ResolutionOptions) :
    Attempt → Task Store (Except RubyError RuntimeEnvironment)
  | activate => Resolution.activate o
  | changeVersion => Resolution.changeVersion o

/-- The directory of the Ruby that the user chooses next, with the files that are shown then. -/
def choice? : List Exchange → Option (FileTree × Path)
  | ⟨.chooseInstallation _, some selected⟩ :: ⟨.files, files⟩ :: _ =>
    some (files, Installation.binDirectory files selected)
  | _ => none

/-- The Ruby that an attempt takes in its exchanges and that is remembered from then on: one that is
discovered, or one that the user chooses for a declared version. -/
def taken? (o : ResolutionOptions) (s : Store) : Attempt → List Exchange → Option RememberedRuby
  | .activate, ⟨.files, files⟩ :: l =>
    if Unremembered o s files then
      (discovered? o files).or do
        let version ← declaredVersion? o files
        let (_, rubyBin) ← choice? l
        return ⟨version, rubyBin⟩
    else none
  | .activate, _ => none
  | .changeVersion, l => do
    let (files, rubyBin) ← choice? l
    let declared ← (Declaration.read files o.directory o.home).toOption
    return ⟨declared.version, rubyBin⟩

/-- A store with a Ruby, if there is one to remember. -/
def withRuby? (ruby? : Option RememberedRuby) (s : Store) : Store :=
  ruby?.elim s (withRuby · s)

section Attempt

variable {o : ResolutionOptions} {s s' : Store} {l : List Exchange}

/-- Building an environment leaves the store alone. -/
theorem steady_activateWith (o : ResolutionOptions) (rubyBin : Path) :
    (activateWith o rubyBin).Steady id := by
  refine (Task.steady_ask _).bind fun answer => ?_
  split
  · exact Task.steady_pure _
  · exact (Task.steady_ask _).bind fun _ => Task.steady_pure _

/-- Finding a Ruby leaves in the store the one that is taken, whatever follows. -/
theorem Finding.eq_withRuby? {r : Except RubyError Path} (h : Finding o s l r s')
    (rest : List Exchange) : s' = withRuby? (taken? o s .activate (l ++ rest)) s := by
  cases h with
  | onPath hmanager =>
    simp [taken?, withRuby?, discovered?, declaredVersion?, hmanager]
  | reused hremembered hreusable =>
    have hnot : ¬ Unremembered o s _ := fun hunremembered =>
      hunremembered _ hremembered hreusable
    simp [taken?, withRuby?, hnot]
  | discovered hunremembered hfound hwrites =>
    simp [taken?, withRuby?, hunremembered, hfound]
  | configured hunremembered hfails hpath =>
    simp [taken?, withRuby?, hfails.discovered?_eq_none, choice?]
  | declined hunremembered hfails hnone =>
    simp [taken?, withRuby?, hfails.discovered?_eq_none, choice?]
  | chosen hunremembered hfails hnone =>
    simp [taken?, withRuby?, hfails.discovered?_eq_none, hfails.declaredVersion?_eq]
  | kept hunremembered hfails hnone hwrites =>
    simp [taken?, withRuby?, hunremembered, hfails.discovered?_eq_none,
      hfails.declaredVersion?_eq, choice?]

theorem ensures_activate_taken (o : ResolutionOptions) (s : Store) :
    (activate o).Ensures (fun l _ s' => s' = withRuby? (taken? o s .activate l) s) s := by
  simp only [activate, Task.ensures_bind]
  refine (ensures_findRubyBin_finding o s).mono fun l r s' h => ?_
  cases r with
  | error error => exact h.eq_withRuby? []
  | ok rubyBin =>
    refine ((steady_activateWith o rubyBin).ensures s').mono ?_
    rintro rest _ t (rfl : t = s')
    exact h.eq_withRuby? rest

theorem ensures_changeVersion_taken (o : ResolutionOptions) (s : Store) :
    (changeVersion o).Ensures (fun l _ s' => s' = withRuby? (taken? o s .changeVersion l) s) s := by
  simp only [changeVersion, Task.ask_eq, Task.ensures_bind, Task.ensures_call, Task.ensures_done]
  rintro (_ | selected)
  · rfl
  simp only [Task.ensures_bind, Task.ensures_call, Task.ensures_done]
  intro files
  have hbuilt (t : Store) (rubyBin : Path) :
      (activateWith o rubyBin).Ensures (fun _ _ s' => s' = t) t :=
    (steady_activateWith o rubyBin).ensures t
  cases hread : Declaration.read files o.directory o.home with
  | error error =>
    refine (hbuilt s _).mono ?_
    rintro l _ _ rfl
    simp [taken?, withRuby?, choice?, hread, Except.toOption]
  | ok declared =>
    simp only [Task.ensures_bind]
    refine (ensures_remember _ _ _).mono ?_
    rintro l _ t ⟨rfl, -⟩
    refine (hbuilt _ _).mono ?_
    rintro rest _ _ rfl
    simp [taken?, withRuby?, choice?, hread, Except.toOption]

theorem ensures_task_taken (o : ResolutionOptions) (attempt : Attempt) (s : Store) :
    (attempt.task o).Ensures (fun l _ s' => s' = withRuby? (taken? o s attempt l) s) s := by
  cases attempt with
  | activate => exact ensures_activate_taken o s
  | changeVersion => exact ensures_changeVersion_taken o s

/-- The entry of a store is that of the Ruby which is remembered, or stays. -/
theorem entry_withRuby? (ruby? : Option RememberedRuby) (s : Store) :
    (withRuby? ruby? s).get? Store.rubyPathKey =
      (ruby?.map RememberedRuby.toJson).or (s.get? Store.rubyPathKey) := by
  cases ruby? <;> simp [withRuby?, withRuby]

/-- **Theorem (residue).** An attempt that fails leaves the entry of the remembered Ruby as it was
exactly if it took no Ruby, or took one as it stood there. The entry of a Ruby that it took stays
behind. -/
theorem entry_kept_iff {attempt : Attempt} {error : RubyError}
    (h : (attempt.task o).Yields s l (.error error) s') :
    (s'.get? Store.rubyPathKey = s.get? Store.rubyPathKey ↔
      ∀ ruby, taken? o s attempt l = some ruby →
        s.get? Store.rubyPathKey = some ruby.toJson) ∧
    ∀ ruby, taken? o s attempt l = some ruby →
      s'.get? Store.rubyPathKey = some ruby.toJson := by
  obtain rfl : s' = withRuby? (taken? o s attempt l) s := (ensures_task_taken o attempt s).yields h
  rw [entry_withRuby?]
  cases taken? o s attempt l with
  | none => simp
  | some ruby => simp [eq_comm]

end Attempt

/-- How an attempt of the folder ends where no interpreter answers. -/
def attempted (attempt : Attempt) (contents : String) (s : Store) :
    Except RubyError RuntimeEnvironment × Store × Unit :=
  (attempt.task folderOptions).run (attending (declaring contents) (some jruby)) s ()

/-- What is asked in it. -/
def attempting (attempt : Attempt) (contents : String) (s : Store) : List Exchange :=
  (attempt.task folderOptions).trace (attending (declaring contents) (some jruby)) s ()

theorem exists_yields_attempted (attempt : Attempt) (contents : String) (s : Store)
    (h : (attempted attempt contents s).1.toOption = none) :
    ∃ error, (attempt.task folderOptions).Yields s (attempting attempt contents s) (.error error)
      (attempted attempt contents s).2.1 :=
  Task.exists_yields_error h

/-- What a first attempt leaves of the JRuby. -/
def residue : Store := (attempted .activate "jruby-3.3.0" .inMemory).2.1

/-- A second attempt takes nothing: it is given the JRuby that is there, and fails again. -/
theorem residue_kept :
    (attempted .activate "jruby-3.3.0" residue).1.toOption = none ∧
      (attempted .activate "jruby-3.3.0" residue).2.1.get? Store.rubyPathKey =
        residue.get? Store.rubyPathKey := by
  have hfails : (attempted .activate "jruby-3.3.0" residue).1.toOption = none := by
    decide +kernel
  have hnothing : taken? folderOptions residue .activate
      (attempting .activate "jruby-3.3.0" residue) = none := by decide +kernel
  obtain ⟨error, hyields⟩ := exists_yields_attempted _ _ _ hfails
  refine ⟨hfails, (entry_kept_iff hyields).1.2 fun ruby htaken => ?_⟩
  cases hnothing.symm.trans htaken

/-- The first attempt fails too, on a store that was empty. -/
theorem not_always_entry_kept :
    ¬ ∀ (o : ResolutionOptions) (attempt : Attempt) (s s' : Store) (l : List Exchange)
      (error : RubyError), (attempt.task o).Yields s l (.error error) s' →
      s'.get? Store.rubyPathKey = s.get? Store.rubyPathKey := by
  intro h
  have hfails : (attempted .activate "jruby-3.3.0" .inMemory).1.toOption = none := by
    decide +kernel
  obtain ⟨error, hyields⟩ := exists_yields_attempted _ _ _ hfails
  have hleft : residue.get? Store.rubyPathKey ≠ Store.inMemory.get? Store.rubyPathKey := by
    decide +kernel
  exact hleft (h _ _ _ _ _ _ hyields)

end RubySupervisor.Resolution
