import RubySupervisor.Proofs.State.Memory
import RubySupervisor.Proofs.Workspace.Silence
import RubySupervisor.Ruby.Resolution

/-!
# How a Ruby is found

A call for the Ruby of a folder ends in one of a few ways: with the Ruby on the search path, with a
remembered one, with one that is discovered, with the configured one, or with what the user says.
Each way has its own exchanges with the host and leaves the store as it was, or with one more Ruby
remembered. Everything else that is said of such a call follows from these ways.
-/

namespace RubySupervisor

/-- A stored Ruby is read back as it was. -/
@[simp] theorem RememberedRuby.ofJson?_toJson (r : RememberedRuby) :
    RememberedRuby.ofJson? r.toJson = some r := rfl

namespace Resolution

/-! ## What decides -/

/-- The version for which a remembered Ruby is given: the declared one, unless the search path
decides or the declaration cannot be read. -/
def declaredVersion? (o : ResolutionOptions) (files : FileTree) : Option String :=
  if o.manager = .none then none
  else (Declaration.read files o.directory o.home).toOption.map (·.version)

/-- The Ruby that discovery finds, with the version that it is then remembered for. -/
def discovered? (o : ResolutionOptions) (files : FileTree) : Option RememberedRuby :=
  if o.manager = .none then none
  else do
    let declared ← (Declaration.read files o.directory o.home).toOption
    let installation ←
      (Installation.find files o.searchedRoots declared.version declared.engine).toOption
    return ⟨declared.version, installation.join "bin"⟩

/-- A Ruby is given if it is remembered: its version is declared, and it is there. -/
structure Reusable (ruby : RememberedRuby) (o : ResolutionOptions) (files : FileTree) : Prop where
  declared : declaredVersion? o files = some ruby.version
  present : files.isDirectory ruby.rubyBin = true

instance (ruby : RememberedRuby) (o : ResolutionOptions) (files : FileTree) :
    Decidable (Reusable ruby o files) :=
  decidable_of_iff (declaredVersion? o files = some ruby.version ∧
    files.isDirectory ruby.rubyBin = true) ⟨fun h => ⟨h.1, h.2⟩, fun h => ⟨h.declared, h.present⟩⟩

/-- Where the search path decides, no remembered Ruby is given. -/
theorem not_reusable_of_onPath {ruby : RememberedRuby} {o : ResolutionOptions} {files : FileTree}
    (hmanager : o.manager = .none) : ¬ Reusable ruby o files := by
  rintro ⟨hversion, -⟩
  simp [declaredVersion?, hmanager] at hversion

/-- Where no version is declared, no remembered Ruby is given. -/
theorem not_reusable_of_undeclared {ruby : RememberedRuby} {o : ResolutionOptions}
    {files : FileTree} {error : RubyError}
    (hread : Declaration.read files o.directory o.home = .error error) :
    ¬ Reusable ruby o files := by
  rintro ⟨hversion, -⟩
  simp [declaredVersion?, hread, Except.toOption] at hversion

/-- Where a version is declared, the Rubies of that version are given that are there. -/
theorem reusable_iff {ruby : RememberedRuby} {o : ResolutionOptions} {files : FileTree}
    {declared : Declaration} (hmanager : o.manager ≠ .none)
    (hread : Declaration.read files o.directory o.home = .ok declared) :
    Reusable ruby o files ↔
      ruby.version = declared.version ∧ files.isDirectory ruby.rubyBin = true := by
  have hversion : declaredVersion? o files = some declared.version := by
    simp [declaredVersion?, hmanager, hread, Except.toOption]
  constructor
  · rintro ⟨hdeclared, hpresent⟩
    exact ⟨Option.some.inj (hdeclared.symm.trans hversion), hpresent⟩
  · rintro ⟨hsame, hpresent⟩
    exact ⟨hsame ▸ hversion, hpresent⟩

/-- Discovery fails, for the version that is declared or for want of one. -/
inductive Fails (o : ResolutionOptions) (files : FileTree) : Option String → RubyError → Prop where
  | undeclared {error : RubyError} (hmanager : o.manager ≠ .none)
      (hread : Declaration.read files o.directory o.home = .error error) : Fails o files none error
  | uninstalled {declared : Declaration} {error : RubyError} (hmanager : o.manager ≠ .none)
      (hread : Declaration.read files o.directory o.home = .ok declared)
      (hfind : Installation.find files o.searchedRoots declared.version declared.engine =
        .error error) : Fails o files (some declared.version) error

/-- No remembered Ruby is given. -/
def Unremembered (o : ResolutionOptions) (s : Store) (files : FileTree) : Prop :=
  ∀ ruby, remembered? s = some ruby → ¬ Reusable ruby o files

instance (o : ResolutionOptions) (s : Store) (files : FileTree) :
    Decidable (Unremembered o s files) :=
  inferInstanceAs (Decidable (∀ ruby ∈ remembered? s, ¬ Reusable ruby o files))

/-- The version for which discovery fails is the declared one. -/
theorem Fails.declaredVersion?_eq {o : ResolutionOptions} {files : FileTree}
    {version : Option String} {error : RubyError} (h : Fails o files version error) :
    declaredVersion? o files = version := by
  cases h with
  | undeclared hmanager hread => simp [declaredVersion?, hmanager, hread, Except.toOption]
  | uninstalled hmanager hread hfind => simp [declaredVersion?, hmanager, hread, Except.toOption]

/-- Where discovery fails, nothing is discovered. -/
theorem Fails.discovered?_eq_none {o : ResolutionOptions} {files : FileTree}
    {version : Option String} {error : RubyError} (h : Fails o files version error) :
    discovered? o files = none := by
  cases h with
  | undeclared hmanager hread => simp [discovered?, hmanager, hread, Except.toOption]
  | uninstalled hmanager hread hfind =>
    simp [discovered?, hmanager, hread, hfind, Except.toOption]

theorem Fails.manager_ne {o : ResolutionOptions} {files : FileTree} {version : Option String}
    {error : RubyError} (h : Fails o files version error) : o.manager ≠ .none := by
  cases h <;> assumption

/-! ## What is kept -/

/-- A store in which a Ruby is remembered, in place of an older one. -/
def withRuby (ruby : RememberedRuby) (s : Store) : Store :=
  s.insert Store.rubyPathKey ruby.toJson

@[simp] theorem remembered?_withRuby (ruby : RememberedRuby) (s : Store) :
    remembered? (withRuby ruby s) = some ruby := by
  simp [remembered?, withRuby]

/-- What is remembered is in the store, whether that can be written or not; nothing else is called
for it. -/
theorem ensures_remember (version : String) (rubyBin : Path) (s : Store) :
    (remember version rubyBin).Ensures
      (fun l _ s' => s' = withRuby ⟨version, rubyBin⟩ s ∧ ∀ x ∈ l, x.call.isWriting = true) s := by
  have hwrites : (remember version rubyBin).Writing :=
    (Store.writes_update _ _).bind fun _ => Task.only_pure _
  have hkept : (remember version rubyBin).Ensures
      (fun _ _ s' => s' = withRuby ⟨version, rubyBin⟩ s) s := by
    simp only [remember, Task.ensures_bind, Task.ensures_pure]
    exact (Store.ensures_update _ _ _).mono fun l r s' h => h.1
  exact hkept.and (hwrites.ensures s)

/-! ## The ways to a Ruby -/

/-- The ways in which a call for a Ruby may go. -/
inductive Finding (o : ResolutionOptions) (s : Store) :
    List Exchange → Except RubyError Path → Store → Prop where
  | onPath {files : FileTree} (hmanager : o.manager = .none) :
      Finding o s [⟨.files, files⟩] (Resolution.onPath o files) s
  | reused {files : FileTree} {ruby : RememberedRuby} (hremembered : remembered? s = some ruby)
      (hreusable : Reusable ruby o files) :
      Finding o s [⟨.files, files⟩] (.ok ruby.rubyBin) s
  | discovered {files : FileTree} {ruby : RememberedRuby} {l : List Exchange}
      (hunremembered : Unremembered o s files) (hfound : discovered? o files = some ruby)
      (hwrites : ∀ x ∈ l, x.call.isWriting = true) :
      Finding o s (⟨.files, files⟩ :: l) (.ok ruby.rubyBin) (withRuby ruby s)
  | configured {files later : FileTree} {version : Option String} {error : RubyError} {path : Path}
      (hunremembered : Unremembered o s files) (hfails : Fails o files version error)
      (hpath : o.rubyExecutable = some path) :
      Finding o s [⟨.files, files⟩, ⟨.files, later⟩]
        (.ok (Installation.binDirectory later path)) s
  | declined {files : FileTree} {version : Option String} {error : RubyError}
      (hunremembered : Unremembered o s files) (hfails : Fails o files version error)
      (hnone : o.rubyExecutable = none) :
      Finding o s [⟨.files, files⟩, ⟨.chooseInstallation error.message, none⟩]
        (.error (.runtimeRequired error.message)) s
  | chosen {files later : FileTree} {error : RubyError} {selected : Path}
      (hunremembered : Unremembered o s files) (hfails : Fails o files none error)
      (hnone : o.rubyExecutable = none) :
      Finding o s
        [⟨.files, files⟩, ⟨.chooseInstallation error.message, some selected⟩, ⟨.files, later⟩]
        (.ok (Installation.binDirectory later selected)) s
  | kept {files later : FileTree} {version : String} {error : RubyError} {selected : Path}
      {l : List Exchange} (hunremembered : Unremembered o s files)
      (hfails : Fails o files (some version) error) (hnone : o.rubyExecutable = none)
      (hwrites : ∀ x ∈ l, x.call.isWriting = true) :
      Finding o s
        (⟨.files, files⟩ :: ⟨.chooseInstallation error.message, some selected⟩ ::
          ⟨.files, later⟩ :: l)
        (.ok (Installation.binDirectory later selected))
        (withRuby ⟨version, Installation.binDirectory later selected⟩ s)

/-- What replaces a discovery that failed. -/
theorem ensures_fallback {o : ResolutionOptions} {files : FileTree} {version : Option String}
    {error : RubyError} {s : Store} (hunremembered : Unremembered o s files)
    (hfails : Fails o files version error) :
    (fallback o version error).Ensures (fun l => Finding o s (⟨.files, files⟩ :: l)) s := by
  unfold fallback
  split
  · rename_i path hpath
    simp only [Task.ask_eq, Task.ensures_bind, Task.ensures_call, Task.ensures_done,
      Task.ensures_pure]
    intro later
    exact .configured hunremembered hfails hpath
  · rename_i hnone
    simp only [Task.ask_eq, Task.ensures_bind, Task.ensures_call, Task.ensures_done]
    intro selected
    cases selected with
    | none => exact .declined hunremembered hfails hnone
    | some selected =>
      simp only [Task.ensures_bind, Task.ensures_call, Task.ensures_done]
      intro later
      cases version with
      | none => exact .chosen hunremembered hfails hnone
      | some version =>
        simp only [Task.ensures_bind]
        refine (ensures_remember _ _ _).mono ?_
        rintro l _ s' ⟨rfl, hwrites⟩
        simp only [Task.ensures_pure, List.append_nil]
        exact .kept hunremembered hfails hnone hwrites

/-- A call for a Ruby goes in one of the ways. -/
theorem ensures_findRubyBin_finding (o : ResolutionOptions) (s : Store) :
    (findRubyBin o).Ensures (Finding o s) s := by
  simp only [findRubyBin, Task.ask_eq, Task.ensures_bind, Task.ensures_call, Task.ensures_done]
  intro files
  split
  · rename_i hmanager
    exact .onPath hmanager
  · rename_i hmanager
    cases hread : Declaration.read files o.directory o.home with
    | error error =>
      exact ensures_fallback (fun _ _ => not_reusable_of_undeclared hread)
        (.undeclared hmanager hread)
    | ok declared =>
      simp only [Task.ensures_bind, Task.ensures_get]
      split
      · rename_i ruby hruby
        obtain ⟨hremembered, husable⟩ := Option.filter_eq_some_iff.1 hruby
        have hreusable : Reusable ruby o files :=
          (reusable_iff hmanager hread).2 (by simpa using husable)
        exact .reused hremembered hreusable
      · rename_i hunusable
        -- a remembered Ruby that is filtered out is none that can be used again
        have hunremembered : Unremembered o s files := by
          intro ruby hremembered
          rw [reusable_iff hmanager hread]
          simpa using Option.filter_eq_none_iff.1 hunusable ruby hremembered
        cases hfind : Installation.find files o.searchedRoots declared.version declared.engine with
        | error error => exact ensures_fallback hunremembered (.uninstalled hmanager hread hfind)
        | ok installation =>
          have hfound : discovered? o files = some ⟨declared.version, installation.join "bin"⟩ := by
            simp [discovered?, hmanager, hread, hfind, Except.toOption]
          simp only [Task.ensures_bind]
          refine (ensures_remember _ _ _).mono ?_
          rintro l _ s' ⟨rfl, hwrites⟩
          simp only [Task.ensures_pure, List.append_nil]
          exact .discovered hunremembered hfound hwrites

end Resolution

end RubySupervisor
