import RubySupervisor.Proofs.Host.Alongside
import RubySupervisor.Proofs.Ruby.Finding
import RubySupervisor.Proofs.Ruby.Respelling

/-!
# When Ruby need not be activated again

Ruby is activated again where a setting changes on which its environment depends. Gemfiles and
configured Rubies are compared as paths. This file puts two activations side by side, whose options
differ in the spelling of these paths only.
-/

namespace RubySupervisor

/-! ## Activations side by side -/

/-- An interpreter as it is asked: by its directory, from a working directory, and in an
environment. -/
abbrev Probe := Path → Path → Dict String → Except RubyError Activation

/-- It does not depend on the spelling of the paths. -/
def Probe.Blind (probe : Probe) : Prop :=
  ∀ p q directory other base, p.same q = true → directory.same other = true →
    Alike (· = ·) (probe p directory base) (probe q other base)

/-- An interpreter that cannot be asked, for one reason in a directory and for another elsewhere. -/
def Probe.refusing (rubyBin : Path) : Probe := fun other _ _ =>
  if other.same rubyBin then .error .rubyNotOnPath else .error (.unsupportedRuby "")

theorem Probe.blind_refusing (rubyBin : Path) : (Probe.refusing rubyBin).Blind := by
  intro p q _ _ _ hsame _
  have hboth : q.same rubyBin = p.same rubyBin := by
    rw [Bool.eq_iff_iff, Path.same_iff, Path.same_iff, Path.same_iff.1 hsame]
  rw [refusing, refusing, hboth]
  split
  · exact RubyError.same_refl .rubyNotOnPath
  · exact RubyError.same_refl (.unsupportedRuby "")

/-- An interpreter of a version that is supported. -/
def Probe.supported : Probe := fun _ _ _ =>
  .ok ⟨⟨"/opt/ruby/gems"⟩, ⟨"/home/gems"⟩, "3.3.0", none⟩

theorem Probe.blind_supported : Probe.supported.Blind := fun _ _ _ _ _ _ _ => rfl

/-- What an activation meets: the files, and what the user answers. -/
structure Surroundings where
  files : FileTree
  choice : String → Option Path

namespace Surroundings

/-- The host shows them. -/
def Shows (w : Surroundings) : Exchange → Prop
  | ⟨.files, found⟩ => found = w.files
  | ⟨.chooseInstallation reason, selected⟩ => selected = w.choice reason
  | _ => True

/-- The host shows them, and has this interpreter. -/
def Has (w : Surroundings) (probe : Probe) (x : Exchange) : Prop :=
  w.Shows x ∧
    match x with
    | ⟨.probe ruby directory base, answer⟩ => answer = probe ruby directory base
    | _ => True

/-- Every question has an answer there. -/
theorem exists_answer (w : Surroundings) (probe : Probe) (c : Call) :
    ∃ answer, w.Has probe ⟨c, answer⟩ := by
  cases c with
  | files => exact ⟨w.files, rfl, trivial⟩
  | chooseInstallation reason => exact ⟨w.choice reason, rfl, trivial⟩
  | probe ruby directory base => exact ⟨probe ruby directory base, trivial, rfl⟩
  | _ => exact ⟨agreed (.error .rubyNotOnPath) _, trivial, trivial⟩

end Surroundings

namespace Resolution

variable {o : ResolutionOptions} {ruby gemfile : Option Path} {w : Surroundings} {s : Store}

/-- Where discovery fails, one path of the configured Ruby names a file and the other does not. -/
inductive StrayRuby (w : Surroundings) (s : Store) (o : ResolutionOptions) (ruby : Option Path) :
    Prop where
  | intro {version : Option String} {error : RubyError} {q q' : Path}
      (hunremembered : Unremembered o s w.files) (hfails : Fails o w.files version error)
      (hruby : o.rubyExecutable = some q) (hruby' : ruby = some q')
      (hfile : w.files.isFile q ≠ w.files.isFile q')

/-- Where a Ruby is found, one path of the gemfile names a file and the other does not. -/
inductive StrayGemfile (w : Surroundings) (s : Store) (o : ResolutionOptions)
    (gemfile : Option Path) : Prop where
  | intro {l : List Exchange} {rubyBin : Path} {t : Store} {g g' : Path}
      (hfound : (findRubyBin o).Yields s l (.ok rubyBin) t) (hshows : ∀ x ∈ l, w.Shows x)
      (hgemfile : o.bundleGemfile = some g) (hgemfile' : gemfile = some g')
      (hfile : w.files.isFile g ≠ w.files.isFile g')

/-- Two searches end alike, and with the same store. -/
def EndAlike {α : Type} (R : α → α → Prop) (r : Except RubyError α) (t : Store)
    (r' : Except RubyError α) (t' : Store) : Prop :=
  Alike R r r' ∧ t = t'

/-- A Ruby is remembered, whatever the host says. -/
theorem alongside_remember {P : Exchange → Prop} (version : String) (rubyBin : Path) (s : Store) :
    (remember version rubyBin).Alongside P (fun _ t _ t' => t = t')
      (remember version rubyBin) s s :=
  Task.alongside_of_ensures
    ((ensures_remember version rubyBin s).mono fun _ _ _ h _ => h.1)
    ((ensures_remember version rubyBin s).mono fun _ _ _ h _ => h.1)
    fun _ _ _ _ h h' => h.trans h'.symm

/-- A configured Ruby or the choice of the user, side by side. -/
theorem alongside_fallback {version : Option String} {error : RubyError}
    (hruby : Settings.samePath o.rubyExecutable ruby = true)
    (hfile : ∀ q ∈ o.rubyExecutable, ∀ q' ∈ ruby, w.files.isFile q = w.files.isFile q') :
    (fallback o version error).Alongside w.Shows (EndAlike fun p q => p.same q = true)
      (fallback (o.respelled ruby gemfile) version error) s s := by
  have hother : (o.respelled ruby gemfile).rubyExecutable = ruby := rfl
  unfold fallback
  rw [hother]
  rcases Settings.samePath_cases hruby with ⟨hq, rfl⟩ | ⟨q, q', hq, rfl, hsame⟩
  · rw [hq]
    refine Task.alongside_ask ?_
    rintro _ _ rfl rfl
    cases w.choice error.message with
    | none => exact Task.alongside_pure ⟨RubyError.same_refl (.runtimeRequired _), rfl⟩
    | some selected =>
      refine Task.alongside_ask ?_
      rintro _ _ rfl rfl
      cases version with
      | none => exact Task.alongside_pure ⟨Path.same_refl _, rfl⟩
      | some version =>
        refine Task.alongside_bind (alongside_remember _ _ _) ?_
        rintro _ _ _ _ _ - - rfl
        exact Task.alongside_pure ⟨Path.same_refl _, rfl⟩
  · rw [hq]
    refine Task.alongside_ask ?_
    rintro _ _ rfl rfl
    exact Task.alongside_pure
      ⟨(Installation.same_binDirectory_iff hsame).2 (hfile q hq q' rfl), rfl⟩

/-- The ways to a Ruby, side by side. -/
theorem alongside_findRubyBin (hruby : Settings.samePath o.rubyExecutable ruby = true)
    (hstray : ¬ StrayRuby w s o ruby) :
    (findRubyBin o).Alongside w.Shows (EndAlike fun p q => p.same q = true)
      (findRubyBin (o.respelled ruby gemfile)) s s := by
  have hmanager : (o.respelled ruby gemfile).manager = o.manager := rfl
  -- only where no remembered Ruby serves and none is found are the configured paths looked at
  have hfile {version : Option String} {error : RubyError}
      (hunremembered : Unremembered o s w.files) (hfails : Fails o w.files version error) :
      ∀ q ∈ o.rubyExecutable, ∀ q' ∈ ruby, w.files.isFile q = w.files.isFile q' := by
    intro q hq q' hq'
    by_contra hne
    exact hstray (.intro hunremembered hfails hq hq' hne)
  unfold findRubyBin
  rw [hmanager]
  refine Task.alongside_ask ?_
  rintro _ _ rfl rfl
  split
  · refine Task.alongside_pure ⟨?_, rfl⟩
    rw [show onPath (o.respelled ruby gemfile) w.files = onPath o w.files from rfl]
    cases onPath o w.files with
    | error error => exact error.same_refl
    | ok rubyBin => exact rubyBin.same_refl
  · next hnone =>
    -- the two sides read the same declaration and search the same directories
    have hread' : Declaration.read w.files (o.respelled ruby gemfile).directory
        (o.respelled ruby gemfile).home = Declaration.read w.files o.directory o.home := rfl
    rw [hread']
    cases hread : Declaration.read w.files o.directory o.home with
    | error error =>
      exact alongside_fallback hruby <|
        hfile (fun _ _ => not_reusable_of_undeclared hread) (.undeclared hnone hread)
    | ok declared =>
      refine Task.alongside_get ?_
      split
      · exact Task.alongside_pure ⟨Path.same_refl _, rfl⟩
      · next hunusable =>
        have hunremembered : Unremembered o s w.files := by
          intro r hremembered
          rw [reusable_iff hnone hread]
          simpa using Option.filter_eq_none_iff.1 hunusable r hremembered
        have hfind' : Installation.find w.files (o.respelled ruby gemfile).searchedRoots
            declared.version declared.engine =
          Installation.find w.files o.searchedRoots declared.version declared.engine := rfl
        rw [hfind']
        cases hfind : Installation.find w.files o.searchedRoots declared.version
            declared.engine with
        | error error =>
          exact alongside_fallback hruby (hfile hunremembered (.uninstalled hnone hread hfind))
        | ok installation =>
          refine Task.alongside_bind (alongside_remember _ _ _) ?_
          rintro _ _ _ _ _ - - rfl
          exact Task.alongside_pure ⟨Path.same_refl _, rfl⟩

/-- A search comes to one end in the same surroundings. -/
theorem alongside_findRubyBin_self (o : ResolutionOptions) (w : Surroundings) (s : Store) :
    (findRubyBin o).Alongside w.Shows (EndAlike fun p q => p.same q = true)
      (findRubyBin o) s s := by
  have hstray : ¬ StrayRuby w s o o.rubyExecutable := by
    rintro ⟨-, -, hq, hq', hne⟩
    obtain rfl := Option.some.inj (hq.symm.trans hq')
    exact hne rfl
  exact @alongside_findRubyBin o o.rubyExecutable o.bundleGemfile w s (Settings.samePath_refl _)
    hstray

/-- The plan of an environment, from what its interpreter says. -/
def plan (o : ResolutionOptions) (files : FileTree) (rubyBin : Path) (activation : Activation) :
    EnvironmentPlan :=
  { base := o.base
    rubyBin
    activation
    gemset := gemset? files o.directory
    bundleGemfile := o.bundleGemfile
    overrides := o.overrides }

/-- What comes of a Ruby that is found. -/
def built (w : Surroundings) (probe : Probe) (o : ResolutionOptions) (rubyBin : Path) :
    Except RubyError RuntimeEnvironment :=
  match probe rubyBin o.bundleDirectory o.base with
  | .error error => .error error
  | .ok activation => (plan o w.files rubyBin activation).build w.files

theorem ensures_activateWith_built (w : Surroundings) (probe : Probe) (o : ResolutionOptions)
    (rubyBin : Path) (s : Store) :
    (activateWith o rubyBin).Ensures
      (fun l r t => (∀ x ∈ l, w.Has probe x) → r = built w probe o rubyBin ∧ t = s) s := by
  simp only [activateWith, Task.ask_eq, Task.ensures_bind, Task.ensures_call, Task.ensures_done]
  intro answer
  cases answer with
  | error error =>
    rw [Task.ensures_pure]
    intro h
    have hanswer : _ = probe rubyBin o.bundleDirectory o.base := (h _ (.head _)).2
    rw [built, ← hanswer]
    exact ⟨rfl, rfl⟩
  | ok activation =>
    simp only [Task.ensures_bind, Task.ensures_call, Task.ensures_done, Task.ensures_pure]
    intro files h
    have hanswer : _ = probe rubyBin o.bundleDirectory o.base := (h _ (.head _)).2
    have hfiles : files = w.files := (h _ (.tail _ (.head _))).1
    rw [built, ← hanswer, hfiles]
    exact ⟨rfl, trivial⟩

/-- What comes of Rubies whose directories are the same. -/
theorem alike_built {probe : Probe} {p q : Path} (hprobe : probe.Blind) (hbin : p.same q = true)
    (hgemfile : Settings.samePath o.bundleGemfile gemfile = true)
    (hfile : ∀ g ∈ o.bundleGemfile, ∀ g' ∈ gemfile, w.files.isFile g = w.files.isFile g') :
    Alike RuntimeEnvironment.Same (built w probe o p)
      (built w probe (o.respelled ruby gemfile) q) := by
  have hanswers := hprobe p q _ _ o.base hbin (o.same_bundleDirectory ruby hgemfile)
  have hbase : (o.respelled ruby gemfile).base = o.base := rfl
  rcases hanswers.cases with ⟨activation, other, hp, hq, rfl⟩ | ⟨error, error', hp, hq, hsame⟩
  · rw [built, built, hbase, hp, hq]
    exact EnvironmentPlan.alike_build (p := plan o w.files p activation) hbin hgemfile hfile
  · rw [built, built, hbase, hp, hq]
    exact hsame

/-- Activations side by side, where no path strays. -/
theorem alongside_activate {probe : Probe} (hprobe : probe.Blind)
    (hruby : Settings.samePath o.rubyExecutable ruby = true)
    (hgemfile : Settings.samePath o.bundleGemfile gemfile = true)
    (hstray : ¬ StrayRuby w s o ruby) (hstray' : ¬ StrayGemfile w s o gemfile) :
    (activate o).Alongside (w.Has probe) (EndAlike RuntimeEnvironment.Same)
      (activate (o.respelled ruby gemfile)) s s := by
  refine Task.alongside_bind
    ((alongside_findRubyBin hruby hstray).mono (fun _ h => h.1) fun _ _ _ _ h => h) ?_
  rintro l r t r' _ hfound hhas ⟨hends, rfl⟩
  rcases hends.cases with ⟨p, q, rfl, rfl, hsame⟩ | ⟨error, error', rfl, rfl, hsame⟩
  · have hfile : ∀ g ∈ o.bundleGemfile, ∀ g' ∈ gemfile, w.files.isFile g = w.files.isFile g' := by
      intro g hg g' hg'
      by_contra hne
      exact hstray' (.intro hfound (fun x hx => (hhas x hx).1) hg hg' hne)
    refine Task.alongside_of_ensures (ensures_activateWith_built w probe o p t)
      (ensures_activateWith_built w probe (o.respelled ruby gemfile) q t) ?_
    rintro _ _ _ _ ⟨rfl, rfl⟩ ⟨rfl, rfl⟩
    exact ⟨alike_built hprobe hsame hgemfile hfile, rfl⟩
  · exact Task.alongside_pure ⟨hsame, rfl⟩

/-- Where discovery fails, the configured Ruby is found. -/
theorem Finding.of_configured {l : List Exchange} {r : Except RubyError Path} {t : Store}
    {version : Option String} {error : RubyError} {q : Path} (h : Finding o s l r t)
    (hshows : ∀ x ∈ l, w.Shows x) (hunremembered : Unremembered o s w.files)
    (hfails : Fails o w.files version error) (hruby : o.rubyExecutable = some q) :
    r = .ok (Installation.binDirectory w.files q) ∧ t = s := by
  cases h with
  | onPath hmanager => exact absurd hmanager hfails.manager_ne
  | reused hremembered hreusable =>
    obtain rfl := hshows _ (.head _)
    exact absurd hreusable (hunremembered _ hremembered)
  | discovered _ hfound =>
    obtain rfl := hshows _ (.head _)
    rw [hfails.discovered?_eq_none] at hfound
    cases hfound
  | configured _ _ hpath =>
    obtain rfl := hshows _ (.tail _ (.head _))
    obtain rfl := Option.some.inj (hpath.symm.trans hruby)
    exact ⟨rfl, rfl⟩
  | declined _ _ hnone | chosen _ _ hnone | kept _ _ hnone =>
    rw [hruby] at hnone
    cases hnone

theorem ensures_activate_configured {version : Option String} {error : RubyError} {q : Path}
    (probe : Probe) (hunremembered : Unremembered o s w.files)
    (hfails : Fails o w.files version error) (hruby : o.rubyExecutable = some q) :
    (activate o).Ensures (fun l r _ => (∀ x ∈ l, w.Has probe x) →
      r = built w probe o (Installation.binDirectory w.files q)) s := by
  simp only [activate, Task.ensures_bind]
  refine (ensures_findRubyBin_finding o s).mono fun l r t hfinding => ?_
  have hfound (l' : List Exchange) (h : ∀ x ∈ l ++ l', w.Has probe x) :=
    hfinding.of_configured (fun x hx => (h x (List.mem_append_left _ hx)).1) hunremembered hfails
      hruby
  cases r with
  | error error =>
    rw [Task.ensures_pure]
    intro h
    cases (hfound _ h).1
  | ok rubyBin =>
    refine (ensures_activateWith_built w probe o rubyBin t).mono fun l' r t' hbuilt h => ?_
    obtain rfl := Except.ok.inj (hfound _ h).1
    exact (hbuilt fun x hx => h x (List.mem_append_right _ hx)).1

/-- Where the paths of the configured Ruby name different things, there is an interpreter that makes
a difference of it. -/
theorem not_alongside_of_strayRuby (hruby : Settings.samePath o.rubyExecutable ruby = true)
    (hstray : StrayRuby w s o ruby) : ∃ probe : Probe, probe.Blind ∧
      ¬ (activate o).Alongside (w.Has probe) (EndAlike RuntimeEnvironment.Same)
        (activate (o.respelled ruby gemfile)) s s := by
  obtain @⟨version, error, q, q', hunremembered, hfails, hq, hq', hfile⟩ := hstray
  rw [hq, hq'] at hruby
  have hdirectories := mt (Installation.same_binDirectory_iff hruby).1 hfile
  have helsewhere : ¬ (Installation.binDirectory w.files q').same
      (Installation.binDirectory w.files q) = true := fun h => hdirectories (Path.same_symm h)
  have hunremembered' : Unremembered (o.respelled ruby gemfile) s w.files :=
    fun r hr hreusable => hunremembered r hr ⟨hreusable.declared, hreusable.present⟩
  have hfails' : Fails (o.respelled ruby gemfile) w.files version error := by
    cases hfails with
    | undeclared hmanager hread => exact .undeclared hmanager hread
    | uninstalled hmanager hread hfind => exact .uninstalled hmanager hread hfind
  -- an interpreter that refuses the one directory and answers in the other tells the two apart
  let probe := Probe.refusing (Installation.binDirectory w.files q)
  refine ⟨probe, Probe.blind_refusing _, fun halongside => ?_⟩
  obtain ⟨_, _, _, _, rfl, rfl, hends, -⟩ := halongside.exists_ends (w.exists_answer probe)
    (ensures_activate_configured probe hunremembered hfails hq)
    (ensures_activate_configured probe hunremembered' hfails' hq')
  simp only [built, probe, Probe.refusing, Path.same_refl, if_true, if_neg helsewhere] at hends
  cases hends

/-- With an interpreter that is supported, only a missing gemfile fails. -/
theorem built_supported_iff (w : Surroundings) (o : ResolutionOptions) (rubyBin : Path) :
    (∃ e, built w .supported o rubyBin = .ok e) ↔
      ∀ g ∈ o.bundleGemfile, w.files.isFile g = true := by
  have hbuilt : built w .supported o rubyBin =
      (plan o w.files rubyBin ⟨⟨"/opt/ruby/gems"⟩, ⟨"/home/gems"⟩, "3.3.0", none⟩).build w.files :=
    rfl
  have hversion : RubyVersion.parse? "3.3.0" = some ⟨3, 3, some 0⟩ := by decide +kernel
  rw [hbuilt]
  constructor
  · rintro ⟨e, he⟩
    obtain ⟨version, haccepts, -⟩ := EnvironmentPlan.build_eq_ok_iff.1 he
    exact haccepts.present
  · intro hfile
    exact ⟨_, EnvironmentPlan.Accepts.build_eq ⟨hversion, by decide, hfile⟩⟩

/-- What comes of an activation, where a search side by side with its own finds a Ruby. -/
theorem ensures_activate_of_found {o' : ResolutionOptions} {l : List Exchange} {rubyBin : Path}
    {t : Store} (probe : Probe)
    (halongside : (findRubyBin o).Alongside w.Shows (EndAlike fun p q => p.same q = true)
      (findRubyBin o') s s)
    (hfound : (findRubyBin o).Yields s l (.ok rubyBin) t) (hshows : ∀ x ∈ l, w.Shows x) :
    (activate o').Ensures (fun l r _ => (∀ x ∈ l, w.Has probe x) → ∃ q, r = built w probe o' q)
      s := by
  simp only [activate, Task.ensures_bind]
  refine Task.ensures_of_yields fun l' r t' hruns => ?_
  have hends (l'' : List Exchange) (h : ∀ x ∈ l' ++ l'', w.Has probe x) :=
    (halongside _ _ _ _ _ _ hfound hshows hruns
      fun x hx => (h x (List.mem_append_left _ hx)).1).1
  cases r with
  | error error =>
    rw [Task.ensures_pure]
    intro h
    cases hends _ h
  | ok q =>
    refine (ensures_activateWith_built w probe o' q t').mono fun l'' r t'' hbuilt h => ?_
    exact ⟨q, (hbuilt fun x hx => h x (List.mem_append_right _ hx)).1⟩

/-- Where the paths of the gemfile name different things, an interpreter that is supported makes a
difference of it. -/
theorem not_alongside_of_strayGemfile (hruby : Settings.samePath o.rubyExecutable ruby = true)
    (hstray : ¬ StrayRuby w s o ruby) (hstray' : StrayGemfile w s o gemfile) :
    ¬ (activate o).Alongside (w.Has .supported) (EndAlike RuntimeEnvironment.Same)
      (activate (o.respelled ruby gemfile)) s s := by
  intro halongside
  obtain ⟨hfound, hshows, hg, hg', hfile⟩ := hstray'
  obtain ⟨_, _, _, _, ⟨p, rfl⟩, ⟨q, rfl⟩, hends, -⟩ :=
    halongside.exists_ends (w.exists_answer .supported)
      (ensures_activate_of_found .supported (alongside_findRubyBin_self o w s) hfound hshows)
      (ensures_activate_of_found .supported (alongside_findRubyBin hruby hstray) hfound hshows)
  have hends := hends.exists_ok_iff
  have hother : (o.respelled ruby gemfile).bundleGemfile = gemfile := rfl
  rw [built_supported_iff, built_supported_iff, hother, hg, hg'] at hends
  exact hfile (Bool.eq_iff_iff.2 (by simpa using hends))

/-- A path of one activation and that of another one lead to different things. -/
def Strays (w : Surroundings) (s : Store) (o o' : ResolutionOptions) : Prop :=
  StrayRuby w s o o'.rubyExecutable ∨ StrayGemfile w s o o'.bundleGemfile

/-- An activation with other options is needless: with every interpreter it comes to the same end
and leaves the same in the store. -/
def Needless (w : Surroundings) (s : Store) (o o' : ResolutionOptions) : Prop :=
  ∀ probe : Probe, probe.Blind →
    (activate o).Alongside (w.Has probe) (EndAlike RuntimeEnvironment.Same) (activate o') s s

theorem needless_respelled_iff (hruby : Settings.samePath o.rubyExecutable ruby = true)
    (hgemfile : Settings.samePath o.bundleGemfile gemfile = true) :
    Needless w s o (o.respelled ruby gemfile) ↔ ¬ Strays w s o (o.respelled ruby gemfile) := by
  constructor
  · intro hneedless hstrays
    by_cases hstray : StrayRuby w s o ruby
    · obtain ⟨probe, hblind, hnot⟩ := not_alongside_of_strayRuby hruby hstray
      exact hnot (hneedless probe hblind)
    · exact not_alongside_of_strayGemfile hruby hstray (hstrays.resolve_left hstray)
        (hneedless _ Probe.blind_supported)
  · intro hstrays probe hblind
    obtain ⟨hstray, hstray'⟩ := not_or.1 hstrays
    exact alongside_activate hblind hruby hgemfile hstray hstray'

end Resolution

namespace ResolutionOptions

/-- The paths of two options are looked up likewise. -/
structure Likewise (o o' : ResolutionOptions) : Prop where
  ruby : ∀ q ∈ o.rubyExecutable, ∀ q' ∈ o'.rubyExecutable, FileTree.Likewise q q'
  gemfile : ∀ g ∈ o.bundleGemfile, ∀ g' ∈ o'.bundleGemfile, FileTree.Likewise g g'

/-- Paths that are looked up likewise do not stray. -/
theorem Likewise.not_strays {o o' : ResolutionOptions} (h : o.Likewise o')
    (hruby : Settings.samePath o.rubyExecutable o'.rubyExecutable = true)
    (hgemfile : Settings.samePath o.bundleGemfile o'.bundleGemfile = true) (w : Surroundings)
    (s : Store) : ¬ Resolution.Strays w s o o' := by
  rintro (⟨-, -, hq, hq', hfile⟩ | ⟨-, -, hg, hg', hfile⟩)
  · rw [hq, hq'] at hruby
    exact hfile (FileTree.isFile_of_same hruby (h.ruby _ hq _ hq'))
  · rw [hg, hg'] at hgemfile
    exact hfile (FileTree.isFile_of_same hgemfile (h.gemfile _ hg _ hg'))

end ResolutionOptions

/-! ## Settings side by side -/

namespace Settings

open Resolution (Needless Strays)

variable {s previous : Settings}

/-- What is the same where Ruby is not activated again. -/
structure Keeps (s previous : Settings) : Prop where
  manager : s.versionManager = previous.versionManager
  gemfile : samePath s.bundleGemfile previous.bundleGemfile = true
  ruby : samePath s.rubyExecutable previous.rubyExecutable = true
  environment : s.environment = previous.environment

theorem requiresReactivation_eq_false_iff :
    s.requiresReactivation previous = false ↔ s.Keeps previous := by
  simp only [requiresReactivation, Bool.or_eq_false_iff, bne_eq_false_iff_eq, Bool.not_eq_false']
  exact ⟨fun ⟨⟨⟨hmanager, hgemfile⟩, hruby⟩, henvironment⟩ =>
    ⟨hmanager, hgemfile, hruby, henvironment⟩,
    fun h => ⟨⟨⟨h.manager, h.gemfile⟩, h.ruby⟩, h.environment⟩⟩

/-- Ruby is then resolved from the same options but for the spelling of paths. -/
theorem Keeps.resolutionOptions_eq (h : s.Keeps previous) (root : Path) (base : Dict String) :
    s.resolutionOptions root base = (previous.resolutionOptions root base).respelled
      s.rubyExecutable (s.resolutionOptions root base).bundleGemfile := by
  rw [resolutionOptions, resolutionOptions, h.manager, h.environment]
  rfl

/-- Gemfiles are seen from the folder. -/
theorem Keeps.samePath_gemfile (h : s.Keeps previous) (root : Path) (base : Dict String) :
    samePath (previous.resolutionOptions root base).bundleGemfile
      (s.resolutionOptions root base).bundleGemfile = true := by
  have hseen (t : Settings) : (t.resolutionOptions root base).bundleGemfile =
      t.bundleGemfile.map (fun g => root.join g.text) := rfl
  rw [hseen, hseen]
  rcases samePath_cases h.gemfile with ⟨hg', hg⟩ | ⟨g', g, hg', hg, hsame⟩
  · rw [hg, hg']
    rfl
  · rw [hg, hg']
    exact Path.same_join root (Path.same_symm hsame)

/-- **Theorem (skipped activations).** Where a change of settings does not call for a new activation
of Ruby, one is needless in the surroundings in which no path of the configured Ruby or of the
gemfile strays, and in no others. No path strays where both spellings are looked up likewise. -/
theorem needless_iff_not_strays (h : s.requiresReactivation previous = false) (root : Path)
    (base : Dict String) :
    (∀ w store,
      Needless w store (previous.resolutionOptions root base) (s.resolutionOptions root base) ↔
        ¬ Strays w store (previous.resolutionOptions root base)
          (s.resolutionOptions root base)) ∧
    ((previous.resolutionOptions root base).Likewise (s.resolutionOptions root base) →
      ∀ w store, ¬ Strays w store (previous.resolutionOptions root base)
        (s.resolutionOptions root base)) := by
  have hkeeps := requiresReactivation_eq_false_iff.1 h
  have hruby := samePath_symm hkeeps.ruby
  have hgemfile := hkeeps.samePath_gemfile root base
  refine ⟨fun w store => ?_, fun hlikewise => hlikewise.not_strays hruby hgemfile⟩
  rw [hkeeps.resolutionOptions_eq]
  exact Resolution.needless_respelled_iff hruby hgemfile

/-- Settings in which Ruby is configured by a path. -/
def given (ruby : String) : Settings := { Settings.default with rubyExecutable := some ⟨ruby⟩ }

/-- The options for a folder where that is all there is. -/
def givenOptions (ruby : String) : ResolutionOptions :=
  (given ruby).resolutionOptions ⟨"/w"⟩ .empty

/-- A folder that declares no version, on a machine with an executable Ruby. -/
def handy : Surroundings :=
  { files := { entries := [(["w"], .directory), (["opt"], .directory),
      (["opt", "ruby"], .file .empty true)] }
    choice := fun _ => none }

theorem fails_handy (ruby : String) : Resolution.Fails (givenOptions ruby) handy.files none
    (.noVersionDeclared ⟨"/w"⟩) := by
  have hread : Declaration.read handy.files ⟨"/w"⟩ none = .error (.noVersionDeclared ⟨"/w"⟩) := by
    decide +kernel
  exact .undeclared (show VersionManager.auto ≠ .none by decide) hread

theorem unremembered_handy (ruby : String) :
    Resolution.Unremembered (givenOptions ruby) .inMemory handy.files := nofun

theorem strays_handy :
    Strays handy .inMemory (givenOptions "/opt/ruby") (givenOptions "/opt/ruby/") :=
  .inl (.intro (unremembered_handy _) (fails_handy _) rfl rfl (by decide +kernel))

theorem likewise_doubled : (givenOptions "/opt/ruby").Likewise (givenOptions "/opt//ruby") where
  ruby := by
    rintro _ ⟨⟩ _ ⟨⟩
    exact ⟨by decide +kernel, iff_of_true ⟨by decide, by decide, by decide⟩
      ⟨by decide, by decide, by decide⟩⟩
  gemfile := nofun

theorem doubled_needless :
    ((given "/opt//ruby").requiresReactivation (given "/opt/ruby") = false ∧
      ∀ w store, Needless w store (givenOptions "/opt/ruby") (givenOptions "/opt//ruby")) ∧
    ((given "/opt/ruby/").requiresReactivation (given "/opt/ruby") = false ∧
      ¬ Needless handy .inMemory (givenOptions "/opt/ruby") (givenOptions "/opt/ruby/")) := by
  have hdoubled : (given "/opt//ruby").requiresReactivation (given "/opt/ruby") = false := by
    decide +kernel
  have hclosed : (given "/opt/ruby/").requiresReactivation (given "/opt/ruby") = false := by
    decide +kernel
  obtain ⟨hiff, hnever⟩ := needless_iff_not_strays hdoubled ⟨"/w"⟩ .empty
  refine ⟨⟨hdoubled, fun w store => (hiff w store).2 (hnever likewise_doubled w store)⟩,
    hclosed, ?_⟩
  rw [givenOptions, givenOptions, (needless_iff_not_strays hclosed ⟨"/w"⟩ .empty).1]
  exact not_not.2 strays_handy

/-- An activation that is skipped is not always needless: a file is found by its path and not by the
same path with a separator at its end. -/
theorem not_always_needless :
    (given "/opt/ruby/").requiresReactivation (given "/opt/ruby") = false ∧
      ¬ (Resolution.activate (givenOptions "/opt/ruby")).Alongside (handy.Has .supported)
        (Resolution.EndAlike RuntimeEnvironment.Same)
        (Resolution.activate (givenOptions "/opt/ruby/")) .inMemory .inMemory := by
  refine ⟨by decide +kernel, fun halongside => ?_⟩
  have hbuilt (ruby : String) := Resolution.ensures_activate_configured (o := givenOptions ruby)
    .supported (unremembered_handy ruby) (fails_handy ruby) rfl
  obtain ⟨_, _, _, _, rfl, rfl, hends, -⟩ :=
    halongside.exists_ends (handy.exists_answer .supported) (hbuilt "/opt/ruby")
      (hbuilt "/opt/ruby/")
  exact absurd hends.rubyBin (by decide +kernel)

end Settings

end RubySupervisor
