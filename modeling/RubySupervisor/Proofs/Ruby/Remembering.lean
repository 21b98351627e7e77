import RubySupervisor.Proofs.Ruby.Finding

/-!
# Remembered Rubies

A Ruby that discovery found for a version is given again for that version, whatever discovery would
find by then. Two calls after each other show it: the second one is answered as on a store without a
remembered Ruby, unless the first one left a Ruby that is there and that discovery would not find
again.
-/

namespace RubySupervisor

/-- The host shows these files, and nobody chooses a Ruby. -/
def Unattended (files : FileTree) (l : List Exchange) : Prop :=
  ∀ x ∈ l, match x with
    | ⟨.files, found⟩ => found = files
    | ⟨.chooseInstallation _, selected⟩ => selected = none
    | _ => True

@[simp] theorem unattended_files (files found : FileTree) (l : List Exchange) :
    Unattended files (⟨.files, found⟩ :: l) ↔ found = files ∧ Unattended files l := by
  simp [Unattended]

@[simp] theorem unattended_choose (files : FileTree) (reason : String) (selected : Option Path)
    (l : List Exchange) :
    Unattended files (⟨.chooseInstallation reason, selected⟩ :: l) ↔
      selected = none ∧ Unattended files l := by
  simp [Unattended]

namespace Resolution

/-- What is answered where no Ruby is remembered and nobody chooses one. -/
def searched (o : ResolutionOptions) (files : FileTree) : Except RubyError Path :=
  if o.manager = .none then onPath o files
  else
    match Declaration.read files o.directory o.home with
    | .error error => .error (.runtimeRequired error.message)
    | .ok declared =>
      match Installation.find files o.searchedRoots declared.version declared.engine with
      | .error error => .error (.runtimeRequired error.message)
      | .ok installation => .ok (installation.join "bin")

/-- A reusable Ruby is the answer of a search exactly if discovery finds it. -/
theorem Reusable.searched_iff {ruby : RememberedRuby} {o : ResolutionOptions} {files : FileTree}
    (h : Reusable ruby o files) :
    searched o files = .ok ruby.rubyBin ↔ discovered? o files = some ruby := by
  have hmanager : o.manager ≠ .none := fun hpath => not_reusable_of_onPath hpath h
  unfold searched discovered?
  rw [if_neg hmanager, if_neg hmanager]
  cases hread : Declaration.read files o.directory o.home with
  | error error => exact absurd h (not_reusable_of_undeclared hread)
  | ok declared =>
    obtain ⟨hversion, -⟩ := (reusable_iff hmanager hread).1 h
    obtain ⟨version, rubyBin⟩ := ruby
    obtain rfl : version = declared.version := hversion
    cases hfind : Installation.find files o.searchedRoots declared.version declared.engine with
    | error error => simp [hfind, Except.toOption]
    | ok installation => simp [hfind, Except.toOption]

/-- What discovery finds is the answer of a search. -/
theorem searched_of_discovered? {o : ResolutionOptions} {files : FileTree} {ruby : RememberedRuby}
    (h : discovered? o files = some ruby) : searched o files = .ok ruby.rubyBin := by
  unfold discovered? at h
  unfold searched
  split at h
  · cases h
  · rename_i hmanager
    rw [if_neg hmanager]
    cases hread : Declaration.read files o.directory o.home with
    | error error => simp [hread, Except.toOption] at h
    | ok declared =>
      cases hfind : Installation.find files o.searchedRoots declared.version declared.engine with
      | error error => simp [hread, hfind, Except.toOption] at h
      | ok installation =>
        have hruby : ⟨declared.version, installation.join "bin"⟩ = ruby := by
          simpa [hread, hfind, Except.toOption] using h
        simp [hfind, ← hruby]

/-- Where discovery fails, so does a search. -/
theorem Fails.searched_eq {o : ResolutionOptions} {files : FileTree} {version : Option String}
    {error : RubyError} (h : Fails o files version error) :
    searched o files = .error (.runtimeRequired error.message) := by
  cases h with
  | undeclared hmanager hread => simp [searched, hmanager, hread]
  | uninstalled hmanager hread hfind => simp [searched, hmanager, hread, hfind]

/-- A call is answered by the remembered Ruby if that is reusable, and else by a search, of which a
discovered Ruby is remembered. -/
theorem ensures_findRubyBin {o : ResolutionOptions} (hnone : o.rubyExecutable = none) (s : Store) :
    (findRubyBin o).Ensures (fun l r s' => ∀ files, Unattended files l →
      (∃ ruby, remembered? s = some ruby ∧ Reusable ruby o files ∧ r = .ok ruby.rubyBin) ∨
      (∀ ruby, remembered? s = some ruby → ¬ Reusable ruby o files) ∧ r = searched o files ∧
        remembered? s' = (discovered? o files).or (remembered? s)) s := by
  refine (ensures_findRubyBin_finding o s).mono fun l r s' h files hl => ?_
  cases h with
  | onPath hmanager =>
    obtain ⟨rfl, -⟩ := (unattended_files _ _ _).1 hl
    exact .inr ⟨fun _ _ => not_reusable_of_onPath hmanager, by simp [searched, hmanager],
      by simp [discovered?, hmanager]⟩
  | reused hremembered hreusable =>
    obtain ⟨rfl, -⟩ := (unattended_files _ _ _).1 hl
    exact .inl ⟨_, hremembered, hreusable, rfl⟩
  | discovered hunremembered hfound hwrites =>
    obtain ⟨rfl, -⟩ := (unattended_files _ _ _).1 hl
    exact .inr ⟨hunremembered, (searched_of_discovered? hfound).symm, by simp [hfound]⟩
  | configured hunremembered hfails hpath => cases hnone.symm.trans hpath
  | declined hunremembered hfails =>
    obtain ⟨rfl, -⟩ := (unattended_files _ _ _).1 hl
    exact .inr ⟨hunremembered, hfails.searched_eq.symm, by simp [hfails.discovered?_eq_none]⟩
  | chosen => simp at hl
  | kept => simp at hl

/-- The Ruby that a first call leaves behind misleads a second one: it is given, while discovery
would find another one or none. -/
def Misleads (o₁ : ResolutionOptions) (files₁ : FileTree) (o₂ : ResolutionOptions)
    (files₂ : FileTree) : Prop :=
  ∃ ruby, discovered? o₁ files₁ = some ruby ∧ Reusable ruby o₂ files₂ ∧
    discovered? o₂ files₂ ≠ some ruby

/-- Nobody is misled who asks again. -/
theorem not_misleads_self (o : ResolutionOptions) (files : FileTree) :
    ¬ Misleads o files o files := by
  rintro ⟨ruby, hfound, -, hother⟩
  exact hother hfound

/-- **Theorem (transparency).** A call that comes behind another one on the same store is answered
as on a store without a remembered Ruby exactly if the Ruby that the other call left behind does not
mislead it. The two calls may differ in all their options, and the files may have changed. -/
theorem found_as_afresh_iff_not_misled {o₁ o₂ : ResolutionOptions} {files₁ files₂ : FileTree}
    {s s₁ s₂ fresh s₃ : Store} {l₁ l₂ l₃ : List Exchange} {r₁ r₂ r₃ : Except RubyError Path}
    (hnone₁ : o₁.rubyExecutable = none) (hnone₂ : o₂.rubyExecutable = none)
    (hs : remembered? s = none) (hfresh : remembered? fresh = none)
    (h₁ : (findRubyBin o₁).Yields s l₁ r₁ s₁) (hl₁ : Unattended files₁ l₁)
    (h₂ : (findRubyBin o₂).Yields s₁ l₂ r₂ s₂) (hl₂ : Unattended files₂ l₂)
    (h₃ : (findRubyBin o₂).Yields fresh l₃ r₃ s₃) (hl₃ : Unattended files₂ l₃) :
    r₂ = r₃ ↔ ¬ Misleads o₁ files₁ o₂ files₂ := by
  -- on a store without a remembered Ruby the search alone decides, and what it discovers is left
  have hafresh {o : ResolutionOptions} {files : FileTree} {s s' : Store} {l : List Exchange}
      {r : Except RubyError Path} (hnone : o.rubyExecutable = none) (hs : remembered? s = none)
      (h : (findRubyBin o).Yields s l r s') (hl : Unattended files l) :
      r = searched o files ∧ remembered? s' = discovered? o files := by
    rcases (ensures_findRubyBin hnone s).yields h files hl with
      ⟨ruby, hruby, -⟩ | ⟨-, hr, hs'⟩
    · cases hs.symm.trans hruby
    · exact ⟨hr, by simpa [hs] using hs'⟩
  obtain ⟨-, hleft⟩ := hafresh hnone₁ hs h₁ hl₁
  obtain ⟨rfl, -⟩ := hafresh hnone₂ hfresh h₃ hl₃
  rw [Misleads, ← hleft]
  rcases (ensures_findRubyBin hnone₂ s₁).yields h₂ files₂ hl₂ with
    ⟨ruby, hruby, hreusable, rfl⟩ | ⟨hnot, rfl, -⟩
  · rw [eq_comm, hreusable.searched_iff, hruby]
    constructor
    · rintro hfound ⟨_, ⟨rfl⟩, -, hother⟩
      exact hother hfound
    · exact fun hno => Decidable.of_not_not fun hother => hno ⟨ruby, rfl, hreusable, hother⟩
  -- a Ruby that is not used again cannot mislead
  · refine iff_of_true rfl ?_
    rintro ⟨ruby, hruby, hreusable, -⟩
    exact hnot ruby hruby hreusable

/-- A host that shows these files, and on which nobody chooses a Ruby. -/
def showing (files : FileTree) (c : Call) (_ : Store) (w : Unit) : c.Answer × Unit :=
  match c with
  | .files => (files, w)
  | .chooseInstallation _ => (none, w)
  | c => (agreed (.error .rubyNotOnPath) c, w)

theorem unattended_showing {α : Type} (files : FileTree) (t : Task Store α) (s : Store)
    (w : Unit) : Unattended files (t.trace (showing files) s w) :=
  Task.forall_trace (fun c _ _ => by cases c <;> trivial) t s w

/-- A folder on a machine that has a JRuby, with what declares its version. -/
def declaring (contents : String) : FileTree :=
  { entries := [(["w"], .directory), (["w", ".ruby-version"], .file contents.toUTF8 false),
      (["r"], .directory), (["r", "jruby-3.3.0"], .directory),
      (["r", "jruby-3.3.0", "bin"], .directory)] }

/-- The options of that folder. -/
def folderOptions : ResolutionOptions :=
  { ResolutionOptions.ofBase ⟨"/w"⟩ .empty with roots := some [⟨"/r"⟩] }

/-- How such a folder is answered from a store. -/
def asked (contents : String) (s : Store) : Except RubyError Path × Store × Unit :=
  (findRubyBin folderOptions).run (showing (declaring contents)) s ()

/-- What such a folder asks. -/
def asking (contents : String) (s : Store) : List Exchange :=
  (findRubyBin folderOptions).trace (showing (declaring contents)) s ()

theorem yields_asked (contents : String) (s : Store) :
    (findRubyBin folderOptions).Yields s (asking contents s) (asked contents s).1
      (asked contents s).2.1 :=
  Task.yields_run _ _ _ _

/-- The folder is given the JRuby again when it asks again. -/
theorem asked_again : (asked "jruby-3.3.0" (asked "jruby-3.3.0" .inMemory).2.1).1 =
    (asked "jruby-3.3.0" .inMemory).1 :=
  (found_as_afresh_iff_not_misled rfl rfl rfl rfl
    (yields_asked _ _) (unattended_showing _ _ _ _)
    (yields_asked _ _) (unattended_showing _ _ _ _)
    (yields_asked _ _) (unattended_showing _ _ _ _)).2 (not_misleads_self _ _)

/-- A folder that no longer asks for a JRuby is still given it, where afresh it would be given no
Ruby. -/
theorem not_always_as_afresh :
    ¬ ∀ (o : ResolutionOptions) (first second : String) (s₁ s₂ s₃ : Store)
      (l₁ l₂ l₃ : List Exchange) (r₁ r₂ r₃ : Except RubyError Path),
      o.rubyExecutable = none → o.manager ≠ .none →
      (findRubyBin o).Yields .inMemory l₁ r₁ s₁ → Unattended (declaring first) l₁ →
      (findRubyBin o).Yields s₁ l₂ r₂ s₂ → Unattended (declaring second) l₂ →
      (findRubyBin o).Yields .inMemory l₃ r₃ s₃ → Unattended (declaring second) l₃ →
      r₂ = r₃ := by
  intro h
  have hsame := h folderOptions "jruby-3.3.0" "3.3.0" _ _ _ _ _ _ _ _ _ rfl (by decide)
    (yields_asked _ _) (unattended_showing _ _ _ _)
    (yields_asked _ _) (unattended_showing _ _ _ _)
    (yields_asked _ _) (unattended_showing _ _ _ _)
  have hdiffer : (asked "3.3.0" (asked "jruby-3.3.0" .inMemory).2.1).1.toOption ≠
      (asked "3.3.0" .inMemory).1.toOption := by decide +kernel
  exact hdiffer (congrArg Except.toOption hsame)

/-! ## Asking again -/

/-- The host shows these files. -/
def Shows (files : FileTree) (l : List Exchange) : Prop :=
  ∀ x ∈ l, match x with
    | ⟨.files, found⟩ => found = files
    | _ => True

@[simp] theorem shows_files (files found : FileTree) (l : List Exchange) :
    Shows files (⟨.files, found⟩ :: l) ↔ found = files ∧ Shows files l := by
  simp [Shows]

@[simp] theorem shows_choose (files : FileTree) (reason : String) (selected : Option Path)
    (l : List Exchange) :
    Shows files (⟨.chooseInstallation reason, selected⟩ :: l) ↔ Shows files l := by
  simp [Shows]

/-- Whether a call asks the user for an installation. -/
def isChoice : Call → Bool
  | .chooseInstallation _ => true
  | _ => false

/-- The user is asked for an installation. -/
def Asks (l : List Exchange) : Prop := ∃ x ∈ l, isChoice x.call = true

instance (l : List Exchange) : Decidable (Asks l) :=
  inferInstanceAs (Decidable (∃ x ∈ l, isChoice x.call = true))

theorem not_asks_of_isWriting {l : List Exchange} (h : ∀ x ∈ l, x.call.isWriting = true) :
    ¬ Asks l := by
  rintro ⟨⟨c, answer⟩, hx, hchoice⟩
  have hwriting := h _ hx
  cases c with
  | chooseInstallation reason => simp [Call.isWriting] at hwriting
  | _ => cases hchoice

@[simp] theorem asks_files (files : FileTree) (l : List Exchange) :
    Asks (⟨.files, files⟩ :: l) ↔ Asks l := by
  simp [Asks, isChoice]

@[simp] theorem asks_choose (reason : String) (selected : Option Path) (l : List Exchange) :
    Asks (⟨.chooseInstallation reason, selected⟩ :: l) := by
  simp [Asks, isChoice]

@[simp] theorem not_asks_nil : ¬ Asks [] := by simp [Asks]

section Again

variable {o : ResolutionOptions} {files : FileTree} {s s' : Store} {l : List Exchange}
  {r : Except RubyError Path} {ruby : RememberedRuby}

/-- A Ruby that is remembered and reusable is given. -/
theorem Finding.of_reusable (h : Finding o s l r s') (hl : Shows files l)
    (hremembered : remembered? s = some ruby) (hreusable : Reusable ruby o files) :
    r = .ok ruby.rubyBin ∧ ¬ Asks l := by
  cases h with
  | onPath hmanager =>
    obtain ⟨rfl, -⟩ := (shows_files _ _ _).1 hl
    exact absurd hreusable (not_reusable_of_onPath hmanager)
  | reused hsame _ =>
    obtain rfl := Option.some.inj (hremembered.symm.trans hsame)
    simp
  | discovered hunremembered | configured hunremembered | declined hunremembered
  | chosen hunremembered | kept hunremembered =>
    obtain ⟨rfl, -⟩ := (shows_files _ _ _).1 hl
    exact absurd hreusable (hunremembered _ hremembered)

/-- Where no Ruby is reusable, the one is given that discovery finds. -/
theorem Finding.of_discovered (h : Finding o s l r s') (hl : Shows files l)
    (hunremembered : Unremembered o s files) (hfound : discovered? o files = some ruby) :
    r = .ok ruby.rubyBin ∧ ¬ Asks l := by
  cases h with
  | onPath hmanager => simp [discovered?, hmanager] at hfound
  | reused hremembered hreusable =>
    obtain ⟨rfl, -⟩ := (shows_files _ _ _).1 hl
    exact absurd hreusable (hunremembered _ hremembered)
  | discovered _ hsame hwrites =>
    obtain ⟨rfl, -⟩ := (shows_files _ _ _).1 hl
    obtain rfl := Option.some.inj (hfound.symm.trans hsame)
    simpa using not_asks_of_isWriting hwrites
  | configured _ hfails | declined _ hfails | chosen _ hfails | kept _ hfails =>
    obtain ⟨rfl, -⟩ := (shows_files _ _ _).1 hl
    cases hfound.symm.trans hfails.discovered?_eq_none

/-- Where no Ruby is reusable, discovery fails and none is configured, the user is asked. -/
theorem Finding.asks_of_fails {version : Option String} {error : RubyError}
    (h : Finding o s l r s') (hl : Shows files l) (hunremembered : Unremembered o s files)
    (hfails : Fails o files version error) (hnone : o.rubyExecutable = none) : Asks l := by
  cases h with
  | onPath hmanager => exact absurd hmanager hfails.manager_ne
  | reused hremembered hreusable =>
    obtain ⟨rfl, -⟩ := (shows_files _ _ _).1 hl
    exact absurd hreusable (hunremembered _ hremembered)
  | discovered _ hfound =>
    obtain ⟨rfl, -⟩ := (shows_files _ _ _).1 hl
    cases hfound.symm.trans hfails.discovered?_eq_none
  | configured _ _ hpath => cases hnone.symm.trans hpath
  | declined | chosen | kept => simp

/-- A Ruby alone in the store is given, or none is. -/
theorem reusable_or_unremembered (o : ResolutionOptions) (files : FileTree) (ruby : RememberedRuby)
    (s : Store) : Reusable ruby o files ∨ Unremembered o (withRuby ruby s) files := by
  by_cases hreusable : Reusable ruby o files
  · exact .inl hreusable
  · right
    intro other hother
    obtain rfl : ruby = other := by simpa using hother
    exact hreusable

/-- **Theorem (recall).** A Ruby that was discovered or chosen by the user is given again to the same
question on the same files, and nobody is asked for it, exactly if it was not chosen by the user, or
a version is declared that it was chosen for and it is a directory that is there. -/
theorem given_again_iff {s₁ s₂ : Store} {l₁ l₂ : List Exchange} {b : Path}
    {r₂ : Except RubyError Path}
    (hobtained : Asks l₁ ∨ Unremembered o s files ∧ (discovered? o files).isSome)
    (h₁ : (findRubyBin o).Yields s l₁ (.ok b) s₁) (hl₁ : Shows files l₁)
    (h₂ : (findRubyBin o).Yields s₁ l₂ r₂ s₂) (hl₂ : Shows files l₂) :
    r₂ = .ok b ∧ ¬ Asks l₂ ↔
      (Asks l₁ → (declaredVersion? o files).isSome ∧ files.isDirectory b = true) := by
  have hagain : Finding o s₁ l₂ r₂ s₂ := (ensures_findRubyBin_finding o s₁).yields h₂
  generalize hr₁ : Except.ok b = r₁ at h₁
  -- by the way in which the first call went; a Ruby on the path or a configured one is not
  -- remembered
  cases (ensures_findRubyBin_finding o s).yields h₁ with
  | onPath hmanager => simp [discovered?, hmanager] at hobtained
  | reused hremembered hreusable =>
    obtain ⟨rfl, -⟩ := (shows_files _ _ _).1 hl₁
    rcases hobtained with hasks | ⟨hunremembered, -⟩
    · simp at hasks
    · exact absurd hreusable (hunremembered _ hremembered)
  | @discovered found ruby l hunremembered hfound hwrites =>
    obtain ⟨rfl, -⟩ := (shows_files _ _ _).1 hl₁
    obtain rfl := Except.ok.inj hr₁
    have hnot : ¬ Asks l := not_asks_of_isWriting hwrites
    refine iff_of_true ?_ fun hasks => absurd (by simpa using hasks) hnot
    rcases reusable_or_unremembered o found ruby s with hreusable | hnext
    · exact hagain.of_reusable hl₂ (remembered?_withRuby ruby s) hreusable
    · exact hagain.of_discovered hl₂ hnext hfound
  | configured _ hfails =>
    obtain ⟨rfl, -⟩ := (shows_files _ _ _).1 hl₁
    simp [hfails.discovered?_eq_none] at hobtained
  | declined => cases hr₁
  | chosen hunremembered hfails hnone =>
    obtain ⟨rfl, -⟩ := (shows_files _ _ _).1 hl₁
    have hasks : Asks l₂ := hagain.asks_of_fails hl₂ hunremembered hfails hnone
    simp [hasks, hfails.declaredVersion?_eq]
  | @kept found later version error selected l hunremembered hfails hnone hwrites =>
    obtain ⟨rfl, hl₁⟩ := (shows_files _ _ _).1 hl₁
    obtain rfl := Except.ok.inj hr₁
    have hversion := hfails.declaredVersion?_eq
    simp only [asks_files, asks_choose, hversion, Option.isSome_some, true_and, forall_const]
    constructor
    · rintro ⟨-, hquiet⟩
      rcases reusable_or_unremembered o found ⟨version, _⟩ s with hreusable | hnext
      · exact hreusable.present
      · exact absurd (hagain.asks_of_fails hl₂ hnext hfails hnone) hquiet
    · intro hpresent
      exact hagain.of_reusable hl₂ (remembered?_withRuby _ s) ⟨hversion, hpresent⟩

end Again

/-- A host that shows these files, and on which the user makes this choice. -/
def attending (files : FileTree) (selected : Option Path) (c : Call) (_ : Store) (w : Unit) :
    c.Answer × Unit :=
  match c with
  | .files => (files, w)
  | .chooseInstallation _ => (selected, w)
  | c => (agreed (.error .rubyNotOnPath) c, w)

theorem shows_attending {α : Type} (files : FileTree) (selected : Option Path) (t : Task Store α)
    (s : Store) (w : Unit) : Shows files (t.trace (attending files selected) s w) :=
  Task.forall_trace (fun c _ _ => by cases c <;> trivial) t s w

/-- How the folder is answered from a store when its user makes this choice. -/
def attended (contents : String) (selected : Option Path) (s : Store) :
    Except RubyError Path × Store × Unit :=
  (findRubyBin folderOptions).run (attending (declaring contents) selected) s ()

/-- What the folder asks then. -/
def attendance (contents : String) (selected : Option Path) (s : Store) : List Exchange :=
  (findRubyBin folderOptions).trace (attending (declaring contents) selected) s ()

theorem yields_attended (contents : String) (selected : Option Path) (s : Store) :
    (findRubyBin folderOptions).Yields s (attendance contents selected s)
      (attended contents selected s).1 (attended contents selected s).2.1 :=
  Task.yields_run _ _ _ _

/-- The JRuby of the machine. -/
def jruby : Path := ⟨"/r/jruby-3.3.0/bin"⟩

theorem yields_attended_ok {contents : String} {selected : Option Path} {s : Store} {b : Path}
    (h : (attended contents selected s).1.toOption = some b) :
    (findRubyBin folderOptions).Yields s (attendance contents selected s) (.ok b)
      (attended contents selected s).2.1 :=
  Task.yields_of_toOption h

/-- A user who chooses the JRuby for a version that is not installed is given it again. -/
theorem jruby_given_again :
    (attended "3.4.0" none (attended "3.4.0" (some jruby) .inMemory).2.1).1 = .ok jruby ∧
      ¬ Asks (attendance "3.4.0" none (attended "3.4.0" (some jruby) .inMemory).2.1) := by
  have hasks : Asks (attendance "3.4.0" (some jruby) .inMemory) := by decide +kernel
  have hgiven : (attended "3.4.0" (some jruby) .inMemory).1.toOption = some jruby := by
    decide +kernel
  exact (given_again_iff (.inl hasks) (yields_attended_ok hgiven) (shows_attending _ _ _ _ _)
    (yields_attended _ _ _) (shows_attending _ _ _ _ _)).2
    fun _ => ⟨by decide +kernel, by decide +kernel⟩

/-- A user who chooses it where no version is declared is asked again. -/
theorem not_always_given_again :
    ¬ ∀ (o : ResolutionOptions) (files : FileTree) (s s₁ s₂ : Store) (l₁ l₂ : List Exchange)
      (b : Path) (r₂ : Except RubyError Path),
      (Asks l₁ ∨ Unremembered o s files ∧ (discovered? o files).isSome) →
      (findRubyBin o).Yields s l₁ (.ok b) s₁ → Shows files l₁ →
      (findRubyBin o).Yields s₁ l₂ r₂ s₂ → Shows files l₂ → r₂ = .ok b ∧ ¬ Asks l₂ := by
  intro h
  have hasks : Asks (attendance "" (some jruby) .inMemory) := by decide +kernel
  have hgiven : (attended "" (some jruby) .inMemory).1.toOption = some jruby := by decide +kernel
  have hagain := h folderOptions (declaring "") .inMemory _ _ _ _ jruby _ (.inl hasks)
    (yields_attended_ok hgiven) (shows_attending _ _ _ _ _)
    (yields_attended "" none _) (shows_attending _ _ _ _ _)
  exact hagain.2 (by decide +kernel)

end Resolution

end RubySupervisor
