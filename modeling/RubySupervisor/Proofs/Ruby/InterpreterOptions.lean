import RubySupervisor.Proofs.Host.Trace
import RubySupervisor.Proofs.Ruby.Assembly
import RubySupervisor.Proofs.Text.Writing
import RubySupervisor.Ruby.Resolution
import RubySupervisor.Settings.Basic

/-!
# The options of the interpreter

The options with which Ruby runs come from the settings, and else from the base environment. For a
Ruby 3.2 that has the just-in-time compiler the activation writes options of its own instead, unless
the settings name some. Whether the settings ask for the compiler plays no part in this.
-/

namespace RubySupervisor

/-- Interpreter options, without blanks around them, that switch the compiler on already. -/
def SwitchedOn (options : Option String) : Prop :=
  ∃ text, options = some text ∧ Text.trim text = text ∧ (Text.words text).contains "--yjit"

/-- The Ruby of an environment has the compiler and does not switch it on by itself. -/
def RuntimeEnvironment.SwitchesLate (e : RuntimeEnvironment) : Prop :=
  e.yjitSupported = true ∧ ∃ version, RubyVersion.parse? e.rubyVersion = some version ∧
    version.major = 3 ∧ version.minor = 2

namespace EnvironmentPlan

theorem withYjit_blank {text : String} (h : Text.trim text = "") :
    withYjit (some text) = "--yjit" := by
  simp [withYjit, h, Option.filter]

theorem withYjit_some {text : String} (h : Text.trim text ≠ "") :
    withYjit (some text) =
      if (Text.words (Text.trim text)).contains "--yjit" then Text.trim text
      else Text.trim text ++ " --yjit" := by
  simp [withYjit, h, Option.filter]

/-- Switching the compiler on leaves exactly those options alone that do so already. -/
theorem withYjit_eq_iff (options : Option String) :
    some (withYjit options) = options ↔ SwitchedOn options := by
  cases options with
  | none => simp [SwitchedOn]
  | some text =>
    have hswitched : SwitchedOn (some text) ↔
        Text.trim text = text ∧ (Text.words text).contains "--yjit" := by simp [SwitchedOn]
    rw [hswitched, Option.some_inj]
    by_cases hblank : Text.trim text = ""
    · rw [withYjit_blank hblank]
      constructor
      · rintro rfl
        exact absurd hblank (by decide +kernel)
      · rintro ⟨htrim, hword⟩
        rw [← htrim, hblank] at hword
        exact absurd hword (by decide +kernel)
    · rw [withYjit_some hblank]
      split
      · rename_i hword
        exact ⟨fun htrim => ⟨htrim, htrim ▸ hword⟩, fun h => h.1⟩
      · rename_i hword
        constructor
        · intro heq
          -- otherwise the option has been added, and a text never ends up as it was with more at
          -- its end
          have hchars : Text.trimChars text.toList ++ (" --yji".toList ++ ['t']) = text.toList := by
            simpa [Text.trim] using congrArg String.toList heq
          have hsome : Text.trimChars text.toList ≠ [] :=
            fun hnil => hblank (by rw [Text.trim, hnil])
          exact absurd hchars (Text.trimChars_append_ne hsome (by decide))
        · exact fun h => absurd (h.1.symm ▸ h.2) hword

/-- The interpreter options of an environment come from the overrides, and else from the base
environment, where the compiler is switched on for a Ruby that does not do so itself. -/
theorem get?_options_of_build {p : EnvironmentPlan} {files : FileTree} {e : RuntimeEnvironment}
    (hnames : p.overrides.names.Nodup) (h : p.build files = .ok e) :
    (e.SwitchesLate → e.get? "RUBYOPT" =
        (p.overrides.find? "RUBYOPT").or (some (withYjit (p.base.find? "RUBYOPT")))) ∧
      (¬ e.SwitchesLate → e.get? "RUBYOPT" =
        (p.overrides.find? "RUBYOPT").or (p.base.find? "RUBYOPT")) := by
  obtain ⟨version, haccepts, rfl⟩ := build_eq_ok_iff.1 h
  have hkept : ¬ "RUBY_GC".toList <+: "RUBYOPT".toList := by decide
  have hown : p.own.find? "RUBYOPT" = none := by simp [own, Dict.find?]
  have hlate : (p.assembled version).SwitchesLate ↔
      p.HasCompiler version ∧ version.major = 3 ∧ version.minor = 2 := by
    simp [RuntimeEnvironment.SwitchesLate, assembled, haccepts.recognized, yjitSupported_iff]
  rw [get?_assembled, value?, if_neg hkept, override?_eq hnames, hlate, hown, withYjit_eq]
  constructor
  · intro hswitches
    simp [gemfile?, options?, hswitches]
  · intro hearly
    simp [gemfile?, options?, hearly]

end EnvironmentPlan

namespace Resolution

/-- An environment that is activated is built on the base environment, under the overrides. -/
theorem ensures_activateWith (o : ResolutionOptions) (rubyBin : Path) (s : Store) :
    (activateWith o rubyBin).Ensures (fun _ r _ => ∀ e, r = .ok e →
      ∃ (p : EnvironmentPlan) (files : FileTree), p.base = o.base ∧ p.overrides = o.overrides ∧
        p.build files = .ok e) s := by
  simp only [activateWith, Task.ask_eq, Task.ensures_bind, Task.ensures_call, Task.ensures_done]
  intro answer
  cases answer with
  | error error => simp
  | ok activation => exact fun files e he => ⟨_, files, rfl, rfl, he⟩

/-- An environment that is activated is built on the base environment, under the overrides. -/
theorem ensures_activate (o : ResolutionOptions) (s : Store) :
    (activate o).Ensures (fun _ r _ => ∀ e, r = .ok e →
      ∃ (p : EnvironmentPlan) (files : FileTree), p.base = o.base ∧ p.overrides = o.overrides ∧
        p.build files = .ok e) s := by
  simp only [activate, Task.ensures_bind]
  refine Task.ensures_of_yields fun l found s' _ => ?_
  cases found with
  | error error => simp
  | ok rubyBin => exact ensures_activateWith o rubyBin s'

end Resolution

namespace Settings

/-- The interpreter options that the settings ask for, or else the base environment. -/
def rubyOptions (s : Settings) (base : Dict String) : Option String :=
  (s.environment.find? "RUBYOPT").or (base.find? "RUBYOPT")

/-- An environment of some settings in which the activation switches the compiler on: its Ruby does
not do so itself, and neither the settings name interpreter options nor does the base environment
name some that switch it on already. -/
def Overruled (s : Settings) (base : Dict String) (e : RuntimeEnvironment) : Prop :=
  e.SwitchesLate ∧ s.environment.find? "RUBYOPT" = none ∧ ¬ SwitchedOn (base.find? "RUBYOPT")

/-- **Theorem (interpreter options).** Ruby runs with the interpreter options of the settings, or
else of the base environment, exactly if the activation does not switch the compiler on. Whether the
settings ask for the compiler makes no difference. -/
theorem options_kept_iff_not_overruled {s : Settings} {root : Path} {base : Dict String}
    {store store' : Store} {l : List Exchange} {e : RuntimeEnvironment}
    (hnames : s.environment.names.Nodup)
    (h : (Resolution.activate (s.resolutionOptions root base)).Yields store l (.ok e) store') :
    e.get? "RUBYOPT" = s.rubyOptions base ↔ ¬ s.Overruled base e := by
  obtain ⟨p, files, hbase, hoverrides, hbuild⟩ :=
    (Resolution.ensures_activate _ _).yields h e rfl
  have hbase : p.base = base := hbase
  have hoverrides : p.overrides = s.environment := hoverrides
  obtain ⟨hlate, hearly⟩ :=
    EnvironmentPlan.get?_options_of_build (hoverrides ▸ hnames) hbuild
  rw [hbase, hoverrides] at hlate hearly
  by_cases hswitches : e.SwitchesLate
  · cases hown : s.environment.find? "RUBYOPT" with
    | some options => simp [hlate hswitches, rubyOptions, Overruled, hown]
    | none =>
      rw [hlate hswitches, rubyOptions, hown, Option.none_or, Option.none_or,
        EnvironmentPlan.withYjit_eq_iff]
      simp [Overruled, hswitches, hown]
  · simp [hearly hswitches, rubyOptions, Overruled, hswitches]

/-- Settings that do not ask for the compiler, with variables of their own. -/
def withoutCompiler (environment : Dict String) : Settings :=
  { Settings.default with yjit := false, environment }

/-- The answer of a Ruby 3.2 that has the compiler. -/
def lateRuby : Except RubyError Activation :=
  .ok ⟨⟨"/gems"⟩, ⟨"/gems"⟩, "3.2.2", some "constant"⟩

/-- The environment of such a Ruby for some settings. -/
def activated? (s : Settings) : Option RuntimeEnvironment :=
  ((Resolution.activate (s.resolutionOptions ⟨"/w"⟩ .empty)).run agreeable .inMemory
    lateRuby).1.toOption

theorem exists_yields_of_activated? {s : Settings} {e : RuntimeEnvironment}
    (h : s.activated? = some e) : ∃ l store',
      (Resolution.activate (s.resolutionOptions ⟨"/w"⟩ .empty)).Yields .inMemory l (.ok e)
        store' :=
  ⟨_, _, Task.yields_of_toOption h⟩

/-- The options that the settings name are kept. -/
theorem named_options_kept : ∃ l e store',
    (withoutCompiler [("RUBYOPT", "-W0")]).environment.names.Nodup ∧
    (Resolution.activate ((withoutCompiler [("RUBYOPT", "-W0")]).resolutionOptions ⟨"/w"⟩
      .empty)).Yields .inMemory l (.ok e) store' ∧
    e.get? "RUBYOPT" = some "-W0" := by
  have hnames : (withoutCompiler [("RUBYOPT", "-W0")]).environment.names.Nodup := by decide +kernel
  have hsome : (withoutCompiler [("RUBYOPT", "-W0")]).activated?.isSome = true := by
    decide +kernel
  obtain ⟨e, he⟩ := Option.isSome_iff_exists.1 hsome
  obtain ⟨l, store', h⟩ := exists_yields_of_activated? he
  have hnamed : ¬ (withoutCompiler [("RUBYOPT", "-W0")]).Overruled .empty e :=
    fun hoverruled => absurd hoverruled.2.1 (by decide +kernel)
  exact ⟨l, e, store', hnames, h, (options_kept_iff_not_overruled hnames h).2 hnamed⟩

/-- The compiler is switched on for settings that do not ask for it. -/
theorem not_always_kept :
    ¬ ∀ (s : Settings) (root : Path) (base : Dict String) (store store' : Store)
      (l : List Exchange) (e : RuntimeEnvironment), s.yjit = false → s.environment.names.Nodup →
      (Resolution.activate (s.resolutionOptions root base)).Yields store l (.ok e) store' →
      e.get? "RUBYOPT" = s.rubyOptions base := by
  intro h
  have hsome : ∃ e, (withoutCompiler []).activated? = some e ∧
      e.get? "RUBYOPT" = some "--yjit" := by
    have hadded : (withoutCompiler []).activated?.bind (·.get? "RUBYOPT") = some "--yjit" := by
      decide +kernel
    exact Option.bind_eq_some_iff.1 hadded
  obtain ⟨e, he, hadded⟩ := hsome
  obtain ⟨l, store', hyields⟩ := exists_yields_of_activated? he
  have hkept := h (withoutCompiler []) _ _ _ _ _ _ rfl List.nodup_nil hyields
  rw [hadded] at hkept
  exact absurd hkept (by decide +kernel)

end Settings

end RubySupervisor
