import RubySupervisor.Ruby.Environment

/-!
# Which source decides a variable

An environment is written from several sources, one over the other, and some variables are left out
at the end. Seen from one variable it is the other way round: the source that counts most and has
the variable decides it, and all others have no say in it.
-/

namespace RubySupervisor

namespace EnvironmentPlan

variable {p : EnvironmentPlan} {files : FileTree} {error : RubyError} {version : RubyVersion}

/-! ## What is refused -/

/-- Why no environment is built. -/
inductive Refuses (p : EnvironmentPlan) (files : FileTree) : RubyError → Prop where
  | unrecognized (hversion : RubyVersion.parse? p.activation.version = none) :
      Refuses p files (.activationFailed p.rubyBin (.unrecognizedVersion p.activation.version))
  | unsupported {version : RubyVersion}
      (hversion : RubyVersion.parse? p.activation.version = some version)
      (hold : version.major < 3) : Refuses p files (.unsupportedRuby p.activation.version)
  | missing {version : RubyVersion} {gemfile : Path}
      (hversion : RubyVersion.parse? p.activation.version = some version)
      (hnew : 3 ≤ version.major) (hgemfile : p.bundleGemfile = some gemfile)
      (hfile : files.isFile gemfile = false) : Refuses p files (.bundleGemfileMissing gemfile)

/-- Nothing of a plan with this version is refused. -/
structure Accepts (p : EnvironmentPlan) (files : FileTree) (version : RubyVersion) : Prop where
  recognized : RubyVersion.parse? p.activation.version = some version
  supported : 3 ≤ version.major
  present : ∀ gemfile ∈ p.bundleGemfile, files.isFile gemfile = true

/-- The environment of a plan of which nothing is refused. -/
def assembled (p : EnvironmentPlan) (version : RubyVersion) : RuntimeEnvironment :=
  let bindings := p.withCompiler version p.derived
  let bindings := p.bundleGemfile.elim bindings (bindings.insert "BUNDLE_GEMFILE" ·.text)
  { bindings := (bindings.insertAll p.overrides).filter
      (fun entry => !Text.startsWith entry.1 tuningMark)
    rubyVersion := p.activation.version
    rubyBin := p.rubyBin
    gemHome := p.gemHome
    yjitSupported := p.yjitSupported version }

/-- A plan is refused, or nothing of it is. -/
theorem refuses_or_accepts (p : EnvironmentPlan) (files : FileTree) :
    (∃ error, p.Refuses files error) ∨ ∃ version, p.Accepts files version := by
  cases hversion : RubyVersion.parse? p.activation.version with
  | none => exact .inl ⟨_, .unrecognized hversion⟩
  | some version =>
    rcases Nat.lt_or_ge version.major 3 with hold | hnew
    · exact .inl ⟨_, .unsupported hversion hold⟩
    · cases hgemfile : p.bundleGemfile with
      | none => exact .inr ⟨version, hversion, hnew, by simp [hgemfile]⟩
      | some gemfile =>
        cases hfile : files.isFile gemfile with
        | false => exact .inl ⟨_, .missing hversion hnew hgemfile hfile⟩
        | true => exact .inr ⟨version, hversion, hnew, by simp [hgemfile, hfile]⟩

theorem Refuses.build_eq (h : p.Refuses files error) : p.build files = .error error := by
  unfold build
  cases h with
  | unrecognized hversion =>
    rw [hversion]
    rfl
  | unsupported hversion hold =>
    rw [hversion]
    simp only [pure_bind, if_pos hold]
    rfl
  | missing hversion hnew hgemfile hfile =>
    rw [hversion]
    simp only [pure_bind, if_neg (Nat.not_lt_of_le hnew), hgemfile, hfile]
    rfl

theorem Accepts.build_eq (h : p.Accepts files version) :
    p.build files = .ok (p.assembled version) := by
  unfold build assembled
  rw [h.recognized]
  simp only [pure_bind, if_neg (Nat.not_lt_of_le h.supported)]
  cases hgemfile : p.bundleGemfile with
  | none => rfl
  | some gemfile =>
    simp only [h.present gemfile hgemfile, if_true]
    rfl

theorem build_eq_error_iff : p.build files = .error error ↔ p.Refuses files error := by
  refine ⟨fun h => ?_, Refuses.build_eq⟩
  rcases p.refuses_or_accepts files with ⟨error', hrefuses⟩ | ⟨version, haccepts⟩
  · obtain rfl := Except.error.inj (hrefuses.build_eq.symm.trans h)
    exact hrefuses
  · cases haccepts.build_eq.symm.trans h

/-- An environment is the one of a plan of which nothing is refused. -/
theorem build_eq_ok_iff {e : RuntimeEnvironment} :
    p.build files = .ok e ↔ ∃ version, p.Accepts files version ∧ e = p.assembled version := by
  constructor
  · intro h
    rcases p.refuses_or_accepts files with ⟨error, hrefuses⟩ | ⟨version, haccepts⟩
    · cases hrefuses.build_eq.symm.trans h
    · exact ⟨version, haccepts, Except.ok.inj (h.symm.trans haccepts.build_eq)⟩
  · rintro ⟨version, haccepts, rfl⟩
    exact haccepts.build_eq

/-! ## Which source decides -/

/-- The interpreter has the just-in-time compiler: it says so, and its version is 3.2 or later. -/
def HasCompiler (p : EnvironmentPlan) (version : RubyVersion) : Prop :=
  p.activation.yjit = some "constant" ∧
    (3 < version.major ∨ version.major = 3 ∧ 2 ≤ version.minor)

instance (p : EnvironmentPlan) (version : RubyVersion) : Decidable (p.HasCompiler version) :=
  inferInstanceAs (Decidable (_ ∧ _))

theorem yjitSupported_iff (p : EnvironmentPlan) (version : RubyVersion) :
    p.yjitSupported version = true ↔ p.HasCompiler version := by
  simp [yjitSupported, HasCompiler, RubyVersion.atLeast]

/-- Interpreter options with the compiler switched on: the given ones without the blanks around
them, with the switch behind them unless it is one of them. -/
def switchedOn (options : Option String) : String :=
  let given := Text.trim (options.getD "")
  if given = "" then "--yjit"
  else if "--yjit" ∈ Text.words given then given
  else given ++ " --yjit"

theorem withYjit_eq (options : Option String) : withYjit options = switchedOn options := by
  cases options with
  | none => decide +kernel
  | some text =>
    by_cases hblank : Text.trim text = "" <;>
      simp [withYjit, switchedOn, Option.filter, hblank]

/-- The variables that follow from the interpreter and its gem directories. -/
def own (p : EnvironmentPlan) : Dict String :=
  [("GEM_HOME", p.gemHome.text),
    ("GEM_ROOT", p.activation.defaultGems.text),
    ("GEM_PATH", p.gemHome.text ++ ":" ++ p.activation.defaultGems.text),
    ("RUBY_VERSION", p.activation.version),
    ("PATH", p.rubyBin.text ++ ":" ++ (p.gemHome.join "bin").text ++ ":" ++
      (p.activation.defaultGems.join "bin").text ++
      match p.base.find? "PATH" with
      | none | some "" => ""
      | some path => ":" ++ path)]

/-- One of them is the search path. -/
theorem searchPath_eq (p : EnvironmentPlan) :
    p.searchPath = p.rubyBin.text ++ ":" ++ (p.gemHome.join "bin").text ++ ":" ++
      (p.activation.defaultGems.join "bin").text ++
      match p.base.find? "PATH" with
      | none | some "" => ""
      | some path => ":" ++ path := by
  cases hpath : p.base.find? "PATH" with
  | none => simp [searchPath, hpath, String.intercalate_cons_cons, String.append_assoc]
  | some path =>
    by_cases hempty : path = "" <;>
      simp [searchPath, hpath, Option.filter, hempty, String.intercalate_cons_cons,
        String.append_assoc]

theorem find?_own_path (p : EnvironmentPlan) : p.own.find? "PATH" = some p.searchPath := by
  rw [searchPath_eq]
  simp [own, Dict.find?]

/-- They are written over the base environment. -/
theorem derived_eq (p : EnvironmentPlan) : p.derived = p.base.insertAll p.own := by
  rw [derived, searchPath_eq]
  rfl

theorem find?_derived (p : EnvironmentPlan) (name : String) :
    p.derived.find? name = (p.own.find? name).or (p.base.find? name) := by
  have hnames : p.own.names =
      ["GEM_HOME", "GEM_ROOT", "GEM_PATH", "RUBY_VERSION", "PATH"] := rfl
  rw [derived_eq, Dict.find?_insertAll (by rw [hnames]; decide)]

/-- The variable that the overrides give; of several of one name, the last one counts. -/
def override? (p : EnvironmentPlan) (name : String) : Option String :=
  (Dict.ofPairs p.overrides).find? name

theorem override?_eq (hnames : p.overrides.names.Nodup) (name : String) :
    p.override? name = p.overrides.find? name := by
  rw [override?, Dict.ofPairs, Dict.find?_insertAll hnames, Dict.find?_empty, Option.or_none]

/-- The variable that a configured gemfile gives. -/
def gemfile? (p : EnvironmentPlan) (name : String) : Option String :=
  if name = "BUNDLE_GEMFILE" then p.bundleGemfile.map (·.text) else none

/-- The variable that an interpreter gives which has the compiler and does not switch it on by
itself. -/
def options? (p : EnvironmentPlan) (version : RubyVersion) (name : String) : Option String :=
  if name = "RUBYOPT" ∧ p.HasCompiler version ∧ version.major = 3 ∧ version.minor = 2 then
    some (switchedOn (p.base.find? "RUBYOPT"))
  else none

/-- The value of a variable, from the source that counts most to the one that counts least. The
variables that tune the garbage collector have none. -/
def value? (p : EnvironmentPlan) (version : RubyVersion) (name : String) : Option String :=
  if "RUBY_GC".toList <+: name.toList then none
  else
    (p.override? name).or <| (p.gemfile? name).or <| (p.options? version name).or <|
      (p.own.find? name).or (p.base.find? name)

theorem find?_withCompiler (p : EnvironmentPlan) (version : RubyVersion) (name : String) :
    (p.withCompiler version p.derived).find? name =
      (p.options? version name).or ((p.own.find? name).or (p.base.find? name)) := by
  have hoptions : p.derived.find? "RUBYOPT" = p.base.find? "RUBYOPT" := by
    rw [find?_derived]
    simp [own, Dict.find?]
  have hlate : (p.yjitSupported version && version.major = 3 && version.minor = 2) = true ↔
      p.HasCompiler version ∧ version.major = 3 ∧ version.minor = 2 := by
    simp [yjitSupported_iff, and_assoc]
  unfold withCompiler options?
  by_cases hswitches : p.HasCompiler version ∧ version.major = 3 ∧ version.minor = 2
  · rw [if_pos (hlate.2 hswitches), Dict.find?_insert, hoptions, withYjit_eq]
    by_cases hname : name = "RUBYOPT"
    · simp [hname, hswitches]
    · simp [hname, Ne.symm hname, find?_derived]
  · rw [if_neg fun h => hswitches (hlate.1 h), if_neg fun h => hswitches h.2, find?_derived,
      Option.none_or]

theorem startsWith_tuningMark {name : String} :
    Text.startsWith name tuningMark = true ↔ "RUBY_GC".toList <+: name.toList := by
  rw [Text.startsWith_iff]
  rfl

/-- The source that counts most decides a variable. -/
theorem get?_assembled (p : EnvironmentPlan) (version : RubyVersion) (name : String) :
    (p.assembled version).get? name = p.value? version name := by
  unfold assembled value? RuntimeEnvironment.get?
  by_cases htunes : "RUBY_GC".toList <+: name.toList
  · have htuning := startsWith_tuningMark.2 htunes
    rw [if_pos htunes, Dict.find?_filter_eq_none fun _ => by rw [htuning]; rfl]
  · have hkept := Bool.eq_false_iff.2 fun h => htunes (startsWith_tuningMark.1 h)
    rw [if_neg htunes, Dict.find?_filter fun _ => by rw [hkept]; rfl,
      Dict.find?_insertAll_eq_or]
    congr 1
    rw [← find?_withCompiler, gemfile?]
    cases p.bundleGemfile with
    | none => simp
    | some gemfile =>
      by_cases hname : name = "BUNDLE_GEMFILE"
      · simp [hname, Dict.find?_insert]
      · simp [hname, Ne.symm hname, Dict.find?_insert]

/-- **Theorem (assembly).** A plan fails for the first reason that there is to refuse it: a version
that is none, one before 3.0, a gemfile that is no file. Else each variable of its environment is
decided by the source that counts most, and the compiler is there exactly if the interpreter has
it. -/
theorem last_source_decides (p : EnvironmentPlan) (files : FileTree) :
    (∀ error, p.build files = .error error ↔ p.Refuses files error) ∧
    ((∃ e, p.build files = .ok e) ↔ ∀ error, ¬ p.Refuses files error) ∧
    ∀ e, p.build files = .ok e →
      ∃ version, RubyVersion.parse? p.activation.version = some version ∧
        (∀ name, e.get? name = p.value? version name) ∧
        (e.yjitSupported = true ↔ p.HasCompiler version) := by
  refine ⟨fun error => build_eq_error_iff, ?_, ?_⟩
  · rcases p.refuses_or_accepts files with ⟨error, hrefuses⟩ | ⟨version, haccepts⟩
    · refine iff_of_false ?_ fun h => h error hrefuses
      rintro ⟨e, he⟩
      cases hrefuses.build_eq.symm.trans he
    · refine iff_of_true ⟨_, haccepts.build_eq⟩ fun error hrefuses => ?_
      cases hrefuses.build_eq.symm.trans haccepts.build_eq
  · intro e he
    obtain ⟨version, haccepts, rfl⟩ := build_eq_ok_iff.1 he
    exact ⟨version, haccepts.recognized, p.get?_assembled version, p.yjitSupported_iff version⟩

end EnvironmentPlan

end RubySupervisor
