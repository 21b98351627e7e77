import RubySupervisor.Proofs.Files.Sameness
import RubySupervisor.Proofs.Ruby.Assembly
import RubySupervisor.Settings.Basic

/-!
# Paths in another spelling

An environment is built from paths: the directory of Ruby and the gemfile. With other spellings of
these paths it is the same but for the spelling, and so is what is said where it cannot be built.
The directory of a Ruby that is given by its executable does depend on the spelling: it is another
one where one path names a file and the other does not.
-/

namespace RubySupervisor

/-! ## What is the same but for the spelling of paths -/

/-- Failures are the same but for the spelling of paths. -/
def RubyError.Same : RubyError → RubyError → Prop
  | noVersionDeclared p, noVersionDeclared q => p.same q = true
  | invalidVersionFile p source, invalidVersionFile q source' =>
    p.same q = true ∧ source = source'
  | activationFailed p reason, activationFailed q reason' => p.same q = true ∧ reason = reason'
  | bundleGemfileMissing p, bundleGemfileMissing q => p.same q = true
  | io p error, io q error' => p.same q = true ∧ error = error'
  | error, error' => error = error'

@[simp] theorem RubyError.same_refl (error : RubyError) : error.Same error := by
  cases error <;> simp [RubyError.Same]

/-- Outcomes are alike: both are failures that are the same, or both are not and their values are
related. -/
def Alike {α : Type} (R : α → α → Prop) : Except RubyError α → Except RubyError α → Prop
  | .ok a, .ok b => R a b
  | .error error, .error error' => error.Same error'
  | _, _ => False

theorem Alike.cases {α : Type} {R : α → α → Prop} {r r' : Except RubyError α}
    (h : Alike R r r') : (∃ a b, r = .ok a ∧ r' = .ok b ∧ R a b) ∨
      ∃ error error', r = .error error ∧ r' = .error error' ∧ error.Same error' := by
  match r, r' with
  | .ok a, .ok b => exact .inl ⟨a, b, rfl, rfl, h⟩
  | .error error, .error error' => exact .inr ⟨error, error', rfl, rfl, h⟩

theorem Alike.exists_ok_iff {α : Type} {R : α → α → Prop} {r r' : Except RubyError α}
    (h : Alike R r r') : (∃ a, r = .ok a) ↔ ∃ b, r' = .ok b := by
  rcases h.cases with ⟨a, b, rfl, rfl, -⟩ | ⟨error, error', rfl, rfl, -⟩
  · exact iff_of_true ⟨a, rfl⟩ ⟨b, rfl⟩
  · exact iff_of_false nofun nofun

namespace RuntimeEnvironment

/-- A variable is the same in two environments, but for the spelling of paths: that of the gemfile,
and that of the directory of Ruby at the front of the search path. -/
def SameAt (e e' : RuntimeEnvironment) (name : String) : Prop :=
  e.get? name = e'.get? name ∨
    (name = "BUNDLE_GEMFILE" ∧ ∃ g g' : Path, g.same g' = true ∧
      e.get? name = some g.text ∧ e'.get? name = some g'.text) ∨
    (name = "PATH" ∧ ∃ rest, e.get? name = some (e.rubyBin.text ++ rest) ∧
      e'.get? name = some (e'.rubyBin.text ++ rest))

/-- Environments are the same but for the spelling of paths. -/
structure Same (e e' : RuntimeEnvironment) : Prop where
  version : e.rubyVersion = e'.rubyVersion
  rubyBin : e.rubyBin.same e'.rubyBin = true
  gemHome : e.gemHome = e'.gemHome
  yjit : e.yjitSupported = e'.yjitSupported
  bindings : ∀ name, e.SameAt e' name

end RuntimeEnvironment

namespace Settings

/-- Optional paths are the same where they take the same steps. -/
theorem samePath_iff {p q : Option Path} :
    samePath p q = true ↔ p.map Path.components = q.map Path.components := by
  cases p <;> cases q <;> simp [samePath, Path.same_iff]

theorem samePath_refl (p : Option Path) : samePath p p = true := samePath_iff.2 rfl

theorem samePath_symm {p q : Option Path} (h : samePath p q = true) : samePath q p = true :=
  samePath_iff.2 (samePath_iff.1 h).symm

theorem samePath_trans {p q r : Option Path} (h : samePath p q = true)
    (h' : samePath q r = true) : samePath p r = true :=
  samePath_iff.2 ((samePath_iff.1 h).trans (samePath_iff.1 h'))

theorem samePath_cases {p q : Option Path} (h : samePath p q = true) :
    (p = none ∧ q = none) ∨ ∃ a b : Path, p = some a ∧ q = some b ∧ a.same b = true := by
  cases p with
  | none =>
    cases q with
    | none => exact .inl ⟨rfl, rfl⟩
    | some _ => cases h
  | some a =>
    cases q with
    | none => cases h
    | some b => exact .inr ⟨a, b, rfl, rfl, h⟩

end Settings

/-! ## Environments side by side -/

namespace EnvironmentPlan

/-- The plan with other paths in it. -/
def respelled (p : EnvironmentPlan) (rubyBin : Path) (gemfile : Option Path) : EnvironmentPlan :=
  { p with rubyBin, bundleGemfile := gemfile }

variable {p : EnvironmentPlan} {rubyBin : Path} {gemfile : Option Path} {files : FileTree}

/-- Of what follows from the interpreter, only the search path has the directory of Ruby in it. -/
theorem find?_own_respelled {name : String} (h : name ≠ "PATH") :
    (p.respelled rubyBin gemfile).own.find? name = p.own.find? name := by
  simp [own, Dict.find?, h.symm, respelled, gemHome]

/-- There it comes first. -/
theorem exists_searchPath_respelled (p : EnvironmentPlan) : ∃ rest, ∀ rubyBin gemfile,
    (p.respelled rubyBin gemfile).searchPath = rubyBin.text ++ rest := by
  refine ⟨":" ++ String.intercalate ":"
    ([(p.gemHome.join "bin").text, (p.activation.defaultGems.join "bin").text] ++
      ((p.base.find? "PATH").filter (· ≠ "")).toList), fun rubyBin gemfile => ?_⟩
  have hothers : (p.respelled rubyBin gemfile).gemHome = p.gemHome := rfl
  rw [searchPath, List.cons_append, List.cons_append, String.intercalate_cons_cons, hothers,
    String.append_assoc]
  rfl

/-- The variables of plans that differ in the spelling of paths. -/
theorem sameAt_respelled (hgemfile : Settings.samePath p.bundleGemfile gemfile = true)
    (version : RubyVersion) (name : String) :
    (p.assembled version).SameAt ((p.respelled rubyBin gemfile).assembled version) name := by
  have hoverride : (p.respelled rubyBin gemfile).override? name = p.override? name := rfl
  have hoptions : (p.respelled rubyBin gemfile).options? version name = p.options? version name :=
    rfl
  have hbase : (p.respelled rubyBin gemfile).base = p.base := rfl
  unfold RuntimeEnvironment.SameAt
  rw [get?_assembled, get?_assembled, value?, value?, hoverride, hoptions, hbase]
  split
  · exact .inl rfl
  -- overrides are the same on both sides; only two variables of the plan itself show a path
  cases p.override? name with
  | some value => exact .inl rfl
  | none =>
    rw [Option.none_or, Option.none_or]
    by_cases hbundle : name = "BUNDLE_GEMFILE"
    · subst hbundle
      rw [gemfile?, gemfile?, if_pos rfl, if_pos rfl]
      have hrespelled : (p.respelled rubyBin gemfile).bundleGemfile = gemfile := rfl
      rw [hrespelled]
      rcases Settings.samePath_cases hgemfile with ⟨hg, rfl⟩ | ⟨g, g', hg, rfl, hsame⟩
      · rw [hg]
        exact .inl (by rw [find?_own_respelled (by decide)])
      · rw [hg]
        exact .inr (.inl ⟨rfl, g, g', hsame, rfl, rfl⟩)
    · rw [gemfile?, gemfile?, if_neg hbundle, if_neg hbundle, Option.none_or, Option.none_or]
      by_cases hpath : name = "PATH"
      · subst hpath
        obtain ⟨rest, hrest⟩ := p.exists_searchPath_respelled
        have hoption : p.options? version "PATH" = none := if_neg fun h => absurd h.1 (by decide)
        have hown : p.searchPath = p.rubyBin.text ++ rest := hrest p.rubyBin p.bundleGemfile
        rw [hoption, find?_own_path, find?_own_path, hown, hrest]
        exact .inr (.inr ⟨rfl, rest, rfl, rfl⟩)
      · exact .inl (by rw [find?_own_respelled hpath])

/-- Plans that differ in the spelling of paths come to outcomes that are alike, where it makes no
difference to the files. -/
theorem alike_build (hbin : p.rubyBin.same rubyBin = true)
    (hgemfile : Settings.samePath p.bundleGemfile gemfile = true)
    (hfile : ∀ g ∈ p.bundleGemfile, ∀ g' ∈ gemfile, files.isFile g = files.isFile g') :
    Alike RuntimeEnvironment.Same (p.build files) ((p.respelled rubyBin gemfile).build files) := by
  rcases p.refuses_or_accepts files with ⟨error, hrefuses⟩ | ⟨version, haccepts⟩
  · rw [hrefuses.build_eq]
    -- the other plan is refused for the same reason
    cases hrefuses with
    | unrecognized hversion =>
      have hrefuses' : (p.respelled rubyBin gemfile).Refuses files _ := .unrecognized hversion
      rw [hrefuses'.build_eq]
      exact ⟨hbin, rfl⟩
    | unsupported hversion hold =>
      have hrefuses' : (p.respelled rubyBin gemfile).Refuses files _ := .unsupported hversion hold
      rw [hrefuses'.build_eq]
      exact RubyError.same_refl (.unsupportedRuby p.activation.version)
    | @missing _ g hversion hnew hg hmissing =>
      rcases Settings.samePath_cases hgemfile with ⟨hnone, -⟩ | ⟨g₀, g', hg₀, rfl, hsame⟩
      · cases hg.symm.trans hnone
      · obtain rfl := Option.some.inj (hg.symm.trans hg₀)
        rw [hfile g hg g' rfl] at hmissing
        have hrefuses' : (p.respelled rubyBin (some g')).Refuses files _ :=
          .missing hversion hnew rfl hmissing
        rw [hrefuses'.build_eq]
        exact hsame
  · have haccepts' : (p.respelled rubyBin gemfile).Accepts files version := by
      refine ⟨haccepts.recognized, haccepts.supported, fun g' hg' => ?_⟩
      obtain rfl : gemfile = some g' := hg'
      rcases Settings.samePath_cases hgemfile with ⟨-, hnone⟩ | ⟨g, -, hg, -, -⟩
      · cases hnone
      · rw [← hfile g hg g' rfl, haccepts.present g hg]
    rw [haccepts.build_eq, haccepts'.build_eq]
    exact ⟨rfl, hbin, rfl, rfl, sameAt_respelled hgemfile version⟩

end EnvironmentPlan

namespace Installation

variable {files : FileTree} {p q : Path}

/-- The directories of selected Rubies whose paths are the same are the same where both paths name a
file or neither does. -/
theorem same_binDirectory_iff (h : p.same q = true) :
    (binDirectory files p).same (binDirectory files q) = true ↔
      files.isFile p = files.isFile q := by
  have hparent := Path.same_parent h
  cases hp : files.isFile p with
  | true =>
    obtain ⟨above, habove⟩ := FileTree.exists_parent_of_isFile hp
    cases hq : files.isFile q with
    | true =>
      obtain ⟨above', habove'⟩ := FileTree.exists_parent_of_isFile hq
      rw [habove, habove'] at hparent
      simpa [binDirectory, hp, hq, habove, habove', Path.same_iff] using hparent
    | false => simp [binDirectory, hp, hq, habove, Path.not_same_parent habove h]
  | false =>
    cases hq : files.isFile q with
    | true =>
      obtain ⟨above, habove⟩ := FileTree.exists_parent_of_isFile hq
      have hnot := Path.not_same_parent habove (Path.same_symm h)
      have hnot : p.same above = false := Bool.eq_false_iff.2 fun hsame =>
        Bool.eq_false_iff.1 hnot (Path.same_symm hsame)
      simp [binDirectory, hp, hq, habove, hnot]
    | false => simpa [binDirectory, hp, hq] using h

end Installation

/-! ## Options in another spelling -/

namespace ResolutionOptions

/-- The options with other paths in them. -/
def respelled (o : ResolutionOptions) (rubyExecutable gemfile : Option Path) : ResolutionOptions :=
  { o with rubyExecutable, bundleGemfile := gemfile }

/-- The directories of bundles are the same where the gemfiles are. -/
theorem same_bundleDirectory (o : ResolutionOptions) (ruby : Option Path) {gemfile : Option Path}
    (hgemfile : Settings.samePath o.bundleGemfile gemfile = true) :
    o.bundleDirectory.same (o.respelled ruby gemfile).bundleDirectory = true := by
  have hother : (o.respelled ruby gemfile).bundleDirectory =
      (gemfile.bind Path.parent?).getD o.directory := rfl
  rw [hother, bundleDirectory]
  rcases Settings.samePath_cases hgemfile with ⟨hg, rfl⟩ | ⟨g, g', hg, rfl, hsame⟩
  · rw [hg]
    exact o.directory.same_refl
  · have hparent := Path.same_parent hsame
    rw [hg, Option.bind_some, Option.bind_some]
    cases hp : g.parent? with
    | none =>
      rw [hp] at hparent
      rw [Option.map_eq_none_iff.1 hparent.symm]
      exact o.directory.same_refl
    | some above =>
      rw [hp] at hparent
      obtain ⟨above', hp', hcomponents⟩ := Option.map_eq_some_iff.1 hparent.symm
      rw [hp']
      exact Path.same_iff.2 hcomponents.symm

end ResolutionOptions

end RubySupervisor
