import RubySupervisor.Host.Task
import RubySupervisor.Ruby.Environment
import RubySupervisor.Session.Options

/-!
# Probing a project's bundle

Questions that are answered by running Ruby in the project: which formatter it depends on, and
which version of the server its bundle holds.
-/

namespace RubySupervisor.BundleProbe

variable {σ : Type}

/-- The program that ends successfully exactly if a direct dependency matches a pattern. -/
def dependencyScript (pattern : String) : String :=
  "gemfile_dependencies = Bundler.locked_gems.dependencies.keys\n"
    ++ "gemspec_dependencies = Bundler.locked_gems.sources.grep(Bundler::Source::Gemspec)"
    ++ ".flat_map do\n"
    ++ "_1.gemspec&.dependencies&.map(&:name)\n"
    ++ "end\n"
    ++ "exit 1 unless (gemfile_dependencies + gemspec_dependencies).any?(" ++ pattern ++ ")\n"

/-- Whether the project directly depends on a gem that matches a pattern. The project's own bundle
is asked; a probe that cannot run counts as a no. -/
def hasDependency (environment : RuntimeEnvironment) (directory : Path) (pattern : String) :
    Task σ Bool := do
  let answer : Except ServerError CommandOutput ← Task.ask (.run {
    program := "ruby"
    arguments := ["-rbundler/setup", "-e", dependencyScript pattern]
    directory
    environment := environment.without "BUNDLE_GEMFILE"
    timeout := none })
  match answer with
  | .ok output => return output.isSuccess
  | .error _ => return false

/-- The formatter that the dependencies of the project suggest. -/
def detectFormatter (environment : RuntimeEnvironment) (directory : Path) : Task σ Formatter := do
  if ← hasDependency environment directory "/^rubocop/" then return .rubocop
  else if ← hasDependency environment directory "/^syntax_tree$/" then return .syntaxTree
  else return .off

/-- The places of a bundle that the server may have set up, the first one first. -/
def generatedGemfiles : List String := [".ruby-lsp/Gemfile", ".ruby-lsp/gems.rb", "gems.rb"]

/-- The gemfile of the bundle that holds the server: a configured one, one that the server has set
up, or the project's own. -/
def serverGemfile (files : FileTree) (directory : Path) (configured : Option Path) : Path :=
  match configured with
  | some gemfile => directory.join gemfile.text
  | none =>
    ((generatedGemfiles.map directory.join).find? files.pathExists).getD (directory.join "Gemfile")

/-- The arguments with which a bundle is asked for the version of the server. -/
def versionArguments : List String :=
  ["exec", "ruby", "-e", "require 'ruby-lsp'; STDERR.print(RubyLsp::VERSION)"]

/-- The version of the server in its bundle. -/
def serverVersion (environment : RuntimeEnvironment) (directory : Path)
    (configured : Option Path) : Task σ (Except ServerError String) := do
  let files : FileTree ← Task.ask .files
  let gemfile := serverGemfile files directory configured
  let command : Command := {
    program := "bundle"
    arguments := versionArguments
    directory
    environment := environment.withVariable "BUNDLE_GEMFILE" gemfile.text
    timeout := none }
  let answer : Except ServerError CommandOutput ← Task.ask (.run command)
  match command.checked answer with
  | .ok output => return .ok (Text.trim output.errors)
  | .error error => return .error error

end RubySupervisor.BundleProbe
