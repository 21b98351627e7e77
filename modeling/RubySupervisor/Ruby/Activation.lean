import RubySupervisor.Json.Skipping
import RubySupervisor.Ruby.Error
import RubySupervisor.Text.Scan

/-!
# What an interpreter says about itself

An activation probe prints one document on the error stream, after whatever warnings the
interpreter printed. The document starts at the last place where its first key stands.
-/

namespace RubySupervisor

/-- The answers of an interpreter. -/
structure Activation where
  defaultGems : Path
  gems : Path
  version : String
  yjit : Option String
  deriving DecidableEq, Repr

namespace Activation

/-- The program that an interpreter runs to print its activation document. -/
def script : String :=
  "STDERR.print(JSON.dump(\x7b defaultGems: Gem.default_dir, gems: Gem.user_dir, " ++
    "version: RUBY_VERSION, yjit: defined?(RubyVM::YJIT) \x7d))"

/-- The arguments with which an interpreter is probed. -/
def arguments : List String := ["-rjson", "-e", script]

/-- How an activation document starts. -/
def mark : List Char := "\x7b\"defaultGems\"".toList

/-- The activation that a record describes. -/
def ofRecord? (r : Json.Record) : Option Activation := do
  return {
    defaultGems := ⟨← r.required "defaultGems" Json.text?⟩
    gems := ⟨← r.required "gems" Json.text?⟩
    version := ← r.required "version" Json.text?
    yjit := ← r.optional "yjit" Json.text? }

/-- The activation that a document describes. Other members than its fields are passed over. -/
def parse? (document : List Char) : Option Activation :=
  (Json.Record.read? ["defaultGems", "gems", "version", "yjit"] document).bind ofRecord?

/-- The activation in the output of a probe. -/
def ofOutput (output : String) : Except ActivationFailure Activation :=
  match Text.cutLast? mark output.toList with
  | none => .error (.noDocument output)
  | some (_, rest) =>
    match parse? (Text.trimChars (mark ++ rest)) with
    | some activation => .ok activation
    | none => .error .malformedDocument

end Activation

end RubySupervisor
