import RubySupervisor.Proofs.Ruby.Patterns
import RubySupervisor.Proofs.Ruby.Searching

/-!
# Versions as they are written

A full version may be declared in files of every kind. All of the patterns take it whole but the one
for lists, which asks for three numbers and has no part for a suffix.
-/

namespace RubySupervisor.Declaration

open FullVersion (Ends)
open Text (IsRun isBlank isDecimalDigit)

variable {v : FullVersion}

/-- A file of a kind declares a full version, and nothing else for Ruby before it. -/
inductive Declares (v : FullVersion) : VersionSource → List Char → Prop where
  /-- An item of a list. -/
  | item {before after : List Char} (hbefore : ¬ "- ruby: ".toList <:+: before)
      (hafter : Ends after) :
      Declares v .devYml (before ++ ("- ruby: ".toList ++ (v.chars ++ after)))
  /-- An item in quotes. -/
  | quotedItem {before after : List Char} {quote : Char}
      (hbefore : ¬ "- ruby: ".toList <:+: before) (hquote : isQuote quote = true) :
      Declares v .devYml (before ++ ("- ruby: ".toList ++ quote :: (v.chars ++ quote :: after)))
  /-- A file for nothing else, in the project or for all of them. -/
  | dotfile {source : VersionSource} {before after : List Char}
      (hsource : source = .rubyVersion ∨ source = .globalRbenv)
      (hbefore : ∀ c ∈ before, isDecimalDigit c = false) (hafter : Ends after) :
      Declares v source (before ++ (v.chars ++ after))
  /-- A line behind lines for other tools. -/
  | tool {lines : List (List Char)} {indent gap after : List Char}
      (hlines : ∀ line ∈ lines, '\n' ∉ line ∧ ¬ ForRuby line)
      (hindent : ∀ c ∈ indent, isBlank c = true) (hgap : IsRun isBlank gap)
      (hafter : Ends after) :
      Declares v .toolVersions (lines.flatMap (· ++ ['\n']) ++
        (indent ++ ("ruby".toList ++ (gap ++ (v.chars ++ after)))))
  /-- A key of a table. -/
  | entry {before gap gap' after : List Char} {quote : Char}
      (hbefore : ∀ gap, (∀ c ∈ gap, isBlank c = true) → ¬ key gap <:+: before)
      (hgap : ∀ c ∈ gap, isBlank c = true) (hgap' : ∀ c ∈ gap', isBlank c = true)
      (hquote : isQuote quote = true) :
      Declares v .rtxToml
        (before ++ (key gap ++ (gap' ++ quote :: (v.chars ++ quote :: after))))

/-- What is taken of a declared version: of an item in a list only the numbers. -/
def kept (v : FullVersion) (source : VersionSource) : List Char :=
  if source = .devYml then v.numbers else v.chars

theorem Declares.exists_inFile? {source : VersionSource} {contents : List Char}
    (h : Declares v source contents) :
    ∃ engine, inFile? source contents = some (engine, kept v source) := by
  cases h with
  | item hbefore hafter =>
    refine ⟨none, ?_⟩
    rw [inFile?, inDevYml?_append hbefore (afterQuote_append v _)
      (dashed_not_digit hafter.isDecimalDigit)]
    rfl
  | @quotedItem before after quote hbefore hquote =>
    refine ⟨none, ?_⟩
    have hitem : afterQuote (quote :: (v.chars ++ quote :: after)) =
        v.numbers ++ (v.dashed ++ quote :: after) :=
      (afterQuote_quote hquote _).trans (List.append_assoc _ _ _)
    -- the quote behind the version ends it
    have hdigit : ∀ c ∈ (quote :: after).head?, isDecimalDigit c = false := by
      rintro c ⟨⟩
      exact isDecimalDigit_of_isQuote hquote
    rw [inFile?, inDevYml?_append hbefore hitem (dashed_not_digit hdigit)]
    rfl
  | dotfile hsource hbefore hafter =>
    obtain ⟨engine, hfound⟩ := exists_inRubyVersion?_append (v := v) hbefore hafter
    refine ⟨engine, ?_⟩
    rcases hsource with rfl | rfl
    · exact hfound
    · exact hfound
  | tool hlines hindent hgap hafter =>
    refine ⟨none, ?_⟩
    rw [inFile?, inToolVersions?_lines hlines, inToolVersions?_ruby hindent hgap hafter]
    rfl
  | entry hbefore hgap hgap' hquote =>
    refine ⟨none, ?_⟩
    rw [inFile?, inRtxToml?_key hbefore hgap hgap' hquote hquote (inside_quotes v) v.chars_ne_nil]
    rfl

/-- **Theorem (versions as written).** A full version is taken as it is written, whatever kind of
file declares it, exactly unless it has a suffix and stands in a list. There its numbers are taken. -/
theorem version_kept_iff {files : FileTree} {directory path : Path} {home : Option Path}
    {source : VersionSource} {contents : String} {v : FullVersion}
    (hfirst : First files.Reads (candidates directory home) source path contents)
    (hdeclares : Declares v source contents.toList) :
    ∃ d, read files directory home = .ok d ∧ d.source = source ∧ d.path = path ∧
      d.version = String.ofList (kept v source) ∧
      (d.version = v.text ↔ ¬ (source = .devYml ∧ v.suffix.isSome = true)) := by
  obtain ⟨engine, hfound⟩ := hdeclares.exists_inFile?
  refine ⟨⟨engine.map String.ofList, String.ofList (kept v source), source, path⟩, ?_, rfl, rfl,
    rfl, ?_⟩
  · rw [hfirst.read_eq, ofContents, hfound]
  · rw [FullVersion.text, String.ofList_inj, kept]
    split
    · next hsource => simp [FullVersion.numbers_eq_chars_iff, hsource]
    · next hsource => simp [hsource]

/-- A preview release. -/
def preview : FullVersion :=
  { FullVersion.release 3 3 0 with
    suffix := some "preview1".toList
    isRun_suffix := by
      rintro s ⟨⟩
      exact Text.isRun_of_all rfl }

/-- A folder with the release behind another tool. -/
def tooled : FileTree :=
  { entries := [(["w"], .directory),
      (["w", ".tool-versions"], .file "nodejs 20.1.0\nruby 3.3.0-preview1\n".toUTF8 false)] }

theorem preview_kept : ∃ d, read tooled ⟨"/w"⟩ none = .ok d ∧ d.version = "3.3.0-preview1" := by
  have hfirst : First tooled.Reads (candidates ⟨"/w"⟩ none) .toolVersions ⟨"/w/.tool-versions"⟩
      "nodejs 20.1.0\nruby 3.3.0-preview1\n" :=
    firstReadable?_eq_some_iff.1 (by decide +kernel)
  have hother : ¬ ForRuby "nodejs 20.1.0".toList := by
    rintro ⟨others, hline, -⟩
    have hhead : some 'n' = some 'r' := congrArg List.head? hline
    cases hhead
  have hline : Declares preview .toolVersions (["nodejs 20.1.0".toList].flatMap (· ++ ['\n']) ++
      ([] ++ ("ruby".toList ++ ([' '] ++ (preview.chars ++ ['\n']))))) :=
    .tool (by simpa using hother) nofun (Text.isRun_of_all rfl) (by rintro c ⟨⟩; decide)
  obtain ⟨d, hread, -, -, hversion, -⟩ := version_kept_iff hfirst hline
  exact ⟨d, hread, hversion⟩

/-- A folder with the release in a list. -/
def itemized : FileTree :=
  { entries := [(["w"], .directory),
      (["w", "dev.yml"], .file "- ruby: 3.3.0-preview1\n".toUTF8 false)] }

/-- The list gives the release without its suffix. -/
theorem not_always_whole :
    ¬ ∀ (files : FileTree) (directory : Path) (home : Option Path) (source : VersionSource)
      (path : Path) (contents : String) (v : FullVersion),
      First files.Reads (candidates directory home) source path contents →
      Declares v source contents.toList →
      ∃ d, read files directory home = .ok d ∧ d.version = v.text := by
  intro h
  have hfirst : First itemized.Reads (candidates ⟨"/w"⟩ none) .devYml ⟨"/w/dev.yml"⟩
      "- ruby: 3.3.0-preview1\n" :=
    firstReadable?_eq_some_iff.1 (by decide +kernel)
  have hitem : Declares preview .devYml
      ([] ++ ("- ruby: ".toList ++ (preview.chars ++ ['\n']))) :=
    .item (by decide) (by rintro c ⟨⟩; decide)
  obtain ⟨d, hread, hwhole⟩ := h _ _ _ _ _ _ _ hfirst hitem
  have hcut : (read itemized ⟨"/w"⟩ none).toOption.map (·.version) = some "3.3.0" := by
    decide +kernel
  have hshort : preview.text ≠ "3.3.0" := by decide +kernel
  rw [hread] at hcut
  exact hshort (hwhole.symm.trans (Option.some.inj hcut))

end RubySupervisor.Declaration
