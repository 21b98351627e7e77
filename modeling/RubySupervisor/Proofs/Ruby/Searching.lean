import RubySupervisor.Proofs.Files.Naming
import RubySupervisor.Ruby.Declaration

/-!
# Which file declares the version

The files that may declare a version are looked at one after the other, and the first one that can
be read decides, whether it declares a version or not. What stands in the others makes no
difference. A device can be read as well as a file, but nothing stands in it.
-/

namespace RubySupervisor

namespace FileTree

/-- A path names a regular file with a text, links followed. -/
def HoldsText (files : FileTree) (p : Path) (text : String) : Prop :=
  ∃ content executable, files.metadata p = .ok (.file content executable) ∧
    Text.ofUtf8? content = some text

/-- A text can be read at a path: that of a regular file, or the empty one of a device. -/
def Reads (files : FileTree) (p : Path) (text : String) : Prop :=
  files.HoldsText p text ∨ files.metadata p = .ok .device ∧ text = ""

theorem readText_eq_ok_iff {files : FileTree} {p : Path} {text : String} :
    files.readText p = .ok text ↔ files.Reads p text := by
  have hempty : Text.ofUtf8? .empty = some "" := Text.ofUtf8?_toUTF8 ""
  unfold readText readBytes Reads HoldsText
  cases hmetadata : files.metadata p with
  | error e => simp [bind, Except.bind]
  | ok entry =>
    cases entry with
    | file content executable =>
      cases htext : Text.ofUtf8? content with
      | none => simp [bind, Except.bind, pure, Except.pure, htext]
      | some found => simp [bind, Except.bind, pure, Except.pure, htext]
    | device => simp [bind, Except.bind, pure, Except.pure, hempty, eq_comm]
    | directory => simp [bind, Except.bind]
    | link target => simp [bind, Except.bind]

theorem HoldsText.isFile {files : FileTree} {p : Path} {text : String}
    (h : files.HoldsText p text) : files.isFile p = true := by
  obtain ⟨content, executable, hmetadata, -⟩ := h
  rw [FileTree.isFile, hmetadata]

theorem holdsText_of_isFile {files : FileTree} {p : Path} {text : String}
    (hfile : files.isFile p = true) (h : files.Reads p text) : files.HoldsText p text := by
  rcases h with h | ⟨hdevice, -⟩
  · exact h
  · rw [FileTree.isFile, hdevice] at hfile
    cases hfile

end FileTree

namespace Declaration

/-- The first of some files of which a text can be read, with that text. -/
inductive First (reads : Path → String → Prop) :
    List (VersionSource × Path) → VersionSource → Path → String → Prop where
  | here {source : VersionSource} {path : Path} {contents : String}
      {rest : List (VersionSource × Path)} (h : reads path contents) :
      First reads ((source, path) :: rest) source path contents
  | later {candidate : VersionSource × Path} {source : VersionSource} {path : Path}
      {contents : String} {rest : List (VersionSource × Path)}
      (hskip : ∀ text, ¬ reads candidate.2 text) (h : First reads rest source path contents) :
      First reads (candidate :: rest) source path contents

/-- What the files say: the first of them that can be read declares a version, or is reported. -/
inductive Outcome (reads : Path → String → Prop) (candidates : List (VersionSource × Path))
    (directory : Path) : Except RubyError Declaration → Prop where
  | declared {source : VersionSource} {path : Path} {contents : String}
      {engine : Option (List Char)} {version : List Char}
      (h : First reads candidates source path contents)
      (hpattern : inFile? source contents.toList = some (engine, version)) :
      Outcome reads candidates directory
        (.ok ⟨engine.map String.ofList, String.ofList version, source, path⟩)
  | undeclared {source : VersionSource} {path : Path} {contents : String}
      (h : First reads candidates source path contents)
      (hpattern : inFile? source contents.toList = none) :
      Outcome reads candidates directory (.error (.invalidVersionFile path source))
  | nowhere (h : ∀ candidate ∈ candidates, ∀ text, ¬ reads candidate.2 text) :
      Outcome reads candidates directory (.error (.noVersionDeclared directory))

variable {files files' : FileTree} {listed : List (VersionSource × Path)}
  {source : VersionSource} {path directory : Path} {contents : String} {home : Option Path}

theorem firstReadable?_eq_some_iff :
    firstReadable? files listed = some (source, path, contents) ↔
      First files.Reads listed source path contents := by
  induction listed with
  | nil => exact iff_of_false nofun nofun
  | cons candidate rest ih =>
    obtain ⟨source', path'⟩ := candidate
    unfold firstReadable?
    cases hread : files.readText path' with
    | ok text =>
      have htext := FileTree.readText_eq_ok_iff.1 hread
      constructor
      · intro h
        cases h
        exact .here htext
      · intro h
        cases h with
        | here h =>
          obtain rfl := Except.ok.inj (hread.symm.trans (FileTree.readText_eq_ok_iff.2 h))
          rfl
        | later hskip => exact absurd htext (hskip text)
    | error e =>
      have hskip (text : String) : ¬ files.Reads path' text := fun h => by
        cases hread.symm.trans (FileTree.readText_eq_ok_iff.2 h)
      constructor
      · exact fun h => .later hskip (ih.1 h)
      · intro h
        cases h with
        | here h => exact absurd h (hskip contents)
        | later _ h => exact ih.2 h

theorem firstReadable?_eq_none_iff :
    firstReadable? files listed = none ↔
      ∀ candidate ∈ listed, ∀ text, ¬ files.Reads candidate.2 text := by
  induction listed with
  | nil => exact iff_of_true rfl nofun
  | cons candidate rest ih =>
    obtain ⟨source', path'⟩ := candidate
    unfold firstReadable?
    rw [List.forall_mem_cons, ← ih]
    cases hread : files.readText path' with
    | ok text =>
      exact iff_of_false nofun fun h => h.1 text (FileTree.readText_eq_ok_iff.1 hread)
    | error e =>
      refine ⟨fun h => ⟨fun text htext => ?_, h⟩, And.right⟩
      cases hread.symm.trans (FileTree.readText_eq_ok_iff.2 htext)

/-- The first file that can be read decides. -/
theorem First.read_eq (h : First files.Reads (candidates directory home) source path contents) :
    read files directory home = ofContents source path contents := by
  unfold read
  rw [firstReadable?_eq_some_iff.2 h]

theorem read_eq_iff {r : Except RubyError Declaration} :
    read files directory home = r ↔
      Outcome files.Reads (candidates directory home) directory r := by
  constructor
  · rintro rfl
    unfold read
    split
    · next source path contents hfirst =>
      have hfirst := firstReadable?_eq_some_iff.1 hfirst
      unfold ofContents
      split
      · next hpattern => exact .declared hfirst hpattern
      · next hpattern => exact .undeclared hfirst hpattern
    · next hnone => exact .nowhere (firstReadable?_eq_none_iff.1 hnone)
  · intro h
    cases h with
    | declared h hpattern | undeclared h hpattern =>
      rw [h.read_eq]
      unfold ofContents
      rw [hpattern]
    | nowhere h =>
      unfold read
      rw [firstReadable?_eq_none_iff.2 h]

/-- **Theorem (first readable file).** The files that may declare the version are one of lists in
the directory, the version files from the directory upwards, the one of the home, the files of tools
from the directory upwards, and the table in the directory. The first of them of which a text can be
read decides, whatever the others are, and so it is the same with other files that have the same
first one. -/
theorem first_readable_decides (files files' : FileTree) (directory : Path) (home : Option Path) :
    ∃ above candidates, directory.Ascent above ∧
      candidates = [(.devYml, directory.join "dev.yml")]
        ++ above.map (fun d => (.rubyVersion, d.join ".ruby-version"))
        ++ (home.map fun h => (VersionSource.globalRbenv, (h.join ".rbenv").join "version")).toList
        ++ above.map (fun d => (.toolVersions, d.join ".tool-versions"))
        ++ [(.rtxToml, directory.join ".rtx.toml")] ∧
      (∀ r, read files directory home = r ↔ Outcome files.Reads candidates directory r) ∧
      ((∀ source path contents, First files.Reads candidates source path contents ↔
          First files'.Reads candidates source path contents) →
        read files directory home = read files' directory home) := by
  refine ⟨_, _, directory.ascent_ancestors, rfl, fun r => read_eq_iff, fun hsame => ?_⟩
  have hfirst : firstReadable? files (candidates directory home) =
      firstReadable? files' (candidates directory home) := by
    refine Option.ext fun ⟨source, path, contents⟩ => ?_
    rw [firstReadable?_eq_some_iff, firstReadable?_eq_some_iff]
    exact hsame source path contents
  unfold read
  rw [hfirst]

/-- A folder whose version file leads to the device without content, with a file of tools. -/
def silenced : FileTree :=
  { entries := [(["dev"], .directory), (["dev", "null"], .device), (["w"], .directory),
      (["w", ".ruby-version"], .link "/dev/null"),
      (["w", ".tool-versions"], .file "ruby 3.2.2".toUTF8 false)] }

/-- The version file counts there although it is no regular file, and declares nothing. -/
theorem not_always_first_text :
    ¬ ∀ (files : FileTree) (directory : Path) (home : Option Path)
      (r : Except RubyError Declaration),
      Outcome files.HoldsText (candidates directory home) directory r →
      read files directory home = r := by
  intro h
  have hno {p : Path} (hp : silenced.isFile p = false) (text : String) :
      ¬ silenced.HoldsText p text := fun hholds => by cases hp.symm.trans hholds.isFile
  have htools : silenced.HoldsText ⟨"/w/.tool-versions"⟩ "ruby 3.2.2" := by
    refine FileTree.holdsText_of_isFile (by decide +kernel) (FileTree.readText_eq_ok_iff.1 ?_)
    decide +kernel
  have hfirst : First silenced.HoldsText (candidates ⟨"/w"⟩ none) .toolVersions
      ⟨"/w/.tool-versions"⟩ "ruby 3.2.2" :=
    .later (hno (by decide +kernel)) <| .later (hno (by decide +kernel)) <|
      .later (hno (by decide +kernel)) <| .here htools
  have hpattern : inFile? .toolVersions "ruby 3.2.2".toList = some (none, "3.2.2".toList) := by
    decide +kernel
  have hread := h silenced ⟨"/w"⟩ none _ (.declared hfirst hpattern)
  have hrefused : (read silenced ⟨"/w"⟩ none).toOption = none := by decide +kernel
  cases hrefused.symm.trans (congrArg Except.toOption hread)

end Declaration

end RubySupervisor
