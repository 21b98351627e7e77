import Mathlib.Data.String.Basic
import RubySupervisor.Proofs.Files.Listing
import RubySupervisor.Proofs.Ruby.Numbering
import RubySupervisor.Proofs.Text.Ordering
import RubySupervisor.Ruby.Installation

/-!
# Where an installation is found

The match of a root is told by what the root holds: for a complete version the directory of its name
or of its name behind that of the engine, for any other version the greatest of the directories
whose names begin so. The first root that has a match decides. How the files are listed makes no
difference.

Whoever asks for the first two numbers of a version only gets a directory whose name begins with
them. An installation of the complete version has such a name. It is found, too, unless it is a link
in its root: a link is followed when its name is complete, and passed over otherwise.
-/

namespace RubySupervisor.Installation

open FileTree (entry?_set entry?_empty)
open RubyVersion (isComplete short)

variable {files files' : FileTree} {root path : Path} {roots : List Path} {version name : String}
  {engine : Option String}

/-! ## The greatest name -/

theorem later_eq_max : later = max := by
  funext a b
  exact (max_def_lt a b).symm

theorem greatest?_eq_max? (names : List String) : greatest? names = names.max? := by
  cases names with
  | nil => rfl
  | cons first rest => rw [greatest?, later_eq_max, List.max?_cons']

theorem greatest?_eq_some_iff {names : List String} :
    greatest? names = some name ↔ name ∈ names ∧ ∀ other ∈ names, other ≤ name := by
  rw [greatest?_eq_max?, List.max?_eq_some_iff]

/-! ## The match of a root -/

/-- A name begins with a version, or with the name of its engine, a dash and the version. -/
def Begins (version : String) (engine : Option String) (name : String) : Prop :=
  version.toList <+: name.toList ∨
    ∃ e, engine = some e ∧ (e ++ "-" ++ version).toList <+: name.toList

theorem isCandidate_iff : isCandidate version engine name = true ↔ Begins version engine name := by
  unfold isCandidate names Begins
  cases engine <;> simp [Text.startsWith_iff]

/-- A directory of the root whose name begins with the version. -/
def Candidate (files : FileTree) (root : Path) (version : String) (engine : Option String)
    (name : String) : Prop :=
  files.HasSubdirectory root name ∧ Begins version engine name

/-- The installation of a version in a root. -/
inductive Matches (files : FileTree) (version : String) (engine : Option String) (root : Path) :
    Path → Prop where
  | plain (hcomplete : isComplete version = true)
      (h : files.isDirectory (root.join version) = true) :
      Matches files version engine root (root.join version)
  | ofEngine {e : String} (hcomplete : isComplete version = true)
      (hengine : engine = some e) (hplain : files.isDirectory (root.join version) = false)
      (h : files.isDirectory (root.join (e ++ "-" ++ version)) = true) :
      Matches files version engine root (root.join (e ++ "-" ++ version))
  | greatest {name : String} (hpartial : isComplete version = false)
      (hname : Candidate files root version engine name)
      (hgreatest : ∀ other, Candidate files root version engine other →
        Text.bytes other ≤ Text.bytes name) :
      Matches files version engine root (root.join name)

theorem byName?_eq_some_iff (hcomplete : isComplete version = true) :
    byName? files root version engine = some path ↔ Matches files version engine root path := by
  unfold byName? names
  rw [List.map_cons, List.find?_cons]
  constructor
  · intro h
    -- the name without an engine is tried first
    cases hplain : files.isDirectory (root.join version) with
    | true =>
      rw [hplain] at h
      obtain rfl := Option.some.inj h
      exact .plain hcomplete hplain
    | false =>
      rw [hplain] at h
      have hpath := List.find?_some h
      obtain ⟨name, hname, rfl⟩ := List.mem_map.1 (List.mem_of_find?_eq_some h)
      obtain ⟨e, hengine, rfl⟩ := Option.map_eq_some_iff.1 (Option.mem_toList.1 hname)
      exact .ofEngine hcomplete hengine hplain hpath
  · intro h
    cases h with
    | plain _ h => rw [h]
    | ofEngine _ hengine hplain h =>
      subst hengine
      simp [h, hplain]
    | greatest hpartial => cases hcomplete.symm.trans hpartial

/-- The latest installation has the greatest name of the candidates. -/
theorem exists_latest?_eq (hfiles : files.Orderly) (root : Path) (version : String)
    (engine : Option String) :
    ∃ names, (∀ name, name ∈ names ↔ Candidate files root version engine name) ∧
      latest? files root version engine = (greatest? names).map root.join := by
  unfold latest?
  cases hread : files.readDirectory root with
  | error e =>
    -- what cannot be listed is no directory of the tree, so nothing is in it
    refine ⟨[], fun name => iff_of_false List.not_mem_nil fun hname => ?_, rfl⟩
    exact FileTree.not_hasSubdirectory_of_readDirectory hfiles.grounded hread hname.1
  | ok listed =>
    refine ⟨_, fun name => ?_, rfl⟩
    rw [List.mem_filter, isCandidate_iff, Candidate,
      FileTree.hasSubdirectory_iff_of_readDirectory hfiles hread]
    refine and_congr_left fun _ => ?_
    rw [List.mem_filterMap]
    constructor
    · rintro ⟨⟨found, entry⟩, hchild, hdirectory⟩
      cases entry <;> cases hdirectory
      exact hchild
    · exact fun hchild => ⟨_, hchild, rfl⟩

theorem latest?_eq_some_iff (hfiles : files.Orderly)
    (hpartial : isComplete version = false) :
    latest? files root version engine = some path ↔ Matches files version engine root path := by
  have hmatches : Matches files version engine root path ↔
      ∃ name, (Candidate files root version engine name ∧
        ∀ other, Candidate files root version engine other → other ≤ name) ∧
          root.join name = path := by
    simp only [Text.le_iff_bytes_le]
    constructor
    · intro h
      cases h with
      | plain hcomplete | ofEngine hcomplete => cases hcomplete.symm.trans hpartial
      | greatest _ hname hgreatest => exact ⟨_, ⟨hname, hgreatest⟩, rfl⟩
    · rintro ⟨name, ⟨hname, hgreatest⟩, rfl⟩
      exact .greatest hpartial hname hgreatest
  obtain ⟨names, hmem, hlatest⟩ := exists_latest?_eq hfiles root version engine
  simp only [hmatches, hlatest, Option.map_eq_some_iff, greatest?_eq_some_iff, hmem]

/-- A version that is not complete has a match where there is a candidate. -/
theorem exists_matches_iff (hfiles : files.Orderly)
    (hpartial : isComplete version = false) :
    (∃ path, Matches files version engine root path) ↔
      ∃ name, Candidate files root version engine name := by
  obtain ⟨names, hmem, hlatest⟩ := exists_latest?_eq hfiles root version engine
  simp only [← latest?_eq_some_iff hfiles hpartial, ← hmem, hlatest, ← Option.isSome_iff_exists,
    Option.isSome_map, greatest?_eq_max?, List.isSome_max?_iff]
  exact ⟨List.exists_mem_of_ne_nil names, fun ⟨_, hname⟩ => List.ne_nil_of_mem hname⟩

theorem inRoot?_eq_some_iff (hfiles : files.Orderly) :
    inRoot? files version engine root = some path ↔ Matches files version engine root path := by
  unfold inRoot?
  cases hcomplete : isComplete version with
  | true => exact byName?_eq_some_iff hcomplete
  | false => exact latest?_eq_some_iff hfiles hcomplete

/-! ## The first root -/

/-- The match of the first root that has one. -/
inductive First (matched : Path → Path → Prop) : List Path → Path → Prop where
  | here {root path : Path} {rest : List Path} (h : matched root path) :
      First matched (root :: rest) path
  | later {root path : Path} {rest : List Path} (hskip : ∀ p, ¬ matched root p)
      (h : First matched rest path) : First matched (root :: rest) path

section Find

variable (hfiles : files.Orderly)
include hfiles

theorem inRoot?_eq_none_iff :
    inRoot? files version engine root = none ↔ ∀ p, ¬ Matches files version engine root p := by
  rw [Option.eq_none_iff_forall_ne_some]
  exact forall_congr' fun p => not_congr (inRoot?_eq_some_iff hfiles)

theorem findSome?_eq_some_iff :
    roots.findSome? (inRoot? files version engine) = some path ↔
      First (Matches files version engine) roots path := by
  induction roots with
  | nil => exact iff_of_false nofun nofun
  | cons root rest ih =>
    rw [List.findSome?_cons]
    cases hroot : inRoot? files version engine root with
    | some found =>
      have hfound := (inRoot?_eq_some_iff hfiles).1 hroot
      constructor
      · rintro ⟨⟩
        exact .here hfound
      · intro h
        cases h with
        | here h => exact hroot.symm.trans ((inRoot?_eq_some_iff hfiles).2 h)
        | later hskip => exact absurd hfound (hskip found)
    | none =>
      have hskip := (inRoot?_eq_none_iff hfiles).1 hroot
      constructor
      · exact fun h => .later hskip (ih.1 h)
      · intro h
        cases h with
        | here h => exact absurd h (hskip path)
        | later _ h => exact ih.2 h

theorem find_eq_ok_iff :
    find files roots version engine = .ok path ↔
      First (Matches files version engine) roots path := by
  rw [← findSome?_eq_some_iff hfiles, find]
  cases roots.findSome? (inRoot? files version engine) <;> simp

theorem find_eq_error_iff {error : RubyError} :
    find files roots version engine = .error error ↔
      error = .installationNotFound version ∧
        ∀ root ∈ roots, ∀ p, ¬ Matches files version engine root p := by
  have hnone : roots.findSome? (inRoot? files version engine) = none ↔
      ∀ root ∈ roots, ∀ p, ¬ Matches files version engine root p := by
    rw [List.findSome?_eq_none_iff]
    exact forall₂_congr fun root _ => inRoot?_eq_none_iff hfiles
  rw [← hnone, find]
  cases roots.findSome? (inRoot? files version engine) <;> simp [eq_comm]

end Find

/-! ## Roots that are not there, and other listings -/

/-- A root that cannot be listed has a match only if the match is not looked for in it. -/
theorem Matches.of_unlisted (h : Matches files version engine root path) (hfiles : files.Orderly)
    {error : FileError} (hread : files.readDirectory root = .error error) :
    isComplete version = true ∧
      (root.text = "" ∨ ∃ e, engine = some e ∧ (Path.mk e).isAbsolute = true) := by
  have hroot := FileTree.isDirectory_eq_false_of_readDirectory hfiles.grounded hread
  -- a path that goes through the root leads nowhere
  have hoff {name : String} (hname : files.isDirectory (root.join name) = true) :
      root.text = "" ∨ (Path.mk name).isAbsolute = true := by
    by_contra hwithin
    obtain ⟨htext, hrelative⟩ := not_or.1 hwithin
    cases hroot.symm.trans (FileTree.isDirectory_of_isDirectory_join hfiles.grounded htext
      (Bool.eq_false_iff.2 hrelative) hname)
  cases h with
  | plain hcomplete h =>
    obtain ⟨_, _, _, _, -, hversion⟩ := RubyVersion.exists_completes hcomplete
    rcases hoff h with htext | habsolute
    · exact ⟨hcomplete, .inl htext⟩
    · cases hversion.isAbsolute_eq_false.symm.trans habsolute
  | @ofEngine e hcomplete hengine _ h =>
    refine ⟨hcomplete, (hoff h).imp_right fun habsolute => ⟨e, hengine, ?_⟩⟩
    cases hchars : e.toList <;> simp_all [Path.isAbsolute]
  | greatest _ hname =>
    exact absurd hname.1 (FileTree.not_hasSubdirectory_of_readDirectory hfiles.grounded hread)

theorem Matches.alike (h : Matches files version engine root path) (hfiles : files.Orderly)
    (halike : files.Alike files') : Matches files' version engine root path := by
  have hcandidate {name : String} : Candidate files' root version engine name ↔
      Candidate files root version engine name :=
    and_congr_left fun _ => halike.hasSubdirectory_iff hfiles.unambiguous
  have hdirectory (p : Path) := halike.isDirectory_eq hfiles p
  cases h with
  | plain hcomplete h => exact .plain hcomplete ((hdirectory _).trans h)
  | ofEngine hcomplete hengine hplain h =>
    exact .ofEngine hcomplete hengine ((hdirectory _).trans hplain) ((hdirectory _).trans h)
  | greatest hpartial hname hgreatest =>
    exact .greatest hpartial (hcandidate.2 hname) fun other hother =>
      hgreatest other (hcandidate.1 hother)

theorem find_eq_of_alike (hfiles : files.Orderly) (halike : files.Alike files') (roots : List Path)
    (version : String) (engine : Option String) :
    find files' roots version engine = find files roots version engine := by
  have hfiles' := halike.orderly hfiles
  have hsame : inRoot? files' version engine = inRoot? files version engine := by
    funext root
    refine Option.ext fun path => ?_
    rw [inRoot?_eq_some_iff hfiles, inRoot?_eq_some_iff hfiles']
    exact ⟨fun h => h.alike hfiles' halike.symm, fun h => h.alike hfiles halike⟩
  rw [find, find, hsame]

/-- **Theorem (first match).** The first root with a match decides, and the version is not installed
exactly when no root has one. A root that cannot be listed has none, but for a complete version that
is looked for elsewhere: behind the empty path, or behind an engine that is a path from the root.
It is the same in whatever order the files are listed. -/
theorem first_match_decides (hfiles : files.Orderly) (roots : List Path) (version : String)
    (engine : Option String) :
    (∀ path, find files roots version engine = .ok path ↔
      First (Matches files version engine) roots path) ∧
    (∀ error, find files roots version engine = .error error ↔
      error = .installationNotFound version ∧
        ∀ root ∈ roots, ∀ path, ¬ Matches files version engine root path) ∧
    (∀ root path error, files.readDirectory root = .error error →
      Matches files version engine root path →
        isComplete version = true ∧
          (root.text = "" ∨ ∃ e, engine = some e ∧ (Path.mk e).isAbsolute = true)) ∧
    (∀ files', files.Alike files' →
      find files' roots version engine = find files roots version engine) :=
  ⟨fun _ => find_eq_ok_iff hfiles, fun _ => find_eq_error_iff hfiles,
    fun _ _ _ hread h => h.of_unlisted hfiles hread,
    fun _ halike => find_eq_of_alike hfiles halike roots version engine⟩

/-- A root with two Rubies of one series. -/
def series : FileTree :=
  ((FileTree.empty.set ["rubies"] .directory).set ["rubies", "3.2.9"] .directory).set
    ["rubies", "3.2.10"] .directory

theorem orderly_series : series.Orderly := by
  have hroot := FileTree.orderly_empty.set [] "rubies" .directory rfl (by simp [entry?_empty])
  have hnine := hroot.set ["rubies"] "3.2.9" .directory (by simp [entry?_set])
    (by simp [entry?_set, entry?_empty])
  exact hnine.set ["rubies"] "3.2.10" .directory (by simp [entry?_set])
    (by simp [entry?_set, entry?_empty])

/-- The ninth patch counts as later than the tenth. -/
theorem ninth_over_tenth :
    series.Orderly ∧ First (Matches series "3.2" none) [⟨"/missing"⟩, ⟨"/rubies"⟩]
      ⟨"/rubies/3.2.9"⟩ := by
  have hfind : find series [⟨"/missing"⟩, ⟨"/rubies"⟩] "3.2" none = .ok ⟨"/rubies/3.2.9"⟩ := by
    decide +kernel
  exact ⟨orderly_series, ((first_match_decides orderly_series _ _ _).1 _).1 hfind⟩

/-- A Ruby behind an engine that is a path from the root. -/
def aside : FileTree :=
  (FileTree.empty.set ["opt"] .directory).set ["opt", "ruby-3.2.2"] .directory

theorem orderly_aside : aside.Orderly := by
  have hroot := FileTree.orderly_empty.set [] "opt" .directory rfl (by simp [entry?_empty])
  exact hroot.set ["opt"] "ruby-3.2.2" .directory (by simp [entry?_set])
    (by simp [entry?_set, entry?_empty])

/-- It is found in a root that is not there. -/
theorem not_always_in_root :
    ¬ ∀ (files : FileTree) (root path : Path) (version : String) (engine : Option String)
      (error : FileError), files.Orderly → files.readDirectory root = .error error →
        find files [root] version engine ≠ .ok path := by
  intro h
  have hfind : find aside [⟨"/missing"⟩] "3.2.2" (some "/opt/ruby") = .ok ⟨"/opt/ruby-3.2.2"⟩ := by
    decide +kernel
  cases hread : aside.readDirectory ⟨"/missing"⟩ with
  | error error => exact h aside _ _ _ _ error orderly_aside hread hfind
  | ok listed =>
    have hnone : (aside.readDirectory ⟨"/missing"⟩).toOption.isNone = true := by decide +kernel
    rw [hread] at hnone
    cases hnone

/-! ## The short form of a version -/

/-- No root has a directory whose name begins with the short form of the version. -/
def Stranded (files : FileTree) (roots : List Path) (version : String) (engine : Option String) :
    Prop :=
  ∀ root ∈ roots, ∀ name, ¬ Candidate files root (short version) engine name

/-- The first step of a path into a directory is a link there. -/
def Linked (files : FileTree) (root : Path) (name : String) : Prop :=
  ∃ place first rest target, files.Seat root place ∧ FileTree.steps name = first :: rest ∧
    files.entry? (place ++ [first]) = some (.link target)

theorem exists_find_short_iff (hfiles : files.Orderly) (hcomplete : isComplete version = true) :
    (∃ path, find files roots (short version) engine = .ok path) ↔
      ¬ Stranded files roots version engine := by
  obtain ⟨_, _, _, _, -, hversion⟩ := RubyVersion.exists_completes hcomplete
  have hmatch (root : Path) : (∀ path, ¬ Matches files (short version) engine root path) ↔
      ∀ name, ¬ Candidate files root (short version) engine name := by
    rw [← not_exists, exists_matches_iff hfiles hversion.isComplete_short, not_exists]
  have hstranded : find files roots (short version) engine =
      .error (.installationNotFound (short version)) ↔ Stranded files roots version engine := by
    rw [find_eq_error_iff hfiles, and_iff_right rfl]
    exact forall₂_congr fun root _ => hmatch root
  rw [← hstranded]
  cases hfind : find files roots (short version) engine with
  | ok path => simp
  | error error =>
    obtain ⟨rfl, -⟩ := (find_eq_error_iff hfiles).1 hfind
    simp

/-- The name of an installation has something in front of every separator that names with the short
form of its version begin with, too. -/
theorem exists_prefix_of_mem_names (hcomplete : isComplete version = true)
    (hengine : ∀ e, engine = some e → '/' ∉ e.toList) (hname : name ∈ names version engine) :
    ∃ w, w <+: name.toList ∧ '/' ∉ w ∧ (∃ c ∈ w, c ≠ '.') ∧
      ∀ other : String, w <+: other.toList → Begins (short version) engine other := by
  obtain ⟨_, major, minor, rest, -, hversion⟩ := RubyVersion.exists_completes hcomplete
  obtain ⟨c, s, hcons⟩ := List.exists_cons_of_ne_nil hversion.major_isNumber.ne_nil
  have hc : c ∈ (short version).toList := by
    rw [hversion.short_eq, hcons]
    exact .head _
  have hdot : c ≠ '.' := by
    rintro rfl
    exact hversion.major_isNumber.not_mem (c := '.') (by decide) (hcons ▸ .head _)
  rcases List.mem_cons.1 hname with rfl | hname
  · exact ⟨_, hversion.begins_with_short, hversion.slash_not_mem, ⟨c, hc, hdot⟩, fun _ h => .inl h⟩
  · obtain ⟨e, he, rfl⟩ := Option.map_eq_some_iff.1 (Option.mem_toList.1 hname)
    refine ⟨(e ++ "-" ++ short version).toList, ?_, ?_, ⟨c, ?_, hdot⟩, fun _ h => .inr ⟨e, he, h⟩⟩
    · simpa using hversion.begins_with_short
    · simpa [hengine e he] using hversion.slash_not_mem
    · simp [hc]

/-- An installation that is found although the roots have nothing to offer for the short form of its
version is behind a link. -/
theorem Stranded.linked (h : Stranded files roots version engine) (hfiles : files.Orderly)
    (hcomplete : isComplete version = true) (hroot : root ∈ roots)
    (hname : name ∈ names version engine) (hfound : files.isDirectory (root.join name) = true)
    (htext : root.text ≠ "") (hengine : ∀ e, engine = some e → '/' ∉ e.toList) :
    Linked files root name := by
  obtain ⟨w, hfront, hslash, ⟨c, hc, hdot⟩, hbegins⟩ :=
    exists_prefix_of_mem_names hcomplete hengine hname
  obtain ⟨hrelative, first, rest, hsteps, hup, hfirst⟩ :=
    Path.exists_steps_cons hfront hslash hc hdot
  obtain ⟨hadmissible, place, goal, remaining, left, hseat, hleads⟩ :=
    FileTree.exists_leads_of_isDirectory_join hfiles.grounded htext hrelative hfound
  rw [hsteps] at hleads
  -- the first step into the root decides: a directory there would be a candidate
  cases hleads with
  | up => exact absurd rfl hup
  | down _ _ hentry =>
    exact absurd ⟨⟨hadmissible, place, hseat, hentry⟩, hbegins first hfirst⟩ (h root hroot first)
  | along _ _ hentry => exact ⟨place, first, rest, _, hseat, hsteps, hentry⟩

/-- What is found for a complete version is a directory of one of its names. -/
theorem exists_of_find_complete (hfiles : files.Orderly) (hcomplete : isComplete version = true)
    (h : find files roots version engine = .ok path) :
    ∃ root ∈ roots, ∃ name ∈ names version engine,
      path = root.join name ∧ files.isDirectory path = true := by
  have hfirst := (find_eq_ok_iff hfiles).1 h
  clear h
  induction hfirst with
  | here h =>
    refine ⟨_, .head _, ?_⟩
    cases h with
    | plain _ h => exact ⟨_, .head _, rfl, h⟩
    | @ofEngine e _ hengine _ h => exact ⟨_, .tail _ (hengine ▸ .head _), rfl, h⟩
    | greatest hpartial => cases hcomplete.symm.trans hpartial
  | later _ _ ih =>
    obtain ⟨root, hroot, hname⟩ := ih
    exact ⟨root, .tail _ hroot, hname⟩

/-- **Theorem (short form).** Where a complete version is found, its short form is found as well,
unless no root has a directory whose name begins with it. In that case what was found is behind a
link in its root, or the root is the empty path, or the engine is no single name. -/
theorem short_found_iff_not_stranded (hfiles : files.Orderly) (hcomplete : isComplete version = true)
    (hfound : find files roots version engine = .ok path) :
    ((∃ path', find files roots (short version) engine = .ok path') ↔
      ¬ Stranded files roots version engine) ∧
    (Stranded files roots version engine →
      ∃ root ∈ roots, ∃ name ∈ names version engine, path = root.join name ∧
        (Linked files root name ∨ root.text = "" ∨ ∃ e, engine = some e ∧ '/' ∈ e.toList)) := by
  refine ⟨exists_find_short_iff hfiles hcomplete, fun hstranded => ?_⟩
  obtain ⟨root, hroot, name, hname, rfl, hdirectory⟩ :=
    exists_of_find_complete hfiles hcomplete hfound
  refine ⟨root, hroot, name, hname, rfl, ?_⟩
  by_cases htext : root.text = ""
  · exact .inr (.inl htext)
  · by_cases hengine : ∃ e, engine = some e ∧ '/' ∈ e.toList
    · exact .inr (.inr hengine)
    · exact .inl (hstranded.linked hfiles hcomplete hroot hname hdirectory htext fun e he hslash =>
        hengine ⟨e, he, hslash⟩)

/-- Another patch is found for the short form. -/
theorem series_not_stranded :
    find series [⟨"/rubies"⟩] "3.2.10" none = .ok ⟨"/rubies/3.2.10"⟩ ∧
      ¬ Stranded series [⟨"/rubies"⟩] "3.2.10" none := by
  have hfind : find series [⟨"/rubies"⟩] "3.2.10" none = .ok ⟨"/rubies/3.2.10"⟩ := by
    decide +kernel
  have hshort : find series [⟨"/rubies"⟩] (short "3.2.10") none = .ok ⟨"/rubies/3.2.9"⟩ := by
    decide +kernel
  exact ⟨hfind, (short_found_iff_not_stranded orderly_series (by decide +kernel) hfind).1.1
    ⟨_, hshort⟩⟩

/-- A root with a link to a Ruby that is kept elsewhere. -/
def linkedSeries : FileTree :=
  (((FileTree.empty.set ["opt"] .directory).set ["opt", "3.2.2"] .directory).set
    ["rubies"] .directory).set ["rubies", "3.2.2"] (.link "/opt/3.2.2")

theorem orderly_linkedSeries : linkedSeries.Orderly := by
  have hopt := FileTree.orderly_empty.set [] "opt" .directory rfl (by simp [entry?_empty])
  have hruby := hopt.set ["opt"] "3.2.2" .directory (by simp [entry?_set])
    (by simp [entry?_set, entry?_empty])
  have hroot := hruby.set [] "rubies" .directory rfl (by simp [entry?_set, entry?_empty])
  exact hroot.set ["rubies"] "3.2.2" (.link "/opt/3.2.2") (by simp [entry?_set])
    (by simp [entry?_set, entry?_empty])

/-- The link is found for the complete version only. -/
theorem not_always_found_by_short :
    ¬ ∀ (files : FileTree) (roots : List Path) (version : String) (engine : Option String)
      (path : Path), files.Orderly → isComplete version = true →
        find files roots version engine = .ok path →
          ∃ path', find files roots (short version) engine = .ok path' := by
  intro h
  have hfind : find linkedSeries [⟨"/rubies"⟩] "3.2.2" none = .ok ⟨"/rubies/3.2.2"⟩ := by
    decide +kernel
  obtain ⟨path', hshort⟩ := h _ _ _ _ _ orderly_linkedSeries (by decide +kernel) hfind
  have hnone : (find linkedSeries [⟨"/rubies"⟩] (short "3.2.2") none).toOption = none := by
    decide +kernel
  rw [hshort] at hnone
  cases hnone

end RubySupervisor.Installation
