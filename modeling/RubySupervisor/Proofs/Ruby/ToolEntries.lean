import RubySupervisor.Proofs.Ruby.Patterns
import RubySupervisor.Proofs.Ruby.Searching

/-!
# Files for several tools

The tools and their versions are written one to a line, as words or as the keys of a table. Of words
the first one of a line is the name of its tool. A key is looked for anywhere in a line, so that it
is found at the end of a longer name as well.
-/

namespace RubySupervisor

open Text (IsRun isAsciiDigit isBlank firstMatch? trimStart)

/-- The characters of the name of a tool. -/
def isNamePart (c : Char) : Bool := ('a' ≤ c && c ≤ 'z') || isAsciiDigit c || c == '-'

/-- A tool and its version. -/
structure ToolEntry where
  name : List Char
  version : FullVersion
  isRun_name : IsRun isNamePart name

namespace ToolEntry

/-- The entry is for Ruby. -/
def isRuby (e : ToolEntry) : Bool := e.name == "ruby".toList

/-- The name ends like that of Ruby. -/
def endsInRuby (e : ToolEntry) : Bool := decide ("ruby".toList <:+ e.name)

/-- The entry as a line of words. -/
def words (e : ToolEntry) : List Char := e.name ++ ' ' :: e.version.chars

/-- The entry as a key with its value. -/
def assignment (e : ToolEntry) : List Char :=
  e.name ++ (" = \"".toList ++ (e.version.chars ++ ['"']))

theorem isNamePart_of_isBlank {c : Char} (h : isBlank c = true) : isNamePart c = false := by
  have hdash : c ≠ '-' := by
    rintro rfl
    cases h
  simp [isBlank] at h
  simp [isNamePart, isAsciiDigit, Char.le_def, UInt32.le_iff_toNat_le, hdash]
  omega

theorem endsInRuby_of_isRuby {e : ToolEntry} (h : e.isRuby = true) : e.endsInRuby = true :=
  decide_eq_true (eq_of_beq h ▸ List.suffix_rfl)

theorem isRun_ruby : IsRun isNamePart "ruby".toList := Text.isRun_of_all rfl

/-- What begins with a whole name and a blank begins with `ruby` and no more of a name just if
the name is `ruby`. -/
theorem eq_ruby_of_append {run rest others : List Char} (hrun : IsRun isNamePart run)
    (hothers : ∀ c ∈ others.head?, isNamePart c = false)
    (h : run ++ ' ' :: rest = "ruby".toList ++ others) : run = "ruby".toList :=
  hrun.eq_of_append isRun_ruby (by rintro c ⟨⟩; decide) hothers h

end ToolEntry

/-- Entries written one to a line. The last line may go without its end. -/
inductive Written (write : ToolEntry → List Char) : List ToolEntry → List Char → Prop where
  | none : Written write [] []
  | last (e : ToolEntry) : Written write [e] (write e)
  | line (e : ToolEntry) {entries : List ToolEntry} {contents : List Char}
      (h : Written write entries contents) :
      Written write (e :: entries) (write e ++ '\n' :: contents)

namespace Declaration

open FullVersion (Ends)
open ToolEntry (isNamePart_of_isBlank eq_ruby_of_append)

variable {e : ToolEntry} {entries : List ToolEntry} {rest contents : List Char}

/-! ## Lines of words -/

theorem trimStart_words (e : ToolEntry) : trimStart e.words = e.words := by
  refine Text.trimStart_of_head? ?_
  obtain ⟨c, others, hname, hc⟩ := e.isRun_name.exists_cons
  rw [ToolEntry.words, hname]
  rintro d ⟨⟩
  exact Bool.eq_false_iff.2 fun hblank => by cases hc.symm.trans (isNamePart_of_isBlank hblank)

theorem forRuby_words_iff : ForRuby e.words ↔ e.isRuby = true := by
  rw [ForRuby, trimStart_words, ToolEntry.isRuby, beq_iff_eq]
  constructor
  · rintro ⟨others, hwords, hblank⟩
    exact eq_ruby_of_append e.isRun_name (fun c hc => isNamePart_of_isBlank (hblank c hc)) hwords
  · intro hname
    refine ⟨' ' :: e.version.chars, by rw [ToolEntry.words, hname], ?_⟩
    rintro c ⟨⟩
    rfl

theorem newline_not_mem_words (e : ToolEntry) : '\n' ∉ e.words := by
  intro h
  rcases List.mem_append.1 h with h | h
  · cases e.isRun_name.all _ h
  · rcases List.mem_cons.1 h with h | h
    · cases h
    · exact FullVersion.ne_of_mem h (by decide) rfl

theorem inToolVersions?_words (he : e.isRuby = true) (hrest : Ends rest) :
    inToolVersions? (e.words ++ rest) = some e.version.chars := by
  have hname : e.name = "ruby".toList := eq_of_beq he
  have hwords : e.words ++ rest =
      [] ++ ("ruby".toList ++ ([' '] ++ (e.version.chars ++ rest))) := by
    rw [ToolEntry.words, hname]
    simp
  rw [hwords]
  exact inToolVersions?_ruby nofun (Text.isRun_of_all rfl) hrest

/-- Of lines of words the first one for Ruby is taken. -/
theorem inToolVersions?_written (h : Written ToolEntry.words entries contents) :
    inToolVersions? contents = (entries.find? ToolEntry.isRuby).map (·.version.chars) := by
  induction h with
  | none => rfl
  | last e =>
    cases he : e.isRuby with
    | true =>
      have hfound : inToolVersions? (e.words ++ []) = _ := inToolVersions?_words he nofun
      rw [List.append_nil] at hfound
      simp [he, hfound]
    | false =>
      have hline : ¬ ForRuby e.words := by simp [forRuby_words_iff, he]
      rw [inToolVersions?_last (newline_not_mem_words e) hline]
      simp [he]
  | line e h ih =>
    cases he : e.isRuby with
    | true =>
      rw [inToolVersions?_words he (by rintro c ⟨⟩; decide)]
      simp [he]
    | false =>
      have hline : ¬ ForRuby e.words := by simp [forRuby_words_iff, he]
      rw [inToolVersions?_line (newline_not_mem_words e) hline, ih]
      simp [he]

/-! ## Keys of a table -/

/-- A search passes over a text in which no key can begin. -/
theorem firstMatch?_passing (before : List Char) (hbefore : 'r' ∉ before) (rest : List Char) :
    firstMatch? quotedEntry? (before ++ rest) = firstMatch? quotedEntry? rest := by
  refine Text.firstMatch?_append fun t ht hne => quotedEntry?_eq_none fun gap others _ hkey => ?_
  obtain ⟨c, t, rfl⟩ := List.exists_cons_of_ne_nil hne
  obtain rfl : c = 'r' := (List.cons.inj hkey).1
  exact hbefore (ht.mem List.mem_cons_self)

/-- A search passes over a version, which has no equals sign. -/
theorem firstMatch?_version (v : FullVersion) (rest : List Char) :
    firstMatch? quotedEntry? (v.chars ++ '"' :: rest) = firstMatch? quotedEntry? rest := by
  have hversion : firstMatch? quotedEntry? (v.chars ++ '"' :: rest) =
      firstMatch? quotedEntry? ('"' :: rest) := by
    refine Text.firstMatch?_append fun t ht _ => quotedEntry?_eq_none fun gap others hgap hkey => ?_
    have hequals : '=' ∉ t := fun h => FullVersion.ne_of_mem (ht.mem h) (by decide) rfl
    have hquote : '"' ∉ key gap := not_mem_key hgap (by decide) (by decide) (by decide)
    rcases List.append_eq_append_iff.1 hkey with ⟨u, hu, hothers⟩ | ⟨u, hu, -⟩
    · cases u with
      | nil =>
        rw [List.append_nil] at hu
        exact hequals (by simp [← hu, key])
      | cons c u =>
        obtain rfl : '"' = c := (List.cons.inj hothers).1
        exact hquote (hu ▸ List.mem_append_right t List.mem_cons_self)
    · exact hequals (by simp [hu, key])
  exact hversion.trans (firstMatch?_passing ['"'] (by decide) rest)

/-- A whole name is the key just if it is `ruby`. -/
theorem quotedEntry?_name {name : List Char} (hname : IsRun isNamePart name)
    (hruby : name ≠ "ruby".toList) (rest : List Char) :
    quotedEntry? (name ++ ' ' :: rest) = none := by
  refine quotedEntry?_eq_none fun gap others hgap hkey => hruby ?_
  rw [key, List.append_assoc] at hkey
  refine eq_ruby_of_append hname (fun c hc => ?_) hkey
  cases gap with
  | nil =>
    cases hc
    decide
  | cons d gap =>
    cases hc
    exact isNamePart_of_isBlank (hgap _ List.mem_cons_self)

/-- The entry of a name that does not end like that of Ruby is passed over. -/
theorem firstMatch?_other (he : e.endsInRuby = false) (rest : List Char) :
    firstMatch? quotedEntry? (e.assignment ++ rest) = firstMatch? quotedEntry? rest := by
  have hname : ∀ t, t <:+ e.name → t ≠ "ruby".toList := by
    rintro t ht rfl
    exact of_decide_eq_false he ht
  have hsplit : e.assignment ++ rest =
      e.name ++ ' ' :: ("= \"".toList ++ (e.version.chars ++ '"' :: rest)) := by
    simp [ToolEntry.assignment]
  calc firstMatch? quotedEntry? (e.assignment ++ rest)
      = firstMatch? quotedEntry? (' ' :: ("= \"".toList ++ (e.version.chars ++ '"' :: rest))) := by
        rw [hsplit, Text.firstMatch?_append fun t ht hne =>
          quotedEntry?_name (e.isRun_name.of_suffix ht hne) (hname t ht) _]
    _ = firstMatch? quotedEntry? (e.version.chars ++ '"' :: rest) :=
        firstMatch?_passing " = \"".toList (by decide) _
    _ = firstMatch? quotedEntry? rest := firstMatch?_version e.version rest

/-- The entry of a name that ends like that of Ruby is taken. -/
theorem firstMatch?_ending (he : e.endsInRuby = true) (rest : List Char) :
    firstMatch? quotedEntry? (e.assignment ++ rest) = some e.version.chars := by
  obtain ⟨before, hname⟩ := of_decide_eq_true he
  have hsplit : e.assignment ++ rest =
      before ++ (key [' '] ++ ([' '] ++ '"' :: (e.version.chars ++ '"' :: rest))) := by
    simp [ToolEntry.assignment, key, ← hname]
  have hblank : ∀ c ∈ [' '], isBlank c = true := List.all_eq_true.1 rfl
  -- From anywhere before, more of the name is seen than the key.
  have hlonger {t : List Char} (ht : t <:+ before) (hne : t ≠ []) : quotedEntry?
      (t ++ (key [' '] ++ ([' '] ++ '"' :: (e.version.chars ++ '"' :: rest)))) = none := by
    have hrun : IsRun isNamePart (t ++ "ruby".toList) := by
      obtain ⟨u, rfl⟩ := ht
      exact e.isRun_name.of_suffix ⟨u, by rw [← hname, List.append_assoc]⟩ (by simp)
    have hassoc := quotedEntry?_name hrun (by simpa using hne)
      ('=' :: ' ' :: '"' :: (e.version.chars ++ '"' :: rest))
    simpa [key] using hassoc
  rw [hsplit, Text.firstMatch?_append fun t ht hne => hlonger ht hne]
  exact Text.firstMatch?_of_some
    (quotedEntry?_key hblank hblank (by decide) (by decide) (inside_quotes _) rest)

/-- Of the keys of a table the first one that ends like that of Ruby is taken. -/
theorem firstMatch?_written (h : Written ToolEntry.assignment entries contents) :
    firstMatch? quotedEntry? contents =
      (entries.find? ToolEntry.endsInRuby).map (·.version.chars) := by
  induction h with
  | none => rfl
  | last e =>
    cases he : e.endsInRuby with
    | true =>
      have hfound := firstMatch?_ending he []
      rw [List.append_nil] at hfound
      simp [he, hfound]
    | false =>
      have hpassed := firstMatch?_other he []
      rw [List.append_nil] at hpassed
      rw [hpassed]
      simp [he]
      rfl
  | @line e entries contents h ih =>
    cases he : e.endsInRuby with
    | true =>
      rw [firstMatch?_ending he]
      simp [he]
    | false =>
      -- the search goes on behind the line end, with which no entry begins
      have hnewline := firstMatch?_passing ['\n'] (by decide) contents
      rw [firstMatch?_other he, ← List.singleton_append, hnewline, ih]
      simp [he]

/-! ## Which entry is taken -/

/-- A file that lists tools with their versions. -/
inductive Lists (entries : List ToolEntry) : VersionSource → List Char → Prop where
  | lines {contents : List Char} (h : Written ToolEntry.words entries contents) :
      Lists entries .toolVersions contents
  | table {contents : List Char} (h : Written ToolEntry.assignment entries contents) :
      Lists entries .rtxToml ("[tools]\n".toList ++ contents)

/-- The entry that is taken: of lines the first one for Ruby, of a table the first one whose name
ends in that way. -/
def taken? (source : VersionSource) (entries : List ToolEntry) : Option ToolEntry :=
  if source = .rtxToml then entries.find? ToolEntry.endsInRuby
  else entries.find? ToolEntry.isRuby

/-- What a file declares with an entry, or without one. -/
def answer (source : VersionSource) (path : Path) : Option ToolEntry → Except RubyError Declaration
  | some e => .ok ⟨none, e.version.text, source, path⟩
  | none => .error (.invalidVersionFile path source)

/-- The first entry whose name ends like that of Ruby is for another tool, and its version is not
the one of the first entry for Ruby. -/
def Misled (entries : List ToolEntry) : Prop :=
  ∃ before e after, entries = before ++ e :: after ∧
    (∀ b ∈ before, ToolEntry.endsInRuby b = false) ∧ e.endsInRuby = true ∧ e.isRuby = false ∧
    ∀ r, after.find? ToolEntry.isRuby = some r → r.version.text ≠ e.version.text

variable {source : VersionSource} {path : Path}

theorem Lists.inFile?_eq (h : Lists entries source contents) :
    inFile? source contents = (taken? source entries).map fun e => (none, e.version.chars) := by
  cases h with
  | lines h =>
    rw [inFile?, inToolVersions?_written h, Option.map_map]
    rfl
  | table h =>
    have hfound : firstMatch? quotedEntry? ("[tools]\n".toList ++ _) = _ :=
      (firstMatch?_passing "[tools]\n".toList (by decide) _).trans (firstMatch?_written h)
    rw [inFile?, inRtxToml?, hfound, taken?, if_pos rfl]
    cases entries.find? ToolEntry.endsInRuby with
    | none => rfl
    | some e => simp [e.version.chars_ne_nil]

theorem Lists.ofContents_eq {contents : String} (h : Lists entries source contents.toList) :
    ofContents source path contents = answer source path (taken? source entries) := by
  rw [ofContents, h.inFile?_eq]
  cases taken? source entries <;> rfl

theorem find?_isRuby_append {before after : List ToolEntry}
    (hbefore : ∀ b ∈ before, ToolEntry.endsInRuby b = false) :
    (before ++ after).find? ToolEntry.isRuby = after.find? ToolEntry.isRuby := by
  have hnone : before.find? ToolEntry.isRuby = none :=
    List.find?_eq_none.2 fun b hb hruby => by
      cases (hbefore b hb).symm.trans (ToolEntry.endsInRuby_of_isRuby hruby)
  rw [List.find?_append, hnone, Option.none_or]

/-- The first entry that ends like that of Ruby answers for it unless it misleads. -/
theorem answer_endsInRuby_iff :
    answer source path (entries.find? ToolEntry.endsInRuby) =
      answer source path (entries.find? ToolEntry.isRuby) ↔ ¬ Misled entries := by
  constructor
  · rintro h ⟨before, e, after, rfl, hbefore, hends, hother, hversion⟩
    have hnone : before.find? ToolEntry.endsInRuby = none :=
      List.find?_eq_none.2 fun b hb => by simp [hbefore b hb]
    rw [find?_isRuby_append hbefore, List.find?_append, hnone, Option.none_or,
      List.find?_cons_of_pos hends, List.find?_cons_of_neg (by simp [hother])] at h
    cases hruby : after.find? ToolEntry.isRuby with
    | none =>
      rw [hruby] at h
      cases h
    | some r =>
      rw [hruby] at h
      exact hversion r hruby (congrArg Declaration.version (Except.ok.inj h)).symm
  · intro h
    cases hends : entries.find? ToolEntry.endsInRuby with
    | none =>
      have hruby : entries.find? ToolEntry.isRuby = none :=
        List.find?_eq_none.2 fun b hb hruby =>
          List.find?_eq_none.1 hends b hb (ToolEntry.endsInRuby_of_isRuby hruby)
      rw [hruby]
    | some e =>
      obtain ⟨he, before, after, rfl, hbefore⟩ := List.find?_eq_some_iff_append.1 hends
      have hbefore : ∀ b ∈ before, ToolEntry.endsInRuby b = false :=
        fun b hb => by simpa using hbefore b hb
      rw [find?_isRuby_append hbefore]
      -- an entry for something else that ends like that of Ruby answers in its place
      by_cases hruby : e.isRuby = true
      · rw [List.find?_cons_of_pos hruby]
      · rw [List.find?_cons_of_neg hruby]
        by_contra hne
        refine h ⟨before, e, after, rfl, hbefore, he, by simpa using hruby, fun r hr hsame => ?_⟩
        rw [hr, answer, answer, hsame] at hne
        exact hne rfl

/-- **Theorem (other tools).** A file that lists tools with their versions declares the version of
the first entry for Ruby, or none if there is no such entry, exactly unless it is a table in which
another tool comes first whose name ends like that of Ruby, with another version. -/
theorem ruby_entry_decides_iff {files : FileTree} {directory : Path} {home : Option Path}
    {contents : String}
    (hfirst : First files.Reads (candidates directory home) source path contents)
    (hlists : Lists entries source contents.toList) :
    read files directory home = answer source path (taken? source entries) ∧
      (read files directory home = answer source path (entries.find? ToolEntry.isRuby) ↔
        ¬ (source = .rtxToml ∧ Misled entries)) := by
  have hread : read files directory home = answer source path (taken? source entries) :=
    hfirst.read_eq.trans hlists.ofContents_eq
  refine ⟨hread, ?_⟩
  rw [hread, taken?]
  split
  · next hsource => simp [answer_endsInRuby_iff, hsource]
  · next hsource => simp [hsource]

/-- An entry for Ruby. -/
def ruby : ToolEntry where
  name := "ruby".toList
  version := .release 3 2 2
  isRun_name := Text.isRun_of_all rfl

/-- An entry for a tool whose name ends like that of Ruby. -/
def jruby : ToolEntry where
  name := "jruby".toList
  version := .release 9 4 0
  isRun_name := Text.isRun_of_all rfl

/-- A folder with a table. -/
def tabled (contents : String) : FileTree :=
  { entries := [(["w"], .directory), (["w", ".rtx.toml"], .file contents.toUTF8 false)] }

theorem ruby_before_jruby :
    read (tabled "[tools]\nruby = \"3.2.2\"\njruby = \"9.4.0\"\n") ⟨"/w"⟩ none =
      .ok ⟨none, "3.2.2", .rtxToml, ⟨"/w/.rtx.toml"⟩⟩ := by
  have hfirst : First (tabled "[tools]\nruby = \"3.2.2\"\njruby = \"9.4.0\"\n").Reads
      (candidates ⟨"/w"⟩ none) .rtxToml ⟨"/w/.rtx.toml"⟩
      "[tools]\nruby = \"3.2.2\"\njruby = \"9.4.0\"\n" :=
    firstReadable?_eq_some_iff.1 (by decide +kernel)
  have hlists : Lists [ruby, jruby] .rtxToml ("[tools]\n".toList ++
      (ruby.assignment ++ '\n' :: (jruby.assignment ++ '\n' :: []))) :=
    .table (.line _ (.line _ .none))
  exact (ruby_entry_decides_iff hfirst hlists).1

/-- The other tool decides when it stands first. -/
theorem not_always_ruby_entry :
    ¬ ∀ (files : FileTree) (directory : Path) (home : Option Path) (source : VersionSource)
      (path : Path) (contents : String) (entries : List ToolEntry),
      First files.Reads (candidates directory home) source path contents →
      Lists entries source contents.toList →
      read files directory home = answer source path (entries.find? ToolEntry.isRuby) := by
  intro h
  have hfirst : First (tabled "[tools]\njruby = \"9.4.0\"\nruby = \"3.2.2\"\n").Reads
      (candidates ⟨"/w"⟩ none) .rtxToml ⟨"/w/.rtx.toml"⟩
      "[tools]\njruby = \"9.4.0\"\nruby = \"3.2.2\"\n" :=
    firstReadable?_eq_some_iff.1 (by decide +kernel)
  have hlists : Lists [jruby, ruby] .rtxToml ("[tools]\n".toList ++
      (jruby.assignment ++ '\n' :: (ruby.assignment ++ '\n' :: []))) :=
    .table (.line _ (.line _ .none))
  have hread := h _ _ _ _ _ _ _ hfirst hlists
  have hjruby : (read (tabled "[tools]\njruby = \"9.4.0\"\nruby = \"3.2.2\"\n") ⟨"/w"⟩
      none).toOption.map (·.version) = some "9.4.0" := by
    decide +kernel
  rw [hread] at hjruby
  revert hjruby
  decide +kernel

end Declaration

end RubySupervisor
