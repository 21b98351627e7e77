import RubySupervisor.Proofs.Text.Writing
import RubySupervisor.Ruby.Declaration

/-!
# What the patterns find

The files that declare a version are not parsed but searched, each kind with a pattern of its own. A
pattern that meets a full version takes it up to its end. What it passes over before is told by what
it begins with: a mark of a list, a digit, the first word of a line, or a key.
-/

namespace RubySupervisor

open Text (IsRun isAsciiDigit isAsciiLetter isAsciiAlphanumeric isBlank isDecimalDigit literal? run?
  firstMatch? trimStart)

/-- A full version as it is written: three numbers in ASCII digits, and the letters and digits of a
suffix. -/
structure FullVersion where
  major : List Char
  minor : List Char
  patch : List Char
  suffix : Option (List Char)
  isRun_major : IsRun isAsciiDigit major
  isRun_minor : IsRun isAsciiDigit minor
  isRun_patch : IsRun isAsciiDigit patch
  isRun_suffix : ∀ s ∈ suffix, IsRun isAsciiAlphanumeric s

namespace FullVersion

/-- The version of three numbers, without a suffix. -/
def release (major minor patch : Nat) : FullVersion :=
  { major := Nat.toDigits 10 major
    minor := Nat.toDigits 10 minor
    patch := Nat.toDigits 10 patch
    suffix := none
    isRun_major := Text.isRun_toDigits major
    isRun_minor := Text.isRun_toDigits minor
    isRun_patch := Text.isRun_toDigits patch
    isRun_suffix := nofun }

/-- The three numbers, with dots between them. -/
def numbers (v : FullVersion) : List Char := v.major ++ '.' :: v.minor ++ '.' :: v.patch

/-- The suffix behind its dash. -/
def dashed (v : FullVersion) : List Char :=
  match v.suffix with
  | none => []
  | some s => '-' :: s

/-- The version as it is written. -/
def chars (v : FullVersion) : List Char := v.numbers ++ v.dashed

/-- The text of the version. -/
def text (v : FullVersion) : String := String.ofList v.chars

/-- The characters that a version may have. -/
def isPart (c : Char) : Bool := isDecimalDigit c || isAsciiLetter c || c == '.' || c == '-'

/-- A version does not go on with this text. -/
def Ends (rest : List Char) : Prop := ∀ c ∈ rest.head?, isPart c = false

theorem isDecimalDigit_of_isAsciiDigit {c : Char} (h : isAsciiDigit c = true) :
    isDecimalDigit c = true := by
  obtain ⟨hlow, hhigh⟩ := Text.toNat_of_isAsciiDigit h
  refine List.any_eq_true.2 ⟨0x30, List.mem_cons_self, ?_⟩
  simp
  omega

/-- No digit is a letter. -/
theorem isAsciiLetter_of_isAsciiDigit {c : Char} (h : isAsciiDigit c = true) :
    isAsciiLetter c = false := by
  have hrange := Text.toNat_of_isAsciiDigit h
  simp [isAsciiLetter, Char.le_def, UInt32.le_iff_toNat_le]
  omega

variable {v : FullVersion} {rest : List Char}

theorem Ends.isDecimalDigit (h : Ends rest) : ∀ c ∈ rest.head?, isDecimalDigit c = false := by
  intro c hc
  have hpart := h c hc
  simp only [isPart, Bool.or_eq_false_iff] at hpart
  exact hpart.1.1.1

theorem Ends.isAsciiAlphanumeric (h : Ends rest) :
    ∀ c ∈ rest.head?, isAsciiAlphanumeric c = false := by
  intro c hc
  have hpart := h c hc
  simp only [isPart, Bool.or_eq_false_iff] at hpart
  refine Bool.or_eq_false_iff.2 ⟨hpart.1.1.2, Bool.eq_false_iff.2 fun hdigit => ?_⟩
  cases (isDecimalDigit_of_isAsciiDigit hdigit).symm.trans hpart.1.1.1

/-- A version begins with a digit. -/
theorem exists_chars_eq_cons (v : FullVersion) :
    ∃ c others, v.chars = c :: others ∧ isAsciiDigit c = true := by
  obtain ⟨c, others, hmajor, hc⟩ := v.isRun_major.exists_cons
  exact ⟨c, _, by rw [chars, numbers, hmajor]; rfl, hc⟩

/-- What holds of no digit does not hold of the first character of a version. -/
theorem head?_chars {p : Char → Bool} (h : ∀ c, isAsciiDigit c = true → p c = false)
    (v : FullVersion) (rest : List Char) : ∀ c ∈ (v.chars ++ rest).head?, p c = false := by
  obtain ⟨c, others, hchars, hc⟩ := v.exists_chars_eq_cons
  rw [hchars]
  rintro d ⟨⟩
  exact h c hc

theorem isPart_of_mem {c : Char} (h : c ∈ v.chars) : isPart c = true := by
  have hdigit {run : List Char} (hrun : IsRun isAsciiDigit run) (hc : c ∈ run) :
      isPart c = true := by simp [isPart, isDecimalDigit_of_isAsciiDigit (hrun.all c hc)]
  simp only [chars, numbers, List.mem_append, List.mem_cons] at h
  rcases h with ((h | rfl | h) | rfl | h) | h
  · exact hdigit v.isRun_major h
  · rfl
  · exact hdigit v.isRun_minor h
  · rfl
  · exact hdigit v.isRun_patch h
  · unfold dashed at h
    split at h
    · cases h
    · next s hs =>
      rcases List.mem_cons.1 h with rfl | h
      · rfl
      · rcases Bool.or_eq_true_iff.1 ((v.isRun_suffix s hs).all c h) with hletter | hc
        · simp [isPart, hletter]
        · simp [isPart, isDecimalDigit_of_isAsciiDigit hc]

theorem ne_of_mem {c d : Char} (h : c ∈ v.chars) (hd : isPart d = false) : c ≠ d := by
  rintro rfl
  cases (isPart_of_mem h).symm.trans hd

theorem chars_ne_nil (v : FullVersion) : v.chars ≠ [] := by
  obtain ⟨c, others, hchars, -⟩ := v.exists_chars_eq_cons
  rw [hchars]
  exact List.cons_ne_nil c others

/-- A version is its numbers just if it has no suffix. -/
theorem numbers_eq_chars_iff (v : FullVersion) : v.numbers = v.chars ↔ v.suffix = none := by
  unfold chars dashed
  cases v.suffix <;> simp

end FullVersion

namespace Declaration

open FullVersion (Ends isAsciiLetter_of_isAsciiDigit)

variable {v : FullVersion} {run rest before after : List Char}

/-! ## The numbers of a version -/

theorem run?_digits (h : IsRun isAsciiDigit run)
    (hrest : ∀ c ∈ rest.head?, isDecimalDigit c = false) :
    run? isDecimalDigit (run ++ rest) = some (run, rest) :=
  (h.mono fun _ => FullVersion.isDecimalDigit_of_isAsciiDigit).run?_append hrest

theorem dotDigits?_append (h : IsRun isAsciiDigit run)
    (hrest : ∀ c ∈ rest.head?, isDecimalDigit c = false) :
    dotDigits? ('.' :: (run ++ rest)) = some ('.' :: run, rest) := by
  simp [dotDigits?, literal?, run?_digits h hrest]

theorem dashSuffix?_append (h : IsRun isAsciiAlphanumeric run)
    (hrest : ∀ c ∈ rest.head?, isAsciiAlphanumeric c = false) :
    dashSuffix? ('-' :: (run ++ rest)) = some ('-' :: run, rest) := by
  simp [dashSuffix?, literal?, h.run?_append hrest]

theorem dashSuffix?_eq_none (h : ∀ c ∈ rest.head?, c ≠ '-') : dashSuffix? rest = none := by
  cases rest with
  | nil => rfl
  | cons c rest => simp [dashSuffix?, literal?, (h c rfl).symm]

theorem run?_major (v : FullVersion) (rest : List Char) :
    run? isDecimalDigit (v.numbers ++ rest) =
      some (v.major, '.' :: (v.minor ++ '.' :: (v.patch ++ rest))) := by
  rw [FullVersion.numbers, List.append_assoc, List.append_assoc, List.cons_append,
    List.cons_append]
  exact run?_digits v.isRun_major (by rintro c ⟨⟩; decide)

theorem dotDigits?_minor (v : FullVersion) (rest : List Char) :
    dotDigits? ('.' :: (v.minor ++ '.' :: rest)) = some ('.' :: v.minor, '.' :: rest) :=
  dotDigits?_append v.isRun_minor (by rintro c ⟨⟩; decide)

/-- Three numbers are read whatever stands behind them, as long as the last one ends. -/
theorem threeNumbers?_append (hrest : ∀ c ∈ rest.head?, isDecimalDigit c = false) :
    threeNumbers? (v.numbers ++ rest) = some v.numbers := by
  have hread : threeNumbers? (v.numbers ++ rest) =
      some (v.major ++ '.' :: v.minor ++ '.' :: v.patch) := by
    simp [threeNumbers?, run?_major, dotDigits?_minor, dotDigits?_append v.isRun_patch hrest]
  exact hread

theorem dashed_not_digit (hrest : ∀ c ∈ rest.head?, isDecimalDigit c = false) :
    ∀ c ∈ (v.dashed ++ rest).head?, isDecimalDigit c = false := by
  unfold FullVersion.dashed
  split
  · exact hrest
  · rintro c ⟨⟩
    decide

/-- The suffix is read if there is one. -/
theorem orNothing_dashed (hrest : Ends rest) :
    orNothing (v.dashed ++ rest) (dashSuffix? (v.dashed ++ rest)) = (v.dashed, rest) := by
  unfold FullVersion.dashed
  split
  · have hdash : ∀ c ∈ rest.head?, c ≠ '-' := by
      rintro c hc rfl
      cases hrest _ hc
    rw [List.nil_append, dashSuffix?_eq_none hdash]
    rfl
  · next s hs =>
    rw [List.cons_append, dashSuffix?_append (v.isRun_suffix s hs) hrest.isAsciiAlphanumeric]
    rfl

/-- A full version is read up to its end. -/
theorem version?_append (hrest : Ends rest) : version? (v.chars ++ rest) = some v.chars := by
  have hpatch : dotDigits? ('.' :: (v.patch ++ (v.dashed ++ rest))) =
      some ('.' :: v.patch, v.dashed ++ rest) :=
    dotDigits?_append v.isRun_patch (dashed_not_digit hrest.isDecimalDigit)
  have hnumbers : orNothing ('.' :: (v.patch ++ (v.dashed ++ rest)))
      (some ('.' :: v.patch, v.dashed ++ rest)) = ('.' :: v.patch, v.dashed ++ rest) := rfl
  have hread : version? (v.numbers ++ (v.dashed ++ rest)) =
      some (v.major ++ '.' :: v.minor ++ '.' :: v.patch ++ v.dashed) := by
    simp [version?, run?_major, dotDigits?_minor, hpatch, hnumbers, orNothing_dashed hrest]
  rw [FullVersion.chars, List.append_assoc]
  exact hread

/-! ## The item of a list -/

theorem isQuote_iff {c : Char} : isQuote c = true ↔ c = '\'' ∨ c = '"' := by
  simp [isQuote]

theorem isDecimalDigit_of_isQuote {c : Char} (h : isQuote c = true) : isDecimalDigit c = false := by
  rcases isQuote_iff.1 h with rfl | rfl <;> decide

theorem afterQuote_append (v : FullVersion) (rest : List Char) :
    afterQuote (v.chars ++ rest) = v.numbers ++ (v.dashed ++ rest) := by
  obtain ⟨c, others, hchars, hc⟩ := v.exists_chars_eq_cons
  rw [← List.append_assoc, ← FullVersion.chars, hchars, List.cons_append]
  unfold afterQuote
  split
  · next h =>
    obtain ⟨rfl, -⟩ := List.cons.inj h
    cases hc
  · next h =>
    obtain ⟨rfl, -⟩ := List.cons.inj h
    cases hc
  · rfl

theorem afterQuote_quote {quote : Char} (h : isQuote quote = true) (rest : List Char) :
    afterQuote (quote :: rest) = rest := by
  rcases isQuote_iff.1 h with rfl | rfl <;> rfl

/-- The first item for Ruby decides, and of its version the numbers. -/
theorem inDevYml?_append {item : List Char} (hbefore : ¬ "- ruby: ".toList <:+: before)
    (hitem : afterQuote item = v.numbers ++ rest)
    (hrest : ∀ c ∈ rest.head?, isDecimalDigit c = false) :
    inDevYml? (before ++ ("- ruby: ".toList ++ item)) = some v.numbers := by
  unfold inDevYml?
  rw [Text.firstMatch?_append fun t ht hne => ?_]
  · refine Text.firstMatch?_of_some ?_
    rw [Text.literal?_append]
    simp [hitem, threeNumbers?_append hrest]
  · have hnone : literal? "- ruby: ".toList (t ++ ("- ruby: ".toList ++ item)) = none :=
      Text.literal?_eq_none_of_suffix (by decide) hbefore ht hne _
    rw [hnone]
    rfl

/-! ## A file for nothing else -/

theorem engineVersion?_append (hrest : Ends rest) :
    engineVersion? (v.chars ++ rest) = some (none, v.chars) := by
  have hletter : run? isAsciiLetter (v.chars ++ rest) = none :=
    Text.run?_eq_none (FullVersion.head?_chars (fun _ => isAsciiLetter_of_isAsciiDigit) v rest)
  simp [engineVersion?, hletter, version?_append hrest]

theorem version?_eq_none (h : ∀ c ∈ rest.head?, isDecimalDigit c = false) :
    version? rest = none := by
  simp [version?, Text.run?_eq_none h]

/-- A version stands at the front of the text, or behind letters and a dash. -/
theorem version?_of_engineVersion? {s version : List Char} {engine : Option (List Char)}
    (h : engineVersion? s = some (engine, version)) :
    version? s = some version ∨
      ∃ t, s.dropWhile isAsciiLetter = '-' :: t ∧ version? t = some version := by
  simp only [engineVersion?, Option.orElse_eq_orElse, Option.orElse_eq_or] at h
  rcases Option.or_eq_some_iff.1 h with hnamed | ⟨-, hplain⟩
  · obtain ⟨⟨letters, t⟩, hrun, hnamed⟩ := Option.bind_eq_some_iff.1 hnamed
    obtain ⟨t', hdash, hnamed⟩ := Option.bind_eq_some_iff.1 hnamed
    obtain ⟨found, hfound, hnamed⟩ := Option.bind_eq_some_iff.1 hnamed
    cases hnamed
    refine .inr ⟨t', ?_, hfound⟩
    rw [Text.dropWhile_of_run? hrun]
    exact Text.literal?_eq_some_iff.1 hdash
  · obtain ⟨found, hfound, hpair⟩ := Option.map_eq_some_iff.1 hplain
    cases hpair
    exact .inl hfound

/-- Behind what has no digit no other version is found than the one that follows. -/
theorem version_eq_of_nondigit {version : List Char} {engine : Option (List Char)}
    (hne : before ≠ []) (hbefore : ∀ c ∈ before, isDecimalDigit c = false) (hafter : Ends after)
    (h : engineVersion? (before ++ (v.chars ++ after)) = some (engine, version)) :
    version = v.chars := by
  have hnone {t : List Char} (ht : t ≠ []) (hall : ∀ c ∈ t, isDecimalDigit c = false) :
      version? (t ++ (v.chars ++ after)) = none := by
    obtain ⟨c, t, rfl⟩ := List.exists_cons_of_ne_nil ht
    refine version?_eq_none ?_
    rintro d ⟨⟩
    exact hall c List.mem_cons_self
  -- The letters of an engine end before the version does begin, as no letter is a digit.
  rcases version?_of_engineVersion? h with hfront | ⟨t, hdash, ht⟩
  · cases hfront.symm.trans (hnone hne hbefore)
  · obtain ⟨c, others, hchars, hc⟩ := v.exists_chars_eq_cons
    rw [List.dropWhile_append] at hdash
    cases hfrom : before.dropWhile isAsciiLetter with
    | nil =>
      rw [hfrom, List.isEmpty_nil, if_pos rfl, hchars, List.cons_append,
        List.dropWhile_cons_of_neg (by simp [isAsciiLetter_of_isAsciiDigit hc])] at hdash
      obtain ⟨rfl, -⟩ := List.cons.inj hdash
      cases hc
    | cons d rest =>
      rw [hfrom] at hdash
      obtain ⟨rfl, rfl⟩ := List.cons.inj hdash
      -- the dash is the last thing in front of the version, or what is in front of it goes on
      by_cases hempty : rest = []
      · subst hempty
        exact Option.some.inj (ht.symm.trans (version?_append hafter))
      · have hsuffix : rest <:+ before := (List.suffix_cons '-' rest).trans
          (hfrom ▸ List.dropWhile_suffix isAsciiLetter)
        cases ht.symm.trans (hnone hempty fun c hc => hbefore c (hsuffix.mem hc))

/-- The first version decides, whatever stands before it without a digit. -/
theorem exists_inRubyVersion?_append (hbefore : ∀ c ∈ before, isDecimalDigit c = false)
    (hafter : Ends after) :
    ∃ engine, inRubyVersion? (before ++ (v.chars ++ after)) = some (engine, v.chars) := by
  -- A version is found before its own place where the name of an engine leads up to it.
  induction before with
  | nil => exact ⟨none, Text.firstMatch?_of_some (engineVersion?_append hafter)⟩
  | cons c before ih =>
    cases hhere : engineVersion? (c :: before ++ (v.chars ++ after)) with
    | none =>
      obtain ⟨engine, hfound⟩ := ih fun d hd => hbefore d (List.mem_cons_of_mem c hd)
      refine ⟨engine, ?_⟩
      unfold inRubyVersion? at hfound ⊢
      rw [List.cons_append] at hhere ⊢
      rw [firstMatch?, hhere]
      exact hfound
    | some found =>
      obtain ⟨engine, version⟩ := found
      obtain rfl := version_eq_of_nondigit (List.cons_ne_nil c before) hbefore hafter hhere
      exact ⟨engine, Text.firstMatch?_of_some hhere⟩

/-! ## A line of tools -/

/-- The first word of a line is `ruby`. -/
def ForRuby (line : List Char) : Prop :=
  ∃ others, trimStart line = "ruby".toList ++ others ∧ ∀ c ∈ others.head?, isBlank c = true

theorem toolEntry?_eq_none {s : List Char} (h : ∀ tail, trimStart s = "ruby".toList ++ tail →
    ∀ c ∈ tail.head?, isBlank c = false) : toolEntry? s = none := by
  refine Option.eq_none_iff_forall_ne_some.2 fun version hentry => ?_
  obtain ⟨tail, hruby, hentry⟩ := Option.bind_eq_some_iff.1 hentry
  obtain ⟨_, hblanks, -⟩ := Option.bind_eq_some_iff.1 hentry
  cases hblanks.symm.trans (Text.run?_eq_none (h tail (Text.literal?_eq_some_iff.1 hruby)))

/-- A line for something else declares nothing, and a blank one leaves it to the next. -/
theorem toolEntry?_line {line : List Char} (hline : ¬ ForRuby line) (rest : List Char)
    (hrest : ∀ c ∈ rest.head?, isBlank c = true) :
    toolEntry? (line ++ rest) = none ∨ toolEntry? (line ++ rest) = toolEntry? rest := by
  have htrim : trimStart (line ++ rest) =
      if (trimStart line).isEmpty then trimStart rest else trimStart line ++ rest :=
    List.dropWhile_append
  by_cases hblank : (trimStart line).isEmpty
  · right
    rw [if_pos hblank] at htrim
    simp only [htrim, toolEntry?]
  · left
    rw [if_neg hblank] at htrim
    refine toolEntry?_eq_none fun tail htail c hc => ?_
    rw [htrim] at htail
    -- the word either goes beyond the line, which the blank behind the line rules out, or is on it
    rcases List.append_eq_append_iff.1 htail with ⟨u, hruby, hrestu⟩ | ⟨u, hword, rfl⟩
    · cases u with
      | nil => exact absurd ⟨[], by rw [hruby]; simp, nofun⟩ hline
      | cons d u =>
        have hd : isBlank d = true := hrest d (by rw [hrestu]; rfl)
        have hmem : d ∈ "ruby".toList := hruby ▸ List.mem_append_right _ List.mem_cons_self
        have hnone : ∀ c ∈ "ruby".toList, isBlank c = false := by simp [isBlank]
        cases hd.symm.trans (hnone d hmem)
    · refine Bool.eq_false_iff.2 fun hblank => hline ⟨u, hword, fun d hd => ?_⟩
      have hsame : (u ++ rest).head? = some d := by
        rw [List.head?_append, Option.mem_def.1 hd, Option.some_or]
      cases hc.symm.trans hsame
      exact hblank

theorem after_append {line : List Char} (hline : '\n' ∉ line) (rest : List Char) :
    lineStarts.after (line ++ '\n' :: rest) = lineStarts rest := by
  induction line with
  | nil => rfl
  | cons c line ih =>
    have hc : c ≠ '\n' := (List.ne_of_not_mem_cons hline).symm
    rw [List.cons_append, lineStarts.after, if_neg hc, ih (List.not_mem_of_not_mem_cons hline)]

theorem after_eq_nil {line : List Char} (hline : '\n' ∉ line) : lineStarts.after line = [] := by
  induction line with
  | nil => rfl
  | cons c line ih =>
    have hc : c ≠ '\n' := (List.ne_of_not_mem_cons hline).symm
    rw [lineStarts.after, if_neg hc, ih (List.not_mem_of_not_mem_cons hline)]

/-- A last line for something else declares nothing. -/
theorem inToolVersions?_last {line : List Char} (hend : '\n' ∉ line) (hline : ¬ ForRuby line) :
    inToolVersions? line = none := by
  have hentry : toolEntry? line = none := by
    rcases toolEntry?_line hline [] nofun with h | h
    · rwa [List.append_nil] at h
    · rwa [List.append_nil] at h
  rw [inToolVersions?, lineStarts, after_eq_nil hend, List.findSome?_cons, hentry]
  rfl

/-- A line for something else is passed over. -/
theorem inToolVersions?_line {line : List Char} (hend : '\n' ∉ line) (hline : ¬ ForRuby line) :
    inToolVersions? (line ++ '\n' :: rest) = inToolVersions? rest := by
  have hnext : toolEntry? ('\n' :: rest) = toolEntry? rest := rfl
  rw [inToolVersions?, lineStarts, after_append hend, List.findSome?_cons]
  rcases toolEntry?_line hline ('\n' :: rest) (by rintro c ⟨⟩; rfl) with h | h
  · rw [h]
    rfl
  · rw [h, hnext, inToolVersions?, lineStarts, List.findSome?_cons]
    cases toolEntry? rest <;> rfl

/-- So are several of them. -/
theorem inToolVersions?_lines {lines : List (List Char)}
    (hlines : ∀ line ∈ lines, '\n' ∉ line ∧ ¬ ForRuby line) :
    inToolVersions? (lines.flatMap (· ++ ['\n']) ++ rest) = inToolVersions? rest := by
  induction lines with
  | nil => rfl
  | cons line lines ih =>
    obtain ⟨⟨hend, hother⟩, hlines⟩ := List.forall_mem_cons.1 hlines
    rw [List.flatMap_cons, List.append_assoc, List.append_assoc, List.singleton_append,
      inToolVersions?_line hend hother, ih hlines]

theorem inToolVersions?_ruby {indent gap : List Char} (hindent : ∀ c ∈ indent, isBlank c = true)
    (hgap : IsRun isBlank gap) (hafter : Ends after) :
    inToolVersions? (indent ++ ("ruby".toList ++ (gap ++ (v.chars ++ after)))) = some v.chars := by
  have hname : trimStart (indent ++ ("ruby".toList ++ (gap ++ (v.chars ++ after)))) =
      "ruby".toList ++ (gap ++ (v.chars ++ after)) := by
    rw [Text.trimStart_append_blank indent _ hindent]
    rfl
  have hblank : ∀ c ∈ (v.chars ++ after).head?, isBlank c = false :=
    FullVersion.head?_chars (fun _ => Text.isBlank_of_isAsciiDigit) v after
  have hentry : toolEntry? (indent ++ ("ruby".toList ++ (gap ++ (v.chars ++ after)))) =
      some v.chars := by
    unfold toolEntry?
    rw [hname, Text.literal?_append]
    simp [hgap.run?_append hblank, version?_append hafter]
  rw [inToolVersions?, lineStarts, List.findSome?_cons, hentry]

/-! ## A key of a table -/

/-- The key `ruby` with its equals sign, blanks between them. -/
def key (gap : List Char) : List Char := "ruby".toList ++ (gap ++ ['='])

theorem exists_key_of_quotedEntry? {s content : List Char} (h : quotedEntry? s = some content) :
    ∃ gap others, (∀ c ∈ gap, isBlank c = true) ∧ s = key gap ++ others := by
  obtain ⟨tail, hruby, h⟩ := Option.bind_eq_some_iff.1 h
  obtain ⟨others, hequals, -⟩ := Option.bind_eq_some_iff.1 h
  refine ⟨tail.takeWhile isBlank, others, List.all_eq_true.1 List.all_takeWhile, ?_⟩
  have hsplit : tail = tail.takeWhile isBlank ++ (['='] ++ others) := by
    rw [← Text.literal?_eq_some_iff.1 hequals, trimStart, List.takeWhile_append_dropWhile]
  rw [Text.literal?_eq_some_iff.1 hruby, key, List.append_assoc, List.append_assoc, ← hsplit]

theorem quotedEntry?_key {gap gap' content : List Char} {quote close : Char}
    (hgap : ∀ c ∈ gap, isBlank c = true) (hgap' : ∀ c ∈ gap', isBlank c = true)
    (hquote : isQuote quote = true) (hclose : isQuote close = true)
    (hcontent : ∀ c ∈ content, isQuote c = false ∧ c ≠ '\n') (after : List Char) :
    quotedEntry? (key gap ++ (gap' ++ quote :: (content ++ close :: after))) = some content := by
  have hblank : isBlank quote = false := by rcases isQuote_iff.1 hquote with rfl | rfl <;> rfl
  have htrim (s : List Char) : trimStart (gap' ++ quote :: s) = quote :: s := by
    rw [Text.trimStart_append_blank gap' _ hgap',
      Text.trimStart_of_head? (by rintro c ⟨⟩; exact hblank)]
  have htrim' (s : List Char) : trimStart (gap ++ '=' :: s) = '=' :: s := by
    rw [Text.trimStart_append_blank gap _ hgap, Text.trimStart_of_head? (by rintro c ⟨⟩; rfl)]
  have hinside : (content ++ close :: after).takeWhile (fun c => !isQuote c && c != '\n') =
      content := by
    rw [List.takeWhile_append_of_pos (by simpa using hcontent)]
    simp [hclose]
  unfold quotedEntry?
  rw [key, List.append_assoc, Text.literal?_append]
  simp [htrim, htrim', literal?, hquote, hinside, hclose]

theorem not_mem_key {gap name : List Char} {c : Char} (hgap : ∀ c ∈ gap, isBlank c = true)
    (hname : c ∉ name) (hblank : isBlank c = false) (hequals : c ≠ '=') :
    c ∉ name ++ (gap ++ ['=']) := by
  intro h
  rcases List.mem_append.1 h with h | h
  · exact hname h
  · rcases List.mem_append.1 h with h | h
    · cases hblank.symm.trans (hgap c h)
    · exact hequals (List.mem_singleton.1 h)

theorem quotedEntry?_eq_none {s : List Char}
    (h : ∀ gap others, (∀ c ∈ gap, isBlank c = true) → s ≠ key gap ++ others) :
    quotedEntry? s = none := by
  refine Option.eq_none_iff_forall_ne_some.2 fun content hfound => ?_
  obtain ⟨gap, others, hgap, hkey⟩ := exists_key_of_quotedEntry? hfound
  exact h gap others hgap hkey

/-- The first entry for the key decides. -/
theorem inRtxToml?_key {gap gap' content : List Char} {quote close : Char}
    (hbefore : ∀ gap, (∀ c ∈ gap, isBlank c = true) → ¬ key gap <:+: before)
    (hgap : ∀ c ∈ gap, isBlank c = true) (hgap' : ∀ c ∈ gap', isBlank c = true)
    (hquote : isQuote quote = true) (hclose : isQuote close = true)
    (hcontent : ∀ c ∈ content, isQuote c = false ∧ c ≠ '\n') (hne : content ≠ []) :
    inRtxToml? (before ++ (key gap ++ (gap' ++ quote :: (content ++ close :: after)))) =
      some content := by
  have hpassed (tail : List Char) : ∀ t, t <:+ before → t ≠ [] →
      quotedEntry? (t ++ (key gap ++ tail)) = none := by
    refine fun t ht hne => quotedEntry?_eq_none fun other others hother hsplit => ?_
    have honce : 'r' ∉ "uby".toList ++ (other ++ ['=']) :=
      not_mem_key hother (by decide) (by decide) (by decide)
    have hnone : literal? (key other) (t ++ (key gap ++ tail)) = none :=
      Text.literal?_eq_none_of_suffix honce (hbefore other hother) ht hne _
    cases hnone.symm.trans (Text.literal?_eq_some_iff.2 hsplit)
  rw [inRtxToml?, Text.firstMatch?_append (hpassed _),
    Text.firstMatch?_of_some (quotedEntry?_key hgap hgap' hquote hclose hcontent after)]
  simp [hne]

theorem inside_quotes (v : FullVersion) : ∀ c ∈ v.chars, isQuote c = false ∧ c ≠ '\n' := by
  intro c hc
  have hsingle : c ≠ '\'' := FullVersion.ne_of_mem hc (by decide)
  have hdouble : c ≠ '"' := FullVersion.ne_of_mem hc (by decide)
  exact ⟨by simp [isQuote, hsingle, hdouble], FullVersion.ne_of_mem hc (by decide)⟩

end Declaration

end RubySupervisor
