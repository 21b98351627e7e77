import Mathlib.Data.List.TakeWhile
import RubySupervisor.Proofs.Files.Naming
import RubySupervisor.Ruby.Version

/-!
# Complete versions and their short form

A complete version is written with three numbers and whatever follows them. The first two of them,
as they are written, are a version that is not complete.
-/

namespace RubySupervisor

namespace Text

/-- The pieces of a text put together again with the separators between them. -/
theorem intercalate_splitChars (c : Char) (s : List Char) :
    [c].intercalate (splitChars (· == c) s) = s := by
  induction s with
  | nil => rfl
  | cons d s ih =>
    obtain ⟨piece, pieces, hpieces⟩ := List.exists_cons_of_ne_nil (splitChars_ne_nil (p := (· == c)) s)
    rw [hpieces] at ih
    by_cases hd : d = c
    · subst hd
      simp [splitChars, hpieces, ih]
    · rw [splitChars, if_neg (by simpa using hd), hpieces]
      cases pieces <;> simp_all [List.intercalate_cons_cons]

end Text

namespace RubyVersion

variable {version : String} {v : RubyVersion} {s major minor rest : List Char} {n : Nat}

/-- The major and the minor number of a version, as they are written. -/
def short (version : String) : String :=
  let pieces := Text.splitChars (· == '.') (version.toList.takeWhile (· != '-'))
  String.ofList (['.'].intercalate (pieces.take 2))

/-- A number is written with digits and a sign. -/
structure IsNumber (s : List Char) : Prop where
  ne_nil : s ≠ []
  char : ∀ c ∈ s, c = '+' ∨ Text.isAsciiDigit c = true

theorem isNumber_of_numeral? (h : Text.numeral? s = some n) : IsNumber s := by
  unfold Text.numeral? at h
  split at h
  · cases h
  · next hdigits =>
    simp only [Bool.or_eq_true, List.isEmpty_iff, Bool.not_eq_true', not_or,
      Bool.not_eq_false, List.all_eq_true] at hdigits
    exact ⟨hdigits.1, fun c hc => .inr (hdigits.2 c hc)⟩

theorem isNumber_of_number? (h : number? s = some n) : IsNumber s := by
  unfold number? Text.unsigned? at h
  have hnumeral := (Option.filter_eq_some_iff.1 h).1
  split at hnumeral
  · next digits =>
    refine ⟨List.cons_ne_nil _ _, fun c hc => ?_⟩
    rcases List.mem_cons.1 hc with rfl | hc
    · exact .inl rfl
    · exact (isNumber_of_numeral? hnumeral).char c hc
  · exact isNumber_of_numeral? hnumeral

theorem IsNumber.not_mem (h : IsNumber s) {c : Char}
    (hc : c ≠ '+' ∧ Text.isAsciiDigit c = false) : c ∉ s := by
  intro hmem
  rcases h.char c hmem with rfl | hdigit
  · exact hc.1 rfl
  · cases hc.2.symm.trans hdigit

/-- A version with a patch is cut into three numbers at least. -/
theorem exists_pieces_of_parse? (h : parse? version = some v) (hpatch : v.patch.isSome = true) :
    ∃ major minor patch more,
      Text.splitChars (· == '.') (version.toList.takeWhile (· != '-')) =
        major :: minor :: patch :: more ∧
      number? major = some v.major ∧ number? minor = some v.minor := by
  unfold parse? at h
  simp only at h
  split at h
  · simp only [Option.bind_eq_bind, Option.bind_eq_some_iff, pure, Option.some.injEq] at h
    obtain ⟨_, -, _, -, rfl⟩ := h
    cases hpatch
  · next major minor patch more hpieces =>
    simp only [Option.bind_eq_bind, Option.bind_eq_some_iff, pure, Option.some.injEq] at h
    obtain ⟨_, hmajor, _, hminor, _, -, rfl⟩ := h
    exact ⟨major, minor, patch, more, hpieces, hmajor, hminor⟩
  · cases h

/-- A version is written with a major and a minor number, a dot, and something behind it. -/
structure Completes (version : String) (v : RubyVersion) (major minor rest : List Char) :
    Prop where
  toList_eq : version.toList = major ++ '.' :: (minor ++ '.' :: rest)
  short_eq : (short version).toList = major ++ '.' :: minor
  major : number? major = some v.major
  minor : number? minor = some v.minor

theorem exists_completes (h : isComplete version = true) :
    ∃ v major minor rest, parse? version = some v ∧ Completes version v major minor rest := by
  unfold isComplete at h
  cases hparse : parse? version with
  | none => simp [hparse] at h
  | some v =>
    obtain ⟨major, minor, patch, more, hpieces, hmajor, hminor⟩ :=
      exists_pieces_of_parse? hparse (by simpa [hparse] using h)
    have hcut := Text.intercalate_splitChars '.' (version.toList.takeWhile (· != '-'))
    have hwhole := List.takeWhile_append_dropWhile (p := (· != '-')) (l := version.toList)
    refine ⟨v, major, minor, ['.'].intercalate (patch :: more) ++
      version.toList.dropWhile (· != '-'), rfl, ?_, ?_, hmajor, hminor⟩
    · rw [hpieces] at hcut
      refine hwhole.symm.trans ?_
      rw [← hcut]
      simp [List.intercalate_cons_cons]
    · simp [short, hpieces, List.intercalate_cons_cons]

namespace Completes

theorem major_isNumber (h : Completes version v major minor rest) : IsNumber major :=
  isNumber_of_number? h.major

theorem minor_isNumber (h : Completes version v major minor rest) : IsNumber minor :=
  isNumber_of_number? h.minor

/-- A version begins with its short form. -/
theorem begins_with_short (h : Completes version v major minor rest) :
    (short version).toList <+: version.toList :=
  ⟨'.' :: rest, by rw [h.short_eq, h.toList_eq]; simp⟩

/-- A version is no path from the root. -/
theorem isAbsolute_eq_false (h : Completes version v major minor rest) :
    (Path.mk version).isAbsolute = false := by
  obtain ⟨c, s, hcons⟩ := List.exists_cons_of_ne_nil h.major_isNumber.ne_nil
  have hc : c ≠ '/' := by
    rintro rfl
    exact h.major_isNumber.not_mem (c := '/') (by decide) (hcons ▸ .head _)
  simp [Path.isAbsolute, h.toList_eq, hcons, hc]

/-- The short form names no other place. -/
theorem slash_not_mem (h : Completes version v major minor rest) :
    '/' ∉ (short version).toList := by
  rw [h.short_eq, List.mem_append, List.mem_cons]
  rintro (hmem | heq | hmem)
  · exact h.major_isNumber.not_mem (by decide) hmem
  · cases heq
  · exact h.minor_isNumber.not_mem (by decide) hmem

/-- The short form is the version without its patch number. -/
theorem parse?_short (h : Completes version v major minor rest) :
    parse? (short version) = some ⟨v.major, v.minor, none⟩ := by
  have hdash : (short version).toList.takeWhile (· != '-') = major ++ '.' :: minor := by
    rw [h.short_eq]
    refine List.takeWhile_eq_self_iff.2 fun c hc => bne_iff_ne.2 ?_
    rintro rfl
    rcases List.mem_append.1 hc with hmem | hmem
    · exact h.major_isNumber.not_mem (by decide) hmem
    · rcases List.mem_cons.1 hmem with heq | hmem
      · cases heq
      · exact h.minor_isNumber.not_mem (by decide) hmem
  have hone {s : List Char} (hs : IsNumber s) : Text.splitChars (· == '.') s = [s] :=
    Text.splitChars_of_forall fun c hc => beq_eq_false_iff_ne.2 fun heq =>
      hs.not_mem (c := '.') (by decide) (heq ▸ hc)
  have hpieces : Text.splitChars (· == '.') ((short version).toList.takeWhile (· != '-')) =
      [major, minor] := by
    rw [hdash, Text.splitChars_append rfl, hone h.major_isNumber, hone h.minor_isNumber]
    rfl
  simp [parse?, hpieces, h.major, h.minor]

example : short "3.2.2-preview1" = "3.2" := by decide +kernel

theorem isComplete_short (h : Completes version v major minor rest) :
    isComplete (short version) = false := by
  rw [isComplete, h.parse?_short]
  rfl

end Completes

end RubyVersion

end RubySupervisor
