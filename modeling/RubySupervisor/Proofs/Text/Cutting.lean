import Mathlib.Data.List.DropRight
import Mathlib.Data.List.Infix
import RubySupervisor.Proofs.Text.Writing

/-!
# Where texts are cut

A text is cut at the first or at the last place where a mark stands, and into words at its blanks.
-/

namespace RubySupervisor.Text

variable {mark before after s t : List Char} {c : Char}

/-! ## Cuts at a mark -/

theorem literal?_eq_none_iff {p s : List Char} : literal? p s = none ↔ ¬ p <+: s := by
  rw [Option.eq_none_iff_forall_ne_some]
  constructor
  · rintro hnone ⟨rest, hrest⟩
    exact hnone rest (literal?_eq_some_iff.2 hrest.symm)
  · intro hprefix rest hrest
    exact hprefix ⟨rest, (literal?_eq_some_iff.1 hrest).symm⟩

/-- A mark is not made by a character after the text that the mark does not end with. -/
theorem infix_of_infix_concat {t : List Char} {last : Char} (hne : last ≠ c)
    (h : t ++ [last] <:+: s ++ [c]) : t ++ [last] <:+: s := by
  rcases List.infix_concat_iff.1 h with hsuffix | hinfix
  · have hlength : [last].length = [c].length := rfl
    have hlast := ((List.suffix_append_inj_of_length_eq hlength).1 hsuffix).2
    exact absurd (List.singleton_inj.1 hlast) hne
  · exact hinfix

/-- A mark stands on one side of a character that is not in it. -/
theorem infix_append_cons_iff (hc : c ∉ mark) :
    mark <:+: s ++ c :: t ↔ mark <:+: s ∨ mark <:+: t := by
  constructor
  · intro h
    rcases List.infix_append_iff_ne_nil.1 h with
      hleft | hright | ⟨front, back, -, hback, hmark, -, hfront⟩
    · exact .inl hleft
    · rcases List.infix_cons_iff.1 hright with hprefix | hright
      · cases mark with
        | nil => exact .inr List.nil_infix
        | cons first others =>
          obtain ⟨rfl, -⟩ := List.cons_prefix_cons.1 hprefix
          exact absurd List.mem_cons_self hc
      · exact .inr hright
    · obtain ⟨first, others, rfl⟩ := List.exists_cons_of_ne_nil hback
      obtain ⟨rfl, -⟩ := List.cons_prefix_cons.1 hfront
      exact absurd (by simp [hmark]) hc
  · rintro (hleft | hright)
    · exact List.infix_append_of_infix_left hleft
    · exact List.infix_append_of_infix_right (List.infix_cons hright)

/-- A text is not cut at a mark that is not in it. -/
theorem cutFirst?_eq_none_iff (hmark : mark ≠ []) : cutFirst? mark s = none ↔ ¬ mark <:+: s := by
  induction s with
  | nil => simp [cutFirst?, hmark]
  | cons c s ih =>
    rw [List.infix_cons_iff, not_or, ← literal?_eq_none_iff, ← ih, cutFirst?]
    cases literal? mark (c :: s) <;> simp

theorem occurs_iff {mark s : String} (hmark : mark ≠ "") :
    occurs mark s = true ↔ mark.toList <:+: s.toList := by
  have hmark : mark.toList ≠ [] := fun h => hmark (String.toList_inj.1 h)
  rw [occurs, Option.isSome_iff_ne_none, ne_eq, cutFirst?_eq_none_iff hmark, not_not]

/-- Nor is it cut at the last place of a mark that is not in it. -/
theorem cutLast?_eq_none_iff (hmark : mark ≠ []) : cutLast? mark s = none ↔ ¬ mark <:+: s := by
  induction s with
  | nil => simp [cutLast?, hmark]
  | cons c s ih =>
    rw [List.infix_cons_iff, not_or, ← literal?_eq_none_iff, ← ih, cutLast?]
    cases cutLast? mark s <;> simp

/-- A text is cut at a mark that is not in it before, where the first character of the mark does not
come again in it. -/
theorem cutFirst?_append_mark {first : Char} {others : List Char} (honce : first ∉ others)
    (hbefore : ¬ first :: others <:+: before) (after : List Char) :
    cutFirst? (first :: others) (before ++ first :: (others ++ after)) = some (before, after) := by
  induction before with
  | nil =>
    have hhere := literal?_append (first :: others) after
    rw [List.cons_append] at hhere
    simp [cutFirst?, hhere]
  | cons c before ih =>
    have hhere := literal?_eq_none_of_suffix honce hbefore List.suffix_rfl
      (List.cons_ne_nil c before) (others ++ after)
    have hrest := ih fun h => hbefore (h.trans (List.suffix_cons c before).isInfix)
    rw [List.cons_append] at hhere ⊢
    simp [cutFirst?, hhere, hrest]

/-- A text is cut at a character that is not in it before. -/
theorem cutFirst?_append {c : Char} (hbefore : c ∉ before) (after : List Char) :
    cutFirst? [c] (before ++ c :: after) = some (before, after) :=
  cutFirst?_append_mark List.not_mem_nil (by rwa [List.singleton_infix_iff]) after

/-- What a text is cut into is the text again with the mark between. -/
theorem eq_append_of_cutFirst? (h : cutFirst? mark s = some (before, after)) :
    s = before ++ (mark ++ after) := by
  induction s generalizing before with
  | nil => grind [cutFirst?]
  | cons c s ih =>
    rw [cutFirst?] at h
    split at h
    · next rest hrest =>
      obtain ⟨rfl, rfl⟩ := Prod.mk.inj (Option.some.inj h)
      exact (literal?_eq_some_iff (p := mark)).1 hrest
    · obtain ⟨⟨front, rest⟩, hcut, hsame⟩ := Option.map_eq_some_iff.1 h
      obtain ⟨rfl, rfl⟩ := Prod.mk.inj hsame
      exact congrArg (c :: ·) (ih hcut)

/-- A text is cut at a mark that begins nowhere before. -/
theorem cutFirst?_of_first
    (h : ∀ t, t <:+ before → t ≠ [] → ¬ mark <+: t ++ (mark ++ after)) :
    cutFirst? mark (before ++ (mark ++ after)) = some (before, after) := by
  induction before with
  | nil =>
    have hhere := literal?_append mark after
    cases hwhole : mark ++ after with
    | nil =>
      obtain ⟨rfl, rfl⟩ := List.append_eq_nil_iff.1 hwhole
      rfl
    | cons c rest =>
      rw [hwhole] at hhere
      simp [cutFirst?, hhere]
  | cons c before ih =>
    have hhere := literal?_eq_none_iff.2 (h _ List.suffix_rfl (List.cons_ne_nil c before))
    have hrest := ih fun t ht => h t (ht.trans (List.suffix_cons c before))
    rw [List.cons_append] at hhere ⊢
    simp [cutFirst?, hhere, hrest]

/-- A text is cut at a mark that does not come again in what follows. -/
theorem cutLast?_append_mark {first : Char} {others : List Char}
    (hafter : ¬ first :: others <:+: others ++ after) (before : List Char) :
    cutLast? (first :: others) (before ++ first :: (others ++ after)) = some (before, after) := by
  induction before with
  | nil =>
    have hhere := literal?_append (first :: others) after
    have hrest := (cutLast?_eq_none_iff (List.cons_ne_nil first others)).2 hafter
    rw [List.cons_append] at hhere
    simp [cutLast?, hhere, hrest]
  | cons c before ih => simp [cutLast?, ih]

/-- A text that has a character is cut before what has it no more. -/
theorem exists_cutLast?_of_mem (h : c ∈ s) : ∃ before, s = before ++ c :: s.rtakeWhile (· ≠ c) ∧
    cutLast? [c] s = some (before, s.rtakeWhile (· ≠ c)) := by
  obtain ⟨after, before, hsplit, hafter⟩ := List.eq_append_cons_of_mem (List.mem_reverse.2 h)
  have hwhole : s = before.reverse ++ c :: after.reverse := by
    rw [← List.reverse_inj, hsplit]
    simp
  have hstretch : s.rtakeWhile (· ≠ c) = after.reverse := by
    have hall : ∀ d ∈ after, decide (d ≠ c) = true :=
      fun d hd => decide_eq_true fun hdc => hafter (hdc ▸ hd)
    rw [List.rtakeWhile, hsplit, List.takeWhile_append_of_pos hall]
    simp
  have hnone : ¬ [c] <:+: [] ++ after.reverse := by simpa [List.singleton_infix_iff] using hafter
  refine ⟨before.reverse, by rwa [hstretch], ?_⟩
  rw [hstretch]
  exact hwhole ▸ cutLast?_append_mark hnone before.reverse

/-! ## Words -/

/-- Words are apart on either side of a blank. -/
theorem wordsFrom_append (hc : isBlank c = true) (word s t : List Char) :
    wordsFrom word (s ++ c :: t) = wordsFrom word s ++ wordsFrom [] t := by
  induction s generalizing word with
  | nil => cases word <;> simp [wordsFrom, hc]
  | cons d s ih => cases hd : isBlank d <;> cases word <;> simp [wordsFrom, hd, ih]

theorem words_append_blank (hc : isBlank c = true) (s t : List Char) :
    words (String.ofList (s ++ c :: t)) = words (String.ofList s) ++ words (String.ofList t) := by
  simp [words, wordsFrom_append hc]

/-- What goes on without a blank is one word. -/
theorem wordsFrom_of_not_blank (h : ∀ c ∈ s, isBlank c = false) (word : List Char) :
    wordsFrom word s = if word = [] ∧ s = [] then [] else [word.reverse ++ s] := by
  induction s generalizing word with
  | nil => cases word <;> simp [wordsFrom]
  | cons c s ih =>
    rw [wordsFrom, h c List.mem_cons_self, if_neg Bool.false_ne_true,
      ih fun d hd => h d (List.mem_cons_of_mem c hd)]
    simp

/-- A text without blanks is one word. -/
theorem words_eq_singleton {s : String} (hne : s ≠ "") (h : ∀ c ∈ s.toList, isBlank c = false) :
    words s = [s] := by
  simp [words, wordsFrom_of_not_blank h, hne]

/-! ## Ends -/

/-- What is taken from both ends of a text by a class leaves what neither begins nor ends with a
character of the class. -/
theorem dropWhile_ends {p : Char → Bool} {front core back : List Char}
    (hfront : ∀ c ∈ front, p c = true) (hback : ∀ c ∈ back, p c = true)
    (hfirst : ∀ c ∈ core.head?, p c = false) (hlast : ∀ c ∈ core.getLast?, p c = false)
    (hne : core ≠ []) :
    (((front ++ (core ++ back)).dropWhile p).reverse.dropWhile p).reverse = core := by
  have hkept {l more : List Char} (hhead : ∀ c ∈ l.head?, p c = false) (hl : l ≠ []) :
      (l ++ more).dropWhile p = l ++ more := by
    obtain ⟨c, l, rfl⟩ := List.exists_cons_of_ne_nil hl
    simp [hhead c rfl]
  have hreverse : ∀ c ∈ core.reverse.head?, p c = false := by rwa [List.head?_reverse]
  rw [List.dropWhile_append_of_pos hfront, hkept hfirst hne, List.reverse_append,
    List.dropWhile_append_of_pos fun c hc => hback c (List.mem_reverse.1 hc)]
  have hcore : (core.reverse ++ []).dropWhile p = core.reverse ++ [] :=
    hkept hreverse (by simpa using hne)
  rw [List.append_nil] at hcore
  rw [hcore, List.reverse_reverse]

end RubySupervisor.Text
