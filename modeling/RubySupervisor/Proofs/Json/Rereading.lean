import RubySupervisor.Proofs.Json.Writing

/-!
# Documents over lines read again

Whatever number stands in a document that is spread over lines, the reader takes it in whole or
refuses it, and so it is with every value. What a value is read as does not depend on where in the
document it stands.
-/

namespace RubySupervisor.Json

open Text (intText isAsciiDigit literal?)

/-! ## Numerals -/

/-- What stands behind a value in a document over lines: nothing, a comma or a line end. -/
def Breaks (s : List Char) : Prop := ∀ c ∈ s.head?, c = ',' ∨ c = '\n'

/-- Digits, at least one. -/
structure IsDigits (s : List Char) : Prop where
  ne_nil : s ≠ []
  digit : ∀ c ∈ s, isAsciiDigit c = true

theorem isDigits_toDigits (n : Nat) : IsDigits (Nat.toDigits 10 n) :=
  ⟨Nat.toDigits_ne_nil, fun _ => Text.isAsciiDigit_of_mem_toDigits⟩

/-- Digits are run through up to what is no digit. -/
theorem IsDigits.run? {digits rest : List Char} (h : IsDigits digits)
    (hrest : ∀ c ∈ rest.head?, isAsciiDigit c = false) :
    Text.run? isAsciiDigit (digits ++ rest) = some (digits, rest) :=
  Text.IsRun.run?_append ⟨h.ne_nil, h.digit⟩ hrest

/-- The part of a numeral that tells its power of ten, if it has one. -/
inductive IsExponent : List Char → Prop where
  | absent : IsExponent []
  | present {sign : Char} {digits : List Char} (hsign : sign = '+' ∨ sign = '-')
      (h : IsDigits digits) : IsExponent ('e' :: sign :: digits)

/-- The part of a numeral behind the point, if it has one. -/
inductive IsFraction : List Char → Prop where
  | absent : IsFraction []
  | present {digits : List Char} (h : IsDigits digits) : IsFraction ('.' :: digits)

/-- A numeral: digits, and what may stand behind them and in front of them. -/
inductive IsNumeral : List Char → Prop where
  | positive {whole fraction exponent : List Char} (hwhole : IsDigits whole)
      (hfraction : IsFraction fraction) (hexponent : IsExponent exponent) :
      IsNumeral (whole ++ (fraction ++ exponent))
  | negative {whole fraction exponent : List Char} (hwhole : IsDigits whole)
      (hfraction : IsFraction fraction) (hexponent : IsExponent exponent) :
      IsNumeral ('-' :: (whole ++ (fraction ++ exponent)))

/-- No digit goes on where a value ends. -/
theorem Breaks.not_digit {rest : List Char} (h : Breaks rest) :
    ∀ c ∈ rest.head?, isAsciiDigit c = false := by
  intro c hc
  obtain rfl | rfl := h c hc <;> rfl

theorem Breaks.cons {c : Char} {rest : List Char} (h : Breaks (c :: rest)) : c = ',' ∨ c = '\n' :=
  h c rfl

theorem IsExponent.not_digit {exponent rest : List Char} (h : IsExponent exponent)
    (hrest : Breaks rest) : ∀ c ∈ (exponent ++ rest).head?, isAsciiDigit c = false := by
  cases h with
  | absent => exact hrest.not_digit
  | present => simp [isAsciiDigit]

theorem IsFraction.not_digit {fraction exponent rest : List Char} (h : IsFraction fraction)
    (hexponent : IsExponent exponent) (hrest : Breaks rest) :
    ∀ c ∈ (fraction ++ (exponent ++ rest)).head?, isAsciiDigit c = false := by
  cases h with
  | absent => exact hexponent.not_digit hrest
  | present => simp [isAsciiDigit]

/-- A power of ten is read to its end. -/
theorem IsExponent.exists_optionalExponent? {exponent : List Char} (h : IsExponent exponent) :
    ∃ power, ∀ rest, Breaks rest → optionalExponent? (exponent ++ rest) = some (power, rest) := by
  cases h with
  | absent =>
    refine ⟨0, fun rest hrest => ?_⟩
    cases rest with
    | nil => rfl
    | cons c rest => obtain rfl | rfl := hrest.cons <;> rfl
  | @present sign digits hsign hdigits =>
    refine ⟨if sign = '-' then -(Text.digitsValue digits : Int) else Text.digitsValue digits,
      fun rest hrest => ?_⟩
    have hrun := hdigits.run? hrest.not_digit
    obtain rfl | rfl := hsign <;> simp [optionalExponent?, exponent?, hrun]

section Unsigned

variable {negative : Bool} {whole fraction exponent rest : List Char} {power : Int}
  {significand dropped : Nat}

/-- A number with a fraction is a double. -/
theorem unsignedNumber?_of_fraction
    (hwhole : Text.run? isAsciiDigit (whole ++ '.' :: (fraction ++ (exponent ++ rest))) =
      some (whole, '.' :: (fraction ++ (exponent ++ rest))))
    (hzero : ¬ (whole.head? = some '0' ∧ whole.length ≠ 1))
    (hlead : leadingDigits 0 whole = (significand, dropped))
    (hfraction : Text.run? isAsciiDigit (fraction ++ (exponent ++ rest)) =
      some (fraction, exponent ++ rest))
    (hexponent : optionalExponent? (exponent ++ rest) = some (power, rest)) :
    unsignedNumber? negative (whole ++ '.' :: (fraction ++ (exponent ++ rest))) =
      (real? negative (fractionDigits significand 0 fraction).1
        (dropped - (fractionDigits significand 0 fraction).2) power).map (·, rest) := by
  rw [unsignedNumber?, hwhole]
  simp only [Option.bind_eq_bind, Option.bind_some, if_neg hzero, hlead, continuesAsReal,
    Bool.not_true, Bool.and_false, Bool.false_eq_true, if_false, hfraction, hexponent]
  rw [Option.map_eq_bind]
  rfl

/-- A number with an exponent behind its digits is a double. -/
theorem unsignedNumber?_of_exponent {sign : Char}
    (hwhole : Text.run? isAsciiDigit (whole ++ 'e' :: sign :: (exponent ++ rest)) =
      some (whole, 'e' :: sign :: (exponent ++ rest)))
    (hzero : ¬ (whole.head? = some '0' ∧ whole.length ≠ 1))
    (hlead : leadingDigits 0 whole = (significand, dropped))
    (hexponent : optionalExponent? ('e' :: sign :: (exponent ++ rest)) = some (power, rest)) :
    unsignedNumber? negative (whole ++ 'e' :: sign :: (exponent ++ rest)) =
      (real? negative significand dropped power).map (·, rest) := by
  rw [unsignedNumber?, hwhole]
  simp only [Option.bind_eq_bind, Option.bind_some, if_neg hzero, hlead, continuesAsReal,
    Bool.not_true, Bool.and_false, Bool.false_eq_true, if_false]
  split
  · next hpoint => cases hpoint
  · rw [hexponent, Option.map_eq_bind]
    rfl

/-- A number of digits only that fits in a word is an integer, or below the least one a double. -/
theorem unsignedNumber?_of_word
    (hwhole : Text.run? isAsciiDigit (whole ++ rest) = some (whole, rest))
    (hzero : ¬ (whole.head? = some '0' ∧ whole.length ≠ 1))
    (hlead : leadingDigits 0 whole = (significand, 0)) (hrest : continuesAsReal rest = false) :
    unsignedNumber? negative (whole ++ rest) =
      (if negative then
        if significand = 0 || Nat.pow 2 63 < significand then real? true significand 0 0
        else some (int (-significand))
      else some (int significand)).map (·, rest) := by
  rw [unsignedNumber?, hwhole]
  simp only [Option.bind_eq_bind, Option.bind_some, if_neg hzero, hlead, hrest, decide_true,
    Bool.not_false, Bool.and_self, if_true, Option.map_eq_bind]
  split
  · split
    · rfl
    · rfl
  · rfl

/-- A number of more digits is a double. -/
theorem unsignedNumber?_of_long
    (hwhole : Text.run? isAsciiDigit (whole ++ rest) = some (whole, rest))
    (hzero : ¬ (whole.head? = some '0' ∧ whole.length ≠ 1))
    (hlead : leadingDigits 0 whole = (significand, dropped)) (hdropped : dropped ≠ 0)
    (hrest : ∀ after, rest ≠ '.' :: after)
    (hexponent : optionalExponent? rest = some (power, rest)) :
    unsignedNumber? negative (whole ++ rest) =
      (real? negative significand dropped power).map (·, rest) := by
  rw [unsignedNumber?, hwhole]
  simp only [Option.bind_eq_bind, Option.bind_some, if_neg hzero, hlead, hdropped,
    decide_false, Bool.false_and, Bool.false_eq_true, if_false]
  simp only [hexponent, Option.bind_some]
  rw [Option.map_eq_bind]
  rfl

end Unsigned

/-- A numeral behind its sign is read to its end, or refused. -/
theorem exists_unsignedNumber? (negative : Bool) {whole fraction exponent : List Char}
    (hwhole : IsDigits whole) (hfraction : IsFraction fraction) (hexponent : IsExponent exponent) :
    ∃ r : Option Json, ∀ rest, Breaks rest →
      unsignedNumber? negative (whole ++ (fraction ++ (exponent ++ rest))) = r.map (·, rest) := by
  have hrun (rest : List Char) (hrest : Breaks rest) :=
    hwhole.run? (hfraction.not_digit hexponent hrest)
  obtain ⟨power, hpower⟩ := hexponent.exists_optionalExponent?
  -- a zero in front of other digits is refused, whatever comes behind it
  by_cases hzero : whole.head? = some '0' ∧ whole.length ≠ 1
  · refine ⟨none, fun rest hrest => ?_⟩
    rw [unsignedNumber?, hrun rest hrest]
    simp only [Option.bind_eq_bind, Option.bind_some, if_pos hzero]
    rfl
  obtain ⟨significand, dropped, hlead⟩ : ∃ significand dropped,
    leadingDigits 0 whole = (significand, dropped) := ⟨_, _, rfl⟩
  cases hfraction with
  | @present digits hdigits =>
    refine ⟨real? negative (fractionDigits significand 0 digits).1
      (dropped - (fractionDigits significand 0 digits).2) power, fun rest hrest => ?_⟩
    have hwhole := hrun rest hrest
    rw [List.cons_append] at hwhole ⊢
    exact unsignedNumber?_of_fraction hwhole hzero hlead
      (hdigits.run? (hexponent.not_digit hrest)) (hpower rest hrest)
  | absent =>
    cases hexponent with
    | present =>
      refine ⟨real? negative significand dropped power, fun rest hrest => ?_⟩
      exact unsignedNumber?_of_exponent (hrun rest hrest) hzero hlead (hpower rest hrest)
    | absent =>
      have hrest {rest : List Char} (hrest : Breaks rest) :
          continuesAsReal rest = false ∧ ∀ after, rest ≠ '.' :: after := by
        cases rest with
        | nil => exact ⟨rfl, fun _ => (List.cons_ne_nil _ _).symm⟩
        | cons c rest => obtain rfl | rfl := hrest.cons <;> exact ⟨rfl, by simp⟩
      -- digits alone are an integer if they fit in a word
      by_cases hdropped : dropped = 0
      · subst hdropped
        exact ⟨_, fun rest hbreaks =>
          unsignedNumber?_of_word (hrun rest hbreaks) hzero hlead (hrest hbreaks).1⟩
      · exact ⟨_, fun rest hbreaks =>
          unsignedNumber?_of_long (hrun rest hbreaks) hzero hlead hdropped (hrest hbreaks).2
            (hpower rest hbreaks)⟩

/-- A numeral is read to its end, or refused. -/
theorem IsNumeral.exists_number? {s : List Char} (h : IsNumeral s) :
    ∃ r : Option Json, ∀ rest, Breaks rest → number? (s ++ rest) = r.map (·, rest) := by
  cases h with
  | @negative whole fraction exponent hwhole hfraction hexponent =>
    obtain ⟨r, hr⟩ := exists_unsignedNumber? true hwhole hfraction hexponent
    refine ⟨r, fun rest hrest => ?_⟩
    rw [List.cons_append, List.append_assoc, List.append_assoc, number?, hr rest hrest]
  | @positive whole fraction exponent hwhole hfraction hexponent =>
    obtain ⟨r, hr⟩ := exists_unsignedNumber? false hwhole hfraction hexponent
    refine ⟨r, fun rest hrest => ?_⟩
    rw [List.append_assoc, List.append_assoc, ← hr rest hrest]
    unfold number?
    split
    · next hminus =>
      obtain ⟨c, digits, rfl⟩ := List.exists_cons_of_ne_nil hwhole.ne_nil
      obtain rfl : c = '-' := (List.cons.inj hminus).1
      exact absurd (hwhole.digit '-' (.head _)) (by decide)
    · rfl

/-- A numeral begins with a digit or a minus sign. -/
theorem IsNumeral.exists_cons {s : List Char} (h : IsNumeral s) :
    ∃ c rest, s = c :: rest ∧ 45 ≤ c.toNat ∧ c.toNat ≤ 57 := by
  cases h with
  | negative => exact ⟨'-', _, rfl, by decide⟩
  | positive hwhole =>
    obtain ⟨c, digits, rfl⟩ := List.exists_cons_of_ne_nil hwhole.ne_nil
    have hrange := Text.toNat_of_isAsciiDigit (hwhole.digit c (.head _))
    exact ⟨c, _, rfl, by omega⟩

theorem isNumeral_intText (n : Int) : IsNumeral (intText n).toList := by
  cases n with
  | ofNat n =>
    have h := IsNumeral.positive (isDigits_toDigits n) .absent .absent
    simpa [intText, Text.natText] using h
  | negSucc n =>
    have h := IsNumeral.negative (isDigits_toDigits (n + 1)) .absent .absent
    simpa [intText, Text.natText, String.toList_append] using h

theorem IsDigits.append {s s' : List Char} (h : IsDigits s) (h' : ∀ c ∈ s', isAsciiDigit c = true) :
    IsDigits (s ++ s') :=
  ⟨by simp [h.ne_nil], fun c hc => (List.mem_append.1 hc).elim (h.digit c) (h' c)⟩

theorem isAsciiDigit_of_mem_replicate {n : Nat} :
    ∀ c ∈ List.replicate n '0', isAsciiDigit c = true := by
  intro c hc
  rw [List.eq_of_mem_replicate hc]
  rfl

/-- A double is written as digits with a fraction, or with an exponent. -/
theorem exists_body_text (x : Decimal.Binary64) : ∃ whole fraction exponent,
    IsDigits whole ∧ IsFraction fraction ∧ IsExponent exponent ∧
      x.text.toList = (if x.negative then ['-'] else []) ++ (whole ++ (fraction ++ exponent)) := by
  have hzero : IsDigits ['0'] := ⟨by decide, isAsciiDigit_of_mem_replicate (n := 1)⟩
  unfold Decimal.Binary64.text
  dsimp only
  rw [String.toList_ofList]
  generalize (if x.negative then ['-'] else []) = sign
  split
  · exact ⟨_, _, _, hzero, .present hzero, .absent, rfl⟩
  -- the shortest digits: without an exponent where the point falls within or near them
  generalize Decimal.Shortest.ofPositive x = s
  have hdigits := isDigits_toDigits s.digits
  generalize Nat.toDigits 10 s.digits = digits at hdigits ⊢
  have hlength := List.length_pos_iff.2 hdigits.ne_nil
  split
  · split
    · exact ⟨_, _, _, hdigits.append isAsciiDigit_of_mem_replicate, .present hzero, .absent, rfl⟩
    · next hexponent =>
      split
      · next hpoint =>
        have hwhole : IsDigits (digits.take (digits.length + s.exponent).toNat) :=
          ⟨by rw [ne_eq, List.take_eq_nil_iff]; simp [hdigits.ne_nil]; omega,
            fun c hc => hdigits.digit c (List.mem_of_mem_take hc)⟩
        have hfraction : IsDigits (digits.drop (digits.length + s.exponent).toNat) :=
          ⟨by rw [ne_eq, List.drop_eq_nil_iff]; omega,
            fun c hc => hdigits.digit c (List.mem_of_mem_drop hc)⟩
        exact ⟨_, _, _, hwhole, .present hfraction, .absent, by simp⟩
      · have hfraction :
            IsDigits (List.replicate (-(digits.length + s.exponent)).toNat '0' ++ digits) :=
          ⟨by simp [hdigits.ne_nil], fun c hc => (List.mem_append.1 hc).elim
            (isAsciiDigit_of_mem_replicate c) (hdigits.digit c)⟩
        exact ⟨_, _, _, hzero, .present hfraction, .absent, by simp⟩
  -- with an exponent, behind one digit and a fraction of the others
  · have hexponent {sign : Char} (hsign : sign = '+' ∨ sign = '-') :
        IsExponent ('e' :: sign :: Nat.toDigits 10 (digits.length + s.exponent - 1).natAbs) :=
      .present hsign (isDigits_toDigits _)
    have hsign : (if 0 ≤ digits.length + s.exponent - 1 then '+' else '-') = '+' ∨
        (if 0 ≤ digits.length + s.exponent - 1 then '+' else '-') = '-' := by
      split
      · exact .inl rfl
      · exact .inr rfl
    obtain ⟨d, rest, rfl⟩ := List.exists_cons_of_ne_nil hdigits.ne_nil
    have hfirst : IsDigits [d] := ⟨by simp, by simpa using hdigits.digit d (.head _)⟩
    cases rest with
    | nil => exact ⟨_, _, _, hfirst, .absent, hexponent hsign, by simp⟩
    | cons d' rest =>
      have hrest : IsDigits (d' :: rest) := ⟨by simp, fun c hc => hdigits.digit c (.tail _ hc)⟩
      exact ⟨_, _, _, hfirst, .present hrest, hexponent hsign, by simp⟩

theorem isNumeral_text (x : Decimal.Binary64) : IsNumeral x.text.toList := by
  obtain ⟨whole, fraction, exponent, hwhole, hfraction, hexponent, htext⟩ := exists_body_text x
  have hpositive := IsNumeral.positive hwhole hfraction hexponent
  have hnegative := IsNumeral.negative hwhole hfraction hexponent
  rw [htext]
  cases x.negative with
  | true => exact hnegative
  | false => exact hpositive

/-! ## Values -/

/-- Wherever it stands, a text is read as a value, or refused, and the reader stops at its end. -/
def ReadsAs (depth : Nat) (s : List Char) (r : Option Json) : Prop :=
  ∀ fuel rest, 2 * s.length ≤ fuel → Breaks rest → value? fuel depth (s ++ rest) = r.map (·, rest)

theorem skipSpace_skipSpace (s : List Char) : skipSpace (skipSpace s) = skipSpace s := by
  induction s with
  | nil => rfl
  | cons c s ih =>
    cases hc : isSpace c with
    | true =>
      have hskip : skipSpace (c :: s) = skipSpace s := by simp [skipSpace, hc]
      rw [hskip, ih]
    | false => rw [skipSpace_cons hc, skipSpace_cons hc]

theorem skipSpace_lineStart (level : Nat) (s : List Char) :
    skipSpace (lineStart level ++ s) = skipSpace s := by
  have hblank : ∀ c ∈ lineStart level, isSpace c = true := by
    intro c hc
    rcases List.mem_cons.1 hc with rfl | hc
    · rfl
    · rw [List.eq_of_mem_replicate hc]
      rfl
  rw [skipSpace, List.dropWhile_append_of_pos hblank, skipSpace]

/-- Blanks in front of a value do not count. -/
theorem value?_skipSpace (fuel depth : Nat) (s : List Char) :
    value? fuel depth (skipSpace s) = value? fuel depth s := by
  cases fuel with
  | zero => rfl
  | succ fuel => simp only [value?, skipSpace_skipSpace]

theorem itemList?_skipSpace (fuel depth : Nat) (s : List Char) :
    itemList? fuel depth (skipSpace s) = itemList? fuel depth s := by
  cases fuel with
  | zero => rfl
  | succ fuel => simp only [itemList?, value?_skipSpace]

theorem memberList?_skipSpace (fuel depth : Nat) (s : List Char) :
    memberList? fuel depth (skipSpace s) = memberList? fuel depth s := by
  cases fuel with
  | zero => rfl
  | succ fuel => simp only [memberList?, skipSpace_skipSpace]

theorem value?_lineStart (fuel depth level : Nat) (s : List Char) :
    value? fuel depth (lineStart level ++ s) = value? fuel depth s := by
  rw [← value?_skipSpace, skipSpace_lineStart, value?_skipSpace]

theorem breaks_lineStart (level : Nat) (s : List Char) : Breaks (lineStart level ++ s) := by
  simp [Breaks, lineStart]

theorem breaks_comma (s : List Char) : Breaks (',' :: s) := by simp [Breaks]

theorem breaks_nil : Breaks [] := nofun

/-- A value over lines begins with a character that is no blank and closes nothing. -/
theorem exists_cons_prettyChars (level : Nat) (j : Json) :
    ∃ c s, prettyChars level j = c :: s ∧ isSpace c = false ∧ c ≠ ']' := by
  have hnumeral {s : List Char} (h : IsNumeral s) :
      ∃ c s', s = c :: s' ∧ isSpace c = false ∧ c ≠ ']' := by
    obtain ⟨c, s', hcons, hlow, hhigh⟩ := h.exists_cons
    refine ⟨c, s', hcons, isSpace_of_le hlow, ?_⟩
    rintro rfl
    exact absurd hhigh (by decide)
  cases j with
  | null => exact ⟨_, _, rfl, rfl, by decide⟩
  | bool b => cases b <;> exact ⟨_, _, rfl, rfl, by decide⟩
  | int n => exact hnumeral (isNumeral_intText n)
  | real x => exact hnumeral (isNumeral_text x)
  | text s => exact ⟨_, _, rfl, rfl, by decide⟩
  | array items => cases items <;> exact ⟨_, _, rfl, rfl, by decide⟩
  | object members => cases members <;> exact ⟨_, _, rfl, rfl, by decide⟩

/-- Items over lines begin with a line end and then with what is no blank and closes nothing. -/
theorem exists_cons_prettyItems (level : Nat) (item : Json) (items : List Json) :
    ∃ c s, prettyItems level (item :: items) = lineStart level ++ c :: s ∧
      isSpace c = false ∧ c ≠ ']' := by
  obtain ⟨c, s, hcons, hspace, hne⟩ := exists_cons_prettyChars level item
  cases items with
  | nil => exact ⟨c, s, by rw [prettyItems, hcons], hspace, hne⟩
  | cons next items =>
    exact ⟨c, s ++ ',' :: prettyItems level (next :: items),
      by rw [prettyItems, hcons, List.append_assoc, List.cons_append]; simp, hspace, hne⟩

/-- Members over lines begin with a line end and the quote of a name. -/
theorem exists_cons_prettyMembers (level : Nat) (member : String × Json)
    (members : List (String × Json)) :
    ∃ s, prettyMembers level (member :: members) = lineStart level ++ '"' :: s := by
  cases members with
  | nil => exact ⟨_, by rw [prettyMembers, quotedText, List.append_assoc]; rfl⟩
  | cons next members =>
    exact ⟨_, by simp only [prettyMembers, quotedText, List.append_assoc]; rfl⟩

/-- Items that are read one by one are read as a list, unless one of them is refused. -/
theorem itemList?_prettyItems {read : Json → Option Json} {level depth : Nat} {items : List Json}
    (fuel outer : Nat) (rest : List Char)
    (hread : ∀ item ∈ items, ReadsAs depth (prettyChars level item) (read item)) (hne : items ≠ [])
    (hfuel : 2 * (prettyItems level items).length < fuel) :
    itemList? fuel depth (prettyItems level items ++ (lineStart outer ++ ']' :: rest)) =
      (items.mapM read).map (·, rest) := by
  induction items generalizing fuel with
  | nil => exact absurd rfl hne
  | cons item items ih =>
    obtain ⟨fuel, rfl⟩ : ∃ k, fuel = k + 1 := ⟨fuel - 1, by omega⟩
    have hitem := hread item (.head _)
    cases items with
    | nil =>
      rw [prettyItems, List.length_append] at hfuel
      have hvalue := hitem fuel (lineStart outer ++ ']' :: rest) (by omega) (breaks_lineStart _ _)
      rw [prettyItems, itemList?, List.append_assoc, value?_lineStart, hvalue]
      cases hitem : read item <;>
        simp [hitem, skipSpace_lineStart, skipSpace_cons (c := ']') rfl]
    | cons next items =>
      simp only [prettyItems, List.length_append, List.length_cons] at hfuel
      have hvalue := hitem fuel
        (',' :: (prettyItems level (next :: items) ++ (lineStart outer ++ ']' :: rest)))
        (by omega) (breaks_comma _)
      -- the fuel that is left is enough for the other items, whose text is shorter
      have hmore := ih fuel (fun other hother => hread other (.tail _ hother))
        (List.cons_ne_nil _ _) (by omega)
      simp only [prettyItems, itemList?, List.append_assoc, value?_lineStart, List.cons_append,
        hvalue]
      rw [List.mapM_cons]
      cases hitem : read item with
      | none => rfl
      | some value =>
        simp only [Option.map_some, Option.bind_eq_bind, Option.bind_some,
          skipSpace_cons (c := ',') rfl, hmore]
        cases (next :: items).mapM read <;> rfl

/-- Members whose values are read one by one are read as a list, unless one of them is refused. -/
theorem memberList?_prettyMembers {read : Json → Option Json} {level depth : Nat}
    {members : List (String × Json)} (fuel outer : Nat) (rest : List Char)
    (hread : ∀ member ∈ members, ReadsAs depth (prettyChars level member.2) (read member.2))
    (hne : members ≠ []) (hfuel : 2 * (prettyMembers level members).length < fuel) :
    memberList? fuel depth (prettyMembers level members ++ (lineStart outer ++ '\x7d' :: rest)) =
      (members.mapM fun member => (read member.2).map (member.1, ·)).map (·, rest) := by
  induction members generalizing fuel with
  | nil => exact absurd rfl hne
  | cons member members ih =>
    obtain ⟨name, value⟩ := member
    obtain ⟨fuel, rfl⟩ : ∃ k, fuel = k + 1 := ⟨fuel - 1, by omega⟩
    have hback : ReadsAs depth (prettyChars level value) (read value) :=
      hread (name, value) (.head _)
    have hname (s : List Char) :
        quotedText? (skipSpace (lineStart level ++ (quotedText name ++ s))) = some (name, s) := by
      rw [skipSpace_lineStart, quotedText?_skipSpace]
    -- one blank stands between the colon and the value
    have hblank (s : List Char) : value? fuel depth (' ' :: s) = value? fuel depth s := by
      rw [← value?_skipSpace, ← value?_skipSpace fuel depth s]
      rfl
    cases members with
    | nil =>
      simp only [prettyMembers, List.length_append, List.length_cons] at hfuel
      have hvalue := hback fuel (lineStart outer ++ '\x7d' :: rest) (by omega)
        (breaks_lineStart _ _)
      simp only [prettyMembers, memberList?, List.append_assoc, List.cons_append, hname,
        Option.bind_eq_bind, Option.bind_some, skipSpace_cons (c := ':') rfl, literal?, if_true,
        hblank, hvalue]
      cases hvalue : read value <;>
        simp [hvalue, skipSpace_lineStart, skipSpace_cons (c := '\x7d') rfl]
    | cons next members =>
      simp only [prettyMembers, List.length_append, List.length_cons] at hfuel
      have hvalue := hback fuel
        (',' :: (prettyMembers level (next :: members) ++ (lineStart outer ++ '\x7d' :: rest)))
        (by omega) (breaks_comma _)
      have hmore := ih fuel (fun other hother => hread other (.tail _ hother))
        (List.cons_ne_nil _ _) (by omega)
      simp only [prettyMembers, memberList?, List.append_assoc, List.cons_append, hname,
        Option.bind_eq_bind, Option.bind_some, skipSpace_cons (c := ':') rfl, literal?, if_true,
        hblank, hvalue]
      rw [List.mapM_cons]
      cases hvalue : read value with
      | none => rfl
      | some value' =>
        simp only [Option.map_some, Option.bind_eq_bind, Option.bind_some,
          skipSpace_cons (c := ',') rfl, hmore]
        cases (next :: members).mapM fun member => (read member.2).map (member.1, ·) <;> rfl

/-- A text takes one unit of fuel itself. -/
theorem ReadsAs.of_succ {depth : Nat} {s : List Char} {r : Option Json} (hne : s ≠ [])
    (h : ∀ fuel rest, 2 * s.length ≤ fuel + 1 → Breaks rest →
      value? (fuel + 1) depth (s ++ rest) = r.map (·, rest)) : ReadsAs depth s r := by
  intro fuel rest hfuel
  obtain ⟨fuel, rfl⟩ : ∃ k, fuel = k + 1 := by
    have hlength := List.length_pos_iff.2 hne
    exact ⟨fuel - 1, by omega⟩
  exact h fuel rest hfuel

/-- A numeral is read as a number, or refused. -/
theorem IsNumeral.exists_readsAs {s : List Char} (h : IsNumeral s) (depth : Nat) :
    ∃ r, ReadsAs depth s r := by
  obtain ⟨r, hr⟩ := h.exists_number?
  obtain ⟨c, rest, rfl, hrange⟩ := h.exists_cons
  refine ⟨r, .of_succ (List.cons_ne_nil _ _) fun fuel rest' _ hrest => ?_⟩
  rw [← hr rest' hrest, List.cons_append, value?_eq_number? hrange]

/-- An array is read as the array of what its items are read as. -/
theorem readsAs_array {read : Json → Option Json} {level depth : Nat} {items : List Json}
    (hread : ∀ item ∈ items, ReadsAs depth (prettyChars (level + 1) item) (read item)) :
    ReadsAs (depth + 1) (prettyChars level (array items)) ((items.mapM read).map array) := by
  cases items with
  | nil =>
    refine .of_succ (List.cons_ne_nil _ _) fun fuel rest _ _ => ?_
    simp [prettyChars, value?, skipSpace, isSpace]
  | cons item items =>
    refine .of_succ (List.cons_ne_nil _ _) fun fuel rest hfuel _ => ?_
    simp only [prettyChars, List.length_append, List.length_cons] at hfuel
    have hitems := itemList?_prettyItems fuel level rest hread (List.cons_ne_nil _ _) (by omega)
    obtain ⟨c, s, hcons, hspace, hne⟩ := exists_cons_prettyItems (level + 1) item items
    have hskip : skipSpace (prettyItems (level + 1) (item :: items) ++
        (lineStart level ++ ']' :: rest)) = c :: (s ++ (lineStart level ++ ']' :: rest)) := by
      rw [hcons, List.append_assoc, skipSpace_lineStart, List.cons_append, skipSpace_cons hspace]
    rw [← itemList?_skipSpace, hskip] at hitems
    simp only [prettyChars, value?, List.append_assoc, List.cons_append, List.nil_append,
      skipSpace_cons (c := '[') rfl, hskip]
    -- an item never starts with the bracket that closes an empty array
    split
    · next hclosed => exact absurd (List.cons.inj hclosed).1 hne
    · rw [hitems]
      cases (item :: items).mapM read <;> rfl

/-- An object is read as the object of what its members are read as. -/
theorem readsAs_object {read : Json → Option Json} {level depth : Nat}
    {members : List (String × Json)}
    (hread : ∀ member ∈ members, ReadsAs depth (prettyChars (level + 1) member.2) (read member.2)) :
    ReadsAs (depth + 1) (prettyChars level (object members))
      ((members.mapM fun member => (read member.2).map (member.1, ·)).map object) := by
  cases members with
  | nil =>
    refine .of_succ (List.cons_ne_nil _ _) fun fuel rest _ _ => ?_
    simp [prettyChars, value?, skipSpace, isSpace]
  | cons member members =>
    refine .of_succ (List.cons_ne_nil _ _) fun fuel rest hfuel _ => ?_
    simp only [prettyChars, List.length_append, List.length_cons] at hfuel
    have hmembers :=
      memberList?_prettyMembers fuel level rest hread (List.cons_ne_nil _ _) (by omega)
    obtain ⟨s, hcons⟩ := exists_cons_prettyMembers (level + 1) member members
    have hskip : skipSpace (prettyMembers (level + 1) (member :: members) ++
        (lineStart level ++ '\x7d' :: rest)) =
          '"' :: (s ++ (lineStart level ++ '\x7d' :: rest)) := by
      rw [hcons, List.append_assoc, skipSpace_lineStart, List.cons_append, skipSpace_cons rfl]
    rw [← memberList?_skipSpace, hskip] at hmembers
    simp only [prettyChars, value?, List.append_assoc, List.cons_append, List.nil_append,
      skipSpace_cons (c := '\x7b') rfl, hskip]
    -- a member starts with a quote, not with the brace that closes an empty object
    split
    · next hclosed => exact absurd (List.cons.inj hclosed).1 (by decide)
    · rw [hmembers]
      cases (member :: members).mapM fun member => (read member.2).map (member.1, ·) <;> rfl

/-- Where there is no room for it, an array or an object is refused. -/
theorem readsAs_of_no_room (level : Nat) {j : Json}
    (h : (∃ items, j = array items) ∨ ∃ members, j = object members) :
    ReadsAs 0 (prettyChars level j) none := by
  have hhead : ∃ c s, prettyChars level j = c :: s ∧ (c = '[' ∨ c = '\x7b') := by
    rcases h with ⟨_ | _, rfl⟩ | ⟨_ | _, rfl⟩
    · exact ⟨_, _, rfl, .inl rfl⟩
    · exact ⟨_, _, rfl, .inl rfl⟩
    · exact ⟨_, _, rfl, .inr rfl⟩
    · exact ⟨_, _, rfl, .inr rfl⟩
  obtain ⟨c, s, hcons, hc⟩ := hhead
  rw [hcons]
  refine .of_succ (List.cons_ne_nil _ _) fun fuel rest _ _ => ?_
  obtain rfl | rfl := hc <;> rfl

/-- What each of some values is read as makes a reader of all of them. -/
theorem exists_reader (level depth : Nat) (values : List Json)
    (h : ∀ value ∈ values, ∃ r, ReadsAs depth (prettyChars level value) r) :
    ∃ read : Json → Option Json,
      ∀ value ∈ values, ReadsAs depth (prettyChars level value) (read value) :=
  ⟨fun value => Classical.epsilon (ReadsAs depth (prettyChars level value)),
    fun value hvalue => Classical.epsilon_spec (h value hvalue)⟩

/-- Every value over lines is read in one way, or refused. -/
theorem exists_readsAs (j : Json) (level depth : Nat) :
    ∃ r, ReadsAs depth (prettyChars level j) r := by
  -- by recursion on the value; one level of room is spent on each array or object
  match j with
  | null =>
    refine ⟨some null, .of_succ (by simp [prettyChars]) fun fuel rest _ _ => ?_⟩
    simp [prettyChars, value?, skipSpace, isSpace, literal?]
  | bool b =>
    refine ⟨some (bool b), .of_succ (by cases b <;> simp [prettyChars]) fun fuel rest _ _ => ?_⟩
    cases b <;> simp [prettyChars, value?, skipSpace, isSpace, literal?]
  | int n => exact (isNumeral_intText n).exists_readsAs depth
  | real x => exact (isNumeral_text x).exists_readsAs depth
  | text s =>
    refine ⟨some (text s), .of_succ (by simp [prettyChars, quotedText]) fun fuel rest _ _ => ?_⟩
    have hback := quotedText?_quotedText s rest
    simp only [quotedText, List.cons_append] at hback
    simp only [prettyChars, quotedText, List.cons_append, value?, skipSpace_cons (c := '"') rfl,
      hback, Option.map_some]
  | array items =>
    cases depth with
    | zero => exact ⟨none, readsAs_of_no_room level (.inl ⟨items, rfl⟩)⟩
    | succ depth =>
      obtain ⟨read, hread⟩ := exists_reader (level + 1) depth items
        fun item hitem => exists_readsAs item (level + 1) depth
      exact ⟨_, readsAs_array hread⟩
  | object members =>
    cases depth with
    | zero => exact ⟨none, readsAs_of_no_room level (.inr ⟨members, rfl⟩)⟩
    | succ depth =>
      obtain ⟨read, hread⟩ := exists_reader (level + 1) depth (members.attach.map (·.1.2)) (by
        intro value hvalue
        obtain ⟨member, -, rfl⟩ := List.mem_map.1 hvalue
        exact exists_readsAs member.1.2 (level + 1) depth)
      refine ⟨_, readsAs_object fun member hmember => hread member.2 ?_⟩
      exact List.mem_map.2 ⟨⟨member, hmember⟩, List.mem_attach _ _, rfl⟩
termination_by sizeOf j
decreasing_by
  · have hsize := List.sizeOf_lt_of_mem hitem
    simp
    omega
  · have hsize := List.sizeOf_lt_of_mem member.2
    obtain ⟨⟨name, value⟩, hmember⟩ := member
    simp at hsize ⊢
    omega

end RubySupervisor.Json
