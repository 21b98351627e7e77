import RubySupervisor.Text.Blank
import RubySupervisor.Text.Digit
import RubySupervisor.Text.Scan
import RubySupervisor.Text.Utf8

/-!
# Written texts, and what is found in them

A text is read back from its bytes, and a number from its digits. An ASCII text has one byte for
each character, and the digits of a number are ASCII. Trimming takes blanks from the ends of a text
only.

A run goes on as long as its class does, and a search passes over what stands in front of the first
place where something is found. A literal whose first character it has only once does not overlap
with itself, so that one which is not in a text does not begin there either.
-/

/-! ## Texts and numerals -/

namespace RubySupervisor.Text

/-- The bytes of an array as a list are those of its data. -/
theorem toList_eq_data (bytes : ByteArray) : bytes.toList = bytes.data.toList := by
  have hloop (k i : Nat) (r : List UInt8) (hk : bytes.size - i = k) :
      ByteArray.toList.loop bytes i r = r.reverse ++ bytes.data.toList.drop i := by
    -- on how many bytes the loop has still to read
    induction k generalizing i r with
    | zero =>
      have hend : bytes.data.toList.length ≤ i := by
        rw [Array.length_toList]
        exact Nat.le_of_sub_eq_zero hk
      rw [ByteArray.toList.loop.eq_def, if_neg (by omega), List.drop_eq_nil_of_le hend,
        List.append_nil]
    | succ k ih =>
      have hi : i < bytes.size := by omega
      have hlength : i < bytes.data.toList.length := by
        rw [Array.length_toList]
        exact hi
      have hget : bytes.get! i = bytes.data.toList[i] := by
        simp [ByteArray.get!, getElem!_pos, hi]
      rw [ByteArray.toList.loop.eq_def, if_pos hi, ih (i + 1) _ (by omega), hget,
        List.drop_eq_getElem_cons hlength]
      simp
  rw [ByteArray.toList, hloop _ 0 [] rfl, List.drop_zero]
  rfl

/-- A text is read back from its bytes. -/
theorem ofUtf8?_utf8 (s : String) : ofUtf8? ⟨(utf8 s).toArray⟩ = some s := by
  have hbytes : (⟨(utf8 s).toArray⟩ : ByteArray) = s.toUTF8 := by
    rw [ByteArray.ext_iff, utf8, toList_eq_data]
  rw [hbytes, ofUtf8?_toUTF8]

/-- Texts one after the other have their bytes one after the other. -/
theorem utf8_append (s t : String) : utf8 (s ++ t) = utf8 s ++ utf8 t := by
  simp only [utf8, toList_eq_data, String.toUTF8_eq_toByteArray, String.toByteArray_append,
    ByteArray.toList_data_append]

/-- The byte of an ASCII character. -/
def asciiByte (c : Char) : UInt8 := UInt8.ofNat c.toNat

/-- An ASCII text has one byte for each character. -/
theorem utf8_of_ascii {s : String} (h : ∀ c ∈ s.toList, c.toNat < 128) :
    utf8 s = s.toList.map asciiByte := by
  have hencode : s.toList.flatMap String.utf8EncodeChar = s.toList.map asciiByte := by
    generalize s.toList = l at h ⊢
    induction l with
    | nil => rfl
    | cons c l ih =>
      have hc : c.val.toNat ≤ 127 := Nat.le_of_lt_succ (h c List.mem_cons_self)
      rw [List.flatMap_cons, List.map_cons, ih fun d hd => h d (List.mem_cons_of_mem c hd),
        String.utf8EncodeChar, if_pos hc]
      rfl
  rw [utf8, toList_eq_data, String.toUTF8_eq_toByteArray, ← String.utf8Encode_toList,
    List.utf8Encode, ← hencode]
  simp

/-- An ASCII text is read back from one byte for each character. -/
theorem ofUtf8?_ascii {s : String} (h : ∀ c ∈ s.toList, c.toNat < 128) :
    ofUtf8? ⟨(s.toList.map asciiByte).toArray⟩ = some s := by
  rw [← utf8_of_ascii h, ofUtf8?_utf8]

/-- The digits of a number are ASCII digits. -/
theorem isAsciiDigit_of_mem_toDigits {n : Nat} {c : Char} (h : c ∈ Nat.toDigits 10 n) :
    isAsciiDigit c = true := by
  have hdigit := Nat.isDigit_of_mem_toDigits (by decide) (by decide) h
  simp only [Char.isDigit, Bool.and_eq_true, decide_eq_true_eq] at hdigit
  exact Bool.and_eq_true_iff.2 ⟨decide_eq_true hdigit.1, decide_eq_true hdigit.2⟩

/-- The ASCII digits lie between zero and nine. -/
theorem toNat_of_isAsciiDigit {c : Char} (h : isAsciiDigit c = true) :
    48 ≤ c.toNat ∧ c.toNat ≤ 57 := by
  obtain ⟨hlow, hhigh⟩ := Bool.and_eq_true_iff.1 h
  exact ⟨of_decide_eq_true hlow, of_decide_eq_true hhigh⟩

/-- No digit is a blank. -/
theorem isBlank_of_isAsciiDigit {c : Char} (h : isAsciiDigit c = true) : isBlank c = false := by
  have hrange := toNat_of_isAsciiDigit h
  simp [isBlank]
  omega

/-- A number is the value of its digits. -/
theorem digitsValue_toDigits (n : Nat) : digitsValue (Nat.toDigits 10 n) = n := by
  have hvalue : digitsValue (Nat.toDigits 10 n) = Nat.ofDigitChars 10 (Nat.toDigits 10 n) 0 := by
    simp [digitsValue, Nat.ofDigitChars, digitValue, Nat.mul_comm]
  rw [hvalue, Nat.ofDigitChars_ten_toDigits]

/-- A number has a first digit. -/
theorem exists_cons_toDigits (n : Nat) :
    ∃ c digits, Nat.toDigits 10 n = c :: digits ∧ isAsciiDigit c = true := by
  obtain ⟨c, digits, hdigits⟩ := List.exists_cons_of_ne_nil
    (Nat.toDigits_ne_nil (n := n) (b := 10))
  exact ⟨c, digits, hdigits, isAsciiDigit_of_mem_toDigits (n := n) (by simp [hdigits])⟩

/-- The digits of a positive number do not begin with zero. -/
theorem head?_toDigits_ne_zero {n : Nat} (h : 0 < n) : (Nat.toDigits 10 n).head? ≠ some '0' := by
  induction n using Nat.strongRecOn with
  | ind n ih =>
    rcases Nat.lt_or_ge n 10 with hdigit | hmore
    · have hall : ∀ n < 10, 0 < n → [Nat.digitChar n].head? ≠ some '0' := by decide
      rw [Nat.toDigits_of_lt_base hdigit]
      exact hall n hdigit h
    · have hfront := ih (n / 10) (by omega) (by omega)
      obtain ⟨c, digits, hdigits, -⟩ := exists_cons_toDigits (n / 10)
      rw [hdigits] at hfront
      rwa [Nat.toDigits_of_base_le (by decide) hmore, hdigits]

/-- A number below a bound is read back from its digits. -/
theorem unsigned?_toDigits {bound n : Nat} (h : n < bound) :
    unsigned? bound (Nat.toDigits 10 n) = some n := by
  have hdigits : (Nat.toDigits 10 n).all isAsciiDigit = true :=
    List.all_eq_true.2 fun c hc => isAsciiDigit_of_mem_toDigits hc
  have hnumeral : numeral? (Nat.toDigits 10 n) = some n := by
    simp [numeral?, hdigits, Nat.toDigits_ne_nil, digitsValue_toDigits]
  obtain ⟨c, digits, hcons, hdigit⟩ := exists_cons_toDigits n
  unfold unsigned?
  split
  · rename_i rest hplus
    rw [hcons] at hplus
    obtain rfl : c = '+' := (List.cons.inj hplus).1
    exact absurd hdigit (by decide)
  · simp [hnumeral, h]

/-! ## Trimming -/

/-- Trimming leaves a text without blanks alone. -/
theorem trimChars_of_not_blank {s : List Char} (h : ∀ c ∈ s, isBlank c = false) :
    trimChars s = s := by
  have hkept (l : List Char) (hl : ∀ c ∈ l, isBlank c = false) : l.dropWhile isBlank = l := by
    cases l with
    | nil => rfl
    | cons c l => simp [hl c List.mem_cons_self]
  rw [trimChars, trimStart, hkept s h, trimEnd, hkept _ fun c hc => h c (List.mem_reverse.1 hc),
    List.reverse_reverse]

theorem trimEnd_prefix (s : List Char) : trimEnd s <+: s := by
  have hsuffix : s.reverse.dropWhile isBlank <:+ s.reverse := List.dropWhile_suffix isBlank
  simpa [trimEnd] using List.reverse_prefix.2 hsuffix

/-- What is trimmed begins with a character that is no blank. -/
theorem isBlank_of_trimChars {s rest : List Char} {c : Char} (h : trimChars s = c :: rest) :
    isBlank c = false := by
  obtain ⟨blanks, hblanks⟩ := trimEnd_prefix (trimStart s)
  have hstart : s.dropWhile isBlank = c :: (rest ++ blanks) := by
    rw [← trimStart, ← hblanks, ← List.cons_append, ← h, trimChars]
  have hhead := List.head?_dropWhile_not isBlank s
  simpa [hstart] using hhead

/-- Trimming leaves a text alone that has a character other than a blank at either end. -/
theorem trimChars_between {first last : Char} (s : List Char) (hfirst : isBlank first = false)
    (hlast : isBlank last = false) :
    trimChars (first :: s ++ [last]) = first :: s ++ [last] := by
  have hstart : trimStart (first :: s ++ [last]) = first :: s ++ [last] := by
    simp [trimStart, hfirst]
  rw [trimChars, hstart]
  simp [trimEnd, hlast]

/-- A text that is not blank is not what it becomes when it is trimmed and made longer by something
that ends in another character than a blank. -/
theorem trimChars_append_ne {s more : List Char} {last : Char} (hs : trimChars s ≠ [])
    (hlast : isBlank last = false) : trimChars s ++ (more ++ [last]) ≠ s := by
  intro heq
  obtain ⟨first, rest, hfirst⟩ := List.exists_cons_of_ne_nil hs
  have hwhole : s = first :: (rest ++ more) ++ [last] := by
    rw [hfirst] at heq
    simpa using heq.symm
  have htrimmed : trimChars s = s := by
    rw [hwhole]
    exact trimChars_between _ (isBlank_of_trimChars hfirst) hlast
  have hlength := congrArg List.length heq
  simp [htrimmed] at hlength

/-! ## What is found from the left -/

variable {p : Char → Bool} {run rest : List Char}

/-- Characters of a class, at least one. -/
structure IsRun (p : Char → Bool) (run : List Char) : Prop where
  ne_nil : run ≠ []
  all : ∀ c ∈ run, p c = true

theorem isRun_of_all (h : (!run.isEmpty && run.all p) = true) : IsRun p run := by
  obtain ⟨hne, hall⟩ := Bool.and_eq_true_iff.1 h
  exact ⟨by simpa using hne, List.all_eq_true.1 hall⟩

theorem isRun_toDigits (n : Nat) : IsRun isAsciiDigit (Nat.toDigits 10 n) :=
  ⟨Nat.toDigits_ne_nil, fun _ => isAsciiDigit_of_mem_toDigits⟩

/-- A run goes up to what is not of its class. -/
theorem IsRun.run?_append (h : IsRun p run) (hrest : ∀ c ∈ rest.head?, p c = false) :
    run? p (run ++ rest) = some (run, rest) := by
  have hends : rest.takeWhile p = [] ∧ rest.dropWhile p = rest := by
    cases rest with
    | nil => exact ⟨rfl, rfl⟩
    | cons c rest => simp [hrest c rfl]
  simp [run?, List.takeWhile_append_of_pos h.all, List.dropWhile_append_of_pos h.all,
    hends.1, hends.2, h.ne_nil]

theorem IsRun.mono {q : Char → Bool} (h : IsRun p run) (hpq : ∀ c, p c = true → q c = true) :
    IsRun q run :=
  ⟨h.ne_nil, fun c hc => hpq c (h.all c hc)⟩

/-- Where a run ends is told by the text alone. -/
theorem IsRun.eq_of_append {run' rest' : List Char} (h : IsRun p run) (h' : IsRun p run')
    (hrest : ∀ c ∈ rest.head?, p c = false) (hrest' : ∀ c ∈ rest'.head?, p c = false)
    (hsame : run ++ rest = run' ++ rest') : run = run' := by
  have hfound := h.run?_append hrest
  rw [hsame, h'.run?_append hrest'] at hfound
  exact (Prod.mk.inj (Option.some.inj hfound)).1.symm

theorem IsRun.of_suffix {run' : List Char} (h : IsRun p run) (hsuffix : run' <:+ run)
    (hne : run' ≠ []) : IsRun p run' :=
  ⟨hne, fun c hc => h.all c (hsuffix.mem hc)⟩

theorem dropWhile_of_run? {s : List Char} (h : run? p s = some (run, rest)) :
    s.dropWhile p = rest := by
  simp only [run?] at h
  split at h
  · cases h
  · exact (Prod.mk.inj (Option.some.inj h)).2

/-- No run begins with what is not of its class. -/
theorem run?_eq_none (h : ∀ c ∈ rest.head?, p c = false) : run? p rest = none := by
  cases rest with
  | nil => rfl
  | cons c rest => simp [run?, h c rfl]

theorem IsRun.exists_cons (h : IsRun p run) : ∃ c others, run = c :: others ∧ p c = true := by
  obtain ⟨c, others, rfl⟩ := List.exists_cons_of_ne_nil h.ne_nil
  exact ⟨c, others, rfl, h.all c List.mem_cons_self⟩

/-- A text that does not begin with a blank is not trimmed at its start. -/
theorem trimStart_of_head? (h : ∀ c ∈ rest.head?, isBlank c = false) : trimStart rest = rest := by
  cases rest with
  | nil => rfl
  | cons c rest => simp [trimStart, h c rfl]

/-! ## Searches -/

variable {α : Type} {f : List Char → Option α} {before s : List Char}

theorem firstMatch?_of_some {a : α} (h : f s = some a) : firstMatch? f s = some a := by
  cases s with
  | nil => exact h
  | cons c s => simp only [firstMatch?, h]

/-- A search passes over what nothing is found in. -/
theorem firstMatch?_append (h : ∀ t, t <:+ before → t ≠ [] → f (t ++ s) = none) :
    firstMatch? f (before ++ s) = firstMatch? f s := by
  induction before with
  | nil => rfl
  | cons c before ih =>
    have hhere : f (c :: (before ++ s)) = none := h _ List.suffix_rfl (List.cons_ne_nil _ _)
    rw [List.cons_append, firstMatch?, hhere]
    exact ih fun t ht => h t (ht.trans (List.suffix_cons c before))

/-- Where nothing is read past a character, a search finds what is found before it, or else what is
found behind it. -/
theorem firstMatch?_append_cons {c : Char} (h : ∀ s t, f (s ++ c :: t) = f s) (s t : List Char) :
    firstMatch? f (s ++ c :: t) = (firstMatch? f s).or (firstMatch? f t) := by
  induction s with
  | nil =>
    have hhere : f (c :: t) = f [] := h [] t
    cases hfound : f [] <;> simp [firstMatch?, hhere, hfound]
  | cons d s ih =>
    have hhere : f (d :: (s ++ c :: t)) = f (d :: s) := h (d :: s) t
    cases hfound : f (d :: s) <;> simp [firstMatch?, hhere, hfound, ih]

/-- A literal does not reach past a character that is not in it. -/
theorem literal?_append_cons {mark : List Char} {c : Char} (hc : c ∉ mark) (s t : List Char) :
    literal? mark (s ++ c :: t) = (literal? mark s).map (· ++ c :: t) := by
  induction mark generalizing s with
  | nil => simp [literal?]
  | cons d mark ih =>
    obtain ⟨hne, hmark⟩ := List.ne_and_not_mem_of_not_mem_cons hc
    cases s with
    | nil => simp [literal?, hne.symm]
    | cons e s => by_cases hsame : d = e <;> simp [literal?, hsame, ih hmark]

/-- A literal that is not in a text does not begin in it either, where its first character follows
and does not come again. -/
theorem literal?_eq_none_of_suffix {first : Char} {others t : List Char} (honce : first ∉ others)
    (hbefore : ¬ first :: others <:+: before) (ht : t <:+ before) (hne : t ≠ [])
    (rest : List Char) : literal? (first :: others) (t ++ first :: rest) = none := by
  refine Option.eq_none_iff_forall_ne_some.2 fun r hr => ?_
  rcases List.append_eq_append_iff.1 (literal?_eq_some_iff.1 hr) with
    ⟨u, hmark, hrest⟩ | ⟨u, hwhole, -⟩
  · cases u with
    | nil =>
      rw [List.append_nil] at hmark
      exact hbefore (hmark ▸ ht.isInfix)
    | cons c u =>
      obtain ⟨d, t, rfl⟩ := List.exists_cons_of_ne_nil hne
      obtain rfl : first = c := (List.cons.inj hrest).1
      exact honce ((List.cons.inj hmark).2 ▸ List.mem_append_right t List.mem_cons_self)
  · exact hbefore ((hwhole ▸ List.prefix_append _ u).isInfix.trans ht.isInfix)

end RubySupervisor.Text
