import RubySupervisor.Json.Parser
import RubySupervisor.Json.Printer
import RubySupervisor.Proofs.Text.Writing

/-!
# Documents read back

A document in its compact form is read back as it was written, members in their order, when its
numbers are integers of 64 bits and it is nested no deeper than the reader goes. The canonical
value of a document whose names ascend is the document.

Between quotes a character may be spelled in several ways: as itself, by an escape of its own, and
by the numbers of its code units. The reader takes every spelling back, and the printer writes one
of them.
-/

namespace RubySupervisor

namespace Dict

variable {α : Type}

/-- Behind smaller names a pair is stored at the end. -/
theorem insert_of_forall_lt {d : Dict α} {key : String} {value : α}
    (h : ∀ entry ∈ d, entry.1 < key) : d.insert key value = d ++ [(key, value)] := by
  induction d with
  | nil => rfl
  | cons entry d ih =>
    have hlt : entry.1 < key := h entry List.mem_cons_self
    have hne : entry.1 ≠ key := fun heq => String.lt_irrefl key (heq ▸ hlt)
    rw [insert, if_neg hne, if_neg (String.lt_asymm hlt),
      ih fun other hother => h other (List.mem_cons_of_mem entry hother), List.cons_append]

/-- Pairs in ascending order are stored one behind the other. -/
theorem insertAll_of_ascending {d : Dict α} {pairs : List (String × α)}
    (h : (d ++ pairs).Pairwise (·.1 < ·.1)) : insertAll d pairs = d ++ pairs := by
  induction pairs generalizing d with
  | nil => simp [insertAll]
  | cons entry pairs ih =>
    have hlt : ∀ other ∈ d, other.1 < entry.1 := fun other hother =>
      (List.pairwise_append.1 h).2.2 other hother entry List.mem_cons_self
    rw [List.append_cons] at h ⊢
    rw [← ih h, insertAll, List.foldl_cons, insert_of_forall_lt hlt]
    rfl

/-- Pairs in ascending order are the dictionary that they make. -/
theorem ofPairs_of_ascending {pairs : List (String × α)} (h : pairs.Pairwise (·.1 < ·.1)) :
    ofPairs pairs = pairs := insertAll_of_ascending (d := empty) h

end Dict

namespace Json

open Text (intText hexChars hexDigit hexValue? literal? isAsciiDigit)

/-- The values whose numbers are integers of 64 bits, with or without sign. -/
inductive Integral : Json → Prop where
  | null : Integral null
  | bool (b : Bool) : Integral (bool b)
  | int {n : Int} (h : -9223372036854775808 ≤ n ∧ n < 18446744073709551616) : Integral (int n)
  | text (s : String) : Integral (text s)
  | array {items : List Json} (h : ∀ item ∈ items, Integral item) : Integral (array items)
  | object {members : List (String × Json)} (h : ∀ member ∈ members, Integral member.2) :
      Integral (object members)

/-- The values in whose objects the names ascend, each once. -/
inductive Ordered : Json → Prop where
  | null : Ordered null
  | bool (b : Bool) : Ordered (bool b)
  | int (n : Int) : Ordered (int n)
  | real (x : Decimal.Binary64) : Ordered (real x)
  | text (s : String) : Ordered (text s)
  | array {items : List Json} (h : ∀ item ∈ items, Ordered item) : Ordered (array items)
  | object {members : List (String × Json)} (hnames : members.Pairwise (·.1 < ·.1))
      (h : ∀ member ∈ members, Ordered member.2) : Ordered (object members)

mutual
/-- How deep arrays and objects stand inside each other. -/
def depth : Json → Nat
  | array items => depthItems items + 1
  | object members => depthMembers members + 1
  | _ => 0

/-- The depth of the deepest item. -/
def depthItems : List Json → Nat
  | [] => 0
  | item :: rest => max (depth item) (depthItems rest)

/-- The depth of the deepest member. -/
def depthMembers : List (String × Json) → Nat
  | [] => 0
  | (_, value) :: rest => max (depth value) (depthMembers rest)
end

theorem canonicalItems_eq {items : List Json} (h : ∀ item ∈ items, item.canonical = item) :
    canonicalItems items = items := by
  induction items with
  | nil => rfl
  | cons item items ih =>
    rw [canonicalItems, h item List.mem_cons_self,
      ih fun other hother => h other (List.mem_cons_of_mem item hother)]

theorem canonicalMembers_eq {members : List (String × Json)}
    (h : ∀ member ∈ members, member.2.canonical = member.2) :
    canonicalMembers members = members := by
  induction members with
  | nil => rfl
  | cons member members ih =>
    rw [canonicalMembers, h member List.mem_cons_self,
      ih fun other hother => h other (List.mem_cons_of_mem member hother)]

/-- A value whose names ascend is canonical. -/
theorem Ordered.canonical_eq {j : Json} (h : j.Ordered) : j.canonical = j := by
  induction h with
  | null | bool | int | real | text => rfl
  | array _ ih => rw [canonical, canonicalItems_eq ih]
  | object hnames _ ih =>
    rw [canonical, canonicalMembers_eq ih, Dict.ofPairs_of_ascending hnames]

/-! ## Texts -/

section Spelling

/-- Four hexadecimal digits that write a number. -/
def WritesUnit (digits : List Char) (n : Nat) : Prop :=
  ∃ a b c d, digits.map hexValue? = [some a, some b, some c, some d] ∧
    n = ((a * 16 + b) * 16 + c) * 16 + d

variable {digits form s body : List Char} {n : Nat} {c : Char}

theorem WritesUnit.codeUnit? (h : WritesUnit digits n) (s : List Char) :
    codeUnit? (digits ++ s) = some (n, s) := by
  obtain ⟨a, b, c, d, hdigits, rfl⟩ := h
  simp only [List.map_eq_cons_iff, List.map_eq_nil_iff] at hdigits
  obtain ⟨_, _, rfl, ha, _, _, rfl, hb, _, _, rfl, hc, _, _, rfl, hd, rfl⟩ := hdigits
  simp [Json.codeUnit?, ha, hb, hc, hd]

/-- A hexadecimal digit is read back. -/
theorem hexValue?_hexDigit (h : n < 16) : hexValue? (hexDigit n) = some n := by
  have hall : ∀ n < 16, hexValue? (hexDigit n) = some n := by decide
  exact hall n h

/-- A number of one byte is written by its digits, filled with zeros. -/
theorem writesUnit_hexChars (h : n < 256) :
    WritesUnit (List.replicate (4 - (hexChars n).length) '0' ++ hexChars n) n := by
  have hzero : hexValue? '0' = some 0 := rfl
  by_cases hn : n < 16
  · have hdigits : hexChars n = [hexDigit n] := by rw [hexChars, if_pos hn]
    refine ⟨0, 0, 0, n, ?_, by omega⟩
    simp [hdigits, hzero, hexValue?_hexDigit hn, List.replicate]
  · have hhigh : n / 16 < 16 := by omega
    have hdigits : hexChars n = [hexDigit (n / 16), hexDigit (n % 16)] := by
      rw [hexChars, if_neg hn, hexChars, if_pos hhigh, List.cons_append, List.nil_append]
    refine ⟨0, 0, n / 16, n % 16, ?_, by omega⟩
    simp [hdigits, hzero, hexValue?_hexDigit hhigh,
      hexValue?_hexDigit (Nat.mod_lt n (by decide : 16 > 0)), List.replicate]

/-- The letters of the escapes that stand for one character each. -/
def escapes : List (Char × Char) :=
  [('"', '"'), ('\\', '\\'), ('/', '/'), ('b', '\x08'), ('f', '\x0c'), ('n', '\n'), ('r', '\r'),
    ('t', '\t')]

/-- The spellings of a character between quotes. -/
inductive Spells : Char → List Char → Prop where
  | itself {c : Char} (hprinted : 0x20 ≤ c.toNat) (hquote : c ≠ '"') (hslash : c ≠ '\\') :
      Spells c [c]
  | escape {letter c : Char} (h : (letter, c) ∈ escapes) : Spells c ['\\', letter]
  | unit {c : Char} {digits : List Char} (h : WritesUnit digits c.toNat) :
      Spells c ('\\' :: 'u' :: digits)
  | surrogates {c : Char} {n : Nat} {high low : List Char} (hc : c.toNat = 0x10000 + n)
      (hhigh : WritesUnit high (0xD800 + n / 0x400)) (hlow : WritesUnit low (0xDC00 + n % 0x400)) :
      Spells c ('\\' :: 'u' :: (high ++ '\\' :: 'u' :: low))

/-- A character has no number of a surrogate. -/
theorem toNat_lt_or_lt (c : Char) :
    c.toNat < 0xD800 ∨ (0xDFFF < c.toNat ∧ c.toNat < 0x110000) := c.valid

/-- A character is read back from its code unit. -/
theorem unicodeEscape?_unit (h : WritesUnit digits c.toNat) (s : List Char) :
    unicodeEscape? (digits ++ s) = some (c, s) := by
  have hvalid := toNat_lt_or_lt c
  have hlow : ¬ (0xDC00 ≤ c.toNat ∧ c.toNat ≤ 0xDFFF) := by omega
  have hhigh : ¬ (0xD800 ≤ c.toNat ∧ c.toNat ≤ 0xDBFF) := by omega
  rw [unicodeEscape?, h.codeUnit?]
  simp [hlow, hhigh]

/-- A character is read back from its pair of surrogates. -/
theorem unicodeEscape?_surrogates {high low : List Char} (hc : c.toNat = 0x10000 + n)
    (hhigh : WritesUnit high (0xD800 + n / 0x400)) (hlow : WritesUnit low (0xDC00 + n % 0x400))
    (s : List Char) : unicodeEscape? (high ++ '\\' :: 'u' :: (low ++ s)) = some (c, s) := by
  have hvalid := toNat_lt_or_lt c
  have hfirst : ¬ (0xDC00 ≤ 0xD800 + n / 0x400 ∧ 0xD800 + n / 0x400 ≤ 0xDFFF) := by omega
  have hpair : 0xD800 + n / 0x400 ≤ 0xDBFF := by omega
  have hsecond : 0xDC00 + n % 0x400 ≤ 0xDFFF := by omega
  have hvalue : 0x10000 + n / 0x400 * 0x400 + n % 0x400 = c.toNat := by omega
  rw [unicodeEscape?, hhigh.codeUnit?]
  simp [hfirst, hpair, literal?, hlow.codeUnit?, hsecond, hvalue]

/-- A character that is not escaped is read as itself. -/
theorem textBody?_itself (hprinted : 0x20 ≤ c.toNat) (hquote : c ≠ '"') (hslash : c ≠ '\\')
    (fuel : Nat) (s : List Char) :
    textBody? (fuel + 1) (c :: s) =
      (textBody? fuel s).map (fun body => (c :: body.1, body.2)) := by
  simp [textBody?, Nat.not_lt.2 hprinted]

/-- An escape is read as the character for which its letter stands. -/
theorem textBody?_escape {letter : Char} (h : (letter, c) ∈ escapes) (fuel : Nat)
    (s : List Char) :
    textBody? (fuel + 1) ('\\' :: letter :: s) =
      (textBody? fuel s).map (fun body => (c :: body.1, body.2)) := by
  simp only [escapes, List.mem_cons, Prod.mk.injEq, List.not_mem_nil, or_false] at h
  obtain ⟨rfl, rfl⟩ | ⟨rfl, rfl⟩ | ⟨rfl, rfl⟩ | ⟨rfl, rfl⟩ | ⟨rfl, rfl⟩ | ⟨rfl, rfl⟩ | ⟨rfl, rfl⟩ |
    ⟨rfl, rfl⟩ := h
  all_goals
    rw [textBody?.eq_def]
    cases hbody : textBody? fuel s <;> simp [hbody]

/-- An escape of code units is read as their character. -/
theorem textBody?_unicode {t : List Char} (h : unicodeEscape? t = some (c, s)) (fuel : Nat) :
    textBody? (fuel + 1) ('\\' :: 'u' :: t) =
      (textBody? fuel s).map (fun body => (c :: body.1, body.2)) := by
  rw [textBody?.eq_def]
  cases hbody : textBody? fuel s <;> simp [h, hbody]

/-- A character is read back from each of its spellings. -/
theorem Spells.textBody? (h : Spells c form) (fuel : Nat) (s : List Char) :
    textBody? (fuel + 1) (form ++ s) =
      (textBody? fuel s).map (fun body => (c :: body.1, body.2)) := by
  cases h with
  | itself hprinted hquote hslash => exact textBody?_itself hprinted hquote hslash fuel s
  | escape h => exact textBody?_escape h fuel s
  | unit h => exact textBody?_unicode (unicodeEscape?_unit h s) fuel
  | surrogates hc hhigh hlow =>
    have hescape := unicodeEscape?_surrogates hc hhigh hlow s
    simpa using textBody?_unicode hescape fuel

/-- The printer spells a character. -/
theorem spells_writtenChar (c : Char) : Spells c (writtenChar c) := by
  unfold writtenChar
  split
  case h_8 hquote hslash _ _ _ _ _ =>
    split
    · next hcontrol => exact .unit (writesUnit_hexChars (by omega))
    · next hprinted => exact .itself (Nat.not_lt.1 hprinted) hquote hslash
  -- the characters with an escape of their own
  all_goals exact .escape (by decide)

/-- The spellings of a text between quotes. -/
inductive Spelled : List Char → List Char → Prop where
  | nil : Spelled [] []
  | cons {c : Char} {form s body : List Char} (hc : Spells c form) (hs : Spelled s body) :
      Spelled (c :: s) (form ++ body)

/-- The printer spells a text. -/
theorem spelled_writtenText (s : List Char) : Spelled s (writtenText s) := by
  induction s with
  | nil => exact .nil
  | cons c s ih => exact .cons (spells_writtenChar c) ih

/-- A text is read back from each of its spellings, up to the closing quote. -/
theorem Spelled.textBody? (h : Spelled s body) {fuel : Nat} (hfuel : s.length < fuel)
    (rest : List Char) : textBody? fuel (body ++ '"' :: rest) = some (s, rest) := by
  induction h generalizing fuel with
  | nil =>
    obtain ⟨fuel, rfl⟩ : ∃ k, fuel = k + 1 := ⟨fuel - 1, by simp at hfuel; omega⟩
    rfl
  | cons hc _ ih =>
    obtain ⟨fuel, rfl⟩ : ∃ k, fuel = k + 1 := ⟨fuel - 1, by simp at hfuel; omega⟩
    rw [List.append_assoc, hc.textBody?, ih (by simpa using hfuel)]
    rfl

/-- Every character is spelled with one character at least. -/
theorem Spelled.length_le (h : Spelled s body) : s.length ≤ body.length := by
  induction h with
  | nil => exact Nat.le_refl 0
  | cons hc _ ih =>
    have hform : ∀ {c form}, Spells c form → 0 < form.length := by
      rintro c form (_ | _ | _ | _) <;> exact Nat.succ_pos _
    have hlength := hform hc
    rw [List.length_append, List.length_cons]
    omega

/-- A text is read back from each of its spellings between quotes. -/
theorem Spelled.quotedText? {s : String} (h : Spelled s.toList body) (rest : List Char) :
    quotedText? ('"' :: (body ++ '"' :: rest)) = some (s, rest) := by
  have hlength := h.length_le
  have hbody : Json.textBody? ((body ++ '"' :: rest).length + 1) (body ++ '"' :: rest) =
      some (s.toList, rest) := h.textBody? (by rw [List.length_append]; omega) rest
  simp only [Json.quotedText?, hbody, Option.map_some, String.ofList_toList]

/-- A text is read back from its quoted form. -/
theorem quotedText?_quotedText (s : String) (rest : List Char) :
    quotedText? (quotedText s ++ rest) = some (s, rest) := by
  have hback := (spelled_writtenText s.toList).quotedText? rest
  simpa [quotedText] using hback

end Spelling

/-! ## Numbers -/

/-- What stands behind a value inside of a document: nothing, a comma or a closing bracket. -/
def Closes (s : List Char) : Prop := ∀ c ∈ s.head?, c = ',' ∨ c = ']' ∨ c = '\x7d'

/-- The value of digits is no less than what they begin with. -/
theorem le_foldl_digits (value : Nat) (digits : List Char) :
    value ≤ digits.foldl (fun n c => n * 10 + Text.digitValue c) value := by
  induction digits generalizing value with
  | nil => exact Nat.le_refl value
  | cons c digits ih =>
    have hrest := ih (value * 10 + Text.digitValue c)
    rw [List.foldl_cons]
    omega

/-- All digits of a number that fits in a word are read. -/
theorem leadingDigits_eq {value : Nat} {digits : List Char}
    (h : digits.foldl (fun n c => n * 10 + Text.digitValue c) value < wordLimit) :
    leadingDigits value digits =
      (digits.foldl (fun n c => n * 10 + Text.digitValue c) value, 0) := by
  induction digits generalizing value with
  | nil => rfl
  | cons c digits ih =>
    rw [List.foldl_cons] at h ⊢
    have hnext := Nat.lt_of_le_of_lt (le_foldl_digits _ digits) h
    rw [leadingDigits, if_pos hnext, ih h]

/-- The digits of a number end where the document goes on. -/
theorem run?_toDigits (n : Nat) {rest : List Char} (h : Closes rest) :
    Text.run? isAsciiDigit (Nat.toDigits 10 n ++ rest) = some (Nat.toDigits 10 n, rest) := by
  refine (Text.isRun_toDigits n).run?_append fun c hc => ?_
  obtain rfl | rfl | rfl := h c hc <;> rfl

/-- A number has no fraction and no exponent where the document goes on. -/
theorem continuesAsReal_of_closes {rest : List Char} (h : Closes rest) :
    continuesAsReal rest = false := by
  cases rest with
  | nil => rfl
  | cons c rest => obtain rfl | rfl | rfl := h c rfl <;> rfl

/-- The digits of a number that fits in a word are read back as an integer, negative ones down to
the least. -/
theorem unsignedNumber?_toDigits (negative : Bool) {n : Nat} {rest : List Char}
    (h : Closes rest) (hword : n < wordLimit)
    (hnegative : negative = true → 0 < n ∧ n ≤ Nat.pow 2 63) :
    unsignedNumber? negative (Nat.toDigits 10 n ++ rest) =
      some (int (if negative then -n else n), rest) := by
  have hvalue : leadingDigits 0 (Nat.toDigits 10 n) = (n, 0) := by
    have hn := Text.digitsValue_toDigits n
    rw [Text.digitsValue] at hn
    rw [leadingDigits_eq (by rwa [hn]), hn]
  -- a zero in front of other digits would be refused
  have hzero : ¬ ((Nat.toDigits 10 n).head? = some '0' ∧ (Nat.toDigits 10 n).length ≠ 1) := by
    rintro ⟨hhead, hlength⟩
    rcases Nat.eq_zero_or_pos n with rfl | hpos
    · exact hlength rfl
    · exact Text.head?_toDigits_ne_zero hpos hhead
  rw [unsignedNumber?, run?_toDigits n h]
  simp only [Option.bind_eq_bind, Option.bind_some, if_neg hzero, hvalue,
    continuesAsReal_of_closes h]
  cases negative with
  | false => simp
  | true =>
    obtain ⟨hpos, hleast⟩ := hnegative rfl
    simp [show n ≠ 0 by omega, Nat.not_lt.2 hleast]

/-- An integer of 64 bits is read back. -/
theorem number?_intText {n : Int} {rest : List Char} (h : Closes rest)
    (hn : -9223372036854775808 ≤ n ∧ n < 18446744073709551616) :
    number? ((intText n).toList ++ rest) = some (int n, rest) := by
  cases n with
  | ofNat n =>
    have hword : n < wordLimit := by simp [wordLimit] at hn ⊢; omega
    have hdigits := unsignedNumber?_toDigits false h hword (by simp)
    simp only [intText, Text.natText, String.toList_ofList]
    unfold number?
    split
    · rename_i hminus
      -- no digit is the sign
      obtain ⟨c, digits, hcons, hdigit⟩ := Text.exists_cons_toDigits n
      rw [hcons] at hminus
      obtain rfl : c = '-' := (List.cons.inj hminus).1
      exact absurd hdigit (by decide)
    · rw [hdigits]
      rfl
  | negSucc n =>
    have hword : n + 1 < wordLimit := by simp [wordLimit] at hn ⊢; omega
    have hdigits := unsignedNumber?_toDigits true h hword
      fun _ => ⟨Nat.succ_pos n, by simp at hn ⊢; omega⟩
    simp [intText, Text.natText, number?, hdigits, Int.negSucc_eq]

/-- An integer is written with a digit or a minus sign in front. -/
theorem exists_cons_intText (n : Int) :
    ∃ c s, (intText n).toList = c :: s ∧ 45 ≤ c.toNat ∧ c.toNat ≤ 57 := by
  cases n with
  | ofNat n =>
    obtain ⟨c, digits, hcons, hdigit⟩ := Text.exists_cons_toDigits n
    have hrange := Text.toNat_of_isAsciiDigit hdigit
    exact ⟨c, digits, by rw [intText, Text.natText, String.toList_ofList, hcons], by omega⟩
  | negSucc n => exact ⟨'-', _, by rw [intText, String.toList_append]; rfl, by decide⟩

/-! ## Values -/

theorem skipSpace_cons {c : Char} (h : isSpace c = false) (s : List Char) :
    skipSpace (c :: s) = c :: s := by
  simp [skipSpace, h]

/-- The quoted form of a text is read back where space may stand in front of it. -/
theorem quotedText?_skipSpace (name : String) (rest : List Char) :
    quotedText? (skipSpace (quotedText name ++ rest)) = some (name, rest) := by
  have hskip : skipSpace (quotedText name ++ rest) = quotedText name ++ rest := skipSpace_cons rfl _
  rw [hskip, quotedText?_quotedText]

theorem isSpace_of_le {c : Char} (h : 45 ≤ c.toNat) : isSpace c = false := by
  simp only [isSpace, Bool.or_eq_false_iff, beq_eq_false_iff_ne]
  refine ⟨⟨⟨?_, ?_⟩, ?_⟩, ?_⟩ <;> rintro rfl <;> exact absurd h (by decide)

/-- A value that begins with a digit or a minus sign is a number. -/
theorem value?_eq_number? {c : Char} (h : 45 ≤ c.toNat ∧ c.toNat ≤ 57) (fuel depth : Nat)
    (s : List Char) : value? (fuel + 1) depth (c :: s) = number? (c :: s) := by
  have hne (letter : Char) (hletter : 57 < letter.toNat ∨ letter.toNat < 45) : c ≠ letter := by
    rintro rfl
    omega
  rw [value?.eq_def]
  simp [skipSpace_cons (isSpace_of_le h.1), hne 'n' (by decide), hne 't' (by decide),
    hne 'f' (by decide), hne '"' (by decide), hne '[' (by decide), hne '\x7b' (by decide)]

/-- A written value begins with a character that is no blank and closes nothing. -/
theorem Integral.exists_cons {j : Json} (h : j.Integral) :
    ∃ c s, compactChars j = c :: s ∧ isSpace c = false ∧ c ≠ ']' := by
  cases h with
  | null => exact ⟨_, _, rfl, rfl, by decide⟩
  | bool b => cases b <;> exact ⟨_, _, rfl, rfl, by decide⟩
  | @int n h =>
    obtain ⟨c, s, hcons, hlow, hhigh⟩ := exists_cons_intText n
    refine ⟨c, s, hcons, isSpace_of_le hlow, ?_⟩
    rintro rfl
    exact absurd hhigh (by decide)
  | text s => exact ⟨_, _, rfl, rfl, by decide⟩
  | array h => exact ⟨_, _, rfl, rfl, by decide⟩
  | object h => exact ⟨_, _, rfl, rfl, by decide⟩

/-- Written items begin with a character that is no blank and no closing bracket. -/
theorem exists_cons_compactItems {item : Json} (items : List Json) (h : item.Integral) :
    ∃ c s, compactItems (item :: items) = c :: s ∧ isSpace c = false ∧ c ≠ ']' := by
  obtain ⟨c, s, hcons, hspace, hne⟩ := h.exists_cons
  cases items with
  | nil => exact ⟨c, s, by rw [compactItems, hcons], hspace, hne⟩
  | cons next items =>
    exact ⟨c, s ++ ',' :: compactItems (next :: items), by simp [compactItems, hcons], hspace, hne⟩

/-- Written members begin with the quote of a name. -/
theorem exists_cons_compactMembers (member : String × Json) (members : List (String × Json)) :
    ∃ s, compactMembers (member :: members) = '"' :: s := by
  cases members with
  | nil => exact ⟨_, rfl⟩
  | cons next members => exact ⟨_, rfl⟩

/-- Whether a value is read back wherever it stands, given fuel for its length and room for its
depth. -/
def ReadsBack (j : Json) : Prop :=
  ∀ (fuel depth : Nat) (rest : List Char), 2 * (compactChars j).length ≤ fuel → j.depth ≤ depth →
    Closes rest → value? fuel depth (compactChars j ++ rest) = some (j, rest)

/-- Items that are read back one by one are read back as a list. -/
theorem itemList?_compactItems {items : List Json} (fuel : Nat) {depth : Nat} (rest : List Char)
    (hread : ∀ item ∈ items, ReadsBack item) (hne : items ≠ [])
    (hfuel : 2 * (compactItems items).length < fuel) (hdepth : depthItems items ≤ depth) :
    itemList? fuel depth (compactItems items ++ ']' :: rest) = some (items, rest) := by
  induction items generalizing fuel with
  | nil => exact absurd rfl hne
  | cons item items ih =>
    obtain ⟨fuel, rfl⟩ : ∃ k, fuel = k + 1 := ⟨fuel - 1, by omega⟩
    have hitem := hread item List.mem_cons_self
    have hdepth := Nat.max_le.1 hdepth
    cases items with
    | nil =>
      rw [compactItems] at hfuel ⊢
      have hvalue := hitem fuel depth (']' :: rest) (by omega) hdepth.1 (by simp [Closes])
      simp [itemList?, hvalue, skipSpace_cons (c := ']') rfl]
    | cons next items =>
      simp only [compactItems, List.length_append, List.length_cons] at hfuel
      have hvalue := hitem fuel depth (',' :: compactItems (next :: items) ++ ']' :: rest)
        (by omega) hdepth.1 (by simp [Closes])
      have hmore := ih fuel (fun other hother => hread other (List.mem_cons_of_mem item hother))
        (by simp) (by omega) hdepth.2
      simp only [compactItems, itemList?, List.append_assoc, List.cons_append] at hvalue ⊢
      simp [hvalue, skipSpace_cons (c := ',') rfl, hmore]

/-- Members whose values are read back one by one are read back as a list. -/
theorem memberList?_compactMembers {members : List (String × Json)} (fuel : Nat) {depth : Nat}
    (rest : List Char) (hread : ∀ member ∈ members, ReadsBack member.2) (hne : members ≠ [])
    (hfuel : 2 * (compactMembers members).length < fuel) (hdepth : depthMembers members ≤ depth) :
    memberList? fuel depth (compactMembers members ++ '\x7d' :: rest) = some (members, rest) := by
  induction members generalizing fuel with
  | nil => exact absurd rfl hne
  | cons member members ih =>
    obtain ⟨name, value⟩ := member
    obtain ⟨fuel, rfl⟩ : ∃ k, fuel = k + 1 := ⟨fuel - 1, by omega⟩
    have hback : ReadsBack value := hread (name, value) List.mem_cons_self
    have hdepth := Nat.max_le.1 hdepth
    cases members with
    | nil =>
      rw [compactMembers, List.length_append, List.length_cons] at hfuel
      have hvalue := hback fuel depth ('\x7d' :: rest) (by omega) hdepth.1 (by simp [Closes])
      simp [compactMembers, memberList?, quotedText?_skipSpace, hvalue, literal?,
        skipSpace_cons (c := ':') rfl, skipSpace_cons (c := '\x7d') rfl]
    | cons next members =>
      simp only [compactMembers, List.length_append, List.length_cons] at hfuel
      have hvalue := hback fuel depth (',' :: compactMembers (next :: members) ++ '\x7d' :: rest)
        (by omega) hdepth.1 (by simp [Closes])
      have hmore := ih fuel (fun other hother => hread other (List.mem_cons_of_mem _ hother))
        (by simp) (by omega) hdepth.2
      simp only [compactMembers, memberList?, List.append_assoc, List.cons_append] at hvalue ⊢
      simp [quotedText?_skipSpace, hvalue, literal?, skipSpace_cons (c := ':') rfl,
        skipSpace_cons (c := ',') rfl, hmore]

/-- A value takes one unit of fuel itself. -/
theorem ReadsBack.of_succ {j : Json} (hne : compactChars j ≠ [])
    (h : ∀ (fuel depth : Nat) (rest : List Char), 2 * (compactChars j).length ≤ fuel + 1 →
      j.depth ≤ depth → Closes rest →
      value? (fuel + 1) depth (compactChars j ++ rest) = some (j, rest)) : ReadsBack j := by
  intro fuel depth rest hfuel
  obtain ⟨fuel, rfl⟩ : ∃ k, fuel = k + 1 := by
    have hlength := List.length_pos_iff.2 hne
    exact ⟨fuel - 1, by omega⟩
  exact h fuel depth rest hfuel

/-- An array whose items are read back is read back. -/
theorem readsBack_array {items : List Json} (h : ∀ item ∈ items, item.Integral)
    (hread : ∀ item ∈ items, ReadsBack item) : ReadsBack (array items) := by
  refine .of_succ (by simp [compactChars]) fun fuel depth rest hfuel hdepth hrest => ?_
  obtain ⟨depth, rfl⟩ : ∃ k, depth = k + 1 := Nat.exists_eq_add_one.2 (Nat.zero_lt_of_lt hdepth)
  cases items with
  | nil => simp [compactChars, compactItems, value?, skipSpace, isSpace]
  | cons item items =>
    obtain ⟨c, s, hcons, hspace, hne⟩ :=
      exists_cons_compactItems items (h item List.mem_cons_self)
    have hitems := itemList?_compactItems fuel rest hread (by simp)
      (by simp [compactChars] at hfuel; omega) (Nat.le_of_succ_le_succ hdepth)
    rw [hcons, List.cons_append] at hitems
    simp [compactChars, hcons, value?, skipSpace_cons (c := '[') rfl, skipSpace_cons hspace, hne,
      hitems]

/-- An object whose members are read back is read back. -/
theorem readsBack_object {members : List (String × Json)}
    (hread : ∀ member ∈ members, ReadsBack member.2) : ReadsBack (object members) := by
  refine .of_succ (by simp [compactChars]) fun fuel depth rest hfuel hdepth hrest => ?_
  obtain ⟨depth, rfl⟩ : ∃ k, depth = k + 1 := Nat.exists_eq_add_one.2 (Nat.zero_lt_of_lt hdepth)
  cases members with
  | nil => simp [compactChars, compactMembers, value?, skipSpace, isSpace]
  | cons member members =>
    obtain ⟨s, hcons⟩ := exists_cons_compactMembers member members
    have hmembers := memberList?_compactMembers fuel rest hread (by simp)
      (by simp [compactChars] at hfuel; omega) (Nat.le_of_succ_le_succ hdepth)
    rw [hcons, List.cons_append] at hmembers
    simp [compactChars, hcons, value?, skipSpace_cons (c := '\x7b') rfl,
      skipSpace_cons (c := '"') rfl, hmembers]

/-- A value whose numbers are integers of 64 bits is read back wherever it stands. -/
theorem Integral.readsBack {j : Json} (h : j.Integral) : ReadsBack j := by
  induction h with
  | null =>
    refine .of_succ (by simp [compactChars]) fun fuel depth rest _ _ _ => ?_
    simp [compactChars, value?, skipSpace, isSpace, literal?]
  | bool b =>
    refine .of_succ (by cases b <;> simp [compactChars]) fun fuel depth rest _ _ _ => ?_
    cases b <;> simp [compactChars, value?, skipSpace, isSpace, literal?]
  | @int n h =>
    obtain ⟨c, s, hcons, hhead⟩ := exists_cons_intText n
    refine .of_succ (by simp [compactChars, hcons]) fun fuel depth rest _ _ hrest => ?_
    rw [compactChars, ← number?_intText hrest h, hcons, List.cons_append, value?_eq_number? hhead]
  | text s =>
    refine .of_succ (by simp [compactChars, quotedText]) fun fuel depth rest _ _ _ => ?_
    have hback := quotedText?_quotedText s rest
    simp only [quotedText, List.cons_append] at hback
    simp only [compactChars, quotedText, List.cons_append, value?, skipSpace_cons (c := '"') rfl,
      hback, Option.map_some]
  | array h ih => exact readsBack_array h ih
  | object _ ih => exact readsBack_object ih

/-- A document whose numbers are integers of 64 bits is read back as it was written. -/
theorem read?_compact {j : Json} (h : j.Integral) (hdepth : j.depth ≤ depthLimit) :
    read? j.compact.toList = some j := by
  have hvalue := h.readsBack (2 * (compactChars j).length + 2) depthLimit []
    (by omega) hdepth (by simp [Closes])
  rw [List.append_nil] at hvalue
  rw [compact, read?, String.toList_ofList, hvalue]
  rfl

end Json

end RubySupervisor
