import RubySupervisor.Proofs.Json.Writing
import RubySupervisor.Proofs.Text.Cutting
import RubySupervisor.Ruby.Activation

/-!
# Activation documents behind other output

An activation document is an object whose members are texts or nothing, in any spelling. It begins
with a mark, and behind its first character it does not hold the mark again: between quotes a quote
stands behind a backslash, and a quote that closes a text is not followed by the first key. So the
mark stands last where the last document begins, whatever was printed before it.
-/

/-! ## Objects of texts -/

namespace RubySupervisor.Json

/-- The spellings of a value that is a text or nothing. -/
inductive SpellsValue : Json → List Char → Prop where
  | null : SpellsValue null ['n', 'u', 'l', 'l']
  | text {s : String} {body : List Char} (h : Spelled s.toList body) :
      SpellsValue (text s) ('"' :: (body ++ ['"']))

/-- The spellings of members without blanks between them, up to the closing brace. -/
inductive SpellsMembers : List (String × Json) → List Char → Prop where
  | last {name : String} {j : Json} {value : List Char} (h : SpellsValue j value) :
      SpellsMembers [(name, j)] (quotedText name ++ ':' :: (value ++ ['\x7d']))
  | more {name : String} {j : Json} {value others : List Char} {members : List (String × Json)}
      (h : SpellsValue j value) (hothers : SpellsMembers members others) :
      SpellsMembers ((name, j) :: members) (quotedText name ++ ':' :: (value ++ ',' :: others))

variable {j : Json} {value written : List Char} {names : List String}
  {members : List (String × Json)}

/-- A text or nothing is read back from each of its spellings. -/
theorem SpellsValue.value? (h : SpellsValue j value) (fuel depth : Nat) (rest : List Char) :
    value? (fuel + 1) depth (value ++ rest) = some (j, rest) := by
  cases h with
  | null => simp [Json.value?, skipSpace, isSpace, Text.literal?]
  | text h =>
    have hback := h.quotedText? rest
    simp only [List.cons_append, List.append_assoc, List.nil_append, Json.value?,
      skipSpace_cons (c := '"') rfl, hback, Option.map_some]

/-- The name and the value of a member that is asked for are read back. -/
theorem SpellsValue.read_member (h : SpellsValue j value) (name : String) (rest : List Char) :
    Json.quotedText? (skipSpace (quotedText name ++ ':' :: (value ++ rest))) =
        some (name, ':' :: (value ++ rest)) ∧
      memberValue? true (value ++ rest) = some (some j, rest) := by
  refine ⟨quotedText?_skipSpace _ _, ?_⟩
  rw [memberValue?, if_pos rfl, h.value?]
  rfl

/-- Members that are all asked for are read back from each of their spellings. -/
theorem SpellsMembers.askedMembers? (h : SpellsMembers members written)
    (hnames : ∀ member ∈ members, names.contains member.1 = true) {fuel : Nat}
    (hfuel : members.length ≤ fuel) (rest : List Char) :
    askedMembers? names fuel (written ++ rest) = some (members, rest) := by
  induction h generalizing fuel with
  | @last name j value hvalue =>
    obtain ⟨fuel, rfl⟩ : ∃ k, fuel = k + 1 := ⟨fuel - 1, by simp at hfuel; omega⟩
    obtain ⟨hname, hj⟩ := hvalue.read_member name ('\x7d' :: rest)
    simp only [List.append_assoc, List.cons_append, List.nil_append, Json.askedMembers?, hname,
      Option.bind_eq_bind, Option.bind_some, skipSpace_cons (c := ':') rfl, Text.literal?, if_true,
      hnames (name, j) (.head _), hj, skipSpace_cons (c := '\x7d') rfl]
    rfl
  | @more name j value others members hvalue _ ih =>
    obtain ⟨fuel, rfl⟩ : ∃ k, fuel = k + 1 := ⟨fuel - 1, by simp at hfuel; omega⟩
    obtain ⟨hname, hj⟩ := hvalue.read_member name (',' :: (others ++ rest))
    have hothers := ih (fun member hmember => hnames member (.tail _ hmember))
      (Nat.le_of_succ_le_succ hfuel)
    simp only [List.append_assoc, List.cons_append, Json.askedMembers?, hname,
      Option.bind_eq_bind, Option.bind_some, skipSpace_cons (c := ':') rfl, Text.literal?, if_true,
      hnames (name, j) (.head _), hj, skipSpace_cons (c := ',') rfl, hothers]
    rfl

/-- Members begin with the quoted name of the first one. -/
theorem SpellsMembers.exists_append {member : String × Json}
    (h : SpellsMembers (member :: members) written) :
    ∃ more, written = quotedText member.1 ++ ':' :: more := by
  cases h with
  | last => exact ⟨_, rfl⟩
  | more => exact ⟨_, rfl⟩

/-- Members end with the closing brace. -/
theorem SpellsMembers.getLast? (h : SpellsMembers members written) :
    written.getLast? = some '\x7d' := by
  induction h with
  | last => simp [List.getLast?_cons]
  | more _ _ ih => simp [List.getLast?_cons, ih]

theorem SpellsMembers.length_le (h : SpellsMembers members written) :
    members.length ≤ written.length := by
  induction h with
  | last =>
    rw [List.length_append]
    exact Nat.le_add_left _ _
  | more _ _ ih =>
    simp only [List.length_append, List.length_cons]
    omega

/-- A record is read back from each spelling of its members, if all are asked for. -/
theorem SpellsMembers.read? (h : SpellsMembers members written) (hne : members ≠ [])
    (hnames : ∀ member ∈ members, names.contains member.1 = true)
    (hdistinct : Record.distinct (members.map Prod.fst) = true) :
    Record.read? names ('\x7b' :: written) = some ⟨false, members⟩ := by
  obtain ⟨member, members, rfl⟩ := List.exists_cons_of_ne_nil hne
  have hfuel := h.length_le
  have hread := h.askedMembers? hnames (Nat.le_succ_of_le hfuel) []
  obtain ⟨more, rfl⟩ := h.exists_append
  rw [List.append_nil] at hread
  simp only [quotedText, List.cons_append] at hread
  simp only [Record.read?, skipSpace_cons (c := '\x7b') rfl, quotedText, List.cons_append,
    skipSpace_cons (c := '"') rfl]
  split
  · next hclosed => exact absurd (List.cons.inj hclosed).1 (by decide)
  · simp only [hread, Option.bind_eq_bind, Option.bind_some, hdistinct]
    rfl

theorem WritesUnit.brace_not_mem {digits : List Char} {n : Nat} (h : WritesUnit digits n) :
    '\x7b' ∉ digits := by
  obtain ⟨a, b, c, d, hdigits, -⟩ := h
  intro hmem
  have hvalue : Text.hexValue? '\x7b' ∈ digits.map Text.hexValue? := List.mem_map_of_mem hmem
  rw [hdigits] at hvalue
  simp [Text.hexValue?] at hvalue

/-- A character is spelled as itself, and then it is no quote, or else behind a backslash and
without a brace. -/
theorem Spells.itself_or_escaped {c : Char} {form : List Char} (h : Spells c form) :
    (form = [c] ∧ c ≠ '"') ∨ ∃ s, form = '\\' :: s ∧ '\x7b' ∉ s := by
  cases h with
  | itself _ hquote => exact .inl ⟨rfl, hquote⟩
  | @escape letter c h =>
    refine .inr ⟨_, rfl, ?_⟩
    have hall : ∀ entry ∈ escapes, entry.1 ≠ '\x7b' := by decide
    exact fun hmem => hall _ h (List.mem_singleton.1 hmem).symm
  | unit h => exact .inr ⟨_, rfl, by simpa using h.brace_not_mem⟩
  | surrogates _ hhigh hlow =>
    exact .inr ⟨_, rfl, by simp [hhigh.brace_not_mem, hlow.brace_not_mem]⟩

end RubySupervisor.Json

/-! ## Documents without a second mark -/

namespace RubySupervisor.Activation

open Json (Spells Spelled SpellsValue SpellsMembers WritesUnit quotedText)

variable {c : Char} {s t form body value written : List Char} {j : Json}
  {pairs : List (String × Json)}

/-- A text in which the mark does not stand. -/
def Markless (s : List Char) : Prop := ¬ mark <:+: s

theorem markless_nil : Markless [] := fun hinfix =>
  absurd (List.infix_nil.1 hinfix) (by decide)

theorem markless_cons (hc : c ≠ '\x7b') (h : Markless s) : Markless (c :: s) := by
  intro hinfix
  rcases List.infix_cons_iff.1 hinfix with hprefix | hinfix
  · exact hc (List.cons_prefix_cons.1 hprefix).1.symm
  · exact h hinfix

theorem markless_append (hs : '\x7b' ∉ s) (h : Markless t) : Markless (s ++ t) := by
  induction s with
  | nil => exact h
  | cons c s ih =>
    exact markless_cons (fun hc => hs (hc ▸ .head _)) (ih fun hmem => hs (.tail c hmem))

/-- The mark does not begin with a brace that has another character than a quote behind it. -/
theorem markless_brace (hs : s.head? ≠ some '"') (h : Markless s) : Markless ('\x7b' :: s) := by
  intro hinfix
  rcases List.infix_cons_iff.1 hinfix with ⟨more, hprefix⟩ | hinfix
  · exact hs (by rw [← (List.cons.inj hprefix).2]; rfl)
  · exact h hinfix

/-- Nor with one before a quote that the first key does not follow. -/
theorem markless_brace_quote (hs : s.head? ≠ some 'd') (h : Markless s) :
    Markless ('\x7b' :: '"' :: s) := by
  intro hinfix
  rcases List.infix_cons_iff.1 hinfix with ⟨more, hprefix⟩ | hinfix
  · exact hs (by rw [← (List.cons.inj (List.cons.inj hprefix).2).2]; rfl)
  · exact markless_cons (by decide) h hinfix

/-- The spelling of a character does not bring the mark in front of a text that does not bring it
behind a brace. -/
theorem markless_of_spells (h : Spells c form) (ht : Markless ('\x7b' :: t)) :
    Markless ('\x7b' :: (form ++ t)) := by
  have hbare : Markless t := fun hinfix => ht (List.infix_cons hinfix)
  rcases h.itself_or_escaped with ⟨rfl, hquote⟩ | ⟨s, rfl, hs⟩
  · refine markless_brace (by simpa using hquote) ?_
    by_cases hbrace : c = '\x7b'
    · subst hbrace
      exact ht
    · exact markless_cons hbrace hbare
  · exact markless_brace (by simp) (markless_cons (by decide) (markless_append hs hbare))

theorem markless_of_spelled (h : Spelled s body) (ht : Markless ('\x7b' :: t)) :
    Markless ('\x7b' :: (body ++ t)) := by
  induction h with
  | nil => exact ht
  | cons hc _ ih =>
    rw [List.append_assoc]
    exact markless_of_spells hc ih

/-- The mark is not in a value that is a text or nothing and followed by what separates it from the
next one. -/
theorem markless_of_spellsValue (h : SpellsValue j value) (hc : c ≠ '\x7b' ∧ c ≠ 'd')
    (ht : Markless t) : Markless (value ++ c :: t) := by
  have hrest := markless_cons hc.1 ht
  cases h with
  | null => exact markless_append (by decide) hrest
  | @text s body h =>
    have hclose : Markless ('\x7b' :: '"' :: c :: t) :=
      markless_brace_quote (by simpa using hc.2) hrest
    have hbody := markless_of_spelled h hclose
    rw [List.cons_append, List.append_assoc]
    exact markless_cons (by decide) fun hinfix => hbody (List.infix_cons hinfix)

/-- Nor is it in members that have no brace in their names. -/
theorem markless_of_spellsMembers (h : SpellsMembers pairs written)
    (hnames : ∀ pair ∈ pairs, '\x7b' ∉ quotedText pair.1) (ht : Markless t) :
    Markless (written ++ t) := by
  have hcolon : ':' ≠ '\x7b' := by decide
  induction h with
  | @last name j value hvalue =>
    simp only [List.append_assoc, List.cons_append, List.nil_append]
    have hrest := markless_of_spellsValue hvalue (c := '\x7d') (by decide) ht
    exact markless_append (hnames (name, j) (.head _)) (markless_cons hcolon hrest)
  | @more name j value others pairs hvalue _ ih =>
    simp only [List.append_assoc, List.cons_append]
    have hothers := ih fun pair hpair => hnames pair (.tail _ hpair)
    have hrest := markless_of_spellsValue hvalue (c := ',') (by decide) hothers
    exact markless_append (hnames (name, j) (.head _)) (markless_cons hcolon hrest)

/-! ## Documents that are found and read -/

/-- The members of the document of an activation. -/
def members (a : Activation) : List (String × Json) :=
  [("defaultGems", .text a.defaultGems.text), ("gems", .text a.gems.text),
    ("version", .text a.version), ("yjit", a.yjit.elim .null .text)]

/-- A document that describes an activation: an object with its members in order, without blanks
between them, and with its texts in any spelling. -/
def Describes (document : String) (a : Activation) : Prop :=
  ∃ written, document.toList = '\x7b' :: written ∧ SpellsMembers a.members written

variable {document blanks : String} {a : Activation}

/-- The compact document of an activation describes it. -/
theorem describes_compact (a : Activation) : Describes (Json.object a.members).compact a := by
  have htext (s : String) : SpellsValue (.text s) (Json.compactChars (.text s)) :=
    .text (Json.spelled_writtenText s.toList)
  have hyjit : SpellsValue (a.yjit.elim .null .text)
      (Json.compactChars (a.yjit.elim .null .text)) := by
    cases a.yjit with
    | none => exact .null
    | some s => exact htext s
  refine ⟨_, ?_, .more (htext _) (.more (htext _) (.more (htext _) (.last hyjit)))⟩
  simp [Json.compact, Json.compactChars, Json.compactMembers, members]

/-- A document that describes an activation is parsed as it. -/
theorem Describes.parse? (h : Describes document a) : parse? document.toList = some a := by
  obtain ⟨written, hdocument, hwritten⟩ := h
  have hread : Json.Record.read? ["defaultGems", "gems", "version", "yjit"] ('\x7b' :: written) =
      some ⟨false, a.members⟩ :=
    hwritten.read? (List.cons_ne_nil _ _) (by simp [members])
      (by simp [members, Json.Record.distinct])
  rw [Activation.parse?, hdocument, hread]
  obtain ⟨⟨defaultGems⟩, ⟨gems⟩, version, yjit⟩ := a
  cases yjit <;> rfl

/-- A document is found behind any other output as the last one, with the blanks behind it. -/
theorem Describes.cutLast? (h : Describes document a)
    (hblanks : ∀ c ∈ blanks.toList, Text.isBlank c = true) :
    ∃ more, document.toList ++ blanks.toList = mark ++ more ∧
      ∀ noise, Text.cutLast? mark (noise ++ (mark ++ more)) = some (noise, more) := by
  obtain ⟨written, hdocument, hwritten⟩ := h
  have hmark : mark = '\x7b' :: quotedText "defaultGems" := by decide
  have hbrace : '\x7b' ∉ blanks.toList := fun hmem =>
    absurd (hblanks _ hmem) (by decide)
  have hrest : Markless blanks.toList := by
    rw [← List.append_nil blanks.toList]
    exact markless_append hbrace markless_nil
  have hnames : ∀ pair ∈ a.members, '\x7b' ∉ quotedText pair.1 := by
    simp only [members, List.forall_mem_cons, List.not_mem_nil, false_implies, implies_true]
    decide
  have hfree := markless_of_spellsMembers hwritten hnames hrest
  obtain ⟨more, rfl⟩ := hwritten.exists_append
  refine ⟨':' :: more ++ blanks.toList, by rw [hdocument, hmark]; simp, fun noise => ?_⟩
  rw [List.append_assoc] at hfree
  rw [Markless, hmark] at hfree
  rw [hmark]
  exact Text.cutLast?_append_mark hfree noise

/-- The blanks around a document are trimmed, and nothing else. -/
theorem Describes.trimChars (h : Describes document a)
    (hblanks : ∀ c ∈ blanks.toList, Text.isBlank c = true) :
    Text.trimChars (document.toList ++ blanks.toList) = document.toList := by
  obtain ⟨written, hdocument, hwritten⟩ := h
  rw [hdocument]
  have hlast : ∀ c ∈ ('\x7b' :: written).getLast?, Text.isBlank c = false := by
    rw [List.getLast?_cons, hwritten.getLast?]
    simp [Text.isBlank]
  exact Text.dropWhile_ends (List.forall_mem_nil _) hblanks (by simp [Text.isBlank]) hlast
    (List.cons_ne_nil _ _)

/-- **Theorem (noise).** Whatever is printed before a document that describes an activation, and
whatever blanks stand behind it, the output gives this activation. -/
theorem ofOutput_behind_noise (noise : String) (h : Describes document a)
    (hblanks : ∀ c ∈ blanks.toList, Text.isBlank c = true) :
    ofOutput (noise ++ document ++ blanks) = .ok a := by
  obtain ⟨more, hmark, hcut⟩ := h.cutLast? hblanks
  have houtput : (noise ++ document ++ blanks).toList = noise.toList ++ (mark ++ more) := by
    rw [String.toList_append, String.toList_append, List.append_assoc, hmark]
  rw [ofOutput, houtput, hcut]
  simp only [← hmark, h.trimChars hblanks, h.parse?]

/-- Texts that hold the mark, quotes and braces, behind a document and the start of one more. -/
theorem ofOutput_behind_documents :
    let a : Activation := ⟨⟨"/gems\"\x7d"⟩, ⟨"\x7b\"defaultGems\":"⟩, "3.3.0", none⟩
    let noise := "\x7b\"defaultGems\":\"/a\",\"gems\":\"/b\",\"version\":\"1\",\"yjit\":null\x7d" ++
      "\n\x7b\"defaultGems\":\"/c"
    let document := "\x7b\"defaultGems\":\"/gems\\\"\x7d\"," ++
      "\"gems\":\"\x7b\\\"defaultGems\\\":\",\"version\":\"3.3.0\",\"yjit\":null\x7d"
    Describes document a ∧ ofOutput (noise ++ document ++ " \n") = .ok a := by
  intro a noise document
  have hdocument : (Json.object a.members).compact = document := by decide
  have hdescribes : Describes document a := hdocument ▸ describes_compact a
  exact ⟨hdescribes, ofOutput_behind_noise noise hdescribes (by simp [Text.isBlank])⟩

end RubySupervisor.Activation
