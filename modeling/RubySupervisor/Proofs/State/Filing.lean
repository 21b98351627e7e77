import RubySupervisor.Proofs.Files.Replacing
import RubySupervisor.Proofs.Json.Rereading
import RubySupervisor.State.Store

/-!
# Where a store is kept, and what its file says

The state file of a workspace is named after what is left of the name of the workspace, and so is
the file that is written before it takes the place of the state file. No state file has the name of
a draft. A draft may lead back to the directory above, or have a name that is too long for a file;
it is never written then.

The entries of a store are written as one object and read again as entries. Each value is read by
itself, whatever else the file holds, so a file whose values are legible one by one says exactly
what the store holds.
-/

namespace RubySupervisor

/-! ## Names of state files -/

namespace Store

open FileTree (Within)

/-- The name of the state file of a workspace. -/
def fileName (workspace : String) : String := fileStem workspace ++ ".json"

/-- The name of the file that is written before it takes the place of the state file. -/
def draftName (workspace : String) : String :=
  Path.nameWithExtension (fileName workspace) "json.tmp"

theorem toList_fileStem (workspace : String) : (fileStem workspace).toList =
    workspace.toList.map (fun c => if isFileNameChar c then c else '_') := by
  rw [fileStem, String.toList_ofList]

theorem length_fileStem (workspace : String) : (fileStem workspace).length = workspace.length := by
  rw [← String.length_toList, toList_fileStem, List.length_map, String.length_toList]

theorem toNat_le_of_isFileNameChar {c : Char} (h : isFileNameChar c = true) : c.toNat ≤ 127 := by
  have hletter {low high : Char} (hhigh : high.toNat ≤ 127) (hc : low ≤ c ∧ c ≤ high) :
      c.toNat ≤ 127 := Nat.le_trans hc.2 hhigh
  simp only [isFileNameChar, Text.isAsciiAlphanumeric, Text.isAsciiLetter, Text.isAsciiDigit,
    Bool.or_eq_true, Bool.and_eq_true, decide_eq_true_eq, beq_iff_eq] at h
  rcases h with (((((h | h) | h) | rfl) | rfl) | rfl)
  · exact hletter (by decide) h
  · exact hletter (by decide) h
  · exact hletter (by decide) h
  · decide
  · decide
  · decide

/-- Only characters for file names are left. -/
theorem isFileNameChar_of_mem_fileStem {workspace : String} {c : Char}
    (h : c ∈ (fileStem workspace).toList) : isFileNameChar c = true := by
  rw [toList_fileStem] at h
  obtain ⟨old, -, rfl⟩ := List.mem_map.1 h
  split
  · assumption
  · decide

theorem slash_not_mem_fileStem (workspace : String) : '/' ∉ (fileStem workspace).toList :=
  fun hslash => absurd (isFileNameChar_of_mem_fileStem hslash) (by decide)

theorem toList_fileName (workspace : String) :
    (fileName workspace).toList = (fileStem workspace).toList ++ ['.', 'j', 's', 'o', 'n'] := by
  rw [fileName, String.toList_append]
  rfl

theorem isName_fileName (workspace : String) : Path.IsName (fileName workspace) := by
  have hlength : 5 ≤ (fileName workspace).toList.length := by
    rw [toList_fileName, List.length_append]
    exact Nat.le_add_left _ _
  have hne (s : String) (hs : s.toList.length < 5) : fileName workspace ≠ s := by
    rintro rfl
    omega
  refine ⟨hne _ (by decide), hne _ (by decide), hne _ (by decide), fun hslash => ?_⟩
  rw [toList_fileName] at hslash
  rcases List.mem_append.1 hslash with hstem | hend
  · exact slash_not_mem_fileStem workspace hstem
  · exact absurd hend (by decide)

/-- The stem of the name of a state file. -/
theorem stemOf_fileName (workspace : String) :
    Path.stemOf (fileName workspace) =
      if fileStem workspace = "" then ".json" else fileStem workspace := by
  have hreverse : (((fileName workspace).toList.reverse.dropWhile (· != '.')).drop 1) =
      (fileStem workspace).toList.reverse := by
    rw [toList_fileName]
    simp
  rw [Path.stemOf, if_neg (isName_fileName workspace).ne_up]
  dsimp only
  rw [hreverse]
  by_cases hempty : fileStem workspace = ""
  · rw [if_pos hempty, fileName, hempty]
    rfl
  · have hne : (fileStem workspace).toList.reverse.isEmpty = false := by
      rw [List.isEmpty_eq_false_iff, ne_eq, List.reverse_eq_nil_iff, String.toList_eq_nil_iff]
      exact hempty
    rw [if_neg hempty, hne, if_neg Bool.false_ne_true, List.reverse_reverse, String.ofList_toList]

theorem fileStem_eq_dot_iff {workspace : String} : fileStem workspace = "." ↔ workspace = "." := by
  constructor
  · intro h
    have hchars := congrArg String.toList h
    rw [toList_fileStem] at hchars
    obtain ⟨c, hworkspace, hc⟩ := List.map_eq_singleton_iff.1 hchars
    obtain rfl : c = '.' := by
      split at hc
      · exact hc
      · exact absurd hc (by decide)
    exact String.toList_inj.1 hworkspace
  · rintro rfl
    decide +kernel

/-- The draft is named after the stem of the state file. -/
theorem draftName_eq (workspace : String) : draftName workspace =
    if workspace = "." then ".."
    else (if fileStem workspace = "" then ".json" else fileStem workspace) ++ ".json.tmp" := by
  rw [draftName, Path.nameWithExtension, stemOf_fileName]
  by_cases hempty : fileStem workspace = ""
  · have hne : workspace ≠ "." := by
      rintro rfl
      exact absurd hempty (by decide +kernel)
    rw [if_pos hempty, if_neg (by decide), if_neg hne, String.append_assoc]
    rfl
  · rw [if_neg hempty]
    by_cases hdot : workspace = "."
    · rw [if_pos (fileStem_eq_dot_iff.2 hdot), if_pos hdot]
    · rw [if_neg (mt fileStem_eq_dot_iff.1 hdot), if_neg hdot, String.append_assoc]
      rfl

/-- The draft has a name of its own, or leads back. -/
theorem draftName_cases (workspace : String) :
    draftName workspace = ".." ∨ ∃ stem : String, '/' ∉ stem.toList ∧
      (draftName workspace).toList =
        stem.toList ++ ['.', 'j', 's', 'o', 'n', '.', 't', 'm', 'p'] := by
  rw [draftName_eq]
  split
  · exact .inl rfl
  · refine .inr ⟨_, ?_, String.toList_append⟩
    split
    · decide
    · exact slash_not_mem_fileStem workspace

/-- No state file has the name of a draft. -/
theorem draftName_ne (workspace other : String) : draftName workspace ≠ fileName other := by
  intro heq
  rcases draftName_cases workspace with hup | ⟨stem, -, hstem⟩
  · exact (isName_fileName other).ne_up (heq ▸ hup)
  · have hlast : ((fileStem other).toList ++ ['.', 'j', 's', 'o', 'n']).getLast? =
        (stem.toList ++ ['.', 'j', 's', 'o', 'n', '.', 't', 'm', 'p']).getLast? := by
      rw [← hstem, heq, toList_fileName]
    rw [List.getLast?_append_of_ne_nil _ (by simp),
      List.getLast?_append_of_ne_nil _ (by decide)] at hlast
    exact absurd hlast (by decide)

theorem draftName_ne_fileName (workspace : String) : draftName workspace ≠ fileName workspace :=
  draftName_ne workspace workspace

/-- State files have one name exactly if the names of the workspaces are kept in the same way. -/
theorem fileName_eq_iff {workspace other : String} :
    fileName workspace = fileName other ↔ fileStem workspace = fileStem other := by
  constructor
  · intro h
    have hchars := congrArg String.toList h
    rw [toList_fileName, toList_fileName] at hchars
    exact String.toList_inj.1 (List.append_cancel_right hchars)
  · intro h
    rw [fileName, fileName, h]

theorem isStep_draftName (workspace : String) : Path.isStep (draftName workspace) = true := by
  rcases draftName_cases workspace with hup | ⟨stem, -, hstem⟩
  · rw [hup]
    decide
  · have hlength : 9 ≤ (draftName workspace).toList.length := by
      rw [hstem, List.length_append]
      exact Nat.le_add_left _ _
    refine decide_eq_true ⟨fun heq => ?_, fun heq => ?_⟩ <;> simp [heq] at hlength

theorem slash_not_mem_draftName (workspace : String) : '/' ∉ (draftName workspace).toList := by
  rcases draftName_cases workspace with hup | ⟨stem, hslash, hstem⟩
  · rw [hup]
    decide
  · rw [hstem]
    intro hmem
    rcases List.mem_append.1 hmem with hmem | hmem
    · exact hslash hmem
    · exact absurd hmem (by decide)

/-- A text of characters for file names has as many bytes as characters. -/
theorem utf8ByteSize_eq_length {s : String} (h : ∀ c ∈ s.toList, isFileNameChar c = true) :
    s.utf8ByteSize = s.length := by
  have hchars (chars : List Char) (h : ∀ c ∈ chars, isFileNameChar c = true) :
      (String.ofList chars).utf8ByteSize = chars.length := by
    induction chars with
    | nil => rfl
    | cons c rest ih =>
      have hsmall : c.toNat ≤ 127 := toNat_le_of_isFileNameChar (h c (.head _))
      have hone : c.utf8Size = 1 := Char.utf8Size_eq_one_iff.2 hsmall
      rw [String.ofList_cons, String.utf8ByteSize_append, String.utf8ByteSize_singleton, hone,
        ih fun d hd => h d (.tail _ hd), List.length_cons, Nat.add_comm]
  rw [← String.length_toList, ← hchars s.toList h, String.ofList_toList]

/-- The draft of a workspace has a name that a file may have. -/
def Writable (workspace : String) : Prop :=
  draftName workspace ≠ ".." ∧ (draftName workspace).utf8ByteSize ≤ 255

/-- The workspaces of which nothing can be written are those with a name that leads nowhere or is
too long. -/
theorem writable_iff {workspace : String} :
    Writable workspace ↔ workspace ≠ "." ∧ workspace.length ≤ 246 := by
  by_cases hdot : workspace = "."
  · have hup : draftName workspace = ".." := by rw [draftName_eq, if_pos hdot]
    exact iff_of_false (fun h => h.1 hup) (fun h => h.1 hdot)
  -- the draft adds nine characters to the stem, which has one byte for each character
  · obtain ⟨stem, hname, hchars, hlength⟩ : ∃ stem, draftName workspace = stem ++ ".json.tmp" ∧
        (∀ c ∈ stem.toList, isFileNameChar c = true) ∧
        (stem.length ≤ 246 ↔ workspace.length ≤ 246) := by
      rw [draftName_eq, if_neg hdot]
      refine ⟨_, rfl, ?_⟩
      split
      · next hempty =>
        have hnone : workspace.length = 0 := by
          rw [← length_fileStem, hempty]
          rfl
        have hchars : ".json".toList.all isFileNameChar = true := by decide
        exact ⟨fun c hc => List.all_eq_true.1 hchars c hc, iff_of_true (by decide) (by omega)⟩
      · exact ⟨fun c hc => isFileNameChar_of_mem_fileStem hc, by rw [length_fileStem]⟩
    have hsize : (draftName workspace).utf8ByteSize = stem.length + 9 := by
      rw [hname, String.utf8ByteSize_append, utf8ByteSize_eq_length hchars]
      rfl
    have hup : draftName workspace ≠ ".." := by
      intro heq
      rw [heq] at hsize
      have htwo : "..".utf8ByteSize = 2 := rfl
      omega
    rw [Writable, hsize]
    constructor
    · rintro ⟨-, hshort⟩
      exact ⟨hdot, hlength.1 (by omega)⟩
    · rintro ⟨-, hshort⟩
      have hstem := hlength.2 hshort
      exact ⟨hup, by omega⟩

/-- The state file and its draft are in one directory, that of the store. -/
theorem exists_directory (directory : Path) (workspace : String) :
    ∃ above, (filePath directory workspace).parent? = some above ∧
      above.isAbsolute = directory.isAbsolute ∧
      FileTree.steps above.text = FileTree.steps directory.text ∧
      Within (filePath directory workspace) above (fileName workspace) ∧
      Within (draftPath (filePath directory workspace)) above (draftName workspace) := by
  have hname := isName_fileName workspace
  obtain ⟨front, hends, habsolute, hfront⟩ := Path.ends_join directory hname
  obtain ⟨above, hparent, hsame, hsteps⟩ := hends.parent?_eq
  obtain ⟨hsame', hdraft⟩ := hends.withExtension hname.ne_up (isStep_draftName workspace)
    (slash_not_mem_draftName workspace)
  refine ⟨above, hparent, hsame.trans habsolute, hsteps.trans hfront, ⟨hsame.symm, ?_, ?_⟩,
    ⟨hsame'.trans hsame.symm, ?_, ?_⟩⟩
  · rw [hsteps]
    exact hends.steps_eq
  · exact hends.asking_eq
  · rw [hsteps]
    exact hdraft.steps_eq
  · exact hdraft.asking_eq

end Store

/-! ## What a state file says -/

namespace Dict

variable {α : Type} {d d' : Dict α} {key : String} {value : α}

/-- A dictionary in ascending order, each name once. -/
def Ascends (d : Dict α) : Prop := d.Pairwise (·.1 < ·.1)

theorem mem_insert {entry : String × α} (h : entry ∈ d.insert key value) :
    entry = (key, value) ∨ entry ∈ d := by
  induction d with
  | nil => exact .inl (List.mem_singleton.1 h)
  | cons first d ih =>
    obtain ⟨name, old⟩ := first
    rw [insert] at h
    split at h
    · exact (List.mem_cons.1 h).imp_right (.tail _)
    · split at h
      · exact List.mem_cons.1 h
      · rcases List.mem_cons.1 h with rfl | h
        · exact .inr (.head _)
        · exact (ih h).imp_right (.tail _)

theorem Ascends.insert (h : d.Ascends) : (d.insert key value).Ascends := by
  induction d with
  | nil => exact List.pairwise_singleton _ _
  | cons first d ih =>
    obtain ⟨name, old⟩ := first
    obtain ⟨hfirst, hrest⟩ := List.pairwise_cons.1 h
    rw [Dict.insert]
    split
    · next heq => exact List.pairwise_cons.2 ⟨heq ▸ hfirst, hrest⟩
    · next hne =>
      split
      · next hlt =>
        refine List.pairwise_cons.2 ⟨fun entry hentry => ?_, h⟩
        rcases List.mem_cons.1 hentry with rfl | hentry
        · exact hlt
        · exact String.lt_trans hlt (hfirst entry hentry)
      · next hle =>
        refine List.pairwise_cons.2 ⟨fun entry hentry => ?_, ih hrest⟩
        rcases mem_insert hentry with rfl | hentry
        · exact Decidable.of_not_not fun hge =>
            hne (String.le_antisymm (String.not_lt.1 hle) (String.not_lt.1 hge))
        · exact hfirst entry hentry

theorem Ascends.erase (h : d.Ascends) : (d.erase key).Ascends := h.filter _

theorem ascends_insertAll (h : d.Ascends) (pairs : List (String × α)) :
    (d.insertAll pairs).Ascends := by
  induction pairs generalizing d with
  | nil => exact h
  | cons pair pairs ih => exact ih h.insert

theorem ascends_ofPairs (pairs : List (String × α)) : (ofPairs pairs).Ascends :=
  ascends_insertAll List.Pairwise.nil pairs

theorem insertAll_append (d : Dict α) (pairs later : List (String × α)) :
    d.insertAll (pairs ++ later) = (d.insertAll pairs).insertAll later := by
  rw [insertAll, List.foldl_append]
  rfl

theorem mem_insertAll {entry : String × α} {pairs : List (String × α)}
    (h : entry ∈ d.insertAll pairs) : entry ∈ pairs ∨ entry ∈ d := by
  induction pairs generalizing d with
  | nil => exact .inr h
  | cons pair pairs ih =>
    rcases ih h with hlater | hnow
    · exact .inl (.tail _ hlater)
    · rcases mem_insert hnow with rfl | hold
      · exact .inl (.head _)
      · exact .inr hold

/-- The first name of a dictionary in order is in front of all others, and none of them. -/
theorem Ascends.find?_of_le {first : String × α} (h : Ascends (first :: d)) {key : String}
    (hkey : key ≤ first.1) : d.find? key = none := by
  apply find?_eq_none
  intro hmem
  obtain ⟨entry, hentry, rfl⟩ := List.mem_map.1 hmem
  have hlt := (List.pairwise_cons.1 h).1 entry hentry
  exact absurd hlt (String.not_lt.2 hkey)

/-- Two dictionaries in order are one if every name has the same value in them. -/
theorem Ascends.ext (h : d.Ascends) (h' : d'.Ascends) (hsame : ∀ key, d.find? key = d'.find? key) :
    d = d' := by
  induction d generalizing d' with
  | nil =>
    cases d' with
    | nil => rfl
    | cons first' rest' =>
      have hfirst := hsame first'.1
      rw [find?, find?, if_pos rfl] at hfirst
      cases hfirst
  | cons first rest ih =>
    cases d' with
    | nil =>
      have hfirst := hsame first.1
      rw [find?, find?, if_pos rfl] at hfirst
      cases hfirst
    | cons first' rest' =>
      have hhead (name : String) : (if first.1 = name then some first.2 else find? rest name) =
          if first'.1 = name then some first'.2 else find? rest' name := hsame name
      -- a first name that is smaller than that of the other dictionary is not in the other one
      have hnames : first.1 = first'.1 := by
        apply Decidable.byContradiction
        intro hne
        rcases String.le_total first.1 first'.1 with hle | hle
        · have hfirst := hhead first.1
          rw [if_pos rfl, if_neg (Ne.symm hne), h'.find?_of_le hle] at hfirst
          cases hfirst
        · have hfirst := hhead first'.1
          rw [if_pos rfl, if_neg hne, h.find?_of_le hle] at hfirst
          cases hfirst
      have hvalues : first.2 = first'.2 := by
        have hfirst := hhead first.1
        rw [if_pos rfl, if_pos hnames.symm] at hfirst
        exact Option.some.inj hfirst
      have hrest : rest = rest' := by
        refine ih (List.pairwise_cons.1 h).2 (List.pairwise_cons.1 h').2 fun key => ?_
        by_cases hkey : first.1 = key
        · rw [h.find?_of_le (hkey ▸ String.le_refl _),
            h'.find?_of_le (hkey ▸ hnames ▸ String.le_refl _)]
        · have hother := hhead key
          rwa [if_neg hkey, if_neg (hnames ▸ hkey)] at hother
      rw [hrest, Prod.ext hnames hvalues]

/-- Storing pairs changes nothing exactly if no name of them has another value afterwards. -/
theorem Ascends.insertAll_eq_iff (h : d.Ascends) (pairs : List (String × α)) :
    d = d.insertAll pairs ↔
      ∀ key ∈ names pairs, d.find? key = (d.insertAll pairs).find? key := by
  constructor
  · intro hsame key _
    rw [← hsame]
  · intro hnames
    refine h.ext (ascends_insertAll h pairs) fun key => ?_
    by_cases hkey : key ∈ names pairs
    · exact hnames key hkey
    · have hnone : (ofPairs pairs).find? key = none := by
        apply find?_eq_none
        intro hmem
        obtain ⟨entry, hentry, rfl⟩ := List.mem_map.1 hmem
        rcases mem_insertAll hentry with hpair | hnothing
        · exact hkey (List.mem_map.2 ⟨entry, hpair, rfl⟩)
        · cases hnothing
      rw [find?_insertAll_eq_or, hnone, Option.none_or]

end Dict

namespace Store

open Json (canonical canonicalMembers ReadsAs prettyChars)

theorem ascends_entriesOf (contents : String) : (entriesOf contents).Ascends := by
  unfold entriesOf
  split
  · next members hparse =>
    obtain ⟨j, -, hj⟩ := Option.map_eq_some_iff.1 hparse
    cases j with
    | object members =>
      cases hj
      exact Dict.ascends_ofPairs _
    | _ => cases hj
  · exact List.Pairwise.nil

/-- The values that are found again as they were when a state file holds them. -/
def Legible (value : Json) : Prop :=
  ∀ key, entriesOf (fileText [(key, value)]) = [(key, value)]

/-- The members that a state file is read as, each value by itself. -/
def members? (read : Json → Option Json) (entries : Dict Json) : Option (List (String × Json)) :=
  entries.mapM fun entry => (read entry.2).map (entry.1, ·)

/-- What each value of a state file is read as. -/
theorem exists_entriesOf_fileText : ∃ read : Json → Option Json, ∀ entries,
    entriesOf (fileText entries) =
      ((members? read entries).map fun members =>
        Dict.ofPairs (canonicalMembers members)).getD [] := by
  obtain ⟨read, hread⟩ := Classical.skolem.1 fun value => Json.exists_readsAs value (0 + 1) 126
  refine ⟨read, fun entries => ?_⟩
  have hobject : ReadsAs (126 + 1) (prettyChars 0 (.object entries))
      ((members? read entries).map .object) := Json.readsAs_object fun member _ => hread member.2
  have hvalue := hobject (2 * (prettyChars 0 (.object entries)).length + 2) [] (by omega)
    Json.breaks_nil
  rw [List.append_nil] at hvalue
  have hparse : Json.parse? (fileText entries) =
      (members? read entries).map fun members => canonical (.object members) := by
    rw [Json.parse?, fileText, Json.pretty, String.toList_ofList, Json.read?, Json.depthLimit,
      hvalue]
    unfold members?
    cases entries.mapM fun entry => (read entry.2).map (entry.1, ·) <;> rfl
  rw [entriesOf, hparse]
  cases members? read entries <;> rfl

/-- **Theorem (legible entries are found again).** The text of a state file is read as the entries
that it was written from, if they are in order and their values are legible. -/
theorem entriesOf_fileText {entries : Dict Json} (hascends : entries.Ascends)
    (hlegible : ∀ entry ∈ entries, Legible entry.2) : entriesOf (fileText entries) = entries := by
  obtain ⟨read, hfile⟩ := exists_entriesOf_fileText
  have hread (value : Json) (hvalue : Legible value) :
      ∃ j, read value = some j ∧ canonical j = value := by
    have hone := hvalue ""
    rw [hfile] at hone
    cases hread : read value with
    | none => simp [members?, hread] at hone
    | some j =>
      refine ⟨j, rfl, ?_⟩
      simpa [members?, hread, canonicalMembers, Dict.ofPairs, Dict.insertAll, Dict.empty,
        Dict.insert] using hone
  have hmembers : ∃ members, members? read entries = some members ∧
      canonicalMembers members = entries := by
    clear hascends
    induction entries with
    | nil => exact ⟨[], rfl, rfl⟩
    | cons entry entries ih =>
      obtain ⟨members, hmembers, hcanonical⟩ :=
        ih fun other hother => hlegible other (.tail _ hother)
      obtain ⟨j, hj, hvalue⟩ := hread entry.2 (hlegible entry (.head _))
      unfold members? at hmembers ⊢
      refine ⟨(entry.1, j) :: members, by simp [hj, hmembers], ?_⟩
      rw [canonicalMembers, hcanonical, hvalue]
  obtain ⟨members, hmembers, hcanonical⟩ := hmembers
  rw [hfile, hmembers, Option.map_some, Option.getD_some, hcanonical,
    Dict.ofPairs_of_ascending hascends]

/-- A value that is legible under one name is legible under every name. -/
theorem legible_of_name {key : String} {value : Json}
    (h : entriesOf (fileText [(key, value)]) = [(key, value)]) : Legible value := by
  obtain ⟨read, hfile⟩ := exists_entriesOf_fileText
  intro other
  rw [hfile] at h ⊢
  cases hread : read value with
  | none => simp [members?, hread] at h
  | some j =>
    simp only [members?, hread, List.mapM_cons, List.mapM_nil, Option.map_some, Option.bind_eq_bind,
      Option.bind_some, Option.pure_def, canonicalMembers, Dict.ofPairs, Dict.insertAll,
      List.foldl_cons, List.foldl_nil, Dict.empty, Dict.insert, Option.getD_some] at h ⊢
    rw [(Prod.mk.inj (List.cons.inj h).1).2]

end Store

end RubySupervisor
