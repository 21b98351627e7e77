import RubySupervisor.Proofs.Files.Replacing

/-!
# What a directory holds

A directory is listed as the names of what stands right below the place to which its path leads. A
tree is known by its entries, in whatever order they are listed, as long as one thing stands at each
place. A path seen from a directory leads through that directory.
-/

namespace RubySupervisor.FileTree

variable {t t' : FileTree} {p root : Path} {name : String} {entry : Entry} {at_ goal : Location}

/-! ## Trees and their entries -/

/-- One thing at most stands at a place. -/
def Unambiguous (t : FileTree) : Prop :=
  ∀ at_ entry other, (at_, entry) ∈ t.entries → (at_, other) ∈ t.entries → entry = other

theorem Unambiguous.entry?_eq_some_iff (h : t.Unambiguous) (hat : at_ ≠ []) :
    t.entry? at_ = some entry ↔ (at_, entry) ∈ t.entries := by
  unfold entry?
  rw [if_neg hat]
  constructor
  · intro hfound
    obtain ⟨⟨place, found⟩, hfind, rfl⟩ := Option.map_eq_some_iff.1 hfound
    have hplace := List.find?_some hfind
    obtain rfl : place = at_ := of_decide_eq_true hplace
    exact List.mem_of_find?_eq_some hfind
  · intro hmem
    cases hfind : t.entries.find? (fun entry => entry.1 = at_) with
    | none => exact absurd (decide_eq_true rfl) (List.find?_eq_none.1 hfind _ hmem)
    | some found =>
      obtain ⟨place, found⟩ := found
      have hplace := List.find?_some hfind
      obtain rfl : place = at_ := of_decide_eq_true hplace
      exact congrArg some (h place found entry (List.mem_of_find?_eq_some hfind) hmem)

/-- The names right below a place are the last ones of the places there. -/
theorem mem_children_iff :
    (name, entry) ∈ t.children at_ ↔ (at_ ++ [name], entry) ∈ t.entries := by
  unfold children
  rw [List.mem_filterMap]
  constructor
  · rintro ⟨⟨place, found⟩, hmem, hchild⟩
    rcases List.eq_nil_or_concat' place with rfl | ⟨front, last, rfl⟩
    · cases hchild
    · simp only [List.getLast?_concat, List.dropLast_concat] at hchild
      split at hchild <;> cases hchild
      next hfront => exact hfront ▸ hmem
  · intro hmem
    exact ⟨_, hmem, by simp⟩

theorem Unambiguous.mem_children_iff_entry? (h : t.Unambiguous) :
    (name, entry) ∈ t.children at_ ↔ t.entry? (at_ ++ [name]) = some entry := by
  rw [mem_children_iff, h.entry?_eq_some_iff (by simp)]

theorem Unambiguous.set (h : t.Unambiguous) (place : Location) (entry : Entry) :
    Unambiguous (t.set place entry) := by
  intro at_ first second hfirst hsecond
  have hold {x : Entry} (hx : (at_, x) ∈ (t.set place entry).entries) :
      (at_, x) = (place, entry) ∨ at_ ≠ place ∧ (at_, x) ∈ t.entries := by
    rcases List.mem_cons.1 hx with heq | hx
    · exact .inl heq
    · obtain ⟨hmem, hne⟩ := List.mem_filter.1 hx
      exact .inr ⟨of_decide_eq_true hne, hmem⟩
  rcases hold hfirst with heq | ⟨hne, hfirst⟩
  · rcases hold hsecond with heq' | ⟨hne, -⟩
    · exact (congrArg Prod.snd heq).trans (congrArg Prod.snd heq').symm
    · exact absurd (congrArg Prod.fst heq) hne
  · rcases hold hsecond with heq' | ⟨-, hsecond⟩
    · exact absurd (congrArg Prod.fst heq') hne
    · exact h at_ first second hfirst hsecond

/-- A tree as there is one on a disk: everything stands in a directory, and one thing at a place. -/
structure Orderly (t : FileTree) : Prop where
  grounded : t.Grounded
  unambiguous : t.Unambiguous

theorem entry?_empty (at_ : Location) :
    empty.entry? at_ = if at_ = [] then some .directory else none := rfl

theorem orderly_empty : empty.Orderly := ⟨grounded_empty, nofun⟩

theorem Orderly.set (h : t.Orderly) (goal : Location) (name : String) (entry : Entry)
    (hgoal : t.entry? goal = some .directory)
    (hplace : t.entry? (goal ++ [name]) ≠ some .directory) :
    Orderly (t.set (goal ++ [name]) entry) :=
  ⟨h.grounded.set goal name entry hgoal hplace, h.unambiguous.set _ entry⟩

/-- Two trees hold the same and are seen from the same directory. -/
structure Alike (t t' : FileTree) : Prop where
  origin : t'.origin = t.origin
  mem_iff : ∀ x, x ∈ t'.entries ↔ x ∈ t.entries

theorem Alike.symm (h : t.Alike t') : t'.Alike t := ⟨h.origin.symm, fun x => (h.mem_iff x).symm⟩

theorem Alike.unambiguous (h : t.Alike t') (ht : t.Unambiguous) : t'.Unambiguous :=
  fun at_ entry other hentry hother =>
    ht at_ entry other ((h.mem_iff _).1 hentry) ((h.mem_iff _).1 hother)

theorem Alike.entry?_eq (h : t.Alike t') (ht : t.Unambiguous) (at_ : Location) :
    t'.entry? at_ = t.entry? at_ := by
  by_cases hroot : at_ = []
  · rw [hroot, entry?_nil, entry?_nil]
  · refine Option.ext fun entry => ?_
    rw [(h.unambiguous ht).entry?_eq_some_iff hroot, ht.entry?_eq_some_iff hroot, h.mem_iff]

theorem Alike.orderly (h : t.Alike t') (ht : t.Orderly) : t'.Orderly where
  grounded :=
    { origin := by rw [h.entry?_eq ht.unambiguous, h.origin, ht.grounded.origin]
      parent := fun at_ name entry hentry => by
        rw [h.entry?_eq ht.unambiguous] at hentry ⊢
        exact ht.grounded.parent at_ name entry hentry }
  unambiguous := h.unambiguous ht.unambiguous

theorem Alike.seat_iff (h : t.Alike t') (ht : t.Unambiguous) : t'.Seat p goal ↔ t.Seat p goal := by
  have hforth : t.Keeps t' := ⟨fun at_ hat => h.entry?_eq ht at_ ▸ hat,
    fun at_ target hat => h.entry?_eq ht at_ ▸ hat⟩
  have hback : t'.Keeps t := ⟨fun at_ hat => h.entry?_eq ht at_ ▸ hat,
    fun at_ target hat => h.entry?_eq ht at_ ▸ hat⟩
  exact ⟨fun hseat => hseat.mono hback h.origin.symm, fun hseat => hseat.mono hforth h.origin⟩

/-! ## Directories -/

/-- Whoever goes a way and follows the link at its end arrives at a directory. -/
theorem Leads.arrives {links left : Nat} {place : Location} {way : List String}
    (h : t.Leads links place way goal left) (ht : t.Grounded)
    (hplace : t.entry? place = some .directory) (asking : Asking) :
    ∃ asked, t.walk true links asking place way = .ok (.found goal .directory, asked) := by
  induction h generalizing asking with
  | here => exact ⟨asking, by rw [walk_nil, hplace]; rfl⟩
  | @up links left place goal rest _ ih =>
    have hback : t.Leads links place [".."] place.dropLast links := .up .here
    rw [walk_up]
    exact ih (hback.directory ht hplace) asking
  | down hname hsize hentry _ ih =>
    rw [walk_name hname, if_neg (Nat.not_lt.2 hsize), hentry]
    exact ih hentry asking
  | @along links left place goal name target rest hname hsize hentry _ ih =>
    have hstart : t.entry? (linkStart place target) = some .directory := by
      unfold linkStart
      split
      · exact entry?_nil t
      · exact hplace
    rw [walk_name hname, if_neg (Nat.not_lt.2 hsize), hentry]
    simp only [Bool.not_true, Bool.and_false, Bool.false_and, Bool.false_eq_true, if_false]
    exact ih hstart _

theorem resolve_eq_directory_iff (ht : t.Grounded) :
    t.resolve true p = .ok (.found goal .directory) ↔ p.Admissible ∧ t.Seat p goal := by
  rw [resolve_eq_ok_iff]
  constructor
  · rintro ⟨asked, hfollow⟩
    exact ⟨admissible_of_follow hfollow, exists_leads_of_walk_directory (walk_of_follow hfollow)⟩
  · rintro ⟨hp, left, hleads⟩
    rw [follow_eq hp]
    exact hleads.arrives ht (ht.start p) _

theorem isDirectory_iff (ht : t.Grounded) :
    t.isDirectory p = true ↔ p.Admissible ∧ ∃ goal, t.Seat p goal := by
  rw [isDirectory_iff_resolve, ← exists_and_left]
  exact exists_congr fun goal => resolve_eq_directory_iff ht

theorem readDirectory_eq_ok_iff (ht : t.Grounded) {listed : List (String × Entry)} :
    t.readDirectory p = .ok listed ↔
      p.Admissible ∧ ∃ goal, t.Seat p goal ∧ t.children goal = listed := by
  have hresolve : t.readDirectory p = .ok listed ↔
      ∃ goal, t.resolve true p = .ok (.found goal .directory) ∧ t.children goal = listed := by
    unfold readDirectory
    cases t.resolve true p with
    | error e => simp [bind, Except.bind]
    | ok r =>
      cases r with
      | absent at_ => simp [bind, Except.bind, throw, throwThe, MonadExceptOf.throw]
      | found at_ entry =>
        cases entry <;>
          simp [bind, Except.bind, pure, Except.pure, throw, throwThe, MonadExceptOf.throw]
  rw [hresolve, ← exists_and_left]
  refine exists_congr fun goal => ?_
  rw [resolve_eq_directory_iff ht, and_assoc]

/-- What cannot be listed is no directory. -/
theorem isDirectory_eq_false_of_readDirectory (ht : t.Grounded) {error : FileError}
    (h : t.readDirectory p = .error error) : t.isDirectory p = false := by
  refine Bool.eq_false_iff.2 fun hdirectory => ?_
  obtain ⟨hp, goal, hseat⟩ := (isDirectory_iff ht).1 hdirectory
  cases h.symm.trans ((readDirectory_eq_ok_iff ht).2 ⟨hp, goal, hseat, rfl⟩)

/-- A directory of a name stands in a directory, and not only a link to one. -/
def HasSubdirectory (t : FileTree) (root : Path) (name : String) : Prop :=
  root.Admissible ∧ ∃ goal, t.Seat root goal ∧ t.entry? (goal ++ [name]) = some .directory

/-- The directories in the listing of a directory. -/
theorem hasSubdirectory_iff_of_readDirectory (ht : t.Orderly) {listed : List (String × Entry)}
    (h : t.readDirectory root = .ok listed) :
    t.HasSubdirectory root name ↔ (name, .directory) ∈ listed := by
  obtain ⟨hroot, goal, hseat, rfl⟩ := (readDirectory_eq_ok_iff ht.grounded).1 h
  rw [ht.unambiguous.mem_children_iff_entry?]
  constructor
  · rintro ⟨-, goal', hseat', hentry⟩
    exact hseat'.unique hseat ▸ hentry
  · exact fun hentry => ⟨hroot, goal, hseat, hentry⟩

theorem not_hasSubdirectory_of_readDirectory (ht : t.Grounded) {error : FileError}
    (h : t.readDirectory root = .error error) : ¬ t.HasSubdirectory root name := by
  rintro ⟨hroot, goal, hseat, -⟩
  cases h.symm.trans ((readDirectory_eq_ok_iff ht).2 ⟨hroot, goal, hseat, rfl⟩)

theorem Alike.isDirectory_eq (h : t.Alike t') (ht : t.Orderly) (p : Path) :
    t'.isDirectory p = t.isDirectory p := by
  refine Bool.eq_iff_iff.2 ?_
  rw [isDirectory_iff (h.orderly ht).grounded, isDirectory_iff ht.grounded]
  exact and_congr_right fun _ => exists_congr fun goal => h.seat_iff ht.unambiguous

theorem Alike.hasSubdirectory_iff (h : t.Alike t') (hone : t.Unambiguous) :
    t'.HasSubdirectory root name ↔ t.HasSubdirectory root name :=
  and_congr_right fun _ => exists_congr fun goal =>
    and_congr (h.seat_iff hone) (by rw [h.entry?_eq hone])

/-! ## Paths through a directory -/

/-- A path seen from a directory begins with the text of that directory. -/
theorem admissible_of_join (hroot : root.text ≠ "") (hname : (Path.mk name).isAbsolute = false)
    (h : (root.join name).Admissible) : root.Admissible := by
  obtain ⟨rest, htext⟩ : ∃ rest, (root.join name).text = root.text ++ rest := by
    unfold Path.join
    rw [hname, if_neg Bool.false_ne_true]
    split
    · exact ⟨name, rfl⟩
    · exact ⟨"/" ++ name, String.append_assoc⟩
  have hnul := h.no_nul
  have hsize := h.size
  rw [htext, String.toList_append] at hnul
  rw [htext, String.utf8ByteSize_append] at hsize
  exact
    { no_nul := by
        rw [List.contains_eq_mem, decide_eq_false_iff_not] at hnul ⊢
        exact fun hmem => hnul (List.mem_append_left _ hmem)
      ne_empty := hroot
      size := Nat.le_trans (Nat.le_add_right _ _) hsize }

/-- The steps of a path seen from a directory are taken from the place of that directory. -/
theorem exists_leads_of_isDirectory_join (ht : t.Grounded) (hroot : root.text ≠ "")
    (hname : (Path.mk name).isAbsolute = false) (h : t.isDirectory (root.join name) = true) :
    root.Admissible ∧ ∃ place goal remaining left, t.Seat root place ∧
      t.Leads remaining place (steps name) goal left := by
  obtain ⟨hjoin, goal, left, hleads⟩ := (isDirectory_iff ht).1 h
  obtain ⟨hsame, hsplit⟩ := root.steps_join hname
  have hstart : t.start (root.join name) = t.start root := by rw [start, start, hsame]
  rw [hsplit, hstart] at hleads
  obtain ⟨place, remaining, hway, hrest⟩ := hleads.split
  exact ⟨admissible_of_join hroot hname hjoin, place, goal, remaining, left, ⟨_, hway⟩, hrest⟩

/-- What a path into a directory leads to is there only if the directory is. -/
theorem isDirectory_of_isDirectory_join (ht : t.Grounded) (hroot : root.text ≠ "")
    (hname : (Path.mk name).isAbsolute = false) (h : t.isDirectory (root.join name) = true) :
    t.isDirectory root = true := by
  obtain ⟨hadmissible, place, _, _, _, hseat, -⟩ :=
    exists_leads_of_isDirectory_join ht hroot hname h
  exact (isDirectory_iff ht).2 ⟨hadmissible, place, hseat⟩

end RubySupervisor.FileTree
