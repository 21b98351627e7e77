import RubySupervisor.Proofs.Files.Making

/-!
# Files that replace one another

A file is replaced by writing another one beside it and moving that into its place. What stands
under a name in a directory is known from the place to which the directory leads. Making the
directory and writing beside the file leave the file alone, and moving puts the whole new content in
its place.
-/

namespace RubySupervisor.FileTree

variable {t t' : FileTree} {p q directory : Path} {name : String} {goal : Location} {entry : Entry}

/-! ## What stands under a name -/

/-- A path names something in a directory. -/
structure Within (p directory : Path) (name : String) : Prop where
  isAbsolute : p.isAbsolute = directory.isAbsolute
  steps_eq : steps p.text = steps directory.text ++ [name]
  asking_eq : name ≠ ".." → Asking.of p.text = .nothing

theorem Within.start_eq (h : Within p directory name) (t : FileTree) :
    t.start p = t.start directory := by
  rw [start, start, h.isAbsolute]

/-- A directory leads to a place. -/
def Seat (t : FileTree) (directory : Path) (goal : Location) : Prop :=
  ∃ left, t.Leads linkLimit (t.start directory) (steps directory.text) goal left

theorem Seat.unique {goal' : Location} (h : t.Seat directory goal) (h' : t.Seat directory goal') :
    goal = goal' := by
  obtain ⟨_, h⟩ := h
  obtain ⟨_, h'⟩ := h'
  exact (h.unique h').1

theorem Seat.mono (h : t.Seat directory goal) (hkeeps : t.Keeps t')
    (horigin : t'.origin = t.origin) : t'.Seat directory goal := by
  obtain ⟨left, h⟩ := h
  have hstart : t'.start directory = t.start directory := by rw [start, start, horigin]
  exact ⟨left, hstart ▸ h.mono hkeeps⟩

theorem Seat.entry_eq (h : t.Seat directory goal) (ht : t.Grounded) :
    t.entry? goal = some .directory := by
  obtain ⟨_, h⟩ := h
  exact h.directory ht (ht.start directory)

theorem resolve_eq_ok_iff {last : Bool} {r : Resolved} :
    t.resolve last p = .ok r ↔ ∃ asked, t.follow last p = .ok (r, asked) := by
  unfold resolve
  cases t.follow last p with
  | error e => simp [Except.map]
  | ok x => simp [Except.map, Prod.ext_iff, eq_comm]

theorem isDirectory_iff_resolve :
    t.isDirectory p = true ↔ ∃ at_, t.resolve true p = .ok (.found at_ .directory) := by
  unfold isDirectory metadata
  cases hresolve : t.resolve true p with
  | error e => simp [bind, Except.bind]
  | ok r =>
    cases r with
    | absent at_ => simp [bind, Except.bind, throw, throwThe, MonadExceptOf.throw]
    | found at_ entry => cases entry <;> simp [bind, Except.bind, pure, Except.pure]

/-- A path to a directory leads somewhere. -/
theorem exists_seat_of_isDirectory (h : t.isDirectory p = true) : ∃ goal, t.Seat p goal := by
  obtain ⟨goal, hresolve⟩ := isDirectory_iff_resolve.1 h
  obtain ⟨asked, hfollow⟩ := resolve_eq_ok_iff.1 hresolve
  exact ⟨goal, exists_leads_of_walk_directory (walk_of_follow hfollow)⟩

/-- What stands where a path leads, a link at its end not followed. -/
def standing? (t : FileTree) (p : Path) : Option Entry :=
  match t.resolve false p with
  | .ok (.found _ entry) => some entry
  | _ => none

/-- Something stands where a path leads. -/
def Holds (t : FileTree) (p : Path) (entry : Entry) : Prop := t.standing? p = some entry

theorem holds_iff_resolve :
    t.Holds p entry ↔ ∃ at_, t.resolve false p = .ok (.found at_ entry) := by
  unfold Holds standing?
  split
  · next at_ found hresolve =>
    rw [hresolve]
    simp
  · next hother =>
    refine ⟨nofun, fun ⟨at_, hresolve⟩ => absurd hresolve (hother at_ entry)⟩

/-- One thing stands where a path leads. -/
theorem Holds.unique {other : Entry} (h : t.Holds p entry) (h' : t.Holds p other) :
    entry = other := Option.some.inj (h.symm.trans h')

/-- Whoever follows a path into a directory gets there. -/
theorem Within.exists_seat_of_follow {last : Bool} {r : Resolved × Asking}
    (h : Within p directory name) (hfollow : t.follow last p = .ok r) :
    ∃ goal, t.Seat directory goal := by
  have hwalk := walk_of_follow hfollow
  rw [h.steps_eq, h.start_eq] at hwalk
  obtain ⟨goal, left, hleads⟩ := exists_leads_of_walk (List.cons_ne_nil _ _) hwalk
  exact ⟨goal, left, hleads⟩

theorem Within.size_of_follow {last : Bool} {r : Resolved × Asking} (h : Within p directory name)
    (hname : name ≠ "..") (hfollow : t.follow last p = .ok r) : name.utf8ByteSize ≤ 255 := by
  have hwalk := walk_of_follow hfollow
  rw [h.steps_eq] at hwalk
  obtain ⟨_, _, _, hsize⟩ := exists_leads_of_walk_concat hname hwalk
  exact hsize

/-- A free name is followed to its place. -/
theorem Within.follow_absent (h : Within p directory name) (hname : name ≠ "..")
    (hp : p.Admissible) (hsize : name.utf8ByteSize ≤ 255) (hseat : t.Seat directory goal)
    (hentry : t.entry? (goal ++ [name]) = none) (last : Bool) :
    t.follow last p = .ok (.absent (goal ++ [name]), .nothing) := by
  obtain ⟨left, hleads⟩ := hseat
  rw [follow_eq hp, h.asking_eq hname, h.steps_eq, h.start_eq]
  exact hleads.walk_absent hname hsize hentry

/-- A name is followed to what stands under it. -/
theorem Within.follow_found (h : Within p directory name) (hname : name ≠ "..")
    (hp : p.Admissible) (hsize : name.utf8ByteSize ≤ 255) (hseat : t.Seat directory goal)
    (hentry : t.entry? (goal ++ [name]) = some entry) (last : Bool)
    (hlink : last = true → ∀ target, entry ≠ .link target) :
    t.follow last p = .ok (.found (goal ++ [name]) entry, .nothing) := by
  obtain ⟨left, hleads⟩ := hseat
  rw [follow_eq hp, h.asking_eq hname, h.steps_eq, h.start_eq]
  exact hleads.walk_found hname hsize hentry hlink

/-- What stands under a name is what the directory has there. -/
theorem Within.holds_iff (h : Within p directory name) (hname : name ≠ "..") :
    t.Holds p entry ↔ p.Admissible ∧ name.utf8ByteSize ≤ 255 ∧
      ∃ goal, t.Seat directory goal ∧ t.entry? (goal ++ [name]) = some entry := by
  rw [holds_iff_resolve]
  refine ⟨fun ⟨at_, hresolve⟩ => ?_, fun ⟨hp, hsize, goal, hseat, hentry⟩ => ?_⟩
  · obtain ⟨asked, hfollow⟩ := resolve_eq_ok_iff.1 hresolve
    have hp := admissible_of_follow hfollow
    have hsize := h.size_of_follow hname hfollow
    obtain ⟨goal, hseat⟩ := h.exists_seat_of_follow hfollow
    refine ⟨hp, hsize, goal, hseat, ?_⟩
    cases hentry : t.entry? (goal ++ [name]) with
    | none =>
      rw [h.follow_absent hname hp hsize hseat hentry] at hfollow
      cases hfollow
    | some found =>
      rw [h.follow_found hname hp hsize hseat hentry false nofun] at hfollow
      cases hfollow
      rfl
  · exact ⟨_, resolve_eq_ok_iff.2 ⟨_, h.follow_found hname hp hsize hseat hentry false nofun⟩⟩

/-- A path that leads back at its end leads to a directory. -/
theorem Within.eq_directory_of_up (h : Within p directory "..") (ht : t.Grounded) {last : Bool}
    {r : Resolved} {asked : Asking} (hfollow : t.follow last p = .ok (r, asked)) :
    ∃ at_, r = .found at_ .directory := by
  obtain ⟨goal, left, hleads⟩ := h.exists_seat_of_follow hfollow
  have hwalk := walk_of_follow hfollow
  rw [h.steps_eq, h.start_eq, hleads.walk_append (List.cons_ne_nil _ _), walk_up, walk_nil] at hwalk
  have hback : t.Leads left goal [".."] goal.dropLast left := .up .here
  rw [hback.directory ht (hleads.directory ht (ht.start directory))] at hwalk
  cases hwalk
  exact ⟨_, rfl⟩

theorem Within.holds_up (h : Within p directory "..") (ht : t.Grounded) (hentry : t.Holds p entry) :
    entry = .directory := by
  obtain ⟨at_, hresolve⟩ := holds_iff_resolve.1 hentry
  obtain ⟨asked, hfollow⟩ := resolve_eq_ok_iff.1 hresolve
  obtain ⟨_, hfound⟩ := h.eq_directory_of_up ht hfollow
  cases hfound
  rfl

/-- Where no link stands, a path names what stands there. -/
theorem Within.metadata_eq_ok_iff (h : Within p directory name) (hname : name ≠ "..")
    (hlink : ∀ target, ¬ t.Holds p (.link target)) :
    t.metadata p = .ok entry ↔ t.Holds p entry := by
  have hfound {goal : Location} {found : Entry} (hp : p.Admissible)
      (hsize : name.utf8ByteSize ≤ 255) (hseat : t.Seat directory goal)
      (hentry : t.entry? (goal ++ [name]) = some found) :
      t.metadata p = .ok found := by
    have hfollow := h.follow_found hname hp hsize hseat hentry true fun _ target heq =>
      hlink target ((h.holds_iff hname).2 ⟨hp, hsize, goal, hseat, heq ▸ hentry⟩)
    rw [metadata, resolve_eq_ok_iff.2 ⟨_, hfollow⟩]
    rfl
  constructor
  · intro hmetadata
    cases hresolve : t.resolve true p with
    | error e => simp [metadata, hresolve, bind, Except.bind] at hmetadata
    | ok r =>
      obtain ⟨asked, hfollow⟩ := resolve_eq_ok_iff.1 hresolve
      have hp := admissible_of_follow hfollow
      have hsize := h.size_of_follow hname hfollow
      obtain ⟨goal, hseat⟩ := h.exists_seat_of_follow hfollow
      refine (h.holds_iff hname).2 ⟨hp, hsize, goal, hseat, ?_⟩
      cases hentry : t.entry? (goal ++ [name]) with
      | none =>
        rw [h.follow_absent hname hp hsize hseat hentry] at hfollow
        cases hfollow
        simp [metadata, hresolve, bind, Except.bind] at hmetadata
      | some found =>
        rw [hfound hp hsize hseat hentry] at hmetadata
        rw [Except.ok.inj hmetadata]
  · intro hholds
    obtain ⟨hp, hsize, goal, hseat, hentry⟩ := (h.holds_iff hname).1 hholds
    exact hfound hp hsize hseat hentry

/-- Where no link stands, what is read is the content of what stands there. -/
theorem Within.readBytes_eq_ok_iff (h : Within p directory name) (hname : name ≠ "..")
    (hlink : ∀ target, ¬ t.Holds p (.link target)) {content : ByteArray} :
    t.readBytes p = .ok content ↔
      (∃ executable, t.Holds p (.file content executable)) ∨
        t.Holds p .device ∧ content = .empty := by
  simp only [← h.metadata_eq_ok_iff hname hlink, readBytes]
  cases hmetadata : t.metadata p with
  | error e => simp [bind, Except.bind]
  | ok entry =>
    cases entry with
    | file content' executable => simp [bind, Except.bind, pure, Except.pure]
    | device => simp [bind, Except.bind, pure, Except.pure, eq_comm]
    | directory => simp [bind, Except.bind]
    | link target => simp [bind, Except.bind]

/-! ## The steps of a replacement -/

/-- Making the directory of a file, or some of the directories above it, changes nothing but
directories under the name of the file. -/
theorem Within.holds_iff_of_makeUpwards (h : Within p directory name) (ht : t.Grounded) {n : Nat}
    {above : List Path} (habove : above <:+ Path.ancestorsUpTo n directory)
    (hmade : t.makeUpwards above = .ok t')
    (hreach : ".." ∈ steps directory.text → ∃ goal, t.Seat directory goal)
    (hentry : entry ≠ .directory) : t'.Holds p entry ↔ t.Holds p entry := by
  have hgrown := grown_of_makeUpwards ht hmade
  -- such a name leads up, where only a directory can stand
  by_cases hname : name = ".."
  · subst hname
    exact ⟨fun hholds => absurd (h.holds_up hgrown.grounded hholds) hentry,
      fun hholds => absurd (h.holds_up ht hholds) hentry⟩
  rw [h.holds_iff hname, h.holds_iff hname]
  refine and_congr_right fun _ => and_congr_right fun _ => ?_
  -- either the directory was there before, or it is new, and then nothing is in it
  by_cases hseat : ∃ goal, t.Seat directory goal
  · obtain ⟨goal, hseat⟩ := hseat
    have hseat' := hseat.mono hgrown.keeps hgrown.origin
    constructor
    · rintro ⟨goal', hother, hholds⟩
      obtain rfl := hother.unique hseat'
      refine ⟨goal', hseat, ?_⟩
      rw [← hholds, hgrown.entry_of_ne_directory]
      rw [hholds]
      exact fun heq => hentry (Option.some.inj heq)
    · rintro ⟨goal', hother, hholds⟩
      obtain rfl := hother.unique hseat
      exact ⟨goal', hseat', hgrown.entry_of_some hholds⟩
  · have hup : ".." ∉ steps directory.text := fun hmem => hseat (hreach hmem)
    refine ⟨fun ⟨goal, ⟨left, hleads⟩, hholds⟩ => ?_,
      fun ⟨goal, hother, _⟩ => (hseat ⟨goal, hother⟩).elim⟩
    rw [hgrown.start_eq] at hleads
    have hnowhere (goal : Location) (left : Nat) :
        ¬ t.Leads linkLimit (t.start directory) (steps directory.text) goal left :=
      fun hleads => hseat ⟨goal, left, hleads⟩
    cases (entry?_of_new_directory ht hup habove hmade hnowhere hleads).symm.trans hholds

/-- Writing puts the content under a name where a file or nothing was. -/
theorem Within.exists_of_writeBytes (h : Within p directory name) (ht : t.Grounded)
    (hlink : ∀ target, ¬ t.Holds p (.link target)) (hdevice : ¬ t.Holds p .device)
    {content : ByteArray} (hwritten : t.writeBytes p content = .ok t') :
    name ≠ ".." ∧ p.Admissible ∧ name.utf8ByteSize ≤ 255 ∧ ∃ goal executable,
      t.Seat directory goal ∧ t.Leaf (goal ++ [name]) ∧
        t' = t.set (goal ++ [name]) (.file content executable) := by
  cases hfollow : t.follow true p with
  | error e => simp [writeBytes, hfollow, bind, Except.bind] at hwritten
  | ok r =>
    obtain ⟨resolved, asked⟩ := r
    by_cases hname : name = ".."
    · subst hname
      obtain ⟨at_, rfl⟩ := h.eq_directory_of_up ht hfollow
      simp [writeBytes, hfollow, bind, Except.bind] at hwritten
    have hp := admissible_of_follow hfollow
    have hsize := h.size_of_follow hname hfollow
    obtain ⟨goal, hseat⟩ := h.exists_seat_of_follow hfollow
    refine ⟨hname, hp, hsize, goal, ?_⟩
    cases hentry : t.entry? (goal ++ [name]) with
    | none =>
      rw [h.follow_absent hname hp hsize hseat hentry] at hfollow
      cases hfollow
      rw [writeBytes, h.follow_absent hname hp hsize hseat hentry] at hwritten
      refine ⟨false, hseat, ⟨by rw [hentry]; exact nofun, by rw [hentry]; exact nofun⟩, ?_⟩
      exact (Except.ok.inj hwritten).symm
    | some found =>
      have hholds : t.Holds p found := (h.holds_iff hname).2 ⟨hp, hsize, goal, hseat, hentry⟩
      have hfound := h.follow_found hname hp hsize hseat hentry true fun _ target heq =>
        hlink target (heq ▸ hholds)
      rw [writeBytes, hfound] at hwritten
      cases found with
      | directory => cases hwritten
      | link target => exact absurd hholds (hlink target)
      | device => exact absurd hholds hdevice
      | file old executable =>
        refine ⟨executable, hseat, ⟨by rw [hentry]; exact nofun, by rw [hentry]; exact nofun⟩, ?_⟩
        exact (Except.ok.inj hwritten).symm

/-- A tree that differs from another one at leaves in a directory only has the directory where it
was. -/
theorem seat_iff_of_keeps (hkeeps : t.Keeps t') (horigin : t'.origin = t.origin)
    (hseat : t.Seat directory goal) {at_ : Location} :
    t'.Seat directory at_ ↔ at_ = goal := by
  constructor
  · exact fun h => h.unique (hseat.mono hkeeps horigin)
  · rintro rfl
    exact hseat.mono hkeeps horigin

section Beside

variable {draft : String} {content : ByteArray}

/-- Writing beside a file leaves the file alone. -/
theorem Within.written_beside (h : Within p directory name) (hdraft : Within q directory draft)
    (hname : name ≠ "..") (hne : draft ≠ name) (ht : t.Grounded)
    (hlink : ∀ target, ¬ t.Holds q (.link target)) (hdevice : ¬ t.Holds q .device)
    (hwritten : t.writeBytes q content = .ok t') :
    t'.Grounded ∧ (∃ goal, t'.Seat directory goal) ∧
      (∃ executable, t'.Holds q (.file content executable)) ∧
      ∀ entry, t'.Holds p entry ↔ t.Holds p entry := by
  obtain ⟨hup, hq, hsize, goal, executable, hseat, hleaf, rfl⟩ :=
    hdraft.exists_of_writeBytes ht hlink hdevice hwritten
  have hsame (at_ : Location) (hat : at_ ≠ goal ++ [draft]) :
      entry? (t.set (goal ++ [draft]) (.file content executable)) at_ = t.entry? at_ :=
    entry?_set_of_ne _ hat
  have hkeeps := hleaf.keeps hsame
  have hseat' := hseat.mono hkeeps rfl
  refine ⟨ht.set goal draft _ (hseat.entry_eq ht) hleaf.not_directory, ⟨goal, hseat'⟩,
    ⟨executable, (hdraft.holds_iff hup).2 ⟨hq, hsize, goal, hseat', entry?_set_self _ (by simp)⟩⟩,
    fun entry => ?_⟩
  rw [h.holds_iff hname, h.holds_iff hname]
  refine and_congr_right fun _ => and_congr_right fun _ => exists_congr fun at_ => ?_
  rw [seat_iff_of_keeps hkeeps rfl hseat, seat_iff_of_keeps ⟨fun _ => id, fun _ _ => id⟩ rfl hseat]
  refine and_congr_right ?_
  rintro rfl
  rw [hsame _ (by simpa using Ne.symm hne)]

/-- Moving a file puts its content in the place of another one. -/
theorem Within.exists_of_rename (h : Within p directory name) (hdraft : Within q directory draft)
    (hname : name ≠ "..") (hup : draft ≠ "..") (hne : draft ≠ name) {executable : Bool}
    (hheld : t.Holds q (.file content executable)) (hlink : ∀ target, ¬ t.Holds p (.link target))
    (hmoved : t.rename q p = .ok t') :
    p.Admissible ∧ name.utf8ByteSize ≤ 255 ∧ ∃ goal, t.Seat directory goal ∧
      t.entry? (goal ++ [draft]) = some (.file content executable) ∧ t.Leaf (goal ++ [name]) ∧
      t' = (t.remove (goal ++ [draft])).set (goal ++ [name]) (.file content executable) := by
  obtain ⟨-, hsize, goal, hseat, hentry⟩ := (hdraft.holds_iff hup).1 hheld
  have hq := ((hdraft.holds_iff hup).1 hheld).1
  have hsource : t.resolve false q = .ok (.found (goal ++ [draft]) (.file content executable)) :=
    resolve_eq_ok_iff.2 ⟨_, hdraft.follow_found hup hq hsize hseat hentry false nofun⟩
  have hplaces : goal ++ [draft] ≠ goal ++ [name] := by simpa using hne
  cases hfollow : t.follow false p with
  | error e => simp [rename, hsource, hfollow, bind, Except.bind] at hmoved
  | ok r =>
    have hp := admissible_of_follow hfollow
    have hsize' := h.size_of_follow hname hfollow
    refine ⟨hp, hsize', goal, hseat, hentry, ?_⟩
    cases hthere : t.entry? (goal ++ [name]) with
    | none =>
      rw [rename, hsource, h.follow_absent hname hp hsize' hseat hthere] at hmoved
      refine ⟨⟨by rw [hthere]; exact nofun, by rw [hthere]; exact nofun⟩, ?_⟩
      exact (Except.ok.inj hmoved).symm
    | some found =>
      have hholds : t.Holds p found := (h.holds_iff hname).2 ⟨hp, hsize', goal, hseat, hthere⟩
      have hnolink (target : String) : found ≠ .link target :=
        fun heq => hlink target (heq ▸ hholds)
      rw [rename, hsource, h.follow_found hname hp hsize' hseat hthere false nofun] at hmoved
      have hleaf (hne : found ≠ .directory) : t.Leaf (goal ++ [name]) :=
        ⟨by rw [hthere]; exact fun heq => hne (Option.some.inj heq),
          fun target => by rw [hthere]; exact fun heq => hnolink target (Option.some.inj heq)⟩
      cases found with
      | directory => cases hmoved
      | link target => exact absurd rfl (hnolink target)
      | device | file =>
        simp only [bind, Except.bind, pure, Except.pure, if_neg hplaces] at hmoved
        exact ⟨hleaf nofun, (Except.ok.inj hmoved).symm⟩

/-- Moving a file changes two places of the directory: the one that it leaves and the one that it
takes. -/
theorem Within.exists_of_moved (h : Within p directory name) (hdraft : Within q directory draft)
    (hname : name ≠ "..") (hup : draft ≠ "..") (hne : draft ≠ name) (ht : t.Grounded)
    {executable : Bool} (hheld : t.Holds q (.file content executable))
    (hlink : ∀ target, ¬ t.Holds p (.link target)) (hmoved : t.rename q p = .ok t') :
    t'.Grounded ∧ t'.Holds p (.file content executable) ∧
      ∃ goal, t.Seat directory goal ∧ t'.Seat directory goal ∧
        t'.entry? (goal ++ [draft]) = none ∧
        ∀ at_, at_ ≠ goal ++ [draft] → at_ ≠ goal ++ [name] → t'.entry? at_ = t.entry? at_ := by
  obtain ⟨hp, hsize, goal, hseat, hentry, hleaf, rfl⟩ :=
    h.exists_of_rename hdraft hname hup hne hheld hlink hmoved
  have hplaces : goal ++ [draft] ≠ goal ++ [name] := by simpa using hne
  have hsource : t.Leaf (goal ++ [draft]) :=
    ⟨by rw [hentry]; exact nofun, by rw [hentry]; exact nofun⟩
  have hremoved (at_ : Location) (hat : at_ ≠ goal ++ [draft]) :
      entry? (t.remove (goal ++ [draft])) at_ = t.entry? at_ := ht.entry?_remove_leaf hsource hat
  have hleaf' : (t.remove (goal ++ [draft])).Leaf (goal ++ [name]) :=
    ⟨by rw [hremoved _ hplaces.symm]; exact hleaf.not_directory,
      fun target => by rw [hremoved _ hplaces.symm]; exact hleaf.not_link target⟩
  -- the directory is where it was, between the two changes and behind them
  have hbetween := hseat.mono (hsource.keeps hremoved) rfl
  have hseat' := hbetween.mono
    (hleaf'.keeps fun at_ hat => entry?_set_of_ne (.file content executable) hat) rfl
  refine ⟨(ht.remove hsource).set goal name _ (hbetween.entry_eq (ht.remove hsource))
    hleaf'.not_directory,
    (h.holds_iff hname).2 ⟨hp, hsize, goal, hseat', entry?_set_self _ (by simp)⟩,
    goal, hseat, hseat', ?_, fun at_ hdraft hname => ?_⟩
  · rw [entry?_set_of_ne _ hplaces]
    exact entry?_remove_within t (by simp) List.prefix_rfl
  · rw [entry?_set_of_ne _ hname, hremoved _ hdraft]

/-- Moving a file into the place of another one leaves nothing beside it. -/
theorem Within.moved_over (h : Within p directory name) (hdraft : Within q directory draft)
    (hname : name ≠ "..") (hup : draft ≠ "..") (hne : draft ≠ name) (ht : t.Grounded)
    {executable : Bool} (hheld : t.Holds q (.file content executable))
    (hlink : ∀ target, ¬ t.Holds p (.link target)) (hmoved : t.rename q p = .ok t') :
    t'.Grounded ∧ (∃ goal, t'.Seat directory goal) ∧ t'.Holds p (.file content executable) ∧
      ∀ entry, ¬ t'.Holds q entry := by
  obtain ⟨hgrounded, hplaced, goal, -, hseat', hgone, -⟩ :=
    h.exists_of_moved hdraft hname hup hne ht hheld hlink hmoved
  refine ⟨hgrounded, ⟨goal, hseat'⟩, hplaced, fun entry hholds => ?_⟩
  obtain ⟨-, -, goal', hother, hstill⟩ := (hdraft.holds_iff hup).1 hholds
  obtain rfl := hother.unique hseat'
  rw [hgone] at hstill
  cases hstill

/-- Moving a file into the place of another one leaves a third one alone. -/
theorem Within.holds_iff_of_moved {r : Path} {other : String} (h : Within p directory name)
    (hdraft : Within q directory draft) (hother : Within r directory other) (hname : name ≠ "..")
    (hup : draft ≠ "..") (hup' : other ≠ "..") (hne : draft ≠ name) (hdraftne : other ≠ draft)
    (hnamene : other ≠ name) (ht : t.Grounded) {executable : Bool}
    (hheld : t.Holds q (.file content executable)) (hlink : ∀ target, ¬ t.Holds p (.link target))
    (hmoved : t.rename q p = .ok t') : t'.Holds r entry ↔ t.Holds r entry := by
  obtain ⟨-, -, goal, hseat, hseat', -, hsame⟩ :=
    h.exists_of_moved hdraft hname hup hne ht hheld hlink hmoved
  have hentry : t'.entry? (goal ++ [other]) = t.entry? (goal ++ [other]) :=
    hsame _ (by simpa using hdraftne) (by simpa using hnamene)
  rw [hother.holds_iff hup', hother.holds_iff hup']
  refine and_congr_right fun _ => and_congr_right fun _ => ?_
  constructor
  · rintro ⟨goal', hthere, hholds⟩
    obtain rfl := hthere.unique hseat'
    exact ⟨goal', hseat, hentry ▸ hholds⟩
  · rintro ⟨goal', hthere, hholds⟩
    obtain rfl := hthere.unique hseat
    exact ⟨goal', hseat', hentry ▸ hholds⟩

end Beside

end RubySupervisor.FileTree
