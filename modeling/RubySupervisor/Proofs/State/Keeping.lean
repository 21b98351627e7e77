import RubySupervisor.Proofs.Files.Settling
import RubySupervisor.Proofs.State.Filing

/-!
# The state file follows the store

A change of a store is made in memory and then written beside the state file and moved into its
place. Whatever fails on the way, the state file is what it was, and when nothing fails it is the
store.
-/

namespace RubySupervisor

namespace Store

open FileTree (Within)

/-! ## Writing the file -/

/-- What an attempt to write a state file may be answered: it ends at the first failure. -/
inductive Flushes (path above : Path) (entries : Dict Json) :
    List Exchange → Except RubyError Unit → Prop where
  | unmade (error : FileError) :
      Flushes path above entries [⟨.makeDirectories above, .error error⟩] (.error (.io path error))
  | unwritten (error : FileError) :
      Flushes path above entries
        [⟨.makeDirectories above, .ok ()⟩,
          ⟨.writeFile (draftPath path) (fileText entries), .error error⟩]
        (.error (.io path error))
  | unmoved (error : FileError) :
      Flushes path above entries
        [⟨.makeDirectories above, .ok ()⟩,
          ⟨.writeFile (draftPath path) (fileText entries), .ok ()⟩,
          ⟨.renameFile (draftPath path) path, .error error⟩]
        (.error (.io path error))
  | done :
      Flushes path above entries
        [⟨.makeDirectories above, .ok ()⟩,
          ⟨.writeFile (draftPath path) (fileText entries), .ok ()⟩,
          ⟨.renameFile (draftPath path) path, .ok ()⟩]
        (.ok ())

theorem ensures_flush {σ : Type} {path above : Path} (hparent : path.parent? = some above)
    (entries : Dict Json) (s : σ) :
    (flush (some path) entries : Task σ (Except RubyError Unit)).Ensures
      (fun l r s' => s' = s ∧ Flushes path above entries l r) s := by
  simp only [flush, hparent, Task.ensures_bind, Task.ask_eq, Task.ensures_call, Task.ensures_done]
  rintro (error | ⟨⟩)
  · exact ⟨rfl, .unmade error⟩
  simp only [Task.ensures_bind, Task.ensures_call, Task.ensures_done]
  rintro (error | ⟨⟩)
  · exact ⟨rfl, .unwritten error⟩
  simp only [Task.ensures_bind, Task.ensures_call, Task.ensures_done]
  rintro (error | ⟨⟩)
  · exact ⟨rfl, .unmoved error⟩
  · exact ⟨rfl, .done⟩

/-- Through which files an attempt to write a state file goes: it fails behind the making of the
directories or behind the writing of the draft, or it moves the draft onto the file. -/
theorem Flushes.turns_cases {path above : Path} {entries : Dict Json} {l : List Exchange}
    {r : Except RubyError Unit} {t t' : FileTree} (h : Flushes path above entries l r)
    (hturns : t.Turns l t') :
    ∃ made t₁, t.Becomes ⟨.makeDirectories above, made⟩ t₁ ∧
      ((∃ error, r = .error error) ∧ t' = t₁ ∨
        ∃ written t₂, t₁.Becomes ⟨.writeFile (draftPath path) (fileText entries), written⟩ t₂ ∧
          ((∃ error, r = .error error) ∧ t' = t₂ ∨
            r = .ok () ∧ written = .ok () ∧
              t₂.Becomes ⟨.renameFile (draftPath path) path, .ok ()⟩ t')) := by
  cases h with
  | unmade error =>
    simp only [FileTree.turns_cons, FileTree.turns_nil] at hturns
    obtain ⟨t₁, hmade, rfl⟩ := hturns
    exact ⟨_, _, hmade, .inl ⟨⟨_, rfl⟩, rfl⟩⟩
  | unwritten error =>
    simp only [FileTree.turns_cons, FileTree.turns_nil] at hturns
    obtain ⟨t₁, hmade, t₂, hwritten, rfl⟩ := hturns
    exact ⟨_, _, hmade, .inr ⟨_, _, hwritten, .inl ⟨⟨_, rfl⟩, rfl⟩⟩⟩
  | unmoved error =>
    simp only [FileTree.turns_cons, FileTree.turns_nil] at hturns
    obtain ⟨t₁, hmade, t₂, hwritten, t₃, hmoved, rfl⟩ := hturns
    -- a move that fails leaves the files as they are
    cases hmoved
    exact ⟨_, _, hmade, .inr ⟨_, _, hwritten, .inl ⟨⟨_, rfl⟩, rfl⟩⟩⟩
  | done =>
    simp only [FileTree.turns_cons, FileTree.turns_nil] at hturns
    obtain ⟨t₁, hmade, t₂, hwritten, t₃, hmoved, rfl⟩ := hturns
    exact ⟨_, _, hmade, .inr ⟨_, _, hwritten, .inr ⟨rfl, rfl, hmoved⟩⟩⟩

/-- Whatever happens on the way, an attempt to write a state file leaves it as it was, or, if it
succeeds, with the entries in it. -/
theorem Flushes.spec {path above : Path} {name draft : String} {entries : Dict Json}
    {l : List Exchange} {r : Except RubyError Unit} {t t' : FileTree}
    (h : Flushes path above entries l r) (hfile : Within path above name)
    (hdraft : Within (draftPath path) above draft) (hname : name ≠ "..") (hne : draft ≠ name)
    (ht : t.Settled above path (draftPath path)) (hturns : t.Turns l t') :
    t'.Settled above path (draftPath path) ∧
      (r = .ok () ∧ t'.readBytes path = .ok (fileText entries).toUTF8 ∨
        (∃ error, r = .error error) ∧
          (t'.readBytes path).toOption = (t.readBytes path).toOption) := by
  obtain ⟨made, t₁, hmade, hend⟩ := h.turns_cases hturns
  obtain ⟨ht₁, hsame₁⟩ := ht.made hfile hdraft hname hmade
  rcases hend with ⟨hfailed, rfl⟩ | ⟨written, t₂, hwritten, hend⟩
  · exact ⟨ht₁, .inr ⟨hfailed, hsame₁⟩⟩
  obtain ⟨ht₂, hsame₂, hheld⟩ := ht₁.written hfile hdraft hname hne hwritten
  rcases hend with ⟨hfailed, rfl⟩ | ⟨hok, hdone, hmoved⟩
  · exact ⟨ht₂, .inr ⟨hfailed, hsame₂.trans hsame₁⟩⟩
  · -- the file itself is touched by this last step alone
    obtain ⟨hup, executable, hheld⟩ := hheld hdone
    obtain ⟨ht₃, hread⟩ := ht₂.moved hfile hdraft hname hup hne hheld hmoved
    exact ⟨ht₃, .inl ⟨hok, hread⟩⟩

/-- An attempt to write a state file makes no calls but those for changes of the files. -/
theorem only_flush {σ : Type} (path : Option Path) (entries : Dict Json) :
    (flush path entries : Task σ (Except RubyError Unit)).Only Call.ChangesFiles := by
  unfold flush
  cases path with
  | none => exact trivial
  | some path =>
    dsimp only
    split
    all_goals
      refine Task.Only.bind (by first | exact Task.only_ask trivial | exact Task.only_pure _) ?_
      rintro (error | ⟨⟩)
      · exact trivial
      refine Task.Only.bind (Task.only_ask trivial) ?_
      rintro (error | ⟨⟩)
      · exact trivial
      refine Task.Only.bind (Task.only_ask trivial) ?_
      rintro (error | ⟨⟩) <;> exact trivial

/-! ## Changes of a store -/

/-- What is asked of a store. -/
inductive Deed where
  | update (key : String) (value : Json)
  | remove (key : String)
  | setExtensionActivated (extension : String) (activated : Bool)

namespace Deed

/-- How it is done. -/
def task : Deed → Task Store (Except RubyError Unit)
  | update key value => Store.update key value
  | remove key => Store.remove key
  | setExtensionActivated extension activated => Store.setExtensionActivated extension activated

/-- The store with what is asked done in memory. -/
def apply (s : Store) : Deed → Store
  | update key value => s.insert key value
  | remove key => s.erase key
  | setExtensionActivated extension activated =>
    s.insert (extensionKey extension) (.bool activated)

/-- Whether the file is written; it is not to remove what is not there. -/
def Writes (s : Store) : Deed → Prop
  | update .. => True
  | remove key => s.entries.contains key = true
  | setExtensionActivated .. => True

/-- Whether what is to be stored can be found again as it is. -/
def Legible : Deed → Prop
  | update _ value => Store.Legible value
  | remove _ => True
  | setExtensionActivated .. => True

/-- On some files, a store is asked for something, and gives an answer and leaves other files. -/
def Does (deed : Deed) (t : FileTree) (s : Store) (r : Except RubyError Unit) (t' : FileTree)
    (s' : Store) : Prop :=
  ∃ l, deed.task.Yields s l r s' ∧ t.Turns l t'

theorem only_changesFiles (deed : Deed) : deed.task.Only Call.ChangesFiles := by
  cases deed with
  | update key value => exact fun s => only_flush _ _
  | setExtensionActivated extension activated => exact fun s => only_flush _ _
  | remove key =>
    intro s
    change Task.Only _ (if s.entries.contains key then _ else _)
    split
    · exact only_flush _ _
    · exact trivial

/-- A store may be asked for something where changes of the files are obstructed. -/
theorem does_of_run {deed : Deed} {s : Store} {w : FileTree.Obstructed}
    {x : Except RubyError Unit × Store × FileTree.Obstructed}
    (h : deed.task.run FileTree.obstructed s w = x) : deed.Does w.1 s x.1 x.2.2.1 x.2.1 := by
  subst h
  exact ⟨_, Task.yields_run FileTree.obstructed deed.task s w,
    FileTree.turns_obstructed deed.only_changesFiles s w⟩

/-- What is asked is done in memory first, and the whole store is then written; where nothing is to
be written, nothing happens. -/
theorem ensures_task (deed : Deed) {s : Store} {path above : Path} (hpath : s.path = some path)
    (hparent : path.parent? = some above) :
    deed.task.Ensures (fun l r s' =>
      deed.Writes s ∧ s' = deed.apply s ∧ Flushes path above s'.entries l r ∨
        ¬ deed.Writes s ∧ l = [] ∧ r = .ok () ∧ s' = s) s := by
  -- both kinds of change that store something are updates
  have hupdate (key : String) (value : Json) :
      (Store.update key value).Ensures (fun l r s' =>
        s' = s.insert key value ∧ Flushes path above s'.entries l r) s := by
    simp only [Store.update, Task.ensures_bind, Task.ensures_get, Task.ensures_put]
    have hpath' : (s.insert key value).path = some path := hpath
    rw [hpath']
    refine (ensures_flush hparent _ _).mono ?_
    rintro l r s' ⟨rfl, hflushes⟩
    exact ⟨rfl, hflushes⟩
  cases deed with
  | update key value =>
    exact (hupdate key value).mono fun _ _ _ h => .inl ⟨trivial, h⟩
  | setExtensionActivated extension activated =>
    exact (hupdate _ _).mono fun _ _ _ h => .inl ⟨trivial, h⟩
  | remove key =>
    simp only [task, Store.remove, Task.ensures_bind, Task.ensures_get]
    split
    · next hcontains =>
      simp only [Task.ensures_bind, Task.ensures_put]
      have hpath' : (s.erase key).path = some path := hpath
      rw [hpath']
      refine (ensures_flush hparent _ _).mono ?_
      rintro l r s' ⟨rfl, hflushes⟩
      exact .inl ⟨hcontains, rfl, hflushes⟩
    · next hcontains => exact .inr ⟨hcontains, rfl, rfl, rfl⟩

end Deed

/-! ## Courses of changes -/

/-- A store on some files comes to another state on other files by one change after the other. -/
inductive Course (t : FileTree) (s : Store) : FileTree → Store → Prop where
  | opened : Course t s t s
  | deed {deed : Deed} {r : Except RubyError Unit} {t₁ t₂ : FileTree} {s₁ s₂ : Store}
      (h : Course t s t₁ s₁) (hlegible : deed.Legible) (hdoes : deed.Does t₁ s₁ r t₂ s₂) :
      Course t s t₂ s₂

/-- After whatever has been asked of a store on some files, the state file follows the next change:
once it is written, the store that is opened is the one that was changed; once it has failed, the
file has the content that it had. -/
structure Follows (directory : Path) (workspace : String) (t : FileTree) (s : Store) : Prop where
  reopened : ∀ {deed : Deed} {t₁ t₂ : FileTree} {s₁ s₂ : Store}, Course t s t₁ s₁ → deed.Legible →
    deed.Writes s₁ → deed.Does t₁ s₁ (.ok ()) t₂ s₂ → open? t₂ directory workspace = .ok s₂
  unchanged : ∀ {deed : Deed} {error : RubyError} {t₁ t₂ : FileTree} {s₁ s₂ : Store},
    Course t s t₁ s₁ → deed.Legible → deed.Does t₁ s₁ (.error error) t₂ s₂ →
      (t₂.readBytes (filePath directory workspace)).toOption =
        (t₁.readBytes (filePath directory workspace)).toOption

section Opening

variable {directory : Path} {workspace : String} {t : FileTree} {s : Store}

theorem legible_bool (b : Bool) : Legible (.bool b) := by
  have hone : entriesOf (fileText [("", .bool b)]) = [("", .bool b)] := by
    cases b <;> decide +kernel
  exact legible_of_name hone

theorem open?_of_readBytes {contents : String}
    (h : t.readBytes (filePath directory workspace) = .ok contents.toUTF8) :
    open? t directory workspace =
      .ok ⟨some (filePath directory workspace), entriesOf contents⟩ := by
  have htext {path : Path} (h : t.readBytes path = .ok contents.toUTF8) :
      t.readText path = .ok contents := by
    simp only [FileTree.readText, h, bind, Except.bind, Text.ofUtf8?_toUTF8]
    rfl
  unfold open?
  dsimp only
  rw [htext h]

/-- A store that has been opened has its file, and its entries in order. -/
theorem of_open? (h : open? t directory workspace = .ok s) :
    s.path = some (filePath directory workspace) ∧ s.entries.Ascends := by
  unfold open? at h
  generalize filePath directory workspace = path at h ⊢
  dsimp only at h
  split at h
  · cases h
    exact ⟨rfl, ascends_entriesOf _⟩
  · cases h
    exact ⟨rfl, List.Pairwise.nil⟩
  · cases h

end Opening

/-- A store is kept on settled files: it has its file, and its entries are in order and legible. -/
structure Kept (directory : Path) (workspace : String) (above : Path) (t : FileTree) (s : Store) :
    Prop where
  settled : t.Settled above (filePath directory workspace)
    (draftPath (filePath directory workspace))
  path : s.path = some (filePath directory workspace)
  ascends : s.entries.Ascends
  legible : ∀ entry ∈ s.entries, Legible entry.2

section Kept

variable {directory above : Path} {workspace : String} {t t' : FileTree} {s s' : Store}

/-- What is done in memory keeps the entries in order and legible. -/
theorem Kept.apply (h : Kept directory workspace above t s) {deed : Deed}
    (hlegible : deed.Legible) (ht : t'.Settled above (filePath directory workspace)
      (draftPath (filePath directory workspace))) :
    Kept directory workspace above t' (deed.apply s) := by
  have hinsert {key : String} {value : Json} (hvalue : Legible value) :
      Kept directory workspace above t' (s.insert key value) := by
    refine ⟨ht, h.path, h.ascends.insert, fun entry hentry => ?_⟩
    rcases Dict.mem_insert hentry with rfl | hold
    · exact hvalue
    · exact h.legible entry hold
  cases deed with
  | update key value => exact hinsert hlegible
  | setExtensionActivated extension activated => exact hinsert (legible_bool activated)
  | remove key =>
    exact ⟨ht, h.path, h.ascends.erase, fun entry hentry =>
      h.legible entry (List.mem_of_mem_filter hentry)⟩

/-- A change keeps the store, and its file follows. -/
theorem Kept.does (h : Kept directory workspace above t s)
    (hparent : (filePath directory workspace).parent? = some above)
    (hfile : Within (filePath directory workspace) above (fileName workspace))
    (hdraft : Within (draftPath (filePath directory workspace)) above (draftName workspace))
    {deed : Deed} (hlegible : deed.Legible) {r : Except RubyError Unit}
    (hdoes : deed.Does t s r t' s') :
    Kept directory workspace above t' s' ∧
      (r = .ok () → deed.Writes s → open? t' directory workspace = .ok s') ∧
      ∀ error, r = .error error → (t'.readBytes (filePath directory workspace)).toOption =
        (t.readBytes (filePath directory workspace)).toOption := by
  obtain ⟨l, hyields, hturns⟩ := hdoes
  rcases (deed.ensures_task h.path hparent).yields hyields with
    ⟨hwrites, rfl, hflushes⟩ | ⟨hidle, rfl, rfl, rfl⟩
  · obtain ⟨hsettled, hresult⟩ := hflushes.spec hfile hdraft (isName_fileName workspace).ne_up
      (draftName_ne_fileName workspace) h.settled hturns
    have hkept := h.apply hlegible hsettled
    refine ⟨hkept, ?_⟩
    rcases hresult with ⟨rfl, hread⟩ | ⟨⟨error, rfl⟩, hsame⟩
    · refine ⟨fun _ _ => ?_, nofun⟩
      rw [open?_of_readBytes hread, entriesOf_fileText hkept.ascends hkept.legible, ← hkept.path]
    · exact ⟨nofun, fun _ _ => hsame⟩
  · rw [FileTree.turns_nil] at hturns
    subst hturns
    exact ⟨h, fun _ hwrites => absurd hwrites hidle, nofun⟩

/-- Along a course of changes the store is kept. -/
theorem Kept.course (h : Kept directory workspace above t s)
    (hparent : (filePath directory workspace).parent? = some above)
    (hfile : Within (filePath directory workspace) above (fileName workspace))
    (hdraft : Within (draftPath (filePath directory workspace)) above (draftName workspace))
    (hcourse : Course t s t' s') : Kept directory workspace above t' s' := by
  induction hcourse with
  | opened => exact h
  | deed _ hlegible hdoes ih => exact (ih.does hparent hfile hdraft hlegible hdoes).1

end Kept

/-- Under the names of a state file and its draft there is room for plain files: no link stands for
either of them, and no device in the place of the draft. -/
structure Plain (t : FileTree) (directory : Path) (workspace : String) : Prop where
  no_link : ∀ target, t.standing? (filePath directory workspace) ≠ some (.link target)
  no_link_beside : ∀ target,
    t.standing? (draftPath (filePath directory workspace)) ≠ some (.link target)
  no_device_beside : t.standing? (draftPath (filePath directory workspace)) ≠ some .device

theorem Plain.of_standing {t : FileTree} {directory : Path} {workspace : String}
    {entry beside : Option Entry} (hfile : t.standing? (filePath directory workspace) = entry)
    (hbeside : t.standing? (draftPath (filePath directory workspace)) = beside)
    (hlink : ∀ target, entry ≠ some (.link target))
    (hlink' : ∀ target, beside ≠ some (.link target)) (hdevice : beside ≠ some .device) :
    Plain t directory workspace := by
  subst hfile hbeside
  exact ⟨hlink, hlink', hdevice⟩

/-- Where no link stands for a state file, and neither a link nor a device for a draft beside it,
the file can be replaced by the draft, if the directory is there already or its path does not lead
back. -/
theorem settled_of_plain {directory above path draft : Path} {t : FileTree} (ht : t.Grounded)
    (hlink : ∀ target, ¬ t.Holds path (.link target))
    (hlink' : ∀ target, ¬ t.Holds draft (.link target)) (hdevice : ¬ t.Holds draft .device)
    (hdirectory : ".." ∈ FileTree.steps directory.text → t.isDirectory directory = true)
    (habsolute : above.isAbsolute = directory.isAbsolute)
    (hsteps : FileTree.steps above.text = FileTree.steps directory.text) :
    t.Settled above path draft := by
  refine ⟨ht, hlink, hlink', hdevice, fun hup => ?_⟩
  obtain ⟨goal, left, hleads⟩ := FileTree.exists_seat_of_isDirectory (hdirectory (hsteps ▸ hup))
  refine ⟨goal, left, ?_⟩
  rw [hsteps, FileTree.start, habsolute]
  exact hleads

/-- **Theorem (the state file follows the store).** The file of a store that has been opened follows
whatever is stored and removed and whatever fails on the way, if the values that the file held and
those that are stored are legible, the names of the file and its draft are free for plain files, and
the directory is there already or its path does not lead back. -/
theorem follows_of_plain {directory : Path} {workspace : String} {t : FileTree} {s : Store}
    (ht : t.Grounded) (hopen : open? t directory workspace = .ok s)
    (hlegible : ∀ entry ∈ s.entries, Legible entry.2) (hplain : Plain t directory workspace)
    (hdirectory : ".." ∈ FileTree.steps directory.text → t.isDirectory directory = true) :
    Follows directory workspace t s := by
  obtain ⟨above, hparent, habsolute, hsteps, hfile, hdraft⟩ := exists_directory directory workspace
  obtain ⟨hpath, hascends⟩ := of_open? hopen
  have hkept : Kept directory workspace above t s :=
    { settled := settled_of_plain ht hplain.no_link hplain.no_link_beside hplain.no_device_beside
        hdirectory habsolute hsteps
      path := hpath
      ascends := hascends
      legible := hlegible }
  have hstep {deed : Deed} {r : Except RubyError Unit} {t₁ t₂ : FileTree} {s₁ s₂ : Store}
      (hcourse : Course t s t₁ s₁) (hdeed : deed.Legible) (hdoes : deed.Does t₁ s₁ r t₂ s₂) :=
    ((hkept.course hparent hfile hdraft hcourse).does hparent hfile hdraft hdeed hdoes).2
  exact ⟨fun hcourse hdeed hwrites hdoes => (hstep hcourse hdeed hdoes).1 rfl hwrites,
    fun hcourse hdeed hdoes => (hstep hcourse hdeed hdoes).2 _ rfl⟩

/-- Files with a directory for state files. -/
def roomyFiles : FileTree := FileTree.empty.set ["state"] .directory

theorem grounded_roomyFiles : roomyFiles.Grounded :=
  FileTree.grounded_empty.set [] "state" .directory rfl nofun

/-- A store that has been opened where it has no file. -/
def freshStore : Store := ⟨some ⟨"/state/ws.json"⟩, []⟩

/-- An update where the draft cannot be written. -/
def failedUpdate : Except RubyError Unit × Store × FileTree.Obstructed :=
  (Deed.update "a" (.int 1)).task.run FileTree.obstructed freshStore
    (roomyFiles, [none, some .other])

/-- Another update behind it where nothing is in the way. -/
def laterUpdate : Except RubyError Unit × Store × FileTree.Obstructed :=
  (Deed.setExtensionActivated "x" false).task.run FileTree.obstructed failedUpdate.2.1
    failedUpdate.2.2

/-- A value that could not be written is found as soon as another one is. -/
theorem found_after_failure :
    (failedUpdate.2.2.1.readBytes (filePath ⟨"/state"⟩ "ws")).toOption =
        (roomyFiles.readBytes (filePath ⟨"/state"⟩ "ws")).toOption ∧
      open? laterUpdate.2.2.1 ⟨"/state"⟩ "ws" = .ok ⟨some ⟨"/state/ws.json"⟩,
        [("a", .int 1), ("extensions.x.activated", .bool false)]⟩ := by
  have hopen : open? roomyFiles ⟨"/state"⟩ "ws" = .ok freshStore := by decide +kernel
  have hplain : Plain roomyFiles ⟨"/state"⟩ "ws" :=
    .of_standing (show _ = none from rfl) (show _ = none from rfl) nofun nofun nofun
  have hup : ".." ∉ FileTree.steps "/state" := by decide +kernel
  have hfollows : Follows ⟨"/state"⟩ "ws" roomyFiles freshStore :=
    follows_of_plain grounded_roomyFiles hopen nofun hplain fun hmem => absurd hmem hup
  have hone : entriesOf (fileText [("", .int 1)]) = [("", .int 1)] := by decide +kernel
  have hlegible : (Deed.update "a" (.int 1)).Legible := legible_of_name hone
  have hactivated : (Deed.setExtensionActivated "x" false).Legible := trivial
  have hfirst := Deed.does_of_run (show _ = failedUpdate from rfl)
  have hsecond := Deed.does_of_run (show _ = laterUpdate from rfl)
  have hcourse := Course.deed .opened hlegible hfirst
  have hfailed : failedUpdate.1 = .error (.io ⟨"/state/ws.json"⟩ .other) := by decide +kernel
  have hlater : laterUpdate.1 = .ok () := by decide +kernel
  have hstore : laterUpdate.2.1 = ⟨some ⟨"/state/ws.json"⟩,
      [("a", .int 1), ("extensions.x.activated", .bool false)]⟩ := by decide +kernel
  rw [hfailed] at hfirst
  rw [hlater, hstore] at hsecond
  exact ⟨hfollows.unchanged .opened hlegible hfirst,
    hfollows.reopened hcourse hactivated trivial hsecond⟩

/-! ## What the conditions are for -/

/-- A store is opened on sound files, and yet its file does not follow. -/
structure Strays (directory : Path) (t : FileTree) (s : Store) : Prop where
  grounded : t.Grounded
  opened : open? t directory "ws" = .ok s
  not_follows : ¬ Follows directory "ws" t s

/-- What becomes of a value that is stored while something is in the way. -/
def storing (t : FileTree) (s : Store) (obstacles : List (Option FileError)) :
    Except RubyError Unit × Store × FileTree.Obstructed :=
  (Deed.update "k" .null).task.run FileTree.obstructed s (t, obstacles)

section Strays

variable {directory : Path} {t : FileTree} {s : Store}

theorem does_storing (t : FileTree) (s : Store) (obstacles : List (Option FileError)) :
    (Deed.update "k" .null).Does t s (storing t s obstacles).1 (storing t s obstacles).2.2.1
      (storing t s obstacles).2.1 :=
  Deed.does_of_run (w := (t, obstacles)) rfl

theorem legible_storing : (Deed.update "k" .null).Legible := by
  have hone : entriesOf (fileText [("", .null)]) = [("", .null)] := by decide +kernel
  exact legible_of_name hone

/-- A file strays if what was written is not found. -/
theorem strays_of_lost (obstacles : List (Option FileError)) (hgrounded : t.Grounded)
    (hopen : open? t directory "ws" = .ok s) (hok : (storing t s obstacles).1 = .ok ())
    (hlost : open? (storing t s obstacles).2.2.1 directory "ws" ≠ .ok (storing t s obstacles).2.1) :
    Strays directory t s := by
  refine ⟨hgrounded, hopen, fun h => ?_⟩
  have hdoes := does_storing t s obstacles
  rw [hok] at hdoes
  exact hlost (h.reopened .opened legible_storing trivial hdoes)

/-- A file strays if it is another one after a failure. -/
theorem strays_of_changed (obstacles : List (Option FileError)) (error : RubyError)
    (hgrounded : t.Grounded) (hopen : open? t directory "ws" = .ok s)
    (hfailed : (storing t s obstacles).1 = .error error)
    (hchanged : ((storing t s obstacles).2.2.1.readBytes (filePath directory "ws")).toOption ≠
      (t.readBytes (filePath directory "ws")).toOption) : Strays directory t s := by
  refine ⟨hgrounded, hopen, fun h => ?_⟩
  have hdoes := does_storing t s obstacles
  rw [hfailed] at hdoes
  exact hchanged (h.unchanged .opened legible_storing hdoes)

end Strays

/-- Files with one more entry in the directory for state files. -/
def filesWith (name : String) (entry : Entry) : FileTree := roomyFiles.set ["state", name] entry

theorem grounded_filesWith (name : String) (entry : Entry) : (filesWith name entry).Grounded := by
  have hfree : roomyFiles.entry? (["state"] ++ [name]) ≠ some .directory := by
    rw [roomyFiles, FileTree.entry?_set, if_neg (by simp), if_neg (by simp), FileTree.entry?,
      if_neg (by simp)]
    exact (Option.some_ne_none _).symm
  exact grounded_roomyFiles.set ["state"] name entry rfl hfree

/-- A state file with a number that is not read as it is written. -/
def unevenFiles : FileTree :=
  filesWith "ws.json" (.file "\x7b\"n\":9.5194186286967089e-2\x7d".toUTF8 false)

/-- What is found in it. -/
def unevenStore : Store :=
  ⟨some ⟨"/state/ws.json"⟩, entriesOf "\x7b\"n\":9.5194186286967089e-2\x7d"⟩

/-- A state file that is not reached before a directory is made for the path to lead back from. Its
draft cannot be written. -/
def hiddenFiles : FileTree :=
  ((FileTree.empty.set ["b"] .directory).set ["b", "ws.json"] (.file "\x7b\x7d".toUTF8 false)).set
    ["b", "ws.json.tmp"] .directory

theorem grounded_hiddenFiles : hiddenFiles.Grounded := by
  have hdirectory := FileTree.grounded_empty.set [] "b" .directory rfl nofun
  have hfile := hdirectory.set ["b"] "ws.json" (.file "\x7b\x7d".toUTF8 false) rfl nofun
  exact hfile.set ["b"] "ws.json.tmp" .directory rfl nofun

/-- No condition can be left out. The file may stray if it held a value that is not legible, if a
link stands for it or for its draft, if the draft is a device, and if its directory is still to be
made where the path leads back. -/
theorem not_always_follows :
    (Strays ⟨"/state"⟩ unevenFiles unevenStore ∧ Plain unevenFiles ⟨"/state"⟩ "ws") ∧
      Strays ⟨"/state"⟩ (filesWith "ws.json" (.link "ws.json.tmp")) freshStore ∧
      Strays ⟨"/state"⟩ (filesWith "ws.json.tmp" (.link "ws.json")) freshStore ∧
      Strays ⟨"/state"⟩ (filesWith "ws.json.tmp" .device) freshStore ∧
      Strays ⟨"/a/../b"⟩ hiddenFiles ⟨some ⟨"/a/../b/ws.json"⟩, []⟩ ∧
      Plain hiddenFiles ⟨"/a/../b"⟩ "ws" := by
  refine ⟨⟨?_, ?_⟩, ?_, ?_, ?_, ?_, ?_⟩
  · exact strays_of_lost [] (grounded_filesWith _ _) (by decide +kernel) (by decide +kernel)
      (by decide +kernel)
  · exact .of_standing (show _ = some (.file _ false) from rfl) (show _ = none from rfl) nofun nofun
      nofun
  · -- the draft is written, and then it cannot be moved
    exact strays_of_changed [none, none, some .other] (.io ⟨"/state/ws.json"⟩ .other)
      (grounded_filesWith _ _) (by decide +kernel) (by decide +kernel) (by decide +kernel)
  · exact strays_of_lost [] (grounded_filesWith _ _) (by decide +kernel) (by decide +kernel)
      (by decide +kernel)
  · exact strays_of_lost [] (grounded_filesWith _ _) (by decide +kernel) (by decide +kernel)
      (by decide +kernel)
  · exact strays_of_changed [] (.io ⟨"/a/../b/ws.json"⟩ .isADirectory) grounded_hiddenFiles
      (by decide +kernel) (by decide +kernel) (by decide +kernel)
  · exact .of_standing (show _ = none from rfl) (show _ = none from rfl) nofun nofun nofun

end Store

end RubySupervisor
