import RubySupervisor.Proofs.State.Keeping

/-!
# Workspaces that keep apart

The state files of all workspaces stand in one directory, each under what is left of the name of its
workspace when the characters that are not for file names have been replaced. Whatever is stored and
removed for one workspace, and whatever fails on the way, the file of another name is left alone.
But two workspaces may be left with the same name. They share one file then, unless that of the
first can never be written, because its draft has no name that a file may have.
-/

namespace RubySupervisor

namespace Store

open FileTree (Within)

/-! ## Entries that are found -/

/-- The entries that are found for a workspace: those of the store that is opened, if one can be. -/
def found (t : FileTree) (directory : Path) (workspace : String) : Dict Json :=
  ((open? t directory workspace).toOption.map Store.entries).getD []

section Found

variable {t t' : FileTree} {directory : Path} {workspace : String}

theorem found_of_open? {s : Store} (h : open? t directory workspace = .ok s) :
    found t directory workspace = s.entries := by
  rw [found, h]
  rfl

/-- What is found depends on the content of the state file, if it has one. -/
theorem found_eq (t : FileTree) (directory : Path) (workspace : String) :
    found t directory workspace =
      (((t.readBytes (filePath directory workspace)).toOption.bind Text.ofUtf8?).map
        entriesOf).getD [] := by
  unfold found open?
  generalize filePath directory workspace = path
  dsimp only
  rw [FileTree.readText]
  cases t.readBytes path with
  | error error => cases error <;> rfl
  | ok content =>
    simp only [bind, Except.bind, Except.toOption, Option.bind]
    cases Text.ofUtf8? content <;> rfl

theorem found_congr (h : (t'.readBytes (filePath directory workspace)).toOption =
    (t.readBytes (filePath directory workspace)).toOption) :
    found t' directory workspace = found t directory workspace := by
  rw [found_eq, found_eq, h]

end Found

/-! ## Beside another file -/

/-- A file that stands beside the one to be written is left alone, whether the attempt succeeds or
fails on the way. So is the file itself if its draft has no name that a file may have. -/
theorem Flushes.past {path above beside : Path} {name other draft : String} {entries : Dict Json}
    {l : List Exchange} {r : Except RubyError Unit} {t t' : FileTree}
    (h : Flushes path above entries l r) (hfile : Within path above name)
    (hbeside : Within beside above other) (hdraft : Within (draftPath path) above draft)
    (hname : name ≠ "..") (hother : other ≠ "..") (hne : draft ≠ name) (hne' : draft ≠ other)
    (hapart : draft ≠ ".." → draft.utf8ByteSize ≤ 255 → other ≠ name)
    (ht : t.Settled above path (draftPath path)) (ht' : t.Settled above beside (draftPath path))
    (hturns : t.Turns l t') :
    t'.Settled above beside (draftPath path) ∧
      (t'.readBytes beside).toOption = (t.readBytes beside).toOption := by
  obtain ⟨made, t₁, hmade, hend⟩ := h.turns_cases hturns
  obtain ⟨ht₁, hsame₁⟩ := ht'.made hbeside hdraft hother hmade
  rcases hend with ⟨-, rfl⟩ | ⟨written, t₂, hwritten, hend⟩
  · exact ⟨ht₁, hsame₁⟩
  obtain ⟨ht₂, hsame₂, hheld⟩ := ht₁.written hbeside hdraft hother hne' hwritten
  rcases hend with ⟨-, rfl⟩ | ⟨-, hdone, hmoved⟩
  · exact ⟨ht₂, hsame₂.trans hsame₁⟩
  · -- a draft that has been written has a name, so that the file it is moved onto is another one
    obtain ⟨hup, executable, hheld⟩ := hheld hdone
    obtain ⟨-, hsize, -⟩ := (hdraft.holds_iff hup).1 hheld
    have hfile₂ := ((ht.made hfile hdraft hname hmade).1.written hfile hdraft hname hne hwritten).1
    obtain ⟨ht₃, hsame₃⟩ := ht₂.moved_past hfile₂ hbeside hfile hdraft hother hname hup hne
      (Ne.symm hne') (hapart hup hsize) hheld hmoved
    exact ⟨ht₃, hsame₃.trans (hsame₂.trans hsame₁)⟩

/-- A store on some files comes to another state on other files by one change after the other, of
whatever values. -/
inductive Changes (t : FileTree) (s : Store) : FileTree → Store → Prop where
  | opened : Changes t s t s
  | deed {deed : Deed} {r : Except RubyError Unit} {t₁ t₂ : FileTree} {s₁ s₂ : Store}
      (h : Changes t s t₁ s₁) (hdoes : deed.Does t₁ s₁ r t₂ s₂) : Changes t s t₂ s₂

theorem Deed.path_apply (deed : Deed) (s : Store) : (deed.apply s).path = s.path := by
  cases deed <;> rfl

/-- The state files of two workspaces are in one directory, together with the draft of the first. -/
structure Neighbours (directory above : Path) (workspace other : String) : Prop where
  parent : (filePath directory workspace).parent? = some above
  file : Within (filePath directory workspace) above (fileName workspace)
  draft : Within (draftPath (filePath directory workspace)) above (draftName workspace)
  beside : Within (filePath directory other) above (fileName other)

theorem exists_neighbours (directory : Path) (workspace other : String) :
    ∃ above, Neighbours directory above workspace other ∧
      above.isAbsolute = directory.isAbsolute ∧
      FileTree.steps above.text = FileTree.steps directory.text := by
  obtain ⟨above, hparent, habsolute, hsteps, hfile, hdraft⟩ := exists_directory directory workspace
  obtain ⟨above', -, habsolute', hsteps', hbeside, -⟩ := exists_directory directory other
  have hother : Within (filePath directory other) above (fileName other) :=
    { isAbsolute := by rw [hbeside.isAbsolute, habsolute', habsolute]
      steps_eq := by rw [hbeside.steps_eq, hsteps', hsteps]
      asking_eq := hbeside.asking_eq }
  exact ⟨above, ⟨hparent, hfile, hdraft, hother⟩, habsolute, hsteps⟩

/-- A store is kept beside the file of another workspace, which is as it was on some files. -/
structure Beside (directory above : Path) (workspace other : String) (t t' : FileTree)
    (s : Store) : Prop where
  path : s.path = some (filePath directory workspace)
  settled : t'.Settled above (filePath directory workspace)
    (draftPath (filePath directory workspace))
  beside : t'.Settled above (filePath directory other) (draftPath (filePath directory workspace))
  same : (t'.readBytes (filePath directory other)).toOption =
    (t.readBytes (filePath directory other)).toOption

section Beside

variable {directory above : Path} {workspace other : String} {t t₁ t₂ : FileTree} {s s₁ s₂ : Store}

/-- A change of the store leaves the other file alone. -/
theorem Beside.does (h : Beside directory above workspace other t t₁ s₁)
    (hplaces : Neighbours directory above workspace other)
    (hapart : Writable workspace → fileStem workspace ≠ fileStem other) {deed : Deed}
    {r : Except RubyError Unit} (hdoes : deed.Does t₁ s₁ r t₂ s₂) :
    Beside directory above workspace other t t₂ s₂ := by
  obtain ⟨l, hyields, hturns⟩ := hdoes
  rcases (deed.ensures_task h.path hplaces.parent).yields hyields with
    ⟨-, rfl, hflushes⟩ | ⟨-, rfl, rfl, rfl⟩
  · have hname := (isName_fileName workspace).ne_up
    have hnames : draftName workspace ≠ ".." → (draftName workspace).utf8ByteSize ≤ 255 →
        fileName other ≠ fileName workspace :=
      fun hup hsize heq => hapart ⟨hup, hsize⟩ (fileName_eq_iff.1 heq.symm)
    obtain ⟨hsettled, -⟩ := hflushes.spec hplaces.file hplaces.draft hname
      (draftName_ne_fileName workspace) h.settled hturns
    obtain ⟨hbeside, hsame⟩ := hflushes.past hplaces.file hplaces.beside hplaces.draft hname
      (isName_fileName other).ne_up (draftName_ne_fileName workspace) (draftName_ne workspace other)
      hnames h.settled h.beside hturns
    exact ⟨(deed.path_apply s₁).trans h.path, hsettled, hbeside, hsame.trans h.same⟩
  · rw [FileTree.turns_nil] at hturns
    subst hturns
    exact h

/-- So do changes one after the other. -/
theorem Beside.changes (h : Beside directory above workspace other t t₁ s₁)
    (hplaces : Neighbours directory above workspace other)
    (hapart : Writable workspace → fileStem workspace ≠ fileStem other)
    (hchanges : Changes t₁ s₁ t₂ s₂) : Beside directory above workspace other t t₂ s₂ := by
  induction hchanges with
  | opened => exact h
  | deed _ hdoes ih => exact ih.does hplaces hapart hdoes

end Beside

/-- The files are sound, the names of a workspace's files are free for plain files, no link stands
for the file of the other workspace, and the directory is there already or its path does not lead
back. -/
structure Clear (t : FileTree) (directory : Path) (workspace other : String) : Prop where
  grounded : t.Grounded
  plain : Plain t directory workspace
  no_link : ∀ target, t.standing? (filePath directory other) ≠ some (.link target)
  way : ".." ∈ FileTree.steps directory.text → t.isDirectory directory = true

/-- Whatever is done with the store of one workspace, in whatever directory, a store that is opened
for another workspace afterwards has the entries that were found for it before. -/
def Apart (workspace other : String) : Prop :=
  ∀ {directory : Path} {t t' : FileTree} {s s' opened : Store}, Clear t directory workspace other →
    open? t directory workspace = .ok s → Changes t s t' s' →
      open? t' directory other = .ok opened → opened.entries = found t directory other

theorem apart_of_writable {workspace other : String}
    (hapart : Writable workspace → fileStem workspace ≠ fileStem other) :
    Apart workspace other := by
  intro directory t t' s s' opened hclear hopen hchanges hopened
  obtain ⟨above, hplaces, habsolute, hsteps⟩ := exists_neighbours directory workspace other
  have hstart : Beside directory above workspace other t t s :=
    { path := (of_open? hopen).1
      settled := settled_of_plain hclear.grounded hclear.plain.no_link hclear.plain.no_link_beside
        hclear.plain.no_device_beside hclear.way habsolute hsteps
      beside := settled_of_plain hclear.grounded hclear.no_link hclear.plain.no_link_beside
        hclear.plain.no_device_beside hclear.way habsolute hsteps
      same := rfl }
  have hend := hstart.changes hplaces hapart hchanges
  rw [← found_of_open? hopened]
  exact found_congr hend.same

/-! ## Two workspaces in one file -/

/-- An update that nothing is in the way of. -/
theorem Deed.does_of_changes {key : String} {value : Json} {s : Store} {path above : Path}
    {t t₁ t₂ t₃ : FileTree} (hpath : s.path = some path) (hparent : path.parent? = some above)
    (hmade : t.makeDirectories above = .ok t₁)
    (hwritten : t₁.writeBytes (draftPath path) (fileText (s.insert key value).entries).toUTF8 =
      .ok t₂) (hmoved : t₂.rename (draftPath path) path = .ok t₃) :
    (Deed.update key value).Does t s (.ok ()) t₃ (s.insert key value) := by
  have hflush (entries : Dict Json) : (flush (some path) entries : Task Store _).Yields
      (s.insert key value) [⟨.makeDirectories above, .ok ()⟩,
        ⟨.writeFile (draftPath path) (fileText entries), .ok ()⟩,
        ⟨.renameFile (draftPath path) path, .ok ()⟩] (.ok ()) (s.insert key value) := by
    simp only [flush, hparent]
    exact .call (.call (.call (.done _ _)))
  have hyields := hflush (s.insert key value).entries
  rw [← hpath] at hyields
  exact ⟨_, .read (.write hyields), .cons (.made hmade) (.cons (.written hwritten)
    (.cons (.moved hmoved) .nil))⟩

/-- The directory that relative paths are seen from. -/
def here : Path := ⟨""⟩

theorem seat_here (t : FileTree) : t.Seat here t.origin := ⟨FileTree.linkLimit, .here⟩

/-- A name for a file that consists of characters for file names and is not too long. -/
structure Ordinary (name : String) : Prop where
  isName : Path.IsName name
  chars : ∀ c ∈ name.toList, isFileNameChar c = true
  size : name.utf8ByteSize ≤ 255

section Ordinary

variable {name : String}

theorem Ordinary.ends (h : Ordinary name) : (Path.mk name).Ends [] name :=
  ⟨(Path.pieces_of_no_slash h.isName.slash).2, h.isName.isStep⟩

theorem Ordinary.within (h : Ordinary name) : Within ⟨name⟩ here name :=
  { isAbsolute := (Path.pieces_of_no_slash h.isName.slash).1
    steps_eq := h.ends.steps_eq
    asking_eq := h.ends.asking_eq }

theorem Ordinary.admissible (h : Ordinary name) : (Path.mk name).Admissible := by
  refine ⟨?_, h.isName.ne_empty, Nat.le_trans h.size (by decide)⟩
  apply Bool.eq_false_iff.2
  intro hnul
  exact absurd (h.chars _ (List.contains_iff_mem.1 hnul)) (by decide)

end Ordinary

theorem ordinary_draftName {workspace : String} (h : Writable workspace) :
    Ordinary (draftName workspace) := by
  have hstep := of_decide_eq_true (isStep_draftName workspace)
  refine ⟨⟨hstep.1, hstep.2, h.1, slash_not_mem_draftName workspace⟩, fun c hc => ?_, h.2⟩
  rw [draftName_eq, if_neg (writable_iff.1 h).1, String.toList_append] at hc
  rcases List.mem_append.1 hc with hstem | hend
  · split at hstem
    · exact List.all_eq_true.1 (show ".json".toList.all isFileNameChar = true by decide) c hstem
    · exact isFileNameChar_of_mem_fileStem hstem
  · exact List.all_eq_true.1 (show ".json.tmp".toList.all isFileNameChar = true by decide) c hend

theorem ordinary_fileName {workspace : String} (h : Writable workspace) :
    Ordinary (fileName workspace) := by
  have hchars (c : Char) (hc : c ∈ (fileName workspace).toList) : isFileNameChar c = true := by
    rw [toList_fileName] at hc
    rcases List.mem_append.1 hc with hstem | hend
    · exact isFileNameChar_of_mem_fileStem hstem
    · exact List.all_eq_true.1 (show ".json".toList.all isFileNameChar = true by decide) c hend
  refine ⟨isName_fileName workspace, hchars, ?_⟩
  have hlength : (fileName workspace).length = workspace.length + 5 := by
    rw [fileName, String.length_append, length_fileStem]
    rfl
  have hshort := (writable_iff.1 h).2
  rw [utf8ByteSize_eq_length hchars, hlength]
  omega

/-- Where nothing is, a file can be written under one name and moved to another one. -/
theorem exists_replaced {name draft : String} (hname : Ordinary name) (hdraft : Ordinary draft)
    (hne : draft ≠ name) (content : ByteArray) :
    ∃ t₁ t₂, FileTree.empty.writeBytes ⟨draft⟩ content = .ok t₁ ∧
      t₁.rename ⟨draft⟩ ⟨name⟩ = .ok t₂ ∧ t₂.readBytes ⟨name⟩ = .ok content := by
  let t₁ := FileTree.empty.set [draft] (.file content false)
  let t₂ := (t₁.remove [draft]).set [name] (.file content false)
  have hfree := hdraft.within.follow_absent hdraft.isName.ne_up hdraft.admissible hdraft.size
    (seat_here FileTree.empty) rfl true
  have hwritten : FileTree.empty.writeBytes ⟨draft⟩ content = .ok t₁ := by
    rw [FileTree.writeBytes, hfree]
    rfl
  have hplaced : t₁.entry? [draft] = some (.file content false) :=
    FileTree.entry?_set_self _ (by simp)
  -- neither of the two is a link that would have to be followed
  have hplain (last : Bool) (_ : last = true) (target : String) :
      Entry.file content false ≠ .link target := by
    intro hlink
    cases hlink
  have hsource := hdraft.within.follow_found hdraft.isName.ne_up hdraft.admissible hdraft.size
    (seat_here t₁) hplaced false (hplain false)
  have hnothing : t₁.entry? [name] = none := by
    rw [FileTree.entry?_set_of_ne _ (by simpa using Ne.symm hne)]
    rfl
  have htarget := hname.within.follow_absent hname.isName.ne_up hname.admissible hname.size
    (seat_here t₁) hnothing false
  have hmoved : t₁.rename ⟨draft⟩ ⟨name⟩ = .ok t₂ := by
    rw [FileTree.rename, FileTree.resolve_eq_ok_iff.2 ⟨_, hsource⟩, htarget]
    rfl
  have hthere : t₂.entry? [name] = some (.file content false) :=
    FileTree.entry?_set_self _ (by simp)
  have hread : t₂.metadata ⟨name⟩ = .ok (.file content false) := by
    rw [FileTree.metadata, FileTree.resolve_eq_ok_iff.2 ⟨_, hname.within.follow_found
      hname.isName.ne_up hname.admissible hname.size (seat_here t₂) hthere true (hplain true)⟩]
    rfl
  refine ⟨t₁, t₂, hwritten, hmoved, ?_⟩
  rw [FileTree.readBytes, hread]
  rfl

/-- Under a name that is free nothing stands, and nothing is read. -/
theorem Ordinary.free {name : String} (h : Ordinary name) :
    FileTree.empty.standing? ⟨name⟩ = none ∧ FileTree.empty.readText ⟨name⟩ = .error .notFound := by
  have hfree (last : Bool) := h.within.follow_absent h.isName.ne_up h.admissible h.size
    (seat_here FileTree.empty) rfl last
  have hresolve (last : Bool) :
      FileTree.empty.resolve last ⟨name⟩ = .ok (.absent (FileTree.empty.origin ++ [name])) :=
    FileTree.resolve_eq_ok_iff.2 ⟨_, hfree last⟩
  have hmetadata : FileTree.empty.metadata ⟨name⟩ = .error .notFound := by
    rw [FileTree.metadata, hresolve]
    rfl
  constructor
  · rw [FileTree.standing?, hresolve]
  · rw [FileTree.readText, FileTree.readBytes, hmetadata]
    rfl

theorem filePath_here (workspace : String) : filePath here workspace = ⟨fileName workspace⟩ := by
  have hrelative := (Path.pieces_of_no_slash (isName_fileName workspace).slash).1
  rw [filePath, ← fileName, Path.join, hrelative]
  simp [here]

section Here

variable {workspace other : String}

theorem parent?_fileName (h : Writable workspace) :
    (Path.mk (fileName workspace)).parent? = some here := by
  have hname := ordinary_fileName h
  rw [Path.parent?, hname.ends.dropIdlePieces_eq, hname.within.isAbsolute]
  rfl

theorem draftPath_fileName (h : Writable workspace) :
    draftPath ⟨fileName workspace⟩ = ⟨draftName workspace⟩ := by
  have hname := ordinary_fileName h
  rw [draftPath, Path.withExtension, hname.ends.fileName?_eq hname.isName.ne_up,
    hname.ends.dropIdlePieces_eq, hname.within.isAbsolute]
  simp [Path.ofPieces, draftName, here, Path.isAbsolute]

/-- A store without a file is opened without entries. -/
theorem open?_of_missing {t : FileTree} {directory path : Path}
    (hpath : filePath directory workspace = path) (h : t.readText path = .error .notFound) :
    open? t directory workspace = .ok ⟨some path, []⟩ := by
  subst hpath
  unfold open?
  dsimp only
  rw [h]

/-- A value that is stored where nothing was is found in the file. -/
theorem exists_stored (h : Writable workspace) (key : String) (value : Json) :
    ∃ t, (Deed.update key value).Does FileTree.empty ⟨some ⟨fileName workspace⟩, []⟩ (.ok ()) t
        ⟨some ⟨fileName workspace⟩, [(key, value)]⟩ ∧
      t.readBytes ⟨fileName workspace⟩ = .ok (fileText [(key, value)]).toUTF8 := by
  obtain ⟨t₁, t₂, hwritten, hmoved, hread⟩ := exists_replaced (ordinary_fileName h)
    (ordinary_draftName h) (draftName_ne_fileName workspace) (fileText [(key, value)]).toUTF8
  have hmade : FileTree.empty.makeDirectories here = .ok FileTree.empty := rfl
  rw [← draftPath_fileName h] at hwritten hmoved
  exact ⟨t₂, Deed.does_of_changes rfl (parent?_fileName h) hmade hwritten hmoved, hread⟩

/-- A workspace that is left with the same name as another one shares its file, if it can be
written. -/
theorem not_apart_of_fileStem_eq (hwritable : Writable workspace)
    (hsame : fileStem workspace = fileStem other) : ¬ Apart workspace other := by
  intro hapart
  have hfile : filePath here workspace = ⟨fileName workspace⟩ := filePath_here workspace
  have hother : filePath here other = ⟨fileName workspace⟩ := by
    rw [filePath_here, fileName_eq_iff.2 hsame]
  obtain ⟨hfree, hmissing⟩ := (ordinary_fileName hwritable).free
  have hstanding : FileTree.empty.standing? (filePath here workspace) = none := by
    rw [hfile]
    exact hfree
  have hbeside : FileTree.empty.standing? (draftPath (filePath here workspace)) = none := by
    rw [hfile, draftPath_fileName hwritable]
    exact (ordinary_draftName hwritable).free.1
  have hclear : Clear FileTree.empty here workspace other :=
    { grounded := FileTree.grounded_empty
      plain := .of_standing hstanding hbeside nofun nofun nofun
      no_link := fun target => by rw [hother, hfree]; exact nofun
      way := fun hup => absurd hup (by decide) }
  obtain ⟨t, hdoes, hread⟩ := exists_stored hwritable "k" .null
  rw [← hother] at hread
  -- one value is stored for the one workspace, and found for the other
  have hone : entriesOf (fileText [("k", .null)]) = [("k", .null)] := by decide +kernel
  generalize fileText [("k", .null)] = contents at hread hone
  have hentries := hapart hclear (open?_of_missing hfile hmissing) (.deed .opened hdoes)
    (open?_of_readBytes hread)
  rw [found_of_open? (open?_of_missing hother hmissing), hone] at hentries
  cases hentries

end Here

/-- **Theorem (workspaces keep apart).** Whatever is stored and removed for one workspace, and
whatever fails on the way, a store that is opened for another one afterwards has the entries that it
would have had before, exactly if the two are left with different names, or nothing can be written
for the first at all. -/
theorem apart_iff {workspace other : String} : Apart workspace other ↔
    fileStem workspace ≠ fileStem other ∨ workspace = "." ∨ 246 < workspace.length := by
  have hwritable : ¬ Writable workspace ↔ workspace = "." ∨ 246 < workspace.length := by
    rw [writable_iff, Decidable.not_and_iff_not_or_not, Decidable.not_not, Nat.not_le]
  rw [← hwritable]
  constructor
  · intro hapart
    by_cases hsame : fileStem workspace = fileStem other
    · exact .inr fun h => not_apart_of_fileStem_eq h hsame hapart
    · exact .inl hsame
  · rintro (hother | hnone)
    · exact apart_of_writable fun _ => hother
    · exact apart_of_writable fun h => absurd h hnone

/-- What is stored for one workspace where nothing is. -/
def storedApart : Except RubyError Unit × Store × FileTree.Obstructed :=
  (Deed.update "k" (.int 1)).task.run FileTree.obstructed ⟨some ⟨"/state/a_b.json"⟩, []⟩
    (roomyFiles, [])

/-- Workspaces do not always keep apart: what is stored for `a b` is found for `a_b`, in files that
are clear and have nothing in the way. -/
theorem not_always_apart :
    Clear roomyFiles ⟨"/state"⟩ "a b" "a_b" ∧
      open? roomyFiles ⟨"/state"⟩ "a b" = .ok ⟨some ⟨"/state/a_b.json"⟩, []⟩ ∧
      open? roomyFiles ⟨"/state"⟩ "a_b" = .ok ⟨some ⟨"/state/a_b.json"⟩, []⟩ ∧
      storedApart.1 = .ok () ∧
      open? storedApart.2.2.1 ⟨"/state"⟩ "a_b" = .ok ⟨some ⟨"/state/a_b.json"⟩, [("k", .int 1)]⟩ ∧
      ¬ Apart "a b" "a_b" := by
  have hclear : Clear roomyFiles ⟨"/state"⟩ "a b" "a_b" :=
    { grounded := grounded_roomyFiles
      plain := .of_standing (show _ = none from rfl) (show _ = none from rfl) nofun nofun nofun
      no_link := fun target => by
        rw [show roomyFiles.standing? (filePath ⟨"/state"⟩ "a_b") = none from rfl]
        exact nofun
      way := fun hup => absurd hup (by decide +kernel) }
  have hopen : open? roomyFiles ⟨"/state"⟩ "a b" = .ok ⟨some ⟨"/state/a_b.json"⟩, []⟩ := by
    decide +kernel
  have hother : open? roomyFiles ⟨"/state"⟩ "a_b" = .ok ⟨some ⟨"/state/a_b.json"⟩, []⟩ := by
    decide +kernel
  have hok : storedApart.1 = .ok () := by decide +kernel
  have hfound : open? storedApart.2.2.1 ⟨"/state"⟩ "a_b" =
      .ok ⟨some ⟨"/state/a_b.json"⟩, [("k", .int 1)]⟩ := by decide +kernel
  refine ⟨hclear, hopen, hother, hok, hfound, fun hapart => ?_⟩
  have hentries := hapart hclear hopen
    (.deed .opened (Deed.does_of_run (show _ = storedApart from rfl))) hfound
  rw [found_of_open? hother] at hentries
  cases hentries

/-! ## What the conditions are for -/

/-- What is stored for one workspace on sound files is found for another one of another name. -/
structure Mixes (t : FileTree) (directory : Path) : Prop where
  grounded : t.Grounded
  not_same : ∃ s t' s' opened, open? t directory "a" = .ok s ∧ Changes t s t' s' ∧
    open? t' directory "b" = .ok opened ∧ opened.entries ≠ found t directory "b"

theorem mixes_of_storing {t : FileTree} {directory : Path} (s before opened : Store)
    (hgrounded : t.Grounded) (hopen : open? t directory "a" = .ok s)
    (hbefore : open? t directory "b" = .ok before)
    (hafter : open? (storing t s []).2.2.1 directory "b" = .ok opened)
    (hother : opened.entries ≠ before.entries) : Mixes t directory := by
  refine ⟨hgrounded, s, _, _, opened, hopen, .deed .opened (does_storing t s []), hafter, ?_⟩
  rwa [found_of_open? hbefore]

/-- A state file that is not reached before a directory is made for the path to lead back from. -/
def unreachedFiles : FileTree :=
  (FileTree.empty.set ["b"] .directory).set ["b", "b.json"]
    (.file "\x7b\"k\":1\x7d".toUTF8 false)

/-- The state files of two workspaces may mix if a link stands for the file of the second, or for
the draft of the first, and if their directory is still to be made where the path leads back. -/
theorem mixes_unless_clear :
    Mixes (filesWith "b.json" (.link "a.json")) ⟨"/state"⟩ ∧
      Mixes (filesWith "a.json.tmp" (.link "b.json")) ⟨"/state"⟩ ∧
      Mixes unreachedFiles ⟨"/a/../b"⟩ := by
  have hgrounded : unreachedFiles.Grounded :=
    (FileTree.grounded_empty.set [] "b" .directory rfl nofun).set ["b"] "b.json" _ rfl nofun
  refine ⟨?_, ?_, ?_⟩
  · exact mixes_of_storing ⟨some ⟨"/state/a.json"⟩, []⟩ ⟨some ⟨"/state/b.json"⟩, []⟩
      ⟨some ⟨"/state/b.json"⟩, [("k", .null)]⟩ (grounded_filesWith _ _) (by decide +kernel)
      (by decide +kernel) (by decide +kernel) (by decide)
  · exact mixes_of_storing ⟨some ⟨"/state/a.json"⟩, []⟩ ⟨some ⟨"/state/b.json"⟩, []⟩
      ⟨some ⟨"/state/b.json"⟩, [("k", .null)]⟩ (grounded_filesWith _ _) (by decide +kernel)
      (by decide +kernel) (by decide +kernel) (by decide)
  · exact mixes_of_storing ⟨some ⟨"/a/../b/a.json"⟩, []⟩ ⟨some ⟨"/a/../b/b.json"⟩, []⟩
      ⟨some ⟨"/a/../b/b.json"⟩, [("k", .int 1)]⟩ hgrounded (by decide +kernel)
      (by decide +kernel) (by decide +kernel) (by decide)

end Store

end RubySupervisor
