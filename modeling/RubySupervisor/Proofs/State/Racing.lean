import RubySupervisor.Proofs.State.Keeping
import RubySupervisor.Proofs.State.Memory

/-!
# Updates at the same time

An update stores its value and takes a snapshot of the entries in one step; it writes the snapshot
in another one, and other updates may come in between. So the state file is the snapshot that was
written last, which need not be the last one that was taken. An update is lost from the file when
its snapshot is written before an older one, and stays lost until something else is written.
-/

namespace RubySupervisor

/-- What is left of a task that has come to a halt. -/
def Task.Waiting.rest {σ α : Type} : Waiting σ α → Task σ α
  | .finished a => .done a
  | .onCall c next => .call c next

namespace Store

open FileTree (Within)

/-! ## Steps of updates -/

/-- A step of one of several updates: it stores its value and takes a snapshot, or it writes the
snapshot that it has taken. Updates are numbered in the order in which they store. -/
inductive Turn where
  | stores (key : String) (value : Json)
  | writes (number : Nat)
  deriving DecidableEq

/-- What has been stored, in order. -/
def storedIn (turns : List Turn) : List (String × Json) :=
  turns.filterMap fun
    | .stores key value => some (key, value)
    | .writes _ => none

/-- The updates that have written, in order. -/
def writtenIn (turns : List Turn) : List Nat :=
  turns.filterMap fun
    | .stores .. => none
    | .writes number => some number

/-- How many of the stored values are in the snapshot that was written last. -/
def known (turns : List Turn) : Nat := ((writtenIn turns).getLast?.map (· + 1)).getD 0

section Turns

variable (turns : List Turn)

@[simp] theorem storedIn_stores (key : String) (value : Json) :
    storedIn (turns ++ [.stores key value]) = storedIn turns ++ [(key, value)] := by
  simp [storedIn]

@[simp] theorem storedIn_writes (number : Nat) :
    storedIn (turns ++ [.writes number]) = storedIn turns := by
  simp [storedIn]

@[simp] theorem known_stores (key : String) (value : Json) :
    known (turns ++ [.stores key value]) = known turns := by
  simp [known, writtenIn]

@[simp] theorem known_writes (number : Nat) : known (turns ++ [.writes number]) = number + 1 := by
  simp [known, writtenIn]

end Turns

/-- Updates of one store on some files take their steps in any order. Each comes to a halt with its
snapshot taken, and goes on from there to its end, once. Every attempt to write succeeds. -/
inductive Race (t : FileTree) (s : Store) :
    List Turn → FileTree → Store → List (Task Store (Except RubyError Unit)) → Prop where
  | opened : Race t s [] t s []
  | stores {turns : List Turn} {t₁ : FileTree} {s₁ : Store}
      {rests : List (Task Store (Except RubyError Unit))} (h : Race t s turns t₁ s₁ rests)
      (key : String) (value : Json) :
      Race t s (turns ++ [.stores key value]) t₁ ((update key value).segment s₁).2
        (rests ++ [((update key value).segment s₁).1.rest])
  | writes {turns : List Turn} {t₁ t₂ : FileTree} {s₁ s₂ : Store} {l : List Exchange}
      {rests : List (Task Store (Except RubyError Unit))} (h : Race t s turns t₁ s₁ rests)
      {number : Nat} {rest : Task Store (Except RubyError Unit)}
      (hrest : rests[number]? = some rest) (hnew : number ∉ writtenIn turns)
      (hyields : rest.Yields s₁ l (.ok ()) s₂) (hturns : t₁.Turns l t₂) :
      Race t s (turns ++ [.writes number]) t₂ s₂ rests

/-- What becomes of some files when a snapshot is written and nothing is in the way. -/
def written (path : Option Path) (entries : Dict Json) (t : FileTree) (s : Store) :
    Except RubyError Unit × Store × FileTree.Obstructed :=
  (flush path entries : Task Store _).run FileTree.obstructed s (t, [])

/-- An update may write where nothing is in the way. -/
theorem Race.writes_of_written {t t₁ : FileTree} {s s₁ : Store} {turns : List Turn}
    {rests : List (Task Store (Except RubyError Unit))} (h : Race t s turns t₁ s₁ rests)
    {number : Nat} {path : Option Path} {entries : Dict Json}
    (hrest : rests[number]? = some (flush path entries)) (hnew : number ∉ writtenIn turns)
    (hok : (written path entries t₁ s₁).1 = .ok ()) :
    Race t s (turns ++ [.writes number]) (written path entries t₁ s₁).2.2.1 s₁ rests := by
  have hyields := Task.yields_run FileTree.obstructed (flush path entries) s₁ (t₁, [])
  have hsame : (written path entries t₁ s₁).2.1 = s₁ :=
    ((steady_flush path entries).ensures s₁).yields hyields
  rw [show (Task.run _ _ _ _).1 = _ from hok] at hyields
  have hwritten := h.writes hrest hnew hyields
    (FileTree.turns_obstructed (only_flush path entries) s₁ (t₁, []))
  rwa [show (Task.run _ _ _ _).2.1 = _ from hsame] at hwritten

/-- All updates that have stored have written, too. -/
def Finished (turns : List Turn) : Prop :=
  ∀ number < (storedIn turns).length, number ∈ writtenIn turns

/-! ## The snapshot that was written last -/

/-- An attempt to write comes to its first call at once. -/
theorem segment_flush {σ : Type} (path : Option Path) (entries : Dict Json) (s : σ) :
    ((flush path entries : Task σ (Except RubyError Unit)).segment s).1.rest =
        flush path entries ∧
      ((flush path entries : Task σ (Except RubyError Unit)).segment s).2 = s := by
  unfold flush
  cases path with
  | none => exact ⟨rfl, rfl⟩
  | some path =>
    dsimp only
    cases path.parent? <;> exact ⟨rfl, rfl⟩

/-- When an update comes to a halt, its value is stored, and a snapshot is left to be written. -/
theorem segment_update (key : String) (value : Json) (s : Store) :
    ((update key value).segment s).1.rest = flush s.path (s.insert key value).entries ∧
      ((update key value).segment s).2 = s.insert key value :=
  segment_flush s.path (s.insert key value).entries (s.insert key value)

/-- The entries of a store with the first of some values stored. -/
def snapshot (s : Store) (turns : List Turn) (count : Nat) : Dict Json :=
  s.entries.insertAll ((storedIn turns).take count)

section Snapshot

variable {s : Store} {turns : List Turn} {count : Nat}

/-- A snapshot is not changed by what is stored later. -/
theorem snapshot_stores {key : String} {value : Json} (h : count ≤ (storedIn turns).length) :
    snapshot s (turns ++ [.stores key value]) count = snapshot s turns count := by
  rw [snapshot, storedIn_stores, List.take_append_of_le_length h]
  rfl

theorem snapshot_writes {number : Nat} :
    snapshot s (turns ++ [.writes number]) count = snapshot s turns count := by
  rw [snapshot, storedIn_writes]
  rfl

theorem snapshot_all : snapshot s turns (storedIn turns).length =
    s.entries.insertAll (storedIn turns) := by
  rw [snapshot, List.take_length]

theorem ascends_snapshot (h : s.entries.Ascends) : (snapshot s turns count).Ascends :=
  Dict.ascends_insertAll h _

/-- A snapshot of legible values is legible. -/
theorem legible_snapshot (h : ∀ entry ∈ s.entries, Legible entry.2)
    (hstored : ∀ call ∈ storedIn turns, Legible call.2) :
    ∀ entry ∈ snapshot s turns count, Legible entry.2 := by
  intro entry hentry
  rcases Dict.mem_insertAll hentry with hcall | hold
  · exact hstored entry (List.mem_of_mem_take hcall)
  · exact h entry hold

end Snapshot

/-- In the course of a race, the store has all that was stored, each update has the snapshot that
was its own, and the file is the snapshot that was written last. -/
structure Raced (path above : Path) (t : FileTree) (s : Store) (turns : List Turn) (t' : FileTree)
    (s' : Store) (rests : List (Task Store (Except RubyError Unit))) : Prop where
  settled : t'.Settled above path (draftPath path)
  store : s' = ⟨s.path, s.entries.insertAll (storedIn turns)⟩
  length : rests.length = (storedIn turns).length
  rests : ∀ number rest, rests[number]? = some rest →
    rest = flush s.path (snapshot s turns (number + 1))
  known_le : known turns ≤ (storedIn turns).length
  content : known turns = 0 ∧ t' = t ∨
    t'.readBytes path = .ok (fileText (snapshot s turns (known turns))).toUTF8

section Raced

variable {path above : Path} {name draft : String} {t t₁ t₂ : FileTree} {s s₁ s₂ : Store}
  {turns : List Turn} {rests : List (Task Store (Except RubyError Unit))}

/-- An update that stores adds a snapshot, and leaves the older ones and the file alone. -/
theorem Raced.stores (h : Raced path above t s turns t₁ s₁ rests) (key : String)
    (value : Json) : Raced path above t s (turns ++ [.stores key value]) t₁
      ((update key value).segment s₁).2 (rests ++ [((update key value).segment s₁).1.rest]) := by
  obtain ⟨hrest, hstore⟩ := segment_update key value s₁
  have hentries : s₁.insert key value =
      ⟨s.path, s.entries.insertAll (storedIn (turns ++ [.stores key value]))⟩ := by
    rw [storedIn_stores, Dict.insertAll_append, h.store]
    rfl
  refine
    { settled := h.settled
      store := hstore.trans hentries
      length := by rw [List.length_append, h.length, storedIn_stores, List.length_append]; rfl
      rests := fun number rest hnumber => ?_
      known_le := ?_
      content := ?_ }
  -- older snapshots are of what was stored up to then; the new one is of all that is stored
  · by_cases hold : number < rests.length
    · rw [List.getElem?_append_left hold] at hnumber
      rw [snapshot_stores (by rw [← h.length]; exact hold)]
      exact h.rests number rest hnumber
    · have hlast : number = rests.length := by
        have hbound := List.getElem?_eq_some_iff.1 hnumber |>.1
        rw [List.length_append, List.length_singleton] at hbound
        omega
      subst hlast
      rw [List.getElem?_concat_length] at hnumber
      obtain rfl := Option.some.inj hnumber
      have hcount : rests.length + 1 = (storedIn (turns ++ [.stores key value])).length := by
        rw [storedIn_stores, List.length_append, h.length]
        rfl
      rw [hrest, hcount, snapshot_all, hentries, h.store]
  · rw [known_stores, storedIn_stores, List.length_append]
    have hle := h.known_le
    omega
  · rw [known_stores, snapshot_stores h.known_le]
    exact h.content

/-- An update that writes makes its snapshot the content of the file. -/
theorem Raced.writes (h : Raced path above t s turns t₁ s₁ rests) (hpath : s.path = some path)
    (hparent : path.parent? = some above) (hfile : Within path above name)
    (hdraft : Within (draftPath path) above draft) (hname : name ≠ "..") (hne : draft ≠ name)
    {number : Nat} {rest : Task Store (Except RubyError Unit)} {l : List Exchange}
    (hrest : rests[number]? = some rest) (hyields : rest.Yields s₁ l (.ok ()) s₂)
    (hturns : t₁.Turns l t₂) : Raced path above t s (turns ++ [.writes number]) t₂ s₂ rests := by
  rw [h.rests number rest hrest, hpath] at hyields
  obtain ⟨rfl, hflushes⟩ := (ensures_flush hparent _ s₁).yields hyields
  obtain ⟨hsettled, hresult⟩ := hflushes.spec hfile hdraft hname hne h.settled hturns
  have hread : t₂.readBytes path = .ok (fileText (snapshot s turns (number + 1))).toUTF8 := by
    rcases hresult with ⟨-, hread⟩ | ⟨⟨error, hfailed⟩, -⟩
    · exact hread
    · cases hfailed
  refine
    { settled := hsettled
      store := by rw [storedIn_writes]; exact h.store
      length := by rw [storedIn_writes]; exact h.length
      rests := fun other rest' hother => by rw [snapshot_writes]; exact h.rests other rest' hother
      known_le := ?_
      content := .inr (by rw [known_writes, snapshot_writes]; exact hread) }
  have hbound := (List.getElem?_eq_some_iff.1 hrest).1
  rw [known_writes, storedIn_writes, ← h.length]
  omega

/-- Through a race this goes on. -/
theorem Race.raced (h : Race t s turns t₁ s₁ rests) (hpath : s.path = some path)
    (hparent : path.parent? = some above) (hfile : Within path above name)
    (hdraft : Within (draftPath path) above draft) (hname : name ≠ "..") (hne : draft ≠ name)
    (ht : t.Settled above path (draftPath path)) : Raced path above t s turns t₁ s₁ rests := by
  induction h with
  | opened => exact ⟨ht, rfl, rfl, nofun, Nat.le_refl _, .inl ⟨rfl, rfl⟩⟩
  | stores _ key value ih => exact ih.stores key value
  | writes _ hrest _ hyields hturns ih =>
    exact ih.writes hpath hparent hfile hdraft hname hne hrest hyields hturns

end Raced

/-! ## What the file holds -/

section Opened

variable {directory : Path} {workspace : String} {t t' : FileTree} {s s' : Store}
  {turns : List Turn} {rests : List (Task Store (Except RubyError Unit))}

/-- At every moment of a race, the store has all that was stored, and the store that is opened from
its file has the values of the snapshot that was written last. -/
theorem race_reopened (ht : t.Grounded) (hopen : open? t directory workspace = .ok s)
    (hlegible : ∀ entry ∈ s.entries, Legible entry.2) (hplain : Plain t directory workspace)
    (hdirectory : ".." ∈ FileTree.steps directory.text → t.isDirectory directory = true)
    (h : Race t s turns t' s' rests) (hstored : ∀ call ∈ storedIn turns, Legible call.2) :
    s' = ⟨s.path, s.entries.insertAll (storedIn turns)⟩ ∧
      open? t' directory workspace = .ok ⟨s.path, snapshot s turns (known turns)⟩ := by
  obtain ⟨above, hparent, habsolute, hsteps, hfile, hdraft⟩ := exists_directory directory workspace
  obtain ⟨hpath, hascends⟩ := of_open? hopen
  have hsettled := settled_of_plain ht hplain.no_link hplain.no_link_beside hplain.no_device_beside
    hdirectory habsolute hsteps
  have hraced := h.raced hpath hparent hfile hdraft (isName_fileName workspace).ne_up
    (draftName_ne_fileName workspace) hsettled
  refine ⟨hraced.store, ?_⟩
  rcases hraced.content with ⟨hnothing, rfl⟩ | hread
  · rw [hnothing, hopen]
    rfl
  · rw [open?_of_readBytes hread, entriesOf_fileText (ascends_snapshot hascends)
      (legible_snapshot hlegible hstored), hpath]

/-- If the update that stored last has written last, the file holds the store. -/
theorem reopened_of_last (ht : t.Grounded) (hopen : open? t directory workspace = .ok s)
    (hlegible : ∀ entry ∈ s.entries, Legible entry.2) (hplain : Plain t directory workspace)
    (hdirectory : ".." ∈ FileTree.steps directory.text → t.isDirectory directory = true)
    (h : Race t s turns t' s' rests) (hstored : ∀ call ∈ storedIn turns, Legible call.2)
    (hlast : known turns = (storedIn turns).length) : open? t' directory workspace = .ok s' := by
  obtain ⟨rfl, hreopened⟩ := race_reopened ht hopen hlegible hplain hdirectory h hstored
  rw [hreopened, hlast, snapshot_all]

/-- **Theorem (updates at the same time).** However the steps of updates are mixed, when all of them
have succeeded, the state file holds the first of the stored values, up to that of the update that
wrote last. So it holds the store exactly if no update that stored later has left a key with another
value. The same is true at every moment before, of the updates that have written by then. -/
theorem reopened_iff_nothing_later (ht : t.Grounded) (hopen : open? t directory workspace = .ok s)
    (hlegible : ∀ entry ∈ s.entries, Legible entry.2) (hplain : Plain t directory workspace)
    (hdirectory : ".." ∈ FileTree.steps directory.text → t.isDirectory directory = true)
    (h : Race t s turns t' s' rests) (hstored : ∀ call ∈ storedIn turns, Legible call.2) :
    s' = ⟨s.path, s.entries.insertAll (storedIn turns)⟩ ∧
      open? t' directory workspace = .ok ⟨s.path, snapshot s turns (known turns)⟩ ∧
      (open? t' directory workspace = .ok s' ↔
        ∀ key ∈ Dict.names ((storedIn turns).drop (known turns)),
          (snapshot s turns (known turns)).find? key = s'.get? key) := by
  obtain ⟨hstore, hreopened⟩ := race_reopened ht hopen hlegible hplain hdirectory h hstored
  have hascends : (snapshot s turns (known turns)).Ascends := ascends_snapshot (of_open? hopen).2
  have hall : s'.entries =
      (snapshot s turns (known turns)).insertAll ((storedIn turns).drop (known turns)) := by
    rw [hstore, snapshot, ← Dict.insertAll_append, List.take_append_drop]
  refine ⟨hstore, hreopened, ?_⟩
  have hentries : open? t' directory workspace = .ok s' ↔
      snapshot s turns (known turns) = s'.entries := by
    rw [hreopened, Except.ok.injEq, hstore, Store.mk.injEq]
    exact ⟨fun hsame => hsame.2, fun hsame => ⟨rfl, hsame⟩⟩
  change _ ↔ ∀ key ∈ _, _ = s'.entries.find? key
  rw [hentries, hall]
  exact hascends.insertAll_eq_iff _

end Opened

/-! ## Two updates -/

/-- A store with one value, and then with another one. -/
def oneStored : Store := freshStore.insert "a" (.int 1)

/-- The store with both values. -/
def bothStored : Store := oneStored.insert "b" (.int 2)

/-- What the two updates have left to write when both have stored. -/
def bothRests : List (Task Store (Except RubyError Unit)) :=
  [flush freshStore.path oneStored.entries, flush oneStored.path bothStored.entries]

/-- Two updates store one after the other, before either of them writes. -/
theorem race_both : Race roomyFiles freshStore [.stores "a" (.int 1), .stores "b" (.int 2)]
    roomyFiles bothStored bothRests := by
  have hboth := (Race.opened (t := roomyFiles) (s := freshStore)).stores "a" (.int 1)
  rw [(segment_update _ _ _).1, (segment_update _ _ _).2] at hboth
  have hboth := hboth.stores "b" (.int 2)
  rw [(segment_update _ _ _).1, (segment_update _ _ _).2] at hboth
  exact hboth

/-- The files when the first of the two updates has written. -/
def oneWritten (t : FileTree) : FileTree :=
  (written freshStore.path oneStored.entries t bothStored).2.2.1

/-- The files when the second of them has written. -/
def bothWritten (t : FileTree) : FileTree :=
  (written oneStored.path bothStored.entries t bothStored).2.2.1

/-- The turns of the two updates, with the order in which they write. -/
def turnsWith (first second : Nat) : List Turn :=
  [.stores "a" (.int 1), .stores "b" (.int 2), .writes first, .writes second]

theorem race_inTime : Race roomyFiles freshStore (turnsWith 0 1)
    (bothWritten (oneWritten roomyFiles)) bothStored bothRests := by
  have hone : bothRests[0]? = some (flush freshStore.path oneStored.entries) := rfl
  have hboth : bothRests[1]? = some (flush oneStored.path bothStored.entries) := rfl
  have hfirst := race_both.writes_of_written hone (by decide) (by decide +kernel)
  have hsecond := hfirst.writes_of_written hboth (by decide) (by decide +kernel)
  unfold bothWritten oneWritten
  exact hsecond

theorem race_late : Race roomyFiles freshStore (turnsWith 1 0)
    (oneWritten (bothWritten roomyFiles)) bothStored bothRests := by
  have hone : bothRests[0]? = some (flush freshStore.path oneStored.entries) := rfl
  have hboth : bothRests[1]? = some (flush oneStored.path bothStored.entries) := rfl
  have hfirst := race_both.writes_of_written hboth (by decide) (by decide +kernel)
  have hsecond := hfirst.writes_of_written hone (by decide) (by decide +kernel)
  unfold bothWritten oneWritten
  exact hsecond

/-- When the updates write in the order in which they have stored, the file holds both values; when
the first one writes last, the second value is missing. -/
theorem found_in_time_and_late :
    open? (bothWritten (oneWritten roomyFiles)) ⟨"/state"⟩ "ws" = .ok bothStored ∧
      open? (oneWritten (bothWritten roomyFiles)) ⟨"/state"⟩ "ws" ≠ .ok bothStored := by
  have hopen : open? roomyFiles ⟨"/state"⟩ "ws" = .ok freshStore := by decide +kernel
  have hplain : Plain roomyFiles ⟨"/state"⟩ "ws" :=
    .of_standing (show _ = none from rfl) (show _ = none from rfl) nofun nofun nofun
  have hup : ".." ∉ FileTree.steps "/state" := by decide +kernel
  have hone : entriesOf (fileText [("", .int 1)]) = [("", .int 1)] := by decide +kernel
  have htwo : entriesOf (fileText [("", .int 2)]) = [("", .int 2)] := by decide +kernel
  have hstored (first second : Nat) :
      ∀ call ∈ storedIn (turnsWith first second), Legible call.2 := by
    intro call hcall
    rcases List.mem_pair.1 hcall with rfl | rfl
    · exact legible_of_name hone
    · exact legible_of_name htwo
  -- the two runs differ only in which of the updates writes last
  have hinTime := reopened_iff_nothing_later grounded_roomyFiles hopen nofun hplain
    (fun hmem => absurd hmem hup) race_inTime (hstored 0 1)
  have hlate := reopened_iff_nothing_later grounded_roomyFiles hopen nofun hplain
    (fun hmem => absurd hmem hup) race_late (hstored 1 0)
  refine ⟨hinTime.2.2.2 ?_, fun hreopened => ?_⟩
  · intro key hkey
    exact absurd hkey List.not_mem_nil
  · have hsame := hlate.2.2.1 hreopened "b" (by decide)
    revert hsame
    decide

/-- An update may be lost: two updates on a store that has just been opened have stored and written,
each of them with success, and the file does not have the value of the second one. -/
theorem not_always_written :
    open? roomyFiles ⟨"/state"⟩ "ws" = .ok freshStore ∧
      Race roomyFiles freshStore (turnsWith 1 0) (oneWritten (bothWritten roomyFiles)) bothStored
        bothRests ∧
      Finished (turnsWith 1 0) ∧
      open? (oneWritten (bothWritten roomyFiles)) ⟨"/state"⟩ "ws" = .ok oneStored ∧
      bothStored.get? "b" = some (.int 2) ∧ oneStored.get? "b" = none := by
  refine ⟨by decide +kernel, race_late, ?_, by decide +kernel, by decide, by decide⟩
  unfold Finished
  decide

end Store

end RubySupervisor
