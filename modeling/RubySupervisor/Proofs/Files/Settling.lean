import RubySupervisor.Files.Tree
import RubySupervisor.Proofs.Host.Trace
import RubySupervisor.Proofs.Files.Replacing

/-!
# Settled files

Directories are made, files written and files moved by calls on the host. A call that succeeds has
changed the files as it should. One that fails may have been begun: some of the directories are
there, or a file has some other content.

A file and a draft beside it are settled when the file can be replaced by the draft. They stay
settled whatever is tried, and the file keeps its content up to the moment when the draft is moved
into its place.
-/

/-! ## Changes that may fail -/

namespace RubySupervisor

/-- Whether a call is for a change of the files. -/
def Call.ChangesFiles : Call → Prop
  | makeDirectories _ => True
  | writeFile .. => True
  | renameFile .. => True
  | _ => False

namespace FileTree

/-- What an exchange makes of the files. -/
inductive Becomes (t : FileTree) : Exchange → FileTree → Prop where
  | made {p : Path} {t' : FileTree} (h : t.makeDirectories p = .ok t') :
      Becomes t ⟨.makeDirectories p, .ok ()⟩ t'
  | madeInPart {p : Path} {above : List Path} {t' : FileTree} {error : FileError}
      (habove : above <:+ p.ancestors) (h : t.makeUpwards above = .ok t') :
      Becomes t ⟨.makeDirectories p, .error error⟩ t'
  | written {p : Path} {s : String} {t' : FileTree} (h : t.writeBytes p s.toUTF8 = .ok t') :
      Becomes t ⟨.writeFile p s, .ok ()⟩ t'
  | writtenInPart {p : Path} {s : String} {content : ByteArray} {t' : FileTree} {error : FileError}
      (h : t.writeBytes p content = .ok t') : Becomes t ⟨.writeFile p s, .error error⟩ t'
  | unwritten {p : Path} {s : String} {error : FileError} :
      Becomes t ⟨.writeFile p s, .error error⟩ t
  | moved {p q : Path} {t' : FileTree} (h : t.rename p q = .ok t') :
      Becomes t ⟨.renameFile p q, .ok ()⟩ t'
  | unmoved {p q : Path} {error : FileError} : Becomes t ⟨.renameFile p q, .error error⟩ t

/-- What a trace makes of the files, one exchange after the other. -/
inductive Turns : FileTree → List Exchange → FileTree → Prop where
  | nil {t : FileTree} : Turns t [] t
  | cons {t t' t'' : FileTree} {x : Exchange} {l : List Exchange} (h : t.Becomes x t')
      (hrest : Turns t' l t'') : Turns t (x :: l) t''

@[simp] theorem turns_nil {t t' : FileTree} : t.Turns [] t' ↔ t' = t := by
  refine ⟨fun h => ?_, fun h => h ▸ .nil⟩
  cases h
  rfl

@[simp] theorem turns_cons {t t'' : FileTree} {x : Exchange} {l : List Exchange} :
    t.Turns (x :: l) t'' ↔ ∃ t', t.Becomes x t' ∧ t'.Turns l t'' := by
  refine ⟨fun h => ?_, fun ⟨_, h, hrest⟩ => .cons h hrest⟩
  cases h with
  | cons h hrest => exact ⟨_, h, hrest⟩

/-- Files together with what is in the way of the next changes of them, if anything is. -/
abbrev Obstructed := FileTree × List (Option FileError)

/-- A change happens if nothing is in its way and it is possible. -/
def Obstructed.attempt (w : Obstructed) (changed : Except FileError FileTree) :
    Except FileError Unit × Obstructed :=
  match w.2, changed with
  | some error :: later, _ => (.error error, w.1, later)
  | obstacles, .ok t => (.ok (), t, obstacles.tail)
  | obstacles, .error error => (.error error, w.1, obstacles.tail)

/-- A host that changes its files unless something is in the way. -/
def obstructed {σ : Type} : (c : Call) → σ → Obstructed → c.Answer × Obstructed
  | .makeDirectories p, _, w => w.attempt (w.1.makeDirectories p)
  | .writeFile p s, _, w => w.attempt (w.1.writeBytes p s.toUTF8)
  | .renameFile p q, _, w => w.attempt (w.1.rename p q)
  | c, _, w => (agreed (.error .rubyNotOnPath) c, w)

theorem Obstructed.attempt_cases (w : Obstructed) (changed : Except FileError FileTree) :
    (∃ error, (w.attempt changed).1 = .error error ∧ (w.attempt changed).2.1 = w.1) ∨
      (w.attempt changed).1 = .ok () ∧ changed = .ok (w.attempt changed).2.1 := by
  unfold attempt
  split
  · exact .inl ⟨_, rfl, rfl⟩
  · exact .inr ⟨rfl, rfl⟩
  · exact .inl ⟨_, rfl, rfl⟩

theorem becomes_obstructed {σ : Type} {c : Call} (h : c.ChangesFiles) (s : σ) (w : Obstructed) :
    w.1.Becomes ⟨c, (obstructed c s w).1⟩ (obstructed c s w).2.1 := by
  cases c with
  | makeDirectories p =>
    rcases w.attempt_cases (w.1.makeDirectories p) with ⟨error, hanswer, hsame⟩ | ⟨hanswer, hmade⟩
    · simp only [obstructed, hanswer, hsame]
      exact .madeInPart List.nil_suffix rfl
    · simp only [obstructed, hanswer]
      exact .made hmade
  | writeFile p s =>
    rcases w.attempt_cases (w.1.writeBytes p s.toUTF8) with
      ⟨error, hanswer, hsame⟩ | ⟨hanswer, hwritten⟩
    · simp only [obstructed, hanswer, hsame]
      exact .unwritten
    · simp only [obstructed, hanswer]
      exact .written hwritten
  | renameFile p q =>
    rcases w.attempt_cases (w.1.rename p q) with ⟨error, hanswer, hsame⟩ | ⟨hanswer, hmoved⟩
    · simp only [obstructed, hanswer, hsame]
      exact .unmoved
    · simp only [obstructed, hanswer]
      exact .moved hmoved
  | _ => exact h.elim

/-- A run on an obstructed host makes of the files what its trace makes of them. -/
theorem turns_obstructed {σ α : Type} {task : Task σ α} (h : task.Only Call.ChangesFiles) (s : σ)
    (w : Obstructed) :
    w.1.Turns (task.trace obstructed s w) (task.run obstructed s w).2.2.1 := by
  induction task generalizing s w with
  | done a => exact .nil
  | read next ih => exact ih s (h s) s w
  | write s' next ih => exact ih h s' w
  | call c next ih => exact .cons (becomes_obstructed h.1 s w) (ih _ (h.2 _) s _)

end FileTree

/-! ## Files with a draft -/

namespace FileTree

/-- A file can be replaced by one beside it: no link stands for either of them, what is written is
kept, and the way to their directory is open as far as it leads back. -/
structure Settled (t : FileTree) (directory p q : Path) : Prop where
  grounded : t.Grounded
  no_link : ∀ target, ¬ t.Holds p (.link target)
  no_link_beside : ∀ target, ¬ t.Holds q (.link target)
  no_device_beside : ¬ t.Holds q .device
  seat : ".." ∈ steps directory.text → ∃ goal, t.Seat directory goal

section Settled

variable {t t' : FileTree} {directory p q : Path} {name draft : String} {content : ByteArray}

/-- A file with the same under its name has the same content. -/
theorem Within.toOption_readBytes (h : Within p directory name) (hname : name ≠ "..")
    (ht : t.Settled directory p q) (ht' : t'.Settled directory p q)
    (hsame : ∀ entry, entry ≠ .directory → (t'.Holds p entry ↔ t.Holds p entry)) :
    (t'.readBytes p).toOption = (t.readBytes p).toOption := by
  refine Option.ext fun content => ?_
  have hread {t : FileTree} (ht : t.Settled directory p q) :
      (t.readBytes p).toOption = some content ↔
        (∃ executable, t.Holds p (.file content executable)) ∨
          t.Holds p .device ∧ content = .empty := by
    rw [← h.readBytes_eq_ok_iff hname ht.no_link]
    cases t.readBytes p <;> simp [Except.toOption]
  rw [hread ht, hread ht', hsame .device nofun]
  simp only [fun executable => hsame (.file content executable) nofun]

/-- Making the directory leaves everything in its place, also when it fails halfway. -/
theorem Settled.made (ht : t.Settled directory p q) (h : Within p directory name)
    (hdraft : Within q directory draft) (hname : name ≠ "..") {answer : Except FileError Unit}
    (hmade : t.Becomes ⟨.makeDirectories directory, answer⟩ t') :
    t'.Settled directory p q ∧ (t'.readBytes p).toOption = (t.readBytes p).toOption := by
  obtain ⟨above, habove, hmade⟩ : ∃ above, above <:+ directory.ancestors ∧
      t.makeUpwards above = .ok t' := by
    cases hmade with
    | made hmade => exact ⟨_, List.suffix_rfl, hmade⟩
    | madeInPart habove hmade => exact ⟨_, habove, hmade⟩
  have hfile (entry : Entry) (hentry : entry ≠ .directory) : t'.Holds p entry ↔ t.Holds p entry :=
    h.holds_iff_of_makeUpwards ht.grounded habove hmade ht.seat hentry
  have hbeside (entry : Entry) (hentry : entry ≠ .directory) : t'.Holds q entry ↔ t.Holds q entry :=
    hdraft.holds_iff_of_makeUpwards ht.grounded habove hmade ht.seat hentry
  have hgrown := grown_of_makeUpwards ht.grounded hmade
  have ht' : t'.Settled directory p q :=
    { grounded := hgrown.grounded
      no_link := fun target hlink => ht.no_link target ((hfile (.link target) nofun).1 hlink)
      no_link_beside := fun target hlink =>
        ht.no_link_beside target ((hbeside (.link target) nofun).1 hlink)
      no_device_beside := fun hdevice => ht.no_device_beside ((hbeside .device nofun).1 hdevice)
      seat := fun hup => (ht.seat hup).imp fun _ hseat => hseat.mono hgrown.keeps hgrown.origin }
  exact ⟨ht', h.toOption_readBytes hname ht ht' hfile⟩

/-- Writing beside the file leaves it alone. -/
theorem Settled.writeBytes (ht : t.Settled directory p q) (h : Within p directory name)
    (hdraft : Within q directory draft) (hname : name ≠ "..") (hne : draft ≠ name)
    (hwritten : t.writeBytes q content = .ok t') :
    draft ≠ ".." ∧ t'.Settled directory p q ∧
      (t'.readBytes p).toOption = (t.readBytes p).toOption ∧
      ∃ executable, t'.Holds q (.file content executable) := by
  obtain ⟨hup, -⟩ := hdraft.exists_of_writeBytes ht.grounded ht.no_link_beside ht.no_device_beside
    hwritten
  obtain ⟨hgrounded, hseat, ⟨executable, hheld⟩, hsame⟩ :=
    h.written_beside hdraft hname hne ht.grounded ht.no_link_beside ht.no_device_beside hwritten
  have ht' : t'.Settled directory p q :=
    { grounded := hgrounded
      no_link := fun target hlink => ht.no_link target ((hsame _).1 hlink)
      no_link_beside := fun target hlink => nomatch hheld.unique hlink
      no_device_beside := fun hdevice => nomatch hheld.unique hdevice
      seat := fun _ => hseat }
  exact ⟨hup, ht', h.toOption_readBytes hname ht ht' fun entry _ => hsame entry, executable, hheld⟩

/-- Writing beside the file leaves it alone, also when it fails halfway; when it succeeds, the whole
content is there. -/
theorem Settled.written (ht : t.Settled directory p q) (h : Within p directory name)
    (hdraft : Within q directory draft) (hname : name ≠ "..") (hne : draft ≠ name) {s : String}
    {answer : Except FileError Unit} (hwritten : t.Becomes ⟨.writeFile q s, answer⟩ t') :
    t'.Settled directory p q ∧ (t'.readBytes p).toOption = (t.readBytes p).toOption ∧
      (answer = .ok () → draft ≠ ".." ∧ ∃ executable, t'.Holds q (.file s.toUTF8 executable)) := by
  cases hwritten with
  | unwritten => exact ⟨ht, rfl, nofun⟩
  | writtenInPart hwritten =>
    obtain ⟨-, ht', hsame, -⟩ := ht.writeBytes h hdraft hname hne hwritten
    exact ⟨ht', hsame, nofun⟩
  | written hwritten =>
    obtain ⟨hup, ht', hsame, hheld⟩ := ht.writeBytes h hdraft hname hne hwritten
    exact ⟨ht', hsame, fun _ => ⟨hup, hheld⟩⟩

/-- Moving the draft into its place makes it the content of the file. -/
theorem Settled.moved (ht : t.Settled directory p q) (h : Within p directory name)
    (hdraft : Within q directory draft) (hname : name ≠ "..") (hup : draft ≠ "..")
    (hne : draft ≠ name) {executable : Bool} (hheld : t.Holds q (.file content executable))
    (hmoved : t.Becomes ⟨.renameFile q p, .ok ()⟩ t') :
    t'.Settled directory p q ∧ t'.readBytes p = .ok content := by
  cases hmoved with | moved hmoved =>
  obtain ⟨hgrounded, hseat, hplaced, hfree⟩ :=
    h.moved_over hdraft hname hup hne ht.grounded hheld ht.no_link hmoved
  have ht' : t'.Settled directory p q :=
    { grounded := hgrounded
      no_link := fun target hlink => nomatch hplaced.unique hlink
      no_link_beside := fun target => hfree (.link target)
      no_device_beside := hfree .device
      seat := fun _ => hseat }
  exact ⟨ht', (h.readBytes_eq_ok_iff hname ht'.no_link).2 (.inl ⟨executable, hplaced⟩)⟩

/-- Moving the draft into the place of another file leaves the file alone. -/
theorem Settled.moved_past {r : Path} {other : String} (ht : t.Settled directory r q)
    (hfile : t.Settled directory p q) (hother : Within r directory other)
    (h : Within p directory name) (hdraft : Within q directory draft) (hother_up : other ≠ "..")
    (hname : name ≠ "..") (hup : draft ≠ "..") (hne : draft ≠ name) (hdraftne : other ≠ draft)
    (hnamene : other ≠ name) {executable : Bool} (hheld : t.Holds q (.file content executable))
    (hmoved : t.Becomes ⟨.renameFile q p, .ok ()⟩ t') :
    t'.Settled directory r q ∧ (t'.readBytes r).toOption = (t.readBytes r).toOption := by
  have hfile' := (hfile.moved h hdraft hname hup hne hheld hmoved).1
  cases hmoved with | moved hmoved =>
  have hsame (entry : Entry) : t'.Holds r entry ↔ t.Holds r entry :=
    h.holds_iff_of_moved hdraft hother hname hup hother_up hne hdraftne hnamene ht.grounded hheld
      hfile.no_link hmoved
  have ht' : t'.Settled directory r q :=
    { hfile' with no_link := fun target hlink => ht.no_link target ((hsame _).1 hlink) }
  exact ⟨ht', hother.toOption_readBytes hother_up ht ht' fun entry _ => hsame entry⟩

end Settled

end FileTree

end RubySupervisor
