import RubySupervisor.Proofs.Host.Trace
import RubySupervisor.Workspace.Activity

/-!
# Silent tasks

Much of what a workspace does concerns files, commands, probes and the user. Such a task is silent:
it makes no call on a transport, whatever it is answered. The store only writes files, the
resolution of Ruby stays with files, the interpreter and the choice of the user, and the server gem
and the set of extensions are silent throughout.
-/

open RubySupervisor.Task

namespace RubySupervisor

/-- Whether a call writes files. -/
def Call.isWriting : Call → Bool
  | makeDirectories _ => true
  | writeFile .. => true
  | renameFile .. => true
  | _ => false

/-- Whether a call concerns files, the interpreter or the choice of the user. -/
def Call.isLocal : Call → Bool
  | files => true
  | probe .. => true
  | chooseInstallation _ => true
  | c => c.isWriting

theorem Call.isLocal_of_isWriting {c : Call} (h : c.isWriting = true) : c.isLocal = true := by
  cases c <;> first | rfl | exact h

theorem Call.isTransport_of_isLocal {c : Call} (h : c.isLocal = true) : c.isTransport = false := by
  cases c <;> first | rfl | cases h

namespace Task

variable {σ α : Type}

/-- A task only writes files. -/
abbrev Writing (t : Task σ α) : Prop := t.Only fun c => c.isWriting = true

/-- A task stays with files, the interpreter and the choice of the user. -/
abbrev Local (t : Task σ α) : Prop := t.Only fun c => c.isLocal = true

/-- A task makes no call on a transport. -/
abbrev Silent (t : Task σ α) : Prop := t.Only fun c => c.isTransport = false

theorem Writing.toLocal {t : Task σ α} (h : t.Writing) : t.Local :=
  h.mono fun _ => Call.isLocal_of_isWriting

theorem Local.silent {t : Task σ α} (h : t.Local) : t.Silent :=
  h.mono fun _ => Call.isTransport_of_isLocal

theorem writing_ask {c : Call} (h : c.isWriting = true) : (ask c : Task σ c.Answer).Writing :=
  only_ask h

theorem local_ask {c : Call} (h : c.isLocal = true) : (ask c : Task σ c.Answer).Local := only_ask h

theorem silent_ask {c : Call} (h : c.isTransport = false) : (ask c : Task σ c.Answer).Silent :=
  only_ask h

/-- A silent task leaves nothing in what is said to transports. -/
theorem Silent.ensures {t : Task σ α} (h : t.Silent) (s : σ) :
    t.Ensures (fun l _ _ => talk l = []) s := by
  induction t generalizing s with
  | done a => exact rfl
  | read next ih => exact ih s (h s) s
  | write t next ih => exact ih h t
  | call c next ih =>
    refine fun answer => (ih answer (h.2 answer) s).mono fun l _ _ htalk => ?_
    simp [h.1, htalk]

end Task

namespace Store

theorem writes_flush {σ : Type} (path : Option Path) (entries : Dict Json) :
    (flush path entries : Task σ _).Writing := by
  unfold flush
  split
  · exact only_pure _
  · have hmade {t : Task σ (Except FileError Unit)} (ht : t.Writing)
        {f : Except FileError Unit → Task σ (Except RubyError Unit)}
        (hf : ∀ made, (f made).Writing) : (t >>= f).Writing := ht.bind hf
    split
    all_goals
      refine hmade (by first | exact writing_ask rfl | exact only_pure _) fun made => ?_
      dsimp only
      split
      · exact only_pure _
      · refine (writing_ask rfl).bind fun written => ?_
        split
        · exact only_pure _
        · refine (writing_ask rfl).bind fun moved => ?_
          split <;> exact only_pure _

theorem writes_update (key : String) (value : Json) : (update key value).Writing :=
  only_get.bind fun _ => (only_put _).bind fun _ => writes_flush _ _

theorem writes_setExtensionActivated (extension : String) (activated : Bool) :
    (setExtensionActivated extension activated).Writing := writes_update _ _

end Store

namespace Resolution

theorem local_remember (version : String) (rubyBin : Path) : (remember version rubyBin).Local :=
  (Store.writes_update _ _).toLocal.bind fun _ => only_pure _

theorem local_fallback (o : ResolutionOptions) (version : Option String) (error : RubyError) :
    (fallback o version error).Local := by
  unfold fallback
  split
  · exact (local_ask rfl).bind fun _ => only_pure _
  · refine (local_ask rfl).bind fun selected => ?_
    split
    · exact only_pure _
    · refine (local_ask rfl).bind fun files => ?_
      split
      · exact (local_remember _ _).bind fun _ => only_pure _
      · exact only_pure _

theorem local_findRubyBin (o : ResolutionOptions) : (findRubyBin o).Local := by
  refine (local_ask rfl).bind fun files => ?_
  split
  · exact only_pure _
  · split
    · exact local_fallback _ _ _
    · refine only_get.bind fun s => ?_
      split
      · exact only_pure _
      · split
        · exact local_fallback _ _ _
        · exact (local_remember _ _).bind fun _ => only_pure _

theorem local_activateWith (o : ResolutionOptions) (rubyBin : Path) :
    (activateWith o rubyBin).Local := by
  refine (local_ask rfl).bind fun answer => ?_
  split
  · exact only_pure _
  · exact (local_ask rfl).bind fun _ => only_pure _

theorem local_activate (o : ResolutionOptions) : (activate o).Local := by
  refine (local_findRubyBin o).bind fun found => ?_
  split
  · exact only_pure _
  · exact local_activateWith _ _

theorem local_changeVersion (o : ResolutionOptions) : (changeVersion o).Local := by
  refine (local_ask rfl).bind fun selected => ?_
  split
  · exact only_pure _
  · refine (local_ask rfl).bind fun files => ?_
    split
    · exact (local_remember _ _).bind fun _ => local_activateWith _ _
    · exact local_activateWith _ _

theorem silent_activate (o : ResolutionOptions) : (activate o).Silent := (local_activate o).silent

theorem silent_changeVersion (o : ResolutionOptions) : (changeVersion o).Silent :=
  (local_changeVersion o).silent

end Resolution

namespace ServerGem

theorem silent_gem {σ : Type} (environment : Dict String) (directory : Path) (verb : String) :
    (gem environment directory verb : Task σ _).Silent :=
  (silent_ask rfl).bind fun _ => only_pure _

theorem writes_recordUpdate (now : Nat) : (recordUpdate now).Writing :=
  (Store.writes_update _ _).bind fun _ => only_pure _

theorem silent_update (environment : Dict String) (directory : Path) (now : Nat) :
    (update environment directory now).Silent := by
  refine (silent_gem _ _ _).bind fun answer => ?_
  split
  · exact (writes_recordUpdate _).toLocal.silent.bind fun _ => only_pure _
  · exact (silent_ask rfl).bind fun _ => only_pure _

theorem silent_installOrUpdate (environment : Dict String) (directory : Path) (now : Nat) :
    (installOrUpdate environment directory now).Silent := by
  refine (silent_gem _ _ _).bind fun listing => ?_
  split
  · exact only_pure _
  · split
    · refine only_get.bind fun s => ?_
      split
      · exact (silent_update _ _ _).bind fun _ => only_pure _
      · exact only_pure _
    · refine (silent_gem _ _ _).bind fun installation => ?_
      split
      · exact only_pure _
      · exact (writes_recordUpdate _).toLocal.silent.bind fun _ => only_pure _

end ServerGem

namespace ExtensionSet

theorem silent_setActivated (name : String) (activated : Bool) :
    (setActivated name activated).Silent := by
  refine only_get.bind fun s => ?_
  split
  · exact only_pure _
  · refine ((Store.writes_setExtensionActivated _ _).toLocal.silent.within _).bind fun answer => ?_
    split
    · exact only_pure _
    · exact (only_change _).bind fun _ => only_pure _

theorem silent_selectFrom (chosen names : List String) : (selectFrom chosen names).Silent := by
  induction names with
  | nil => exact only_pure _
  | cons name rest ih =>
    refine (silent_setActivated _ _).bind fun answer => ?_
    split
    · exact only_pure _
    · refine ih.bind fun later => ?_
      split <;> exact only_pure _

theorem silent_select (chosen : List String) : (select chosen).Silent :=
  only_get.bind fun _ => silent_selectFrom _ _

end ExtensionSet

end RubySupervisor
