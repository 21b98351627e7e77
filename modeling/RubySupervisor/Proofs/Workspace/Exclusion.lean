import RubySupervisor.Proofs.Host.Trace
import RubySupervisor.Proofs.Workspace.Custody

/-!
# Exclusion of server processes

A workspace is meant to have at most one live server process. It has, until a restart is asked for
while the installed client holds a process and observers are not shown that it runs: the client then
starts the next process beside the old one. This file states that this is the only way in which a
history of a workspace leaves a trace that is not exclusive, and that it is one.
-/

namespace RubySupervisor.Workspace

open Session (Custody)

/-- What a workspace is asked to do, or an event that a transport reports to it. -/
inductive Deed where
  | start
  | stop
  | restart
  | selectRuby
  | updateSettings (settings : Settings)
  | reloadSettings
  | perform (action : Action) (arguments : List Json)
  | reportExtensions (reported : List (String × List String))
  | setExtensionActivated (name : String) (activated : Bool)
  | selectExtensions (chosen : List String)
  | dispose
  | observe (transport : Nat) (event : TransportEvent)

namespace Deed

/-- The task of a deed. What it returns to its caller does not matter to a history. -/
def task (c : WorkspaceContext) : Deed → Task Workspace Unit
  | start => do let _ ← Workspace.start c
  | stop => do let _ ← Workspace.stop
  | restart => Workspace.restart c
  | selectRuby => do let _ ← Workspace.selectRuby c
  | updateSettings settings => do let _ ← Workspace.updateSettings c settings
  | reloadSettings => do let _ ← Workspace.reloadSettings c
  | perform action arguments => do let _ ← Workspace.perform c action arguments
  | reportExtensions reported => Workspace.reportExtensions reported
  | setExtensionActivated name activated => do
    let _ ← Workspace.setExtensionActivated c name activated
  | selectExtensions chosen => do let _ ← Workspace.selectExtensions c chosen
  | dispose => Workspace.dispose
  | observe transport event => Workspace.observe transport event

/-- Whether a deed may restart the server of the installed client. -/
def restarts : Deed → Bool
  | restart => true
  | perform action _ => action = .restart
  | setExtensionActivated .. => true
  | selectExtensions _ => true
  | _ => false

end Deed

/-- What a history says to transports. -/
def log (history : List (Episode Workspace Deed)) : List Exchange :=
  history.flatMap fun e => talk e.trace

/-- A restart that starts a process while the installed client holds one, and observers are not
shown that it runs. -/
def Overruns (e : Episode Workspace Deed) : Prop :=
  e.deed.restarts = true ∧ ¬ e.before.Careful ∧ started (talk e.trace) ≠ []

instance (e : Episode Workspace Deed) : Decidable (Overruns e) :=
  inferInstanceAs (Decidable (_ ∧ ¬ (_ ∨ _) ∧ _))

/-- What a careless task comes to: it says nothing and leaves what is held alone, or it starts a
process while one is live. -/
def Careless (log : List Exchange) (w : Workspace) (l : List Exchange) (w' : Workspace) : Prop :=
  talk l = [] ∧ (Alone log w → Alone log w') ∨ started (talk l) ≠ [] ∧ ¬ Exclusive log (talk l)

/-- A careless restart of a workspace is one of the session of its installed client. -/
theorem ensures_restart_careless {c : WorkspaceContext} {w : Workspace} {log : List Exchange}
    (hledger : Ledger log w) (hcareless : ¬ w.Careful) :
    (restart c).Ensures (fun l _ w' => Careless log w l w') w := by
  rw [Careful, not_or] at hcareless
  obtain ⟨hheld, hstate⟩ := hcareless
  cases hclient : w.client with
  | none => simp [held?, hclient] at hheld
  | some client =>
    rw [held?_eq hclient, Option.map_eq_none_iff] at hheld
    obtain ⟨id, hid⟩ := Option.ne_none_iff_exists'.1 hheld
    have hstate' : w.session.state ≠ .running := by simpa [session, hclient] using hstate
    refine (Task.ensures_bind _ _ _ w).2 ?_
    rw [Task.ensures_get, hclient]
    refine ensures_sessionPart hclient (fun l _ hquiet => ?_)
      ((Session.ensures_restart_careless (hledger.custody hclient) hid hstate').mono
        fun l _ s hrestart => ?_)
    · exact hquiet.imp_left fun h => ⟨h.1, fun halone =>
        (alone_withSession_iff hclient).1 (h.2 halone)⟩
    · rcases hrestart with ⟨htalk, rfl⟩ | hoverrun
      · exact .inl ⟨htalk, (alone_withSession_iff hclient).2⟩
      · exact .inr hoverrun

/-- A silent task on the extensions prepares. -/
theorem prepares_extensionPart {α : Type} {t : Task ExtensionSet α} (h : t.Silent) :
    Prepares (t.within extensionPart) := by
  intro w
  have hpart : extensionPart.Lawful := ⟨fun _ _ => rfl, fun _ _ _ => rfl, fun _ => rfl⟩
  exact (Task.ensures_within hpart _ t w).2 ((h.ensures _).mono fun l a s htalk =>
    ⟨htalk, rfl, rfl, rfl⟩)

/-- A restart behind a change of the extensions guards in a careful workspace. -/
theorem guards_restartIfChanged (c : WorkspaceContext) {t : Task Workspace (Except RubyError Bool)}
    (ht : Prepares t) (w : Workspace) :
    Guards w.Careful (do restartIfChanged c (← t)) w := by
  refine (ht.aside.guards w).bind (R := fun _ w' => w'.client = w.client ∧ w'.state = w.state)
    ((ht w).mono fun l a w' h => ⟨h.2.1, h.2.2.2⟩) fun answer w' hsame => ?_
  have hcareful : w.Careful → w'.Careful := by
    simp only [Careful, held?, hsame.1, hsame.2, imp_self]
  unfold restartIfChanged
  split
  · exact (aside_pure _).guards w'
  · exact (aside_pure _).guards w'
  · have hrestart : Guards w.Careful (restart c) w' := fun log hledger =>
      (guards_restart c w' log hledger).mono fun l a w₁ h => ⟨h.1, fun hc => h.2 (hcareful hc)⟩
    exact hrestart.andThen fun _ w₁ => (aside_pure _).guards w₁

/-- A restart behind a change of the extensions is careless in a careless workspace. -/
theorem ensures_restartIfChanged_careless {c : WorkspaceContext}
    {t : Task Workspace (Except RubyError Bool)} (ht : Prepares t) {w : Workspace}
    {log : List Exchange} (hledger : Ledger log w) (hcareless : ¬ w.Careful) :
    (do restartIfChanged c (← t)).Ensures (fun l _ w' => Careless log w l w') w := by
  refine (Task.ensures_bind _ _ _ w).2 ((ht w).mono fun l answer w' hsame => ?_)
  obtain ⟨htalk, hclient, htransports, hstate⟩ := hsame
  have hcareless' : ¬ w'.Careful := by
    simpa only [Careful, held?, hclient, hstate] using hcareless
  have hquiet : Careless log w l w' := .inl ⟨htalk, fun halone => halone.aside hclient⟩
  unfold restartIfChanged
  split
  · simpa [Careless, htalk] using hquiet
  · simpa [Careless, htalk] using hquiet
  · refine (Task.ensures_bind _ _ _ w').2 ((ensures_restart_careless
      (hledger.aside hclient htransports) hcareless').mono fun l' _ w₁ hrestart => ?_)
    rw [Task.ensures_pure, List.append_nil, Careless, talk_append, htalk, List.nil_append]
    exact hrestart.imp_left fun h => ⟨h.1, fun halone => h.2 (halone.aside hclient)⟩

/-- What a task guards, it guards when its result is dropped. -/
theorem Guards.quiet {α : Type} {condition : Prop} {t : Task Workspace α} {w : Workspace}
    (h : Guards condition t w) : Guards condition (do let _ ← t) w :=
  h.andThen fun _ w' => (aside_pure ()).guards w'

/-- A deed guards in a careful workspace, and one that cannot restart guards in any. -/
theorem guards_deed (c : WorkspaceContext) (deed : Deed) (w : Workspace) :
    Guards (deed.restarts = true → w.Careful) (deed.task c) w := by
  have hweaken {α : Type} {t : Task Workspace α} (h : Guards w.Careful t w) :
      Guards (true = true → w.Careful) t w := fun log hledger =>
    (h log hledger).mono fun l a w' hkept => ⟨hkept.1, fun hcareful => hkept.2 (hcareful rfl)⟩
  cases deed with
  | start => exact (guards_startOver c true _ w).quiet
  | stop => exact (guards_stop _ w).quiet
  | restart => exact hweaken (guards_restart c w)
  | selectRuby => exact (guards_selectRuby c _ w).quiet
  | updateSettings settings => exact (guards_updateSettings c settings _ w).quiet
  | reloadSettings => exact (guards_reloadSettings c _ w).quiet
  | perform action arguments =>
    by_cases haction : action = .restart
    · subst haction
      have hrestart : Guards w.Careful (perform c .restart arguments) w :=
        (guards_restart c w).andThen fun _ w' => (aside_pure _).guards w'
      exact hweaken hrestart.quiet
    · exact (guards_perform c arguments _ w haction).quiet
  | reportExtensions reported =>
    exact Aside.guards (t := reportExtensions reported) (fun _ => ⟨rfl, rfl, rfl⟩) w
  | setExtensionActivated name activated =>
    exact hweaken (guards_restartIfChanged c
      (prepares_extensionPart (ExtensionSet.silent_setActivated _ _)) w).quiet
  | selectExtensions chosen =>
    exact hweaken (guards_restartIfChanged c
      (prepares_extensionPart (ExtensionSet.silent_select _)) w).quiet
  | dispose => exact guards_dispose _ w
  | observe transport event => exact guards_observe transport event _ w

/-- A deed that may restart is careless in a careless workspace. -/
theorem ensures_deed_careless (c : WorkspaceContext) {deed : Deed} {w : Workspace}
    {log : List Exchange} (hledger : Ledger log w) (hrestarts : deed.restarts = true)
    (hcareless : ¬ w.Careful) :
    (deed.task c).Ensures (fun l _ w' => Careless log w l w') w := by
  have hquiet {α : Type} {t : Task Workspace α}
      (h : t.Ensures (fun l _ w' => Careless log w l w') w) :
      (do let _ ← t).Ensures (fun l _ w' => Careless log w l w') w := by
    refine (Task.ensures_bind _ _ _ w).2 (h.mono fun l a w' hcareless => ?_)
    simpa using hcareless
  cases deed with
  | restart => exact ensures_restart_careless hledger hcareless
  | perform action arguments =>
    obtain rfl : action = .restart := by simpa [Deed.restarts] using hrestarts
    have hperform : (perform c .restart arguments).Ensures
        (fun l _ w' => Careless log w l w') w := by
      refine (Task.ensures_bind _ _ _ w).2 ((ensures_restart_careless hledger hcareless).mono
        fun l a w' hcareless => ?_)
      simpa using hcareless
    exact hquiet hperform
  | setExtensionActivated name activated =>
    exact hquiet (ensures_restartIfChanged_careless
      (prepares_extensionPart (ExtensionSet.silent_setActivated _ _)) hledger hcareless)
  | selectExtensions chosen =>
    exact hquiet (ensures_restartIfChanged_careless
      (prepares_extensionPart (ExtensionSet.silent_select _)) hledger hcareless)
  | _ => simp [Deed.restarts] at hrestarts

/-- What one episode adds to the ledger and to what is alone, and what an overrun leaves. -/
theorem episode_step {c : WorkspaceContext} {deed : Deed} {w w' : Workspace}
    {before trace : List Exchange} (hledger : Ledger before w)
    (hstep : (deed.task c).Yields w trace () w') :
    Ledger (before ++ talk trace) w' ∧
      (¬ Overruns ⟨w, deed, trace⟩ → Alone before w → Alone (before ++ talk trace) w') ∧
      (Overruns ⟨w, deed, trace⟩ → ¬ Exclusive before (talk trace)) := by
  obtain ⟨hledger', halone⟩ := (guards_deed c deed w before hledger).yields hstep
  by_cases hcareful : deed.restarts = true → w.Careful
  · exact ⟨hledger', fun _ => halone hcareful, fun hoverrun =>
      absurd (hcareful hoverrun.1) hoverrun.2.1⟩
  · obtain ⟨hrestarts, hcareless⟩ := Classical.not_imp.1 hcareful
    rcases (ensures_deed_careless c hledger hrestarts hcareless).yields hstep with hquiet | hoverrun
    · obtain ⟨htalk, hkept⟩ := hquiet
      refine ⟨hledger', fun _ h => ?_, fun hoverrun => absurd ?_ hoverrun.2.2⟩
      · rw [htalk, List.append_nil]
        exact hkept h
      · exact congrArg started htalk
    · exact ⟨hledger', fun hnot => absurd ⟨hrestarts, hcareless, hoverrun.1⟩ hnot,
        fun _ => hoverrun.2⟩

/-- **Exclusion lemma.** Along every history the ledger is kept; without an overrun the held process
is alone, and an overrun leaves a trace that is not exclusive. -/
theorem audited {c : WorkspaceContext} {settings : Settings} {store : Store}
    {history : List (Episode Workspace Deed)} {w : Workspace}
    (h : Lives (Deed.task c) (.fresh settings store) history w) :
    Ledger (log history) w ∧
      ((∀ e ∈ history, ¬ Overruns e) → Alone (log history) w) ∧
      ((∃ e ∈ history, Overruns e) → ¬ Exclusive [] (log history)) := by
  induction h with
  | fresh =>
    refine ⟨⟨fun client hclient => by simp [Workspace.fresh] at hclient, ?_⟩, fun _ => ?_, ?_⟩
    · simp [log]
    · exact ⟨trivial, fun p hp => by simp [Alive, log] at hp⟩
    · simp
  | @step history w w' deed trace h hstep ih =>
    obtain ⟨hledger, halone, hoverrun⟩ := ih
    obtain ⟨hledger', halone', hoverrun'⟩ := episode_step hledger hstep
    have hlog : log (history ++ [⟨w, deed, trace⟩]) = log history ++ talk trace := by
      simp [log]
    rw [hlog]
    -- the last episode is the one that overruns, or the overrun is already in the log before it
    refine ⟨hledger', fun hnone => ?_, fun hsome hexclusive => ?_⟩
    · exact halone' (hnone _ (by simp)) (halone fun e he => hnone e (by simp [he]))
    · obtain ⟨hbefore, hlast⟩ := exclusive_append.1 hexclusive
      obtain ⟨e, he, heoverruns⟩ := hsome
      rcases List.mem_append.1 he with he | he
      · exact hoverrun ⟨e, he, heoverruns⟩ hbefore
      · obtain rfl := List.mem_singleton.1 he
        exact hoverrun' heoverruns (by simpa using hlast)

/-- **Theorem (exclusion).** Whenever a history of a workspace starts a server process, every one
that it started earlier has been stopped, exactly if no episode of the history is a restart that
starts a process while the installed client holds one and observers are not shown that it runs. -/
theorem exclusive_iff_no_overrun {c : WorkspaceContext} {settings : Settings} {store : Store}
    {history : List (Episode Workspace Deed)} {w : Workspace}
    (h : Lives (Deed.task c) (.fresh settings store) history w) :
    Exclusive [] (log history) ↔ ∀ e ∈ history, ¬ Overruns e := by
  obtain ⟨-, halone, hoverrun⟩ := audited h
  refine ⟨fun hexclusive e he hoverruns => ?_, fun hnone => (halone hnone).exclusive⟩
  exact hoverrun ⟨e, he, hoverruns⟩ hexclusive

/-- A workspace in a folder, on an empty environment. -/
def plainContext : WorkspaceContext :=
  { root := ⟨"/w"⟩, base := .empty, roots := none, globalSettings := none, processId := 1 }

/-- The answer of a Ruby that is there. -/
def presentRuby : Except RubyError Activation :=
  .ok ⟨⟨"/gems"⟩, ⟨"/gems"⟩, "3.4.0", none⟩

/-- A history in which the server is replaced by a restart and by another start. -/
def replacements : List (Episode Workspace Deed) × Workspace × Except RubyError Activation :=
  enact agreeable (Deed.task plainContext) [.start, .restart, .start, .stop]
    (.fresh .default .inMemory) presentRuby

/-- Replacements are a history. -/
theorem lives_replacements :
    Lives (Deed.task plainContext) (.fresh .default .inMemory) replacements.1 replacements.2.1 := by
  rw [replacements]
  exact Lives.enact_fresh _ _ _ _ _

/-- Replacements leave an exclusive trace. -/
theorem exclusive_replacements : Exclusive [] (log replacements.1) := by
  rw [exclusive_iff_no_overrun lives_replacements]
  decide +kernel

/-- A workspace whose server runs. -/
def served : List (Episode Workspace Deed) × Workspace × Except RubyError Activation :=
  enact agreeable (Deed.task plainContext) [.start] (.fresh .default .inMemory) presentRuby

/-- Ruby is missing at a second start, which leaves the server alone and shows an error; a restart
then starts another server beside it. -/
def besideAnother : List (Episode Workspace Deed) × Workspace × Except RubyError Activation :=
  enact agreeable (Deed.task plainContext) [.start, .restart] served.2.1 (.error .rubyNotOnPath)

/-- What happens to the workspace whose server runs is a history. -/
theorem lives_besideAnother :
    Lives (Deed.task plainContext) (.fresh .default .inMemory) (served.1 ++ besideAnother.1)
      besideAnother.2.1 := by
  have hserved :
      Lives (Deed.task plainContext) (.fresh .default .inMemory) served.1 served.2.1 := by
    rw [served]
    exact Lives.enact_fresh _ _ _ _ _
  rw [besideAnother]
  exact hserved.enact _ _ _

/-- Not every history of a workspace is exclusive. -/
theorem not_always_exclusive :
    ¬ ∀ (c : WorkspaceContext) (settings : Settings) (store : Store)
      (history : List (Episode Workspace Deed)) (w : Workspace),
      Lives (Deed.task c) (.fresh settings store) history w → Exclusive [] (log history) := by
  intro h
  have hsome : ∃ e ∈ served.1 ++ besideAnother.1, Overruns e := by decide +kernel
  have haudited := audited lives_besideAnother
  exact haudited.2.2 hsome (h _ _ _ _ _ lives_besideAnother)

end RubySupervisor.Workspace
