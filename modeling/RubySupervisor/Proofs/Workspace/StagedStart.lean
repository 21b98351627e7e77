import RubySupervisor.Proofs.Workspace.Course

/-!
# Starts in every workspace

Much can have happened in a workspace before it is started: deeds and events, activities of its
user, and whatever else is done with the session of its client. None of it leaves a workspace that
is shown to run without a client, so every start takes its course.
-/

namespace RubySupervisor.Workspace

/-- Whatever happens in a workspace: what it is asked to do and what transports report to it, what
else its user does in it, and anything that is done with the session of the installed client. -/
inductive Happening where
  | deed (deed : Deed)
  | activateRuby
  | runTests (request : TestRunRequest)
  | launchDebuggee (program : String) (configured forced : Dict String)
  | attachDebugger
  | codeLenses (uri : String)
  | converse (conversation : SessionContext → Task Session Unit)

/-- The task of something that happens. -/
def Happening.task (c : WorkspaceContext) : Happening → Task Workspace Unit
  | deed d => d.task c
  | activateRuby => do let _ ← Workspace.activateRuby c
  | runTests request => do let _ ← Workspace.runTests c request
  | launchDebuggee program configured forced => do
    let _ ← Workspace.launchDebuggee c program configured forced
  | attachDebugger => do let _ ← Workspace.attachDebugger c
  | codeLenses uri => do let _ ← Workspace.codeLenses uri
  | converse conversation => withClient () conversation

/-- What prepares leaves a sound workspace sound. -/
theorem Prepares.sound {α : Type} {t : Task Workspace α} (h : Prepares t) {w : Workspace}
    (hsound : w.Sound) : t.Ensures (fun _ _ w' => w'.Sound) w :=
  (h.unchanged w).mono fun _ _ _ hsame => hsound.of_display_eq hsame.2

/-- Whatever is done with the session of the installed client leaves a sound workspace sound. -/
theorem ensures_withClient_sound {α : Type} (absent : α) (present : SessionContext → Task Session α)
    {w : Workspace} (hsound : w.Sound) :
    (withClient absent present).Ensures (fun _ _ w' => w'.Sound) w := by
  refine (Task.ensures_bind _ _ _ w).2 ?_
  rw [Task.ensures_get]
  cases hclient : w.client with
  | none => exact hsound
  | some client =>
    refine ensures_sessionPart hclient (fun _ _ _ => hsound) (Task.ensures_of_yields ?_)
    intro l a s _ hnone
    simp [withSession, hclient] at hnone

theorem prepares_debuggeeEnvironment (c : WorkspaceContext) (configured : Dict String) :
    Prepares (debuggeeEnvironment c configured) := by
  refine (prepares_currentRuby c).bind fun ruby => ?_
  split
  · exact prepares_pure _
  · exact (prepares_ask rfl).bind fun _ => prepares_pure _

theorem prepares_launchDebuggee (c : WorkspaceContext) (program : String)
    (configured forced : Dict String) :
    Prepares (launchDebuggee c program configured forced) := by
  refine (prepares_debuggeeEnvironment c configured).bind fun environment => ?_
  split
  · exact prepares_pure _
  · have hlaunch (environment : Dict String) :
        Prepares (Debuggee.launch program environment c.root) := by
      refine (prepares_ask rfl).bind fun answer => ?_
      split <;> exact prepares_pure _
    exact (hlaunch _).bind fun _ => prepares_pure _

theorem prepares_attachDebugger (c : WorkspaceContext) : Prepares (attachDebugger c) := by
  have hsockets (environment : Dict String) : Prepares (Debuggee.sockets environment c.root) := by
    refine (prepares_ask rfl).bind fun answer => ?_
    split <;> exact prepares_pure _
  have hattach (environment : Dict String) : Prepares (Debuggee.attach environment c.root) := by
    refine (hsockets environment).bind fun sockets => ?_
    split
    · exact prepares_pure _
    · exact prepares_pure _
    · refine (prepares_ask rfl).bind fun chosen => ?_
      split <;> exact prepares_pure _
  refine (prepares_debuggeeEnvironment c []).bind fun environment => ?_
  split
  · exact prepares_pure _
  · exact (hattach _).bind fun _ => prepares_pure _

/-- Whatever happens leaves a sound workspace sound. -/
theorem Sound.happening {c : WorkspaceContext} {happening : Happening} {w w' : Workspace}
    {trace : List Exchange} (h : w.Sound) (hstep : (happening.task c).Yields w trace () w') :
    w'.Sound := by
  have hquiet {α : Type} {t : Task Workspace α} (ht : t.Ensures (fun _ _ w' => w'.Sound) w) :
      (do let _ ← t : Task Workspace Unit).Ensures (fun _ _ w' => w'.Sound) w :=
    (Task.ensures_bind _ _ _ w).2 (ht.mono fun _ _ _ hsound => hsound)
  cases happening with
  | deed d => exact h.deed hstep
  | activateRuby => exact (hquiet ((prepares_activateRuby c).sound h)).yields hstep
  | runTests request => exact (hquiet ((prepares_runTests c request).sound h)).yields hstep
  | launchDebuggee program configured forced =>
    exact (hquiet ((prepares_launchDebuggee c program configured forced).sound h)).yields hstep
  | attachDebugger => exact (hquiet ((prepares_attachDebugger c).sound h)).yields hstep
  | codeLenses uri =>
    have hlenses : (Workspace.codeLenses uri).Ensures (fun _ _ w' => w'.Sound) w := by
      refine (Task.ensures_bind _ _ _ w).2
        ((ensures_withClient_sound _ _ h).mono fun _ answer w' hsound => ?_)
      split <;> exact hsound
    exact (hquiet hlenses).yields hstep
  | converse conversation => exact (ensures_withClient_sound _ _ h).yields hstep

/-- A workspace to which anything happened is sound. -/
theorem sound_of_lives {c : WorkspaceContext} {settings : Settings} {store : Store}
    {history : List (Episode Workspace Happening)} {w : Workspace}
    (h : Lives (Happening.task c) (.fresh settings store) history w) : w.Sound := by
  induction h with
  | fresh => simp [Sound, Workspace.fresh]
  | step _ hstep ih => exact ih.happening hstep

/-- **Theorem (staged start).** In every workspace, whatever happened to it, and whatever a start is
answered, the start takes its course through the stages. -/
theorem start_takes_course {c : WorkspaceContext} {settings : Settings} {store : Store}
    {history : List (Episode Workspace Happening)} {w w' : Workspace}
    (h : Lives (Happening.task c) (.fresh settings store) history w) {l : List Exchange}
    {r : Outcome Unit} (hstart : (start c).Yields w l r w') :
    ∃ activation s, l = activation ++ Stages.trace s ∧ Course c w activation s r w' := by
  obtain ⟨activation, s, rfl, hstaged⟩ :=
    (ensures_start_staged c (sound_of_lives h)).yields hstart
  exact ⟨activation, s, rfl, hstaged.course⟩

/-- A host on which the server gem is listed, and every other command fails. -/
def grudging {σ : Type} (call : Call) (_ : σ) (ruby : Except RubyError Activation) :
    call.Answer × Except RubyError Activation :=
  match call with
  | .run command =>
    if command.gemVerb? = some "list" then (.ok ⟨some 0, "ruby-lsp (0.17.2)", ""⟩, ruby)
    else (.ok ⟨some 1, "", ""⟩, ruby)
  | call => (agreed ruby call, ruby)

/-- A workspace whose server was started on such a host. -/
def begrudged : Workspace :=
  (enact grudging (Happening.task plainContext) [.deed .start] (.fresh .default .inMemory)
    presentRuby).2.1

/-- On such a host the server is replaced by a start that reports a failed update of the gem and a
failed probe, and succeeds. -/
theorem begrudged_start_takes_course :
    let l := (start plainContext).trace grudging begrudged presentRuby
    let result := (start plainContext).run grudging begrudged presentRuby
    result.1.isOk = true ∧
      (l.filterMap Exchange.reported?).map Prod.fst =
        ["gem update ruby-lsp", "perform after start"] ∧
      ∃ activation s, l = activation ++ Stages.trace s ∧
        Course plainContext begrudged activation s result.1 result.2.1 := by
  intro l result
  have hlives : Lives (Happening.task plainContext) (.fresh .default .inMemory)
      (enact grudging (Happening.task plainContext) [.deed .start] (.fresh .default .inMemory)
        presentRuby).1 begrudged := by
    rw [begrudged]
    exact Lives.enact_fresh _ _ _ _ _
  have hrun : result.1.isOk = true ∧ (l.filterMap Exchange.reported?).map Prod.fst =
      ["gem update ruby-lsp", "perform after start"] := by decide +kernel
  exact ⟨hrun.1, hrun.2, start_takes_course hlives (Task.yields_run _ _ _ _)⟩

end RubySupervisor.Workspace
