import RubySupervisor.Proofs.Workspace.Operations

/-!
# Launches and the settings in force

A workspace is meant to launch every server by the settings in force. It does, until an update of
the settings is prevented from starting over: the settings are replaced before anything that can
fail, and the old client stays, so a later restart launches that client again by its old options.
This file states for every history that no other launch is out of date, and where such a client
comes from.

An update of the settings that succeeds is meant to leave a client that is made from them. It does,
unless it glosses over an earlier one: where the settings are already in force it succeeds at once,
although the client that stayed when that update lapsed is made from older ones.
-/

open RubySupervisor.Task

namespace RubySupervisor.Workspace

/-- Every server that an operation launches or initializes, it launches and initializes by the
settings in force at that moment. -/
def Timely (c : WorkspaceContext) (e : Episode Workspace Operation) : Prop :=
  ∀ m call, (e.deed.task c).Moment e.before e.trace m call → call.Conforms (m.options c)

/-- A restart launches or initializes a server for a client, which shows that the options of that
client are not those that the settings in force give. -/
def Relapses (c : WorkspaceContext) (e : Episode Workspace Operation) : Prop :=
  e.deed.restarts = true ∧ ∃ client ∈ e.before.client, ∃ x ∈ e.trace,
    x.call.TellsApart client.context.options (e.before.options c)

instance (c : WorkspaceContext) (e : Episode Workspace Operation) : Decidable (Relapses c e) :=
  inferInstanceAs (Decidable (_ ∧ ∃ client ∈ _, ∃ x ∈ _, Call.TellsApart _ _ _))

/-- A restart of an installed client launches by the options of that client, while the settings stay
as they are. -/
theorem Operation.moment_of_restarts {c : WorkspaceContext} {o : Operation} {w m : Workspace}
    {client : Client} {trace : List Exchange} {call : Call} (hrestarts : o.restarts = true)
    (hclient : w.client = some client) (h : (o.task c).Moment w trace m call) :
    m.options c = w.options c ∧ call.Conforms client.context.options := by
  have hupdate : o.update? c = none := by
    cases hupdate : o.update? c with
    | none => rfl
    | some t => exact absurd (hrestarts.symm.trans (Operation.updates hupdate).2.2) (by decide)
  have hlaunches := Operation.launchesBy hupdate
  have hoptions : o.launchOptions c w = client.context.options := by
    simp [Operation.launchOptions, hrestarts, restartOptions, hclient]
  have hcalls := (hlaunches.ensures w).mono fun _ _ _ h => h.1
  obtain ⟨hsettings, hconforms⟩ := (hlaunches.constant.heeds hcalls).moment h
  rw [hoptions] at hconforms
  exact ⟨by rw [options, options, hsettings], hconforms⟩

/-- Any other operation launches by the settings in force. -/
theorem Operation.heeds {c : WorkspaceContext} {o : Operation} {w : Workspace}
    (h : o.restarts = false ∨ w.client = none) : (o.task c).Heeds (Current c) w := by
  cases hupdate : o.update? c with
  | some t =>
    obtain ⟨hupdates, htask, -⟩ := Operation.updates hupdate
    rw [htask]
    exact (hupdates.heeds w).andThen fun _ _ => trivial
  | none =>
    have hlaunches := Operation.launchesBy hupdate
    have hoptions : o.launchOptions c w = w.options c := by
      rcases h with hother | hnone
      · simp [Operation.launchOptions, hother]
      · unfold Operation.launchOptions
        split <;> simp [restartOptions, hnone]
    have hcalls := (hlaunches.ensures w).mono fun _ _ _ h => h.1
    rw [hoptions] at hcalls
    refine (hlaunches.constant.heeds hcalls).mono fun m call hm => ?_
    rw [Current, options, hm.1]
    exact hm.2

/-- An operation is timely exactly if it does not relapse. -/
theorem timely_iff_of_yields {c : WorkspaceContext} {e : Episode Workspace Operation}
    {w' : Workspace} (hstep : (e.deed.task c).Yields e.before e.trace () w') :
    Timely c e ↔ ¬ Relapses c e := by
  constructor
  · rintro htimely ⟨hrestarts, client, hclient, x, hx, hdiffers⟩
    obtain ⟨m, hmoment⟩ := hstep.exists_moment hx
    obtain ⟨hoptions, hconforms⟩ := Operation.moment_of_restarts hrestarts hclient hmoment
    have hcurrent := htimely m x.call hmoment
    rw [hoptions] at hcurrent
    exact hconforms.iff_not_tellsApart.1 hcurrent hdiffers
  · intro hnot m call hmoment
    -- only a restart with a client launches by options that may be old
    cases hrestarts : e.deed.restarts with
    | false => exact (Operation.heeds (.inl hrestarts)).moment hmoment
    | true =>
      cases hclient : e.before.client with
      | none => exact (Operation.heeds (.inr hclient)).moment hmoment
      | some client =>
        obtain ⟨hoptions, hconforms⟩ := Operation.moment_of_restarts hrestarts hclient hmoment
        obtain ⟨x, hx, rfl⟩ := hmoment.mem
        rw [hoptions]
        exact hconforms.iff_not_tellsApart.2 fun hdiffers =>
          hnot ⟨hrestarts, client, hclient, x, hx, hdiffers⟩

/-- A client that relapses does not agree with the settings in force. -/
theorem Relapses.not_agrees {c : WorkspaceContext} {e : Episode Workspace Operation}
    (h : Relapses c e) : ¬ e.before.Agrees c := by
  obtain ⟨-, client, hclient, x, -, hdiffers⟩ := h
  intro hagrees
  have hsame := hagrees client hclient
  rcases hdiffers with ⟨-, hdiffers⟩ | ⟨-, hdiffers⟩
  · exact hdiffers hsame.terms_eq
  · exact hdiffers hsame.initialization_eq

/-- **Theorem (launches).** In every history of a workspace, an operation launches and initializes all
its servers by the settings in force exactly if it does not relapse. One that relapses launches a
client that stayed when an earlier update of the settings lapsed. -/
theorem timely_iff_no_relapse {c : WorkspaceContext} {settings : Settings} {store : Store}
    {before after : List (Episode Workspace Operation)} {e : Episode Workspace Operation}
    {w : Workspace}
    (h : Lives (Operation.task c) (.fresh settings store) (before ++ e :: after) w) :
    (Timely c e ↔ ¬ Relapses c e) ∧ (Relapses c e → Lingers c before e.before) := by
  obtain ⟨hlives, w', hstep⟩ := h.episode
  refine ⟨timely_iff_of_yields hstep, fun hrelapses => ?_⟩
  exact (agrees_or_lingers hlives).resolve_left hrelapses.not_agrees

/-- Settings that change the environment of Ruby and start the server in debug mode. -/
def debugSettings : Settings :=
  { Settings.default with environment := [("RUBYOPT", "-W0")], debug := true }

/-- A server is started. -/
def launched : List (Episode Workspace Operation) × Workspace × Except RubyError Activation :=
  enact agreeable (Operation.task plainContext) [.deed .start] (.fresh .default .inMemory)
    presentRuby

/-- The server is to run in debug mode, but Ruby is missing; then it is restarted. -/
def relapsed : List (Episode Workspace Operation) × Workspace × Except RubyError Activation :=
  enact agreeable (Operation.task plainContext)
    [.deed (.updateSettings debugSettings), .deed .restart] launched.2.1 (.error .rubyNotOnPath)

theorem lives_launched :
    Lives (Operation.task plainContext) (.fresh .default .inMemory) launched.1 launched.2.1 := by
  rw [launched]
  exact Lives.enact_fresh _ _ _ _ _

theorem lives_relapsed :
    Lives (Operation.task plainContext) (.fresh .default .inMemory) (launched.1 ++ relapsed.1)
      relapsed.2.1 := by
  rw [relapsed]
  exact lives_launched.enact _ _ _

/-- That restart relapses. -/
theorem exists_relapses : ∃ before e after, Relapses plainContext e ∧
    Lives (Operation.task plainContext) (.fresh .default .inMemory) (before ++ e :: after)
      relapsed.2.1 := by
  have hsome : ∃ e ∈ launched.1 ++ relapsed.1, Relapses plainContext e := by decide +kernel
  obtain ⟨e, he, hrelapses⟩ := hsome
  obtain ⟨before, after, hhistory⟩ := List.append_of_mem he
  exact ⟨before, e, after, hrelapses, hhistory ▸ lives_relapsed⟩

/-- That restart launches the client that stayed when the update lapsed. -/
theorem relapsed_lingers : ∃ before e after, Relapses plainContext e ∧
    Lives (Operation.task plainContext) (.fresh .default .inMemory) (before ++ e :: after)
      relapsed.2.1 ∧ Lingers plainContext before e.before := by
  obtain ⟨before, e, after, hrelapses, hlives⟩ := exists_relapses
  exact ⟨before, e, after, hrelapses, hlives, (timely_iff_no_relapse hlives).2 hrelapses⟩

/-- Not every history of a workspace launches its servers by the settings in force. -/
theorem not_always_timely :
    ¬ ∀ (c : WorkspaceContext) (settings : Settings) (store : Store)
      (history : List (Episode Workspace Operation)) (w : Workspace),
      Lives (Operation.task c) (.fresh settings store) history w → ∀ e ∈ history, Timely c e := by
  intro h
  obtain ⟨before, e, after, hrelapses, hlives⟩ := exists_relapses
  obtain ⟨-, w', hstep⟩ := hlives.episode
  exact (timely_iff_of_yields hstep).1 (h _ _ _ _ _ hlives e (by simp)) hrelapses

/-! ## What a successful update promises -/

/-- Updates the settings. What it returns to its caller does not matter to a history. -/
def updating (c : WorkspaceContext) (settings : Settings) : Task Workspace Unit := do
  let _ ← updateSettings c settings

/-- If the update succeeds, the installed client is made from the settings that it was given. -/
def Honest (c : WorkspaceContext) (e : Episode Workspace Settings) : Prop :=
  ∀ w', (updateSettings c e.deed).Yields e.before e.trace (.ok ()) w' →
    ∃ client, w'.client = some client ∧ client.context.options.Same (e.deed.sessionOptions c.root)

/-- The settings of an update are in force already, and the installed client is not made from
them. -/
def Glosses (c : WorkspaceContext) (e : Episode Workspace Settings) : Prop :=
  e.before.settings.same e.deed = true ∧ ¬ e.before.Agrees c

instance (c : WorkspaceContext) (e : Episode Workspace Settings) : Decidable (Glosses c e) :=
  inferInstanceAs (Decidable (_ ∧ _))

/-- An update leaves a client where there was one. -/
theorem Update.isSome_client {c : WorkspaceContext} {settings : Settings} {w w' : Workspace}
    {l : List Exchange} {r : Outcome Unit} (h : Update c settings w l r w')
    (hinstalled : w.client.isSome = true) : w'.client.isSome = true := by
  cases h with
  | same => exact hinstalled
  | idle _ hnone => simp [hnone] at hinstalled
  | renewed _ _ hrenewal =>
    rcases hrenewal.client with ⟨-, hclient⟩ | ⟨-, client, hclient, -⟩
    · rw [hclient]
      exact hinstalled
    · rw [hclient]
      rfl

/-- What an update in a history came to. -/
theorem exists_update {c : WorkspaceContext} {settings : Settings} {w w' : Workspace}
    {trace : List Exchange} (hstep : (updating c settings).Yields w trace () w') :
    ∃ r, (updateSettings c settings).Yields w trace r w' ∧ Update c settings w trace r w' := by
  obtain ⟨r, hyields⟩ := hstep.of_discarded
  exact ⟨r, hyields, (ensures_updateSettings c settings w).yields hyields⟩

/-- Updates leave a client where there was one. -/
theorem isSome_client_of_updates {c : WorkspaceContext} {w w' : Workspace}
    {updates : List (Episode Workspace Settings)} (h : Lives (updating c) w updates w')
    (hinstalled : w.client.isSome = true) : w'.client.isSome = true := by
  induction h with
  | fresh => exact hinstalled
  | step _ hstep ih =>
    obtain ⟨r, -, hupdate⟩ := exists_update hstep
    exact hupdate.isSome_client ih

/-- An update that does not gloss over another is honest. -/
theorem Honest.of_not_glosses {c : WorkspaceContext} {e : Episode Workspace Settings}
    (hinstalled : e.before.client.isSome = true) (hnot : ¬ Glosses c e) : Honest c e := by
  intro w' hyields
  have hupdate := (ensures_updateSettings c e.deed e.before).yields hyields
  generalize e.trace = trace at hupdate
  cases hupdate with
  | same hsame =>
    obtain ⟨client, hclient⟩ := Option.isSome_iff_exists.1 hinstalled
    have hagrees : e.before.Agrees c := Decidable.of_not_not fun hdiffers => hnot ⟨hsame, hdiffers⟩
    exact ⟨client, hclient,
      (hagrees client hclient).trans (Settings.same_sessionOptions hsame c.root)⟩
  | idle _ hnone => simp [hnone] at hinstalled
  | renewed _ _ hrenewal =>
    rcases hrenewal.client with ⟨⟨fault, hfault, -⟩, -⟩ | ⟨-, client, hclient, hmade⟩
    · cases hfault
    · refine ⟨client, hclient, ?_⟩
      rw [hmade]
      exact .refl _

/-- An update that glosses over another succeeds with the old client. -/
theorem Glosses.not_honest {c : WorkspaceContext} {e : Episode Workspace Settings} {w₁ : Workspace}
    (hglosses : Glosses c e) (hstep : (updating c e.deed).Yields e.before e.trace () w₁) :
    ¬ Honest c e := by
  intro hhonest
  obtain ⟨hsame, hdiffers⟩ := hglosses
  obtain ⟨r, hyields, hupdate⟩ := exists_update hstep
  have hpromise := hhonest w₁
  generalize e.trace = trace at hyields hupdate hpromise
  cases hupdate with
  | same =>
    obtain ⟨client, hclient, hoptions⟩ := hpromise hyields
    refine hdiffers fun client' hclient' => ?_
    obtain rfl := Option.some.inj (hclient.symm.trans hclient')
    exact hoptions.trans (Settings.same_sessionOptions hsame c.root).symm
  | idle hchanged => cases hsame.symm.trans hchanged
  | renewed hchanged => cases hsame.symm.trans hchanged

/-- An update as an operation. -/
def operated (e : Episode Workspace Settings) : Episode Workspace Operation :=
  ⟨e.before, .deed (.updateSettings e.deed), e.trace⟩

/-- Updates in a history of operations. -/
theorem lives_operated {c : WorkspaceContext} {start w w' : Workspace}
    {history : List (Episode Workspace Operation)} {updates : List (Episode Workspace Settings)}
    (h : Lives (Operation.task c) start history w) (hupdates : Lives (updating c) w updates w') :
    Lives (Operation.task c) start (history ++ updates.map operated) w' :=
  h.append (hupdates.map (fun settings => Operation.deed (.updateSettings settings)) fun _ => rfl)

/-- **Theorem (honesty).** In every sequence of updates of a workspace with a client, an update is
honest about its success exactly if it does not gloss over another. One that does leaves the client
that stayed when an earlier update of the settings lapsed. -/
theorem honest_iff_not_glosses {c : WorkspaceContext} {settings : Settings} {store : Store}
    {history : List (Episode Workspace Operation)} {w w' : Workspace}
    {before after : List (Episode Workspace Settings)} {e : Episode Workspace Settings}
    (h : Lives (Operation.task c) (.fresh settings store) history w)
    (hinstalled : w.client.isSome = true)
    (hupdates : Lives (updating c) w (before ++ e :: after) w') :
    (Honest c e ↔ ¬ Glosses c e) ∧
      (Glosses c e → Lingers c (history ++ before.map operated) e.before) := by
  obtain ⟨hbefore, w₁, hstep⟩ := hupdates.episode
  refine ⟨⟨fun hhonest hglosses => hglosses.not_honest hstep hhonest, fun hnot => ?_⟩, ?_⟩
  · exact .of_not_glosses (isSome_client_of_updates hbefore hinstalled) hnot
  · exact fun hglosses => (agrees_or_lingers (lives_operated h hbefore)).resolve_left hglosses.2

/-- The server is to run in debug mode, but Ruby is missing; the update is tried again. -/
def retried : List (Episode Workspace Settings) × Workspace × Except RubyError Activation :=
  enact agreeable (updating plainContext) [debugSettings, debugSettings] launched.2.1
    (.error .rubyNotOnPath)

theorem lives_retried : Lives (updating plainContext) launched.2.1 retried.1 retried.2.1 := by
  rw [retried]
  exact Lives.enact_fresh _ _ _ _ _

/-- The second update glosses over the first. -/
theorem exists_glosses : ∃ before e after, Glosses plainContext e ∧
    Lives (updating plainContext) launched.2.1 (before ++ e :: after) retried.2.1 := by
  have hsome : ∃ e ∈ retried.1, Glosses plainContext e := by decide +kernel
  obtain ⟨e, he, hglosses⟩ := hsome
  obtain ⟨before, after, hupdates⟩ := List.append_of_mem he
  exact ⟨before, e, after, hglosses, hupdates ▸ lives_retried⟩

/-- The second update leaves the client that stayed when the first one lapsed. -/
theorem retried_lingers : ∃ before e after, Glosses plainContext e ∧
    Lives (Operation.task plainContext) (.fresh .default .inMemory) launched.1 launched.2.1 ∧
    launched.2.1.client.isSome = true ∧
    Lives (updating plainContext) launched.2.1 (before ++ e :: after) retried.2.1 ∧
    Lingers plainContext (launched.1 ++ before.map operated) e.before := by
  obtain ⟨before, e, after, hglosses, hlives⟩ := exists_glosses
  have hinstalled : launched.2.1.client.isSome = true := by decide +kernel
  exact ⟨before, e, after, hglosses, lives_launched, hinstalled, hlives,
    (honest_iff_not_glosses lives_launched hinstalled hlives).2 hglosses⟩

/-- Not every update of a workspace with a client is honest about its success. -/
theorem not_always_honest :
    ¬ ∀ (c : WorkspaceContext) (settings : Settings) (store : Store)
      (history : List (Episode Workspace Operation)) (w w' : Workspace)
      (updates : List (Episode Workspace Settings)),
      Lives (Operation.task c) (.fresh settings store) history w → w.client.isSome = true →
      Lives (updating c) w updates w' → ∀ e ∈ updates, Honest c e := by
  intro h
  obtain ⟨before, e, after, hglosses, hlives⟩ := exists_glosses
  have hinstalled : launched.2.1.client.isSome = true := by decide +kernel
  obtain ⟨-, w', hstep⟩ := hlives.episode
  exact hglosses.not_honest hstep
    (h _ _ _ _ _ _ _ lives_launched hinstalled hlives e (by simp))

end RubySupervisor.Workspace
