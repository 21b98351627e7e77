import RubySupervisor.Proofs.Ruby.Respelling
import RubySupervisor.Proofs.Workspace.Renewal

/-!
# Operations and the options of the client

The operations of a workspace are what it is asked to do and what transports report to it. Some
replace the settings, some restart the installed client, and all others launch servers by the
settings in force, if they launch any. The options of the installed client agree with the settings
in force until an update of the settings is prevented from starting over: it then lapses, and the
workspace has new settings and the old client.
-/

open RubySupervisor.Task

namespace RubySupervisor

/-- Options are the same but for the spelling of the gemfile. -/
def SessionOptions.Same (o o' : SessionOptions) : Prop :=
  Settings.samePath o.bundleGemfile o'.bundleGemfile = true ∧
    o = { o' with bundleGemfile := o.bundleGemfile }

instance (o o' : SessionOptions) : Decidable (o.Same o') := inferInstanceAs (Decidable (_ ∧ _))

theorem Settings.isSome_of_samePath {p q : Option Path} (h : samePath p q = true) :
    p.isSome = q.isSome := by
  cases p <;> cases q <;> simp_all [samePath]

namespace SessionOptions

theorem Same.refl (o : SessionOptions) : o.Same o := ⟨Settings.samePath_refl _, rfl⟩

theorem Same.symm {o o' : SessionOptions} (h : o.Same o') : o'.Same o := by
  refine ⟨Settings.samePath_symm h.1, ?_⟩
  rw [h.2]

theorem Same.trans {o o₁ o₂ : SessionOptions} (h : o.Same o₁) (h' : o₁.Same o₂) : o.Same o₂ := by
  refine ⟨Settings.samePath_trans h.1 h'.1, ?_⟩
  rw [h.2, h'.2]

/-- Options that are the same launch a server by the same terms. -/
theorem Same.terms_eq {o o' : SessionOptions} (h : o.Same o') : o.terms = o'.terms := by
  rw [h.2]
  rfl

/-- Options that are the same initialize a server in the same way. -/
theorem Same.initialization_eq {o o' : SessionOptions} (h : o.Same o') :
    o.initialization = o'.initialization := by
  rw [h.2]

end SessionOptions

/-- Settings that are the same give the same options. -/
theorem Settings.same_sessionOptions {s t : Settings} (h : s.same t = true) (root : Path) :
    (s.sessionOptions root).Same (t.sessionOptions root) := by
  simp only [Settings.same, Bool.and_eq_true, decide_eq_true_eq] at h
  obtain ⟨⟨hgemfile, -⟩, hrest⟩ := h
  refine ⟨hgemfile, ?_⟩
  have hbundle := Settings.isSome_of_samePath hgemfile
  rw [hrest]
  simp [Settings.sessionOptions, SessionOptions.withBundleGemfile, SessionOptions.withLaunch,
    SessionOptions.withInitialization, SessionOptions.withRequestTimeout, SessionOptions.ofRoot,
    Settings.launch, Settings.initialization, Settings.enabledFeatures, hbundle]

namespace Workspace

/-- What a workspace is asked to do, or what a transport reports to it. -/
inductive Operation where
  | deed (deed : Deed)
  | activateRuby
  | runTests (request : TestRunRequest)
  | launchDebuggee (program : String) (configured forced : Dict String)
  | attachDebugger
  | codeLenses (uri : String)
  | syntaxTree (uri : String) (range : Option Range)

namespace Operation

/-- The task of an operation. What it returns to its caller does not matter to a history. -/
def task (c : WorkspaceContext) : Operation → Task Workspace Unit
  | deed d => d.task c
  | activateRuby => do let _ ← Workspace.activateRuby c
  | runTests request => do let _ ← Workspace.runTests c request
  | launchDebuggee program configured forced => do
    let _ ← Workspace.launchDebuggee c program configured forced
  | attachDebugger => do let _ ← Workspace.attachDebugger c
  | codeLenses uri => do let _ ← Workspace.codeLenses uri
  | syntaxTree uri range => do let _ ← Workspace.syntaxTree uri range

/-- Whether an operation may restart the server of the installed client. -/
def restarts : Operation → Bool
  | deed d => d.restarts
  | _ => false

/-- The update of the settings that an operation is, if it is one. -/
def update? (c : WorkspaceContext) : Operation → Option (Task Workspace (Outcome Unit))
  | deed (.updateSettings settings) => some (Workspace.updateSettings c settings)
  | deed .reloadSettings => some (Workspace.reloadSettings c)
  | deed (.perform .toggleExperimentalFeatures arguments) =>
    some (Workspace.perform c .toggleExperimentalFeatures arguments)
  | deed (.perform .toggleYjit arguments) => some (Workspace.perform c .toggleYjit arguments)
  | _ => none

end Operation

/-- The options of the installed client are those that the settings in force give. -/
def Agrees (c : WorkspaceContext) (w : Workspace) : Prop :=
  ∀ client ∈ w.client, client.context.options.Same (w.options c)

instance (c : WorkspaceContext) (w : Workspace) : Decidable (Agrees c w) :=
  inferInstanceAs (Decidable (∀ client ∈ w.client, _))

/-- A workspace has a client, and starting over was prevented. -/
def Stays (w : Workspace) (r : Outcome Unit) : Prop :=
  w.client.isSome = true ∧ ∃ fault, r = .error fault ∧ fault.isPreparatory = true

/-- An operation lapses: it updates the settings, and is prevented from replacing the client. -/
def Lapses (c : WorkspaceContext) (e : Episode Workspace Operation) : Prop :=
  ∃ update r w', e.deed.update? c = some update ∧ update.Yields e.before e.trace r w' ∧
    Stays e.before r

/-- An installed client is made from the settings in force, or it was there before. -/
theorem Follows.agrees_or_kept {c : WorkspaceContext} {w w' : Workspace} (h : Follows c w w')
    (hsettings : w'.settings = w.settings) :
    w'.Agrees c ∨ w'.client.map (·.context) = w.client.map (·.context) := by
  have hoptions : w'.options c = w.options c := by rw [options, options, hsettings]
  cases hclient' : w'.client with
  | none => exact .inl fun client' hsome => by cases hclient'.symm.trans hsome
  | some client' =>
    rcases h client' hclient' with hmade | ⟨client, hclient, hcontext⟩
    · refine .inl fun client'' hsome => ?_
      obtain rfl := Option.some.inj (hclient'.symm.trans hsome)
      rw [hmade, hoptions]
      exact .refl _
    · exact .inr (by rw [hclient, Option.map_some, Option.map_some, hcontext])

/-- Clients made alike agree with the same settings alike. -/
theorem Agrees.of_context_eq {c : WorkspaceContext} {w w' : Workspace} (h : w.Agrees c)
    (hsettings : w'.settings = w.settings)
    (hcontext : w'.client.map (·.context) = w.client.map (·.context)) : w'.Agrees c := by
  intro client' hclient'
  rw [hclient', Option.map_some] at hcontext
  obtain ⟨client, hclient, hsame⟩ := Option.map_eq_some_iff.1 hcontext.symm
  rw [options, hsettings, ← hsame]
  exact h client hclient

/-- A task updates the settings: whatever is launched is launched by the settings in force, and the
client agrees with them in the end or is the old one. An old client that agreed with the old settings
stays only where starting over was prevented. -/
structure Updates (c : WorkspaceContext) (t : Task Workspace (Outcome Unit)) : Prop where
  heeds : ∀ w, t.Heeds (Current c) w
  ensures : ∀ w, t.Ensures (fun _ r w' => w'.Agrees c ∨
    w'.client = w.client ∧ (w.Agrees c → Stays w r)) w

/-- With which client an update ends. -/
theorem Update.agrees_or_kept {c : WorkspaceContext} {settings : Settings} {w w' : Workspace}
    {l : List Exchange} {r : Outcome Unit} (h : Update c settings w l r w') :
    w'.Agrees c ∨ w'.client = w.client ∧ (w.Agrees c → Stays w r) := by
  cases h with
  | same hsame =>
    by_cases hagrees : w.Agrees c
    · exact .inl fun client hclient =>
        (hagrees client hclient).trans (Settings.same_sessionOptions hsame c.root)
    · exact .inr ⟨rfl, fun h => absurd h hagrees⟩
  | idle _ hnone => exact .inl fun client hclient => by cases hnone.symm.trans hclient
  | renewed _ hsettings hrenewal =>
    rcases hrenewal.client with ⟨hfault, hclient⟩ | ⟨-, client, hclient, hmade⟩
    · cases hnone : w.client with
      | some client => exact .inr ⟨hclient.trans hnone, fun _ => ⟨by rw [hnone]; rfl, hfault⟩⟩
      | none =>
        exact .inl fun client hsome => by cases (hclient.trans hnone).symm.trans hsome
    · refine .inl fun client' hclient' => ?_
      obtain rfl := Option.some.inj (hclient.symm.trans hclient')
      rw [hmade, options, options, hsettings]
      exact .refl _

theorem updates_updateSettings (c : WorkspaceContext) (settings : Settings) :
    Updates c (updateSettings c settings) where
  heeds w := heeds_updateSettings c settings w
  ensures w := (ensures_updateSettings c settings w).mono fun _ _ _ h => h.agrees_or_kept

theorem updates_reloadSettings (c : WorkspaceContext) : Updates c (reloadSettings c) where
  heeds w := by
    refine Heeds.andThen ⟨Call.conforms_of_isTransport rfl, fun _ => trivial⟩ fun files w' => ?_
    split
    · exact trivial
    · exact (updates_updateSettings c _).heeds w'
  ensures w := by
    simp only [reloadSettings, ensures_bind, ask_eq, ensures_call, ensures_done]
    intro files
    split
    · by_cases hagrees : w.Agrees c
      · exact .inl hagrees
      · exact .inr ⟨rfl, fun h => absurd h hagrees⟩
    · exact (updates_updateSettings c _).ensures w

/-- An operation that updates the settings does so, and drops the outcome. -/
theorem Operation.updates {c : WorkspaceContext} {o : Operation}
    {t : Task Workspace (Outcome Unit)} (h : o.update? c = some t) :
    Updates c t ∧ o.task c = (do let _ ← t) ∧ o.restarts = false := by
  have htoggled (change : Settings → Settings) : Updates c (do
      let w : Workspace ← Task.get
      updateSettings c (change w.settings)) :=
    ⟨fun w => (updates_updateSettings c (change w.settings)).heeds w,
      fun w => (updates_updateSettings c (change w.settings)).ensures w⟩
  unfold update? at h
  split at h
  all_goals cases h
  · exact ⟨updates_updateSettings c _, rfl, rfl⟩
  · exact ⟨updates_reloadSettings c, rfl, rfl⟩
  · exact ⟨htoggled fun s => { s with experimental := !s.experimental }, rfl, rfl⟩
  · exact ⟨htoggled fun s => { s with yjit := !s.yjit }, rfl, rfl⟩

/-- The options by which an operation that does not update the settings launches servers. -/
def Operation.launchOptions (c : WorkspaceContext) (o : Operation) : Workspace → SessionOptions :=
  if o.restarts then restartOptions c else options c

/-- Every action that does not update the settings launches servers in that way. -/
theorem launchesBy_perform (c : WorkspaceContext) (action : Action) (arguments : List Json)
    (h : (Operation.deed (.perform action arguments)).update? c = none) :
    LaunchesBy c (Operation.launchOptions c (.deed (.perform action arguments)))
      (perform c action arguments) := by
  cases action with
  | start => exact (renews_startOver c true).launchesBy
  | stop => exact idle_stop c _
  | restart => exact (launchesBy_restart c).map _
  | update =>
    exact ((prepares_installServer c).idle (constant_installServer c)).bind
      (fun _ => idle_pure _) _
  | toggleExperimentalFeatures => cases h
  | toggleYjit => cases h
  | runTest =>
    simp only [perform]
    split
    · exact ((prepares_runTest c _).idle (constant_runTest c _)).bind (fun _ => idle_pure _) _
    · exact ((prepares_runTests c _).idle (constant_runTests c _)).bind (fun _ => idle_pure _) _
  | runTestInTerminal =>
    simp only [perform]
    split
    · exact ((prepares_runTestInTerminal c _).idle (constant_runTestInTerminal c _)).bind
        (fun _ => idle_pure _) _
    · exact idle_pure _ _
  | _ => exact idle_pure _ _

/-- A change of anything but the settings, the client and the transports launches nothing. -/
theorem idle_change {c : WorkspaceContext} {f : Workspace → Workspace}
    (hsettings : ∀ w, (f w).settings = w.settings)
    (haside : ∀ w, (f w).client = w.client ∧ (f w).transports = w.transports) :
    Idle c (Task.change f) := by
  have hchange : Aside (Task.change f) := fun w => (ensures_change _ f w).2 ⟨rfl, haside w⟩
  exact hchange.idle (steady_change hsettings)

theorem idle_codeLenses (c : WorkspaceContext) (uri : String) : Idle c (codeLenses uri) := by
  refine (idle_withClient fun o c => Session.conforming_codeLenses o c uri).bind fun answer => ?_
  split
  · exact idle_pure _
  · exact idle_pure _
  · refine (idle_change ?_ ?_).bind fun _ => idle_pure _
    · exact fun _ => rfl
    · exact fun _ => ⟨rfl, rfl⟩

theorem idle_observe (c : WorkspaceContext) (transport : Nat) (event : TransportEvent) :
    Idle c (observe transport event) := by
  refine idle_withClient fun o c => ?_
  split
  · exact Session.conforming_observe o c event
  · exact only_pure _

/-- Every operation that does not update the settings launches servers in that way. -/
theorem Operation.launchesBy {c : WorkspaceContext} {o : Operation} (h : o.update? c = none) :
    LaunchesBy c (o.launchOptions c) (o.task c) := by
  have hquiet {α : Type} {t : Task Workspace α} (ht : Idle c t) {o : Workspace → SessionOptions} :
      LaunchesBy c o (do let _ ← t) := (ht o).map _
  cases o with
  | deed d =>
    cases d with
    | start => exact (renews_startOver c true).launchesBy.map _
    | stop => exact hquiet (idle_stop c)
    | restart => exact launchesBy_restart c
    | selectRuby => exact (renews_selectRuby c).launchesBy.map _
    | updateSettings settings => cases h
    | reloadSettings => cases h
    | perform action arguments => exact (launchesBy_perform c action arguments h).map _
    | reportExtensions reported =>
      refine idle_change ?_ ?_ _
      · exact fun _ => rfl
      · exact fun _ => ⟨rfl, rfl⟩
    | setExtensionActivated name activated =>
      have hset := prepares_extensionPart (ExtensionSet.silent_setActivated name activated)
      exact (launchesBy_restartIfChanged c hset.aside (constant_extensionPart _)).map _
    | selectExtensions chosen =>
      have hselect := prepares_extensionPart (ExtensionSet.silent_select chosen)
      exact (launchesBy_restartIfChanged c hselect.aside (constant_extensionPart _)).map _
    | dispose => exact idle_dispose c _
    | observe transport event => exact idle_observe c transport event _
  | activateRuby => exact hquiet ((prepares_activateRuby c).idle (constant_activateRuby c))
  | runTests request => exact hquiet ((prepares_runTests c request).idle (constant_runTests c request))
  | launchDebuggee program configured forced =>
    exact hquiet ((prepares_launchDebuggee c program configured forced).idle
      (constant_launchDebuggee c program configured forced))
  | attachDebugger => exact hquiet ((prepares_attachDebugger c).idle (constant_attachDebugger c))
  | codeLenses uri => exact hquiet (idle_codeLenses c uri)
  | syntaxTree uri range =>
    have htree : Idle c (Workspace.syntaxTree uri range) :=
      (idle_withClient fun o c => Session.conforming_syntaxTree o c uri range).bind
        fun _ => idle_pure _
    exact hquiet htree

/-- Behind an operation the client agrees with the settings in force or is the old one. An old
client that agreed with the old settings stays only where the operation lapses. -/
theorem Operation.agrees_or_kept {c : WorkspaceContext} {o : Operation} {w w' : Workspace}
    {trace : List Exchange} (hstep : (o.task c).Yields w trace () w') :
    w'.Agrees c ∨ w'.client.map (·.context) = w.client.map (·.context) ∧
      (w.Agrees c → Lapses c ⟨w, o, trace⟩) := by
  cases hupdate : o.update? c with
  | none =>
    have hlaunches := Operation.launchesBy hupdate
    have hsettings := (hlaunches.constant.ensures w).yields hstep
    rcases ((hlaunches.ensures w).yields hstep).2.agrees_or_kept hsettings with hagrees | hkept
    · exact .inl hagrees
    -- a client that did not agree before is not claimed to agree now
    · by_cases hagrees : w.Agrees c
      · exact .inl (hagrees.of_context_eq hsettings hkept)
      · exact .inr ⟨hkept, fun h => absurd h hagrees⟩
  | some t =>
    obtain ⟨hupdates, htask, -⟩ := Operation.updates hupdate
    rw [htask] at hstep
    obtain ⟨r, hyields⟩ := hstep.of_discarded
    rcases (hupdates.ensures w).yields hyields with hagrees | ⟨hclient, hstays⟩
    · exact .inl hagrees
    · exact .inr ⟨by rw [hclient], fun hagrees => ⟨t, r, w', hupdate, hyields, hstays hagrees⟩⟩

/-- The installed client is one that stayed when an update of the settings lapsed. -/
def Lingers (c : WorkspaceContext) (history : List (Episode Workspace Operation))
    (w : Workspace) : Prop :=
  ∃ e ∈ history, Lapses c e ∧ w.client.map (·.context) = e.before.client.map (·.context)

/-- Behind every history the client agrees with the settings in force, or it lingers. -/
theorem agrees_or_lingers {c : WorkspaceContext} {settings : Settings} {store : Store}
    {history : List (Episode Workspace Operation)} {w : Workspace}
    (h : Lives (Operation.task c) (.fresh settings store) history w) :
    w.Agrees c ∨ Lingers c history w := by
  induction h with
  | fresh => exact .inl fun client hclient => by cases hclient
  | step _ hstep ih =>
    rcases Operation.agrees_or_kept hstep with hagrees | ⟨hkept, hlapses⟩
    · exact .inl hagrees
    · refine .inr ?_
      rcases ih with hagrees | ⟨e, he, hlapsed, hcontext⟩
      · exact ⟨_, by simp, hlapses hagrees, hkept⟩
      · exact ⟨e, by simp [he], hlapsed, hkept.trans hcontext⟩

end Workspace

end RubySupervisor
