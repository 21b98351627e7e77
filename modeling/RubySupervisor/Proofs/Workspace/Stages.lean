import RubySupervisor.Proofs.Session.Speech
import RubySupervisor.Proofs.Workspace.Custody

/-!
# The stages of a start

A start goes through stages, each with calls of its own kind: the activation of Ruby, the creation
of a directory, the care for the server gem, the release of the old client, the opening of the new
one and the probes behind it. What each stage calls and how it ends is said once here, with every
way in which a start may end.
-/

namespace RubySupervisor

namespace ServerGem

/-- A run of the gem tool about the server gem. -/
def ran (environment : Dict String) (directory : Path) (verb : String)
    (answer : Except ServerError CommandOutput) : Exchange :=
  ⟨.run (gemCommand environment directory verb), answer⟩

theorem ran_inj {environment : Dict String} {directory : Path} {verb verb' : String}
    {answer answer' : Except ServerError CommandOutput} :
    ran environment directory verb answer = ran environment directory verb' answer' ↔
      verb = verb' ∧ answer = answer' := by
  constructor
  · intro h
    simp only [ran, Exchange.mk.injEq, Call.run.injEq, gemCommand, Command.mk.injEq] at h
    obtain ⟨⟨-, hverb, -⟩, hanswer⟩ := h
    exact ⟨by simpa using hverb, eq_of_heq hanswer⟩
  · rintro ⟨rfl, rfl⟩
    rfl

/-- Runs of the gem tool write no files. -/
theorem ran_not_mem_of_writing {environment : Dict String} {directory : Path} {verb : String}
    {answer : Except ServerError CommandOutput} {writing : List Exchange}
    (h : ∀ x ∈ writing, x.call.isWriting = true) :
    ran environment directory verb answer ∉ writing := fun hmem => by
  simpa [ran, Call.isWriting] using h _ hmem

/-- What an answer of the gem tool comes to. -/
def verdict (environment : Dict String) (directory : Path) (verb : String)
    (answer : Except ServerError CommandOutput) : Except ServerError CommandOutput :=
  (gemCommand environment directory verb).checked answer

/-- How the server gem is set up: it is listed first, and then installed where it is missing and
updated where an update is due. A failed update is reported and counts as a success. -/
inductive SetUp (environment : Dict String) (directory : Path) (s : Store) (now : Nat) :
    List Exchange → Except WorkspaceError GemOutcome → Prop where
  | unlisted {listing : Except ServerError CommandOutput} {error : ServerError}
      (hlisting : verdict environment directory "list" listing = .error error) :
      SetUp environment directory s now [ran environment directory "list" listing]
        (.error (.install error))
  | upToDate {listing : Except ServerError CommandOutput} {output : CommandOutput}
      (hlisting : verdict environment directory "list" listing = .ok output)
      (hlisted : isListed output = true) (hdue : updateDue s now = false) :
      SetUp environment directory s now [ran environment directory "list" listing]
        (.ok .upToDate)
  | updated {listing update : Except ServerError CommandOutput} {output updated : CommandOutput}
      {writing : List Exchange}
      (hlisting : verdict environment directory "list" listing = .ok output)
      (hlisted : isListed output = true) (hdue : updateDue s now = true)
      (hupdate : verdict environment directory "update" update = .ok updated)
      (hwriting : ∀ x ∈ writing, x.call.isWriting = true) :
      SetUp environment directory s now
        (ran environment directory "list" listing :: ran environment directory "update" update ::
          writing) (.ok .updated)
  | updateFailed {listing update : Except ServerError CommandOutput} {output : CommandOutput}
      {error : ServerError} (hlisting : verdict environment directory "list" listing = .ok output)
      (hlisted : isListed output = true) (hdue : updateDue s now = true)
      (hupdate : verdict environment directory "update" update = .error error) :
      SetUp environment directory s now
        [ran environment directory "list" listing, ran environment directory "update" update,
          ⟨.telemetry (.backgroundFailure "gem update ruby-lsp" error.message), ()⟩]
        (.ok .updateFailed)
  | installed {listing install : Except ServerError CommandOutput}
      {output installed : CommandOutput} {writing : List Exchange}
      (hlisting : verdict environment directory "list" listing = .ok output)
      (hlisted : isListed output = false)
      (hinstall : verdict environment directory "install" install = .ok installed)
      (hwriting : ∀ x ∈ writing, x.call.isWriting = true) :
      SetUp environment directory s now
        (ran environment directory "list" listing :: ran environment directory "install" install ::
          writing) (.ok .installed)
  | notInstalled {listing install : Except ServerError CommandOutput} {output : CommandOutput}
      {error : ServerError} (hlisting : verdict environment directory "list" listing = .ok output)
      (hlisted : isListed output = false)
      (hinstall : verdict environment directory "install" install = .error error) :
      SetUp environment directory s now
        [ran environment directory "list" listing, ran environment directory "install" install]
        (.error (.install error))

/-- The time is recorded by writing files. -/
theorem ensures_recordUpdate (now : Nat) (s : Store) :
    (recordUpdate now).Ensures (fun l _ _ => ∀ x ∈ l, x.call.isWriting = true) s :=
  Task.ensures_of_yields fun _ _ _ hyields => (writes_recordUpdate now).yields hyields

/-- The server gem is set up in one of these ways. -/
theorem ensures_installOrUpdate (environment : Dict String) (directory : Path) (now : Nat)
    (s : Store) :
    (installOrUpdate environment directory now).Ensures
      (fun l r _ => SetUp environment directory s now l r) s := by
  simp only [installOrUpdate, gem, Task.ensures_bind, Task.ask_eq, Task.ensures_call,
    Task.ensures_done, Task.ensures_pure]
  intro listing
  split
  · rename_i error hlisting
    exact .unlisted hlisting
  · rename_i output hlisting
    split
    · rename_i hlisted
      simp only [Task.ensures_bind, Task.ensures_get]
      split
      · rename_i hdue
        simp only [update, gem, Task.ensures_bind, Task.ask_eq, Task.ensures_call,
          Task.ensures_done, Task.ensures_pure]
        intro update
        split
        · rename_i updated hupdate
          rw [Task.ensures_bind]
          refine (ensures_recordUpdate now s).mono fun writing _ s' hwriting => ?_
          simpa [ran] using SetUp.updated hlisting hlisted hdue hupdate hwriting
        · rename_i error hupdate
          exact fun _ => .updateFailed hlisting hlisted hdue hupdate
      · rename_i hdue
        exact .upToDate hlisting hlisted (by simpa using hdue)
    · rename_i hlisted
      simp only [Task.ensures_bind, Task.ensures_call, Task.ensures_done, Task.ensures_pure]
      intro install
      split
      · rename_i error hinstall
        exact .notInstalled hlisting (by simpa using hlisted) hinstall
      · rename_i installed hinstall
        rw [Task.ensures_bind]
        refine (ensures_recordUpdate now s).mono fun writing _ s' hwriting => ?_
        simpa [ran] using SetUp.installed hlisting (by simpa using hlisted) hinstall hwriting

end ServerGem

namespace Workspace

/-- The exchanges of the stages behind the activation, in their order. -/
structure Stages where
  creation : List Exchange
  gems : List Exchange
  release : List Exchange
  opening : List Exchange
  probing : List Exchange

namespace Stages

/-- The stages of a start that ended before them. -/
def none : Stages := ⟨[], [], [], [], []⟩

/-- The trace of the stages. -/
def trace (s : Stages) : List Exchange :=
  s.creation ++ s.gems ++ s.release ++ s.opening ++ s.probing

end Stages

/-- How the server gem is cared for: not at all under a configured bundle, and at the present time
otherwise. -/
inductive Managed (c : WorkspaceContext) (environment : RuntimeEnvironment) (w : Workspace) :
    List Exchange → Outcome (Option GemOutcome) → Prop where
  | bundled (h : w.settings.bundleGemfile.isSome = true) : Managed c environment w [] (.ok none)
  | own {now : Int} {l : List Exchange} {r : Outcome GemOutcome}
      (hown : w.settings.bundleGemfile.isSome = false)
      (h : ServerGem.SetUp environment.bindings c.root w.store (ServerGem.sinceEpoch now) l r) :
      Managed c environment w (⟨.now, now⟩ :: l) (r.map some)

/-- Where the care for the gem fails, its set-up does. -/
theorem Managed.of_error {c : WorkspaceContext} {environment : RuntimeEnvironment}
    {w : Workspace} {l : List Exchange} {error : WorkspaceError}
    (h : Managed c environment w l (.error error)) : ∃ now rest, l = ⟨.now, now⟩ :: rest ∧
      ServerGem.SetUp environment.bindings c.root w.store (ServerGem.sinceEpoch now) rest
        (.error error) := by
  generalize hr : (Except.error error : Outcome (Option GemOutcome)) = r at h
  cases h with
  | bundled => cases hr
  | @own now rest r _ h =>
    cases r with
    | ok outcome => simp [Except.map] at hr
    | error fault =>
      obtain rfl : error = fault := by simpa [Except.map] using hr
      exact ⟨now, rest, rfl, h⟩

/-- Where the care for the gem succeeds, its set-up does, if there is one. -/
theorem Managed.of_ok {c : WorkspaceContext} {environment : RuntimeEnvironment}
    {w : Workspace} {l : List Exchange} {outcome : Option GemOutcome}
    (h : Managed c environment w l (.ok outcome)) : l = [] ∨
      ∃ now rest outcome, l = ⟨.now, now⟩ :: rest ∧
        ServerGem.SetUp environment.bindings c.root w.store (ServerGem.sinceEpoch now) rest
          (.ok outcome) := by
  generalize hr : (Except.ok outcome : Outcome (Option GemOutcome)) = r at h
  cases h with
  | bundled => exact .inl rfl
  | @own now rest r _ h =>
    cases r with
    | error fault => simp [Except.map] at hr
    | ok outcome => exact .inr ⟨now, rest, outcome, rfl, h⟩

/-- How the old client is released: nothing is called where it holds no process, and its process is
taken leave of where it holds one. -/
inductive Released (w : Workspace) : List Exchange → Prop where
  | idle (h : w.held? = none) : Released w []
  | left {client : Client} {id : ServerId} {request : RequestId} {l : List Exchange}
      {shutdown : Except ServerError Response} {exit stopped : Except ServerError Unit}
      (hclient : w.client = some client) (hid : client.session.current = some id)
      (htalk : talk l = Session.farewell client.context id request shutdown exit stopped)
      (hspeech : ∀ x ∈ l, x.call.isSpeech = true) : Released w l

/-- How the old client is released depends on that client alone. -/
theorem Released.congr {w w' : Workspace} {l : List Exchange} (h : Released w l)
    (hclient : w'.client = w.client) : Released w' l := by
  cases h with
  | idle hheld => exact .idle (by rwa [held?, hclient])
  | left hold hid htalk hspeech => exact .left (hclient.trans hold) hid htalk hspeech

/-- How the new client is opened: its session, which has not started anything, starts its first
process. -/
def Opens (c : SessionContext) (l : List Exchange) (r : Except ServerError Unit) : Prop :=
  (∃ state s, Session.Started c (.fresh state) (talk l) r s) ∧ ∀ x ∈ l, x.call.isSpeech = true

/-- How the new server is probed: a failure is reported. -/
inductive Probes (c : SessionContext) : List Exchange → Prop where
  | answered {l : List Exchange} (h : Session.Probed c l (.ok ())) : Probes c l
  | failed {l : List Exchange} {error : ServerError} (h : Session.Probed c l (.error error)) :
      Probes c (l ++ [⟨.telemetry (.backgroundFailure "perform after start" error.message), ()⟩])

/-- How a start goes on with an active Ruby. -/
inductive Proceeds (c : WorkspaceContext) (environment : RuntimeEnvironment) (w : Workspace) :
    Stages → Outcome Unit → Workspace → Prop where
  /-- The directory of the server could not be created. -/
  | notWritable {fault : FileError} :
      Proceeds c environment w
        { Stages.none with
          creation := [⟨.makeDirectories (c.root.join ".ruby-lsp"), .error fault⟩] }
        (.error (.notWritable c.root)) { w with state := .error }
  /-- The server gem could not be set up. -/
  | unmanaged {gems : List Exchange} {error : WorkspaceError} {store : Store}
      (hgems : Managed c environment w gems (.error error)) :
      Proceeds c environment w
        { Stages.none with
          creation := [⟨.makeDirectories (c.root.join ".ruby-lsp"), .ok ()⟩]
          gems }
        (.error error) { w with store, state := .error }
  /-- The new server could not be started. -/
  | refused {gems release opening : List Exchange} {outcome : Option GemOutcome}
      {error : ServerError} {w' : Workspace} (hgems : Managed c environment w gems (.ok outcome))
      (hrelease : Released w release)
      (hopening : Opens (sessionContext c w environment) opening (.error error))
      (hstate : w'.state = .error) (hheld : w'.held? = none) :
      Proceeds c environment w
        { creation := [⟨.makeDirectories (c.root.join ".ruby-lsp"), .ok ()⟩]
          gems
          release
          opening
          probing := [] }
        (.error (.server error)) w'
  /-- The new server runs. -/
  | running {gems release opening probing : List Exchange} {outcome : Option GemOutcome}
      {w' : Workspace} (hgems : Managed c environment w gems (.ok outcome))
      (hrelease : Released w release)
      (hopening : Opens (sessionContext c w environment) opening (.ok ()))
      (hprobing : Probes (sessionContext c w environment) probing)
      (hstate : w'.state = .running) (hheld : w'.held?.isSome = true) :
      Proceeds c environment w
        { creation := [⟨.makeDirectories (c.root.join ".ruby-lsp"), .ok ()⟩]
          gems
          release
          opening
          probing }
        (.ok ()) w'

/-- How Ruby is activated: the resolution has its way with the files, and its answer is recorded. -/
def Activates (c : WorkspaceContext) (w : Workspace) (l : List Exchange)
    (answer : Except RubyError RuntimeEnvironment) (w' : Workspace) : Prop :=
  ∃ store, (Resolution.activate (resolutionOptions c w)).Yields w.store l answer store ∧
    w' = { w with
      store
      ruby := match answer with
        | .ok environment => .active environment
        | .error error => .failed error }

/-- How a start goes: the activation comes first, and nothing else comes where it fails. -/
inductive Staged (c : WorkspaceContext) (w : Workspace) :
    List Exchange → Stages → Outcome Unit → Workspace → Prop where
  | unactivated {activation : List Exchange} {error : RubyError} {w₁ : Workspace}
      (h : Activates c w activation (.error error) w₁) :
      Staged c w activation .none (.error (.ruby error)) { w₁ with state := .error }
  | activated {activation : List Exchange} {environment : RuntimeEnvironment} {s : Stages}
      {r : Outcome Unit} {w₁ w' : Workspace} (h : Activates c w activation (.ok environment) w₁)
      (hrest : Proceeds c environment w₁ s r w') : Staged c w activation s r w'

/-- The server gem is cared for in one of these ways, and only the store changes. -/
theorem ensures_manageServerGem (c : WorkspaceContext) (environment : RuntimeEnvironment)
    (w : Workspace) :
    (manageServerGem c environment).Ensures (fun l r w' =>
      Managed c environment w l r ∧ ∃ store, w' = { w with store }) w := by
  simp only [manageServerGem, Task.ensures_bind, Task.ensures_get]
  split
  · rename_i hbundle
    exact ⟨.bundled hbundle, w.store, rfl⟩
  · rename_i hbundle
    simp only [Task.ensures_bind, Task.ask_eq, Task.ensures_call, Task.ensures_done]
    intro now
    refine (Task.ensures_within storePart_lawful _ _ w).2
      ((ServerGem.ensures_installOrUpdate _ _ _ _).mono fun l r store hsetUp => ?_)
    have hmanaged := Managed.own (c := c) (by simpa using hbundle) hsetUp
    split
    · exact ⟨by simpa [Except.map] using hmanaged, store, rfl⟩
    · exact ⟨by simpa [Except.map] using hmanaged, store, rfl⟩

/-- Ruby is activated in this way. -/
theorem ensures_activateRuby (c : WorkspaceContext) (w : Workspace) :
    (activateRuby c).Ensures (fun l r w' =>
      (∃ error, Activates c w l (.error error) w' ∧ r = .error (.ruby error)) ∨
        ∃ environment, Activates c w l (.ok environment) w' ∧ r = .ok environment) w := by
  simp only [activateRuby, Task.ensures_bind, Task.ensures_get]
  refine (Task.ensures_within storePart_lawful _ _ w).2
    (Task.ensures_of_yields fun l answer store hyields => ?_)
  have hyields : (Resolution.activate (resolutionOptions c w)).Yields w.store l answer store :=
    hyields
  cases answer with
  | error error => exact .inl ⟨error, ⟨store, by simpa using hyields, rfl⟩, rfl⟩
  | ok environment => exact .inr ⟨environment, ⟨store, by simpa using hyields, rfl⟩, rfl⟩

/-- The old client is released in one of these ways. Observers are then shown that the server is
stopped, unless there was no client. -/
theorem ensures_releaseClient_released (w : Workspace) :
    releaseClient.Ensures (fun l _ w' => Released w l ∧ ∃ state,
      (w.client = none ∧ state = w.state ∨ state = .stopped) ∧
        w' = { w with client := none, state }) w := by
  simp only [releaseClient, withClient, Task.ensures_bind, Task.ensures_get]
  cases hclient : w.client with
  | none => exact ⟨.idle (by simp [held?, hclient]), w.state, .inl ⟨rfl, rfl⟩, by simp⟩
  | some client =>
    have hsession : w.session.current = client.session.current := by simp [session, hclient]
    have hsame : { w.withSession w.session with client := none } = { w with client := none } := by
      simp [withSession, session, hclient]
    -- a state of the session that is not written is that of the workspace
    refine ensures_sessionPart hclient (fun l a h => ?_) ?_
    · rw [Task.ensures_change] at h ⊢
      rwa [hsame] at h
    cases hid : client.session.current with
    | none =>
      rw [hid] at hsession
      refine (Session.ensures_stop_idle hsession).mono fun l r s hstop => ?_
      obtain ⟨rfl, -, rfl⟩ := hstop
      exact ⟨.idle (by simp [held?, hclient, hid]), .stopped, .inr rfl, rfl⟩
    | some id =>
      rw [hid] at hsession
      have hspeech : (Session.stop client.context).Ensures
          (fun l _ _ => ∀ x ∈ l, x.call.isSpeech = true) w.session :=
        Task.ensures_of_yields fun _ _ _ hyields => (Session.speaking_stop _).yields hyields
      refine ((Session.ensures_stop hsession).and hspeech).mono fun l r s hstop => ?_
      obtain ⟨⟨shutdown, exit, m, htalk, rfl⟩, hspeech⟩ := hstop
      refine ⟨?_, .stopped, .inr rfl, rfl⟩
      rw [List.append_nil]
      exact .left hclient hid htalk hspeech

/-- A new client whose session is started opens, and the session is left as the opening ends. -/
theorem ensures_start_opens {c : SessionContext} {w : Workspace}
    (hclient : w.client = some ⟨c, .fresh w.state⟩) (hstate : w.state ≠ .running) :
    (withClient (.error .notRunning) Session.start).Ensures
      (fun l r w' => Opens c l r ∧ (∃ s, w'.client = some ⟨c, s⟩) ∧
        (r = .ok () → w'.state = .running ∧ w'.held?.isSome = true) ∧
        (∀ error, r = .error error → w'.state = .error ∧ w'.held? = none)) w := by
  -- the new session is one that nothing has happened to
  have hsession : w.session = .fresh w.state := by simp [session, hclient, Session.fresh]
  have hmap :
      w.client.map (fun client => { client with session := .fresh w.state }) = w.client := by
    rw [hclient, Option.map_some]
  have hsame : w.withSession w.session = w := by
    rw [withSession, hsession, hmap]
    rfl
  have hspeech : (Session.start c).Ensures (fun l _ _ => ∀ x ∈ l, x.call.isSpeech = true)
      w.session :=
    Task.ensures_of_yields fun _ _ _ hyields => (Session.speaking_start c).yields hyields
  refine (Task.ensures_bind _ _ _ w).2 ?_
  rw [Task.ensures_get, hclient]
  refine ensures_sessionPart hclient (fun l a h => by rwa [hsame] at h) ?_
  rw [hsession] at hspeech ⊢
  refine ((Session.ensures_start hstate).and hspeech).mono fun l r s hstart => ?_
  obtain ⟨⟨hstarted, -⟩, hspeech⟩ := hstart
  refine ⟨⟨⟨w.state, s, hstarted⟩, hspeech⟩, ⟨s, by simp [withSession, hclient]⟩, ?_, ?_⟩
  · rintro rfl
    obtain ⟨hrunning, hcurrent⟩ := hstarted.of_ok
    exact ⟨hrunning, by simp [held?_withSession hclient, hcurrent]⟩
  · rintro error rfl
    obtain ⟨hfailed, hcurrent⟩ := hstarted.of_error
    exact ⟨hfailed, by simp [held?_withSession hclient, hcurrent]⟩

/-- A new server is probed, and its client and the shown state are left as they are but for what was
found out. -/
theorem ensures_probeServer_probes {c : SessionContext} {s : Session} {w : Workspace}
    (hclient : w.client = some ⟨c, s⟩) :
    probeServer.Ensures (fun l _ w' => Probes c l ∧ w'.state = w.state ∧ w'.held? = w.held?) w := by
  have hprobed : (withClient (.ok ()) Session.afterStart).Ensures (fun l r w' =>
      Session.Probed c l r ∧ w'.state = w.state ∧ w'.held? = w.held?) w := by
    simp only [withClient, Task.ensures_bind, Task.ensures_get, hclient]
    refine ensures_sessionPart hclient (fun l r h => ⟨h.1, rfl, rfl⟩) ?_
    refine ((Session.ensures_afterStart c _).and (Session.ensures_afterStart_probed c _)).mono
      fun l r s' hafter => ?_
    obtain ⟨⟨-, formatter, m, rfl⟩, hprobed⟩ := hafter
    refine ⟨hprobed, ?_, ?_⟩
    · simp [withSession, session, hclient]
    · rw [held?_withSession hclient, held?_eq hclient]
  rw [probeServer, Task.ensures_bind]
  refine hprobed.mono fun l r w' h => ?_
  obtain ⟨hprobed, hstate, hheld⟩ := h
  split
  · exact ⟨by simpa using Probes.answered hprobed, hstate, hheld⟩
  · exact fun _ => ⟨.failed hprobed, hstate, hheld⟩

/-- A workspace without a client is not shown to run. -/
def Sound (w : Workspace) : Prop := w.client = none → w.state ≠ .running

/-- An activation leaves a sound workspace sound. -/
theorem Activates.sound {c : WorkspaceContext} {w w' : Workspace} {l : List Exchange}
    {answer : Except RubyError RuntimeEnvironment} (h : Activates c w l answer w')
    (hsound : w.Sound) : w'.Sound := by
  obtain ⟨store, -, rfl⟩ := h
  exact hsound

/-- In a sound workspace a start goes on in one of these ways. -/
theorem ensures_startWith_proceeds (c : WorkspaceContext) (environment : RuntimeEnvironment)
    {w : Workspace} (hsound : w.Sound) :
    (startWith c environment).Ensures (fun l r w' => ∃ s, l = Stages.trace s ∧
      Proceeds c environment w s r w') w := by
  simp only [startWith, checkWritable, failing, setState, Task.ensures_bind, Task.ask_eq,
    Task.ensures_call, Task.ensures_done]
  intro made
  cases made with
  | error fault => exact ⟨_, rfl, .notWritable⟩
  | ok =>
    simp only [Task.ensures_pure, Task.ensures_bind]
    refine (ensures_manageServerGem c environment w).mono fun gems managed w₁ hmanaged => ?_
    obtain ⟨hgems, store, rfl⟩ := hmanaged
    cases managed with
    | error error =>
      simp only [Task.ensures_bind, Task.ensures_change, Task.ensures_pure]
      refine ⟨_, ?_, .unmanaged hgems⟩
      simp [Stages.trace, Stages.none]
    | ok outcome =>
      simp only [Task.ensures_pure, Task.ensures_bind]
      refine (ensures_releaseClient_released _).mono fun release _ w₂ hrelease => ?_
      obtain ⟨hreleased, state, hstate, rfl⟩ := hrelease
      have hrelease : Released w release := hreleased.congr rfl
      -- with no client the state is that of a sound workspace, and a released one was stopped
      have hready : state ≠ .running := by
        rcases hstate with ⟨hclient, rfl⟩ | rfl
        · exact hsound hclient
        · decide
      simp only [installClient, Task.ensures_change]
      refine (ensures_start_opens rfl hready).mono fun opening started w₃ hstarted => ?_
      obtain ⟨hopens, ⟨s, hclient⟩, hrunning, hfailed⟩ := hstarted
      cases started with
      | error error =>
        obtain ⟨hstate', hheld⟩ := hfailed error rfl
        refine ⟨_, ?_, .refused hgems hrelease hopens hstate' hheld⟩
        simp [Stages.trace]
      | ok =>
        obtain ⟨hstate', hheld⟩ := hrunning rfl
        rw [Task.ensures_bind]
        refine (ensures_probeServer_probes hclient).mono fun probing _ w₄ hprobed => ?_
        obtain ⟨hprobes, hstate'', hheld''⟩ := hprobed
        refine ⟨_, ?_, .running hgems hrelease hopens hprobes (hstate''.trans hstate')
          (by rw [hheld'', hheld])⟩
        simp [Stages.trace]

/-- In a sound workspace a start goes in one of these ways. -/
theorem ensures_start_staged (c : WorkspaceContext) {w : Workspace} (hsound : w.Sound) :
    (start c).Ensures (fun l r w' => ∃ activation s, l = activation ++ Stages.trace s ∧
      Staged c w activation s r w') w := by
  simp only [start, startOver, failing, setState, Task.ensures_bind, if_pos]
  refine (ensures_activateRuby c w).mono fun activation r w₁ hactivated => ?_
  rcases hactivated with ⟨error, hactivated, rfl⟩ | ⟨environment, hactivated, rfl⟩
  · simp only [Task.ensures_bind, Task.ensures_change, Task.ensures_pure]
    exact ⟨activation, .none, by simp [Stages.trace, Stages.none], .unactivated hactivated⟩
  · simp only [Task.ensures_pure]
    refine (ensures_startWith_proceeds c environment (hactivated.sound hsound)).mono
      fun l r w' hproceeds => ?_
    obtain ⟨s, rfl, hproceeds⟩ := hproceeds
    exact ⟨activation, s, by simp, .activated hactivated hproceeds⟩

end Workspace

end RubySupervisor
