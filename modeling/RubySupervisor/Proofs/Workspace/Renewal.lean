import RubySupervisor.Proofs.Session.Launching
import RubySupervisor.Proofs.Workspace.Constancy
import RubySupervisor.Proofs.Workspace.StagedStart

/-!
# Renewal of the client

A client keeps the options that it was made with. To start over is to make a new client from the
settings in force; where that is prevented, the old client stays. A restart launches the installed
client again, by its own options. This file states for every operation of a workspace by which
options it launches a server, and with which client it leaves the workspace.
-/

open RubySupervisor.Task

namespace RubySupervisor

/-- Where nothing is said to transports, nothing is launched. -/
theorem conforms_of_talk_eq_nil {l : List Exchange} (h : talk l = []) (o : SessionOptions) :
    ∀ x ∈ l, x.call.Conforms o := fun x hx =>
  Call.conforms_of_isTransport (by simpa using List.filter_eq_nil_iff.1 h x hx)

namespace Workspace

/-- The options that the settings in force give. -/
def options (c : WorkspaceContext) (w : Workspace) : SessionOptions :=
  w.settings.sessionOptions c.root

/-- The options by which a restart launches a server: those of the installed client, or those of the
client that is made where there is none. -/
def restartOptions (c : WorkspaceContext) (w : Workspace) : SessionOptions :=
  match w.client with
  | some client => client.context.options
  | none => w.options c

/-- An installed client was there before, or it is made from the settings in force. -/
def Follows (c : WorkspaceContext) (w w' : Workspace) : Prop :=
  ∀ client', w'.client = some client' → client'.context.options = w.options c ∨
    ∃ client, w.client = some client ∧ client'.context = client.context

theorem Follows.of_client_eq {c : WorkspaceContext} {w w' : Workspace}
    (h : w'.client = w.client) : Follows c w w' :=
  fun client' hclient => .inr ⟨client', h ▸ hclient, rfl⟩

theorem Follows.trans {c : WorkspaceContext} {w w₁ w₂ : Workspace} (h : Follows c w w₁)
    (hsettings : w₁.settings = w.settings) (h' : Follows c w₁ w₂) : Follows c w w₂ := by
  intro client₂ hclient₂
  rcases h' client₂ hclient₂ with hmade | ⟨client₁, hclient₁, hsame⟩
  · exact .inl (by rw [hmade, options, options, hsettings])
  · rcases h client₁ hclient₁ with hmade | ⟨client, hclient, hsame'⟩
    · exact .inl (by rw [hsame, hmade])
    · exact .inr ⟨client, hclient, hsame.trans hsame'⟩

/-- A task never changes the settings, and launches servers by options that the workspace has
before. -/
structure LaunchesBy {α : Type} (c : WorkspaceContext) (o : Workspace → SessionOptions)
    (t : Task Workspace α) : Prop where
  constant : Constant t
  ensures : ∀ w, t.Ensures (fun l _ w' => (∀ x ∈ l, x.call.Conforms (o w)) ∧ Follows c w w') w

/-- A task never changes the settings, and launches no server. -/
def Idle {α : Type} (c : WorkspaceContext) (t : Task Workspace α) : Prop :=
  ∀ o, LaunchesBy c o t

section

variable {α β : Type} {c : WorkspaceContext}

/-- What is aside launches no server. -/
theorem Aside.idle {t : Task Workspace α} (h : Aside t) (hconstant : Constant t) : Idle c t :=
  fun _ => ⟨hconstant, fun w => (h w).mono fun _ _ _ hsame =>
    ⟨conforms_of_talk_eq_nil hsame.1 _, .of_client_eq hsame.2.1⟩⟩

theorem Prepares.idle {t : Task Workspace α} (h : Prepares t) (hconstant : Constant t) :
    Idle c t := h.aside.idle hconstant

/-- Tasks that launch no server launch none one after the other. -/
theorem Idle.bind {t : Task Workspace α} {f : α → Task Workspace β} (h : Idle c t)
    (hf : ∀ a, Idle c (f a)) : Idle c (t >>= f) := by
  intro o
  refine ⟨(h o).constant.bind fun a => (hf a o).constant, fun w => ?_⟩
  refine (ensures_bind _ t f w).2
    ((((h o).ensures w).and ((h o).constant.ensures w)).mono fun l a w₁ hfirst => ?_)
  obtain ⟨⟨hconforms, hfollows⟩, hsettings⟩ := hfirst
  refine ((hf a fun _ => o w).ensures w₁).mono fun l' b w₂ hsecond => ⟨?_, ?_⟩
  · exact List.forall_mem_append.2 ⟨hconforms, hsecond.1⟩
  · exact hfollows.trans hsettings hsecond.2

/-- What comes behind something aside launches by the same options. -/
theorem LaunchesBy.behind {o : Workspace → SessionOptions} {t : Task Workspace α}
    {f : α → Task Workspace β} (ht : Aside t) (hconstant : Constant t)
    (ho : ∀ w w', w'.settings = w.settings → w'.client = w.client → o w' = o w)
    (hf : ∀ a, LaunchesBy c o (f a)) : LaunchesBy c o (t >>= f) := by
  refine ⟨hconstant.bind fun a => (hf a).constant, fun w => ?_⟩
  refine (ensures_bind _ t f w).2 (((ht w).and (hconstant.ensures w)).mono fun l a w₁ hfirst => ?_)
  obtain ⟨⟨htalk, hclient, -⟩, hsettings⟩ := hfirst
  refine ((hf a).ensures w₁).mono fun l' b w₂ hsecond => ⟨?_, ?_⟩
  · rw [ho w w₁ hsettings hclient] at hsecond
    exact List.forall_mem_append.2 ⟨conforms_of_talk_eq_nil htalk _, hsecond.1⟩
  · exact Follows.trans (.of_client_eq hclient) hsettings hsecond.2

/-- What is made of the result of a task does not matter to its launches. -/
theorem LaunchesBy.map {o : Workspace → SessionOptions} {t : Task Workspace α}
    (h : LaunchesBy c o t) (f : α → β) : LaunchesBy c o (do return f (← t)) := by
  refine ⟨h.constant.bind fun _ => steady_pure _, fun w => ?_⟩
  exact (ensures_bind _ t _ w).2 ((h.ensures w).mono fun l a w' hlaunches => by simpa using hlaunches)

end

/-- What conforms to options in a session conforms to them in the workspace, where the client stays as
it was made. -/
theorem ensures_withClient_conforms {α : Type} {absent : α}
    {present : SessionContext → Task Session α} {o : SessionOptions} {w : Workspace}
    (h : ∀ client, w.client = some client → (present client.context).Conforming o) :
    (withClient absent present).Ensures (fun l _ w' => (∀ x ∈ l, x.call.Conforms o) ∧
      w'.client.map (·.context) = w.client.map (·.context)) w := by
  refine (ensures_bind _ _ _ w).2 ?_
  rw [ensures_get]
  cases hclient : w.client with
  | none => exact ⟨by simp, by simp [hclient]⟩
  | some client =>
    refine ensures_sessionPart hclient (fun l a hlaunches => ⟨hlaunches.1, by rw [hclient]⟩)
      (((h client hclient).ensures w.session).mono fun l a s hconforms => ⟨hconforms, ?_⟩)
    simp [withSession, hclient]

theorem Follows.of_context_eq {c : WorkspaceContext} {w w' : Workspace}
    (h : w'.client.map (·.context) = w.client.map (·.context)) : Follows c w w' := by
  intro client' hclient'
  rw [hclient', Option.map_some] at h
  obtain ⟨client, hclient, hcontext⟩ := Option.map_eq_some_iff.1 h.symm
  exact .inr ⟨client, hclient, hcontext.symm⟩

theorem idle_withClient {α : Type} {c : WorkspaceContext} {absent : α}
    {present : SessionContext → Task Session α} (h : ∀ o c, (present c).Conforming o) :
    Idle c (withClient absent present) := fun o =>
  ⟨constant_withClient _ _, fun w => (ensures_withClient_conforms fun client _ =>
    h (o w) client.context).mono fun _ _ _ hlaunches =>
      ⟨hlaunches.1, .of_context_eq hlaunches.2⟩⟩

theorem idle_pure {α : Type} {c : WorkspaceContext} (a : α) : Idle c (pure a) :=
  (aside_pure a).idle (steady_pure a)

theorem idle_stop (c : WorkspaceContext) : Idle c stop :=
  (idle_withClient Session.conforming_stop).bind fun _ => idle_pure _

/-- Releasing the client launches nothing and leaves no client. -/
theorem ensures_releaseClient_conforms (o : SessionOptions) (w : Workspace) :
    releaseClient.Ensures (fun l _ w' => (∀ x ∈ l, x.call.Conforms o) ∧ w'.client = none) w := by
  refine (ensures_bind _ _ _ w).2 ((ensures_withClient_conforms fun client _ =>
    Session.conforming_stop o client.context).mono fun l _ w' hlaunches => ?_)
  simpa using hlaunches.1

theorem idle_dispose (c : WorkspaceContext) : Idle c dispose := by
  have hrelease : Idle c releaseClient := fun o =>
    ⟨constant_releaseClient, fun w => (ensures_releaseClient_conforms (o w) w).mono
      fun _ _ _ h => ⟨h.1, fun _ hclient => by simp [h.2] at hclient⟩⟩
  exact hrelease.bind fun _ => (aside_setState _).idle (constant_setState _)

/-- How an attempt to start over ends: it is prevented, and the old client stays, or it is made, and
there is a client made from the settings in force. Whatever is launched conforms to these. -/
structure Renewal (c : WorkspaceContext) (w : Workspace) (l : List Exchange) (r : Outcome Unit)
    (w' : Workspace) : Prop where
  conforms : ∀ x ∈ l, x.call.Conforms (w.options c)
  client : (∃ fault, r = .error fault ∧ fault.isPreparatory = true) ∧ w'.client = w.client ∨
    (∀ fault, r = .error fault → fault.isPreparatory = false) ∧
      ∃ client, w'.client = some client ∧ client.context.options = w.options c

/-- A task starts over with the settings in force. -/
structure Renews (c : WorkspaceContext) (t : Task Workspace (Outcome Unit)) : Prop where
  constant : Constant t
  ensures : ∀ w, t.Ensures (Renewal c w) w

/-- An attempt that is prevented before anything is said to transports leaves the old client. -/
theorem Renewal.prevented {c : WorkspaceContext} {w w' : Workspace} {l : List Exchange}
    {fault : WorkspaceError} (htalk : talk l = []) (hfault : fault.isPreparatory = true)
    (hclient : w'.client = w.client) : Renewal c w l (.error fault) w' :=
  ⟨conforms_of_talk_eq_nil htalk _, .inl ⟨⟨fault, rfl, hfault⟩, hclient⟩⟩

/-- An attempt that is made leaves a client made from the settings in force, whether its server
starts or not. -/
theorem Renewal.made {c : WorkspaceContext} {w w' : Workspace} {l : List Exchange}
    {r : Outcome Unit} {context : SessionContext} (hconforms : ∀ x ∈ l, x.call.Conforms (w.options c))
    (hr : ∀ fault, r = .error fault → fault.isPreparatory = false)
    (hcontext : w'.client.map (·.context) = some context)
    (hoptions : context.options = w.options c) : Renewal c w l r w' := by
  obtain ⟨client, hclient, rfl⟩ := Option.map_eq_some_iff.1 hcontext
  exact ⟨hconforms, .inr ⟨hr, client, hclient, hoptions⟩⟩

/-- A renewal behind something aside. -/
theorem Renewal.behind {c : WorkspaceContext} {w w₁ w₂ : Workspace} {l l' : List Exchange}
    {r : Outcome Unit} (h : Renewal c w₁ l' r w₂) (htalk : talk l = [])
    (hclient : w₁.client = w.client) (hsettings : w₁.settings = w.settings) :
    Renewal c w (l ++ l') r w₂ := by
  have hoptions : w₁.options c = w.options c := by rw [options, options, hsettings]
  obtain ⟨hconforms, hrenewed⟩ := h
  rw [hoptions, hclient] at hrenewed
  rw [hoptions] at hconforms
  exact ⟨List.forall_mem_append.2 ⟨conforms_of_talk_eq_nil htalk _, hconforms⟩, hrenewed⟩

/-- The probes behind a start launch nothing and leave the client in its place. -/
theorem ensures_probeServer_conforms (o : SessionOptions) (w : Workspace) :
    probeServer.Ensures (fun l _ w' => (∀ x ∈ l, x.call.Conforms o) ∧
      w'.client.map (·.context) = w.client.map (·.context)) w := by
  refine (ensures_bind _ _ _ w).2 ((ensures_withClient_conforms fun client _ =>
    Session.conforming_afterStart o client.context).mono fun l r w' hlaunches => ?_)
  split
  · simpa using hlaunches
  · refine fun _ => ⟨List.forall_mem_append.2 ⟨hlaunches.1, ?_⟩, hlaunches.2⟩
    exact conforms_of_talk_eq_nil rfl o

/-- The stages behind the activation start over with the settings in force. -/
theorem renews_startWith (c : WorkspaceContext) (environment : RuntimeEnvironment) :
    Renews c (startWith c environment) := by
  refine ⟨constant_startWith c environment, fun w => ?_⟩
  simp only [startWith, checkWritable, failing, setState, ensures_bind, ask_eq, ensures_call,
    ensures_done]
  intro written
  cases written with
  | error fault => exact .prevented rfl rfl rfl
  | ok =>
    simp only [ensures_pure, ensures_bind]
    refine (ensures_manageServerGem c environment w).mono fun gems managed w₁ hmanaged => ?_
    obtain ⟨hgems, store, rfl⟩ := hmanaged
    have hquiet : talk gems = [] := hgems.talk_eq_nil
    cases managed with
    | error error =>
      refine .prevented ?_ hgems.isPreparatory rfl
      simp [hquiet, Call.isTransport, Call.addressee?]
    | ok outcome =>
      simp only [ensures_pure, ensures_bind]
      refine ((ensures_releaseClient_released _).and
        (ensures_releaseClient_conforms (w.options c) _)).mono fun release _ w₂ hrelease => ?_
      obtain ⟨⟨-, state, -, rfl⟩, hrelease, -⟩ := hrelease
      -- what comes before the new client either sends nothing or is said to the old one
      have hall {l : List Exchange} (h : ∀ x ∈ l, x.call.Conforms (w.options c)) :
          ∀ x ∈ [(⟨.makeDirectories (c.root.join ".ruby-lsp"), .ok ()⟩ : Exchange)] ++
            (gems ++ (release ++ l)), x.call.Conforms (w.options c) :=
        List.forall_mem_append.2 ⟨conforms_of_talk_eq_nil rfl _, List.forall_mem_append.2
          ⟨conforms_of_talk_eq_nil hquiet _, List.forall_mem_append.2 ⟨hrelease, h⟩⟩⟩
      simp only [installClient, ensures_change]
      refine (ensures_withClient_conforms (o := w.options c) fun client hclient => ?_).mono
        fun opening started w₃ hstarted => ?_
      -- the client is the one just installed, whose options are those of the settings in force
      · obtain rfl := Option.some.inj hclient
        exact Session.conforming_start
          (sessionContext c { w with store, state, client := none } environment)
      obtain ⟨hopening, hcontext⟩ := hstarted
      cases started with
      | error error =>
        refine .made ?_ (by simp [WorkspaceError.isPreparatory]) hcontext rfl
        simpa using hall hopening
      | ok =>
        rw [ensures_bind]
        refine (ensures_probeServer_conforms (w.options c) w₃).mono fun probing _ w₄ hprobed => ?_
        obtain ⟨hprobing, hcontext'⟩ := hprobed
        refine .made ?_ (by simp) (hcontext'.trans hcontext) rfl
        simpa using hall (List.forall_mem_append.2 ⟨hopening, hprobing⟩)

/-- Starting over behind something aside is starting over. -/
theorem Renews.behind {α : Type} {c : WorkspaceContext} {t : Task Workspace α}
    {f : α → Task Workspace (Outcome Unit)} (ht : Aside t) (hconstant : Constant t)
    (hf : ∀ a, Renews c (f a)) : Renews c (t >>= f) := by
  refine ⟨hconstant.bind fun a => (hf a).constant, fun w => ?_⟩
  refine (ensures_bind _ t f w).2 (((ht w).and (hconstant.ensures w)).mono fun l a w₁ hfirst => ?_)
  obtain ⟨⟨htalk, hclient, -⟩, hsettings⟩ := hfirst
  exact ((hf a).ensures w₁).mono fun l' r w₂ hrenewal => hrenewal.behind htalk hclient hsettings

/-- Going on where Ruby is ready and failing where it is not is starting over, if going on is. -/
theorem Readies.renews {c : WorkspaceContext} {t : Task Workspace (Outcome RuntimeEnvironment)}
    (ht : Readies t) (hconstant : Constant t)
    {f : Outcome RuntimeEnvironment → Task Workspace (Outcome Unit)}
    (hfail : ∀ fault, f (.error fault) = pure (.error fault))
    (hf : ∀ environment, Renews c (f (.ok environment))) :
    Renews c (do f (← failing (← t))) := by
  refine ⟨hconstant.bind fun answer => (constant_failing answer).bind fun active => ?_, fun w => ?_⟩
  · cases active with
    | ok environment => exact (hf environment).constant
    | error fault =>
      rw [hfail]
      exact steady_pure _
  refine (ensures_bind _ t _ w).2
    (((ht.1 w).and ((ht.2 w).and (hconstant.ensures w))).mono fun l answer w₁ h => ?_)
  obtain ⟨⟨htalk, hclient, -, -⟩, hanswer, hsettings⟩ := h
  cases answer with
  | ok environment =>
    simp only [failing, ensures_bind, ensures_pure, List.nil_append]
    exact ((hf environment).ensures w₁).mono fun l' r w₂ hrenewal =>
      hrenewal.behind htalk hclient hsettings
  | error fault =>
    simp only [failing, setState, ensures_bind, ensures_change, ensures_pure, hfail,
      List.append_nil]
    exact .prevented htalk (hanswer fault rfl) hclient

theorem renews_startOver (c : WorkspaceContext) (reactivate : Bool) :
    Renews c (startOver c reactivate) := by
  unfold startOver
  split
  · refine (readies_activateRuby c).renews (constant_activateRuby c) ?_ (renews_startWith c)
    exact fun _ => rfl
  · refine (readies_currentRuby c).renews (constant_currentRuby c) ?_ (renews_startWith c)
    exact fun _ => rfl

theorem renews_selectRuby (c : WorkspaceContext) : Renews c (selectRuby c) := by
  refine .behind prepares_get.aside steady_get fun w => .behind ?_ (constant_storePart _)
    fun answer => ?_
  · exact (prepares_storePart (Resolution.silent_changeVersion _)).aside
  · refine (readies_recordActivation answer).renews (constant_recordActivation answer) ?_
      fun _ => renews_startOver c false
    exact fun _ => rfl

/-- To start over is to launch by the settings in force. -/
theorem Renews.launchesBy {c : WorkspaceContext} {t : Task Workspace (Outcome Unit)}
    (h : Renews c t) : LaunchesBy c (options c) t := by
  refine ⟨h.constant, fun w => (h.ensures w).mono fun l r w' hrenewal => ⟨hrenewal.conforms, ?_⟩⟩
  rcases hrenewal.client with ⟨-, hclient⟩ | ⟨-, client, hclient, hoptions⟩
  · exact .of_client_eq hclient
  · intro client' hclient'
    obtain rfl := Option.some.inj (hclient.symm.trans hclient')
    exact .inl hoptions

/-- A restart launches by the options of the installed client. -/
theorem launchesBy_restart (c : WorkspaceContext) :
    LaunchesBy c (restartOptions c) (restart c) := by
  refine ⟨constant_restart c, fun w => (ensures_bind _ _ _ w).2 ?_⟩
  rw [ensures_get]
  cases hclient : w.client with
  | some client =>
    have hoptions : restartOptions c w = client.context.options := by
      simp [restartOptions, hclient]
    rw [hoptions]
    refine ensures_sessionPart hclient (fun l a h => ⟨h.1, ?_⟩)
      (((Session.conforming_restart client.context).ensures w.session).mono fun l a s h =>
        ⟨h, .of_context_eq (by simp [withSession, hclient])⟩)
    exact .of_client_eq rfl
  | none =>
    have hoptions : restartOptions c w = w.options c := by simp [restartOptions, hclient]
    have hstart : LaunchesBy c (options c) (do
        let files : FileTree ← Task.ask .files
        if Session.rebaseInProgress files c.root then return ()
        let _ ← startOver c true) := by
      refine .behind (prepares_ask rfl).aside (steady_ask _) ?_ fun files => ?_
      · exact fun w w' hsettings _ => by rw [options, options, hsettings]
      · split
        · exact idle_pure () _
        · exact (renews_startOver c true).launchesBy.map _
    rw [hoptions]
    exact hstart.ensures w

/-- A restart behind a change of the extensions launches in the same way. -/
theorem launchesBy_restartIfChanged (c : WorkspaceContext)
    {t : Task Workspace (Except RubyError Bool)} (ht : Aside t) (hconstant : Constant t) :
    LaunchesBy c (restartOptions c) (do restartIfChanged c (← t)) := by
  refine .behind ht hconstant (fun w w' hsettings hclient => ?_) fun answer => ?_
  · rw [restartOptions, restartOptions, options, options, hsettings, hclient]
  · unfold restartIfChanged
    split
    · exact idle_pure _ _
    · exact idle_pure _ _
    · exact (launchesBy_restart c).map _

/-- What comes of an update of the settings: they are the same but for the spelling of paths, or
there is nothing to start over, or the workspace starts over with the new ones. -/
inductive Update (c : WorkspaceContext) (settings : Settings) (w : Workspace) :
    List Exchange → Outcome Unit → Workspace → Prop where
  | same (h : w.settings.same settings = true) :
      Update c settings w [] (.ok ()) { w with settings }
  | idle (h : w.settings.same settings = false) (hclient : w.client = none) :
      Update c settings w [] (.ok ()) { w with settings }
  | renewed {l : List Exchange} {r : Outcome Unit} {w' : Workspace}
      (h : w.settings.same settings = false) (hsettings : w'.settings = settings)
      (hrenewal : Renewal c { w with settings } l r w') : Update c settings w l r w'

/-- A call launches a server by the settings in force. -/
def Current (c : WorkspaceContext) (m : Workspace) (call : Call) : Prop :=
  call.Conforms (m.options c)

/-- To launch by the settings in force is to heed them at every moment. -/
theorem LaunchesBy.heeds {α : Type} {c : WorkspaceContext} {t : Task Workspace α}
    (h : LaunchesBy c (options c) t) (w : Workspace) : t.Heeds (Current c) w := by
  have hcalls := (h.ensures w).mono fun _ _ _ h => h.1
  refine (h.constant.heeds hcalls).mono fun m call hm => ?_
  rw [Current, options, hm.1]
  exact hm.2

/-- An update of the settings comes to one of these ends. -/
theorem ensures_updateSettings (c : WorkspaceContext) (settings : Settings) (w : Workspace) :
    (updateSettings c settings).Ensures (Update c settings w) w := by
  simp only [updateSettings, ensures_bind, ensures_get, ensures_put, List.nil_append]
  split
  · next hsame => exact .same hsame
  · next hdiffers =>
    have hdiffers : w.settings.same settings = false := by simpa using hdiffers
    split
    · next hidle => exact .idle hdiffers (by simp_all)
    · have hrenews := renews_startOver c (settings.requiresReactivation w.settings)
      exact ((hrenews.ensures _).and (hrenews.constant.ensures _)).mono
        fun l r w' h => .renewed hdiffers h.2 h.1

/-- It launches servers by the settings in force. -/
theorem heeds_updateSettings (c : WorkspaceContext) (settings : Settings) (w : Workspace) :
    (updateSettings c settings).Heeds (Current c) w := by
  refine .andThen trivial fun previous _ => .andThen trivial fun _ w' => ?_
  split
  · trivial
  · split
    · trivial
    · exact (renews_startOver c _).launchesBy.heeds w'

end Workspace

end RubySupervisor
