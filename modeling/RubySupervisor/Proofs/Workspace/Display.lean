import RubySupervisor.Proofs.Session.Display
import RubySupervisor.Proofs.Workspace.Exclusion
import RubySupervisor.Proofs.Workspace.Stages

/-!
# What observers of a workspace are shown

A workspace shows one lifecycle state, and its clients and its own failures write it. Observers are
shown that the server runs exactly while the installed client holds a process, with one exception:
an attempt to start over that fails before the old client is let go shows an error, although that
client keeps its process. This file follows the shown state through the histories of a workspace and
states this exactly; no history leaves a start behind that is shown to be under way.
-/

namespace RubySupervisor

/-- A start fails with this before the old client is let go: Ruby, the directory of the server or
its gem is not ready. -/
def WorkspaceError.isPreparatory : WorkspaceError → Bool
  | ruby _ => true
  | notWritable _ => true
  | install _ => true
  | _ => false

/-- What an attempt to start over does to a display: it is prevented, which shows an error and
changes nothing else, or it is made. -/
inductive Display.Attempts (d : Display) (l : List Exchange) :
    Workspace.Outcome Unit → Display → Prop where
  | prevented {fault : WorkspaceError} (hfault : fault.isPreparatory = true) (hstill : Still l) :
      Attempts d l (.error fault) { d with state := .error }
  | made {r : Workspace.Outcome Unit} {d' : Display}
      (hmade : ∀ fault, r = .error fault → fault.isPreparatory = false) (hmoves : d.Moves l d') :
      Attempts d l r d'

namespace Display

/-- An attempt behind something that changes nothing. -/
theorem Attempts.behind {d d' : Display} {l l' : List Exchange} {r : Workspace.Outcome Unit}
    (h : d.Attempts l' r d') (hstill : Still l) : d.Attempts (l ++ l') r d' := by
  cases h with
  | prevented hfault hstill' => exact .prevented hfault (still_append.2 ⟨hstill, hstill'⟩)
  | made hmade hmoves => exact .made hmade (Moves.trans (.left hstill) hmoves)

/-- Without a process an attempt moves the display, prevented or not. -/
theorem Attempts.moves {d d' : Display} {l : List Exchange} {r : Workspace.Outcome Unit}
    (h : d.Attempts l r d') (hnone : d.holds = false) : d.Moves l d' := by
  cases h with
  | prevented => exact .settled ⟨by simp, by simp [hnone]⟩ (by simp [hnone])
  | made _ hmoves => exact hmoves

end Display

namespace ServerGem

/-- The set-up of the gem says nothing to transports. -/
theorem SetUp.talk_eq_nil {environment : Dict String} {directory : Path} {s : Store} {now : Nat}
    {l : List Exchange} {r : Except WorkspaceError GemOutcome}
    (h : SetUp environment directory s now l r) : talk l = [] := by
  have hwrites {writing : List Exchange} (h : ∀ x ∈ writing, x.call.isWriting = true) :
      talk writing = [] :=
    List.filter_eq_nil_iff.2 fun x hx => by
      simp [Call.isTransport_of_isLocal (Call.isLocal_of_isWriting (h x hx))]
  cases h with
  | updated _ _ _ _ hwriting => simp [ran, Call.isTransport, Call.addressee?, hwrites hwriting]
  | installed _ _ _ hwriting => simp [ran, Call.isTransport, Call.addressee?, hwrites hwriting]
  | _ => rfl

/-- The set-up of the gem fails as such. -/
theorem SetUp.isPreparatory {environment : Dict String} {directory : Path} {s : Store} {now : Nat}
    {l : List Exchange} {error : WorkspaceError}
    (h : SetUp environment directory s now l (.error error)) : error.isPreparatory = true := by
  cases h <;> rfl

end ServerGem

namespace Workspace

/-- What observers are shown of a workspace. -/
def display (w : Workspace) : Display := ⟨w.state, w.held?.isSome, w.client.isSome⟩

/-- A client that holds a process is not released without notice. -/
theorem Released.not_still {w : Workspace} {l : List Exchange} (h : Released w l)
    (hholds : w.display.holds = true) : ¬ Still l := by
  cases h with
  | idle hheld => simp [display, hheld] at hholds
  | left _ _ htalk => exact Session.not_still_of_farewell htalk

theorem Managed.talk_eq_nil {c : WorkspaceContext} {environment : RuntimeEnvironment}
    {w : Workspace} {l : List Exchange} {r : Outcome (Option GemOutcome)}
    (h : Managed c environment w l r) : talk l = [] := by
  cases h with
  | bundled => rfl
  | own _ h => simp [Call.isTransport, Call.addressee?, h.talk_eq_nil]

/-- Up to the care for the gem, the stages say nothing to transports. -/
theorem Managed.talk_trace {c : WorkspaceContext} {environment : RuntimeEnvironment}
    {w : Workspace} {l : List Exchange} {r : Outcome (Option GemOutcome)}
    (h : Managed c environment w l r) (directory : Path) :
    talk (Stages.trace { Stages.none with
      creation := [⟨.makeDirectories directory, .ok ()⟩]
      gems := l }) = [] := by
  simp [Stages.trace, Stages.none, h.talk_eq_nil, Call.isTransport, Call.addressee?]

theorem Managed.isPreparatory {c : WorkspaceContext} {environment : RuntimeEnvironment}
    {w : Workspace} {l : List Exchange} {error : WorkspaceError}
    (h : Managed c environment w l (.error error)) : error.isPreparatory = true := by
  obtain ⟨now, rest, rfl, hsetUp⟩ := h.of_error
  exact hsetUp.isPreparatory

/-- However a start goes on with an active Ruby, it is an attempt. -/
theorem Proceeds.attempts {c : WorkspaceContext} {environment : RuntimeEnvironment}
    {w w' : Workspace} {s : Stages} {r : Outcome Unit} (h : Proceeds c environment w s r w') :
    w.display.Attempts s.trace r w'.display := by
  -- behind the release the shown state is that of the new client
  have hmoves {s : Stages} (hrelease : Released w s.release) (hhonest : w'.display.Honest) :
      w.display.Moves s.trace w'.display := by
    refine .settled hhonest fun hholds hstill => hrelease.not_still hholds ?_
    simp only [Stages.trace, still_append] at hstill
    exact hstill.1.1.2
  cases h with
  | notWritable => exact .prevented rfl ⟨rfl, rfl⟩
  | unmanaged hgems =>
    exact .prevented hgems.isPreparatory (still_of_talk_eq_nil (hgems.talk_trace _))
  | refused _ hrelease _ hstate hheld =>
    refine .made (by simp [WorkspaceError.isPreparatory]) (hmoves hrelease ?_)
    exact ⟨by simp [display, hstate], by simp [display, hstate, hheld]⟩
  | running _ hrelease _ _ hstate hheld =>
    refine .made (by simp) (hmoves hrelease ?_)
    exact ⟨by simp [display, hstate], by simp [display, hstate, hheld]⟩

/-- What is shown of the session of the installed client. -/
theorem display_session {w : Workspace} {client : Client} (hclient : w.client = some client) :
    w.session.display = w.display := by
  simp [display, Session.display, held?, session, hclient]

/-- What is shown after a change of the session. -/
theorem display_withSession {w : Workspace} {client : Client} (hclient : w.client = some client)
    (s : Session) : (w.withSession s).display = s.display := by
  have hmanned : (w.withSession s).client.isSome = true := by simp [withSession, hclient]
  simp only [display, Session.display, held?_withSession hclient, Option.isSome_map, hmanned]
  rfl

/-- What prepares leaves what is shown alone. -/
theorem Prepares.unchanged {α : Type} {t : Task Workspace α} (h : Prepares t) (w : Workspace) :
    t.Ensures (fun l _ w' => Still l ∧ w'.display = w.display) w :=
  (h w).mono fun l a w' hsame => by
    obtain ⟨htalk, hclient, -, hstate⟩ := hsame
    exact ⟨still_of_talk_eq_nil htalk, by simp only [display, held?, hclient, hstate]⟩

theorem Prepares.candid {α : Type} {t : Task Workspace α} (h : Prepares t) (w : Workspace) :
    t.Candid display w :=
  (h.unchanged w).mono fun l a w' hsame => by
    rw [hsame.2]
    exact .left hsame.1

/-- A candid task of the session of the installed client is candid in the workspace. -/
theorem candid_sessionPart {α : Type} {t : Task Session α} {w : Workspace} {client : Client}
    (hclient : w.client = some client) (h : t.Candid Session.display w.session) :
    (t.within sessionPart).Candid display w := by
  refine ensures_sessionPart hclient (fun l a hmoves => ?_) (h.mono fun l a s hmoves => ?_)
  · rwa [display_withSession hclient, display_session hclient] at hmoves
  · rwa [display_withSession hclient, ← display_session hclient]

theorem candid_withClient {α : Type} {absent : α} {present : SessionContext → Task Session α}
    (h : ∀ c s, (present c).Candid Session.display s) (w : Workspace) :
    (withClient absent present).Candid display w := by
  refine (Task.ensures_bind _ _ _ w).2 ?_
  rw [Task.ensures_get]
  cases hclient : w.client with
  | none => exact Task.candid_pure absent w
  | some client => exact candid_sessionPart hclient (h client.context w.session)

/-- The release of the old client and the final state make a disposal candid. -/
theorem candid_dispose (w : Workspace) : dispose.Candid display w := by
  refine (Task.ensures_bind _ _ _ w).2
    ((ensures_releaseClient_released w).mono fun l _ w' hreleased => ?_)
  obtain ⟨hreleased, state, -, rfl⟩ := hreleased
  simp only [setState, Task.ensures_change, List.append_nil]
  exact .settled ⟨by simp [display], by simp [display, held?]⟩ hreleased.not_still

/-- A task starts over: in a sound workspace it is an attempt. -/
def StartsOver (t : Task Workspace (Outcome Unit)) : Prop :=
  ∀ w, w.Sound → t.Ensures (fun l r w' => w.display.Attempts l r w'.display) w

/-- A workspace that looks like a sound one is sound. -/
theorem Sound.of_display_eq {w w' : Workspace} (h : w.Sound) (hdisplay : w'.display = w.display) :
    w'.Sound := by
  have hstate : w'.state = w.state := congrArg Display.state hdisplay
  have hmanned : w'.client.isSome = w.client.isSome := congrArg Display.manned hdisplay
  rw [Sound, hstate]
  exact fun hclient => h (by simpa [hclient] using hmanned)

/-- What moves the display of a sound workspace leaves a sound one. -/
theorem Sound.of_moves {w w' : Workspace} {l : List Exchange} (h : w.Sound)
    (hmoves : w.display.Moves l w'.display) : w'.Sound := by
  generalize hdisplay : w'.display = d at hmoves
  cases hmoves with
  | left => exact h.of_display_eq hdisplay
  | settled hhonest =>
    intro hclient hstate
    obtain rfl := hdisplay
    have hholds := hhonest.running_iff.1 hstate
    simp [display, held?, hclient] at hholds

theorem startsOver_pure {r : Outcome Unit}
    (hr : ∀ fault, r = .error fault → fault.isPreparatory = false) : StartsOver (pure r) :=
  fun _ _ => .made hr (.left still_nil)

/-- Starting over behind something that prepares is starting over. -/
theorem StartsOver.behind {α : Type} {t : Task Workspace α} (ht : Prepares t)
    {f : α → Task Workspace (Outcome Unit)} (hf : ∀ a, StartsOver (f a)) :
    StartsOver (t >>= f) := by
  intro w hsound
  refine (Task.ensures_bind _ _ _ w).2 ((ht.unchanged w).mono fun l a w' h => ?_)
  obtain ⟨hstill, hdisplay⟩ := h
  refine (hf a w' (hsound.of_display_eq hdisplay)).mono fun l' r w₁ hattempts => ?_
  rw [hdisplay] at hattempts
  exact hattempts.behind hstill

theorem startsOver_startWith (c : WorkspaceContext) (environment : RuntimeEnvironment) :
    StartsOver (startWith c environment) := fun _ hsound =>
  (ensures_startWith_proceeds c environment hsound).mono fun l r w' h => by
    obtain ⟨s, rfl, hproceeds⟩ := h
    exact hproceeds.attempts

/-- A task readies Ruby: it only prepares, and where it fails it is Ruby that is not ready. -/
def Readies (t : Task Workspace (Outcome RuntimeEnvironment)) : Prop :=
  Prepares t ∧
    ∀ w, t.Ensures (fun _ r _ => ∀ fault, r = .error fault → fault.isPreparatory = true) w

theorem readies_recordActivation (answer : Except RubyError RuntimeEnvironment) :
    Readies (recordActivation answer) := by
  refine ⟨prepares_recordActivation answer, fun w => ?_⟩
  cases answer with
  | ok environment => exact fun fault hfault => by cases hfault
  | error error =>
    intro fault hfault
    obtain rfl : WorkspaceError.ruby error = fault := by simpa using hfault
    rfl

theorem readies_activateRuby (c : WorkspaceContext) : Readies (activateRuby c) := by
  refine ⟨prepares_activateRuby c, fun w => (ensures_activateRuby c w).mono fun l r w' h => ?_⟩
  rcases h with ⟨error, -, rfl⟩ | ⟨environment, -, rfl⟩
  · simp [WorkspaceError.isPreparatory]
  · simp

theorem readies_currentRuby (c : WorkspaceContext) : Readies (currentRuby c) := by
  refine ⟨prepares_currentRuby c, fun w => (Task.ensures_bind _ _ _ w).2 ?_⟩
  rw [Task.ensures_get]
  split
  · exact fun fault hfault => by cases hfault
  · exact (readies_activateRuby c).2 w

/-- Going on where Ruby is ready and failing where it is not is starting over, if going on is. -/
theorem Readies.startsOver {t : Task Workspace (Outcome RuntimeEnvironment)} (ht : Readies t)
    {f : Outcome RuntimeEnvironment → Task Workspace (Outcome Unit)}
    (hfail : ∀ fault, f (.error fault) = pure (.error fault))
    (hf : ∀ environment, StartsOver (f (.ok environment))) :
    StartsOver (do f (← failing (← t))) := by
  intro w hsound
  refine (Task.ensures_bind _ _ _ w).2
    (((ht.1.unchanged w).and (ht.2 w)).mono fun l answer w' h => ?_)
  obtain ⟨⟨hstill, hdisplay⟩, hanswer⟩ := h
  rw [← hdisplay]
  cases answer with
  | ok environment =>
    simp only [failing, Task.ensures_bind, Task.ensures_pure, List.nil_append]
    exact (hf environment w' (hsound.of_display_eq hdisplay)).mono fun l' r w₁ hattempts =>
      hattempts.behind hstill
  | error fault =>
    simp only [failing, setState, Task.ensures_bind, Task.ensures_change, Task.ensures_pure, hfail,
      List.append_nil]
    exact .prevented (hanswer fault rfl) hstill

theorem startsOver_startOver (c : WorkspaceContext) (reactivate : Bool) :
    StartsOver (startOver c reactivate) := by
  unfold startOver
  split
  · refine (readies_activateRuby c).startsOver ?_ (startsOver_startWith c)
    exact fun _ => rfl
  · refine (readies_currentRuby c).startsOver ?_ (startsOver_startWith c)
    exact fun _ => rfl

theorem startsOver_selectRuby (c : WorkspaceContext) : StartsOver (selectRuby c) := by
  refine .behind prepares_get fun w => .behind ?_ fun answer => ?_
  · exact prepares_storePart (Resolution.silent_changeVersion _)
  · refine (readies_recordActivation answer).startsOver ?_ fun _ => startsOver_startOver c false
    exact fun _ => rfl

theorem startsOver_updateSettings (c : WorkspaceContext) (settings : Settings) :
    StartsOver (updateSettings c settings) := by
  have hrest (w : Workspace) : StartsOver (do
      if w.settings.same settings then return .ok ()
      if w.client.isNone && w.ruby.environment?.isNone then return .ok ()
      startOver c (settings.requiresReactivation w.settings)) := by
    split
    · exact startsOver_pure (by simp)
    · split
      · exact startsOver_pure (by simp)
      · exact startsOver_startOver c _
  exact fun w hsound => hrest w { w with settings } hsound

theorem startsOver_reloadSettings (c : WorkspaceContext) : StartsOver (reloadSettings c) := by
  refine .behind (prepares_ask rfl) fun files => ?_
  split
  · exact startsOver_pure (by simp [WorkspaceError.isPreparatory])
  · exact startsOver_updateSettings c _

/-- In a sound workspace a restart is candid. -/
theorem candid_restart (c : WorkspaceContext) {w : Workspace} (hsound : w.Sound) :
    (restart c).Candid display w := by
  refine (Task.ensures_bind _ _ _ w).2 ?_
  rw [Task.ensures_get]
  cases hclient : w.client with
  | some client =>
    exact candid_sessionPart hclient (Session.candid_restart client.context w.session)
  | none =>
    simp only [Task.ensures_bind, Task.ask_eq, Task.ensures_call, Task.ensures_done]
    intro files
    split
    · exact .left ⟨rfl, rfl⟩
    · refine (Task.ensures_bind _ _ _ w).2
        ((startsOver_startOver c true w hsound).mono fun l r w' hattempts => ?_)
      have hmoves := hattempts.moves (by simp [display, held?, hclient])
      have hfiles : w.display.Moves [⟨.files, files⟩] w.display := .left ⟨rfl, rfl⟩
      simpa using hfiles.trans hmoves

/-- A restart behind a change of the extensions is candid as well. -/
theorem candid_restartIfChanged (c : WorkspaceContext) {t : Task Workspace (Except RubyError Bool)}
    (ht : Prepares t) {w : Workspace} (hsound : w.Sound) :
    (do restartIfChanged c (← t)).Candid display w := by
  refine (Task.ensures_bind _ _ _ w).2 ((ht.unchanged w).mono fun l answer w' h => ?_)
  obtain ⟨hstill, hdisplay⟩ := h
  rw [← hdisplay]
  have hrest : (restartIfChanged c answer).Candid display w' := by
    unfold restartIfChanged
    split
    · exact Task.candid_pure _ w'
    · exact Task.candid_pure _ w'
    · refine Task.Candid.bind (candid_restart c (hsound.of_display_eq hdisplay)) fun _ w₁ => ?_
      exact Task.candid_pure _ w₁
  exact hrest.mono fun l' r w₁ hmoves => Display.Moves.trans (.left hstill) hmoves

/-- The attempt to start over that a deed is, if it is one. -/
def Deed.attempt? (c : WorkspaceContext) : Deed → Option (Task Workspace (Outcome Unit))
  | start => some (Workspace.start c)
  | selectRuby => some (Workspace.selectRuby c)
  | updateSettings settings => some (Workspace.updateSettings c settings)
  | reloadSettings => some (Workspace.reloadSettings c)
  | perform .start arguments => some (Workspace.perform c .start arguments)
  | perform .toggleExperimentalFeatures arguments =>
    some (Workspace.perform c .toggleExperimentalFeatures arguments)
  | perform .toggleYjit arguments => some (Workspace.perform c .toggleYjit arguments)
  | _ => none

/-- A deed that is an attempt starts over, and drops the outcome. -/
theorem Deed.startsOver {c : WorkspaceContext} {deed : Deed} {t : Task Workspace (Outcome Unit)}
    (h : deed.attempt? c = some t) : StartsOver t ∧ deed.task c = (do let _ ← t) := by
  unfold attempt? at h
  split at h
  all_goals cases h
  · exact ⟨startsOver_startOver c true, rfl⟩
  · exact ⟨startsOver_selectRuby c, rfl⟩
  · exact ⟨startsOver_updateSettings c _, rfl⟩
  · exact ⟨startsOver_reloadSettings c, rfl⟩
  · exact ⟨startsOver_startOver c true, rfl⟩
  · exact ⟨.behind prepares_get fun _ => startsOver_updateSettings c _, rfl⟩
  · exact ⟨.behind prepares_get fun _ => startsOver_updateSettings c _, rfl⟩

/-- In a sound workspace a deed that is no attempt to start over is candid. -/
theorem candid_deed (c : WorkspaceContext) {deed : Deed} {w : Workspace} (hsound : w.Sound)
    (h : deed.attempt? c = none) :
    (deed.task c).Candid display w := by
  have hquiet {α : Type} {t : Task Workspace α} (ht : t.Candid display w) :
      (do let _ ← t : Task Workspace Unit).Candid display w :=
    ht.bind fun _ w' => Task.candid_pure () w'
  have hstop (w : Workspace) : stop.Candid display w :=
    (candid_withClient Session.candid_stop w).bind fun _ w' => Task.candid_pure _ w'
  cases deed with
  | stop => exact hquiet (hstop w)
  | restart => exact candid_restart c hsound
  | reportExtensions reported => exact .left still_nil
  | setExtensionActivated name activated =>
    exact hquiet (candid_restartIfChanged c
      (prepares_extensionPart (ExtensionSet.silent_setActivated _ _)) hsound)
  | selectExtensions chosen =>
    exact hquiet (candid_restartIfChanged c
      (prepares_extensionPart (ExtensionSet.silent_select _)) hsound)
  | dispose => exact candid_dispose w
  | observe transport event =>
    have hobserve (c : SessionContext) (s : Session) :
        (if c.transport = transport then Session.observe c event else pure ()).Candid
          Session.display s := by
      split
      · exact Session.candid_observe c event s
      · exact Task.candid_pure () s
    exact candid_withClient hobserve w
  | perform action arguments =>
    refine hquiet ?_
    cases action with
    | stop => exact hstop w
    | restart => exact (candid_restart c hsound).bind fun _ w' => Task.candid_pure _ w'
    | update =>
      exact ((prepares_installServer c).bind fun _ => prepares_pure _).candid w
    | runTest =>
      simp only [perform]
      split
      · exact ((prepares_runTest c _).bind fun _ => prepares_pure _).candid w
      · exact ((prepares_runTests c _).bind fun _ => prepares_pure _).candid w
    | runTestInTerminal =>
      simp only [perform]
      split
      · exact ((prepares_runTestInTerminal c _).bind fun _ => prepares_pure _).candid w
      · exact Task.candid_pure _ w
    | start => cases h
    | toggleExperimentalFeatures => cases h
    | toggleYjit => cases h
    | _ => exact Task.candid_pure _ w
  -- all others are attempts to start over
  | _ => cases h

/-- An episode conceals the process that the installed client holds: it is an attempt to start over
that is prevented. -/
def Conceals (c : WorkspaceContext) (e : Episode Workspace Deed) : Prop :=
  e.before.held?.isSome = true ∧ ∃ attempt fault w', e.deed.attempt? c = some attempt ∧
    attempt.Yields e.before e.trace (.error fault) w' ∧ fault.isPreparatory = true

/-- Behind a history a process is concealed: an episode concealed it, and since then nothing was
started or stopped. -/
def Concealed (c : WorkspaceContext) (history : List (Episode Workspace Deed)) : Prop :=
  ∃ before e after, history = before ++ e :: after ∧ Conceals c e ∧ ∀ e' ∈ after, Still e'.trace

/-- What one more episode changes about what is concealed. -/
theorem concealed_concat {c : WorkspaceContext} {history : List (Episode Workspace Deed)}
    {e : Episode Workspace Deed} :
    Concealed c (history ++ [e]) ↔ Conceals c e ∨ Concealed c history ∧ Still e.trace := by
  constructor
  · rintro ⟨before, e', after, heq, hconceals, hstill⟩
    rcases split_concat heq.symm with ⟨-, -, rfl⟩ | ⟨rest, rfl, rfl⟩
    · exact .inl hconceals
    · exact .inr ⟨⟨before, e', rest, rfl, hconceals, fun x hx => hstill x (by simp [hx])⟩,
        hstill e (by simp)⟩
  · rintro (hconceals | ⟨⟨before, e', after, rfl, hconceals, hstill⟩, hlast⟩)
    · exact ⟨history, e, [], rfl, hconceals, by simp⟩
    · refine ⟨before, e', after ++ [e], by simp, hconceals, fun x hx => ?_⟩
      rcases List.mem_append.1 hx with hx | hx
      · exact hstill x hx
      · exact List.mem_singleton.1 hx ▸ hlast

/-- An episode conceals what is held, and shows an error for it, or it moves what is shown. -/
theorem episode_display {c : WorkspaceContext} {deed : Deed} {w w' : Workspace}
    {trace : List Exchange} (hsound : w.Sound) (hstep : (deed.task c).Yields w trace () w') :
    Conceals c ⟨w, deed, trace⟩ ∧ w'.held?.isSome = true ∧ w'.state = .error ∨
      ¬ Conceals c ⟨w, deed, trace⟩ ∧ w.display.Moves trace w'.display := by
  cases hattempt : deed.attempt? c with
  | none =>
    refine .inr ⟨?_, (candid_deed c hsound hattempt).yields hstep⟩
    rintro ⟨-, attempt, fault, w₁, hsome, -⟩
    cases hattempt.symm.trans hsome
  | some attempt =>
    obtain ⟨hstarts, htask⟩ := Deed.startsOver hattempt
    -- the attempt has an answer, which the deed discards
    have hoverall : (deed.task c).Ensures (fun l _ w' => ∃ r, attempt.Yields w l r w' ∧
        w.display.Attempts l r w'.display) w := by
      rw [htask, Task.ensures_bind]
      refine Task.ensures_of_yields fun l r w' hyields => ⟨r, ?_, ?_⟩
      · rwa [List.append_nil]
      · simpa using (hstarts w hsound).yields hyields
    obtain ⟨r, hyields, hattempts⟩ := hoverall.yields hstep
    generalize hdisplay : w'.display = d at hattempts ⊢
    cases hattempts with
    | @prevented fault hfault hstill =>
      have hstate : w'.state = .error := congrArg Display.state hdisplay
      have hheld : w'.held?.isSome = w.held?.isSome := congrArg Display.holds hdisplay
      -- with nothing held, an error that is shown conceals nothing
      cases hholds : w.held?.isSome with
      | true =>
        exact .inl ⟨⟨hholds, attempt, fault, w', hattempt, hyields, hfault⟩, hheld.trans hholds,
          hstate⟩
      | false =>
        refine .inr ⟨fun hconceals => ?_, .settled ⟨by simp, ?_⟩ ?_⟩
        · exact absurd (hholds.symm.trans hconceals.1) (by decide)
        · simp [display, hholds]
        · simp [display, hholds]
    | made hmade hmoves =>
      -- the attempt that concealing asks for is this one, whose fault is not preparatory
      refine .inr ⟨?_, hmoves⟩
      rintro ⟨-, attempt', fault, w₁, hsome, hyields', hfault⟩
      obtain rfl := Option.some.inj (hattempt.symm.trans hsome)
      obtain ⟨rfl, -⟩ := hyields.unique hyields'
      rw [hmade fault rfl] at hfault
      cases hfault

/-- What a workspace shows behind a history. -/
structure Displayed (c : WorkspaceContext) (history : List (Episode Workspace Deed))
    (w : Workspace) : Prop where
  ready : w.state ≠ .starting
  running_iff : w.state = .running ↔ w.held?.isSome = true ∧ ¬ Concealed c history
  concealed : Concealed c history → w.held?.isSome = true ∧ w.state = .error

/-- A deed leaves a sound workspace sound. -/
theorem Sound.deed {c : WorkspaceContext} {deed : Deed} {w w' : Workspace} {trace : List Exchange}
    (h : w.Sound) (hstep : (deed.task c).Yields w trace () w') : w'.Sound := by
  rcases episode_display h hstep with ⟨-, -, hstate⟩ | ⟨-, hmoves⟩
  · simp [Sound, hstate]
  · exact h.of_moves hmoves

theorem Displayed.sound {c : WorkspaceContext} {history : List (Episode Workspace Deed)}
    {w : Workspace} (h : Displayed c history w) : w.Sound := by
  intro hclient hstate
  have hheld := (h.running_iff.1 hstate).1
  simp [held?, hclient] at hheld

/-- What one episode does to what is shown. -/
theorem Displayed.step {c : WorkspaceContext} {history : List (Episode Workspace Deed)}
    {w w' : Workspace} {deed : Deed} {trace : List Exchange} (h : Displayed c history w)
    (hstep : (deed.task c).Yields w trace () w') :
    Displayed c (history ++ [⟨w, deed, trace⟩]) w' := by
  rcases episode_display h.sound hstep with ⟨hconceals, hheld, hstate⟩ | ⟨hnot, hmoves⟩
  · have hconcealed : Concealed c (history ++ [⟨w, deed, trace⟩]) :=
      concealed_concat.2 (.inl hconceals)
    exact ⟨by simp [hstate], by simp [hstate, hconcealed], fun _ => ⟨hheld, hstate⟩⟩
  · have hconcealed : Concealed c (history ++ [⟨w, deed, trace⟩]) ↔
        Concealed c history ∧ Still trace := by
      rw [concealed_concat]
      exact or_iff_right hnot
    generalize hdisplay : w'.display = d at hmoves
    cases hmoves with
    | left hstill =>
      have hstate : w'.state = w.state := congrArg Display.state hdisplay
      have hheld : w'.held?.isSome = w.held?.isSome := congrArg Display.holds hdisplay
      rw [and_iff_left hstill] at hconcealed
      refine ⟨hstate ▸ h.ready, ?_, ?_⟩
      · rw [hstate, hheld, hconcealed]
        exact h.running_iff
      · rw [hstate, hheld, hconcealed]
        exact h.concealed
    | settled hhonest hleft =>
      obtain rfl := hdisplay
      -- a process that was concealed has been stopped, or another one started
      have hnone : ¬ Concealed c (history ++ [⟨w, deed, trace⟩]) := fun hsome =>
        hleft (h.concealed (hconcealed.1 hsome).1).1 (hconcealed.1 hsome).2
      refine ⟨hhonest.ready, ?_, fun hsome => absurd hsome hnone⟩
      rw [and_iff_left hnone]
      exact hhonest.running_iff

/-- What is shown along every history. -/
theorem displayed {c : WorkspaceContext} {settings : Settings} {store : Store}
    {history : List (Episode Workspace Deed)} {w : Workspace}
    (h : Lives (Deed.task c) (.fresh settings store) history w) : Displayed c history w := by
  induction h with
  | fresh =>
    have hnone : ¬ Concealed c [] := by
      rintro ⟨before, e, after, heq, -⟩
      simp at heq
    exact ⟨by simp [Workspace.fresh], by simp [Workspace.fresh, held?],
      fun hsome => absurd hsome hnone⟩
  | step _ hstep ih => exact ih.step hstep

/-- **Theorem (what is shown).** Behind every history of a workspace no start is shown to be under
way, and the server is shown to run exactly if the installed client holds a process, unless that
process is concealed: then an error is shown. -/
theorem running_iff_held_and_not_concealed {c : WorkspaceContext} {settings : Settings}
    {store : Store} {history : List (Episode Workspace Deed)} {w : Workspace}
    (h : Lives (Deed.task c) (.fresh settings store) history w) :
    w.state ≠ .starting ∧
      (w.state = .running ↔ w.held?.isSome = true ∧ ¬ Concealed c history) ∧
      (Concealed c history → w.held?.isSome = true ∧ w.state = .error) :=
  ⟨(displayed h).ready, (displayed h).running_iff, (displayed h).concealed⟩

/-- Ruby is missing at a second start. -/
def prevented : List (Episode Workspace Deed) × Workspace × Except RubyError Activation :=
  enact agreeable (Deed.task plainContext) [.start] served.2.1 (.error .rubyNotOnPath)

/-- What happens to the workspace whose server runs, and to it again without a Ruby, is a
history. -/
theorem lives_prevented :
    Lives (Deed.task plainContext) (.fresh .default .inMemory) (served.1 ++ prevented.1)
      prevented.2.1 := by
  have hserved :
      Lives (Deed.task plainContext) (.fresh .default .inMemory) served.1 served.2.1 := by
    rw [served]
    exact Lives.enact_fresh _ _ _ _ _
  rw [prevented]
  exact hserved.enact _ _ _

/-- The prevented start conceals the process: it is still held, and an error is shown. -/
theorem prevented_concealed :
    prevented.2.1.state = .error ∧ Concealed plainContext (served.1 ++ prevented.1) := by
  have hstate : prevented.2.1.state = .error ∧ prevented.2.1.held?.isSome = true := by
    decide +kernel
  obtain ⟨-, hrunning, -⟩ := running_iff_held_and_not_concealed lives_prevented
  refine ⟨hstate.1, Classical.byContradiction fun hnot => ?_⟩
  exact absurd (hstate.1.symm.trans (hrunning.2 ⟨hstate.2, hnot⟩)) (by decide)

/-- Not every history of a workspace shows that the server runs exactly if a process is held. -/
theorem not_always_shown :
    ¬ ∀ (c : WorkspaceContext) (settings : Settings) (store : Store)
      (history : List (Episode Workspace Deed)) (w : Workspace),
      Lives (Deed.task c) (.fresh settings store) history w →
        (w.state = .running ↔ w.held?.isSome = true) ∧ w.state ≠ .starting := by
  intro h
  have hstate : prevented.2.1.state = .error ∧ prevented.2.1.held?.isSome = true := by
    decide +kernel
  have hrunning := (h _ _ _ _ _ lives_prevented).1.2 hstate.2
  exact absurd (hstate.1.symm.trans hrunning) (by decide)

end Workspace

end RubySupervisor
