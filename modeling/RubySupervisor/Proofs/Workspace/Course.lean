import RubySupervisor.Proofs.Workspace.Display

/-!
# The course of a start

A start goes through its stages in their order. This file states what that means for the commands
that it runs, for its failures and for what it reports: the gem tool is asked at most twice, a
failure before the old client is let go leaves that client alone, and a failure that a start goes on
after is reported once. From then on a start is as successful as that of the new client.
-/

namespace RubySupervisor

/-- The verb of a command of the gem tool. -/
def Command.gemVerb? (c : Command) : Option String :=
  if c.program = "gem" then c.arguments.head? else none

/-- As what the failure of a command is reported, where a start goes on after it: an update of the
gem, or a question to the bundle of the server. -/
def Command.background? (c : Command) : Option String :=
  if c.gemVerb? = some "update" then some "gem update ruby-lsp"
  else if c.program = "bundle" then some "perform after start"
  else none

/-- The verb of a call on the gem tool. -/
def Call.gemVerb? : Call → Option String
  | run command => command.gemVerb?
  | _ => none

namespace Exchange

/-- The failure that a start goes on after, as it has to be reported. -/
def tolerated? : Exchange → Option (String × String)
  | ⟨.run command, answer⟩ =>
    match command.background?, command.checked answer with
    | some context, .error error => some (context, error.message)
    | _, _ => none
  | _ => none

/-- The failure in the background that is reported. -/
def reported? : Exchange → Option (String × String)
  | ⟨.telemetry (.backgroundFailure context text), _⟩ => some (context, text)
  | _ => none

/-- An exchange asks nothing of the gem tool, reports no failure and need not be reported. -/
structure Plain (x : Exchange) : Prop where
  verb : x.call.gemVerb? = none
  reported : x.reported? = none
  tolerated : x.tolerated? = none

theorem plain_of_isLocal {x : Exchange} (h : x.call.isLocal = true) : x.Plain := by
  obtain ⟨call, answer⟩ := x
  cases call <;> first | exact ⟨rfl, rfl, rfl⟩ | cases h

theorem plain_of_isSpeech {x : Exchange} (h : x.call.isSpeech = true) : x.Plain := by
  obtain ⟨call, answer⟩ := x
  cases call with
  | telemetry event =>
    cases event with
    | message m => exact ⟨rfl, rfl, rfl⟩
    | backgroundFailure context text => cases h
  | _ => first | exact ⟨rfl, rfl, rfl⟩ | cases h

theorem plain_of_runsRuby {x : Exchange} (h : Session.RunsRuby x.call) : x.Plain := by
  obtain ⟨call, answer⟩ := x
  obtain ⟨command, rfl, hprogram⟩ := h
  have hverb : command.gemVerb? = none := by simp [Command.gemVerb?, hprogram]
  have hbackground : command.background? = none := by
    simp [Command.background?, hverb, hprogram]
  refine ⟨hverb, rfl, ?_⟩
  simp only [tolerated?, hbackground]

end Exchange

/-- The verbs with which a trace asks the gem tool, in order. -/
def gemVerbs (l : List Exchange) : List String := l.filterMap (·.call.gemVerb?)

@[simp] theorem gemVerbs_append (l l' : List Exchange) :
    gemVerbs (l ++ l') = gemVerbs l ++ gemVerbs l' := List.filterMap_append

theorem gemVerbs_of_plain {l : List Exchange} (h : ∀ x ∈ l, x.Plain) : gemVerbs l = [] :=
  List.filterMap_eq_nil_iff.2 fun x hx => (h x hx).verb

/-- A trace reports the failures that have to be reported, each once and in order, and no others. -/
def Faithful (l : List Exchange) : Prop :=
  l.filterMap Exchange.reported? = l.filterMap Exchange.tolerated?

namespace Faithful

theorem append {l l' : List Exchange} (h : Faithful l) (h' : Faithful l') :
    Faithful (l ++ l') := by
  rw [Faithful, List.filterMap_append, List.filterMap_append, h, h']

theorem of_plain {l : List Exchange} (h : ∀ x ∈ l, x.Plain) : Faithful l :=
  (List.filterMap_eq_nil_iff.2 fun x hx => (h x hx).reported).trans
    (List.filterMap_eq_nil_iff.2 fun x hx => (h x hx).tolerated).symm

/-- A command that nobody has to hear of need not be reported. -/
theorem unnoticed {command : Command} (h : command.background? = none)
    (answer : Except ServerError CommandOutput) : Faithful [⟨.run command, answer⟩] := by
  simp [Faithful, Exchange.reported?, Exchange.tolerated?, h]

/-- A command that succeeded need not be reported. -/
theorem succeeded {command : Command} {answer : Except ServerError CommandOutput}
    {output : CommandOutput} (h : command.checked answer = .ok output) :
    Faithful [⟨.run command, answer⟩] := by
  simp [Faithful, Exchange.reported?, Exchange.tolerated?, h]

/-- A command that failed in the background is reported behind it. -/
theorem failed {command : Command} {answer : Except ServerError CommandOutput}
    {context : String} {error : ServerError} (hbackground : command.background? = some context)
    (h : command.checked answer = .error error) :
    Faithful [⟨.run command, answer⟩,
      ⟨.telemetry (.backgroundFailure context error.message), ()⟩] := by
  have hrun : Exchange.tolerated? ⟨.run command, answer⟩ = some (context, error.message) := by
    simp only [Exchange.tolerated?, hbackground, h]
  rw [Faithful, List.filterMap_cons_some hrun]
  rfl

end Faithful

namespace ServerGem

theorem plain_of_writing {l : List Exchange} (h : ∀ x ∈ l, x.call.isWriting = true) :
    ∀ x ∈ l, x.Plain := fun x hx =>
  Exchange.plain_of_isLocal (Call.isLocal_of_isWriting (h x hx))

/-- The set-up of the gem reports that an update failed, and nothing else. -/
theorem SetUp.faithful {environment : Dict String} {directory : Path} {s : Store} {now : Nat}
    {l : List Exchange} {r : Except WorkspaceError GemOutcome}
    (h : SetUp environment directory s now l r) : Faithful l := by
  have hlisted (listing : Except ServerError CommandOutput) :
      Faithful [ran environment directory "list" listing] := .unnoticed rfl listing
  have hinstalled (install : Except ServerError CommandOutput) :
      Faithful [ran environment directory "install" install] := .unnoticed rfl install
  cases h with
  | unlisted => exact hlisted _
  | upToDate => exact hlisted _
  | updated _ _ _ hupdate hwriting =>
    exact (hlisted _).append (.append (.succeeded hupdate) (.of_plain (plain_of_writing hwriting)))
  | updateFailed _ _ _ hupdate => exact (hlisted _).append (.failed rfl hupdate)
  | installed _ _ _ hwriting =>
    exact (hlisted _).append ((hinstalled _).append (.of_plain (plain_of_writing hwriting)))
  | notInstalled => exact (hlisted _).append (hinstalled _)

/-- The set-up of the gem lists it, and then installs or updates it or does neither. -/
theorem SetUp.gemVerbs {environment : Dict String} {directory : Path} {s : Store} {now : Nat}
    {l : List Exchange} {r : Except WorkspaceError GemOutcome}
    (h : SetUp environment directory s now l r) :
    gemVerbs l ∈ [["list"], ["list", "install"], ["list", "update"]] := by
  have hran {verb : String} {answer : Except ServerError CommandOutput} {l : List Exchange} :
      RubySupervisor.gemVerbs (ran environment directory verb answer :: l) =
        verb :: RubySupervisor.gemVerbs l := rfl
  have hwritten {writing : List Exchange} (h : ∀ x ∈ writing, x.call.isWriting = true) :
      RubySupervisor.gemVerbs writing = [] := gemVerbs_of_plain (plain_of_writing h)
  have hnil : RubySupervisor.gemVerbs [] = [] := rfl
  cases h with
  | updated _ _ _ _ hwriting => simp [hran, hwritten hwriting]
  | installed _ _ _ hwriting => simp [hran, hwritten hwriting]
  | updateFailed =>
    rw [hran, hran]
    simp [RubySupervisor.gemVerbs, Call.gemVerb?]
  | _ => simp [hran, hnil]

/-- A command that a start cannot do without: the gem is listed or installed. -/
def IsVital (command : Command) : Prop :=
  command.gemVerb? = some "list" ∨ command.gemVerb? = some "install"

/-- Where the set-up of the gem fails, a vital command failed. -/
theorem SetUp.failed {environment : Dict String} {directory : Path} {s : Store} {now : Nat}
    {l : List Exchange} {error : WorkspaceError}
    (h : SetUp environment directory s now l (.error error)) :
    ∃ command answer fault, ⟨.run command, answer⟩ ∈ l ∧ IsVital command ∧
      command.checked answer = .error fault := by
  cases h with
  | unlisted hlisting => exact ⟨_, _, _, .head _, .inl rfl, hlisting⟩
  | notInstalled _ _ hinstall => exact ⟨_, _, _, .tail _ (.head _), .inr rfl, hinstall⟩

/-- Where the set-up of the gem succeeds, every vital command did. -/
theorem SetUp.succeeded {environment : Dict String} {directory : Path} {s : Store} {now : Nat}
    {l : List Exchange} {outcome : GemOutcome}
    (h : SetUp environment directory s now l (.ok outcome)) {command : Command}
    {answer : Except ServerError CommandOutput} (hrun : ⟨.run command, answer⟩ ∈ l)
    (hvital : IsVital command) : ∃ output, command.checked answer = .ok output := by
  -- an update may fail without the set-up failing, and what is written is no command
  have hupdate : ¬ IsVital (gemCommand environment directory "update") := by
    simp [IsVital, Command.gemVerb?, gemCommand]
  have hwritten {writing : List Exchange} (h : ∀ x ∈ writing, x.call.isWriting = true) :
      (⟨.run command, answer⟩ : Exchange) ∉ writing := fun hin => by
    simpa [Call.isWriting] using h _ hin
  have hran {verb : String} {answer' : Except ServerError CommandOutput}
      (h : (⟨.run command, answer⟩ : Exchange) = ran environment directory verb answer') :
      command = gemCommand environment directory verb ∧
        command.checked answer = verdict environment directory verb answer' := by
    rw [ran] at h
    cases h
    exact ⟨rfl, rfl⟩
  -- the listing is vital, and comes first
  have hhead {listing : Except ServerError CommandOutput} {output : CommandOutput}
      {rest : List Exchange} (hlisting : verdict environment directory "list" listing = .ok output)
      (hrun : ⟨.run command, answer⟩ ∈ ran environment directory "list" listing :: rest)
      (hrest : ⟨.run command, answer⟩ ∈ rest → ∃ output, command.checked answer = .ok output) :
      ∃ output, command.checked answer = .ok output :=
    (List.mem_cons.1 hrun).elim (fun h => ⟨output, (hran h).2.trans hlisting⟩) hrest
  cases h with
  | upToDate hlisting => exact hhead hlisting hrun (by simp)
  | updated hlisting _ _ _ hwriting =>
    refine hhead hlisting hrun fun hrun => ?_
    rcases List.mem_cons.1 hrun with hrun | hrun
    · exact absurd ((hran hrun).1 ▸ hvital) hupdate
    · exact absurd hrun (hwritten hwriting)
  | updateFailed hlisting =>
    refine hhead hlisting hrun fun hrun => ?_
    rcases List.mem_cons.1 hrun with hrun | hrun
    · exact absurd ((hran hrun).1 ▸ hvital) hupdate
    · cases List.mem_singleton.1 hrun
  | installed hlisting _ hinstall hwriting =>
    refine hhead hlisting hrun fun hrun => ?_
    rcases List.mem_cons.1 hrun with hrun | hrun
    · exact ⟨_, (hran hrun).2.trans hinstall⟩
    · exact absurd hrun (hwritten hwriting)

end ServerGem

namespace Workspace

theorem Managed.faithful {c : WorkspaceContext} {environment : RuntimeEnvironment}
    {w : Workspace} {l : List Exchange} {r : Outcome (Option GemOutcome)}
    (h : Managed c environment w l r) : Faithful l := by
  cases h with
  | bundled => exact .of_plain (by simp)
  | @own now l _ _ h =>
    have hnow : Faithful [⟨.now, now⟩] := rfl
    exact hnow.append h.faithful

/-- Under a configured bundle the gem tool is left alone. -/
theorem Managed.gemVerbs {c : WorkspaceContext} {environment : RuntimeEnvironment}
    {w : Workspace} {l : List Exchange} {r : Outcome (Option GemOutcome)}
    (h : Managed c environment w l r) :
    if w.settings.bundleGemfile.isSome then gemVerbs l = []
    else gemVerbs l ∈ [["list"], ["list", "install"], ["list", "update"]] := by
  cases h with
  | bundled h =>
    rw [if_pos h]
    rfl
  | own hown h =>
    rw [if_neg (by simp [hown])]
    exact h.gemVerbs

theorem Released.plain {w : Workspace} {l : List Exchange} (h : Released w l) :
    ∀ x ∈ l, x.Plain := by
  cases h with
  | idle => simp
  | left _ _ _ hspeech => exact fun x hx => Exchange.plain_of_isSpeech (hspeech x hx)

theorem Opens.plain {c : SessionContext} {l : List Exchange} {r : Except ServerError Unit}
    (h : Opens c l r) : ∀ x ∈ l, x.Plain := fun x hx => Exchange.plain_of_isSpeech (h.2 x hx)

/-- An opening stops its process again exactly if it fails. -/
theorem Opens.isOk_iff {c : SessionContext} {l : List Exchange} {r : Except ServerError Unit}
    (h : Opens c l r) : r = .ok () ↔ stopped (talk l) = [] := by
  obtain ⟨⟨state, s, hstarted⟩, -⟩ := h
  have hend := hstarted.processes.2.2
  cases r with
  | ok =>
    have hstopped := hend.resolve_right fun h => by simp [hstarted.of_ok.2] at h
    exact iff_of_true rfl hstopped.1
  | error error =>
    have hstopped := hend.resolve_left fun h => by simp [hstarted.of_error.2] at h
    exact iff_of_false (by simp) (by simp [hstopped.1])

/-- Where nothing was said, nothing was opened. -/
theorem Opens.talk_ne_nil {c : SessionContext} {l : List Exchange} {r : Except ServerError Unit}
    (h : Opens c l r) : talk l ≠ [] := by
  obtain ⟨⟨state, s, hstarted⟩, -⟩ := h
  exact fun htalk => hstarted.not_still (still_of_talk_eq_nil htalk)

/-- The probes behind a start report that the version of the server was not found, and nothing
else. -/
theorem Probes.faithful {c : SessionContext} {l : List Exchange} (h : Probes c l) :
    Faithful l := by
  have hbefore {detection : List Exchange} (files : FileTree)
      (h : ∀ x ∈ detection, Session.RunsRuby x.call) :
      Faithful (detection ++ [⟨.files, files⟩]) := by
    have hfiles : Faithful [⟨.files, files⟩] := rfl
    exact Faithful.append (.of_plain fun x hx => Exchange.plain_of_runsRuby (h x hx)) hfiles
  cases h with
  | answered h =>
    obtain ⟨detection, files, answer, rfl, hdetection, hr⟩ := h
    cases hchecked : (Session.versionCommand c files).checked answer with
    | error error => simp [hchecked, Except.map] at hr
    | ok output => simpa using (hbefore files hdetection).append (.succeeded hchecked)
  | @failed _ error h =>
    obtain ⟨detection, files, answer, rfl, hdetection, hr⟩ := h
    cases hchecked : (Session.versionCommand c files).checked answer with
    | ok output => simp [hchecked, Except.map] at hr
    | error fault =>
      obtain rfl : error = fault := by simpa [hchecked, Except.map] using hr
      simpa using (hbefore files hdetection).append (.failed rfl hchecked)

theorem Probes.gemVerbs {c : SessionContext} {l : List Exchange} (h : Probes c l) :
    gemVerbs l = [] := by
  have hprobed {r : Except ServerError Unit} {l : List Exchange} (h : Session.Probed c l r) :
      RubySupervisor.gemVerbs l = [] := by
    obtain ⟨detection, files, answer, rfl, hdetection, -⟩ := h
    rw [gemVerbs_append, gemVerbs_of_plain fun x hx => Exchange.plain_of_runsRuby (hdetection x hx)]
    rfl
  cases h with
  | answered h => exact hprobed h
  | failed h =>
    rw [gemVerbs_append, hprobed h]
    rfl

namespace Stages

/-- A stage before the release of the old client fails: the directory of the server cannot be
created, or a vital command about its gem fails. -/
inductive Fails (s : Stages) : Prop
  | creation {path : Path} {fault : FileError}
      (h : ⟨.makeDirectories path, .error fault⟩ ∈ s.creation)
  | gem {command : Command} {answer : Except ServerError CommandOutput} {error : ServerError}
      (h : ⟨.run command, answer⟩ ∈ s.gems) (hvital : ServerGem.IsVital command)
      (hfailed : command.checked answer = .error error)

end Stages

/-- How the stages behind the activation end: before the old client is released, which is left
alone, or as the new one is opened. -/
theorem Proceeds.ended {c : WorkspaceContext} {environment : RuntimeEnvironment}
    {w w' : Workspace} {s : Stages} {r : Outcome Unit} (h : Proceeds c environment w s r w') :
    s.Fails ∧ (∃ fault, r = .error fault) ∧ talk s.trace = [] ∧ w'.client = w.client ∨
      ¬ s.Fails ∧ ∃ answer, Opens (sessionContext c w environment) s.opening answer ∧
        r = ofServer answer := by
  -- where the gems are managed, no vital command failed, so that only what is opened decides
  have hready {s : Stages} {outcome : Option GemOutcome}
      (hgems : Managed c environment w s.gems (.ok outcome))
      (hcreation : s.creation = [⟨.makeDirectories (c.root.join ".ruby-lsp"), .ok ()⟩]) :
      ¬ s.Fails := by
    rintro (hmade | @⟨command, answer, error, hrun, hvital, hfailed⟩)
    · rw [hcreation] at hmade
      cases List.mem_singleton.1 hmade
    · rcases hgems.of_ok with hnone | ⟨now, rest, outcome, hsome, hsetUp⟩
      · simp [hnone] at hrun
      · have hrun : ⟨.run command, answer⟩ ∈ rest := by simpa [hsome] using hrun
        obtain ⟨output, hchecked⟩ := hsetUp.succeeded hrun hvital
        cases hfailed.symm.trans hchecked
  cases h with
  | notWritable => exact .inl ⟨.creation (.head _), ⟨_, rfl⟩, rfl, rfl⟩
  | unmanaged hgems =>
    have htalk := hgems.talk_trace (c.root.join ".ruby-lsp")
    obtain ⟨now, rest, rfl, hsetUp⟩ := hgems.of_error
    obtain ⟨command, answer, fault, hrun, hvital, hfailed⟩ := hsetUp.failed
    exact .inl ⟨.gem (.tail _ hrun) hvital hfailed, ⟨_, rfl⟩, htalk, rfl⟩
  | refused hgems _ hopening => exact .inr ⟨hready hgems rfl, _, hopening, rfl⟩
  | running hgems _ hopening => exact .inr ⟨hready hgems rfl, _, hopening, rfl⟩

/-- The gem tool is asked in one stage only, and failures are reported if they are in that stage and
in the last one. -/
theorem Stages.notes {s : Stages} (hcreation : ∀ x ∈ s.creation, x.Plain)
    (hgems : Faithful s.gems) (hrelease : ∀ x ∈ s.release, x.Plain)
    (hopening : ∀ x ∈ s.opening, x.Plain)
    (hprobing : Faithful s.probing ∧ gemVerbs s.probing = []) :
    Faithful s.trace ∧ gemVerbs s.trace = gemVerbs s.gems := by
  refine ⟨?_, ?_⟩
  · have hfirst := (Faithful.of_plain hcreation).append hgems
    have hlater := (hfirst.append (.of_plain hrelease)).append (.of_plain hopening)
    exact hlater.append hprobing.1
  · simp only [trace, gemVerbs_append, gemVerbs_of_plain hcreation, gemVerbs_of_plain hrelease,
      gemVerbs_of_plain hopening, hprobing.2, List.append_nil, List.nil_append]

/-- What the stages behind the activation ask of the gem tool, and what they report. -/
theorem Proceeds.notes {c : WorkspaceContext} {environment : RuntimeEnvironment}
    {w w' : Workspace} {s : Stages} {r : Outcome Unit} (h : Proceeds c environment w s r w') :
    Faithful s.trace ∧
      gemVerbs s.trace ∈ [[], ["list"], ["list", "install"], ["list", "update"]] ∧
      (w.settings.bundleGemfile.isSome = true → gemVerbs s.trace = []) := by
  have hcreation (answer : Except FileError Unit) :
      ∀ x ∈ [(⟨.makeDirectories (c.root.join ".ruby-lsp"), answer⟩ : Exchange)], x.Plain :=
    fun x hx => by
      rw [List.mem_singleton.1 hx]
      exact Exchange.plain_of_isLocal rfl
  have hnil : ∀ x ∈ ([] : List Exchange), x.Plain := by simp
  have hquiet : Faithful [] ∧ gemVerbs [] = [] := ⟨rfl, rfl⟩
  have hmanaged {s : Stages} {r : Outcome (Option GemOutcome)}
      (hgems : Managed c environment w s.gems r)
      (hnotes : Faithful s.trace ∧ gemVerbs s.trace = gemVerbs s.gems) :
      Faithful s.trace ∧
        gemVerbs s.trace ∈ [[], ["list"], ["list", "install"], ["list", "update"]] ∧
        (w.settings.bundleGemfile.isSome = true → gemVerbs s.trace = []) := by
    rw [hnotes.2]
    have hverbs := hgems.gemVerbs
    split at hverbs
    · exact ⟨hnotes.1, hverbs ▸ .head _, fun _ => hverbs⟩
    · rename_i hbundle
      exact ⟨hnotes.1, .tail _ hverbs, fun h => absurd h hbundle⟩
  cases h with
  | @notWritable fault =>
    obtain ⟨hfaithful, hverbs⟩ := Stages.notes (s := { Stages.none with
      creation := [⟨.makeDirectories (c.root.join ".ruby-lsp"), .error fault⟩] })
      (hcreation _) rfl hnil hnil hquiet
    exact ⟨hfaithful, hverbs ▸ .head _, fun _ => hverbs⟩
  | unmanaged hgems =>
    exact hmanaged hgems (Stages.notes (hcreation _) hgems.faithful hnil hnil hquiet)
  | refused hgems hrelease hopening =>
    exact hmanaged hgems (Stages.notes (hcreation _) hgems.faithful hrelease.plain hopening.plain
      hquiet)
  | running hgems hrelease hopening hprobing =>
    exact hmanaged hgems (Stages.notes (hcreation _) hgems.faithful hrelease.plain hopening.plain
      ⟨hprobing.faithful, hprobing.gemVerbs⟩)

/-- A start fails before the old client is let go: Ruby is not active, or a stage fails. -/
def Fails (c : WorkspaceContext) (w : Workspace) (activation : List Exchange) (s : Stages) : Prop :=
  (∃ error w', Activates c w activation (.error error) w') ∨ s.Fails

/-- The course of a start through its stages. -/
structure Course (c : WorkspaceContext) (w : Workspace) (activation : List Exchange) (s : Stages)
    (r : Outcome Unit) (w' : Workspace) : Prop where
  /-- Each stage goes in one of the ways in which it can. -/
  staged : Staged c w activation s r w'
  /-- The activation stays with files, the interpreter and the choice of the user. -/
  activating : ∀ x ∈ activation, x.call.isLocal = true
  /-- The gem is listed before anything else is done about it, and not touched twice. -/
  gems : gemVerbs (activation ++ s.trace) ∈ [[], ["list"], ["list", "install"], ["list", "update"]]
  /-- Under a configured bundle the gem tool is left alone. -/
  bundled : w.settings.bundleGemfile.isSome = true → gemVerbs (activation ++ s.trace) = []
  /-- A failure before the old client is let go ends the start and leaves that client alone. -/
  failed : Fails c w activation s → (∃ fault, r = .error fault) ∧
    talk (activation ++ s.trace) = [] ∧ w'.client = w.client
  /-- Without one, the start ends as the opening of the new client does. -/
  opened : ¬ Fails c w activation s → ∃ environment answer,
    Opens (sessionContext c w environment) s.opening answer ∧ r = ofServer answer
  /-- It succeeds exactly if that opening does. -/
  succeeds : r = .ok () ↔
    ∃ environment, Opens (sessionContext c w environment) s.opening (.ok ())
  /-- A failed update and a failed probe are reported once each, and nothing else is. -/
  faithful : Faithful (activation ++ s.trace)

/-- Where Ruby was activated, its activation did not fail. -/
theorem Activates.unique {c : WorkspaceContext} {w w₁ w₂ : Workspace} {l : List Exchange}
    {answer₁ answer₂ : Except RubyError RuntimeEnvironment} (h₁ : Activates c w l answer₁ w₁)
    (h₂ : Activates c w l answer₂ w₂) : answer₁ = answer₂ := by
  obtain ⟨store₁, hyields₁, -⟩ := h₁
  obtain ⟨store₂, hyields₂, -⟩ := h₂
  exact (hyields₁.unique hyields₂).1

/-- The activation stays with files, the interpreter and the choice of the user. -/
theorem Activates.isLocal {c : WorkspaceContext} {w w' : Workspace} {l : List Exchange}
    {answer : Except RubyError RuntimeEnvironment} (h : Activates c w l answer w') :
    ∀ x ∈ l, x.call.isLocal = true := by
  obtain ⟨store, hyields, -⟩ := h
  exact (Resolution.local_activate _).yields hyields

/-- A start that goes in one of the ways in which it can takes its course. -/
theorem Staged.course {c : WorkspaceContext} {w w' : Workspace} {activation : List Exchange}
    {s : Stages} {r : Outcome Unit} (h : Staged c w activation s r w') :
    Course c w activation s r w' := by
  -- everything the activation asks is local: it runs no gem command and sends nothing
  have hactivation : ∀ x ∈ activation, x.call.isLocal = true := by
    cases h with
    | unactivated h => exact h.isLocal
    | activated h => exact h.isLocal
  have hplain : ∀ x ∈ activation, x.Plain := fun x hx =>
    Exchange.plain_of_isLocal (hactivation x hx)
  have htalk : talk activation = [] := List.filter_eq_nil_iff.2 fun x hx => by
    simp [Call.isTransport_of_isLocal (hactivation x hx)]
  have hverbs : gemVerbs (activation ++ s.trace) = gemVerbs s.trace := by
    rw [gemVerbs_append, gemVerbs_of_plain hplain, List.nil_append]
  -- an activation that failed has no stages behind it; behind one that succeeded, all that is said
  -- of the start is said of its stages
  cases h with
  | @unactivated error w₁ hactivates =>
    have hfails : Fails c w activation .none := .inl ⟨error, w₁, hactivates⟩
    refine ⟨.unactivated hactivates, hactivation, ?_, ?_, ?_, ?_, ?_, ?_⟩
    · exact hverbs ▸ .head _
    · exact fun _ => hverbs
    · obtain ⟨store, -, rfl⟩ := hactivates
      exact fun _ => ⟨⟨_, rfl⟩, by rw [talk_append, htalk]; rfl, rfl⟩
    · exact fun h => absurd hfails h
    · refine iff_of_false (by simp) ?_
      rintro ⟨_, hopens⟩
      exact hopens.talk_ne_nil rfl
    · exact Faithful.append (.of_plain hplain) (.of_plain (by simp [Stages.trace, Stages.none]))
  | @activated environment _ _ w₁ _ hactivates hrest =>
    have hfails : Fails c w activation s ↔ s.Fails := by
      refine or_iff_right ?_
      rintro ⟨error, w₂, hfailed⟩
      cases hfailed.unique hactivates
    have hstaged : Staged c w activation s r w' := .activated hactivates hrest
    obtain ⟨hfaithful, hgems, hbundled⟩ := hrest.notes
    have hended := hrest.ended
    obtain ⟨store, -, rfl⟩ := hactivates
    refine ⟨hstaged, hactivation, ?_, ?_, ?_, ?_, ?_, ?_⟩
    · rwa [hverbs]
    · rwa [hverbs]
    · rw [hfails]
      intro hfailed
      obtain ⟨-, hfault, htalk', hclient⟩ := hended.resolve_right fun h => h.1 hfailed
      exact ⟨hfault, by rw [talk_append, htalk, htalk', List.append_nil], hclient⟩
    · rw [hfails]
      intro hready
      obtain ⟨-, answer, hopens, hr⟩ := hended.resolve_left fun h => hready h.1
      exact ⟨environment, answer, hopens, hr⟩
    · rcases hended with ⟨-, ⟨fault, rfl⟩, htalk', -⟩ | ⟨-, answer, hopens, rfl⟩
      · refine iff_of_false (by simp) ?_
        rintro ⟨_, hopens⟩
        simp only [Stages.trace, talk_append, List.append_eq_nil_iff] at htalk'
        exact hopens.talk_ne_nil htalk'.1.2
      · constructor
        · intro hok
          cases answer with
          | ok => exact ⟨environment, hopens⟩
          | error error => cases hok
        · rintro ⟨_, hopens'⟩
          rw [hopens.isOk_iff.2 (hopens'.isOk_iff.1 rfl)]
          rfl
    · exact Faithful.append (.of_plain hplain) hfaithful

end Workspace

end RubySupervisor
