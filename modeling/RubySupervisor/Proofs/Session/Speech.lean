import RubySupervisor.Proofs.Session.Conduct

/-!
# What sessions call

Starting and stopping a session speaks to its transport, and beside that only the meter makes calls.
The probes behind a start run commands in the project and look at its files; the last of them is
the question for the version of the server.
-/

open RubySupervisor.Task

namespace RubySupervisor

/-- Whether a call is one of the meter: it takes the time, reports a message or shows its error. -/
def Call.isMetering : Call → Bool
  | stopwatch => true
  | telemetry (.message _) => true
  | popup _ => true
  | _ => false

/-- Whether a call belongs to a conversation: it goes to a transport or is one of the meter. -/
def Call.isSpeech (c : Call) : Bool := c.isTransport || c.isMetering

/-- A task only converses. -/
abbrev Task.Speaking {σ α : Type} (t : Task σ α) : Prop := t.Only fun c => c.isSpeech = true

theorem Task.speaking_ask {σ : Type} {c : Call} (h : c.isSpeech = true) :
    (ask c : Task σ c.Answer).Speaking := only_ask h

namespace Meter

theorem speaking_report {σ : Type} (c : MeasuringContext) (m : MeasuredMessage) (failed : Bool) :
    (report c m failed : Task σ Unit).Speaking := by
  refine (speaking_ask rfl).bind fun _ => ?_
  split
  · exact speaking_ask rfl
  · exact only_pure _

theorem speaking_request (c : MeasuringContext) (transport : Nat) (server : ServerId) (r : Request)
    (timeout : Option Span) : (request c transport server r timeout).Speaking := by
  refine only_get.bind fun m => (only_put _).bind fun _ => ?_
  split
  · exact speaking_ask rfl
  · refine (speaking_ask rfl).bind fun _ => (speaking_ask rfl).bind fun _ =>
      (speaking_ask rfl).bind fun _ => ?_
    exact (speaking_report _ _ _).bind fun _ => only_pure _

theorem speaking_notify (c : MeasuringContext) (transport : Nat) (server : ServerId)
    (n : Notification) : (notify c transport server n).Speaking := by
  refine only_get.bind fun m => (only_put _).bind fun _ => ?_
  split
  · exact speaking_ask rfl
  · refine (speaking_ask rfl).bind fun _ => (speaking_ask rfl).bind fun _ =>
      (speaking_ask rfl).bind fun _ => ?_
    exact (speaking_report _ _ _).bind fun _ => only_pure _

end Meter

namespace Session

theorem speaking_send (c : SessionContext) (server : ServerId) (r : Request)
    (timeout : Option Span) : (send c server r timeout).Speaking := by
  unfold send
  split
  · exact speaking_ask rfl
  · exact (Meter.speaking_request _ _ _ _ _).within _

theorem speaking_sendNotification (c : SessionContext) (server : ServerId) (n : Notification) :
    (sendNotification c server n).Speaking := by
  unfold sendNotification
  split
  · exact speaking_ask rfl
  · exact (Meter.speaking_notify _ _ _ _).within _

theorem speaking_takeRequestId : takeRequestId.Speaking :=
  only_get.bind fun _ => (only_put _).bind fun _ => only_pure _

theorem speaking_requestOn (c : SessionContext) (server : ServerId) (method : String)
    (params : Json) : (requestOn c server method params).Speaking := by
  refine speaking_takeRequestId.bind fun id => (speaking_send _ _ _ _).bind fun answer => ?_
  split
  · exact only_pure _
  · split <;> exact only_pure _

theorem speaking_handshake (c : SessionContext) (server : ServerId) :
    (handshake c server).Speaking := by
  unfold handshake
  split
  · exact only_pure _
  · refine (speaking_requestOn _ _ _ _).bind fun answer => ?_
    split
    · exact only_pure _
    · split
      · exact only_pure _
      · exact speaking_sendNotification _ _ _

/-- A start converses. -/
theorem speaking_start (c : SessionContext) : (start c).Speaking := by
  refine only_get.bind fun s => ?_
  split
  · exact only_pure _
  · refine (only_put _).bind fun _ => ?_
    have hprocess : (startProcess c s.last.next).Speaking := by
      refine (speaking_ask rfl).bind fun started => ?_
      split
      · exact only_pure _
      · exact speaking_handshake _ _
    refine hprocess.bind fun started => ?_
    split
    · exact (only_change _).bind fun _ => only_pure _
    · exact (only_change _).bind fun _ => (speaking_ask rfl).bind fun _ =>
        (only_change _).bind fun _ => only_pure _

/-- A stop converses. -/
theorem speaking_stop (c : SessionContext) : (stop c).Speaking := by
  refine only_get.bind fun s => ?_
  split
  · exact (only_change _).bind fun _ => only_pure _
  · exact (only_put _).bind fun _ => speaking_takeRequestId.bind fun _ =>
      (speaking_send _ _ _ _).bind fun _ => (speaking_sendNotification _ _ _).bind fun _ =>
        (speaking_ask rfl).bind fun _ => (only_change _).bind fun _ => only_pure _

/-- The command that asks the bundle of a session for the version of the server. -/
def versionCommand (c : SessionContext) (files : FileTree) : Command :=
  { program := "bundle"
    arguments := BundleProbe.versionArguments
    directory := c.options.root
    environment := c.environment.withVariable "BUNDLE_GEMFILE"
      (BundleProbe.serverGemfile files c.options.root c.options.bundleGemfile).text
    timeout := none }

/-- A call runs Ruby in the project. -/
def RunsRuby (call : Call) : Prop := ∃ command, call = .run command ∧ command.program = "ruby"

theorem runsRuby_detectFormatter {σ : Type} (environment : RuntimeEnvironment) (directory : Path) :
    (BundleProbe.detectFormatter environment directory : Task σ Formatter).Only RunsRuby := by
  have hprobe (pattern : String) :
      (BundleProbe.hasDependency environment directory pattern : Task σ Bool).Only RunsRuby := by
    refine (only_ask ⟨_, rfl, rfl⟩).bind fun answer => ?_
    split <;> exact only_pure _
  refine (hprobe _).bind fun found => ?_
  split
  · exact only_pure _
  · refine (hprobe _).bind fun found => ?_
    split <;> exact only_pure _

/-- What the probes behind a start ask: first, as far as the settings leave it open, for the
formatter, then for the version of the server. They succeed if the last answer does. -/
def Probed (c : SessionContext) (l : List Exchange) (r : Except ServerError Unit) : Prop :=
  ∃ detection files answer,
    l = detection ++ [⟨.files, files⟩, ⟨.run (versionCommand c files), answer⟩] ∧
      (∀ x ∈ detection, RunsRuby x.call) ∧
      r = ((versionCommand c files).checked answer).map fun _ => ()

/-- The probe for the version looks at the files and then runs one command. -/
theorem ensures_serverVersion_asked (c : SessionContext) (s : Session) :
    (BundleProbe.serverVersion c.environment c.options.root c.options.bundleGemfile).Ensures
      (fun l r _ => ∃ files answer,
        l = [⟨.files, files⟩, ⟨.run (versionCommand c files), answer⟩] ∧
          r = ((versionCommand c files).checked answer).map fun output =>
            Text.trim output.errors) s := by
  simp only [BundleProbe.serverVersion, Task.ensures_bind, Task.ask_eq, Task.ensures_call,
    Task.ensures_done]
  intro files answer
  split
  · rename_i output hchecked
    have hchecked : (versionCommand c files).checked answer = .ok output := hchecked
    exact ⟨files, answer, rfl, by rw [hchecked]; rfl⟩
  · rename_i error hchecked
    have hchecked : (versionCommand c files).checked answer = .error error := hchecked
    exact ⟨files, answer, rfl, by rw [hchecked]; rfl⟩

/-- The probes behind a start ask in this order. -/
theorem ensures_afterStart_probed (c : SessionContext) (s : Session) :
    (afterStart c).Ensures (fun l r _ => Probed c l r) s := by
  -- what follows the choice of the formatter, whichever way it was made
  have hversion (detection : List Exchange) (hdetection : ∀ x ∈ detection, RunsRuby x.call)
      {f : Except ServerError String → Task Session (Except ServerError Unit)}
      (hf : ∀ version s, (f version).Ensures
        (fun l r _ => l = [] ∧ r = version.map fun _ => ()) s) (s : Session) :
      (BundleProbe.serverVersion c.environment c.options.root c.options.bundleGemfile >>= f).Ensures
        (fun l r _ => Probed c (detection ++ l) r) s := by
    refine (Task.ensures_bind _ _ _ s).2 ((ensures_serverVersion_asked c s).mono
      fun l version s' hasked => (hf version s').mono fun l' r _ hrecorded => ?_)
    obtain ⟨files, answer, rfl, rfl⟩ := hasked
    obtain ⟨rfl, rfl⟩ := hrecorded
    refine ⟨detection, files, answer, by simp, hdetection, ?_⟩
    cases (versionCommand c files).checked answer <;> rfl
  unfold afterStart
  split
  · refine (Task.ensures_bind _ _ _ s).2 (Task.ensures_of_yields fun l formatter s' hyields => ?_)
    refine hversion l ((runsRuby_detectFormatter _ _).yields hyields) (fun version s => ?_)
      { s' with formatter := some formatter }
    cases version <;> exact ⟨rfl, rfl⟩
  · refine hversion [] (by simp) (fun version s => ?_)
      { s with formatter := some (Formatter.ofName c.options.initialization.formatter) }
    cases version <;> exact ⟨rfl, rfl⟩

end Session

end RubySupervisor
