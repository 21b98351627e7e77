import RubySupervisor.Proofs.Session.Speech
import RubySupervisor.Session.Editing

/-!
# What a server is launched with

The options of a session decide how its server is launched and what it is told when it is
initialized. A session launches its server by its own options, and nothing else that it does is a
launch.
-/

open RubySupervisor.Task

namespace RubySupervisor

/-- How a server is launched: its program, the arguments, the directory and the seconds that it has
for an answer. -/
structure LaunchTerms where
  program : String
  arguments : List String
  directory : Path
  timeoutSeconds : Nat
  deriving DecidableEq, Repr

/-- The terms by which options launch a server. -/
def SessionOptions.terms (o : SessionOptions) : LaunchTerms :=
  ⟨o.launch.program, o.launch.arguments, o.root, o.requestTimeout.wholeSeconds⟩

/-- The terms by which a server is launched. -/
def ServerLaunch.terms (l : ServerLaunch) : LaunchTerms :=
  ⟨l.command, l.arguments, l.directory, l.timeoutSeconds⟩

/-- What a request initializes a server with, where it is there to initialize one. -/
def Request.initialization? (r : Request) : Option (Option Json) :=
  if r.method = "initialize" then some (r.params.member? "initializationOptions") else none

namespace Call

/-- The terms by which a call launches a server, if it does. -/
def terms? : Call → Option LaunchTerms
  | startServer _ launch => some launch.terms
  | _ => none

/-- What a call initializes a server with, if it does. -/
def initialization? : Call → Option (Option Json)
  | request _ _ r _ => r.initialization?
  | _ => none

/-- A call launches and initializes a server by options, if it does. -/
structure Conforms (o : SessionOptions) (c : Call) : Prop where
  terms : ∀ terms, c.terms? = some terms → terms = o.terms
  initialization : ∀ told, c.initialization? = some told → told = some o.initialization.toJson

/-- Only a call on a transport launches a server. -/
theorem conforms_of_isTransport {o : SessionOptions} {c : Call} (h : c.isTransport = false) :
    c.Conforms o := by
  cases c <;> first | (cases h; done) | exact ⟨nofun, nofun⟩

theorem conforms_request {o : SessionOptions} {r : Request} (h : r.method ≠ "initialize")
    (transport : Nat) (server : ServerId) (timeout : Option Span) :
    (request transport server r timeout).Conforms o :=
  ⟨nofun, fun told htold => by simp [initialization?, Request.initialization?, h] at htold⟩

/-- A call shows that options are not others: it launches a server for which their terms differ, or
initializes one for which that differs. -/
def TellsApart (c : Call) (o o' : SessionOptions) : Prop :=
  c.terms?.isSome = true ∧ o.terms ≠ o'.terms ∨
    c.initialization?.isSome = true ∧ o.initialization ≠ o'.initialization

instance (c : Call) (o o' : SessionOptions) : Decidable (c.TellsApart o o') :=
  inferInstanceAs (Decidable (_ ∧ _ ∨ _ ∧ _))

end Call

/-- Options are told apart by what a server is told of them. -/
theorem InitializationOptions.toJson_injective {o o' : InitializationOptions}
    (h : o.toJson = o'.toJson) : o = o' := by
  obtain ⟨features, experimental, formatter⟩ := o
  obtain ⟨features', experimental', formatter'⟩ := o'
  have htext (s t : String) (h : Json.text s = Json.text t) : s = t := by
    cases h
    rfl
  simpa [toJson, List.map_inj_right htext] using h

/-- What conforms to options conforms to others unless it tells them apart. -/
theorem Call.Conforms.iff_not_tellsApart {c : Call} {o o' : SessionOptions} (h : c.Conforms o) :
    c.Conforms o' ↔ ¬ c.TellsApart o o' := by
  constructor
  · rintro h' (⟨hsome, hdiffers⟩ | ⟨hsome, hdiffers⟩)
    · obtain ⟨terms, hterms⟩ := Option.isSome_iff_exists.1 hsome
      exact hdiffers ((h.terms terms hterms).symm.trans (h'.terms terms hterms))
    · obtain ⟨told, htold⟩ := Option.isSome_iff_exists.1 hsome
      have hsame := (h.initialization told htold).symm.trans (h'.initialization told htold)
      exact hdiffers (InitializationOptions.toJson_injective (Option.some.inj hsame))
  · refine fun hnot => ⟨fun terms hterms => ?_, fun told htold => ?_⟩
    · have hsame : o.terms = o'.terms := Decidable.of_not_not fun hdiffers =>
        hnot (.inl ⟨by rw [hterms]; rfl, hdiffers⟩)
      rw [← hsame]
      exact h.terms terms hterms
    · have hsame : o.initialization = o'.initialization := Decidable.of_not_not fun hdiffers =>
        hnot (.inr ⟨by rw [htold]; rfl, hdiffers⟩)
      rw [← hsame]
      exact h.initialization told htold

/-- A task launches servers by options. -/
abbrev Task.Conforming {σ α : Type} (o : SessionOptions) (t : Task σ α) : Prop :=
  t.Only fun c => c.Conforms o

theorem Task.conforming_ask {σ : Type} {o : SessionOptions} {c : Call}
    (h : c.terms? = none ∧ c.initialization? = none) : (ask c : Task σ c.Answer).Conforming o :=
  only_ask ⟨by simp [h.1], by simp [h.2]⟩

namespace Meter

theorem conforming_report {σ : Type} (o : SessionOptions) (c : MeasuringContext)
    (m : MeasuredMessage) (failed : Bool) : (report c m failed : Task σ Unit).Conforming o := by
  refine (conforming_ask ⟨rfl, rfl⟩).bind fun _ => ?_
  split
  · exact conforming_ask ⟨rfl, rfl⟩
  · exact only_pure _

/-- A meter passes a request on. -/
theorem conforming_request {o : SessionOptions} (c : MeasuringContext) {transport : Nat}
    {server : ServerId} {r : Request} {timeout : Option Span}
    (h : (Call.request transport server r timeout).Conforms o) :
    (request c transport server r timeout).Conforming o := by
  refine only_get.bind fun m => (only_put _).bind fun _ => ?_
  split
  · exact only_ask h
  · refine (conforming_ask ⟨rfl, rfl⟩).bind fun _ => (only_ask h).bind fun _ =>
      (conforming_ask ⟨rfl, rfl⟩).bind fun _ => ?_
    exact (conforming_report _ _ _ _).bind fun _ => only_pure _

theorem conforming_notify (o : SessionOptions) (c : MeasuringContext) (transport : Nat)
    (server : ServerId) (n : Notification) : (notify c transport server n).Conforming o := by
  refine only_get.bind fun m => (only_put _).bind fun _ => ?_
  split
  · exact conforming_ask ⟨rfl, rfl⟩
  · refine (conforming_ask ⟨rfl, rfl⟩).bind fun _ => (conforming_ask ⟨rfl, rfl⟩).bind fun _ =>
      (conforming_ask ⟨rfl, rfl⟩).bind fun _ => ?_
    exact (conforming_report _ _ _ _).bind fun _ => only_pure _

end Meter

namespace Session

theorem conforming_send {o : SessionOptions} (c : SessionContext) {server : ServerId} {r : Request}
    {timeout : Option Span} (h : (Call.request c.transport server r timeout).Conforms o) :
    (send c server r timeout).Conforming o := by
  unfold send
  split
  · exact only_ask h
  · exact (Meter.conforming_request _ h).within _

theorem conforming_sendNotification (o : SessionOptions) (c : SessionContext) (server : ServerId)
    (n : Notification) : (sendNotification c server n).Conforming o := by
  unfold sendNotification
  split
  · exact conforming_ask ⟨rfl, rfl⟩
  · exact (Meter.conforming_notify _ _ _ _ _).within _

theorem conforming_takeRequestId (o : SessionOptions) : takeRequestId.Conforming o :=
  only_get.bind fun _ => (only_put _).bind fun _ => only_pure _

theorem conforming_requestOn {o : SessionOptions} (c : SessionContext) (server : ServerId)
    {method : String} {params : Json}
    (h : ∀ id told, Request.initialization? ⟨id, method, params⟩ = some told →
      told = some o.initialization.toJson) :
    (requestOn c server method params).Conforming o := by
  refine (conforming_takeRequestId o).bind fun id => ?_
  refine (conforming_send c ⟨nofun, h id⟩).bind fun answer => ?_
  split
  · exact only_pure _
  · split <;> exact only_pure _

/-- A new process is initialized by the options of its session. -/
theorem conforming_handshake (c : SessionContext) (server : ServerId) :
    (handshake c server).Conforming c.options := by
  unfold handshake
  split
  · exact only_pure _
  · next rootUri _ =>
    refine (conforming_requestOn c server fun id told htold => ?_).bind fun answer => ?_
    · exact (Option.some.inj htold).symm
    · split
      · exact only_pure _
      · split
        · exact only_pure _
        · exact conforming_sendNotification _ _ _ _

/-- A session starts its server by its own options. -/
theorem conforming_start (c : SessionContext) : (start c).Conforming c.options := by
  refine only_get.bind fun s => ?_
  split
  · exact only_pure _
  · refine (only_put _).bind fun _ => ?_
    have hprocess : (startProcess c s.last.next).Conforming c.options := by
      refine (only_ask ⟨fun terms hterms => (Option.some.inj hterms).symm, nofun⟩).bind
        fun started => ?_
      split
      · exact only_pure _
      · exact conforming_handshake _ _
    refine hprocess.bind fun started => ?_
    split
    · exact (only_change _).bind fun _ => only_pure _
    · exact (only_change _).bind fun _ => (conforming_ask ⟨rfl, rfl⟩).bind fun _ =>
        (only_change _).bind fun _ => only_pure _

/-- A stop launches nothing. -/
theorem conforming_stop (o : SessionOptions) (c : SessionContext) : (stop c).Conforming o := by
  refine only_get.bind fun s => ?_
  split
  · exact (only_change _).bind fun _ => only_pure _
  · exact (only_put _).bind fun _ => (conforming_takeRequestId o).bind fun _ =>
      (conforming_send c (Call.conforms_request (r := ⟨_, "shutdown", .null⟩) (by simp) _ _ _)).bind
        fun _ => (conforming_sendNotification _ _ _ _).bind fun _ =>
          (conforming_ask ⟨rfl, rfl⟩).bind fun _ => (only_change _).bind fun _ => only_pure _

/-- A session restarts its server by its own options. -/
theorem conforming_restart (c : SessionContext) : (restart c).Conforming c.options := by
  have hstart : (do let _ ← start c : Task Session Unit).Conforming c.options :=
    (conforming_start c).bind fun _ => only_pure _
  refine (conforming_ask ⟨rfl, rfl⟩).bind fun files => ?_
  split
  · exact only_pure _
  · refine only_get.bind fun s => ?_
    split
    · refine (conforming_stop _ c).bind fun stopped => ?_
      split
      · exact hstart
      · exact only_pure _
    · exact hstart

/-- The probes behind a start launch nothing. -/
theorem conforming_afterStart (o : SessionOptions) (c : SessionContext) :
    (afterStart c).Conforming o := by
  have hprobe (pattern : String) : (BundleProbe.hasDependency c.environment c.options.root pattern :
      Task Session Bool).Conforming o := by
    refine (conforming_ask ⟨rfl, rfl⟩).bind fun answer => ?_
    split <;> exact only_pure _
  have hdetect : (BundleProbe.detectFormatter c.environment c.options.root :
      Task Session Formatter).Conforming o := by
    refine (hprobe _).bind fun found => ?_
    split
    · exact only_pure _
    · refine (hprobe _).bind fun found => ?_
      split <;> exact only_pure _
  have hversion : (BundleProbe.serverVersion c.environment c.options.root c.options.bundleGemfile :
      Task Session (Except ServerError String)).Conforming o := by
    refine (conforming_ask ⟨rfl, rfl⟩).bind fun files => (conforming_ask ⟨rfl, rfl⟩).bind
      fun answer => ?_
    split <;> exact only_pure _
  unfold afterStart
  split
  · refine hdetect.bind fun formatter => (only_change _).bind fun _ => hversion.bind
      fun version => ?_
    split
    · exact only_pure _
    · exact (only_change _).bind fun _ => only_pure _
  · refine (only_change _).bind fun _ => hversion.bind fun version => ?_
    split
    · exact only_pure _
    · exact (only_change _).bind fun _ => only_pure _

/-- Taking in what a transport reports launches nothing. -/
theorem conforming_observe (o : SessionOptions) (c : SessionContext) (event : TransportEvent) :
    (observe c event).Conforming o := by
  refine only_get.bind fun s => ?_
  split
  · split
    · exact (only_put _).bind fun _ => (conforming_ask ⟨rfl, rfl⟩).bind fun _ => only_change _
    · exact only_pure _
  · split
    · exact (conforming_ask ⟨rfl, rfl⟩).bind fun _ => only_pure _
    · exact only_pure _
  · exact only_pure _

/-- A request about anything else launches nothing. -/
theorem conforming_request_other (o : SessionOptions) (c : SessionContext) {method : String}
    (params : Json) (h : method ≠ "initialize") : (request c method params).Conforming o := by
  refine only_get.bind fun s => ?_
  split
  · exact only_pure _
  · exact conforming_requestOn c _ fun id told htold => by
      simp [Request.initialization?, h] at htold

theorem conforming_codeLenses (o : SessionOptions) (c : SessionContext) (uri : String) :
    (codeLenses c uri).Conforming o := by
  refine (conforming_request_other o c _ (by decide)).bind fun answer => ?_
  split
  · exact only_pure _
  · split <;> exact only_pure _

theorem conforming_syntaxTree (o : SessionOptions) (c : SessionContext) (uri : String)
    (range : Option Range) : (syntaxTree c uri range).Conforming o := by
  refine (conforming_request_other o c _ (by decide)).bind fun answer => ?_
  split <;> exact only_pure _

end Session

end RubySupervisor
