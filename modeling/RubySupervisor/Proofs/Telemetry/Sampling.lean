import RubySupervisor.Proofs.Host.Trace
import RubySupervisor.Telemetry.Meter

/-!
# Sampling of messages

A meter sends what it is given to the transport once and hands back what it gets. Everything else
that it does goes to the clock, the telemetry sink and the user.

Messages pass a meter one after the other, and at some point the version of the server becomes
known: before a message, behind it, or while it is under way. The meter passes every message on and
hands its answer back. It reports exactly the messages that begin when the version is known and the
warm-up is over, and shows exactly those of them that the server failed, where the server itself is
developed. This file states what one message does to a meter, and derives what a sequence does.
-/

/-! ## Transparency of the meter -/

namespace RubySupervisor.Meter

variable {σ : Type}

/-- A report does not go to the transport and changes nothing. -/
theorem ensures_report (c : MeasuringContext) (m : MeasuredMessage) (failed : Bool) (s : σ) :
    (report c m failed).Ensures (fun l _ s' => talk l = [] ∧ s' = s) s := by
  simp only [report, Task.ensures_bind, Task.ask_eq, Task.ensures_call, Task.ensures_done]
  intro _
  split <;> simp [Call.isTransport, Call.addressee?]

/-- A request through a meter is one request to the transport, whose answer is handed back. -/
theorem ensures_request (c : MeasuringContext) (transport : Nat) (server : ServerId) (r : Request)
    (timeout : Option Span) (m : Meter) :
    (request c transport server r timeout).Ensures
      (fun l answer _ => talk l = [⟨.request transport server r timeout, answer⟩]) m := by
  simp only [request, Task.ensures_bind, Task.ensures_get, Task.ensures_put]
  cases m.measures? with
  | none => simp [Call.isTransport, Call.addressee?]
  | some version =>
    simp only [Task.ensures_bind, Task.ask_eq, Task.ensures_call, Task.ensures_done]
    intro started answer ended
    refine (ensures_report c _ _ _).mono fun l _ s' hreport => ?_
    simp [hreport.1, Call.isTransport, Call.addressee?]

/-- A notification through a meter is one notification to the transport, whose answer is handed
back. -/
theorem ensures_notify (c : MeasuringContext) (transport : Nat) (server : ServerId)
    (n : Notification) (m : Meter) :
    (notify c transport server n).Ensures
      (fun l answer _ => talk l = [⟨.notify transport server n, answer⟩]) m := by
  simp only [notify, Task.ensures_bind, Task.ensures_get, Task.ensures_put]
  cases m.measures? with
  | none => simp [Call.isTransport, Call.addressee?]
  | some version =>
    simp only [Task.ensures_bind, Task.ask_eq, Task.ensures_call, Task.ensures_done]
    intro started answer ended
    refine (ensures_report c _ _ _).mono fun l _ s' hreport => ?_
    simp [hreport.1, Call.isTransport, Call.addressee?]

end RubySupervisor.Meter

/-! ## Sequences of messages -/

namespace RubySupervisor

namespace Task

variable {σ α β : Type}

/-- A task while whose calls are under way the state is changed by others. -/
def amid (change : σ → σ) : Task σ α → Task σ α
  | done a => done a
  | read next => read (fun s => (next s).amid change)
  | write s next => write s (next.amid change)
  | call c next =>
    call c (fun answer => read (fun s => write (change s) ((next answer).amid change)))

@[simp] theorem amid_done (change : σ → σ) (a : α) : (done a).amid change = done a := rfl

@[simp] theorem amid_bind (change : σ → σ) (t : Task σ α) (f : α → Task σ β) :
    (t >>= f).amid change = t.amid change >>= fun a => (f a).amid change := by
  simp only [bind_eq]
  induction t with
  | done a => rfl
  | read next ih => simp [andThen, amid, ih]
  | write s next ih => simp [andThen, amid, ih]
  | call c next ih => simp [andThen, amid, ih]

@[simp] theorem amid_get (change : σ → σ) : (get : Task σ σ).amid change = get := rfl

@[simp] theorem amid_put (change : σ → σ) (s : σ) : (put s).amid change = put s := rfl

@[simp] theorem ensures_amid_call (Q : List Exchange → α → σ → Prop) (change : σ → σ) (c : Call)
    (next : c.Answer → Task σ α) (s : σ) :
    ((call c next).amid change).Ensures Q s ↔
      ∀ answer, ((next answer).amid change).Ensures (fun l => Q (⟨c, answer⟩ :: l)) (change s) :=
  .rfl

end Task

/-- A message on its way to a server. -/
inductive Dispatch where
  | request (transport : Nat) (server : ServerId) (r : Request) (timeout : Option Span)
  | notification (transport : Nat) (server : ServerId) (n : Notification)

namespace Dispatch

/-- The call that gives the message to its transport. -/
def call : Dispatch → Call
  | request transport server r timeout => .request transport server r timeout
  | notification transport server n => .notify transport server n

/-- The method of the message. -/
def method : Dispatch → String
  | request _ _ r _ => r.method
  | notification _ _ n => n.method

/-- The message given to a meter instead. -/
def metered (c : MeasuringContext) : (d : Dispatch) → Task Meter d.call.Answer
  | request transport server r timeout => Meter.request c transport server r timeout
  | notification transport server n => Meter.notify c transport server n

end Dispatch

/-- The method of a reported message. -/
def TelemetryEvent.method? : TelemetryEvent → Option String
  | message m => some m.method
  | backgroundFailure .. => none

/-- What the user is shown of an error that a server gave. -/
def ResponseError.complaint (e : ResponseError) : String :=
  "Ruby LSP error " ++ (e.dataText? "errorClass").getD "" ++ ": "
    ++ (e.dataText? "errorMessage").getD "" ++ "\n\n" ++ (e.dataText? "backtrace").getD ""

namespace Exchange

/-- What an exchange reports to telemetry. -/
def telemetry? : Exchange → Option TelemetryEvent
  | ⟨.telemetry event, _⟩ => some event
  | _ => none

/-- What an exchange shows to the user. -/
def popup? : Exchange → Option String
  | ⟨.popup text, _⟩ => some text
  | _ => none

/-- The error that the server gave to a request: in its response, or as a failure. -/
def serverError? : Exchange → Option ResponseError
  | ⟨.request .., .ok response⟩ => response.error
  | ⟨.request .., .error (.response error)⟩ => some error
  | _ => none

end Exchange

/-- What a trace reports to telemetry, in order. -/
def telemetry (l : List Exchange) : List TelemetryEvent := l.filterMap Exchange.telemetry?

/-- What a trace shows to the user, in order. -/
def popups (l : List Exchange) : List String := l.filterMap Exchange.popup?

@[simp] theorem telemetry_nil : telemetry [] = [] := rfl

@[simp] theorem telemetry_cons (x : Exchange) (l : List Exchange) :
    telemetry (x :: l) = x.telemetry?.toList ++ telemetry l := by
  cases h : x.telemetry? <;> simp [telemetry, h]

@[simp] theorem telemetry_append (l l' : List Exchange) :
    telemetry (l ++ l') = telemetry l ++ telemetry l' := List.filterMap_append

@[simp] theorem popups_nil : popups [] = [] := rfl

@[simp] theorem popups_cons (x : Exchange) (l : List Exchange) :
    popups (x :: l) = x.popup?.toList ++ popups l := by
  cases h : x.popup? <;> simp [popups, h]

@[simp] theorem popups_append (l l' : List Exchange) :
    popups (l ++ l') = popups l ++ popups l' := List.filterMap_append

namespace Meter

/-- The meter when a version became known, if one did. -/
def learned (version : Option String) (m : Meter) : Meter :=
  match version with
  | none => m
  | some version => { m with version := some version }

@[simp] theorem learned_learned (version : Option String) (m : Meter) :
    (m.learned version).learned version = m.learned version := by
  cases version <;> rfl

/-- What a message leaves behind in its trace: the one call on the transport and, if the message is
measured, its report and the complaint about its failure. -/
structure Passed (c : MeasuringContext) (d : Dispatch) (measured : Bool) (answer : d.call.Answer)
    (l : List Exchange) : Prop where
  talk_eq : talk l = [⟨d.call, answer⟩]
  telemetry_eq : (telemetry l).map TelemetryEvent.method? =
    if measured then [some d.method] else []
  popups_eq : popups l =
    if measured && developmentFolders.contains c.folder then
      (Exchange.serverError? ⟨d.call, answer⟩).toList.map ResponseError.complaint
    else []

/-- A report goes to telemetry, and a failure to the user where that is asked for. -/
theorem ensures_amid_report (c : MeasuringContext) (version : Option String) (m : MeasuredMessage)
    (failed : Bool) (s : Meter) :
    ((report c m failed).amid (learned version)).Ensures (fun l _ s' =>
      talk l = [] ∧ telemetry l = [.message m] ∧
        popups l = (if failed && developmentFolders.contains c.folder then [popupText m] else []) ∧
        s' = s.learned version) s := by
  simp only [report, Task.amid_bind, Task.ensures_bind, Task.ask_eq, Task.ensures_amid_call,
    Task.amid_done, Task.ensures_done]
  intro _
  split
  · exact fun _ => ⟨rfl, rfl, rfl, learned_learned version s⟩
  · exact ⟨rfl, rfl, rfl, rfl⟩

/-- The error that the meter takes out of an answer is the one that the server gave. -/
theorem errorOf_eq (transport : Nat) (server : ServerId) (r : Request) (timeout : Option Span)
    (answer : Except ServerError Response) :
    errorOf answer = Exchange.serverError? ⟨.request transport server r timeout, answer⟩ := by
  rcases answer with error | response
  · cases error <;> rfl
  · rfl

/-- What the user is shown of a report is the complaint about its error. -/
theorem popupText_event (c : MeasuringContext) (version method : String) (params : Json)
    (nanoseconds : Nat) (error : ResponseError) :
    popupText (event c version method params nanoseconds (some error)) = error.complaint := rfl

/-- A request passes the meter, and is measured if its turn has come. -/
theorem ensures_amid_request (c : MeasuringContext) (transport : Nat) (server : ServerId)
    (r : Request) (timeout : Option Span) (version : Option String) (m : Meter) :
    ((request c transport server r timeout).amid (learned version)).Ensures
      (fun l (answer : Except ServerError Response) m' =>
        Passed c (.request transport server r timeout) m.measures?.isSome answer l ∧
          m' = m.count.learned version) m := by
  simp only [request, Task.amid_bind, Task.amid_get, Task.amid_put, Task.ensures_bind,
    Task.ensures_get, Task.ensures_put]
  cases m.measures? with
  | none => exact fun answer => ⟨⟨rfl, rfl, rfl⟩, rfl⟩
  | some lsp =>
    simp only [Task.amid_bind, Task.ensures_bind, Task.ask_eq, Task.ensures_amid_call,
      Task.amid_done, Task.ensures_done]
    intro started answer ended
    refine (ensures_amid_report c version _ _ _).mono fun l _ m' hreport => ?_
    obtain ⟨htalk, htelemetry, hpopups, rfl⟩ := hreport
    refine ⟨⟨?_, ?_, ?_⟩, by simp⟩
    · simp [htalk, Call.isTransport, Call.addressee?, Dispatch.call]
    · simp [htelemetry, Exchange.telemetry?, TelemetryEvent.method?, Dispatch.method, event]
    -- what the meter complains about is the error that the server gave
    · have herror := errorOf_eq transport server r timeout answer
      cases hanswer : errorOf answer with
      | none => simp [hpopups, Exchange.popup?, Dispatch.call, ← herror, hanswer]
      | some error =>
        simp [hpopups, Exchange.popup?, Dispatch.call, ← herror, hanswer, popupText_event]

/-- A notification passes the meter, and is measured if its turn has come. -/
theorem ensures_amid_notify (c : MeasuringContext) (transport : Nat) (server : ServerId)
    (n : Notification) (version : Option String) (m : Meter) :
    ((notify c transport server n).amid (learned version)).Ensures
      (fun l (answer : Except ServerError Unit) m' =>
        Passed c (.notification transport server n) m.measures?.isSome answer l ∧
          m' = m.count.learned version) m := by
  simp only [notify, Task.amid_bind, Task.amid_get, Task.amid_put, Task.ensures_bind,
    Task.ensures_get, Task.ensures_put]
  cases m.measures? with
  | none => exact fun answer => ⟨⟨rfl, rfl, by simp [Exchange.popup?]⟩, rfl⟩
  | some lsp =>
    simp only [Task.amid_bind, Task.ensures_bind, Task.ask_eq, Task.ensures_amid_call,
      Task.amid_done, Task.ensures_done]
    intro started answer ended
    refine (ensures_amid_report c version _ _ _).mono fun l _ m' hreport => ?_
    obtain ⟨htalk, htelemetry, hpopups, rfl⟩ := hreport
    refine ⟨⟨?_, ?_, ?_⟩, by simp⟩
    · simp [htalk, Call.isTransport, Call.addressee?, Dispatch.call]
    · simp [htelemetry, Exchange.telemetry?, TelemetryEvent.method?, Dispatch.method, event]
    · simp [hpopups, Exchange.popup?, Dispatch.call, Exchange.serverError?]

/-- A message passes the meter, and is measured if its turn has come. -/
theorem ensures_amid_metered (c : MeasuringContext) (d : Dispatch) (version : Option String)
    (m : Meter) :
    ((d.metered c).amid (learned version)).Ensures (fun l answer m' =>
      Passed c d m.measures?.isSome answer l ∧ m' = m.count.learned version) m := by
  cases d with
  | request transport server r timeout =>
    exact ensures_amid_request c transport server r timeout version m
  | notification transport server n => exact ensures_amid_notify c transport server n version m

/-- What happens to a meter: a message passes, while whose calls the version may become known, or
the version becomes known between two messages. -/
inductive Act where
  | message (d : Dispatch) (meanwhile : Option String)
  | known (version : String)

namespace Act

/-- The message that an act is. -/
def dispatch? : Act → Option Dispatch
  | message d _ => some d
  | known _ => none

end Act

/-- The messages among the acts, in order. -/
def dispatches (acts : List Act) : List Dispatch := acts.filterMap Act.dispatch?

/-- The number of messages that begin before the version is known. -/
def lead : List Act → Nat
  | [] => 0
  | .known _ :: _ => 0
  | .message _ (some _) :: _ => 1
  | .message _ none :: rest => lead rest + 1

/-- Lets acts happen one after the other, and collects what the messages were answered. -/
def carry (c : MeasuringContext) : List Act → Task Meter (List Exchange)
  | [] => return []
  | .message d meanwhile :: rest => do
    let answer ← (d.metered c).amid (learned meanwhile)
    let results ← carry c rest
    return ⟨d.call, answer⟩ :: results
  | .known version :: rest => do
    Task.change (learned (some version))
    carry c rest

/-- The number of messages among the acts that still pass unmeasured. -/
def unmeasured (m : Meter) (acts : List Act) : Nat :=
  (if m.version.isSome then 0 else lead acts) + (warmupMessages - m.seen)

/-- A message that is measured is followed by none that is not; any other is one fewer to go. -/
theorem unmeasured_message (m : Meter) (d : Dispatch) (meanwhile : Option String)
    (rest : List Act) :
    unmeasured m (.message d meanwhile :: rest) =
        (if m.measures?.isSome then 0 else unmeasured (m.count.learned meanwhile) rest + 1) ∧
      (m.measures?.isSome → unmeasured (m.count.learned meanwhile) rest = 0) := by
  obtain ⟨version, seen⟩ := m
  cases version <;> cases meanwhile <;>
    simp [unmeasured, measures?, count, learned, lead] <;> grind

/-- A version that becomes known between two messages leaves the count as it is. -/
theorem unmeasured_known (m : Meter) (version : String) (rest : List Act) :
    unmeasured (m.learned (some version)) rest = unmeasured m (.known version :: rest) := by
  cases hversion : m.version <;> simp [unmeasured, learned, lead, hversion]

/-- What messages leave behind of which the first ones pass unmeasured: on the transport each
message and nothing else, a report of each measured one, and a complaint about each measured one
that the server failed. -/
structure Sampled (c : MeasuringContext) (unmeasured : Nat) (sent : List Dispatch)
    (l results : List Exchange) : Prop where
  talk_eq : talk l = results
  calls_eq : results.map (·.call) = sent.map Dispatch.call
  telemetry_eq : (telemetry l).map TelemetryEvent.method? =
    (sent.drop unmeasured).map fun d => some d.method
  popups_eq : popups l =
    if developmentFolders.contains c.folder then
      ((results.drop unmeasured).filterMap Exchange.serverError?).map ResponseError.complaint
    else []

/-- One more message in front, measured or not. -/
theorem Sampled.cons {c : MeasuringContext} {n : Nat} {d : Dispatch} {sent : List Dispatch}
    {measured : Bool} {answer : d.call.Answer} {l l' results : List Exchange}
    (h : Sampled c n sent l' results) (hpassed : Passed c d measured answer l)
    (hn : measured → n = 0) :
    Sampled c (if measured then 0 else n + 1) (d :: sent) (l ++ l') (⟨d.call, answer⟩ :: results)
    where
  talk_eq := by simp [hpassed.talk_eq, h.talk_eq]
  calls_eq := by simp [h.calls_eq]
  telemetry_eq := by
    cases measured with
    | true => simp [hpassed.telemetry_eq, h.telemetry_eq, hn rfl]
    | false => simp [hpassed.telemetry_eq, h.telemetry_eq]
  popups_eq := by
    cases measured with
    | true =>
      cases herror : Exchange.serverError? ⟨d.call, answer⟩ with
      | none => simp [hpassed.popups_eq, h.popups_eq, hn rfl, herror]
      | some error =>
        rw [popups_append, hpassed.popups_eq, h.popups_eq, hn rfl]
        by_cases hfolder : c.folder ∈ developmentFolders <;> simp [hfolder, herror]
    | false => simp [hpassed.popups_eq, h.popups_eq]

/-- From any moment on, messages are passed on and sampled. -/
theorem ensures_carry (c : MeasuringContext) (acts : List Act) (m : Meter) :
    (carry c acts).Ensures
      (fun l results _ => Sampled c (unmeasured m acts) (dispatches acts) l results) m := by
  induction acts generalizing m with
  | nil => exact ⟨rfl, rfl, by simp [dispatches], by simp⟩
  | cons act rest ih =>
    cases act with
    | message d meanwhile =>
      simp only [carry, Task.ensures_bind, Task.ensures_pure]
      refine (ensures_amid_metered c d meanwhile m).mono fun l answer m' hfirst => ?_
      obtain ⟨hpassed, rfl⟩ := hfirst
      refine (ih _).mono fun l' results _ hrest => ?_
      obtain ⟨hcount, hnone⟩ := unmeasured_message m d meanwhile rest
      rw [hcount, List.append_nil]
      exact hrest.cons hpassed hnone
    | known version =>
      simp only [carry, Task.ensures_bind, Task.ensures_change]
      refine (ih _).mono fun l results _ hrest => ?_
      rw [unmeasured_known] at hrest
      exact hrest

/-- A new meter passes every message on, once and in order, and hands its answer back. It reports
exactly the messages behind the warm-up, which starts with the first message that begins when the
version is known, and shows exactly those of them that the server failed, in a folder where the
server is developed. -/
theorem carry_samples (c : MeasuringContext) (acts : List Act) :
    (carry c acts).Ensures (fun l results _ =>
      talk l = results ∧
      results.map (·.call) = (dispatches acts).map Dispatch.call ∧
      (telemetry l).map TelemetryEvent.method? =
        ((dispatches acts).drop (lead acts + warmupMessages)).map (fun d => some d.method) ∧
      popups l =
        if developmentFolders.contains c.folder then
          ((results.drop (lead acts + warmupMessages)).filterMap Exchange.serverError?).map
            ResponseError.complaint
        else []) fresh :=
  (ensures_carry c acts fresh).mono fun _ _ _ h =>
    ⟨h.talk_eq, h.calls_eq, h.telemetry_eq, h.popups_eq⟩

end Meter

end RubySupervisor
