import RubySupervisor.Proofs.Telemetry.Sampling
import RubySupervisor.Session.Client

/-!
# Conduct of a session

What each operation of a session says to its transport, whatever it is answered, and how it leaves
the session behind. Only the traffic with the transport is kept of a trace; the meter and the
number of the next request are followed along with it.
-/

namespace RubySupervisor

/-- Requests are numbered in turn, from the first number up to the one before the last. -/
def Numbered : Int → List Exchange → Int → Prop
  | n, [], n' => n' = n
  | n, ⟨.request _ _ r _, _⟩ :: l, n' => r.id = .number n ∧ Numbered (Session.following n) l n'
  | n, _ :: l, n' => Numbered n l n'

/-- Numbering goes on where it was left. -/
theorem Numbered.append {n n' n'' : Int} {l l' : List Exchange} (h : Numbered n l n')
    (h' : Numbered n' l' n'') : Numbered n (l ++ l') n'' := by
  induction l generalizing n with
  | nil =>
    subst h
    exact h'
  | cons x l ih =>
    obtain ⟨call, answer⟩ := x
    cases call with
    | request transport server r timeout => exact ⟨h.1, ih h.2⟩
    | _ => exact ih h

namespace Session

theorem meterPart_lawful : meterPart.Lawful := ⟨fun _ _ => rfl, fun _ _ _ => rfl, fun _ => rfl⟩

/-- A request goes to the transport once, and its answer comes back. -/
theorem ensures_send (c : SessionContext) (server : ServerId) (r : Request)
    (timeout : Option Span) (s : Session) :
    (send c server r timeout).Ensures (fun l answer s' =>
      talk l = [⟨.request c.transport server r timeout, answer⟩] ∧
        ∃ m, s' = { s with meter := m }) s := by
  unfold send
  cases c.measuring with
  | none => exact fun answer => ⟨rfl, s.meter, rfl⟩
  | some measuring =>
    refine (Task.ensures_within meterPart_lawful _ _ s).2 ?_
    exact (Meter.ensures_request measuring c.transport server r timeout s.meter).mono
      fun l answer m htalk => ⟨htalk, m, rfl⟩

/-- A notification goes to the transport once, and its answer comes back. -/
theorem ensures_sendNotification (c : SessionContext) (server : ServerId) (n : Notification)
    (s : Session) :
    (sendNotification c server n).Ensures (fun l answer s' =>
      talk l = [⟨.notify c.transport server n, answer⟩] ∧ ∃ m, s' = { s with meter := m }) s := by
  unfold sendNotification
  cases c.measuring with
  | none => exact fun answer => ⟨rfl, s.meter, rfl⟩
  | some measuring =>
    refine (Task.ensures_within meterPart_lawful _ _ s).2 ?_
    exact (Meter.ensures_notify measuring c.transport server n s.meter).mono
      fun l answer m htalk => ⟨htalk, m, rfl⟩

/-- A session in a folder, without settings of its own. -/
def plainContext (root : String) : SessionContext :=
  { options := .ofRoot ⟨root⟩
    environment := ⟨.empty, "3.4.0", ⟨"/bin/ruby"⟩, ⟨"/gems"⟩, false⟩
    transport := 0
    processId := 1
    measuring := none }

/-- What a session takes out of the answer to a request. -/
def resultOf : Except ServerError Response → Except ServerError Json
  | .error error => .error error
  | .ok response =>
    match response.outcome with
    | .error error => .error (.response error)
    | .ok value => .ok value

/-- The request that a session puts to a process under its next number. -/
def asked (c : SessionContext) (server : ServerId) (id : RequestId) (method : String)
    (params : Json) (answer : Except ServerError Response) : Exchange :=
  ⟨.request c.transport server ⟨id, method, params⟩ (some c.options.requestTimeout), answer⟩

/-- A request takes the next number and is put to the transport once. -/
theorem ensures_requestOn (c : SessionContext) (server : ServerId) (method : String)
    (params : Json) (s : Session) :
    (requestOn c server method params).Ensures (fun l r s' => ∃ answer m,
      talk l = [asked c server (.number s.nextRequest) method params answer] ∧
        r = resultOf answer ∧
        s' = { s with nextRequest := following s.nextRequest, meter := m }) s := by
  simp only [requestOn, takeRequestId, Task.ensures_bind, Task.ensures_get, Task.ensures_put,
    Task.ensures_pure]
  refine (ensures_send c server _ _ _).mono fun l answer s' hsend => ?_
  obtain ⟨htalk, m, rfl⟩ := hsend
  have hasked : talk ([] ++ ([] ++ []) ++ (l ++ [])) =
      [asked c server (.number s.nextRequest) method params answer] := by
    simpa [asked] using htalk
  split
  · exact ⟨_, m, hasked, rfl, rfl⟩
  · split
    · exact ⟨_, m, hasked, by simp [resultOf, *], rfl⟩
    · exact ⟨_, m, hasked, by simp [resultOf, *], rfl⟩

/-- An answer to the initialization that a session accepts. -/
def Initializes (answer : Except ServerError Response) : Prop :=
  ∃ value, resultOf answer = .ok value ∧ Capabilities.accept? value = some ()

/-- How a process is introduced to a session: up to the first step that fails, or completely. A
folder without an address cannot be announced, so nothing is sent for it. -/
inductive Greeting (c : SessionContext) (server : ServerId) : List Exchange → Bool → Prop where
  | unaddressed (hroot : FileUri.ofPath? c.options.root = none) : Greeting c server [] false
  | uninitialized {uri : String} {id : RequestId} {answer : Except ServerError Response}
      (hroot : FileUri.ofPath? c.options.root = some uri) (hanswer : ¬ Initializes answer) :
      Greeting c server [asked c server id "initialize" (initializeParams c uri) answer] false
  | unannounced {uri : String} {id : RequestId} {answer : Except ServerError Response}
      {error : ServerError} (hroot : FileUri.ofPath? c.options.root = some uri)
      (hanswer : Initializes answer) :
      Greeting c server [asked c server id "initialize" (initializeParams c uri) answer,
        ⟨.notify c.transport server ⟨"initialized", .object []⟩, .error error⟩] false
  | complete {uri : String} {id : RequestId} {answer : Except ServerError Response}
      (hroot : FileUri.ofPath? c.options.root = some uri) (hanswer : Initializes answer) :
      Greeting c server [asked c server id "initialize" (initializeParams c uri) answer,
        ⟨.notify c.transport server ⟨"initialized", .object []⟩, .ok ()⟩] true

/-- The part of a session that a conversation with its process may change. -/
def Conversed (s s' : Session) (l : List Exchange) : Prop :=
  ∃ n m, s' = { s with nextRequest := n, meter := m } ∧ Numbered s.nextRequest (talk l) n

/-- The handshake is a greeting, and it succeeds exactly if the greeting is complete. -/
theorem ensures_handshake (c : SessionContext) (server : ServerId) (s : Session) :
    (handshake c server).Ensures (fun l r s' =>
      (∃ complete, Greeting c server (talk l) complete ∧ (r = .ok () ↔ complete = true)) ∧
        Conversed s s' l) s := by
  unfold handshake
  split
  · rename_i hroot
    exact ⟨⟨false, .unaddressed hroot, by simp⟩, s.nextRequest, s.meter, rfl, rfl⟩
  · rename_i uri hroot
    simp only [Task.ensures_bind]
    refine (ensures_requestOn c server _ _ s).mono fun l r s' hasked => ?_
    obtain ⟨answer, m, htalk, rfl, rfl⟩ := hasked
    split
    · rename_i error hresult
      refine ⟨⟨false, ?_, by simp⟩, _, m, rfl, ?_⟩
      · rw [List.append_nil, htalk]
        refine .uninitialized hroot ?_
        rintro ⟨value, hvalue, -⟩
        simp [hresult] at hvalue
      · rw [List.append_nil, htalk]
        exact ⟨rfl, rfl⟩
    · rename_i value hresult
      split
      · rename_i hrefused
        refine ⟨⟨false, ?_, by simp⟩, _, m, rfl, ?_⟩
        · rw [List.append_nil, htalk]
          refine .uninitialized hroot ?_
          rintro ⟨value', hvalue, haccept⟩
          simp_all
        · rw [List.append_nil, htalk]
          exact ⟨rfl, rfl⟩
      -- only behind an accepted answer is the server told that it is initialized
      · rename_i haccept
        have hanswer : Initializes answer := ⟨value, hresult, haccept⟩
        refine (ensures_sendNotification c server _ _).mono fun l' r s' hsent => ?_
        obtain ⟨htalk', m', rfl⟩ := hsent
        refine ⟨⟨r.isOk, ?_, ?_⟩, _, m', rfl, ?_⟩
        · rw [talk_append, htalk, htalk']
          cases r with
          | error error => exact .unannounced hroot hanswer
          | ok => exact .complete hroot hanswer
        · cases r <;> simp [Except.isOk, Except.toBool]
        · rw [talk_append, htalk, htalk']
          exact ⟨rfl, rfl⟩

/-- How a process is started: the start fails, or a greeting of the reported process follows. -/
inductive Opening (c : SessionContext) (id server : ServerId) : List Exchange → Bool → Prop where
  | refused {error : ServerError} :
      Opening c id server [⟨.startServer c.transport (launchOf c id), .error error⟩] false
  | greeted {l : List Exchange} {complete : Bool} (h : Greeting c server l complete) :
      Opening c id server (⟨.startServer c.transport (launchOf c id), .ok server⟩ :: l) complete

/-- The start of a process is an opening, and it succeeds exactly if the opening is complete. -/
theorem ensures_startProcess (c : SessionContext) (id : ServerId) (s : Session) :
    (startProcess c id).Ensures (fun l r s' =>
      (∃ server complete, Opening c id server (talk l) complete ∧
        (r = .ok () ↔ complete = true)) ∧ Conversed s s' l) s := by
  simp only [startProcess, Task.ensures_bind, Task.ask_eq, Task.ensures_call, Task.ensures_done]
  intro started
  cases started with
  | error error =>
    exact ⟨⟨id, false, .refused, by simp⟩, s.nextRequest, s.meter, rfl, rfl⟩
  | ok server =>
    refine (ensures_handshake c server s).mono fun l r s' hgreeted => ?_
    obtain ⟨⟨complete, hgreeting, hresult⟩, n, m, hstate, hnumbered⟩ := hgreeted
    exact ⟨⟨server, complete, .greeted hgreeting, hresult⟩, n, m, hstate, hnumbered⟩

/-- A session that runs is not started again. -/
theorem ensures_start_running {c : SessionContext} {s : Session} (hstate : s.state = .running) :
    (start c).Ensures (fun l r s' => l = [] ∧ r = .ok () ∧ s' = s) s := by
  simp only [start, Task.ensures_bind, Task.ensures_get, if_pos hstate]
  exact ⟨rfl, rfl, rfl⟩

/-- How a start of the next process ends: with a session that runs it, or with one that has stopped
it again. -/
inductive Started (c : SessionContext) (s : Session) :
    List Exchange → Except ServerError Unit → Session → Prop where
  | running {server : ServerId} {l : List Exchange} {n : Int} {m : Meter}
      (hopening : Opening c s.last.next server l true) :
      Started c s l (.ok ()) { s with
        state := .running, current := some s.last.next, last := s.last.next, nextRequest := n,
        meter := m }
  | failed {server : ServerId} {l : List Exchange} {n : Int} {m : Meter} {error : ServerError}
      {answer : Except ServerError Unit} (hopening : Opening c s.last.next server l false) :
      Started c s (l ++ [⟨.stopServer c.transport s.last.next, answer⟩]) (.error error) { s with
        state := .error, current := none, last := s.last.next, nextRequest := n, meter := m }

/-- A start that succeeds leaves a session that runs the next process. -/
theorem Started.of_ok {c : SessionContext} {s s' : Session} {l : List Exchange}
    (h : Started c s l (.ok ()) s') : s'.state = .running ∧ s'.current = some s.last.next := by
  cases h
  exact ⟨rfl, rfl⟩

/-- A start that fails leaves a session without a process. -/
theorem Started.of_error {c : SessionContext} {s s' : Session} {l : List Exchange}
    {error : ServerError} (h : Started c s l (.error error) s') :
    s'.state = .error ∧ s'.current = none := by
  cases h
  exact ⟨rfl, rfl⟩

/-- A session that does not run starts the next process. -/
theorem ensures_start {c : SessionContext} {s : Session} (hstate : s.state ≠ .running) :
    (start c).Ensures (fun l r s' =>
      Started c s (talk l) r s' ∧ Numbered s.nextRequest (talk l) s'.nextRequest) s := by
  simp only [start, Task.ensures_bind, Task.ensures_get, if_neg hstate, Task.ensures_put]
  refine (ensures_startProcess c s.last.next _).mono fun l r s' hstarted => ?_
  obtain ⟨⟨server, complete, hopening, hresult⟩, n, m, rfl, hnumbered⟩ := hstarted
  cases r with
  | ok =>
    obtain rfl := hresult.1 rfl
    simp only [setState, Task.ensures_bind, Task.ensures_change, Task.ensures_pure,
      List.append_nil, List.nil_append]
    exact ⟨.running hopening, hnumbered⟩
  | error error =>
    obtain rfl : complete = false := by simpa using hresult
    simp only [setState, Task.ensures_bind, Task.ensures_change, Task.ensures_pure, Task.ask_eq,
      Task.ensures_call, Task.ensures_done, List.append_nil, List.nil_append]
    intro answer
    refine ⟨?_, ?_⟩
    · rw [talk_append]
      exact .failed hopening
    · rw [talk_append]
      exact hnumbered.append rfl

/-- What a process is told when it is stopped, with the answers to it. -/
def farewell (c : SessionContext) (id : ServerId) (request : RequestId)
    (shutdown : Except ServerError Response) (exit stopped : Except ServerError Unit) :
    List Exchange :=
  [⟨.request c.transport id ⟨request, "shutdown", .null⟩ (some shutdownTimeout), shutdown⟩,
    ⟨.notify c.transport id ⟨"exit", .null⟩, exit⟩, ⟨.stopServer c.transport id, stopped⟩]

/-- A session without a process only shows that it is stopped. -/
theorem ensures_stop_idle {c : SessionContext} {s : Session} (hcurrent : s.current = none) :
    (stop c).Ensures (fun l r s' => l = [] ∧ r = .ok () ∧ s' = { s with state := .stopped }) s := by
  simp only [stop, Task.ensures_bind, Task.ensures_get, hcurrent]
  exact ⟨rfl, rfl, by simp only [hcurrent]⟩

/-- A session with a process takes leave of it, whatever the process answers. -/
theorem ensures_stop {c : SessionContext} {s : Session} {id : ServerId}
    (hcurrent : s.current = some id) :
    (stop c).Ensures (fun l r s' => ∃ shutdown exit m,
      talk l = farewell c id (.number s.nextRequest) shutdown exit r ∧
        s' = { s with
          state := .stopped, current := none, nextRequest := following s.nextRequest,
          meter := m }) s := by
  simp only [stop, takeRequestId, setState, Task.ensures_bind, Task.ensures_get, hcurrent,
    Task.ensures_put, Task.ensures_pure]
  refine (ensures_send c id _ _ _).mono fun l shutdown s' hsend => ?_
  obtain ⟨htalk, m, rfl⟩ := hsend
  refine (ensures_sendNotification c id _ _).mono fun l' exit s' hsent => ?_
  obtain ⟨htalk', m', rfl⟩ := hsent
  intro stopped
  refine ⟨shutdown, exit, m', ?_, rfl⟩
  simp [talk_append, htalk, htalk', farewell, Call.isTransport, Call.addressee?]

/-- Without a live process nothing is asked; otherwise it is asked once, under the next number. -/
theorem ensures_request (c : SessionContext) (method : String) (params : Json) (s : Session) :
    (request c method params).Ensures (fun l _ s' =>
      match s.current with
      | none => talk l = [] ∧ s' = s
      | some server => ∃ answer m,
        talk l = [asked c server (.number s.nextRequest) method params answer] ∧
          s' = { s with nextRequest := following s.nextRequest, meter := m }) s := by
  simp only [request, Task.ensures_bind, Task.ensures_get]
  cases hcurrent : s.current with
  | none => exact ⟨rfl, rfl⟩
  | some server =>
    refine (ensures_requestOn c server method params s).mono fun l r s' hasked => ?_
    obtain ⟨answer, m, htalk, _, hstate⟩ := hasked
    exact ⟨answer, m, htalk, hstate.trans (by simp only [hcurrent])⟩

/-- Decoding the result of a request does not change what is said. -/
theorem ensures_requestAs {α : Type} (c : SessionContext) (method : String) (params : Json)
    (decode : Json → Option α) {Q : List Exchange → Session → Prop} {s : Session}
    (h : (request c method params).Ensures (fun l _ s' => Q l s') s) :
    (requestAs c method params decode).Ensures (fun l _ s' => Q l s') s := by
  simp only [requestAs, Task.ensures_bind]
  refine h.mono fun l r s' hq => ?_
  split
  · simpa using hq
  · split <;> simpa using hq

/-- Without a live process nothing is notified; otherwise it is notified once. -/
theorem ensures_notify (c : SessionContext) (method : String) (params : Json) (s : Session) :
    (notify c method params).Ensures (fun l _ s' =>
      match s.current with
      | none => talk l = [] ∧ s' = s
      | some server => ∃ answer m,
        talk l = [⟨.notify c.transport server ⟨method, params⟩, answer⟩] ∧
          s' = { s with meter := m }) s := by
  simp only [notify, Task.ensures_bind, Task.ensures_get]
  cases hcurrent : s.current with
  | none => exact ⟨rfl, rfl⟩
  | some server =>
    refine (ensures_sendNotification c server _ s).mono fun l r s' hsent => ?_
    obtain ⟨htalk, m, hstate⟩ := hsent
    exact ⟨r, m, htalk, hstate.trans (by simp only [hcurrent])⟩

/-- The events that a live process is concerned in: its end, and its requests. -/
def Concerns (id : ServerId) : TransportEvent → Prop
  | .status server status => status.isFinal = true ∧ server = id
  | .message server (.request _) => server = id
  | _ => False

/-- What a session does about an event: it releases the live process when that has ended, answers a
request of it, and leaves everything else alone. -/
inductive Observed (c : SessionContext) (s : Session) :
    TransportEvent → List Exchange → Session → Prop where
  | released {server : ServerId} {status : TransportStatus} {answer : Except ServerError Unit}
      (hcurrent : s.current = some server) (hfinal : status.isFinal = true) :
      Observed c s (.status server status) [⟨.stopServer c.transport server, answer⟩]
        { s with state := .error, current := none }
  | answered {server : ServerId} {r : Request} {answer : Except ServerError Unit}
      (hcurrent : s.current = some server) :
      Observed c s (.message server (.request r))
        [⟨.reply c.transport server r.id (Reply.toRequest (Reply.workspaceFolders c.options) r),
          answer⟩] s
  | ignored {event : TransportEvent} (h : ∀ id, s.current = some id → ¬ Concerns id event) :
      Observed c s event [] s

/-- Observing an event does one of these things. -/
theorem ensures_observe (c : SessionContext) (event : TransportEvent) (s : Session) :
    (observe c event).Ensures (fun l _ s' => Observed c s event (talk l) s') s := by
  simp only [observe, setState, Task.ensures_bind, Task.ensures_get]
  split
  · rename_i server status
    split
    · rename_i hended
      simp only [Bool.and_eq_true, decide_eq_true_eq] at hended
      exact fun answer => .released hended.2 hended.1
    · rename_i hended
      refine .ignored fun id hcurrent hconcern => hended ?_
      simp [hconcern.1, hcurrent, hconcern.2]
  · rename_i server r
    split
    · rename_i hlive
      exact fun answer => .answered hlive
    · rename_i hlive
      refine .ignored fun id hcurrent hconcern => hlive ?_
      exact hcurrent.trans (congrArg some hconcern.symm)
  · rename_i server message hother
    refine .ignored fun id _ hconcern => ?_
    cases message with
    | request r => exact hother r rfl
    | _ => exact hconcern

/-- The probe for a dependency says nothing to the transport. -/
theorem ensures_hasDependency (environment : RuntimeEnvironment) (directory : Path)
    (pattern : String) (s : Session) :
    (BundleProbe.hasDependency environment directory pattern).Ensures
      (fun l _ s' => talk l = [] ∧ s' = s) s := by
  simp only [BundleProbe.hasDependency, Task.ensures_bind, Task.ask_eq, Task.ensures_call,
    Task.ensures_done]
  intro answer
  split <;> exact ⟨rfl, rfl⟩

/-- The detection of the formatter says nothing to the transport. -/
theorem ensures_detectFormatter (environment : RuntimeEnvironment) (directory : Path)
    (s : Session) :
    (BundleProbe.detectFormatter environment directory).Ensures
      (fun l _ s' => talk l = [] ∧ s' = s) s := by
  simp only [BundleProbe.detectFormatter, Task.ensures_bind]
  refine (ensures_hasDependency environment directory _ s).mono fun l found s' hquiet => ?_
  obtain ⟨htalk, rfl⟩ := hquiet
  split
  · exact ⟨by simpa using htalk, rfl⟩
  · rw [Task.ensures_bind]
    refine (ensures_hasDependency environment directory _ s').mono fun l' found' s'' hquiet' => ?_
    obtain ⟨htalk', rfl⟩ := hquiet'
    split <;> exact ⟨by simp [htalk, htalk'], rfl⟩

/-- The probe for the version of the server says nothing to the transport. -/
theorem ensures_serverVersion (environment : RuntimeEnvironment) (directory : Path)
    (configured : Option Path) (s : Session) :
    (BundleProbe.serverVersion environment directory configured).Ensures
      (fun l _ s' => talk l = [] ∧ s' = s) s := by
  simp only [BundleProbe.serverVersion, Task.ensures_bind, Task.ask_eq, Task.ensures_call,
    Task.ensures_done]
  intro files answer
  split <;> exact ⟨rfl, rfl⟩

/-- What is found out after a start is recorded, and nothing is said to the transport. -/
theorem ensures_afterStart (c : SessionContext) (s : Session) :
    (afterStart c).Ensures (fun l _ s' =>
      talk l = [] ∧ ∃ formatter m, s' = { s with formatter, meter := m }) s := by
  -- the version of the server is asked for in both branches, with a formatter that is known by then
  have hversion (formatter : Formatter) (before : List Exchange) (htalk : talk before = []) :
      (BundleProbe.serverVersion c.environment c.options.root c.options.bundleGemfile).Ensures
        (fun l _ s' => talk (before ++ l) = [] ∧ s' = { s with formatter := some formatter })
        { s with formatter := some formatter } :=
    (ensures_serverVersion _ _ _ _).mono fun l _ s' hquiet => ⟨by simp [htalk, hquiet.1], hquiet.2⟩
  unfold afterStart
  split
  · simp only [Task.ensures_bind, Task.ensures_change]
    refine (ensures_detectFormatter _ _ s).mono fun l formatter s' hquiet => ?_
    obtain ⟨htalk, rfl⟩ := hquiet
    refine (hversion formatter l htalk).mono fun l' version s' hquiet => ?_
    obtain ⟨htalk', rfl⟩ := hquiet
    split
    · exact ⟨by simpa using htalk', some formatter, _, rfl⟩
    · exact ⟨by simpa using htalk', some formatter, _, rfl⟩
  · simp only [Task.ensures_bind, Task.ensures_change, Task.ensures_pure]
    refine (hversion _ [] rfl).mono fun l version s' hquiet => ?_
    obtain ⟨htalk, rfl⟩ := hquiet
    split
    · exact ⟨by simpa using htalk, some _, _, rfl⟩
    · exact ⟨by simpa using htalk, some _, _, rfl⟩

end Session

end RubySupervisor
