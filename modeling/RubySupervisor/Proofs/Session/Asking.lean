import RubySupervisor.Proofs.Session.Introduction

/-!
# Beside the operations

Callers ask a session to pass something on to its process, and the observation takes in what the
transport reports. Both wait once at most, and neither of them takes up a process. Without a process
a caller is refused at once; otherwise it comes to a call to the process that the session holds,
whether that is introduced or not.
-/

namespace RubySupervisor

namespace Session

/-- What a session is asked to pass on to its process. -/
inductive Question : Type 1 where
  | request (method : String) (params : Json)
  | requestAs {α : Type} (method : String) (params : Json) (decode : Json → Option α)
  | notify (method : String) (params : Json)

namespace Question

/-- What a question is answered with. -/
def Value : Question → Type
  | request .. => Json
  | @requestAs α .. => α
  | notify .. => Unit

/-- The task that passes a question on. -/
def ask (c : SessionContext) : (q : Question) → Task Session (Except ServerError q.Value)
  | request method params => Session.request c method params
  | requestAs method params decode => Session.requestAs c method params decode
  | notify method params => Session.notify c method params

/-- The task of one who asks. What is heard does not matter here. -/
def task (c : SessionContext) (q : Question) : Task Session Unit := do let _ ← q.ask c

/-- A call passes a question on to a process. -/
def Poses (c : SessionContext) (server : ServerId) : Question → Call → Prop
  | request method _, call => ∃ id params timeout,
      call = .request c.transport server ⟨id, method, params⟩ timeout
  | requestAs method _ _, call => ∃ id params timeout,
      call = .request c.transport server ⟨id, method, params⟩ timeout
  | notify method _, call => ∃ params, call = .notify c.transport server ⟨method, params⟩

/-- Whether a question is one that initializes a process. -/
def initializes : Question → Bool
  | request method _ => method = "initialize"
  | requestAs method _ _ => method = "initialize"
  | notify .. => false

end Question

/-- A session without a process refuses a request at once. -/
theorem segment_request {s : Session} (hcurrent : s.current = none) (c : SessionContext)
    (method : String) (params : Json) :
    (request c method params).segment s = (.finished (.error .notRunning), s) := by
  simp [request, Task.segment, Task.get, Task.andThen, hcurrent]

/-- A session without a process refuses at once whatever it is to pass on. -/
theorem segment_ask {s : Session} (hcurrent : s.current = none) (c : SessionContext)
    (q : Question) : (q.ask c).segment s = (.finished (.error .notRunning), s) := by
  cases q with
  | request method params => exact segment_request hcurrent c method params
  | requestAs method params decode =>
    have h : (requestAs c method params decode).segment s =
        (.finished (.error .notRunning), s) := by
      simp [requestAs, request, Task.segment, Task.get, Task.andThen, hcurrent]
    exact h
  | notify method params =>
    have h : (notify c method params).segment s = (.finished (.error .notRunning), s) := by
      simp [notify, Task.segment, Task.get, Task.andThen, hcurrent]
    exact h

section Sending

variable {P : Call → Prop} {c : SessionContext} {server : ServerId}

/-- What is relayed waits once, for its answer. -/
theorem waitsOnce_relay {call : Call} (hinstant : call.isInstant = false) (h : P call)
    (message : MeasuringContext → String → Nat → Nat → call.Answer → MeasuredMessage)
    (failed : call.Answer → Bool) : (relay c call message failed).WaitsOnce P := by
  have hreport (measuring : MeasuringContext) (m : MeasuredMessage) (answer : call.Answer) :
      (do Meter.report measuring m (failed answer); return answer :
        Task Meter call.Answer).Idles := by
    refine Task.Idles.bind (Task.Idles.bind ⟨rfl, fun _ => trivial⟩ fun _ => ?_) fun _ => trivial
    split
    · exact ⟨rfl, fun _ => trivial⟩
    · exact trivial
  unfold relay
  split
  · exact Task.waitsOnce_call hinstant h fun _ => trivial
  · refine Task.WaitsOnce.within ?_ meterPart
    refine (Task.waitsOnce_get_bind P _).2 fun m => (Task.waitsOnce_put_bind P _ _).2 ?_
    split
    · exact Task.waitsOnce_call hinstant h fun _ => trivial
    · exact Task.waitsOnce_instant rfl fun started => Task.waitsOnce_call hinstant h fun answer =>
        ⟨rfl, fun ended => hreport _ _ answer⟩

theorem waitsOnce_send {r : Request} {timeout : Option Span}
    (h : P (.request c.transport server r timeout)) : (send c server r timeout).WaitsOnce P := by
  obtain ⟨message, failed, heq⟩ := send_eq_relay c server r timeout
  rw [heq]
  exact waitsOnce_relay rfl h message failed

theorem waitsOnce_sendNotification {n : Notification} (h : P (.notify c.transport server n)) :
    (sendNotification c server n).WaitsOnce P := by
  obtain ⟨message, failed, heq⟩ := sendNotification_eq_relay c server n
  rw [heq]
  exact waitsOnce_relay rfl h message failed

theorem waitsOnce_requestOn {method : String} {params : Json}
    (h : ∀ id timeout, P (.request c.transport server ⟨id, method, params⟩ timeout)) :
    (requestOn c server method params).WaitsOnce P := by
  intro s
  change Task.WaitsOnce P (send c server ⟨.number s.nextRequest, method, params⟩
    (some c.options.requestTimeout) >>= _)
  refine (waitsOnce_send (h _ _)).bind fun answer => ?_
  split
  · exact trivial
  · split <;> exact trivial

/-- Whoever asks something waits once, for the call that passes the question on to the process that
the session holds. -/
theorem stretch_task {q : Question} {s s' : Session} {w : Task.Waiting Session Unit}
    (h : (q.task c).Stretch s w s') (hcurrent : s.current = some server) :
    ∃ p, w.pending? = some p ∧ q.Poses c server p.call ∧ ∀ answer, (p.next answer).Idles := by
  cases q with
  | request method params =>
    have hwaits : (requestOn c server method params).WaitsOnce
      ((Question.request method params).Poses c server) :=
        waitsOnce_requestOn fun _ _ => ⟨_, _, _, rfl⟩
    cases h with
    | read h =>
      simp only [Task.andThen, hcurrent] at h
      obtain ⟨p, hp, hcall, hidles⟩ := hwaits.stretch h
      exact ⟨p, hp, hcall, hidles fun _ => trivial⟩
  | requestAs method params decode =>
    have hwaits : (requestOn c server method params).WaitsOnce
      ((Question.requestAs method params decode).Poses c server) :=
        waitsOnce_requestOn fun _ _ => ⟨_, _, _, rfl⟩
    cases h with
    | read h =>
      simp only [Task.andThen, hcurrent, Task.andThen_assoc] at h
      obtain ⟨p, hp, hcall, hidles⟩ := hwaits.stretch h
      refine ⟨p, hp, hcall, hidles fun answer => ?_⟩
      -- a decoder that refuses the value makes no difference to the wait
      cases answer with
      | error error => exact trivial
      | ok value =>
        dsimp only
        cases decode value <;> exact trivial
  | notify method params =>
    have hwaits : (sendNotification c server ⟨method, params⟩).WaitsOnce
      ((Question.notify method params).Poses c server) := waitsOnce_sendNotification ⟨_, rfl⟩
    cases h with
    | read h =>
      simp only [Task.andThen, hcurrent] at h
      obtain ⟨p, hp, hcall, hidles⟩ := hwaits.stretch h
      exact ⟨p, hp, hcall, hidles fun _ => trivial⟩

/-- Whoever asks while a process is held comes to a call. -/
theorem calls_ask (c : SessionContext) (q : Question) {s : Session}
    (hcurrent : s.current = some server) : (q.ask c).Calls s := by
  have hrequest (method : String) (params : Json) : (request c method params).Calls s := by
    refine (Task.calls_get_bind _ s).2 ?_
    rw [hcurrent]
    exact (waitsOnce_requestOn (P := fun _ => True) fun _ _ => trivial).calls s
  cases q with
  | request method params => exact hrequest method params
  | requestAs method params decode => exact (hrequest method params).andThen _
  | notify method params =>
    refine (Task.calls_get_bind _ s).2 ?_
    rw [hcurrent]
    exact (waitsOnce_sendNotification (P := fun _ => True) trivial).calls s

/-- A stop of a held process first asks that process to shut down. -/
theorem stretch_stop {s s' : Session} {w : Task.Waiting Session Unit}
    (h : (Operation.stop.task c).Stretch s w s') (hcurrent : s.current = some server) :
    ∃ p r timeout, w.pending? = some p ∧ p.call = .request c.transport server r timeout ∧
      r.method = "shutdown" := by
  have hwaits : (send c server ⟨.number s.nextRequest, "shutdown", .null⟩
      (some shutdownTimeout)).WaitsOnce (fun call => ∃ r timeout,
        call = .request c.transport server r timeout ∧ r.method = "shutdown") :=
    waitsOnce_send ⟨_, _, rfl, rfl⟩
  cases h with
  | read h =>
    simp only [Task.andThen, hcurrent] at h
    cases h with
    | write h =>
      cases h with
      | read h =>
        cases h with
        | write h =>
          simp only [Task.andThen, Task.bind_eq, Task.andThen_assoc] at h
          obtain ⟨p, hp, ⟨r, timeout, hcall, hmethod⟩, -⟩ := hwaits.stretch h
          exact ⟨p, r, timeout, hp, hcall, hmethod⟩

/-- What is passed on to a process that is introduced is passed on in its turn. -/
theorem inTurn_of_poses {log : List (Mark Party)} {q : Question} {call : Call}
    (h : Introduced log (c.transport, server)) (hcall : q.Poses c server call) (party : Party) :
    InTurn log party call := by
  cases q with
  | request method params =>
    obtain ⟨id, params, timeout, rfl⟩ := hcall
    exact .inr h
  | requestAs method params decode =>
    obtain ⟨id, params, timeout, rfl⟩ := hcall
    exact .inr h
  | notify method params =>
    obtain ⟨params, rfl⟩ := hcall
    exact .inr h

/-- What is passed on to a process that is not introduced is out of turn, unless it initializes the
process. -/
theorem not_inTurn_of_poses {log : List (Mark Party)} {q : Question} {call : Call}
    (hearly : ¬ Introduced log (c.transport, server)) (hcall : q.Poses c server call)
    (hq : q.initializes = false) : ¬ InTurn log .caller call := by
  cases q with
  | request method params =>
    obtain ⟨id, params, timeout, rfl⟩ := hcall
    simpa [InTurn, hearly, Question.initializes] using hq
  | requestAs method params decode =>
    obtain ⟨id, params, timeout, rfl⟩ := hcall
    simpa [InTurn, hearly, Question.initializes] using hq
  | notify method params =>
    obtain ⟨params, rfl⟩ := hcall
    simp [InTurn, hearly]

end Sending

/-- The part of a session that says which process it holds and what it shows. -/
def bearing (s : Session) : LifecycleState × Option ServerId × ServerId :=
  (s.state, s.current, s.last)

section Bearing

variable (c : SessionContext)

theorem steady_relay {call : Call}
    (message : MeasuringContext → String → Nat → Nat → call.Answer → MeasuredMessage)
    (failed : call.Answer → Bool) : (relay c call message failed).Steady bearing := by
  unfold relay
  split
  · exact Task.steady_ask call
  · exact Task.steady_within (fun _ _ => rfl) _

theorem steady_requestOn (server : ServerId) (method : String) (params : Json) :
    (requestOn c server method params).Steady bearing := by
  have hnumber : takeRequestId.Steady bearing := fun _ _ hs => ⟨hs, trivial⟩
  refine hnumber.bind fun id => ?_
  obtain ⟨message, failed, heq⟩ :=
    send_eq_relay c server ⟨id, method, params⟩ (some c.options.requestTimeout)
  rw [heq]
  refine (steady_relay c message failed).bind fun answer => ?_
  split
  · exact Task.steady_pure _
  · split <;> exact Task.steady_pure _

theorem steady_request (method : String) (params : Json) :
    (request c method params).Steady bearing := by
  refine Task.steady_get.bind fun s => ?_
  split
  · exact Task.steady_pure _
  · exact steady_requestOn c _ method params

/-- Whoever asks something changes neither what the session holds nor what it shows. -/
theorem steady_task (q : Question) : (q.task c).Steady bearing := by
  cases q with
  | request method params => exact (steady_request c method params).bind fun _ => Task.steady_pure _
  | requestAs method params decode =>
    refine Task.Steady.bind ((steady_request c method params).bind fun answer => ?_)
      fun _ => Task.steady_pure _
    split
    · exact Task.steady_pure _
    · split <;> exact Task.steady_pure _
  | notify method params =>
    refine Task.Steady.bind (Task.steady_get.bind fun s => ?_) fun _ => Task.steady_pure _
    split
    · exact Task.steady_pure _
    · next server _ =>
      obtain ⟨message, failed, heq⟩ := sendNotification_eq_relay c server ⟨method, params⟩
      rw [heq]
      exact steady_relay c message failed

end Bearing

/-- What somebody waits for who is no operation: once it is answered, nothing is said any more, and
at most an error is shown. -/
def Harmless (p : Task.Pending Session) : Prop :=
  ∀ answer s w s', (p.next answer).Stretch s w s' → w.pending? = none ∧
    s'.last = s.last ∧ s'.current = s.current ∧ (s'.state = s.state ∨ s'.state = .error)

/-- What is harmless goes on beside the operation to its end. -/
theorem Harmless.alongside {p : Task.Pending Session} (hp : Harmless p) {x : Minutes}
    {party : Party} (hparty : party ≠ .operation) (answer : p.call.Answer)
    {w : Task.Waiting Session Unit} {s : Session}
    (hstretch : (p.next answer).Stretch x.now w s) :
    Alongside x ((x.mark (.answered party ⟨p.call, answer⟩)).behind party w s) ∧
      w.pending? = none := by
  obtain ⟨hended, hlast, hcurrent, hstate⟩ := hp answer _ w s hstretch
  have hbehind := Alongside.behind (x := x.mark (.answered party ⟨p.call, answer⟩)) hparty hlast
    (.inl hcurrent) hstate fun p' hp' => nomatch hended.symm.trans hp'
  exact ⟨(Alongside.answered x hparty _).trans hbehind, hended⟩

/-- What idles behind its answer is harmless. -/
theorem harmless_of_idles {p : Task.Pending Session} (h : ∀ answer, (p.next answer).Idles) :
    Harmless p := by
  intro answer s w s' hstretch
  obtain ⟨hended, rfl⟩ := (h answer).stretch hstretch
  exact ⟨hended, rfl, rfl, .inl rfl⟩

/-- What the observation does about a report goes on beside the operation. -/
theorem stretch_observe {c : SessionContext} {event : TransportEvent} {s s' : Session}
    {w : Task.Waiting Session Unit} (h : (observe c event).Stretch s w s') :
    s'.last = s.last ∧ (s'.current = s.current ∨ s'.current = none) ∧ s'.state = s.state ∧
      ∀ p, w.pending? = some p → (∀ log, InTurn log .observation p.call) ∧ Harmless p := by
  cases h with
  | read h =>
    simp only [Task.andThen] at h
    split at h
    · next server status =>
      split at h
      · -- the process is let go before it is stopped, and the error is shown after that
        cases h with
        | write h =>
          cases h with
          | pass hinstant => cases hinstant
          | wait =>
            refine ⟨rfl, .inr rfl, rfl, fun p hp => ?_⟩
            obtain rfl := Option.some.inj hp
            refine ⟨fun _ => trivial, fun answer s w s' h => ?_⟩
            cases h with
            | read h =>
              cases h with
              | write h =>
                cases h
                exact ⟨rfl, rfl, rfl, .inr rfl⟩
      · cases h
        exact ⟨rfl, .inl rfl, rfl, fun _ hp => by cases hp⟩
    · split at h
      · cases h with
        | pass hinstant => cases hinstant
        | wait =>
          refine ⟨rfl, .inl rfl, rfl, fun p hp => ?_⟩
          obtain rfl := Option.some.inj hp
          exact ⟨fun _ => trivial, harmless_of_idles fun _ => trivial⟩
      · cases h
        exact ⟨rfl, .inl rfl, rfl, fun _ hp => by cases hp⟩
    · cases h
      exact ⟨rfl, .inl rfl, rfl, fun _ hp => by cases hp⟩

end Session

end RubySupervisor
