import RubySupervisor.Proofs.Session.Conduct
import RubySupervisor.Proofs.Session.Endurance

/-!
# Operations and the observation of a session

The operations of a session follow one another, but the observation of its transport goes on beside
them: a process may be reported gone at any call that an operation waits for. Whenever neither
waits, a session that shows that it runs ought to hold the one process that is started and not
stopped. That is lost in two ways, and in no other: an operation shows that the server runs although
the process was released meanwhile, or the observation shows the error although the next process
runs by then.
-/

namespace RubySupervisor.Session

/-- The operations that follow one another. A restart asks about a rebase before it takes its turn;
what it does then is a replacement. -/
inductive Operation where
  | start
  | stop
  | replace
  deriving DecidableEq

/-- The task of an operation. What it returns to its caller does not matter here. -/
def Operation.task (c : SessionContext) : Operation → Task Session Unit
  | start => do let _ ← Session.start c
  | stop => do let _ ← Session.stop c
  | replace => Session.replace c

/-- A session with the operation and the observation that wait for a call, if they do. -/
structure Interleaving where
  scene : Scene Session
  operation : Option (Task.Pending Session)
  observation : Option (Task.Pending Session)

namespace Interleaving

/-- A session before anything happens. -/
def fresh : Interleaving := ⟨⟨.fresh .stopped, []⟩, none, none⟩

/-- The operation goes on up to its next call. -/
def operate (t : Task Session Unit) (x : Interleaving) : Interleaving :=
  { x with scene := t.scene x.scene, operation := t.pending? x.scene.now }

/-- The observation goes on up to its next call. -/
def attend (t : Task Session Unit) (x : Interleaving) : Interleaving :=
  { x with scene := t.scene x.scene, observation := t.pending? x.scene.now }

/-- Neither an operation nor the observation waits for anything. -/
def Quiet (x : Interleaving) : Prop := x.operation.isNone ∧ x.observation.isNone

/-- The session shows that it runs exactly if it holds a process that is started and not stopped,
and there is at most one such process. -/
def Consistent (c : SessionContext) (x : Interleaving) : Prop :=
  (x.scene.now.state = .running ↔
      ∃ id, x.scene.now.current = some id ∧ Unstopped x.scene.calls (c.transport, id)) ∧
    ∀ p q, Unstopped x.scene.calls p → Unstopped x.scene.calls q → p = q

/-- An operation ends and shows that the server runs, though the process has been released and the
observation is through with it. -/
def LateStart (x y : Interleaving) : Prop :=
  x.operation.isSome ∧ y.operation.isNone ∧ x.observation.isNone ∧
    x.scene.now.current = none ∧ y.scene.now.state = .running

/-- The observation ends a release and shows the error, though the session holds a process again
and shows that it runs. -/
def LateRelease (x y : Interleaving) : Prop :=
  x.observation.isSome ∧ y.observation.isNone ∧
    x.scene.now.current.isSome ∧ x.scene.now.state = .running

/-- A step shows what is not the case any more. -/
def Stale (x y : Interleaving) : Prop := LateStart x y ∨ LateRelease x y

/-- A step of a session: an operation begins or is answered, or the observation is told about a
process or is answered. Operations wait for one another, and so do the reports to the observation.
-/
inductive Step (c : SessionContext) : Interleaving → Interleaving → Prop where
  | begin {x : Interleaving} (o : Operation) (hfree : x.operation = none) :
      Step c x (x.operate (o.task c))
  | answer {x : Interleaving} {p : Task.Pending Session} (answer : p.call.Answer)
      (hpending : x.operation = some p) : Step c x (x.operate (p.next answer))
  | report {x : Interleaving} (server : ServerId) (status : TransportStatus)
      (hfree : x.observation = none) : Step c x (x.attend (observe c (.status server status)))
  | settle {x : Interleaving} {p : Task.Pending Session} (answer : p.call.Answer)
      (hpending : x.observation = some p) : Step c x (x.attend (p.next answer))

/-- The runs of a session, step by step. -/
inductive Runs (c : SessionContext) : List (Interleaving × Interleaving) → Interleaving → Prop where
  | fresh : Runs c [] .fresh
  | step {steps : List (Interleaving × Interleaving)} {x y : Interleaving} (h : Runs c steps x)
      (hstep : Step c x y) : Runs c (steps ++ [(x, y)]) y

/-- What the observation waits for when it releases a process, and what it does then. -/
def release (c : SessionContext) (id : ServerId) : Task.Pending Session :=
  ⟨.stopServer c.transport id, fun _ => setState .error⟩

/-- The state of an interleaving without a stale step. -/
structure Sound (c : SessionContext) (x : Interleaving) : Prop where
  idle : x.operation = none → Retains c x.scene.now.current x.scene ∧
    (x.scene.now.current ≠ none → x.scene.now.state = .running) ∧
    (x.scene.now.state = .running → x.scene.now.current = none → x.observation ≠ none)
  busy : ∀ p, x.operation = some p →
    (x.scene.now.current = none ∨ x.scene.now.state ≠ .running) ∧
      ∀ answer y, Disturbed c x.scene y →
        Endures c (p.next answer) (fun origin _ z => Settled c origin z) y.now y
  releasing : ∀ p, x.observation = some p → ∃ id, p = release c id

/-- A fresh session is sound. -/
theorem sound_fresh (c : SessionContext) : Sound c .fresh where
  idle _ := by
    refine ⟨⟨fun p => ?_, fun call hcall => ?_⟩, fun hsome => absurd rfl hsome, fun hstate => ?_⟩
    · simp [fresh, Unstopped, Session.fresh]
    · simp [fresh] at hcall
    · simp [fresh, Session.fresh] at hstate
  busy p hp := by simp [fresh] at hp
  releasing p hp := by simp [fresh] at hp

/-- A quiet session that is sound is consistent. -/
theorem Sound.consistent {c : SessionContext} {x : Interleaving} (h : Sound c x)
    (hquiet : x.Quiet) : x.Consistent c := by
  obtain ⟨hoperation, hobservation⟩ := hquiet
  obtain ⟨hretains, hshown, hlost⟩ := h.idle (Option.isNone_iff_eq_none.1 hoperation)
  refine ⟨⟨fun hstate => ?_, fun ⟨id, hid, _⟩ => hshown (by simp [hid])⟩, fun p q hp hq => ?_⟩
  · cases hcurrent : x.scene.now.current with
    | none => exact absurd (Option.isNone_iff_eq_none.1 hobservation) (hlost hstate hcurrent)
    | some id => exact ⟨id, rfl, (hretains.live _).2 ⟨id, hcurrent, rfl⟩⟩
  · obtain ⟨id, hid, rfl⟩ := (hretains.live p).1 hp
    obtain ⟨other, hother, rfl⟩ := (hretains.live q).1 hq
    rw [Option.some.inj (hid.symm.trans hother)]

/-- An operation endures from a settled session to a settled session. -/
theorem endures_task (c : SessionContext) (o : Operation) {origin : Session} {x : Scene Session}
    (h : Settled c origin x) :
    Endures c (o.task c) (fun origin _ y => Settled c origin y) origin x := by
  cases o with
  | start => exact (Task.withstands_bind _ _ _ origin x).2 (endures_start h)
  | stop => exact (Task.withstands_bind _ _ _ origin x).2 (endures_stop h)
  | replace => exact endures_replace h

/-- Every request comes to a call. -/
theorem calls_send (c : SessionContext) (server : ServerId) (r : Request) (timeout : Option Span)
    (s : Session) : (send c server r timeout).Calls s := by
  unfold send
  cases c.measuring with
  | none => exact trivial
  | some measuring =>
    cases hmeasures : s.meter.measures? <;>
      simp [Meter.request, Task.within, Task.Calls, Task.get, Task.put, Task.ask, Task.andThen,
        meterPart, hmeasures]

/-- The start of a process comes to a call. -/
theorem calls_start (c : SessionContext) {s : Session} (hstate : s.state ≠ .running) :
    (Session.start c).Calls s := by
  simp [Session.start, startProcess, Task.Calls, Task.get, Task.put, Task.ask, Task.andThen, hstate]

/-- The stop of a held process comes to a call. -/
theorem calls_stop (c : SessionContext) {s : Session} {id : ServerId} (hid : s.current = some id) :
    (Session.stop c).Calls s := by
  simp [Session.stop, takeRequestId, Task.Calls, Task.get, Task.put, Task.andThen, hid,
    Task.Calls.andThen (calls_send _ _ _ _ _)]

/-- What an operation ends with at once it leaves as it was, if it shows that the server runs. -/
theorem segment_running {c : SessionContext} {o : Operation} {s : Session}
    (hended : (o.task c).pending? s = none) (hstate : ((o.task c).segment s).2.state = .running) :
    ((o.task c).segment s).2 = s := by
  cases o with
  | start =>
    by_cases hrunning : s.state = .running
    · simp [Operation.task, Session.start, Task.segment, Task.get, Task.andThen, hrunning]
    · exact absurd hended ((calls_start c hrunning).andThen _).pending?_ne_none
  | stop =>
    cases hcurrent : s.current with
    | none =>
      simp [Operation.task, Session.stop, setState, Task.segment, Task.get, Task.change,
        Task.andThen, hcurrent] at hstate
    | some id => exact absurd hended ((calls_stop c hcurrent).andThen _).pending?_ne_none
  | replace =>
    refine absurd hended (Task.Calls.pending?_ne_none ?_)
    change (if s.state = .running then _ else _ : Task Session Unit).Calls s
    split
    · cases hcurrent : s.current with
      | none =>
        simp [Session.stop, setState, Task.Calls, Task.get, Task.change, Task.andThen, hcurrent,
          Task.Calls.andThen (calls_start _ _)]
      | some id => exact (calls_stop c hcurrent).andThen _
    · rename_i hstate
      exact (calls_start c hstate).andThen _

/-- An operation may begin in a sound session. -/
theorem Sound.begin {c : SessionContext} {x : Interleaving} (h : Sound c x) (o : Operation)
    (hfree : x.operation = none) : Sound c (x.operate (o.task c)) := by
  obtain ⟨hretains, hshown, hlost⟩ := h.idle hfree
  have hsettled : Settled c x.scene.now x.scene := ⟨hretains, hshown, fun _ => rfl⟩
  have hsegment := (endures_task c o hsettled).segment
  refine ⟨fun hended => ?_, fun p hp => ?_, h.releasing⟩
  · change (o.task c).pending? x.scene.now = none at hended
    rw [hended] at hsegment
    refine ⟨hsegment.retains, hsegment.shown, fun hstate hnone => ?_⟩
    have hsame : ((o.task c).scene x.scene).now = x.scene.now := segment_running hended hstate
    change ((o.task c).scene x.scene).now.state = .running at hstate
    change ((o.task c).scene x.scene).now.current = none at hnone
    rw [hsame] at hstate hnone
    exact hlost hstate hnone
  · change (o.task c).pending? x.scene.now = some p at hp
    rw [hp] at hsegment
    exact ⟨hsegment.1, hsegment.2⟩

/-- An operation goes on soundly, unless it shows too late that the server runs. -/
theorem Sound.answer {c : SessionContext} {x : Interleaving} (h : Sound c x)
    {p : Task.Pending Session} (answer : p.call.Answer) (hpending : x.operation = some p)
    (hintime : ¬ LateStart x (x.operate (p.next answer))) :
    Sound c (x.operate (p.next answer)) := by
  have hsegment := ((h.busy p hpending).2 answer x.scene (.refl c _)).segment
  refine ⟨fun hended => ?_, fun p' hp => ?_, h.releasing⟩
  · have hended' : (p.next answer).pending? x.scene.now = none := hended
    rw [hended'] at hsegment
    refine ⟨hsegment.retains, hsegment.shown, fun hstate hnone hrest => hintime ?_⟩
    refine ⟨by simp [hpending], by simp [hended], ?_, ?_, hstate⟩
    · exact Option.isNone_iff_eq_none.2 hrest
    · exact (hsegment.same hstate).symm.trans hnone
  · change (p.next answer).pending? x.scene.now = some p' at hp
    rw [hp] at hsegment
    exact hsegment

/-- An operation that shows too late that the server runs leaves a quiet and inconsistent
session. -/
theorem Sound.lateStart {c : SessionContext} {x : Interleaving} (h : Sound c x)
    {p : Task.Pending Session} (answer : p.call.Answer) (hpending : x.operation = some p)
    (hlate : LateStart x (x.operate (p.next answer))) :
    (x.operate (p.next answer)).Quiet ∧ ¬ (x.operate (p.next answer)).Consistent c := by
  obtain ⟨-, hended, hrest, hnone, hstate⟩ := hlate
  refine ⟨⟨hended, hrest⟩, fun hconsistent => ?_⟩
  have hsegment := ((h.busy p hpending).2 answer x.scene (.refl c _)).segment
  have hended' : (p.next answer).pending? x.scene.now = none := Option.isNone_iff_eq_none.1 hended
  rw [hended'] at hsegment
  obtain ⟨id, hid, -⟩ := hconsistent.1.1 hstate
  have hnone' := (hsegment.same hstate).trans hnone
  change ((p.next answer).scene x.scene).now.current = some id at hid
  rw [hnone'] at hid
  cases hid

/-- What the observation does while an operation waits, the operation endures. -/
theorem Sound.disturbed {c : SessionContext} {x : Interleaving} (h : Sound c x) {y : Scene Session}
    (hdisturbed : Disturbed c x.scene y) (p : Task.Pending Session) (hp : x.operation = some p) :
    (y.now.current = none ∨ y.now.state ≠ .running) ∧ ∀ answer z, Disturbed c y z →
      Endures c (p.next answer) (fun origin _ z => Settled c origin z) z.now z := by
  obtain ⟨hbusy, hendures⟩ := h.busy p hp
  refine ⟨?_, fun answer z hz => hendures answer z (hdisturbed.trans hz)⟩
  exact hbusy.imp (fun hnone => (hdisturbed.none hnone).1) hdisturbed.shown_ne

/-- What the observation does about a report: it begins to release the held process, or nothing. -/
theorem attend_report (c : SessionContext) (x : Interleaving) (server : ServerId)
    (status : TransportStatus) (hfree : x.observation = none) :
    x.attend (observe c (.status server status)) = x ∨
      x.scene.now.current = some server ∧
        x.attend (observe c (.status server status)) = {
          scene := ⟨{ x.scene.now with current := none },
            x.scene.calls ++ [.stopServer c.transport server]⟩
          operation := x.operation
          observation := some (release c server) } := by
  by_cases hlost : status.isFinal ∧ x.scene.now.current = some server
  · obtain ⟨hfinal, hcurrent⟩ := hlost
    refine .inr ⟨hcurrent, ?_⟩
    simp [attend, release, observe, Task.scene, Task.pending?, Task.segment, Task.get, Task.put,
      Task.ask, Task.andThen, hfinal, hcurrent]
  · refine .inl ?_
    obtain ⟨scene, operation, observation⟩ := x
    obtain rfl := hfree
    simp [attend, observe, Task.scene, Task.pending?, Task.segment, Task.get, Task.andThen,
      if_neg hlost]

/-- The observation is told about a process soundly. -/
theorem Sound.report {c : SessionContext} {x : Interleaving} (h : Sound c x) (server : ServerId)
    (status : TransportStatus) (hfree : x.observation = none) :
    Sound c (x.attend (observe c (.status server status))) := by
  rcases attend_report c x server status hfree with hsame | ⟨hcurrent, hrelease⟩
  · rwa [hsame]
  · rw [hrelease]
    have hdisturbed : Disturbed c x.scene ⟨{ x.scene.now with current := none },
        x.scene.calls ++ [.stopServer c.transport server]⟩ :=
      ⟨rfl, .inl rfl, .inr ⟨server, hcurrent, rfl, rfl⟩⟩
    refine ⟨fun hidle => ⟨?_, fun hsome => absurd rfl hsome, fun _ _ hnone => ?_⟩,
      h.disturbed hdisturbed, fun p hp => ⟨server, (Option.some.inj hp).symm⟩⟩
    · exact (h.idle hidle).1.disturbed hdisturbed
    · cases hnone

/-- The observation is through with a release soundly, unless it shows the error too late. -/
theorem Sound.settle {c : SessionContext} {x : Interleaving} (h : Sound c x)
    {p : Task.Pending Session} (answer : p.call.Answer) (hpending : x.observation = some p)
    (hintime : ¬ LateRelease x (x.attend (p.next answer))) :
    Sound c (x.attend (p.next answer)) := by
  obtain ⟨id, rfl⟩ := h.releasing p hpending
  have hdisturbed : Disturbed c x.scene (x.attend ((release c id).next answer)).scene :=
    ⟨rfl, .inr rfl, .inl ⟨rfl, by simp [attend, release, Task.scene, Task.pending?, Task.segment,
      setState, Task.change]⟩⟩
  refine ⟨fun hidle => ?_, h.disturbed hdisturbed, fun p hp => ?_⟩
  · obtain ⟨hretains, hshown, -⟩ := h.idle hidle
    refine ⟨hretains.disturbed hdisturbed, fun hsome => ?_, fun hstate => by cases hstate⟩
    refine absurd ⟨by simp [hpending], rfl, ?_, hshown hsome⟩ hintime
    exact Option.isSome_iff_ne_none.2 hsome
  · cases hp

/-- An observation that shows the error too late leaves a quiet and inconsistent session. -/
theorem Sound.lateRelease {c : SessionContext} {x : Interleaving} (h : Sound c x)
    {p : Task.Pending Session} (answer : p.call.Answer) (hpending : x.observation = some p)
    (hlate : LateRelease x (x.attend (p.next answer))) :
    (x.attend (p.next answer)).Quiet ∧ ¬ (x.attend (p.next answer)).Consistent c := by
  obtain ⟨id, rfl⟩ := h.releasing p hpending
  obtain ⟨-, -, hsome, hstate⟩ := hlate
  have hidle : x.operation = none := by
    cases hoperation : x.operation with
    | none => rfl
    | some p =>
      rcases (h.busy p hoperation).1 with hnone | hshown
      · simp [hnone] at hsome
      · exact absurd hstate hshown
  obtain ⟨other, hother⟩ := Option.isSome_iff_exists.1 hsome
  refine ⟨⟨Option.isNone_iff_eq_none.2 hidle, rfl⟩, fun hconsistent => ?_⟩
  have hrunning := hconsistent.1.2 ⟨other, hother, ?_⟩
  · cases hrunning
  · have hcalls : (x.attend ((release c id).next answer)).scene.calls = x.scene.calls := by
      simp [attend, release, Task.scene, Task.pending?, Task.segment, setState, Task.change]
    rw [hcalls]
    exact ((h.idle hidle).1.live _).2 ⟨other, hother, rfl⟩

/-- Only the observation shows the error too late. -/
theorem not_lateRelease_operate (x : Interleaving) (t : Task Session Unit) :
    ¬ LateRelease x (x.operate t) := by
  rintro ⟨hsome, hnone, -⟩
  have hrest : x.observation = none := Option.isNone_iff_eq_none.1 hnone
  rw [hrest] at hsome
  cases hsome

/-- Only an operation shows too late that the server runs. -/
theorem not_lateStart_attend (x : Interleaving) (t : Task Session Unit) :
    ¬ LateStart x (x.attend t) := by
  rintro ⟨hsome, hnone, -⟩
  have hrest : x.operation = none := Option.isNone_iff_eq_none.1 hnone
  rw [hrest] at hsome
  cases hsome

/-- **Step lemma.** A step from a sound session is sound, or it is stale and followed by a quiet
session that is not consistent. -/
theorem Sound.step {c : SessionContext} {x y : Interleaving} (h : Sound c x) (hstep : Step c x y) :
    ¬ Stale x y ∧ Sound c y ∨ Stale x y ∧ y.Quiet ∧ ¬ y.Consistent c := by
  cases hstep with
  | begin o hfree =>
    refine .inl ⟨fun hstale => ?_, h.begin o hfree⟩
    rcases hstale with ⟨hsome, -⟩ | hlate
    · rw [hfree] at hsome
      cases hsome
    · exact not_lateRelease_operate x _ hlate
  | @answer p answer hpending =>
    by_cases hlate : LateStart x (x.operate (p.next answer))
    · exact .inr ⟨.inl hlate, h.lateStart answer hpending hlate⟩
    · refine .inl ⟨fun hstale => ?_, h.answer answer hpending hlate⟩
      exact hstale.elim hlate (not_lateRelease_operate x _)
  | report server status hfree =>
    refine .inl ⟨fun hstale => ?_, h.report server status hfree⟩
    rcases hstale with hlate | ⟨hsome, -⟩
    · exact not_lateStart_attend x _ hlate
    · rw [hfree] at hsome
      cases hsome
  | @settle p answer hpending =>
    by_cases hlate : LateRelease x (x.attend (p.next answer))
    · exact .inr ⟨.inr hlate, h.lateRelease answer hpending hlate⟩
    · refine .inl ⟨fun hstale => ?_, h.settle answer hpending hlate⟩
      exact hstale.elim (not_lateStart_attend x _) hlate

/-- **Run lemma.** A run is sound and never stale, or some step of it is stale and one leads to a
quiet session that is not consistent. -/
theorem audited {c : SessionContext} {steps : List (Interleaving × Interleaving)} {x : Interleaving}
    (h : Runs c steps x) :
    Sound c x ∧ (∀ m ∈ steps, ¬ Stale m.1 m.2 ∧ (m.2.Quiet → m.2.Consistent c)) ∨
      (∃ m ∈ steps, Stale m.1 m.2) ∧ ∃ m ∈ steps, m.2.Quiet ∧ ¬ m.2.Consistent c := by
  induction h with
  | fresh => exact .inl ⟨sound_fresh c, by simp⟩
  | @step steps x y h hstep ih =>
    rcases ih with ⟨hsound, hall⟩ | ⟨⟨m, hm, hstale⟩, ⟨m', hm', hfault⟩⟩
    · rcases hsound.step hstep with ⟨hfresh, hnext⟩ | ⟨hstale, hfault⟩
      · refine .inl ⟨hnext, fun m hm => ?_⟩
        rcases List.mem_append.1 hm with hm | hm
        · exact hall m hm
        · obtain rfl := List.mem_singleton.1 hm
          exact ⟨hfresh, hnext.consistent⟩
      · exact .inr ⟨⟨(x, y), by simp, hstale⟩, ⟨(x, y), by simp, hfault⟩⟩
    · exact .inr ⟨⟨m, by simp [hm], hstale⟩, ⟨m', by simp [hm'], hfault⟩⟩

/-- **Theorem (interleaving).** Along a run of the operations and the observation of a session,
whenever neither waits, the session shows that it runs exactly if it holds a process that is started
and not stopped, and there is at most one such process: exactly if no step of the run is stale, that
is, no operation shows that the server runs after its process was released, and the observation
does not show the error of a process after the next one runs. -/
theorem consistent_iff_no_stale_step {c : SessionContext}
    {steps : List (Interleaving × Interleaving)} {x : Interleaving} (h : Runs c steps x) :
    (∀ m ∈ steps, m.2.Quiet → m.2.Consistent c) ↔ ∀ m ∈ steps, ¬ Stale m.1 m.2 := by
  rcases audited h with ⟨-, hall⟩ | ⟨⟨m, hm, hstale⟩, ⟨m', hm', hquiet, hfault⟩⟩
  · exact ⟨fun _ m hm => (hall m hm).1, fun _ m hm => (hall m hm).2⟩
  · exact ⟨fun hconsistent => absurd (hconsistent m' hm' hquiet) hfault,
      fun hfresh => absurd hstale (hfresh m hm)⟩

instance (x y : Interleaving) : Decidable (Stale x y) :=
  inferInstanceAs (Decidable ((_ ∧ _ ∧ _ ∧ _ ∧ _) ∨ _ ∧ _ ∧ _ ∧ _))

/-- Who takes the next step. -/
inductive Turn where
  | begin (o : Operation)
  | answer
  | report (server : ServerId) (status : TransportStatus)
  | settle

/-- The step that is taken in a turn where everything succeeds, if one can be taken. -/
def take? (c : SessionContext) (x : Interleaving) : Turn → Option Interleaving
  | .begin o => if x.operation.isNone then some (x.operate (o.task c)) else none
  | .answer => x.operation.map fun p =>
    x.operate (p.next (agreed (.error .rubyNotOnPath) p.call))
  | .report server status =>
    if x.observation.isNone then some (x.attend (observe c (.status server status))) else none
  | .settle => x.observation.map fun p =>
    x.attend (p.next (agreed (.error .rubyNotOnPath) p.call))

/-- What is taken in a turn is a step. -/
theorem step_of_take? {c : SessionContext} {x y : Interleaving} {t : Turn}
    (h : x.take? c t = some y) : Step c x y := by
  cases t with
  | begin o =>
    obtain ⟨hfree, hy⟩ := Option.ite_none_right_eq_some.1 h
    obtain rfl := Option.some.inj hy
    exact .begin o (Option.isNone_iff_eq_none.1 hfree)
  | answer =>
    obtain ⟨p, hp, rfl⟩ := Option.map_eq_some_iff.1 h
    exact .answer _ hp
  | report server status =>
    obtain ⟨hfree, hy⟩ := Option.ite_none_right_eq_some.1 h
    obtain rfl := Option.some.inj hy
    exact .report server status (Option.isNone_iff_eq_none.1 hfree)
  | settle =>
    obtain ⟨p, hp, rfl⟩ := Option.map_eq_some_iff.1 h
    exact .settle _ hp

/-- The steps that are taken in turns, as far as they can be taken. -/
def play (c : SessionContext) : List Turn → Interleaving → List (Interleaving × Interleaving)
  | [], _ => []
  | t :: turns, x =>
    match x.take? c t with
    | none => []
    | some y => (x, y) :: play c turns y

/-- What is played is a run. -/
theorem runs_play (c : SessionContext) (turns : List Turn)
    {steps : List (Interleaving × Interleaving)} {x : Interleaving} (h : Runs c steps x) :
    ∃ y, Runs c (steps ++ play c turns x) y := by
  induction turns generalizing steps x with
  | nil => exact ⟨x, by simpa [play] using h⟩
  | cons t turns ih =>
    cases htake : x.take? c t with
    | none => exact ⟨x, by simpa [play, htake] using h⟩
    | some y =>
      obtain ⟨z, hz⟩ := ih (h.step (step_of_take? htake))
      exact ⟨z, by simpa [play, htake] using hz⟩

/-- A process is reported gone when nothing else is under way, and is replaced later. -/
def replacedInTime : List (Interleaving × Interleaving) :=
  play (plainContext "/w") [.begin .start, .answer, .answer, .answer, .report ⟨0, 1⟩ .crashed,
    .settle, .begin .replace, .answer, .answer, .answer] .fresh

/-- A process may be replaced in time, and then the session is consistent whenever it is quiet. -/
theorem replacedInTime_consistent :
    (∃ x, Runs (plainContext "/w") replacedInTime x) ∧
      ∀ m ∈ replacedInTime, m.2.Quiet → m.2.Consistent (plainContext "/w") := by
  have hplay : ∃ x, Runs (plainContext "/w") ([] ++ replacedInTime) x := runs_play _ _ .fresh
  obtain ⟨x, hruns⟩ := hplay
  rw [List.nil_append] at hruns
  refine ⟨⟨x, hruns⟩, ?_⟩
  rw [consistent_iff_no_stale_step hruns]
  decide +kernel

/-- A process is reported gone and replaced before its release is through; the next replacement
starts a process beside the second one. -/
def replacedMeanwhile : List (Interleaving × Interleaving) :=
  play (plainContext "/w") [.begin .start, .answer, .answer, .answer, .report ⟨0, 1⟩ .stopped,
    .begin .replace, .answer, .answer, .answer, .settle, .begin .replace] .fresh

/-- Not every run is consistent whenever it is quiet. -/
theorem not_always_consistent :
    ¬ ∀ (c : SessionContext) (steps : List (Interleaving × Interleaving)) (x : Interleaving),
      Runs c steps x → ∀ m ∈ steps, m.2.Quiet → m.2.Consistent c := by
  intro h
  have hplay : ∃ x, Runs (plainContext "/w") ([] ++ replacedMeanwhile) x := runs_play _ _ .fresh
  obtain ⟨x, hruns⟩ := hplay
  rw [List.nil_append] at hruns
  have hstale : ∃ m ∈ replacedMeanwhile, Stale m.1 m.2 := by decide +kernel
  rcases audited hruns with ⟨-, hall⟩ | ⟨-, ⟨m, hm, hquiet, hfault⟩⟩
  · obtain ⟨m, hm, hlate⟩ := hstale
    exact (hall m hm).1 hlate
  · exact hfault (h _ _ _ hruns m hm hquiet)

end Interleaving

end RubySupervisor.Session
