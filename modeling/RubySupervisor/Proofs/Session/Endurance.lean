import RubySupervisor.Proofs.Host.Interference
import RubySupervisor.Proofs.Transport.Processes
import RubySupervisor.Session.Client

/-!
# Operations under interference

While an operation of a session waits for its transport, the observation of events may release the
process that the session holds and may show an error. This file follows the processes of a session
through its operations under that interference: what is started and not stopped is at all times the
one process that the session holds, or that the operation is taking leave of.
-/

namespace RubySupervisor

namespace Meter

/-- A report neither starts nor stops a process. -/
theorem calm_report {σ : Type} (c : MeasuringContext) (m : MeasuredMessage) (failed : Bool) :
    (report c m failed : Task σ Unit).Only Call.Calm := by
  refine (Task.only_ask ⟨rfl, rfl⟩).bind fun _ => ?_
  split
  · exact Task.only_ask ⟨rfl, rfl⟩
  · exact Task.only_pure ()

/-- A request through a meter neither starts nor stops a process. -/
theorem calm_request (c : MeasuringContext) (transport : Nat) (server : ServerId) (r : Request)
    (timeout : Option Span) : (request c transport server r timeout).Only Call.Calm := by
  refine Task.only_get.bind fun m => (Task.only_put _).bind fun _ => ?_
  split
  · exact Task.only_ask ⟨rfl, rfl⟩
  · refine (Task.only_ask ⟨rfl, rfl⟩).bind fun started => (Task.only_ask ⟨rfl, rfl⟩).bind
      fun answer => (Task.only_ask ⟨rfl, rfl⟩).bind fun ended => ?_
    exact (calm_report c _ _).bind fun _ => Task.only_pure answer

/-- A notification through a meter neither starts nor stops a process. -/
theorem calm_notify (c : MeasuringContext) (transport : Nat) (server : ServerId)
    (n : Notification) : (notify c transport server n).Only Call.Calm := by
  refine Task.only_get.bind fun m => (Task.only_put _).bind fun _ => ?_
  split
  · exact Task.only_ask ⟨rfl, rfl⟩
  · refine (Task.only_ask ⟨rfl, rfl⟩).bind fun started => (Task.only_ask ⟨rfl, rfl⟩).bind
      fun answer => (Task.only_ask ⟨rfl, rfl⟩).bind fun ended => ?_
    exact (calm_report c _ _).bind fun _ => Task.only_pure answer

end Meter

namespace Session

/-- What the observation may do while an operation waits: it releases the held process, and it shows
an error. -/
structure Disturbed (c : SessionContext) (x y : Scene Session) : Prop where
  last : y.now.last = x.now.last
  shown : y.now.state = x.now.state ∨ y.now.state = .error
  held : y.now.current = x.now.current ∧ y.calls = x.calls ∨
    ∃ id, x.now.current = some id ∧ y.now.current = none ∧
      y.calls = x.calls ++ [.stopServer c.transport id]

/-- Nothing needs to happen. -/
theorem Disturbed.refl (c : SessionContext) (x : Scene Session) : Disturbed c x x :=
  ⟨rfl, .inl rfl, .inl ⟨rfl, rfl⟩⟩

/-- One thing may happen after the other. -/
theorem Disturbed.trans {c : SessionContext} {x y z : Scene Session} (h : Disturbed c x y)
    (h' : Disturbed c y z) : Disturbed c x z := by
  refine ⟨h'.last.trans h.last, ?_, ?_⟩
  · rcases h'.shown with hsame | herror
    · rw [hsame]
      exact h.shown
    · exact .inr herror
  · rcases h'.held with ⟨hcurrent, hcalls⟩ | ⟨id, hid, hnone, hcalls⟩
    · rw [hcurrent, hcalls]
      exact h.held
    · rcases h.held with ⟨hcurrent', hcalls'⟩ | ⟨id', -, hnone', -⟩
      · rw [hcurrent'] at hid
        exact .inr ⟨id, hid, hnone, hcalls.trans (by rw [hcalls'])⟩
      · rw [hnone'] at hid
        cases hid

/-- A session that holds nothing holds nothing later. -/
theorem Disturbed.none {c : SessionContext} {x y : Scene Session} (h : Disturbed c x y)
    (hnone : x.now.current = none) : y.now.current = none ∧ y.calls = x.calls := by
  rcases h.held with ⟨hcurrent, hcalls⟩ | ⟨id, hid, -⟩
  · exact ⟨hcurrent.trans hnone, hcalls⟩
  · rw [hnone] at hid
    cases hid

/-- A session that does not show that it runs does not show it later. -/
theorem Disturbed.shown_ne {c : SessionContext} {x y : Scene Session} (h : Disturbed c x y)
    (hstate : x.now.state ≠ .running) : y.now.state ≠ .running := by
  rcases h.shown with hsame | herror
  · rwa [hsame]
  · rw [herror]
    decide

/-- The processes that are started and not stopped are one process alone, or none. All processes
up to now are no younger than the last one. -/
structure Retains (c : SessionContext) (held : Option ServerId) (x : Scene Session) : Prop where
  live : ∀ p, Unstopped x.calls p ↔ ∃ id, held = some id ∧ p = (c.transport, id)
  past : ∀ call ∈ x.calls, ∀ p, call.starts? = some p ∨ call.stops? = some p →
    p.2.generation ≤ x.now.last.generation

/-- The process that is kept is no younger than the last one. -/
theorem Retains.generation_le {c : SessionContext} {held : Option ServerId} {x : Scene Session}
    (h : Retains c held x) {id : ServerId} (hid : held = some id) :
    id.generation ≤ x.now.last.generation := by
  obtain ⟨⟨call, hcall, hstarts⟩, -⟩ := (h.live (c.transport, id)).2 ⟨id, hid, rfl⟩
  exact h.past call hcall _ (.inl hstarts)

/-- A calm call changes nothing about the processes. -/
theorem Retains.calm {c : SessionContext} {held : Option ServerId} {x : Scene Session}
    (h : Retains c held x) {call : Call} (hcalm : call.Calm) :
    Retains c held ⟨x.now, x.calls ++ [call]⟩ := by
  refine ⟨fun p => ?_, fun other hother p hp => ?_⟩
  · rw [← h.live p, unstopped_concat, hcalm.1, hcalm.2]
    simp
  · rcases List.mem_append.1 hother with hother | hother
    · exact h.past other hother p hp
    · obtain rfl := List.mem_singleton.1 hother
      simp [hcalm.1, hcalm.2] at hp

/-- When the kept process is stopped, none is left. -/
theorem Retains.stop {c : SessionContext} {held : Option ServerId} {x : Scene Session}
    (h : Retains c held x) {id : ServerId} (hheld : ∀ other, held = some other → other = id)
    (hid : id.generation ≤ x.now.last.generation) {s : Session} (hlast : s.last = x.now.last) :
    Retains c none ⟨s, x.calls ++ [.stopServer c.transport id]⟩ := by
  refine ⟨fun p => ?_, fun other hother p hp => ?_⟩
  · rw [unstopped_concat, h.live p]
    constructor
    · rintro ⟨⟨other, hother, rfl⟩ | ⟨hstarts, -⟩, hspared⟩
      · rw [hheld other hother] at hspared
        exact absurd rfl hspared
      · cases hstarts
    · rintro ⟨other, hother, -⟩
      cases hother
  · rw [hlast]
    rcases List.mem_append.1 hother with hother | hother
    · exact h.past other hother p hp
    · obtain rfl := List.mem_singleton.1 hother
      rcases hp with hp | hp
      · cases hp
      · obtain rfl := Option.some.inj hp
        exact hid

/-- When none is kept, the next process that is started is kept. -/
theorem Retains.start {c : SessionContext} {x : Scene Session} (h : Retains c none x)
    {launch : ServerLaunch} (hid : launch.id = x.now.last.next) {s : Session}
    (hlast : s.last = launch.id) :
    Retains c (some launch.id) ⟨s, x.calls ++ [.startServer c.transport launch]⟩ := by
  have hgeneration : launch.id.generation = x.now.last.generation + 1 := by rw [hid, ServerId.next]
  -- the number of the process is new, so that no earlier call has stopped it
  have hfresh : ∀ call ∈ x.calls, call.stops? ≠ some (c.transport, launch.id) := by
    intro call hcall hp
    have hpast := h.past call hcall _ (.inr hp)
    simp only [hgeneration] at hpast
    omega
  refine ⟨fun p => ?_, fun other hother p hp => ?_⟩
  · rw [unstopped_concat, h.live p]
    constructor
    · rintro ⟨⟨id, hnone, -⟩ | ⟨hstarts, -⟩, -⟩
      · cases hnone
      · exact ⟨launch.id, rfl, (Option.some.inj hstarts).symm⟩
    · rintro ⟨id, hstarted, rfl⟩
      obtain rfl := Option.some.inj hstarted
      exact ⟨.inr ⟨rfl, hfresh⟩, by simp [Call.stops?]⟩
  · simp only [hlast]
    rcases List.mem_append.1 hother with hother | hother
    · have hpast := h.past other hother p hp
      omega
    · obtain rfl := List.mem_singleton.1 hother
      rcases hp with hp | hp
      · obtain rfl := Option.some.inj hp
        exact Nat.le_refl _
      · cases hp

/-- The held process is kept under interference. -/
theorem Retains.disturbed {c : SessionContext} {x y : Scene Session}
    (h : Retains c x.now.current x) (hdisturbed : Disturbed c x y) : Retains c y.now.current y := by
  rcases hdisturbed.held with ⟨hcurrent, hcalls⟩ | ⟨id, hid, hnone, hcalls⟩
  · rw [hcurrent]
    refine ⟨?_, ?_⟩
    · rw [hcalls]
      exact h.live
    · rw [hcalls, hdisturbed.last]
      exact h.past
  · rw [hnone]
    obtain ⟨s, calls⟩ := y
    subst hcalls
    exact h.stop (fun other hother => Option.some.inj (hother.symm.trans hid))
      (h.generation_le hid) hdisturbed.last

/-- What a session without a process takes leave of is kept under interference. -/
theorem Retains.disturbed_of_none {c : SessionContext} {held : Option ServerId}
    {x y : Scene Session} (h : Retains c held x) (hnone : x.now.current = none)
    (hdisturbed : Disturbed c x y) : Retains c held y := by
  obtain ⟨-, hcalls⟩ := hdisturbed.none hnone
  refine ⟨?_, ?_⟩
  · rw [hcalls]
    exact h.live
  · rw [hcalls, hdisturbed.last]
    exact h.past

/-- A task withstands the observation. While it waits, it holds no process or does not show that one
runs. -/
def Endures {α : Type} (c : SessionContext) (t : Task Session α)
    (post : Session → α → Scene Session → Prop) (origin : Session) (x : Scene Session) : Prop :=
  t.Withstands (Disturbed c) (fun _ y => y.now.current = none ∨ y.now.state ≠ .running) post
    origin x

/-- What a conversation with a process maintains, and the observation with it. -/
structure Steady (c : SessionContext) (I : Scene Session → Prop) : Prop where
  busy : ∀ {x}, I x → x.now.current = none ∨ x.now.state ≠ .running
  talk : ∀ {x}, I x → ∀ n m, I ⟨{ x.now with nextRequest := n, meter := m }, x.calls⟩
  calm : ∀ {x}, I x → ∀ {call : Call}, call.Calm → I ⟨x.now, x.calls ++ [call]⟩
  disturbed : ∀ {x y}, I x → Disturbed c x y → I y

/-- A task only talks to a process: it maintains what a conversation does, and no segment of it
changes what the session holds. -/
def Converses {α : Type} (t : Task Session α) : Prop :=
  ∀ c I, Steady c I → ∀ origin x, I x → Endures c t (fun origin' _ y =>
    I y ∧ (x.now.current = origin.current → y.now.current = origin'.current)) origin x

/-- One conversation may follow the other. -/
theorem Converses.bind {α β : Type} {t : Task Session α} {f : α → Task Session β}
    (h : Converses t) (hf : ∀ a, Converses (f a)) : Converses (t >>= f) := by
  intro c I hsteady origin x hx
  refine (Task.withstands_bind _ t f origin x).2 ((h c I hsteady origin x hx).mono
    fun origin a y hy => (hf a c I hsteady origin y hy.1).mono fun origin' b z hz => ?_)
  exact ⟨hz.1, fun hcurrent => hz.2 (hy.2 hcurrent)⟩

theorem converses_pure {α : Type} (a : α) : Converses (pure a) :=
  fun _ _ _ _ _ hx => ⟨hx, fun hcurrent => hcurrent⟩

/-- A task on the meter that neither starts nor stops a process is a conversation. -/
theorem converses_meter {α : Type} {t : Task Meter α} (h : t.Only Call.Calm) :
    Converses (t.within meterPart) := by
  intro c I hsteady origin x hx
  induction t generalizing origin x with
  | done a => exact ⟨hx, fun hcurrent => hcurrent⟩
  | read next ih => exact ih _ (h _) origin x hx
  | write m next ih => exact ih h origin _ (hsteady.talk hx x.now.nextRequest m)
  | call call next ih =>
    have hcall := hsteady.calm hx h.1
    refine ⟨hsteady.busy hcall, fun answer y hdisturbed => ?_⟩
    exact (ih answer (h.2 answer) y.now y (hsteady.disturbed hcall hdisturbed)).mono
      fun origin' a z hz => ⟨hz.1, fun _ => hz.2 rfl⟩

/-- A call that neither starts nor stops a process is a conversation. -/
theorem converses_ask {call : Call} (h : call.Calm) : Converses (Task.ask call) := by
  intro c I hsteady origin x hx
  have hcall := hsteady.calm hx h
  exact ⟨hsteady.busy hcall, fun answer y hdisturbed =>
    ⟨hsteady.disturbed hcall hdisturbed, fun _ => rfl⟩⟩

theorem converses_takeRequestId : Converses takeRequestId :=
  fun _ _ hsteady _ x hx => ⟨hsteady.talk hx _ x.now.meter, fun hcurrent => hcurrent⟩

theorem converses_send (c : SessionContext) (server : ServerId) (r : Request)
    (timeout : Option Span) : Converses (send c server r timeout) := by
  unfold send
  cases c.measuring with
  | none => exact converses_ask ⟨rfl, rfl⟩
  | some measuring => exact converses_meter (Meter.calm_request _ _ _ _ _)

theorem converses_sendNotification (c : SessionContext) (server : ServerId) (n : Notification) :
    Converses (sendNotification c server n) := by
  unfold sendNotification
  cases c.measuring with
  | none => exact converses_ask ⟨rfl, rfl⟩
  | some measuring => exact converses_meter (Meter.calm_notify _ _ _ _)

theorem converses_requestOn (c : SessionContext) (server : ServerId) (method : String)
    (params : Json) : Converses (requestOn c server method params) := by
  refine converses_takeRequestId.bind fun id => (converses_send c server _ _).bind fun answer => ?_
  split
  · exact converses_pure _
  · split <;> exact converses_pure _

/-- The handshake is a conversation. -/
theorem converses_handshake (c : SessionContext) (server : ServerId) :
    Converses (handshake c server) := by
  unfold handshake
  split
  · exact converses_pure _
  · refine (converses_requestOn c server _ _).bind fun answer => ?_
    split
    · exact converses_pure _
    · split
      · exact converses_pure _
      · exact converses_sendNotification c server _

/-- While a process is started, the session holds it and no other, unless it has been released; it
is not shown yet that it runs. -/
structure Opens (c : SessionContext) (id : ServerId) (x : Scene Session) : Prop where
  retains : Retains c x.now.current x
  held : ∀ other, x.now.current = some other → other = id
  shown : x.now.state ≠ .running
  last : x.now.last = id

/-- The start of a process goes on under a conversation and under interference. -/
theorem opens_steady (c : SessionContext) (id : ServerId) : Steady c (Opens c id) where
  busy h := .inr h.shown
  talk h _ _ := ⟨⟨h.retains.live, h.retains.past⟩, h.held, h.shown, h.last⟩
  calm h _ hcalm := ⟨h.retains.calm hcalm, h.held, h.shown, h.last⟩
  disturbed {x y} h hdisturbed := by
    refine ⟨h.retains.disturbed hdisturbed, fun other hother => ?_, hdisturbed.shown_ne h.shown,
      hdisturbed.last.trans h.last⟩
    rcases hdisturbed.held with ⟨hcurrent, -⟩ | ⟨-, -, hnone, -⟩
    · exact h.held other (hcurrent.symm.trans hother)
    · rw [hnone] at hother
      cases hother

/-- While leave is taken of a process, the session holds none. -/
structure Leaves (c : SessionContext) (id : ServerId) (x : Scene Session) : Prop where
  retains : Retains c (some id) x
  held : x.now.current = none

/-- Leave-taking goes on under a conversation and under interference. -/
theorem leaves_steady (c : SessionContext) (id : ServerId) : Steady c (Leaves c id) where
  busy h := .inl h.held
  talk h _ _ := ⟨⟨h.retains.live, h.retains.past⟩, h.held⟩
  calm h _ hcalm := ⟨h.retains.calm hcalm, h.held⟩
  disturbed h hdisturbed :=
    ⟨h.retains.disturbed_of_none h.held hdisturbed, (hdisturbed.none h.held).1⟩

/-- Exactly the held process is not stopped, and if there is one, it is shown that it runs. The
last segment changed what the session holds only if that is not shown. -/
structure Settled (c : SessionContext) (origin : Session) (x : Scene Session) : Prop where
  retains : Retains c x.now.current x
  shown : x.now.current ≠ none → x.now.state = .running
  same : x.now.state = .running → x.now.current = origin.current

/-- A session that holds nothing is settled as soon as it does not show that it runs. -/
theorem Retains.settled {c : SessionContext} {origin : Session} {x : Scene Session}
    (h : Retains c none x) (hnone : x.now.current = none) (hstate : x.now.state ≠ .running) :
    Settled c origin x :=
  ⟨by rwa [hnone], fun hsome => absurd hnone hsome, fun hrunning => absurd hrunning hstate⟩

/-- The start of the next process opens it. -/
theorem endures_startProcess {c : SessionContext} {x : Scene Session} (h : Retains c none x)
    {s : Session} (hcurrent : s.current = some x.now.last.next) (hstate : s.state ≠ .running)
    (hlast : s.last = x.now.last.next) (origin : Session) :
    Endures c (startProcess c x.now.last.next)
      (fun origin _ y => Opens c x.now.last.next y ∧ y.now.current = origin.current)
      origin ⟨s, x.calls⟩ := by
  have hcalled : Opens c x.now.last.next
      ⟨s, x.calls ++ [.startServer c.transport (launchOf c x.now.last.next)]⟩ := by
    have hretains : Retains c (some (launchOf c x.now.last.next).id) ⟨s, x.calls ++ _⟩ :=
      h.start rfl hlast
    refine ⟨?_, fun other hother => ?_, hstate, hlast⟩
    · rw [hcurrent]
      exact hretains
    · exact Option.some.inj (hother.symm.trans hcurrent)
  refine ⟨.inr hcalled.shown, fun started y hdisturbed => ?_⟩
  have hopens := (opens_steady c _).disturbed hcalled hdisturbed
  cases started with
  | error error => exact ⟨hopens, rfl⟩
  | ok server =>
    exact (converses_handshake c server c _ (opens_steady c _) y.now y hopens).mono
      fun origin' r z hz => ⟨hz.1, hz.2 rfl⟩

/-- A settled session is settled after a start. -/
theorem endures_start {c : SessionContext} {origin : Session} {x : Scene Session}
    (h : Settled c origin x) :
    Endures c (start c) (fun origin _ y => Settled c origin y) origin x := by
  refine (Task.withstands_bind _ _ _ origin x).2 ?_
  rw [Task.withstands_get]
  split
  · exact h
  · rename_i hstate
    -- a settled session that does not run holds no process
    have hnone : x.now.current = none := Classical.byContradiction fun hsome =>
      hstate (h.shown hsome)
    have hretains := h.retains
    rw [hnone] at hretains
    have hopening := endures_startProcess hretains
      (s := { x.now with
        last := x.now.last.next, current := some x.now.last.next, state := .starting })
      rfl (by simp) rfl origin
    refine (Task.withstands_bind _ _ _ origin _).2 ((Task.withstands_bind _ _ _ origin _).2
      (hopening.mono fun origin r y hopened => ?_))
    obtain ⟨hopens, hcurrent⟩ := hopened
    cases r with
    | ok => exact ⟨⟨hopens.retains.live, hopens.retains.past⟩, fun _ => rfl, fun _ => hcurrent⟩
    | error error =>
      have hstopped : Retains c none ⟨{ y.now with current := none },
          y.calls ++ [.stopServer c.transport x.now.last.next]⟩ :=
        hopens.retains.stop hopens.held (Nat.le_of_eq (congrArg _ hopens.last.symm)) rfl
      -- whatever is observed while the process is stopped finds none that is held
      refine ⟨.inl rfl, fun answer z hdisturbed => ?_⟩
      have hkept := hstopped.disturbed_of_none rfl hdisturbed
      exact Retains.settled ⟨hkept.live, hkept.past⟩ (hdisturbed.none rfl).1 (by simp)

/-- A settled session is settled after a stop. -/
theorem endures_stop {c : SessionContext} {origin : Session} {x : Scene Session}
    (h : Settled c origin x) :
    Endures c (stop c) (fun origin _ y => Settled c origin y) origin x := by
  refine (Task.withstands_bind _ _ _ origin x).2 ?_
  rw [Task.withstands_get]
  split
  · rename_i hnone
    have hretains := h.retains
    rw [hnone] at hretains
    exact Retains.settled ⟨hretains.live, hretains.past⟩ hnone (by simp)
  · rename_i id hid
    have hretains := h.retains
    rw [hid] at hretains
    -- the process is let go first, so that what is observed while leave is taken of it changes
    -- nothing
    have hleaves : Leaves c id ⟨{ x.now with current := none }, x.calls⟩ :=
      ⟨⟨hretains.live, hretains.past⟩, rfl⟩
    have hsteady := leaves_steady c id
    refine (Task.withstands_bind _ _ _ origin x).2 ?_
    refine (Task.withstands_bind _ _ _ origin _).2 ((converses_takeRequestId c _ hsteady origin _
      hleaves).mono fun origin requestId x hx => ?_)
    refine (Task.withstands_bind _ _ _ origin x).2 ((converses_send c id _ _ c _ hsteady origin x
      hx.1).mono fun origin _ x hx => ?_)
    refine (Task.withstands_bind _ _ _ origin x).2 ((converses_sendNotification c id _ c _ hsteady
      origin x hx.1).mono fun origin _ x hx => ?_)
    have hstopped : Retains c none ⟨x.now, x.calls ++ [.stopServer c.transport id]⟩ :=
      hx.1.retains.stop (fun other hother => (Option.some.inj hother).symm)
        (hx.1.retains.generation_le rfl) rfl
    refine ⟨.inl hx.1.held, fun answer y hdisturbed => ?_⟩
    have hkept := hstopped.disturbed_of_none hx.1.held hdisturbed
    exact Retains.settled ⟨hkept.live, hkept.past⟩ (hdisturbed.none hx.1.held).1 (by simp)

/-- A settled session is settled after a replacement. -/
theorem endures_replace {c : SessionContext} {origin : Session} {x : Scene Session}
    (h : Settled c origin x) :
    Endures c (replace c) (fun origin _ y => Settled c origin y) origin x := by
  refine (Task.withstands_bind _ _ _ origin x).2 ?_
  rw [Task.withstands_get]
  split
  · refine (Task.withstands_bind _ _ _ origin x).2 ((endures_stop h).mono fun origin r y hy => ?_)
    cases r with
    | ok => exact (Task.withstands_bind _ _ _ origin y).2 (endures_start hy)
    | error error => exact hy
  · exact (Task.withstands_bind _ _ _ origin x).2 (endures_start h)

end Session

end RubySupervisor
