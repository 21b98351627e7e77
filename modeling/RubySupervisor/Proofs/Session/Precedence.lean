import RubySupervisor.Proofs.Session.Asking

/-!
# Nothing before the handshake

While a session starts its process, others may ask the process something, tell it something or take
in what the transport reports. Nothing is to be said to a process before it is introduced, and
whoever asks too early is to hear at once that no server is running. A session does not keep to
that: it holds a process from the moment at which that is launched. It is lost exactly if something
is asked or a stop begins while a start waits, or was given up, and a process is held.
-/

namespace RubySupervisor

namespace Session

/-- What has become of the last operation. -/
inductive Undertaking where
  /-- It has come to its end, if there was one. -/
  | ended
  | waiting (p : Task.Pending Session)
  /-- It was given up while it waited. -/
  | abandoned

namespace Undertaking

/-- An operation behind one of its stretches. -/
def ofWaiting (w : Task.Waiting Session Unit) : Undertaking :=
  match w.pending? with
  | none => ended
  | some p => waiting p

/-- Whether the last operation has come to its end. -/
def isEnded : Undertaking → Bool
  | ended => true
  | _ => false

theorem isEnded_iff {u : Undertaking} : u.isEnded = true ↔ u = ended := by
  cases u <;> simp [isEnded]

end Undertaking

/-- A session with its operation, and with the callers and the observation that wait. -/
structure Traffic where
  scene : Minutes
  operation : Undertaking
  callers : List (Task.Pending Session)
  observation : Option (Task.Pending Session)

/-- Something that happens in the traffic of a session. -/
inductive Move : Type 1 where
  /-- An operation begins. -/
  | begin (o : Operation)
  /-- The operation is answered. -/
  | answer
  /-- The operation is given up while it waits. -/
  | abandon
  /-- Somebody asks something. -/
  | ask (q : Question)
  /-- Somebody who has asked is answered. -/
  | hear
  /-- The transport reports something. -/
  | report (event : TransportEvent)
  /-- The observation is answered. -/
  | settle

namespace Traffic

/-- A session before anything happens, under a state that observers already see. -/
def fresh (state : LifecycleState) : Traffic := ⟨⟨.fresh state, []⟩, .ended, [], none⟩

/-- A party is answered. -/
def told (x : Traffic) (party : Party) (e : Exchange) : Traffic :=
  { x with scene := x.scene.mark (.answered party e) }

/-- The operation comes to the end of a stretch. -/
def operate (x : Traffic) (w : Task.Waiting Session Unit) (s : Session) : Traffic :=
  { x with scene := x.scene.behind .operation w s, operation := .ofWaiting w }

/-- A caller comes to the end of a stretch, between the others. -/
def call (x : Traffic) (before after : List (Task.Pending Session))
    (w : Task.Waiting Session Unit) (s : Session) : Traffic :=
  { x with scene := x.scene.behind .caller w s, callers := before ++ w.pending?.toList ++ after }

/-- The observation comes to the end of a stretch. -/
def attend (x : Traffic) (w : Task.Waiting Session Unit) (s : Session) : Traffic :=
  { x with scene := x.scene.behind .observation w s, observation := w.pending? }

/-- A step of a session. Operations wait for one another, and so do the reports to the observation;
everybody may ask at any time. -/
inductive Step (c : SessionContext) : Traffic → Move → Traffic → Prop where
  | begin {x : Traffic} {w : Task.Waiting Session Unit} {s : Session} (o : Operation)
      (hfree : ∀ p, x.operation ≠ .waiting p) (h : (o.task c).Stretch x.scene.now w s) :
      Step c x (.begin o) (x.operate w s)
  | answer {x : Traffic} {p : Task.Pending Session} {w : Task.Waiting Session Unit} {s : Session}
      (answer : p.call.Answer) (hpending : x.operation = .waiting p)
      (hfaithful : Exchange.Faithful ⟨p.call, answer⟩)
      (h : (p.next answer).Stretch x.scene.now w s) :
      Step c x .answer ((x.told .operation ⟨p.call, answer⟩).operate w s)
  | abandon {x : Traffic} {p : Task.Pending Session} (hpending : x.operation = .waiting p) :
      Step c x .abandon { x with operation := .abandoned }
  | ask {x : Traffic} {w : Task.Waiting Session Unit} {s : Session} (q : Question)
      (h : (q.task c).Stretch x.scene.now w s) : Step c x (.ask q) (x.call x.callers [] w s)
  | hear {x : Traffic} {before after : List (Task.Pending Session)} {p : Task.Pending Session}
      {w : Task.Waiting Session Unit} {s : Session} (answer : p.call.Answer)
      (hpending : x.callers = before ++ p :: after)
      (h : (p.next answer).Stretch x.scene.now w s) :
      Step c x .hear ((x.told .caller ⟨p.call, answer⟩).call before after w s)
  | report {x : Traffic} {w : Task.Waiting Session Unit} {s : Session} (event : TransportEvent)
      (hfree : x.observation = none) (h : (observe c event).Stretch x.scene.now w s) :
      Step c x (.report event) (x.attend w s)
  | settle {x : Traffic} {p : Task.Pending Session} {w : Task.Waiting Session Unit} {s : Session}
      (answer : p.call.Answer) (hpending : x.observation = some p)
      (h : (p.next answer).Stretch x.scene.now w s) :
      Step c x .settle ((x.told .observation ⟨p.call, answer⟩).attend w s)

/-- A step that was taken, with the traffic before it. -/
structure Stride where
  before : Traffic
  move : Move

/-- The runs of a session from the state that observers see at first, step by step. -/
inductive Runs (c : SessionContext) (state : LifecycleState) : List Stride → Traffic → Prop where
  | fresh : Runs c state [] (.fresh state)
  | step {steps : List Stride} {x y : Traffic} {move : Move} (h : Runs c state steps x)
      (hstep : Step c x move y) : Runs c state (steps ++ [⟨x, move⟩]) y

/-- The session holds a process while an operation waits, or after one was given up. -/
def Exposed (x : Traffic) : Prop :=
  x.scene.now.current ≠ none ∧ x.operation.isEnded = false

/-- Whether a move says something at once to a process that the session holds. -/
def speaks : Move → Bool
  | .ask _ => true
  | .begin .stop => true
  | _ => false

/-- Something is asked, or a stop begins, while the process is exposed. -/
def Hasty (m : Stride) : Prop := speaks m.move = true ∧ m.before.Exposed

/-- Whoever asks while no process is held that is introduced is refused at once, and nothing
changes. -/
def RefusesEarly (c : SessionContext) (m : Stride) : Prop :=
  ∀ q, m.move = .ask q →
    (∀ id, m.before.scene.now.current = some id →
      ¬ Introduced m.before.scene.log (c.transport, id)) →
    (q.ask c).segment m.before.scene.now =
      (.finished (.error .notRunning), m.before.scene.now)

instance (x : Traffic) : Decidable x.Exposed := inferInstanceAs (Decidable (_ ≠ _ ∧ _ = _))

instance (m : Stride) : Decidable (Hasty m) := inferInstanceAs (Decidable (_ = _ ∧ _))

/-- The state of the traffic without a hasty step. -/
structure Sound (c : SessionContext) (x : Traffic) : Prop where
  ended : x.operation = .ended → Open c x.scene
  waiting : ∀ p, x.operation = .waiting p → Hidden c x.scene ∧
    ∀ answer y, Exchange.Faithful ⟨p.call, answer⟩ → Alongside x.scene y →
      (p.next answer).Honours (pact c) (fun _ y => Open c y)
        (y.mark (.answered .operation ⟨p.call, answer⟩))
  abandoned : x.operation = .abandoned → Hidden c x.scene
  callers : ∀ p ∈ x.callers, Harmless p
  observation : ∀ p, x.observation = some p → Harmless p

variable {c : SessionContext} {x y : Traffic} {w : Task.Waiting Session Unit} {s : Session}

/-- The traffic is sound before anything happens. -/
theorem sound_fresh (c : SessionContext) (state : LifecycleState) : Sound c (.fresh state) where
  ended _ := ⟨⟨orderly_nil, fun id hid => by simp [Traffic.fresh, Announced] at hid⟩,
    fun id hid => by simp [Traffic.fresh, Session.fresh] at hid⟩
  waiting p hp := by simp [Traffic.fresh] at hp
  abandoned h := by simp [Traffic.fresh] at h
  callers p hp := by simp [Traffic.fresh] at hp
  observation p hp := by simp [Traffic.fresh] at hp

/-- While an operation has not come to its end, the held process is not introduced. -/
theorem Sound.hidden (h : Sound c x) (hended : x.operation.isEnded = false) : Hidden c x.scene := by
  cases hoperation : x.operation with
  | ended => simp [hoperation, Undertaking.isEnded] at hended
  | waiting p => exact (h.waiting p hoperation).1
  | abandoned => exact h.abandoned hoperation

theorem Sound.proper (h : Sound c x) : Proper c x.scene := by
  cases hended : x.operation.isEnded with
  | false => exact (h.hidden hended).toProper
  | true => exact (h.ended (Undertaking.isEnded_iff.1 hended)).toProper

/-- A process that is exposed is not introduced. -/
theorem Sound.not_introduced (h : Sound c x) (hexposed : x.Exposed) {id : ServerId}
    (hid : x.scene.now.current = some id) : ¬ Introduced x.scene.log (c.transport, id) :=
  fun hintroduced => ((h.hidden hexposed.2).held id hid).1 hintroduced.2

/-- A process that is held and not exposed is introduced. -/
theorem Sound.isOpen (h : Sound c x) (hsafe : ¬ x.Exposed) : Open c x.scene := by
  by_cases hcurrent : x.scene.now.current = none
  · exact Vacant.isOpen ⟨h.proper, hcurrent⟩
  · have hended : x.operation.isEnded = true := by simpa [Exposed, hcurrent] using hsafe
    exact h.ended (Undertaking.isEnded_iff.1 hended)

/-- The traffic stays sound with what others do beside the operation. -/
theorem Sound.beside (h : Sound c x) {scene : Minutes} (hbeside : Alongside x.scene scene)
    {callers : List (Task.Pending Session)} (hcallers : ∀ p ∈ callers, Harmless p)
    {observation : Option (Task.Pending Session)}
    (hobservation : ∀ p, observation = some p → Harmless p) :
    Sound c { x with scene, callers, observation } where
  ended hended := (h.ended hended).alongside hbeside
  waiting p hp := ⟨(h.waiting p hp).1.alongside hbeside,
    fun answer y hfaithful hy => (h.waiting p hp).2 answer y hfaithful (hbeside.trans hy)⟩
  abandoned hgiven := (h.abandoned hgiven).alongside hbeside
  callers := hcallers
  observation := hobservation

/-- An operation goes on soundly under its pact. -/
theorem operate_sound (hcallers : ∀ p ∈ x.callers, Harmless p)
    (hobservation : ∀ p, x.observation = some p → Harmless p) {t : Task Session Unit}
    (ht : t.Honours (pact c) (fun _ y => Open c y) x.scene)
    (hstretch : t.Stretch x.scene.now w s) : Sound c (x.operate w s) := by
  have hbehind := ht.stretch hstretch
  cases hpending : w.pending? with
  | none =>
    rw [hpending] at hbehind
    refine ⟨fun _ => hbehind, fun p hp => ?_, fun hgiven => ?_, hcallers, hobservation⟩
    · simp [operate, Undertaking.ofWaiting, hpending] at hp
    · simp [operate, Undertaking.ofWaiting, hpending] at hgiven
  | some p =>
    rw [hpending] at hbehind
    refine ⟨fun hended => ?_, fun p' hp => ?_, fun hgiven => ?_, hcallers, hobservation⟩
    · simp [operate, Undertaking.ofWaiting, hpending] at hended
    · obtain rfl : p = p' := by simpa [operate, Undertaking.ofWaiting, hpending] using hp
      exact hbehind
    · simp [operate, Undertaking.ofWaiting, hpending] at hgiven

/-- An operation may begin, unless it is a stop while the process is exposed. -/
theorem Sound.begin (h : Sound c x) (o : Operation) (hsafe : o = .stop → ¬ x.Exposed)
    (hstretch : (o.task c).Stretch x.scene.now w s) : Sound c (x.operate w s) := by
  refine operate_sound h.callers h.observation (honours_task o h.proper fun hcase => ?_) hstretch
  rcases hcase with hstop | hrunning
  · exact h.isOpen (hsafe hstop)
  · refine h.isOpen fun hexposed => ?_
    obtain ⟨id, hid⟩ := Option.ne_none_iff_exists'.1 hexposed.1
    exact ((h.hidden hexposed.2).held id hid).2 hrunning

/-- Somebody may ask something while the process is not exposed. -/
theorem Sound.ask (h : Sound c x) (q : Question) (hsafe : ¬ x.Exposed)
    (hstretch : (q.task c).Stretch x.scene.now w s) : Sound c (x.call x.callers [] w s) := by
  -- asking changes neither what is held nor what is shown
  have hbearing : bearing s = bearing x.scene.now := (steady_task c q _).stretch rfl hstretch
  obtain ⟨hstate, hcurrent, hlast⟩ :
      s.state = x.scene.now.state ∧ s.current = x.scene.now.current ∧
        s.last = x.scene.now.last := by simpa [bearing] using hbearing
  -- whoever waits does so for a process that is introduced
  have hwaits : ∀ p, w.pending? = some p → InTurn x.scene.log .caller p.call ∧ Harmless p := by
    intro p hp
    cases hheld : x.scene.now.current with
    | none =>
      have hrefused := segment_ask hheld c q
      have hended := hstretch.of_finished (congrArg Prod.fst hrefused)
      cases hended
      cases hp
    | some id =>
      obtain ⟨p', hp', hcall, hidles⟩ := stretch_task hstretch hheld
      obtain rfl := Option.some.inj (hp.symm.trans hp')
      exact ⟨inTurn_of_poses ((h.isOpen hsafe).held id hheld) hcall _,
        harmless_of_idles hidles⟩
  have hcaller : Party.caller ≠ .operation := by decide
  refine h.beside (.behind hcaller hlast (.inl hcurrent) (.inl hstate)
    fun p hp => (hwaits p hp).1) (fun p hp => ?_) h.observation
  rw [List.append_nil] at hp
  rcases List.mem_append.1 hp with hp | hp
  · exact h.callers p hp
  · exact (hwaits p (Option.mem_toList.1 hp)).2

/-- Whoever is answered goes on soundly, at any time. -/
theorem Sound.hear (h : Sound c x) {before after : List (Task.Pending Session)}
    {p : Task.Pending Session} (answer : p.call.Answer)
    (hpending : x.callers = before ++ p :: after)
    (hstretch : (p.next answer).Stretch x.scene.now w s) :
    Sound c ((x.told .caller ⟨p.call, answer⟩).call before after w s) := by
  have hcaller : Party.caller ≠ .operation := by decide
  have hcallers := h.callers
  rw [hpending] at hcallers
  obtain ⟨hbeside, hended⟩ := (hcallers p (by simp)).alongside hcaller answer hstretch
  refine h.beside hbeside (fun p' hp => hcallers p' ?_) h.observation
  simp only [hended, Option.toList_none, List.append_nil, List.mem_append] at hp
  simp only [List.mem_append, List.mem_cons]
  exact hp.imp_right .inr

/-- The observation takes in a report soundly, at any time. -/
theorem Sound.report (h : Sound c x) {event : TransportEvent}
    (hstretch : (observe c event).Stretch x.scene.now w s) : Sound c (x.attend w s) := by
  have hobservation : Party.observation ≠ .operation := by decide
  obtain ⟨hlast, hcurrent, hstate, hwaits⟩ := stretch_observe hstretch
  exact h.beside (.behind hobservation hlast hcurrent (.inl hstate) fun p hp => (hwaits p hp).1 _)
    h.callers fun p hp => (hwaits p hp).2

/-- The observation goes on soundly, at any time. -/
theorem Sound.settle (h : Sound c x) {p : Task.Pending Session} (answer : p.call.Answer)
    (hpending : x.observation = some p) (hstretch : (p.next answer).Stretch x.scene.now w s) :
    Sound c ((x.told .observation ⟨p.call, answer⟩).attend w s) := by
  have hobservation : Party.observation ≠ .operation := by decide
  obtain ⟨hbeside, hended⟩ := (h.observation p hpending).alongside hobservation answer hstretch
  exact h.beside hbeside h.callers fun p' hp => nomatch hended.symm.trans hp

/-- A step that is not hasty goes on soundly. -/
theorem Sound.step {move : Move} (h : Sound c x) (hstep : Step c x move y)
    (hpatient : ¬ Hasty ⟨x, move⟩) : Sound c y := by
  cases hstep with
  | begin o hfree hstretch =>
    refine h.begin o (fun hstop hexposed => hpatient ⟨?_, hexposed⟩) hstretch
    rw [hstop]
    rfl
  | answer answer hpending hfaithful hstretch =>
    have hhonours := (h.waiting _ hpending).2 answer _ hfaithful (.refl _)
    exact operate_sound h.callers h.observation hhonours hstretch
  | abandon hpending =>
    exact ⟨fun hended => (nomatch hended), fun _ hp => (nomatch hp),
      fun _ => (h.waiting _ hpending).1, h.callers, h.observation⟩
  | ask q hstretch => exact h.ask q (fun hexposed => hpatient ⟨rfl, hexposed⟩) hstretch
  | hear answer hpending hstretch => exact h.hear answer hpending hstretch
  | report event hfree hstretch => exact h.report hstretch
  | settle answer hpending hstretch => exact h.settle answer hpending hstretch

/-- Whoever asks too early is refused, unless that is hasty. -/
theorem Sound.refusesEarly (h : Sound c x) {move : Move} (hpatient : ¬ Hasty ⟨x, move⟩) :
    RefusesEarly c ⟨x, move⟩ := by
  rintro q rfl hearly
  have hopen : Open c x.scene := h.isOpen fun hexposed => hpatient ⟨rfl, hexposed⟩
  cases hcurrent : x.scene.now.current with
  | none => exact segment_ask hcurrent c q
  | some id => exact absurd (hopen.held id hcurrent) (hearly id hcurrent)

/-- A question is not refused while the process is exposed. -/
theorem Sound.not_refusesEarly (h : Sound c x) {q : Question} (hexposed : x.Exposed) :
    ¬ RefusesEarly c ⟨x, .ask q⟩ := by
  intro hrefuses
  obtain ⟨id, hid⟩ := Option.ne_none_iff_exists'.1 hexposed.1
  have hrefused := hrefuses q rfl fun id hid => h.not_introduced hexposed hid
  exact (calls_ask c q hid).segment_ne _ (congrArg Prod.fst hrefused)

/-- What is asked while the process is exposed is said out of turn, unless it initializes the
process. -/
theorem Sound.ask_not_orderly (h : Sound c x) (hexposed : x.Exposed) {q : Question}
    (hq : q.initializes = false) (hstep : Step c x (.ask q) y) : ¬ Orderly y.scene.log := by
  obtain ⟨id, hid⟩ := Option.ne_none_iff_exists'.1 hexposed.1
  have hearly := h.not_introduced hexposed hid
  cases hstep with
  | ask q hstretch =>
    obtain ⟨p, hp, hcall, -⟩ := stretch_task hstretch hid
    intro horderly
    have hlast : Orderly (x.scene.log ++ [.made .caller p.call]) := by
      simpa [call, Logged.behind, hp] using horderly
    exact not_inTurn_of_poses hearly hcall hq hlast.last

/-- A stop takes leave of an exposed process out of turn. -/
theorem Sound.stop_not_orderly (h : Sound c x) (hexposed : x.Exposed)
    (hstep : Step c x (.begin .stop) y) : ¬ Orderly y.scene.log := by
  obtain ⟨id, hid⟩ := Option.ne_none_iff_exists'.1 hexposed.1
  have hearly := h.not_introduced hexposed hid
  cases hstep with
  | begin o hfree hstretch =>
    obtain ⟨p, r, timeout, hp, hcall, hmethod⟩ := stretch_stop hstretch hid
    intro horderly
    have hlast : Orderly (x.scene.log ++ [.made .operation p.call]) := by
      simpa [operate, Logged.behind, hp] using horderly
    have hturn := hlast.last
    rw [hcall] at hturn
    rcases hturn with hfirst | hintroduced
    · rw [hmethod] at hfirst
      exact absurd hfirst (by decide)
    · exact hearly hintroduced

/-- After a hasty step, something was said out of turn or somebody was not refused. -/
theorem Sound.hasty {move : Move} (h : Sound c x) (hstep : Step c x move y)
    (hhasty : Hasty ⟨x, move⟩) : ¬ Orderly y.scene.log ∨ ¬ RefusesEarly c ⟨x, move⟩ := by
  obtain ⟨hspeaks, hexposed⟩ := hhasty
  cases move with
  | ask q => exact .inr (h.not_refusesEarly hexposed)
  | begin o =>
    cases o with
    | stop => exact .inl (h.stop_not_orderly hexposed hstep)
    | start => cases hspeaks
    | replace => cases hspeaks
  | answer => cases hspeaks
  | abandon => cases hspeaks
  | hear => cases hspeaks
  | report => cases hspeaks
  | settle => cases hspeaks

/-- A log only grows. -/
theorem Step.log {move : Move} (hstep : Step c x move y) :
    ∃ more, y.scene.log = x.scene.log ++ more := by
  cases hstep with
  | begin | ask | report => exact ⟨_, rfl⟩
  | answer | hear | settle => exact ⟨_, List.append_assoc _ _ _⟩
  | abandon => exact ⟨[], (List.append_nil _).symm⟩

/-- **Run lemma.** A run is sound and never hasty, or some step of it is hasty, and either something
was said out of turn or somebody was not refused. -/
theorem audited {state : LifecycleState} {steps : List Stride} (h : Runs c state steps x) :
    Sound c x ∧ (∀ m ∈ steps, ¬ Hasty m ∧ RefusesEarly c m) ∨
      (∃ m ∈ steps, Hasty m) ∧ (¬ Orderly x.scene.log ∨ ∃ m ∈ steps, ¬ RefusesEarly c m) := by
  induction h with
  | fresh => exact .inl ⟨sound_fresh c state, by simp⟩
  | @step steps x y move h hstep ih =>
    obtain ⟨more, hlog⟩ := hstep.log
    rcases ih with ⟨hsound, hall⟩ | ⟨⟨m, hm, hhasty⟩, hfault⟩
    · by_cases hhasty : Hasty ⟨x, move⟩
      · refine .inr ⟨⟨_, by simp, hhasty⟩, (hsound.hasty hstep hhasty).imp_right fun hfault => ?_⟩
        exact ⟨_, by simp, hfault⟩
      · refine .inl ⟨hsound.step hstep hhasty, fun m hm => ?_⟩
        rcases List.mem_append.1 hm with hm | hm
        · exact hall m hm
        · obtain rfl := List.mem_singleton.1 hm
          exact ⟨hhasty, hsound.refusesEarly hhasty⟩
    · refine .inr ⟨⟨m, List.mem_append_left _ hm, hhasty⟩, hfault.imp (fun hlost horderly => ?_) ?_⟩
      · rw [hlog] at horderly
        exact hlost horderly.of_append
      · rintro ⟨m, hm, hfault⟩
        exact ⟨m, List.mem_append_left _ hm, hfault⟩

/-- A run without a hasty step is sound. -/
theorem Runs.sound {state : LifecycleState} {steps : List Stride} (h : Runs c state steps x)
    (hpatient : ∀ m ∈ steps, ¬ Hasty m) : Sound c x := by
  rcases audited h with ⟨hsound, -⟩ | ⟨⟨m, hm, hhasty⟩, -⟩
  · exact hsound
  · exact absurd hhasty (hpatient m hm)

/-- **Theorem (precedence).** Along a run of a session, no request other than the one that
initializes a process, and no notification, is sent to a process before it has accepted its
initialization and has been told so, and whoever asks something while no such process is held is
refused at once: exactly if nothing is asked and no stop begins while the session holds a process
and an operation waits or was given up. -/
theorem orderly_iff_not_hasty {c : SessionContext} {state : LifecycleState} {steps : List Stride}
    {x : Traffic} (h : Runs c state steps x) :
    (Orderly x.scene.log ∧ ∀ m ∈ steps, RefusesEarly c m) ↔ ∀ m ∈ steps, ¬ Hasty m := by
  rcases audited h with ⟨hsound, hall⟩ | ⟨⟨m, hm, hhasty⟩, hfault⟩
  · exact ⟨fun _ m hm => (hall m hm).1,
      fun _ => ⟨hsound.proper.orderly, fun m hm => (hall m hm).2⟩⟩
  · refine ⟨fun ⟨horderly, hrefuses⟩ => ?_, fun hpatient => absurd hhasty (hpatient m hm)⟩
    rcases hfault with hlost | ⟨m, hm, hfault⟩
    · exact absurd horderly hlost
    · exact absurd (hrefuses m hm) hfault

/-- The answer to what somebody waits for, where everything succeeds. -/
def agreement (p : Task.Pending Session) : p.call.Answer := agreed (.error .rubyNotOnPath) p.call

/-- The traffic after a move where everything succeeds, if the move is possible. Of those who have
asked, the first one is answered. -/
def after? (c : SessionContext) (x : Traffic) (move : Move) : Option Traffic :=
  let proceed (t : Task Session Unit) : Task.Waiting Session Unit × Session :=
    t.stretch (agreed (.error .rubyNotOnPath)) x.scene.now
  match move, x.operation, x.callers, x.observation with
  | .begin _, .waiting _, _, _ => none
  | .begin o, _, _, _ =>
    let (w, s) := proceed (o.task c)
    some (x.operate w s)
  | .answer, .waiting p, _, _ =>
    let (w, s) := proceed (p.next (agreement p))
    some ((x.told .operation ⟨p.call, agreement p⟩).operate w s)
  | .abandon, .waiting _, _, _ => some { x with operation := .abandoned }
  | .ask q, _, _, _ =>
    let (w, s) := proceed (q.task c)
    some (x.call x.callers [] w s)
  | .hear, _, p :: after, _ =>
    let (w, s) := proceed (p.next (agreement p))
    some ((x.told .caller ⟨p.call, agreement p⟩).call [] after w s)
  | .report event, _, _, none =>
    let (w, s) := proceed (observe c event)
    some (x.attend w s)
  | .settle, _, _, some p =>
    let (w, s) := proceed (p.next (agreement p))
    some ((x.told .observation ⟨p.call, agreement p⟩).attend w s)
  | _, _, _, _ => none

/-- What comes after a move is reached by a step. -/
theorem step_of_after? {move : Move} (h : x.after? c move = some y) : Step c x move y := by
  have hproceed (t : Task Session Unit) := Task.stretch_spec (agreed (.error .rubyNotOnPath)) t
    x.scene.now
  unfold after? at h
  split at h
  · cases h
  · next o hfree =>
    obtain rfl := Option.some.inj h
    exact .begin o hfree (hproceed _)
  · next p hpending =>
    obtain rfl := Option.some.inj h
    exact .answer _ hpending (faithful_agreeable p.call x.scene.now _) (hproceed _)
  · next p hpending =>
    obtain rfl := Option.some.inj h
    exact .abandon hpending
  · next q =>
    obtain rfl := Option.some.inj h
    exact .ask q (hproceed _)
  · next p after hpending =>
    obtain rfl := Option.some.inj h
    have hcallers : x.callers = [] ++ p :: after := hpending
    exact .hear _ hcallers (hproceed _)
  · next event hfree =>
    obtain rfl := Option.some.inj h
    exact .report event hfree (hproceed _)
  · next p hpending =>
    obtain rfl := Option.some.inj h
    exact .settle _ hpending (hproceed _)
  · cases h

/-- Moves one after another where everything succeeds, as far as they are possible. -/
def play (c : SessionContext) : List Move → Traffic → List Stride × Traffic
  | [], x => ([], x)
  | move :: moves, x =>
    match x.after? c move with
    | none => ([], x)
    | some y =>
      let (steps, z) := play c moves y
      (⟨x, move⟩ :: steps, z)

/-- What is played is a run. -/
theorem runs_play (c : SessionContext) (state : LifecycleState) (moves : List Move)
    {steps : List Stride} (h : Runs c state steps x) :
    Runs c state (steps ++ (play c moves x).1) (play c moves x).2 := by
  induction moves generalizing steps x with
  | nil => simpa [play] using h
  | cons move moves ih =>
    cases hafter : x.after? c move with
    | none => simpa [play, hafter] using h
    | some y => simpa [play, hafter] using ih (h.step (step_of_after? hafter))

/-- What is played from the beginning is a run. -/
theorem runs_play_fresh (c : SessionContext) (moves : List Move) :
    Runs c .stopped (play c moves (.fresh .stopped)).1 (play c moves (.fresh .stopped)).2 := by
  simpa using runs_play c .stopped moves .fresh

/-- A start that is given up leaves a process behind to which a stop speaks too early. -/
example : ∃ m ∈ (play (plainContext "/w") [.begin .start, .answer, .abandon, .begin .stop]
    (.fresh .stopped)).1, Hasty m := by decide +kernel

/-- A process is lost during its start and somebody asks then; the next process is asked something
once it is introduced, asks something itself and is stopped. -/
def patiently : List Stride × Traffic :=
  play (plainContext "/w")
    [.ask (.request "textDocument/hended" .null), .begin .start,
      .report (.status ⟨0, 1⟩ .crashed), .ask (.notify "textDocument/didOpen" .null), .settle,
      .answer, .answer, .answer, .begin .replace, .answer, .answer, .answer,
      .ask (.request "textDocument/hended" .null),
      .report (.message ⟨0, 2⟩ (.request ⟨.text "q", "workspace/configuration", .null⟩)), .hear,
      .settle, .begin .stop, .answer, .answer, .answer] (.fresh .stopped)

/-- All twenty moves are possible, and nothing is said too early to the two processes. -/
theorem patiently_orderly :
    patiently.1.length = 20 ∧ Runs (plainContext "/w") .stopped patiently.1 patiently.2 ∧
      Orderly patiently.2.scene.log ∧ ∀ m ∈ patiently.1, RefusesEarly (plainContext "/w") m := by
  have hruns : Runs (plainContext "/w") .stopped patiently.1 patiently.2 := runs_play_fresh _ _
  exact ⟨by decide +kernel, hruns, (orderly_iff_not_hasty hruns).2 (by decide +kernel)⟩

/-- A start waits for the answer to the initialization. -/
def midway : List Stride × Traffic :=
  play (plainContext "/w") [.begin .start, .answer] (.fresh .stopped)

/-- What is asked while a process is started is not refused, and is said to the process out of turn.
-/
theorem not_always_orderly :
    (¬ ∀ (c : SessionContext) (state : LifecycleState) (steps : List Stride) (x : Traffic),
      Runs c state steps x → Orderly x.scene.log) ∧
    ¬ ∀ (c : SessionContext) (state : LifecycleState) (steps : List Stride) (x : Traffic),
      Runs c state steps x → ∀ m ∈ steps, RefusesEarly c m := by
  have hruns : Runs (plainContext "/w") .stopped midway.1 midway.2 := runs_play_fresh _ _
  have hsound := hruns.sound (by decide +kernel)
  have hexposed : midway.2.Exposed := by decide +kernel
  obtain ⟨y, hy⟩ : ∃ y, midway.2.after? (plainContext "/w")
      (.ask (.request "textDocument/hended" .null)) = some y :=
    Option.isSome_iff_exists.1 (by decide +kernel)
  have hstep := step_of_after? hy
  constructor
  · intro h
    exact hsound.ask_not_orderly hexposed (by decide) hstep (h _ _ _ _ (hruns.step hstep))
  · intro h
    exact hsound.not_refusesEarly hexposed (h _ _ _ _ (hruns.step hstep) _ List.mem_concat_self)

end Traffic

end Session

end RubySupervisor
