import RubySupervisor.Proofs.Host.Stretch
import RubySupervisor.Proofs.Session.History
import RubySupervisor.Proofs.Session.Interleaving

/-!
# Introductions

A process is introduced to a session when it has accepted the initialization and has been told so.
Before that nothing else is to be said to it. This file follows the operations of a session while
callers and the observation have their turns beside them: an operation says nothing to a process out
of turn, and a process that the session holds while an operation waits is not introduced yet.
-/

namespace RubySupervisor

/-- A call that passes a meter: it is made as it is, or is measured and reported. -/
def Meter.relay (measuring : MeasuringContext) (call : Call)
    (message : String → Nat → Nat → call.Answer → MeasuredMessage) (failed : call.Answer → Bool) :
    Task Meter call.Answer := do
  let m : Meter ← Task.get
  Task.put m.count
  match m.measures? with
  | none => Task.ask call
  | some version =>
    let started : Nat ← Task.ask .stopwatch
    let answer ← Task.ask call
    let ended : Nat ← Task.ask .stopwatch
    Meter.report measuring (message version started ended answer) (failed answer)
    return answer

namespace Session

/-- A call of a session that passes its meter, if there is one. -/
def relay (c : SessionContext) (call : Call)
    (message : MeasuringContext → String → Nat → Nat → call.Answer → MeasuredMessage)
    (failed : call.Answer → Bool) : Task Session call.Answer :=
  match c.measuring with
  | none => Task.ask call
  | some measuring => (Meter.relay measuring call (message measuring) failed).within meterPart

/-- A request is relayed. -/
theorem send_eq_relay (c : SessionContext) (server : ServerId) (r : Request)
    (timeout : Option Span) : ∃ message failed,
      send c server r timeout = relay c (.request c.transport server r timeout) message failed :=
  ⟨fun measuring version started ended answer => Meter.event measuring version r.method r.params
    (ended - started) (Meter.errorOf answer), fun answer => (Meter.errorOf answer).isSome, rfl⟩

/-- A notification is relayed. -/
theorem sendNotification_eq_relay (c : SessionContext) (server : ServerId) (n : Notification) :
    ∃ message failed,
      sendNotification c server n = relay c (.notify c.transport server n) message failed :=
  ⟨fun measuring version started ended _ => Meter.event measuring version n.method n.params
    (ended - started) none, fun _ => false, rfl⟩

/-- Who speaks to the transport of a session. -/
inductive Party where
  /-- What starts, stops or replaces the process. -/
  | operation
  /-- Those who have something to ask or to tell the process. -/
  | caller
  /-- What takes in the reports of the transport. -/
  | observation
  deriving DecidableEq

/-- A session with the log of those who speak to its transport. -/
abbrev Minutes := Logged Party Session

/-- Whether a call tells a process that it is initialized. -/
def isAnnouncement : Call → Bool
  | .notify _ _ n => n.method = "initialized"
  | _ => false

/-- An operation has told a process on a transport that it is initialized. -/
def Announces (m : Mark Party) (p : Nat × ServerId) : Prop :=
  ∃ n, m = .answered .operation ⟨.notify p.1 p.2 n, .ok ()⟩ ∧ n.method = "initialized"

/-- A process on a transport has been told that it is initialized. -/
def Announced (log : List (Mark Party)) (p : Nat × ServerId) : Prop := ∃ m ∈ log, Announces m p

/-- A process on a transport has accepted its initialization. -/
def Initialized (log : List (Mark Party)) (p : Nat × ServerId) : Prop :=
  ∃ r timeout answer, .answered .operation ⟨.request p.1 p.2 r timeout, answer⟩ ∈ log ∧
    r.method = "initialize" ∧ Initializes answer

/-- A process on a transport has accepted its initialization and has been told so. -/
def Introduced (log : List (Mark Party)) (p : Nat × ServerId) : Prop :=
  Initialized log p ∧ Announced log p

/-- A call is in its turn behind a log. Requests, other than the one that initializes, and
notifications go to a process that is introduced; the notification that introduces it goes to one
that has accepted its initialization. -/
def InTurn (log : List (Mark Party)) (party : Party) : Call → Prop
  | .request transport server r _ => r.method = "initialize" ∨ Introduced log (transport, server)
  | .notify transport server n =>
    party = .operation ∧ n.method = "initialized" ∧ Initialized log (transport, server) ∨
      Introduced log (transport, server)
  | _ => True

/-- Every call of a log is in its turn. -/
def Orderly (log : List (Mark Party)) : Prop :=
  ∀ before party call after, log = before ++ .made party call :: after → InTurn before party call

theorem Initialized.append {log : List (Mark Party)} {p : Nat × ServerId} (h : Initialized log p)
    (more : List (Mark Party)) : Initialized (log ++ more) p := by
  obtain ⟨r, timeout, answer, hmem, h⟩ := h
  exact ⟨r, timeout, answer, List.mem_append_left more hmem, h⟩

theorem Introduced.append {log : List (Mark Party)} {p : Nat × ServerId} (h : Introduced log p)
    (more : List (Mark Party)) : Introduced (log ++ more) p := by
  obtain ⟨hinitialized, m, hmem, hm⟩ := h
  exact ⟨hinitialized.append more, m, List.mem_append_left more hmem, hm⟩

/-- What announces nothing makes no process announced. -/
theorem Announced.of_append {log others : List (Mark Party)} {p : Nat × ServerId}
    (h : Announced (log ++ others) p) (hothers : ∀ m ∈ others, ¬ Announces m p) :
    Announced log p := by
  obtain ⟨m, hmem, hm⟩ := h
  rcases List.mem_append.1 hmem with hmem | hmem
  · exact ⟨m, hmem, hm⟩
  · exact absurd hm (hothers m hmem)

/-- Behind a mark that announces nothing, what is announced was announced before. -/
theorem Announced.of_concat {log : List (Mark Party)} {m : Mark Party} {p : Nat × ServerId}
    (h : Announced (log ++ [m]) p) (hm : ¬ Announces m p) : Announced log p :=
  h.of_append fun _ hmem => List.mem_singleton.1 hmem ▸ hm

/-- Only operations announce something. -/
theorem not_announces_of_party {m : Mark Party} (h : m.party ≠ .operation) (p : Nat × ServerId) :
    ¬ Announces m p := by
  rintro ⟨n, rfl, -⟩
  exact h rfl

theorem not_announces_made (party : Party) (call : Call) (p : Nat × ServerId) :
    ¬ Announces (.made party call) p := by
  rintro ⟨n, hmark, -⟩
  cases hmark

/-- Only notifications of one method announce something. -/
theorem not_announces_answered {e : Exchange} (h : isAnnouncement e.call = false) (party : Party)
    (p : Nat × ServerId) : ¬ Announces (.answered party e) p := by
  rintro ⟨n, hmark, hn⟩
  obtain ⟨-, rfl⟩ := Mark.answered.inj hmark
  simp [isAnnouncement, hn] at h

theorem orderly_nil : Orderly [] := by
  intro before party call after h
  simp at h

/-- A call in its turn keeps a log orderly. -/
theorem Orderly.made {log : List (Mark Party)} {party : Party} {call : Call} (h : Orderly log)
    (hturn : InTurn log party call) : Orderly (log ++ [.made party call]) := by
  intro before party' call' after hsplit
  rcases split_concat hsplit.symm with ⟨-, rfl, heq⟩ | ⟨rest, -, hrest⟩
  · obtain ⟨rfl, rfl⟩ := Mark.made.inj heq
    exact hturn
  · exact h before party' call' rest hrest.symm

/-- An answer keeps a log orderly. -/
theorem Orderly.answered {log : List (Mark Party)} (h : Orderly log) (party : Party)
    (x : Exchange) : Orderly (log ++ [.answered party x]) := by
  intro before party' call' after hsplit
  rcases split_concat hsplit.symm with ⟨-, -, heq⟩ | ⟨rest, -, hrest⟩
  · cases heq
  · exact h before party' call' rest hrest.symm

/-- The last call of an orderly log is in its turn. -/
theorem Orderly.last {log : List (Mark Party)} {party : Party} {call : Call}
    (h : Orderly (log ++ [.made party call])) : InTurn log party call := h log party call [] rfl

/-- What an orderly log begins with is orderly. -/
theorem Orderly.of_append {log more : List (Mark Party)} (h : Orderly (log ++ more)) :
    Orderly log := by
  rintro before party call after rfl
  exact h before party call (after ++ more) (by simp)

/-- What others do while an operation waits: they announce nothing and say nothing out of turn, may
release the held process and may show an error. -/
structure Alongside (x y : Minutes) : Prop where
  last : y.now.last = x.now.last
  shown : y.now.state = x.now.state ∨ y.now.state = .error
  held : y.now.current = x.now.current ∨ y.now.current = none
  said : ∃ others, y.log = x.log ++ others ∧ ∀ m ∈ others, m.party ≠ .operation
  orderly : Orderly x.log → Orderly y.log

namespace Alongside

variable {x y z : Minutes}

theorem refl (x : Minutes) : Alongside x x := ⟨rfl, .inl rfl, .inl rfl, ⟨[], by simp, by simp⟩, id⟩

theorem trans (h : Alongside x y) (h' : Alongside y z) : Alongside x z := by
  obtain ⟨others, hlog, hothers⟩ := h.said
  obtain ⟨others', hlog', hothers'⟩ := h'.said
  refine ⟨h'.last.trans h.last, ?_, ?_, ⟨others ++ others', ?_, ?_⟩, h'.orderly ∘ h.orderly⟩
  · exact h'.shown.elim (fun hsame => hsame ▸ h.shown) .inr
  · exact h'.held.elim (fun hsame => hsame ▸ h.held) .inr
  · rw [hlog', hlog, List.append_assoc]
  · exact fun m hm => (List.mem_append.1 hm).elim (hothers m) (hothers' m)

/-- What is introduced stays so. -/
theorem introduced (h : Alongside x y) {p : Nat × ServerId} (hp : Introduced x.log p) :
    Introduced y.log p := by
  obtain ⟨others, hlog, -⟩ := h.said
  rw [hlog]
  exact hp.append others

/-- What is announced later was announced before. -/
theorem announced (h : Alongside x y) {p : Nat × ServerId} (hp : Announced y.log p) :
    Announced x.log p := by
  obtain ⟨others, hlog, hothers⟩ := h.said
  rw [hlog] at hp
  exact hp.of_append fun m hm => not_announces_of_party (hothers m hm) p

/-- What is held later was held before. -/
theorem current (h : Alongside x y) {id : ServerId} (hid : y.now.current = some id) :
    x.now.current = some id := by
  rcases h.held with hsame | hnone
  · exact hsame.symm.trans hid
  · rw [hnone] at hid
    cases hid

/-- A session that holds nothing holds nothing later. -/
theorem vacant (h : Alongside x y) (hnone : x.now.current = none) : y.now.current = none :=
  h.held.elim (·.trans hnone) id

/-- What is not shown to run is not shown to run later. -/
theorem shown_ne (h : Alongside x y) (hstate : x.now.state ≠ .running) :
    y.now.state ≠ .running := by
  rcases h.shown with hsame | herror
  · rwa [hsame]
  · rw [herror]
    decide

/-- What a party other than the operation does goes on beside it, as long as it says nothing out of
turn, releases the held process at most and shows an error at most. -/
theorem behind {party : Party} (hparty : party ≠ .operation)
    {w : Task.Waiting Session Unit} {s : Session} (hlast : s.last = x.now.last)
    (hcurrent : s.current = x.now.current ∨ s.current = none)
    (hstate : s.state = x.now.state ∨ s.state = .error)
    (hturn : ∀ p, w.pending? = some p → InTurn x.log party p.call) :
    Alongside x (x.behind party w s) where
  last := hlast
  shown := hstate
  held := hcurrent
  said := by
    refine ⟨_, rfl, fun m hm => ?_⟩
    obtain ⟨p, -, rfl⟩ : ∃ p, w.pending? = some p ∧ .made party p.call = m := by simpa using hm
    exact hparty
  orderly horderly := by
    cases hpending : w.pending? with
    | none => simpa [Logged.behind, hpending] using horderly
    | some p => simpa [Logged.behind, hpending] using horderly.made (hturn p hpending)

/-- An answer to a party other than the operation comes beside it. -/
theorem answered (x : Minutes) {party : Party} (hparty : party ≠ .operation)
    (e : Exchange) : Alongside x (x.mark (.answered party e)) where
  last := rfl
  shown := .inl rfl
  held := .inl rfl
  said := ⟨_, rfl, fun _ hm => List.mem_singleton.1 hm ▸ hparty⟩
  orderly horderly := horderly.answered party e

end Alongside

/-- A log is orderly, and no process is announced before it is started. -/
structure Proper (c : SessionContext) (x : Minutes) : Prop where
  orderly : Orderly x.log
  past : ∀ id, Announced x.log (c.transport, id) → id.generation ≤ x.now.last.generation

/-- The process that is held, if there is one, is not introduced and is not shown to run. -/
structure Hidden (c : SessionContext) (x : Minutes) : Prop extends Proper c x where
  held : ∀ id, x.now.current = some id →
    ¬ Announced x.log (c.transport, id) ∧ x.now.state ≠ .running

/-- The process that is held, if there is one, is introduced. -/
structure Open (c : SessionContext) (x : Minutes) : Prop extends Proper c x where
  held : ∀ id, x.now.current = some id → Introduced x.log (c.transport, id)

section Lasting

variable {c : SessionContext} {x y : Minutes}

theorem Proper.alongside (h : Proper c x) (hbeside : Alongside x y) : Proper c y where
  orderly := hbeside.orderly h.orderly
  past id hid := by
    rw [hbeside.last]
    exact h.past id (hbeside.announced hid)

/-- A mark that announces nothing keeps an orderly log proper. -/
theorem Proper.mark (h : Proper c x) {m : Mark Party} (horderly : Orderly (x.log ++ [m]))
    (hquiet : ∀ p, ¬ Announces m p) : Proper c (x.mark m) where
  orderly := horderly
  past id hid := h.past id (hid.of_concat (hquiet _))

theorem Hidden.alongside (h : Hidden c x) (hbeside : Alongside x y) : Hidden c y where
  toProper := h.toProper.alongside hbeside
  held id hid := by
    obtain ⟨hannounced, hstate⟩ := h.held id (hbeside.current hid)
    exact ⟨fun h => hannounced (hbeside.announced h), hbeside.shown_ne hstate⟩

theorem Open.alongside (h : Open c x) (hbeside : Alongside x y) : Open c y where
  toProper := h.toProper.alongside hbeside
  held id hid := hbeside.introduced (h.held id (hbeside.current hid))

/-- The pact of the operations of a session: the transport reports the process that it was given,
the others keep out of the way, and the held process is not introduced yet. -/
def pact (c : SessionContext) : Pact Party Session where
  party := .operation
  trusts := Exchange.Faithful
  relies := Alongside
  leaves := Hidden c

/-- What a conversation with a process maintains, and the others beside it. -/
structure Lasting (c : SessionContext) (I : Minutes → Prop) : Prop where
  hidden : ∀ {x}, I x → Hidden c x
  talk : ∀ {x}, I x → ∀ n m, I ⟨{ x.now with nextRequest := n, meter := m }, x.log⟩
  mark : ∀ {x}, I x → ∀ {m}, Orderly (x.log ++ [m]) → (∀ p, ¬ Announces m p) → I (x.mark m)
  alongside : ∀ {x y}, I x → Alongside x y → I y

variable {I : Minutes → Prop}

/-- What lasts does so behind an answer that announces nothing. -/
theorem Lasting.answered (hlasting : Lasting c I) (hx : I x) (e : Exchange)
    (he : isAnnouncement e.call = false) : I (x.mark (.answered .operation e)) :=
  hlasting.mark hx ((hlasting.hidden hx).orderly.answered _ _) (not_announces_answered he _)

/-- What lasts does so together with what a log keeps when it grows. -/
theorem Lasting.logged (hlasting : Lasting c I) (P : List (Mark Party) → Prop)
    (hP : ∀ {log}, P log → ∀ more, P (log ++ more)) : Lasting c fun x => I x ∧ P x.log where
  hidden h := hlasting.hidden h.1
  talk h n m := ⟨hlasting.talk h.1 n m, h.2⟩
  mark h _ horderly hquiet := ⟨hlasting.mark h.1 horderly hquiet, hP h.2 _⟩
  alongside h hbeside := by
    obtain ⟨others, hlog, -⟩ := hbeside.said
    exact ⟨hlasting.alongside h.1 hbeside, hlog ▸ hP h.2 others⟩

/-- A call in its turn is made and answered while something lasts. -/
theorem Lasting.call (hlasting : Lasting c I) (hx : I x) {call : Call}
    (hinstant : call.isInstant = false) (hturn : InTurn x.log .operation call) {α : Type}
    {next : call.Answer → Task Session α} {post : α → Minutes → Prop}
    (hnext : ∀ answer y, Exchange.Faithful ⟨call, answer⟩ → I y →
      (next answer).Honours (pact c) post (y.mark (.answered .operation ⟨call, answer⟩))) :
    (Task.call call next).Honours (pact c) post x := by
  have hmade : I (x.mark (.made .operation call)) :=
    hlasting.mark hx ((hlasting.hidden hx).orderly.made hturn) (not_announces_made _ _)
  exact (Task.honours_call hinstant next post x).2 ⟨hlasting.hidden hmade,
    fun answer y htrusts hbeside => hnext answer y htrusts (hlasting.alongside hmade hbeside)⟩

/-- The report of a meter is made in passing. -/
theorem honours_report {k : Pact Party Session} {α : Type} (measuring : MeasuringContext)
    (message : MeasuredMessage) (failed : Bool) (a : α) (post : α → Minutes → Prop) (x : Minutes) :
    ((do Meter.report measuring message failed; return a).within meterPart).Honours k post x ↔
      post a x := by
  unfold Meter.report
  split <;> simp [Task.ask, Task.andThen, Task.within, Task.Honours, Call.isInstant]

/-- A call in its turn is relayed once. -/
theorem Lasting.relay (hlasting : Lasting c I) (hx : I x) {call : Call}
    (hinstant : call.isInstant = false) (hturn : InTurn x.log .operation call)
    (message : MeasuringContext → String → Nat → Nat → call.Answer → MeasuredMessage)
    (failed : call.Answer → Bool) :
    (relay c call message failed).Honours (pact c)
      (fun answer y => ∃ z, I z ∧ y = z.mark (.answered .operation ⟨call, answer⟩)) x := by
  unfold Session.relay
  split
  · exact hlasting.call hx hinstant hturn fun answer y _ hy => ⟨y, hy, rfl⟩
  · have hcounted := hlasting.talk hx x.now.nextRequest x.now.meter.count
    change (Task.within meterPart (match x.now.meter.measures? with
      | none => _
      | some version => _)).Honours (pact c) _ ⟨{ x.now with meter := x.now.meter.count }, x.log⟩
    split
    · exact hlasting.call hcounted hinstant hturn fun answer y _ hy => ⟨y, hy, rfl⟩
    · refine (Task.honours_instant rfl _ _ _).2 fun started => ?_
      refine hlasting.call hcounted hinstant hturn fun answer y _ hy => ?_
      refine (Task.honours_instant rfl _ _ _).2 fun ended => ?_
      exact (honours_report _ _ _ answer _ _).2 ⟨y, hy, rfl⟩

/-- A request is sent once, in its turn. -/
theorem Lasting.send (hlasting : Lasting c I) (hx : I x) {server : ServerId} {r : Request}
    {timeout : Option Span}
    (hturn : InTurn x.log .operation (.request c.transport server r timeout)) :
    (send c server r timeout).Honours (pact c) (fun answer y => ∃ z, I z ∧
      y = z.mark (.answered .operation ⟨.request c.transport server r timeout, answer⟩)) x := by
  obtain ⟨message, failed, heq⟩ := send_eq_relay c server r timeout
  rw [heq]
  exact hlasting.relay hx rfl hturn message failed

/-- A notification is sent once, in its turn. -/
theorem Lasting.sendNotification (hlasting : Lasting c I) (hx : I x) {server : ServerId}
    {n : Notification} (hturn : InTurn x.log .operation (.notify c.transport server n)) :
    (sendNotification c server n).Honours (pact c) (fun answer y => ∃ z, I z ∧
      y = z.mark (.answered .operation ⟨.notify c.transport server n, answer⟩)) x := by
  obtain ⟨message, failed, heq⟩ := sendNotification_eq_relay c server n
  rw [heq]
  exact hlasting.relay hx rfl hturn message failed

theorem honours_takeRequestId {k : Pact Party Session} (post : RequestId → Minutes → Prop)
    (x : Minutes) :
    takeRequestId.Honours k post x ↔ post (.number x.now.nextRequest)
      ⟨{ x.now with nextRequest := following x.now.nextRequest }, x.log⟩ := .rfl

/-- The request that initializes a process is sent in its turn, and what the session takes out of
the answer tells whether the process has accepted it. -/
theorem Lasting.greeting (hlasting : Lasting c I) (hx : I x) (server : ServerId)
    (params : Json) :
    (requestOn c server "initialize" params).Honours (pact c) (fun r y => I y ∧
      ∀ value, r = .ok value → Capabilities.accept? value = some () →
        Initialized y.log (c.transport, server)) x := by
  simp only [requestOn, Task.honours_bind, honours_takeRequestId]
  have hnumbered := hlasting.talk hx (following x.now.nextRequest) x.now.meter
  refine (hlasting.send hnumbered (.inl rfl)).mono fun answer y hsent => ?_
  obtain ⟨z, hz, rfl⟩ := hsent
  have hkept := hlasting.answered hz
    (asked c server (.number x.now.nextRequest) "initialize" params answer) rfl
  -- the session takes the same result out of the answer in both branches
  have hresult : ∀ value, resultOf answer = .ok value → Capabilities.accept? value = some () →
      Initialized (z.mark (.answered .operation ⟨.request c.transport server
        ⟨.number x.now.nextRequest, "initialize", params⟩ (some c.options.requestTimeout),
        answer⟩)).log (c.transport, server) := fun value hvalue haccept =>
    ⟨_, _, answer, List.mem_append_right _ List.mem_cons_self, rfl, value, hvalue, haccept⟩
  split
  · exact ⟨hkept, fun value hvalue => by cases hvalue⟩
  · next response =>
    split
    · exact ⟨hkept, fun value hvalue => by cases hvalue⟩
    · next value hvalue =>
      refine ⟨hkept, fun value' heq => hresult value' ?_⟩
      obtain rfl := Except.ok.inj heq
      simp only [resultOf, hvalue]

/-- While a process is started, the session holds it and no other, unless it has been released; it
is not announced yet and not shown to run. -/
structure Greets (c : SessionContext) (id : ServerId) (x : Minutes) : Prop extends Proper c x where
  held : ∀ other, x.now.current = some other → other = id
  shown : x.now.state ≠ .running
  last : x.now.last = id
  unannounced : ¬ Announced x.log (c.transport, id)

/-- The start of a process goes on under a conversation, and with the others beside it. -/
theorem greets_lasting (c : SessionContext) (id : ServerId) : Lasting c (Greets c id) where
  hidden h := ⟨h.toProper, fun other hother => h.held other hother ▸ ⟨h.unannounced, h.shown⟩⟩
  talk h _ _ := ⟨⟨h.orderly, h.past⟩, h.held, h.shown, h.last, h.unannounced⟩
  mark h _ horderly hquiet := ⟨h.toProper.mark horderly hquiet, h.held, h.shown, h.last,
    fun hid => h.unannounced (hid.of_concat (hquiet _))⟩
  alongside h hbeside := ⟨h.toProper.alongside hbeside,
    fun other hother => h.held other (hbeside.current hother), hbeside.shown_ne h.shown,
    hbeside.last.trans h.last, fun hid => h.unannounced (hbeside.announced hid)⟩

/-- A process was started: if that succeeded, it is introduced. -/
structure Greeted (c : SessionContext) (id : ServerId) (r : Except ServerError Unit)
    (x : Minutes) : Prop extends Proper c x where
  held : ∀ other, x.now.current = some other → other = id
  introduced : r = .ok () → Introduced x.log (c.transport, id)

/-- A start that has failed introduces nothing. -/
theorem Greets.failed {id : ServerId} (h : Greets c id x) (error : ServerError) :
    Greeted c id (.error error) x := ⟨h.toProper, h.held, nofun⟩

/-- The handshake introduces a process, if it succeeds. -/
theorem honours_handshake {id : ServerId} (h : Greets c id x) :
    (handshake c id).Honours (pact c) (Greeted c id) x := by
  have hlasting := greets_lasting c id
  unfold handshake
  split
  · exact h.failed _
  · refine (Task.honours_bind _ _ _ x).2 ((hlasting.greeting h id _).mono fun r y hasked => ?_)
    obtain ⟨hy, hinitialized⟩ := hasked
    split
    · exact hy.failed _
    · next value =>
      split
      · exact hy.failed _
      · next haccept =>
        have haccepted := hinitialized value rfl haccept
        have haccepting : Lasting c fun x => Greets c id x ∧ Initialized x.log (c.transport, id) :=
          hlasting.logged (Initialized · (c.transport, id)) Initialized.append
        refine (haccepting.sendNotification ⟨hy, haccepted⟩
          (.inl ⟨rfl, rfl, haccepted⟩)).mono fun answer y hsent => ?_
        obtain ⟨z, ⟨hz, hzinitialized⟩, rfl⟩ := hsent
        refine ⟨⟨hz.orderly.answered _ _, fun other hother => ?_⟩, hz.held, fun hanswer => ?_⟩
        · -- what is announced now is the last process
          obtain ⟨m, hmem, hm⟩ := hother
          rcases List.mem_append.1 hmem with hmem | hmem
          · exact hz.past other ⟨m, hmem, hm⟩
          · obtain rfl := List.mem_singleton.1 hmem
            obtain ⟨n, hmark, -⟩ := hm
            have hid : other = id := by cases hmark; rfl
            rw [hid, ← hz.last]
            exact Nat.le_refl _
        · obtain rfl := hanswer
          exact ⟨hzinitialized.append _, _, List.mem_append_right _ List.mem_cons_self, _, rfl, rfl⟩

/-- A process that is started is introduced, if that succeeds. -/
theorem honours_startProcess {id : ServerId} (h : Greets c id x) :
    (startProcess c id).Honours (pact c) (Greeted c id) x := by
  have hlasting := greets_lasting c id
  have hturn : InTurn x.log .operation (.startServer c.transport (launchOf c id)) := trivial
  refine (Task.honours_bind _ _ _ x).2 (hlasting.call h rfl hturn fun started y hfaithful hy => ?_)
  have hkept := hlasting.answered hy ⟨.startServer c.transport (launchOf c id), started⟩ rfl
  cases started with
  | error error => exact hkept.failed error
  | ok server =>
    obtain rfl : server = id := hfaithful server rfl
    exact honours_handshake hkept

/-- A session that holds no process. -/
structure Vacant (c : SessionContext) (x : Minutes) : Prop extends Proper c x where
  held : x.now.current = none

/-- A session holds no process under a conversation with one that it has let go. -/
theorem vacant_lasting (c : SessionContext) : Lasting c (Vacant c) where
  hidden h := ⟨h.toProper, fun _ hid => nomatch h.held.symm.trans hid⟩
  talk h _ _ := ⟨⟨h.orderly, h.past⟩, h.held⟩
  mark h _ horderly hquiet := ⟨h.toProper.mark horderly hquiet, h.held⟩
  alongside h hbeside := ⟨h.toProper.alongside hbeside, hbeside.vacant h.held⟩

/-- A session stops a process that it has let go, and shows something. -/
theorem Vacant.stopServer (h : Vacant c x) (id : ServerId) (state : LifecycleState) {α : Type}
    (result : Except ServerError Unit → α) :
    (do
      let stopped : Except ServerError Unit ← Task.ask (.stopServer c.transport id)
      setState state
      return result stopped : Task Session α).Honours (pact c) (fun _ y => Vacant c y) x := by
  have hturn : InTurn x.log .operation (.stopServer c.transport id) := trivial
  refine (vacant_lasting c).call h rfl hturn fun answer y _ hy => ?_
  have hkept := (vacant_lasting c).answered hy ⟨.stopServer c.transport id, answer⟩ rfl
  exact ⟨⟨hkept.orderly, hkept.past⟩, hkept.held⟩

/-- What holds no process holds none that is not introduced. -/
theorem Vacant.isOpen (h : Vacant c x) : Open c x :=
  ⟨h.toProper, fun _ hid => nomatch h.held.symm.trans hid⟩

/-- A start leaves a session whose process is introduced, if it holds one. -/
theorem honours_start (h : Proper c x) (hrunning : x.now.state = .running → Open c x) :
    (start c).Honours (pact c) (fun _ y => Open c y) x := by
  refine (Task.honours_bind _ _ _ x).2 ?_
  rw [Task.honours_get]
  split
  · next hstate => exact hrunning hstate
  · have hnext : x.now.last.generation < x.now.last.next.generation := Nat.lt_succ_self _
    -- the number of the new process is behind all that have been announced
    have hgreets : Greets c x.now.last.next ⟨{ x.now with
        last := x.now.last.next, current := some x.now.last.next, state := .starting }, x.log⟩ :=
      { orderly := h.orderly
        past := fun id hid => Nat.le_of_lt (Nat.lt_of_le_of_lt (h.past id hid) hnext)
        held := fun other hother => (Option.some.inj hother).symm
        shown := by simp
        last := rfl
        unannounced := fun hid => Nat.not_le_of_lt hnext (h.past _ hid) }
    refine (Task.honours_bind _ _ _ x).2 ((Task.honours_bind _ _ _ _).2
      ((honours_startProcess hgreets).mono fun r y hgreeted => ?_))
    cases r with
    | ok => exact ⟨⟨hgreeted.orderly, hgreeted.past⟩,
        fun id hid => hgreeted.held id hid ▸ hgreeted.introduced rfl⟩
    | error error =>
      have hvacant : Vacant c ⟨{ y.now with current := none }, y.log⟩ :=
        ⟨⟨hgreeted.orderly, hgreeted.past⟩, rfl⟩
      exact (hvacant.stopServer x.now.last.next .error
        fun _ => (.error error : Except ServerError Unit)).mono fun _ _ => Vacant.isOpen

/-- A stop of a process that is introduced leaves a session without a process. -/
theorem honours_stop (h : Open c x) : (stop c).Honours (pact c) (fun _ y => Vacant c y) x := by
  refine (Task.honours_bind _ _ _ x).2 ?_
  rw [Task.honours_get]
  split
  · next hnone => exact ⟨⟨h.orderly, h.past⟩, hnone⟩
  · next id hid =>
    -- the process stays introduced while leave is taken of it
    have hlasting : Lasting c fun x => Vacant c x ∧ Introduced x.log (c.transport, id) :=
      (vacant_lasting c).logged (Introduced · (c.transport, id)) Introduced.append
    have hvacant : Vacant c ⟨{ x.now with
        current := none, nextRequest := following x.now.nextRequest }, x.log⟩ :=
      ⟨⟨h.orderly, h.past⟩, rfl⟩
    have hintroduced := h.held id hid
    refine (Task.honours_bind _ _ _ x).2 ((Task.honours_bind _ _ _ _).2 ?_)
    rw [honours_takeRequestId]
    refine (Task.honours_bind _ _ _ _).2 ((hlasting.send ⟨hvacant, hintroduced⟩
      (.inr hintroduced)).mono fun answer y hasked => ?_)
    obtain ⟨z, hz, rfl⟩ := hasked
    have hasked := hlasting.answered hz ⟨.request c.transport id
      ⟨.number x.now.nextRequest, "shutdown", .null⟩ (some shutdownTimeout), answer⟩ rfl
    refine (Task.honours_bind _ _ _ _).2 ((hlasting.sendNotification hasked
      (.inr hasked.2)).mono fun answer y htold => ?_)
    obtain ⟨z, hz, rfl⟩ := htold
    have htold := hlasting.answered hz ⟨.notify c.transport id ⟨"exit", .null⟩, answer⟩ rfl
    exact htold.1.stopServer id .stopped fun stopped => stopped

/-- Every operation leaves a session whose process is introduced, if it holds one. -/
theorem honours_task (o : Operation) (h : Proper c x)
    (hheld : o = .stop ∨ x.now.state = .running → Open c x) :
    (o.task c).Honours (pact c) (fun _ y => Open c y) x := by
  cases o with
  | start => exact (Task.honours_bind _ _ _ x).2 (honours_start h fun hstate => hheld (.inr hstate))
  | stop =>
    exact (Task.honours_bind _ _ _ x).2 ((honours_stop (hheld (.inl rfl))).mono
      fun _ _ => Vacant.isOpen)
  | replace =>
    refine (Task.honours_bind _ _ _ x).2 ?_
    rw [Task.honours_get]
    split
    · next hstate =>
      refine (Task.honours_bind _ _ _ x).2 ((honours_stop (hheld (.inr hstate))).mono
        fun r y hy => ?_)
      cases r with
      | ok => exact (Task.honours_bind _ _ _ y).2 (honours_start hy.toProper fun _ => hy.isOpen)
      | error error => exact hy.isOpen
    · next hstate =>
      exact (Task.honours_bind _ _ _ x).2 (honours_start h fun hrunning => absurd hrunning hstate)

end Lasting

end Session

end RubySupervisor
