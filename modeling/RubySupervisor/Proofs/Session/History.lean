import Mathlib.Data.List.Pairwise
import RubySupervisor.Proofs.Host.Trace
import RubySupervisor.Proofs.Session.Chronicle

/-!
# Histories of a session

A history tells a session what to do and shows it events, one thing after the other, each handled to
its end under whatever answers. Along every history the record of the session stays a chronicle, and
its requests stay numbered in turn.
-/

namespace RubySupervisor.Session

/-- What a session is told to do, or an event that it is shown. -/
inductive Deed : Type 1 where
  | start
  | stop
  | restart
  | request (method : String) (params : Json)
  | requestAs {α : Type} (method : String) (params : Json) (decode : Json → Option α)
  | notify (method : String) (params : Json)
  | afterStart
  | observe (event : TransportEvent)

namespace Deed

/-- The task of a deed. What it returns to its caller does not matter to a history. -/
def task (c : SessionContext) : Deed → Task Session Unit
  | start => do let _ ← Session.start c
  | stop => do let _ ← Session.stop c
  | restart => Session.restart c
  | request method params => do let _ ← Session.request c method params
  | requestAs method params decode => do let _ ← Session.requestAs c method params decode
  | notify method params => do let _ ← Session.notify c method params
  | afterStart => do let _ ← Session.afterStart c
  | observe event => Session.observe c event

/-- The event of a deed, if it is one. -/
def event? : Deed → Option TransportEvent
  | observe event => some event
  | _ => none

end Deed

/-- What an episode adds to the record of a session. -/
def entriesOf (e : Episode Session Deed) : List Entry :=
  (e.deed.event?.map .seen).toList ++ (talk e.trace).map .said

/-- The record of a history. -/
def record (history : List (Episode Session Deed)) : List Entry := history.flatMap entriesOf

/-- What is true of a session with its record while nothing is under way. -/
structure Kept (c : SessionContext) (entries : List Entry) (s : Session) : Prop where
  slot : s.last.slot = 0
  chronicle : Chronicle c s.last.generation entries s.current.isSome
  live : ∀ id, s.current = some id → id = s.last ∧ s.state = .running
  numbered : Numbered 1 (exchanges entries) s.nextRequest

/-- An opening whose process is reported as it was given. -/
theorem Opening.of_faithful {c : SessionContext} {id server : ServerId} {l : List Exchange}
    {complete : Bool} (h : Opening c id server l complete) (hfaithful : ∀ x ∈ l, x.Faithful) :
    Opening c id id l complete := by
  cases h with
  | refused => exact .refused
  | greeted h =>
    obtain rfl : server = id := hfaithful _ List.mem_cons_self server rfl
    exact .greeted h

/-- What is said to a transport faithfully is faithful among all that is said. -/
theorem faithful_talk {l : List Exchange} (h : ∀ x ∈ l, x.Faithful) :
    ∀ x ∈ talk l, x.Faithful :=
  fun x hx => h x (List.mem_filter.1 hx).1

/-- A task keeps the record of a session, as long as the transport is faithful. -/
def Keeps {α : Type} (c : SessionContext) (entries : List Entry) (t : Task Session α)
    (s : Session) : Prop :=
  t.Ensures (fun l _ s' => (∀ x ∈ l, x.Faithful) → Kept c (entries ++ (talk l).map .said) s') s

/-- What keeps the record whatever came before keeps it behind what keeps it. -/
theorem Keeps.bind {α β : Type} {c : SessionContext} {entries : List Entry} {s : Session}
    {t : Task Session α} {f : α → Task Session β} (h : Keeps c entries t s)
    (hf : ∀ a entries s, Kept c entries s → Keeps c entries (f a) s) :
    Keeps c entries (t >>= f) s := by
  refine (Task.ensures_bind _ t f s).2 (h.mono fun l a s' hkept => ?_)
  refine Task.ensures_of_yields fun l' b s'' hyields hfaithful => ?_
  have hfirst := hkept fun x hx => hfaithful x (List.mem_append_left l' hx)
  have hsecond := (hf a _ s' hfirst).yields hyields fun x hx =>
    hfaithful x (List.mem_append_right l hx)
  rwa [talk_append, List.map_append, ← List.append_assoc]

/-- Returning something keeps the record. -/
theorem Kept.pure {α : Type} {c : SessionContext} {entries : List Entry} {s : Session}
    (h : Kept c entries s) (a : α) : Keeps c entries (pure a) s := by
  intro _
  simpa using h

/-- A start keeps the record. -/
theorem Kept.start {c : SessionContext} {entries : List Entry} {s : Session}
    (h : Kept c entries s) : Keeps c entries (Session.start c) s := by
  by_cases hstate : s.state = .running
  · refine (ensures_start_running hstate).mono fun l r s' hstart _ => ?_
    obtain ⟨rfl, -, rfl⟩ := hstart
    simpa using h
  · refine (ensures_start hstate).mono fun l r s' hstart hfaithful => ?_
    obtain ⟨hstarted, hnumbered⟩ := hstart
    -- a session that holds a process runs, so that this one holds none
    have hnone : s.current = none := by
      by_contra hsome
      obtain ⟨id, hid⟩ := Option.ne_none_iff_exists'.1 hsome
      exact hstate (h.live id hid).2
    have hchronicle := h.chronicle
    rw [hnone, Option.isSome_none] at hchronicle
    have hnext : s.last.next = ⟨0, s.last.generation + 1⟩ := by
      simp [ServerId.next, h.slot]
    have htalk := faithful_talk hfaithful
    have hnumbers : Numbered 1 (exchanges (entries ++ (talk l).map .said)) s'.nextRequest := by
      rw [exchanges_append, exchanges_map_said]
      exact h.numbered.append hnumbered
    generalize hl : talk l = said at hstarted htalk hnumbers ⊢
    cases hstarted with
    | running hopening =>
      refine ⟨h.slot, ?_, fun id hid => ?_, hnumbers⟩
      · rw [hnext] at hopening
        exact .next hchronicle (.opened (hopening.of_faithful htalk))
      · exact ⟨(Option.some.inj hid).symm, rfl⟩
    | failed hopening =>
      refine ⟨h.slot, ?_, fun id hid => by simp at hid, hnumbers⟩
      rw [hnext] at hopening ⊢
      rw [List.map_append]
      exact .next hchronicle (.failed (hopening.of_faithful fun x hx => htalk x (by simp [hx])))

/-- A record goes on where its last lifetime goes on. -/
theorem Kept.extend {c : SessionContext} {entries more : List Entry} {s s' : Session}
    {id : ServerId} (h : Kept c entries s) (hcurrent : s.current = some id)
    (hlast : s'.last = s.last)
    (hlive : s'.current = s.current ∧ s'.state = s.state ∨ s'.current = none)
    (hmore : ∀ life, Lifetime c id life true → Lifetime c id (life ++ more) s'.current.isSome)
    (hnumbered : Numbered s.nextRequest (exchanges more) s'.nextRequest) :
    Kept c (entries ++ more) s' := by
  obtain ⟨rfl, -⟩ := h.live id hcurrent
  have hid : (⟨0, s.last.generation⟩ : ServerId) = s.last := by rw [← h.slot]
  have hchronicle := h.chronicle
  rw [hcurrent, Option.isSome_some] at hchronicle
  refine ⟨by rw [hlast, h.slot], ?_, fun id hid => ?_, ?_⟩
  · rw [hlast]
    exact hchronicle.extend (by rw [hid]; exact hmore)
  · rcases hlive with ⟨hsame, hstate⟩ | hnone
    · rw [hlast, hstate]
      exact h.live id (hsame ▸ hid)
    · rw [hnone] at hid
      cases hid
  · rw [exchanges_append]
    exact h.numbered.append hnumbered

/-- A record stays where nothing is said and no process is taken up or given up. -/
theorem Kept.rest {c : SessionContext} {entries : List Entry} {s : Session}
    (h : Kept c entries s) (s' : Session) (hlast : s'.last = s.last)
    (hcurrent : s'.current = s.current) (hstate : s'.current ≠ none → s'.state = s.state)
    (hnumber : s'.nextRequest = s.nextRequest) : Kept c entries s' := by
  refine ⟨by rw [hlast, h.slot], by rw [hlast, hcurrent]; exact h.chronicle, fun id hid => ?_,
    by rw [hnumber]; exact h.numbered⟩
  rw [hlast, hstate (by simp [hid])]
  exact h.live id (hcurrent ▸ hid)

/-- A stop keeps the record. -/
theorem Kept.stop {c : SessionContext} {entries : List Entry} {s : Session}
    (h : Kept c entries s) : Keeps c entries (Session.stop c) s := by
  cases hcurrent : s.current with
  | none =>
    refine (ensures_stop_idle hcurrent).mono fun l r s' hstop _ => ?_
    obtain ⟨rfl, -, rfl⟩ := hstop
    simpa using h.rest { s with state := .stopped } rfl rfl (absurd hcurrent) rfl
  | some id =>
    refine (ensures_stop hcurrent).mono fun l r s' hstop _ => ?_
    obtain ⟨shutdown, exit, m, htalk, rfl⟩ := hstop
    rw [htalk]
    refine h.extend hcurrent rfl (.inr rfl) (fun life hlife => .dismissed hlife) ?_
    rw [exchanges_map_said]
    exact ⟨rfl, rfl⟩

/-- A restart keeps the record: it is a start, or a stop and a start. -/
theorem Kept.restart {c : SessionContext} {entries : List Entry} {s : Session}
    (h : Kept c entries s) : Keeps c entries (Session.restart c) s := by
  have hfiles : Keeps c entries (Task.ask .files) s := fun files _ => by
    simpa [Call.isTransport, Call.addressee?] using h
  refine hfiles.bind fun files entries s h => ?_
  split
  · exact h.pure ()
  · change Keeps c entries (if s.state = .running then _ else _) s
    split
    · refine h.stop.bind fun stopped entries s h => ?_
      split
      · exact h.start.bind fun _ entries s h => h.pure ()
      · exact h.pure ()
    · exact h.start.bind fun _ entries s h => h.pure ()

/-- A request keeps the record. -/
theorem Kept.request {c : SessionContext} {entries : List Entry} {s : Session}
    (h : Kept c entries s) (method : String) (params : Json) :
    Keeps c entries (Session.request c method params) s := by
  refine (ensures_request c method params s).mono fun l r s' hrequest _ => ?_
  cases hcurrent : s.current with
  | none =>
    simp only [hcurrent] at hrequest
    obtain ⟨htalk, rfl⟩ := hrequest
    simpa [htalk] using h
  | some id =>
    simp only [hcurrent] at hrequest
    obtain ⟨answer, m, htalk, rfl⟩ := hrequest
    rw [htalk]
    refine h.extend hcurrent rfl (.inl ⟨hcurrent.symm, rfl⟩) (fun life hlife => .asked hlife) ?_
    exact ⟨rfl, rfl⟩

/-- A notification keeps the record. -/
theorem Kept.notify {c : SessionContext} {entries : List Entry} {s : Session}
    (h : Kept c entries s) (method : String) (params : Json) :
    Keeps c entries (Session.notify c method params) s := by
  refine (ensures_notify c method params s).mono fun l r s' hnotify _ => ?_
  cases hcurrent : s.current with
  | none =>
    simp only [hcurrent] at hnotify
    obtain ⟨htalk, rfl⟩ := hnotify
    simpa [htalk] using h
  | some id =>
    simp only [hcurrent] at hnotify
    obtain ⟨answer, m, htalk, rfl⟩ := hnotify
    rw [htalk]
    exact h.extend hcurrent rfl (.inl ⟨hcurrent.symm, rfl⟩) (fun life hlife => .notified hlife) rfl

/-- What is found out after a start keeps the record. -/
theorem Kept.afterStart {c : SessionContext} {entries : List Entry} {s : Session}
    (h : Kept c entries s) : Keeps c entries (Session.afterStart c) s := by
  refine (ensures_afterStart c s).mono fun l r s' hafter _ => ?_
  obtain ⟨htalk, formatter, m, rfl⟩ := hafter
  rw [htalk]
  simpa using h.rest { s with formatter, meter := m } rfl rfl (fun _ => rfl) rfl

/-- Observing an event keeps the record with the event in it. -/
theorem Kept.observe {c : SessionContext} {entries : List Entry} {s : Session}
    (h : Kept c entries s) (event : TransportEvent) :
    (Session.observe c event).Ensures
      (fun l _ s' => Kept c (entries ++ .seen event :: (talk l).map .said) s') s := by
  refine (ensures_observe c event s).mono fun l r s' hobserved => ?_
  generalize talk l = said at hobserved
  cases hobserved with
  | released hcurrent hfinal =>
    exact h.extend hcurrent rfl (.inr rfl) (fun life hlife => .lost hlife hfinal) rfl
  | answered hcurrent =>
    refine h.extend hcurrent rfl (.inl ⟨rfl, rfl⟩) (fun life hlife => ?_) rfl
    rw [hcurrent]
    exact .replied hlife
  | ignored hunconcerned =>
    cases hcurrent : s.current with
    | none =>
      refine ⟨h.slot, ?_, h.live, by simpa using h.numbered⟩
      have hchronicle := h.chronicle
      rw [hcurrent] at hchronicle ⊢
      exact .idle event hchronicle
    | some id =>
      refine h.extend hcurrent rfl (.inl ⟨rfl, rfl⟩) (fun life hlife => ?_) rfl
      rw [hcurrent]
      exact .unconcerned hlife (hunconcerned id hcurrent)

/-- Every episode keeps the record, with what it adds. -/
theorem Kept.episode {c : SessionContext} {entries : List Entry} {s s' : Session} {deed : Deed}
    {trace : List Exchange} (h : Kept c entries s) (hstep : (deed.task c).Yields s trace () s')
    (hfaithful : ∀ x ∈ trace, x.Faithful) :
    Kept c (entries ++ entriesOf ⟨s, deed, trace⟩) s' := by
  have hquiet {α : Type} {t : Task Session α} (ht : Keeps c entries t s) :
      Keeps c entries (do let _ ← t) s := ht.bind fun _ _ _ h => h.pure ()
  cases deed with
  | observe event => exact (h.observe event).yields hstep
  | start => exact (hquiet h.start).yields hstep hfaithful
  | stop => exact (hquiet h.stop).yields hstep hfaithful
  | restart => exact h.restart.yields hstep hfaithful
  | request method params => exact (hquiet (h.request method params)).yields hstep hfaithful
  | requestAs method params decode =>
    have hasked : Keeps c entries (requestAs c method params decode) s :=
      ensures_requestAs c method params decode (h.request method params)
    exact (hquiet hasked).yields hstep hfaithful
  | notify method params => exact (hquiet (h.notify method params)).yields hstep hfaithful
  | afterStart => exact (hquiet h.afterStart).yields hstep hfaithful

/-- **Chronicle lemma.** The record of a session is kept along every history in which the transport
is faithful. -/
theorem kept_of_lives {c : SessionContext} {state : LifecycleState}
    {history : List (Episode Session Deed)} {s : Session}
    (h : Lives (Deed.task c) (.fresh state) history s)
    (hfaithful : ∀ e ∈ history, ∀ x ∈ e.trace, x.Faithful) : Kept c (record history) s := by
  induction h with
  | fresh => exact ⟨rfl, .fresh, fun id hid => by simp [Session.fresh] at hid, rfl⟩
  | @step history s s' deed trace h hstep ih =>
    have hkept := ih fun e he => hfaithful e (by simp [he])
    have hepisode := hkept.episode hstep fun x hx =>
      hfaithful ⟨s, deed, trace⟩ (by simp) x hx
    simpa [record] using hepisode

/-- The numbers under which requests were sent, in order. -/
def requestIds (l : List Exchange) : List RequestId :=
  l.filterMap fun x =>
    match x.call with
    | .request _ _ r _ => some r.id
    | _ => none

/-- Requests that are numbered in turn have growing numbers until the numbers go round. -/
theorem increasing_of_numbered {n n' : Int} {l : List Exchange} (h : Numbered n l n')
    (hroom : n + (requestIds l).length ≤ 2147483648) :
    ∃ numbers : List Int, requestIds l = numbers.map .number ∧
      numbers.Pairwise (· < ·) ∧ ∀ m ∈ numbers, n ≤ m := by
  induction l generalizing n with
  | nil => exact ⟨[], rfl, .nil, by simp⟩
  | cons x l ih =>
    obtain ⟨call, answer⟩ := x
    cases call with
    | request transport server r timeout =>
      obtain ⟨hid, h⟩ := h
      have hids : requestIds (⟨.request transport server r timeout, answer⟩ :: l) =
          .number n :: requestIds l := by
        rw [← hid]
        rfl
      rw [hids] at hroom ⊢
      rw [List.length_cons] at hroom
      -- the greatest number leaves room for no other request
      by_cases hround : n = 2147483647
      · have hempty : requestIds l = [] := List.eq_nil_of_length_eq_zero (by omega)
        exact ⟨[n], by simp [hempty], by simp, by simp⟩
      · rw [following, if_neg hround] at h
        obtain ⟨numbers, hnumbers, hgrow, hfrom⟩ := ih h (by push_cast at hroom; omega)
        refine ⟨n :: numbers, by simp [hnumbers], .cons (fun m hm => ?_) hgrow, fun m hm => ?_⟩
        · have hbound := hfrom m hm
          omega
        · rcases List.mem_cons.1 hm with rfl | hm
          · exact Int.le_refl m
          · have hbound := hfrom m hm
            omega
    | _ => exact ih h hroom

/-- An event does not make a session start anything. -/
theorem event_starts_nothing {c : SessionContext} {state : LifecycleState}
    {history : List (Episode Session Deed)} {s : Session}
    (h : Lives (Deed.task c) (.fresh state) history s) :
    ∀ e ∈ history, e.deed.event?.isSome → ∀ x ∈ e.trace, ∀ transport launch,
      x.call ≠ .startServer transport launch := by
  induction h with
  | fresh => simp
  | @step history s s' deed trace h hstep ih =>
    intro e he hevent x hx transport launch hcall
    rcases List.mem_append.1 he with he | he
    · exact ih e he hevent x hx transport launch hcall
    · obtain rfl := List.mem_singleton.1 he
      cases deed with
      | observe event =>
        have hsaid : x ∈ talk trace :=
          List.mem_filter.2 ⟨hx, by simp [hcall, Call.isTransport, Call.addressee?]⟩
        have hobserved := (ensures_observe c event s).yields hstep
        generalize talk trace = said at hsaid hobserved
        cases hobserved <;> simp_all
      | _ => simp [Deed.event?] at hevent

/-- **Theorem (session grammar).** Along every history in which the transport reports the processes
that it was given, the record of a session is a chronicle of the lifetimes of the first processes,
each of which is spoken to in its lifetime only. Events start nothing, and fewer than `2 ^ 31`
requests have growing numbers. -/
theorem goes_through_lifetimes {c : SessionContext} {state : LifecycleState}
    {history : List (Episode Session Deed)} {s : Session}
    (h : Lives (Deed.task c) (.fresh state) history s)
    (hfaithful : ∀ e ∈ history, ∀ x ∈ e.trace, x.Faithful) :
    Chronicle c s.last.generation (record history) s.current.isSome ∧
      (∀ g, 1 ≤ g → g ≤ s.last.generation → ∃ before life after,
        record history = before ++ life ++ after ∧
          (∃ stillOpen, Lifetime c ⟨0, g⟩ life stillOpen) ∧
          ∀ x ∈ exchanges (before ++ after), x.call.addressee? ≠ some (c.transport, ⟨0, g⟩)) ∧
      (∀ e ∈ history, e.deed.event?.isSome → ∀ x ∈ e.trace, ∀ transport launch,
        x.call ≠ .startServer transport launch) ∧
      ((requestIds (exchanges (record history))).length < 2147483648 → ∃ numbers : List Int,
        requestIds (exchanges (record history)) = numbers.map .number ∧
          numbers.Pairwise (· < ·)) := by
  have hkept := kept_of_lives h hfaithful
  refine ⟨hkept.chronicle, fun g hpos hle => hkept.chronicle.isolated hpos hle,
    event_starts_nothing h, fun hfew => ?_⟩
  obtain ⟨numbers, hnumbers, hgrow, -⟩ := increasing_of_numbered hkept.numbered (by omega)
  exact ⟨numbers, hnumbers, hgrow⟩

/-- An agreeable host reports the processes that it is given. -/
theorem faithful_agreeable (call : Call) (s : Session) (ruby : Except RubyError Activation) :
    Exchange.Faithful ⟨call, (agreeable call s ruby).1⟩ := by
  cases call with
  | startServer transport launch => exact fun server h => (Except.ok.inj h).symm
  | _ => exact trivial

/-- A life with two processes, the first of which ends by itself. -/
def twoProcesses : List (Episode Session Deed) × Session × Except RubyError Activation :=
  enact agreeable (Deed.task (plainContext "/w"))
    [.start, .request "textDocument/hover" .null, .observe (.status ⟨0, 1⟩ .crashed), .start, .stop]
    (.fresh .stopped) (.error .rubyNotOnPath)

/-- The life with two processes goes through two lifetimes, and none is open at its end. -/
theorem twoProcesses_lifetimes : Chronicle (plainContext "/w") 2 (record twoProcesses.1) false := by
  have hlives := Lives.enact_fresh agreeable (Deed.task (plainContext "/w"))
    [.start, .request "textDocument/hover" .null, .observe (.status ⟨0, 1⟩ .crashed), .start, .stop]
    (.fresh .stopped) (.error .rubyNotOnPath)
  have hchronicle := (goes_through_lifetimes hlives (forall_enact faithful_agreeable _ _ _ _)).1
  have hlast : twoProcesses.2.1.last.generation = 2 := by decide +kernel
  have hclosed : twoProcesses.2.1.current.isSome = false := by decide +kernel
  change Chronicle _ twoProcesses.2.1.last.generation (record twoProcesses.1)
    twoProcesses.2.1.current.isSome at hchronicle
  rwa [hlast, hclosed] at hchronicle

/-- Behind every successful start comes the request that initializes the process. -/
def IntroducesAlways (c : SessionContext) (l : List Exchange) : Prop :=
  ∀ before after transport launch server,
    l = before ++ ⟨.startServer transport launch, .ok server⟩ :: after →
      ∃ id params answer rest, after = asked c server id "initialize" params answer :: rest

/-- What a session says when it is started in a folder without an address. -/
theorem talk_start_unaddressed {c : SessionContext}
    (hroot : FileUri.ofPath? c.options.root = none) :
    exchanges (record (enact agreeable (Deed.task c) [.start] (.fresh .stopped)
      (.error .rubyNotOnPath)).1) =
      [⟨.startServer c.transport (launchOf c ⟨0, 1⟩), .ok ⟨0, 1⟩⟩,
        ⟨.stopServer c.transport ⟨0, 1⟩, .ok ()⟩] := by
  simp [enact, record, entriesOf, Deed.event?, Deed.task, Session.start, startProcess,
    handshake, hroot, Task.trace, Task.run, Session.fresh, ServerId.next, agreeable, agreed,
    Task.get, Task.put, Task.change, Task.andThen, Task.ask, setState, launchOf, Call.isTransport,
    Call.addressee?]

/-- In a folder without an address a process is started and stopped again without having been
initialized. -/
theorem unaddressed_not_initialized :
    ¬ ∀ (c : SessionContext) (history : List (Episode Session Deed)) (s : Session),
      Lives (Deed.task c) (.fresh .stopped) history s →
        (∀ e ∈ history, ∀ x ∈ e.trace, x.Faithful) →
          IntroducesAlways c (exchanges (record history)) := by
  intro h
  have hroot : FileUri.ofPath? (plainContext "/a[b]").options.root = none := by decide +kernel
  have hlives := Lives.enact_fresh agreeable (Deed.task (plainContext "/a[b]")) [.start]
    (.fresh .stopped) (.error .rubyNotOnPath)
  have hall := h _ _ _ hlives (forall_enact faithful_agreeable _ _ _ _)
  rw [talk_start_unaddressed hroot] at hall
  obtain ⟨id, params, answer, rest, heq⟩ := hall [] _ _ _ _ rfl
  simp [asked] at heq

end RubySupervisor.Session
