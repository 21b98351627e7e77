import Mathlib.Data.List.Induction
import RubySupervisor.Transport.Local

/-!
# The streams of a channel

A loop serves the two streams of one server: it writes the messages of its queue, and takes in what
reading gives. Which of the two comes next is up to the schedule. As long as the loop goes on, it has
written the frames of the front of its queue and told observers the messages among the frames that it
has taken in. It ends at the end of the inbound stream, at an error of reading and at an error of
writing, and then tells observers a status, which is the last thing that they hear.
-/

namespace RubySupervisor

namespace Receipt

/-- The body that was received. -/
def body? : Receipt → Option (List UInt8)
  | body bytes => some bytes
  | _ => none

/-- The error of reading. -/
def error? : Receipt → Option ServerError
  | failed error => some error
  | _ => none

end Receipt

/-- What comes in from a server: bytes, behind which the stream ends or reading fails. -/
structure Inbound where
  bytes : List UInt8
  fault : Option ServerError

namespace Inbound

/-- The bodies of the frames that are read, and the error behind them if there is one. Where reading
fails, only what is known to be a frame by then is one. -/
def frames (i : Inbound) : List (List UInt8) × Option ServerError :=
  match i.fault with
  | none => Frame.readAll i.bytes
  | some error =>
    let (receipts, _) := Service.arrivals (i.bytes.length + 1) i.bytes
    (receipts.filterMap Receipt.body?, some ((receipts.findSome? Receipt.error?).getD error))

/-- The bodies of the frames that are read. -/
def bodies (i : Inbound) : List (List UInt8) := i.frames.1

/-- The error behind the frames, if there is one. -/
def failure (i : Inbound) : Option ServerError := i.frames.2

/-- What reading gives in the end: the orderly end of the stream, or an error. -/
def ending (i : Inbound) : Receipt := (i.failure.map Receipt.failed).getD .finished

/-- What reading gives, in order. -/
def receipts (i : Inbound) : List Receipt := i.bodies.map Receipt.body ++ [i.ending]

/-- As long as there are frames, reading gives the next one. -/
theorem drop_receipts (i : Inbound) {n : Nat} (h : n < i.bodies.length) :
    i.receipts.drop n = .body i.bodies[n] :: i.receipts.drop (n + 1) := by
  have hn : n < i.receipts.length := by simp [receipts]; omega
  rw [List.drop_eq_getElem_cons hn]
  simp [receipts, List.getElem_append_left, h]

/-- Behind the frames, reading gives the end. -/
theorem drop_receipts_length (i : Inbound) : i.receipts.drop i.bodies.length = [i.ending] := by
  simp [receipts]

/-- From a stream that has ended, reading gives what a service receives of it. -/
theorem receipts_of_ended (bytes : List UInt8) :
    receipts ⟨bytes, none⟩ = Service.remains bytes := rfl

/-- What arrives of a stream are bodies, with at most one error behind them. -/
theorem arrivals_eq (fuel : Nat) (s : List UInt8) :
    (Service.arrivals fuel s).1 =
      ((Service.arrivals fuel s).1.filterMap Receipt.body?).map Receipt.body ++
        ((Service.arrivals fuel s).1.findSome? Receipt.error?).toList.map Receipt.failed := by
  induction fuel generalizing s with
  | zero => rfl
  | succ fuel ih =>
    unfold Service.arrivals
    split
    · rfl
    · rfl
    · next body rest _ =>
      simpa [Receipt.body?, Receipt.error?, List.findSome?_cons] using ih rest

/-- From a stream that fails, reading gives what a service receives of one that goes on later. -/
theorem arrivals_prefix_receipts (bytes : List UInt8) (error : ServerError) :
    (Service.arrivals (bytes.length + 1) bytes).1 <+: receipts ⟨bytes, some error⟩ := by
  rw [arrivals_eq]
  refine (List.prefix_append_right_inj _).2 ?_
  cases h : (Service.arrivals (bytes.length + 1) bytes).1.findSome? Receipt.error? with
  | none => exact List.nil_prefix
  | some e => simp [ending, failure, frames, h]

end Inbound

/-- A turn of the loop, or of those who talk to it. -/
inductive Turn where
  | hand (o : Outbound)
  | close
  | write (fault : Option Nat)
  | receive
  deriving DecidableEq

namespace Turn

/-- The message that a turn hands over. -/
def handed? : Turn → Option Outbound
  | hand o => some o
  | _ => none

end Turn

namespace Channel

/-- The moves that turns are: a turn of receiving takes the next thing that reading gives. -/
def moves : List Turn → List Receipt → List Move
  | [], _ => []
  | .hand o :: turns, receipts => .hand o :: moves turns receipts
  | .close :: turns, receipts => .close :: moves turns receipts
  | .write fault :: turns, receipts => .write fault :: moves turns receipts
  | .receive :: turns, [] => moves turns []
  | .receive :: turns, receipt :: receipts => .receive receipt :: moves turns receipts

/-- The channel to a server after turns. -/
def loop (server : ServerId) (inbound : Inbound) (turns : List Turn) : Channel :=
  (open_ server).run (moves turns inbound.receipts)

/-- The outbound queue: the messages that are handed over before the queue is closed. -/
def outbound : List Turn → List Outbound
  | [] => []
  | .hand o :: turns => o :: outbound turns
  | .close :: _ => []
  | .write _ :: turns => outbound turns
  | .receive :: turns => outbound turns

/-- What observers are told of a body: the request or the notification that it holds. -/
def announcement? (server : ServerId) (body : List UInt8) : Option TransportEvent :=
  match Frame.decode? body with
  | some (.request r) => some (.message server (.request r))
  | some (.notification n) => some (.message server (.notification n))
  | _ => none

/-- The loop goes on: the front of the queue is written, the rest waits, and observers were told the
messages among the frames taken in. -/
structure Flows (server : ServerId) (inbound : Inbound) (turns : List Turn) (c : Channel) :
    Prop where
  running : c.ended = false
  server_eq : c.server = server
  closed_iff : c.closed = true ↔ Turn.close ∈ turns
  written_eq : ∃ sent, outbound turns = sent ++ c.queue ∧ c.written = sent.flatMap Outbound.frame
  received_le : turns.count .receive ≤ inbound.bodies.length
  events_eq : c.events =
    (inbound.bodies.take (turns.count .receive)).filterMap (announcement? server)

/-- The turns at which the loop ends, with the bytes that are still written and the status that
observers are told: behind the last frame, the end of the stream or an error of reading; and an error
of writing, which cuts the next message of the queue. -/
inductive Ends (inbound : Inbound) (turns : List Turn) (queue : List Outbound) :
    Turn → List UInt8 → TransportStatus → Prop where
  | finished (hall : turns.count .receive = inbound.bodies.length)
      (hclean : inbound.failure = none) : Ends inbound turns queue .receive [] .stopped
  | misread (error : ServerError) (hall : turns.count .receive = inbound.bodies.length)
      (hfailed : inbound.failure = some error) : Ends inbound turns queue .receive [] .crashed
  | miswritten (o : Outbound) (rest : List Outbound) (passed : Nat) (hqueue : queue = o :: rest) :
      Ends inbound turns queue (.write (some passed)) (o.frame.take passed) .crashed

/-- A channel ends with bytes and a status. -/
structure EndsWith (cut : List UInt8) (status : TransportStatus) (c c' : Channel) : Prop where
  ended : c'.ended = true
  written_eq : c'.written = c.written ++ cut
  events_eq : c'.events = c.events ++ [.status c.server status]

/-- One more turn makes the next move. -/
theorem moves_concat (turns : List Turn) (turn : Turn) (receipts : List Receipt) :
    moves (turns ++ [turn]) receipts =
      moves turns receipts ++ moves [turn] (receipts.drop (turns.count .receive)) := by
  induction turns generalizing receipts with
  | nil => rfl
  | cons first rest ih =>
    cases first with
    | receive => cases receipts <;> simp [moves, ih]
    | _ => simp [moves, ih]

/-- A loop makes one more turn. -/
theorem loop_concat (server : ServerId) (inbound : Inbound) (turns : List Turn) (turn : Turn) :
    loop server inbound (turns ++ [turn]) =
      (loop server inbound turns).run
        (moves [turn] (inbound.receipts.drop (turns.count .receive))) := by
  rw [loop, moves_concat]
  exact List.foldl_append

/-- One more message is in the queue unless it is closed. -/
theorem outbound_concat (turns : List Turn) (turn : Turn) :
    outbound (turns ++ [turn]) =
      outbound turns ++ if .close ∈ turns then [] else turn.handed?.toList := by
  induction turns with
  | nil => cases turn <;> rfl
  | cons first rest ih => cases first <;> simp [outbound, ih]

/-- Routing a body tells observers its message, and goes on otherwise as before. -/
theorem route_announces (c : Channel) (body : List UInt8) :
    (c.route body).ended = c.ended ∧ (c.route body).server = c.server ∧
      (c.route body).closed = c.closed ∧ (c.route body).queue = c.queue ∧
      (c.route body).written = c.written ∧
      (c.route body).events = c.events ++ (announcement? c.server body).toList := by
  unfold route announcement?
  cases Frame.decode? body with
  | none => simp
  | some message =>
    cases message with
    | response r => cases hlookup : c.pending.lookup r.id <;> simp [hlookup]
    | request r => simp [emit]
    | notification n => simp [emit]

/-- Writing the next message writes its frame, and goes on otherwise as before. -/
theorem writeNext_cons {c : Channel} {o : Outbound} {rest : List Outbound}
    (hqueue : c.queue = o :: rest) :
    (c.writeNext none).ended = c.ended ∧ (c.writeNext none).server = c.server ∧
      (c.writeNext none).closed = c.closed ∧ (c.writeNext none).queue = rest ∧
      (c.writeNext none).written = c.written ++ o.frame ∧
      (c.writeNext none).events = c.events := by
  cases o <;> simp [writeNext, hqueue, register, abandon]

/-- Where nothing waits, a turn of writing at most closes the input of the server. -/
theorem writeNext_nil {c : Channel} (hqueue : c.queue = []) (fault : Option Nat) :
    c.writeNext fault = { c with writing := c.writing && !c.closed } := by
  obtain ⟨server, queue, closed, writing, written, pending, resolved, events, ended⟩ := c
  obtain rfl : queue = [] := hqueue
  cases closed <;> simp [writeNext]

/-- A channel ends with the status that it is finished with. -/
theorem endsWith_finish (c : Channel) (status : TransportStatus) :
    EndsWith [] status c (c.finish status) :=
  ⟨rfl, (List.append_nil _).symm, rfl⟩

/-- A message whose writing fails ends the channel. -/
theorem endsWith_writeNext {c : Channel} {o : Outbound} {rest : List Outbound}
    (hqueue : c.queue = o :: rest) (passed : Nat) :
    EndsWith (o.frame.take passed) .crashed c (c.writeNext (some passed)) := by
  simp only [writeNext, hqueue]
  exact ⟨rfl, rfl, rfl⟩

namespace Flows

variable {server : ServerId} {inbound : Inbound} {turns : List Turn} {c : Channel}

/-- A turn that takes nothing in tells observers nothing. -/
theorem of_kept (h : Flows server inbound turns c) {turn : Turn} {c' : Channel}
    (hturn : turn ≠ .receive) (hended : c'.ended = c.ended) (hserver : c'.server = c.server)
    (hevents : c'.events = c.events)
    (hclosed : c'.closed = true ↔ Turn.close ∈ turns ++ [turn])
    (hwritten : ∃ sent, outbound (turns ++ [turn]) = sent ++ c'.queue ∧
      c'.written = sent.flatMap Outbound.frame) :
    Flows server inbound (turns ++ [turn]) c' := by
  have hcount : (turns ++ [turn]).count .receive = turns.count .receive := by
    simp [List.count_append, hturn]
  exact {
    running := hended.trans h.running
    server_eq := hserver.trans h.server_eq
    closed_iff := hclosed
    written_eq := hwritten
    received_le := hcount ▸ h.received_le
    events_eq := by rw [hevents, hcount, h.events_eq] }

/-- A message that is handed over waits, unless the queue is closed. -/
theorem hand (h : Flows server inbound turns c) (o : Outbound) :
    Flows server inbound (turns ++ [.hand o]) (c.hand o) := by
  obtain ⟨sent, houtbound, hwritten⟩ := h.written_eq
  by_cases hclosed : Turn.close ∈ turns
  · have hhand : c.hand o = c.abandon o.ticket?.toList := by
      simp [Channel.hand, h.closed_iff.2 hclosed]
    rw [hhand]
    refine h.of_kept (by simp) rfl rfl rfl (by simpa [abandon] using h.closed_iff) ⟨sent, ?_, hwritten⟩
    simp [outbound_concat, hclosed, houtbound, abandon]
  · have hopen : c.closed = false := by simpa [hclosed] using h.closed_iff
    have hhand : c.hand o = { c with queue := c.queue ++ [o] } := by
      simp [Channel.hand, h.running, hopen]
    rw [hhand]
    refine h.of_kept (by simp) rfl rfl rfl (by simpa using h.closed_iff) ⟨sent, ?_, hwritten⟩
    simp [outbound_concat, hclosed, houtbound, Turn.handed?]

/-- The queue may be closed; the loop goes on with what is in it. -/
theorem close (h : Flows server inbound turns c) :
    Flows server inbound (turns ++ [.close]) c.close := by
  obtain ⟨sent, houtbound, hwritten⟩ := h.written_eq
  refine h.of_kept (by simp) rfl rfl rfl (by simp [Channel.close]) ⟨sent, ?_, hwritten⟩
  simp [outbound_concat, Turn.handed?, houtbound, Channel.close]

/-- The next message of the queue is written, if there is one. -/
theorem write (h : Flows server inbound turns c) {fault : Option Nat}
    (hfault : c.queue = [] ∨ fault = none) :
    Flows server inbound (turns ++ [.write fault]) (c.writeNext fault) := by
  obtain ⟨sent, houtbound, hwritten⟩ := h.written_eq
  have hsame : outbound (turns ++ [.write fault]) = outbound turns := by
    simp [outbound_concat, Turn.handed?]
  cases hqueue : c.queue with
  | nil =>
    rw [writeNext_nil hqueue fault]
    exact h.of_kept (by simp) rfl rfl rfl (by simpa using h.closed_iff)
      ⟨sent, hsame.trans houtbound, hwritten⟩
  | cons o rest =>
    obtain rfl : fault = none := by simpa [hqueue] using hfault
    obtain ⟨hended, hserver, hclosed, hrest, hmore, hevents⟩ := writeNext_cons hqueue
    refine h.of_kept (by simp) hended hserver hevents (by simpa [hclosed] using h.closed_iff)
      ⟨sent ++ [o], ?_, ?_⟩
    · simp [hsame, houtbound, hqueue, hrest]
    · simp [hmore, hwritten]

/-- The next frame is taken in. -/
theorem receive (h : Flows server inbound turns c)
    (hmore : turns.count .receive < inbound.bodies.length) :
    Flows server inbound (turns ++ [.receive]) (c.route inbound.bodies[turns.count .receive]) := by
  obtain ⟨sent, houtbound, hwritten⟩ := h.written_eq
  have hcount : (turns ++ [Turn.receive]).count .receive = turns.count .receive + 1 := by simp
  have hsame : outbound (turns ++ [.receive]) = outbound turns := by
    simp [outbound_concat, Turn.handed?]
  obtain ⟨hended, hserver, hclosed, hqueue, hkept, hevents⟩ :=
    c.route_announces inbound.bodies[turns.count .receive]
  exact {
    running := hended.trans h.running
    server_eq := hserver.trans h.server_eq
    closed_iff := by simpa [hclosed] using h.closed_iff
    written_eq := ⟨sent, by rw [hsame, houtbound, hqueue], hkept.trans hwritten⟩
    received_le := hcount ▸ hmore
    events_eq := by
      rw [hevents, hcount, h.events_eq, h.server_eq, List.take_succ_eq_append_getElem hmore,
        List.filterMap_append]
      cases hbody : announcement? server inbound.bodies[turns.count .receive] <;> simp [hbody] }

/-- At each turn the loop goes on, or this is a turn at which it ends, and it does. -/
theorem turn_cases (h : Flows server inbound turns c) (turn : Turn) :
    let c' := c.run (moves [turn] (inbound.receipts.drop (turns.count .receive)))
    (Flows server inbound (turns ++ [turn]) c' ∧
      ∀ cut status, ¬ Ends inbound turns c.queue turn cut status) ∨
    ∃ cut status, Ends inbound turns c.queue turn cut status ∧ EndsWith cut status c c' := by
  cases turn with
  | hand o => exact .inl ⟨h.hand o, fun _ _ hends => by cases hends⟩
  | close => exact .inl ⟨h.close, fun _ _ hends => by cases hends⟩
  | write fault =>
    have hstep : c.run [.write fault] = c.writeNext fault := by simp [run, step, h.running]
    simp only [moves, hstep]
    cases hqueue : c.queue with
    | nil => exact .inl ⟨h.write (.inl hqueue), fun _ _ hends => by cases hends; contradiction⟩
    | cons o rest =>
      cases fault with
      | none => exact .inl ⟨h.write (.inr rfl), fun _ _ hends => by cases hends⟩
      | some passed =>
        exact .inr ⟨_, _, .miswritten o rest passed rfl, endsWith_writeNext hqueue passed⟩
  | receive =>
    have hstep (receipt : Receipt) : c.run [.receive receipt] = c.receive receipt := by
      simp [run, step, h.running]
    -- something is left to be received, or the stream ends here, well or not
    rcases Nat.lt_or_eq_of_le h.received_le with hmore | hall
    · rw [inbound.drop_receipts hmore]
      simp only [moves, hstep]
      exact .inl ⟨h.receive hmore, fun _ _ hends => by cases hends <;> omega⟩
    · rw [hall, inbound.drop_receipts_length]
      simp only [moves, hstep, Inbound.ending]
      cases hfailure : inbound.failure with
      | none => exact .inr ⟨_, _, .finished hall hfailure, endsWith_finish c .stopped⟩
      | some error => exact .inr ⟨_, _, .misread error hall hfailure, endsWith_finish c .crashed⟩

end Flows

/-- A loop that has ended reads, writes and tells nothing any more. -/
theorem run_of_ended {c : Channel} (h : c.ended = true) (moves : List Move) :
    (c.run moves).ended = true ∧ (c.run moves).written = c.written ∧
      (c.run moves).events = c.events := by
  induction moves generalizing c with
  | nil => exact ⟨h, rfl, rfl⟩
  | cons move rest ih =>
    have hstep : (c.step move).ended = true ∧ (c.step move).written = c.written ∧
        (c.step move).events = c.events := by
      cases move <;> simp [step, hand, Channel.close, abandon, h]
    obtain ⟨hended, hwritten, hevents⟩ := ih hstep.1
    exact ⟨hended, hwritten.trans hstep.2.1, hevents.trans hstep.2.2⟩

/-- **Streams.** Under every schedule, for every queue and every inbound stream, either the loop goes
on and met no turn at which it ends, or there was a first such turn: up to it the loop went on, at it
the last bytes were written and observers were told the status, and nothing came after that. -/
theorem loop_streams (server : ServerId) (inbound : Inbound) (turns : List Turn) :
    (Flows server inbound turns (loop server inbound turns) ∧
      ∀ before turn cut status, before ++ [turn] <+: turns →
        ¬ Ends inbound before (loop server inbound before).queue turn cut status) ∨
    ∃ before turn cut status, before ++ [turn] <+: turns ∧
      Flows server inbound before (loop server inbound before) ∧
      Ends inbound before (loop server inbound before).queue turn cut status ∧
      EndsWith cut status (loop server inbound before) (loop server inbound turns) := by
  induction turns using List.reverseRecOn with
  | nil =>
    have hflows : Flows server inbound [] (loop server inbound []) :=
      ⟨rfl, rfl, by simp [loop, moves, run, open_], ⟨[], rfl, rfl⟩, Nat.zero_le _, rfl⟩
    exact .inl ⟨hflows, by simp⟩
  | append_singleton turns turn ih =>
    rw [loop_concat]
    rcases ih with ⟨hflows, hnone⟩ | ⟨before, first, cut, status, hbefore, hflows, hends, hend⟩
    · rcases hflows.turn_cases turn with ⟨hgoes, hnot⟩ | ⟨cut, status, hends, hend⟩
      · refine .inl ⟨hgoes, fun before first cut status hprefix => ?_⟩
        rcases List.prefix_concat_iff.1 hprefix with hall | hprefix
        · obtain ⟨rfl, hturn⟩ := List.append_inj' hall rfl
          cases hturn
          exact hnot cut status
        · exact hnone before first cut status hprefix
      · exact .inr ⟨turns, turn, cut, status, List.prefix_refl _, hflows, hends, hend⟩
    -- once it has ended, further turns do nothing
    · obtain ⟨hended, hwritten, hevents⟩ := run_of_ended hend.ended
        (moves [turn] (inbound.receipts.drop (turns.count .receive)))
      exact .inr ⟨before, first, cut, status, hbefore.trans (List.prefix_append _ _), hflows, hends,
        hended, hwritten.trans hend.written_eq, hevents.trans hend.events_eq⟩

end Channel

end RubySupervisor
