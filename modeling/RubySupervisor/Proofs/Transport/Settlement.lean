import Mathlib.Data.List.Forall2
import Mathlib.Data.List.Perm.Lattice
import RubySupervisor.Transport.Channel

/-!
# Settlement of requests

Every request that is handed to a channel is open until it is resolved, and it is resolved once: by
a response of its own number, or by the failure that the service has stopped. The order of the moves
does not matter. This file accounts for the requests of a channel move by move; that the channel
ends at all is an assumption of the main statement only.
-/

namespace RubySupervisor

/-- The ticket and the number of a request on its way out. -/
def Outbound.key? : Outbound → Option (Nat × RequestId)
  | request ticket r => some (ticket, r.id)
  | _ => none

namespace Channel

/-- The requests that moves hand over, in order, by ticket and number. -/
def requestsOf (moves : List Move) : List (Nat × RequestId) :=
  moves.filterMap fun
    | .hand o => o.key?
    | _ => none

/-- The response in a body, if it holds one. -/
def responseIn? (body : List UInt8) : Option Response :=
  match Frame.decode? body with
  | some (.response r) => some r
  | _ => none

/-- The responses that moves receive, in order. -/
def responsesOf (moves : List Move) : List Response :=
  moves.filterMap fun
    | .receive (.body bytes) => responseIn? bytes
    | _ => none

/-- The responses among the resolutions of a channel, in order. -/
def answers (c : Channel) : List Response := c.resolved.filterMap (·.2.toOption)

/-- What may become of a request: a response of its number, or the end of the service. -/
def Settles (request : Nat × RequestId) (entry : Nat × Except ServerError Response) : Prop :=
  entry.1 = request.1 ∧
    match entry.2 with
    | .ok r => r.id = request.2
    | .error e => e = .serviceStopped

/-- The requests that a channel still has to resolve: the written ones, then the queued ones. -/
def openRequests (c : Channel) : List (Nat × RequestId) :=
  c.pending.map Prod.swap ++ c.queue.filterMap Outbound.key?

/-- The requests so far are the settled ones, in the order of the resolutions, and the open ones. -/
def Accounted (c : Channel) (requests : List (Nat × RequestId)) : Prop :=
  ∃ settled, (settled ++ c.openRequests).Perm requests ∧
    List.Forall₂ Settles settled c.resolved

/-- No two pending requests have the same number, and a channel that has ended has nothing open. -/
structure Orderly (c : Channel) : Prop where
  distinct : (c.pending.map Prod.fst).Nodup
  emptied : c.ended = true → c.pending = [] ∧ c.queue = []

/-- The ticket of an outbound message is that of its key. -/
theorem ticket?_eq_key? (o : Outbound) : o.ticket? = o.key?.map Prod.fst := by
  cases o <;> rfl

/-- The tickets that a channel abandons at its end are those of its open requests. -/
theorem tickets_openRequests (c : Channel) :
    c.openRequests.map Prod.fst = c.pending.map Prod.snd ++ c.queue.filterMap Outbound.ticket? := by
  have hqueue : (c.queue.filterMap Outbound.key?).map Prod.fst =
      c.queue.filterMap Outbound.ticket? := by
    rw [List.map_filterMap]
    exact congrArg (List.filterMap · c.queue) (funext fun o => (ticket?_eq_key? o).symm)
  simp [openRequests, hqueue, Function.comp_def]

/-- Requests are settled by being abandoned. -/
theorem settles_abandoned (keys : List (Nat × RequestId)) :
    List.Forall₂ Settles keys ((keys.map Prod.fst).map fun ticket =>
      (ticket, (.error .serviceStopped : Except ServerError Response))) := by
  induction keys with
  | nil => exact .nil
  | cons key rest ih => exact .cons ⟨rfl, rfl⟩ ih

/-- Abandoning a part of the requests that are not settled yet accounts for that part. -/
theorem accounted_abandon {c : Channel} {settled keys requests : List (Nat × RequestId)}
    (hall : (settled ++ keys ++ c.openRequests).Perm requests)
    (hsettled : List.Forall₂ Settles settled c.resolved) :
    (c.abandon (keys.map Prod.fst)).Accounted requests :=
  ⟨settled ++ keys, hall, List.rel_append hsettled (settles_abandoned keys)⟩

/-- Ending a channel accounts for everything that is open. -/
theorem Accounted.finish {c : Channel} {requests : List (Nat × RequestId)}
    (h : c.Accounted requests) (status : TransportStatus) :
    (c.finish status).Accounted requests := by
  obtain ⟨settled, hall, hsettled⟩ := h
  refine ⟨settled ++ c.openRequests, ?_, ?_⟩
  · simpa [Channel.finish, openRequests] using hall
  · have hopen := settles_abandoned c.openRequests
    rw [tickets_openRequests] at hopen
    exact List.rel_append hsettled hopen

/-- A message that is handed over is queued, or abandoned at once. -/
theorem Accounted.hand {c : Channel} {requests : List (Nat × RequestId)}
    (h : c.Accounted requests) (o : Outbound) :
    (c.hand o).Accounted (requests ++ o.key?.toList) := by
  obtain ⟨settled, hall, hsettled⟩ := h
  have hnew := hall.append_right o.key?.toList
  unfold Channel.hand
  split
  · have htickets : o.ticket?.toList = o.key?.toList.map Prod.fst := by
      rw [ticket?_eq_key?]
      cases o.key? <;> rfl
    have hsplit : (settled ++ o.key?.toList ++ c.openRequests).Perm
        (settled ++ c.openRequests ++ o.key?.toList) := by
      simpa only [List.append_assoc] using List.perm_append_comm.append_left settled
    rw [htickets]
    exact accounted_abandon (hsplit.trans hnew) hsettled
  · refine ⟨settled, .trans (.of_eq ?_) hnew, hsettled⟩
    cases ho : o.key? <;> simp [openRequests, ho]

/-- A written request becomes pending, and an older one of its number is abandoned. -/
theorem accounted_register {c : Channel} {settled requests : List (Nat × RequestId)}
    {id : RequestId} {ticket : Nat}
    (hall : (settled ++ (ticket, id) :: c.openRequests).Perm requests)
    (hsettled : List.Forall₂ Settles settled c.resolved) :
    (c.register id ticket).Accounted requests := by
  -- the pending requests are split by whether they have the number that is written
  let same := c.pending.filter (fun entry => entry.1 = id)
  let others := c.pending.filter (fun entry => entry.1 ≠ id)
  have hsplit : (same ++ others).Perm c.pending := by
    simpa [same, others] using
      List.filter_append_perm (fun entry => decide (entry.1 = id)) c.pending
  refine ⟨settled ++ same.map Prod.swap, .trans ?_ hall, ?_⟩
  · have hpending := hsplit.map Prod.swap
    rw [List.map_append] at hpending
    have hopen : (c.register id ticket).openRequests =
        others.map Prod.swap ++ (ticket, id) :: c.queue.filterMap Outbound.key? := by
      simp [openRequests, register, abandon, others]
    rw [hopen, List.append_assoc]
    refine List.Perm.append_left settled ?_
    rw [← List.append_assoc]
    refine List.perm_middle.trans (.cons _ ?_)
    exact hpending.append_right _
  · have hsame := settles_abandoned (same.map Prod.swap)
    have htickets : (same.map Prod.swap).map Prod.fst = same.map Prod.snd := by simp
    rw [htickets] at hsame
    exact List.rel_append hsettled hsame

/-- Writing the next message accounts for the same requests as before. -/
theorem Accounted.writeNext {c : Channel} {requests : List (Nat × RequestId)}
    (h : c.Accounted requests) (fault : Option Nat) :
    (c.writeNext fault).Accounted requests := by
  obtain ⟨settled, hall, hsettled⟩ := h
  cases hqueue : c.queue with
  | nil =>
    simp only [Channel.writeNext, hqueue]
    have hopen : c.openRequests = c.pending.map Prod.swap := by simp [openRequests, hqueue]
    rw [hopen] at hall
    split
    · exact ⟨settled, by simpa [openRequests] using hall, hsettled⟩
    · exact ⟨settled, by simpa [openRequests, hqueue] using hall, hsettled⟩
  | cons out rest =>
    -- the message that is taken from the queue stands between what is settled and what is open
    have hkey : (settled ++ out.key?.toList ++
        (c.pending.map Prod.swap ++ rest.filterMap Outbound.key?)).Perm requests := by
      refine .trans ?_ hall
      rw [List.append_assoc]
      refine List.Perm.append_left settled ?_
      cases hout : out.key? <;> simp [openRequests, hqueue, hout, List.perm_middle.symm]
    simp only [Channel.writeNext, hqueue]
    cases fault with
    | some passed =>
      have htickets : out.ticket?.toList = out.key?.toList.map Prod.fst := by
        rw [ticket?_eq_key?]
        cases out.key? <;> rfl
      simp only [htickets]
      let cut : Channel :=
        { c with queue := rest, written := c.written ++ out.frame.take passed }
      have hcut : (settled ++ out.key?.toList ++ cut.openRequests).Perm requests := hkey
      have hkept : List.Forall₂ Settles settled cut.resolved := hsettled
      exact (accounted_abandon hcut hkept).finish .crashed
    | none =>
      cases out with
      | request ticket r =>
        let sent : Channel :=
          { c with queue := rest, written := c.written ++ (Outbound.request ticket r).frame }
        have hsent : (settled ++ (ticket, r.id) :: sent.openRequests).Perm requests := by
          simpa [Outbound.key?, openRequests, sent] using hkey
        have hkept : List.Forall₂ Settles settled sent.resolved := hsettled
        exact accounted_register hsent hkept
      | notification n =>
        exact ⟨settled, by simpa [Outbound.key?, openRequests] using hkey, hsettled⟩
      | reply r => exact ⟨settled, by simpa [Outbound.key?, openRequests] using hkey, hsettled⟩

/-- Routing a body that is no response, or a response that nobody waits for, leaves every request
as it was; a response that is waited for settles the one pending request of its number. -/
theorem route_cases (c : Channel) (body : List UInt8) :
    (c.pending = (c.route body).pending ∧ c.queue = (c.route body).queue ∧
      c.resolved = (c.route body).resolved) ∨
    ∃ r ticket, responseIn? body = some r ∧ c.pending.lookup r.id = some ticket ∧
      c.route body =
        { c with
          pending := c.pending.filter (fun entry => entry.1 ≠ r.id)
          resolved := c.resolved ++ [(ticket, .ok r)] } := by
  unfold Channel.route
  split
  · exact .inl ⟨rfl, rfl, rfl⟩
  · next r hdecode =>
    cases hlookup : c.pending.lookup r.id with
    | none => exact .inl ⟨rfl, rfl, rfl⟩
    | some ticket => exact .inr ⟨r, ticket, by simp [responseIn?, hdecode], hlookup, rfl⟩
  · exact .inl ⟨rfl, rfl, rfl⟩

/-- A response whose number is not pending changes nothing at all. -/
theorem route_stray {c : Channel} {body : List UInt8} {r : Response}
    (hresponse : responseIn? body = some r) (hlookup : c.pending.lookup r.id = none) :
    c.route body = c := by
  unfold responseIn? at hresponse
  split at hresponse
  · next r' hdecode =>
    cases hresponse
    simp only [Channel.route, hdecode, hlookup]
  · cases hresponse

/-- Where no two entries have the same key, the entry that is looked up is the only one of its
key. -/
theorem perm_cons_filter_of_lookup {entries : List (RequestId × Nat)} {id : RequestId}
    {ticket : Nat} (hdistinct : (entries.map Prod.fst).Nodup)
    (hlookup : entries.lookup id = some ticket) :
    ((id, ticket) :: entries.filter (fun entry => entry.1 ≠ id)).Perm entries := by
  induction entries with
  | nil => simp at hlookup
  | cons entry rest ih =>
    obtain ⟨other, value⟩ := entry
    obtain ⟨hfresh, hrest⟩ := List.nodup_cons.mp hdistinct
    by_cases hid : other = id
    · subst hid
      have hvalue : value = ticket := by simpa [List.lookup_cons] using hlookup
      have hothers : rest.filter (fun entry => entry.1 ≠ other) = rest := by
        refine List.filter_eq_self.mpr fun entry hentry => decide_eq_true fun heq => hfresh ?_
        exact List.mem_map.mpr ⟨entry, hentry, heq⟩
      have hfilter : ((other, value) :: rest).filter (fun entry => entry.1 ≠ other) = rest := by
        rw [List.filter_cons_of_neg (by simp), hothers]
      rw [hfilter, hvalue]
    · have hother : rest.lookup id = some ticket := by
        simpa [List.lookup_cons, beq_false_of_ne (Ne.symm hid)] using hlookup
      rw [List.filter_cons_of_pos (by simpa using hid)]
      exact (List.Perm.swap _ _ _).trans (.cons _ (ih hrest hother))

/-- Receiving anything accounts for the same requests as before. -/
theorem Accounted.receive {c : Channel} {requests : List (Nat × RequestId)}
    (h : c.Accounted requests) (horderly : c.Orderly) (receipt : Receipt) :
    (c.receive receipt).Accounted requests := by
  cases receipt with
  | finished => exact h.finish .stopped
  | failed error => exact h.finish .crashed
  | body bytes =>
    obtain ⟨settled, hall, hsettled⟩ := h
    rcases c.route_cases bytes with ⟨hpending, hqueue, hresolved⟩ | ⟨r, ticket, -, hlookup, hroute⟩
    · refine ⟨settled, ?_, by rwa [Channel.receive, ← hresolved]⟩
      rwa [openRequests, Channel.receive, ← hpending, ← hqueue]
    · have hone := perm_cons_filter_of_lookup horderly.distinct hlookup
      have hanswer : Settles (ticket, r.id) (ticket, .ok r) := ⟨rfl, rfl⟩
      rw [Channel.receive, hroute]
      refine ⟨settled ++ [(ticket, r.id)], .trans ?_ hall,
        List.rel_append hsettled (.cons hanswer .nil)⟩
      rw [List.append_assoc]
      exact List.Perm.append_left settled ((hone.map Prod.swap).append_right _)

/-- A new channel is orderly. -/
theorem orderly_open (server : ServerId) : (open_ server).Orderly :=
  ⟨.nil, fun h => by cases h⟩

/-- A channel that has just ended is orderly. -/
theorem orderly_finish (c : Channel) (status : TransportStatus) : (c.finish status).Orderly :=
  ⟨.nil, fun _ => ⟨rfl, rfl⟩⟩

/-- Leaving out pending requests keeps their numbers apart. -/
theorem nodup_filter_pending {c : Channel} (h : c.Orderly) (keep : RequestId × Nat → Bool) :
    ((c.pending.filter keep).map Prod.fst).Nodup :=
  h.distinct.sublist (List.filter_sublist.map Prod.fst)

/-- A move keeps a channel orderly. -/
theorem Orderly.step {c : Channel} (h : c.Orderly) (move : Move) : (c.step move).Orderly := by
  cases move with
  | hand o =>
    simp only [Channel.step, hand]
    split
    · exact ⟨h.distinct, h.emptied⟩
    · next hopen => exact ⟨h.distinct, fun hended => by simp_all⟩
  | close => exact ⟨h.distinct, h.emptied⟩
  | write fault =>
    simp only [Channel.step]
    split
    · exact h
    next hrunning =>
      unfold writeNext
      split
      · split
        · exact ⟨h.distinct, fun hended => absurd hended hrunning⟩
        · exact h
      · split
        · exact orderly_finish _ _
        · split
          · next r _ =>
            -- older requests of the number are dropped before it is pending again
            refine ⟨?_, fun hended => absurd hended hrunning⟩
            simp only [register, List.map_append, List.map_cons, List.map_nil]
            refine List.Nodup.append (nodup_filter_pending h _) (List.nodup_singleton _) ?_
            simp
          · exact ⟨h.distinct, fun hended => absurd hended hrunning⟩
  | receive receipt =>
    simp only [Channel.step]
    split
    · exact h
    next hrunning =>
      cases receipt with
      | finished => exact orderly_finish _ _
      | failed error => exact orderly_finish _ _
      | body bytes =>
        simp only [receive, route]
        split
        · exact h
        · split
          · exact h
          · exact ⟨nodup_filter_pending h _, fun hended => absurd hended hrunning⟩
        · exact ⟨h.distinct, h.emptied⟩

/-- A move accounts for the requests so far together with the one that it hands over. -/
theorem Accounted.step {c : Channel} {requests : List (Nat × RequestId)}
    (h : c.Accounted requests) (horderly : c.Orderly) (move : Move) :
    (c.step move).Accounted (requests ++ requestsOf [move]) := by
  cases move with
  | hand o => cases ho : o.key? <;> simpa [Channel.step, requestsOf, ho] using h.hand o
  | close =>
    rw [show requestsOf [.close] = [] from rfl, List.append_nil]
    exact h
  | write fault =>
    simp only [Channel.step, requestsOf, List.filterMap_cons, List.filterMap_nil, List.append_nil]
    split
    · exact h
    · exact h.writeNext fault
  | receive receipt =>
    simp only [Channel.step, requestsOf, List.filterMap_cons, List.filterMap_nil, List.append_nil]
    split
    · exact h
    · exact h.receive horderly receipt

/-- Abandoning requests gives no answers. -/
@[simp] theorem answers_abandon (c : Channel) (tickets : List Nat) :
    (c.abandon tickets).answers = c.answers := by
  simp [answers, abandon, Except.toOption]

/-- Ending a channel gives no answers. -/
@[simp] theorem answers_finish (c : Channel) (status : TransportStatus) :
    (c.finish status).answers = c.answers := by
  simp [answers, finish, abandon, emit, Except.toOption]

/-- Writing gives no answers. -/
@[simp] theorem answers_writeNext (c : Channel) (fault : Option Nat) :
    (c.writeNext fault).answers = c.answers := by
  unfold writeNext
  split
  · split <;> rfl
  · split
    · rw [answers_finish, answers_abandon]
      rfl
    · split
      · exact answers_abandon _ _
      · rfl

/-- A move adds at most the response that it receives to the answers. -/
theorem answers_step (c : Channel) (move : Move) :
    ∃ new, new.Sublist (responsesOf [move]) ∧ (c.step move).answers = c.answers ++ new := by
  have hnone {d : Channel} (h : d.answers = c.answers) :
      ∃ new, new.Sublist (responsesOf [move]) ∧ d.answers = c.answers ++ new :=
    ⟨[], List.nil_sublist _, by rw [h, List.append_nil]⟩
  cases move with
  | hand o =>
    refine hnone ?_
    simp only [step, hand]
    split
    · exact answers_abandon _ _
    · rfl
  | close => exact hnone rfl
  | write fault =>
    refine hnone ?_
    simp only [step]
    split
    · rfl
    · exact answers_writeNext c fault
  | receive receipt =>
    simp only [step]
    split
    · exact hnone rfl
    · cases receipt with
      | finished => exact hnone (answers_finish c .stopped)
      | failed error => exact hnone (answers_finish c .crashed)
      | body bytes =>
        -- a body that is no response to a pending request answers nothing
        rcases c.route_cases bytes with ⟨-, -, hresolved⟩ | ⟨r, ticket, hresponse, -, hroute⟩
        · exact hnone (by rw [answers, receive, ← hresolved, answers])
        · refine ⟨[r], by simp [responsesOf, hresponse], ?_⟩
          simp [receive, hroute, answers, Except.toOption]

/-- What moves hand over is what their parts hand over. -/
theorem requestsOf_append (before after : List Move) :
    requestsOf (before ++ after) = requestsOf before ++ requestsOf after :=
  List.filterMap_append

/-- What moves receive is what their parts receive. -/
theorem responsesOf_append (before after : List Move) :
    responsesOf (before ++ after) = responsesOf before ++ responsesOf after :=
  List.filterMap_append

/-- Moves keep a channel orderly. -/
theorem Orderly.run {c : Channel} (h : c.Orderly) (moves : List Move) : (c.run moves).Orderly := by
  induction moves generalizing c with
  | nil => exact h
  | cons move rest ih => exact ih (h.step move)

/-- Moves account for the requests so far together with those that they hand over. -/
theorem Accounted.run {c : Channel} {requests : List (Nat × RequestId)}
    (h : c.Accounted requests) (horderly : c.Orderly) (moves : List Move) :
    (c.run moves).Accounted (requests ++ requestsOf moves) := by
  induction moves generalizing c requests with
  | nil =>
    rw [show requestsOf [] = [] from rfl, List.append_nil]
    exact h
  | cons move rest ih =>
    have hrest := ih (h.step horderly move) (horderly.step move)
    rwa [List.append_assoc, ← requestsOf_append] at hrest

/-- The answers of a channel are among the responses that it received, each of these once. -/
theorem answers_run (c : Channel) (moves : List Move) :
    ∃ new, new.Sublist (responsesOf moves) ∧ (c.run moves).answers = c.answers ++ new := by
  induction moves generalizing c with
  | nil => exact ⟨[], List.nil_sublist _, (List.append_nil _).symm⟩
  | cons move rest ih =>
    obtain ⟨first, hfirst, hstep⟩ := c.answers_step move
    obtain ⟨others, hothers, hrun⟩ := ih (c.step move)
    refine ⟨first ++ others, ?_, ?_⟩
    · have happend : responsesOf (move :: rest) = responsesOf [move] ++ responsesOf rest :=
        responsesOf_append [move] rest
      rw [happend]
      exact hfirst.append hothers
    · rw [← List.append_assoc, ← hstep]
      exact hrun

/-- **Settlement.** When a channel has ended, after any moves in any order, the requests that were
handed to it are exactly the settled ones: each is resolved once, by a response of its own number or
by the end of the service. Every answer is a received response of its own, and at no time does a
response whose number is not pending change the channel. -/
theorem resolved_exactly_once (server : ServerId) (moves : List Move)
    (hended : ((open_ server).run moves).ended = true) :
    (∃ requests, requests.Perm (requestsOf moves) ∧
      List.Forall₂ Settles requests ((open_ server).run moves).resolved) ∧
    ((open_ server).run moves).answers.Sublist (responsesOf moves) ∧
    ∀ before body r, responseIn? body = some r →
      ((open_ server).run before).pending.lookup r.id = none →
      ((open_ server).run before).step (.receive (.body body)) = (open_ server).run before := by
  have horderly := orderly_open server
  have hstart : (open_ server).Accounted [] := ⟨[], .refl _, .nil⟩
  refine ⟨?_, ?_, ?_⟩
  · obtain ⟨requests, hall, hsettled⟩ := hstart.run horderly moves
    obtain ⟨hpending, hqueue⟩ := (horderly.run moves).emptied hended
    refine ⟨requests, ?_, hsettled⟩
    simpa [openRequests, hpending, hqueue] using hall
  · obtain ⟨new, hnew, hanswers⟩ := answers_run (open_ server) moves
    rw [hanswers]
    simpa [answers, open_] using hnew
  · intro before body r hresponse hlookup
    simp only [step, receive]
    split
    · rfl
    · exact route_stray hresponse hlookup

/-- Moves with two requests of one number, an answer to the later one, the same answer again, and
the end of the stream before the last request is written. -/
def crossedMoves : List Move :=
  let shutdown (n : Int) : Request := ⟨.number n, "shutdown", .null⟩
  let answer : List UInt8 := Text.utf8 "\x7b\"id\":1,\"result\":null\x7d"
  [.hand (.request 0 (shutdown 1)), .write none, .hand (.request 1 (shutdown 1)), .write none,
    .receive (.body answer), .hand (.request 2 (shutdown 2)), .receive (.body answer),
    .receive .finished]

/-- The crossed moves end the channel: the displaced and the unwritten request are settled by the
end of the service, and the repeated answer settles nothing. -/
theorem crossedMoves_settled :
    ((open_ ⟨0, 1⟩).run crossedMoves).ended = true ∧
    ((open_ ⟨0, 1⟩).run crossedMoves).resolved = [(0, .error .serviceStopped),
      (1, .ok ⟨.number 1, none, none⟩), (2, .error .serviceStopped)] ∧
    ∃ requests, requests.Perm (requestsOf crossedMoves) ∧
      List.Forall₂ Settles requests ((open_ ⟨0, 1⟩).run crossedMoves).resolved :=
  ⟨by decide +kernel, by decide +kernel,
    (resolved_exactly_once ⟨0, 1⟩ crossedMoves (by decide +kernel)).1⟩

end Channel

end RubySupervisor
