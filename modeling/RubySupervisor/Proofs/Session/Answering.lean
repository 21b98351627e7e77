import Mathlib.Data.List.Basic
import RubySupervisor.Proofs.Session.History

/-!
# Answers to the live process

A server may ask its client something while the client is told what to do. Every request of the
process that a session holds is answered once, as it comes, and nothing else is: what the transport
says about other processes, and what asks for nothing, leaves the session as it was.
-/

namespace RubySupervisor

/-- What a call answers, if it is a reply: the process on its transport, the request and the
answer. -/
def Call.reply? : Call → Option ((Nat × ServerId) × RequestId × Except ResponseError Json)
  | reply transport server id answer => some ((transport, server), id, answer)
  | _ => none

/-- The replies of a trace, in order. -/
def replies (l : List Exchange) :
    List ((Nat × ServerId) × RequestId × Except ResponseError Json) :=
  l.filterMap (·.call.reply?)

@[simp] theorem replies_nil : replies [] = [] := rfl

@[simp] theorem replies_cons (x : Exchange) (l : List Exchange) :
    replies (x :: l) = x.call.reply?.toList ++ replies l := by
  cases h : x.call.reply? <;> simp [replies, h]

@[simp] theorem replies_append (l l' : List Exchange) :
    replies (l ++ l') = replies l ++ replies l' := List.filterMap_append

/-- Replies go to a transport. -/
@[simp] theorem replies_talk (l : List Exchange) : replies (talk l) = replies l := by
  induction l with
  | nil => rfl
  | cons x l ih =>
    obtain ⟨call, answer⟩ := x
    cases call <;> simp [Call.isTransport, Call.addressee?, Call.reply?, ih]

namespace Reply

/-- The number of configuration items that are asked for; none where no array of them is given. -/
def itemCount (params : Json) : Nat :=
  match params.member? "items" with
  | some (.array items) => items.length
  | _ => 0

/-- The methods that have an answer. -/
def listed : List String :=
  ["workspace/configuration", "workspace/workspaceFolders"] ++ acknowledged

/-- Every configuration item that is asked for has no value. -/
theorem configuration_eq (params : Json) :
    configuration params = .array (List.replicate (itemCount params) .null) := by
  unfold configuration itemCount
  cases params.member? "items" with
  | none => rfl
  | some items => cases items <;> simp [Json.items?, List.map_const']

/-- A question about the configuration is answered item by item. -/
theorem toRequest_configuration {folders : Json} {r : Request}
    (h : r.method = "workspace/configuration") :
    toRequest folders r = .ok (.array (List.replicate (itemCount r.params) .null)) := by
  rw [toRequest, if_pos h, configuration_eq]

/-- A method that is not listed is not known. -/
theorem toRequest_unlisted {folders : Json} {r : Request} (h : r.method ∉ listed) :
    toRequest folders r =
      .error ⟨ResponseError.methodNotFound, "unhandled method " ++ r.method, none⟩ := by
  simp only [listed, List.mem_append, List.mem_cons, List.not_mem_nil, or_false, not_or] at h
  obtain ⟨⟨hconfiguration, hfolders⟩, hacknowledged⟩ := h
  simp [toRequest, hconfiguration, hfolders, hacknowledged]

end Reply

namespace Session

/-- A greeting replies to nothing. -/
theorem Greeting.replies_eq_nil {c : SessionContext} {server : ServerId} {l : List Exchange}
    {complete : Bool} (h : Greeting c server l complete) : replies l = [] := by
  cases h <;> rfl

/-- A start replies to nothing. -/
theorem Started.replies_eq_nil {c : SessionContext} {s s' : Session} {l : List Exchange}
    {r : Except ServerError Unit} (h : Started c s l r s') : replies l = [] := by
  have hopening {id server : ServerId} {l : List Exchange} {complete : Bool}
      (h : Opening c id server l complete) : replies l = [] := by
    cases h with
    | refused => rfl
    | greeted h => simpa [Call.reply?] using h.replies_eq_nil
  cases h with
  | running h => exact hopening h
  | failed h => simp [hopening h, Call.reply?]

/-- A task replies to nothing, whatever it is answered. -/
def Unreplying {α : Type} (t : Task Session α) : Prop :=
  ∀ s, t.Ensures (fun l _ _ => replies l = []) s

theorem unreplying_pure {α : Type} (a : α) : Unreplying (pure a) := fun _ => rfl

theorem Unreplying.bind {α β : Type} {t : Task Session α} {f : α → Task Session β}
    (h : Unreplying t) (hf : ∀ a, Unreplying (f a)) : Unreplying (t >>= f) := by
  intro s
  refine (Task.ensures_bind _ t f s).2 ((h s).mono fun l a s' hl => (hf a s').mono ?_)
  intro l' b s'' hl'
  rw [replies_append, hl, hl', List.append_nil]

/-- What is known of the conversation of a task tells whether it replies. -/
theorem unreplying_of_talk {α : Type} {t : Task Session α}
    (h : ∀ s, t.Ensures (fun l _ _ => replies (talk l) = []) s) : Unreplying t :=
  fun s => (h s).mono fun l _ _ hl => (replies_talk l).symm.trans hl

theorem unreplying_start (c : SessionContext) : Unreplying (start c) := by
  refine unreplying_of_talk fun s => ?_
  by_cases hstate : s.state = .running
  · exact (ensures_start_running hstate).mono fun l _ _ h => by simp [h.1]
  · exact (ensures_start hstate).mono fun _ _ _ h => h.1.replies_eq_nil

theorem unreplying_stop (c : SessionContext) : Unreplying (stop c) := by
  refine unreplying_of_talk fun s => ?_
  cases hcurrent : s.current with
  | none => exact (ensures_stop_idle hcurrent).mono fun l _ _ h => by simp [h.1]
  | some id =>
    refine (ensures_stop hcurrent).mono fun l _ _ h => ?_
    obtain ⟨shutdown, exit, m, htalk, -⟩ := h
    rw [htalk]
    rfl

theorem unreplying_restart (c : SessionContext) : Unreplying (restart c) := by
  refine Unreplying.bind (fun s _ => rfl) fun files => ?_
  split
  · exact unreplying_pure ()
  · refine Unreplying.bind (fun s => rfl) fun s => ?_
    split
    · refine (unreplying_stop c).bind fun stopped => ?_
      split
      · exact (unreplying_start c).bind fun _ => unreplying_pure ()
      · exact unreplying_pure ()
    · exact (unreplying_start c).bind fun _ => unreplying_pure ()

theorem unreplying_request (c : SessionContext) (method : String) (params : Json) :
    Unreplying (request c method params) := by
  refine unreplying_of_talk fun s => (ensures_request c method params s).mono fun l _ _ h => ?_
  split at h
  · rw [h.1]
    rfl
  · obtain ⟨answer, m, htalk, -⟩ := h
    rw [htalk]
    rfl

theorem unreplying_notify (c : SessionContext) (method : String) (params : Json) :
    Unreplying (notify c method params) := by
  refine unreplying_of_talk fun s => (ensures_notify c method params s).mono fun l _ _ h => ?_
  split at h
  · rw [h.1]
    rfl
  · obtain ⟨answer, m, htalk, -⟩ := h
    rw [htalk]
    rfl

/-- An event that calls for nothing: a notification or a response, or whatever is said about a
process that the session does not hold. -/
def Unheeded (s : Session) : TransportEvent → Prop
  | .status server _ => s.current ≠ some server
  | .message server (.request _) => s.current ≠ some server
  | .message _ _ => True

/-- The request that an episode shows to a session and that the process which it holds then has
sent, with that process. -/
def due (e : Episode Session Deed) : List (ServerId × Request) :=
  match e.deed with
  | .observe (.message server (.request r)) =>
    if e.before.current = some server then [(server, r)] else []
  | _ => []

/-- The reply to a request of a process. -/
def replyTo (c : SessionContext) (server : ServerId) (r : Request) :
    (Nat × ServerId) × RequestId × Except ResponseError Json :=
  ((c.transport, server), r.id, Reply.toRequest (Reply.workspaceFolders c.options) r)

/-- Observing an event replies to the request that is due, if it is one. -/
theorem ensures_observe_replies (c : SessionContext) (event : TransportEvent) (s : Session) :
    (observe c event).Ensures (fun l _ _ => replies l =
      (due ⟨s, .observe event, l⟩).map fun (server, r) => replyTo c server r) s := by
  refine (ensures_observe c event s).mono fun l _ s' hobserved => ?_
  rw [← replies_talk l]
  generalize talk l = said at hobserved
  cases hobserved with
  | released => rfl
  | answered hcurrent => simp [due, hcurrent, Call.reply?, replyTo]
  | ignored h =>
    unfold due
    split
    · rename_i server r hdeed
      obtain rfl := Deed.observe.inj hdeed
      rw [if_neg fun hcurrent => h server hcurrent rfl]
      rfl
    · rfl

/-- **Step lemma.** An episode replies to the request that is due in it, and to no other. -/
theorem replies_of_yields {c : SessionContext} {s s' : Session} {deed : Deed}
    {trace : List Exchange} (h : (deed.task c).Yields s trace () s') :
    replies trace = (due ⟨s, deed, trace⟩).map fun (server, r) => replyTo c server r := by
  have hquiet {α : Type} {t : Task Session α} (ht : Unreplying t) :
      Unreplying (do let _ ← t) := ht.bind fun _ => unreplying_pure ()
  cases deed with
  | observe event => exact (ensures_observe_replies c event s).yields h
  | start => exact (hquiet (unreplying_start c) s).yields h
  | stop => exact (hquiet (unreplying_stop c) s).yields h
  | restart => exact (unreplying_restart c s).yields h
  | request method params => exact (hquiet (unreplying_request c method params) s).yields h
  | requestAs method params decode =>
    have hasked : Unreplying (requestAs c method params decode) :=
      fun s => ensures_requestAs c method params decode (unreplying_request c method params s)
    exact (hquiet hasked s).yields h
  | notify method params => exact (hquiet (unreplying_notify c method params) s).yields h
  | afterStart =>
    have hafter : Unreplying (afterStart c) :=
      unreplying_of_talk fun s => (ensures_afterStart c s).mono fun l _ _ h => by simp [h.1]
    exact (hquiet hafter s).yields h

/-- Nothing is said about an event that calls for nothing, and nothing changes. -/
theorem silent_of_unheeded {c : SessionContext} {s s' : Session} {event : TransportEvent}
    {trace : List Exchange} (h : (observe c event).Yields s trace () s')
    (hunheeded : Unheeded s event) : talk trace = [] ∧ s' = s := by
  have hobserved := (ensures_observe c event s).yields h
  generalize talk trace = said at hobserved
  cases hobserved with
  | released hcurrent => exact absurd hcurrent hunheeded
  | answered hcurrent => exact absurd hcurrent hunheeded
  | ignored => exact ⟨rfl, rfl⟩

/-- **Theorem (answering).** Along every history of a session, the replies are one for each request
that the process which is held at that moment sends, to that process, under the identifier of the
request and in the order in which the requests come. Configuration items are answered with as many
nulls, and a method without an answer with an error. What else the transport reports about other
processes, and what asks for nothing, is not spoken about and changes nothing. -/
theorem replies_once_to_live {c : SessionContext} {start s : Session}
    {history : List (Episode Session Deed)} (h : Lives (Deed.task c) start history s) :
    (∀ e ∈ history, replies e.trace = (due e).map fun (server, r) => replyTo c server r) ∧
      replies (history.flatMap (·.trace)) =
        (history.flatMap due).map (fun (server, r) => replyTo c server r) ∧
      (∀ server r, r.method = "workspace/configuration" → replyTo c server r =
        ((c.transport, server), r.id,
          .ok (.array (List.replicate (Reply.itemCount r.params) .null)))) ∧
      (∀ server r, r.method ∉ Reply.listed → replyTo c server r =
        ((c.transport, server), r.id,
          .error ⟨ResponseError.methodNotFound, "unhandled method " ++ r.method, none⟩)) ∧
      ∀ before e after event, history = before ++ e :: after → e.deed = .observe event →
        Unheeded e.before event → talk e.trace = [] ∧ stateAfter after s = e.before := by
  have hepisodes : ∀ e ∈ history,
      replies e.trace = (due e).map fun (server, r) => replyTo c server r := by
    intro e he
    obtain ⟨before, after, rfl⟩ := List.append_of_mem he
    exact replies_of_yields h.amid.2
  refine ⟨hepisodes, ?_, fun server r hmethod => ?_, fun server r hmethod => ?_, ?_⟩
  · rw [replies, List.filterMap_flatMap, List.map_flatMap]
    exact List.flatMap_congr hepisodes
  · rw [replyTo, Reply.toRequest_configuration hmethod]
  · rw [replyTo, Reply.toRequest_unlisted hmethod]
  · rintro before ⟨s₀, deed, trace⟩ after event rfl hdeed hunheeded
    obtain rfl : deed = .observe event := hdeed
    exact silent_of_unheeded h.amid.2 hunheeded

/-- A session is asked by its first process, by the first one again when the second one lives, and
by the second one. -/
def questions : List Deed :=
  [.start,
    .observe (.message ⟨0, 1⟩ (.request ⟨.number 7, "workspace/configuration",
      .object [("items", .array [.null, .text "editor"])]⟩)),
    .restart,
    .observe (.message ⟨0, 1⟩ (.request ⟨.number 8, "workspace/configuration", .null⟩)),
    .observe (.status ⟨0, 1⟩ .crashed),
    .observe (.message ⟨0, 2⟩ (.request ⟨.text "q", "custom/unknown", .null⟩))]

/-- The first and the last question are answered. -/
theorem questions_replies :
    replies ((enact agreeable (Deed.task (plainContext "/w")) questions (.fresh .stopped)
      (.error .rubyNotOnPath)).1.flatMap (·.trace)) =
        [((0, ⟨0, 1⟩), .number 7, .ok (.array [.null, .null])),
          ((0, ⟨0, 2⟩), .text "q",
            .error ⟨-32601, "unhandled method custom/unknown", none⟩)] := by
  have hlives := Lives.enact_fresh agreeable (Deed.task (plainContext "/w")) questions
    (.fresh .stopped) (.error .rubyNotOnPath)
  exact (replies_once_to_live hlives).2.1.trans rfl

end Session

end RubySupervisor
