import RubySupervisor.Proofs.Session.Conduct

/-!
# The chronicle of a session

A session that is told what to do again and again, and that hears from its transport in between,
goes through the lifetimes of one process after another. The record of what it says and sees is a
chronicle: the lifetimes follow each other without overlap, each has the same grammar, and only the
last one may still be open.
-/

namespace RubySupervisor

/-- The transport reports the process that it was given. -/
def Exchange.Faithful : Exchange → Prop
  | ⟨.startServer _ launch, answer⟩ => ∀ server, answer = .ok server → server = launch.id
  | _ => True

namespace Session

/-- What a session says, with the answer, or an event that it sees. -/
inductive Entry where
  | said (x : Exchange)
  | seen (event : TransportEvent)

/-- The exchanges of a record. -/
def exchanges (entries : List Entry) : List Exchange :=
  entries.filterMap fun
    | .said x => some x
    | .seen _ => none

@[simp] theorem exchanges_nil : exchanges [] = [] := rfl

@[simp] theorem exchanges_said (x : Exchange) (entries : List Entry) :
    exchanges (.said x :: entries) = x :: exchanges entries := rfl

@[simp] theorem exchanges_seen (event : TransportEvent) (entries : List Entry) :
    exchanges (.seen event :: entries) = exchanges entries := rfl

@[simp] theorem exchanges_append (entries entries' : List Entry) :
    exchanges (entries ++ entries') = exchanges entries ++ exchanges entries' :=
  List.filterMap_append

@[simp] theorem exchanges_map_said (l : List Exchange) : exchanges (l.map .said) = l := by
  induction l with
  | nil => rfl
  | cons x l ih => exact congrArg (List.cons x) ih

/-- The life of one process as a session records it, and whether it is still open. A process whose
opening fails is stopped at once. After a complete opening come requests, notifications and
replies, until the session takes leave of the process or learns that it has ended. -/
inductive Lifetime (c : SessionContext) (id : ServerId) : List Entry → Bool → Prop where
  | failed {l : List Exchange} {answer : Except ServerError Unit} (h : Opening c id id l false) :
      Lifetime c id (l.map .said ++ [.said ⟨.stopServer c.transport id, answer⟩]) false
  | opened {l : List Exchange} (h : Opening c id id l true) : Lifetime c id (l.map .said) true
  | asked {entries : List Entry} {request : RequestId} {method : String} {params : Json}
      {answer : Except ServerError Response} (h : Lifetime c id entries true) :
      Lifetime c id (entries ++ [.said (asked c id request method params answer)]) true
  | notified {entries : List Entry} {n : Notification} {answer : Except ServerError Unit}
      (h : Lifetime c id entries true) :
      Lifetime c id (entries ++ [.said ⟨.notify c.transport id n, answer⟩]) true
  | replied {entries : List Entry} {r : Request} {answer : Except ServerError Unit}
      (h : Lifetime c id entries true) :
      Lifetime c id (entries ++ [.seen (.message id (.request r)),
        .said ⟨.reply c.transport id r.id (Reply.toRequest (Reply.workspaceFolders c.options) r),
          answer⟩]) true
  | unconcerned {entries : List Entry} {event : TransportEvent} (h : Lifetime c id entries true)
      (hevent : ¬ Concerns id event) : Lifetime c id (entries ++ [.seen event]) true
  | dismissed {entries : List Entry} {request : RequestId}
      {shutdown : Except ServerError Response} {exit stopped : Except ServerError Unit}
      (h : Lifetime c id entries true) :
      Lifetime c id (entries ++ (farewell c id request shutdown exit stopped).map .said) false
  | lost {entries : List Entry} {status : TransportStatus} {answer : Except ServerError Unit}
      (h : Lifetime c id entries true) (hfinal : status.isFinal = true) :
      Lifetime c id (entries ++ [.seen (.status id status),
        .said ⟨.stopServer c.transport id, answer⟩]) false

/-- The lifetimes of the first processes one after another, with events in between that no process
is there for; only the last lifetime may be open. -/
inductive Chronicle (c : SessionContext) : Nat → List Entry → Bool → Prop where
  | fresh : Chronicle c 0 [] false
  | idle {n : Nat} {entries : List Entry} (event : TransportEvent)
      (h : Chronicle c n entries false) : Chronicle c n (entries ++ [.seen event]) false
  | next {n : Nat} {entries entries' : List Entry} {isOpen : Bool}
      (h : Chronicle c n entries false) (hlife : Lifetime c ⟨0, n + 1⟩ entries' isOpen) :
      Chronicle c (n + 1) (entries ++ entries') isOpen

/-- Where the last lifetime of a chronicle is open, it may go on. -/
theorem Chronicle.extend {c : SessionContext} {n : Nat} {entries more : List Entry} {isOpen : Bool}
    (h : Chronicle c n entries true)
    (hmore : ∀ life, Lifetime c ⟨0, n⟩ life true → Lifetime c ⟨0, n⟩ (life ++ more) isOpen) :
    Chronicle c n (entries ++ more) isOpen := by
  cases h with
  | next h hlife =>
    rw [List.append_assoc]
    exact .next h (hmore _ hlife)

/-- An opening speaks only to its process. -/
theorem Opening.addressed {c : SessionContext} {id : ServerId} {l : List Exchange}
    {complete : Bool} (h : Opening c id id l complete) :
    ∀ x ∈ l, x.call.addressee? = some (c.transport, id) := by
  cases h with
  | refused => simp [Call.addressee?, launchOf]
  | greeted h => cases h <;> simp [Call.addressee?, launchOf, Session.asked]

/-- A lifetime speaks only to its process. -/
theorem Lifetime.addressed {c : SessionContext} {id : ServerId} {entries : List Entry}
    {isOpen : Bool} (h : Lifetime c id entries isOpen) :
    ∀ x ∈ exchanges entries, x.call.addressee? = some (c.transport, id) := by
  induction h with
  | failed h =>
    have hopening := Opening.addressed h
    simpa [or_imp, forall_and, Call.addressee?] using hopening
  | opened h =>
    have hopening := Opening.addressed h
    simpa using hopening
  | asked h ih | notified h ih | replied h ih | unconcerned h hevent ih | dismissed h ih
  | lost h hfinal ih =>
    intro x hx
    simp only [exchanges_append, List.mem_append] at hx
    rcases hx with hx | hx
    · exact ih x hx
    · revert x
      simp [Call.addressee?, Session.asked, farewell]

/-- A chronicle speaks only to the processes whose lifetimes it holds. -/
theorem Chronicle.addressed {c : SessionContext} {n : Nat} {entries : List Entry} {isOpen : Bool}
    (h : Chronicle c n entries isOpen) :
    ∀ x ∈ exchanges entries, ∃ g, 1 ≤ g ∧ g ≤ n ∧
      x.call.addressee? = some (c.transport, ⟨0, g⟩) := by
  induction h with
  | fresh => simp
  | idle event h ih => simpa using ih
  | @next n entries entries' isOpen h hlife ih =>
    intro x hx
    rw [exchanges_append, List.mem_append] at hx
    rcases hx with hx | hx
    · obtain ⟨g, hpos, hle, hto⟩ := ih x hx
      exact ⟨g, hpos, by omega, hto⟩
    · exact ⟨n + 1, by omega, Nat.le_refl _, hlife.addressed x hx⟩

/-- Each process of a chronicle has its lifetime there, and nothing before or after it is said to
the process. -/
theorem Chronicle.isolated {c : SessionContext} {n : Nat} {entries : List Entry} {isOpen : Bool}
    (h : Chronicle c n entries isOpen) {g : Nat} (hpos : 1 ≤ g) (hle : g ≤ n) :
    ∃ before life after, entries = before ++ life ++ after ∧
      (∃ stillOpen, Lifetime c ⟨0, g⟩ life stillOpen) ∧
      ∀ x ∈ exchanges (before ++ after), x.call.addressee? ≠ some (c.transport, ⟨0, g⟩) := by
  induction h with
  | fresh => omega
  | idle event h ih =>
    obtain ⟨before, life, after, rfl, hlife, hquiet⟩ := ih hle
    refine ⟨before, life, after ++ [.seen event], by simp, hlife, ?_⟩
    simpa using hquiet
  | @next n entries entries' isOpen h hlife ih =>
    by_cases hlast : g = n + 1
    · subst hlast
      refine ⟨entries, entries', [], by simp, ⟨isOpen, hlife⟩, fun x hx hto => ?_⟩
      rw [List.append_nil] at hx
      obtain ⟨g, _, hle, hto'⟩ := h.addressed x hx
      rw [hto] at hto'
      simp only [Option.some.injEq, Prod.mk.injEq, ServerId.mk.injEq] at hto'
      omega
    · obtain ⟨before, life, after, rfl, hold, hquiet⟩ := ih (by omega)
      refine ⟨before, life, after ++ entries', by simp, hold, fun x hx hto => ?_⟩
      rw [← List.append_assoc, exchanges_append, List.mem_append] at hx
      rcases hx with hx | hx
      · exact hquiet x hx hto
      · rw [hlife.addressed x hx] at hto
        simp only [Option.some.injEq, Prod.mk.injEq, ServerId.mk.injEq] at hto
        omega

end Session

end RubySupervisor
