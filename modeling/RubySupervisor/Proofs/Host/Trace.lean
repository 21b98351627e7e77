import RubySupervisor.Host.Task

/-!
# Traces of tasks, and histories

What a task does depends on the answers of the host. A trace is the list of the exchanges that it
has with a host, and a task may have any trace whose answers have the right types. Statements about
all answers are statements about all traces; `Task.Ensures` computes the condition under which all
traces of a task satisfy one.

A history is what happens to a system that is told to do one thing after another, each done to its
end under whatever answers. What is performed on a host is a history.
-/

/-! ## Traces -/

namespace RubySupervisor

/-- A call on the host together with its answer. -/
structure Exchange where
  call : Call
  answer : call.Answer

namespace Task

variable {σ τ ω α β : Type}

/-- Under the answers of a trace, a task goes from a state to a result and a state. -/
inductive Yields : Task σ α → σ → List Exchange → α → σ → Prop where
  | done (a : α) (s : σ) : Yields (.done a) s [] a s
  | read {next : σ → Task σ α} {s s' : σ} {l : List Exchange} {a : α}
      (h : (next s).Yields s l a s') : Yields (.read next) s l a s'
  | write {next : Task σ α} {s t s' : σ} {l : List Exchange} {a : α}
      (h : next.Yields t l a s') : Yields (.write t next) s l a s'
  | call {c : Call} {next : c.Answer → Task σ α} {answer : c.Answer} {s s' : σ}
      {l : List Exchange} {a : α} (h : (next answer).Yields s l a s') :
      Yields (.call c next) s (⟨c, answer⟩ :: l) a s'

/-- The trace that a host leaves behind. -/
def trace (host : (c : Call) → σ → ω → c.Answer × ω) : Task σ α → σ → ω → List Exchange
  | .done _, _, _ => []
  | .read next, s, w => (next s).trace host s w
  | .write s next, _, w => next.trace host s w
  | .call c next, s, w =>
    let (answer, w) := host c s w
    ⟨c, answer⟩ :: (next answer).trace host s w

/-- The run of a task on a host is one of the ways in which the task may go. -/
theorem yields_run (host : (c : Call) → σ → ω → c.Answer × ω) (t : Task σ α) (s : σ) (w : ω) :
    t.Yields s (t.trace host s w) (t.run host s w).1 (t.run host s w).2.1 := by
  induction t generalizing s w with
  | done a => exact .done a s
  | read next ih => exact .read (ih s s w)
  | write t next ih => exact .write (ih t w)
  | call c next ih => exact .call (ih _ s _)

/-- A run that ends with a value is one of the ways in which the task may go. -/
theorem yields_of_toOption {ε : Type} {host : (c : Call) → σ → ω → c.Answer × ω}
    {t : Task σ (Except ε α)} {s : σ} {w : ω} {a : α}
    (h : (t.run host s w).1.toOption = some a) :
    t.Yields s (t.trace host s w) (.ok a) (t.run host s w).2.1 := by
  have hrun := yields_run host t s w
  generalize (t.run host s w).1 = result at h hrun
  match result with
  | .error _ => cases h
  | .ok made =>
    obtain rfl : made = a := Option.some.inj h
    exact hrun

/-- So is a run that ends with an error. -/
theorem exists_yields_error {ε : Type} {host : (c : Call) → σ → ω → c.Answer × ω}
    {t : Task σ (Except ε α)} {s : σ} {w : ω} (h : (t.run host s w).1.toOption = none) :
    ∃ error, t.Yields s (t.trace host s w) (.error error) (t.run host s w).2.1 := by
  have hrun := yields_run host t s w
  generalize (t.run host s w).1 = result at h hrun
  match result with
  | .error error => exact ⟨error, hrun⟩
  | .ok _ => cases h

/-- What a host always answers, its traces show. -/
theorem forall_trace {P : Exchange → Prop} {host : (c : Call) → σ → ω → c.Answer × ω}
    (hhost : ∀ c s w, P ⟨c, (host c s w).1⟩) (t : Task σ α) (s : σ) (w : ω) :
    ∀ x ∈ t.trace host s w, P x := by
  induction t generalizing s w with
  | done a => simp [trace]
  | read next ih => exact ih s s w
  | write t next ih => exact ih t w
  | call c next ih =>
    intro x hx
    rcases List.mem_cons.1 hx with rfl | hx
    · exact hhost c s w
    · exact ih _ s _ x hx

/-- Under the answers of a trace, a task goes in one way. -/
theorem Yields.unique {t : Task σ α} {s s₁ s₂ : σ} {l : List Exchange} {a₁ a₂ : α}
    (h₁ : t.Yields s l a₁ s₁) (h₂ : t.Yields s l a₂ s₂) : a₁ = a₂ ∧ s₁ = s₂ := by
  induction h₁ with
  | done a s =>
    cases h₂
    exact ⟨rfl, rfl⟩
  | read _ ih =>
    cases h₂ with
    | read h₂ => exact ih h₂
  | write _ ih =>
    cases h₂ with
    | write h₂ => exact ih h₂
  | call _ ih =>
    cases h₂ with
    | call h₂ => exact ih h₂

/-- Whatever the host answers, a task ends with a trace, a result and a state that satisfy a
condition. -/
def Ensures (Q : List Exchange → α → σ → Prop) : Task σ α → σ → Prop
  | .done a, s => Q [] a s
  | .read next, s => (next s).Ensures Q s
  | .write s next, _ => next.Ensures Q s
  | .call c next, s => ∀ answer, (next answer).Ensures (fun l => Q (⟨c, answer⟩ :: l)) s

/-- What a task ensures holds of each of its traces. -/
theorem Ensures.yields {Q : List Exchange → α → σ → Prop} {t : Task σ α} {s s' : σ}
    {l : List Exchange} {a : α} (h : t.Ensures Q s) (ht : t.Yields s l a s') : Q l a s' := by
  induction ht generalizing Q with
  | done a s => exact h
  | read _ ih => exact ih h
  | write _ ih => exact ih h
  | call _ ih => exact ih (h _)

/-- A task ensures what holds of each of its traces. -/
theorem ensures_of_yields {Q : List Exchange → α → σ → Prop} {t : Task σ α} {s : σ}
    (h : ∀ l a s', t.Yields s l a s' → Q l a s') : t.Ensures Q s := by
  induction t generalizing s Q with
  | done a => exact h _ _ _ (.done a s)
  | read next ih => exact ih s fun l a s' ht => h l a s' (.read ht)
  | write t next ih => exact ih fun l a s' ht => h l a s' (.write ht)
  | call c next ih => exact fun answer => ih answer fun l a s' ht => h _ a s' (.call ht)

/-- A task ensures whatever follows from what it ensures. -/
theorem Ensures.mono {Q R : List Exchange → α → σ → Prop} {t : Task σ α} {s : σ}
    (h : t.Ensures Q s) (himp : ∀ l a s', Q l a s' → R l a s') : t.Ensures R s :=
  ensures_of_yields fun l a s' ht => himp l a s' (h.yields ht)

/-- A task ensures any two things together. -/
theorem Ensures.and {Q R : List Exchange → α → σ → Prop} {t : Task σ α} {s : σ}
    (hQ : t.Ensures Q s) (hR : t.Ensures R s) : t.Ensures (fun l a s' => Q l a s' ∧ R l a s') s :=
  ensures_of_yields fun _ _ _ ht => ⟨hQ.yields ht, hR.yields ht⟩

@[simp] theorem ensures_done (Q : List Exchange → α → σ → Prop) (a : α) (s : σ) :
    (done a).Ensures Q s ↔ Q [] a s := .rfl

@[simp] theorem ensures_pure (Q : List Exchange → α → σ → Prop) (a : α) (s : σ) :
    (pure a : Task σ α).Ensures Q s ↔ Q [] a s := .rfl

@[simp] theorem ensures_get (Q : List Exchange → σ → σ → Prop) (s : σ) :
    get.Ensures Q s ↔ Q [] s s := .rfl

@[simp] theorem ensures_put (Q : List Exchange → Unit → σ → Prop) (s t : σ) :
    (put t).Ensures Q s ↔ Q [] () t := .rfl

@[simp] theorem ensures_change (Q : List Exchange → Unit → σ → Prop) (f : σ → σ) (s : σ) :
    (change f).Ensures Q s ↔ Q [] () (f s) := .rfl

@[simp] theorem ask_eq (c : Call) : (ask c : Task σ c.Answer) = call c done := rfl

@[simp] theorem ensures_call (Q : List Exchange → α → σ → Prop) (c : Call)
    (next : c.Answer → Task σ α) (s : σ) :
    (call c next).Ensures Q s ↔
      ∀ answer, (next answer).Ensures (fun l => Q (⟨c, answer⟩ :: l)) s := .rfl

/-- A task that goes on with a result ensures what the rest ensures behind the first trace. -/
theorem ensures_andThen (Q : List Exchange → β → σ → Prop) (t : Task σ α) (f : α → Task σ β)
    (s : σ) :
    (t.andThen f).Ensures Q s ↔
      t.Ensures (fun l a s' => (f a).Ensures (fun l' => Q (l ++ l')) s') s := by
  induction t generalizing s Q with
  | done a => exact .rfl
  | read next ih => exact ih s Q s
  | write t next ih => exact ih Q t
  | call c next ih => exact forall_congr' fun answer => ih answer _ s

@[simp] theorem ensures_bind (Q : List Exchange → β → σ → Prop) (t : Task σ α) (f : α → Task σ β)
    (s : σ) :
    (t >>= f).Ensures Q s ↔
      t.Ensures (fun l a s' => (f a).Ensures (fun l' => Q (l ++ l')) s') s :=
  ensures_andThen Q t f s

/-- A task makes only calls of one kind, whatever it is answered. -/
def Only (P : Call → Prop) : Task σ α → Prop
  | .done _ => True
  | .read next => ∀ s, (next s).Only P
  | .write _ next => next.Only P
  | .call c next => P c ∧ ∀ answer, (next answer).Only P

/-- Tasks one after the other make only calls of one kind if each of them does. -/
theorem Only.bind {P : Call → Prop} {t : Task σ α} {f : α → Task σ β} (h : t.Only P)
    (hf : ∀ a, (f a).Only P) : (t >>= f).Only P := by
  induction t with
  | done a => exact hf a
  | read next ih => exact fun s => ih s (h s)
  | write s next ih => exact ih h
  | call c next ih => exact ⟨h.1, fun answer => ih answer (h.2 answer)⟩

/-- Calls of one kind are calls of a wider one. -/
theorem Only.mono {P R : Call → Prop} {t : Task σ α} (h : t.Only P) (himp : ∀ c, P c → R c) :
    t.Only R := by
  induction t with
  | done a => exact trivial
  | read next ih => exact fun s => ih s (h s)
  | write s next ih => exact ih h
  | call c next ih => exact ⟨himp c h.1, fun answer => ih answer (h.2 answer)⟩

/-- The calls of each trace of a task are of the one kind. -/
theorem Only.yields {P : Call → Prop} {t : Task σ α} {s s' : σ} {l : List Exchange} {a : α}
    (h : t.Only P) (ht : t.Yields s l a s') : ∀ x ∈ l, P x.call := by
  induction ht with
  | done a s => simp
  | read _ ih => exact ih (h _)
  | write _ ih => exact ih h
  | call _ ih => exact List.forall_mem_cons.2 ⟨h.1, ih (h.2 _)⟩

theorem only_pure {P : Call → Prop} (a : α) : (pure a : Task σ α).Only P := trivial

theorem only_get {P : Call → Prop} : (get : Task σ σ).Only P := fun _ => trivial

theorem only_put {P : Call → Prop} (s : σ) : (put s).Only P := trivial

theorem only_change {P : Call → Prop} (f : σ → σ) : (change f).Only P := fun _ => trivial

theorem only_ask {P : Call → Prop} {c : Call} (h : P c) : (ask c : Task σ c.Answer).Only P :=
  ⟨h, fun _ => trivial⟩

/-- A task on a part makes the same calls on the whole. -/
theorem Only.within {P : Call → Prop} {t : Task σ α} (h : t.Only P) (part : Part τ σ) :
    (t.within part).Only P := by
  induction t with
  | done a => exact trivial
  | read next ih => exact fun s => ih _ (h (part.get s))
  | write s next ih => exact fun _ => ih h
  | call c next ih => exact ⟨h.1, fun answer => ih answer (h.2 answer)⟩

end Task

/-- A part that is found as it was set, where setting it again forgets what was set before. -/
structure Part.Lawful {τ σ : Type} (part : Part τ σ) : Prop where
  get_set : ∀ t s, part.get (part.set t s) = s
  set_set : ∀ t s s', part.set (part.set t s) s' = part.set t s'
  set_get : ∀ t, part.set t (part.get t) = t

namespace Task

variable {σ τ α : Type}

/-- A task on a part leaves the rest alone. -/
theorem ensures_within {part : Part τ σ} (hpart : part.Lawful)
    (Q : List Exchange → α → τ → Prop) (t : Task σ α) (w : τ) :
    (t.within part).Ensures Q w ↔
      t.Ensures (fun l a s => Q l a (part.set w s)) (part.get w) := by
  have hgeneral (s : σ) : (t.within part).Ensures Q (part.set w s) ↔
      t.Ensures (fun l a s => Q l a (part.set w s)) s := by
    induction t generalizing s Q with
    | done a => exact .rfl
    | read next ih =>
      change ((next (part.get (part.set w s))).within part).Ensures Q (part.set w s) ↔ _
      rw [hpart.get_set]
      exact ih s Q s
    | write s' next ih =>
      change (next.within part).Ensures Q (part.set (part.set w s) s') ↔ _
      rw [hpart.set_set]
      exact ih Q s'
    | call c next ih => exact forall_congr' fun answer => ih answer _ s
  simpa only [hpart.set_get] using hgeneral (part.get w)

end Task

/-- The transport that a call goes to and the process that it is about. -/
def Call.addressee? : Call → Option (Nat × ServerId)
  | startServer transport launch => some (transport, launch.id)
  | request transport server .. => some (transport, server)
  | notify transport server _ => some (transport, server)
  | reply transport server .. => some (transport, server)
  | stopServer transport server => some (transport, server)
  | _ => none

/-- Whether a call goes to a transport. -/
def Call.isTransport (c : Call) : Bool := c.addressee?.isSome

/-- The exchanges of a trace that go to a transport. -/
def talk (l : List Exchange) : List Exchange := l.filter (·.call.isTransport)

@[simp] theorem talk_nil : talk [] = [] := rfl

@[simp] theorem talk_append (l l' : List Exchange) : talk (l ++ l') = talk l ++ talk l' :=
  List.filter_append l l'

@[simp] theorem talk_cons (x : Exchange) (l : List Exchange) :
    talk (x :: l) = if x.call.isTransport then x :: talk l else talk l := by
  cases h : x.call.isTransport <;> simp [talk, h]

/-- What a call is answered where everything succeeds on an empty file tree. -/
def agreed (ruby : Except RubyError Activation) : (c : Call) → c.Answer
  | .files => .empty
  | .makeDirectories _ => .ok ()
  | .writeFile .. => .ok ()
  | .renameFile .. => .ok ()
  | .probe .. => ruby
  | .chooseInstallation _ => some ⟨"/bin/ruby"⟩
  | .chooseSocket sockets => sockets.head?
  | .run _ => .ok ⟨some 0, "", ""⟩
  | .launchDebuggee _ => .ok ⟨[], .code 0, none⟩
  | .startServer _ launch => .ok launch.id
  | .request _ _ r _ => .ok (.success r.id (.object [("capabilities", .object [])]))
  | .notify .. => .ok ()
  | .reply .. => .ok ()
  | .stopServer .. => .ok ()
  | .now => 0
  | .stopwatch => 0
  | .telemetry _ => ()
  | .popup _ => ()
  | .applyEdits .. => true
  | .insertSnippet .. => ()

/-- A host on which everything succeeds, except that probes of Ruby are answered by its world. -/
def agreeable {σ : Type} (c : Call) (_ : σ) (ruby : Except RubyError Activation) :
    c.Answer × Except RubyError Activation :=
  (agreed ruby c, ruby)

/-! ## Histories -/

universe u

/-- One deed, with the state before it and the exchanges that it led to. -/
structure Episode (σ : Type) (δ : Type u) where
  before : σ
  deed : δ
  trace : List Exchange

variable {σ ω : Type} {δ : Type u}

/-- The histories of a system from a state. -/
inductive Lives (task : δ → Task σ Unit) (start : σ) : List (Episode σ δ) → σ → Prop where
  | fresh : Lives task start [] start
  | step {history : List (Episode σ δ)} {s s' : σ} {deed : δ} {trace : List Exchange}
      (h : Lives task start history s) (hstep : (task deed).Yields s trace () s') :
      Lives task start (history ++ [⟨s, deed, trace⟩]) s'

/-- A history goes on with what happens behind it. -/
theorem Lives.append {task : δ → Task σ Unit} {start s s' : σ}
    {history later : List (Episode σ δ)} (h : Lives task start history s)
    (h' : Lives task s later s') : Lives task start (history ++ later) s' := by
  induction h' with
  | fresh => simpa using h
  | step _ hstep ih =>
    rw [← List.append_assoc]
    exact ih.step hstep

/-- An element of a list with one more behind it is that one, or it is in front of it. -/
theorem split_concat {α : Type u} {l before after : List α} {x y : α}
    (h : before ++ x :: after = l ++ [y]) :
    after = [] ∧ before = l ∧ x = y ∨ ∃ rest, after = rest ++ [y] ∧ before ++ x :: rest = l := by
  rcases List.eq_nil_or_concat after with rfl | ⟨rest, last, rfl⟩
  · obtain ⟨rfl, hlast⟩ := List.append_inj' h rfl
    exact .inl ⟨rfl, rfl, List.singleton_inj.1 hlast⟩
  · have h : (before ++ x :: rest) ++ [last] = l ++ [y] := by simpa using h
    obtain ⟨hrest, hlast⟩ := List.append_inj' h rfl
    obtain rfl := List.singleton_inj.1 hlast
    exact .inr ⟨rest, List.concat_eq_append, hrest⟩

/-- The state behind an episode: the one that the rest of a history begins with, or its last. -/
def stateAfter (later : List (Episode σ δ)) (last : σ) : σ := (later.head?.map (·.before)).getD last

/-- Every episode of a history comes behind a history, and leads to the state behind it. -/
theorem Lives.amid {task : δ → Task σ Unit} {start s : σ} {before after : List (Episode σ δ)}
    {e : Episode σ δ} (h : Lives task start (before ++ e :: after) s) :
    Lives task start before e.before ∧
      (task e.deed).Yields e.before e.trace () (stateAfter after s) := by
  generalize hhistory : before ++ e :: after = history at h
  induction h generalizing after with
  | fresh => simp at hhistory
  | @step history s s' deed trace hlives hstep ih =>
    rcases split_concat hhistory with ⟨rfl, rfl, rfl⟩ | ⟨rest, rfl, hrest⟩
    · exact ⟨hlives, hstep⟩
    · have hsame : stateAfter (rest ++ [⟨s, deed, trace⟩]) s' = stateAfter rest s := by
        cases rest <;> rfl
      rw [hsame]
      exact ih hrest

/-- Every episode of a history comes behind a history, and goes in one of the ways of its deed. -/
theorem Lives.episode {task : δ → Task σ Unit} {start s : σ} {before after : List (Episode σ δ)}
    {e : Episode σ δ} (h : Lives task start (before ++ e :: after) s) :
    Lives task start before e.before ∧ ∃ s', (task e.deed).Yields e.before e.trace () s' :=
  ⟨h.amid.1, _, h.amid.2⟩

/-- The deeds of a history under other names. -/
theorem Lives.map {δ' : Type u} {task : δ → Task σ Unit} {task' : δ' → Task σ Unit}
    (name : δ → δ') (htask : ∀ deed, task' (name deed) = task deed) {start s : σ}
    {history : List (Episode σ δ)} (h : Lives task start history s) :
    Lives task' start (history.map fun e => ⟨e.before, name e.deed, e.trace⟩) s := by
  induction h with
  | fresh => exact .fresh
  | step _ hstep ih =>
    rw [List.map_append]
    exact ih.step (by rwa [htask])

/-- Performs deeds one after the other on a host. -/
def enact (host : (c : Call) → σ → ω → c.Answer × ω) (task : δ → Task σ Unit) :
    List δ → σ → ω → List (Episode σ δ) × σ × ω
  | [], s, w => ([], s, w)
  | deed :: deeds, s, w =>
    let (_, s', w') := (task deed).run host s w
    let (episodes, s₁, w₁) := enact host task deeds s' w'
    (⟨s, deed, (task deed).trace host s w⟩ :: episodes, s₁, w₁)

/-- What is performed on a host is a history. -/
theorem Lives.enact {task : δ → Task σ Unit} {start s : σ} {history : List (Episode σ δ)}
    (h : Lives task start history s) (host : (c : Call) → σ → ω → c.Answer × ω) (deeds : List δ)
    (w : ω) :
    Lives task start (history ++ (RubySupervisor.enact host task deeds s w).1)
      (RubySupervisor.enact host task deeds s w).2.1 := by
  induction deeds generalizing history s w with
  | nil => simpa [RubySupervisor.enact] using h
  | cons deed deeds ih =>
    have hnext := ih (h.step ((task deed).yields_run host s w)) ((task deed).run host s w).2.2
    simpa [RubySupervisor.enact, List.append_assoc] using hnext

/-- What is performed on a host from the start is a history. -/
theorem Lives.enact_fresh (host : (c : Call) → σ → ω → c.Answer × ω) (task : δ → Task σ Unit)
    (deeds : List δ) (start : σ) (w : ω) :
    Lives task start (RubySupervisor.enact host task deeds start w).1
      (RubySupervisor.enact host task deeds start w).2.1 := by
  simpa using Lives.fresh.enact host deeds w

/-- What a host always answers, the traces of its histories show. -/
theorem forall_enact {P : Exchange → Prop} {host : (c : Call) → σ → ω → c.Answer × ω}
    (hhost : ∀ call s w, P ⟨call, (host call s w).1⟩) (task : δ → Task σ Unit) (deeds : List δ)
    (s : σ) (w : ω) : ∀ e ∈ (enact host task deeds s w).1, ∀ x ∈ e.trace, P x := by
  induction deeds generalizing s w with
  | nil => simp [enact]
  | cons deed deeds ih =>
    intro e he
    rcases List.mem_cons.1 he with rfl | he
    · exact Task.forall_trace hhost _ s w
    · exact ih _ _ e he

end RubySupervisor
