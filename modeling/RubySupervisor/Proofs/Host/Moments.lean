import RubySupervisor.Proofs.Host.Trace

/-!
# Moments of a task

A task makes each of its calls in the state as it is then. What is said about a call and its moment
is said under all answers by `Task.Heeds`, and of one trace by `Task.Moment`. A part of the state
that a task never changes is the same at all of its moments.
-/

namespace RubySupervisor.Task

variable {σ τ α β γ : Type}

/-- Under the answers of a trace, a task makes a call in a state. -/
inductive Moment : Task σ α → σ → List Exchange → σ → Call → Prop where
  | now {c : Call} {next : c.Answer → Task σ α} {answer : c.Answer} {s : σ} {l : List Exchange} :
      Moment (.call c next) s (⟨c, answer⟩ :: l) s c
  | later {c call : Call} {next : c.Answer → Task σ α} {answer : c.Answer} {s m : σ}
      {l : List Exchange} (h : (next answer).Moment s l m call) :
      Moment (.call c next) s (⟨c, answer⟩ :: l) m call
  | read {call : Call} {next : σ → Task σ α} {s m : σ} {l : List Exchange}
      (h : (next s).Moment s l m call) : Moment (.read next) s l m call
  | write {call : Call} {next : Task σ α} {s t m : σ} {l : List Exchange}
      (h : next.Moment t l m call) : Moment (.write t next) s l m call

/-- What is called at a moment stands in the trace. -/
theorem Moment.mem {t : Task σ α} {s m : σ} {l : List Exchange} {call : Call}
    (h : t.Moment s l m call) : ∃ x ∈ l, x.call = call := by
  induction h with
  | now => exact ⟨_, .head _, rfl⟩
  | later _ ih =>
    obtain ⟨x, hx, hcall⟩ := ih
    exact ⟨x, .tail _ hx, hcall⟩
  | read _ ih => exact ih
  | write _ ih => exact ih

/-- Every exchange of a trace has its moment. -/
theorem Yields.exists_moment {t : Task σ α} {s s' : σ} {l : List Exchange} {a : α}
    (h : t.Yields s l a s') {x : Exchange} (hx : x ∈ l) : ∃ m, t.Moment s l m x.call := by
  induction h with
  | done => simp at hx
  | read _ ih =>
    obtain ⟨m, hm⟩ := ih hx
    exact ⟨m, .read hm⟩
  | write _ ih =>
    obtain ⟨m, hm⟩ := ih hx
    exact ⟨m, .write hm⟩
  | call _ ih =>
    rcases List.mem_cons.1 hx with rfl | hx
    · exact ⟨_, .now⟩
    · obtain ⟨m, hm⟩ := ih hx
      exact ⟨m, .later hm⟩

/-- A task whose result is dropped goes as the task does. -/
theorem Yields.of_discarded {t : Task σ α} {s s' : σ} {l : List Exchange}
    (h : (do let _ ← t : Task σ Unit).Yields s l () s') : ∃ a, t.Yields s l a s' := by
  have hall : (do let _ ← t : Task σ Unit).Ensures (fun l _ s' => ∃ a, t.Yields s l a s') s := by
    rw [ensures_bind]
    exact ensures_of_yields fun l a s' hyields => ⟨a, by rwa [List.append_nil]⟩
  exact hall.yields h

/-- Whatever a task is answered, each of its calls is in order in the state as it is then. -/
def Heeds (P : σ → Call → Prop) : Task σ α → σ → Prop
  | .done _, _ => True
  | .read next, s => (next s).Heeds P s
  | .write s next, _ => next.Heeds P s
  | .call c next, s => P s c ∧ ∀ answer, (next answer).Heeds P s

/-- What a task heeds, it heeds at each moment. -/
theorem Heeds.moment {P : σ → Call → Prop} {t : Task σ α} {s m : σ} {l : List Exchange}
    {call : Call} (h : t.Heeds P s) (hm : t.Moment s l m call) : P m call := by
  induction hm with
  | now => exact h.1
  | later _ ih => exact ih (h.2 _)
  | read _ ih => exact ih h
  | write _ ih => exact ih h

theorem Heeds.mono {P R : σ → Call → Prop} {t : Task σ α} {s : σ} (h : t.Heeds P s)
    (himp : ∀ m call, P m call → R m call) : t.Heeds R s := by
  induction t generalizing s with
  | done a => exact trivial
  | read next ih => exact ih s h
  | write s' next ih => exact ih h
  | call c next ih => exact ⟨himp s c h.1, fun answer => ih answer (h.2 answer)⟩

/-- Tasks one after the other heed what each of them does. -/
theorem Heeds.bind {P : σ → Call → Prop} {t : Task σ α} {f : α → Task σ β} {s : σ}
    (h : t.Heeds P s) (hf : t.Ensures (fun _ a s' => (f a).Heeds P s') s) :
    (t >>= f).Heeds P s := by
  induction t generalizing s with
  | done a => exact hf
  | read next ih => exact ih s h hf
  | write s' next ih => exact ih h hf
  | call c next ih => exact ⟨h.1, fun answer => ih answer (h.2 answer) (hf answer)⟩

/-- Tasks that heed something in every state heed it one after the other. -/
theorem Heeds.andThen {P : σ → Call → Prop} {t : Task σ α} {f : α → Task σ β} {s : σ}
    (h : t.Heeds P s) (hf : ∀ a s', (f a).Heeds P s') : (t >>= f).Heeds P s :=
  h.bind (ensures_of_yields fun _ a s' _ => hf a s')

/-- What a task only calls stands alone in its traces. -/
theorem Only.ensures {P : Call → Prop} {t : Task σ α} (h : t.Only P) (s : σ) :
    t.Ensures (fun l _ _ => ∀ x ∈ l, P x.call) s :=
  ensures_of_yields fun _ _ _ hyields => h.yields hyields

/-- A task never changes a part of the state that has a value. -/
def Fixes (f : σ → γ) (value : γ) : Task σ α → Prop
  | .done _ => True
  | .read next => ∀ s, f s = value → (next s).Fixes f value
  | .write s next => f s = value ∧ next.Fixes f value
  | .call _ next => ∀ answer, (next answer).Fixes f value

/-- A task never changes a part of the state. -/
def Steady (f : σ → γ) (t : Task σ α) : Prop := ∀ value, t.Fixes f value

section Steady

variable {f : σ → γ}

theorem Fixes.bind {value : γ} {t : Task σ α} {g : α → Task σ β} (h : t.Fixes f value)
    (hg : ∀ a, (g a).Fixes f value) : (t >>= g).Fixes f value := by
  induction t with
  | done a => exact hg a
  | read next ih => exact fun s hs => ih s (h s hs)
  | write s next ih => exact ⟨h.1, ih h.2⟩
  | call c next ih => exact fun answer => ih answer (h answer)

theorem Steady.bind {t : Task σ α} {g : α → Task σ β} (h : t.Steady f)
    (hg : ∀ a, (g a).Steady f) : (t >>= g).Steady f :=
  fun value => (h value).bind fun a => hg a value

theorem steady_pure (a : α) : (pure a : Task σ α).Steady f := fun _ => trivial

theorem steady_get : (get : Task σ σ).Steady f := fun _ _ _ => trivial

theorem steady_change {g : σ → σ} (hg : ∀ s, f (g s) = f s) : (change g).Steady f :=
  fun _ s hs => ⟨(hg s).trans hs, trivial⟩

theorem steady_ask (c : Call) : (ask c : Task σ c.Answer).Steady f := fun _ _ => trivial

/-- A task on another part of the state is steady. -/
theorem steady_within {part : Part σ τ} (hpart : ∀ s t, f (part.set s t) = f s)
    (t : Task τ α) : (t.within part).Steady f := by
  intro value
  induction t with
  | done a => exact trivial
  | read next ih => exact fun s _ => ih (part.get s)
  | write t next ih => exact fun s hs => ⟨(hpart s t).trans hs, ih⟩
  | call c next ih => exact fun answer => ih answer

/-- A part that is never changed has its value in the end. -/
theorem Fixes.yields {value : γ} {t : Task σ α} {s s' : σ} {l : List Exchange} {a : α}
    (h : t.Fixes f value) (hs : f s = value) (ht : t.Yields s l a s') : f s' = value := by
  induction ht with
  | done => exact hs
  | read _ ih => exact ih (h _ hs) hs
  | write _ ih => exact ih h.2 h.1
  | call _ ih => exact ih (h _) hs

theorem Steady.ensures {t : Task σ α} (h : t.Steady f) (s : σ) :
    t.Ensures (fun _ _ s' => f s' = f s) s :=
  ensures_of_yields fun _ _ _ hyields => (h (f s)).yields rfl hyields

/-- A part that is never changed has its value at each moment, and what is called then is of the
kind that the traces show. -/
theorem Fixes.heeds {value : γ} {P : Call → Prop} {t : Task σ α} {s : σ} (h : t.Fixes f value)
    (hs : f s = value) (hcalls : t.Ensures (fun l _ _ => ∀ x ∈ l, P x.call) s) :
    t.Heeds (fun m call => f m = value ∧ P call) s := by
  induction t generalizing s with
  | done a => exact trivial
  | read next ih => exact ih s (h s hs) hs hcalls
  | write s' next ih => exact ih h.2 h.1 hcalls
  | call c next ih =>
    refine ⟨⟨hs, ?_⟩, fun answer => ih answer (h answer) hs ((hcalls answer).mono ?_)⟩
    · -- whatever else may be answered, there is a host that answers
      have hrun := hcalls.yields (yields_run agreeable (.call c next) s (.error .rubyNotOnPath))
      exact hrun ⟨c, _⟩ (.head _)
    · exact fun l _ _ hall x hx => hall x (.tail _ hx)

theorem Steady.heeds {P : Call → Prop} {t : Task σ α} (h : t.Steady f) {s : σ}
    (hcalls : t.Ensures (fun l _ _ => ∀ x ∈ l, P x.call) s) :
    t.Heeds (fun m call => f m = f s ∧ P call) s :=
  (h (f s)).heeds rfl hcalls

end Steady

end RubySupervisor.Task
