import RubySupervisor.Proofs.Host.Trace

/-!
# Tasks under interference

While a task waits for the answer to a call, others may change the state that it works on and make
calls of their own. A task withstands interference if every segment of it keeps to a guarantee and
its end to a postcondition, whatever the host answers and whatever the others do within what the
task relies on. Both are told where the segment began.
-/

namespace RubySupervisor

/-- A state together with the calls that were made up to now. -/
structure Scene (σ : Type) where
  now : σ
  calls : List Call

namespace Task

variable {σ τ α β : Type}

/-- Under what it relies on, each segment of a task leads from its origin to a call that satisfies
the guarantee, or to an end that satisfies the postcondition. -/
def Withstands (rely : Scene σ → Scene σ → Prop) (guarantee : σ → Scene σ → Prop)
    (post : σ → α → Scene σ → Prop) : Task σ α → σ → Scene σ → Prop
  | .done a, origin, x => post origin a x
  | .read next, origin, x => (next x.now).Withstands rely guarantee post origin x
  | .write s next, origin, x => next.Withstands rely guarantee post origin ⟨s, x.calls⟩
  | .call c next, origin, x =>
    guarantee origin ⟨x.now, x.calls ++ [c]⟩ ∧
      ∀ answer y, rely ⟨x.now, x.calls ++ [c]⟩ y →
        (next answer).Withstands rely guarantee post y.now y

variable {rely : Scene σ → Scene σ → Prop} {guarantee : σ → Scene σ → Prop}

/-- What a task withstands, it withstands towards every weaker postcondition. -/
theorem Withstands.mono {post post' : σ → α → Scene σ → Prop} {t : Task σ α} {origin : σ}
    {x : Scene σ} (h : t.Withstands rely guarantee post origin x)
    (himp : ∀ origin a y, post origin a y → post' origin a y) :
    t.Withstands rely guarantee post' origin x := by
  induction t generalizing origin x with
  | done a => exact himp origin a x h
  | read next ih => exact ih _ h
  | write s next ih => exact ih h
  | call c next ih => exact ⟨h.1, fun answer y hrely => ih answer (h.2 answer y hrely)⟩

/-- A task withstands interference and goes on with a result that the rest withstands. -/
theorem withstands_andThen (post : σ → β → Scene σ → Prop) (t : Task σ α) (f : α → Task σ β)
    (origin : σ) (x : Scene σ) :
    (t.andThen f).Withstands rely guarantee post origin x ↔
      t.Withstands rely guarantee
        (fun origin a y => (f a).Withstands rely guarantee post origin y) origin x := by
  induction t generalizing origin x with
  | done a => exact .rfl
  | read next ih => exact ih _ origin x
  | write s next ih => exact ih origin _
  | call c next ih =>
    exact and_congr .rfl (forall_congr' fun answer => forall_congr' fun y =>
      imp_congr .rfl (ih answer y.now y))

@[simp] theorem withstands_bind (post : σ → β → Scene σ → Prop) (t : Task σ α)
    (f : α → Task σ β) (origin : σ) (x : Scene σ) :
    (t >>= f).Withstands rely guarantee post origin x ↔
      t.Withstands rely guarantee
        (fun origin a y => (f a).Withstands rely guarantee post origin y) origin x :=
  withstands_andThen post t f origin x

@[simp] theorem withstands_get (post : σ → σ → Scene σ → Prop) (origin : σ) (x : Scene σ) :
    get.Withstands rely guarantee post origin x ↔ post origin x.now x := .rfl

/-- A task comes to a call before it ends. -/
def Calls : Task σ α → σ → Prop
  | .done _, _ => False
  | .read next, s => (next s).Calls s
  | .write s next, _ => next.Calls s
  | .call _ _, _ => True

theorem calls_get_bind (f : σ → Task σ α) (s : σ) : (get >>= f).Calls s ↔ (f s).Calls s := .rfl

/-- What comes to a call comes to it whatever follows. -/
theorem Calls.andThen {t : Task σ α} {s : σ} (h : t.Calls s) (f : α → Task σ β) :
    (t.andThen f).Calls s := by
  induction t generalizing s with
  | done a => exact h.elim
  | read next ih => exact ih s h
  | write s' next ih => exact ih h
  | call c next ih => exact trivial

/-- A call that a task waits at, with what follows its answer. -/
structure Pending (σ : Type) where
  call : Call
  next : call.Answer → Task σ Unit

/-- The call that a task waits at when its current segment is over, if it does not end with it. -/
def pending? (t : Task σ Unit) (s : σ) : Option (Pending σ) :=
  match (t.segment s).1 with
  | .finished () => none
  | .onCall c next => some ⟨c, next⟩

/-- A task that comes to a call does not end at once. -/
theorem Calls.segment_ne {t : Task σ α} {s : σ} (h : t.Calls s) (a : α) :
    (t.segment s).1 ≠ .finished a := by
  induction t generalizing s with
  | done b => exact h.elim
  | read next ih => exact ih s h
  | write s' next ih => exact ih h
  | call c next ih => exact nofun

/-- A task that comes to a call waits at one. -/
theorem Calls.pending?_ne_none {t : Task σ Unit} {s : σ} (h : t.Calls s) : t.pending? s ≠ none := by
  induction t generalizing s with
  | done a => exact h.elim
  | read next ih => exact ih s h
  | write s' next ih => exact ih h
  | call c next ih => exact Option.some_ne_none _

/-- The scene when the current segment is over; the call that it leads to is made. -/
def scene (t : Task σ Unit) (x : Scene σ) : Scene σ :=
  ⟨(t.segment x.now).2, x.calls ++ ((t.pending? x.now).map (·.call)).toList⟩

/-- The current segment of a task that withstands interference leads to its end or to a call. -/
theorem Withstands.segment {post : σ → Unit → Scene σ → Prop} {t : Task σ Unit} {x : Scene σ}
    {origin : σ} (h : t.Withstands rely guarantee post origin x) :
    match t.pending? x.now with
    | none => post origin () (t.scene x)
    | some p => guarantee origin (t.scene x) ∧
      ∀ answer y, rely (t.scene x) y → (p.next answer).Withstands rely guarantee post y.now y := by
  induction t generalizing x with
  | done a => simpa [pending?, scene, Task.segment, Withstands] using h
  | read next ih => exact ih _ h
  | write s next ih => exact ih h
  | call c next ih => exact h

end Task

end RubySupervisor
