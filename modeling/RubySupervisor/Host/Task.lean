import RubySupervisor.Host.Call

/-!
# Tasks

A task is an operation of the supervisor as a tree: it reads and writes the state that it works on
and calls the host, and goes on with the answer. What happens between two calls is one atomic
segment, so the same tree serves for running the operation alone and for reasoning about
operations that interleave at their calls.
-/

namespace RubySupervisor

/-- An operation on a state `σ` with a result `α`. -/
inductive Task (σ α : Type) where
  | done (a : α)
  | read (next : σ → Task σ α)
  | write (s : σ) (next : Task σ α)
  | call (c : Call) (next : c.Answer → Task σ α)

/-- A part of a state that an operation works on. -/
structure Part (τ σ : Type) where
  get : τ → σ
  set : τ → σ → τ

namespace Task

variable {σ τ ω α β : Type}

/-- Goes on with the result of a task. -/
def andThen : Task σ α → (α → Task σ β) → Task σ β
  | done a, f => f a
  | read next, f => read (fun s => (next s).andThen f)
  | write s next, f => write s (next.andThen f)
  | call c next, f => call c (fun answer => (next answer).andThen f)

instance : Monad (Task σ) where
  pure := done
  bind := andThen

@[simp] theorem pure_eq (a : α) : (pure a : Task σ α) = done a := rfl

@[simp] theorem bind_eq (t : Task σ α) (f : α → Task σ β) : (t >>= f) = t.andThen f := rfl

theorem andThen_done (t : Task σ α) : t.andThen done = t := by
  induction t with
  | done a => rfl
  | read next ih => simp [andThen, ih]
  | write s next ih => simp [andThen, ih]
  | call c next ih => simp [andThen, ih]

theorem andThen_assoc {γ : Type} (t : Task σ α) (f : α → Task σ β) (g : β → Task σ γ) :
    (t.andThen f).andThen g = t.andThen (fun a => (f a).andThen g) := by
  induction t with
  | done a => rfl
  | read next ih => simp [andThen, ih]
  | write s next ih => simp [andThen, ih]
  | call c next ih => simp [andThen, ih]

/-- The state as it is now. -/
def get : Task σ σ := read done

/-- Replaces the state. -/
def put (s : σ) : Task σ Unit := write s (done ())

/-- Changes the state by a function. -/
def change (f : σ → σ) : Task σ Unit := read (fun s => write (f s) (done ()))

/-- Calls the host. -/
def ask (c : Call) : Task σ c.Answer := call c done

/-- A task on a part of the state as a task on the whole. -/
def within (part : Part τ σ) : Task σ α → Task τ α
  | done a => done a
  | read next => read (fun t => (next (part.get t)).within part)
  | write s next => read (fun t => write (part.set t s) (next.within part))
  | call c next => call c (fun answer => (next answer).within part)

/-- Runs a task on a state and a world. The host sees the state at the moment of each call. -/
def run (host : (c : Call) → σ → ω → c.Answer × ω) : Task σ α → σ → ω → α × σ × ω
  | done a, s, w => (a, s, w)
  | read next, s, w => (next s).run host s w
  | write s next, _, w => next.run host s w
  | call c next, s, w =>
    let (answer, w) := host c s w
    (next answer).run host s w

/-- A task after its current segment: finished with a result, or waiting for an answer. -/
inductive Waiting (σ α : Type) where
  | finished (a : α)
  | onCall (c : Call) (next : c.Answer → Task σ α)

/-- Performs the segment up to the next call. -/
def segment : Task σ α → σ → Waiting σ α × σ
  | done a, s => (.finished a, s)
  | read next, s => (next s).segment s
  | write s next, _ => next.segment s
  | call c next, s => (.onCall c next, s)

theorem run_andThen (host : (c : Call) → σ → ω → c.Answer × ω) (t : Task σ α) (f : α → Task σ β)
    (s : σ) (w : ω) :
    (t.andThen f).run host s w =
      let (a, s, w) := t.run host s w
      (f a).run host s w := by
  induction t generalizing s w with
  | done a => rfl
  | read next ih => simpa [andThen, run] using ih s s w
  | write s' next ih => simpa [andThen, run] using ih s' w
  | call c next ih => simpa [andThen, run] using ih _ s _

end Task

end RubySupervisor
