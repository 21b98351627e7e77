import RubySupervisor.Proofs.Host.Trace

/-!
# Processes of a trace

The calls of a trace start processes and stop them. A process is named by its transport and its own
name. It is live from its start until somebody asks for its stop, whatever is answered; a trace is
exclusive if nothing is started while an earlier process is live.
-/

namespace RubySupervisor

/-- The process that a call starts. -/
def Call.starts? : Call → Option (Nat × ServerId)
  | startServer transport launch => some (transport, launch.id)
  | _ => none

/-- The process that a call stops. -/
def Call.stops? : Call → Option (Nat × ServerId)
  | stopServer transport server => some (transport, server)
  | _ => none

/-- A call neither starts nor stops a process. -/
def Call.Calm (call : Call) : Prop := call.starts? = none ∧ call.stops? = none

/-- A process is started and not stopped. -/
def Unstopped (calls : List Call) (p : Nat × ServerId) : Prop :=
  (∃ call ∈ calls, call.starts? = some p) ∧ ∀ call ∈ calls, call.stops? ≠ some p

/-- What one more call changes about the processes that are not stopped. -/
theorem unstopped_concat {calls : List Call} {call : Call} {p : Nat × ServerId} :
    Unstopped (calls ++ [call]) p ↔
      (Unstopped calls p ∨ call.starts? = some p ∧ ∀ other ∈ calls, other.stops? ≠ some p) ∧
        call.stops? ≠ some p := by
  simp only [Unstopped, List.mem_append, List.mem_singleton, or_imp, forall_and, forall_eq,
    or_and_right, exists_or, exists_eq_left, and_assoc]

/-- The processes that a trace starts, in order. -/
def started (l : List Exchange) : List (Nat × ServerId) := l.filterMap (·.call.starts?)

/-- The processes that a trace stops, in order. -/
def stopped (l : List Exchange) : List (Nat × ServerId) := l.filterMap (·.call.stops?)

@[simp] theorem started_nil : started [] = [] := rfl

@[simp] theorem stopped_nil : stopped [] = [] := rfl

@[simp] theorem started_append (l l' : List Exchange) :
    started (l ++ l') = started l ++ started l' := List.filterMap_append

@[simp] theorem stopped_append (l l' : List Exchange) :
    stopped (l ++ l') = stopped l ++ stopped l' := List.filterMap_append

/-- A process of a trace that was started and not stopped. -/
def Alive (log : List Exchange) (p : Nat × ServerId) : Prop := p ∈ started log ∧ p ∉ stopped log

/-- Behind a trace, whenever a process is started, every one that was started before has been
stopped. -/
def Exclusive (log : List Exchange) : List Exchange → Prop
  | [] => True
  | x :: l =>
    (x.call.starts?.isSome → ∀ p ∈ started log, p ∈ stopped log) ∧ Exclusive (log ++ [x]) l

/-- Two stretches of a trace are exclusive together if each is, behind what came before it. -/
theorem exclusive_append {log l l' : List Exchange} :
    Exclusive log (l ++ l') ↔ Exclusive log l ∧ Exclusive (log ++ l) l' := by
  induction l generalizing log with
  | nil => simp [Exclusive]
  | cons x l ih =>
    simp only [List.cons_append, Exclusive, ih, List.append_assoc, List.nil_append, and_assoc]

/-- What starts nothing is exclusive. -/
theorem exclusive_of_started_eq_nil {log l : List Exchange} (h : started l = []) :
    Exclusive log l := by
  induction l generalizing log with
  | nil => exact trivial
  | cons x l ih =>
    cases hstarts : x.call.starts? with
    | none =>
      refine ⟨by simp [hstarts], ih ?_⟩
      simpa [started, hstarts] using h
    | some p => simp [started, hstarts] at h

/-- What starts a process first and none later is exclusive exactly if no process is live before. -/
theorem exclusive_cons_iff {log l : List Exchange} {x : Exchange}
    (hx : x.call.starts?.isSome = true) (h : started l = []) :
    Exclusive log (x :: l) ↔ ∀ p, ¬ Alive log p := by
  have hrest : Exclusive (log ++ [x]) l := exclusive_of_started_eq_nil h
  simp only [Exclusive, hx, forall_const, hrest, and_true, Alive]
  exact ⟨fun hall p hp => hp.2 (hall p hp.1), fun hnone p hp =>
    Classical.byContradiction fun hlive => hnone p ⟨hp, hlive⟩⟩

/-- A process is live behind two stretches of a trace if it was started in one of them and stopped
in none. -/
theorem alive_append {log l : List Exchange} {p : Nat × ServerId} :
    Alive (log ++ l) p ↔
      (p ∈ started log ∨ p ∈ started l) ∧ p ∉ stopped log ∧ p ∉ stopped l := by
  simp [Alive]

end RubySupervisor
