import RubySupervisor.Proofs.Host.Interference
import RubySupervisor.Proofs.Host.Moments

/-!
# Stretches of a task

Several parties may work on one state, each by a task of its own. A stretch of a task goes up to the
next call that has to be waited for, or to the end: nobody else has a turn in it, and the calls that
are answered at once are made in passing. A party keeps a pact with the others: whatever they do
within what it relies on, each of its stretches leaves behind what they rely on.
-/

namespace RubySupervisor

/-- Whether a call is answered at once, so that nobody else has a turn before its answer. -/
def Call.isInstant : Call → Bool
  | now => true
  | stopwatch => true
  | telemetry _ => true
  | popup _ => true
  | _ => false

/-- A mark in the log of several parties: one of them makes a call that it waits for, or is told the
answer. -/
inductive Mark (ρ : Type) where
  | made (party : ρ) (call : Call)
  | answered (party : ρ) (exchange : Exchange)

/-- The party that leaves a mark. -/
def Mark.party {ρ : Type} : Mark ρ → ρ
  | made party _ => party
  | answered party _ => party

/-- A state with the log of those who work on it. -/
structure Logged (ρ σ : Type) where
  now : σ
  log : List (Mark ρ)

/-- What a party agrees upon with the others: the answers that it trusts, what it relies on while it
waits, and what it leaves when it begins to wait. -/
structure Pact (ρ σ : Type) where
  party : ρ
  trusts : Exchange → Prop
  relies : Logged ρ σ → Logged ρ σ → Prop
  leaves : Logged ρ σ → Prop

variable {ρ σ τ γ α β : Type}

/-- One more mark in the log. -/
def Logged.mark (x : Logged ρ σ) (m : Mark ρ) : Logged ρ σ := ⟨x.now, x.log ++ [m]⟩

namespace Task

/-- A stretch of a task leads from a state to a call that is waited for, or to the end. -/
inductive Stretch : Task σ α → σ → Waiting σ α → σ → Prop where
  | done (a : α) (s : σ) : Stretch (.done a) s (.finished a) s
  | read {next : σ → Task σ α} {s s' : σ} {w : Waiting σ α} (h : (next s).Stretch s w s') :
      Stretch (.read next) s w s'
  | write {next : Task σ α} {s t s' : σ} {w : Waiting σ α} (h : next.Stretch t w s') :
      Stretch (.write t next) s w s'
  | pass {c : Call} {next : c.Answer → Task σ α} {answer : c.Answer} {s s' : σ} {w : Waiting σ α}
      (hinstant : c.isInstant = true) (h : (next answer).Stretch s w s') :
      Stretch (.call c next) s w s'
  | wait {c : Call} {next : c.Answer → Task σ α} {s : σ} (hinstant : c.isInstant = false) :
      Stretch (.call c next) s (.onCall c next) s

/-- The stretch of a task where calls are answered in a fixed way. -/
def stretch (answers : (c : Call) → c.Answer) : Task σ α → σ → Waiting σ α × σ
  | .done a, s => (.finished a, s)
  | .read next, s => (next s).stretch answers s
  | .write s next, _ => next.stretch answers s
  | .call c next, s =>
    if c.isInstant then (next (answers c)).stretch answers s else (.onCall c next, s)

/-- Where calls are answered in a fixed way, a task goes one of its stretches. -/
theorem stretch_spec (answers : (c : Call) → c.Answer) (t : Task σ α) (s : σ) :
    t.Stretch s (t.stretch answers s).1 (t.stretch answers s).2 := by
  induction t generalizing s with
  | done a => exact .done a s
  | read next ih => exact .read (ih s s)
  | write t next ih => exact .write (ih t)
  | call c next ih =>
    by_cases hinstant : c.isInstant
    · simpa only [stretch, hinstant, if_true] using .pass hinstant (ih (answers c) s)
    · simpa only [stretch, hinstant, if_false] using .wait (Bool.eq_false_iff.2 hinstant)

/-- What a task ends with before its first call, the rest of a stretch goes on with. -/
theorem Stretch.of_finished {t : Task σ α} {f : α → Task σ β} {s s' : σ} {w : Waiting σ β} {a : α}
    (h : (t >>= f).Stretch s w s') (hended : (t.segment s).1 = .finished a) :
    (f a).Stretch (t.segment s).2 w s' := by
  induction t generalizing s with
  | done b =>
    obtain rfl := Waiting.finished.inj hended
    exact h
  | read next ih =>
    cases h with
    | read h => exact ih s h hended
  | write t next ih =>
    cases h with
    | write h => exact ih h hended
  | call c next ih => exact nomatch hended

/-- The call that a task waits for, if it has not come to its end. -/
def Waiting.pending? : Waiting σ Unit → Option (Pending σ)
  | .finished () => none
  | .onCall c next => some ⟨c, next⟩

end Task

/-- The state behind a stretch of a party; the call that is waited for is logged. -/
def Logged.behind (x : Logged ρ σ) (party : ρ) (w : Task.Waiting σ Unit) (s : σ) : Logged ρ σ :=
  ⟨s, x.log ++ (w.pending?.map fun p => Mark.made party p.call).toList⟩

namespace Task

/-- A task honours a pact: under what it relies on, and as long as it is answered as it trusts, each
stretch of it ends at a call where it leaves what it has promised, or at the end with the
postcondition. -/
def Honours (k : Pact ρ σ) (post : α → Logged ρ σ → Prop) : Task σ α → Logged ρ σ → Prop
  | .done a, x => post a x
  | .read next, x => (next x.now).Honours k post x
  | .write s next, x => next.Honours k post ⟨s, x.log⟩
  | .call c next, x =>
    if c.isInstant then ∀ answer, (next answer).Honours k post x
    else
      k.leaves (x.mark (.made k.party c)) ∧
        ∀ answer y, k.trusts ⟨c, answer⟩ → k.relies (x.mark (.made k.party c)) y →
          (next answer).Honours k post (y.mark (.answered k.party ⟨c, answer⟩))

variable {k : Pact ρ σ} {x : Logged ρ σ}

/-- A pact is honoured towards every weaker postcondition. -/
theorem Honours.mono {post post' : α → Logged ρ σ → Prop} {t : Task σ α}
    (h : t.Honours k post x) (himp : ∀ a y, post a y → post' a y) : t.Honours k post' x := by
  induction t generalizing x with
  | done a => exact himp a x h
  | read next ih => exact ih _ h
  | write s next ih => exact ih h
  | call c next ih =>
    unfold Honours at h ⊢
    split at h
    · next hinstant =>
      rw [if_pos hinstant]
      exact fun answer => ih answer (h answer)
    · next hinstant =>
      rw [if_neg hinstant]
      exact ⟨h.1, fun answer y htrusts hrelies => ih answer (h.2 answer y htrusts hrelies)⟩

/-- A task honours a pact and goes on with a result that the rest honours it with. -/
theorem honours_bind (post : β → Logged ρ σ → Prop) (t : Task σ α) (f : α → Task σ β)
    (x : Logged ρ σ) :
    (t >>= f).Honours k post x ↔ t.Honours k (fun a y => (f a).Honours k post y) x := by
  induction t generalizing x with
  | done a => exact .rfl
  | read next ih => exact ih _ x
  | write s next ih => exact ih _
  | call c next ih =>
    by_cases hinstant : c.isInstant
    · simpa only [bind_eq, andThen, Honours, hinstant, if_true] using
        forall_congr' fun answer => ih answer x
    · simp only [bind_eq, andThen, Honours, hinstant] at ih ⊢
      exact and_congr .rfl (forall_congr' fun answer => forall_congr' fun y =>
        imp_congr .rfl (imp_congr .rfl (ih answer _)))

theorem honours_get (post : σ → Logged ρ σ → Prop) (x : Logged ρ σ) :
    get.Honours k post x ↔ post x.now x := .rfl

/-- A call that has to be waited for honours a pact under these conditions. -/
theorem honours_call {c : Call} (hinstant : c.isInstant = false) (next : c.Answer → Task σ α)
    (post : α → Logged ρ σ → Prop) (x : Logged ρ σ) :
    (call c next).Honours k post x ↔
      k.leaves (x.mark (.made k.party c)) ∧
        ∀ answer y, k.trusts ⟨c, answer⟩ → k.relies (x.mark (.made k.party c)) y →
          (next answer).Honours k post (y.mark (.answered k.party ⟨c, answer⟩)) := by
  simp only [Honours, hinstant, Bool.false_eq_true, if_false]

/-- What is only called in passing changes nothing for a pact. -/
theorem honours_instant {c : Call} (hinstant : c.isInstant = true) (next : c.Answer → Task σ α)
    (post : α → Logged ρ σ → Prop) (x : Logged ρ σ) :
    (call c next).Honours k post x ↔ ∀ answer, (next answer).Honours k post x := by
  simp only [Honours, hinstant, if_true]

/-- A stretch of a task that honours a pact ends as the pact says. -/
theorem Honours.stretch {post : Unit → Logged ρ σ → Prop} {t : Task σ Unit} {w : Waiting σ Unit}
    {s' : σ} (h : t.Honours k post x) (hstretch : t.Stretch x.now w s') :
    match w.pending? with
    | none => post () (x.behind k.party w s')
    | some p => k.leaves (x.behind k.party w s') ∧
      ∀ answer y, k.trusts ⟨p.call, answer⟩ → k.relies (x.behind k.party w s') y →
        (p.next answer).Honours k post (y.mark (.answered k.party ⟨p.call, answer⟩)) := by
  obtain ⟨s, log⟩ := x
  dsimp only at hstretch
  induction hstretch with
  | done a s => simpa [Waiting.pending?, Logged.behind, Honours] using h
  | read _ ih => exact ih h
  | write _ ih => exact ih h
  | pass hinstant _ ih => exact ih ((honours_instant hinstant _ _ _).1 h _)
  | wait hinstant => exact (honours_call hinstant _ _ _).1 h

/-- A task goes to its end in passing and writes nothing. -/
def Idles : Task σ α → Prop
  | .done _ => True
  | .read next => ∀ s, (next s).Idles
  | .write _ _ => False
  | .call c next => c.isInstant = true ∧ ∀ answer, (next answer).Idles

theorem Idles.bind {t : Task σ α} {f : α → Task σ β} (h : t.Idles) (hf : ∀ a, (f a).Idles) :
    (t >>= f).Idles := by
  induction t with
  | done a => exact hf a
  | read next ih => exact fun s => ih s (h s)
  | write s next _ => exact h.elim
  | call c next ih => exact ⟨h.1, fun answer => ih answer (h.2 answer)⟩

theorem Idles.within {t : Task σ α} (h : t.Idles) (part : Part τ σ) : (t.within part).Idles := by
  induction t with
  | done a => exact trivial
  | read next ih => exact fun s => ih _ (h (part.get s))
  | write s next _ => exact h.elim
  | call c next ih => exact ⟨h.1, fun answer => ih answer (h.2 answer)⟩

/-- What idles goes to its end in one stretch and leaves the state as it is. -/
theorem Idles.stretch {t : Task σ Unit} {s s' : σ} {w : Waiting σ Unit} (h : t.Idles)
    (hstretch : t.Stretch s w s') : w.pending? = none ∧ s' = s := by
  induction hstretch with
  | done a s => exact ⟨rfl, rfl⟩
  | read _ ih => exact ih (h _)
  | write => exact h.elim
  | pass _ _ ih => exact ih (h.2 _)
  | wait hinstant => exact absurd h.1 (Bool.eq_false_iff.1 hinstant)

/-- A task waits once, at a call of one kind, and idles behind the answer. -/
def WaitsOnce (P : Call → Prop) : Task σ α → Prop
  | .done _ => False
  | .read next => ∀ s, (next s).WaitsOnce P
  | .write _ next => next.WaitsOnce P
  | .call c next =>
    if c.isInstant then ∀ answer, (next answer).WaitsOnce P else P c ∧ ∀ answer, (next answer).Idles

theorem waitsOnce_get_bind (P : Call → Prop) (f : σ → Task σ α) :
    (get >>= f).WaitsOnce P ↔ ∀ s, (f s).WaitsOnce P := .rfl

theorem waitsOnce_put_bind (P : Call → Prop) (s : σ) (f : Unit → Task σ α) :
    (put s >>= f).WaitsOnce P ↔ (f ()).WaitsOnce P := .rfl

/-- A call that has to be waited for, with what follows in passing. -/
theorem waitsOnce_call {P : Call → Prop} {c : Call} (hinstant : c.isInstant = false) (h : P c)
    {next : c.Answer → Task σ α} (hnext : ∀ answer, (next answer).Idles) :
    (call c next).WaitsOnce P := by
  simpa only [WaitsOnce, hinstant] using ⟨h, hnext⟩

/-- A call in passing is no wait. -/
theorem waitsOnce_instant {P : Call → Prop} {c : Call} (hinstant : c.isInstant = true)
    {next : c.Answer → Task σ α} (hnext : ∀ answer, (next answer).WaitsOnce P) :
    (call c next).WaitsOnce P := by
  simpa only [WaitsOnce, hinstant, if_true] using hnext

/-- A task that waits once and then idles waits once. -/
theorem WaitsOnce.bind {P : Call → Prop} {t : Task σ α} {f : α → Task σ β} (h : t.WaitsOnce P)
    (hf : ∀ a, (f a).Idles) : (t >>= f).WaitsOnce P := by
  induction t with
  | done a => exact h.elim
  | read next ih => exact fun s => ih s (h s)
  | write s next ih => exact ih h
  | call c next ih =>
    by_cases hinstant : c.isInstant
    · simp only [bind_eq, andThen, WaitsOnce, hinstant, if_true] at h ih ⊢
      exact fun answer => ih answer (h answer)
    · simp only [bind_eq, andThen, WaitsOnce, hinstant] at h ⊢
      exact ⟨h.1, fun answer => (h.2 answer).bind hf⟩

/-- A task on a part waits as often as the task does. -/
theorem WaitsOnce.within {P : Call → Prop} {t : Task σ α} (h : t.WaitsOnce P) (part : Part τ σ) :
    (t.within part).WaitsOnce P := by
  induction t with
  | done a => exact h.elim
  | read next ih => exact fun s => ih _ (h (part.get s))
  | write s next ih => exact fun _ => ih h
  | call c next ih =>
    by_cases hinstant : c.isInstant
    · simp only [Task.within, WaitsOnce, hinstant, if_true] at h ⊢
      exact fun answer => ih answer (h answer)
    · simp only [Task.within, WaitsOnce, hinstant] at h ⊢
      exact ⟨h.1, fun answer => (h.2 answer).within part⟩

/-- A task that waits once comes to a call. -/
theorem WaitsOnce.calls {P : Call → Prop} {t : Task σ α} (h : t.WaitsOnce P) (s : σ) :
    t.Calls s := by
  induction t generalizing s with
  | done a => exact h.elim
  | read next ih => exact ih s (h s) s
  | write t next ih => exact ih h t
  | call c next ih => exact trivial

/-- The first stretch of a task that waits once ends at its call, whatever follows the task. -/
theorem WaitsOnce.stretch {P : Call → Prop} {t : Task σ α} {f : α → Task σ Unit} {s s' : σ}
    {w : Waiting σ Unit} (h : t.WaitsOnce P) (hstretch : (t >>= f).Stretch s w s') :
    ∃ p, w.pending? = some p ∧ P p.call ∧
      ((∀ a, (f a).Idles) → ∀ answer, (p.next answer).Idles) := by
  induction t generalizing s with
  | done a => exact h.elim
  | read next ih =>
    cases hstretch with
    | read hstretch => exact ih s (h s) hstretch
  | write t next ih =>
    cases hstretch with
    | write hstretch => exact ih h hstretch
  | call c next ih =>
    cases hstretch with
    | pass hinstant hstretch =>
      simp only [WaitsOnce, hinstant, if_true] at h
      exact ih _ (h _) hstretch
    | wait hinstant =>
      simp only [WaitsOnce, hinstant] at h
      exact ⟨_, rfl, h.1, fun hf answer => (h.2 answer).bind hf⟩

/-- A part of the state that a task never changes is the same behind a stretch. -/
theorem Fixes.stretch {f : σ → γ} {value : γ} {t : Task σ α} {s s' : σ} {w : Waiting σ α}
    (h : t.Fixes f value) (hs : f s = value) (hstretch : t.Stretch s w s') : f s' = value := by
  induction hstretch with
  | done a s => exact hs
  | read _ ih => exact ih (h _ hs) hs
  | write _ ih => exact ih h.2 h.1
  | pass _ _ ih => exact ih (h _) hs
  | wait => exact hs

end Task

end RubySupervisor
