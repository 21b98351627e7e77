import RubySupervisor.Proofs.Host.Trace

/-!
# Tasks side by side

What is said of two tasks that meet the same world is said of every pair of their runs. Two tasks
that go on after results which belong together are put side by side part by part.
-/

namespace RubySupervisor.Task

variable {σ τ α β γ δ : Type} {P : Exchange → Prop}

/-- A run of a task that goes on with a result is a run up to the result and one behind it. -/
theorem Yields.of_bind {t : Task σ α} {f : α → Task σ β} {s s' : σ} {l : List Exchange} {b : β}
    (h : (t >>= f).Yields s l b s') : ∃ l₁ a u l₂, l = l₁ ++ l₂ ∧ t.Yields s l₁ a u ∧
      (f a).Yields u l₂ b s' := by
  have hruns : (t >>= f).Ensures (fun l b s' => ∃ l₁ a u l₂, l = l₁ ++ l₂ ∧ t.Yields s l₁ a u ∧
      (f a).Yields u l₂ b s') s :=
    (ensures_bind _ t f s).2 <| ensures_of_yields fun l₁ a u h₁ =>
      ensures_of_yields fun l₂ _ _ h₂ => ⟨l₁, a, u, l₂, rfl, h₁, h₂⟩
  exact hruns.yields h

/-- Two tasks side by side: whenever both are answered as a condition says, their results and states
are as another one says. -/
def Alongside (P : Exchange → Prop) (Q : α → σ → β → τ → Prop) (t : Task σ α) (t' : Task τ β)
    (s : σ) (s' : τ) : Prop :=
  ∀ l a u l' b u', t.Yields s l a u → (∀ x ∈ l, P x) → t'.Yields s' l' b u' → (∀ x ∈ l', P x) →
    Q a u b u'

theorem alongside_of_ensures {A : α → σ → Prop} {B : β → τ → Prop} {Q : α → σ → β → τ → Prop}
    {t : Task σ α} {t' : Task τ β} {s : σ} {s' : τ}
    (h : t.Ensures (fun l a u => (∀ x ∈ l, P x) → A a u) s)
    (h' : t'.Ensures (fun l b u => (∀ x ∈ l, P x) → B b u) s')
    (hrest : ∀ a u b u', A a u → B b u' → Q a u b u') : t.Alongside P Q t' s s' :=
  fun _ a u _ b u' ht hl ht' hl' => hrest a u b u' (h.yields ht hl) (h'.yields ht' hl')

theorem alongside_pure {Q : α → σ → β → τ → Prop} {a : α} {b : β} {s : σ} {s' : τ}
    (h : Q a s b s') : (pure a : Task σ α).Alongside P Q (pure b : Task τ β) s s' :=
  fun _ _ _ _ _ _ ht _ ht' _ => by
    cases ht
    cases ht'
    exact h

/-- Tasks side by side go on side by side. -/
theorem alongside_bind {R : α → σ → β → τ → Prop} {Q : γ → σ → δ → τ → Prop} {t : Task σ α}
    {t' : Task τ β} {f : α → Task σ γ} {f' : β → Task τ δ} {s : σ} {s' : τ}
    (h : t.Alongside P R t' s s')
    (hrest : ∀ l a u b u', t.Yields s l a u → (∀ x ∈ l, P x) → R a u b u' →
      (f a).Alongside P Q (f' b) u u') :
    (t >>= f).Alongside P Q (t' >>= f') s s' := by
  intro l c u l' d u' ht hl ht' hl'
  obtain ⟨l₁, a, v, l₂, rfl, h₁, h₂⟩ := ht.of_bind
  obtain ⟨l₁', b, v', l₂', rfl, h₁', h₂'⟩ := ht'.of_bind
  obtain ⟨hl₁, hl₂⟩ := List.forall_mem_append.1 hl
  obtain ⟨hl₁', hl₂'⟩ := List.forall_mem_append.1 hl'
  exact hrest l₁ a v b v' h₁ hl₁ (h _ _ _ _ _ _ h₁ hl₁ h₁' hl₁') _ _ _ _ _ _ h₂ hl₂ h₂' hl₂'

/-- Questions side by side are answered as the condition says. -/
theorem alongside_ask {Q : γ → σ → δ → τ → Prop} {c c' : Call} {f : c.Answer → Task σ γ}
    {f' : c'.Answer → Task τ δ} {s : σ} {s' : τ}
    (h : ∀ a b, P ⟨c, a⟩ → P ⟨c', b⟩ → (f a).Alongside P Q (f' b) s s') :
    (ask c >>= f).Alongside P Q (ask c' >>= f') s s' := by
  intro l d u l' d' u' ht hl ht' hl'
  cases ht with
  | @call _ _ a _ _ _ _ ht =>
    cases ht' with
    | @call _ _ b _ _ _ _ ht' =>
      obtain ⟨ha, hl⟩ := List.forall_mem_cons.1 hl
      obtain ⟨hb, hl'⟩ := List.forall_mem_cons.1 hl'
      exact h a b ha hb _ _ _ _ _ _ ht hl ht' hl'

theorem alongside_get {Q : γ → σ → δ → τ → Prop} {f : σ → Task σ γ} {f' : τ → Task τ δ} {s : σ}
    {s' : τ} (h : (f s).Alongside P Q (f' s') s s') :
    (get >>= f).Alongside P Q (get >>= f') s s' := by
  intro l d u l' d' u' ht hl ht' hl'
  cases ht with
  | read ht =>
    cases ht' with
    | read ht' => exact h _ _ _ _ _ _ ht hl ht' hl'

/-- Where every question has an answer as a condition says, a task may be answered so. -/
theorem exists_yields (hP : ∀ c : Call, ∃ answer, P ⟨c, answer⟩) (t : Task σ α) (s : σ) :
    ∃ l a u, t.Yields s l a u ∧ ∀ x ∈ l, P x := by
  induction t generalizing s with
  | done a => exact ⟨[], a, s, .done a s, by simp⟩
  | read next ih =>
    obtain ⟨l, a, u, h, hl⟩ := ih s s
    exact ⟨l, a, u, .read h, hl⟩
  | write t next ih =>
    obtain ⟨l, a, u, h, hl⟩ := ih t
    exact ⟨l, a, u, .write h, hl⟩
  | call c next ih =>
    obtain ⟨answer, hanswer⟩ := hP c
    obtain ⟨l, a, u, h, hl⟩ := ih answer s
    exact ⟨⟨c, answer⟩ :: l, a, u, .call h, List.forall_mem_cons.2 ⟨hanswer, hl⟩⟩

/-- Tasks side by side come to ends, which are of the kinds that each of them ensures. -/
theorem Alongside.exists_ends {A : α → σ → Prop} {B : β → τ → Prop} {Q : α → σ → β → τ → Prop}
    {t : Task σ α} {t' : Task τ β} {s : σ} {s' : τ} (h : t.Alongside P Q t' s s')
    (hP : ∀ c : Call, ∃ answer, P ⟨c, answer⟩)
    (ht : t.Ensures (fun l a u => (∀ x ∈ l, P x) → A a u) s)
    (ht' : t'.Ensures (fun l b u => (∀ x ∈ l, P x) → B b u) s') :
    ∃ a u b u', A a u ∧ B b u' ∧ Q a u b u' := by
  obtain ⟨l, a, u, hyields, hl⟩ := exists_yields hP t s
  obtain ⟨l', b, u', hyields', hl'⟩ := exists_yields hP t' s'
  exact ⟨a, u, b, u', ht.yields hyields hl, ht'.yields hyields' hl',
    h _ _ _ _ _ _ hyields hl hyields' hl'⟩

theorem Alongside.mono {P' : Exchange → Prop} {Q Q' : α → σ → β → τ → Prop} {t : Task σ α}
    {t' : Task τ β} {s : σ} {s' : τ} (h : t.Alongside P Q t' s s') (hP : ∀ x, P' x → P x)
    (hQ : ∀ a u b u', Q a u b u' → Q' a u b u') : t.Alongside P' Q' t' s s' :=
  fun _ a u _ b u' ht hl ht' hl' => hQ a u b u' <|
    h _ _ _ _ _ _ ht (fun x hx => hP x (hl x hx)) ht' fun x hx => hP x (hl' x hx)

end RubySupervisor.Task
