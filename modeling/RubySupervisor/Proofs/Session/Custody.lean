import RubySupervisor.Proofs.Session.Conduct
import RubySupervisor.Proofs.Transport.Processes

/-!
# Custody of processes

A session has custody of the process that it holds as live: that process was started on the
transport of the session and has not been stopped, and the generations of earlier ones lie behind
the last one. The session is careful as long as its observers are shown that it runs whenever it
holds a process; a careful session starts nothing while a process of its own is live.
-/

namespace RubySupervisor.Session

/-- What a trace knows of the processes of a session. -/
structure Custody (transport : Nat) (log : List Exchange) (s : Session) : Prop where
  live : ∀ id, s.current = some id → Alive log (transport, id)
  past : ∀ id, (transport, id) ∈ started log ∨ (transport, id) ∈ stopped log →
    id.generation ≤ s.last.generation

/-- A trace is exclusive, and what is live behind it is held by a session. -/
structure Sole (transport : Nat) (log : List Exchange) (s : Session) : Prop where
  exclusive : Exclusive [] log
  held : ∀ p, Alive log p → ∃ id, s.current = some id ∧ p = (transport, id)

/-- Observers of a session that holds a process are shown that it runs. -/
def Careful (s : Session) : Prop := s.current = none ∨ s.state = .running

/-- A task of a session keeps custody and deals with processes of the session's transport only;
under a condition it keeps sole custody as well. -/
def Guards {α : Type} (c : SessionContext) (condition : Prop) (t : Task Session α) (s : Session) :
    Prop :=
  ∀ log, Custody c.transport log s → t.Ensures (fun l _ s' =>
    Custody c.transport (log ++ talk l) s' ∧
      (∀ p, p ∈ started (talk l) ∨ p ∈ stopped (talk l) → p.1 = c.transport) ∧
      (condition → Sole c.transport log s → Sole c.transport (log ++ talk l) s')) s

/-- Tasks that guard one after the other guard together. -/
theorem Guards.bind {α β : Type} {c : SessionContext} {condition : Prop} {s : Session}
    {t : Task Session α} {f : α → Task Session β} {R : α → Session → Prop}
    (h : Guards c condition t s) (hresult : t.Ensures (fun _ a s' => R a s') s)
    (hf : ∀ a s', R a s' → Guards c condition (f a) s') : Guards c condition (t >>= f) s := by
  intro log hcustody
  refine (Task.ensures_bind _ t f s).2 (((h log hcustody).and hresult).mono fun l a s' hfirst => ?_)
  obtain ⟨⟨hcustody', hown, hsole⟩, hr⟩ := hfirst
  refine (hf a s' hr (log ++ talk l) hcustody').mono fun l' b s'' hsecond => ?_
  obtain ⟨hcustody'', hown', hsole'⟩ := hsecond
  rw [talk_append, ← List.append_assoc]
  refine ⟨hcustody'', fun p hp => ?_, fun hcondition h => hsole' hcondition (hsole hcondition h)⟩
  rw [started_append, stopped_append, List.mem_append, List.mem_append] at hp
  rcases hp with (hp | hp) | (hp | hp)
  · exact hown p (.inl hp)
  · exact hown' p (.inl hp)
  · exact hown p (.inr hp)
  · exact hown' p (.inr hp)

/-- What says nothing to the transport and holds on to the process guards. -/
theorem guards_of_quiet {α : Type} {c : SessionContext} {condition : Prop} {t : Task Session α}
    {s : Session} (h : t.Ensures (fun l _ s' => started (talk l) = [] ∧ stopped (talk l) = [] ∧
      s'.current = s.current ∧ s'.last = s.last) s) : Guards c condition t s := by
  intro log hcustody
  refine h.mono fun l a s' hquiet => ?_
  obtain ⟨hstarted, hstopped, hcurrent, hlast⟩ := hquiet
  refine ⟨⟨fun id hid => ?_, fun id hid => ?_⟩, by simp [hstarted, hstopped],
    fun _ hsole => ⟨?_, ?_⟩⟩
  · rw [hcurrent] at hid
    simpa [alive_append, Alive, hstarted, hstopped] using hcustody.live id hid
  · rw [hlast]
    exact hcustody.past id (by simpa [hstarted, hstopped] using hid)
  · exact exclusive_append.2 ⟨hsole.exclusive, exclusive_of_started_eq_nil hstarted⟩
  · intro p hp
    rw [hcurrent]
    exact hsole.held p (by simpa [alive_append, Alive, hstarted, hstopped] using hp)

/-- Returning something guards. -/
theorem guards_pure {α : Type} (c : SessionContext) (condition : Prop) (a : α) (s : Session) :
    Guards c condition (pure a) s := guards_of_quiet ⟨rfl, rfl, rfl, rfl⟩

/-- A greeting starts and stops nothing. -/
theorem Greeting.quiet {c : SessionContext} {server : ServerId} {l : List Exchange}
    {complete : Bool} (h : Greeting c server l complete) : started l = [] ∧ stopped l = [] := by
  cases h <;> exact ⟨rfl, rfl⟩

/-- An opening starts one process first and stops nothing. -/
theorem Opening.processes {c : SessionContext} {id server : ServerId} {l : List Exchange}
    {complete : Bool} (h : Opening c id server l complete) :
    ∃ x rest, l = x :: rest ∧ x.call.starts? = some (c.transport, id) ∧ started rest = [] ∧
      started l = [(c.transport, id)] ∧ stopped l = [] := by
  cases h with
  | refused => exact ⟨_, _, rfl, rfl, rfl, rfl, rfl⟩
  | greeted h =>
    obtain ⟨hstarted, hstopped⟩ := h.quiet
    refine ⟨_, _, rfl, rfl, hstarted, ?_, ?_⟩
    · exact congrArg (List.cons (c.transport, id)) hstarted
    · exact hstopped

/-- What a session starts is exclusive exactly if nothing was live before. -/
theorem Started.exclusive_iff {c : SessionContext} {s s' : Session} {l : List Exchange}
    {r : Except ServerError Unit} (h : Started c s l r s') (log : List Exchange) :
    Exclusive log l ↔ ∀ p, ¬ Alive log p := by
  cases h with
  | running hopening =>
    obtain ⟨x, rest, rfl, hx, hrest, -⟩ := hopening.processes
    exact exclusive_cons_iff (by simp [hx]) hrest
  | failed hopening =>
    obtain ⟨x, rest, rfl, hx, hrest, -⟩ := hopening.processes
    refine exclusive_cons_iff (by simp [hx]) ?_
    change started (rest ++ _) = []
    rw [started_append, hrest]
    rfl

/-- What a session starts is its next process, which it holds or has stopped again. -/
theorem Started.processes {c : SessionContext} {s s' : Session} {l : List Exchange}
    {r : Except ServerError Unit} (h : Started c s l r s') :
    started l = [(c.transport, s.last.next)] ∧ s'.last = s.last.next ∧
      (stopped l = [] ∧ s'.current = some s.last.next ∧ s'.state = .running ∨
        stopped l = [(c.transport, s.last.next)] ∧ s'.current = none) := by
  cases h with
  | running hopening =>
    obtain ⟨x, rest, -, -, -, hstarted, hstopped⟩ := hopening.processes
    exact ⟨hstarted, rfl, .inl ⟨hstopped, rfl, rfl⟩⟩
  | failed hopening =>
    obtain ⟨x, rest, -, -, -, hstarted, hstopped⟩ := hopening.processes
    refine ⟨?_, rfl, .inr ⟨?_, rfl⟩⟩
    · rw [started_append, hstarted]
      rfl
    · rw [stopped_append, hstopped]
      rfl

/-- What a session starts is in its custody, unless it has been stopped again. -/
theorem Started.custody {c : SessionContext} {s s' : Session} {l log : List Exchange}
    {r : Except ServerError Unit} (h : Started c s l r s') (hcustody : Custody c.transport log s) :
    Custody c.transport (log ++ l) s' := by
  obtain ⟨hstarted, hlast, hend⟩ := h.processes
  have hgrow : s.last.generation < s.last.next.generation := Nat.lt_succ_self _
  -- the process is a new one, so that nothing has stopped it before
  have hfresh : (c.transport, s.last.next) ∉ stopped log := fun hin =>
    absurd (hcustody.past _ (.inr hin)) (Nat.not_le.2 hgrow)
  have hnew (id : ServerId) (hid : (c.transport, id) = (c.transport, s.last.next)) :
      id.generation ≤ s'.last.generation := by
    have hsame : id = s'.last := (congrArg Prod.snd hid).trans hlast.symm
    exact Nat.le_of_eq (congrArg _ hsame)
  have hold (id : ServerId)
      (hid : (c.transport, id) ∈ started log ∨ (c.transport, id) ∈ stopped log) :
      id.generation ≤ s'.last.generation := by
    rw [hlast]
    exact Nat.le_trans (hcustody.past id hid) (Nat.le_of_lt hgrow)
  refine ⟨fun id hid => ?_, fun id hid => ?_⟩
  · rcases hend with ⟨hstopped, hcurrent, -⟩ | ⟨-, hcurrent⟩
    · obtain rfl : s.last.next = id := Option.some.inj (hcurrent.symm.trans hid)
      simpa [alive_append, hstarted, hstopped] using hfresh
    · rw [hcurrent] at hid
      cases hid
  · rw [started_append, stopped_append, List.mem_append, List.mem_append, hstarted] at hid
    rcases hid with (hid | hid) | (hid | hid)
    · exact hold id (.inl hid)
    · exact hnew id (List.mem_singleton.1 hid)
    · exact hold id (.inr hid)
    · rcases hend with ⟨hstopped, -⟩ | ⟨hstopped, -⟩
      · simp [hstopped] at hid
      · rw [hstopped] at hid
        exact hnew id (List.mem_singleton.1 hid)

/-- A session starts and stops processes of its own transport only. -/
theorem Started.own {c : SessionContext} {s s' : Session} {l : List Exchange}
    {r : Except ServerError Unit} (h : Started c s l r s') :
    ∀ p, p ∈ started l ∨ p ∈ stopped l → p.1 = c.transport := by
  obtain ⟨hstarted, -, hend⟩ := h.processes
  intro p hp
  rcases hend with ⟨hstopped, -⟩ | ⟨hstopped, -⟩
  · simp only [hstarted, hstopped, List.mem_singleton, List.not_mem_nil, or_false] at hp
    rw [hp]
  · simp only [hstarted, hstopped, List.mem_singleton, or_self] at hp
    rw [hp]

/-- What a session starts while it holds nothing is the only live process, unless it has been
stopped again. -/
theorem Started.sole {c : SessionContext} {s s' : Session} {l log : List Exchange}
    {r : Except ServerError Unit} (h : Started c s l r s') (hsole : Sole c.transport log s)
    (hnone : s.current = none) : Sole c.transport (log ++ l) s' := by
  obtain ⟨hstarted, -, hend⟩ := h.processes
  have hempty : ∀ p, ¬ Alive log p := fun p hp => by
    obtain ⟨id, hid, -⟩ := hsole.held p hp
    rw [hnone] at hid
    cases hid
  refine ⟨exclusive_append.2 ⟨hsole.exclusive, ?_⟩, fun p hp => ?_⟩
  · rw [List.nil_append]
    exact (h.exclusive_iff log).2 hempty
  · obtain ⟨hborn, hlived, hspared⟩ := alive_append.1 hp
    have hp : p = (c.transport, s.last.next) := by
      rcases hborn with hborn | hborn
      · exact absurd ⟨hborn, hlived⟩ (hempty p)
      · simpa [hstarted] using hborn
    rcases hend with ⟨-, hcurrent, -⟩ | ⟨hstopped, -⟩
    · exact ⟨s.last.next, hcurrent, hp⟩
    · exact absurd (by simp [hstopped, hp]) hspared

/-- A start guards; a careful session keeps sole custody. -/
theorem guards_start (c : SessionContext) (s : Session) : Guards c s.Careful (start c) s := by
  intro log hcustody
  by_cases hstate : s.state = .running
  · refine guards_of_quiet ((ensures_start_running hstate).mono fun l r s' hstart => ?_)
      log hcustody
    obtain ⟨rfl, -, rfl⟩ := hstart
    exact ⟨rfl, rfl, rfl, rfl⟩
  · refine (ensures_start hstate).mono fun l r s' hstart => ?_
    refine ⟨hstart.1.custody hcustody, hstart.1.own, fun hcareful hsole => ?_⟩
    exact hstart.1.sole hsole (hcareful.resolve_right hstate)

/-- A session that has stopped holds no process. -/
theorem ensures_stop_released (c : SessionContext) (s : Session) :
    (stop c).Ensures (fun _ _ s' => s'.current = none) s := by
  cases hcurrent : s.current with
  | none =>
    refine (ensures_stop_idle hcurrent).mono fun l r s' hstop => ?_
    obtain ⟨-, -, rfl⟩ := hstop
    exact hcurrent
  | some id =>
    refine (ensures_stop hcurrent).mono fun l r s' hstop => ?_
    obtain ⟨shutdown, exit, m, -, rfl⟩ := hstop
    rfl

/-- The session lets go of the process that it holds, which is stopped. -/
theorem Custody.release {transport : Nat} {log l : List Exchange} {s s' : Session} {id : ServerId}
    (h : Custody transport log s) (hcurrent : s.current = some id) (hstarted : started l = [])
    (hstopped : stopped l = [(transport, id)]) (hnone : s'.current = none)
    (hlast : s'.last = s.last) : Custody transport (log ++ l) s' := by
  refine ⟨fun id hid => ?_, fun other hother => ?_⟩
  · rw [hnone] at hid
    cases hid
  · rw [hlast]
    simp only [started_append, stopped_append, hstarted, hstopped, List.append_nil,
      List.mem_append, List.mem_singleton, Prod.mk.injEq, true_and] at hother
    rcases hother with hother | hother | rfl
    · exact h.past other (.inl hother)
    · exact h.past other (.inr hother)
    · exact h.past other (.inl (h.live other hcurrent).1)

/-- Where the only live process is stopped, none is left. -/
theorem Sole.release {transport : Nat} {log l : List Exchange} {s s' : Session} {id : ServerId}
    (h : Sole transport log s) (hcurrent : s.current = some id) (hstarted : started l = [])
    (hstopped : stopped l = [(transport, id)]) : Sole transport (log ++ l) s' := by
  refine ⟨exclusive_append.2 ⟨h.exclusive, exclusive_of_started_eq_nil hstarted⟩, fun p hp => ?_⟩
  obtain ⟨hborn, hlived, hspared⟩ := alive_append.1 hp
  simp only [hstarted, List.not_mem_nil, or_false] at hborn
  obtain ⟨other, hother, rfl⟩ := h.held p ⟨hborn, hlived⟩
  obtain rfl : other = id := Option.some.inj (hother.symm.trans hcurrent)
  exact absurd (by simp [hstopped]) hspared

/-- What lets go of the process that the session holds guards. -/
theorem guards_of_release {α : Type} {c : SessionContext} {condition : Prop} {t : Task Session α}
    {s : Session} {id : ServerId} (hcurrent : s.current = some id)
    (h : t.Ensures (fun l _ s' => started (talk l) = [] ∧ stopped (talk l) = [(c.transport, id)] ∧
      s'.current = none ∧ s'.last = s.last) s) : Guards c condition t s := by
  intro log hcustody
  refine h.mono fun l a s' hrelease => ?_
  obtain ⟨hstarted, hstopped, hnone, hlast⟩ := hrelease
  refine ⟨hcustody.release hcurrent hstarted hstopped hnone hlast, fun p hp => ?_, fun _ hsole =>
    hsole.release hcurrent hstarted hstopped⟩
  simp only [hstarted, hstopped, List.not_mem_nil, List.mem_singleton, false_or] at hp
  rw [hp]

/-- A stop guards, whether the session is careful or not. -/
theorem guards_stop (c : SessionContext) (condition : Prop) (s : Session) :
    Guards c condition (stop c) s := by
  cases hcurrent : s.current with
  | none =>
    refine guards_of_quiet ((ensures_stop_idle hcurrent).mono fun l r s' hstop => ?_)
    obtain ⟨rfl, -, rfl⟩ := hstop
    exact ⟨rfl, rfl, rfl, rfl⟩
  | some id =>
    refine guards_of_release hcurrent ((ensures_stop hcurrent).mono fun l r s' hstop => ?_)
    obtain ⟨shutdown, exit, m, htalk, rfl⟩ := hstop
    rw [htalk]
    exact ⟨rfl, rfl, rfl, rfl⟩

/-- What guards under a condition guards under every stronger one. -/
theorem Guards.weaken {α : Type} {c : SessionContext} {condition condition' : Prop}
    {t : Task Session α} {s : Session} (h : Guards c condition t s)
    (himp : condition' → condition) : Guards c condition' t s := fun log hcustody =>
  (h log hcustody).mono fun _ _ _ hkept =>
    ⟨hkept.1, hkept.2.1, fun hcondition => hkept.2.2 (himp hcondition)⟩

/-- A replacement guards; a careful session keeps sole custody. -/
theorem guards_replace (c : SessionContext) (s : Session) : Guards c s.Careful (replace c) s := by
  have hanything {α : Type} (t : Task Session α) (s : Session) :
      t.Ensures (fun _ _ _ => True) s := Task.ensures_of_yields fun _ _ _ _ => trivial
  change Guards c s.Careful (if s.state = .running then _ else _) s
  split
  · refine (guards_stop c _ s).bind (ensures_stop_released c s) fun r s' hreleased => ?_
    split
    · refine ((guards_start c s').weaken fun _ => .inl hreleased).bind (hanything _ _) ?_
      exact fun _ s₁ _ => guards_pure c _ () s₁
    · exact guards_pure c _ () s'
  · exact (guards_start c s).bind (hanything _ _) fun _ s' _ => guards_pure c _ () s'

/-- A restart guards; a careful session keeps sole custody. -/
theorem guards_restart (c : SessionContext) (s : Session) : Guards c s.Careful (restart c) s := by
  have hfiles : Guards c s.Careful (Task.ask .files) s :=
    guards_of_quiet fun _ => ⟨rfl, rfl, rfl, rfl⟩
  refine hfiles.bind (R := fun _ s' => s' = s) (fun _ => rfl) fun files s' hs => ?_
  subst hs
  split
  · exact guards_pure c _ () s'
  · exact guards_replace c s'

/-- A careless restart does nothing, or starts a process while one is live. -/
theorem ensures_restart_careless {c : SessionContext} {s : Session} {id : ServerId}
    {log : List Exchange} (hcustody : Custody c.transport log s) (hcurrent : s.current = some id)
    (hstate : s.state ≠ .running) :
    (restart c).Ensures (fun l _ s' =>
      talk l = [] ∧ s' = s ∨ started (talk l) ≠ [] ∧ ¬ Exclusive log (talk l)) s := by
  simp only [restart, Task.ensures_bind, Task.ask_eq, Task.ensures_call, Task.ensures_done]
  intro files
  split
  · exact .inl ⟨rfl, rfl⟩
  · simp only [replace, Task.ensures_bind, Task.ensures_get, if_neg hstate]
    refine (ensures_start hstate).mono fun l r s' hstart => .inr ?_
    simp only [List.nil_append, List.append_nil, List.cons_append, talk_cons, Call.isTransport,
      Call.addressee?, Option.isSome_none, Bool.false_eq_true, if_false]
    refine ⟨by simp [hstart.1.processes.1], fun hexclusive => ?_⟩
    exact (hstart.1.exclusive_iff log).1 hexclusive _ (hcustody.live id hcurrent)

/-- Observing an event guards, whether the session is careful or not. -/
theorem guards_observe (c : SessionContext) (event : TransportEvent) (condition : Prop)
    (s : Session) : Guards c condition (observe c event) s := by
  by_cases hlost : ∃ id status, s.current = some id ∧ event = .status id status ∧ status.isFinal
  · obtain ⟨id, status, hcurrent, rfl, hfinal⟩ := hlost
    refine guards_of_release hcurrent ((ensures_observe c _ s).mono fun l r s' hobserved => ?_)
    generalize talk l = said at hobserved ⊢
    cases hobserved with
    | released => exact ⟨rfl, rfl, rfl, rfl⟩
    | ignored h => exact absurd ⟨hfinal, rfl⟩ (h id hcurrent)
  · refine guards_of_quiet ((ensures_observe c event s).mono fun l r s' hobserved => ?_)
    generalize talk l = said at hobserved ⊢
    cases hobserved with
    | released hcurrent hfinal => exact absurd ⟨_, _, hcurrent, rfl, hfinal⟩ hlost
    | answered => exact ⟨rfl, rfl, rfl, rfl⟩
    | ignored => exact ⟨rfl, rfl, rfl, rfl⟩

/-- What is found out after a start guards. -/
theorem guards_afterStart (c : SessionContext) (condition : Prop) (s : Session) :
    Guards c condition (afterStart c) s := by
  refine guards_of_quiet ((ensures_afterStart c s).mono fun l r s' hafter => ?_)
  obtain ⟨htalk, formatter, m, rfl⟩ := hafter
  rw [htalk]
  exact ⟨rfl, rfl, rfl, rfl⟩

end RubySupervisor.Session
