import RubySupervisor.Proofs.Session.Custody

/-!
# What observers are shown

Observers are shown a lifecycle state. It is honest if it says that a server runs exactly while a
process is held, and it is not about a start that is over. The operations of a session that change
anything leave an honest state behind, and a process that was held before is not passed over in
silence: it is stopped, or another one is started.
-/

namespace RubySupervisor

/-- A trace neither starts a process nor stops one. -/
def Still (l : List Exchange) : Prop := started (talk l) = [] ∧ stopped (talk l) = []

theorem still_of_talk_eq_nil {l : List Exchange} (h : talk l = []) : Still l := by
  rw [Still, h]
  exact ⟨rfl, rfl⟩

@[simp] theorem still_nil : Still [] := ⟨rfl, rfl⟩

@[simp] theorem still_append {l l' : List Exchange} : Still (l ++ l') ↔ Still l ∧ Still l' := by
  simp only [Still, talk_append, started_append, stopped_append, List.append_eq_nil_iff]
  exact and_and_and_comm

/-- What observers are shown, whether a process is held, and whether there is a client to hold
one. -/
structure Display where
  state : LifecycleState
  holds : Bool
  manned : Bool

namespace Display

/-- No start is under way, and what is shown to run is what is held. -/
structure Honest (d : Display) : Prop where
  ready : d.state ≠ .starting
  running_iff : d.state = .running ↔ d.holds = true

/-- What a trace does to a display: it leaves it alone, or makes it honest and does not pass over a
process that was held before. -/
inductive Moves (d : Display) (l : List Exchange) : Display → Prop where
  | left (h : Still l) : Moves d l d
  | settled {d' : Display} (h : d'.Honest) (hleft : d.holds = true → ¬ Still l) : Moves d l d'

/-- Moves one after the other are a move. -/
theorem Moves.trans {d d₁ d₂ : Display} {l l' : List Exchange} (h : d.Moves l d₁)
    (h' : d₁.Moves l' d₂) : d.Moves (l ++ l') d₂ := by
  cases h' with
  | left hstill' =>
    cases h with
    | left hstill => exact .left (still_append.2 ⟨hstill, hstill'⟩)
    | settled h hleft => exact .settled h fun hd hstill => hleft hd (still_append.1 hstill).1
  | settled h' hleft' =>
    refine .settled h' fun hd hstill => ?_
    cases h with
    | left => exact hleft' hd (still_append.1 hstill).2
    | settled h hleft => exact hleft hd (still_append.1 hstill).1

end Display

namespace Task

variable {σ α β : Type} {view : σ → Display}

/-- A task moves what is shown of its state. -/
def Candid (view : σ → Display) (t : Task σ α) (s : σ) : Prop :=
  t.Ensures (fun l _ s' => (view s).Moves l (view s')) s

/-- Candid tasks are candid together. -/
theorem Candid.bind {t : Task σ α} {f : α → Task σ β} {s : σ} (h : t.Candid view s)
    (hf : ∀ a s', (f a).Candid view s') : (t >>= f).Candid view s :=
  (ensures_bind _ t f s).2 (h.mono fun _ a s' hmoves =>
    (hf a s').mono fun _ _ _ hmoves' => hmoves.trans hmoves')

theorem candid_pure (a : α) (s : σ) : (pure a : Task σ α).Candid view s := .left still_nil

end Task

namespace Session

/-- What observers are shown of a session. -/
def display (s : Session) : Display := ⟨s.state, s.current.isSome, true⟩

/-- What a session starts does not stay unnoticed. -/
theorem Started.not_still {c : SessionContext} {s s' : Session} {l : List Exchange}
    {r : Except ServerError Unit} (h : Started c s (talk l) r s') : ¬ Still l := by
  rw [Still, h.processes.1]
  simp

/-- A session whose start is over is honest. -/
theorem Started.honest {c : SessionContext} {s s' : Session} {l : List Exchange}
    {r : Except ServerError Unit} (h : Started c s l r s') : s'.display.Honest := by
  cases r with
  | ok =>
    obtain ⟨hstate, hcurrent⟩ := h.of_ok
    exact ⟨by simp [display, hstate], by simp [display, hstate, hcurrent]⟩
  | error error =>
    obtain ⟨hstate, hcurrent⟩ := h.of_error
    exact ⟨by simp [display, hstate], by simp [display, hstate, hcurrent]⟩

/-- What takes leave of a process does not stay unnoticed. -/
theorem not_still_of_farewell {c : SessionContext} {id : ServerId} {request : RequestId}
    {shutdown : Except ServerError Response} {exit stopped : Except ServerError Unit}
    {l : List Exchange} (h : talk l = farewell c id request shutdown exit stopped) : ¬ Still l := by
  rw [Still, h]
  exact fun hstill => absurd hstill.2 (by simp [RubySupervisor.stopped, farewell, Call.stops?])

theorem candid_start (c : SessionContext) (s : Session) : (start c).Candid display s := by
  by_cases hstate : s.state = .running
  · refine (ensures_start_running hstate).mono fun l r s' hstart => ?_
    obtain ⟨rfl, -, rfl⟩ := hstart
    exact .left still_nil
  · exact (ensures_start hstate).mono fun l r s' hstart =>
      .settled hstart.1.honest fun _ => hstart.1.not_still

theorem candid_stop (c : SessionContext) (s : Session) : (stop c).Candid display s := by
  cases hcurrent : s.current with
  | none =>
    refine (ensures_stop_idle hcurrent).mono fun l r s' hstop => ?_
    obtain ⟨-, -, rfl⟩ := hstop
    exact .settled ⟨by simp [display], by simp [display, hcurrent]⟩ (by simp [display, hcurrent])
  | some id =>
    refine (ensures_stop hcurrent).mono fun l r s' hstop => ?_
    obtain ⟨shutdown, exit, m, htalk, rfl⟩ := hstop
    exact .settled ⟨by simp [display], by simp [display]⟩ fun _ => not_still_of_farewell htalk

theorem candid_replace (c : SessionContext) (s : Session) : (replace c).Candid display s := by
  change (if s.state = .running then _ else _ : Task Session Unit).Candid display s
  split
  · refine (candid_stop c s).bind fun r s' => ?_
    split
    · exact (candid_start c s').bind fun _ s₁ => Task.candid_pure () s₁
    · exact Task.candid_pure () s'
  · exact (candid_start c s).bind fun _ s' => Task.candid_pure () s'

/-- A restart is candid, whatever was shown before. -/
theorem candid_restart (c : SessionContext) (s : Session) : (restart c).Candid display s := by
  have hfiles : (Task.ask .files : Task Session FileTree).Candid display s :=
    fun _ => .left ⟨rfl, rfl⟩
  refine hfiles.bind fun files s' => ?_
  split
  · exact Task.candid_pure () s'
  · exact candid_replace c s'

/-- Observing an event is candid. -/
theorem candid_observe (c : SessionContext) (event : TransportEvent) (s : Session) :
    (observe c event).Candid display s := by
  refine (ensures_observe c event s).mono fun l _ s' hobserved => ?_
  have hstill : started (talk l) = [] ∧ stopped (talk l) = [] ↔ Still l := .rfl
  generalize talk l = said at hobserved hstill
  cases hobserved with
  | released =>
    refine .settled ⟨by simp [display], by simp [display]⟩ fun _ h => ?_
    exact absurd (hstill.2 h).2 (by simp [stopped, Call.stops?])
  | answered => exact .left (hstill.1 ⟨rfl, rfl⟩)
  | ignored => exact .left (hstill.1 ⟨rfl, rfl⟩)

end Session

end RubySupervisor
