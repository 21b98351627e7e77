import RubySupervisor.Proofs.Host.Moments
import RubySupervisor.State.Store

/-!
# What a store has in memory

A change of a store is made in memory before the file is written, and writing changes nothing there.
So a store has what it was told, whether its file could be written or not; all that a failure leaves
is a failed call in the trace.
-/

namespace RubySupervisor

/-- Whether an exchange is an attempt to write that failed. -/
def Exchange.IsFailedWrite : Exchange → Prop
  | ⟨.makeDirectories _, .error _⟩ => True
  | ⟨.writeFile .., .error _⟩ => True
  | ⟨.renameFile .., .error _⟩ => True
  | _ => False

/-- Whether an attempt to write failed in a trace. -/
def Faulty (l : List Exchange) : Prop := ∃ x ∈ l, x.IsFailedWrite

@[simp] theorem faulty_nil : ¬ Faulty [] := by simp [Faulty]

@[simp] theorem faulty_cons (x : Exchange) (l : List Exchange) :
    Faulty (x :: l) ↔ x.IsFailedWrite ∨ Faulty l := by
  simp [Faulty]

@[simp] theorem faulty_append (l l' : List Exchange) :
    Faulty (l ++ l') ↔ Faulty l ∨ Faulty l' := by
  simp only [Faulty, List.mem_append, or_and_right, exists_or]

namespace Store

@[simp] theorem get?_insert (s : Store) (key : String) (value : Json) (other : String) :
    (s.insert key value).get? other = if key = other then some value else s.get? other :=
  Dict.find?_insert _ _ _ _

/-- Whether the file is written or not, the memory stays as it is. -/
theorem steady_flush {σ : Type} (path : Option Path) (entries : Dict Json) :
    (flush path entries : Task σ _).Steady id := by
  unfold flush
  split
  · exact Task.steady_pure _
  · split
    all_goals
      refine Task.Steady.bind (by first | exact Task.steady_ask _ | exact Task.steady_pure _)
        fun made => ?_
      dsimp only
      split
      · exact Task.steady_pure _
      · refine (Task.steady_ask _).bind fun written => ?_
        split
        · exact Task.steady_pure _
        · refine (Task.steady_ask _).bind fun moved => ?_
          split <;> exact Task.steady_pure _

/-- An attempt to write the file fails exactly if one of its calls does. -/
theorem ensures_flush_faulty {σ : Type} (path : Option Path) (entries : Dict Json) (s : σ) :
    (flush path entries : Task σ (Except RubyError Unit)).Ensures
      (fun l r _ => Faulty l ∧ (∃ error, r = .error error) ∨ ¬ Faulty l ∧ r = .ok ()) s := by
  unfold flush
  split
  · exact .inr ⟨faulty_nil, rfl⟩
  · rename_i path
    cases path.parent?
    case some parent =>
      simp only [Task.ask_eq, Task.ensures_bind, Task.ensures_call, Task.ensures_done]
      rintro (error | ⟨⟩)
      · exact .inl ⟨by simp [Exchange.IsFailedWrite], _, rfl⟩
      simp only [Task.ensures_bind, Task.ensures_call, Task.ensures_done]
      rintro (error | ⟨⟩)
      · exact .inl ⟨by simp [Exchange.IsFailedWrite], _, rfl⟩
      simp only [Task.ensures_bind, Task.ensures_call, Task.ensures_done]
      rintro (error | ⟨⟩)
      · exact .inl ⟨by simp [Exchange.IsFailedWrite], _, rfl⟩
      · exact .inr ⟨by simp [Exchange.IsFailedWrite], rfl⟩
    case none =>
      simp only [Task.ask_eq, Task.ensures_bind, Task.ensures_pure, Task.ensures_call,
        Task.ensures_done]
      rintro (error | ⟨⟩)
      · exact .inl ⟨by simp [Exchange.IsFailedWrite], _, rfl⟩
      simp only [Task.ensures_bind, Task.ensures_call, Task.ensures_done]
      rintro (error | ⟨⟩)
      · exact .inl ⟨by simp [Exchange.IsFailedWrite], _, rfl⟩
      · exact .inr ⟨by simp [Exchange.IsFailedWrite], rfl⟩

/-- After an update the store has the value. That the file could not be written shows in the answer
alone. -/
theorem ensures_update (key : String) (value : Json) (s : Store) :
    (update key value).Ensures (fun l r s' => s' = s.insert key value ∧
      (Faulty l ∧ (∃ error, r = .error error) ∨ ¬ Faulty l ∧ r = .ok ())) s := by
  simp only [update, Task.ensures_bind, Task.ensures_get, Task.ensures_put]
  have hmemory := (steady_flush (s.insert key value).path (s.insert key value).entries).ensures
    (s.insert key value)
  exact (hmemory.and (ensures_flush_faulty _ _ _)).mono fun l r s' h => h

/-! ## The flags of extensions -/

/-- The flags of two extensions are kept under two keys. -/
@[simp] theorem extensionKey_inj {name other : String} :
    extensionKey name = extensionKey other ↔ name = other := by
  simp [extensionKey]

/-- A flag that is recorded is read back, and no other flag is touched. -/
@[simp] theorem extensionActivated_insert (s : Store) (name : String) (flag : Bool)
    (other : String) :
    (s.insert (extensionKey name) (.bool flag)).extensionActivated other =
      if name = other then flag else s.extensionActivated other := by
  by_cases h : name = other <;> simp [extensionActivated, h, Json.bool?]

end Store

end RubySupervisor
