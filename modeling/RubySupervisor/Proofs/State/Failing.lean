import RubySupervisor.Proofs.State.Keeping
import RubySupervisor.Proofs.State.Memory

/-!
# What a failure leaves behind

Memory comes first: by the time a state file is written, what was asked of the store has been done
in memory, and nothing takes it back. So a call that fails leaves the same store as one that
succeeds. The failure is without a trace in memory only where the store had already what it was
asked to have.
-/

namespace RubySupervisor

namespace Dict

variable {α : Type} {d : Dict α}

theorem contains_of_mem {entry : String × α} (h : entry ∈ d) : d.contains entry.1 = true := by
  induction d with
  | nil => cases h
  | cons first rest ih =>
    rw [contains, find?]
    split
    · rfl
    · next hfirst =>
      rcases List.mem_cons.1 h with rfl | hrest
      · exact absurd rfl hfirst
      · exact ih hrest

/-- Where there is nothing to remove, all stays. -/
theorem erase_of_not_contains {key : String} (h : ¬ d.contains key = true) : d.erase key = d := by
  apply List.filter_eq_self.2
  intro entry hentry
  have hne : entry.1 ≠ key := by
    rintro rfl
    exact h (contains_of_mem hentry)
  exact decide_eq_true hne

end Dict

namespace Store

theorem get?_erase (s : Store) (key other : String) :
    (s.erase key).get? other = if key = other then none else s.get? other :=
  Dict.find?_erase _ _ _

namespace Deed

/-- The key that a change is about. -/
def key : Deed → String
  | update key _ => key
  | remove key => key
  | setExtensionActivated extension _ => extensionKey extension

/-- What the store is to have under it. -/
def value? : Deed → Option Json
  | update _ value => some value
  | remove _ => none
  | setExtensionActivated _ activated => some (.bool activated)

theorem get?_apply (deed : Deed) (s : Store) (other : String) :
    (deed.apply s).get? other = if deed.key = other then deed.value? else s.get? other := by
  cases deed with
  | update key value => exact get?_insert s key value other
  | setExtensionActivated extension activated => exact get?_insert s _ _ other
  | remove key => exact get?_erase s key other

/-- What is asked is done in memory whatever becomes of the file, and the answer says what became of
it. -/
theorem ensures_apply (deed : Deed) (s : Store) :
    deed.task.Ensures (fun l r s' => s' = deed.apply s ∧
      (deed.Writes s ∧ Faulty l ∧ (∃ error, r = .error error) ∨ ¬ Faulty l ∧ r = .ok ())) s := by
  have hupdate (key : String) (value : Json) :
      (Store.update key value).Ensures (fun l r s' => s' = s.insert key value ∧
        (True ∧ Faulty l ∧ (∃ error, r = .error error) ∨ ¬ Faulty l ∧ r = .ok ())) s := by
    refine (ensures_update key value s).mono ?_
    rintro l r s' ⟨hmemory, hfailed | hdone⟩
    · exact ⟨hmemory, .inl ⟨trivial, hfailed⟩⟩
    · exact ⟨hmemory, .inr hdone⟩
  cases deed with
  | update key value => exact hupdate key value
  | setExtensionActivated extension activated => exact hupdate _ _
  | remove key =>
    simp only [task, Store.remove, Task.ensures_bind, Task.ensures_get]
    split
    · next hcontains =>
      simp only [Task.ensures_bind, Task.ensures_put]
      have hmemory := (steady_flush (s.erase key).path (s.erase key).entries).ensures (s.erase key)
      refine (hmemory.and (ensures_flush_faulty _ _ _)).mono ?_
      rintro l r s' ⟨hsame, hfailed | hdone⟩
      · exact ⟨hsame, .inl ⟨hcontains, hfailed⟩⟩
      · exact ⟨hsame, .inr hdone⟩
    · next hcontains =>
      have hsame : s.erase key = s := by
        rw [erase, Dict.erase_of_not_contains hcontains]
      exact ⟨hsame.symm, .inr ⟨faulty_nil, rfl⟩⟩

end Deed

/-- Two stores answer all questions alike. -/
structure Alike (s s' : Store) : Prop where
  get? : ∀ key, s'.get? key = s.get? key
  extensionActivated : ∀ extension, s'.extensionActivated extension = s.extensionActivated extension

/-- The flags of extensions are values of the store like others. -/
theorem Alike.of_get? {s s' : Store} (h : ∀ key, s'.get? key = s.get? key) : Alike s s' := by
  refine ⟨h, fun extension => ?_⟩
  rw [Store.extensionActivated, Store.extensionActivated, h]

/-- A change leaves a store that answers as before exactly if the store had already what it was
asked to have. -/
theorem Deed.alike_apply_iff (deed : Deed) (s : Store) :
    Alike s (deed.apply s) ↔ s.get? deed.key = deed.value? := by
  constructor
  · intro halike
    have hkey := halike.get? deed.key
    rw [deed.get?_apply, if_pos rfl] at hkey
    exact hkey.symm
  · intro hheld
    refine .of_get? fun other => ?_
    rw [deed.get?_apply]
    by_cases hother : deed.key = other
    · rw [if_pos hother, ← hheld, hother]
    · rw [if_neg hother]

/-- **Theorem (memory first).** A change of a store that ends with an error has been made in memory
as if it had ended well: the key has what it was to have, and every other key what it had. So the
store answers as it did before the call exactly if it had this already, which is never so of a value
that was to be removed. -/
theorem failed_alike_iff {deed : Deed} {s s' : Store} {l : List Exchange} {error : RubyError}
    (h : deed.task.Yields s l (.error error) s') :
    (∀ key, s'.get? key = if deed.key = key then deed.value? else s.get? key) ∧
      (∀ l' r s'', deed.task.Yields s l' r s'' → s'' = s') ∧
      (Alike s s' ↔ s.get? deed.key = deed.value?) ∧
      ∀ key, deed = .remove key → ¬ Alike s s' := by
  obtain ⟨hmemory, hanswer⟩ := (deed.ensures_apply s).yields h
  -- an error comes from the file alone, which a change that changes nothing never writes
  have hwrites : deed.Writes s := by
    rcases hanswer with ⟨hwrites, -⟩ | ⟨-, hok⟩
    · exact hwrites
    · cases hok
  have halike : Alike s s' ↔ s.get? deed.key = deed.value? := by
    rw [hmemory]
    exact deed.alike_apply_iff s
  refine ⟨fun key => ?_, fun l' r s'' hother => ?_, halike, ?_⟩
  · rw [hmemory]
    exact deed.get?_apply s key
  · rw [hmemory]
    exact ((deed.ensures_apply s).yields hother).1
  · rintro key rfl hsame
    have hgone : s.get? key = none := halike.1 hsame
    have hthere : (s.get? key).isSome = true := hwrites
    rw [hgone] at hthere
    cases hthere

/-- Files with a state file in which an extension is switched off. -/
def flaggedFiles : FileTree :=
  filesWith "ws.json" (.file "\x7b\"extensions.x.activated\":false\x7d".toUTF8 false)

/-- The store that is opened there. -/
def flaggedStore : Store := ⟨some ⟨"/state/ws.json"⟩, [("extensions.x.activated", .bool false)]⟩

/-- What becomes of a change of this store while the draft of its file cannot be written. -/
def obstructedChange (deed : Deed) : Except RubyError Unit × Store × FileTree.Obstructed :=
  deed.task.run FileTree.obstructed flaggedStore (flaggedFiles, [none, some .other])

/-- What is in the way of the draft. -/
def obstructedError : RubyError := .io ⟨"/state/ws.json"⟩ .other

theorem yields_obstructedChange (deed : Deed)
    (h : (obstructedChange deed).1 = .error obstructedError) :
    ∃ l, deed.task.Yields flaggedStore l (.error obstructedError) (obstructedChange deed).2.1 :=
  ⟨_, h ▸ Task.yields_run FileTree.obstructed deed.task flaggedStore _⟩

/-- An extension that is switched off once more stays off, one that is switched on is on, and a flag
that is removed is gone, though nothing of it can be written. -/
theorem flags_after_failure :
    Alike flaggedStore (obstructedChange (.setExtensionActivated "x" false)).2.1 ∧
      ¬ Alike flaggedStore (obstructedChange (.setExtensionActivated "x" true)).2.1 ∧
      ¬ Alike flaggedStore (obstructedChange (.remove "extensions.x.activated")).2.1 := by
  have hheld : flaggedStore.get? (extensionKey "x") = some (.bool false) := by decide +kernel
  refine ⟨?_, ?_, ?_⟩
  · obtain ⟨l, hoff⟩ := yields_obstructedChange (.setExtensionActivated "x" false)
      (by decide +kernel)
    exact (failed_alike_iff hoff).2.2.1.2 hheld
  · obtain ⟨l, hon⟩ := yields_obstructedChange (.setExtensionActivated "x" true)
      (by decide +kernel)
    intro halike
    have hother : flaggedStore.get? (extensionKey "x") = some (.bool true) :=
      (failed_alike_iff hon).2.2.1.1 halike
    rw [hheld] at hother
    cases hother
  · obtain ⟨l, hgone⟩ := yields_obstructedChange (.remove "extensions.x.activated")
      (by decide +kernel)
    exact (failed_alike_iff hgone).2.2.2 _ rfl

/-- A failure does change what a store answers: each of the three operations may fail on a store
that has just been opened, and leave it with another answer. -/
theorem not_always_alike :
    open? flaggedFiles ⟨"/state"⟩ "ws" = .ok flaggedStore ∧
      ∀ deed ∈ [Deed.update "k" (.int 1), .remove "extensions.x.activated",
          .setExtensionActivated "x" true],
        (∃ l, deed.task.Yields flaggedStore l (.error obstructedError)
            (obstructedChange deed).2.1) ∧
          ¬ Alike flaggedStore (obstructedChange deed).2.1 := by
  refine ⟨by decide +kernel, fun deed hdeed => ?_⟩
  have hall : ∀ deed ∈ [Deed.update "k" (.int 1), .remove "extensions.x.activated",
      .setExtensionActivated "x" true], (obstructedChange deed).1 = .error obstructedError ∧
        (obstructedChange deed).2.1.get? deed.key ≠ flaggedStore.get? deed.key := by
    decide +kernel
  obtain ⟨hfailed, hother⟩ := hall deed hdeed
  exact ⟨yields_obstructedChange deed hfailed, fun halike => hother (halike.get? deed.key)⟩

end Store

end RubySupervisor
