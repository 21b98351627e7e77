import RubySupervisor.Proofs.State.Memory
import RubySupervisor.Proofs.Workspace.Course

/-!
# When the server gem is updated

The time of an installation or update is in the memory of the store as soon as the gem tool has
succeeded, whether it can be written or not. An update is run only where the recorded time is more
than the interval ago. So an update is more than the interval behind every success before it, and
this is the invariant: the last success, which is the latest one as long as no call comes before its
time, is the one that is recorded.
-/

namespace RubySupervisor.ServerGem

/-! ## The recorded time -/

/-- The time of the last installation or update that a store has, in milliseconds. -/
def recorded? (s : Store) : Option Nat := (s.get? Store.lastGemUpdateKey).bind Json.nat?

/-- A store with the time of an installation or update. -/
def dated (now : Nat) (s : Store) : Store := s.insert Store.lastGemUpdateKey (.int now)

@[simp] theorem recorded?_dated (now : Nat) (s : Store) : recorded? (dated now s) = some now := by
  simp [recorded?, dated, Json.nat?]

/-- Where an update is due, the recorded time is more than the interval ago. -/
theorem interval_of_updateDue {s : Store} {now last : Nat} (hdue : updateDue s now = true)
    (hlast : recorded? s = some last) : updateInterval < now - last := by
  have hlast : (s.get? Store.lastGemUpdateKey).bind Json.nat? = some last := hlast
  rw [updateDue, hlast] at hdue
  exact of_decide_eq_true hdue

/-- Times that are more than the interval apart in 64 bits are so indeed. -/
theorem interval_of_sinceEpoch {earlier now : Nat} (hle : earlier ≤ now)
    (h : updateInterval < sinceEpoch now - sinceEpoch earlier) :
    updateInterval < now - earlier := by
  obtain ⟨since, rfl⟩ := Nat.exists_eq_add_of_le hle
  simp only [sinceEpoch, Int.toNat_natCast, Nat.pow_eq] at h
  omega

/-- The gem was installed or updated. -/
def Renewed (r : Except WorkspaceError GemOutcome) : Prop :=
  r = .ok .installed ∨ r = .ok .updated

/-- The time of an installation or update is recorded in memory, whether it can be written or
not. -/
theorem ensures_recordUpdate_dated (now : Nat) (s : Store) :
    (recordUpdate now).Ensures (fun _ _ s' => s' = dated now s) s := by
  simp only [recordUpdate, Task.ensures_bind, Task.ensures_pure]
  exact (Store.ensures_update _ _ _).mono fun _ _ _ h => h.1

/-- The time is recorded exactly where the gem was installed or updated. -/
theorem ensures_installOrUpdate_dated (environment : Dict String) (directory : Path) (now : Nat)
    (s : Store) :
    (installOrUpdate environment directory now).Ensures
      (fun _ r s' => Renewed r ∧ s' = dated now s ∨ ¬ Renewed r ∧ s' = s) s := by
  have hstill (error : WorkspaceError) : ¬ Renewed (.error error) := by simp [Renewed]
  simp only [installOrUpdate, gem, Task.ensures_bind, Task.ask_eq, Task.ensures_call,
    Task.ensures_done, Task.ensures_pure]
  intro listing
  split
  · exact .inr ⟨hstill _, rfl⟩
  · split
    · simp only [Task.ensures_bind, Task.ensures_get]
      split
      · simp only [update, gem, Task.ensures_bind, Task.ask_eq, Task.ensures_call,
          Task.ensures_done, Task.ensures_pure]
        intro answer
        split
        · rw [Task.ensures_bind]
          refine (ensures_recordUpdate_dated now s).mono fun _ _ s' hdated => ?_
          exact .inl ⟨.inr rfl, hdated⟩
        · exact fun _ => .inr ⟨by simp [Renewed], rfl⟩
      · exact .inr ⟨by simp [Renewed], rfl⟩
    · simp only [Task.ensures_bind, Task.ensures_call, Task.ensures_done, Task.ensures_pure]
      intro answer
      split
      · exact .inr ⟨hstill _, rfl⟩
      · rw [Task.ensures_bind]
        refine (ensures_recordUpdate_dated now s).mono fun _ _ s' hdated => ?_
        exact .inl ⟨.inl rfl, hdated⟩

/-! ## What a call runs -/

section Call

variable {environment : Dict String} {directory : Path} {s : Store} {now : Nat}
  {l : List Exchange} {r : Except WorkspaceError GemOutcome} {verb : String}
  {answer : Except ServerError CommandOutput} {error : ServerError}

/-- Where an update is run, one was due. -/
theorem SetUp.updateDue (h : SetUp environment directory s now l r)
    (hrun : ran environment directory "update" answer ∈ l) : updateDue s now = true := by
  cases h with
  | updated _ _ hdue | updateFailed _ _ hdue => exact hdue
  | unlisted | upToDate | notInstalled => simp [ran_inj] at hrun
  | installed _ _ _ hwriting => simp [ran_inj, ran_not_mem_of_writing hwriting] at hrun

/-- The gem was installed or updated exactly where a run of the gem tool for that succeeded. -/
theorem SetUp.renewed_iff (h : SetUp environment directory s now l r) :
    Renewed r ↔ ∃ verb ∈ ["install", "update"], ∃ answer output,
      ran environment directory verb answer ∈ l ∧
        verdict environment directory verb answer = .ok output := by
  cases h with
  | unlisted | upToDate => simp [Renewed, ran_inj]
  | updated _ _ _ hupdate =>
    exact iff_of_true (.inr rfl) ⟨"update", by simp, _, _, by simp, hupdate⟩
  | installed _ _ hinstall =>
    exact iff_of_true (.inl rfl) ⟨"install", by simp, _, _, by simp, hinstall⟩
  | updateFailed _ _ _ hfailed =>
    refine iff_of_false (by simp [Renewed]) ?_
    rintro ⟨verb, hverb, answer, output, hrun, hok⟩
    rcases by simpa [ran_inj] using hrun with ⟨rfl, rfl⟩ | ⟨rfl, rfl⟩ | hrun
    · simp at hverb
    · cases hok.symm.trans hfailed
    · cases hrun
  | notInstalled _ _ hfailed =>
    refine iff_of_false (by simp [Renewed]) ?_
    rintro ⟨verb, hverb, answer, output, hrun, hok⟩
    rcases by simpa [ran_inj] using hrun with ⟨rfl, rfl⟩ | ⟨rfl, rfl⟩
    · simp at hverb
    · cases hok.symm.trans hfailed

/-- A failed update is told once, and nothing else is; the call does not fail. -/
theorem SetUp.told (h : SetUp environment directory s now l r)
    (hrun : ran environment directory "update" answer ∈ l)
    (hfailed : verdict environment directory "update" answer = .error error) :
    r = .ok .updateFailed ∧
      l.filterMap Exchange.reported? = [("gem update ruby-lsp", error.message)] := by
  cases h with
  | unlisted | upToDate | notInstalled => simp [ran_inj] at hrun
  | installed _ _ _ hwriting => simp [ran_inj, ran_not_mem_of_writing hwriting] at hrun
  | updated _ _ _ hupdate hwriting =>
    obtain rfl : answer = _ := by simpa [ran_inj, ran_not_mem_of_writing hwriting] using hrun
    cases hfailed.symm.trans hupdate
  | updateFailed _ _ _ hupdate =>
    rcases by simpa [ran_inj] using hrun with rfl | htelemetry
    · obtain rfl := Except.error.inj (hfailed.symm.trans hupdate)
      exact ⟨rfl, rfl⟩
    · cases htelemetry

/-- Where nothing is installed or updated, nothing is written. -/
theorem SetUp.not_writing (h : SetUp environment directory s now l r) (hstill : ¬ Renewed r) :
    ∀ x ∈ l, x.call.isWriting = false := by
  cases h with
  | updated | installed => exact absurd (by simp [Renewed]) hstill
  | unlisted | upToDate | updateFailed | notInstalled => simp [ran, Call.isWriting]

end Call

/-! ## Calls one after the other -/

/-- A call for the server gem at a time, which is told in nanoseconds since the epoch. -/
structure Visit where
  environment : Dict String
  directory : Path
  time : Nat

namespace Visit

/-- The whole milliseconds since the epoch. -/
def moment (v : Visit) : Nat := v.time / 1000000

/-- What is done then. -/
def task (v : Visit) : Task Store (Except WorkspaceError GemOutcome) :=
  installOrUpdate v.environment v.directory (sinceEpoch v.moment)

/-- A call as a deed, its answer dropped. -/
def deed (v : Visit) : Task Store Unit := do
  let _ ← v.task

end Visit

/-- In an episode the gem tool is run with a verb, and answers. -/
def Runs (e : Episode Store Visit) (verb : String) (answer : Except ServerError CommandOutput) :
    Prop :=
  ran e.deed.environment e.deed.directory verb answer ∈ e.trace

/-- The gem tool is run to update the gem. -/
def Updates (e : Episode Store Visit) : Prop := ∃ answer, Runs e "update" answer

/-- The gem tool installs or updates the gem. -/
def Renews (e : Episode Store Visit) : Prop :=
  ∃ verb ∈ ["install", "update"], ∃ answer output, Runs e verb answer ∧
    verdict e.deed.environment e.deed.directory verb answer = .ok output

/-- The gem tool fails to update the gem. -/
def FailsUpdate (e : Episode Store Visit) (error : ServerError) : Prop :=
  ∃ answer, Runs e "update" answer ∧
    verdict e.deed.environment e.deed.directory "update" answer = .error error

/-- The time that is recorded after a history is the latest one at which the gem was installed or
updated in it. -/
def Dated (history : List (Episode Store Visit)) (s : Store) : Prop :=
  ∀ e ∈ history, Renews e → ∃ last ∈ history, e.deed.moment ≤ last.deed.moment ∧
    recorded? s = some (sinceEpoch last.deed.moment)

section History

variable {start s s' : Store} {history : List (Episode Store Visit)} {e : Episode Store Visit}

/-- An update is more than the interval behind all that is recorded. -/
theorem Dated.interval (h : Dated history e.before)
    {r : Except WorkspaceError GemOutcome} (hyields : e.deed.task.Yields e.before e.trace r s')
    (hordered : ∀ earlier ∈ history, earlier.deed.moment ≤ e.deed.moment) (hupdates : Updates e)
    {earlier : Episode Store Visit} (hearlier : earlier ∈ history) (hrenews : Renews earlier) :
    updateInterval < e.deed.moment - earlier.deed.moment := by
  obtain ⟨answer, hrun⟩ := hupdates
  obtain ⟨last, hlast, hle, hrecorded⟩ := h earlier hearlier hrenews
  have hdue := ((ensures_installOrUpdate _ _ _ _).yields hyields).updateDue hrun
  have hsince : updateInterval < e.deed.moment - last.deed.moment :=
    interval_of_sinceEpoch (hordered last hlast) (interval_of_updateDue hdue hrecorded)
  omega

/-- What a call does to the recorded time. -/
theorem Dated.step (h : Dated history e.before)
    {r : Except WorkspaceError GemOutcome} (hyields : e.deed.task.Yields e.before e.trace r s')
    (hordered : ∀ earlier ∈ history, earlier.deed.moment ≤ e.deed.moment) :
    Dated (history ++ [e]) s' := by
  have hrenewed : Renewed r ↔ Renews e :=
    ((ensures_installOrUpdate _ _ _ _).yields hyields).renewed_iff
  intro earlier hearlier hrenews
  rcases (ensures_installOrUpdate_dated _ _ _ _).yields hyields with ⟨-, rfl⟩ | ⟨hstill, rfl⟩
  · refine ⟨e, by simp, ?_, recorded?_dated _ _⟩
    rcases List.mem_append.1 hearlier with hearlier | hlast
    · exact hordered earlier hearlier
    · exact Nat.le_of_eq (congrArg (·.deed.moment) (List.mem_singleton.1 hlast))
  · rcases List.mem_append.1 hearlier with hearlier | hlast
    · obtain ⟨last, hlast, hsince⟩ := h earlier hearlier hrenews
      exact ⟨last, List.mem_append_left _ hlast, hsince⟩
    · rw [List.mem_singleton.1 hlast] at hrenews
      exact absurd (hrenewed.2 hrenews) hstill

/-- Two episodes of a history are as far apart as updates have to be. -/
def Spaced (earlier later : Episode Store Visit) : Prop :=
  Renews earlier → Updates later → updateInterval < later.deed.moment - earlier.deed.moment

/-- Throughout a history the updates are spaced, and the latest success is recorded. -/
theorem spaced_and_dated (h : Lives Visit.deed start history s)
    (hordered : (history.map (·.deed.time)).Pairwise (· ≤ ·)) :
    history.Pairwise Spaced ∧ Dated history s := by
  induction h with
  | fresh => exact ⟨.nil, nofun⟩
  | @step history s s' visit trace hlives hstep ih =>
    obtain ⟨r, hyields⟩ := hstep.of_discarded
    rw [List.map_append, List.pairwise_append] at hordered
    obtain ⟨hbefore, -, hlast⟩ := hordered
    have hlast (earlier : Episode Store Visit) (hearlier : earlier ∈ history) :
        earlier.deed.moment ≤ visit.moment :=
      Nat.div_le_div_right (hlast _ (List.mem_map_of_mem hearlier) _ (by simp))
    obtain ⟨hspaced, hdated⟩ := ih hbefore
    refine ⟨List.pairwise_append.2 ⟨hspaced, List.pairwise_singleton _ _, ?_⟩,
      hdated.step (e := ⟨s, visit, trace⟩) hyields hlast⟩
    intro earlier hearlier later hlater hrenews hupdates
    obtain rfl := List.mem_singleton.1 hlater
    exact hdated.interval hyields hlast hupdates hearlier hrenews

/-- **Theorem (updates are spaced).** In a history of calls whose times do not go back, an update of
the gem is run only where every installation and update that succeeded before is more than the
interval ago, in whole milliseconds. A call that finds the gem up to date or fails to update it
leaves the store as it was and writes nothing. A failed update is told exactly once, and the call
does not fail. -/
theorem updates_spaced (h : Lives Visit.deed start history s)
    (hordered : (history.map (·.deed.time)).Pairwise (· ≤ ·)) :
    history.Pairwise (fun earlier later => Renews earlier → Updates later →
        updateInterval < later.deed.moment - earlier.deed.moment) ∧
      ∀ e ∈ history, ∃ r s', e.deed.task.Yields e.before e.trace r s' ∧
        (r = .ok .upToDate ∨ r = .ok .updateFailed →
          s' = e.before ∧ ∀ x ∈ e.trace, x.call.isWriting = false) ∧
        ∀ error, FailsUpdate e error → r = .ok .updateFailed ∧
          e.trace.filterMap Exchange.reported? = [("gem update ruby-lsp", error.message)] := by
  refine ⟨(spaced_and_dated h hordered).1, fun e he => ?_⟩
  -- the call is taken as the last one of the history up to it
  obtain ⟨before, after, rfl⟩ := List.append_of_mem he
  obtain ⟨-, s', hepisode⟩ := h.episode
  obtain ⟨r, hyields⟩ := hepisode.of_discarded
  have hsetUp : SetUp _ _ _ _ e.trace r := (ensures_installOrUpdate _ _ _ _).yields hyields
  refine ⟨r, s', hyields, fun hstill => ?_, ?_⟩
  · have hstill : ¬ Renewed r := by
      rcases hstill with rfl | rfl <;> simp [Renewed]
    refine ⟨?_, hsetUp.not_writing hstill⟩
    rcases (ensures_installOrUpdate_dated _ _ _ _).yields hyields with ⟨hrenewed, -⟩ | ⟨-, hsame⟩
    · exact absurd hrenewed hstill
    · exact hsame
  · rintro error ⟨answer, hrun, hfailed⟩
    exact hsetUp.told hrun hfailed

end History

/-- A host on which the gem tool answers in turn, and fails when there is no answer left. -/
def answeringGem {σ : Type} (c : Call) (_ : σ) (answers : List CommandOutput) :
    c.Answer × List CommandOutput :=
  match c, answers with
  | .run _, [] => (.error .notRunning, [])
  | .run _, answer :: answers => (.ok answer, answers)
  | c, answers => (agreed (.error .rubyNotOnPath) c, answers)

/-- Calls at hours. -/
def hourly (hours : List Nat) : List Visit :=
  hours.map fun hour => ⟨.empty, ⟨"/w"⟩, hour * 3600000000000⟩

/-- What the gem tool answers to them: it installs the gem, finds it, finds it and fails to update
it, and finds it and updates it. -/
def gemAnswers : List CommandOutput :=
  [⟨some 0, "\n", ""⟩, ⟨some 0, "", ""⟩, ⟨some 0, "ruby-lsp (0.17.2)\n", ""⟩,
    ⟨some 0, "ruby-lsp (0.17.2)\n", ""⟩, ⟨some 1, "", "no network"⟩,
    ⟨some 0, "ruby-lsp (0.17.2)\n", ""⟩, ⟨some 0, "", ""⟩]

/-- The history of calls over two days. -/
def twoDays : List (Episode Store Visit) :=
  (enact answeringGem Visit.deed (hourly [0, 24, 25, 48]) .inMemory gemAnswers).1

theorem twoDays_spaced :
    twoDays.map (gemVerbs ·.trace) =
        [["list", "install"], ["list"], ["list", "update"], ["list", "update"]] ∧
      twoDays.Pairwise Spaced :=
  ⟨by decide +kernel,
    (updates_spaced (Lives.enact_fresh answeringGem Visit.deed _ _ _) (by decide +kernel)).1⟩

end RubySupervisor.ServerGem
