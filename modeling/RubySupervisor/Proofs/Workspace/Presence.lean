import RubySupervisor.Proofs.Text.Cutting
import RubySupervisor.Proofs.Workspace.Updating

/-!
# When the server gem counts as present

The gem tool lists gems by a pattern, one a line, and the server gem counts as present where its
name stands anywhere in what the tool prints. So a gem that is missing is installed, unless the name
stands in that of another gem, in its versions, or in a warning.
-/

namespace RubySupervisor.ServerGem

/-- A listed gem. -/
structure ListedGem where
  name : String
  versions : String

/-- The line of a listed gem. -/
def ListedGem.line (g : ListedGem) : String := g.name ++ " (" ++ g.versions ++ ")\n"

/-- What the gem tool prints for a list of gems. -/
def listing (gems : List ListedGem) : String :=
  String.ofList (gems.flatMap fun g => g.line.toList)

/-- What it answers where it succeeds, with a text on its error stream. -/
def listed (gems : List ListedGem) (errors : String) : Except ServerError CommandOutput :=
  .ok ⟨some 0, listing gems, errors⟩

/-- The name of the server gem stands in what is printed for a gem. -/
def ListedGem.Mentions (g : ListedGem) : Prop :=
  Text.occurs gemName g.name = true ∨ Text.occurs gemName g.versions = true

instance (g : ListedGem) : Decidable g.Mentions :=
  inferInstanceAs (Decidable (_ = true ∨ _ = true))

/-- No gem of the list is the server gem. -/
def Absent (gems : List ListedGem) : Prop := ∀ g ∈ gems, g.name ≠ gemName

instance (gems : List ListedGem) : Decidable (Absent gems) :=
  inferInstanceAs (Decidable (∀ _ ∈ gems, _ ≠ _))

/-- The server gem is absent, but its name stands somewhere in what is printed. -/
def Masked (gems : List ListedGem) (errors : String) : Prop :=
  Absent gems ∧ ((∃ g ∈ gems, g.Mentions) ∨ Text.occurs gemName errors = true)

instance (gems : List ListedGem) (errors : String) : Decidable (Masked gems errors) :=
  inferInstanceAs (Decidable (_ ∧ ((∃ _ ∈ gems, _) ∨ _ = true)))

/-- The name of the gem is broken by no mark of a listing. -/
theorem mark_not_mem_gemName : ∀ c ∈ [' ', '(', ')', '\n'], c ∉ gemName.toList := by
  intro c hc
  simp only [List.mem_cons, List.not_mem_nil, or_false] at hc
  rcases hc with rfl | rfl | rfl | rfl <;> decide

theorem occurs_gemName_iff {s : String} :
    Text.occurs gemName s = true ↔ gemName.toList <:+: s.toList :=
  Text.occurs_iff (by decide)

/-- A name is not put together from what stands on two sides of a mark. -/
theorem gemName_infix_iff {c : Char} (hc : c ∈ [' ', '(', ')', '\n']) (s t : List Char) :
    gemName.toList <:+: s ++ c :: t ↔ gemName.toList <:+: s ∨ gemName.toList <:+: t :=
  Text.infix_append_cons_iff (mark_not_mem_gemName c hc)

/-- The name stands in a listing where it stands in what is printed for one of the gems. -/
theorem occurs_listing_iff (gems : List ListedGem) :
    Text.occurs gemName (listing gems) = true ↔ ∃ g ∈ gems, g.Mentions := by
  rw [occurs_gemName_iff, listing, String.toList_ofList]
  induction gems with
  | nil => decide
  | cons g gems ih =>
    have hline : g.line.toList ++ gems.flatMap (fun g => g.line.toList) =
        g.name.toList ++ ' ' :: ([] ++ '(' :: (g.versions.toList ++ ')' :: ([] ++ '\n' ::
          gems.flatMap fun g => g.line.toList))) := by
      simp [ListedGem.line]
    have hnil : ¬ gemName.toList <:+: [] := by decide
    rw [List.flatMap_cons, hline, gemName_infix_iff (by simp), gemName_infix_iff (by simp),
      gemName_infix_iff (by simp), gemName_infix_iff (by simp), ih]
    simp [ListedGem.Mentions, occurs_gemName_iff, hnil, or_assoc]

/-- A gem is printed with its name. -/
theorem mentions_of_name {g : ListedGem} (h : g.name = gemName) : g.Mentions :=
  .inl (by rw [h]; decide)

/-- The gem counts as present where its name stands somewhere in what is printed. -/
theorem isListed_listed_iff {gems : List ListedGem} {errors : String} :
    isListed ⟨some 0, listing gems, errors⟩ = true ↔
      (∃ g ∈ gems, g.Mentions) ∨ Text.occurs gemName errors = true := by
  rw [isListed, Bool.or_eq_true, occurs_listing_iff]

/-- The gem tool is run to install the gem. -/
def Installs (environment : Dict String) (directory : Path) (l : List Exchange) : Prop :=
  ∃ answer, ran environment directory "install" answer ∈ l

section Call

variable {environment : Dict String} {directory : Path} {s s' : Store} {now : Nat}
  {l : List Exchange} {r : Except WorkspaceError GemOutcome}

/-- What the gem tool prints where it succeeds is its answer. -/
theorem verdict_ok {output : CommandOutput} (hsuccess : output.isSuccess = true) (verb : String) :
    verdict environment directory verb (.ok output) = .ok output := by
  simp [verdict, Command.checked, hsuccess]

theorem ran_ne_telemetry {verb : String} {answer : Except ServerError CommandOutput}
    {event : TelemetryEvent} {told : Unit} :
    ran environment directory verb answer ≠ ⟨.telemetry event, told⟩ := nofun

/-- The gems are listed once, and where that succeeds the gem is installed exactly if it does not
count as present. -/
theorem SetUp.exists_listing (h : SetUp environment directory s now l r) :
    ∃ listing, (∀ answer, ran environment directory "list" answer ∈ l → answer = listing) ∧
      ∀ output, verdict environment directory "list" listing = .ok output →
        (Installs environment directory l ↔ isListed output = false) := by
  -- The first answer is that of the listing, and no run behind it lists the gems again.
  cases h with
  | @unlisted listing error hfailed =>
    refine ⟨listing, by simp [ran_inj], fun output hok => ?_⟩
    cases hok.symm.trans hfailed
  | @upToDate listing output hanswer hlisted =>
    refine ⟨listing, by simp [ran_inj], fun output hok => ?_⟩
    obtain rfl := Except.ok.inj (hanswer.symm.trans hok)
    simp [Installs, ran_inj, hlisted]
  | @updated listing _ output _ _ hanswer hlisted _ _ hwriting =>
    refine ⟨listing, by simp [ran_inj, ran_not_mem_of_writing hwriting], fun output hok => ?_⟩
    obtain rfl := Except.ok.inj (hanswer.symm.trans hok)
    simp [Installs, ran_inj, ran_not_mem_of_writing hwriting, hlisted]
  | @updateFailed listing _ output _ hanswer hlisted =>
    refine ⟨listing, by simp [ran_inj, ran_ne_telemetry], fun output hok => ?_⟩
    obtain rfl := Except.ok.inj (hanswer.symm.trans hok)
    simp [Installs, ran_inj, ran_ne_telemetry, hlisted]
  | @installed listing _ output _ _ hanswer hlisted _ hwriting =>
    refine ⟨listing, by simp [ran_inj, ran_not_mem_of_writing hwriting], fun output hok => ?_⟩
    obtain rfl := Except.ok.inj (hanswer.symm.trans hok)
    simp [Installs, ran_inj, hlisted]
  | @notInstalled listing _ output _ hanswer hlisted =>
    refine ⟨listing, by simp [ran_inj], fun output hok => ?_⟩
    obtain rfl := Except.ok.inj (hanswer.symm.trans hok)
    simp [Installs, ran_inj, hlisted]

/-- **Theorem (a missing gem is installed).** Where the gem tool lists gems and prints a text on its
error stream, the server gem is installed exactly if none of the gems has its name, unless it is
masked: where no gem has its name and the name stands somewhere in what is printed, it is not
installed. -/
theorem missing_installed_iff_not_masked {gems : List ListedGem} {errors : String}
    (h : (installOrUpdate environment directory now).Yields s l r s')
    (hlisting : ran environment directory "list" (listed gems errors) ∈ l) :
    (Installs environment directory l ↔ Absent gems) ↔ ¬ Masked gems errors := by
  obtain ⟨answer, hone, hinstalls⟩ :=
    ((ensures_installOrUpdate environment directory now s).yields h).exists_listing
  obtain rfl := hone _ hlisting
  have hinstalls : Installs environment directory l ↔
      ¬ ((∃ g ∈ gems, g.Mentions) ∨ Text.occurs gemName errors = true) := by
    rw [hinstalls _ (verdict_ok rfl "list"), ← Bool.not_eq_true, isListed_listed_iff]
  have hname : ¬ Absent gems → ∃ g ∈ gems, g.Mentions := by
    intro hpresent
    simp only [Absent, ne_eq, not_forall, not_not] at hpresent
    obtain ⟨g, hg, hname⟩ := hpresent
    exact ⟨g, hg, mentions_of_name hname⟩
  rw [hinstalls, Masked, not_iff_comm]
  by_cases habsent : Absent gems
  · simp [habsent]
  · simp [habsent, hname habsent]

end Call

/-- The trace of a call for the server gem where these gems are listed and all else succeeds. -/
def traceListing (gems : List ListedGem) : List Exchange :=
  (installOrUpdate .empty ⟨"/w"⟩ 0).trace answeringGem .inMemory
    [⟨some 0, listing gems, ""⟩, ⟨some 0, "", ""⟩]

/-- The listing comes first. -/
theorem mem_traceListing (gems : List ListedGem) :
    ran .empty ⟨"/w"⟩ "list" (listed gems "") ∈ traceListing gems := List.mem_cons_self

/-- A gem with another name and one whose name is part of that of an extension. -/
def otherGem : ListedGem := ⟨"ruby-progressbar", "1.13.0"⟩

def extensionGem : ListedGem := ⟨"ruby-lsp-rails", "0.3.0"⟩

theorem installed_unless_extension :
    Installs .empty ⟨"/w"⟩ (traceListing [otherGem]) ∧
      ¬ Installs .empty ⟨"/w"⟩ (traceListing [extensionGem]) := by
  have hinstalls (gems : List ListedGem) :=
    missing_installed_iff_not_masked (Task.yields_run answeringGem _ _ _) (mem_traceListing gems)
  have hother : ¬ Masked [otherGem] "" := by decide +kernel
  have hmasked : Masked [extensionGem] "" := by decide +kernel
  refine ⟨((hinstalls _).2 hother).2 (by decide), fun hinstalled => ?_⟩
  exact (hinstalls _).1 (iff_of_true hinstalled hmasked.1) hmasked

/-- A missing gem may be left missing: where an extension of the server is listed and the server is
not, the gem tool is run to update the server, and not to install it. -/
theorem not_always_installed :
    Absent [extensionGem] ∧
      ran .empty ⟨"/w"⟩ "list" (listed [extensionGem] "") ∈ traceListing [extensionGem] ∧
      gemVerbs (traceListing [extensionGem]) = ["list", "update"] :=
  ⟨by decide, mem_traceListing _, by decide +kernel⟩

end RubySupervisor.ServerGem
