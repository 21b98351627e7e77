import Mathlib.Data.List.Induction
import Mathlib.Data.String.Basic
import RubySupervisor.Settings.Layer

/-!
# Layers over layers

Whatever the layers of some settings are, a setting has the value that the last accepted layer has
given to it. This is one law for all settings, whether a layer replaces them, replaces or unsets
them, or extends them name by name: a setting is a *slot*, and the names of a table have slots of
their own.
-/

namespace RubySupervisor

namespace Dict

variable {α : Type}

/-- Of two values for a name the second one stays. -/
theorem insert_insert (d : Dict α) (key : String) (old value : α) :
    (d.insert key old).insert key value = d.insert key value := by
  induction d with
  | nil => simp [insert]
  | cons entry rest ih =>
    obtain ⟨name, _⟩ := entry
    by_cases hname : name = key
    · simp [insert, hname]
    · by_cases hlt : key < name <;> simp [insert, hname, hlt, ih]

/-- Values of different names are stored in any order, whether the other names are in order or
not. -/
theorem insert_comm (d : Dict α) {key other : String} (h : key ≠ other) (value shown : α) :
    (d.insert key value).insert other shown = (d.insert other shown).insert key value := by
  wlog hlt : key < other generalizing key other value shown
  · exact (this h.symm shown value ((lt_or_gt_of_ne h).resolve_left hlt)).symm
  have hnot : ¬ other < key := lt_asymm hlt
  induction d with
  | nil => simp [insert, h, h.symm, hlt, hnot]
  | cons entry rest ih =>
    obtain ⟨name, old⟩ := entry
    rcases lt_trichotomy name key with hname | rfl | hname
    · have hbefore : name < other := hname.trans hlt
      simp [insert, hname.ne, hname.not_gt, hbefore.ne, hbefore.not_gt, ih]
    · simp [insert, h, hnot]
    · rcases lt_trichotomy name other with hother | rfl | hother
      · simp [insert, hname.ne', hname, h, hnot, hother.ne, hother.not_gt]
      · simp [insert, hname.ne', hname, h, hnot]
      · simp [insert, hname.ne', hname, h, h.symm, hlt, hnot, hother.ne', hother]

/-- What is stored behind a value for the same name replaces it. -/
theorem insertAll_insert {d : Dict α} {pairs : List (String × α)} {key : String}
    (h : key ∈ names pairs) (value : α) :
    (d.insert key value).insertAll pairs = d.insertAll pairs := by
  induction pairs generalizing d with
  | nil => cases h
  | cons entry pairs ih =>
    obtain ⟨name, stored⟩ := entry
    by_cases hname : key = name
    · subst hname
      simp [insertAll, insert_insert]
    · have hrest : key ∈ names pairs := by simpa [names, hname] using h
      have hstep (d : Dict α) :
        d.insertAll ((name, stored) :: pairs) = (d.insert name stored).insertAll pairs := rfl
      rw [hstep, hstep, insert_comm d hname, ih hrest]

/-- Pairs that are stored again change nothing. -/
theorem insertAll_insertAll (d : Dict α) (pairs : List (String × α)) :
    (d.insertAll pairs).insertAll pairs = d.insertAll pairs := by
  have habsorbs (stored : List (String × α)) (h : ∀ entry ∈ stored, entry.1 ∈ names pairs) :
      (d.insertAll stored).insertAll pairs = d.insertAll pairs := by
    induction stored generalizing d with
    | nil => rfl
    | cons entry stored ih =>
      obtain ⟨hname, hrest⟩ := List.forall_mem_cons.1 h
      exact (ih (d.insert entry.1 entry.2) hrest).trans (insertAll_insert hname entry.2)
  exact habsorbs pairs fun entry hentry => List.mem_map_of_mem hentry

end Dict

/-! ## Slots -/

/-- A setting that has one value: a setting of its own, or a name in a table of settings. -/
inductive Slot where
  | branch
  | bundleGemfile
  | formatter
  | rubyExecutable
  | versionManager
  | feature (name : String)
  | experimental
  | yjit
  | pull
  | environment (name : String)
  | debug
  | requestTimeout
  | testTimeout

namespace Slot

/-- What may stand in a slot; nothing stands in some of them where the setting is unset. -/
def Value : Slot → Type
  | branch | environment _ => Option String
  | bundleGemfile | rubyExecutable => Option Path
  | feature _ => Option Bool
  | formatter => Formatter
  | versionManager => VersionManager
  | experimental | yjit | debug => Bool
  | pull => PullDiagnostics
  | requestTimeout | testTimeout => Span

/-- What stands in a slot of settings. -/
def of (s : Settings) : (slot : Slot) → slot.Value
  | branch => s.branch
  | bundleGemfile => s.bundleGemfile
  | formatter => s.formatter
  | rubyExecutable => s.rubyExecutable
  | versionManager => s.versionManager
  | feature name => s.features.find? name
  | experimental => s.experimental
  | yjit => s.yjit
  | pull => s.pull
  | environment name => s.environment.find? name
  | debug => s.debug
  | requestTimeout => s.requestTimeout
  | testTimeout => s.testTimeout

/-- The key of the settings file that is about a slot. -/
def key : Slot → String
  | branch => "branch"
  | bundleGemfile => "bundle_gemfile"
  | formatter => "formatter"
  | rubyExecutable => "ruby_executable_path"
  | versionManager => "version_manager"
  | feature _ => "enabled_features"
  | experimental => "enable_experimental_features"
  | yjit => "yjit"
  | pull => "pull_diagnostics_on"
  | environment _ => "env"
  | debug => "debug"
  | requestTimeout => "request_timeout_secs"
  | testTimeout => "test_timeout_secs"

/-- A text that an empty one unsets. -/
def filled (s : String) : Option String := if s = "" then none else some s

/-- A path that an empty one unsets. -/
def placed (p : Path) : Option Path := if p.text = "" then none else some p

/-- What a table has under a name, of whose values the last one counts: none where a value of the
table is of the wrong kind. -/
def named {α : Type} (name : String) (decode : Toml → Option α) (v : Toml) :
    Option (Option (Option α)) :=
  v.entries?.bind fun entries =>
    if entries.all fun entry => (decode entry.2).isSome then
      some ((entries.filterMap fun entry =>
        if entry.1 = name then decode entry.2 else none).getLast?.map some)
    else none

/-- What the value of its key says about a slot: none where it is of the wrong kind, and nothing
where it is a table that does not have the name. -/
def read? : (slot : Slot) → Toml → Option (Option slot.Value)
  | branch => fun v => v.text?.map fun s => some (filled s)
  | bundleGemfile | rubyExecutable => fun v => (SettingsLayer.path? v).map fun p => some (placed p)
  | formatter => fun v => (v.text?.map Formatter.ofName).map some
  | versionManager => fun v => (SettingsLayer.manager? v).map some
  | feature name => named name Toml.boolean?
  | experimental | yjit | debug => fun v => v.boolean?.map some
  | pull => fun v => (SettingsLayer.pull? v).map some
  | environment name => named name Toml.text?
  | requestTimeout | testTimeout => fun v => (SettingsLayer.seconds? v).map some

/-- What the entries of a settings file say about a slot: none where they cannot be accepted. -/
def said? (slot : Slot) (entries : List (String × Toml)) : Option (Option slot.Value) :=
  match SettingsLayer.value? entries slot.key with
  | none => some none
  | some v => slot.read? v

/-- What a layer gives to a slot, if anything. -/
def given? (layer : SettingsLayer) : (slot : Slot) → Option slot.Value
  | branch => layer.branch.map filled
  | bundleGemfile => layer.bundleGemfile.map placed
  | formatter => layer.formatter
  | rubyExecutable => layer.rubyExecutable.map placed
  | versionManager => layer.versionManager
  | feature name => ((Dict.ofPairs layer.features).find? name).map some
  | experimental => layer.experimental
  | yjit => layer.yjit
  | pull => layer.pull
  | environment name => ((Dict.ofPairs layer.environment).find? name).map some
  | debug => layer.debug
  | requestTimeout => layer.requestTimeout
  | testTimeout => layer.testTimeout

theorem overText_eq (above below : Option String) :
    SettingsLayer.overText above below = (above.map filled).getD below := by
  cases above with
  | none => rfl
  | some s => by_cases h : s = "" <;> simp [SettingsLayer.overText, filled, h]

theorem overPath_eq (above below : Option Path) :
    SettingsLayer.overPath above below = (above.map placed).getD below := by
  cases above with
  | none => rfl
  | some p => by_cases h : p.text = "" <;> simp [SettingsLayer.overPath, placed, h]

theorem find?_insertAll_eq_getD {α : Type} (d : Dict α) (pairs : List (String × α))
    (name : String) : (d.insertAll pairs).find? name =
      (((Dict.ofPairs pairs).find? name).map some).getD (d.find? name) := by
  rw [Dict.find?_insertAll_eq_or]
  cases (Dict.ofPairs pairs).find? name <;> rfl

/-- A layer replaces what it gives, and leaves the rest as it is. -/
theorem of_apply (layer : SettingsLayer) (s : Settings) (slot : Slot) :
    slot.of (layer.apply s) = (slot.given? layer).getD (slot.of s) := by
  cases slot with
  | branch => exact overText_eq _ _
  | bundleGemfile | rubyExecutable => exact overPath_eq _ _
  | feature | environment => exact find?_insertAll_eq_getD _ _ _
  | formatter | versionManager | experimental | yjit | pull | debug | requestTimeout
  | testTimeout => rfl

end Slot

namespace SettingsLayer

/-- A list is decoded where all of its items are. -/
theorem mapM_eq_ite {α β : Type} (f : α → Option β) (l : List α) :
    l.mapM f = if l.all fun a => (f a).isSome then some (l.filterMap f) else none := by
  induction l with
  | nil => rfl
  | cons a l ih =>
    rw [List.mapM_cons, ih]
    cases ha : f a with
    | none => simp [ha]
    | some b => split <;> simp_all

/-- What is stored under a name is the last of its values. -/
theorem find?_ofPairs_filterMap {α : Type} (decode : Toml → Option α) (name : String)
    (entries : List (String × Toml)) :
    (Dict.ofPairs (entries.filterMap fun entry =>
      (decode entry.2).map fun a => (entry.1, a))).find? name =
      (entries.filterMap fun entry =>
        if entry.1 = name then decode entry.2 else none).getLast? := by
  -- from the end, since the last value is the one that is stored
  induction entries using List.reverseRecOn with
  | nil => rfl
  | append_singleton entries entry ih =>
    rw [List.filterMap_append, List.filterMap_append]
    cases hvalue : decode entry.2 with
    | none => simp [hvalue, ih]
    | some a =>
      have hstored (pairs : List (String × α)) : Dict.ofPairs (pairs ++ [(entry.1, a)]) =
          (Dict.ofPairs pairs).insert entry.1 a := by
        rw [Dict.ofPairs, Dict.insertAll, List.foldl_append]
        rfl
      have hpairs (l : List (String × Toml)) :
          (l.filterMap fun entry => (decode entry.2).map fun a => (entry.1, a)) ++
            [entry].filterMap (fun entry => (decode entry.2).map fun a => (entry.1, a)) =
          (l.filterMap fun entry => (decode entry.2).map fun a => (entry.1, a)) ++
            [(entry.1, a)] := by simp [hvalue]
      rw [hpairs, hstored, Dict.find?_insert, ih]
      by_cases hname : entry.1 = name <;> simp [hvalue, hname]

/-- What is said about a name of a table. -/
theorem said?_name {α : Type} {entries : List (String × Toml)} {key : String}
    {decode : Toml → Option α} (name : String) :
    (match value? entries key with
      | none => some none
      | some v => Slot.named name decode v) =
    (tableOf entries key decode).map fun pairs => ((Dict.ofPairs pairs).find? name).map some := by
  rw [tableOf]
  cases value? entries key with
  | none => rfl
  | some v =>
    cases hv : v.entries? with
    | none => simp [Slot.named, hv]
    | some pairs =>
      simp only [Slot.named, hv, Option.bind_some, Option.bind_eq_bind, mapM_eq_ite]
      by_cases hall : (pairs.all fun entry => (decode entry.2).isSome) = true
      · simp only [Option.isSome_map, hall, if_true, Option.map_some, find?_ofPairs_filterMap]
      · simp [hall]

/-- A layer has only settings that there are. -/
theorem known_of_ofEntries? {entries : List (String × Toml)}
    (h : (ofEntries? entries).isSome = true) : ∀ entry ∈ entries, entry.1 ∈ keys := by
  by_contra hunknown
  have hrefused : (!entries.all fun entry => keys.contains entry.1) = true := by
    simpa using hunknown
  rw [ofEntries?, if_pos hrefused] at h
  cases h

/-- Which entries of settings describe which layer. -/
theorem ofEntries?_eq_some_iff {entries : List (String × Toml)} {layer : SettingsLayer}
    (hknown : ∀ entry ∈ entries, entry.1 ∈ keys) :
    ofEntries? entries = some layer ↔
      optional entries "branch" Toml.text? = some layer.branch ∧
      optional entries "bundle_gemfile" path? = some layer.bundleGemfile ∧
      optional entries "formatter" (fun v => v.text?.map Formatter.ofName) = some layer.formatter ∧
      optional entries "ruby_executable_path" path? = some layer.rubyExecutable ∧
      optional entries "version_manager" manager? = some layer.versionManager ∧
      tableOf entries "enabled_features" Toml.boolean? = some layer.features ∧
      optional entries "enable_experimental_features" Toml.boolean? = some layer.experimental ∧
      optional entries "yjit" Toml.boolean? = some layer.yjit ∧
      optional entries "pull_diagnostics_on" pull? = some layer.pull ∧
      tableOf entries "env" Toml.text? = some layer.environment ∧
      optional entries "debug" Toml.boolean? = some layer.debug ∧
      optional entries "request_timeout_secs" seconds? = some layer.requestTimeout ∧
      optional entries "test_timeout_secs" seconds? = some layer.testTimeout := by
  have haccepted : (!entries.all fun entry => keys.contains entry.1) = false := by
    simpa using hknown
  simp only [ofEntries?, haccepted, Bool.false_eq_true, if_false, Option.pure_def,
    Option.bind_eq_bind]
  constructor
  · intro h
    simp only [Option.bind_eq_some_iff, Option.some.injEq] at h
    obtain ⟨_, hbranch, _, hgemfile, _, hformatter, _, hruby, _, hmanager, _, hfeatures, _,
      hexperimental, _, hyjit, _, hpull, _, henvironment, _, hdebug, _, hrequest, _, htest, rfl⟩ := h
    exact ⟨hbranch, hgemfile, hformatter, hruby, hmanager, hfeatures, hexperimental, hyjit, hpull,
      henvironment, hdebug, hrequest, htest⟩
  · rintro ⟨hbranch, hgemfile, hformatter, hruby, hmanager, hfeatures, hexperimental, hyjit, hpull,
      henvironment, hdebug, hrequest, htest⟩
    simp only [hbranch, hgemfile, hformatter, hruby, hmanager, hfeatures, hexperimental, hyjit,
      hpull, henvironment, hdebug, hrequest, htest, Option.bind_some]

/-- What is said about a setting that is not in a table. -/
theorem said_of_optional {α β : Type} {entries : List (String × Toml)} {key : String}
    {decode : Toml → Option α} {a : Option α} (h : optional entries key decode = some a)
    (f : α → β) :
    (match value? entries key with
      | none => some none
      | some v => (decode v).map fun a => some (f a)) = some (a.map f) := by
  rw [optional] at h
  cases hv : value? entries key with
  | none =>
    simp only [hv, Option.some.injEq] at h
    rw [← h, Option.map_none]
  | some v =>
    simp only [hv, Option.map_eq_some_iff] at h
    obtain ⟨a, hdecode, rfl⟩ := h
    simp [hdecode]

theorem said_of_optional_id {α : Type} {entries : List (String × Toml)} {key : String}
    {decode : Toml → Option α} {a : Option α} (h : optional entries key decode = some a) :
    (match value? entries key with
      | none => some none
      | some v => (decode v).map some) = some a :=
  (said_of_optional h id).trans (by rw [Option.map_id, id])

/-- What entries say about the slots is what their layer gives. -/
theorem said?_eq_given? {entries : List (String × Toml)} {layer : SettingsLayer}
    (h : ofEntries? entries = some layer) (slot : Slot) :
    slot.said? entries = some (slot.given? layer) := by
  have hknown := known_of_ofEntries? (Option.isSome_of_mem h)
  obtain ⟨hbranch, hgemfile, hformatter, hruby, hmanager, hfeatures, hexperimental, hyjit, hpull,
    henvironment, hdebug, hrequest, htest⟩ := (ofEntries?_eq_some_iff hknown).1 h
  cases slot with
  | branch => exact said_of_optional hbranch Slot.filled
  | bundleGemfile => exact said_of_optional hgemfile Slot.placed
  | rubyExecutable => exact said_of_optional hruby Slot.placed
  | formatter => exact said_of_optional_id hformatter
  | versionManager => exact said_of_optional_id hmanager
  | experimental => exact said_of_optional_id hexperimental
  | yjit => exact said_of_optional_id hyjit
  | pull => exact said_of_optional_id hpull
  | debug => exact said_of_optional_id hdebug
  | requestTimeout => exact said_of_optional_id hrequest
  | testTimeout => exact said_of_optional_id htest
  | feature name => exact (said?_name name).trans (congrArg _ hfeatures)
  | environment name => exact (said?_name name).trans (congrArg _ henvironment)

/-- Where something is said about a setting, it is of the right kind or missing. -/
theorem exists_optional {α β : Type} {entries : List (String × Toml)} {key : String}
    {decode : Toml → Option α} {f : α → β} {b : β}
    (h : (match value? entries key with
      | none => some b
      | some v => (decode v).map f).isSome = true) : ∃ a, optional entries key decode = some a := by
  rw [optional]
  cases hv : value? entries key with
  | none => exact ⟨none, rfl⟩
  | some v =>
    simp only [hv, Option.isSome_map] at h
    exact Option.isSome_iff_exists.1 (by simpa using h)

theorem exists_tableOf {α : Type} {entries : List (String × Toml)} {key : String}
    {decode : Toml → Option α} {name : String}
    (h : (match value? entries key with
      | none => some none
      | some v => Slot.named name decode v).isSome = true) :
    ∃ pairs, tableOf entries key decode = some pairs := by
  rw [said?_name, Option.isSome_map] at h
  exact Option.isSome_iff_exists.1 h

/-- Entries describe a layer where all of them are settings and something can be said about every
slot. -/
theorem isSome_ofEntries?_iff {entries : List (String × Toml)} :
    (ofEntries? entries).isSome = true ↔
      (∀ entry ∈ entries, entry.1 ∈ keys) ∧ ∀ slot : Slot, (slot.said? entries).isSome = true := by
  constructor
  · intro h
    obtain ⟨layer, hlayer⟩ := Option.isSome_iff_exists.1 h
    exact ⟨known_of_ofEntries? h, fun slot => by rw [said?_eq_given? hlayer]; rfl⟩
  · rintro ⟨hknown, hsaid⟩
    obtain ⟨branch, hbranch⟩ := exists_optional (hsaid .branch)
    obtain ⟨gemfile, hgemfile⟩ := exists_optional (hsaid .bundleGemfile)
    obtain ⟨formatter, hformatter⟩ := exists_optional (hsaid .formatter)
    obtain ⟨ruby, hruby⟩ := exists_optional (hsaid .rubyExecutable)
    obtain ⟨manager, hmanager⟩ := exists_optional (hsaid .versionManager)
    obtain ⟨features, hfeatures⟩ := exists_tableOf (hsaid (.feature ""))
    obtain ⟨experimental, hexperimental⟩ := exists_optional (hsaid .experimental)
    obtain ⟨yjit, hyjit⟩ := exists_optional (hsaid .yjit)
    obtain ⟨pull, hpull⟩ := exists_optional (hsaid .pull)
    obtain ⟨environment, henvironment⟩ := exists_tableOf (hsaid (.environment ""))
    obtain ⟨debug, hdebug⟩ := exists_optional (hsaid .debug)
    obtain ⟨request, hrequest⟩ := exists_optional (hsaid .requestTimeout)
    obtain ⟨test, htest⟩ := exists_optional (hsaid .testTimeout)
    have hlayer : ofEntries? entries = some ⟨branch, gemfile, formatter, ruby, manager, features,
        experimental, yjit, pull, environment, debug, request, test⟩ :=
      (ofEntries?_eq_some_iff hknown).2 ⟨hbranch, hgemfile, hformatter, hruby, hmanager, hfeatures,
        hexperimental, hyjit, hpull, henvironment, hdebug, hrequest, htest⟩
    rw [hlayer, Option.isSome_some]

/-- The entries of a document that is accepted as a layer. -/
def accepted? (source : String) : Option (List (String × Toml)) :=
  (Toml.parse? source).filter fun entries => (ofEntries? entries).isSome

/-- A document is accepted where it can be read, has only settings, and can say something about
every slot. -/
theorem accepted?_eq_some_iff {source : String} {entries : List (String × Toml)} :
    accepted? source = some entries ↔ Toml.parse? source = some entries ∧
      (∀ entry ∈ entries, entry.1 ∈ keys) ∧ ∀ slot : Slot, (slot.said? entries).isSome = true := by
  rw [accepted?, Option.filter_eq_some_iff, isSome_ofEntries?_iff]

/-- A layer on top of itself changes nothing. -/
theorem apply_apply (layer : SettingsLayer) (s : Settings) :
    layer.apply (layer.apply s) = layer.apply s := by
  have hagain {α : Type} (above : Option α) (below : α) :
      above.getD (above.getD below) = above.getD below := by cases above <;> rfl
  simp only [apply, Slot.overText_eq, Slot.overPath_eq, hagain, Dict.insertAll_insertAll]

end SettingsLayer

/-! ## Layers in turn -/

namespace Settings

/-- The settings under layers that are tried in turn; one that is refused changes nothing. -/
def layered (s : Settings) (sources : List String) : Settings :=
  sources.foldl (fun s source => (s.merge? source).getD s) s

@[simp] theorem layered_append (s : Settings) (sources more : List String) :
    s.layered (sources ++ more) = (s.layered sources).layered more := List.foldl_append

/-- A document that is accepted gives its layer. -/
theorem merge?_of_accepted {source : String} {entries : List (String × Toml)} (s : Settings)
    (h : SettingsLayer.accepted? source = some entries) :
    ∃ layer, SettingsLayer.ofEntries? entries = some layer ∧
      s.merge? source = some (layer.apply s) := by
  obtain ⟨hparse, haccepted⟩ := Option.filter_eq_some_iff.1 h
  obtain ⟨layer, hlayer⟩ := Option.isSome_iff_exists.1 haccepted
  exact ⟨layer, hlayer, by simp [merge?, SettingsLayer.parse?, hparse, hlayer]⟩

/-- One that is not accepted is refused. -/
theorem merge?_of_not_accepted {source : String} (s : Settings)
    (h : SettingsLayer.accepted? source = none) : s.merge? source = none := by
  cases hparse : Toml.parse? source with
  | none => simp [merge?, SettingsLayer.parse?, hparse]
  | some entries =>
    have hrefused : SettingsLayer.ofEntries? entries = none := by
      simpa [SettingsLayer.accepted?, hparse, Option.filter_eq_none_iff] using h
    simp [merge?, SettingsLayer.parse?, hparse, hrefused]

end Settings

/-- What entries write to a slot. -/
def Slot.written? (slot : Slot) (entries : List (String × Toml)) : Option slot.Value :=
  (slot.said? entries).join

namespace Settings

/-- What one document does to a slot. -/
theorem of_layered_singleton (s : Settings) (source : String) (slot : Slot) :
    slot.of (s.layered [source]) =
      ((SettingsLayer.accepted? source).bind slot.written?).getD (slot.of s) := by
  cases haccepted : SettingsLayer.accepted? source with
  | none => simp [layered, merge?_of_not_accepted s haccepted]
  | some entries =>
    obtain ⟨layer, hlayer, hmerge⟩ := merge?_of_accepted s haccepted
    simp [layered, hmerge, Slot.of_apply, Slot.written?, SettingsLayer.said?_eq_given? hlayer]

/-- What documents do to a slot: the last of them that is accepted and writes to it decides. -/
theorem of_layered (s : Settings) (sources : List String) (slot : Slot) :
    slot.of (s.layered sources) =
      ((sources.filterMap SettingsLayer.accepted?).filterMap slot.written?).getLast?.getD
        (slot.of s) := by
  induction sources using List.reverseRecOn with
  | nil => rfl
  | append_singleton sources source ih =>
    rw [layered_append, of_layered_singleton, ih, List.filterMap_append, List.filterMap_append,
      List.getLast?_append]
    cases haccepted : SettingsLayer.accepted? source with
    | none => simp [haccepted]
    | some entries => cases hwritten : slot.written? entries <;> simp [haccepted, hwritten]

/-- A document on top of itself changes nothing. -/
theorem layered_pair (s : Settings) (source : String) :
    s.layered [source, source] = s.layered [source] := by
  cases haccepted : SettingsLayer.accepted? source with
  | none => simp [layered, merge?_of_not_accepted _ haccepted]
  | some entries =>
    obtain ⟨layer, hlayer, hmerge⟩ := merge?_of_accepted s haccepted
    obtain ⟨again, hagain, hmerge'⟩ := merge?_of_accepted (layer.apply s) haccepted
    obtain rfl := Option.some.inj (hlayer.symm.trans hagain)
    simp [layered, hmerge, hmerge', SettingsLayer.apply_apply]

/-! ## Layers from files -/

section Files

variable {files : FileTree} {paths : List Path} {path : Path} {s t : Settings}
  {fault : SettingsFault}

/-- A settings file is missing, or its document is accepted. -/
def Usable (files : FileTree) (path : Path) : Prop :=
  files.readText path = .error .notFound ∨
    ∃ source, files.readText path = .ok source ∧
      (SettingsLayer.accepted? source).isSome = true

/-- A settings file cannot be read although it is there, or its document is not accepted. -/
def Spoils (files : FileTree) (fault : SettingsFault) : Prop :=
  match fault.unreadable with
  | some error => error ≠ .notFound ∧ files.readText fault.path = .error error
  | none => ∃ source, files.readText fault.path = .ok source ∧
      SettingsLayer.accepted? source = none

/-- The documents of the files that are there. -/
def sourcesAt (files : FileTree) (paths : List Path) : List String :=
  paths.filterMap fun path => (files.readText path).toOption

/-- A file that can be used is a layer, or none where it is missing. -/
theorem mergeFile_of_usable (s : Settings) (h : Usable files path) :
    mergeFile files s path = .ok (s.layered (sourcesAt files [path])) := by
  rcases h with hmissing | ⟨source, hread, haccepted⟩
  · simp [mergeFile, hmissing, sourcesAt, Except.toOption, layered]
  · obtain ⟨entries, haccepted⟩ := Option.isSome_iff_exists.1 haccepted
    obtain ⟨layer, -, hmerge⟩ := merge?_of_accepted s haccepted
    simp [mergeFile, hread, hmerge, sourcesAt, Except.toOption, layered]

/-- A file that cannot be used is named. -/
theorem mergeFile_of_spoils (s : Settings) (h : Spoils files fault) :
    mergeFile files s fault.path = .error fault := by
  obtain ⟨path, unreadable⟩ := fault
  cases unreadable with
  | some error =>
    obtain ⟨hthere, hread⟩ := h
    cases error <;> simp_all [mergeFile]
  | none =>
    obtain ⟨source, hread, hrefused⟩ := h
    simp [mergeFile, hread, merge?_of_not_accepted s hrefused]

/-- A file can be used, or it cannot. -/
theorem usable_or_spoils (files : FileTree) (path : Path) :
    Usable files path ∨ ∃ fault : SettingsFault, fault.path = path ∧ Spoils files fault := by
  cases hread : files.readText path with
  | error error =>
    by_cases hmissing : error = .notFound
    · exact .inl (.inl (hmissing ▸ hread))
    · exact .inr ⟨⟨path, some error⟩, rfl, hmissing, hread⟩
  | ok source =>
    cases haccepted : SettingsLayer.accepted? source with
    | some entries => exact .inl (.inr ⟨source, hread, by rw [haccepted]; rfl⟩)
    | none => exact .inr ⟨⟨path, none⟩, rfl, source, hread, haccepted⟩

/-- Files that can all be used are layers in turn. -/
theorem foldlM_mergeFile_of_usable (s : Settings) (h : ∀ path ∈ paths, Usable files path) :
    paths.foldlM (mergeFile files) s = .ok (s.layered (sourcesAt files paths)) := by
  induction paths generalizing s with
  | nil => rfl
  | cons path paths ih =>
    obtain ⟨hfirst, hrest⟩ := List.forall_mem_cons.1 h
    have hsources : sourcesAt files (path :: paths) =
        sourcesAt files [path] ++ sourcesAt files paths := by
      rw [sourcesAt, sourcesAt, sourcesAt, ← List.filterMap_append, List.singleton_append]
    rw [List.foldlM_cons, mergeFile_of_usable s hfirst, hsources, layered_append]
    exact ih _ hrest

/-- The first file that cannot be used is named. -/
theorem foldlM_mergeFile_of_spoils (s : Settings) {before after : List Path}
    (hbefore : ∀ path ∈ before, Usable files path) (h : Spoils files fault) :
    (before ++ fault.path :: after).foldlM (mergeFile files) s = .error fault := by
  rw [List.foldlM_append, foldlM_mergeFile_of_usable s hbefore]
  change mergeFile files (s.layered _) fault.path >>= after.foldlM (mergeFile files) = _
  rw [mergeFile_of_spoils _ h]
  rfl

/-- A file that can be used is not named. -/
theorem not_usable_of_spoils (h : Spoils files fault) : ¬ Usable files fault.path := by
  intro husable
  cases (mergeFile_of_usable default husable).symm.trans (mergeFile_of_spoils default h)

/-- Among some files, all can be used, or there is a first one that cannot. -/
theorem all_usable_or_first (files : FileTree) (paths : List Path) :
    (∀ path ∈ paths, Usable files path) ∨ ∃ before after, ∃ fault : SettingsFault,
      paths = before ++ fault.path :: after ∧ (∀ path ∈ before, Usable files path) ∧
        Spoils files fault := by
  induction paths with
  | nil => exact .inl (by simp)
  | cons path paths ih =>
    rcases usable_or_spoils files path with husable | ⟨fault, rfl, hspoils⟩
    · rcases ih with hrest | ⟨before, after, fault, rfl, hbefore, hspoils⟩
      · exact .inl (List.forall_mem_cons.2 ⟨husable, hrest⟩)
      · exact .inr ⟨path :: before, after, fault, rfl,
          List.forall_mem_cons.2 ⟨husable, hbefore⟩, hspoils⟩
    · exact .inr ⟨[], paths, fault, rfl, by simp, hspoils⟩

/-- Where the settings of a folder are looked for. -/
def filesOf (global : Option Path) (root : Path) : List Path :=
  global.toList ++ [root.join workspaceFile]

/-- The settings of a folder are the defaults under the layers of its files, where all of these can
be used. -/
theorem load_eq_ok_iff {global : Option Path} {root : Path} :
    load files global root = .ok s ↔ (∀ path ∈ filesOf global root, Usable files path) ∧
      s = default.layered (sourcesAt files (filesOf global root)) := by
  rw [load, ← filesOf]
  rcases all_usable_or_first files (filesOf global root) with
    husable | ⟨before, after, fault, hpaths, hbefore, hspoils⟩
  · rw [foldlM_mergeFile_of_usable default husable]
    constructor
    · exact fun h => ⟨husable, (Except.ok.inj h).symm⟩
    · rintro ⟨-, rfl⟩
      rfl
  · rw [hpaths, foldlM_mergeFile_of_spoils default hbefore hspoils]
    refine iff_of_false nofun fun h => ?_
    exact not_usable_of_spoils hspoils (h.1 fault.path (by simp))

/-- They cannot be had where one of the files cannot be used, and the first of those is named. -/
theorem load_eq_error_iff {global : Option Path} {root : Path} :
    load files global root = .error fault ↔ ∃ before after,
      filesOf global root = before ++ fault.path :: after ∧
        (∀ path ∈ before, Usable files path) ∧ Spoils files fault := by
  constructor
  · intro h
    rcases all_usable_or_first files (filesOf global root) with
      husable | ⟨before, after, other, hpaths, hbefore, hspoils⟩
    · cases h.symm.trans (load_eq_ok_iff.2 ⟨husable, rfl⟩)
    · rw [load, ← filesOf, hpaths, foldlM_mergeFile_of_spoils default hbefore hspoils] at h
      obtain rfl := Except.error.inj h
      exact ⟨before, after, hpaths, hbefore, hspoils⟩
  · rintro ⟨before, after, hpaths, hbefore, hspoils⟩
    rw [load, ← filesOf, hpaths, foldlM_mergeFile_of_spoils default hbefore hspoils]

end Files

/-- **Theorem (the last writer decides).** Documents that are tried as layers of some settings, one
after the other, are accepted where they can be read, have only settings, and have each of them in
its kind; one that is not accepted is refused, and changes nothing. A slot then has what the last of
the accepted documents that write to it has written, and is left as it was where none of them does.
A document that is tried again changes nothing more. The settings of a folder are the defaults under
the documents of the global file and of its own, of those that are there; they cannot be had where
one of the two files can neither be used nor is missing, and the first of them is named. -/
theorem last_writer_decides (s : Settings) (sources : List String) :
    (∀ source, SettingsLayer.accepted? source = none →
        s.merge? source = none ∧ s.layered [source] = s) ∧
      (∀ source entries, SettingsLayer.accepted? source = some entries ↔
        Toml.parse? source = some entries ∧ (∀ entry ∈ entries, entry.1 ∈ SettingsLayer.keys) ∧
          ∀ slot : Slot, (slot.said? entries).isSome = true) ∧
      (∀ slot : Slot, slot.of (s.layered sources) =
        ((sources.filterMap SettingsLayer.accepted?).filterMap slot.written?).getLast?.getD
          (slot.of s)) ∧
      (∀ source, s.layered [source, source] = s.layered [source]) ∧
      ∀ files global root,
        (∀ loaded, load files global root = .ok loaded ↔
          (∀ path ∈ filesOf global root, Usable files path) ∧
            loaded = default.layered (sourcesAt files (filesOf global root))) ∧
        ∀ fault, load files global root = .error fault ↔ ∃ before after,
          filesOf global root = before ++ fault.path :: after ∧
            (∀ path ∈ before, Usable files path) ∧ Spoils files fault := by
  refine ⟨fun source hrefused => ?_, fun _ _ => SettingsLayer.accepted?_eq_some_iff,
    of_layered s sources, layered_pair s, fun files global root =>
      ⟨fun _ => load_eq_ok_iff, fun _ => load_eq_error_iff⟩⟩
  have hmerge := merge?_of_not_accepted s hrefused
  exact ⟨hmerge, by simp [layered, hmerge]⟩

end Settings

end RubySupervisor
