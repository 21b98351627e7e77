import RubySupervisor.Proofs.Files.Naming
import RubySupervisor.Proofs.Telemetry.Sampling
import RubySupervisor.Proofs.Text.Cutting

/-!
# Home directories in reported addresses

A document lies in the home directory if the steps of its path begin with those of the directory.
What is shortened in its address is the first place where the text of the directory stands. The two
agree for a path that begins with this text and goes on with a separator, and for one outside of the
directory in whose address the text does not stand anywhere.
-/

/-! ## Paths under a directory -/

namespace RubySupervisor.Path

variable {p directory : Path} {rest : List Char}

/-- A path goes on with a rest behind a front that takes the steps of a directory. -/
def GoesOn (p directory : Path) (rest : List Char) : Prop :=
  ∃ front : Path, p.text.toList = front.text.toList ++ rest ∧ (∀ c ∈ rest.head?, c = '/') ∧
    front.components = directory.components

theorem isSome_stepsAfter?_iff {steps others : List Component} :
    (stepsAfter? steps others).isSome = true ↔ others <+: steps := by
  induction others generalizing steps with
  | nil => simp [stepsAfter?]
  | cons s others ih =>
    cases steps with
    | nil => simp [stepsAfter?]
    | cons t steps =>
      by_cases hsame : t = s
      · subst hsame
        simp [stepsAfter?, ih]
      · simp [stepsAfter?, hsame, Ne.symm hsame]

theorem components_of_isAbsolute (h : p.isAbsolute = true) :
    p.components = .root :: componentsOf p.pieces := if_pos h

/-- The first pieces of an absolute path are those of its front. -/
theorem exists_front {pieces others : List String} (h : p.isAbsolute = true)
    (hpieces : p.pieces = pieces ++ others) (hne : pieces ≠ []) :
    ∃ (front : Path) (rest : List Char), p.text.toList = front.text.toList ++ rest ∧
      (∀ c ∈ rest.head?, c = '/') ∧ front.isAbsolute = true ∧ front.pieces = pieces := by
  obtain ⟨s, htext⟩ := List.head?_eq_some_iff.1 (of_decide_eq_true h)
  have hbody : p.body = s := by rw [body, h, if_pos rfl, htext, List.drop_one, List.tail_cons]
  rw [pieces_eq_body, hbody, List.map_eq_append_iff] at hpieces
  obtain ⟨cut, later, hcut, rfl, rfl⟩ := hpieces
  obtain ⟨front, rest, rfl, hrest, hfront⟩ :=
    Text.exists_front_of_splitChars hcut (by simpa using hne)
  have habsolute : (Path.mk (String.ofList ('/' :: front))).isAbsolute = true := by
    simp [Path.isAbsolute]
  refine ⟨⟨String.ofList ('/' :: front)⟩, rest, by simp [htext],
    fun c hc => beq_iff_eq.1 (hrest c hc), habsolute, ?_⟩
  rw [pieces_eq_body, body, habsolute, if_pos rfl, String.toList_ofList, List.drop_one,
    List.tail_cons, hfront]

/-- The steps of an absolute path begin with those of a directory other than the root, exactly if
the path goes on behind the directory. -/
theorem isUnder_iff_goesOn (hp : p.isAbsolute = true) (hdirectory : directory.isAbsolute = true)
    (hroot : directory.components ≠ [.root]) :
    p.isUnder directory = true ↔ ∃ rest, p.GoesOn directory rest := by
  rw [isUnder, isSome_stepsAfter?_iff]
  constructor
  · rw [components_of_isAbsolute hp, components_of_isAbsolute hdirectory, List.cons_prefix_cons]
    rintro ⟨-, more, hmore⟩
    -- the first steps are those of the first pieces, and these are the pieces of the front of the
    -- text
    obtain ⟨pieces, others, hpieces, hfront, -⟩ := List.filterMap_eq_append_iff.1 hmore.symm
    have hne : pieces ≠ [] := by
      rintro rfl
      rw [components_of_isAbsolute hdirectory, ← hfront] at hroot
      exact hroot rfl
    obtain ⟨front, rest, htext, hrest, habsolute, rfl⟩ := exists_front hp hpieces hne
    refine ⟨rest, front, htext, hrest, ?_⟩
    rw [components_of_isAbsolute habsolute, components_of_isAbsolute hdirectory]
    exact congrArg _ hfront
  · rintro ⟨rest, front, htext, hrest, hsame⟩
    -- an empty front would be a relative path
    have hne : front.text ≠ "" := by
      rintro hempty
      obtain rfl : front = ⟨""⟩ := by cases front; exact congrArg _ hempty
      rw [components_of_isAbsolute hdirectory] at hsame
      cases hsame
    rw [← hsame]
    cases rest with
    | nil =>
      have hwhole : p.text = front.text := String.toList_inj.1 (by simpa using htext)
      obtain rfl : p = front := by
        cases p
        exact congrArg _ hwhole
      exact List.prefix_rfl
    | cons c rest =>
      obtain rfl := hrest c rfl
      obtain ⟨habsolute, hpieces⟩ := pieces_behind_text hne htext
      rw [components_of_isAbsolute hp, components_of_isAbsolute (habsolute ▸ hp), hpieces,
        componentsOf_append]
      exact List.cons_prefix_cons.2 ⟨rfl, List.prefix_append _ _⟩

end RubySupervisor.Path

/-! ## Shortened addresses -/

namespace RubySupervisor

/-- The address of the document with a path. -/
def addressOf (p : Path) : String := "file://" ++ p.text

namespace Meter

variable {home p : Path}

/-- A path that can be a home directory: it starts at the root, is more than the root, and has no
separator at its end. -/
structure IsHome (home : Path) : Prop where
  absolute : home.isAbsolute = true
  below : home.components ≠ [.root]
  last : home.text.toList.getLast? ≠ some '/'

/-- A reported address says of a document in the home directory what its path goes on with, and of
any other one the whole path. -/
def Shortens (home p : Path) (uri : String) : Prop :=
  if p.isUnder home then ∃ rest, p.GoesOn home rest ∧ uri = "file://~" ++ String.ofList rest
  else uri = addressOf p

/-- Whether a path is written as that of the home directory with nothing or a separator behind. -/
def beginsWith (home p : Path) : Bool :=
  (Text.literal? home.text.toList p.text.toList).any fun rest => rest.head?.all (· == '/')

/-- The home directory is looked for in the wrong place: the path is not written like that of the
home directory, and yet lies in it or has its text somewhere in its address. -/
def Misplaces (home p : Path) : Prop :=
  beginsWith home p = false ∧
    (p.isUnder home = true ∨ home.text.toList <:+: (addressOf p).toList)

instance (home p : Path) : Decidable (Misplaces home p) := inferInstanceAs (Decidable (_ ∧ _))

theorem beginsWith_iff : beginsWith home p = true ↔
    ∃ rest, p.text.toList = home.text.toList ++ rest ∧ ∀ c ∈ rest.head?, c = '/' := by
  simp only [beginsWith, Option.any_eq_true, Text.literal?_eq_some_iff]
  refine exists_congr fun rest => and_congr_right fun _ => ?_
  cases rest <;> simp

/-- A home directory is written with separators and something else behind. -/
theorem IsHome.exists_run (h : IsHome home) : ∃ run c tail,
    home.text.toList = run ++ c :: tail ∧ (∀ d ∈ run, d = '/') ∧ c ≠ '/' := by
  have hsplit := List.takeWhile_append_dropWhile (p := (· == '/')) (l := home.text.toList)
  have hrun : ∀ d ∈ home.text.toList.takeWhile (· == '/'), d = '/' := fun d hd =>
    beq_iff_eq.1 (List.all_eq_true.1 List.all_takeWhile d hd)
  cases hrest : home.text.toList.dropWhile (· == '/') with
  | nil =>
    rw [hrest, List.append_nil] at hsplit
    have hhead : home.text.toList.head? = some '/' := of_decide_eq_true h.absolute
    have hne : home.text.toList ≠ [] := by
      rintro hnil
      simp [hnil] at hhead
    have hlast : home.text.toList.getLast hne = '/' :=
      hrun _ (by rw [hsplit]; exact List.getLast_mem hne)
    exact absurd (by rw [List.getLast?_eq_some_getLast hne, hlast]) h.last
  | cons c tail =>
    have hc := List.head?_dropWhile_not (· == '/') home.text.toList
    rw [hrest] at hsplit hc
    exact ⟨_, c, tail, hsplit.symm, hrun, by simpa using hc⟩

/-- With separators in front of it, a home directory does not begin any earlier. -/
theorem IsHome.eq_nil_of_prefix (h : IsHome home) {t after : List Char}
    (ht : ∀ c ∈ t, c = '/')
    (hbegins : home.text.toList <+: t ++ (home.text.toList ++ after)) : t = [] := by
  obtain ⟨run, c, tail, htext, hrun, hc⟩ := h.exists_run
  obtain ⟨more, hmore⟩ := hbegins
  have hslash {l : List Char} (hl : ∀ d ∈ l, d = '/') : ∀ d ∈ l, (d == '/') = true :=
    fun d hd => beq_iff_eq.2 (hl d hd)
  -- the separators in front of both sides are as many
  have hsame := congrArg (List.takeWhile (· == '/')) hmore
  rw [htext, List.append_assoc, List.append_assoc, List.takeWhile_append_of_pos (hslash hrun),
    List.takeWhile_append_of_pos (hslash ht), List.takeWhile_append_of_pos (hslash hrun)] at hsame
  simpa [hc] using congrArg List.length hsame

/-- In the address of a path that begins with it, the home directory stands first behind the
scheme. -/
theorem IsHome.cutFirst?_addressOf (h : IsHome home) {rest : List Char}
    (hp : p.text.toList = home.text.toList ++ rest) :
    Text.cutFirst? home.text.toList (addressOf p).toList = some ("file://".toList, rest) := by
  have hslashes : ∀ t ∈ "file://".toList.tails, t.head? = some '/' → t.all (· == '/') = true := by
    decide
  rw [addressOf, String.toList_append, hp]
  refine Text.cutFirst?_of_first fun t ht hne hbegins => hne ?_
  have hhead : t.head? = some '/' := by
    have habsolute : home.text.toList.head? = some '/' := of_decide_eq_true h.absolute
    obtain ⟨c, t, rfl⟩ := List.exists_cons_of_ne_nil hne
    obtain ⟨d, others, hcons⟩ := List.exists_cons_of_ne_nil
      (List.ne_nil_of_mem (List.mem_of_mem_head? habsolute))
    rw [hcons] at hbegins habsolute
    rw [List.head?_cons, ← (List.cons_prefix_cons.1 hbegins).1]
    exact habsolute
  have hrun := List.all_eq_true.1 (hslashes t ((List.mem_tails _ _).2 ht) hhead)
  exact h.eq_nil_of_prefix (fun c hc => beq_iff_eq.1 (hrun c hc)) hbegins

theorem IsHome.text_ne_empty (h : IsHome home) : home.text ≠ "" := by
  obtain ⟨run, c, tail, htext, -, -⟩ := h.exists_run
  rw [ne_eq, ← String.toList_eq_nil_iff, htext]
  exact List.append_ne_nil_of_right_ne_nil _ (List.cons_ne_nil c tail)

/-- The first place where the text of the home directory stands is shortened. -/
theorem IsHome.shortened_eq (h : IsHome home) (uri : String) :
    shortened (some home.text) uri =
      ((Text.cutFirst? home.text.toList uri.toList).map
        fun cut => String.ofList (cut.1 ++ '~' :: cut.2)).getD uri := by
  have hfilter : (some home.text).filter (· ≠ "") = some home.text := by
    rw [Option.filter_some, if_pos (decide_eq_true h.text_ne_empty)]
  rw [shortened, hfilter]
  dsimp only
  cases Text.cutFirst? home.text.toList uri.toList <;> rfl

/-- What is shortened to a rest behind the scheme was the home directory with the rest. -/
theorem IsHome.text_of_shortened (h : IsHome home) (hp : p.isAbsolute = true) {rest : List Char}
    (hshort : shortened (some home.text) (addressOf p) = "file://~" ++ String.ofList rest) :
    p.text.toList = home.text.toList ++ rest := by
  have htilde {s : List Char} : p.text.toList ≠ '~' :: s := by
    intro heq
    simp [Path.isAbsolute, heq] at hp
  have hscheme : '~' ∉ "file://".toList := by decide
  rw [h.shortened_eq] at hshort
  cases hcut : Text.cutFirst? home.text.toList (addressOf p).toList with
  | none =>
    rw [hcut, Option.map_none, Option.getD_none] at hshort
    have hsame : p.text.toList = '~' :: rest := by
      simpa [addressOf, ← String.toList_inj] using hshort
    exact absurd hsame htilde
  | some cut =>
    obtain ⟨before, after⟩ := cut
    have htext := Text.eq_append_of_cutFirst? hcut
    rw [addressOf, String.toList_append] at htext
    rw [hcut, Option.map_some, Option.getD_some] at hshort
    have hsame : before ++ '~' :: after = "file://".toList ++ '~' :: rest := by
      simpa [← String.toList_inj] using hshort
    -- the scheme has no tilde, and the path does not begin with one
    obtain ⟨rfl, rfl⟩ : before = "file://".toList ∧ after = rest := by
      rcases List.append_eq_append_iff.1 hsame with ⟨u, hfront, hback⟩ | ⟨u, hfront, hback⟩
      · cases u with
        | nil => exact ⟨by simpa using hfront.symm, (List.cons.inj hback).2⟩
        | cons c u =>
          obtain rfl := (List.cons.inj hback).1
          exact absurd (hfront ▸ List.mem_append_right before List.mem_cons_self) hscheme
      · cases u with
        | nil => exact ⟨by simpa using hfront, (List.cons.inj hback).2.symm⟩
        | cons c u =>
          obtain rfl := (List.cons.inj hback).1
          rw [hfront, List.append_assoc] at htext
          exact absurd (List.append_cancel_left htext) htilde
    exact List.append_cancel_left htext

/-- An address is left as it is exactly if the text of the home directory does not stand in it. -/
theorem IsHome.shortened_eq_self_iff (h : IsHome home) :
    shortened (some home.text) (addressOf p) = addressOf p ↔
      ¬ home.text.toList <:+: (addressOf p).toList := by
  have hne : home.text.toList ≠ [] := mt String.toList_eq_nil_iff.1 h.text_ne_empty
  rw [← Text.cutFirst?_eq_none_iff hne, h.shortened_eq]
  cases hcut : Text.cutFirst? home.text.toList (addressOf p).toList with
  | none => exact iff_of_true rfl rfl
  | some cut =>
    obtain ⟨before, after⟩ := cut
    have htext := Text.eq_append_of_cutFirst? hcut
    refine iff_of_false (fun hkept => ?_) (Option.some_ne_none _)
    have hsame : '~' :: after = home.text.toList ++ after := by
      rwa [Option.map_some, Option.getD_some, ← String.toList_inj, String.toList_ofList, htext,
        List.append_right_inj] at hkept
    have habsolute : home.text.toList.head? = some '/' := of_decide_eq_true h.absolute
    obtain ⟨d, others, hcons⟩ := List.exists_cons_of_ne_nil hne
    rw [hcons] at hsame habsolute
    obtain rfl := (List.cons.inj hsame).1
    cases habsolute

/-- An address is shortened as it should be exactly if the home directory is not looked for in the
wrong place. -/
theorem shortens_iff_not_misplaces (hhome : IsHome home) (hp : p.isAbsolute = true) :
    Shortens home p (shortened (some home.text) (addressOf p)) ↔ ¬ Misplaces home p := by
  have hunder := Path.isUnder_iff_goesOn hp hhome.absolute hhome.below
  rw [Misplaces, not_and_or, Bool.not_eq_false, beginsWith_iff, not_or]
  unfold Shortens
  -- a path in the home directory is to be shortened, any other one left as it is
  split
  · next hinside =>
    constructor
    · rintro ⟨rest, ⟨front, htext, hrest, hsame⟩, hshort⟩
      exact .inl ⟨rest, hhome.text_of_shortened hp hshort, hrest⟩
    · rintro (⟨rest, htext, hrest⟩ | ⟨houtside, -⟩)
      · refine ⟨rest, ⟨home, htext, hrest, rfl⟩, ?_⟩
        rw [hhome.shortened_eq, hhome.cutFirst?_addressOf htext, ← String.toList_inj]
        simp
      · exact absurd hinside houtside
  · next houtside =>
    rw [hhome.shortened_eq_self_iff]
    constructor
    · exact fun hnowhere => .inr ⟨houtside, hnowhere⟩
    · rintro (⟨rest, htext, hrest⟩ | ⟨-, hnowhere⟩)
      · exact absurd (hunder.2 ⟨rest, home, htext, hrest, rfl⟩) houtside
      · exact hnowhere

end Meter

/-! ## Reports of measured messages -/

namespace Dispatch

/-- The parameters of the message. -/
def params : Dispatch → Json
  | request _ _ r _ => r.params
  | notification _ _ n => n.params

/-- A message about the document with a path. -/
def Concerns (d : Dispatch) (p : Path) : Prop :=
  (d.params.member? "textDocument").bind (Json.member? · "uri") = some (.text (addressOf p))

end Dispatch

namespace Meter

/-- A report is one event, whatever happens to the meter meanwhile. -/
theorem ensures_telemetry_report (c : MeasuringContext) (event : MeasuredMessage) (failed : Bool)
    (change : Meter → Meter) (m : Meter) :
    ((report c event failed).amid change).Ensures
      (fun l _ _ => telemetry l = [.message event]) m := by
  simp only [report, Task.amid_bind, Task.ensures_bind, Task.ask_eq, Task.ensures_amid_call,
    Task.amid_done, Task.ensures_done]
  intro _
  split
  · exact fun _ => rfl
  · exact rfl

/-- A measured request is reported with the version of the server. -/
theorem ensures_telemetry_request (c : MeasuringContext) (transport : Nat) (server : ServerId)
    (r : Request) (timeout : Option Span) {m : Meter} {version : String}
    (hmeasured : m.measures? = some version) (change : Meter → Meter) :
    ((request c transport server r timeout).amid change).Ensures
      (fun l (_ : Except ServerError Response) _ => ∃ nanoseconds error,
        telemetry l = [.message (event c version r.method r.params nanoseconds error)]) m := by
  simp only [request, Task.amid_bind, Task.amid_get, Task.amid_put, Task.ensures_bind,
    Task.ensures_get, Task.ensures_put, hmeasured, Task.ask_eq, Task.ensures_amid_call,
    Task.amid_done, Task.ensures_done]
  intro started answer ended
  refine (ensures_telemetry_report c _ _ change _).mono fun l _ _ hreport => ?_
  exact ⟨ended - started, errorOf answer, by simp [hreport, Exchange.telemetry?]⟩

/-- A measured notification is reported with the version of the server. -/
theorem ensures_telemetry_notify (c : MeasuringContext) (transport : Nat) (server : ServerId)
    (n : Notification) {m : Meter} {version : String} (hmeasured : m.measures? = some version)
    (change : Meter → Meter) :
    ((notify c transport server n).amid change).Ensures
      (fun l (_ : Except ServerError Unit) _ => ∃ nanoseconds error,
        telemetry l = [.message (event c version n.method n.params nanoseconds error)]) m := by
  simp only [notify, Task.amid_bind, Task.amid_get, Task.amid_put, Task.ensures_bind,
    Task.ensures_get, Task.ensures_put, hmeasured, Task.ask_eq, Task.ensures_amid_call,
    Task.amid_done, Task.ensures_done]
  intro started answer ended
  refine (ensures_telemetry_report c _ _ change _).mono fun l _ _ hreport => ?_
  exact ⟨ended - started, none, by simp [hreport, Exchange.telemetry?]⟩

/-- A measured message is reported in one event, with its method and its parameters. -/
theorem ensures_telemetry_metered (c : MeasuringContext) (d : Dispatch) {m : Meter}
    {version : String} (hmeasured : m.measures? = some version) (change : Meter → Meter) :
    ((d.metered c).amid change).Ensures (fun l _ _ => ∃ nanoseconds error,
      telemetry l = [.message (event c version d.method d.params nanoseconds error)]) m := by
  cases d with
  | request transport server r timeout =>
    exact ensures_telemetry_request c transport server r timeout hmeasured change
  | notification transport server n =>
    exact ensures_telemetry_notify c transport server n hmeasured change

/-- A report says of the document the address with the home directory shortened. -/
theorem uri_event {c : MeasuringContext} {d : Dispatch} {p : Path} (h : d.Concerns p)
    (version : String) (nanoseconds : Nat) (error : Option ResponseError) :
    (event c version d.method d.params nanoseconds error).uri =
      some (shortened c.home (addressOf p)) := by
  rw [Dispatch.Concerns] at h
  simp only [event, documentUri?, h]
  rfl

/-- **Theorem (redaction).** Every measured message about a document is reported in one event. It
hides the home directory if the document lies in it, and says the whole address otherwise, exactly
if the home directory is not looked for in the wrong place. -/
theorem redacted_iff_not_misplaced {c : MeasuringContext} {home p : Path} {d : Dispatch}
    {m : Meter} (hhome : IsHome home) (hc : c.home = some home.text) (hp : p.isAbsolute = true)
    (hd : d.Concerns p) (hmeasured : m.measures?.isSome = true) (change : Meter → Meter) :
    ((d.metered c).amid change).Ensures (fun l _ _ => ∃ event uri,
      telemetry l = [.message event] ∧ event.uri = some uri ∧
        (Shortens home p uri ↔ ¬ Misplaces home p)) m := by
  obtain ⟨version, hversion⟩ := Option.isSome_iff_exists.1 hmeasured
  refine (ensures_telemetry_metered c d hversion change).mono fun l _ _ hreport => ?_
  obtain ⟨nanoseconds, error, hreport⟩ := hreport
  refine ⟨_, _, hreport, uri_event hd version nanoseconds error, ?_⟩
  rw [hc]
  exact shortens_iff_not_misplaces hhome hp

/-- A request about a document in the home directory is reported without the directory. -/
theorem home_hidden :
    let home : Path := ⟨"/home/dev"⟩
    let p : Path := ⟨"/home/dev/app/a.rb"⟩
    let d : Dispatch := .request 0 ⟨0, 1⟩ ⟨.number 1, "textDocument/hover",
      .object [("textDocument", .object [("uri", .text "file:///home/dev/app/a.rb")])]⟩ none
    IsHome home ∧ d.Concerns p ∧ p.isUnder home = true ∧
      ((d.metered ⟨"3.3.0", true, "app", some "/home/dev"⟩).amid id).Ensures
        (fun l _ _ => ∃ event uri, telemetry l = [.message event] ∧ event.uri = some uri ∧
          Shortens home p uri) ⟨some "0.17.2", 50⟩ := by
  intro home p d
  have hhome : IsHome home := ⟨by decide, by decide, by decide⟩
  have hd : d.Concerns p := rfl
  have hplaced : ¬ Misplaces home p := by decide
  refine ⟨hhome, hd, by decide, ?_⟩
  refine (redacted_iff_not_misplaced hhome rfl (by decide) hd rfl id).mono fun l _ _ h => ?_
  obtain ⟨event, uri, hl, huri, hiff⟩ := h
  exact ⟨event, uri, hl, huri, hiff.2 hplaced⟩

/-- A notification about a document whose path merely begins with the text of the home directory is
reported as if this lay in it. -/
theorem not_always_redacted : ¬ ∀ (c : MeasuringContext) (home p : Path) (d : Dispatch) (m : Meter),
    IsHome home → c.home = some home.text → p.isAbsolute = true → d.Concerns p →
    m.measures?.isSome = true →
    (d.metered c).Ensures (fun l _ _ => ∃ event uri,
      telemetry l = [.message event] ∧ event.uri = some uri ∧ Shortens home p uri) m := by
  intro h
  have hall := h ⟨"3.3.0", true, "app", some "/home/dev"⟩ ⟨"/home/dev"⟩ ⟨"/home/developer/b.rb"⟩
    (.notification 0 ⟨0, 1⟩ ⟨"textDocument/didOpen",
      .object [("textDocument", .object [("uri", .text "file:///home/developer/b.rb")])]⟩)
    ⟨some "0.17.2", 50⟩ ⟨by decide, by decide, by decide⟩ rfl (by decide) rfl rfl
  obtain ⟨event, uri, hl, huri, hshortens⟩ := hall 0 (.ok ()) 0 ()
  have hshort : uri = "file://~eloper/b.rb" := by
    obtain rfl := TelemetryEvent.message.inj (List.singleton_inj.1 hl)
    exact (Option.some_inj.1 huri).symm
  rw [Shortens, if_neg (by decide), hshort] at hshortens
  exact absurd hshortens (by decide)

end Meter

end RubySupervisor
