import Mathlib.Data.List.ReduceOption
import RubySupervisor.Debugging.Debuggee
import RubySupervisor.Proofs.Host.Trace
import RubySupervisor.Proofs.Text.Cutting

/-!
# When the end of a debuggee is noticed

The end of a debuggee is noticed before its lines, between two of them or after the last one. Up to
that moment something may be concluded after each line; from then on the rest is heard first, and
something is concluded from all of it. What an output tells, it tells line by line, so that a launch
comes to one of two outcomes: what the lines tell up to the first one that says that the debuggee
waits, or what all lines tell. These are the same unless something that matters stands behind that
line: a line that is no text, or the first one that names a socket.
-/

/-! ## What an output tells -/

namespace RubySupervisor.Announcement

open Debuggee (heardAlso)

/-- The output that consists of some lines. -/
def outputOf (lines : List String) : String := lines.foldl heardAlso ""

theorem outputOf_concat (lines : List String) (line : String) :
    outputOf (lines ++ [line]) = heardAlso (outputOf lines) line :=
  List.foldl_concat ..

/-- Lines that are heard after a text stand behind it. -/
theorem toList_foldl_heardAlso (heard : String) (lines : List String) :
    (lines.foldl heardAlso heard).toList = heard.toList ++ (outputOf lines).toList := by
  induction lines generalizing heard with
  | nil => simp [outputOf]
  | cons line lines ih =>
    rw [outputOf, List.foldl_cons, List.foldl_cons, ih, ih (heardAlso "" line)]
    simp [heardAlso]

theorem toList_outputOf_cons (line : String) (lines : List String) :
    (outputOf (line :: lines)).toList = line.toList ++ '\n' :: (outputOf lines).toList := by
  rw [outputOf, List.foldl_cons, toList_foldl_heardAlso]
  simp [heardAlso]

/-- A line says that the debuggee waits. -/
def waits (line : String) : Bool := Text.occurs waitMark line

/-- An output says that the debuggee waits where one of its lines does. -/
theorem occurs_waitMark_outputOf (lines : List String) :
    Text.occurs waitMark (outputOf lines) = lines.any waits := by
  have hmark : waitMark ≠ "" := by decide
  have hbreak : '\n' ∉ waitMark.toList := by decide
  rw [Bool.eq_iff_iff, Text.occurs_iff hmark]
  induction lines with
  | nil => decide
  | cons line lines ih =>
    rw [toList_outputOf_cons, Text.infix_append_cons_iff hbreak, ih, List.any_cons,
      Bool.or_eq_true, waits, Text.occurs_iff hmark]

/-- The name of a socket ends with its line. -/
theorem socketAfterMark?_append_cons (s t : List Char) :
    socketAfterMark? (s ++ '\n' :: t) = socketAfterMark? s := by
  have hline : (s ++ '\n' :: t).takeWhile (· != '\n') = s.takeWhile (· != '\n') := by
    induction s with
    | nil => rfl
    | cons c s ih => simp [List.takeWhile_cons, ih]
  rw [socketAfterMark?, hline, socketAfterMark?]

/-- An output names the socket that the first of its lines names which names one. -/
theorem socket?_outputOf (lines : List String) :
    socket? (outputOf lines) = lines.findSome? socket? := by
  have hbreak : '\n' ∉ socketMark.toList := by decide
  have hline (s t : List Char) :
      (Text.literal? socketMark.toList (s ++ '\n' :: t)).bind socketAfterMark? =
        (Text.literal? socketMark.toList s).bind socketAfterMark? := by
    rw [Text.literal?_append_cons hbreak]
    cases Text.literal? socketMark.toList s <;> simp [socketAfterMark?_append_cons]
  induction lines with
  | nil => decide
  | cons line lines ih =>
    rw [socket?, toList_outputOf_cons, Text.firstMatch?_append_cons hline, Option.map_or,
      List.findSome?_cons, ← ih]
    unfold socket?
    cases Text.firstMatch? _ line.toList <;> rfl

/-- What lines tell of which one says that the debuggee waits. -/
def verdict (lines : List String) : Except ServerError Path :=
  (lines.findSome? socket?).elim (.error .noDebugSocket) .ok

theorem verdict_inj {lines lines' : List String} :
    verdict lines = verdict lines' ↔ lines.findSome? socket? = lines'.findSome? socket? := by
  unfold verdict
  cases lines.findSome? socket? <;> cases lines'.findSome? socket? <;> simp

theorem verdict_ne_notText (lines : List String) : verdict lines ≠ .error (.io .notText) := by
  unfold verdict
  cases lines.findSome? socket? <;> simp

/-- An output tells what its lines tell, once one of them says that the debuggee waits. -/
theorem conclude?_outputOf (lines : List String) :
    conclude? (outputOf lines) = if lines.any waits then some (verdict lines) else none := by
  rw [conclude?, occurs_waitMark_outputOf, socket?_outputOf, verdict]
  cases lines.findSome? socket? <;> rfl

end RubySupervisor.Announcement

/-! ## The two outcomes of a launch -/

namespace RubySupervisor.Debuggee

open Announcement

section Listening

variable {exit : ExitStatus} {told : List String} {lines later : List (Option String)}

/-- It makes no difference whether the end has been noticed before a line that concludes nothing or
not. -/
theorem listen_cons_of_none {heard line : String} (h : conclude? (heardAlso heard line) = none)
    (noticed : Option Nat) (rest : List (Option String)) :
    listen exit noticed heard (some line :: rest) =
      listen exit (noticed.map (· - 1)) (heardAlso heard line) rest := by
  match noticed with
  -- what was heard before and what is heard afterwards is one output
  | some 0 => simp [listen, afterEnd, drain]
  | some (n + 1) => simp [listen, h]
  | none => simp [listen, h]

/-- A line that concludes something is the last one that is heard before the end is noticed. -/
theorem listen_cons_of_some {heard line : String} {result : Except ServerError Path}
    (h : conclude? (heardAlso heard line) = some result) {noticed : Option Nat}
    (hnoticed : noticed ≠ some 0) (rest : List (Option String)) :
    listen exit noticed heard (some line :: rest) = result := by
  match noticed with
  | some 0 => exact absurd rfl hnoticed
  | some (n + 1) => simp [listen, h]
  | none => simp [listen, h]

/-- Whenever the end is noticed, the outcome is the one with the end noticed at first or the one
with the end noticed at last. -/
theorem listen_eq_or (noticed : Option Nat) (heard : String) :
    listen exit noticed heard lines = listen exit (some 0) heard lines ∨
      listen exit noticed heard lines = listen exit none heard lines := by
  by_cases hfirst : noticed = some 0
  · exact .inl (by rw [hfirst])
  induction lines generalizing noticed heard with
  | nil => exact .inr (by simp [listen])
  | cons line lines ih =>
    match line with
    | none => exact .inr (by simp [listen])
    | some line =>
      cases h : conclude? (heardAlso heard line) with
      | some result =>
        right
        have hlast : (none : Option Nat) ≠ some 0 := nofun
        rw [listen_cons_of_some h hfirst, listen_cons_of_some h hlast]
      | none =>
        rw [listen_cons_of_none h, listen_cons_of_none h, listen_cons_of_none h]
        by_cases hnext : noticed.map (· - 1) = some 0
        · exact .inl (by rw [hnext]; rfl)
        · exact ih _ _ hnext

/-- The lines up to the first one that says that the debuggee waits, and those behind it; none where
no line says so before one that is no text. -/
def atWait? : List (Option String) → Option (List String × List (Option String))
  | [] => none
  | none :: _ => none
  | some line :: rest =>
    if waits line then some ([line], rest)
    else (atWait? rest).map (fun (told, later) => (line :: told, later))

theorem eq_append_of_atWait? (h : atWait? lines = some (told, later)) :
    lines = told.map some ++ later ∧ told.any waits = true := by
  fun_induction atWait? lines generalizing told with
  | case1 => cases h
  | case2 => cases h
  | case3 line rest hwaits =>
    obtain ⟨rfl, rfl⟩ := Prod.mk.inj (Option.some.inj h)
    simp [hwaits]
  | case4 line rest _ ih =>
    obtain ⟨⟨front, rest'⟩, hfront, hsame⟩ := Option.map_eq_some_iff.1 h
    obtain ⟨rfl, rfl⟩ := Prod.mk.inj hsame
    obtain ⟨rfl, hany⟩ := ih hfront
    simp [hany]

/-- With the end noticed at last, the outcome is what has been told when a line first says that the
debuggee waits. Where none says so, it is the one with the end noticed at first. -/
theorem listen_none {heard : List String} (hquiet : heard.any waits = false) :
    listen exit none (outputOf heard) lines =
      match atWait? lines with
      | some (told, _) => verdict (heard ++ told)
      | none => listen exit (some 0) (outputOf heard) lines := by
  -- what has been heard is kept as lines, none of which says that the debuggee waits
  fun_induction atWait? lines generalizing heard with
  | case1 => simp [listen, afterEnd, drain, conclude?_outputOf, hquiet]
  | case2 rest => simp [listen, afterEnd, drain]
  | case3 line rest hwaits =>
    have htold : conclude? (heardAlso (outputOf heard) line) =
        some (verdict (heard ++ [line])) := by
      rw [← outputOf_concat, conclude?_outputOf]
      simp [hwaits]
    have hlast : (none : Option Nat) ≠ some 0 := nofun
    exact listen_cons_of_some htold hlast rest
  | case4 line rest hline ih =>
    have hany : (heard ++ [line]).any waits = false := by simp [hquiet, hline]
    have hnone : conclude? (heardAlso (outputOf heard) line) = none := by
      rw [← outputOf_concat, conclude?_outputOf, hany, if_neg Bool.false_ne_true]
    rw [listen_cons_of_none hnone, listen_cons_of_none hnone, ← outputOf_concat, Option.map_none,
      Option.map_some, ih hany]
    cases atWait? rest <;> simp

/-- Once the end has been noticed, all lines are heard, if they are texts. -/
theorem drain_outputOf (heard : List String) (lines : List (Option String)) :
    drain (outputOf heard) lines =
      if none ∈ lines then .error (.io .notText)
      else .ok (outputOf (heard ++ lines.reduceOption)) := by
  induction lines generalizing heard with
  | nil => simp [drain]
  | cons line lines ih =>
    match line with
    | none => simp [drain]
    | some line => simp [drain, ← outputOf_concat, ih]

/-- With the end noticed at first, the outcome is what all lines tell, if they are texts. -/
theorem listen_first (h : atWait? lines = some (told, later)) :
    listen exit (some 0) (outputOf []) lines =
      if none ∈ later then .error (.io .notText)
      else verdict (told ++ later.reduceOption) := by
  obtain ⟨rfl, hwaits⟩ := eq_append_of_atWait? h
  have htexts : (told.map some ++ later).reduceOption = told ++ later.reduceOption := by
    simp [List.reduceOption]
  have hnone : none ∈ told.map some ++ later ↔ none ∈ later := by simp
  have hany : (told ++ later.reduceOption).any waits = true := by simp [hwaits]
  rw [listen, afterEnd, drain_outputOf, htexts, List.nil_append]
  by_cases hlater : none ∈ later
  · rw [if_pos (hnone.2 hlater), if_pos hlater]
  · rw [if_neg (mt hnone.1 hlater), if_neg hlater]
    simp [conclude?_outputOf, hany]

/-- Something that matters stands behind the first line that says that the debuggee waits: a line
that is no text, or the first line that names a socket. -/
def Belated (lines : List (Option String)) : Prop :=
  ∃ split ∈ atWait? lines, none ∈ split.2 ∨
    (∀ line ∈ split.1, socket? line = none) ∧ ∃ line ∈ split.2.reduceOption, socket? line ≠ none

instance (lines : List (Option String)) : Decidable (Belated lines) :=
  inferInstanceAs (Decidable (∃ _ ∈ atWait? lines, _ ∨ (∀ _ ∈ _, _) ∧ ∃ _ ∈ _, _))

theorem belated_iff (h : atWait? lines = some (told, later)) :
    Belated lines ↔ none ∈ later ∨
      told.findSome? socket? = none ∧ later.reduceOption.findSome? socket? ≠ none := by
  simp [Belated, h]

/-- The end may as well be noticed at first as at last, exactly unless something that matters is
told too late. -/
theorem listen_none_eq_first_iff :
    listen exit none (outputOf []) lines = listen exit (some 0) (outputOf []) lines ↔
      ¬ Belated lines := by
  rw [listen_none List.any_nil]
  cases h : atWait? lines with
  | none => simp [Belated, h]
  | some split =>
    obtain ⟨told, later⟩ := split
    rw [belated_iff h, listen_first h]
    dsimp only
    by_cases hnone : none ∈ later
    · simp [hnone, verdict_ne_notText]
    · rw [if_neg hnone, verdict_inj, List.nil_append, List.findSome?_append]
      cases told.findSome? socket? <;> simp [hnone, eq_comm]

end Listening

/-! ## Launches -/

section Launch

variable {σ ω : Type}

/-- A launch comes to the outcome of the run that the host answers with. -/
theorem run_launch (host : (c : Call) → σ → ω → c.Answer × ω) (program : String)
    (environment : Dict String) (directory : Path) (s : σ) (w : ω) :
    ((launch program environment directory).run host s w).1 =
      (host (.launchDebuggee (launchCommand program environment directory)) s w).1.bind
        outcome := by
  simp only [launch, Task.ask, Task.bind_eq, Task.andThen, Task.run]
  cases (host (.launchDebuggee (launchCommand program environment directory)) s w).1 <;> rfl

/-- **Theorem (noticing the end).** The outcome of a launch does not depend on the moment at which
the end of the debuggee is noticed, exactly unless something that matters stands behind the first
line that says that the debuggee waits. -/
theorem indifferent_iff_not_belated {host : (c : Call) → σ → ω → c.Answer × ω} {program : String}
    {environment : Dict String} {directory : Path} {s : σ} {worlds : Option Nat → ω}
    {lines : List (Option String)} {exit : ExitStatus}
    (h : ∀ noticed, (host (.launchDebuggee (launchCommand program environment directory)) s
      (worlds noticed)).1 = .ok ⟨lines, exit, noticed⟩) :
    (∀ noticed noticed',
      ((launch program environment directory).run host s (worlds noticed)).1 =
        ((launch program environment directory).run host s (worlds noticed')).1) ↔
      ¬ Belated lines := by
  have hrun (noticed : Option Nat) :
      ((launch program environment directory).run host s (worlds noticed)).1 =
        listen exit noticed (outputOf []) lines := by
    rw [run_launch, h]
    rfl
  simp only [hrun]
  rw [← listen_none_eq_first_iff]
  constructor
  · intro hsame
    exact hsame none (some 0)
  · intro hsame noticed noticed'
    have hfirst (moment : Option Nat) : listen exit moment (outputOf []) lines =
        listen exit (some 0) (outputOf []) lines :=
      (listen_eq_or moment (outputOf [])).elim id fun hlast => hlast.trans hsame
    rw [hfirst noticed, hfirst noticed']

end Launch

/-- A host on which a debuggee runs as the world says. -/
def attended {σ : Type} : (c : Call) → σ → DebuggeeRun → c.Answer × DebuggeeRun
  | .launchDebuggee _, _, r => (.ok r, r)
  | c, _, r => (agreed (.error .rubyNotOnPath) c, r)

/-- The outcome of a launch on that host. -/
def launched (r : DebuggeeRun) : Except ServerError Path :=
  ((launch "ruby app.rb" [] ⟨"/app"⟩).run attended () r).1

/-- The line that names a socket. -/
def naming (socket : String) : String := socketMark ++ socket ++ ")"

/-- What a debuggee prints that names a socket, waits, and does both once more. -/
def namedTwice : List String := [naming "/tmp/7-a", waitMark, naming "/tmp/7-b", waitMark]

/-- The socket that is named first is the outcome, whenever the end is noticed. -/
theorem namedTwice_indifferent :
    (∀ noticed, (attended (.launchDebuggee (launchCommand "ruby app.rb" [] ⟨"/app"⟩)) ()
        ⟨namedTwice.map some, .code 1, noticed⟩).1 = .ok ⟨namedTwice.map some, .code 1, noticed⟩) ∧
      ∀ noticed, launched ⟨namedTwice.map some, .code 1, noticed⟩ = .ok ⟨"/tmp/7-a"⟩ := by
  have hhost : ∀ noticed, (attended (.launchDebuggee (launchCommand "ruby app.rb" [] ⟨"/app"⟩)) ()
      (DebuggeeRun.mk (namedTwice.map some) (.code 1) noticed)).1 =
      .ok ⟨namedTwice.map some, .code 1, noticed⟩ := fun _ => rfl
  have hbelated : ¬ Belated (namedTwice.map some) := by decide +kernel
  have hlast : launched ⟨namedTwice.map some, .code 1, none⟩ = .ok ⟨"/tmp/7-a"⟩ := by
    decide +kernel
  refine ⟨hhost, fun noticed => ?_⟩
  exact ((indifferent_iff_not_belated hhost).2 hbelated noticed none).trans hlast

/-- What a debuggee prints that says that it waits before it names its socket. -/
def namedLate : List String := [waitMark, naming "/tmp/7-a"]

/-- Not every launch comes to one outcome whenever the end is noticed: a socket that is named behind
the line that says that the debuggee waits is found only if the end is noticed before that line. -/
theorem not_always_indifferent :
    ¬ ∀ (lines : List String) (exit : ExitStatus) (noticed noticed' : Option Nat),
      launched ⟨lines.map some, exit, noticed⟩ = launched ⟨lines.map some, exit, noticed'⟩ := by
  intro h
  have hlast : launched ⟨namedLate.map some, .code 3, none⟩ = .error .noDebugSocket := by
    decide +kernel
  have hfirst : launched ⟨namedLate.map some, .code 3, some 0⟩ = .ok ⟨"/tmp/7-a"⟩ := by
    decide +kernel
  have hsame := h namedLate (.code 3) none (some 0)
  rw [hlast, hfirst] at hsame
  cases hsame

end RubySupervisor.Debuggee
