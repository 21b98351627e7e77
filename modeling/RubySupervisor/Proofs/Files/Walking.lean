import Mathlib.Data.List.Induction
import Mathlib.Data.List.Basic
import RubySupervisor.Files.Tree

/-!
# Ways through a tree

A way leads from a directory to a directory: down by names, up again, and along links. Walking the
steps of a path is going the way of all but the last of them, and taking the last one from there. A
tree that has the directories and links of another one has its ways.
-/

namespace RubySupervisor.FileTree

/-! ## Entries -/

/-- Entries that are kept are found as before. -/
theorem find?_filter_of_imp {entries : List (Location × Entry)} {keep : Location × Entry → Bool}
    {at_ : Location} (h : ∀ entry, entry.1 = at_ → keep entry = true) :
    (entries.filter keep).find? (fun entry => entry.1 = at_) =
      entries.find? (fun entry => entry.1 = at_) := by
  rw [List.find?_filter]
  congr 1
  funext entry
  by_cases hat : entry.1 = at_ <;> simp [hat, h entry]

theorem entry?_nil (t : FileTree) : t.entry? [] = some .directory := rfl

theorem entry?_set (t : FileTree) (place : Location) (entry : Entry) (at_ : Location) :
    entry? (t.set place entry) at_ =
      if at_ = [] then some .directory else if at_ = place then some entry else t.entry? at_ := by
  by_cases hroot : at_ = []
  · simp [hroot, entry?]
  · by_cases hplace : at_ = place
    · subst hplace
      simp [hroot, entry?, set]
    · have hkept (old : Location × Entry) (hat : old.1 = at_) : decide (old.1 ≠ place) = true :=
        decide_eq_true (hat ▸ hplace)
      simp only [hroot, entry?, set, if_false, hplace, List.find?_cons, Ne.symm hplace,
        decide_false, find?_filter_of_imp hkept]

theorem entry?_set_self {t : FileTree} {place : Location} (entry : Entry) (h : place ≠ []) :
    entry? (t.set place entry) place = some entry := by
  rw [entry?_set, if_neg h, if_pos rfl]

theorem entry?_set_of_ne {t : FileTree} {place at_ : Location} (entry : Entry) (h : at_ ≠ place) :
    entry? (t.set place entry) at_ = t.entry? at_ := by
  rw [entry?_set, if_neg h]
  split
  · next hroot => rw [hroot, entry?_nil]
  · rfl

theorem entry?_remove (t : FileTree) {place at_ : Location} (h : ¬ place <+: at_) :
    entry? (t.remove place) at_ = t.entry? at_ := by
  have hkept (old : Location × Entry) (hat : old.1 = at_) : (!place.isPrefixOf old.1) = true := by
    rw [hat, Bool.not_eq_true', Bool.eq_false_iff, ne_eq, List.isPrefixOf_iff_prefix]
    exact h
  unfold entry?
  rw [remove, find?_filter_of_imp hkept]

theorem entry?_remove_within (t : FileTree) {place at_ : Location} (hroot : at_ ≠ [])
    (h : place <+: at_) : entry? (t.remove place) at_ = none := by
  unfold entry?
  rw [if_neg hroot, Option.map_eq_none_iff, List.find?_eq_none]
  intro entry hentry hat
  have hkept := (List.mem_filter.1 hentry).2
  rw [of_decide_eq_true hat, List.isPrefixOf_iff_prefix.2 h] at hkept
  cases hkept

/-! ## Steps of a walk -/

section Steps

variable {t : FileTree} {follow : Bool} {links : Nat} {asking : Asking} {here : Location}

theorem walk_nil : t.walk follow links asking here [] =
    .ok (.found here ((t.entry? here).getD .directory), asking) := by
  cases links <;> rw [walk, walkToLink]

theorem walk_up (rest : List String) :
    t.walk follow links asking here (".." :: rest) =
      t.walk follow links asking here.dropLast rest := by
  cases links <;> rw [walk, walkToLink]

/-- Where the steps of a link begin. -/
def linkStart (here : Location) (target : String) : Location :=
  if (Path.mk target).isAbsolute then [] else here

theorem walk_name {name : String} (hname : name ≠ "..") (rest : List String) :
    t.walk follow links asking here (name :: rest) =
      if 255 < name.utf8ByteSize then .error .nameTooLong
      else
        match t.entry? (here ++ [name]) with
        | none =>
          if rest.isEmpty then .ok (.absent (here ++ [name]), asking) else .error .notFound
        | some .directory => t.walk follow links asking (here ++ [name]) rest
        | some (.link target) =>
          if rest.isEmpty && !follow && asking = .nothing then
            .ok (.found (here ++ [name]) (.link target), asking)
          else
            match links with
            | 0 => .error .tooManyLinks
            | links + 1 =>
              t.walk follow links
                (if rest.isEmpty && asking = .nothing then Asking.of target else asking)
                (linkStart here target) (steps target ++ rest)
        | some entry =>
          if rest.isEmpty && asking = .nothing then .ok (.found (here ++ [name]) entry, asking)
          else .error .notADirectory := by
  cases links
  all_goals exact walkToLink.eq_3 t follow _ asking here name rest hname

end Steps

/-- Going these steps from a directory leads to a directory, with so many links left to follow. -/
inductive Leads (t : FileTree) : Nat → Location → List String → Location → Nat → Prop where
  | here {links : Nat} {place : Location} : Leads t links place [] place links
  | up {links left : Nat} {place goal : Location} {rest : List String}
      (h : Leads t links place.dropLast rest goal left) :
      Leads t links place (".." :: rest) goal left
  | down {links left : Nat} {place goal : Location} {name : String} {rest : List String}
      (hname : name ≠ "..") (hsize : name.utf8ByteSize ≤ 255)
      (hentry : t.entry? (place ++ [name]) = some .directory)
      (h : Leads t links (place ++ [name]) rest goal left) :
      Leads t links place (name :: rest) goal left
  | along {links left : Nat} {place goal : Location} {name target : String} {rest : List String}
      (hname : name ≠ "..") (hsize : name.utf8ByteSize ≤ 255)
      (hentry : t.entry? (place ++ [name]) = some (.link target))
      (h : Leads t links (linkStart place target) (steps target ++ rest) goal left) :
      Leads t (links + 1) place (name :: rest) goal left

section Leads

variable {t t' : FileTree} {follow : Bool} {links left : Nat} {asking : Asking}
  {place goal : Location} {way rest : List String}

/-- Steps lead to one place at most. -/
theorem Leads.unique {goal' : Location} {left' : Nat} (h : t.Leads links place way goal left)
    (h' : t.Leads links place way goal' left') : goal = goal' ∧ left = left' := by
  induction h with
  | here =>
    cases h'
    exact ⟨rfl, rfl⟩
  | up _ ih =>
    cases h' with
    | up h' => exact ih h'
    | down hname => exact absurd rfl hname
    | along hname => exact absurd rfl hname
  | down hname _ hentry _ ih =>
    cases h' with
    | up => exact absurd rfl hname
    | down _ _ _ h' => exact ih h'
    | along _ _ hentry' => cases hentry.symm.trans hentry'
  | along hname _ hentry _ ih =>
    cases h' with
    | up => exact absurd rfl hname
    | down _ _ hentry' => cases hentry.symm.trans hentry'
    | along _ _ hentry' h' =>
      cases hentry.symm.trans hentry'
      exact ih h'

/-- Somewhere on a way its first steps have been gone. -/
theorem Leads.split (h : t.Leads links place (way ++ rest) goal left) :
    ∃ middle remaining, t.Leads links place way middle remaining ∧
      t.Leads remaining middle rest goal left := by
  generalize hsteps : way ++ rest = all at h
  induction h generalizing way with
  | here =>
    obtain ⟨rfl, rfl⟩ := List.append_eq_nil_iff.1 hsteps
    exact ⟨_, _, .here, .here⟩
  | up h ih =>
    rcases List.append_eq_cons_iff.1 hsteps with ⟨rfl, rfl⟩ | ⟨way, rfl, rfl⟩
    · exact ⟨_, _, .here, .up h⟩
    · obtain ⟨middle, remaining, hway, hrest⟩ := ih rfl
      exact ⟨middle, remaining, .up hway, hrest⟩
  | down hname hsize hentry h ih =>
    rcases List.append_eq_cons_iff.1 hsteps with ⟨rfl, rfl⟩ | ⟨way, rfl, rfl⟩
    · exact ⟨_, _, .here, .down hname hsize hentry h⟩
    · obtain ⟨middle, remaining, hway, hrest⟩ := ih rfl
      exact ⟨middle, remaining, .down hname hsize hentry hway, hrest⟩
  | along hname hsize hentry h ih =>
    rcases List.append_eq_cons_iff.1 hsteps with ⟨rfl, rfl⟩ | ⟨way, rfl, rfl⟩
    · exact ⟨_, _, .here, .along hname hsize hentry h⟩
    · obtain ⟨middle, remaining, hway, hrest⟩ := ih (List.append_assoc _ _ _)
      exact ⟨middle, remaining, .along hname hsize hentry hway, hrest⟩

/-- A tree keeps the ways of another one if it has its directories and links. -/
structure Keeps (t t' : FileTree) : Prop where
  directory : ∀ at_, t.entry? at_ = some .directory → t'.entry? at_ = some .directory
  link : ∀ at_ target, t.entry? at_ = some (.link target) → t'.entry? at_ = some (.link target)

theorem Leads.mono (h : t.Leads links place way goal left) (hkeeps : t.Keeps t') :
    t'.Leads links place way goal left := by
  induction h with
  | here => exact .here
  | up _ ih => exact .up ih
  | down hname hsize hentry _ ih => exact .down hname hsize (hkeeps.directory _ hentry) ih
  | along hname hsize hentry _ ih => exact .along hname hsize (hkeeps.link _ _ hentry) ih

/-- Walking on is going the way first. -/
theorem Leads.walk_append (h : t.Leads links place way goal left) (hrest : rest ≠ []) :
    t.walk follow links asking place (way ++ rest) = t.walk follow left asking goal rest := by
  induction h with
  | here => rfl
  | up _ ih => rw [List.cons_append, walk_up, ih]
  | down hname hsize hentry _ ih =>
    rw [List.cons_append, walk_name hname, if_neg (Nat.not_lt.2 hsize), hentry]
    exact ih
  | @along links left place goal name target way hname hsize hentry _ ih =>
    rw [List.cons_append, walk_name hname, if_neg (Nat.not_lt.2 hsize), hentry]
    have hsome : (way ++ rest).isEmpty = false := by simp [hrest]
    simp only [hsome, Bool.false_and, Bool.false_eq_true, if_false, ← List.append_assoc]
    exact ih

/-- How a walk comes to its end, step by step. -/
inductive Walked (t : FileTree) (follow : Bool) :
    Nat → Asking → Location → List String → Resolved → Asking → Prop where
  | here {links : Nat} {asking : Asking} {place : Location} :
      Walked t follow links asking place [] (.found place ((t.entry? place).getD .directory)) asking
  | up {links : Nat} {asking asked : Asking} {place : Location} {rest : List String} {r : Resolved}
      (h : Walked t follow links asking place.dropLast rest r asked) :
      Walked t follow links asking place (".." :: rest) r asked
  | down {links : Nat} {asking asked : Asking} {place : Location} {name : String}
      {rest : List String} {r : Resolved} (hname : name ≠ "..") (hsize : name.utf8ByteSize ≤ 255)
      (hentry : t.entry? (place ++ [name]) = some .directory)
      (h : Walked t follow links asking (place ++ [name]) rest r asked) :
      Walked t follow links asking place (name :: rest) r asked
  | along {links : Nat} {asking asked : Asking} {place : Location} {name target : String}
      {rest : List String} {r : Resolved} (hname : name ≠ "..") (hsize : name.utf8ByteSize ≤ 255)
      (hentry : t.entry? (place ++ [name]) = some (.link target))
      (h : Walked t follow links
        (if rest.isEmpty && asking = .nothing then Asking.of target else asking)
        (linkStart place target) (steps target ++ rest) r asked) :
      Walked t follow (links + 1) asking place (name :: rest) r asked
  | absent {links : Nat} {asking : Asking} {place : Location} {name : String} (hname : name ≠ "..")
      (hsize : name.utf8ByteSize ≤ 255) (hentry : t.entry? (place ++ [name]) = none) :
      Walked t follow links asking place [name] (.absent (place ++ [name])) asking
  | found {links : Nat} {place : Location} {name : String} {entry : Entry} (hname : name ≠ "..")
      (hsize : name.utf8ByteSize ≤ 255) (hentry : t.entry? (place ++ [name]) = some entry)
      (hdirectory : entry ≠ .directory) :
      Walked t follow links .nothing place [name] (.found (place ++ [name]) entry) .nothing

theorem walked_of_walk {r : Resolved} {asked : Asking}
    (h : t.walk follow links asking place way = .ok (r, asked)) :
    t.Walked follow links asking place way r asked := by
  -- the links that are left decide first, since a link puts its own steps in front
  induction links using Nat.strongRecOn generalizing place way asking with
  | ind links ihLinks =>
    induction way generalizing place with
    | nil =>
      rw [walk_nil] at h
      cases h
      exact .here
    | cons name rest ih =>
      by_cases hname : name = ".."
      · subst hname
        rw [walk_up] at h
        exact .up (ih h)
      rw [walk_name hname] at h
      split at h
      · cases h
      next hsize =>
      have hsize := Nat.not_lt.1 hsize
      split at h
      · next hentry =>
        split at h <;> cases h
        next hlast =>
        obtain rfl := List.isEmpty_iff.1 hlast
        exact .absent hname hsize hentry
      · next hentry => exact .down hname hsize hentry (ih h)
      -- a link at the end of the way may be what is asked for; any other one is followed
      · next target hentry =>
        split at h
        · next hlast =>
          cases h
          simp only [Bool.and_eq_true, List.isEmpty_iff, decide_eq_true_eq] at hlast
          obtain ⟨⟨rfl, -⟩, rfl⟩ := hlast
          exact .found hname hsize hentry nofun
        · cases links with
          | zero => cases h
          | succ links => exact .along hname hsize hentry (ihLinks links (Nat.lt_succ_self links) h)
      · next entry hdirectory _ hentry =>
        split at h <;> cases h
        next hlast =>
        simp only [Bool.and_eq_true, List.isEmpty_iff, decide_eq_true_eq] at hlast
        obtain ⟨rfl, rfl⟩ := hlast
        exact .found hname hsize hentry fun heq => hdirectory heq

/-- Whoever walks on goes the way first. -/
theorem exists_leads_of_walk {r : Resolved × Asking} (hrest : rest ≠ [])
    (h : t.walk follow links asking place (way ++ rest) = .ok r) :
    ∃ goal left, t.Leads links place way goal left := by
  obtain ⟨r, asked⟩ := r
  have hwalked := walked_of_walk h
  generalize hsteps : way ++ rest = all at hwalked
  clear h
  -- on how the whole way is walked; where its front is used up, the front has been gone
  induction hwalked generalizing way with
  | here => exact absurd (List.append_eq_nil_iff.1 hsteps).2 hrest
  | up _ ih =>
    rcases List.append_eq_cons_iff.1 hsteps with ⟨rfl, -⟩ | ⟨way, rfl, rfl⟩
    · exact ⟨_, _, .here⟩
    · obtain ⟨goal, left, hway⟩ := ih rfl
      exact ⟨goal, left, .up hway⟩
  | down hname hsize hentry _ ih =>
    rcases List.append_eq_cons_iff.1 hsteps with ⟨rfl, -⟩ | ⟨way, rfl, rfl⟩
    · exact ⟨_, _, .here⟩
    · obtain ⟨goal, left, hway⟩ := ih rfl
      exact ⟨goal, left, .down hname hsize hentry hway⟩
  | along hname hsize hentry _ ih =>
    rcases List.append_eq_cons_iff.1 hsteps with ⟨rfl, -⟩ | ⟨way, rfl, rfl⟩
    · exact ⟨_, _, .here⟩
    · obtain ⟨goal, left, hway⟩ := ih (List.append_assoc _ _ _)
      exact ⟨goal, left, .along hname hsize hentry hway⟩
  | absent | found =>
    rcases List.append_eq_cons_iff.1 hsteps with ⟨rfl, -⟩ | ⟨way, -, hnil⟩
    · exact ⟨_, _, .here⟩
    · exact absurd (List.append_eq_nil_iff.1 hnil.symm).2 hrest

/-- A last name is taken from where the steps before it lead. -/
theorem exists_leads_of_walk_concat {name : String} {r : Resolved × Asking} (hname : name ≠ "..")
    (h : t.walk follow links asking place (way ++ [name]) = .ok r) :
    ∃ goal left, t.Leads links place way goal left ∧ name.utf8ByteSize ≤ 255 := by
  obtain ⟨goal, left, hway⟩ := exists_leads_of_walk (List.cons_ne_nil _ _) h
  refine ⟨goal, left, hway, ?_⟩
  rw [hway.walk_append (List.cons_ne_nil _ _), walk_name hname] at h
  split at h
  · cases h
  · next hsize => exact Nat.not_lt.1 hsize

/-- Whoever arrives at a directory has gone a way to it. -/
theorem exists_leads_of_walk_directory {at_ : Location} {asked : Asking}
    (h : t.walk follow links asking place way = .ok (.found at_ .directory, asked)) :
    ∃ left, t.Leads links place way at_ left := by
  have hwalked := walked_of_walk h
  generalize hfound : Resolved.found at_ .directory = r at hwalked
  clear h
  induction hwalked with
  | here =>
    obtain ⟨rfl, -⟩ := Resolved.found.inj hfound
    exact ⟨_, .here⟩
  | up _ ih => exact (ih hfound).imp fun _ hway => .up hway
  | down hname hsize hentry _ ih =>
    exact (ih hfound).imp fun _ hway => .down hname hsize hentry hway
  | along hname hsize hentry _ ih =>
    exact (ih hfound).imp fun _ hway => .along hname hsize hentry hway
  | absent => cases hfound
  | found _ _ _ hdirectory =>
    cases hfound
    exact absurd rfl hdirectory

/-- Where nothing has the last name, a walk ends at a free place. -/
theorem Leads.walk_absent {name : String} (h : t.Leads links place way goal left)
    (hname : name ≠ "..") (hsize : name.utf8ByteSize ≤ 255)
    (hentry : t.entry? (goal ++ [name]) = none) :
    t.walk follow links asking place (way ++ [name]) =
      .ok (.absent (goal ++ [name]), asking) := by
  rw [h.walk_append (List.cons_ne_nil _ _), walk_name hname, if_neg (Nat.not_lt.2 hsize), hentry]
  rfl

/-- A walk ends at what has the last name, unless that is a link to follow. -/
theorem Leads.walk_found {name : String} {entry : Entry} (h : t.Leads links place way goal left)
    (hname : name ≠ "..") (hsize : name.utf8ByteSize ≤ 255)
    (hentry : t.entry? (goal ++ [name]) = some entry)
    (hlink : follow = true → ∀ target, entry ≠ .link target) :
    t.walk follow links .nothing place (way ++ [name]) =
      .ok (.found (goal ++ [name]) entry, .nothing) := by
  rw [h.walk_append (List.cons_ne_nil _ _), walk_name hname, if_neg (Nat.not_lt.2 hsize), hentry]
  cases entry with
  | directory => simp [walk_nil, hentry]
  | link target =>
    cases follow with
    | true => exact absurd rfl (hlink rfl target)
    | false => rfl
  | file content executable => rfl
  | device => rfl

/-- A path that asks for a directory itself does not ask for it in another way behind a link. -/
theorem asking_of_walk {r : Resolved} {asked : Asking} (hasking : asking ≠ .nothing)
    (h : t.walk follow links asking place way = .ok (r, asked)) : asked = asking := by
  have hwalked := walked_of_walk h
  clear h
  induction hwalked with
  | here | absent => rfl
  | up _ ih | down _ _ _ _ ih => exact ih hasking
  | along _ _ _ _ ih =>
    simp only [hasking, decide_false, Bool.and_false, Bool.false_eq_true, if_false] at ih
    exact ih hasking
  | found => exact absurd rfl hasking

/-- A walk that ends at a free place, and does not lead back to it, takes a last name from where the
steps before it lead. -/
theorem leads_of_walk_absent {at_ : Location} {asked : Asking} (hasking : asking ≠ .separator)
    (h : t.walk false links asking place way = .ok (.absent at_, asked)) (hasked : asked ≠ .step) :
    ∃ front name goal left, way = front ++ [name] ∧ name ≠ ".." ∧
      t.Leads links place front goal left ∧ t.entry? (goal ++ [name]) = none ∧
      at_ = goal ++ [name] := by
  -- a last step that is asked for would still be asked for at the end of the walk
  obtain rfl : asking = .nothing := by
    cases asking with
    | nothing => rfl
    | separator => exact absurd rfl hasking
    | step => exact absurd (asking_of_walk (by decide) h) hasked
  rcases List.eq_nil_or_concat' way with rfl | ⟨front, name, rfl⟩
  · rw [walk_nil] at h
    cases h
  · obtain ⟨goal, left, hway⟩ := exists_leads_of_walk (List.cons_ne_nil _ _) h
    rw [hway.walk_append (List.cons_ne_nil _ _)] at h
    by_cases hname : name = ".."
    · rw [hname, walk_up, walk_nil] at h
      cases h
    · rw [walk_name hname] at h
      split at h
      · cases h
      · cases hentry : t.entry? (goal ++ [name]) with
        | none =>
          simp only [hentry, List.isEmpty_nil, if_true] at h
          cases h
          exact ⟨front, name, goal, left, rfl, hname, hway, hentry, rfl⟩
        | some entry => cases entry <;> simp [hentry, walk_nil] at h

end Leads

/-! ## Trees that stand on the ground -/

/-- Everything in a tree stands in a directory, and the tree is seen from one. -/
structure Grounded (t : FileTree) : Prop where
  origin : t.entry? t.origin = some .directory
  parent : ∀ at_ name entry, t.entry? (at_ ++ [name]) = some entry →
    t.entry? at_ = some .directory

section Grounded

variable {t t' : FileTree} {place : Location}

theorem grounded_empty : empty.Grounded where
  origin := rfl
  parent at_ name entry hentry := by
    unfold entry? at hentry
    rw [if_neg (by simp)] at hentry
    cases hentry

/-- Nothing is below what is no directory. -/
theorem Grounded.entry?_below (h : t.Grounded) (hplace : t.entry? place ≠ some .directory)
    {below : List String} (hbelow : below ≠ []) : t.entry? (place ++ below) = none := by
  induction below using List.reverseRecOn with
  | nil => exact absurd rfl hbelow
  | append_singleton below name ih =>
    rw [← List.append_assoc]
    cases hentry : t.entry? (place ++ below ++ [name]) with
    | none => rfl
    | some entry =>
      have hparent := h.parent _ _ _ hentry
      cases below with
      | nil => exact absurd (List.append_nil place ▸ hparent) hplace
      | cons first below => cases (ih (List.cons_ne_nil _ _)).symm.trans hparent

/-- A way leads from a directory to a directory. -/
theorem Leads.directory {links left : Nat} {goal : Location} {way : List String}
    (h : t.Leads links place way goal left) (ht : t.Grounded)
    (hplace : t.entry? place = some .directory) : t.entry? goal = some .directory := by
  induction h with
  | here => exact hplace
  | @up links left place goal rest _ ih =>
    refine ih ?_
    rcases List.eq_nil_or_concat' place with rfl | ⟨front, name, rfl⟩
    · exact entry?_nil t
    · rw [List.dropLast_concat]
      exact ht.parent _ _ _ hplace
  | down _ _ hentry _ ih => exact ih hentry
  | along _ _ _ _ ih =>
    refine ih ?_
    unfold linkStart
    split
    · exact entry?_nil t
    · exact hplace

/-- No way leads through a leaf: it is neither a directory nor a link. -/
structure Leaf (t : FileTree) (at_ : Location) : Prop where
  not_directory : t.entry? at_ ≠ some .directory
  not_link : ∀ target, t.entry? at_ ≠ some (.link target)

/-- A tree that differs from another one at a leaf only keeps its ways. -/
theorem Leaf.keeps (h : t.Leaf place) (hsame : ∀ at_, at_ ≠ place → t'.entry? at_ = t.entry? at_) :
    t.Keeps t' where
  directory at_ hat := by
    rw [hsame at_ fun heq => h.not_directory (heq ▸ hat), hat]
  link at_ target hat := by
    rw [hsame at_ fun heq => h.not_link target (heq ▸ hat), hat]

/-- A tree stays on the ground when an entry is put in a directory, over no directory. -/
theorem Grounded.set (h : t.Grounded) (goal : Location) (name : String) (entry : Entry)
    (hgoal : t.entry? goal = some .directory)
    (hplace : t.entry? (goal ++ [name]) ≠ some .directory) :
    (t.set (goal ++ [name]) entry).Grounded where
  origin := by
    have hne : t.origin ≠ goal ++ [name] := fun heq => hplace (by rw [← heq, h.origin])
    exact (entry?_set_of_ne entry hne).trans h.origin
  parent at_ last found hfound := by
    have hbeside (hat : t.entry? at_ = some .directory) :
        entry? (t.set (goal ++ [name]) entry) at_ = some .directory := by
      rw [entry?_set_of_ne entry fun heq => hplace (by rw [← heq, hat]), hat]
    by_cases heq : at_ ++ [last] = goal ++ [name]
    · obtain ⟨rfl, -⟩ := List.append_inj' heq rfl
      exact hbeside hgoal
    · rw [entry?_set_of_ne entry heq] at hfound
      exact hbeside (h.parent _ _ _ hfound)

/-- Taking away a leaf takes away nothing else. -/
theorem Grounded.entry?_remove_leaf (h : t.Grounded) (hplace : t.Leaf place) {at_ : Location}
    (hne : at_ ≠ place) : entry? (t.remove place) at_ = t.entry? at_ := by
  by_cases hprefix : place <+: at_
  · obtain ⟨below, rfl⟩ := hprefix
    have hbelow : below ≠ [] := fun hnil => hne (by rw [hnil, List.append_nil])
    rw [entry?_remove_within t (by simp [hbelow]) (List.prefix_append _ _),
      h.entry?_below hplace.not_directory hbelow]
  · exact entry?_remove t hprefix

/-- A tree stays on the ground when a leaf is taken away. -/
theorem Grounded.remove (h : t.Grounded) (hplace : t.Leaf place) : (t.remove place).Grounded where
  origin := by
    have hne : t.origin ≠ place := fun heq => hplace.not_directory (heq ▸ h.origin)
    exact (h.entry?_remove_leaf hplace hne).trans h.origin
  parent at_ last found hfound := by
    have hne : at_ ++ [last] ≠ place := by
      rintro rfl
      rw [entry?_remove_within t (by simp) (List.prefix_refl _)] at hfound
      cases hfound
    rw [h.entry?_remove_leaf hplace hne] at hfound
    have hparent := h.parent _ _ _ hfound
    rwa [h.entry?_remove_leaf hplace fun heq => hplace.not_directory (heq ▸ hparent)]

end Grounded

end RubySupervisor.FileTree
