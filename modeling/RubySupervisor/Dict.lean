/-!
# Dictionaries with text keys

A dictionary is a list of key and value pairs in ascending order of its keys, each key once.
Environments, document objects and stored state are dictionaries: the order that is shown is
the order of the keys.
-/

namespace RubySupervisor

/-- Pairs of a name and a value, ascending by name. -/
abbrev Dict (α : Type) := List (String × α)

namespace Dict

variable {α β : Type}

/-- The dictionary without entries. -/
def empty : Dict α := []

/-- The value stored under a name. -/
def find? : Dict α → String → Option α
  | [], _ => none
  | (name, value) :: rest, key => if name = key then some value else find? rest key

/-- Whether a name has a value. -/
def contains (d : Dict α) (key : String) : Bool := (d.find? key).isSome

/-- Stores a value under a name, replacing an older one. -/
def insert : Dict α → String → α → Dict α
  | [], key, value => [(key, value)]
  | (name, old) :: rest, key, value =>
    if name = key then (key, value) :: rest
    else if key < name then (key, value) :: (name, old) :: rest
    else (name, old) :: insert rest key value

/-- Removes a name together with its value. -/
def erase (d : Dict α) (key : String) : Dict α := d.filter (fun entry => entry.1 ≠ key)

/-- Stores every pair of a list in turn, so that the last value of a repeated name stays. -/
def insertAll (d : Dict α) (pairs : List (String × α)) : Dict α :=
  pairs.foldl (fun d entry => d.insert entry.1 entry.2) d

/-- The dictionary of a list of pairs in any order. -/
def ofPairs (pairs : List (String × α)) : Dict α := insertAll empty pairs

/-- The names, ascending. -/
def names (d : Dict α) : List String := d.map Prod.fst

/-- Changes every value and keeps the names. -/
def mapValues (f : α → β) (d : Dict α) : Dict β := d.map (fun entry => (entry.1, f entry.2))

@[simp] theorem find?_empty (key : String) : (empty : Dict α).find? key = none := rfl

theorem find?_insert (d : Dict α) (key : String) (value : α) (other : String) :
    (d.insert key value).find? other = if key = other then some value else d.find? other := by
  induction d with
  | nil => simp [insert, find?]
  | cons entry rest ih =>
    obtain ⟨name, old⟩ := entry
    by_cases hn : name = key
    · subst hn
      by_cases ho : name = other <;> simp [insert, find?, ho]
    · by_cases hlt : key < name
      · simp [insert, hn, hlt, find?]
      · by_cases ho : name = other
        · subst ho
          simp [insert, hn, hlt, find?, Ne.symm hn]
        · simp [insert, hn, hlt, find?, ho, ih]

theorem find?_erase (d : Dict α) (key other : String) :
    (d.erase key).find? other = if key = other then none else d.find? other := by
  induction d with
  | nil => simp [erase, find?]
  | cons entry rest ih =>
    obtain ⟨name, value⟩ := entry
    unfold erase at ih
    by_cases hn : name = key
    · subst hn
      by_cases ho : name = other
      · subst ho
        simpa [erase, find?] using ih
      · simpa [erase, find?, ho] using ih
    · by_cases ho : name = other
      · subst ho
        simp [erase, find?, hn, Ne.symm hn]
      · simpa [erase, find?, hn, ho] using ih

/-- A name of which all pairs are kept has the value that it had. -/
theorem find?_filter {d : Dict α} {keep : String × α → Bool} {key : String}
    (h : ∀ value, keep (key, value) = true) : find? (d.filter keep) key = d.find? key := by
  induction d with
  | nil => rfl
  | cons entry rest ih =>
    obtain ⟨name, value⟩ := entry
    by_cases hname : name = key
    · subst hname
      simp [h, find?]
    · by_cases hkeep : keep (name, value) = true <;> simp [hkeep, find?, hname, ih]

/-- A name of which no pair is kept has no value. -/
theorem find?_filter_eq_none {d : Dict α} {keep : String × α → Bool} {key : String}
    (h : ∀ value, keep (key, value) = false) : find? (d.filter keep) key = none := by
  induction d with
  | nil => rfl
  | cons entry rest ih =>
    obtain ⟨name, value⟩ := entry
    by_cases hname : name = key
    · subst hname
      simp [h, ih]
    · by_cases hkeep : keep (name, value) = true <;> simp [hkeep, find?, hname, ih]

theorem find?_eq_none {d : Dict α} {key : String} (h : key ∉ d.names) : d.find? key = none := by
  induction d with
  | nil => rfl
  | cons entry rest ih =>
    obtain ⟨hname, hrest⟩ : key ≠ entry.1 ∧ key ∉ names rest := by simpa [names] using h
    rw [find?, if_neg hname.symm, ih hrest]

/-- Stored pairs of different names come before what was there. -/
theorem find?_insertAll {d : Dict α} {pairs : List (String × α)} (h : (names pairs).Nodup)
    (key : String) : (d.insertAll pairs).find? key = (find? pairs key).or (d.find? key) := by
  induction pairs generalizing d with
  | nil => rfl
  | cons entry pairs ih =>
    obtain ⟨hname, hrest⟩ := List.nodup_cons.1 h
    have hstep : d.insertAll (entry :: pairs) = (d.insert entry.1 entry.2).insertAll pairs := rfl
    rw [hstep, ih hrest, find?_insert, find?]
    split
    · rename_i heq
      simp [find?_eq_none (heq ▸ hname)]
    · rfl

/-- Stored pairs come before what was there, and the last one of a name counts. -/
theorem find?_insertAll_eq_or (d : Dict α) (pairs : List (String × α)) (key : String) :
    (d.insertAll pairs).find? key = ((ofPairs pairs).find? key).or (d.find? key) := by
  induction pairs generalizing d with
  | nil => rfl
  | cons entry pairs ih =>
    have hstep (d : Dict α) :
        d.insertAll (entry :: pairs) = (d.insert entry.1 entry.2).insertAll pairs := rfl
    rw [ofPairs, hstep, hstep, ih (d.insert _ _), ih (empty.insert _ _), Option.or_assoc,
      find?_insert, find?_insert, find?_empty]
    split
    · rfl
    · rw [Option.none_or]

end Dict

end RubySupervisor
