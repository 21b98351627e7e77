import RubySupervisor.Proofs.Files.Making

/-!
# Paths that take the same steps

Two paths are the same where they take the same steps, however they are spelled. What is above them
is then the same, too, and so is what they name in a directory. But a path may ask for a directory
by its end, and a file is none: of two paths that are the same, one may name a file and the other
one nothing.
-/

namespace RubySupervisor

namespace Path

variable {p q : Path}

theorem same_iff : p.same q = true ↔ p.components = q.components := decide_eq_true_iff

@[simp] theorem same_refl (p : Path) : p.same p = true := same_iff.2 rfl

theorem same_symm (h : p.same q = true) : q.same p = true := same_iff.2 (same_iff.1 h).symm

/-! ## Components from pieces -/

/-- How a path begins, if that counts: at the root, or with a step that stays. -/
def start (absolute : Bool) (pieces : List String) : List Component :=
  if absolute then [.root] else if pieces.head? = some "." then [.current] else []

/-- The components of a path are its beginning and those of its pieces. -/
theorem components_eq (p : Path) :
    p.components = start p.isAbsolute p.pieces ++ componentsOf p.pieces := by
  unfold components start
  split
  · rfl
  · split
    · next hpieces =>
      rw [hpieces]
      simp [componentsOf]
    · next hhead =>
      have hplain : p.pieces.head? ≠ some "." := fun h => by
        obtain ⟨rest, hpieces⟩ := List.head?_eq_some_iff.1 h
        exact hhead rest hpieces
      rw [if_neg hplain, List.nil_append]

/-- Pieces that are no steps have no components. -/
theorem componentsOf_idle {pieces : List String} (h : ∀ piece ∈ pieces, isStep piece = false) :
    componentsOf pieces = [] := by
  refine List.filterMap_eq_nil_iff.2 fun piece hpiece => if_pos ?_
  have hidle := h piece hpiece
  simp only [isStep, decide_eq_false_iff_not] at hidle
  tauto

/-- A piece that is a step has one component, which is not the root. -/
theorem componentsOf_step {piece : String} (h : isStep piece = true) :
    ∃ c, c ≠ Component.root ∧ c.text = piece ∧ componentsOf [piece] = [c] := by
  have hstep : ¬ (piece = "" ∨ piece = ".") := by simpa [isStep] using h
  by_cases hup : piece = ".."
  · exact ⟨.up, by simp, hup.symm, by rw [hup]; rfl⟩
  · exact ⟨.name piece, by simp, rfl, by simp [componentsOf, hstep, hup]⟩

/-- What does not count at the end of a path is no part of its components. -/
theorem componentsOf_dropIdlePieces (absolute : Bool) (pieces : List String) :
    componentsOf (dropIdlePieces absolute pieces) = componentsOf pieces := by
  obtain ⟨rest, hpieces, hrest⟩ := dropIdlePieces_spec absolute pieces
  conv_rhs => rw [hpieces, componentsOf_append, componentsOf_idle hrest, List.append_nil]

theorem start_dropIdlePieces (absolute : Bool) (pieces : List String) :
    start absolute (dropIdlePieces absolute pieces) = start absolute pieces := by
  cases absolute with
  | true => rfl
  | false =>
    have hhead : (dropIdlePieces false pieces).head? = some "." ↔ pieces.head? = some "." := by
      obtain ⟨rest, hpieces, -⟩ := dropIdlePieces_spec false pieces
      constructor
      · intro h
        rw [hpieces, List.head?_append, h, Option.some_or]
      · intro h
        obtain ⟨others, rfl⟩ := List.head?_eq_some_iff.1 h
        rfl
    simp only [start, hhead]

/-- A last piece that is a step has the last component. -/
theorem start_concat (absolute : Bool) (front : List String) {last : String}
    (h : isStep last = true) : start absolute (front ++ [last]) = start absolute front := by
  have hdot : last ≠ "." := by
    rintro rfl
    cases h
  cases front <;> simp [start, hdot]

theorem start_append (absolute : Bool) {front : List String} (h : front ≠ [])
    (pieces : List String) : start absolute (front ++ pieces) = start absolute front := by
  obtain ⟨first, front, rfl⟩ := List.exists_cons_of_ne_nil h
  rfl

theorem Joinable.components_eq {absolute : Bool} {pieces : List String}
    (h : Joinable absolute pieces) :
    (ofPieces absolute pieces).components = start absolute pieces ++ componentsOf pieces := by
  by_cases hnil : pieces = []
  · rw [hnil]
    cases absolute <;> rfl
  · rw [Path.components_eq, h.isAbsolute, h.pieces_eq hnil]

/-! ## What is above paths that are the same -/

/-- The components above some components, none above the root and above nothing. -/
def above? (steps : List Component) : Option (List Component) :=
  if steps = [] ∨ steps = [.root] then none else some steps.dropLast

theorem above?_concat {steps : List Component} {c : Component} (h : c ≠ .root) :
    above? (steps ++ [c]) = some steps := by
  have hends : ¬ (steps ++ [c] = [] ∨ steps ++ [c] = [.root]) := by
    rintro (hnil | hroot)
    · simp at hnil
    · have hlast := congrArg List.getLast? hroot
      rw [List.getLast?_concat] at hlast
      exact h (Option.some.inj hlast)
  rw [above?, if_neg hends, List.dropLast_concat]

/-- What is above a path takes the steps above its last one. -/
theorem parent?_components (p : Path) : p.parent?.map components = above? p.components := by
  rw [p.components_eq, ← start_dropIdlePieces, ← componentsOf_dropIdlePieces p.isAbsolute]
  cases hparent : p.parent? with
  | none =>
    rw [List.length_eq_zero_iff.1 (parent?_eq_none_iff.1 hparent)]
    cases p.isAbsolute <;> rfl
  | some q =>
    obtain ⟨front, last, hdropped, rfl, hjoinable⟩ := exists_of_parent? hparent
    rw [Option.map_some, hjoinable.components_eq, start_dropIdlePieces,
      componentsOf_dropIdlePieces, hdropped]
    rcases dropIdlePieces_concat hdropped with hlast | ⟨hrelative, rfl, rfl⟩
    · obtain ⟨c, hroot, -, hc⟩ := componentsOf_step hlast
      rw [start_concat _ _ hlast, componentsOf_append, hc, ← List.append_assoc, above?_concat hroot]
    · rw [hrelative]
      rfl

/-- What is above paths that are the same is the same. -/
theorem same_parent (h : p.same q = true) :
    p.parent?.map components = q.parent?.map components := by
  rw [parent?_components, parent?_components, same_iff.1 h]

/-- Nothing is above a path without steps that starts at the root. -/
theorem steps_eq_nil_of_parent? (h : p.parent? = none) : FileTree.steps p.text = [] := by
  rw [steps_eq, ← filter_dropIdlePieces p.isAbsolute,
    List.length_eq_zero_iff.1 (parent?_eq_none_iff.1 h), List.filter_nil]

theorem isAbsolute_of_parent? (hne : p.text ≠ "") (h : p.parent? = none) :
    p.isAbsolute = true := by
  by_contra hrelative
  have hrelative := Bool.eq_false_iff.2 hrelative
  obtain ⟨first, rest, hpieces⟩ := List.exists_cons_of_ne_nil (l := p.pieces)
    (by simp [pieces, Text.splitChars_ne_nil])
  have hfirst : first ≠ "" := by
    rintro rfl
    exact (joinable_pieces hne).head hrelative (by rw [hpieces]; rfl)
  have hidle : isStep first = false := by
    have hsteps := steps_eq_nil_of_parent? h
    rw [steps_eq, hpieces] at hsteps
    exact Bool.eq_false_iff.2 (List.filter_eq_nil_iff.1 hsteps first (.head _))
  obtain rfl : first = "." := by
    by_contra hdot
    simp [isStep, hfirst, hdot] at hidle
  have hdropped := List.length_eq_zero_iff.1 (parent?_eq_none_iff.1 h)
  rw [hrelative, hpieces] at hdropped
  cases hdropped

/-- A path is not the same as what is above it. -/
theorem not_same_parent {above : Path} (habove : p.parent? = some above) (h : p.same q = true) :
    above.same q = false := by
  refine Bool.eq_false_iff.2 fun hsame => ?_
  have hparent := parent?_components p
  rw [habove, Option.map_some, same_iff.1 hsame, ← same_iff.1 h] at hparent
  generalize p.components = steps at hparent
  unfold above? at hparent
  split at hparent
  · cases hparent
  · next hends =>
    have hlength := congrArg List.length (Option.some.inj hparent)
    have hpos := List.length_pos_iff.2 fun hnil => hends (.inl hnil)
    rw [List.length_dropLast] at hlength
    omega

/-! ## Where paths that are the same lead -/

/-- Whether a component is a step: the beginning of a path is none. -/
def Component.moves : Component → Bool
  | root | current => false
  | up | name _ => true

theorem moves_of_mem_componentsOf {pieces : List String} {c : Component}
    (h : c ∈ componentsOf pieces) : c.moves = true := by
  obtain ⟨piece, -, hpiece⟩ := List.mem_filterMap.1 h
  split at hpiece
  · cases hpiece
  · split at hpiece <;> (obtain rfl := Option.some.inj hpiece; rfl)

/-- The components of the pieces of a path are those that are steps. -/
theorem componentsOf_pieces (p : Path) : componentsOf p.pieces = p.components.filter (·.moves) := by
  have hall : (componentsOf p.pieces).filter (·.moves) = componentsOf p.pieces :=
    List.filter_eq_self.2 fun _ hc => moves_of_mem_componentsOf hc
  rw [components_eq, List.filter_append, hall]
  unfold start
  split
  · rfl
  · split <;> rfl

/-- A path starts at the root where its first component is the root. -/
theorem isAbsolute_iff (p : Path) : p.isAbsolute = true ↔ .root ∈ p.components := by
  have hnot : Component.root ∉ componentsOf p.pieces := fun h => by
    cases moves_of_mem_componentsOf h
  rw [components_eq, List.mem_append, or_iff_left hnot]
  cases p.isAbsolute with
  | true => simp [start]
  | false =>
    rw [start, if_neg Bool.false_ne_true]
    split <;> simp

theorem isAbsolute_of_same (h : p.same q = true) : p.isAbsolute = q.isAbsolute := by
  rw [Bool.eq_iff_iff, isAbsolute_iff, isAbsolute_iff, same_iff.1 h]

/-- Seen from a directory, paths that are the same are the same. -/
theorem same_join (directory : Path) (h : p.same q = true) :
    (directory.join p.text).same (directory.join q.text) = true := by
  have habsolute := isAbsolute_of_same h
  cases hp : p.isAbsolute with
  | true =>
    have hq : q.isAbsolute = true := habsolute ▸ hp
    rw [join, join, if_pos hp, if_pos hq]
    exact h
  | false =>
    have hq : q.isAbsolute = false := habsolute ▸ hp
    have hpieces : componentsOf p.pieces = componentsOf q.pieces := by
      rw [componentsOf_pieces, componentsOf_pieces, same_iff.1 h]
    obtain ⟨front, -, hfront, hjoin⟩ := exists_pieces_join directory
    obtain ⟨(hpJoin : _ = front ++ p.pieces), hpSame⟩ := hjoin p.text hp
    obtain ⟨(hqJoin : _ = front ++ q.pieces), hqSame⟩ := hjoin q.text hq
    -- a leading dot counts only where nothing is in front of it
    have hstart : start directory.isAbsolute (front ++ p.pieces) =
        start directory.isAbsolute (front ++ q.pieces) := by
      by_cases hnil : front = []
      · rcases hfront hnil with hempty | hroot
        · have hrelative : directory.isAbsolute = false := by rw [isAbsolute, hempty]; rfl
          have hcomponents := same_iff.1 h
          rw [components_eq, components_eq, hp, hq, hpieces] at hcomponents
          rw [hrelative, hnil]
          exact List.append_cancel_right hcomponents
        · rw [hroot]
          rfl
      · rw [start_append _ hnil, start_append _ hnil]
    rw [same_iff, components_eq, components_eq, hpJoin, hqJoin, hpSame, hqSame,
      componentsOf_append, componentsOf_append, hstart, hpieces]

/-- The steps of a path are those of its components. -/
theorem map_text_componentsOf (pieces : List String) :
    (componentsOf pieces).map Component.text = pieces.filter isStep := by
  induction pieces with
  | nil => rfl
  | cons piece pieces ih =>
    rw [← List.singleton_append, componentsOf_append, List.map_append, ih, List.filter_append]
    congr 1
    cases hstep : isStep piece with
    | false => rw [componentsOf_idle (by simpa using hstep)]; simp [hstep]
    | true =>
      obtain ⟨c, -, htext, hc⟩ := componentsOf_step hstep
      rw [hc]
      simp [hstep, htext]

theorem steps_of_same (h : p.same q = true) :
    FileTree.steps p.text = FileTree.steps q.text := by
  rw [steps_eq, steps_eq, ← map_text_componentsOf, ← map_text_componentsOf, componentsOf_pieces,
    componentsOf_pieces, same_iff.1 h]

end Path

namespace FileTree

variable {t : FileTree} {p q : Path}

/-- A path that names a file leads there. -/
theorem exists_follow_of_isFile (h : t.isFile p = true) :
    ∃ at_ content executable asking,
      t.follow true p = .ok (.found at_ (.file content executable), asking) := by
  unfold isFile metadata resolve at h
  cases hfollow : t.follow true p with
  | error error =>
    rw [hfollow] at h
    cases h
  | ok r =>
    rw [hfollow] at h
    match r with
    | (.found at_ (.file content executable), asking) =>
      exact ⟨at_, content, executable, asking, rfl⟩
    | (.found _ .directory, _) | (.found _ (.link _), _) | (.found _ .device, _)
    | (.absent _, _) => cases h

/-- Paths are looked up likewise: they ask for a directory by their ends in the same way, and none
of them is looked up if the other one is not. -/
structure Likewise (p q : Path) : Prop where
  asking : Asking.of p.text = Asking.of q.text
  admissible : p.Admissible ↔ q.Admissible

/-- Paths that are the same name the same file where they are looked up likewise. -/
theorem isFile_of_same (h : p.same q = true) (hlikewise : Likewise p q) :
    t.isFile p = t.isFile q := by
  have himp {p q : Path} (h : p.same q = true) (hasking : Asking.of p.text = Asking.of q.text)
      (hadmissible : p.Admissible → q.Admissible) (hp : t.isFile p = true) :
      t.isFile q = true := by
    obtain ⟨at_, content, executable, asking, hfollow⟩ := exists_follow_of_isFile hp
    have hstart : t.start p = t.start q := by rw [start, start, Path.isAbsolute_of_same h]
    have hwalk := walk_of_follow hfollow
    rw [hasking, hstart, Path.steps_of_same h,
      ← follow_eq (hadmissible (admissible_of_follow hfollow))] at hwalk
    rw [isFile, metadata, resolve, hwalk]
    rfl
  exact Bool.eq_iff_iff.2 ⟨himp h hlikewise.asking hlikewise.admissible.1,
    himp (Path.same_symm h) hlikewise.asking.symm hlikewise.admissible.2⟩

/-- Something is above a file. -/
theorem exists_parent_of_isFile (h : t.isFile p = true) : ∃ above, p.parent? = some above := by
  obtain ⟨at_, content, executable, asking, hfollow⟩ := exists_follow_of_isFile h
  cases hparent : p.parent? with
  | some above => exact ⟨above, rfl⟩
  | none =>
    have hwalk := walk_of_follow hfollow
    rw [Path.steps_eq_nil_of_parent? hparent, walk_nil] at hwalk
    have hroot : t.start p = [] :=
      if_pos (Path.isAbsolute_of_parent? (admissible_of_follow hfollow).ne_empty hparent)
    rw [hroot, entry?_nil] at hwalk
    cases hwalk

end FileTree

end RubySupervisor
