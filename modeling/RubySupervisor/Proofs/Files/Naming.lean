import Mathlib.Data.List.Basic
import RubySupervisor.Files.Tree

/-!
# The steps of paths

A path is put together from pieces and cut into them again. What is above a path has all of its
steps but the last one, and the file in a directory has one more step than the directory.
-/

namespace RubySupervisor

namespace Text

variable {p : Char → Bool}

theorem splitChars_ne_nil (s : List Char) : splitChars p s ≠ [] := by
  cases s with
  | nil => simp [splitChars]
  | cons c s =>
    rw [splitChars]
    split
    · exact List.cons_ne_nil _ _
    · split <;> exact List.cons_ne_nil _ _

/-- A text is cut at each separator. -/
theorem splitChars_append {c : Char} (hc : p c = true) (s s' : List Char) :
    splitChars p (s ++ c :: s') = splitChars p s ++ splitChars p s' := by
  induction s with
  | nil => simp [splitChars, hc]
  | cons d s ih =>
    by_cases hd : p d = true
    · simp [splitChars, hd, ih]
    · obtain ⟨piece, pieces, hpieces⟩ := List.exists_cons_of_ne_nil (splitChars_ne_nil (p := p) s)
      simp [splitChars, hd, ih, hpieces]

/-- A text without separators is one piece. -/
theorem splitChars_of_forall {s : List Char} (h : ∀ c ∈ s, p c = false) : splitChars p s = [s] := by
  induction s with
  | nil => rfl
  | cons c s ih =>
    have hc := h c (.head _)
    have hs := ih fun d hd => h d (.tail _ hd)
    simp [splitChars, hc, hs]

/-- What stands in front of every separator belongs to the first piece. -/
theorem exists_splitChars_append {w : List Char} (h : ∀ c ∈ w, p c = false) (s : List Char) :
    ∃ piece pieces, splitChars p (w ++ s) = (w ++ piece) :: pieces := by
  induction w with
  | nil =>
    obtain ⟨piece, pieces, hpieces⟩ := List.exists_cons_of_ne_nil (splitChars_ne_nil (p := p) s)
    exact ⟨piece, pieces, hpieces⟩
  | cons c w ih =>
    obtain ⟨piece, pieces, hpieces⟩ := ih fun d hd => h d (.tail _ hd)
    exact ⟨piece, pieces, by simp [splitChars, h c (.head _), hpieces]⟩

/-- There is no separator in a piece. -/
theorem of_mem_splitChars {s piece : List Char} (h : piece ∈ splitChars p s) :
    ∀ c ∈ piece, p c = false := by
  induction s generalizing piece with
  | nil =>
    obtain rfl : piece = [] := by simpa [splitChars] using h
    simp
  | cons d s ih =>
    rw [splitChars] at h
    split at h
    · rcases List.mem_cons.1 h with rfl | h
      · simp
      · exact ih h
    · next hd =>
      obtain ⟨first, pieces, hpieces⟩ :=
        List.exists_cons_of_ne_nil (splitChars_ne_nil (p := p) s)
      rw [hpieces] at h ih
      rcases List.mem_cons.1 h with rfl | h
      · exact List.forall_mem_cons.2 ⟨Bool.eq_false_iff.2 hd, ih (.head _)⟩
      · exact ih (.tail _ h)

/-- Separators have nothing between them. -/
theorem eq_nil_of_mem_splitChars {s piece : List Char} (hs : ∀ c ∈ s, p c = true)
    (h : piece ∈ splitChars p s) : piece = [] := by
  induction s with
  | nil => simpa [splitChars] using h
  | cons d s ih =>
    rw [splitChars, if_pos (hs d (.head _))] at h
    rcases List.mem_cons.1 h with rfl | h
    · rfl
    · exact ih (fun c hc => hs c (.tail _ hc)) h

/-- What stands at the end of a text stands at the end of its last piece. -/
theorem splitChars_concat {c : Char} (hc : p c = false) (s : List Char) :
    ∃ front last, splitChars p (s ++ [c]) = front ++ [last ++ [c]] := by
  induction s with
  | nil => exact ⟨[], [], by simp [splitChars, hc]⟩
  | cons d s ih =>
    obtain ⟨front, last, hsplit⟩ := ih
    cases hd : p d with
    | true => exact ⟨[] :: front, last, by simp [splitChars, hd, hsplit]⟩
    | false =>
      cases front with
      | nil => exact ⟨[], d :: last, by simp [splitChars, hd, hsplit]⟩
      | cons first front => exact ⟨(d :: first) :: front, last, by simp [splitChars, hd, hsplit]⟩

/-- Pieces without separators are cut where they were joined. -/
theorem splitChars_intercalate {c : Char} (hc : p c = true) {pieces : List (List Char)}
    (hne : pieces ≠ []) (h : ∀ piece ∈ pieces, ∀ d ∈ piece, p d = false) :
    splitChars p ([c].intercalate pieces) = pieces := by
  induction pieces with
  | nil => exact absurd rfl hne
  | cons piece rest ih =>
    have hpiece := splitChars_of_forall (h piece (.head _))
    cases rest with
    | nil => simpa [List.intercalate] using hpiece
    | cons next rest =>
      have hrest := ih (List.cons_ne_nil _ _) fun other hother => h other (.tail _ hother)
      rw [List.intercalate_cons_cons, List.append_assoc, List.singleton_append,
        splitChars_append hc, hpiece, hrest, List.singleton_append]

/-- The first pieces of a text are those of its front, behind which it goes on with a separator. -/
theorem exists_front_of_splitChars {s : List Char} {pieces others : List (List Char)}
    (h : splitChars p s = pieces ++ others) (hne : pieces ≠ []) :
    ∃ front rest, s = front ++ rest ∧ (∀ c ∈ rest.head?, p c = true) ∧
      splitChars p front = pieces := by
  induction s generalizing pieces with
  | nil =>
    obtain ⟨piece, pieces, rfl⟩ := List.exists_cons_of_ne_nil hne
    obtain ⟨rfl, hnil⟩ := List.cons.inj h
    obtain ⟨rfl, -⟩ := List.append_eq_nil_iff.1 hnil.symm
    exact ⟨[], [], rfl, by simp, rfl⟩
  | cons c s ih =>
    obtain ⟨piece, pieces, rfl⟩ := List.exists_cons_of_ne_nil hne
    cases hc : p c with
    | true =>
      rw [splitChars, if_pos hc] at h
      obtain ⟨rfl, hpieces⟩ := List.cons.inj h
      cases pieces with
      | nil => exact ⟨[], c :: s, rfl, by simpa using hc, rfl⟩
      | cons next pieces =>
        obtain ⟨front, rest, rfl, hrest, hfront⟩ := ih hpieces (List.cons_ne_nil _ _)
        exact ⟨c :: front, rest, rfl, hrest, by simp [splitChars, hc, hfront]⟩
    | false =>
      obtain ⟨first, later, hsplit⟩ := List.exists_cons_of_ne_nil (splitChars_ne_nil (p := p) s)
      simp only [splitChars, hc, hsplit, Bool.false_eq_true, if_false] at h
      obtain ⟨rfl, rfl⟩ := List.cons.inj h
      have hsplit : splitChars p s = (first :: pieces) ++ others := hsplit
      obtain ⟨front, rest, rfl, hrest, hfront⟩ := ih hsplit (List.cons_ne_nil _ _)
      exact ⟨c :: front, rest, rfl, hrest, by simp [splitChars, hc, hfront]⟩

end Text

namespace Path

/-- Whether a piece counts as a step. -/
def isStep (piece : String) : Bool := decide (piece ≠ "" ∧ piece ≠ ".")

theorem steps_eq (p : Path) : FileTree.steps p.text = p.pieces.filter isStep := rfl

theorem componentsOf_append (pieces others : List String) :
    componentsOf (pieces ++ others) = componentsOf pieces ++ componentsOf others :=
  List.filterMap_append

/-- There is no separator in a piece of a path. -/
theorem slash_not_mem_of_mem_pieces {p : Path} {piece : String} (h : piece ∈ p.pieces) :
    '/' ∉ piece.toList := by
  rw [pieces] at h
  obtain ⟨s, hs, rfl⟩ := List.mem_map.1 h
  intro hslash
  rw [String.toList_ofList] at hslash
  exact absurd (Text.of_mem_splitChars hs '/' hslash) (by decide)

/-- Pieces that can be put together: there are no separators in them, and behind no root they do not
begin with a separator. -/
structure Joinable (absolute : Bool) (pieces : List String) : Prop where
  slash : ∀ piece ∈ pieces, '/' ∉ piece.toList
  head : absolute = false → pieces.head? ≠ some ""

/-- A path that is put together is what it is put together from. -/
theorem Joinable.isAbsolute {absolute : Bool} {pieces : List String}
    (h : Joinable absolute pieces) : (ofPieces absolute pieces).isAbsolute = absolute := by
  cases absolute with
  | true => simp [Path.isAbsolute, ofPieces]
  | false =>
    cases pieces with
    | nil => rfl
    | cons piece rest =>
      have hne : piece.toList ≠ [] := fun hnil => h.head rfl (by
        rw [List.head?_cons, String.toList_eq_nil_iff.1 hnil])
      obtain ⟨c, s, hcons⟩ := List.exists_cons_of_ne_nil hne
      have hslash : c ≠ '/' := by
        rintro rfl
        exact h.slash piece (.head _) (by rw [hcons]; exact .head _)
      cases rest <;>
        simp [Path.isAbsolute, ofPieces, String.toList_intercalate, List.intercalate, hcons, hslash]

theorem Joinable.pieces_eq {absolute : Bool} {pieces : List String} (h : Joinable absolute pieces)
    (hne : pieces ≠ []) : (ofPieces absolute pieces).pieces = pieces := by
  have habsolute := h.isAbsolute
  have hcut : Text.splitChars (· == '/') (['/'].intercalate (pieces.map String.toList)) =
      pieces.map String.toList := by
    refine Text.splitChars_intercalate rfl (by simpa using hne) fun piece hpiece d hd => ?_
    obtain ⟨name, hname, rfl⟩ := List.mem_map.1 hpiece
    exact beq_eq_false_iff_ne.2 fun heq => h.slash name hname (heq ▸ hd)
  have hbody : (if absolute then (ofPieces absolute pieces).text.toList.drop 1
      else (ofPieces absolute pieces).text.toList) =
        ['/'].intercalate (pieces.map String.toList) := by
    cases absolute <;> simp [ofPieces, String.toList_intercalate]
  rw [Path.pieces, habsolute, hbody, hcut]
  simp

theorem Joinable.steps_eq {absolute : Bool} {pieces : List String} (h : Joinable absolute pieces) :
    FileTree.steps (ofPieces absolute pieces).text = pieces.filter isStep := by
  rcases List.eq_nil_or_concat pieces with rfl | hne
  · cases absolute <;> rfl
  · rw [Path.steps_eq, h.pieces_eq (by rintro rfl; simp at hne)]

theorem Joinable.front {absolute : Bool} {pieces front : List String}
    (h : Joinable absolute pieces) (hfront : front <+: pieces) : Joinable absolute front where
  slash piece hpiece := h.slash piece (hfront.subset hpiece)
  head hrelative hhead := by
    obtain ⟨rest, rfl⟩ := hfront
    cases front with
    | nil => cases hhead
    | cons piece front => exact h.head hrelative hhead

/-- The pieces of a path that names something can be put together. -/
theorem joinable_pieces {p : Path} (h : p.text ≠ "") : Joinable p.isAbsolute p.pieces where
  slash _ hpiece := slash_not_mem_of_mem_pieces hpiece
  head hrelative hhead := by
    obtain ⟨c, s, hcons⟩ := List.exists_cons_of_ne_nil
      (fun hnil => h (String.toList_eq_nil_iff.1 hnil) : p.text.toList ≠ [])
    have hslash : (c == '/') = false := by
      refine beq_eq_false_iff_ne.2 fun heq => ?_
      simp [Path.isAbsolute, hcons, heq] at hrelative
    rw [pieces, hrelative, hcons] at hhead
    simp only [Bool.false_eq_true, if_false, Text.splitChars, hslash] at hhead
    split at hhead <;> simp at hhead

/-! ## What is above a path -/

/-- Dropping the pieces at the end that are no steps drops no step. -/
theorem dropWhile_reverse_spec {α : Type} (idle : α → Bool) (l : List α) :
    ∃ rest, l = (l.reverse.dropWhile idle).reverse ++ rest ∧ ∀ piece ∈ rest, idle piece = true := by
  refine ⟨(l.reverse.takeWhile idle).reverse, ?_, fun piece hpiece => ?_⟩
  · rw [← List.reverse_append, List.takeWhile_append_dropWhile, List.reverse_reverse]
  · exact List.all_eq_true.1 List.all_takeWhile piece (List.mem_reverse.1 hpiece)

theorem dropIdlePieces_spec (absolute : Bool) (pieces : List String) :
    ∃ rest, pieces = dropIdlePieces absolute pieces ++ rest ∧
      ∀ piece ∈ rest, isStep piece = false := by
  have hspec (l : List String) : ∃ rest,
      l = (l.reverse.dropWhile fun piece => piece = "" || piece = ".").reverse ++ rest ∧
        ∀ piece ∈ rest, isStep piece = false := by
    obtain ⟨rest, hl, hrest⟩ := dropWhile_reverse_spec (fun piece => piece = "" || piece = ".") l
    refine ⟨rest, hl, fun piece hpiece => ?_⟩
    have hidle := hrest piece hpiece
    simp only [Bool.or_eq_true, decide_eq_true_eq] at hidle
    simp only [isStep, decide_eq_false_iff_not, not_and_or, not_not]
    exact hidle
  unfold dropIdlePieces
  split
  · split
    · exact hspec _
    · obtain ⟨rest, hl, hrest⟩ := hspec ‹_›
      exact ⟨rest, by rw [List.cons_append, ← hl], hrest⟩
  · exact hspec _

theorem filter_dropIdlePieces (absolute : Bool) (pieces : List String) :
    (dropIdlePieces absolute pieces).filter isStep = pieces.filter isStep := by
  obtain ⟨rest, hpieces, hrest⟩ := dropIdlePieces_spec absolute pieces
  have hidle : rest.filter isStep = [] :=
    List.filter_eq_nil_iff.2 fun piece hpiece => by simp [hrest piece hpiece]
  conv_rhs => rw [hpieces, List.filter_append, hidle, List.append_nil]

/-- What is left ends with a step, unless it is the piece that stays where the path begins. -/
theorem dropIdlePieces_concat {absolute : Bool} {pieces front : List String} {last : String}
    (h : dropIdlePieces absolute pieces = front ++ [last]) :
    isStep last = true ∨ absolute = false ∧ front = [] ∧ last = "." := by
  have hspec (l : List String) {front : List String} {last : String}
      (h : (l.reverse.dropWhile fun piece => piece = "" || piece = ".").reverse = front ++ [last]) :
      isStep last = true := by
    have hhead : (l.reverse.dropWhile fun piece => decide (piece = "") || decide (piece = ".")) =
        last :: front.reverse := by
      rw [← List.reverse_reverse (l.reverse.dropWhile _), h]
      simp
    have hlast := List.head_dropWhile_not (fun piece => decide (piece = "") || decide (piece = "."))
      (l := l.reverse) (by simp [hhead])
    simp only [hhead, List.head_cons] at hlast
    simpa [isStep] using hlast
  unfold dropIdlePieces at h
  split at h
  · split at h
    · exact .inl (hspec _ h)
    · next hrelative =>
      cases front with
      | nil => exact .inr ⟨Bool.eq_false_iff.2 hrelative, rfl, (List.cons.inj h).1.symm⟩
      | cons first front => exact .inl (hspec _ (List.cons.inj h).2)
  · exact .inl (hspec _ h)

/-- The path above another one is put together from the pieces in front of its last one. -/
theorem exists_of_parent? {p q : Path} (h : p.parent? = some q) :
    ∃ front last, dropIdlePieces p.isAbsolute p.pieces = front ++ [last] ∧
      q = ofPieces p.isAbsolute (dropIdlePieces p.isAbsolute front) ∧
      Joinable p.isAbsolute (dropIdlePieces p.isAbsolute front) := by
  have hne : p.text ≠ "" := by
    intro hempty
    obtain rfl : p = ⟨""⟩ := by rw [← hempty]
    cases h
  simp only [parent?] at h
  split at h
  · cases h
  · next last rest hreverse =>
    have hdropped : dropIdlePieces p.isAbsolute p.pieces = rest.reverse ++ [last] := by
      rw [← List.reverse_reverse (dropIdlePieces _ _), hreverse, List.reverse_cons]
    refine ⟨rest.reverse, last, hdropped, (Option.some.inj h).symm,
      (joinable_pieces hne).front ?_⟩
    obtain ⟨idle, hpieces, -⟩ := dropIdlePieces_spec p.isAbsolute p.pieces
    obtain ⟨idle', hrest, -⟩ := dropIdlePieces_spec p.isAbsolute rest.reverse
    rw [hdropped, hrest] at hpieces
    exact ⟨_, by rw [hpieces, List.append_assoc, List.append_assoc]⟩

/-- The path above another one has its steps but the last one. -/
theorem steps_of_parent? {p q : Path} (h : p.parent? = some q) :
    q.isAbsolute = p.isAbsolute ∧
      ((∃ last, FileTree.steps p.text = FileTree.steps q.text ++ [last]) ∨
        FileTree.steps p.text = [] ∧ FileTree.steps q.text = []) := by
  obtain ⟨front, last, hdropped, rfl, hjoinable⟩ := exists_of_parent? h
  have hsteps : FileTree.steps p.text =
      FileTree.steps (ofPieces p.isAbsolute (dropIdlePieces p.isAbsolute front)).text ++
        [last].filter isStep := by
    rw [hjoinable.steps_eq, filter_dropIdlePieces, Path.steps_eq, ← filter_dropIdlePieces
      p.isAbsolute, hdropped, List.filter_append]
  refine ⟨hjoinable.isAbsolute, ?_⟩
  rcases dropIdlePieces_concat hdropped with hlast | ⟨-, rfl, -⟩
  · refine .inl ⟨last, ?_⟩
    rw [hsteps]
    simp [hlast]
  · cases hlast : isStep last with
    | true => exact .inl ⟨last, by rw [hsteps]; simp [hlast]⟩
    | false =>
      have habove :
          FileTree.steps (ofPieces p.isAbsolute (dropIdlePieces p.isAbsolute [])).text = [] := by
        rw [hjoinable.steps_eq, filter_dropIdlePieces]
        rfl
      exact .inr ⟨by rw [hsteps, habove]; simp [hlast], habove⟩

/-- A path and the paths above it, nearest first, up to one that nothing is above. -/
inductive Ascent : Path → List Path → Prop where
  | top {p : Path} (h : p.parent? = none) : Ascent p [p]
  | up {p q : Path} {above : List Path} (h : p.parent? = some q) (habove : Ascent q above) :
      Ascent p (p :: above)

theorem length_dropIdlePieces_le (absolute : Bool) (pieces : List String) :
    (dropIdlePieces absolute pieces).length ≤ pieces.length := by
  obtain ⟨rest, hpieces, -⟩ := dropIdlePieces_spec absolute pieces
  exact List.IsPrefix.length_le ⟨rest, hpieces.symm⟩

/-- The number of pieces of a path that count, which bounds the number of paths above it. -/
def height (p : Path) : Nat := (dropIdlePieces p.isAbsolute p.pieces).length

theorem parent?_eq_none_iff {p : Path} : p.parent? = none ↔ p.height = 0 := by
  rw [height, List.length_eq_zero_iff, ← List.reverse_eq_nil_iff]
  unfold parent?
  dsimp only
  split <;> simp_all

theorem height_lt_of_parent? {p q : Path} (h : p.parent? = some q) : q.height < p.height := by
  obtain ⟨front, last, hdropped, rfl, hjoinable⟩ := exists_of_parent? h
  have hp : p.height = front.length + 1 := by rw [height, hdropped, List.length_append]; rfl
  have hfront := length_dropIdlePieces_le p.isAbsolute front
  have hheight : (ofPieces p.isAbsolute (dropIdlePieces p.isAbsolute front)).height ≤
      (dropIdlePieces p.isAbsolute front).length := by
    rw [height, hjoinable.isAbsolute]
    by_cases hnil : dropIdlePieces p.isAbsolute front = []
    · rw [hnil]
      cases p.isAbsolute <;> exact Nat.le_refl 0
    · rw [hjoinable.pieces_eq hnil]
      exact length_dropIdlePieces_le _ _
  omega

/-- The paths above a path are all there: there are no more of them than it has pieces. -/
theorem ascent_ancestors (p : Path) : Ascent p p.ancestors := by
  have hfuel (n : Nat) (p : Path) (h : p.height ≤ n) : Ascent p (ancestorsUpTo n p) := by
    induction n generalizing p with
    | zero => exact .top (parent?_eq_none_iff.2 (Nat.le_zero.1 h))
    | succ n ih =>
      unfold ancestorsUpTo
      cases hparent : p.parent? with
      | none => exact .top hparent
      | some q =>
        exact .up hparent (ih q (Nat.le_of_lt_succ (Nat.lt_of_lt_of_le
          (height_lt_of_parent? hparent) h)))
  exact hfuel _ p (length_dropIdlePieces_le _ _)

/-! ## Files in a directory -/

/-- A text that names something in a directory. -/
structure IsName (s : String) : Prop where
  ne_empty : s ≠ ""
  ne_dot : s ≠ "."
  ne_up : s ≠ ".."
  slash : '/' ∉ s.toList

theorem IsName.isStep {s : String} (h : IsName s) : isStep s = true :=
  decide_eq_true ⟨h.ne_empty, h.ne_dot⟩

/-- The pieces of a path end with one that is a name or leads back. -/
structure Ends (p : Path) (front : List String) (last : String) : Prop where
  pieces_eq : p.pieces = front ++ [last]
  isStep : isStep last = true

namespace Ends

variable {p : Path} {front : List String} {last : String}

theorem steps_eq (h : p.Ends front last) :
    FileTree.steps p.text = front.filter Path.isStep ++ [last] := by
  rw [Path.steps_eq, h.pieces_eq, List.filter_append]
  simp [h.isStep]

theorem text_ne_empty (h : p.Ends front last) : p.text ≠ "" := by
  intro hempty
  obtain rfl : p = ⟨""⟩ := by rw [← hempty]
  have hpieces : ([] ++ [""] : List String) = front ++ [last] := h.pieces_eq
  obtain ⟨-, hlast⟩ := List.append_inj' hpieces rfl
  have hstep := h.isStep
  rw [← (List.cons.inj hlast).1] at hstep
  cases hstep

theorem dropIdlePieces_eq (h : p.Ends front last) (absolute : Bool) :
    dropIdlePieces absolute p.pieces = front ++ [last] := by
  have hlast : ¬ (last = "" ∨ last = ".") := by simpa [Path.isStep] using h.isStep
  have hkept (l : List String) : (((l ++ [last]).reverse.dropWhile fun piece =>
      decide (piece = "") || decide (piece = ".")).reverse) = l ++ [last] := by
    rw [List.reverse_concat', List.dropWhile_cons_of_neg (by simpa using hlast)]
    simp
  rw [h.pieces_eq]
  unfold dropIdlePieces
  split
  · next rest hpieces =>
    split
    · exact hkept front
    · cases front with
      | nil =>
        obtain ⟨rfl, -⟩ := List.cons.inj hpieces
        exact absurd (.inr rfl) hlast
      | cons first front =>
        obtain ⟨rfl, rfl⟩ := List.cons.inj hpieces
        exact congrArg ("." :: ·) (hkept front)
  · exact hkept front

/-- The directory of a file has the steps in front of its name. -/
theorem parent?_eq (h : p.Ends front last) : ∃ q, p.parent? = some q ∧
    q.isAbsolute = p.isAbsolute ∧ FileTree.steps q.text = front.filter Path.isStep := by
  have hparent : p.parent? = some (ofPieces p.isAbsolute (dropIdlePieces p.isAbsolute front)) := by
    rw [parent?, h.dropIdlePieces_eq]
    simp
  have hjoinable : Joinable p.isAbsolute (dropIdlePieces p.isAbsolute front) := by
    refine (joinable_pieces h.text_ne_empty).front ?_
    obtain ⟨idle, hfront, -⟩ := dropIdlePieces_spec p.isAbsolute front
    exact ⟨idle ++ [last], by rw [h.pieces_eq, ← List.append_assoc, ← hfront]⟩
  exact ⟨_, hparent, hjoinable.isAbsolute, by rw [hjoinable.steps_eq, filter_dropIdlePieces]⟩

/-- A path that ends with a name does not ask for a directory. -/
theorem asking_eq (h : p.Ends front last) (hup : last ≠ "..") :
    FileTree.Asking.of p.text = .nothing := by
  have hstep := of_decide_eq_true h.isStep
  have hnames : p.pieces.filter (fun piece => decide (piece ≠ "")) =
      front.filter (fun piece => decide (piece ≠ "")) ++ [last] := by
    rw [h.pieces_eq, List.filter_append]
    simp [hstep.1]
  have hlast : p.pieces.getLast? = some last := by rw [h.pieces_eq, List.getLast?_concat]
  have hpath : (Path.mk p.text) = p := rfl
  unfold FileTree.Asking.of
  rw [hpath, hnames, hlast]
  split
  · next hnil => simp at hnil
  · simp [hstep.1, hstep.2, hup]

theorem fileName?_eq (h : p.Ends front last) (hup : last ≠ "..") : p.fileName? = some last := by
  have hstep := of_decide_eq_true h.isStep
  have hcomponents (l : List String) :
      componentsOf (l ++ [last]) = componentsOf l ++ [.name last] := by
    simp [componentsOf, List.filterMap_append, hstep.1, hstep.2, hup]
  have hends : ∃ before, p.components = before ++ [.name last] := by
    unfold components
    rw [h.pieces_eq]
    split
    · exact ⟨.root :: componentsOf front, by rw [hcomponents, List.cons_append]⟩
    · split
      · next rest hpieces =>
        cases front with
        | nil =>
          obtain ⟨rfl, -⟩ := List.cons.inj hpieces
          exact absurd rfl hstep.2
        | cons first front =>
          obtain ⟨-, rfl⟩ := List.cons.inj hpieces
          exact ⟨.current :: componentsOf front,
            congrArg (Component.current :: ·) (hcomponents front)⟩
      · exact ⟨componentsOf front, hcomponents front⟩
  obtain ⟨before, hbefore⟩ := hends
  rw [fileName?, hbefore, List.getLast?_concat]

/-- With another extension, a file is in the same directory. -/
theorem withExtension (h : p.Ends front last) (hup : last ≠ "..") {extension : String}
    (hstep : Path.isStep (nameWithExtension last extension) = true)
    (hslash : '/' ∉ (nameWithExtension last extension).toList) :
    (p.withExtension extension).isAbsolute = p.isAbsolute ∧
      (p.withExtension extension).Ends front (nameWithExtension last extension) := by
  have hpath : p.withExtension extension =
      ofPieces p.isAbsolute (front ++ [nameWithExtension last extension]) := by
    rw [Path.withExtension, h.fileName?_eq hup, h.dropIdlePieces_eq]
    simp
  have hold := joinable_pieces h.text_ne_empty
  rw [h.pieces_eq] at hold
  have hjoinable : Joinable p.isAbsolute (front ++ [nameWithExtension last extension]) := by
    refine ⟨fun piece hpiece => ?_, fun hrelative hhead => ?_⟩
    · rcases List.mem_append.1 hpiece with hfront | hlast
      · exact hold.slash piece (List.mem_append_left _ hfront)
      · rwa [List.mem_singleton.1 hlast]
    · cases front with
      | nil => exact (of_decide_eq_true hstep).1 (Option.some.inj hhead)
      | cons first front => exact hold.head hrelative hhead
  rw [hpath]
  exact ⟨hjoinable.isAbsolute, hjoinable.pieces_eq (by simp), hstep⟩

end Ends

/-- The text behind the root of a path. -/
def body (p : Path) : List Char := if p.isAbsolute then p.text.toList.drop 1 else p.text.toList

theorem pieces_eq_body (p : Path) :
    p.pieces = (Text.splitChars (· == '/') p.body).map String.ofList := rfl

/-- The pieces of a path that does not start at the root are those of its text. -/
theorem pieces_of_relative {p : Path} (h : p.isAbsolute = false) :
    p.pieces = (Text.splitChars (· == '/') p.text.toList).map String.ofList := by
  rw [pieces_eq_body, body, h, if_neg Bool.false_ne_true]

/-- Behind a path and a separator go the pieces of another text. -/
theorem pieces_behind_text {p q : Path} {s : List Char} (hq : q.text ≠ "")
    (h : p.text.toList = q.text.toList ++ '/' :: s) :
    p.isAbsolute = q.isAbsolute ∧
      p.pieces = q.pieces ++ (Text.splitChars (· == '/') s).map String.ofList := by
  obtain ⟨c, rest, hcons⟩ := List.exists_cons_of_ne_nil
    (fun hnil => hq (String.toList_eq_nil_iff.1 hnil) : q.text.toList ≠ [])
  have hsame : p.isAbsolute = q.isAbsolute := by simp [Path.isAbsolute, h, hcons]
  have hbody : p.body = q.body ++ '/' :: s := by
    rw [body, body, hsame, h, hcons]
    split <;> simp
  refine ⟨hsame, ?_⟩
  rw [pieces_eq_body, pieces_eq_body, hbody, Text.splitChars_append rfl, List.map_append]

/-- A separator at the end of a path adds no step. -/
theorem steps_behind_separator {p q : Path} (hq : q.text ≠ "")
    (h : p.text.toList = q.text.toList ++ ['/']) :
    p.isAbsolute = q.isAbsolute ∧ FileTree.steps p.text = FileTree.steps q.text := by
  obtain ⟨hsame, hpieces⟩ := pieces_behind_text hq h
  refine ⟨hsame, ?_⟩
  rw [Path.steps_eq, hpieces, List.filter_append]
  exact List.append_nil _

/-- Paths seen from a directory have the pieces of their own texts behind the same pieces, those of
the directory. -/
theorem exists_pieces_join (directory : Path) :
    ∃ front, front.filter isStep = FileTree.steps directory.text ∧
      (front = [] → directory.text = "" ∨ directory.isAbsolute = true) ∧
      ∀ name, (Path.mk name).isAbsolute = false →
        (directory.join name).pieces = front ++ (Path.mk name).pieces ∧
          (directory.join name).isAbsolute = directory.isAbsolute := by
  obtain ⟨text⟩ := directory
  rcases List.eq_nil_or_concat' text.toList with hnil | ⟨s, last, hconcat⟩
  · -- the empty path is the place where names are looked up
    obtain rfl := String.toList_eq_nil_iff.1 hnil
    refine ⟨[], rfl, fun _ => .inl rfl, fun name hname => ?_⟩
    have hjoin : (Path.mk "").join name = ⟨name⟩ := by simp [join, hname]
    rw [hjoin]
    exact ⟨rfl, hname⟩
  have hne : text ≠ "" := by
    rintro rfl
    simp at hconcat
  by_cases hlast : last = '/'
  · subst hlast
    have hjoin (name : String) (hname : (Path.mk name).isAbsolute = false) :
        (Path.mk text).join name = ⟨text ++ name⟩ := by simp [join, hname, hconcat]
    cases s with
    | nil =>
      -- the root keeps its only separator
      obtain rfl : text = "/" := String.toList_inj.1 hconcat
      refine ⟨[], rfl, fun _ => .inr rfl, fun name hname => ?_⟩
      have hroot : (Path.mk ("/" ++ name)).isAbsolute = true := by
        simp [Path.isAbsolute, String.toList_append]
      rw [hjoin name hname, pieces_of_relative hname, pieces_eq_body, body, hroot]
      exact ⟨by simp [String.toList_append], rfl⟩
    | cons d s =>
      -- the directory is written with a separator at its end
      have hfront : (Path.mk (String.ofList (d :: s))).text ≠ "" := by simp
      obtain ⟨hwithout, hsteps⟩ := steps_behind_separator (p := ⟨text⟩) hfront (by simp [hconcat])
      refine ⟨_, hsteps.symm, fun hnil => absurd hnil ?_, fun name hname => ?_⟩
      · simp [pieces_eq_body, Text.splitChars_ne_nil]
      · obtain ⟨hsame, hbehind⟩ := pieces_behind_text (p := ⟨text ++ name⟩) (s := name.toList)
          hfront (by simp [String.toList_append, hconcat])
        rw [hjoin name hname, pieces_of_relative hname]
        exact ⟨hbehind, hsame.trans hwithout.symm⟩
  -- the directory has no separator at its end, and gets one
  · refine ⟨(Path.mk text).pieces, rfl, fun hnil => absurd hnil ?_, fun name hname => ?_⟩
    · simp [pieces_eq_body, Text.splitChars_ne_nil]
    · have hjoin : (Path.mk text).join name = ⟨text ++ "/" ++ name⟩ := by
        simp [join, hname, hconcat, hlast]
      obtain ⟨hsame, hbehind⟩ := pieces_behind_text (p := ⟨text ++ "/" ++ name⟩) (s := name.toList)
        hne (by simp [String.toList_append])
      rw [hjoin, pieces_of_relative hname]
      exact ⟨hbehind, hsame⟩

/-- A path seen from a directory has the pieces of its own text behind the steps of the directory. -/
theorem pieces_join (directory : Path) {name : String} (hname : (Path.mk name).isAbsolute = false) :
    ∃ front, (directory.join name).pieces = front ++ (Path.mk name).pieces ∧
      (directory.join name).isAbsolute = directory.isAbsolute ∧
      front.filter isStep = FileTree.steps directory.text := by
  obtain ⟨front, hfront, -, hjoin⟩ := exists_pieces_join directory
  exact ⟨front, (hjoin name hname).1, (hjoin name hname).2, hfront⟩

/-- The steps of a path seen from a directory come behind those of the directory. -/
theorem steps_join (directory : Path) {name : String} (hname : (Path.mk name).isAbsolute = false) :
    (directory.join name).isAbsolute = directory.isAbsolute ∧
      FileTree.steps (directory.join name).text =
        FileTree.steps directory.text ++ FileTree.steps name := by
  obtain ⟨front, hpieces, hsame, hfront⟩ := pieces_join directory hname
  refine ⟨hsame, ?_⟩
  rw [Path.steps_eq, hpieces, List.filter_append, hfront, ← Path.steps_eq]

/-- A text without separators is one piece of a path. -/
theorem pieces_of_no_slash {name : String} (h : '/' ∉ name.toList) :
    (Path.mk name).isAbsolute = false ∧ (Path.mk name).pieces = [name] := by
  have hrelative : (Path.mk name).isAbsolute = false :=
    decide_eq_false fun hhead => h (List.mem_of_mem_head? hhead)
  have hpiece : Text.splitChars (· == '/') name.toList = [name.toList] :=
    Text.splitChars_of_forall fun c hc => beq_eq_false_iff_ne.2 fun heq => h (heq ▸ hc)
  refine ⟨hrelative, ?_⟩
  rw [pieces_of_relative hrelative, hpiece]
  simp

/-- A file in a directory has one more step than the directory. -/
theorem ends_join (directory : Path) {name : String} (h : IsName name) :
    ∃ front, (directory.join name).Ends front name ∧
      (directory.join name).isAbsolute = directory.isAbsolute ∧
      front.filter isStep = FileTree.steps directory.text := by
  obtain ⟨hrelative, hpiece⟩ := pieces_of_no_slash h.slash
  obtain ⟨front, hpieces, hsame, hfront⟩ := pieces_join directory hrelative
  exact ⟨front, ⟨hpiece ▸ hpieces, h.isStep⟩, hsame, hfront⟩

/-- The first step of a path begins with what stands in front of every separator, if that is more
than dots. -/
theorem exists_steps_cons {name : String} {w : List Char} (hfront : w <+: name.toList)
    (hslash : '/' ∉ w) {c : Char} (hc : c ∈ w) (hdot : c ≠ '.') :
    (Path.mk name).isAbsolute = false ∧ ∃ first rest,
      FileTree.steps name = first :: rest ∧ first ≠ ".." ∧ w <+: first.toList := by
  obtain ⟨s, hname⟩ := hfront
  have hrelative : (Path.mk name).isAbsolute = false := by
    cases w with
    | nil => cases hc
    | cons d w => simpa [isAbsolute, ← hname] using fun heq : d = '/' => hslash (heq ▸ .head _)
  obtain ⟨piece, pieces, hpieces⟩ := Text.exists_splitChars_append (p := (· == '/'))
    (fun d hd => beq_eq_false_iff_ne.2 fun heq => hslash (heq ▸ hd)) s
  have hfirst (other : String) (hother : other.toList.all (· == '.') = true) :
      String.ofList (w ++ piece) ≠ other := by
    rintro rfl
    rw [String.toList_ofList, List.all_eq_true] at hother
    exact hdot (beq_iff_eq.1 (hother c (List.mem_append_left _ hc)))
  refine ⟨hrelative, String.ofList (w ++ piece), (pieces.map String.ofList).filter isStep, ?_,
    hfirst ".." rfl, by simp⟩
  have hstep : isStep (String.ofList (w ++ piece)) = true :=
    decide_eq_true ⟨hfirst "" rfl, hfirst "." rfl⟩
  rw [Path.steps_eq, pieces_of_relative hrelative, ← hname, hpieces, List.map_cons,
    List.filter_cons_of_pos hstep]

/-! ## Separators at the end -/

/-- Separators behind a path add no step. -/
theorem steps_of_append_separators {p q : Path} (hq : q.text ≠ "") {n : Nat}
    (h : p.text.toList = q.text.toList ++ List.replicate n '/') :
    p.isAbsolute = q.isAbsolute ∧ FileTree.steps p.text = FileTree.steps q.text := by
  induction n generalizing p with
  | zero =>
    have htext : p.text = q.text := String.toList_inj.1 (by simpa using h)
    obtain rfl : p = q := by cases p; cases q; simpa using htext
    exact ⟨rfl, rfl⟩
  | succ n ih =>
    let before : Path := ⟨String.ofList (q.text.toList ++ List.replicate n '/')⟩
    have hbefore : before.text.toList = q.text.toList ++ List.replicate n '/' :=
      String.toList_ofList
    obtain ⟨habsolute, hsteps⟩ := ih hbefore
    have hne : before.text ≠ "" := by simp [before, hq]
    obtain ⟨habsolute', hsteps'⟩ := steps_behind_separator (p := p) hne
      (by rw [h, hbefore, List.append_assoc, List.replicate_succ'])
    exact ⟨habsolute'.trans habsolute, hsteps'.trans hsteps⟩

/-- A path of separators only does not ask for a directory by the last of them. -/
theorem asking_of_separators {p : Path} (h : ∀ c ∈ p.text.toList, c = '/') :
    FileTree.Asking.of p.text ≠ .separator := by
  have hnames : p.pieces.filter (fun piece => decide (piece ≠ "")) = [] := by
    refine List.filter_eq_nil_iff.2 fun piece hpiece => ?_
    obtain ⟨s, hs, rfl⟩ := List.mem_map.1 hpiece
    have hbody : ∀ c ∈ p.body, (c == '/') = true := by
      intro c hc
      refine beq_iff_eq.2 (h c ?_)
      unfold body at hc
      split at hc
      · exact List.mem_of_mem_drop hc
      · exact hc
    simp [Text.eq_nil_of_mem_splitChars hbody hs]
  have hpath : (Path.mk p.text) = p := rfl
  unfold FileTree.Asking.of
  rw [hpath, hnames]
  dsimp only
  split <;> decide

/-- A path with something else at its end does not ask for a directory by a separator. -/
theorem asking_of_concat {p : Path} {s : List Char} {c : Char} (hc : c ≠ '/')
    (h : p.text.toList = s ++ [c]) : FileTree.Asking.of p.text ≠ .separator := by
  have hbody : ∃ s, p.body = s ++ [c] := by
    unfold body
    split
    · next habsolute =>
      rw [h]
      cases s with
      | nil => simp [Path.isAbsolute, h, hc] at habsolute
      | cons d s => exact ⟨s, rfl⟩
    · exact ⟨s, h⟩
  obtain ⟨s, hbody⟩ := hbody
  obtain ⟨front, last, hsplit⟩ :=
    Text.splitChars_concat (p := (· == '/')) (beq_eq_false_iff_ne.2 hc) s
  have hlast : p.pieces.getLast? = some (String.ofList (last ++ [c])) := by
    rw [pieces_eq_body, hbody, hsplit, List.map_append]
    simp
  have hne : p.pieces.getLast? ≠ some "" := by
    rw [hlast]
    simp
  have hpath : (Path.mk p.text) = p := rfl
  unfold FileTree.Asking.of
  rw [hpath]
  split
  · split <;> decide
  · rw [if_neg hne]
    split <;> decide

/-- Without separators at its end, a path takes the same steps and asks for no directory by one. -/
theorem withoutEnd_spec (p : Path) :
    (FileTree.withoutEnd p).isAbsolute = p.isAbsolute ∧
      FileTree.steps (FileTree.withoutEnd p).text = FileTree.steps p.text ∧
      FileTree.Asking.of (FileTree.withoutEnd p).text ≠ .separator := by
  obtain ⟨rest, htext, hrest⟩ := dropWhile_reverse_spec (fun c => decide (c = '/')) p.text.toList
  have hrest (c : Char) (hc : c ∈ rest) : c = '/' := of_decide_eq_true (hrest c hc)
  unfold FileTree.withoutEnd
  dsimp only
  split
  -- a path of nothing but separators stays as it is
  · next hkept =>
    rw [List.isEmpty_iff.1 hkept] at htext
    exact ⟨rfl, rfl, asking_of_separators fun c hc => hrest c (by rwa [htext] at hc)⟩
  · next hkept =>
    generalize hkeptText : p.text.toList.reverse.dropWhile (fun c => decide (c = '/')) = kept at *
    obtain ⟨c, s, rfl⟩ := List.exists_cons_of_ne_nil fun hnil => hkept (List.isEmpty_iff.2 hnil)
    have hlast := List.head_dropWhile_not (fun c => decide (c = '/')) (l := p.text.toList.reverse)
      (by simp [hkeptText])
    simp only [hkeptText, List.head_cons, decide_eq_false_iff_not] at hlast
    obtain ⟨habsolute, hsteps⟩ := steps_of_append_separators (p := p) (n := rest.length)
      (q := ⟨String.ofList (c :: s).reverse⟩)
      (fun hempty => by simpa using congrArg String.toList hempty)
      (by rw [String.toList_ofList, ← List.eq_replicate_of_mem hrest]; exact htext)
    refine ⟨habsolute.symm, hsteps.symm, asking_of_concat hlast (s := s.reverse) ?_⟩
    rw [String.toList_ofList, List.reverse_cons]

end Path

end RubySupervisor
