import RubySupervisor.Text.Blank

/-!
# Paths

A path is a text; what it names is decided by its components. Repeated separators and `.` inside
a path do not count, so two texts may be the same path. Joining keeps the texts as they are.
-/

namespace RubySupervisor

/-- A path as it is written. -/
structure Path where
  text : String
  deriving DecidableEq, Repr, Inhabited

namespace Path

/-- One step of a path. -/
inductive Component where
  | root
  | current
  | up
  | name (s : String)
  deriving DecidableEq, Repr

/-- Whether the path starts at the root. -/
def isAbsolute (p : Path) : Bool := p.text.toList.head? = some '/'

/-- The text after the root, cut at the separators. -/
def pieces (p : Path) : List String :=
  let body := if p.isAbsolute then p.text.toList.drop 1 else p.text.toList
  (Text.splitChars (· == '/') body).map String.ofList

/-- The components of the pieces after the first. -/
def componentsOf (pieces : List String) : List Component :=
  pieces.filterMap fun piece =>
    if piece = "" ∨ piece = "." then none
    else if piece = ".." then some .up
    else some (.name piece)

/-- The steps that a path takes. A `.` counts only at the start of a relative path. -/
def components (p : Path) : List Component :=
  if p.isAbsolute then .root :: componentsOf p.pieces
  else
    match p.pieces with
    | "." :: rest => .current :: componentsOf rest
    | pieces => componentsOf pieces

/-- Whether two texts take the same steps. -/
def same (p q : Path) : Bool := p.components = q.components

/-- The pieces without those at their end that are no step. -/
def dropIdlePieces (absolute : Bool) (pieces : List String) : List String :=
  let idle (piece : String) : Bool := piece = "" || piece = "."
  match pieces with
  | "." :: rest =>
    if absolute then (pieces.reverse.dropWhile idle).reverse
    else "." :: (rest.reverse.dropWhile idle).reverse
  | _ => (pieces.reverse.dropWhile idle).reverse

/-- The text of pieces behind an optional root. -/
def ofPieces (absolute : Bool) (pieces : List String) : Path :=
  ⟨(if absolute then "/" else "") ++ String.intercalate "/" pieces⟩

/-- The path without its last step; none for the root and the empty path. -/
def parent? (p : Path) : Option Path :=
  let absolute := p.isAbsolute
  match (dropIdlePieces absolute p.pieces).reverse with
  | [] => none
  | _ :: rest => some (ofPieces absolute (dropIdlePieces absolute rest.reverse))

/-- The last step of a path when it is a name. -/
def fileName? (p : Path) : Option String :=
  match p.components.getLast? with
  | some (.name s) => some s
  | _ => none

/-- The path and the paths above it; `fuel` bounds their number. -/
def ancestorsUpTo : (fuel : Nat) → Path → List Path
  | 0, p => [p]
  | fuel + 1, p =>
    match p.parent? with
    | none => [p]
    | some q => p :: ancestorsUpTo fuel q

/-- The path and the paths above it, nearest first. -/
def ancestors (p : Path) : List Path := ancestorsUpTo p.pieces.length p

/-- A path seen from a directory: an absolute path is itself. -/
def join (p : Path) (q : String) : Path :=
  if (Path.mk q).isAbsolute then ⟨q⟩
  else if p.text.toList.getLast?.all (· == '/') then ⟨p.text ++ q⟩
  else ⟨p.text ++ "/" ++ q⟩

/-- The text of a step. -/
def Component.text : Component → String
  | root => "/"
  | current => "."
  | up => ".."
  | name s => s

/-- A path seen from a directory, step by step: what does not count in it is dropped. -/
def joinSteps (p : Path) (q : String) : Path :=
  if (Path.mk q).isAbsolute then ⟨q⟩
  else
    ((Path.mk q).components.dropWhile (· = .current)).foldl (fun p step => p.join step.text) p

/-- A file name without its extension: what stands before the last dot, if anything does. -/
def stemOf (name : String) : String :=
  if name = ".." then name
  else
    let stem := (name.toList.reverse.dropWhile (· != '.')).drop 1
    if stem.isEmpty then name else String.ofList stem.reverse

/-- A file name with another extension. The extension is first cut off behind its dot; a name that
is then `..` names a directory and takes no extension. -/
def nameWithExtension (name extension : String) : String :=
  if stemOf name = "." then ".." else stemOf name ++ "." ++ extension

/-- The path with another extension; a path without a file name stays. -/
def withExtension (p : Path) (extension : String) : Path :=
  match p.fileName?, (dropIdlePieces p.isAbsolute p.pieces).reverse with
  | some name, _ :: rest =>
    ofPieces p.isAbsolute (rest.reverse ++ [nameWithExtension name extension])
  | _, _ => p

/-- The steps of a list after those of another one. -/
def stepsAfter? : List Component → List Component → Option (List Component)
  | steps, [] => some steps
  | [], _ :: _ => none
  | s :: steps, t :: others => if s = t then stepsAfter? steps others else none

/-- Whether the steps of a path begin with those of another one. -/
def isUnder (p directory : Path) : Bool :=
  (stepsAfter? p.components directory.components).isSome

end Path

end RubySupervisor
