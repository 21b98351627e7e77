/-!
# Settings documents

The values of a TOML document as far as settings use them: texts, integers, truth values, dates and
times, arrays and tables.

A table of a document grows by headers and by dotted keys. Where a table came from decides what may
still be put into it: a header may name a table only once, and a dotted key extends only tables
that dotted keys have made.
-/

/-! ## Values -/

namespace RubySupervisor

/-- A value of a TOML document. -/
inductive Toml where
  | text (s : String)
  | integer (n : Int)
  | boolean (b : Bool)
  /-- A date or time in its written form. -/
  | dateTime (s : String)
  | array (items : List Toml)
  | table (entries : List (String × Toml))
  deriving Inhabited

namespace Toml

/-- The text of a value that is one. -/
def text? : Toml → Option String
  | text s => some s
  | _ => none

/-- The truth value of a value that is one. -/
def boolean? : Toml → Option Bool
  | boolean b => some b
  | _ => none

/-- The reserved name under which a date or time stands where a table is expected. -/
def dateTimeKey : String := "$__toml_private_datetime"

/-- The entries of a table; a date or time counts as a table of its written form. -/
def entries? : Toml → Option (List (String × Toml))
  | table entries => some entries
  | dateTime s => some [(dateTimeKey, text s)]
  | _ => none

/-- Whether a value is an empty array or table. -/
def isEmpty : Toml → Bool
  | array [] => true
  | table [] => true
  | _ => false

/-- The name of a bare variant: a text, or a table whose only entry has that name and is empty. -/
def variant? : Toml → Option String
  | text s => some s
  | table [(name, value)] => if value.isEmpty then some name else none
  | _ => none

end Toml

end RubySupervisor

/-! ## Tables under construction -/

namespace RubySupervisor.Toml

/-- Where a table came from. -/
inductive Origin where
  /-- It lies on the way of a header. -/
  | implied
  /-- A header names it. -/
  | header
  /-- It lies on the way of a dotted key. -/
  | dotted
  deriving DecidableEq, Repr

/-- A finished value, or a table under construction. -/
inductive Node where
  | value (v : Toml)
  | table (origin : Origin) (entries : List (String × Node))

/-- The entries of a table under construction. -/
abbrev Nodes := List (String × Node)

namespace Nodes

/-- Changes the node under a name, or adds one; the change may refuse. -/
def update (name : String) (change : Option Node → Option Node) : Nodes → Option Nodes
  | [] => (change none).map (fun node => [(name, node)])
  | (other, node) :: rest =>
    if other = name then (change (some node)).map (fun node => (name, node) :: rest)
    else (update name change rest).map (fun rest => (other, node) :: rest)

/-- Opens the table that a header names. -/
def openTable : List String → Nodes → Option Nodes
  | [], _ => none
  | [name], nodes =>
    update name (fun
      | none => some (.table .header [])
      | some (.table .implied entries) => some (.table .header entries)
      | some _ => none) nodes
  | name :: next :: path, nodes =>
    update name (fun
      | none => (openTable (next :: path) []).map (.table .implied)
      | some (.table origin entries) =>
        (openTable (next :: path) entries).map (.table origin)
      | some _ => none) nodes

/-- Gives a value to a dotted key. -/
def define (v : Toml) : List String → Nodes → Option Nodes
  | [], _ => none
  | [name], nodes =>
    update name (fun
      | none => some (.value v)
      | some _ => none) nodes
  | name :: next :: path, nodes =>
    update name (fun
      | none => (define v (next :: path) []).map (.table .dotted)
      | some (.table .dotted entries) => (define v (next :: path) entries).map (.table .dotted)
      | some _ => none) nodes

/-- Changes the entries of the table that a header has opened. -/
def inside (change : Nodes → Option Nodes) : List String → Nodes → Option Nodes
  | [], nodes => change nodes
  | name :: path, nodes =>
    update name (fun
      | some (.table origin entries) => (inside change path entries).map (.table origin)
      | _ => none) nodes

end Nodes

mutual
/-- The value of a node. -/
def Node.finished : Node → Toml
  | .value v => v
  | .table _ entries => .table (finishedEntries entries)

/-- The values of nodes under their names. -/
def finishedEntries : List (String × Node) → List (String × Toml)
  | [] => []
  | (name, node) :: rest => (name, node.finished) :: finishedEntries rest
end

end RubySupervisor.Toml
