import Frond.Toml.Statement

/-!
The table that a configuration text describes.
-/

namespace Frond.Toml

/-- The table of a text as far as it is read, and the path of the header that entries now belong
to. -/
structure Document where
  root : Entries := []
  current : List String := []
  deriving Repr

namespace Document

/-- Changes the table at the end of a path of headers. -/
def under (path : List String) (change : Origin → Entries → Option Entries) (root : Entries) :
    Option Entries :=
  root.descend (fun origin => origin != .written) .implied change path .opened

/-- Puts an entry into a table; a dotted key only passes through tables that have no header of
their own. -/
def addEntry (key : Key) (value : Value) (origin : Origin) (entries : Entries) : Option Entries :=
  entries.descend (fun origin => origin == .implied || origin == .dotted) .dotted
    (Entries.add key value) key.path origin

/-- Opens a table; one that longer headers implied keeps what it has. -/
def openTable (name : String) (entries : Entries) : Option Entries :=
  match entries.lookup name with
  | none => some (entries.put name (.table .opened []))
  | some (.table .implied inner) => some (entries.put name (.table .opened inner))
  | some _ => none

/-- Opens one more row of a list of tables. -/
def openRow (name : String) (entries : Entries) : Option Entries :=
  match entries.lookup name with
  | none => some (entries.put name (.rows [[]]))
  | some (.rows tables) => some (entries.put name (.rows (tables ++ [[]])))
  | some _ => none

/-- The document with one more statement. -/
def add (document : Document) : Statement → Option Document
  | .entry key value =>
    (under document.current (addEntry key value) document.root).map fun root =>
      { document with root }
  | .header key =>
    (under key.path (fun _ => openTable key.name) document.root).map fun root =>
      { root, current := key.path ++ [key.name] }
  | .rowHeader key =>
    (under key.path (fun _ => openRow key.name) document.root).map fun root =>
      { root, current := key.path ++ [key.name] }

end Document

/-- The table that a text describes, if it is well formed. -/
def read? (text : String) : Option Entries := do
  let statements ← statements.whole? text.toList
  let document ← statements.foldlM Document.add {}
  return document.root

end Frond.Toml
