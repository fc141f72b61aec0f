import Frond.Toml.Value

/-!
Tables that are built entry by entry, and who may add to them.
-/

namespace Frond.Toml

/-- A dotted key: the tables it passes through, and the name it ends in. -/
structure Key where
  path : List String
  name : String
  deriving DecidableEq, Repr

namespace Entries

/-- Gives a name a value: in place if the name is there, else at the end. -/
def put (name : String) (value : Value) : Entries → Entries
  | [] => [(name, value)]
  | entry :: rest =>
    if entry.1 = name then (name, value) :: rest else entry :: put name value rest

theorem lookup_put_self (name : String) (value : Value) (entries : Entries) :
    (entries.put name value).lookup name = some value := by
  induction entries with
  | nil => simp [put]
  | cons entry rest ih =>
    obtain ⟨key, held⟩ := entry
    by_cases same : key = name
    · simp [put, same]
    · have apart : (name == key) = false := by simpa using Ne.symm same
      simp [put, same, List.lookup_cons, apart, ih]

theorem lookup_put_of_ne {name other : String} (value : Value) (entries : Entries)
    (different : other ≠ name) : (entries.put name value).lookup other = entries.lookup other := by
  have apart : (other == name) = false := by simpa using different
  induction entries with
  | nil => simp [put, List.lookup_cons, apart]
  | cons entry rest ih =>
    obtain ⟨key, held⟩ := entry
    by_cases same : key = name
    · simp [put, same, List.lookup_cons, apart]
    · simp [put, same, List.lookup_cons, ih]

/-- Puts an entry at the end of a table, by the rules for dotted keys: a table that a dotted key
did not imply takes no entries from one, and no name is given twice. -/
def add (key : Key) (value : Value) (origin : Origin) (entries : Entries) : Option Entries :=
  if !key.path.isEmpty && origin != .dotted || (entries.lookup key.name).isSome then none
  else some (entries ++ [(key.name, value)])

/-- Changes the table at the end of a path. Where a name is new it gets an empty table of the
origin `fresh`; a table may be passed if its origin permits, a list of tables is passed through
its last, and other values cannot be passed. -/
def descend (passes : Origin → Bool) (fresh : Origin)
    (change : Origin → Entries → Option Entries) :
    List String → Origin → Entries → Option Entries
  | [], origin, entries => change origin entries
  | name :: path, _, entries =>
    match entries.lookup name with
    | none =>
      (descend passes fresh change path fresh []).map fun inner =>
        entries.put name (.table fresh inner)
    | some (.table origin inner) =>
      if passes origin then
        (descend passes fresh change path origin inner).map fun inner =>
          entries.put name (.table origin inner)
      else none
    | some (.rows tables) =>
      tables.getLast?.bind fun last =>
        (descend passes fresh change path .opened last).map fun last =>
          entries.put name (.rows (tables.dropLast ++ [last]))
    | some _ => none

end Entries

/-- The table that entries between braces make. -/
def Value.ofPairs? (pairs : List (Key × Value)) : Option Value :=
  let step (entries : Entries) (pair : Key × Value) : Option Entries :=
    entries.descend (· == .dotted) .dotted
      (Entries.add pair.1 pair.2) pair.1.path .written
  (pairs.foldlM step []).map (Value.table .written)

end Frond.Toml
