/-!
Values of the configuration language: texts, numbers, truth values, dates and times, lists and
tables. A table remembers how it came about, because that decides who may still add to it.
-/

namespace Frond.Toml

/-- How a table came about. -/
inductive Origin where
  /-- Written between braces. -/
  | written
  /-- Opened by a header of its own. -/
  | opened
  /-- Implied by a longer header. -/
  | implied
  /-- Implied by a dotted key. -/
  | dotted
  deriving DecidableEq, Repr

inductive Value where
  | text (content : String)
  | integer (n : Int)
  | float (x : Float)
  | boolean (b : Bool)
  /-- A date, a time or both; nothing here asks which. -/
  | moment
  | list (items : List Value)
  | table (origin : Origin) (entries : List (String × Value))
  /-- A list of tables, each opened by a header of its own. -/
  | rows (tables : List (List (String × Value)))
  deriving Repr

abbrev Entries := List (String × Value)

end Frond.Toml
