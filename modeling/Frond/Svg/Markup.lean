/-!
Text inside markup: each of the five characters with a meaning there is written as an entity,
and every other one as itself.
-/

namespace Frond.Svg

/-- The characters that a single one is written as. -/
def entity (c : Char) : List Char :=
  if c = '&' then "&amp;".toList
  else if c = '<' then "&lt;".toList
  else if c = '>' then "&gt;".toList
  else if c = '"' then "&quot;".toList
  else if c = '\x27' then "&apos;".toList
  else [c]

def escapeChars (text : List Char) : List Char := text.flatMap entity

def escape (text : String) : String := String.ofList (escapeChars text.toList)

@[simp] theorem escapeChars_nil : escapeChars [] = [] := rfl

@[simp] theorem escapeChars_append (left right : List Char) :
    escapeChars (left ++ right) = escapeChars left ++ escapeChars right := by
  simp [escapeChars]

/-- An attribute and its value between double quotes, after a blank. -/
def assigned (name value : String) : String := " " ++ name ++ "=\"" ++ value ++ "\""

end Frond.Svg
