/-!
Why a drawing could not be made.
-/

namespace Frond

/-- Sizes are counted in 64 bits, so this many bytes can never be asked for. -/
def sizeLimit : Nat := UInt64.size

inductive Failure where
  /-- A store of this size cannot be had; a size that could not be counted is given as the
  largest one that can. -/
  | outOfRoom (store : String) (requested : Nat)
  /-- No preset has this name; the suggestions are close to it. -/
  | unknownPreset (name : String) (suggestions : List String)
  /-- More generations are asked for than the grammar permits. -/
  | tooDeep (requested limit : UInt32)
  /-- A step has no length. -/
  | shortStep (requested : UInt32)
  deriving DecidableEq, Repr

namespace Failure

/-- The text that a grammar grows into has too many bytes to be counted. -/
def overflow : Failure := outOfRoom "expanded string" (sizeLimit - 1)

def hint : List String → String
  | [] => ""
  | suggestions => " (did you mean: " ++ ", ".intercalate suggestions ++ "?)"

def message : Failure → String
  | outOfRoom store requested =>
    "failed to allocate " ++ toString requested ++ " entries for " ++ store
  | unknownPreset name suggestions => "unknown preset '" ++ name ++ "'" ++ hint suggestions
  | tooDeep requested limit =>
    "fractal depth " ++ toString requested.toNat ++ " is out of range (limit " ++
      toString limit.toNat ++ ")"
  | shortStep requested => "step length must be at least 1, got " ++ toString requested.toNat

end Failure

end Frond
