import Frond.Symbol

/-!
Rewriting rules: one replacement text for every symbol. A rule that was never set
replaces its symbol by the symbol's own character.
-/

namespace Frond

structure Rules where
  replacement : Symbol → String

namespace Rules

/-- Every symbol stands for itself. -/
def identity : Rules := ⟨fun symbol => String.singleton symbol.toChar⟩

instance : Inhabited Rules := ⟨identity⟩

def set (rules : Rules) (symbol : Symbol) (text : String) : Rules :=
  ⟨fun other => if other = symbol then text else rules.replacement other⟩

/-- Whether a symbol is replaced by its own character and nothing else. -/
def fixes (rules : Rules) (symbol : Symbol) : Bool :=
  rules.replacement symbol == String.singleton symbol.toChar

/-- The rules that change their symbol, in alphabet order. -/
def overridden (rules : Rules) : List (Symbol × String) :=
  (Symbol.all.filter fun symbol => !rules.fixes symbol).map fun symbol =>
    (symbol, rules.replacement symbol)

/-- Sets the listed rules one after the other, so the last of two for one symbol stays. -/
def setAll (rules : Rules) (list : List (Symbol × String)) : Rules :=
  list.foldl (fun rules entry => rules.set entry.1 entry.2) rules

/-- Two rule sets are the same when they agree on the whole alphabet. -/
instance : BEq Rules where
  beq left right := Symbol.all.all fun symbol => left.replacement symbol == right.replacement symbol

@[simp] theorem replacement_set_self (rules : Rules) (symbol : Symbol) (text : String) :
    (rules.set symbol text).replacement symbol = text := by
  simp [set]

theorem replacement_set_of_ne (rules : Rules) {symbol other : Symbol} (text : String)
    (different : other ≠ symbol) :
    (rules.set symbol text).replacement other = rules.replacement other := by
  simp [set, different]

end Rules

end Frond
