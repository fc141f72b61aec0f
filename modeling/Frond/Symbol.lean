/-!
The drawing alphabet: ten characters with a meaning, and the symbols of a text.
Every other character is noise that a reader of symbols passes over.
-/

namespace Frond

inductive Symbol where
  | a | b | f | move | x | y | plus | minus | push | pop
  deriving DecidableEq, Repr

namespace Symbol

/-- The alphabet in its order. -/
def all : List Symbol := [a, b, f, move, x, y, plus, minus, push, pop]

def toChar : Symbol → Char
  | a => 'A'
  | b => 'B'
  | f => 'F'
  | move => 'f'
  | x => 'X'
  | y => 'Y'
  | plus => '+'
  | minus => '-'
  | push => '['
  | pop => ']'

def ofChar? : Char → Option Symbol
  | 'A' => some a
  | 'B' => some b
  | 'F' => some f
  | 'f' => some move
  | 'X' => some x
  | 'Y' => some y
  | '+' => some plus
  | '-' => some minus
  | '[' => some push
  | ']' => some pop
  | _ => none

/-- The symbols that leave a line behind. -/
def draws : Symbol → Bool
  | a | b | f => true
  | _ => false

/-- The place of a symbol in the alphabet. -/
def index (symbol : Symbol) : Nat := all.idxOf symbol

@[simp] theorem ofChar?_toChar (symbol : Symbol) : ofChar? symbol.toChar = some symbol := by
  cases symbol <;> rfl

theorem toChar_of_ofChar?_eq_some {c : Char} {symbol : Symbol} (known : ofChar? c = some symbol) :
    symbol.toChar = c := by
  unfold ofChar? at known
  split at known <;> cases known <;> rfl

theorem ofChar?_eq_some_iff {c : Char} {symbol : Symbol} :
    ofChar? c = some symbol ↔ c = symbol.toChar := by
  constructor
  · intro known
    exact (toChar_of_ofChar?_eq_some known).symm
  · rintro rfl
    exact ofChar?_toChar symbol

theorem mem_all (symbol : Symbol) : symbol ∈ all := by cases symbol <;> decide

end Symbol

/-- The symbols of a text, in order. -/
def symbols (text : String) : List Symbol := text.toList.filterMap Symbol.ofChar?

/-- How many characters of a text lie outside the alphabet. -/
def noise (text : String) : Nat := text.toList.countP fun c => (Symbol.ofChar? c).isNone

@[simp] theorem symbols_append (left right : String) :
    symbols (left ++ right) = symbols left ++ symbols right := by
  simp [symbols]

theorem countP_symbols (text : String) (p : Symbol → Bool) :
    (symbols text).countP p = text.toList.countP fun c => (Symbol.ofChar? c).any p := by
  rw [symbols, List.countP_filterMap]
  refine List.countP_congr ?_
  intro c _
  cases Symbol.ofChar? c <;> simp

theorem count_symbols (text : String) (symbol : Symbol) :
    (symbols text).count symbol = text.toList.count symbol.toChar := by
  rw [List.count, countP_symbols, List.count]
  refine List.countP_congr ?_
  intro c _
  rw [beq_iff_eq, ← Symbol.ofChar?_eq_some_iff]
  cases Symbol.ofChar? c <;> simp

end Frond
