import Mathlib.Logic.Function.Iterate
import Frond.Expansion

/-!
Growth seen on words of symbols. A generation that succeeds replaces every symbol of the word by
the word of its replacement, and nothing else of the texts has a part in what comes later.
-/

namespace Frond

namespace Rules

/-- The word that a symbol is replaced by. -/
def image (rules : Rules) (symbol : Symbol) : List Symbol := symbols (rules.replacement symbol)

/-- Replaces every symbol of a word at once. -/
def rewrite (rules : Rules) (word : List Symbol) : List Symbol := word.flatMap rules.image

@[simp] theorem rewrite_nil (rules : Rules) : rules.rewrite [] = [] := rfl

@[simp] theorem rewrite_cons (rules : Rules) (symbol : Symbol) (word : List Symbol) :
    rules.rewrite (symbol :: word) = rules.image symbol ++ rules.rewrite word :=
  List.flatMap_cons

@[simp] theorem replaceAll_nil (rules : Rules) : rules.replaceAll [] = "" := rfl

@[simp] theorem replaceAll_cons (rules : Rules) (symbol : Symbol) (word : List Symbol) :
    rules.replaceAll (symbol :: word) = rules.replacement symbol ++ rules.replaceAll word :=
  String.join_cons

theorem symbols_replaceAll (rules : Rules) (word : List Symbol) :
    symbols (rules.replaceAll word) = rules.rewrite word := by
  induction word with
  | nil => rfl
  | cons symbol rest ih => rw [replaceAll_cons, symbols_append, ih, rewrite_cons, image]

theorem eq_replaceAll_of_generation {rules : Rules} {text next : String}
    (grown : rules.generation text = .ok next) : next = rules.replaceAll (symbols text) := by
  simp only [generation] at grown
  split at grown <;> cases grown
  rfl

theorem symbols_generation {rules : Rules} {text next : String}
    (grown : rules.generation text = .ok next) : symbols next = rules.rewrite (symbols text) := by
  rw [eq_replaceAll_of_generation grown, symbols_replaceAll]

/-- The first of several generations, and those after it. -/
theorem generations_succ {rules : Rules} {count : Nat} {text last : String}
    (grown : rules.generations (count + 1) text = .ok last) :
    ∃ next, rules.generation text = .ok next ∧ rules.generations count next = .ok last := by
  simp only [generations] at grown
  cases first : rules.generation text with
  | error failure => rw [first] at grown; cases grown
  | ok next => rw [first] at grown; exact ⟨next, rfl, grown⟩

/-- Generations that succeed rewrite the word of the text as many times. -/
theorem symbols_generations {rules : Rules} {count : Nat} {text last : String}
    (grown : rules.generations count text = .ok last) :
    symbols last = rules.rewrite^[count] (symbols text) := by
  induction count generalizing text with
  | zero => cases grown; rfl
  | succ count ih =>
      obtain ⟨next, first, rest⟩ := generations_succ grown
      rw [ih rest, symbols_generation first, Function.iterate_succ_apply]

end Rules

end Frond
