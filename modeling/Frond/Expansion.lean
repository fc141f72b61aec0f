import Frond.Event
import Frond.Failure
import Frond.Grammar

/-!
Growth of a text by its rules. A generation replaces every symbol at once and drops all
noise. The size of the next generation is counted first, and growth fails when that count
does not fit in 64 bits; only then is the text written.

Main definitions: `Rules.size?`, `Rules.generation`, `Rules.generations`, `Grammar.expand`, and
the events each of them is logged with.
-/

namespace Frond

/-- A sum of two sizes, if it can be counted. -/
def addSize? (total size : Nat) : Option Nat :=
  if total + size < sizeLimit then some (total + size) else none

namespace Rules

/-- The bytes of the next generation, if they can be counted. -/
def size? (rules : Rules) (text : String) : Option Nat :=
  (symbols text).foldlM
    (fun total symbol => addSize? total (rules.replacement symbol).utf8ByteSize) 0

/-- The replacements of a list of symbols, one after the other. -/
def replaceAll (rules : Rules) (word : List Symbol) : String :=
  String.join (word.map rules.replacement)

/-- The next generation of a text. -/
def generation (rules : Rules) (text : String) : Except Failure String :=
  match rules.size? text with
  | none => .error .overflow
  | some _ => .ok (rules.replaceAll (symbols text))

/-- The generation that lies `count` generations after a text. -/
def generations (rules : Rules) : Nat → String → Except Failure String
  | 0, text => .ok text
  | count + 1, text => do
    let next ← rules.generation text
    rules.generations count next

end Rules

/-- The generation of a grammar that is asked for, whether or not the limit permits it. -/
def Grammar.expand (grammar : Grammar) : Except Failure String :=
  grammar.rules.generations grammar.iterations.toNat grammar.seed

namespace Expansion

def target : String := "drawsystem::expand"

def droppedEvent (dropped : Nat) : Event :=
  { level := .debug, target, message := "dropped characters outside the alphabet",
    fields := [("dropped", .count dropped)] }

def generationEvent (number size : Nat) : Event :=
  { level := .debug, target, message := "expanded generation",
    fields := [("generation", .count number), ("len", .count size)] }

/-- What is logged while the next generation of a text is written. -/
def noiseEvents (text : String) : List Event :=
  if noise text = 0 then [] else [droppedEvent (noise text)]

/-- What is logged while a text grows: `number` is the generation that comes next. -/
def events (rules : Rules) (number : Nat) : Nat → String → List Event
  | 0, _ => []
  | count + 1, text =>
    match rules.generation text with
    | .error _ => []
    | .ok next =>
      noiseEvents text ++ generationEvent number next.utf8ByteSize ::
        events rules (number + 1) count next

end Expansion

def Grammar.expandEvents (grammar : Grammar) : List Event :=
  Expansion.events grammar.rules 1 grammar.iterations.toNat grammar.seed

end Frond
