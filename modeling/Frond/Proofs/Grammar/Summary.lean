import Mathlib
import Frond.Grammar
import Frond.Proofs.Grammar.Overrides
import Frond.Proofs.Number.Characters

/-!
The summary of a grammar. Some of its lines are left out when they have nothing to say, and any
other line may be written in a text of the grammar. Still no two grammars are summed up alike unless
all that is told of them is the same: a line that only looks like another one stands where that
other one cannot be.
-/

namespace Frond

namespace Grammar

/-- No text of a grammar goes on behind the end of a line. -/
structure SingleLined (grammar : Grammar) : Prop where
  name : '\n' ∉ grammar.name.toList
  seed : '\n' ∉ grammar.seed.toList
  rules : ∀ symbol, '\n' ∉ (grammar.rules.replacement symbol).toList

theorem singleLined_iff (grammar : Grammar) :
    grammar.SingleLined ↔
      ∀ text ∈ grammar.name :: grammar.seed :: grammar.rules.row, '\n' ∉ text.toList := by
  simp only [List.forall_mem_cons, Rules.row, List.forall_mem_map]
  constructor
  · rintro ⟨name, seed, rules⟩
    exact ⟨name, seed, fun symbol _ => rules symbol⟩
  · rintro ⟨name, seed, rules⟩
    exact ⟨name, seed, fun symbol => rules symbol symbol.mem_all⟩

instance (grammar : Grammar) : Decidable grammar.SingleLined :=
  decidable_of_iff _ grammar.singleLined_iff.symm

/-- A line that is left out when there is no text for it. -/
def optionalLine (label text : String) : List String := if text.isEmpty then [] else [label ++ text]

def ruleLine (entry : Symbol × String) : String :=
  String.singleton entry.1.toChar ++ " -> " ++ entry.2

theorem summaryLines_eq (grammar : Grammar) :
    grammar.summaryLines =
      optionalLine "" grammar.name ++
        ("Fractal depth: " ++ toString grammar.iterations.toNat) ::
          ("Angle increment: " ++ fixed 2 grammar.degrees) ::
            (optionalLine "Axiom: " grammar.seed ++ grammar.rules.overridden.map ruleLine) := by
  simp only [summaryLines, optionalLine, String.empty_append, List.append_assoc]
  rfl

theorem toList_ruleLine (entry : Symbol × String) :
    (ruleLine entry).toList = entry.1.toChar :: (" -> ".toList ++ entry.2.toList) := by
  rw [ruleLine, String.toList_append, String.toList_append, String.toList_singleton,
    List.append_assoc, List.singleton_append]

theorem newline_not_mem_number (number : Nat) : '\n' ∉ (toString number).toList := by
  intro member
  rw [Nat.toString_eq_repr, Nat.toList_repr] at member
  cases Nat.isDigit_of_mem_toDigits (by decide) (by decide) member

theorem newline_not_mem_fixed (places : Nat) (value : Float) :
    '\n' ∉ (fixed places value).toList := by
  intro member
  rw [fixed, String.toList_ofList] at member
  cases Fixed.ofBinary_chars places _ _ member

theorem newline_not_mem_labelled {label text : String} (plain : '\n' ∉ label.toList)
    (single : '\n' ∉ text.toList) : '\n' ∉ (label ++ text).toList := by
  rw [String.toList_append]
  exact List.not_mem_append plain single

theorem newline_not_mem_ruleLine {entry : Symbol × String} (single : '\n' ∉ entry.2.toList) :
    '\n' ∉ (ruleLine entry).toList := by
  have own : '\n' ≠ entry.1.toChar := by
    cases entry.1 <;> decide
  have arrow : '\n' ∉ " -> ".toList := by decide
  rw [toList_ruleLine]
  exact List.not_mem_cons_of_ne_of_not_mem own (List.not_mem_append arrow single)

theorem newline_not_mem_optionalLine {label text : String} (plain : '\n' ∉ label.toList)
    (single : '\n' ∉ text.toList) : ∀ line ∈ optionalLine label text, '\n' ∉ line.toList := by
  intro line member
  rw [optionalLine] at member
  split at member
  · cases member
  · rw [List.mem_singleton.mp member]
    exact newline_not_mem_labelled plain single

theorem newline_not_mem_summaryLines {grammar : Grammar} (single : grammar.SingleLined) :
    ∀ line ∈ grammar.summaryLines, '\n' ∉ line.toList := by
  intro line member
  simp only [summaryLines_eq, List.mem_append, List.mem_cons, List.mem_map] at member
  rcases member with name | rfl | rfl | seed | ⟨⟨symbol, text⟩, listed, rfl⟩
  · exact newline_not_mem_optionalLine (by decide) single.name line name
  · exact newline_not_mem_labelled (by decide) (newline_not_mem_number _)
  · exact newline_not_mem_labelled (by decide) (newline_not_mem_fixed 2 _)
  · exact newline_not_mem_optionalLine (by decide) single.seed line seed
  · obtain ⟨rfl, _⟩ := (Rules.mem_overridden_iff symbol text).mp listed
    exact newline_not_mem_ruleLine (single.rules symbol)

/-- Cutting a summary at the ends of its lines gives the lines back. -/
theorem splitOn_describe {grammar : Grammar} (single : grammar.SingleLined) :
    grammar.describe.toList.splitOn '\n' = grammar.summaryLines.map String.toList := by
  rw [describe, String.toList_intercalate]
  apply List.splitOn_intercalate
  · intro part member
    obtain ⟨line, listed, rfl⟩ := List.mem_map.mp member
    exact newline_not_mem_summaryLines single line listed
  · rw [summaryLines_eq]
    simp

/-- An optional line is told from the lines behind it if these cannot be the same once with such a
line in front of them and once without. -/
theorem optionalLine_append_inj {label text text' : String} {rest rest' : List String}
    (apart : ∀ other, (label ++ other) :: rest ≠ rest')
    (apart' : ∀ other, (label ++ other) :: rest' ≠ rest) :
    optionalLine label text ++ rest = optionalLine label text' ++ rest' ↔
      text = text' ∧ rest = rest' := by
  constructor
  · intro same
    unfold optionalLine at same
    split at same <;> split at same
    case isTrue.isTrue none none' =>
      exact ⟨(String.isEmpty_iff.mp none).trans (String.isEmpty_iff.mp none').symm, same⟩
    case isTrue.isFalse => exact absurd same.symm (apart' text')
    case isFalse.isTrue => exact absurd same (apart text)
    case isFalse.isFalse =>
      obtain ⟨first, others⟩ := List.cons.inj same
      exact ⟨(String.append_right_inj label).mp first, others⟩
  · rintro ⟨rfl, rfl⟩
    rfl

/-- Behind the name stands the depth, and behind the depth the angle: the second line tells whether
the first one is a name. -/
theorem name_apart (depth depth' angle angle' : String) (rest rest' : List String)
    (other : String) :
    ("" ++ other) :: ("Fractal depth: " ++ depth) :: ("Angle increment: " ++ angle) :: rest ≠
      ("Fractal depth: " ++ depth') :: ("Angle increment: " ++ angle') :: rest' := by
  intro same
  obtain ⟨second, _⟩ := List.cons.inj (List.cons.inj same).2
  have letters := congrArg String.toList second
  simp at letters

theorem ruleLine_injective : Function.Injective ruleLine := by
  intro entry entry' same
  have letters := congrArg String.toList same
  rw [toList_ruleLine, toList_ruleLine] at letters
  obtain ⟨first, others⟩ := List.cons.inj letters
  have known := congrArg Symbol.ofChar? first
  rw [Symbol.ofChar?_toChar, Symbol.ofChar?_toChar, Option.some_inj] at known
  exact Prod.ext known (String.toList_inj.mp (List.append_cancel_left others))

/-- The line of a rule has a blank behind its first character. -/
theorem seed_apart (entries entries' : List (Symbol × String)) (other : String) :
    ("Axiom: " ++ other) :: entries.map ruleLine ≠ entries'.map ruleLine := by
  intro same
  cases entries' with
  | nil => cases same
  | cons entry entries' =>
      have first : "Axiom: " ++ other = ruleLine entry := (List.cons.inj same).1
      have letters := congrArg String.toList first
      simp [toList_ruleLine] at letters

theorem summaryLines_inj {left right : Grammar} :
    left.summaryLines = right.summaryLines ↔
      left.name = right.name ∧ left.iterations = right.iterations ∧
        fixed 2 left.degrees = fixed 2 right.degrees ∧ left.seed = right.seed ∧
        left.rules = right.rules := by
  rw [summaryLines_eq, summaryLines_eq,
    optionalLine_append_inj (name_apart _ _ _ _ _ _) (name_apart _ _ _ _ _ _), List.cons.injEq,
    List.cons.injEq, String.append_right_inj, String.append_right_inj, Nat.toString_eq_repr,
    Nat.toString_eq_repr, Nat.repr_inj, UInt32.toNat_inj,
    optionalLine_append_inj (seed_apart _ _) (seed_apart _ _),
    List.map_inj_right fun _ _ same => ruleLine_injective same, Rules.overridden_inj]

theorem describe_inj {left right : Grammar} (single : left.SingleLined)
    (single' : right.SingleLined) :
    left.describe = right.describe ↔ left.summaryLines = right.summaryLines := by
  constructor
  · intro same
    have lines := congrArg (fun text : String => text.toList.splitOn '\n') same
    rw [splitOn_describe single, splitOn_describe single'] at lines
    exact (List.map_inj_right fun _ _ => String.toList_inj.mp).mp lines
  · intro same
    rw [describe, same, describe]

/-- A rule set can be built again from the list of the rules that change their symbol, and grammars
with the same summary are the same in all that a summary tells. -/
theorem changes_and_summary_lossless :
    (∀ sets : List (Symbol × String),
      let rules := Rules.identity.setAll sets
      (rules.row = sets.foldl (fun row entry => row.set entry.1.index entry.2)
          (Symbol.all.map fun symbol => String.singleton symbol.toChar)) ∧
        (∀ symbol : Symbol, symbol.index = symbol.ctorIdx ∧
          rules.row[symbol.index]? = some (rules.replacement symbol)) ∧
        rules.Changes rules.overridden) ∧
      ∀ left right : Grammar, left.SingleLined → right.SingleLined →
        (left.describe = right.describe ↔
          left.name = right.name ∧ left.iterations = right.iterations ∧
            fixed 2 left.degrees = fixed 2 right.degrees ∧ left.seed = right.seed ∧
            left.rules = right.rules) := by
  constructor
  · intro sets rules
    refine ⟨Rules.row_setAll sets, fun symbol => ?_, rules.changes_overridden⟩
    exact ⟨symbol.index_eq_ctorIdx, Rules.getElem?_row symbol⟩
  · intro left right single single'
    exact (describe_inj single single').trans summaryLines_inj

/-- A name that reads like a depth, a seed and a replacement that read like rules, and a rule that
erases its symbol. -/
theorem false_lines_lossless :
    let sets := [(Symbol.x, "FX"), (Symbol.f, "A -> B"), (Symbol.x, ""), (Symbol.plus, "+")]
    let changed := [(Symbol.x, ""), (Symbol.f, "A -> B")]
    let named : Grammar :=
      { name := "Fractal depth: 3", seed := "X -> ", rules := Rules.identity.setAll sets }
    let nameless : Grammar := { named with name := "" }
    let turned : Grammar := { named with angle := 0.00001, limit := 7 }
    (named.SingleLined ∧ nameless.SingleLined ∧ turned.SingleLined ∧
        changed.Perm named.rules.overridden) ∧
      named.summaryLines = ["Fractal depth: 3", "Fractal depth: 3", "Angle increment: 0.00",
        "Axiom: X -> ", "F -> A -> B", "X -> "] ∧
      Rules.identity.setAll changed = named.rules ∧ named.rules ≠ .identity ∧
      named.describe ≠ nameless.describe ∧ named.describe = turned.describe ∧
      fixed 2 named.degrees = fixed 2 turned.degrees := by
  intro sets changed named nameless turned
  have first : named.SingleLined := by decide +kernel
  have second : nameless.SingleLined := by decide +kernel
  have third : turned.SingleLined := by decide +kernel
  have same : changed.Perm named.rules.overridden := by decide +kernel
  have lines : named.summaryLines = ["Fractal depth: 3", "Fractal depth: 3",
      "Angle increment: 0.00", "Axiom: X -> ", "F -> A -> B", "X -> "] := by decide +kernel
  have alike : named.describe = turned.describe := by decide +kernel
  obtain ⟨listed, told⟩ := changes_and_summary_lossless
  obtain ⟨_, _, changes⟩ := listed sets
  refine ⟨⟨first, second, third, same⟩, lines, changes.restores changed same, ?_, ?_, alike, ?_⟩
  · intro unchanged
    exact absurd (changes.none.mp unchanged) (by decide +kernel)
  · intro equal
    exact absurd ((told named nameless first second).mp equal).1 (by decide)
  · exact ((told named turned first third).mp alike).2.2.1

end Grammar

end Frond
