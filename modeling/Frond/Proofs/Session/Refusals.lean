import Frond.Proofs.Expansion.Overflow
import Frond.Proofs.Session.InPlace
import Frond.Proofs.Session.Noise

/-!
When a request fails, and that nothing has changed then. A depth beyond the limit and a step without
length are refused, and what is read cannot be had exactly if the text outgrows its count on the way.
-/

namespace Frond

theorem not_error_of_ok {α : Type} (value : α) :
    ¬∃ failure, (Except.ok value : Except Failure α) = .error failure := by
  rintro ⟨failure, ⟨⟩⟩

namespace Plan

/-- Everything that is read is made from the text, and nothing after the text can fail. -/
theorem respond_eq_error_iff {plan : Plan} {request : Request}
    (wants : request.wants .text = true) :
    (∃ failure, (plan.respond request).2 = .error failure) ↔
      ∃ failure, plan.grammar.expand = .error failure := by
  have built : plan.grammar.expand = plan.expanded := rfl
  rw [built]
  cases request with
  | expanded | segments | render | frames =>
      simp only [respond, answer, segments, render, frames]
      cases plan.expanded with
      | error failure => exact iff_of_true ⟨failure, rfl⟩ ⟨failure, rfl⟩
      | ok text => exact iff_of_false (not_error_of_ok _) (not_error_of_ok _)
  | _ => cases wants

end Plan

namespace Session

/-- A request that is answered with a failure. -/
def Refuses (session : Session) (request : Request) : Prop :=
  ∃ failure, (session.respond request).2 = .error failure

theorem refuses_edit_iff {session : Session} {change : Edit} :
    session.Refuses (.edit change) ↔ ∃ failure, session.plan.edit change = .error failure := by
  rw [Refuses]
  cases carried : session.plan.edit change with
  | error failure =>
      rw [respond_edit_error carried]
      exact iff_of_true ⟨failure, rfl⟩ ⟨failure, rfl⟩
  | ok edited =>
      rw [respond_edit_ok carried]
      exact iff_of_false (not_error_of_ok _) (not_error_of_ok _)

theorem permits_eq_false_iff {grammar : Grammar} {iterations : UInt32} :
    grammar.permits iterations = false ↔ 0 < grammar.limit ∧ grammar.limit < iterations := by
  simp [Grammar.permits, UInt32.pos_iff_ne_zero]

theorem refuses_setIterations_iff {session : Session} {iterations : UInt32} :
    session.Refuses (.edit (.setIterations iterations)) ↔
      0 < session.plan.grammar.limit ∧ session.plan.grammar.limit < iterations := by
  rw [refuses_edit_iff, Plan.edit, ← permits_eq_false_iff]
  cases session.plan.grammar.permits iterations with
  | false => exact iff_of_true ⟨_, rfl⟩ rfl
  | true =>
      refine iff_of_false ?_ (by decide)
      rw [if_neg (by decide)]
      split <;> exact not_error_of_ok _

theorem refuses_setStepLength_iff {session : Session} {length : UInt32} :
    session.Refuses (.edit (.setStepLength length)) ↔ length = 0 := by
  rw [refuses_edit_iff, Plan.edit]
  by_cases zero : length = 0
  · rw [if_pos zero]
    exact iff_of_true ⟨_, rfl⟩ zero
  · rw [if_neg zero]
    refine iff_of_false ?_ zero
    split <;> exact not_error_of_ok _

theorem refuses_read_iff {session : Session} (coherent : session.Coherent) {request : Request}
    (wants : request.wants .text = true) :
    session.Refuses request ↔ ∃ failure, session.plan.grammar.expand = .error failure := by
  rw [← Plan.respond_eq_error_iff wants, (respond_agrees coherent request).2, Refuses]

/-- Where something is kept, growth has succeeded. -/
theorem expand_of_not_isStale {session : Session} (coherent : session.Coherent) {derived : Derived}
    (kept : session.isStale derived = false) :
    ∃ text, session.plan.grammar.expand = .ok text := by
  cases derived with
  | text =>
      cases stored : session.text with
      | none => simp [isStale, stored] at kept
      | some text => exact ⟨text, coherent.text text stored⟩
  | segments =>
      cases stored : session.segments with
      | none => simp [isStale, stored] at kept
      | some segments =>
          rcases Plan.segments_eq_ok_iff.mp (coherent.segments segments stored) with
            ⟨text, grown, _⟩
          exact ⟨text, grown⟩

/-- A request that fails leaves every field of the session as it was. -/
theorem respond_of_error {session : Session} {request : Request} {failure : Failure}
    (refused : (session.respond request).2 = .error failure) :
    session.respond request = (session, .error failure) := by
  unfold respond at refused ⊢
  split at refused
  · cases refused
  · cases refused
    rfl

/-- Only a depth beyond the limit, a step without length and a text that outgrows its count make a
request fail; with something kept the text has been counted already. A call that has failed has
changed nothing, nor does anything that follows tell that it was made. -/
theorem refusals_leave_no_trace {session : Session} (reachable : session.Reachable) :
    (∀ iterations, session.Refuses (.edit (.setIterations iterations)) ↔
        0 < session.plan.grammar.limit ∧ session.plan.grammar.limit < iterations) ∧
      (∀ length, session.Refuses (.edit (.setStepLength length)) ↔ length = 0) ∧
      (∀ request, request.wants .text = true →
        (session.Refuses request ↔ ∃ failure, session.plan.grammar.expand = .error failure)) ∧
      ((∃ failure, session.plan.grammar.expand = .error failure) ↔
        ∃ number, 1 ≤ number ∧ number ≤ session.plan.grammar.iterations.toNat ∧
          2 ^ 64 ≤
            (session.plan.grammar.rules.unchecked^[number] session.plan.grammar.seed).utf8ByteSize) ∧
      (∀ derived, session.isStale derived = false →
        ∃ text, session.plan.grammar.expand = .ok text) ∧
      (∀ request, (Call.answer request).on session = session.respond request) ∧
      ∀ request failure, ((Call.answer request).on session).2 = .error failure →
        ((Call.answer request).on session).1 = session ∧
          ∀ later, Call.answerAll session (request :: later) =
            ((Call.answerAll session later).1, .error failure :: (Call.answerAll session later).2) := by
  have coherent := reachable.coherent
  refine ⟨fun _ => refuses_setIterations_iff, fun _ => refuses_setStepLength_iff,
    fun _ => refuses_read_iff coherent, Rules.generations_eq_error_iff,
    fun _ => expand_of_not_isStale coherent, Call.on_answer session, ?_⟩
  intro request failure failed
  have unchanged : (Call.answer request).on session = (session, .error failure) := by
    rw [Call.on_answer] at failed ⊢
    exact respond_of_error failed
  refine ⟨by rw [unchanged], ?_⟩
  intro later
  rw [Call.answerAll, unchanged]

/-- One line that doubles in every generation. -/
def doublingGrammar : Grammar :=
  { seed := "F", rules := Rules.identity.set .f "FF", iterations := 64, limit := 64 }

theorem symbols_doubling (number : Nat) :
    symbols (doublingGrammar.rules.unchecked^[number] "F") = List.replicate (2 ^ number) .f := by
  induction number with
  | zero => rfl
  | succ number ih =>
      have image : doublingGrammar.rules.image .f = List.replicate 2 .f := by decide
      rw [Function.iterate_succ_apply', Rules.unchecked, Rules.symbols_replaceAll, ih, Rules.rewrite,
        List.flatMap_replicate, image, List.flatten_replicate_replicate, pow_succ]

theorem utf8ByteSize_doubling :
    (doublingGrammar.rules.unchecked^[64] "F").utf8ByteSize = 2 ^ 64 := by
  have width : (doublingGrammar.rules.replacement .f).utf8ByteSize = 2 := by decide
  rw [Function.iterate_succ_apply', Rules.unchecked, Rules.utf8ByteSize_replaceAll,
    symbols_doubling, List.map_replicate, List.sum_replicate, width]
  rfl

/-- The doubling line cannot be drawn, and once it doubles no more its text is read as ever. -/
theorem doubling_leaves_no_trace :
    let session := ofGrammar doublingGrammar
    session.Reachable ∧ session.Refuses (.edit (.setIterations 65)) ∧
      ∃ failure, (session.respond .segments).2 = .error failure ∧
        ((Call.answer .segments).on session).1 = session ∧
        (Call.answerAll session [.segments, .edit (.setIterations 1), .expanded]).2 =
          [.error failure, .ok .done, .ok (.text "FF")] := by
  intro session
  have reachable : session.Reachable := ⟨doublingGrammar, [], rfl⟩
  rcases refusals_leave_no_trace reachable with
    ⟨deep, _, reads, overflows, _, inPlace, unchanged⟩
  have large : ∃ failure, session.plan.grammar.expand = .error failure :=
    overflows.mpr ⟨64, by decide, by decide, Nat.le_of_eq utf8ByteSize_doubling.symm⟩
  rcases (reads .segments rfl).mpr large with ⟨failure, refused⟩
  rcases unchanged .segments failure (by rw [inPlace, refused]) with ⟨same, later⟩
  have mended : (Call.answerAll (ofGrammar doublingGrammar)
      [.edit (.setIterations 1), .expanded]).2 = [.ok .done, .ok (.text "FF")] := rfl
  refine ⟨reachable, (deep 65).mpr (by decide), failure, refused, same, ?_⟩
  rw [later, mended]

end Session

end Frond
