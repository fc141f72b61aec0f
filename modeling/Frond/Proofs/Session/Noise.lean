import Frond.Proofs.Session.Cacheless
import Frond.Proofs.Turtle.Idle

/-!
Noise is never drawn. Two sessions whose grammars differ by deleted noise draw the same segments,
so their documents and frames are the same, whatever each of them was asked before.
-/

namespace Frond

namespace Plan

variable {plan quiet : Plan}

/-- A plan whose grammar has lost some noise. -/
structure Quieter (plan quiet : Plan) : Prop where
  grammar : plan.grammar.Quieter quiet.grammar
  stepLength : quiet.stepLength = plan.stepLength
  start : quiet.start = plan.start

namespace Quieter

theorem name (quieter : plan.Quieter quiet) : quiet.grammar.name = plan.grammar.name := by
  rw [quieter.grammar.others]

theorem drawing (quieter : plan.Quieter quiet) {text less : String}
    (hushed : Frond.Quieter text less) : quiet.drawing less = plan.drawing text := by
  have angle : quiet.grammar.angle = plan.grammar.angle := by rw [quieter.grammar.others]
  rw [Plan.drawing, angle, quieter.stepLength, quieter.start]
  exact interpret_of_symbols_eq hushed.symbols_eq _ _ _

theorem segments (quieter : plan.Quieter quiet) {segments : List (Segment Float)}
    (drawn : plan.segments = .ok segments) : quiet.segments = .ok segments := by
  obtain ⟨text, grown, rfl⟩ := segments_eq_ok_iff.mp drawn
  obtain ⟨less, hushed, fewer⟩ := quieter.grammar.expand grown
  exact segments_eq_ok_iff.mpr ⟨less, hushed, by rw [quieter.drawing fewer]⟩

theorem render (quieter : plan.Quieter quiet) {style : Svg.Style} {palette : Palette}
    {document : String} (rendered : plan.render style palette = .ok document) :
    quiet.render style palette = .ok document := by
  rw [Plan.render, bind_eq_ok_iff] at rendered ⊢
  obtain ⟨segments, drawn, shown⟩ := rendered
  refine ⟨segments, quieter.segments drawn, ?_⟩
  rw [quieter.name, quieter.start]
  exact shown

theorem frames (quieter : plan.Quieter quiet) {style : Svg.Style} {palette : Palette}
    {frames : Frames} (shown : plan.frames style palette = .ok frames) :
    quiet.frames style palette = .ok frames := by
  rw [Plan.frames, bind_eq_ok_iff] at shown ⊢
  obtain ⟨segments, drawn, shown⟩ := shown
  refine ⟨segments, quieter.segments drawn, ?_⟩
  rw [quieter.name, quieter.start]
  exact shown

end Quieter

end Plan

namespace Session

/-- A session that some requests have led to. -/
def Reachable (session : Session) : Prop :=
  ∃ grammar requests, ((ofGrammar grammar).run requests).1 = session

theorem Reachable.coherent {session : Session} (reachable : session.Reachable) :
    session.Coherent := by
  obtain ⟨grammar, requests, rfl⟩ := reachable
  exact (run_agrees (ofGrammar_coherent grammar) requests).1

theorem Reads.exists_iff {α : Type} {session : Session} {fresh : Except Failure α}
    {kept : Except Failure (α × Session)} (reads : session.Reads fresh kept) {value : α} :
    (∃ next, kept = .ok (value, next)) ↔ fresh = .ok value := by
  cases reads with
  | error failure => simp
  | ok found next plan coherent => simp

end Session

variable {α : Type} [Add α] [Sub α] [Mul α] [Zero α] [Trigonometry α]

/-- Deleting noise from the seed and the replacements of a grammar that grows leaves a grammar that
grows, its text has the same drawing in every respect, and sessions on the two show the same. From
a text that is only walked the placeholders can be deleted as well. -/
theorem noise_not_drawn :
    (∀ (grammar fewer : Grammar) (text : String),
      grammar.Quieter fewer → grammar.expand = .ok text →
        ∃ less, fewer.expand = .ok less ∧
          ∀ (angle length : α) (start : Point α),
            interpret less angle length start = interpret text angle length start) ∧
    (∀ (session quiet : Session) (style : Svg.Style) (palette : Palette),
      session.Reachable → quiet.Reachable → session.plan.Quieter quiet.plan →
        (∀ document, (∃ next, session.render style palette = .ok (document, next)) →
          ∃ next, quiet.render style palette = .ok (document, next)) ∧
        ∀ frames, (∃ next, session.frames style palette = .ok (frames, next)) →
          ∃ next, quiet.frames style palette = .ok (frames, next)) ∧
    ∀ text less : String, Deletes isIdle text.toList less.toList →
      ∀ (angle length : α) (start : Point α),
        interpret less angle length start = interpret text angle length start := by
  refine ⟨?_, ?_, fun text less => interpret_of_idle_deleted⟩
  · intro grammar fewer text quieter grown
    obtain ⟨less, hushed, noiseless⟩ := quieter.expand grown
    exact ⟨less, hushed, interpret_of_symbols_eq noiseless.symbols_eq⟩
  · intro session quiet style palette reachable quietReachable quieter
    have coherent := reachable.coherent
    have quietCoherent := quietReachable.coherent
    constructor
    · intro document rendered
      rw [(Session.render_reads coherent style palette).exists_iff] at rendered
      exact (Session.render_reads quietCoherent style palette).exists_iff.mpr
        (quieter.render rendered)
    · intro frames shown
      rw [(Session.frames_reads coherent style palette).exists_iff] at shown
      exact (Session.frames_reads quietCoherent style palette).exists_iff.mpr
        (quieter.frames shown)

/-- A branch with noise in its seed and in a rule, some of it of several bytes. -/
def noisyBranch : Grammar :=
  { seed := "F?é", rules := Rules.identity.set .f "F!+[ X]", iterations := 2 }

def hushedBranch : Grammar :=
  { seed := "Fé", rules := Rules.identity.set .f "F+[ X]", iterations := 2 }

/-- The session on the noisy branch was read before, and the one on the other was not. -/
theorem hushed_branch_drawn_alike :
    let session := ((Session.ofGrammar noisyBranch).run [.segments]).1
    let quiet := Session.ofGrammar hushedBranch
    (noisyBranch.Quieter hushedBranch ∧ noisyBranch.expand = .ok "F!+[ X]+[X]" ∧
      session.Reachable ∧ quiet.Reachable ∧ session.plan.Quieter quiet.plan ∧
      Deletes isIdle "FX é]+".toList "F]+".toList) ∧
    (∃ less, hushedBranch.expand = .ok less ∧
      ∀ (angle length : Float) (start : Point Float),
        interpret less angle length start = interpret "F!+[ X]+[X]" angle length start) ∧
    (∃ document, (∃ next, session.render {} {} = .ok (document, next)) ∧
      ∃ next, quiet.render {} {} = .ok (document, next)) ∧
    (∃ frames, (∃ next, session.frames {} {} = .ok (frames, next)) ∧
      ∃ next, quiet.frames {} {} = .ok (frames, next)) ∧
    ∀ (angle length : Float) (start : Point Float),
      interpret "F]+" angle length start = interpret "FX é]+" angle length start := by
  intro session quiet
  have quieter : noisyBranch.Quieter hushedBranch :=
    ⟨rfl, by decide, fun symbol => by cases symbol <;> decide⟩
  have grown : noisyBranch.expand = .ok "F!+[ X]+[X]" := by rfl
  have reachable : session.Reachable := ⟨noisyBranch, _, rfl⟩
  have quietReachable : quiet.Reachable := ⟨hushedBranch, [], rfl⟩
  have plans : session.plan.Quieter quiet.plan := ⟨quieter, rfl, rfl⟩
  have idle : Deletes isIdle "FX é]+".toList "F]+".toList := by decide
  obtain ⟨growth, sessions, walks⟩ := noise_not_drawn (α := Float)
  obtain ⟨documents, frames⟩ := sessions session quiet {} {} reachable quietReachable plans
  have rendered : ∃ document next, session.render {} {} = .ok (document, next) := ⟨_, _, rfl⟩
  have shown : ∃ frames next, session.frames {} {} = .ok (frames, next) := ⟨_, _, rfl⟩
  obtain ⟨document, rendered⟩ := rendered
  obtain ⟨sequence, shown⟩ := shown
  exact ⟨⟨quieter, grown, reachable, quietReachable, plans, idle⟩,
    growth noisyBranch hushedBranch _ quieter grown,
    ⟨document, rendered, documents document rendered⟩,
    ⟨sequence, shown, frames sequence shown⟩, walks _ _ idle⟩

end Frond
