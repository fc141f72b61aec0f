import Frond.Session.Basic

/-!
What a read that succeeds leaves in the session. Work that is kept is given as it stands; work that
is not is built from the plan and kept from then on.
-/

namespace Frond

namespace Session

variable {session next : Session}

theorem expanded_cases {text : String} (read : session.expanded = .ok (text, next)) :
    session.text = some text ∧ next = session ∨
      session.text = none ∧ session.plan.expanded = .ok text ∧
        next = { session with text := some text } := by
  unfold expanded at read
  split at read
  case h_1 kept stored =>
    cases read
    exact .inl ⟨stored, rfl⟩
  case h_2 stored =>
    cases built : session.plan.expanded with
    | error failure =>
        rw [built] at read
        cases read
    | ok fresh =>
        rw [built] at read
        cases read
        exact .inr ⟨stored, rfl, rfl⟩

theorem drawn_cases {segments : List (Segment Float)}
    (read : session.drawn = .ok (segments, next)) :
    session.segments = some segments ∧ next = session ∨
      ∃ text grown, session.segments = none ∧ session.expanded = .ok (text, grown) ∧
        segments = (grown.plan.drawing text).segments ∧
        next = { grown with segments := some segments } := by
  unfold drawn at read
  split at read
  case h_1 kept stored =>
    cases read
    exact .inl ⟨stored, rfl⟩
  case h_2 stored =>
    cases built : session.expanded with
    | error failure =>
        rw [built] at read
        cases read
    | ok expanded =>
        rw [built] at read
        cases read
        exact .inr ⟨expanded.1, expanded.2, stored, rfl, rfl, rfl⟩

theorem plan_of_expanded {text : String} (read : session.expanded = .ok (text, next)) :
    next.plan = session.plan := by
  rcases expanded_cases read with ⟨_, rfl⟩ | ⟨_, _, rfl⟩
  · rfl
  · rfl

/-- Segments that were read are kept, with the plan they were drawn by. -/
theorem drawn_again {segments : List (Segment Float)}
    (read : session.drawn = .ok (segments, next)) :
    next.plan = session.plan ∧ next.drawn = .ok (segments, next) := by
  rcases drawn_cases read with ⟨stored, rfl⟩ | ⟨text, grown, _, built, _, rfl⟩
  · exact ⟨rfl, by simp only [drawn, stored]⟩
  · have plan := plan_of_expanded built
    exact ⟨plan, rfl⟩

end Session

end Frond
