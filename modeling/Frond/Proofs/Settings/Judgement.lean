import Frond.Proofs.Session.Prepared
import Frond.Proofs.Svg.Colours
import Frond.Settings.Reading

/-!
What is accepted as a configuration, and what an accepted one is good for. The faults are judged in
a fixed order. Settings that pass open a session for every preset that is deep enough, and their
colours reach every document as they were written.
-/

namespace Frond

/-- What is to be said about a configuration text: the first of its faults, or its settings, with
the usual value wherever none is chosen. -/
inductive Judged (text : String) : Except SettingsError Settings → Prop
  | malformed (unread : Choices.read? text = none) : Judged text (.error .malformed)
  | shortStep (choices : Choices) (read : Choices.read? text = some choices)
      (zero : choices.stepLength = some 0) : Judged text (.error (.shortStep 0))
  | background (choices : Choices) (read : Choices.read? text = some choices)
      (length : choices.stepLength ≠ some 0) (value : String)
      (chosen : choices.background = some value) (foul : ¬Colour value) :
      Judged text (.error (.badColour "background" value))
  | line (choices : Choices) (read : Choices.read? text = some choices)
      (length : choices.stepLength ≠ some 0)
      (background : ∀ value, choices.background = some value → Colour value) (value : String)
      (chosen : choices.line = some value) (foul : ¬Colour value) :
      Judged text (.error (.badColour "line" value))
  | accepted (choices : Choices) (read : Choices.read? text = some choices)
      (length : choices.stepLength ≠ some 0)
      (background : ∀ value, choices.background = some value → Colour value)
      (line : ∀ value, choices.line = some value → Colour value) :
      Judged text (.ok
        { stepLength := choices.stepLength.getD 5
          iterations := choices.iterations.getD 3
          start := choices.start.getD ⟨700.0, 500.0⟩
          palette :=
            { background := choices.background.getD "#ffffff"
              line := choices.line.getD "#000000" } })

namespace Choices

/-- A choice of colour is found fault with exactly when it is made and is none. -/
theorem filter_colour (chosen : Option String) :
    (∃ value, chosen = some value ∧ ¬Colour value ∧
      chosen.filter (!isColour ·) = some value) ∨
    ((∀ value, chosen = some value → Colour value) ∧ chosen.filter (!isColour ·) = none) := by
  cases chosen with
  | none => exact .inr ⟨fun value absent => (by cases absent), rfl⟩
  | some value =>
      cases accepted : isColour value with
      | true =>
          refine .inr ⟨?_, by simp [accepted]⟩
          intro other same
          cases same
          exact isColour_iff.mp accepted
      | false =>
          refine .inl ⟨value, rfl, ?_, by simp [accepted]⟩
          intro colour
          rw [isColour_iff.mpr colour] at accepted
          cases accepted

theorem filter_shortStep (chosen : Option UInt32) :
    chosen = some 0 ∧ chosen.filter (· == 0) = some 0 ∨
      chosen ≠ some 0 ∧ chosen.filter (· == 0) = none := by
  cases chosen with
  | none => exact .inr ⟨by simp, rfl⟩
  | some length =>
      by_cases zero : length = 0
      · exact .inl ⟨by rw [zero], by simp [zero]⟩
      · exact .inr ⟨by simpa using zero, by simp [zero]⟩

end Choices

theorem judged_ofText (text : String) : Judged text (Settings.ofText text) := by
  cases read : Choices.read? text with
  | none =>
      rw [Settings.ofText, read]
      exact .malformed read
  | some choices =>
      rw [Settings.ofText, read]
      simp only [Choices.settings, Choices.problem?]
      obtain ⟨zero, found⟩ | ⟨length, none⟩ := Choices.filter_shortStep choices.stepLength
      · rw [found]
        exact .shortStep choices read zero
      rw [none]
      obtain ⟨value, chosen, foul, found⟩ | ⟨background, none⟩ :=
        Choices.filter_colour choices.background
      · rw [found]
        exact .background choices read length value chosen foul
      rw [none]
      obtain ⟨value, chosen, foul, found⟩ | ⟨line, none⟩ := Choices.filter_colour choices.line
      · rw [found]
        exact .line choices read length background value chosen foul
      rw [none]
      exact .accepted choices read length background line

theorem Judged.unique {text : String} {left right : Except SettingsError Settings}
    (first : Judged text left) (second : Judged text right) : left = right := by
  cases first <;> cases second <;> simp_all

namespace Settings

/-- Settings that nothing has to be checked for again: they open a session for every preset that
permits the depth, which is the only thing they can be refused for, and whatever a session draws in
their colours has these as they are. -/
structure Usable (settings : Settings) : Prop where
  opens : ∀ preset session, prepare preset settings = .ok session ↔
    settings.iterations ≤ preset.grammar.limit ∧
      session = { plan := preparedPlan preset settings }
  refused : ∀ preset failure, prepare preset settings = .error failure ↔
    preset.grammar.limit < settings.iterations ∧
      failure = .tooDeep settings.iterations preset.grammar.limit
  render : ∀ (session next : Session) style document,
    session.render style settings.palette = .ok (document, next) →
      ∃ segments, session.drawn = .ok (segments, next) ∧
        Svg.Coloured style settings.palette (Svg.viewBox style session.plan.start segments) segments
          document
  frames : ∀ (session next : Session) style frames,
    session.frames style settings.palette = .ok (frames, next) →
      ∃ segments, session.drawn = .ok (segments, next) ∧
        ∀ document ∈ frames.toList, ∃ count ∈ frameEnds segments.length,
          Svg.Coloured style settings.palette (Svg.viewBox style session.plan.start segments)
            (segments.take count) document

theorem usable_of_sound {settings : Settings} (length : settings.stepLength ≠ 0)
    (background : Colour settings.palette.background) (line : Colour settings.palette.line) :
    settings.Usable where
  opens := by
    intro preset session
    rw [prepare_eq_ok_iff]
    simp [length]
  refused := by
    intro preset failure
    rw [prepare_eq]
    by_cases deep : settings.iterations ≤ preset.grammar.limit
    · simp [deep, length]
    · simp [UInt32.not_le.mp deep, deep, eq_comm]
  render := by
    intro session next style document rendered
    obtain ⟨segments, drawn, rfl⟩ := Session.render_eq_ok_iff.mp rendered
    refine ⟨segments, drawn, ?_⟩
    rw [← Svg.viewBox_titled style session.plan.grammar.name]
    exact .of_titled (Svg.coloured_renderIn (Svg.escape_colour background)
      (Svg.escape_colour line) _ _ segments)
  frames := by
    intro session next style frames shown
    obtain ⟨segments, drawn, rfl⟩ := Session.frames_eq_ok_iff.mp shown
    refine ⟨segments, drawn, ?_⟩
    intro document member
    obtain ⟨count, ends, rfl⟩ := List.mem_map.mp member
    refine ⟨count, ends, ?_⟩
    rw [← Svg.viewBox_titled style session.plan.grammar.name]
    exact .of_titled (Svg.coloured_renderIn (Svg.escape_colour background)
      (Svg.escape_colour line) _ _ (segments.take count))

theorem usable_of_judged {text : String} {settings : Settings}
    (judged : Judged text (.ok settings)) : settings.Usable := by
  cases judged with
  | accepted choices read length background line =>
      have shown (chosen : Option String) (usual : String) (sound : Colour usual)
          (colours : ∀ value, chosen = some value → Colour value) :
          Colour (chosen.getD usual) := by
        cases chosen with
        | none => exact sound
        | some value => exact colours value rfl
      apply usable_of_sound
      · cases given : choices.stepLength with
        | none => simp
        | some value => simpa [given] using length
      · exact shown _ _ (by decide) background
      · exact shown _ _ (by decide) line

/-- A configuration is judged by its first fault, and one that is accepted is good for drawing. -/
theorem judged_and_usable (text : String) :
    (∀ result, ofText text = result ↔ Judged text result) ∧
      ∀ settings, ofText text = .ok settings → settings.Usable := by
  have judged := judged_ofText text
  refine ⟨?_, ?_⟩
  · intro result
    constructor
    · rintro rfl
      exact judged
    · exact judged.unique
  · intro settings accepted
    rw [accepted] at judged
    exact usable_of_judged judged

/-- A configuration in blue, with the usual step and start. -/
def blueText : String := "[drawing]\niterations = 2\n\n[colors]\nbackground = \"#00f\"\n"

theorem blueText_usable :
    ofText blueText = .ok { iterations := 2, palette := { background := "#00f" } } ∧
      Usable { iterations := 2, palette := { background := "#00f" } } := by
  have read : Choices.read? blueText = some { iterations := some 2, background := some "#00f" } := by
    cbv
  have accepted : ofText blueText = .ok { iterations := 2, palette := { background := "#00f" } } := by
    rw [ofText, read]
    rfl
  exact ⟨accepted, (judged_and_usable blueText).2 _ accepted⟩

end Settings

end Frond
