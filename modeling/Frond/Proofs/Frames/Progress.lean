import Mathlib
import Frond.Proofs.Frames.Ends
import Frond.Proofs.Session.Kept
import Frond.Proofs.Svg.PathGrowth
import Frond.Proofs.Turtle.SegmentCount

/-!
A drawing that comes into being. Its frames are one document with paths that grow, and the last
frame is the finished drawing; so the last frame of a session is what the session renders.
-/

namespace Frond

namespace Frames

theorem size_lt_of_next? {frames rest : Frames} {document : String}
    (next : frames.next? = some (document, rest)) : rest.size < frames.size := by
  unfold next? at next
  split at next
  · cases next
  · rename_i count others ends
    cases next
    simp [size, ends]

/-- Takes frames one after the other until there are none; beside each stands the number that was
still to come before it was taken. -/
def drain (frames : Frames) : List (Nat × String) :=
  match _ : frames.next? with
  | none => []
  | some (document, rest) => (frames.size, document) :: rest.drain
termination_by frames.size
decreasing_by exact size_lt_of_next? ‹_›

theorem getElem?_drain (frames : Frames) (k : Nat) :
    frames.drain[k]? =
      frames.ends[k]?.map fun count => (frames.size - k, frames.document count) := by
  obtain ⟨style, palette, viewBox, segments, ends⟩ := frames
  -- Only the ends become fewer from frame to frame; a place counts down along with the size.
  induction ends generalizing k with
  | nil =>
      rw [drain]
      rfl
  | cons count rest ih =>
      rw [drain]
      cases k with
      | zero => rfl
      | succ k =>
          have later := ih k
          simp only [size, List.length_cons, Nat.add_sub_add_right] at later ⊢
          exact later

theorem length_drain (frames : Frames) : frames.drain.length = frames.size := by
  apply le_antisymm
  · apply List.getElem?_eq_none_iff.mp
    rw [getElem?_drain, List.getElem?_eq_none (le_refl frames.size), Option.map_none]
  · by_contra short
    have missing := getElem?_drain frames frames.drain.length
    rw [List.getElem?_eq_none (le_refl _),
      List.getElem?_eq_getElem (Nat.not_le.mp short), Option.map_some] at missing
    cases missing

theorem getLast?_drain (frames : Frames) :
    frames.drain.getLast? = frames.ends.getLast?.map fun count => (1, frames.document count) := by
  rw [List.getLast?_eq_getElem?, length_drain, getElem?_drain, List.getLast?_eq_getElem?]
  cases empty : frames.ends with
  | nil => rfl
  | cons count rest =>
      have last : frames.size - (frames.size - 1) = 1 := by
        simp [size, empty]
      rw [last, size, empty]

/-- How the frames of segments come one after the other. -/
structure Progressive (style : Svg.Style) (palette : Palette) (start : Point Float)
    (segments : List (Segment Float)) : Prop where
  length : (ofSegments style palette start segments).drain.length =
    (frameEnds segments.length).length
  /-- Each shows the first segments, as many as its place asks for, in a document that is the same
  for all, and is taken when it and those after it are still to come. -/
  frames : ∃ before after : String, ∀ k shown, (frameEnds segments.length)[k]? = some shown →
    (segments.take shown).length = shown ∧
      (ofSegments style palette start segments).drain[k]? =
        some ((frameEnds segments.length).length - k,
          before ++ Svg.pathText (segments.take shown) ++ after)
  grows : ∀ k shown next, (frameEnds segments.length)[k]? = some shown →
    (frameEnds segments.length)[k + 1]? = some next →
      ∃ more, more ≠ "" ∧
        Svg.pathText (segments.take next) = Svg.pathText (segments.take shown) ++ more
  finished : segments ≠ [] →
    (ofSegments style palette start segments).drain.getLast? =
      some (1, Svg.render style palette start segments)

variable {style : Svg.Style} {palette : Palette} {start : Point Float}
  {segments : List (Segment Float)}

theorem getLast?_ends_ofSegments (drawn : segments ≠ []) :
    (ofSegments style palette start segments).ends.getLast? = some segments.length :=
  frameEnds_getLast? (List.length_pos_iff.mpr drawn)

theorem document_length_ofSegments :
    (ofSegments style palette start segments).document segments.length =
      Svg.render style palette start segments := by
  simp only [document, ofSegments, List.take_length, Svg.render]

theorem getLast?_drain_ofSegments (drawn : segments ≠ []) :
    (ofSegments style palette start segments).drain.getLast? =
      some (1, Svg.render style palette start segments) := by
  rw [getLast?_drain, getLast?_ends_ofSegments drawn, Option.map_some, document_length_ofSegments]

/-- The last frame, if there is any, is the finished drawing. -/
theorem eq_render_of_getLast?_toList {document : String}
    (last : (ofSegments style palette start segments).toList.getLast? = some document) :
    document = Svg.render style palette start segments := by
  have drawn : segments ≠ [] := by
    rintro rfl
    cases last
  rw [toList, List.getLast?_map, getLast?_ends_ofSegments drawn, Option.map_some,
    document_length_ofSegments, Option.some_inj] at last
  exact last.symm

theorem progressive_ofSegments : Progressive style palette start segments where
  length := length_drain _
  frames := by
    obtain ⟨before, after, around⟩ :=
      Svg.renderIn_eq_around_path style palette (Svg.viewBox style start segments)
    refine ⟨before, after, ?_⟩
    intro k shown here
    obtain ⟨positive, bound⟩ := bounds_of_mem_frameEnds (List.mem_of_getElem? here)
    have length : (segments.take shown).length = shown := List.length_take_of_le bound
    have drawn : segments.take shown ≠ [] := by
      apply List.ne_nil_of_length_pos
      rw [length]
      exact positive
    refine ⟨length, ?_⟩
    rw [getElem?_drain]
    simp only [ofSegments, here, Option.map_some, document, size, around _ drawn]
  grows := by
    intro k shown next here after
    have positive := (bounds_of_mem_frameEnds (List.mem_of_getElem? here)).1
    have bound := (bounds_of_mem_frameEnds (List.mem_of_getElem? after)).2
    exact Svg.pathText_take_lt positive (frameEnds_lt_next here after) bound
  finished := getLast?_drain_ofSegments

end Frames

namespace Session

theorem render_of_drawn {session next : Session} {segments : List (Segment Float)}
    (read : session.drawn = .ok (segments, next)) (style : Svg.Style) (palette : Palette) :
    session.render style palette =
      .ok (Svg.render (session.titled style) palette session.plan.start segments, next) := by
  rw [render, read]
  rfl

theorem frames_of_drawn {session next : Session} {segments : List (Segment Float)}
    (read : session.drawn = .ok (segments, next)) (style : Svg.Style) (palette : Palette) :
    session.frames style palette =
      .ok (Frames.ofSegments (session.titled style) palette session.plan.start segments, next) := by
  rw [frames, read]
  rfl

end Session

/-- Frames show more and more of a drawing and end with all of it. So in whatever state a session is
that draws anything, its last frame is the drawing it renders, also if the one is asked for after
the other. -/
theorem drawing_progresses (style : Svg.Style) (palette : Palette) :
    (∀ start segments, Frames.Progressive style palette start segments) ∧
      ∀ (session next : Session) (segments : List (Segment Float)),
        session.drawn = .ok (segments, next) → segments ≠ [] →
        ∃ document frames,
          session.render style palette = .ok (document, next) ∧
          session.frames style palette = .ok (frames, next) ∧
          next.render style palette = .ok (document, next) ∧
          next.frames style palette = .ok (frames, next) ∧
          frames.drain.getLast? = some (1, document) := by
  refine ⟨fun start segments => Frames.progressive_ofSegments, ?_⟩
  intro session next segments read drawn
  obtain ⟨plan, again⟩ := Session.drawn_again read
  refine ⟨_, _, Session.render_of_drawn read style palette,
    Session.frames_of_drawn read style palette, ?_, ?_, Frames.getLast?_drain_ofSegments drawn⟩
  · rw [Session.render_of_drawn again, Session.titled, Session.titled, plan]
  · rw [Session.frames_of_drawn again, Session.titled, Session.titled, plan]

/-- Two lines of which the second starts where the first ends, and a session that draws one line. -/
theorem two_lines_progress :
    let segments : List (Segment Float) := [⟨⟨0, 0⟩, ⟨0, 5⟩⟩, ⟨⟨0, 5⟩, ⟨5, 5⟩⟩]
    let session := Session.ofGrammar { seed := "F", iterations := 0 }
    ((frameEnds 2)[0]? = some 1 ∧ (frameEnds 2)[1]? = some 2 ∧ segments ≠ []) ∧
      (∃ more, more ≠ "" ∧
        Svg.pathText (segments.take 2) = Svg.pathText (segments.take 1) ++ more) ∧
      (Frames.ofSegments {} {} defaultStart segments).drain.getLast? =
        some (1, Svg.render {} {} defaultStart segments) ∧
      ∃ drawn next, (session.drawn = .ok (drawn, next) ∧ drawn ≠ []) ∧
        ∃ document frames,
          session.render {} {} = .ok (document, next) ∧
          session.frames {} {} = .ok (frames, next) ∧
          next.render {} {} = .ok (document, next) ∧
          next.frames {} {} = .ok (frames, next) ∧
          frames.drain.getLast? = some (1, document) := by
  intro segments session
  have first : (frameEnds 2)[0]? = some 1 := by decide
  have second : (frameEnds 2)[1]? = some 2 := by decide
  have lines : segments ≠ [] := List.cons_ne_nil _ _
  obtain ⟨progressive, last⟩ := drawing_progresses {} {}
  have grows := (progressive defaultStart segments).grows 0 1 2 first second
  have finished := (progressive defaultStart segments).finished lines
  obtain ⟨drawn, next, read, line⟩ :
      ∃ drawn next, session.drawn = .ok (drawn, next) ∧ drawn ≠ [] := by
    refine ⟨_, _, rfl, ?_⟩
    apply List.ne_nil_of_length_pos
    rw [Plan.drawing, interpret_segments_length]
    exact (by decide : 0 < (symbols "F").countP Symbol.draws)
  exact ⟨⟨first, second, lines⟩, grows, finished, drawn, next, ⟨read, line⟩,
    last session next drawn read line⟩

end Frond
