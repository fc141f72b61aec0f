import Mathlib.Tactic.ByContra
import Frond.Proofs.Svg.PenMoves
import Frond.Proofs.Turtle.Successive

/-!
Where the path of a drawing is broken off. Between two strokes a turtle that neither hops nor returns to
a saved pose stays at its point, whatever else it meets; so the pen goes on from there, and every lift of
the pen after the first is paid for by a hop or a return.
-/

namespace Frond

variable {α : Type}

/-! ### Lifts of the pen -/

namespace Walk

section

variable [BEq α]

/-- The path of what a turtle has drawn so far. -/
def path (walk : Walk α) : Svg.Path α := Svg.Path.ofSegments walk.segments.toList

/-- How often the pen was lifted, if the turtle draws on from where it is. -/
def landings (walk : Walk α) : Nat :=
  walk.path.lifted + if Svg.lifts walk.path.pen walk.pose.position then 1 else 0

theorem lifted_le_landings (walk : Walk α) : walk.path.lifted ≤ walk.landings :=
  Nat.le_add_right ..

theorem landings_start [Zero α] (position : Point α) : (Walk.start position).landings = 1 := rfl

end

variable [BEq α] [Add α] [Sub α] [Mul α] [Trigonometry α]

theorem landings_draw (length : α) {walk : Walk α}
    (number : (walk.pose.ahead length == walk.pose.ahead length) = true) :
    (walk.draw length).landings = walk.landings := by
  have added : (walk.draw length).path =
      walk.path.add ⟨walk.pose.position, walk.pose.ahead length⟩ := by
    rw [path, draw, Array.toList_push, Svg.ofSegments_concat]
    rfl
  have kept : Svg.lifts (some (walk.pose.ahead length)) (walk.pose.ahead length) = false := by
    rw [Svg.lifts, bne, number]
    rfl
  rw [landings, added, Svg.lifted_add]
  exact congrArg (walk.landings + ·) (if_neg (Bool.eq_false_iff.mp kept))

/-- A stroke costs no lift of its own, and any other symbol costs one at most, if it departs. -/
theorem landings_step (angle length : α) {walk : Walk α} {symbol : Symbol}
    (number : symbol.draws = true →
      (walk.pose.ahead length == walk.pose.ahead length) = true) :
    (walk.step angle length symbol).landings ≤
      walk.landings + (if symbol = .move then 1 else 0) + if walk.returnsAt symbol then 1 else 0 := by
  cases draws : symbol.draws with
  | true =>
      rw [step_of_draws angle length walk draws, landings_draw length (number draws)]
      omega
  | false =>
      have same : (walk.step angle length symbol).path = walk.path := by
        rw [path, segments_step angle length walk draws, path]
      rw [landings, same]
      by_cases departs : symbol = .move ∨ walk.returnsAt symbol = true
      · have spent : walk.path.lifted ≤ walk.landings := walk.lifted_le_landings
        have paid : 1 ≤ (if symbol = .move then 1 else 0) +
            if walk.returnsAt symbol = true then 1 else 0 := by
          rcases departs with hop | returned
          · rw [if_pos hop]
            exact Nat.le_add_right ..
          · rw [if_pos returned]
            exact Nat.le_add_left ..
        split <;> omega
      · rw [not_or, Bool.not_eq_true] at departs
        rw [position_step angle length draws departs.1 departs.2]
        exact Nat.le_trans (Nat.le_add_right ..) (Nat.le_add_right ..)

theorem landings_along (angle length : α) (walk : Walk α) (word : List Symbol)
    (numbers : ∀ segment ∈ (walk.along angle length word).segments.toList,
      (segment.stop == segment.stop) = true) :
    (walk.along angle length word).landings ≤
      walk.landings + word.count .move + walk.returns angle length word := by
  induction word generalizing walk with
  | nil => exact Nat.le_refl _
  | cons symbol rest ih =>
      rw [along_cons] at numbers
      have later := ih (walk.step angle length symbol) numbers
      have first : (walk.step angle length symbol).landings ≤ walk.landings +
          (if symbol = .move then 1 else 0) + if walk.returnsAt symbol then 1 else 0 := by
        apply landings_step
        intro draws
        refine numbers ⟨walk.pose.position, walk.pose.ahead length⟩
          ((segments_prefix_along angle length _ rest).subset ?_)
        rw [step_of_draws angle length walk draws, draw, Array.toList_push]
        exact List.mem_concat_self
      rw [along_cons, returns_cons, List.count_cons]
      simp only [beq_iff_eq]
      omega

end Walk

/-! ### Departures -/

section

variable [Add α] [Sub α] [Mul α] [Zero α] [Trigonometry α]

theorem returns_le_count (text : String) (angle length : α) (start : Point α) :
    (Walk.start start).returns angle length (symbols text) ≤ text.toList.count ']' := by
  have closed := ((Walk.start start).tally_along angle length (symbols text)).2
  rw [count_symbols] at closed
  exact Nat.le.intro closed.symm

-- A pen that is at a NaN is lifted wherever the next segment starts.
variable [BEq α] {text : String} {angle length : α} {start : Point α}
  (numbers : ∀ segment ∈ (interpret text angle length start).segments,
    (segment.stop == segment.stop) = true)

include numbers

/-- The pen is lifted for a segment after the first only if the turtle departed since the stroke
before it. -/
theorem exists_departs_of_liftsAt {number : Nat} {target : Point α}
    (lifted : Svg.LiftsAt none (interpret text angle length start).segments (number + 1) target) :
    ∃ before first between second after, Successive text before first between second after ∧
      strokes before = number ∧
      Departs angle length start (before ++ String.singleton first) between := by
  obtain ⟨segment, place, rfl, jumped⟩ := lifted
  have inside : number + 1 < strokes text := by
    rw [← countP_draws_symbols, ← interpret_segments_length text angle length start]
    exact (List.getElem?_eq_some_iff.mp place).1
  obtain ⟨before, first, between, second, after, successive, rfl⟩ := exists_successive inside
  refine ⟨before, first, between, second, after, successive, rfl, ?_⟩
  by_contra stays
  obtain ⟨one, two, here, next, same⟩ := successive.start_eq_stop stays
  obtain rfl : two = segment := Option.some.inj (next.symm.trans place)
  have itself : (one.stop == one.stop) = true := numbers one (List.mem_of_getElem? here)
  rw [Svg.penBefore, here, Option.map_some, same, Svg.lifts, bne, itself] at jumped
  cases jumped

/-- Each lift of the pen but the first is paid for by a hop or a return. -/
theorem countP_isMove_le :
    (Svg.commandsFrom none (interpret text angle length start).segments).countP
        Svg.PenCommand.isMove ≤
      1 + text.toList.count 'f' + (Walk.start start).returns angle length (symbols text) := by
  have paid := Walk.landings_along angle length (.start start) (symbols text) numbers
  rw [Walk.landings_start, count_symbols] at paid
  refine Nat.le_trans ?_ paid
  rw [← Svg.ofSegments_commands]
  exact Walk.lifted_le_landings _

theorem countP_isMove_eq_one (grounded : 'f' ∉ text.toList) (unclosed : ']' ∉ text.toList)
    (drawn : (interpret text angle length start).segments ≠ []) :
    (Svg.commandsFrom none (interpret text angle length start).segments).countP
      Svg.PenCommand.isMove = 1 := by
  obtain ⟨first, later, cut⟩ := List.exists_cons_of_ne_nil drawn
  have begun : 0 < (Svg.commandsFrom none (interpret text angle length start).segments).countP
      Svg.PenCommand.isMove := by
    rw [Svg.countP_commandsFrom_none, cut, Svg.jumps]
    exact Nat.add_pos_left Nat.one_pos _
  have bound := countP_isMove_le numbers
  have closed := returns_le_count text angle length start
  rw [List.count_eq_zero.mpr unclosed] at closed
  rw [List.count_eq_zero.mpr grounded] at bound
  omega

end

/-! ### Coordinates that are numbers -/

def Point.IsNumber (p : Point Float) : Prop := p.x.isNaN = false ∧ p.y.isNaN = false

instance (p : Point Float) : Decidable p.IsNumber := inferInstanceAs (Decidable (_ ∧ _))

theorem beq_self_of_isNaN {value : Float} (number : value.isNaN = false) :
    (value == value) = true := by
  rw [Float.isNaN_eq_decide_eq_nan, decide_eq_false_iff_not] at number
  exact Float.beq_iff_ne_nan_and_eq.mpr ⟨number, number, .inl rfl⟩

theorem Point.IsNumber.beq_self {p : Point Float} (number : p.IsNumber) : (p == p) = true :=
  Bool.and_eq_true_iff.mpr ⟨beq_self_of_isNaN number.1, beq_self_of_isNaN number.2⟩

/-- In the path of a drawing whose coordinates are numbers, whatever sine and cosine they were computed
with, each lift of the pen after the first belongs to a segment whose stroke is separated from the
stroke before it by a hop or by a return to a saved pose. So there is at most one lift more than there
are hops and returns; and just one if there are neither hops nor closing brackets in the text of the
drawing, and segments. Where strokes that follow each other are not separated so, one segment starts at
the very point where the other ends. -/
theorem subpaths_begin_at_departures [Trigonometry Float] (text : String) (angle length : Float)
    (start : Point Float)
    (numbers : ∀ segment ∈ (interpret text angle length start).segments,
      segment.start.IsNumber ∧ segment.stop.IsNumber) :
    let segments := (interpret text angle length start).segments
    let returns := (Walk.start start).returns angle length (symbols text)
    ∃ commands, Svg.readPath (Svg.pathText segments) = some commands ∧
      (∀ front target rest, commands = front ++ .moveTo target :: rest → front ≠ [] →
        ∃ before first between second after, Successive text before first between second after ∧
          strokes before + 1 = Svg.lineCount front ∧
          (∃ segment, segments[strokes before + 1]? = some segment ∧
            segment.start.map numeralText = target) ∧
          Departs angle length start (before ++ String.singleton first) between) ∧
      commands.countP Svg.PenCommand.isMove ≤ 1 + text.toList.count 'f' + returns ∧
      ('f' ∉ text.toList → ']' ∉ text.toList → segments ≠ [] →
        commands.countP Svg.PenCommand.isMove = 1) ∧
      ∀ before first between second after, Successive text before first between second after →
        ¬Departs angle length start (before ++ String.singleton first) between →
        ∃ one two, segments[strokes before]? = some one ∧
          segments[strokes before + 1]? = some two ∧ two.start = one.stop := by
  intro segments returns
  have stops : ∀ segment ∈ segments, (segment.stop == segment.stop) = true :=
    fun segment member => (numbers segment member).2.beq_self
  refine ⟨_, Svg.readPath_eq (not_mem_numeral (c := ' ') rfl) segments, ?_, ?_, ?_, ?_⟩
  · intro front target rest split inner
    obtain ⟨counted, p, written, lifted⟩ := Svg.liftsAt_of_written split
    obtain ⟨number, lines⟩ := Nat.exists_eq_succ_of_ne_zero
      (Nat.pos_iff_ne_zero.mp (counted.resolve_left inner))
    rw [lines] at lifted ⊢
    obtain ⟨before, first, between, second, after, successive, rfl, departs⟩ :=
      exists_departs_of_liftsAt stops lifted
    obtain ⟨segment, place, rfl, _⟩ := lifted
    exact ⟨before, first, between, second, after, successive, rfl, ⟨segment, place, written⟩,
      departs⟩
  · rw [Svg.countP_isMove_map]
    exact countP_isMove_le stops
  · intro grounded unclosed drawn
    rw [Svg.countP_isMove_map]
    exact countP_isMove_eq_one stops grounded unclosed drawn
  · intro before first between second after successive stays
    exact successive.start_eq_stop stays

/-- A turtle that always looks up draws two strokes in a row, one after a hop in a branch, and one where
the branch was left. -/
theorem broken_off_at_hop_and_return :
    let _ : Trigonometry Float := ⟨fun _ => 0, fun _ => 1⟩
    let start : Point Float := ⟨1, 2⟩
    let segments := (interpret "FXéF[fF]]F" 0 10 start).segments
    (∀ segment ∈ segments, segment.start.IsNumber ∧ segment.stop.IsNumber) ∧
      ∃ commands, Svg.readPath (Svg.pathText segments) = some commands ∧
        commands.countP Svg.PenCommand.isMove ≤ 3 ∧
        ∃ one two, segments[0]? = some one ∧ segments[1]? = some two ∧ two.start = one.stop := by
  intro _ start segments
  have numbers : ∀ segment ∈ segments, segment.start.IsNumber ∧ segment.stop.IsNumber := by
    decide +kernel
  have inRow : Successive "FXéF[fF]]F" "" 'F' "Xé" 'F' "[fF]]F" := by
    constructor <;> decide
  have stays : ¬Departs 0 10 start ("" ++ String.singleton 'F') "Xé" := by
    rintro (hop | returned)
    · exact absurd hop (by decide)
    · exact absurd returned (by decide)
  obtain ⟨commands, read, _, bound, _, together⟩ :=
    subpaths_begin_at_departures "FXéF[fF]]F" 0 10 start numbers
  exact ⟨numbers, commands, read, bound, together _ _ _ _ _ inRow stays⟩

end Frond
