import Mathlib
import Frond.Frames

/-!
The counts of segments that the frames of a drawing show: each is larger than the one before, and
the last one is all of them. The frames are evenly spaced, so far apart that there are never more
than a fixed number of them, and no farther.
-/

namespace Frond

theorem frameEnds_pairwise_lt (count : Nat) : (frameEnds count).Pairwise (· < ·) := by
  apply List.Pairwise.map _ _ (List.pairwise_lt_range.filter _)
  intro i j less
  exact Nat.succ_lt_succ less

theorem bounds_of_mem_frameEnds {count shown : Nat} (member : shown ∈ frameEnds count) :
    1 ≤ shown ∧ shown ≤ count := by
  obtain ⟨i, inside, rfl⟩ := List.mem_map.mp member
  have less := List.mem_range.mp (List.mem_filter.mp inside).1
  exact ⟨Nat.le_add_left 1 i, less⟩

theorem mem_frameEnds_of_dvd {count i : Nat} (inside : i < count)
    (spaced : i % (count / 200 + 1) = 0) : i + 1 ∈ frameEnds count := by
  apply List.mem_map_of_mem
  simp [inside, spaced]

theorem self_mem_frameEnds {count : Nat} (positive : 0 < count) : count ∈ frameEnds count := by
  obtain ⟨n, rfl⟩ := Nat.exists_eq_succ_of_ne_zero positive.ne'
  apply List.mem_map_of_mem
  simp

theorem frameEnds_eq_nil_iff (count : Nat) : frameEnds count = [] ↔ count = 0 := by
  constructor
  · intro none
    by_contra some
    have last := self_mem_frameEnds (Nat.pos_of_ne_zero some)
    rw [none] at last
    cases last
  · rintro rfl
    rfl

theorem frameEnds_head? {count : Nat} (positive : 0 < count) :
    (frameEnds count).head? = some 1 := by
  obtain ⟨n, rfl⟩ := Nat.exists_eq_succ_of_ne_zero positive.ne'
  simp [frameEnds, List.range_succ_eq_map]

theorem frameEnds_getLast? {count : Nat} (positive : 0 < count) :
    (frameEnds count).getLast? = some count := by
  obtain ⟨n, rfl⟩ := Nat.exists_eq_succ_of_ne_zero positive.ne'
  simp [frameEnds, List.range_succ, List.filter_append]

/-- Of two frames that follow each other, the second shows more. -/
theorem frameEnds_lt_next {count k shown next : Nat} (here : (frameEnds count)[k]? = some shown)
    (after : (frameEnds count)[k + 1]? = some next) : shown < next := by
  obtain ⟨inside, rfl⟩ := List.getElem?_eq_some_iff.mp here
  obtain ⟨beyond, rfl⟩ := List.getElem?_eq_some_iff.mp after
  exact List.pairwise_iff_getElem.mp (frameEnds_pairwise_lt count) k (k + 1) inside beyond
    (Nat.lt_succ_self k)

/-- After every segment but the last there is a frame before another spacing is over. -/
theorem exists_frame_after {count n : Nat} (inside : n < count) :
    ∃ shown ∈ frameEnds count, n < shown ∧ shown ≤ n + (count / 200 + 1) := by
  have positive : 0 < count / 200 + 1 := Nat.succ_pos _
  by_cases here : n % (count / 200 + 1) = 0
  · exact ⟨n + 1, mem_frameEnds_of_dvd inside here, Nat.lt_succ_self n, by omega⟩
  · -- The next multiple of the spacing, or the last segment if that comes first.
    have rest := Nat.mod_lt n positive
    have split := Nat.mod_add_div n (count / 200 + 1)
    by_cases beyond : n - n % (count / 200 + 1) + (count / 200 + 1) < count
    · refine ⟨_, mem_frameEnds_of_dvd beyond ?_, by omega, by omega⟩
      have multiple : n - n % (count / 200 + 1) = (count / 200 + 1) * (n / (count / 200 + 1)) := by
        omega
      rw [multiple, Nat.add_mod_right, Nat.mul_mod_right]
    · exact ⟨count, self_mem_frameEnds (by omega), inside, by omega⟩

/-- Of numbers that rise, the one that follows another is the least above it. -/
theorem le_of_rising {numbers before after : List Nat} {here next other : Nat}
    (rising : numbers.Pairwise (· < ·)) (split : numbers = before ++ here :: next :: after)
    (member : other ∈ numbers) (above : here < other) : next ≤ other := by
  subst split
  obtain ⟨_, tail, lower⟩ := List.pairwise_append.mp rising
  have higher := (List.pairwise_cons.mp (List.pairwise_cons.mp tail).2).1
  rcases List.mem_append.mp member with earlier | later
  · have below := lower other earlier here List.mem_cons_self
    omega
  · rcases List.mem_cons.mp later with rfl | later
    · exact absurd above (lt_irrefl _)
    · rcases List.mem_cons.mp later with rfl | last
      · exact le_rfl
      · exact (higher other last).le

/-- From no segment to the first frame, and from each frame to the next, it is one spacing at
most. -/
theorem frameEnds_isChain (count : Nat) :
    (0 :: frameEnds count).IsChain fun shown next => next ≤ shown + (count / 200 + 1) := by
  have rising : (0 :: frameEnds count).Pairwise (· < ·) := by
    refine List.pairwise_cons.mpr ⟨?_, frameEnds_pairwise_lt count⟩
    intro shown member
    exact (bounds_of_mem_frameEnds member).1
  have bounded : ∀ shown ∈ 0 :: frameEnds count, shown ≤ count := by
    intro shown member
    rcases List.mem_cons.mp member with rfl | framed
    · exact Nat.zero_le count
    · exact (bounds_of_mem_frameEnds framed).2
  apply List.isChain_iff_forall_rel_of_append_cons_cons.mpr
  intro shown next before after split
  have less : shown < next := by
    have tail := (List.pairwise_append.mp (split ▸ rising)).2.1
    exact (List.pairwise_cons.mp tail).1 next List.mem_cons_self
  have most : next ≤ count := bounded next (by simp [split])
  obtain ⟨other, framed, above, near⟩ := exists_frame_after (less.trans_le most)
  exact (le_of_rising rising split (List.mem_cons_of_mem 0 framed) above).trans near

/-- Before the last frame there is one for every multiple of the spacing. -/
theorem frameEnds_succ (n : Nat) :
    frameEnds (n + 1) =
      ((List.range n).filter fun i => i % ((n + 1) / 200 + 1) == 0).map (· + 1) ++ [n + 1] := by
  have early : (List.range n).filter (fun i => i % ((n + 1) / 200 + 1) == 0 || i + 1 == n + 1) =
      (List.range n).filter fun i => i % ((n + 1) / 200 + 1) == 0 := by
    apply List.filter_congr
    intro i member
    have less := List.mem_range.mp member
    have early : (i + 1 == n + 1) = false := by
      rw [beq_eq_false_iff_ne]
      omega
    rw [early, Bool.or_false]
  simp only [frameEnds, List.range_succ, List.filter_append, early, List.map_append]
  simp

theorem countP_range_dvd_mul_lt {step : Nat} (positive : 0 < step) (n : Nat) :
    (List.range n).countP (fun i => i % step == 0) * step < n + step := by
  induction n with
  | zero => simpa using positive
  | succ n ih =>
      rw [List.range_succ, List.countP_append, List.countP_singleton]
      generalize (List.range n).countP (fun i => i % step == 0) = multiples at ih
      split
      case isTrue multiple =>
        -- The next multiple is `step * q`, when no more than `q` have been counted.
        obtain ⟨q, rfl⟩ := Nat.dvd_of_mod_eq_zero (beq_iff_eq.mp multiple)
        have before : multiples * step < (q + 1) * step := by
          calc multiples * step < step * q + step := ih
            _ = (q + 1) * step := by rw [Nat.succ_mul, Nat.mul_comm]
        have few : multiples ≤ q := Nat.le_of_lt_succ (Nat.lt_of_mul_lt_mul_right before)
        calc (multiples + 1) * step ≤ (q + 1) * step := Nat.mul_le_mul_right step (by omega)
          _ < step * q + 1 + step := by
            rw [Nat.succ_mul, Nat.mul_comm]
            omega
      case isFalse =>
        rw [Nat.add_zero]
        omega

theorem length_frameEnds_le (count : Nat) : (frameEnds count).length ≤ maxFrames := by
  cases count with
  | zero => decide
  | succ n =>
      have positive : 0 < (n + 1) / 200 + 1 := Nat.succ_pos _
      have bound := countP_range_dvd_mul_lt positive n
      have spaced : (List.range n).countP (fun i => i % ((n + 1) / 200 + 1) == 0) < 201 := by
        apply Nat.lt_of_mul_lt_mul_right (a := (n + 1) / 200 + 1)
        omega
      rw [frameEnds_succ, List.length_append, List.length_map, ← List.countP_eq_length_filter]
      exact spaced

/-- A drawing of few segments has a frame for each. -/
theorem frameEnds_of_few {count : Nat} (few : count ≤ 199) :
    frameEnds count = List.range' 1 count := by
  have spacing : count / 200 + 1 = 1 := by omega
  simp [frameEnds, spacing, Nat.mod_one, List.range'_eq_map_range, Nat.add_comm]

end Frond
