import Mathlib
import Frond.Proofs.Geometry.Boxes
import Frond.Proofs.Number.Finite
import Frond.Proofs.Number.Region

/-!
Boxes around points of a region. A box keeps its extent and not its upper end, which is found again
by addition whenever a point is put in; in a region that does not lead away.
-/

namespace Frond

/-- A box reaches from one number of a region to another. Its extent was measured between them, and
is added to the lower end again before the next point is put in. -/
structure Box.Stretched (region : ℚ → Prop) (axis : Axis) (box : Box Float) : Prop where
  low : Among region (box.low axis)
  high : Among region (box.low axis + box.extent axis)
  extent : ∃ w, Denotes (box.extent axis) w ∧ |w| ≤ 2 ^ (101 : ℤ)

namespace Box.Stretched

variable {region : ℚ → Prop} (closed : Region region) {axis : Axis} {box : Box Float}
  {point : Point Float}

include closed

theorem ofPoint (inside : Among region (point.at axis)) :
    (Box.ofPoint point).Stretched region axis := by
  constructor
  · rw [low_ofPoint]
    exact inside
  · rw [low_ofPoint, extent_ofPoint]
    exact .add closed inside small_zero
  · rw [extent_ofPoint]
    exact ⟨0, denotes_zero, abs_zero.trans_le (two_zpow_pos _).le⟩

theorem insert (stretched : box.Stretched region axis)
    (inside : Among region (point.at axis)) : (box.insert point).Stretched region axis := by
  have least : Among region (Extremes.least (box.low axis) (point.at axis)) := by
    rcases least_eq_or (box.low axis) (point.at axis) with same | same
    · rw [same]
      exact stretched.low
    · rw [same]
      exact inside
  have greatest : Among region
      (Extremes.greatest (box.low axis + box.extent axis) (point.at axis)) := by
    rcases greatest_eq_or (box.low axis + box.extent axis) (point.at axis) with same | same
    · rw [same]
      exact stretched.high
    · rw [same]
      exact inside
  obtain ⟨extent, spanned⟩ := Among.span closed least greatest
  constructor
  · rw [Box.low_insert]
    exact least
  · rw [Box.low_insert, Box.extent_insert]
    exact spanned
  · rw [Box.extent_insert]
    exact extent

/-- A small margin around such a box leaves it finite. -/
theorem isFinite_padded (stretched : box.Stretched region axis) {margin : Float}
    (padding : Small margin) (margins : Small (margin + margin)) :
    ((box.padded margin).low axis).isFinite = true ∧
      ((box.padded margin).extent axis).isFinite = true := by
  obtain ⟨w, extent, width⟩ := stretched.extent
  obtain ⟨d, added, little⟩ := margins
  have total : |w + d| ≤ 2 ^ (102 : ℤ) := by
    calc |w + d| ≤ |w| + |d| := abs_add_le w d
      _ ≤ 2 ^ (101 : ℤ) + 2 ^ (101 : ℤ) :=
        add_le_add width (little.trans (two_zpow_le (by norm_num)))
      _ = 2 ^ (102 : ℤ) := by norm_num
  obtain ⟨z, _, padded⟩ := denotes_add extent added fun z rounds =>
    rounds.lt_of_le (by norm_num) (by norm_num) total
  rw [Box.low_padded, Box.extent_padded]
  exact ⟨(Among.sub closed stretched.low padding).isFinite, padded.isFinite⟩

end Box.Stretched

end Frond
