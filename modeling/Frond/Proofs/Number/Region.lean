import Mathlib
import Frond.Proofs.Number.Arithmetic

/-!
Values that small steps do not lead away from. Numbers up to a power of two stay below it, as what
exceeds it is rounded off again, and a number far beyond it does not move at all. So from any finite
number on, adding small ones comes to finite numbers only, however often it is done.
-/

namespace Frond

open Float.Model.UnpackedFloat (Sign)

/-- A double is finite, and no larger than a step of a turtle can be. -/
def Small (number : Float) : Prop := ∃ d, Denotes number d ∧ |d| ≤ 2 ^ (33 : ℤ)

theorem denotes_zero : Denotes 0 0 := .zero .positive

theorem small_zero : Small 0 := ⟨0, denotes_zero, abs_zero.trans_le (two_zpow_pos _).le⟩

/-- The value of a power of two, by its parts. -/
theorem denotes_power (sign : Sign) (e : ℤ) {number : Float} {x : ℚ}
    (parts : number.toModel.unpack = .finite sign (2 ^ 52) e (by norm_num)) (lowest : -1074 ≤ e)
    (value : x = sign.apply (2 ^ 52 : Nat) * 2 ^ e) : Denotes number x := by
  rw [Denotes, parts, value]
  exact .finite sign _ (by norm_num) lowest (.inr le_rfl)

theorem small_of_between {number : Float} (above : -64.0 ≤ number) (below : number ≤ 64.0) :
    Small number := by
  have lower : Denotes (-64.0) (-2 ^ 6) :=
    denotes_power .negative (-46) rfl (by norm_num) (by norm_num [Sign.apply])
  have upper : Denotes 64.0 (2 ^ 6) :=
    denotes_power .positive (-46) rfl (by norm_num) (by norm_num [Sign.apply])
  obtain ⟨d, denotes, least, most⟩ := denotes_of_between lower upper above below
  have size : |d| ≤ 2 ^ (6 : ℤ) := abs_le.mpr ⟨least, most⟩
  exact ⟨d, denotes, size.trans (two_zpow_le (by norm_num))⟩

/-- The product of a count and a part of one is no larger than the count. -/
theorem small_mul (count : UInt32) {part : Float} (above : -1.0 ≤ part) (below : part ≤ 1.0) :
    Small (count.toFloat * part) := by
  have lower : Denotes (-1.0) (-1) :=
    denotes_power .negative (-52) rfl (by norm_num) (by norm_num [Sign.apply])
  have upper : Denotes 1.0 1 :=
    denotes_power .positive (-52) rfl (by norm_num) (by norm_num [Sign.apply])
  obtain ⟨d, right, least, most⟩ := denotes_of_between lower upper above below
  obtain ⟨n, left, size⟩ := denotes_toFloat count
  have unit : |d| ≤ 1 := abs_le.mpr ⟨least, most⟩
  have product : |n * d| ≤ 2 ^ (32 : ℤ) := by
    calc |n * d| = |n| * |d| := abs_mul n d
      _ ≤ 2 ^ (32 : ℤ) * 1 := mul_le_mul size unit (abs_nonneg d) (two_zpow_pos _).le
      _ = 2 ^ (32 : ℤ) := mul_one _
  obtain ⟨z, rounds, denotes⟩ := denotes_mul left right fun z rounds =>
    rounds.lt_of_le (by norm_num) (by norm_num) product
  refine ⟨z, denotes, (rounds.abs_le_of_le (by norm_num) product).trans (two_zpow_le (by norm_num))⟩

/-- Values that are not left by small steps, nor by measuring the distance between two of them and
going it. -/
structure Region (region : ℚ → Prop) : Prop where
  fits : ∀ {x}, region x → |x| < 2 ^ (1024 : ℤ)
  shift : ∀ {x d z}, region x → |d| ≤ 2 ^ (33 : ℤ) → Rounds (x + d) z → region z
  extent : ∀ {x y w}, region x → region y → Rounds (y - x) w → |w| ≤ 2 ^ (101 : ℤ)
  span : ∀ {x y w z}, region x → region y → Rounds (y - x) w → Rounds (x + w) z → region z

/-- A double is finite, and its value is of a region. -/
def Among (region : ℚ → Prop) (number : Float) : Prop := ∃ x, Denotes number x ∧ region x

theorem Among.isFinite {region : ℚ → Prop} {number : Float} (among : Among region number) :
    number.isFinite = true := by
  obtain ⟨x, denotes, _⟩ := among
  exact denotes.isFinite

theorem abs_sub_le_of_near {x y : ℚ} (here : |x| ≤ 2 ^ (100 : ℤ)) (there : |y| ≤ 2 ^ (100 : ℤ)) :
    |y - x| ≤ 2 ^ (100 + 1 : ℤ) := by
  calc |y - x| ≤ |y| + |x| := abs_sub y x
    _ ≤ 2 ^ (100 : ℤ) * 2 := by linarith
    _ = 2 ^ (100 + 1 : ℤ) := (zpow_add_one₀ two_ne_zero 100).symm

theorem region_near : Region (|·| ≤ 2 ^ (100 : ℤ)) where
  fits := by
    intro x near
    exact near.trans_lt (zpow_lt_zpow_right₀ one_lt_two (by norm_num))
  shift := by
    intro x d z near small rounds
    have little : |d| ≤ 2 ^ (100 - 53 : ℤ) := small.trans (two_zpow_le (by norm_num))
    apply rounds.abs_le_pow (by norm_num)
    exact (abs_add_le x d).trans (add_le_add near little)
  extent := by
    intro x y w here there rounds
    exact rounds.abs_le_of_le (by norm_num) (abs_sub_le_of_near here there)
  span := by
    intro x y w z here there measured gone
    have error := measured.close (by norm_num) (abs_sub_le_of_near here there)
    apply gone.abs_le_pow (by norm_num)
    calc |x + w| = |y + (w - (y - x))| := by ring_nf
      _ ≤ |y| + |w - (y - x)| := abs_add_le _ _
      _ ≤ 2 ^ (100 : ℤ) + 2 ^ (100 - 53 : ℤ) := add_le_add there error

/-- A double that is so large does not move. -/
theorem region_far {y : ℚ} {m : Nat} {e : ℤ} (grid : Grid |y| e) (double : |y| = m * 2 ^ e)
    (far : 2 ^ (100 : ℤ) ≤ |y|) (fits : |y| < 2 ^ (1024 : ℤ)) : Region (· = y) where
  fits := by
    rintro _ rfl
    exact fits
  shift := by
    rintro _ d z rfl small rounds
    apply rounds.eq_of_close grid double (by norm_num) far
    exact small.trans (two_zpow_le (by norm_num))
  extent := by
    rintro _ _ w rfl rfl rounds
    rw [sub_self] at rounds
    rw [rounds.eq_zero, abs_zero]
    exact (two_zpow_pos _).le
  span := by
    rintro _ _ w z rfl rfl measured gone
    rw [sub_self] at measured
    rw [measured.eq_zero] at gone
    apply gone.eq_of_close grid double (by norm_num) far
    rw [abs_zero]
    exact (two_zpow_pos _).le

/-- Every finite number is in a region. -/
theorem exists_region {number : Float} (finite : number.isFinite = true) :
    ∃ region, Region region ∧ Among region number := by
  obtain ⟨x, denotes, fits⟩ := denotes_of_isFinite finite
  rcases le_total |x| (2 ^ (100 : ℤ)) with near | far
  · exact ⟨_, region_near, x, denotes, near⟩
  · obtain ⟨m, e, grid, double⟩ := Binary64.Denotes.grid denotes
    exact ⟨_, region_far grid double far fits, x, denotes, rfl⟩

variable {region : ℚ → Prop} (closed : Region region) {a b : Float}

include closed

theorem Among.add (among : Among region a) (small : Small b) : Among region (a + b) := by
  obtain ⟨x, left, here⟩ := among
  obtain ⟨d, right, step⟩ := small
  obtain ⟨z, rounds, denotes⟩ := denotes_add left right fun z rounds =>
    closed.fits (closed.shift here step rounds)
  exact ⟨z, denotes, closed.shift here step rounds⟩

theorem Among.sub (among : Among region a) (small : Small b) : Among region (a - b) := by
  obtain ⟨x, left, here⟩ := among
  obtain ⟨d, right, step⟩ := small
  have back : |-d| ≤ 2 ^ (33 : ℤ) := (abs_neg d).trans_le step
  obtain ⟨z, rounds, denotes⟩ := denotes_sub left right fun z rounds => by
    rw [sub_eq_add_neg] at rounds
    exact closed.fits (closed.shift here back rounds)
  rw [sub_eq_add_neg] at rounds
  exact ⟨z, denotes, closed.shift here back rounds⟩

/-- Measuring from one number of a region to another and going as far comes to the region again. -/
theorem Among.span (low : Among region a) (high : Among region b) :
    (∃ w, Denotes (b - a) w ∧ |w| ≤ 2 ^ (101 : ℤ)) ∧ Among region (a + (b - a)) := by
  obtain ⟨x, left, here⟩ := low
  obtain ⟨y, right, there⟩ := high
  obtain ⟨w, measured, width⟩ := denotes_sub right left fun w rounds =>
    (closed.extent here there rounds).trans_lt (zpow_lt_zpow_right₀ one_lt_two (by norm_num))
  obtain ⟨z, gone, denotes⟩ := denotes_add left width fun z rounds =>
    closed.fits (closed.span here there measured rounds)
  exact ⟨⟨w, width, closed.extent here there measured⟩, z, denotes,
    closed.span here there measured gone⟩

end Frond
