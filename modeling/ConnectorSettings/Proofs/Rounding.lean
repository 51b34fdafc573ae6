/-
This file proves that rounding a fraction finds the nearest number of the format, and none exactly
if the fraction is too large for one.

A fraction is counted in steps, whose size leaves the number as many bits as the format has; its
highest bit gives the size. A whole number of steps that is nearest to the fraction is nearer than
any other of them. A number of the format with larger steps is a whole number of the small ones too,
and one with smaller steps lies below the first number that fills the bits, which is a whole number
of steps that the fraction has reached. So no number is nearer, and where one is as near, the
fraction lies in the middle between two whole numbers of steps, of which the even one is taken.
Where the count comes to a bit too many, it is even and carries.
-/

import ConnectorSettings.Number.Rounding
import Mathlib.Algebra.Order.Field.Power
import Mathlib.Tactic.FieldSimp
import Mathlib.Tactic.Linarith
import Mathlib.Tactic.Positivity
import Mathlib.Tactic.Ring

namespace ConnectorSettings

namespace Binary64

/-! ### Fractions -/

theorem scaled_positive (significand : Nat) (exponent : Int) :
    0 < (scaled significand exponent).2 := by
  unfold scaled
  split
  · exact Nat.one_pos
  · exact Nat.pow_pos Nat.two_pos

theorem scaled_ratio (significand : Nat) (exponent : Int) :
    ((scaled significand exponent).1 : ℚ) / (scaled significand exponent).2 =
      significand * 2 ^ exponent := by
  unfold scaled
  split
  · next nonnegative =>
    obtain ⟨power, rfl⟩ := Int.eq_ofNat_of_zero_le nonnegative
    simp
  · next negative =>
    obtain ⟨power, same⟩ := Int.eq_ofNat_of_zero_le (by omega : 0 ≤ -exponent)
    obtain rfl : exponent = -(power : Int) := by omega
    simp [div_eq_mul_inv]

theorem step_positive (exponent : Int) : (0 : ℚ) < 2 ^ exponent := zpow_pos two_pos exponent

theorem scaled_one_ratio (exponent : Int) :
    ((scaled 1 exponent).1 : ℚ) / (scaled 1 exponent).2 = 2 ^ exponent := by
  rw [scaled_ratio, Nat.cast_one, one_mul]

theorem scaled_one_positive (exponent : Int) : 0 < (scaled 1 exponent).1 := by
  have unit : (0 : ℚ) < (scaled 1 exponent).2 := Nat.cast_pos.mpr (scaled_positive 1 exponent)
  have power : ((scaled 1 exponent).1 : ℚ) = 2 ^ exponent * (scaled 1 exponent).2 :=
    (div_eq_iff unit.ne').mp (scaled_one_ratio exponent)
  exact Nat.cast_pos.mp (power ▸ mul_pos (step_positive exponent) unit : (0 : ℚ) < _)

theorem divideRounding_bounds (numerator : Nat) {denominator : Nat} (positive : 0 < denominator) :
    let steps := denominator * divideRounding numerator denominator
    2 * numerator ≤ 2 * steps + denominator ∧ 2 * steps ≤ 2 * numerator + denominator ∧
      (2 * numerator = 2 * steps + denominator ∨ 2 * steps = 2 * numerator + denominator →
        divideRounding numerator denominator % 2 = 0) := by
  have split := Nat.div_add_mod numerator denominator
  have less := Nat.mod_lt numerator positive
  have next : denominator * (numerator / denominator + 1) =
      denominator * (numerator / denominator) + denominator := Nat.mul_succ ..
  simp only [divideRounding]
  split
  · omega
  split
  · omega
  · rcases Nat.mod_two_eq_zero_or_one (numerator / denominator) with even | odd
    · rw [even, Nat.add_zero]
      omega
    · rw [odd, next]
      omega

theorem divideRounding_near (numerator : Nat) {denominator : Nat} (positive : 0 < denominator) :
    |(numerator : ℚ) / denominator - divideRounding numerator denominator| ≤ 1 / 2 ∧
      (|(numerator : ℚ) / denominator - divideRounding numerator denominator| = 1 / 2 →
        divideRounding numerator denominator % 2 = 0) := by
  obtain ⟨most, least, even⟩ := divideRounding_bounds numerator positive
  have scale : (0 : ℚ) < denominator := Nat.cast_pos.mpr positive
  have quotient : (numerator : ℚ) = numerator / denominator * denominator :=
    (div_mul_cancel₀ _ scale.ne').symm
  refine ⟨abs_le.mpr ⟨?_, ?_⟩, fun tie => even ?_⟩
  · have le : (2 : ℚ) * (denominator * divideRounding numerator denominator) ≤
        2 * numerator + denominator := by exact_mod_cast least
    rw [quotient] at le
    nlinarith
  · have le : (2 : ℚ) * numerator ≤
        2 * (denominator * divideRounding numerator denominator) + denominator := by
      exact_mod_cast most
    rw [quotient] at le
    nlinarith
  · rcases eq_or_eq_neg_of_abs_eq tie with above | below
    · left
      have same : (2 : ℚ) * numerator =
          2 * (denominator * divideRounding numerator denominator) + denominator := by
        rw [quotient, sub_eq_iff_eq_add.mp above]
        ring
      exact_mod_cast same
    · right
      have same : (2 : ℚ) * (denominator * divideRounding numerator denominator) =
          2 * numerator + denominator := by
        rw [quotient, sub_eq_iff_eq_add.mp below]
        ring
      exact_mod_cast same

/-! ### The highest bit -/

theorem log2_bounds {number : Nat} (filled : 0 < number) :
    (2 : ℚ) ^ (number.log2 : Int) ≤ number ∧ (number : ℚ) < 2 ^ (number.log2 + 1 : Int) := by
  constructor
  · exact_mod_cast Nat.log2_self_le filled.ne'
  · exact_mod_cast Nat.lt_log2_self

theorem estimate_bounds {numerator denominator : Nat} (filled : 0 < numerator)
    (positive : 0 < denominator) :
    let estimate : Int := (numerator.log2 : Int) - denominator.log2
    (2 : ℚ) ^ (estimate - 1) ≤ numerator / denominator ∧
      (numerator : ℚ) / denominator < 2 ^ (estimate + 1) := by
  intro estimate
  have scale : (0 : ℚ) < denominator := Nat.cast_pos.mpr positive
  obtain ⟨leastAbove, mostAbove⟩ := log2_bounds filled
  obtain ⟨leastBelow, mostBelow⟩ := log2_bounds positive
  constructor
  · rw [le_div_iff₀ scale]
    calc (2 : ℚ) ^ (estimate - 1) * denominator
        ≤ 2 ^ (estimate - 1) * 2 ^ (denominator.log2 + 1 : Int) :=
          mul_le_mul_of_nonneg_left mostBelow.le (step_positive _).le
      _ = 2 ^ (numerator.log2 : Int) := by
          rw [← zpow_add₀ two_ne_zero]
          congr 1
          omega
      _ ≤ numerator := leastAbove
  · rw [div_lt_iff₀ scale]
    calc (numerator : ℚ) < 2 ^ (numerator.log2 + 1 : Int) := mostAbove
      _ = 2 ^ (estimate + 1) * 2 ^ (denominator.log2 : Int) := by
          rw [← zpow_add₀ two_ne_zero]
          congr 1
          omega
      _ ≤ 2 ^ (estimate + 1) * denominator :=
          mul_le_mul_of_nonneg_left leastBelow (step_positive _).le

theorem lt_scaled_iff (numerator : Nat) {denominator : Nat} (positive : 0 < denominator)
    (exponent : Int) :
    numerator * (scaled 1 exponent).2 < denominator * (scaled 1 exponent).1 ↔
      (numerator : ℚ) / denominator < 2 ^ exponent := by
  have scale : (0 : ℚ) < denominator := Nat.cast_pos.mpr positive
  have unit : (0 : ℚ) < (scaled 1 exponent).2 := Nat.cast_pos.mpr (scaled_positive 1 exponent)
  rw [← scaled_one_ratio, div_lt_div_iff₀ scale unit,
    mul_comm (((scaled 1 exponent).1 : Nat) : ℚ)]
  exact_mod_cast Iff.rfl

theorem magnitude_bounds {numerator denominator : Nat} (filled : 0 < numerator)
    (positive : 0 < denominator) :
    (2 : ℚ) ^ magnitude numerator denominator ≤ numerator / denominator ∧
      (numerator : ℚ) / denominator < 2 ^ (magnitude numerator denominator + 1) := by
  obtain ⟨least, most⟩ := estimate_bounds filled positive
  simp only [magnitude]
  split
  · next below =>
    rw [sub_add_cancel]
    exact ⟨least, (lt_scaled_iff numerator positive _).mp below⟩
  · next above =>
    exact ⟨not_lt.mp (mt (lt_scaled_iff numerator positive _).mpr above), most⟩

/-! ### Numbers of the format -/

/-- A number is so many steps of a size that is no larger than its own. -/
theorem value_eq_steps (number : Binary64) {exponent : Int} (le : exponent ≤ number.exponent) :
    number.value =
      (number.significand * 2 ^ (number.exponent - exponent).toNat : Nat) * 2 ^ exponent := by
  have split : (2 : ℚ) ^ number.exponent =
      2 ^ (number.exponent - exponent).toNat * 2 ^ exponent := by
    rw [← zpow_natCast, ← zpow_add₀ two_ne_zero, Int.toNat_of_nonneg (by omega), sub_add_cancel]
  rw [value, split, Nat.cast_mul, Nat.cast_pow, Nat.cast_ofNat, mul_assoc]

namespace IsNormal

/-- Every number with a smaller step is below those that fill the bits. -/
theorem value_lt {number : Binary64} (normal : number.IsNormal) {exponent : Int}
    (less : number.exponent < exponent) : number.value < 2 ^ 52 * 2 ^ exponent := by
  have short : (number.significand : ℚ) < 2 ^ 53 := by exact_mod_cast normal.short
  have halved : (2 : ℚ) ^ (exponent - 1) = 2 ^ exponent / 2 := zpow_sub_one₀ two_ne_zero exponent
  have smaller : (2 : ℚ) ^ number.exponent ≤ 2 ^ (exponent - 1) :=
    zpow_le_zpow_right₀ one_le_two (by omega)
  calc number.value < 2 ^ 53 * 2 ^ number.exponent :=
        mul_lt_mul_of_pos_right short (step_positive _)
    _ ≤ 2 ^ 53 * 2 ^ (exponent - 1) := mul_le_mul_of_nonneg_left smaller (by positivity)
    _ = 2 ^ 52 * 2 ^ exponent := by
        rw [halved]
        ring

theorem value_ge {number : Binary64} (normal : number.IsNormal)
    (larger : -1074 < number.exponent) : 2 ^ 52 * 2 ^ number.exponent ≤ number.value := by
  have filled : (2 ^ 52 : ℚ) ≤ number.significand := by
    exact_mod_cast normal.filled.resolve_right larger.ne'
  exact mul_le_mul_of_nonneg_right filled (step_positive _).le

theorem exponent_le_of_value {left right : Binary64} (normal : left.IsNormal)
    (other : right.IsNormal) (same : left.value = right.value) :
    right.exponent ≤ left.exponent := by
  by_contra less
  have filled := other.value_ge (normal.least.trans_lt (not_le.mp less))
  have below := normal.value_lt (not_le.mp less)
  rw [same] at below
  exact absurd filled (not_le.mpr below)

/-- A number has one form. -/
theorem eq_of_value {left right : Binary64} (normal : left.IsNormal) (other : right.IsNormal)
    (same : left.value = right.value) : left = right := by
  have exponents : left.exponent = right.exponent :=
    le_antisymm (other.exponent_le_of_value normal same.symm)
      (normal.exponent_le_of_value other same)
  rw [value, value, exponents] at same
  have significands : left.significand = right.significand := by
    exact_mod_cast mul_right_cancel₀ (step_positive right.exponent).ne' same
  cases left
  cases right
  exact congrArg₂ Binary64.mk significands exponents

end IsNormal

/-! ### Steps -/

/-- Counted in steps of `2 ^ exponent`, the fraction is nearest to a whole number of them, an even
one where two are as near. The steps are the smallest of the format of which less than `2 ^ 53`
reach the fraction. -/
structure IsStepped (exact : ℚ) (exponent : Int) (steps : Nat) : Prop where
  least : -1074 ≤ exponent
  below : exact < 2 ^ 53 * 2 ^ exponent
  above : 2 ^ 52 * 2 ^ exponent ≤ exact ∨ exponent = -1074
  near : |exact - steps * 2 ^ exponent| ≤ 2 ^ exponent / 2
  even : |exact - steps * 2 ^ exponent| = 2 ^ exponent / 2 → steps % 2 = 0

namespace IsStepped

variable {exact : ℚ} {exponent : Int} {steps : Nat}

theorem steps_le (stepped : IsStepped exact exponent steps) : steps ≤ 2 ^ 53 := by
  by_contra more
  have next : (2 ^ 53 + 1 : ℚ) ≤ steps := by exact_mod_cast Nat.succ_le_of_lt (not_le.mp more)
  have near := (abs_le.mp stepped.near).1
  have below := stepped.below
  have step := step_positive exponent
  nlinarith

theorem filled (stepped : IsStepped exact exponent steps) : 2 ^ 52 ≤ steps ∨ exponent = -1074 := by
  refine stepped.above.imp_left fun above => ?_
  by_contra less
  have next : (steps + 1 : ℚ) ≤ 2 ^ 52 := by exact_mod_cast Nat.succ_le_of_lt (not_le.mp less)
  have near := (abs_le.mp stepped.near).2
  have step := step_positive exponent
  nlinarith

/-- No other number of steps is nearer. One that is as near is half a step away, and one of the two
is even and the other odd. -/
theorem near_other (stepped : IsStepped exact exponent steps) (others : Nat) :
    |exact - steps * 2 ^ exponent| ≤ |exact - others * 2 ^ exponent| ∧
      (others ≠ steps → |exact - others * 2 ^ exponent| = |exact - steps * 2 ^ exponent| →
        |exact - steps * 2 ^ exponent| = 2 ^ exponent / 2 ∧ others % 2 ≠ steps % 2) := by
  by_cases same : others = steps
  · rw [same]
    exact ⟨le_rfl, fun differ => absurd rfl differ⟩
  · have step := step_positive exponent
    have near := stepped.near
    have apart : |(others : ℚ) * 2 ^ exponent - steps * 2 ^ exponent| =
        |(others : ℚ) - steps| * 2 ^ exponent := by
      rw [← sub_mul, abs_mul, abs_of_pos step]
    have whole : (1 : ℚ) ≤ |(others : ℚ) - steps| := by
      have differ : (1 : Int) ≤ |(others : Int) - steps| := Int.one_le_abs (by omega)
      exact_mod_cast differ
    have triangle : |(others : ℚ) * 2 ^ exponent - steps * 2 ^ exponent| ≤
        |exact - steps * 2 ^ exponent| + |exact - others * 2 ^ exponent| := by
      rw [abs_sub_comm exact (others * 2 ^ exponent), add_comm]
      exact abs_sub_le _ exact _
    have far : (2 : ℚ) ^ exponent ≤ |(others : ℚ) - steps| * 2 ^ exponent :=
      le_mul_of_one_le_left step.le whole
    rw [apart] at triangle
    refine ⟨by linarith, fun _ tie => ⟨by linarith, ?_⟩⟩
    have next : |(others : ℚ) - steps| = 1 :=
      le_antisymm (le_of_mul_le_mul_right (by linarith) step) whole
    have nextWhole : |(others : Int) - steps| = 1 := by exact_mod_cast next
    rcases eq_or_eq_neg_of_abs_eq nextWhole with above | below <;> omega

/-- No number of the format is nearer. One that is as near is half a step away, and its significand
is odd. -/
theorem near_number (stepped : IsStepped exact exponent steps) {other : Binary64}
    (normal : other.IsNormal) :
    |exact - steps * 2 ^ exponent| ≤ |exact - other.value| ∧
      (other.value ≠ steps * 2 ^ exponent →
        |exact - other.value| = |exact - steps * 2 ^ exponent| →
          |exact - steps * 2 ^ exponent| = 2 ^ exponent / 2 ∧ other.significand % 2 = 1) := by
  by_cases le : exponent ≤ other.exponent
  · obtain ⟨nearest, tie⟩ := stepped.near_other
      (other.significand * 2 ^ (other.exponent - exponent).toNat)
    rw [value_eq_steps other le]
    refine ⟨nearest, fun differ asNear => ?_⟩
    obtain ⟨half, parity⟩ := tie (fun same => differ (by rw [same])) asNear
    refine ⟨half, ?_⟩
    by_contra even
    rw [stepped.even half, Nat.mul_mod, (by omega : other.significand % 2 = 0)] at parity
    simp at parity
  · have less := normal.value_lt (not_le.mp le)
    have above : 2 ^ 52 * 2 ^ exponent ≤ exact :=
      stepped.above.resolve_right (by have := normal.least; omega)
    have filled := (stepped.near_other (2 ^ 52)).1
    rw [Nat.cast_pow, Nat.cast_ofNat, abs_of_nonneg (sub_nonneg.mpr above)] at filled
    have away : |exact - other.value| = exact - other.value := abs_of_pos (by linarith)
    exact ⟨by linarith, fun _ asNear => by linarith⟩

/-! ### Carrying -/

theorem value_carried (exponent : Int) {steps : Nat} :
    (carried steps exponent).value = steps * 2 ^ exponent := by
  unfold carried
  split
  · next full =>
    rw [full, value, zpow_add_one₀ two_ne_zero]
    push_cast
    ring
  · rfl

theorem even_carried {steps : Nat} (exponent : Int) (even : steps % 2 = 0) :
    (carried steps exponent).significand % 2 = 0 := by
  unfold carried
  split
  · show Nat.pow 2 52 % 2 = 0
    decide
  · exact even

theorem isNormal_carried (stepped : IsStepped exact exponent steps)
    (greatest : (carried steps exponent).exponent ≤ 971) : (carried steps exponent).IsNormal := by
  have le := stepped.steps_le
  have least := stepped.least
  have filled := stepped.filled
  revert greatest
  unfold carried
  split
  · exact fun greatest => ⟨Nat.pow_lt_pow_right (by decide) (by decide), Int.le_add_one least,
      greatest, .inl le_rfl⟩
  · next notFull =>
    exact fun greatest => ⟨lt_of_le_of_ne le notFull, least, greatest, filled⟩

/-- The steps come to a bit too many exactly if the fraction is no more than half a step below
them. -/
theorem steps_ne_iff (stepped : IsStepped exact exponent steps) :
    steps ≠ 2 ^ 53 ↔ exact < (2 ^ 53 - 1 / 2) * 2 ^ exponent := by
  have step := step_positive exponent
  constructor
  · intro notFull
    by_contra above
    -- Nothing but a tie is left, with the last number of steps before, which is odd.
    have last : steps + 1 ≤ 2 ^ 53 := lt_of_le_of_ne stepped.steps_le notFull
    have lastCast : (steps : ℚ) + 1 ≤ 2 ^ 53 := by exact_mod_cast last
    have most : (steps : ℚ) * 2 ^ exponent ≤ (2 ^ 53 - 1) * 2 ^ exponent :=
      mul_le_mul_of_nonneg_right (by linarith) step.le
    have half : exact - steps * 2 ^ exponent = 2 ^ exponent / 2 := by
      have near := (abs_le.mp stepped.near).2
      linarith
    have least : (2 ^ 53 - 1 : ℚ) ≤ steps := le_of_mul_le_mul_right (by linarith) step
    have reached : 2 ^ 53 ≤ steps + 1 := by exact_mod_cast (by linarith : (2 ^ 53 : ℚ) ≤ steps + 1)
    have parity := stepped.even (by rw [half, abs_of_pos (half_pos step)])
    omega
  · rintro bounded rfl
    have near := (abs_le.mp stepped.near).1
    rw [Nat.cast_pow, Nat.cast_ofNat] at near
    linarith

/-- The exponent is one of the format exactly if the fraction is less than half a step above the
largest number. -/
theorem exponent_carried_le_iff (stepped : IsStepped exact exponent steps) :
    (carried steps exponent).exponent ≤ 971 ↔ exact < (2 ^ 53 - 1 / 2) * 2 ^ (971 : Int) := by
  rcases lt_trichotomy exponent 971 with small | rfl | more
  · have fits : (carried steps exponent).exponent ≤ 971 := by
      unfold carried
      split
      · exact small
      · exact small.le
    have grows : (2 : ℚ) ^ exponent ≤ 2 ^ (971 - 1 : Int) :=
      zpow_le_zpow_right₀ one_le_two (by omega)
    rw [zpow_sub_one₀ two_ne_zero] at grows
    have positive := step_positive 971
    have below := stepped.below
    generalize (2 : ℚ) ^ (971 : Int) = unit at *
    exact iff_of_true fits (by linarith)
  · rw [← stepped.steps_ne_iff]
    unfold carried
    split
    · next full => simp [full]
    · next notFull => simp [notFull]
  · have exceeds : ¬ (carried steps exponent).exponent ≤ 971 := by
      unfold carried
      split
      · show ¬ exponent + 1 ≤ 971
        omega
      · exact not_le.mpr more
    have grows : (2 : ℚ) ^ (971 + 1 : Int) ≤ 2 ^ exponent :=
      zpow_le_zpow_right₀ one_le_two (by omega)
    rw [zpow_add_one₀ two_ne_zero] at grows
    have positive := step_positive 971
    have above := stepped.above.resolve_right (by omega)
    generalize (2 : ℚ) ^ (971 : Int) = unit at *
    exact iff_of_false exceeds (not_lt.mpr (by linarith))

theorem isNearest_iff (stepped : IsStepped exact exponent steps) {number : Binary64} :
    IsNearest exact number ↔
      (carried steps exponent).exponent ≤ 971 ∧ carried steps exponent = number := by
  constructor
  · intro isNearest
    have fits := stepped.exponent_carried_le_iff.mpr isNearest.bounded
    have normal := stepped.isNormal_carried fits
    refine ⟨fits, ?_⟩
    by_contra differ
    obtain ⟨nearest, tie⟩ := stepped.near_number isNearest.isNormal
    have asNear := le_antisymm (isNearest.nearest _ normal) (by rw [value_carried]; exact nearest)
    have even := isNearest.even _ normal differ asNear.symm
    rw [value_carried] at asNear
    have apart : number.value ≠ steps * 2 ^ exponent := fun same =>
      differ (normal.eq_of_value isNearest.isNormal ((value_carried exponent).trans same.symm))
    have odd := (tie apart asNear).2
    omega
  · rintro ⟨fits, rfl⟩
    have normal := stepped.isNormal_carried fits
    refine ⟨normal, fun other otherNormal => ?_, fun other otherNormal differ asNear => ?_,
      stepped.exponent_carried_le_iff.mp fits⟩
    · rw [value_carried]
      exact (stepped.near_number otherNormal).1
    · have apart : other.value ≠ steps * 2 ^ exponent := fun same =>
        differ (otherNormal.eq_of_value normal (same.trans (value_carried exponent).symm))
      rw [value_carried] at asNear
      have half := ((stepped.near_number otherNormal).2 apart asNear).1
      exact even_carried exponent (stepped.even half)

end IsStepped

/-! ### Rounding -/

/-- The whole number of steps that is found is a nearest one. -/
theorem divideRounding_steps (numerator : Nat) {denominator : Nat} (positive : 0 < denominator)
    (exponent : Int) {steps : Nat}
    (same : divideRounding (numerator * (scaled 1 exponent).2)
      (denominator * (scaled 1 exponent).1) = steps) :
    |(numerator : ℚ) / denominator - steps * 2 ^ exponent| ≤ 2 ^ exponent / 2 ∧
      (|(numerator : ℚ) / denominator - steps * 2 ^ exponent| = 2 ^ exponent / 2 →
        steps % 2 = 0) := by
  have step := step_positive exponent
  have unit : (0 : ℚ) < (scaled 1 exponent).2 := Nat.cast_pos.mpr (scaled_positive 1 exponent)
  have power : (0 : ℚ) < (scaled 1 exponent).1 := Nat.cast_pos.mpr (scaled_one_positive exponent)
  have scale : (0 : ℚ) < denominator := Nat.cast_pos.mpr positive
  have counted : ((numerator * (scaled 1 exponent).2 : Nat) : ℚ) /
      (denominator * (scaled 1 exponent).1 : Nat) = numerator / denominator / 2 ^ exponent := by
    rw [← scaled_one_ratio, Nat.cast_mul, Nat.cast_mul]
    field_simp
  obtain ⟨near, even⟩ := divideRounding_near (numerator * (scaled 1 exponent).2)
    (Nat.mul_pos positive (scaled_one_positive exponent))
  rw [counted, same] at near even
  have distance : |(numerator : ℚ) / denominator - steps * 2 ^ exponent| =
      |(numerator : ℚ) / denominator / 2 ^ exponent - steps| * 2 ^ exponent := by
    rw [← abs_of_pos step, ← abs_mul, abs_of_pos step, sub_mul, div_mul_cancel₀ _ step.ne']
  have half : (2 : ℚ) ^ exponent / 2 = 1 / 2 * 2 ^ exponent := (one_div_mul_eq_div 2 _).symm
  rw [distance, half]
  exact ⟨mul_le_mul_of_nonneg_right near step.le, fun tie => even (mul_right_cancel₀ step.ne' tie)⟩

/-- A fraction is counted in steps of the size that leaves its number as many bits as there are. -/
theorem isStepped_divideRounding {numerator denominator : Nat} (filled : 0 < numerator)
    (positive : 0 < denominator) :
    let exponent := max (magnitude numerator denominator - 52) leastExponent
    IsStepped (numerator / denominator) exponent (divideRounding
      (numerator * (scaled 1 exponent).2) (denominator * (scaled 1 exponent).1)) := by
  intro exponent
  obtain ⟨least, most⟩ := magnitude_bounds filled positive
  obtain ⟨near, even⟩ := divideRounding_steps numerator positive exponent rfl
  have larger : magnitude numerator denominator - 52 ≤ exponent := le_max_left _ _
  refine ⟨le_max_right _ _, ?below, ?above, near, even⟩
  case below =>
    calc (numerator : ℚ) / denominator < 2 ^ (magnitude numerator denominator + 1) := most
      _ ≤ 2 ^ (53 + exponent) := zpow_le_zpow_right₀ one_le_two (by omega)
      _ = 2 ^ 53 * 2 ^ exponent := by
          rw [zpow_add₀ two_ne_zero]
          norm_cast
  case above =>
    have choice : exponent = magnitude numerator denominator - 52 ∨ exponent = leastExponent :=
      max_choice _ _
    refine choice.imp_left fun same => ?_
    calc (2 : ℚ) ^ 52 * 2 ^ exponent = 2 ^ (52 + exponent) := by
          rw [zpow_add₀ two_ne_zero]
          norm_cast
      _ = 2 ^ magnitude numerator denominator := by rw [same, add_sub_cancel]
      _ ≤ numerator / denominator := least

/-- A fraction is rounded to the nearest number of the format. -/
theorem ofRatio?_eq_some_iff {numerator denominator : Nat} (positive : 0 < denominator)
    {number : Binary64} :
    ofRatio? numerator denominator = some number ↔
      IsNearest (numerator / denominator) number := by
  rcases Nat.eq_zero_or_pos numerator with rfl | filled
  · have stepped : IsStepped 0 leastExponent 0 :=
      ⟨le_rfl, by positivity, .inr rfl,
        by rw [Nat.cast_zero, zero_mul, sub_zero, abs_zero]; positivity, fun _ => rfl⟩
    rw [Nat.cast_zero, zero_div, stepped.isNearest_iff]
    exact ⟨fun same => ⟨by decide, Option.some.inj same⟩, fun same => congrArg some same.2⟩
  · rw [(isStepped_divideRounding filled positive).isNearest_iff, ofRatio?, if_neg filled.ne']
    simp only [Option.ite_none_left_eq_some, not_lt, Option.some.injEq]
    rfl

/-- A product is the nearest number to the exact product. -/
theorem mul?_eq_some_iff {left right number : Binary64} :
    left.mul? right = some number ↔ IsNearest (left.value * right.value) number := by
  have exact : left.value * right.value =
      (left.significand * right.significand : Nat) * 2 ^ (left.exponent + right.exponent) := by
    rw [value, value, zpow_add₀ two_ne_zero]
    push_cast
    ring
  rw [exact, ← scaled_ratio]
  exact ofRatio?_eq_some_iff (scaled_positive _ _)

end Binary64

end ConnectorSettings
