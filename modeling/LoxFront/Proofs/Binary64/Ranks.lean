/-
# Ranks are in the order of the values

A magnitude is numbered by its place among all magnitudes, and its value in units is read
off this number. Here the reading is continued to all numbers, as if there were further
binades after the last one, so that no argument has to treat the largest magnitude apart.

A number is a scale and a place on it: the place counts steps of a width that doubles from
one scale to the next. Between two scales nothing happens. The end of one is a place of the
next, so a place may be one past the end without a change in what it stands for.
-/

import Mathlib.Order.Monotone.Basic
import Mathlib.Tactic.Linarith
import LoxFront.Binary64.Basic

namespace LoxFront.Binary64

/-- The number of units in one. -/
def unitsPerOne : Nat := Nat.pow 2 1074

theorem unitsPerOne_pos : 0 < unitsPerOne := by decide +kernel

/-- A step is as wide as a number of ones, or one is as wide as a number of steps. -/
theorem unitsPerOne_dvd_or (scale : Nat) : unitsPerOne ∣ 2 ^ scale ∨ 2 ^ scale ∣ unitsPerOne := by
  obtain ⟨exponent, power⟩ : ∃ exponent, unitsPerOne = 2 ^ exponent := ⟨1074, by decide +kernel⟩
  rw [power]
  exact (Nat.le_total exponent scale).imp (Nat.pow_dvd_pow 2) (Nat.pow_dvd_pow 2)

/-- The value of the magnitude of some rank in units, with ranks that have no end. -/
def unitsAt (rank : Nat) : Nat :=
  let binade := rank / 2 ^ 52
  let place := rank % 2 ^ 52
  if binade = 0 then place else (2 ^ 52 + place) * 2 ^ (binade - 1)

theorem Magnitude.units_eq (magnitude : Magnitude) : magnitude.units = unitsAt magnitude.val :=
  rfl

/-- On the first scale there are the places of two binades, on any other those of one. -/
def IsPlace (scale place : Nat) : Prop :=
  (scale = 0 ∨ 2 ^ 52 ≤ place) ∧ place ≤ 2 ^ 53

/-- The units of a place are its number of steps. This holds of the place at the end, too. -/
theorem unitsAt_of_isPlace {scale place : Nat} (isPlace : IsPlace scale place) :
    unitsAt (scale * 2 ^ 52 + place) = place * 2 ^ scale := by
  obtain ⟨low, high⟩ := isPlace
  rcases Nat.lt_or_ge place (2 ^ 52) with small | normal
  · obtain rfl : scale = 0 := low.resolve_right (Nat.not_le_of_lt small)
    have binade : (0 * 2 ^ 52 + place) / 2 ^ 52 = 0 := by omega
    have inside : (0 * 2 ^ 52 + place) % 2 ^ 52 = place := by omega
    rw [unitsAt, binade, inside, if_pos rfl, Nat.pow_zero, Nat.mul_one]
  · rcases Nat.lt_or_eq_of_le high with within | rfl
    · have binade : (scale * 2 ^ 52 + place) / 2 ^ 52 = scale + 1 := by omega
      have inside : 2 ^ 52 + (scale * 2 ^ 52 + place) % 2 ^ 52 = place := by omega
      rw [unitsAt, binade, if_neg (Nat.succ_ne_zero scale), inside, Nat.add_sub_cancel]
    · have binade : (scale * 2 ^ 52 + 2 ^ 53) / 2 ^ 52 = scale + 2 := by omega
      have inside : 2 ^ 52 + (scale * 2 ^ 52 + 2 ^ 53) % 2 ^ 52 = 2 ^ 52 := by omega
      have wider : 2 ^ (scale + 1) = 2 * 2 ^ scale := Nat.pow_succ'
      rw [unitsAt, binade, if_neg (Nat.succ_ne_zero _), inside, Nat.add_sub_assoc (by decide),
        wider, ← Nat.mul_assoc]
      rfl

/-- Every rank is a place before the end of its scale. -/
theorem exists_isPlace (rank : Nat) :
    ∃ scale place, rank = scale * 2 ^ 52 + place ∧ IsPlace scale place ∧ place < 2 ^ 53 := by
  refine ⟨rank / 2 ^ 52 - 1, rank - (rank / 2 ^ 52 - 1) * 2 ^ 52, ?_, ⟨?_, ?_⟩, ?_⟩ <;> omega

/-- Each rank stands for a value above all those before it. -/
theorem unitsAt_strictMono : StrictMono unitsAt := by
  refine strictMono_nat_of_lt_succ fun rank => ?_
  obtain ⟨scale, place, rfl, isPlace, within⟩ := exists_isPlace rank
  have next : IsPlace scale (place + 1) :=
    ⟨isPlace.1.imp_right Nat.le_succ_of_le, within⟩
  rw [Nat.add_assoc, unitsAt_of_isPlace isPlace, unitsAt_of_isPlace next]
  exact Nat.mul_lt_mul_of_pos_right (Nat.lt_succ_self place) (Nat.two_pow_pos scale)

/-- The step from the end of a scale is at least as wide as the steps on it. -/
theorem next_le_unitsAt {scale place : Nat} (isPlace : IsPlace scale place) :
    (place + 1) * 2 ^ scale ≤ unitsAt (scale * 2 ^ 52 + place + 1) := by
  rcases Nat.lt_or_eq_of_le isPlace.2 with within | rfl
  · have next : IsPlace scale (place + 1) := ⟨isPlace.1.imp_right Nat.le_succ_of_le, within⟩
    rw [Nat.add_assoc, unitsAt_of_isPlace next]
  · have beyond : scale * 2 ^ 52 + 2 ^ 53 + 1 = (scale + 1) * 2 ^ 52 + (2 ^ 52 + 1) := by omega
    have next : IsPlace (scale + 1) (2 ^ 52 + 1) := ⟨.inr (Nat.le_succ _), by decide⟩
    have wider : 2 ^ (scale + 1) = 2 * 2 ^ scale := Nat.pow_succ'
    rw [beyond, unitsAt_of_isPlace next, wider, ← Nat.mul_assoc]
    exact Nat.mul_le_mul_right _ (by decide)

end LoxFront.Binary64
