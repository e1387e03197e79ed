/-
# Rounding finds the nearest magnitude

A fraction lies between two midpoints, one halfway up to the magnitude that it is rounded to
and one halfway up from there. On a midpoint it lies only where the rank is even. This is all
that there is to show of a rounding: it is local, while the definition of the nearest
magnitude speaks of all of them, and ranks that come without an end let the midpoint below
infinity be one like the others.

The nearest magnitude is the only one of its kind. So whatever is known of a fraction that
does not depend on how it is written, its value most of all, determines the magnitude.
-/

import Mathlib.Tactic.Ring
import LoxFront.Binary64.Nearest
import LoxFront.Proofs.Binary64.Ranks

namespace LoxFront.Binary64

variable {numerator denominator : Nat}

/-! ## Rounded quotients -/

/-- A quotient is rounded by half a step at most, and by this much only to an even number. -/
theorem divideToEven_spec (numerator : Nat) (positive : 0 < denominator) :
    let rounded := divideToEven numerator denominator
    2 * numerator ≤ (2 * rounded + 1) * denominator ∧
      2 * rounded * denominator ≤ 2 * numerator + denominator ∧
      (2 * numerator = (2 * rounded + 1) * denominator ∨
        2 * rounded * denominator = 2 * numerator + denominator → rounded % 2 = 0) := by
  have small := Nat.mod_lt numerator positive
  have whole := Nat.div_add_mod numerator denominator
  unfold divideToEven
  generalize numerator / denominator = quotient at *
  generalize numerator % denominator = left at *
  subst whole
  have steps : (2 * quotient + 1) * denominator = 2 * (denominator * quotient) + denominator := by
    ring
  have next : (2 * (quotient + 1) + 1) * denominator =
      2 * (denominator * quotient) + 3 * denominator := by ring
  have before : 2 * quotient * denominator = 2 * (denominator * quotient) := by ring
  have nextBefore : 2 * (quotient + 1) * denominator =
      2 * (denominator * quotient) + 2 * denominator := by ring
  dsimp only
  split
  · rw [steps, before]
    omega
  · split
    · rw [next, nextBefore]
      omega
    · rcases Nat.mod_two_eq_zero_or_one quotient with even | odd
      · rw [show quotient + quotient % 2 = quotient by omega, steps, before]
        omega
      · rw [show quotient + quotient % 2 = quotient + 1 by omega, next, nextBefore]
        omega

/-! ## The rank of a fraction -/

/-- The width of the steps around a fraction that is counted in units. -/
def scaleOf (exact denominator : Nat) : Nat :=
  (exact / denominator).log2 - 52

/-- The number of such steps that the fraction is rounded to. -/
def placeOf (exact denominator : Nat) : Nat :=
  divideToEven exact (denominator * 2 ^ scaleOf exact denominator)

/-- The rank that a fraction is rounded to, with ranks that have no end. -/
def rankOf (exact denominator : Nat) : Nat :=
  scaleOf exact denominator * 2 ^ 52 + placeOf exact denominator

theorem val_nearest (numerator denominator : Nat) :
    (nearest numerator denominator).val =
      min (rankOf (numerator * unitsPerOne) denominator) infiniteRank := by
  unfold nearest rankOf placeOf scaleOf unitsPerOne
  rfl

section Rank

variable (exact : Nat) (positive : 0 < denominator)

include positive

/-- A fraction is not past the end of its scale, and only on the first one before its middle. -/
theorem scaleOf_spec :
    let width := denominator * 2 ^ scaleOf exact denominator
    exact < 2 ^ 53 * width ∧ (scaleOf exact denominator = 0 ∨ 2 ^ 52 * width ≤ exact) := by
  have whole : denominator * (exact / denominator) ≤ exact := Nat.mul_div_le exact denominator
  have below : exact < denominator * (exact / denominator + 1) :=
    Nat.lt_mul_div_succ exact positive
  have exponent : (exact / denominator).log2 ≤ 52 + scaleOf exact denominator := by
    unfold scaleOf
    omega
  constructor
  · have short : exact / denominator + 1 ≤ 2 ^ (53 + scaleOf exact denominator) := calc
      _ ≤ 2 ^ ((exact / denominator).log2 + 1) := Nat.lt_log2_self
      _ ≤ 2 ^ (53 + scaleOf exact denominator) := Nat.pow_le_pow_right (by decide) (by omega)
    calc exact
        < denominator * (exact / denominator + 1) := below
      _ ≤ denominator * 2 ^ (53 + scaleOf exact denominator) :=
        Nat.mul_le_mul_left denominator short
      _ = 2 ^ 53 * (denominator * 2 ^ scaleOf exact denominator) := by rw [Nat.pow_add]; ring
  · by_cases first : scaleOf exact denominator = 0
    · exact .inl first
    · have large : 52 + scaleOf exact denominator = (exact / denominator).log2 := by
        unfold scaleOf at first ⊢
        omega
      have nonzero : exact / denominator ≠ 0 := by
        intro zero
        rw [zero, Nat.log2_zero] at large
        omega
      right
      calc 2 ^ 52 * (denominator * 2 ^ scaleOf exact denominator)
          = denominator * 2 ^ (52 + scaleOf exact denominator) := by rw [Nat.pow_add]; ring
        _ ≤ denominator * (exact / denominator) := by
            rw [large]
            exact Nat.mul_le_mul_left denominator (Nat.log2_self_le nonzero)
        _ ≤ exact := whole

/-- The rounded number of steps is a place on the scale, perhaps the one at its end. -/
theorem isPlace_placeOf : IsPlace (scaleOf exact denominator) (placeOf exact denominator) := by
  obtain ⟨within, middle⟩ := scaleOf_spec exact positive
  have wide : 0 < denominator * 2 ^ scaleOf exact denominator :=
    Nat.mul_pos positive (Nat.two_pow_pos _)
  obtain ⟨up, down, -⟩ := divideToEven_spec exact wide
  unfold placeOf
  generalize denominator * 2 ^ scaleOf exact denominator = width at *
  generalize divideToEven exact width = place at *
  refine ⟨middle.imp_right fun large => ?_, ?_⟩
  · have bound : 2 ^ 53 * width ≤ (2 * place + 1) * width := by omega
    have := Nat.le_of_mul_le_mul_right bound wide
    omega
  · have bound : 2 * place * width < (2 ^ 54 + 1) * width := by omega
    have := Nat.lt_of_mul_lt_mul_right bound
    omega

/-- The rank of a fraction stands for the rounded number of steps. -/
theorem unitsAt_rankOf :
    unitsAt (rankOf exact denominator) =
      placeOf exact denominator * 2 ^ scaleOf exact denominator :=
  unitsAt_of_isPlace (isPlace_placeOf exact positive)

/-- The units of a finite magnitude that a fraction is rounded to. -/
theorem units_nearest {numerator : Nat}
    (finite : nearest numerator denominator ≠ Magnitude.infinity) :
    (nearest numerator denominator).units =
      placeOf (numerator * unitsPerOne) denominator *
        2 ^ scaleOf (numerator * unitsPerOne) denominator := by
  have rounded := val_nearest numerator denominator
  have below : (nearest numerator denominator).val ≠ infiniteRank := fun last =>
    finite (Fin.ext last)
  rw [Magnitude.units_eq, ← unitsAt_rankOf _ positive]
  congr 1
  omega

omit positive in
/-- The parity of a rank is that of its number of steps. -/
theorem rankOf_mod_two : rankOf exact denominator % 2 = placeOf exact denominator % 2 := by
  unfold rankOf
  omega

end Rank

/-! ## Midpoints -/

/-- A fraction, counted in units, lies between the midpoints below and above a rank. On one of
them it lies only if the rank is even. -/
structure IsAround (exact denominator rank : Nat) : Prop where
  below : ∀ lower, rank = lower + 1 →
    (unitsAt lower + unitsAt rank) * denominator ≤ 2 * exact ∧
      ((unitsAt lower + unitsAt rank) * denominator = 2 * exact → rank % 2 = 0)
  above :
    2 * exact ≤ (unitsAt rank + unitsAt (rank + 1)) * denominator ∧
      (2 * exact = (unitsAt rank + unitsAt (rank + 1)) * denominator → rank % 2 = 0)

section Around

variable {exact : Nat}

/-- The step down from a place is as wide as the steps of its scale. Only the middle of a scale
has a narrower one below it, and there nothing is rounded up. -/
theorem below_of_isPlace {scale place lower : Nat} (positive : 0 < denominator)
    (isPlace : IsPlace scale place) (isNext : scale * 2 ^ 52 + place = lower + 1)
    (down : 2 * place * (denominator * 2 ^ scale) ≤ 2 * exact + denominator * 2 ^ scale)
    (middle : scale = 0 ∨ 2 ^ 52 * (denominator * 2 ^ scale) ≤ exact) :
    (unitsAt lower + place * 2 ^ scale) * denominator ≤ 2 * exact ∧
      ((unitsAt lower + place * 2 ^ scale) * denominator = 2 * exact →
        2 * place * (denominator * 2 ^ scale) = 2 * exact + denominator * 2 ^ scale) := by
  obtain ⟨steps, rfl⟩ : ∃ steps, place = steps + 1 :=
    Nat.exists_eq_add_one.mpr (by unfold IsPlace at isPlace; omega)
  by_cases inside : IsPlace scale steps
  · have sum : (unitsAt lower + (steps + 1) * 2 ^ scale) * denominator + denominator * 2 ^ scale =
        2 * (steps + 1) * (denominator * 2 ^ scale) := by
      obtain rfl : lower = scale * 2 ^ 52 + steps := by omega
      rw [unitsAt_of_isPlace inside]
      ring
    omega
  · obtain ⟨other, middlemost⟩ : scale ≠ 0 ∧ steps + 1 = 2 ^ 52 := by
      unfold IsPlace at isPlace inside
      omega
    have less : unitsAt lower < (steps + 1) * 2 ^ scale := by
      rw [← unitsAt_of_isPlace isPlace]
      exact unitsAt_strictMono (by omega)
    have sum : (unitsAt lower + (steps + 1) * 2 ^ scale) * denominator < 2 * exact := by
      calc
        _ < ((steps + 1) * 2 ^ scale + (steps + 1) * 2 ^ scale) * denominator :=
          Nat.mul_lt_mul_of_pos_right (Nat.add_lt_add_right less _) positive
        _ = 2 * (2 ^ 52 * (denominator * 2 ^ scale)) := by rw [middlemost]; ring
        _ ≤ 2 * exact := Nat.mul_le_mul_left 2 (middle.resolve_left other)
    exact ⟨Nat.le_of_lt sum, fun same => absurd same (Nat.ne_of_lt sum)⟩

/-- The step up from a place is at least as wide as the steps of its scale. -/
theorem above_of_isPlace {scale place : Nat} (isPlace : IsPlace scale place)
    (up : 2 * exact ≤ (2 * place + 1) * (denominator * 2 ^ scale)) :
    2 * exact ≤ (place * 2 ^ scale + unitsAt (scale * 2 ^ 52 + place + 1)) * denominator ∧
      (2 * exact = (place * 2 ^ scale + unitsAt (scale * 2 ^ 52 + place + 1)) * denominator →
        2 * exact = (2 * place + 1) * (denominator * 2 ^ scale)) := by
  have sum : (2 * place + 1) * (denominator * 2 ^ scale) ≤
      (place * 2 ^ scale + unitsAt (scale * 2 ^ 52 + place + 1)) * denominator := by
    calc
      _ = (place * 2 ^ scale + (place + 1) * 2 ^ scale) * denominator := by ring
      _ ≤ _ := Nat.mul_le_mul_right _ (Nat.add_le_add_left (next_le_unitsAt isPlace) _)
  exact ⟨Nat.le_trans up sum, fun same => Nat.le_antisymm up (same ▸ sum)⟩

/-- A fraction lies around the rank that it is rounded to. -/
theorem isAround_rankOf (exact : Nat) (positive : 0 < denominator) :
    IsAround exact denominator (rankOf exact denominator) := by
  have isPlace := isPlace_placeOf exact positive
  obtain ⟨-, middle⟩ := scaleOf_spec exact positive
  obtain ⟨up, down, even⟩ := divideToEven_spec exact
    (Nat.mul_pos positive (Nat.two_pow_pos (scaleOf exact denominator)))
  constructor
  · intro lower isNext
    rw [unitsAt_rankOf _ positive, rankOf_mod_two]
    obtain ⟨within, tie⟩ := below_of_isPlace positive isPlace isNext down middle
    exact ⟨within, fun same => even (.inr (tie same))⟩
  · rw [unitsAt_rankOf _ positive, rankOf_mod_two]
    obtain ⟨within, tie⟩ := above_of_isPlace isPlace up
    exact ⟨within, fun same => even (.inl (tie same))⟩

end Around

/-! ## The nearest magnitude -/

/-- The distance between a rank and a fraction, both counted in units. -/
def distanceAt (exact denominator rank : Nat) : Nat :=
  (exact - unitsAt rank * denominator) + (unitsAt rank * denominator - exact)

theorem distance_eq (numerator denominator : Nat) (magnitude : Magnitude) :
    distance numerator denominator magnitude =
      distanceAt (numerator * unitsPerOne) denominator magnitude.val := by
  unfold distance distanceAt unitsPerOne
  rfl

section Distance

variable {exact lower rank other : Nat}

/-- From a midpoint on, no rank below it is nearer than the one above. -/
theorem distanceAt_le_of_le (positive : 0 < denominator) (isLower : other ≤ lower)
    (within : (unitsAt lower + unitsAt (lower + 1)) * denominator ≤ 2 * exact) :
    distanceAt exact denominator (lower + 1) ≤ distanceAt exact denominator other ∧
      (distanceAt exact denominator (lower + 1) = distanceAt exact denominator other →
        (unitsAt lower + unitsAt (lower + 1)) * denominator = 2 * exact) := by
  have step : unitsAt lower * denominator < unitsAt (lower + 1) * denominator :=
    Nat.mul_lt_mul_of_pos_right (unitsAt_strictMono (Nat.lt_succ_self lower)) positive
  have further : unitsAt other * denominator ≤ unitsAt lower * denominator :=
    Nat.mul_le_mul_right denominator (unitsAt_strictMono.monotone isLower)
  rw [Nat.add_mul] at within ⊢
  unfold distanceAt
  omega

/-- Up to a midpoint, no rank above it is nearer than the one below. -/
theorem distanceAt_le_of_lt (positive : 0 < denominator) (isHigher : rank < other)
    (within : 2 * exact ≤ (unitsAt rank + unitsAt (rank + 1)) * denominator) :
    distanceAt exact denominator rank ≤ distanceAt exact denominator other ∧
      (distanceAt exact denominator rank = distanceAt exact denominator other →
        2 * exact = (unitsAt rank + unitsAt (rank + 1)) * denominator) := by
  have step : unitsAt rank * denominator < unitsAt (rank + 1) * denominator :=
    Nat.mul_lt_mul_of_pos_right (unitsAt_strictMono (Nat.lt_succ_self rank)) positive
  have further : unitsAt (rank + 1) * denominator ≤ unitsAt other * denominator :=
    Nat.mul_le_mul_right denominator (unitsAt_strictMono.monotone isHigher)
  rw [Nat.add_mul] at within ⊢
  unfold distanceAt
  omega

end Distance

/-- What is at least a midpoint below some rank is at least any midpoint further down. -/
theorem midpoint_le {first second : Nat} (order : first ≤ second) (denominator : Nat) :
    (unitsAt first + unitsAt (first + 1)) * denominator ≤
      (unitsAt second + unitsAt (second + 1)) * denominator :=
  Nat.mul_le_mul_right denominator (Nat.add_le_add (unitsAt_strictMono.monotone order)
    (unitsAt_strictMono.monotone (Nat.succ_le_succ order)))

/-- The magnitude that a fraction is rounded to is nearest to it. -/
theorem isNearest_nearest (numerator : Nat) (positive : 0 < denominator) :
    IsNearest numerator denominator (nearest numerator denominator) := by
  intro other
  have around := isAround_rankOf (numerator * unitsPerOne) positive
  have rounded := val_nearest numerator denominator
  have last : other.val ≤ infiniteRank := Nat.le_of_lt_succ other.isLt
  rw [distance_eq, distance_eq]
  generalize nearest numerator denominator = magnitude at *
  generalize rankOf (numerator * unitsPerOne) denominator = rank at *
  generalize numerator * unitsPerOne = exact at *
  rcases Nat.lt_trichotomy other.val magnitude.val with less | same | more
  · obtain ⟨lower, isNext⟩ : ∃ lower, magnitude.val = lower + 1 :=
      Nat.exists_eq_add_one.mpr (Nat.zero_lt_of_lt less)
    obtain ⟨top, isTop⟩ : ∃ top, rank = top + 1 := Nat.exists_eq_add_one.mpr (by omega)
    obtain ⟨within, even⟩ := around.below top isTop
    rw [isTop] at within even
    have order := midpoint_le (show lower ≤ top by omega) denominator
    have reached := Nat.le_trans order within
    obtain ⟨nearer, tie⟩ := distanceAt_le_of_le positive (show other.val ≤ lower by omega) reached
    rw [isNext]
    refine ⟨nearer, fun same => .inr ?_⟩
    by_cases cut : infiniteRank < rank
    · have : infiniteRank % 2 = 0 := by decide
      omega
    · obtain rfl : lower = top := by omega
      exact even (tie same)
  · exact ⟨by rw [same], fun _ => .inl (Fin.ext same)⟩
  · obtain ⟨within, even⟩ := around.above
    have uncut : magnitude.val = rank := by omega
    rw [uncut] at more ⊢
    obtain ⟨nearer, tie⟩ := distanceAt_le_of_lt positive more within
    exact ⟨nearer, fun same => .inr (even (tie same))⟩

/-- Of two magnitudes that are nearest to one fraction none is above the other. They would be
equally far from it and of even rank, so there would be one between them, and that one would be
nearer. -/
theorem IsNearest.le (positive : 0 < denominator) {first second : Magnitude}
    (one : IsNearest numerator denominator first) (two : IsNearest numerator denominator second) :
    first ≤ second := by
  by_contra above
  have order : second.val < first.val := Nat.lt_of_not_le above
  have same := Nat.le_antisymm (one second).1 (two first).1
  have evenFirst := ((one second).2 same).resolve_left (Fin.ne_of_lt order)
  have evenSecond := ((two first).2 same.symm).resolve_left (Fin.ne_of_lt order).symm
  have nearer := (one ⟨second.val + 1, by omega⟩).1
  have step : unitsAt second.val * denominator < unitsAt (second.val + 1) * denominator :=
    Nat.mul_lt_mul_of_pos_right (unitsAt_strictMono (Nat.lt_succ_self _)) positive
  have further : unitsAt (second.val + 1) * denominator < unitsAt first.val * denominator :=
    Nat.mul_lt_mul_of_pos_right (unitsAt_strictMono (by omega)) positive
  simp only [distance_eq, distanceAt] at same nearer
  omega

/-- There is one nearest magnitude to a fraction. -/
theorem IsNearest.unique (positive : 0 < denominator) {first second : Magnitude}
    (one : IsNearest numerator denominator first) (two : IsNearest numerator denominator second) :
    first = second :=
  Fin.le_antisymm (one.le positive two) (two.le positive one)

/-- A magnitude is nearest to a fraction if and only if the fraction is rounded to it. -/
theorem isNearest_iff (positive : 0 < denominator) {magnitude : Magnitude} :
    IsNearest numerator denominator magnitude ↔ magnitude = nearest numerator denominator :=
  ⟨fun isNearest => isNearest.unique positive (isNearest_nearest numerator positive),
    fun same => same ▸ isNearest_nearest numerator positive⟩

/-- Distances to one value differ only by the denominators that they are divided by. -/
theorem distance_mul {other otherDenominator : Nat}
    (same : numerator * otherDenominator = other * denominator) (magnitude : Magnitude) :
    distance numerator denominator magnitude * otherDenominator =
      distance other otherDenominator magnitude * denominator := by
  have exact : numerator * unitsPerOne * otherDenominator =
      other * unitsPerOne * denominator := by
    rw [Nat.mul_right_comm, same, Nat.mul_right_comm]
  have actual := Nat.mul_right_comm (unitsAt magnitude.val) denominator otherDenominator
  simp only [distance_eq, distanceAt, Nat.add_mul, Nat.sub_mul, exact, actual]

/-- Fractions of the same value are rounded to the same magnitude. -/
theorem nearest_eq_nearest {other otherDenominator : Nat} (positive : 0 < denominator)
    (positiveOther : 0 < otherDenominator)
    (same : numerator * otherDenominator = other * denominator) :
    nearest numerator denominator = nearest other otherDenominator := by
  rw [← isNearest_iff positiveOther]
  intro magnitude
  obtain ⟨nearer, tie⟩ := isNearest_nearest numerator positive magnitude
  have scaled := distance_mul same
  constructor
  · refine Nat.le_of_mul_le_mul_right ?_ positive
    rw [← scaled, ← scaled]
    exact Nat.mul_le_mul_right otherDenominator nearer
  · intro equallyFar
    refine tie (Nat.eq_of_mul_eq_mul_right positiveOther ?_)
    rw [scaled, scaled, equallyFar]

/-- A fraction that is the value of a magnitude is rounded to this one. -/
theorem nearest_eq_of_units {magnitude : Magnitude} (positive : 0 < denominator)
    (exact : numerator * unitsPerOne = magnitude.units * denominator) :
    nearest numerator denominator = magnitude := by
  symm
  rw [← isNearest_iff positive]
  intro other
  rw [Magnitude.units_eq] at exact
  rw [distance_eq, distance_eq, exact]
  have none : distanceAt (unitsAt magnitude.val * denominator) denominator magnitude.val = 0 := by
    unfold distanceAt
    omega
  rw [none]
  refine ⟨Nat.zero_le _, fun same => .inl (Fin.ext (unitsAt_strictMono.injective ?_))⟩
  unfold distanceAt at same
  exact Nat.eq_of_mul_eq_mul_right positive (by omega)

/-! ## Infinity -/

/-- An odd rank is passed on the midpoint above it. -/
theorem lt_rankOf_iff {exact rank : Nat} (positive : 0 < denominator) (odd : rank % 2 = 1) :
    rank < rankOf exact denominator ↔
      (unitsAt rank + unitsAt (rank + 1)) * denominator ≤ 2 * exact := by
  have around := isAround_rankOf exact positive
  generalize rankOf exact denominator = rounded at around
  constructor
  · intro beyond
    obtain ⟨lower, rfl⟩ : ∃ lower, rounded = lower + 1 :=
      Nat.exists_eq_add_one.mpr (Nat.zero_lt_of_lt beyond)
    exact Nat.le_trans (midpoint_le (Nat.le_of_lt_succ beyond) denominator)
      (around.below lower rfl).1
  · intro reached
    by_contra short
    have order : rounded ≤ rank := Nat.le_of_not_lt short
    obtain ⟨within, even⟩ := around.above
    have onMidpoint := Nat.le_antisymm within
      (Nat.le_trans (midpoint_le order denominator) reached)
    have before : rounded < rank := by
      have := even onMidpoint
      omega
    have less : unitsAt rounded * denominator < unitsAt rank * denominator :=
      Nat.mul_lt_mul_of_pos_right (unitsAt_strictMono before) positive
    have next : unitsAt (rounded + 1) * denominator ≤ unitsAt (rank + 1) * denominator :=
      Nat.mul_le_mul_right denominator (unitsAt_strictMono.monotone (Nat.succ_le_succ order))
    rw [Nat.add_mul] at reached onMidpoint
    omega

/-- The midpoint between the largest finite magnitude and the power of two that would follow. -/
def overflow : Nat := Nat.pow 2 1024 - Nat.pow 2 970

theorem unitsAt_largest :
    unitsAt (infiniteRank - 1) + unitsAt (infiniteRank - 1 + 1) = 2 * unitsPerOne * overflow := by
  decide +kernel

/-- From this midpoint on fractions are rounded to infinity. The midpoint itself is because the
rank of the largest finite magnitude is odd. -/
theorem nearest_eq_infinity_iff (positive : 0 < denominator) :
    nearest numerator denominator = Magnitude.infinity ↔ overflow * denominator ≤ numerator := by
  have last : 0 < infiniteRank := by decide
  have cut : nearest numerator denominator = Magnitude.infinity ↔
      infiniteRank - 1 < rankOf (numerator * unitsPerOne) denominator := by
    rw [Fin.ext_iff, val_nearest]
    exact min_eq_right_iff.trans ((Nat.sub_lt_iff_lt_add last).trans Nat.lt_succ_iff).symm
  rw [cut, lt_rankOf_iff positive (by decide), unitsAt_largest, Nat.mul_comm numerator,
    Nat.mul_assoc (2 * unitsPerOne), ← Nat.mul_assoc 2]
  exact Nat.mul_le_mul_left_iff (Nat.mul_pos two_pos unitsPerOne_pos)

end LoxFront.Binary64
