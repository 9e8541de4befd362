import CatalogOperator.Number.Basic
import Mathlib.Algebra.Order.Field.Power
import Mathlib.Data.Rat.Floor
import Mathlib.Tactic.FieldSimp
import Mathlib.Tactic.Linarith
import Mathlib.Tactic.Positivity
import Mathlib.Tactic.Ring

/-!
# `CatalogOperator.Proofs.Number.Rounding`: which rationals a double keeps

A positive rational is rounded to a multiple of the unit of its last binary place. So it is kept as it
is exactly if it is such a multiple already. Doubling a rational that is kept moves its last place up by
one at the most, so the double of it is kept too, unless it is beyond the range of the doubles.

* `binaryExponent_bounds`: the power of two that a positive rational starts with.
* `Double.roundPositive_mul_two_pow`: what is kept stays so when it is doubled.
* `Double.limit`: from where on rounding leads out of range. `Double.ofRat_eq_infinite_iff` says that
  this is the place.
* `Number.Denotes`: the rational that a number stands for, given that a double keeps it.
  `Number.doubled_float` and `Number.Denotes.min` are the two operations on such numbers.
-/

set_option autoImplicit false

namespace CatalogOperator

/-! ### Rounding to an integer -/

/-- A whole number is rounded to itself. -/
@[simp] theorem roundHalfEven_intCast (k : Int) : roundHalfEven (k : Rat) = k := by
  simp [roundHalfEven, Rat.floor_intCast]

/-- An even number is reached from half a unit below it on, because a half goes to the even
neighbour. -/
theorem le_roundHalfEven_iff {n : Int} (hn : n % 2 = 0) (q : Rat) :
    n ≤ roundHalfEven q ↔ (n : Rat) - 1 / 2 ≤ q := by
  have hlow : ((q.floor : Int) : Rat) ≤ q := Rat.floor_le q
  have hhigh : q < (q.floor : Int) + 1 := by exact_mod_cast Rat.lt_floor_add_one q
  -- Apart from the two integers next to the bound, both sides are plain.
  have hbelow : q.floor + 1 < n → q < (n : Rat) - 1 := by
    intro h
    have : ((q.floor : Int) : Rat) + 1 + 1 ≤ n := by exact_mod_cast h
    linarith
  have habove : n ≤ q.floor → (n : Rat) ≤ q := fun h =>
    le_trans (by exact_mod_cast h) hlow
  unfold roundHalfEven
  dsimp only
  rcases lt_trichotomy (q.floor + 1) n with h | h | h
  · have hq := hbelow h
    refine iff_of_false ?_ (by linarith)
    split_ifs <;> omega
  · -- The integer below is the odd one next to the bound.
    have hcast : (n : Rat) = q.floor + 1 := by exact_mod_cast h.symm
    have hodd : q.floor % 2 ≠ 0 := by omega
    rw [hcast]
    split_ifs with hless hmore
    · exact iff_of_false (by omega) (by linarith)
    · exact iff_of_true (by omega) (by linarith)
    · exact iff_of_true (by omega) (by linarith)
  · have hq := habove (by omega)
    refine iff_of_true ?_ (by linarith)
    split_ifs <;> omega

/-! ### The first and the last binary place -/

/-- A positive rational lies between the power of two that it starts with and the next one. -/
theorem binaryExponent_bounds {q : Rat} (hq : 0 < q) :
    (2 : Rat) ^ binaryExponent q ≤ q ∧ q < (2 : Rat) ^ (binaryExponent q + 1) := by
  have hnum : q.num.natAbs ≠ 0 := by
    have := Rat.num_pos.2 hq
    omega
  obtain ⟨a, ha⟩ : ∃ a, a = Nat.log2 q.num.natAbs := ⟨_, rfl⟩
  obtain ⟨b, hb⟩ : ∃ b, b = Nat.log2 q.den := ⟨_, rfl⟩
  have hnumLow : (2 : Rat) ^ a ≤ q.num.natAbs := by
    rw [ha]
    exact_mod_cast Nat.log2_self_le hnum
  have hnumHigh : (q.num.natAbs : Rat) < 2 ^ (a + 1) := by
    rw [ha]
    exact_mod_cast Nat.lt_log2_self
  have hdenLow : (2 : Rat) ^ b ≤ q.den := by
    rw [hb]
    exact_mod_cast Nat.log2_self_le q.den_ne_zero
  have hdenHigh : (q.den : Rat) < 2 ^ (b + 1) := by
    rw [hb]
    exact_mod_cast Nat.lt_log2_self
  have hden : (0 : Rat) < q.den := by exact_mod_cast q.den_pos
  have hvalue : q * q.den = q.num.natAbs := by
    have habs : ((q.num.natAbs : Int) : Rat) = q.num := by
      rw [Int.natAbs_of_nonneg (Rat.num_pos.2 hq).le]
    rw [Rat.mul_den_eq_num, ← habs]
    rfl
  -- The quotient of the two leading powers is off by less than a factor of two either way.
  have hlow : (2 : Rat) ^ ((a : Int) - b - 1) ≤ q := by
    rw [← mul_le_mul_iff_left₀ hden, hvalue]
    calc (2 : Rat) ^ ((a : Int) - b - 1) * q.den ≤ (2 : Rat) ^ ((a : Int) - b - 1) * 2 ^ (b + 1) :=
          mul_le_mul_of_nonneg_left hdenHigh.le (by positivity)
      _ = 2 ^ a := by
          rw [← zpow_natCast, ← zpow_natCast, ← zpow_add₀ two_ne_zero]
          congr 1
          push_cast
          ring
      _ ≤ _ := hnumLow
  have hhigh : q < (2 : Rat) ^ ((a : Int) - b + 1) := by
    rw [← mul_lt_mul_iff_left₀ hden, hvalue]
    calc (q.num.natAbs : Rat) < 2 ^ (a + 1) := hnumHigh
      _ = (2 : Rat) ^ ((a : Int) - b + 1) * 2 ^ b := by
          rw [← zpow_natCast, ← zpow_natCast, ← zpow_add₀ two_ne_zero]
          congr 1
          push_cast
          ring
      _ ≤ _ := mul_le_mul_of_nonneg_left hdenLow (by positivity)
  unfold binaryExponent
  rw [← ha, ← hb]
  dsimp only
  split
  · next h => exact ⟨hlow, by rwa [sub_add_cancel]⟩
  · next h => exact ⟨not_lt.1 h, hhigh⟩

/-- There is but one power of two that a positive rational starts with. -/
theorem binaryExponent_eq {q : Rat} {e : Int} (hlow : (2 : Rat) ^ e ≤ q)
    (hhigh : q < (2 : Rat) ^ (e + 1)) : binaryExponent q = e := by
  have hq : 0 < q := lt_of_lt_of_le (by positivity) hlow
  obtain ⟨hlow', hhigh'⟩ := binaryExponent_bounds hq
  have h := (zpow_lt_zpow_iff_right₀ (one_lt_two (α := Rat))).1 (hlow'.trans_lt hhigh)
  have h' := (zpow_lt_zpow_iff_right₀ (one_lt_two (α := Rat))).1 (hlow.trans_lt hhigh')
  omega

/-- Doubling a rational raises its exponent by one. -/
theorem binaryExponent_mul_two_pow {q : Rat} (hq : 0 < q) (n : Nat) :
    binaryExponent (q * 2 ^ n) = binaryExponent q + n := by
  obtain ⟨hlow, hhigh⟩ := binaryExponent_bounds hq
  refine binaryExponent_eq ?_ ?_
  · rw [zpow_add₀ two_ne_zero, zpow_natCast]
    exact mul_le_mul_of_nonneg_right hlow (by positivity)
  · rw [add_right_comm, zpow_add₀ two_ne_zero, zpow_natCast]
    exact mul_lt_mul_of_pos_right hhigh (by positivity)

namespace Double

variable {q : Rat}

/-- The unit of the last place of a rational. -/
def unit (q : Rat) : Rat :=
  (2 : Rat) ^ lastPlace q

/-- A unit in the last place is above zero. -/
theorem unit_pos (q : Rat) : 0 < unit q := by
  unfold unit
  positivity

/-- A rational is rounded to a whole number of units in the last place. -/
theorem roundPositive_eq (q : Rat) : roundPositive q = roundHalfEven (q / unit q) * unit q :=
  rfl

/-- What is kept is a multiple of the unit of its last place. -/
theorem roundPositive_eq_self_iff : roundPositive q = q ↔ ∃ k : Int, q = k * unit q := by
  constructor
  · intro h
    exact ⟨roundHalfEven (q / unit q), h.symm⟩
  · rintro ⟨k, hk⟩
    have hquotient : q / unit q = k := (div_eq_iff (unit_pos q).ne').2 hk
    rw [roundPositive_eq, hquotient, roundHalfEven_intCast, ← hk]

/-- What is kept stays so when it is doubled: its last place moves up no further than it does
itself. -/
theorem roundPositive_mul_two_pow (hq : 0 < q) (h : roundPositive q = q) (n : Nat) :
    roundPositive (q * 2 ^ n) = q * 2 ^ n := by
  obtain ⟨k, hk⟩ := roundPositive_eq_self_iff.1 h
  have hplace : lastPlace (q * 2 ^ n) ≤ lastPlace q + n := by
    unfold lastPlace
    rw [binaryExponent_mul_two_pow hq]
    omega
  obtain ⟨m, hm⟩ := Int.le.dest hplace
  refine roundPositive_eq_self_iff.2 ⟨k * 2 ^ m, ?_⟩
  have hunits : unit q * 2 ^ n = 2 ^ m * unit (q * 2 ^ n) := by
    unfold unit
    rw [← zpow_natCast (2 : Rat) n, ← zpow_natCast (2 : Rat) m, ← zpow_add₀ two_ne_zero,
      ← zpow_add₀ two_ne_zero, zpow_natCast (2 : Rat) n, ← hm, add_comm]
  calc q * 2 ^ n = k * (unit q * 2 ^ n) := by
        rw [← mul_assoc, ← hk]
    _ = _ := by
        rw [hunits]
        push_cast
        ring

/-! ### The range -/

/-- The double nearest to a rational above zero is zero, infinite or what the rational is rounded to.
-/
theorem ofRat_of_pos (hq : 0 < q) :
    ofRat q = if roundPositive q = 0 then .zero false
      else if range ≤ roundPositive q then .infinite false else .finite (roundPositive q) := by
  have habs : q.abs = q := Rat.abs_of_nonneg hq.le
  unfold ofRat
  rw [if_neg hq.ne']
  dsimp only
  rw [habs]
  simp [not_lt.2 hq.le]

/-- The unit of the last place of the greatest doubles, halved. -/
def halfUnit : Rat :=
  (2 : Rat) ^ (970 : Int)

/-- The least rational that rounding takes out of the range of the finite doubles. It is half a unit
below the range, because the greatest double in range is odd. -/
def limit : Rat :=
  range - halfUnit

/-- Half a unit is above zero. -/
theorem halfUnit_pos : 0 < halfUnit := by
  unfold halfUnit
  positivity

/-- The powers of two next to the range, counted in halves of the last unit. -/
theorem two_zpow_eq (n : Nat) : (2 : Rat) ^ ((n : Int) + 970) = 2 ^ n * halfUnit := by
  rw [zpow_add₀ two_ne_zero, zpow_natCast, halfUnit]

/-- The range, counted in halves of the last unit. -/
theorem range_eq : range = 2 ^ 54 * halfUnit :=
  two_zpow_eq 54

/-- The range is above zero. -/
theorem range_pos : 0 < range := by
  unfold range
  positivity

/-- The limit from which numbers are rounded out of range lies below the range itself. -/
theorem limit_lt_range : limit < range := by
  have := halfUnit_pos
  unfold limit
  linarith

/-- Below the greatest exponent nothing is rounded out of range, and above it everything is. -/
theorem range_le_roundPositive_iff (hq : 0 < q) : range ≤ roundPositive q ↔ limit ≤ q := by
  obtain ⟨hlow, hhigh⟩ := binaryExponent_bounds hq
  have hunit := unit_pos q
  rw [roundPositive_eq]
  rcases le_or_gt (lastPlace q) 971 with hplace | hplace
  · -- The range is an even number of units.
    obtain ⟨m, hm⟩ := Int.le.dest (show lastPlace q + 1 ≤ 1024 by omega)
    have hrange : range = ((2 ^ (m + 1) : Int) : Rat) * unit q := by
      unfold range unit
      rw [← hm]
      push_cast
      rw [← zpow_natCast, ← zpow_add₀ two_ne_zero]
      congr 1
      push_cast
      ring
    have heven : (2 ^ (m + 1) : Int) % 2 = 0 := by
      rw [pow_succ]
      exact Int.mul_emod_left _ _
    have hhalf : range ≤ roundHalfEven (q / unit q) * unit q ↔ range - unit q / 2 ≤ q := by
      rw [hrange, mul_le_mul_iff_left₀ hunit, Int.cast_le, le_roundHalfEven_iff heven,
        le_div_iff₀ hunit]
      constructor <;> intro h <;> linarith
    rw [hhalf]
    rcases hplace.eq_or_lt with hplace | hplace
    · have hunit' : unit q = 2 * halfUnit := by
        rw [unit, hplace]
        exact two_zpow_eq 1
      rw [hunit', mul_div_cancel_left₀ _ two_ne_zero, limit]
    · -- A smaller unit belongs to a rational that is out of reach of the range.
      have hexponent : binaryExponent q + 1 ≤ 1023 := by
        unfold lastPlace at hplace
        omega
      have hsmall : q < 2 ^ 53 * halfUnit := by
        rw [← two_zpow_eq]
        exact hhigh.trans_le (zpow_le_zpow_right₀ one_le_two hexponent)
      have hunit' : unit q ≤ halfUnit := zpow_le_zpow_right₀ one_le_two (by omega)
      have hpos := halfUnit_pos
      rw [limit, range_eq]
      exact iff_of_false (by linarith) (by linarith)
  · have hexponent : binaryExponent q = 52 + lastPlace q := by
      unfold lastPlace at hplace ⊢
      omega
    have hfar : range ≤ (2 : Rat) ^ binaryExponent q :=
      zpow_le_zpow_right₀ one_le_two (by omega)
    have hunits : (2 : Rat) ^ binaryExponent q = ((2 ^ 52 : Int) : Rat) * unit q := by
      rw [hexponent, unit, zpow_add₀ two_ne_zero]
      norm_num
    have hround : (2 ^ 52 : Int) ≤ roundHalfEven (q / unit q) := by
      rw [le_roundHalfEven_iff (by decide), le_div_iff₀ hunit, sub_mul, ← hunits]
      linarith
    refine iff_of_true ?_ (limit_lt_range.le.trans (hfar.trans hlow))
    calc range ≤ ((2 ^ 52 : Int) : Rat) * unit q := hunits ▸ hfar
      _ ≤ _ := mul_le_mul_of_nonneg_right (Int.cast_le.2 hround) hunit.le

/-- The double nearest to a rational is infinite from the limit on. -/
theorem ofRat_eq_infinite_iff (hq : 0 < q) : ofRat q = .infinite false ↔ limit ≤ q := by
  rw [ofRat_of_pos hq, ← range_le_roundPositive_iff hq]
  split
  · next h =>
    rw [h]
    simp [range_pos]
  · split <;> simp_all

/-- Rounding leads out of range on the side of the rational. -/
theorem negative_of_ofRat_eq_infinite {negative : Bool} (hq : 0 < q)
    (h : ofRat q = .infinite negative) : negative = false := by
  rw [ofRat_of_pos hq] at h
  split at h
  · cases h
  · split at h <;> cases h
    rfl

/-- A double that is kept is kept by rounding, and in range. -/
theorem ofRat_eq_finite_iff (hq : 0 < q) : ofRat q = .finite q ↔ roundPositive q = q ∧ q < range := by
  rw [ofRat_of_pos hq]
  constructor
  · intro h
    split at h
    · cases h
    · split at h
      · cases h
      · next hrange =>
        have hkept : roundPositive q = q := by simpa using h
        exact ⟨hkept, by rwa [hkept, not_le] at hrange⟩
  · rintro ⟨hkept, hrange⟩
    rw [hkept, if_neg hq.ne', if_neg (not_le.2 hrange)]

/-- Doubling a double is exact, or leads out of range. -/
theorem ofRat_mul_two_pow (hq : 0 < q) (h : ofRat q = .finite q) (n : Nat) :
    ofRat (q * 2 ^ n) = if range ≤ q * 2 ^ n then .infinite false else .finite (q * 2 ^ n) := by
  have hpos : 0 < q * 2 ^ n := by positivity
  have hkept := roundPositive_mul_two_pow hq ((ofRat_eq_finite_iff hq).1 h).1 n
  rw [ofRat_of_pos hpos, hkept, if_neg hpos.ne']

/-- The powers of two are doubles as long as they are in range. -/
theorem ofRat_two_pow (n : Nat) :
    ofRat ((2 : Rat) ^ (n : Int)) =
      if n < 1024 then .finite ((2 : Rat) ^ n) else .infinite false := by
  have hone : ofRat 1 = .finite 1 := by decide +kernel
  have hrange : range ≤ (2 : Rat) ^ n ↔ ¬ n < 1024 := by
    unfold range
    rw [← zpow_natCast, zpow_le_zpow_iff_right₀ (one_lt_two (α := Rat))]
    omega
  have h := ofRat_mul_two_pow one_pos hone n
  rw [one_mul] at h
  rw [zpow_natCast, h]
  simp only [hrange, ite_not]

end Double

/-! ### Numbers of either kind -/

namespace Number

/-- The positive rational that a number stands for. A double stands for one that rounding keeps. -/
def Denotes (x : Number) (r : Rat) : Prop :=
  0 < r ∧
    match x with
    | int n => r = n
    | float d => d = .finite r ∧ Double.ofRat r = d

variable {x y : Number} {r s : Rat}

/-- A number that denotes a rational has it as its value. -/
theorem Denotes.toRat? (h : x.Denotes r) : x.toRat? = some r := by
  obtain ⟨-, h⟩ := h
  cases x with
  | int n => exact congrArg some h.symm
  | float d =>
    obtain ⟨rfl, -⟩ := h
    rfl

/-- A number that denotes a rational is above zero. -/
theorem Denotes.isAtMostZero (h : x.Denotes r) : x.isAtMostZero = false := by
  obtain ⟨hr, h⟩ := h
  cases x with
  | int n =>
    rw [h] at hr
    simpa [Number.isAtMostZero] using hr
  | float d =>
    obtain ⟨rfl, -⟩ := h
    simpa [Number.isAtMostZero, Double.lt] using hr

/-- What a double denotes is in range. -/
theorem denotes_float_iff {d : Double} :
    (float d).Denotes r ↔ d = .finite r ∧ 0 < r ∧ Double.roundPositive r = r ∧ r < Double.range := by
  constructor
  · rintro ⟨hr, rfl, h⟩
    exact ⟨rfl, hr, (Double.ofRat_eq_finite_iff hr).1 h⟩
  · rintro ⟨rfl, hr, h⟩
    exact ⟨hr, rfl, (Double.ofRat_eq_finite_iff hr).2 h⟩

/-- A number that denotes a rational can be taken as a double exactly if rounding keeps the rational in
range. -/
theorem Denotes.toDouble?_eq_none_iff (h : x.Denotes r) : x.toDouble? = none ↔ Double.limit ≤ r := by
  cases x with
  | int n =>
    obtain ⟨hr, rfl⟩ := h
    rw [← Double.ofRat_eq_infinite_iff hr, toDouble?]
    cases hd : Double.ofRat n with
    | infinite negative => simp [Double.negative_of_ofRat_eq_infinite hr hd]
    | _ => simp
  | float d =>
    obtain ⟨rfl, hr, hkept, hrange⟩ := denotes_float_iff.1 h
    refine iff_of_false (by simp [toDouble?]) ?_
    rw [← Double.range_le_roundPositive_iff hr, hkept]
    exact not_le.2 hrange

/-- A double is itself within range. -/
theorem Denotes.lt_limit {d : Double} (h : (float d).Denotes r) : r < Double.limit := by
  rw [← not_le, ← h.toDouble?_eq_none_iff]
  simp [toDouble?]

/-- The order is that of the rationals. -/
theorem Denotes.lt_eq (hx : x.Denotes r) (hy : y.Denotes s) : x.lt y = decide (r < s) := by
  obtain ⟨-, hx⟩ := hx
  obtain ⟨-, hy⟩ := hy
  cases x with
  | int m =>
    cases y with
    | int n => simp [Number.lt, hx, hy]
    | float e =>
      obtain ⟨rfl, -⟩ := hy
      simp [Number.lt, Double.toRat?, hx]
  | float d =>
    obtain ⟨rfl, -⟩ := hx
    cases y with
    | int n => simp [Number.lt, Double.toRat?, hy]
    | float e =>
      obtain ⟨rfl, -⟩ := hy
      simp [Number.lt, Double.lt]

/-- The smaller of two numbers denotes the smaller rational. -/
theorem Denotes.min (hx : x.Denotes r) (hy : y.Denotes s) : (x.min y).Denotes (Min.min r s) := by
  unfold Number.min
  rw [hy.lt_eq hx]
  by_cases h : s < r
  · rw [if_pos (by simpa using h), min_eq_right h.le]
    exact hy
  · rw [if_neg (by simpa using h), min_eq_left (not_lt.1 h)]
    exact hx

/-- No number is above the infinity. -/
theorem Denotes.min_infinite (hy : y.Denotes s) : (float (.infinite false)).min y = y := by
  have h : y.lt (float (.infinite false)) = true := by
    obtain ⟨-, hy⟩ := hy
    cases y with
    | int n => rfl
    | float e =>
      obtain ⟨rfl, -⟩ := hy
      rfl
  unfold Number.min
  rw [if_pos h]

/-- Whole numbers are doubled without any limit. -/
theorem doubled_int {m : Int} (h : (int m).Denotes r) (n : Nat) :
    ∃ x, (int m).doubled n = some x ∧ x.Denotes (r * 2 ^ n) := by
  obtain ⟨hr, rfl⟩ := h
  refine ⟨_, rfl, by positivity, ?_⟩
  rw [show Nat.pow 2 n = 2 ^ n from rfl]
  push_cast
  rfl

/-- A double can be doubled as many times as the factor is a double itself. The result is exact or out
of range. -/
theorem doubled_float {d : Double} (h : (float d).Denotes r) (n : Nat) :
    (float d).doubled n =
      if n < 1024 then
        some (float (if Double.range ≤ r * 2 ^ n then .infinite false else .finite (r * 2 ^ n)))
      else none := by
  obtain ⟨hr, rfl, hkept⟩ := h
  unfold doubled
  dsimp only
  rw [Double.ofRat_two_pow]
  by_cases hn : n < 1024
  · rw [if_pos hn, if_pos hn]
    dsimp only
    unfold Double.mul
    dsimp only
    rw [Double.ofRat_mul_two_pow hr hkept]
    split_ifs <;> rfl
  · rw [if_neg hn, if_neg hn]

end Number

end CatalogOperator
