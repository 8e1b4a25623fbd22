import CommonComponent.TruncatedDivision
import Mathlib.Tactic

/-!
# Rounding quotients and rounding to multiples

The integer types of C++ compute in a type of at least 32 bits, their own or `int`.  There
an unsigned result wraps, and a result with a sign has to fit.

`Ceil` and `Floor` correct the truncated quotient by the sign it has.  A quotient between 0
and 1 is truncated to 0, and is taken for one that is not positive.
-/

namespace CommonComponent

open TruncatedDivision

inductive IntType
  | i8
  | i16
  | i32
  | i64
  | u8
  | u16
  | u32
  | u64
deriving DecidableEq

namespace IntType

def bits : IntType → ℕ
  | i8 | u8 => 8
  | i16 | u16 => 16
  | i32 | u32 => 32
  | i64 | u64 => 64

def signed : IntType → Bool
  | i8 | i16 | i32 | i64 => true
  | u8 | u16 | u32 | u64 => false

def Has (t : IntType) (x : ℤ) : Prop :=
  if t.signed then -2 ^ (t.bits - 1) ≤ x ∧ x < 2 ^ (t.bits - 1) else 0 ≤ x ∧ x < 2 ^ t.bits

instance (t : IntType) (x : ℤ) : Decidable (t.Has x) :=
  inferInstanceAs (Decidable (if t.signed then _ else _))

def promoted : IntType → IntType
  | i64 => i64
  | u32 => u32
  | u64 => u64
  | _ => i32

/-- The conversion of a value to the type. -/
def wrap (t : IntType) (x : ℤ) : ℤ :=
  if t.signed then Int.bmod x (2 ^ t.bits) else x % 2 ^ t.bits

/-- What a result comes to in the type; one with a sign that does not fit has none. -/
def arith (t : IntType) (x : ℤ) : Option ℤ :=
  if t.signed ∧ ¬t.Has x then none else some (t.wrap x)

def increase (t : IntType) (x : ℤ) : Option ℤ := do
  let y ← t.promoted.arith (x + 1)
  return t.wrap (if y > x then y else x)

def decrease (t : IntType) (x : ℤ) : Option ℤ := do
  let y ← t.promoted.arith (x - 1)
  return t.wrap (if y < x then y else x)

/-- The divisor is not 0. -/
def ceil (t : IntType) (dividend divisor : ℤ) : Option ℤ := do
  let v := t.wrap (← t.promoted.arith (dividend.tdiv divisor))
  if dividend.tmod divisor = 0 then return v
  let u ← t.increase v
  return if v > 0 then u else v

def floor (t : IntType) (dividend divisor : ℤ) : Option ℤ := do
  let v := t.wrap (← t.promoted.arith (dividend.tdiv divisor))
  if dividend.tmod divisor = 0 then return v
  let u ← t.decrease v
  return if v > 0 then v else u

/-- `GE_X_MULTI_M`; its value has the type in which `x` and `m` compute. -/
def geXMultiM (t : IntType) (x m : ℤ) : Option ℤ := do
  let last ← t.promoted.arith (m - 1)
  let sum ← t.promoted.arith (x + last)
  let quotient ← t.promoted.arith (sum.tdiv m)
  t.promoted.arith (quotient * m)

def leXMultiM (t : IntType) (x m : ℤ) : Option ℤ := do
  let quotient ← t.promoted.arith (x.tdiv m)
  t.promoted.arith (quotient * m)

/-! ## What they are to be -/

/-- The least integer that is not below the quotient, and the greatest that is not above. -/
def RoundLaw (t : IntType) (a b : ℤ) : Prop :=
  t.ceil a b = some ⌈(a : ℚ) / b⌉ ∧ t.floor a b = some ⌊(a : ℚ) / b⌋

/-- No value on the way leaves the type in which it is computed. -/
structure GeExact (t : IntType) (x m : ℤ) : Prop where
  last : t.promoted.Has (m - 1)
  sum : t.promoted.Has (x + (m - 1))
  quotient : t.promoted.Has ((x + (m - 1)).tdiv m)
  product : t.promoted.Has ((x + (m - 1)).tdiv m * m)

structure LeExact (t : IntType) (x m : ℤ) : Prop where
  quotient : t.promoted.Has (x.tdiv m)
  product : t.promoted.Has (x.tdiv m * m)

/-- The least multiple from `x` on and the greatest up to it, where the type has them. -/
def MultiLaw (t : IntType) (x m : ℤ) : Prop :=
  (∀ c, IsLeast {c | x ≤ c ∧ m ∣ c} c → t.Has c → t.geXMultiM x m = some c ∧ t.GeExact x m) ∧
    ∀ c, IsGreatest {c | c ≤ x ∧ m ∣ c} c → t.Has c → t.leXMultiM x m = some c ∧ t.LeExact x m

/-- The sum is one the type can compute, and the sum and `x` are not negative or divide
exactly. -/
def MultiOk (t : IntType) (x m : ℤ) : Prop :=
  (t.Has ((x + (m - 1)) / m * m) →
      t.promoted.Has (x + (m - 1)) ∧ (0 ≤ x + (m - 1) ∨ m ∣ x + (m - 1))) ∧
    (t.Has (x / m * m) → 0 ≤ x ∨ m ∣ x)

/-! ## Computing in a type -/

variable {t : IntType} {x y : ℤ}

theorem wrap_of_has (h : t.Has x) : t.wrap x = x := by
  unfold Has at h
  unfold wrap
  cases t <;> simp only [signed, bits, Bool.false_eq_true, if_true, if_false] at h ⊢ <;>
    first | exact Int.bmod_eq_of_le (by omega) (by omega) | exact Int.emod_eq_of_lt h.1 h.2

theorem arith_of_has (h : t.Has x) : t.arith x = some x := by
  rw [arith, if_neg fun hover => hover.2 h, wrap_of_has h]

theorem has_promoted (h : t.Has x) : t.promoted.Has x := by
  unfold Has at *
  cases t <;> simp only [promoted, signed, bits, Bool.false_eq_true, if_true, if_false] at h ⊢ <;>
    omega

theorem increase_of_has (h : t.Has (x + 1)) : t.increase x = some (x + 1) := by
  simp only [increase, arith_of_has (has_promoted h), Option.bind_eq_bind, Option.bind_some]
  rw [if_pos (by omega), wrap_of_has h]
  rfl

theorem decrease_of_has (h : t.Has (x - 1)) : t.decrease x = some (x - 1) := by
  simp only [decrease, arith_of_has (has_promoted h), Option.bind_eq_bind, Option.bind_some]
  rw [if_pos (by omega), wrap_of_has h]
  rfl

/-! ## Rounding quotients -/

variable {a b : ℤ}

theorem has_add_one (ha : t.Has a) (hv : t.Has x) (hhalf : 2 * x.natAbs ≤ a.natAbs) :
    t.Has (x + 1) := by
  unfold Has at *
  cases t <;> simp only [signed, bits, Bool.false_eq_true, if_true, if_false] at ha hv ⊢ <;> omega

theorem has_sub_one (ha : t.Has a) (hv : t.Has x) (hhalf : 2 * x.natAbs ≤ a.natAbs)
    (hsign : t.signed ∨ 0 < x) : t.Has (x - 1) := by
  unfold Has at *
  cases t <;> simp only [signed, bits, Bool.false_eq_true, if_true, if_false, false_or]
    at ha hv hsign ⊢ <;> omega

theorem ceil_of_exact (hv : t.Has (a.tdiv b)) (hexact : a.tmod b = 0) :
    t.ceil a b = some (a.tdiv b) := by
  simp [ceil, arith_of_has (has_promoted hv), wrap_of_has hv, hexact]

theorem floor_of_exact (hv : t.Has (a.tdiv b)) (hexact : a.tmod b = 0) :
    t.floor a b = some (a.tdiv b) := by
  simp [floor, arith_of_has (has_promoted hv), wrap_of_has hv, hexact]

theorem ceil_of_inexact (hv : t.Has (a.tdiv b)) (hexact : a.tmod b ≠ 0)
    (hnext : t.Has (a.tdiv b + 1)) :
    t.ceil a b = some (if a.tdiv b > 0 then a.tdiv b + 1 else a.tdiv b) := by
  simp [ceil, arith_of_has (has_promoted hv), wrap_of_has hv, hexact, increase_of_has hnext]

theorem floor_of_inexact (hv : t.Has (a.tdiv b)) (hexact : a.tmod b ≠ 0)
    (hnext : t.Has (a.tdiv b - 1)) :
    t.floor a b = some (if a.tdiv b > 0 then a.tdiv b else a.tdiv b - 1) := by
  simp [floor, arith_of_has (has_promoted hv), wrap_of_has hv, hexact, decrease_of_has hnext]

theorem signed_of_div_neg (ha : t.Has a) (hb : t.Has b) (hq : (a : ℚ) / b < 0) :
    t.signed = true := by
  by_contra hsigned
  rw [Has, if_neg hsigned] at ha hb
  have hq' : (0 : ℚ) ≤ (a : ℚ) / b :=
    div_nonneg (by exact_mod_cast ha.1) (by exact_mod_cast hb.1)
  exact absurd hq (not_lt.mpr hq')

/-- **Rounding a quotient.**  Both are right but for a quotient between 0 and 1. -/
theorem round_law (t : IntType) (a b : ℤ) (hb : b ≠ 0) (ha : t.Has a) (hb' : t.Has b)
    (hv : t.Has (a.tdiv b)) :
    RoundLaw t a b ↔ ¬(0 < (a : ℚ) / b ∧ (a : ℚ) / b < 1) := by
  by_cases hexact : a.tmod b = 0
  · obtain ⟨hfloor, hceil⟩ := TruncatedDivision.floor_of_exact hb hexact
    have hlaw : RoundLaw t a b :=
      ⟨by rw [ceil_of_exact hv hexact, hceil], by rw [floor_of_exact hv hexact, hfloor]⟩
    refine iff_of_true hlaw ?_
    rw [div_eq_add hb, hexact, Int.cast_zero, zero_div, add_zero]
    rintro ⟨hpos, hlt⟩
    have hpos' : 0 < a.tdiv b := by exact_mod_cast hpos
    have hlt' : a.tdiv b < 1 := by exact_mod_cast hlt
    omega
  · have hhalf := two_mul_natAbs_tdiv_le hexact
    have hceil := ceil_of_inexact hv hexact (has_add_one ha hv hhalf)
    rcases lt_or_gt_of_ne (div_ne_zero_of_inexact hb hexact) with hneg | hpos
    · obtain ⟨hdown, hup⟩ := floor_of_neg hb hexact hneg
      have hsigned := signed_of_div_neg ha hb' hneg
      have hv0 : ¬a.tdiv b > 0 := fun h => absurd (div_pos_of_tdiv_pos hb h) (not_lt.mpr hneg.le)
      have hfloor := floor_of_inexact hv hexact (has_sub_one ha hv hhalf (.inl hsigned))
      rw [if_neg hv0] at hceil hfloor
      have hlaw : RoundLaw t a b := ⟨by rw [hceil, hup], by rw [hfloor, hdown]⟩
      exact iff_of_true hlaw fun h => absurd h.1 (not_lt.mpr hneg.le)
    · obtain ⟨hdown, hup⟩ := floor_of_pos hb hexact hpos
      have hv0 : 0 ≤ a.tdiv b :=
        not_lt.mp fun h => absurd (div_neg_of_tdiv_neg hb h) (not_lt.mpr hpos.le)
      by_cases hv1 : a.tdiv b > 0
      · have hfloor := floor_of_inexact hv hexact (has_sub_one ha hv hhalf (.inr hv1))
        rw [if_pos hv1] at hceil hfloor
        have hlaw : RoundLaw t a b := ⟨by rw [hceil, hup], by rw [hfloor, hdown]⟩
        refine iff_of_true hlaw fun h => ?_
        have hle := Int.floor_le ((a : ℚ) / b)
        have hone : (1 : ℚ) ≤ a.tdiv b := by exact_mod_cast hv1
        rw [hdown] at hle
        linarith [h.2]
      · -- The quotient is truncated to 0, and the next integer is 1.
        have hzero : a.tdiv b = 0 := by omega
        rw [if_neg hv1] at hceil
        refine iff_of_false (fun hlaw => ?_) (not_not.mpr ⟨hpos, ?_⟩)
        · have hsame := Option.some.inj (hceil.symm.trans hlaw.1)
          omega
        · have hlt := Int.lt_floor_add_one ((a : ℚ) / b)
          rw [hdown, hzero, Int.cast_zero, zero_add] at hlt
          exact hlt

theorem round_law_i32 : RoundLaw .i32 (-100) 6 :=
  (round_law .i32 (-100) 6 (by decide) (by decide) (by decide) (by decide)).mpr (by norm_num)

/-- A quotient of a third is rounded up to 0. -/
theorem ceil_one_third : ¬RoundLaw .i32 1 3 := by
  rintro ⟨hceil, -⟩
  have hzero : ceil .i32 1 3 = some 0 := by decide
  have hone : ⌈((1 : ℤ) : ℚ) / (3 : ℤ)⌉ = 1 := by
    rw [Int.ceil_eq_iff]
    norm_num
  rw [hzero, hone] at hceil
  exact absurd hceil (by decide)

/-! ## Rounding to multiples -/

variable {m : ℤ}

theorem has_of_within (hx : t.Has x) (hy : Within x y) : t.Has y := by
  unfold Has Within at *
  split_ifs at hx ⊢ <;> constructor <;> omega

theorem LeExact.of_has (hx : t.Has x) (hm : 0 < m) : t.LeExact x m := by
  obtain ⟨hquotient, hproduct⟩ := within_tdiv hm x
  exact ⟨has_of_within (has_promoted hx) hquotient, has_of_within (has_promoted hx) hproduct⟩

theorem LeExact.value (h : t.LeExact x m) : t.leXMultiM x m = some (x.tdiv m * m) := by
  simp [leXMultiM, arith_of_has h.quotient, arith_of_has h.product]

theorem GeExact.of_has (hm' : t.Has m) (hm : 0 < m) (hsum : t.promoted.Has (x + (m - 1))) :
    t.GeExact x m := by
  obtain ⟨hquotient, hproduct⟩ := within_tdiv hm (x + (m - 1))
  exact ⟨has_of_within (has_promoted hm') (.inl ⟨by omega, by omega⟩), hsum,
    has_of_within hsum hquotient, has_of_within hsum hproduct⟩

theorem GeExact.value (h : t.GeExact x m) :
    t.geXMultiM x m = some ((x + (m - 1)).tdiv m * m) := by
  simp [geXMultiM, arith_of_has h.last, arith_of_has h.sum, arith_of_has h.quotient,
    arith_of_has h.product]

theorem ge_iff (hm' : t.Has m) (hm : 0 < m) :
    t.geXMultiM x m = some ((x + (m - 1)) / m * m) ∧ t.GeExact x m ↔
      t.promoted.Has (x + (m - 1)) ∧ (0 ≤ x + (m - 1) ∨ m ∣ x + (m - 1)) := by
  rw [← tdiv_mul_eq_iff hm]
  constructor
  · rintro ⟨hvalue, hexact⟩
    exact ⟨hexact.sum, Option.some.inj (hexact.value.symm.trans hvalue)⟩
  · rintro ⟨hsum, heq⟩
    have hexact := GeExact.of_has hm' hm hsum
    exact ⟨by rw [hexact.value, heq], hexact⟩

theorem le_iff (hx : t.Has x) (hm : 0 < m) :
    t.leXMultiM x m = some (x / m * m) ∧ t.LeExact x m ↔ 0 ≤ x ∨ m ∣ x := by
  have hexact := LeExact.of_has hx hm
  rw [← tdiv_mul_eq_iff hm, hexact.value, Option.some.injEq]
  exact and_iff_left hexact

/-- **Rounding to a multiple.** -/
theorem multi_law (t : IntType) (x m : ℤ) (hx : t.Has x) (hm' : t.Has m) (hm : 0 < m) :
    MultiLaw t x m ↔ MultiOk t x m := by
  have hleast := isLeast_multiple hm x
  have hgreatest := isGreatest_multiple hm x
  rw [MultiOk, ← ge_iff hm' hm, ← le_iff hx hm]
  constructor
  · rintro ⟨hge, hle⟩
    exact ⟨hge _ hleast, hle _ hgreatest⟩
  · rintro ⟨hge, hle⟩
    refine ⟨fun c hc hhas => ?_, fun c hc hhas => ?_⟩
    · rw [hc.unique hleast] at hhas ⊢
      exact hge hhas
    · rw [hc.unique hgreatest] at hhas ⊢
      exact hle hhas

theorem multi_law_i32 : MultiLaw .i32 11 3 :=
  (multi_law .i32 11 3 (by decide) (by decide) (by decide)).mpr
    ⟨fun _ => by decide, fun _ => by decide⟩

/-- The least multiple of 3 from -4 on is -3, and what is computed is 0. -/
theorem multi_negative : ¬MultiLaw .i32 (-4) 3 := by
  rintro ⟨hge, -⟩
  have hzero : geXMultiM .i32 (-4) 3 = some 0 := by decide
  have hsame := (hge _ (isLeast_multiple (by decide) (-4)) (by decide)).1
  rw [hzero] at hsame
  exact absurd hsame (by decide)

end IntType

end CommonComponent
