import Mathlib.Tactic

/-!
# Division that truncates

How the quotient and the remainder of a division that truncates towards zero stand to the
quotient as a rational number.  What is cut off has the sign of the quotient and is less
than 1, so the truncated quotient is the floor of a positive one and the ceiling of a
negative one.
-/

namespace TruncatedDivision

variable {a b : ℤ}

/-- The quotient is the truncated one and what has been cut off. -/
theorem div_eq_add (hb : b ≠ 0) : (a : ℚ) / b = a.tdiv b + (a.tmod b : ℚ) / b := by
  have hb' : (b : ℚ) ≠ 0 := Int.cast_ne_zero.mpr hb
  have hsplit : (a : ℚ) = b * (a.tdiv b : ℚ) + (a.tmod b : ℚ) := by
    exact_mod_cast (Int.mul_tdiv_add_tmod a b).symm
  field_simp
  linarith

theorem abs_cut_lt_one (hb : b ≠ 0) : |(a.tmod b : ℚ) / b| < 1 := by
  have hb' : (0 : ℚ) < |(b : ℚ)| := abs_pos.mpr (Int.cast_ne_zero.mpr hb)
  have hlt : |a.tmod b| < |b| := by
    rw [Int.abs_eq_natAbs, Int.abs_eq_natAbs, Int.natAbs_tmod]
    exact_mod_cast Nat.mod_lt _ (Int.natAbs_pos.mpr hb)
  rw [abs_div, div_lt_one hb']
  exact_mod_cast hlt

theorem div_pos_iff_same_sign : 0 < (a : ℚ) / b ↔ 0 < a ∧ 0 < b ∨ a < 0 ∧ b < 0 := by
  rw [div_pos_iff]
  simp only [Int.cast_pos, Int.cast_lt_zero]

theorem cut_pos (hexact : a.tmod b ≠ 0) (hq : 0 < (a : ℚ) / b) : 0 < (a.tmod b : ℚ) / b := by
  rw [div_pos_iff_same_sign] at hq ⊢
  rcases hq with ⟨ha, hb⟩ | ⟨ha, hb⟩
  · have hnonneg := Int.tmod_nonneg b ha.le
    omega
  · have hnonneg := Int.tmod_nonneg b (show 0 ≤ -a by omega)
    rw [Int.neg_tmod] at hnonneg
    omega

theorem cut_neg (hexact : a.tmod b ≠ 0) (hq : (a : ℚ) / b < 0) : (a.tmod b : ℚ) / b < 0 := by
  have hq' : 0 < ((-a : ℤ) : ℚ) / b := by
    push_cast
    rw [neg_div]
    linarith
  have hpos := cut_pos (by rwa [Int.neg_tmod, neg_ne_zero]) hq'
  rw [Int.neg_tmod] at hpos
  push_cast at hpos
  rw [neg_div] at hpos
  linarith

theorem floor_of_exact (hb : b ≠ 0) (hexact : a.tmod b = 0) :
    ⌊(a : ℚ) / b⌋ = a.tdiv b ∧ ⌈(a : ℚ) / b⌉ = a.tdiv b := by
  rw [div_eq_add hb, hexact, Int.cast_zero, zero_div, add_zero]
  exact ⟨Int.floor_intCast _, Int.ceil_intCast _⟩

theorem floor_of_pos (hb : b ≠ 0) (hexact : a.tmod b ≠ 0) (hq : 0 < (a : ℚ) / b) :
    ⌊(a : ℚ) / b⌋ = a.tdiv b ∧ ⌈(a : ℚ) / b⌉ = a.tdiv b + 1 := by
  have hcut := cut_pos hexact hq
  have hone := (abs_lt.mp (abs_cut_lt_one (a := a) hb)).2
  rw [div_eq_add hb, Int.floor_eq_iff, Int.ceil_eq_iff]
  push_cast
  refine ⟨⟨?_, ?_⟩, ?_, ?_⟩ <;> linarith

theorem floor_of_neg (hb : b ≠ 0) (hexact : a.tmod b ≠ 0) (hq : (a : ℚ) / b < 0) :
    ⌊(a : ℚ) / b⌋ = a.tdiv b - 1 ∧ ⌈(a : ℚ) / b⌉ = a.tdiv b := by
  have hcut := cut_neg hexact hq
  have hone := (abs_lt.mp (abs_cut_lt_one (a := a) hb)).1
  rw [div_eq_add hb, Int.floor_eq_iff, Int.ceil_eq_iff]
  push_cast
  refine ⟨⟨?_, ?_⟩, ?_, ?_⟩ <;> linarith

/-- The truncated quotient has the sign of the quotient where it has one. -/
theorem div_pos_of_tdiv_pos (hb : b ≠ 0) (hv : 0 < a.tdiv b) : 0 < (a : ℚ) / b := by
  have hone := (abs_lt.mp (abs_cut_lt_one (a := a) hb)).1
  have hv' : (1 : ℚ) ≤ a.tdiv b := by exact_mod_cast hv
  rw [div_eq_add hb]
  linarith

theorem div_neg_of_tdiv_neg (hb : b ≠ 0) (hv : a.tdiv b < 0) : (a : ℚ) / b < 0 := by
  have hone := (abs_lt.mp (abs_cut_lt_one (a := a) hb)).2
  have hv' : (a.tdiv b : ℚ) ≤ -1 := by exact_mod_cast Int.le_sub_one_of_lt hv
  rw [div_eq_add hb]
  linarith

theorem div_ne_zero_of_inexact (hb : b ≠ 0) (hexact : a.tmod b ≠ 0) : (a : ℚ) / b ≠ 0 := by
  refine div_ne_zero (Int.cast_ne_zero.mpr fun ha => hexact ?_) (Int.cast_ne_zero.mpr hb)
  rw [ha, Int.zero_tmod]

/-- A quotient that is not exact has a divisor of at least 2. -/
theorem two_mul_natAbs_tdiv_le (hexact : a.tmod b ≠ 0) :
    2 * (a.tdiv b).natAbs ≤ a.natAbs := by
  have hb : 2 ≤ b.natAbs ∨ b.natAbs = 0 := by
    by_contra hsmall
    have hone : b.natAbs = 1 := by omega
    have hzero : (a.tmod b).natAbs = 0 := by rw [Int.natAbs_tmod, hone, Nat.mod_one]
    exact hexact (Int.natAbs_eq_zero.mp hzero)
  rw [Int.natAbs_tdiv]
  show 2 * (a.natAbs / b.natAbs) ≤ a.natAbs
  rcases hb with hb | hb
  · have hle := Nat.div_mul_le_self a.natAbs b.natAbs
    have htwice := Nat.mul_le_mul_left (a.natAbs / b.natAbs) hb
    omega
  · rw [hb, Nat.div_zero]
    exact Nat.zero_le _

/-! ## Multiples of a positive number -/

section Multiples

variable {m : ℤ}

/-- `y` lies between 0 and `x`. -/
def Within (x y : ℤ) : Prop := 0 ≤ y ∧ y ≤ x ∨ x ≤ y ∧ y ≤ 0

theorem within_tdiv (hm : 0 < m) (x : ℤ) : Within x (x.tdiv m) ∧ Within x (x.tdiv m * m) := by
  have hnonneg : ∀ y : ℤ, 0 ≤ y → (0 ≤ y.tdiv m ∧ y.tdiv m ≤ y) ∧
      (0 ≤ y.tdiv m * m ∧ y.tdiv m * m ≤ y) := by
    intro y hy
    rw [Int.tdiv_eq_ediv_of_nonneg hy]
    have hq := Int.ediv_nonneg hy hm.le
    exact ⟨⟨hq, Int.ediv_le_self m hy⟩, Int.mul_nonneg hq hm.le, Int.ediv_mul_le y hm.ne'⟩
  rcases le_total 0 x with hx | hx
  · exact ⟨.inl (hnonneg x hx).1, .inl (hnonneg x hx).2⟩
  · obtain ⟨⟨hlow, hhigh⟩, hlow', hhigh'⟩ := hnonneg (-x) (by omega)
    rw [Int.neg_tdiv] at hlow hhigh hlow' hhigh'
    rw [Int.neg_mul] at hlow' hhigh'
    exact ⟨.inr ⟨by omega, by omega⟩, .inr ⟨by omega, by omega⟩⟩

theorem isGreatest_multiple (hm : 0 < m) (x : ℤ) :
    IsGreatest {c | c ≤ x ∧ m ∣ c} (x / m * m) := by
  refine ⟨⟨Int.ediv_mul_le x hm.ne', Int.dvd_mul_left _ _⟩, ?_⟩
  rintro c ⟨hc, k, rfl⟩
  rw [Int.mul_comm m k] at hc ⊢
  exact Int.mul_le_mul_of_nonneg_right ((Int.le_ediv_iff_mul_le hm).mpr hc) hm.le

theorem isLeast_multiple (hm : 0 < m) (x : ℤ) :
    IsLeast {c | x ≤ c ∧ m ∣ c} ((x + (m - 1)) / m * m) := by
  refine ⟨⟨?_, Int.dvd_mul_left _ _⟩, ?_⟩
  · have hlt := Int.lt_ediv_add_one_mul_self (x + (m - 1)) hm
    rw [Int.add_mul, Int.one_mul] at hlt
    omega
  · rintro c ⟨hc, k, rfl⟩
    rw [Int.mul_comm m k] at hc ⊢
    refine Int.mul_le_mul_of_nonneg_right (Int.le_of_lt_add_one ?_) hm.le
    rw [Int.ediv_lt_iff_lt_mul hm, Int.add_mul, Int.one_mul]
    omega

theorem tdiv_mul_eq_iff (hm : 0 < m) (x : ℤ) :
    x.tdiv m * m = x / m * m ↔ 0 ≤ x ∨ m ∣ x := by
  rw [Int.mul_eq_mul_right_iff hm.ne', Int.tdiv_eq_ediv, Int.sign_eq_one_of_pos hm]
  split_ifs with h
  · exact iff_of_true (Int.add_zero _) h
  · exact iff_of_false (by omega) h

end Multiples

end TruncatedDivision
