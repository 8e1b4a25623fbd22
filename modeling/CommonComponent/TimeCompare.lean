import Mathlib.Tactic

/-!
# Comparing ticks

A tick is an `unsigned long` that wraps.  Two ticks are compared by the sign of the
difference of both as a `long`.  As `long` subtraction wraps on the machine, the sign is
right whenever the gap is less than half of the range; the subtraction itself leaves the
range when the two lie on both sides of its middle.
-/

namespace CommonComponent

abbrev Tick := BitVec 64

def longDiff (a b : Tick) : ℤ := a.toInt - b.toInt

def DiffInRange (a b : Tick) : Prop := -2 ^ 63 ≤ longDiff a b ∧ longDiff a b < 2 ^ 63

def wrappedDiff (a b : Tick) : ℤ := Int.bmod (longDiff a b) (2 ^ 64)

/-- Both `TYPE_CHECK`s are 1. -/
def timeAfter (a b : Tick) : Bool := wrappedDiff b a < 0

def timeBefore (a b : Tick) : Bool := timeAfter b a

def timeAfterEq (a b : Tick) : Bool := wrappedDiff a b ≥ 0

def timeBeforeEq (a b : Tick) : Bool := timeAfterEq b a

def timeInRange (a b c : Tick) : Bool := timeAfterEq a b && timeBeforeEq a c

/-- What the comparisons say of a later tick and an earlier one. -/
structure Ordered (a b : Tick) : Prop where
  after : timeAfter a b = true
  not_after : timeAfter b a = false
  not_before : timeBefore a b = false
  before : timeBefore b a = true
  after_eq : timeAfterEq a b = true
  not_after_eq : timeAfterEq b a = false
  not_before_eq : timeBeforeEq a b = false
  before_eq : timeBeforeEq b a = true

/-- The comparisons are right for ticks with a gap, for a tick and itself and for ranges, and
no subtraction in them leaves the range of `long`. -/
structure TimeLaw (b : Tick) (d : ℕ) : Prop where
  ordered : Ordered (b + BitVec.ofNat 64 d) b
  same : timeAfterEq b b = true ∧ timeBeforeEq b b = true
  range : ∀ a c, timeInRange a b c = (timeAfterEq a b && timeBeforeEq a c)
  defined : DiffInRange (b + BitVec.ofNat 64 d) b ∧ DiffInRange b (b + BitVec.ofNat 64 d) ∧
    DiffInRange b b

variable {b : Tick} {d : ℕ}

theorem toInt_add_gap (hd : d < 2 ^ 63) :
    (b + BitVec.ofNat 64 d).toInt =
      if b.toInt + d < 2 ^ 63 then b.toInt + d else b.toInt + d - 2 ^ 64 := by
  have hlow := BitVec.le_toInt b
  have hhigh := BitVec.toInt_lt (x := b)
  have hgap : (BitVec.ofNat 64 d).toInt = d := by
    rw [BitVec.toInt_ofNat', Int.bmod_eq_of_le] <;> omega
  rw [BitVec.toInt_add, hgap, Int.bmod_def]
  split <;> split <;> omega

theorem wrappedDiff_gap (hd : d < 2 ^ 63) :
    wrappedDiff (b + BitVec.ofNat 64 d) b = d ∧ wrappedDiff b (b + BitVec.ofNat 64 d) = -d := by
  have hlater := toInt_add_gap (b := b) hd
  unfold wrappedDiff longDiff
  rw [hlater, Int.bmod_def, Int.bmod_def]
  constructor <;> split_ifs <;> omega

theorem ordered_gap (hpos : 1 ≤ d) (hd : d < 2 ^ 63) : Ordered (b + BitVec.ofNat 64 d) b := by
  obtain ⟨hforth, hback⟩ := wrappedDiff_gap (b := b) hd
  have hafter : timeAfter (b + BitVec.ofNat 64 d) b = true := by
    rw [timeAfter, hback]
    exact decide_eq_true (by omega)
  have hnot : timeAfter b (b + BitVec.ofNat 64 d) = false := by
    rw [timeAfter, hforth]
    exact decide_eq_false (by omega)
  have hafterEq : timeAfterEq (b + BitVec.ofNat 64 d) b = true := by
    rw [timeAfterEq, hforth]
    exact decide_eq_true (by omega)
  have hnotEq : timeAfterEq b (b + BitVec.ofNat 64 d) = false := by
    rw [timeAfterEq, hback]
    exact decide_eq_false (by omega)
  exact ⟨hafter, hnot, hnot, hafter, hafterEq, hnotEq, hnotEq, hafterEq⟩

theorem timeAfterEq_self (b : Tick) : timeAfterEq b b = true := by
  simp [timeAfterEq, wrappedDiff, longDiff]

theorem diffInRange_gap_iff (hpos : 1 ≤ d) (hd : d < 2 ^ 63) :
    DiffInRange (b + BitVec.ofNat 64 d) b ∧ DiffInRange b (b + BitVec.ofNat 64 d) ↔
      2 ^ 63 ≤ b.toNat ∨ b.toNat + d < 2 ^ 63 := by
  have hlater := toInt_add_gap (b := b) hd
  have hsign := BitVec.toInt_eq_toNat_cond b
  unfold DiffInRange longDiff
  rw [hlater]
  split_ifs at hsign ⊢ <;> omega

/-- **Comparing ticks.** -/
theorem time_law (b : Tick) (d : ℕ) (hpos : 1 ≤ d) (hd : d ≤ 2 ^ 63 - 1) :
    TimeLaw b d ↔ 2 ^ 63 ≤ b.toNat ∨ b.toNat + d < 2 ^ 63 := by
  have hlt : d < 2 ^ 63 := by omega
  rw [← diffInRange_gap_iff hpos hlt]
  constructor
  · exact fun h => ⟨h.defined.1, h.defined.2.1⟩
  · rintro ⟨hforth, hback⟩
    have hself : DiffInRange b b := by simp [DiffInRange, longDiff]
    exact ⟨ordered_gap hpos hlt, ⟨timeAfterEq_self b, timeAfterEq_self b⟩, fun _ _ => rfl,
      hforth, hback, hself⟩

/-- The unsigned wrap is no obstacle. -/
theorem time_law_wrap : TimeLaw (BitVec.ofNat 64 (2 ^ 64 - 1)) 5 :=
  (time_law (BitVec.ofNat 64 (2 ^ 64 - 1)) 5 (by decide) (by decide)).mpr (.inl (by decide))

/-- One tick behind the greatest `long`. -/
theorem time_middle : ¬TimeLaw (BitVec.ofNat 64 (2 ^ 63 - 1)) 1 := by
  intro h
  have hrange := h.defined.2.1.2
  revert hrange
  decide

end CommonComponent
