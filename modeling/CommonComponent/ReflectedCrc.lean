import Mathlib.Tactic

/-!
# Reflected cyclic redundancy checks

The register of a reflected check of width `w` gives up its low bit at every step
and feeds the polynomial back when that bit is set.  A step is linear over
exclusive or, so the steps of a register are those of its bytes, each by its
distance from the end: that is all the table-driven and slicing forms use.

When the polynomial has its top bit set a step is injective.  Two messages that
differ inside a window no wider than the register therefore leave different
registers, whatever stands in front of the window and behind it.
-/

namespace ReflectedCrc

variable {w : ℕ} (poly : BitVec w)

/-! ## The register -/

def bitStep (crc : BitVec w) : BitVec w :=
  if crc.getLsbD 0 then (crc >>> 1) ^^^ poly else crc >>> 1

/-- The register behind `k` more bits, fed in together from the low end. -/
def feed {k : ℕ} (crc : BitVec w) (symbol : BitVec k) : BitVec w :=
  (bitStep poly)^[k] (crc ^^^ symbol.setWidth w)

theorem bitStep_xor (a b : BitVec w) :
    bitStep poly (a ^^^ b) = bitStep poly a ^^^ bitStep poly b := by
  simp only [bitStep, BitVec.getLsbD_xor, BitVec.ushiftRight_xor_distrib]
  cases a.getLsbD 0 <;> cases b.getLsbD 0
  all_goals
    simp only [Bool.xor_self, Bool.xor_false, Bool.xor_true, Bool.not_false,
      Bool.false_eq_true, if_true, if_false]
  · ac_rfl
  · ac_rfl
  · have hcancel : ∀ x y : BitVec w, (x ^^^ poly) ^^^ (y ^^^ poly) = x ^^^ y := by
      intro x y
      rw [BitVec.xor_assoc, BitVec.xor_comm y, ← BitVec.xor_assoc poly, BitVec.xor_self,
        BitVec.zero_xor]
    exact (hcancel _ _).symm

theorem bitSteps_xor (n : ℕ) (a b : BitVec w) :
    (bitStep poly)^[n] (a ^^^ b) = (bitStep poly)^[n] a ^^^ (bitStep poly)^[n] b := by
  induction n generalizing a b with
  | zero => rfl
  | succ n ih => simp only [Function.iterate_succ_apply, bitStep_xor, ih]

@[simp] theorem bitSteps_zero (n : ℕ) : (bitStep poly)^[n] 0#w = 0#w := by
  induction n with
  | zero => rfl
  | succ n ih => rw [Function.iterate_succ_apply, show bitStep poly 0#w = 0#w by
      simp [bitStep], ih]

/-- While only clear bits leave, the register moves down and nothing else. -/
theorem bitSteps_of_low_clear {crc : BitVec w} {n : ℕ}
    (hlow : ∀ i, i < n → crc.getLsbD i = false) : (bitStep poly)^[n] crc = crc >>> n := by
  induction n generalizing crc with
  | zero => simp
  | succ n ih =>
      have hstep : bitStep poly crc = crc >>> 1 := by
        simp [bitStep, hlow 0 (Nat.succ_pos n)]
      rw [Function.iterate_succ_apply, hstep, ih, ← BitVec.shiftRight_add, Nat.add_comm]
      intro i hi
      rw [BitVec.getLsbD_ushiftRight]
      exact hlow (1 + i) (by omega)

/-- A step count splits a register: the low bits leave with feedback, and the
others move down. -/
theorem bitSteps_split (crc : BitVec w) (n : ℕ) :
    (bitStep poly)^[n] crc =
      (bitStep poly)^[n] ((crc.setWidth n).setWidth w) ^^^ (crc >>> n) := by
  set low := (crc.setWidth n).setWidth w with hlow
  have hhigh : ∀ i, i < n → (low ^^^ crc).getLsbD i = false := by
    intro i hi
    simp only [hlow, BitVec.getLsbD_xor, BitVec.getLsbD_setWidth, hi, decide_true,
      Bool.true_and]
    by_cases hw : i < w
    · simp [hw]
    · simp [hw, BitVec.getLsbD_of_ge crc i (by omega)]
  have hshift : (low ^^^ crc) >>> n = crc >>> n := by
    apply BitVec.eq_of_getLsbD_eq
    intro i _
    simp [hlow]
  calc (bitStep poly)^[n] crc = (bitStep poly)^[n] (low ^^^ (low ^^^ crc)) := by
        rw [← BitVec.xor_assoc, BitVec.xor_self, BitVec.zero_xor]
    _ = (bitStep poly)^[n] low ^^^ (crc >>> n) := by
        rw [bitSteps_xor, bitSteps_of_low_clear poly hhigh, hshift]

/-! ## Slicing -/

/-- What a byte leaves in the register `n` bytes later. -/
def slice (n : ℕ) (byte : BitVec 8) : BitVec w :=
  (bitStep poly)^[8 * (n + 1)] (byte.setWidth w)

/-- **Slicing.**  To move a register on by whole bytes, its low byte is sliced by
the distance and the rest starts a byte later. -/
theorem bitSteps_slice (crc : BitVec w) (n : ℕ) :
    (bitStep poly)^[8 * (n + 1)] crc =
      slice poly n (crc.setWidth 8) ^^^ (bitStep poly)^[8 * n] (crc >>> 8) := by
  rw [show 8 * (n + 1) = 8 * n + 8 by ring, Function.iterate_add_apply,
    bitSteps_split poly crc 8, bitSteps_xor, ← Function.iterate_add_apply, slice]
  rfl

/-- What stood in the register before a message moves on by the message's length,
and apart from the message. -/
theorem foldl_feed_xor (bytes : List (BitVec 8)) (a b : BitVec w) :
    bytes.foldl (feed poly) (a ^^^ b) =
      (bitStep poly)^[8 * bytes.length] a ^^^ bytes.foldl (feed poly) b := by
  induction bytes generalizing a b with
  | nil => rfl
  | cons byte bytes ih =>
      have hfeed : feed poly (a ^^^ b) byte = (bitStep poly)^[8] a ^^^ feed poly b byte := by
        rw [feed, BitVec.xor_assoc, bitSteps_xor, feed]
      rw [List.foldl_cons, List.foldl_cons, hfeed, ih, ← Function.iterate_add_apply]
      rfl

/-! ## Bursts -/

theorem bitStep_injective (hpoly : poly.getLsbD (w - 1) = true) :
    Function.Injective (bitStep poly) := by
  have hzero : ∀ d : BitVec w, bitStep poly d = 0#w → d = 0#w := by
    intro d hd
    rw [bitStep] at hd
    split at hd
    · -- The top bit of the shifted register is clear and that of the polynomial is set.
      have hbit := congrArg (fun x : BitVec w => x.getLsbD (w - 1)) hd
      simp only [BitVec.getLsbD_xor, BitVec.getLsbD_ushiftRight, hpoly,
        BitVec.getLsbD_zero] at hbit
      rw [BitVec.getLsbD_of_ge d (1 + (w - 1)) (by omega)] at hbit
      exact absurd hbit (by decide)
    · rename_i hlow
      apply BitVec.eq_of_getLsbD_eq
      rintro (_ | i) hi
      · simpa using hlow
      · have hbit := congrArg (fun x : BitVec w => x.getLsbD i) hd
        simpa [Nat.add_comm] using hbit
  intro a b hab
  have hdiff := hzero (a ^^^ b) (by rw [bitStep_xor, hab, BitVec.xor_self])
  exact BitVec.xor_eq_zero_iff.mp hdiff

/-- The register behind a message of bits. -/
def feedBits (crc : BitVec w) (bits : List Bool) : BitVec w :=
  bits.foldl (fun crc bit => feed poly crc (BitVec.ofBool bit)) crc

theorem feedBits_append (crc : BitVec w) (left right : List Bool) :
    feedBits poly crc (left ++ right) = feedBits poly (feedBits poly crc left) right :=
  List.foldl_append

theorem feedBits_injective (hpoly : poly.getLsbD (w - 1) = true) (bits : List Bool) :
    Function.Injective fun crc => feedBits poly crc bits := by
  induction bits with
  | nil => exact fun _ _ h => h
  | cons bit bits ih =>
      intro a b hab
      have hstep : a ^^^ (BitVec.ofBool bit).setWidth w =
          b ^^^ (BitVec.ofBool bit).setWidth w :=
        bitStep_injective poly hpoly (ih hab)
      exact BitVec.xor_left_inj _ |>.mp hstep

/-- The word with the given bits, from the low end. -/
def word (w : ℕ) : List Bool → BitVec w
  | [] => 0#w
  | bit :: bits => (BitVec.ofBool bit).setWidth w ^^^ (word w bits <<< 1)

theorem getLsbD_word (bits : List Bool) (i : ℕ) :
    (word w bits).getLsbD i = (decide (i < w) && bits.getD i false) := by
  induction bits generalizing i with
  | nil => simp [word]
  | cons bit bits ih =>
      cases i with
      | zero => simp [word]
      | succ i =>
          simp only [word, BitVec.getLsbD_xor, BitVec.getLsbD_shiftLeft, ih]
          by_cases hi : i + 1 < w
          · simp [hi, show i < w by omega]
          · simp [hi]

/-- Bits that fit the register may be fed in together. -/
theorem feedBits_eq_word (crc : BitVec w) {bits : List Bool} (hle : bits.length ≤ w) :
    feedBits poly crc bits = (bitStep poly)^[bits.length] (crc ^^^ word w bits) := by
  induction bits generalizing crc with
  | nil => simp [feedBits, word]
  | cons bit bits ih =>
      rw [List.length_cons] at hle
      -- The later bits stand above the first one, and come down when it leaves.
      have hdown : bitStep poly (word w bits <<< 1) = word w bits := by
        have hclear : (bitStep poly)^[1] (word w bits <<< 1) = word w bits <<< 1 >>> 1 :=
          bitSteps_of_low_clear poly (by simp)
        rw [Function.iterate_one] at hclear
        rw [hclear]
        apply BitVec.eq_of_getLsbD_eq
        intro i hi
        by_cases hlast : 1 + i < w
        · simp [hlast, hi]
        · have hlen : bits.length ≤ i := by omega
          simp [hlast, getLsbD_word, List.getElem?_eq_none hlen]
      change feedBits poly (bitStep poly (crc ^^^ (BitVec.ofBool bit).setWidth w)) bits = _
      rw [ih _ (by omega), List.length_cons, Function.iterate_succ_apply, word,
        ← BitVec.xor_assoc, bitStep_xor poly _ (word w bits <<< 1), hdown]

/-- **Burst detection.**  Messages that differ in a window no wider than the
register leave different registers. -/
theorem feedBits_burst (hpoly : poly.getLsbD (w - 1) = true) (crc : BitVec w)
    (front back : List Bool) {burst burst' : List Bool}
    (hlen : burst.length = burst'.length) (hle : burst.length ≤ w) (hne : burst ≠ burst') :
    feedBits poly crc (front ++ burst ++ back) ≠
      feedBits poly crc (front ++ burst' ++ back) := by
  intro heq
  simp only [feedBits_append] at heq
  have hwindow := feedBits_injective poly hpoly back heq
  rw [feedBits_eq_word poly _ hle, feedBits_eq_word poly _ (hlen.symm.trans_le hle),
    hlen] at hwindow
  have hword := (bitStep_injective poly hpoly).iterate _ hwindow
  rw [BitVec.xor_right_inj] at hword
  apply hne
  apply List.ext_getElem hlen
  intro i hi hi'
  have hbit := congrArg (fun x : BitVec w => x.getLsbD i) hword
  simp only [getLsbD_word, show i < w by omega, decide_true, Bool.true_and] at hbit
  simpa [hi, hi'] using hbit

/-- The bits of a byte, low bit first. -/
def bitsOf (byte : BitVec 8) : List Bool :=
  (List.range 8).map byte.getLsbD

@[simp] theorem length_bitsOf (byte : BitVec 8) : (bitsOf byte).length = 8 := rfl

theorem getD_bitsOf (byte : BitVec 8) (i : ℕ) :
    (bitsOf byte)[i]?.getD false = byte.getLsbD i := by
  by_cases hi : i < 8
  · simp [bitsOf, hi]
  · rw [List.getElem?_eq_none (by simpa using hi), BitVec.getLsbD_of_ge byte i (by omega)]
    rfl

theorem word_bitsOf (byte : BitVec 8) : word w (bitsOf byte) = byte.setWidth w := by
  apply BitVec.eq_of_getLsbD_eq
  intro i _
  rw [getLsbD_word, BitVec.getLsbD_setWidth, List.getD_eq_getElem?_getD, getD_bitsOf]

/-- A message of bytes is the message of their bits. -/
theorem feedBits_bytes (hw : 8 ≤ w) (crc : BitVec w) (bytes : List (BitVec 8)) :
    feedBits poly crc (bytes.flatMap bitsOf) = bytes.foldl (feed poly) crc := by
  induction bytes generalizing crc with
  | nil => rfl
  | cons byte bytes ih =>
      rw [List.flatMap_cons, feedBits_append, ih, feedBits_eq_word poly crc (by simpa using hw),
        word_bitsOf, List.foldl_cons]
      rfl

end ReflectedCrc
