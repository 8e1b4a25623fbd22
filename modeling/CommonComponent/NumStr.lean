import CommonComponent.HttpLines
import CommonComponent.StrPrintf
import Mathlib.Tactic

/-!
# Numbers and texts

`Num2Str` prints a number with the conversion of its type.  `Str2Num` reads it with `atoi`
or `atoll` whether the type has a sign or not: `atoi` is the `int` that `strtol` comes to,
and both `strtol` and `strtoll` stop at the ends of 64 bits with a sign.
-/

namespace CommonComponent

open FormatBuffer

/-! ## Reading -/

def isDigit (c : UInt8) : Bool := 48 ≤ c && c ≤ 57

def numeral (digits : Bytes) : ℕ := digits.foldl (fun n c => 10 * n + (c.toNat - 48)) 0

/-- With base 10; the value of the digits, if there are any, behind white space and a sign. -/
def strtol (s : Bytes) : ℤ :=
  match s.dropWhile isSpace with
  | 45 :: rest => max (-2 ^ 63) (-numeral (rest.takeWhile isDigit))
  | 43 :: rest => min (2 ^ 63 - 1) (numeral (rest.takeWhile isDigit))
  | rest => min (2 ^ 63 - 1) (numeral (rest.takeWhile isDigit))

def atoi (s : Bytes) : ℤ := Int.bmod (strtol s) (2 ^ 32)

def atoll (s : Bytes) : ℤ := strtol s

/-! ## The four types -/

inductive NumType
  | i32
  | u32
  | i64
  | u64
deriving DecidableEq

def NumType.Has (x : ℤ) : NumType → Prop
  | .i32 => -2 ^ 31 ≤ x ∧ x < 2 ^ 31
  | .u32 => 0 ≤ x ∧ x < 2 ^ 32
  | .i64 => -2 ^ 63 ≤ x ∧ x < 2 ^ 63
  | .u64 => 0 ≤ x ∧ x < 2 ^ 64

/-- `%d` and `%ld`, of a number of that type. -/
def signedText (x : ℤ) : Bytes :=
  if x < 0 then 45 :: decimal x.natAbs else decimal x.natAbs

def numText (x : ℤ) : NumType → Bytes
  | .i32 | .i64 => signedText x
  | .u32 | .u64 => decimal x.toNat

/-- Its size is given as an `int`. -/
abbrev IntSized := {buf : Bytes // buf.length < 2 ^ 31}

def num2Str (buf : IntSized) (t : NumType) (x : ℤ) : PrintResult :=
  strPrintf buf.1 (numText x t)

def str2Num (s : Bytes) : NumType → ℤ
  | .i32 => atoi s
  | .u32 => atoi s % 2 ^ 32
  | .i64 => atoll s
  | .u64 => atoll s % 2 ^ 64

/-! ## The round trip -/

/-- The text and its NUL are within the buffer and the rest is left as it is, and nothing is
written where there is no room for a letter.  A text that fits is read as the number. -/
def RoundTrip (buf : IntSized) (t : NumType) (x : ℤ) : Prop :=
  ∃ (n : ℕ) (buf' : Bytes), num2Str buf t x = .ret n buf' ∧ buf'.length = buf.1.length ∧
    (buf' = buf.1 ∨ n < buf.1.length ∧ buf'[n]? = some 0 ∧
      buf'.drop (n + 1) = buf.1.drop (n + 1)) ∧
    ((numText x t).length < buf.1.length → str2Num (cStr buf') t = x)

theorem numeral_decimal (n : ℕ) : numeral (decimal n) = n := by
  have hvalue := Nat.ofDigitChars_ten_toDigits (n := n)
  rw [Nat.ofDigitChars_eq_foldl] at hvalue
  rw [numeral, decimal, List.foldl_map]
  refine (List.foldl_ext _ _ _ fun m c hc => ?_).trans hvalue
  rw [(digit_code hc).2.2]
  rfl

theorem isDigit_decimal {n : ℕ} {c : UInt8} (hc : c ∈ decimal n) : isDigit c := by
  obtain ⟨hlow, hhigh⟩ := decimal_digit hc
  simp [isDigit, hlow, hhigh]

theorem not_isSpace_of_isDigit {c : UInt8} (hc : isDigit c) : isSpace c = false := by
  simp only [isDigit, Bool.and_eq_true, decide_eq_true_eq, UInt8.le_iff_toNat_le] at hc
  obtain ⟨hlow, -⟩ := hc
  have hne : c ≠ 32 := fun heq => absurd (heq ▸ hlow) (by decide)
  have hhigh : ¬c ≤ 13 := fun hle => absurd (hlow.trans (UInt8.le_iff_toNat_le.mp hle)) (by decide)
  simp [isSpace, hne, hhigh]

theorem strtol_digits {s : Bytes} (hs : s ≠ []) (hdigits : ∀ c ∈ s, isDigit c) :
    strtol s = min (2 ^ 63 - 1) (numeral s : ℤ) := by
  obtain ⟨c, rest, rfl⟩ := List.exists_cons_of_ne_nil hs
  have hc := hdigits c List.mem_cons_self
  have hskip : (c :: rest).dropWhile isSpace = c :: rest := by
    rw [List.dropWhile_cons, not_isSpace_of_isDigit hc]
    rfl
  have htake : (c :: rest).takeWhile isDigit = c :: rest := List.takeWhile_eq_self_iff.mpr hdigits
  rw [strtol, hskip]
  split
  · next h => exact absurd hc ((List.cons.inj h).1 ▸ by decide)
  · next h => exact absurd hc ((List.cons.inj h).1 ▸ by decide)
  · rw [htake]

theorem strtol_decimal (n : ℕ) : strtol (decimal n) = min (2 ^ 63 - 1) (n : ℤ) := by
  have hne : decimal n ≠ [] := by simp [decimal]
  rw [strtol_digits hne fun c hc => isDigit_decimal hc, numeral_decimal]

theorem strtol_neg_decimal (n : ℕ) : strtol (45 :: decimal n) = max (-2 ^ 63) (-n : ℤ) := by
  have htake : (decimal n).takeWhile isDigit = decimal n :=
    List.takeWhile_eq_self_iff.mpr fun c hc => isDigit_decimal hc
  show max (-2 ^ 63) (-(numeral ((decimal n).takeWhile isDigit) : ℤ)) = _
  rw [htake, numeral_decimal]

theorem strtol_signedText {x : ℤ} (hlow : -2 ^ 63 ≤ x) (hhigh : x < 2 ^ 63) :
    strtol (signedText x) = x := by
  unfold signedText
  split_ifs with hneg
  · rw [strtol_neg_decimal]
    omega
  · rw [strtol_decimal]
    omega

/-- Only the upper half of the last type is not read as it has been written. -/
theorem str2Num_numText {t : NumType} {x : ℤ} (hx : t.Has x) :
    str2Num (numText x t) t = x ↔ t = .u64 → x < 2 ^ 63 := by
  cases t with
  | i32 =>
      obtain ⟨hlow, hhigh⟩ := hx
      refine iff_of_true ?_ (fun h => by cases h)
      rw [str2Num, atoi, numText, strtol_signedText (by omega) (by omega)]
      exact Int.bmod_eq_of_le (by omega) (by omega)
  | u32 =>
      obtain ⟨hlow, hhigh⟩ := hx
      refine iff_of_true ?_ (fun h => by cases h)
      have hmod := Int.bmod_emod (x := min (2 ^ 63 - 1) (x.toNat : ℤ)) (m := 2 ^ 32)
      rw [str2Num, atoi, numText, strtol_decimal]
      omega
  | i64 =>
      obtain ⟨hlow, hhigh⟩ := hx
      refine iff_of_true ?_ (fun h => by cases h)
      rw [str2Num, atoll, numText, strtol_signedText hlow hhigh]
  | u64 =>
      obtain ⟨hlow, hhigh⟩ := hx
      rw [str2Num, atoll, numText, strtol_decimal]
      simp only [forall_const]
      omega

theorem zero_not_mem_numText (x : ℤ) (t : NumType) : 0 ∉ numText x t := by
  have hdecimal : ∀ n, (0 : UInt8) ∉ decimal n := fun n => not_mem_decimal (by decide)
  have hsigned : 0 ∉ signedText x := by
    unfold signedText
    split_ifs <;> simp [hdecimal]
  cases t with
  | i32 => exact hsigned
  | u32 => exact hdecimal _
  | i64 => exact hsigned
  | u64 => exact hdecimal _

theorem length_numText_pos (x : ℤ) (t : NumType) : 0 < (numText x t).length := by
  have hdecimal : ∀ n, 0 < (decimal n).length := fun n => by
    rw [decimal, List.length_map]
    exact Nat.length_toDigits_pos
  have hsigned : 0 < (signedText x).length := by
    unfold signedText
    split_ifs
    · exact Nat.succ_pos _
    · exact hdecimal _
  cases t with
  | i32 => exact hsigned
  | u32 => exact hdecimal _
  | i64 => exact hsigned
  | u64 => exact hdecimal _

theorem length_numText_le {t : NumType} {x : ℤ} (hx : t.Has x) : (numText x t).length ≤ 21 := by
  have hsigned : -2 ^ 63 ≤ x ∧ x < 2 ^ 63 → (signedText x).length ≤ 21 := by
    intro hrange
    have hlen := length_decimal_le (show x.natAbs < 2 ^ 64 by omega)
    unfold signedText
    split_ifs
    · rw [List.length_cons]
      omega
    · omega
  have hunsigned : 0 ≤ x ∧ x < 2 ^ 64 → (decimal x.toNat).length ≤ 21 := fun hrange =>
    (length_decimal_le (show x.toNat < 2 ^ 64 by omega)).trans (by decide)
  cases t with
  | i32 => exact hsigned ⟨hx.1.trans' (by decide), hx.2.trans (by decide)⟩
  | u32 => exact hunsigned ⟨hx.1, hx.2.trans (by decide)⟩
  | i64 => exact hsigned hx
  | u64 => exact hunsigned hx

/-- **From number to text and back.** -/
theorem num2Str_roundTrip (buf : IntSized) (t : NumType) (x : ℤ) (hx : t.Has x) :
    RoundTrip buf t x ↔ (t = .u64 → x < 2 ^ 63) ∨ buf.1.length ≤ (numText x t).length := by
  have hlen := length_numText_le hx
  have hpos := length_numText_pos x t
  by_cases hbuf : buf.1.length < 2
  · have hret : num2Str buf t x = .ret (0 : ℕ) buf.1 := if_pos hbuf
    refine iff_of_true ⟨0, buf.1, hret, rfl, .inl rfl, fun hfits => ?_⟩ (.inr ?_) <;> omega
  · have hret : num2Str buf t x =
        .ret (min (numText x t).length (buf.1.length - 1) : ℕ) (snprintf 0 buf.1 (numText x t)) :=
      strPrintf_eq (by omega) ⟨by omega, .inl buf.2⟩
    have hsize := length_snprintf 0 (numText x t) (show 0 < buf.1.length by omega)
    have hbehind : (snprintf 0 buf.1 (numText x t)).drop
        (min (numText x t).length (buf.1.length - 1)) =
          0 :: buf.1.drop (min (numText x t).length (buf.1.length - 1) + 1) := drop_snprintf
    have hread : (numText x t).length < buf.1.length →
        cStr (snprintf 0 buf.1 (numText x t)) = numText x t := by
      intro hfits
      rw [snprintf, List.take_of_length_le (by omega)]
      exact cStr_append_zero (zero_not_mem_numText x t) _
    constructor
    · rintro ⟨n, buf', hret', -, -, hback⟩
      obtain ⟨-, rfl⟩ := PrintResult.ret.inj (hret.symm.trans hret')
      by_cases hfits : (numText x t).length < buf.1.length
      · exact .inl ((str2Num_numText hx).mp (hread hfits ▸ hback hfits))
      · exact .inr (Nat.le_of_not_lt hfits)
    · intro hgood
      refine ⟨_, _, hret, hsize, .inr ⟨by omega, ?_, ?_⟩, fun hfits => ?_⟩
      · rw [← Nat.add_zero (min _ _), ← List.getElem?_drop, hbehind]
        rfl
      · rw [← List.drop_drop, hbehind]
        rfl
      · rw [hread hfits]
        exact (str2Num_numText hx).mpr (hgood.resolve_right (Nat.not_le.mpr hfits))

theorem num2Str_roundTrip_i32 : RoundTrip ⟨List.replicate 16 0, by decide⟩ .i32 (-123) :=
  (num2Str_roundTrip ⟨List.replicate 16 0, by decide⟩ .i32 (-123)
    ⟨by decide, by decide⟩).mpr (.inl fun h => by cases h)

/-- The greatest number of 64 bits comes back as the greatest with a sign. -/
theorem num2Str_greatest : ¬RoundTrip ⟨List.replicate 32 0, by decide⟩ .u64 (2 ^ 64 - 1) := by
  rintro ⟨n, buf', hret, -, -, hback⟩
  have hprinted : num2Str ⟨List.replicate 32 0, by decide⟩ .u64 (2 ^ 64 - 1) =
      .ret 20 (ascii "18446744073709551615" ++ List.replicate 12 0) := by
    decide +kernel
  obtain ⟨-, rfl⟩ := PrintResult.ret.inj (hprinted.symm.trans hret)
  exact absurd (hback (by decide +kernel)) (by decide +kernel)

end CommonComponent
