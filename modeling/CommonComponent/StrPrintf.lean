import CommonComponent.FormatBuffer
import CommonComponent.StrUtil
import Mathlib.Tactic

/-!
# Printing into a buffer of any size

`StrPrintf` gives `vsnprintf` the size as a `size_t` and compares the length of the text to
the size as an `int`.  The text is whole, or cut to the buffer, while that is the size or
at least greater than the length of the text.
-/

namespace CommonComponent

open FormatBuffer

/-- `outside` is a byte that is written where the buffer is not. -/
inductive PrintResult
  | outside
  | ret (n : ℤ) (buf : Bytes)
deriving DecidableEq

/-- The format is given as the text it comes to.  `vsnprintf` has no length for one that does
not fit an `int`. -/
def strPrintf (buf text : Bytes) : PrintResult :=
  if buf.length < 2 then .ret 0 buf
  else
    let printed := snprintf 0 buf text
    if 2 ^ 31 ≤ text.length then .ret (-1) printed
    else
      let n := if toInt buf.length ≤ text.length then toInt (buf.length - 1) else text.length
      if 0 ≤ n ∧ n < buf.length then .ret n (printed.set n.toNat 0) else .outside

/-- Its size, as an `int`, does not keep the text from being printed as it should be. -/
def Prints (size len : ℕ) : Prop := len < 2 ^ 31 ∧ (size < 2 ^ 31 ∨ len < toInt size)

variable {buf text : Bytes}

theorem toInt_le (n : ℕ) : toInt n ≤ n := by
  unfold toInt
  rw [Int.bmod_def]
  split <;> omega

theorem toInt_lt (n : ℕ) : toInt n < 2 ^ 31 := by
  unfold toInt
  rw [Int.bmod_def]
  split <;> omega

theorem set_snprintf :
    (snprintf 0 buf text).set (min text.length (buf.length - 1)) 0 = snprintf 0 buf text := by
  have hlen : (text.take (buf.length - 1)).length = min text.length (buf.length - 1) := by
    rw [List.length_take, min_comm]
  rw [snprintf, List.set_append_right _ _ hlen.le, hlen, Nat.sub_self, List.set_cons_zero]

theorem strPrintf_eq (hbuf : 2 ≤ buf.length) (h : Prints buf.length text.length) :
    strPrintf buf text = .ret (min text.length (buf.length - 1) : ℕ) (snprintf 0 buf text) := by
  have hn : (if toInt buf.length ≤ text.length then toInt (buf.length - 1) else text.length) =
      ((min text.length (buf.length - 1) : ℕ) : ℤ) := by
    obtain ⟨-, hsmall | hmore⟩ := h
    · rw [toInt_eq hsmall, toInt_eq (by omega)]
      split <;> omega
    · have hle := toInt_le buf.length
      rw [if_neg (by omega)]
      omega
  rw [strPrintf, if_neg (by omega)]
  simp only [hn]
  rw [if_neg (Nat.not_le.mpr h.1), if_pos (by omega), Int.toNat_natCast,
    set_snprintf]

theorem toInt_sub {n size o : ℕ} (hn : toInt n = size) (ho : o ≤ size) :
    toInt (n - o) = (size - o : ℕ) := by
  unfold toInt at *
  rw [Int.bmod_def] at *
  split at hn <;> split <;> omega

/-- What is printed where the size is positive as an `int`: the text counts as cut to that
size, and it stands in the buffer when it is shorter. -/
theorem exists_strPrintf_eq {size : ℕ} (hsize : toInt buf.length = size) (hpos : 0 < size)
    (htext : text.length < 2 ^ 31) :
    ∃ printed, strPrintf buf text = .ret (min text.length (size - 1) : ℕ) printed ∧
      printed.length = buf.length ∧
      (2 ≤ buf.length ∨ buf[0]? = some 0 → printed[min text.length (size - 1)]? = some 0) ∧
      (text.length < size → text <+: printed) := by
  have hle := toInt_le buf.length
  by_cases hbuf : buf.length < 2
  · have hnone : min text.length (size - 1) = 0 := by omega
    refine ⟨buf, ?_, rfl, fun h => ?_, fun hlt => ?_⟩
    · rw [strPrintf, if_pos hbuf, hnone]
      rfl
    · rw [hnone]
      exact h.resolve_left (Nat.not_le.mpr hbuf)
    · rw [List.eq_nil_of_length_eq_zero (show text.length = 0 by omega)]
      exact List.nil_prefix
  · have hn : (if toInt buf.length ≤ text.length then toInt (buf.length - 1) else text.length) =
        ((min text.length (size - 1) : ℕ) : ℤ) := by
      rw [toInt_sub hsize hpos]
      split <;> omega
    have hlen : (snprintf 0 buf text).length = buf.length := length_snprintf 0 text (by omega)
    refine ⟨(snprintf 0 buf text).set (min text.length (size - 1)) 0, ?_, ?_, fun _ => ?_,
      fun hlt => ?_⟩
    · rw [strPrintf, if_neg hbuf]
      simp only [hn]
      rw [if_neg (Nat.not_le.mpr htext), if_pos (by omega), Int.toNat_natCast]
    · rw [List.length_set, hlen]
    · exact List.getElem?_set_self (by omega)
    · rw [show min text.length (size - 1) = min text.length (buf.length - 1) by omega,
        set_snprintf, snprintf, List.take_of_length_le (by omega)]
      exact List.prefix_append _ _

theorem strPrintf_of_toInt_le (hbuf : 2 ≤ buf.length) (htext : text.length < 2 ^ 31)
    (h : toInt buf.length ≤ text.length) :
    strPrintf buf text =
      if 0 ≤ toInt (buf.length - 1) ∧ toInt (buf.length - 1) < buf.length then
        .ret (toInt (buf.length - 1)) ((snprintf 0 buf text).set (toInt (buf.length - 1)).toNat 0)
      else .outside := by
  rw [strPrintf, if_neg (by omega)]
  simp only [if_pos h]
  exact if_neg (Nat.not_le.mpr htext)

/-- A text that fits is told from every other one. -/
theorem eq_of_strPrintf_eq {other : Bytes} (hsize : buf.length < 2 ^ 31)
    (hfits : other.length + 1 < buf.length)
    (h : strPrintf buf text = .ret other.length (snprintf 0 buf other)) : text = other := by
  have hbuf : 2 ≤ buf.length := by omega
  by_cases hlong : 2 ^ 31 ≤ text.length
  · rw [strPrintf, if_neg (by omega)] at h
    simp only [if_pos hlong, PrintResult.ret.injEq] at h
    omega
  · rw [strPrintf_eq hbuf ⟨Nat.lt_of_not_le hlong, .inl hsize⟩, PrintResult.ret.injEq] at h
    obtain ⟨hn, hprinted⟩ := h
    have hlen : text.length = other.length := by omega
    rw [snprintf, snprintf] at hprinted
    have htake := (List.append_inj hprinted (by simp only [List.length_take, hlen])).1
    rwa [List.take_of_length_le (by omega), List.take_of_length_le (by omega)] at htake

end CommonComponent
