import CommonComponent.FormatBuffer
import CommonComponent.HttpReq
import CommonComponent.TextPieces
import Mathlib.Tactic

/-!
# The lines of an HTTP head

`RspMaker` and `Req::Dump` print each line of a head into a buffer of 1024 bytes.  A string
that is printed is read as far as its first NUL.
-/

namespace CommonComponent

open FormatBuffer

def crlf : Bytes := [13, 10]

/-- `%lu`, and `%d` of what is not negative. -/
def decimal (n : ℕ) : Bytes := (Nat.toDigits 10 n).map fun c => UInt8.ofNat c.toNat

/-- `char buf[1024] = ""`. -/
def formatBuf : Bytes := List.replicate 1024 0

/-- `"%s: %s\r\n"`. -/
def headerLine (header : Bytes × Bytes) : Bytes :=
  cStr header.1 ++ 58 :: 32 :: (cStr header.2 ++ crlf)

def headerText (header : Bytes × Bytes) : Bytes :=
  header.1 ++ 58 :: 32 :: (header.2 ++ crlf)

/-- The header is text, and its line leaves room for the terminator. -/
structure HeaderFits (header : Bytes × Bytes) : Prop where
  name : 0 ∉ header.1
  value : 0 ∉ header.2
  short : (headerText header).length < 1024

instance nontrivialUInt8 : Nontrivial UInt8 := ⟨0, 1, by decide⟩

@[simp] theorem length_formatBuf : formatBuf.length = 1024 := List.length_replicate

theorem cStr_append {s : Bytes} (hs : 0 ∈ s) : ∃ rest, s = cStr s ++ 0 :: rest :=
  ⟨_, (TextPieces.before_append_behind hs).symm⟩

theorem length_cStr_lt {s : Bytes} (hs : 0 ∈ s) : (cStr s).length < s.length := by
  obtain ⟨rest, hrest⟩ := cStr_append hs
  have hlen := congrArg List.length hrest
  simp only [List.length_append, List.length_cons] at hlen
  omega

theorem length_cStr_le (s : Bytes) : (cStr s).length ≤ s.length :=
  (List.takeWhile_prefix _).length_le

theorem not_mem_of_length_cStr {s : Bytes} (hlen : (cStr s).length = s.length) : 0 ∉ s :=
  fun hs => (length_cStr_lt hs).ne hlen

theorem printed_cut {cap : ℕ} (front : Bytes) {s : Bytes} (hs : 0 ∈ s) {a b : UInt8}
    (ha : a ≠ 0) (u v : Bytes) :
    Printed 0 cap (front ++ (cStr s ++ a :: b :: u)) (front ++ (s ++ v)) := by
  obtain ⟨rest, hrest⟩ := cStr_append hs
  have hfull : front ++ (s ++ v) = (front ++ cStr s) ++ 0 :: (rest ++ v) := by
    calc front ++ (s ++ v) = front ++ ((cStr s ++ 0 :: rest) ++ v) := by rw [← hrest]
      _ = (front ++ cStr s) ++ 0 :: (rest ++ v) := by simp
  rw [hfull, ← List.append_assoc]
  exact .cut (front ++ cStr s) u (rest ++ v) ha

theorem printed_header (cap : ℕ) (header : Bytes × Bytes) :
    Printed 0 cap (headerLine header) (headerText header) := by
  by_cases hname : 0 ∈ header.1
  · exact printed_cut [] hname (by decide) _ _
  · by_cases hvalue : 0 ∈ header.2
    · have hcut : Printed 0 cap ((header.1 ++ [58, 32]) ++ (cStr header.2 ++ crlf))
          ((header.1 ++ [58, 32]) ++ (header.2 ++ crlf)) :=
        printed_cut _ hvalue (by decide) [] crlf
      rw [List.append_assoc, List.append_assoc] at hcut
      rw [headerLine, cStr_eq_self hname]
      exact hcut
    · rw [headerLine, cStr_eq_self hname, cStr_eq_self hvalue]
      exact .whole (by simp [crlf, hname, hvalue])

theorem headerLine_eq_iff (header : Bytes × Bytes) :
    headerLine header = headerText header ∧ (headerLine header).length < 1024 ↔
      HeaderFits header := by
  constructor
  · rintro ⟨heq, hshort⟩
    have hlen := congrArg List.length heq
    simp only [headerLine, headerText, List.length_append, List.length_cons] at hlen
    have hname := length_cStr_le header.1
    have hvalue := length_cStr_le header.2
    exact ⟨not_mem_of_length_cStr (by omega), not_mem_of_length_cStr (by omega),
      heq ▸ hshort⟩
  · rintro ⟨hname, hvalue, hshort⟩
    have heq : headerLine header = headerText header := by
      rw [headerLine, cStr_eq_self hname, cStr_eq_self hvalue]
      rfl
    exact ⟨heq, heq ▸ hshort⟩

/-- The head of a message: its first line, and a line for each header. -/
theorem head_eq_iff {β : Type*} {first firstText : Bytes} {line full : β → Bytes}
    {headers : List β} (hfirst : Printed 0 1024 first firstText)
    (hheaders : ∀ header ∈ headers, Printed 0 1024 (line header) (full header))
    (tail : Bytes) :
    (∀ behind, (printLines 0 behind ([], formatBuf) (first :: headers.map line)).1 ++ tail =
      firstText ++ headers.flatMap full ++ tail) ↔
      (first = firstText ∧ first.length < 1024) ∧
        ∀ header ∈ headers, line header = full header ∧ (line header).length < 1024 := by
  let lines : List (Bytes × Bytes) :=
    (first, firstText) :: headers.map fun header => (line header, full header)
  have hprinted : ∀ l ∈ lines, Printed 0 formatBuf.length l.1 l.2 := by
    rw [length_formatBuf, List.forall_mem_cons, List.forall_mem_map]
    exact ⟨hfirst, hheaders⟩
  have hfst : lines.map Prod.fst = first :: headers.map line := by
    simp [lines]
  have hsnd : lines.flatMap Prod.snd = firstText ++ headers.flatMap full := by
    simp [lines, List.flatMap_map]
  have htext := printLines_eq_iff hprinted (by simp) [] tail
  rw [hfst, hsnd, length_formatBuf, List.forall_mem_cons, List.forall_mem_map] at htext
  exact htext

/-! ## Numbers -/

theorem digit_code {n : ℕ} {d : Char} (hd : d ∈ Nat.toDigits 10 n) :
    48 ≤ d.toNat ∧ d.toNat ≤ 57 ∧ (UInt8.ofNat d.toNat).toNat = d.toNat := by
  have hdigit := Nat.isDigit_of_mem_toDigits (by decide) (by decide) hd
  rw [Char.isDigit, Bool.and_eq_true, decide_eq_true_eq, decide_eq_true_eq] at hdigit
  have hlow : 48 ≤ d.toNat := UInt32.le_iff_toNat_le.mp hdigit.1
  have hhigh : d.toNat ≤ 57 := UInt32.le_iff_toNat_le.mp hdigit.2
  exact ⟨hlow, hhigh, by rw [UInt8.toNat_ofNat', Nat.mod_eq_of_lt (by omega)]⟩

theorem decimal_digit {n : ℕ} {c : UInt8} (hc : c ∈ decimal n) : 48 ≤ c ∧ c ≤ 57 := by
  obtain ⟨d, hd, rfl⟩ := List.mem_map.mp hc
  obtain ⟨hlow, hhigh, hcode⟩ := digit_code hd
  rw [UInt8.le_iff_toNat_le, UInt8.le_iff_toNat_le, hcode]
  exact ⟨hlow, hhigh⟩

theorem not_mem_decimal {n : ℕ} {c : UInt8} (hc : c < 48) : c ∉ decimal n := fun hmem =>
  absurd (decimal_digit hmem).1 (UInt8.not_le.mpr hc)

theorem length_decimal_le {n : ℕ} (hn : n < 2 ^ 64) : (decimal n).length ≤ 20 := by
  rw [decimal, List.length_map, Nat.length_toDigits_le_iff (by decide) (by decide)]
  exact hn.trans (by decide)

end CommonComponent
