import CommonComponent.NumStr
import CommonComponent.StrReplace
import Mathlib.Tactic

/-!
# Addresses with a port

`ParseAddrPort` parts a text at its first colon.  There has to be something on either side,
and the address has to fit its buffer; the port is what `atoi` makes of the rest, as a number
of 16 bits.
-/

namespace CommonComponent

structure ParseResult where
  ret : ℤ
  addr : Bytes
  port : UInt16
deriving DecidableEq

def toUnsignedShort (x : ℤ) : UInt16 := UInt16.ofNat (x % 2 ^ 16).toNat

def placeOf (c : UInt8) (s : Bytes) : Option ℕ := s.findIdx? (· = c)

/-- `strncpy(addr, text, len)` and the NUL behind it. -/
def copyAddr (addr text : Bytes) (len : ℕ) : Bytes :=
  text.take len ++ 0 :: addr.drop (len + 1)

/-- The pointers are not null. -/
def parseAddrPort (addr : Bytes) (port : UInt16) (addrPort : CString) (len : ℕ) : ParseResult :=
  if addr.length < 2 ∨ len < 1 then ⟨-1, addr, port⟩
  else
    match placeOf 58 addrPort.1 with
    | none => ⟨-1, addr, port⟩
    | some colon =>
        if colon = 0 ∨ colon + 1 = len then ⟨-1, addr, port⟩
        else if addr.length - 1 < colon then ⟨-1, addr, port⟩
        else
          ⟨0, copyAddr addr addrPort.1 colon,
            toUnsignedShort (atoi (addrPort.1.drop (colon + 1)))⟩

/-- The overload for a `std::string`. -/
def parseAddrPortString (addr : Bytes) (port : UInt16) (addrPort : Bytes) : ParseResult :=
  if addr.length < 2 then ⟨-1, addr, port⟩
  else
    match placeOf 58 addrPort with
    | none => ⟨-1, addr, port⟩
    | some colonPos =>
        if 0 = colonPos ∨ colonPos = addrPort.length - 1 then ⟨-1, addr, port⟩
        else if addr.length - 1 < colonPos then ⟨-1, addr, port⟩
        else
          ⟨0, copyAddr addr (cStr addrPort) colonPos,
            toUnsignedShort (atoi (cStr (addrPort.drop (colonPos + 1))))⟩

/-! ## The grammar -/

/-- A decimal port that fits 16 bits. -/
structure PortText (digits : Bytes) : Prop where
  nonempty : digits ≠ []
  isDigit : ∀ c ∈ digits, isDigit c
  le : numeral digits ≤ 65535

structure AddressText (size : ℕ) (address : Bytes) : Prop where
  nonempty : address ≠ []
  no_colon : 58 ∉ address
  length_lt : address.length < size

/-- The two overloads agree, and what they accept and put out is an address, a colon and a
port. -/
def ParseLaw (addr : Bytes) (port : UInt16) (text : CString) : Prop :=
  parseAddrPort addr port text text.1.length = parseAddrPortString addr port text.1 ∧
    ((parseAddrPort addr port text text.1.length).ret = 0 ↔
      ∃ address digits, text.1 = address ++ 58 :: digits ∧
        AddressText addr.length address ∧ PortText digits) ∧
    ∀ address digits, text.1 = address ++ 58 :: digits →
      AddressText addr.length address → PortText digits →
      parseAddrPort addr port text text.1.length =
        ⟨0, address ++ 0 :: addr.drop (address.length + 1), UInt16.ofNat (numeral digits)⟩

/-- What stands behind a fitting address is a port, unless there is nothing. -/
def PortsOk (size : ℕ) (text : Bytes) : Prop :=
  ∀ address rest, text = address ++ 58 :: rest → AddressText size address → rest ≠ [] →
    PortText rest

/-! ## The two overloads -/

variable {addr : Bytes} {port : UInt16} {text : CString} {address rest : Bytes}

theorem placeOf_append {c : UInt8} (hc : c ∉ address) (rest : Bytes) :
    placeOf c (address ++ c :: rest) = some address.length := by
  have hnone : address.findIdx? (· = c) = none :=
    List.findIdx?_eq_none_iff.mpr fun x hx => by simpa using ne_of_mem_of_not_mem hx hc
  simp [placeOf, List.findIdx?_append, List.findIdx?_cons, hnone]

theorem placeOf_eq_none {c : UInt8} (hc : c ∉ address) : placeOf c address = none :=
  List.findIdx?_eq_none_iff.mpr fun x hx => by simpa using ne_of_mem_of_not_mem hx hc

theorem parts_unique {c : UInt8} {address' rest' : Bytes} (hc : c ∉ address) (hc' : c ∉ address')
    (h : address ++ c :: rest = address' ++ c :: rest') : address = address' ∧ rest = rest' := by
  have hplace := placeOf_append hc rest
  rw [h, placeOf_append hc'] at hplace
  obtain ⟨haddress, hrest⟩ := List.append_inj h (Option.some.inj hplace).symm
  exact ⟨haddress, (List.cons.inj hrest).2⟩

def parted (addr : Bytes) (port : UInt16) (address rest : Bytes) : ParseResult :=
  if address ≠ [] ∧ rest ≠ [] ∧ address.length < addr.length then
    ⟨0, address ++ 0 :: addr.drop (address.length + 1), toUnsignedShort (atoi rest)⟩
  else ⟨-1, addr, port⟩

theorem length_parts (htext : text.1 = address ++ 58 :: rest) :
    text.1.length = address.length + 1 + rest.length := by
  rw [htext, List.length_append, List.length_cons]
  omega

theorem drop_parts (htext : text.1 = address ++ 58 :: rest) :
    text.1.drop (address.length + 1) = rest := by
  rw [htext, ← List.drop_drop, List.drop_left]
  rfl

theorem copyAddr_parts (htext : text.1 = address ++ 58 :: rest) :
    copyAddr addr text.1 address.length = address ++ 0 :: addr.drop (address.length + 1) := by
  rw [copyAddr, htext, List.take_left]

theorem parseAddrPort_eq (htext : text.1 = address ++ 58 :: rest) (hcolon : 58 ∉ address) :
    parseAddrPort addr port text text.1.length = parted addr port address rest := by
  have hplace : placeOf 58 text.1 = some address.length := by rw [htext, placeOf_append hcolon]
  have haddress : address = [] ↔ address.length = 0 := List.length_eq_zero_iff.symm
  have hrest : rest = [] ↔ rest.length = 0 := List.length_eq_zero_iff.symm
  rw [parseAddrPort, hplace]
  simp only [drop_parts htext, copyAddr_parts htext, parted, ne_eq, haddress, hrest,
    length_parts htext]
  split_ifs <;> first | rfl | omega

theorem parseAddrPortString_eq (htext : text.1 = address ++ 58 :: rest) (hcolon : 58 ∉ address) :
    parseAddrPortString addr port text.1 = parted addr port address rest := by
  have hplace : placeOf 58 text.1 = some address.length := by rw [htext, placeOf_append hcolon]
  have haddress : address = [] ↔ address.length = 0 := List.length_eq_zero_iff.symm
  have hrest : rest = [] ↔ rest.length = 0 := List.length_eq_zero_iff.symm
  have hnul : 0 ∉ rest := fun hmem => text.2.1 (htext ▸ by simp [hmem])
  rw [parseAddrPortString, hplace]
  simp only [drop_parts htext, cStr_eq_self text.2.1, cStr_eq_self hnul, copyAddr_parts htext,
    parted, ne_eq, haddress, hrest, length_parts htext]
  split_ifs <;> first | rfl | omega

theorem parse_of_no_colon (htext : 58 ∉ text.1) :
    parseAddrPort addr port text text.1.length = ⟨-1, addr, port⟩ ∧
      parseAddrPortString addr port text.1 = ⟨-1, addr, port⟩ := by
  rw [parseAddrPort, parseAddrPortString, placeOf_eq_none htext]
  simp

theorem parted_of_accepts (haddress : AddressText addr.length address) (hrest : rest ≠ []) :
    parted addr port address rest =
      ⟨0, address ++ 0 :: addr.drop (address.length + 1), toUnsignedShort (atoi rest)⟩ :=
  if_pos ⟨haddress.nonempty, hrest, haddress.length_lt⟩

theorem parted_ret_eq_zero_iff (hcolon : 58 ∉ address) :
    (parted addr port address rest).ret = 0 ↔ AddressText addr.length address ∧ rest ≠ [] := by
  unfold parted
  split_ifs with h
  · exact iff_of_true rfl ⟨⟨h.1, hcolon, h.2.2⟩, h.2.1⟩
  · exact iff_of_false (show ¬(-1 : ℤ) = 0 by decide) fun hok =>
      h ⟨hok.1.nonempty, hok.2, hok.1.length_lt⟩

theorem PortText.atoi_eq (h : PortText rest) :
    toUnsignedShort (atoi rest) = UInt16.ofNat (numeral rest) := by
  have hvalue := strtol_digits h.nonempty h.isDigit
  have hle := h.le
  have hatoi : atoi rest = numeral rest := by
    rw [atoi, hvalue, min_eq_right (by omega)]
    exact Int.bmod_eq_of_le (by omega) (by omega)
  rw [toUnsignedShort, hatoi]
  congr 1
  omega

/-- **Parsing an address with a port.** -/
theorem parseAddrPort_law (addr : Bytes) (port : UInt16) (text : CString) :
    ParseLaw addr port text ↔ PortsOk addr.length text.1 := by
  by_cases hmem : 58 ∈ text.1
  · obtain ⟨address, rest, htext, hcolon⟩ := List.eq_append_cons_of_mem hmem
    have hparts : ∀ {address' rest'}, text.1 = address' ++ 58 :: rest' →
        AddressText addr.length address' → address = address' ∧ rest = rest' :=
      fun htext' haddress' =>
        parts_unique hcolon haddress'.no_colon (htext.symm.trans htext')
    rw [ParseLaw, parseAddrPort_eq htext hcolon, parseAddrPortString_eq htext hcolon,
      parted_ret_eq_zero_iff hcolon]
    constructor
    · rintro ⟨-, haccepts, -⟩ address' rest' htext' haddress' hrest'
      obtain ⟨rfl, rfl⟩ := hparts htext' haddress'
      obtain ⟨address', digits, htext', haddress', hport⟩ := haccepts.mp ⟨haddress', hrest'⟩
      obtain ⟨-, rfl⟩ := hparts htext' haddress'
      exact hport
    · intro hports
      refine ⟨rfl, ⟨fun ⟨haddress, hrest⟩ => ?_, ?_⟩, ?_⟩
      · exact ⟨address, rest, htext, haddress, hports address rest htext haddress hrest⟩
      · rintro ⟨address', digits, htext', haddress', hport⟩
        obtain ⟨rfl, rfl⟩ := hparts htext' haddress'
        exact ⟨haddress', hport.nonempty⟩
      · intro address' digits htext' haddress' hport
        obtain ⟨rfl, rfl⟩ := hparts htext' haddress'
        rw [parted_of_accepts haddress' hport.nonempty, hport.atoi_eq]
  · have hnone : ∀ {address rest}, text.1 ≠ address ++ 58 :: rest := fun htext =>
      hmem (htext ▸ by simp)
    have hraw : parseAddrPort addr port text text.1.length = ⟨-1, addr, port⟩ :=
      (parse_of_no_colon hmem).1
    have hstring : parseAddrPortString addr port text.1 = ⟨-1, addr, port⟩ :=
      (parse_of_no_colon hmem).2
    rw [ParseLaw, hraw, hstring]
    refine iff_of_true ⟨rfl, iff_of_false (show ¬(-1 : ℤ) = 0 by decide) ?_, ?_⟩
      fun _ _ htext => (hnone htext).elim
    · rintro ⟨address, digits, htext, -⟩
      exact hnone htext
    · exact fun _ _ htext => (hnone htext).elim

/-- A port that is too great is accepted as another one. -/
theorem parseAddrPort_great_port :
    ¬ParseLaw (List.replicate 16 0) 0 ⟨ascii "10.0.0.1:99999", by decide⟩ := by
  rintro ⟨-, haccepts, -⟩
  obtain ⟨address, digits, htext, haddress, hport⟩ := haccepts.mp (by decide +kernel)
  have hsplit : ascii "10.0.0.1:99999" = ascii "10.0.0.1" ++ 58 :: ascii "99999" := by decide
  obtain ⟨-, rfl⟩ := parts_unique (by decide) haddress.no_colon (hsplit.symm.trans htext)
  exact absurd hport.le (by decide)

end CommonComponent
