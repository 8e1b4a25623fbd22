import CommonComponent.HttpReq
import Mathlib.Tactic

/-!
# URL encoding and decoding

`URLEncode` writes into memory of its own, as much as three bytes for each one and the
NUL take; `URLDecode` works in place, and reads ahead of where it writes.  It is therefore
modelled on the buffer, with every access checked: a read has to be inside the length that
was given, a write too, but for the NUL at the end of the string.

`urlEncode` is the text that is written in front of the NUL, `urlDecode` the text that
`URLDecode` leaves there.  The length of the first is reported in an `int` and given to
`URLDecode` as a `size_t`.
-/

namespace CommonComponent

def hexChars : Bytes := ascii "0123456789abcdef"

def hexChar (n : UInt8) : UInt8 := hexChars.getD n.toNat 0

/-- The test of `URLEncode` for characters that are not copied. -/
def isEscaped (c : UInt8) : Bool :=
  (c < 48 && c ≠ 46 && c ≠ 45 && c ≠ 42) || (c < 65 && 57 < c) ||
    (90 < c && c < 97 && c ≠ 95) || 122 < c

def urlEncodeByte (c : UInt8) : Bytes :=
  if c = 32 then [43]
  else if isEscaped c then [37, hexChar (c >>> 4), hexChar (c &&& 15)]
  else [c]

def urlEncode (s : Bytes) : Bytes := s.flatMap urlEncodeByte

/-- `encoded_len` is an `int`. -/
def encodedLen (s : Bytes) : ℤ := ((urlEncode s).length : ℤ).bmod (2 ^ 32)

namespace UrlBuffer

/-- `URLEncode`: the memory it returns and `encoded_len`.  `calloc` has no object of 2^63
bytes, and there is no result either where the text outgrows the memory. -/
def urlEncode (s : Bytes) : Option (Bytes × ℤ) :=
  let text := CommonComponent.urlEncode s
  let size := (3 * s.length + 1) % 2 ^ 64
  if size < 2 ^ 63 ∧ text.length < size then
    some (text ++ List.replicate (size - text.length) 0, encodedLen s)
  else none

def readAt (len : ℕ) (buf : Bytes) (i : ℕ) : Option UInt8 :=
  if i < len then buf[i]? else none

/-- A write; behind the given bytes only the NUL right at their end. -/
def writeAt (len : ℕ) (buf : Bytes) (i : ℕ) (c : UInt8) : Option Bytes :=
  if i < len ∨ (i = len ∧ c = 0) then
    if i < buf.length then some (buf.set i c) else none
  else none

/-- The test for an escape sequence; `left` bytes stand behind the `%`. -/
def isEscape (len : ℕ) (buf : Bytes) (data left : ℕ) (c : UInt8) : Option Bool :=
  if c = 37 ∧ 2 ≤ left then do
    let high ← readAt len buf (data + 1)
    if isXDigit high then
      let low ← readAt len buf (data + 2)
      return isXDigit low
    else return false
  else return false

/-- The loop of `URLDecode`, with the buffer at its end and `dest - s`. -/
def decodeLoop (len : ℕ) (buf : Bytes) (data dest : ℕ) : ℕ → Option (Bytes × ℕ)
  | 0 => do
      let buf ← writeAt len buf dest 0
      return (buf, dest)
  | left + 1 => do
      let c ← readAt len buf data
      if c = 43 then
        let buf ← writeAt len buf dest 32
        decodeLoop len buf (data + 1) (dest + 1) left
      else if ← isEscape len buf data left c then
        let high ← readAt len buf (data + 1)
        let low ← readAt len buf (data + 2)
        let buf ← writeAt len buf dest (htoi high low)
        decodeLoop len buf (data + 3) (dest + 1) (left - 2)
      else
        let buf ← writeAt len buf dest c
        decodeLoop len buf (data + 1) (dest + 1) left

/-- `URLDecode`, with no result where it gets outside. -/
def urlDecode (buf : Bytes) (len : ℕ) : Option (Bytes × ℕ) := decodeLoop len buf 0 0 len

end UrlBuffer

/-! ## The text that is decoded -/

def startsEscape : Bytes → Bool
  | c :: high :: low :: _ => c = 37 && isXDigit high && isXDigit low
  | _ => false

theorem urlDecode_escape {high low : UInt8} (hhigh : isXDigit high) (hlow : isXDigit low)
    (rest : Bytes) : urlDecode (37 :: high :: low :: rest) = htoi high low :: urlDecode rest := by
  simp [urlDecode, hhigh, hlow]

theorem urlDecode_plain {c : UInt8} {rest : Bytes} (hplain : startsEscape (c :: rest) = false) :
    urlDecode (c :: rest) = (if c = 43 then 32 else c) :: urlDecode rest := by
  match rest with
  | [] => rfl
  | [_] => rfl
  | high :: low :: rest =>
      have hnot : (c = 37 && isXDigit high && isXDigit low) = false := hplain
      rw [urlDecode, hnot]
      rfl

theorem length_urlDecode_le (s : Bytes) : (urlDecode s).length ≤ s.length := by
  fun_induction urlDecode s with
  | case1 c high low rest hescape ih => simp; omega
  | case2 c high low rest hplain ih => simpa using ih
  | case3 c rest hshort ih => simpa using ih
  | case4 => exact le_rfl

namespace UrlBuffer

/-- The buffer in the middle of the loop: what is decoded stands in front of `dest`,
the bytes from `data` on are those that were given, and `behind` is what lies behind
the place of the NUL. -/
structure Decoding (s behind : Bytes) (buf : Bytes) (data dest : ℕ) (out : Bytes) : Prop where
  room : dest ≤ data
  length : buf.length = s.length + 1 + behind.length
  done : buf.take dest = out
  ahead : ∀ i, data ≤ i → i < s.length → buf[i]? = s[i]?
  behind : buf.drop (s.length + 1) = behind

variable {s behind buf out : Bytes} {data dest : ℕ}

theorem Decoding.readAt (h : Decoding s behind buf data dest out) {i : ℕ} {c : UInt8}
    (hle : data ≤ i) (hc : s[i]? = some c) : readAt s.length buf i = some c := by
  obtain ⟨hlt, -⟩ := List.getElem?_eq_some_iff.mp hc
  rw [UrlBuffer.readAt, if_pos hlt, h.ahead i hle hlt, hc]

/-- A byte is written, and the loop goes on behind what has been read for it. -/
theorem Decoding.writeAt (h : Decoding s behind buf data dest out) (hdata : data < s.length)
    (c : UInt8) {data' : ℕ} (hnext : data < data') :
    ∃ buf', UrlBuffer.writeAt s.length buf dest c = some buf' ∧
      Decoding s behind buf' data' (dest + 1) (out ++ [c]) := by
  have hroom := h.room
  have hlen := h.length
  have hdest : dest < buf.length := by omega
  refine ⟨buf.set dest c, ?_, ?_⟩
  · rw [UrlBuffer.writeAt, if_pos (.inl (by omega)), if_pos hdest]
  · constructor
    · omega
    · rw [List.length_set, hlen]
    · rw [List.take_add_one, List.take_set_of_le le_rfl, h.done,
        List.getElem?_set_self hdest]
      rfl
    · intro i hle hlt
      rw [List.getElem?_set_ne (by omega)]
      exact h.ahead i (by omega) hlt
    · rw [List.drop_set_of_lt (by omega), h.behind]

theorem Decoding.finish (h : Decoding s behind buf data dest out) (hdata : data ≤ s.length) :
    ∃ buf', UrlBuffer.writeAt s.length buf dest 0 = some buf' ∧ buf'.take dest = out ∧
      buf'[dest]? = some 0 ∧ buf'.drop (s.length + 1) = behind := by
  have hroom := h.room
  have hlen := h.length
  have hdest : dest < buf.length := by omega
  refine ⟨buf.set dest 0, ?_, ?_, List.getElem?_set_self hdest, ?_⟩
  · have hinside : dest < s.length ∨ (dest = s.length ∧ (0 : UInt8) = 0) :=
      (lt_or_eq_of_le (hroom.trans hdata)).imp_right fun h => ⟨h, rfl⟩
    rw [UrlBuffer.writeAt, if_pos hinside, if_pos hdest]
  · rw [List.take_set_of_le le_rfl, h.done]
  · rw [List.drop_set_of_lt (by omega), h.behind]

/-- Whether an escape sequence starts is read off without leaving the given bytes. -/
theorem Decoding.isEscape (h : Decoding s behind buf data dest out) {c : UInt8} {rest : Bytes}
    (hrest : s.drop data = c :: rest) :
    UrlBuffer.isEscape s.length buf data rest.length c = some (startsEscape (c :: rest)) := by
  have hat : ∀ i, s[data + 1 + i]? = rest[i]? := fun i => by
    have hdrop : (s.drop data)[i + 1]? = rest[i]? := by rw [hrest, List.getElem?_cons_succ]
    rw [← hdrop, List.getElem?_drop]
    congr 1
    omega
  unfold UrlBuffer.isEscape
  match rest with
  | [] => simp [startsEscape]
  | [_] => simp [startsEscape]
  | high :: low :: rest =>
      have hhigh := h.readAt (i := data + 1) (by omega) (hat 0)
      have hlow := h.readAt (i := data + 2) (by omega) (hat 1)
      by_cases hc : c = 37
      · cases hx : isXDigit high <;> simp [startsEscape, hc, hhigh, hlow, hx]
      · simp [startsEscape, hc]

/-- **One loop, two cursors.**  From any point on the loop decodes the bytes that are
left behind what is already decoded. -/
theorem Decoding.loop {left : ℕ} (h : Decoding s behind buf data dest out)
    (hleft : data + left = s.length) :
    ∃ buf', decodeLoop s.length buf data dest left =
        some (buf', dest + (CommonComponent.urlDecode (s.drop data)).length) ∧
      buf'.take (dest + (CommonComponent.urlDecode (s.drop data)).length) =
        out ++ CommonComponent.urlDecode (s.drop data) ∧
      buf'[dest + (CommonComponent.urlDecode (s.drop data)).length]? = some 0 ∧
      buf'.drop (s.length + 1) = behind := by
  induction left using Nat.strong_induction_on generalizing buf data dest out with
  | h left ih =>
      cases left with
      | zero =>
          obtain ⟨buf', hwrite, hdone, hnul, hbehind⟩ := h.finish (by omega)
          have hnil : s.drop data = [] := List.drop_eq_nil_of_le (by omega)
          rw [hnil]
          exact ⟨buf', by simp [decodeLoop, hwrite, CommonComponent.urlDecode],
            by simpa [CommonComponent.urlDecode] using hdone, hnul, hbehind⟩
      | succ left =>
          obtain ⟨c, rest, hrest⟩ := List.exists_cons_of_length_pos
            (l := s.drop data) (by rw [List.length_drop]; omega)
          have hlength : rest.length = left := by
            have hdrop := congrArg List.length hrest
            rw [List.length_drop, List.length_cons] at hdrop
            omega
          have hread : UrlBuffer.readAt s.length buf data = some c := by
            refine h.readAt le_rfl ?_
            rw [← List.head?_drop, hrest]
            rfl
          have hescape := h.isEscape hrest
          rw [hlength] at hescape
          cases hstart : startsEscape (c :: rest) with
          | false =>
              -- one byte for one
              obtain ⟨buf', hwrite, hnext⟩ := h.writeAt (by omega) (if c = 43 then 32 else c)
                (Nat.lt_succ_self data)
              have htail : s.drop (data + 1) = rest := by
                rw [← List.drop_drop, hrest]
                rfl
              obtain ⟨bufEnd, hloop, hdone, hnul, hbehind⟩ :=
                ih left (Nat.lt_succ_self left) hnext (by omega)
              rw [htail] at hloop hdone hnul
              rw [hrest, urlDecode_plain hstart, List.length_cons,
                show dest + ((CommonComponent.urlDecode rest).length + 1) =
                  dest + 1 + (CommonComponent.urlDecode rest).length by omega]
              refine ⟨bufEnd, ?_, by simpa using hdone, hnul, hbehind⟩
              by_cases hplus : c = 43
              · rw [if_pos hplus] at hwrite
                simp [decodeLoop, hread, hplus, hwrite, hloop]
              · rw [if_neg hplus] at hwrite
                simp [decodeLoop, hread, hplus, hescape, hstart, hwrite, hloop]
          | true =>
              match rest, hstart with
              | high :: low :: rest, hstart =>
                  obtain ⟨⟨rfl, hhigh⟩, hlow⟩ : (c = 37 ∧ isXDigit high = true) ∧
                      isXDigit low = true := by simpa [startsEscape] using hstart
                  have hat : ∀ i, s[data + i]? = (37 :: high :: low :: rest)[i]? :=
                    fun i => by rw [← List.getElem?_drop, hrest]
                  have hreadHigh := h.readAt (i := data + 1) (by omega) (hat 1)
                  have hreadLow := h.readAt (i := data + 2) (by omega) (hat 2)
                  rw [List.length_cons, List.length_cons] at hlength
                  obtain ⟨buf', hwrite, hnext⟩ := h.writeAt (by omega) (htoi high low)
                    (show data < data + 3 by omega)
                  have htail : s.drop (data + 3) = rest := by
                    rw [← List.drop_drop, hrest]
                    rfl
                  obtain ⟨bufEnd, hloop, hdone, hnul, hbehind⟩ :=
                    ih (left - 2) (by omega) hnext (by omega)
                  rw [htail] at hloop hdone hnul
                  rw [hrest, urlDecode_escape hhigh hlow, List.length_cons,
                    show dest + ((CommonComponent.urlDecode rest).length + 1) =
                      dest + 1 + (CommonComponent.urlDecode rest).length by omega]
                  refine ⟨bufEnd, ?_, by simpa using hdone, hnul, hbehind⟩
                  simp [decodeLoop, hread, hescape, hstart, hreadHigh, hreadLow, hwrite, hloop]

/-- **In place.**  `URLDecode` reads and writes nothing outside the bytes it was given
and the place of the NUL; it leaves the decoded text with a NUL behind it, no longer
than what was given, and what lies behind untouched. -/
theorem urlDecode_inPlace (s : Bytes) (nul : UInt8) (behind : Bytes) :
    ∃ buf, urlDecode (s ++ nul :: behind) s.length =
        some (buf, (CommonComponent.urlDecode s).length) ∧
      buf.take (CommonComponent.urlDecode s).length = CommonComponent.urlDecode s ∧
      buf[(CommonComponent.urlDecode s).length]? = some 0 ∧
      buf.drop (s.length + 1) = behind ∧
      (CommonComponent.urlDecode s).length ≤ s.length := by
  have hstart : Decoding s behind (s ++ nul :: behind) 0 0 [] := by
    constructor
    · exact le_rfl
    · rw [List.length_append, List.length_cons]
      omega
    · rfl
    · exact fun i _ hlt => List.getElem?_append_left hlt
    · rw [List.drop_append]
      simp
  obtain ⟨buf, hloop, hdone, hnul, hbehind⟩ := hstart.loop (show 0 + s.length = s.length by omega)
  simp only [List.drop_zero, Nat.zero_add, List.nil_append] at hloop hdone hnul
  exact ⟨buf, hloop, hdone, hnul, hbehind, length_urlDecode_le s⟩

end UrlBuffer

/-! ## Decoding what was encoded -/

/-- Letters, digits and `.*_%+-`. -/
def IsUrlChar (c : UInt8) : Prop :=
  (65 ≤ c ∧ c ≤ 90) ∨ (97 ≤ c ∧ c ≤ 122) ∨ (48 ≤ c ∧ c ≤ 57) ∨
    c ∈ ascii ".*_%+-"

instance (c : UInt8) : Decidable (IsUrlChar c) :=
  inferInstanceAs (Decidable (_ ∨ _ ∨ _ ∨ _))

theorem forall_byte {P : UInt8 → Prop} (h : ∀ n < 256, P (UInt8.ofNat n)) (c : UInt8) :
    P c := by
  have hc := h c.toNat c.toNat_lt
  rwa [UInt8.ofNat_toNat] at hc

theorem urlEncodeByte_urlChar (c : UInt8) : ∀ d ∈ urlEncodeByte c, IsUrlChar d := by
  have hall : (urlEncodeByte c).all (fun d => decide (IsUrlChar d)) = true :=
    forall_byte (P := fun c => (urlEncodeByte c).all (fun d => decide (IsUrlChar d)) = true)
      (by decide +kernel) c
  intro d hd
  exact of_decide_eq_true (List.all_eq_true.mp hall d hd)

theorem length_urlEncodeByte_le (c : UInt8) : (urlEncodeByte c).length ≤ 3 := by
  unfold urlEncodeByte
  split_ifs <;> simp

theorem hexChar_spec (c : UInt8) : isXDigit (hexChar (c >>> 4)) = true ∧
    isXDigit (hexChar (c &&& 15)) = true ∧
    htoi (hexChar (c >>> 4)) (hexChar (c &&& 15)) = c :=
  forall_byte (P := fun c => isXDigit (hexChar (c >>> 4)) = true ∧
    isXDigit (hexChar (c &&& 15)) = true ∧
    htoi (hexChar (c >>> 4)) (hexChar (c &&& 15)) = c) (by decide +kernel) c

theorem startsEscape_of_ne {c : UInt8} (hc : c ≠ 37) (rest : Bytes) :
    startsEscape (c :: rest) = false := by
  match rest with
  | [] => rfl
  | [_] => rfl
  | _ :: _ :: _ => simp [startsEscape, hc]

theorem urlDecode_urlEncodeByte (c : UInt8) (rest : Bytes) :
    urlDecode (urlEncodeByte c ++ rest) = c :: urlDecode rest := by
  unfold urlEncodeByte
  split_ifs with hspace hescaped
  · rw [List.singleton_append, urlDecode_plain (startsEscape_of_ne (by decide) rest), hspace]
    rfl
  · obtain ⟨hhigh, hlow, hvalue⟩ := hexChar_spec c
    rw [List.cons_append, List.cons_append, List.singleton_append,
      urlDecode_escape hhigh hlow, hvalue]
  · have hpercent : c ≠ 37 := by
      rintro rfl
      exact hescaped (by decide)
    have hplus : c ≠ 43 := by
      rintro rfl
      exact hescaped (by decide)
    rw [List.singleton_append, urlDecode_plain (startsEscape_of_ne hpercent rest),
      if_neg hplus]

theorem urlDecode_urlEncode_append (s rest : Bytes) :
    urlDecode (urlEncode s ++ rest) = s ++ urlDecode rest := by
  induction s with
  | nil => rfl
  | cons c s ih =>
      rw [urlEncode, List.flatMap_cons, List.append_assoc, urlDecode_urlEncodeByte,
        ← urlEncode, ih, List.cons_append]

theorem urlDecode_urlEncode (s : Bytes) : urlDecode (urlEncode s) = s := by
  have happend := urlDecode_urlEncode_append s []
  rwa [List.append_nil, urlDecode, List.append_nil] at happend

theorem urlEncode_urlChar (s : Bytes) : ∀ c ∈ urlEncode s, IsUrlChar c := by
  intro c hc
  obtain ⟨d, -, hd⟩ := List.mem_flatMap.mp hc
  exact urlEncodeByte_urlChar d c hd

theorem length_urlEncode_le (s : Bytes) : (urlEncode s).length ≤ 3 * s.length := by
  induction s with
  | nil => exact le_rfl
  | cons c s ih =>
      have hbyte := length_urlEncodeByte_le c
      rw [urlEncode, List.flatMap_cons, List.length_append, ← urlEncode, List.length_cons]
      omega

/-- `encoded_len` is the length of the encoded text as long as an `int` has room for it. -/
theorem encodedLen_eq_iff (s : Bytes) :
    encodedLen s = (urlEncode s).length ↔ (urlEncode s).length < 2 ^ 31 := by
  unfold encodedLen
  constructor
  · intro heq
    have hlt := Int.bmod_lt (x := ((urlEncode s).length : ℤ)) (m := 2 ^ 32) (by decide)
    rw [heq] at hlt
    norm_num at hlt
    omega
  · intro hlt
    rw [Int.bmod_eq_of_le (by omega) (by norm_num; omega)]

theorem length_le_length_urlEncode (s : Bytes) : s.length ≤ (urlEncode s).length := by
  have hle := length_urlDecode_le (urlEncode s)
  rwa [urlDecode_urlEncode] at hle

theorem cStr_urlEncode (s rest : Bytes) : cStr (urlEncode s ++ 0 :: rest) = urlEncode s :=
  cStr_append_zero (fun hnul => absurd (urlEncode_urlChar s 0 hnul) (by decide)) rest

/-- What is lost when the encoded text is cut after `r` bytes: about a third of the rest. -/
theorem length_urlDecode_take_add_le (s : Bytes) (r : ℕ) :
    (urlDecode ((urlEncode s).take r)).length + ((urlEncode s).length - r) / 3 ≤
      s.length + 2 := by
  induction s generalizing r with
  | nil => simp [urlEncode, urlDecode]
  | cons c s ih =>
      have htail := length_urlEncode_le s
      have hbyte := length_urlEncodeByte_le c
      have hcons : urlEncode (c :: s) = urlEncodeByte c ++ urlEncode s := List.flatMap_cons ..
      rw [hcons, List.length_append, List.length_cons]
      rcases Nat.lt_or_ge r (urlEncodeByte c).length with hcut | hwhole
      · -- at most two bytes are left, of an escape sequence
        have hle := length_urlDecode_le ((urlEncodeByte c ++ urlEncode s).take r)
        rw [List.length_take] at hle
        omega
      · have hrest := ih (r - (urlEncodeByte c).length)
        rw [List.take_append, List.take_of_length_le hwhole, urlDecode_urlEncodeByte,
          List.length_cons]
        omega

namespace UrlBuffer

theorem length_of_writeAt {len i : ℕ} {buf buf' : Bytes} {c : UInt8}
    (h : writeAt len buf i c = some buf') : buf'.length = buf.length := by
  unfold writeAt at h
  split_ifs at h
  cases h
  exact List.length_set ..

theorem lt_length_of_readAt {len i : ℕ} {buf : Bytes} {c : UInt8}
    (h : readAt len buf i = some c) : i < buf.length := by
  unfold readAt at h
  split_ifs at h
  exact (List.getElem?_eq_some_iff.mp h).1

/-- The loop gets to its end only inside the buffer. -/
theorem data_add_left_le {len left : ℕ} {buf : Bytes} {data dest : ℕ} {result : Bytes × ℕ}
    (h : decodeLoop len buf data dest left = some result) :
    left = 0 ∨ data + left ≤ buf.length := by
  induction left using Nat.strong_induction_on generalizing buf data dest with
  | h left ih =>
      cases left with
      | zero => exact .inl rfl
      | succ left =>
          have hnext : ∀ {buf' c dest'} read, writeAt len buf dest c = some buf' →
              decodeLoop len buf' (data + 1 + read) dest' (left - read) = some result →
              data + 1 + read ≤ buf.length → data + (left + 1) ≤ buf.length := by
            intro buf' c dest' read hwrite hloop hread
            have hrest := ih (left - read) (by omega) hloop
            rw [length_of_writeAt hwrite] at hrest
            omega
          simp only [decodeLoop, Option.bind_eq_bind, Option.bind_eq_some_iff] at h
          obtain ⟨c, hread, h⟩ := h
          have hlt := lt_length_of_readAt hread
          right
          split_ifs at h with hplus
          · obtain ⟨buf', hwrite, hloop⟩ := Option.bind_eq_some_iff.mp h
            exact hnext 0 hwrite hloop hlt
          · obtain ⟨escape, -, h⟩ := Option.bind_eq_some_iff.mp h
            cases escape with
            | false =>
                obtain ⟨buf', hwrite, hloop⟩ := Option.bind_eq_some_iff.mp h
                exact hnext 0 hwrite hloop hlt
            | true =>
                obtain ⟨high, -, h⟩ := Option.bind_eq_some_iff.mp h
                obtain ⟨low, hlow, h⟩ := Option.bind_eq_some_iff.mp h
                obtain ⟨buf', hwrite, hloop⟩ := Option.bind_eq_some_iff.mp h
                have hlow := lt_length_of_readAt hlow
                exact hnext 2 hwrite hloop hlow

theorem urlEncode_of_lt {s : Bytes} (hs : (CommonComponent.urlEncode s).length < 2 ^ 31) :
    ∃ rest, urlEncode s = some (CommonComponent.urlEncode s ++ 0 :: rest, encodedLen s) := by
  have hlen := length_urlEncode_le s
  have hle := length_le_length_urlEncode s
  have hsize : (3 * s.length + 1) % 2 ^ 64 = 3 * s.length + 1 := Nat.mod_eq_of_lt (by omega)
  refine ⟨List.replicate (3 * s.length - (CommonComponent.urlEncode s).length) 0, ?_⟩
  simp only [urlEncode, hsize]
  rw [if_pos ⟨by omega, by omega⟩, ← List.replicate_succ, Nat.sub_add_comm hlen]

theorem urlEncode_spec {s mem : Bytes} {len : ℤ} (h : urlEncode s = some (mem, len)) :
    len = encodedLen s ∧ mem.length < 2 ^ 63 ∧
      ∃ rest, mem = CommonComponent.urlEncode s ++ 0 :: rest := by
  unfold urlEncode at h
  set text := CommonComponent.urlEncode s
  set size := (3 * s.length + 1) % 2 ^ 64
  by_cases hroom : size < 2 ^ 63 ∧ text.length < size
  · rw [if_pos hroom] at h
    obtain ⟨rfl, rfl⟩ := Prod.mk.inj (Option.some.inj h)
    obtain ⟨n, hn⟩ := Nat.exists_eq_add_of_lt hroom.2
    refine ⟨rfl, ?_, List.replicate n 0, ?_⟩
    · rw [List.length_append, List.length_replicate]
      omega
    · rw [← List.replicate_succ, show size - text.length = n + 1 by omega]
  · rw [if_neg hroom] at h
    cases h

end UrlBuffer

/-- **The round trip of one string.**  The text is what stands in front of the first NUL,
and the length that `URLEncode` reports is the one `URLDecode` gets. -/
def UrlRoundTrip (s : Bytes) : Prop :=
  ∃ mem encodedLen, UrlBuffer.urlEncode s = some (mem, encodedLen) ∧
    (∀ c ∈ cStr mem, IsUrlChar c) ∧ (cStr mem).length ≤ 3 * s.length ∧
    ∃ buf, UrlBuffer.urlDecode mem (encodedLen % 2 ^ 64).toNat = some (buf, s.length) ∧
      buf.take s.length = s

/-- A length that is too large is reported as a negative one, or as one that is shorter by
a multiple of 2^32. -/
theorem encodedLen_of_le {s : Bytes} (hs : 2 ^ 31 ≤ (urlEncode s).length) :
    (-2 ^ 31 ≤ encodedLen s ∧ encodedLen s < 0) ∨
      (0 ≤ encodedLen s ∧ encodedLen s < 2 ^ 31 ∧
        encodedLen s + 2 ^ 32 ≤ (urlEncode s).length) := by
  unfold encodedLen
  have hlow := Int.le_bmod (x := ((urlEncode s).length : ℤ)) (m := 2 ^ 32) (by decide)
  have hlt := Int.bmod_lt (x := ((urlEncode s).length : ℤ)) (m := 2 ^ 32) (by decide)
  have hdvd := Int.bmod_emod (x := ((urlEncode s).length : ℤ)) (m := 2 ^ 32)
  norm_num at hlow hlt hdvd ⊢
  omega

theorem UrlRoundTrip.of_lt {s : Bytes} (hs : (urlEncode s).length < 2 ^ 31) :
    UrlRoundTrip s := by
  obtain ⟨rest, hencode⟩ := UrlBuffer.urlEncode_of_lt hs
  obtain ⟨buf, hrun, htext, -⟩ := UrlBuffer.urlDecode_inPlace (urlEncode s) 0 rest
  rw [urlDecode_urlEncode] at hrun htext
  refine ⟨_, _, hencode, ?_, ?_, buf, ?_, htext⟩
  · rw [cStr_urlEncode]
    exact urlEncode_urlChar s
  · rw [cStr_urlEncode]
    exact length_urlEncode_le s
  · have hlen : (encodedLen s % 2 ^ 64).toNat = (urlEncode s).length := by
      rw [(encodedLen_eq_iff s).mpr hs]
      omega
    rw [hlen, hrun]

theorem UrlRoundTrip.lt {s : Bytes} (h : UrlRoundTrip s) : (urlEncode s).length < 2 ^ 31 := by
  obtain ⟨mem, len, hencode, -, -, buf, hrun, -⟩ := h
  obtain ⟨hlen, hmem, rest, hrest⟩ := UrlBuffer.urlEncode_spec hencode
  rw [hlen] at hrun
  by_contra hlong
  rcases encodedLen_of_le (Nat.le_of_not_lt hlong) with ⟨hlow, hneg⟩ | ⟨hnonneg, hlt, hshort⟩
  · -- as a `size_t` it leads out of the memory
    have hinside := UrlBuffer.data_add_left_le hrun
    omega
  · -- only the front of the text is decoded
    obtain ⟨n, hn⟩ := Int.eq_ofNat_of_zero_le hnonneg
    have hlost := length_urlDecode_take_add_le s n
    rw [hn, Int.emod_eq_of_lt (by omega) (by omega), Int.toNat_natCast] at hrun
    have htake : ((urlEncode s).take n).length = n := List.length_take_of_le (by omega)
    obtain ⟨nul, behind, hcut⟩ := List.exists_cons_of_length_pos
      (l := (urlEncode s).drop n) (by rw [List.length_drop]; omega)
    obtain ⟨buf', hfront, -⟩ :=
      UrlBuffer.urlDecode_inPlace ((urlEncode s).take n) nul (behind ++ 0 :: rest)
    have hmem : mem = (urlEncode s).take n ++ nul :: (behind ++ 0 :: rest) := by
      rw [hrest, ← List.cons_append, ← hcut, ← List.append_assoc, List.take_append_drop]
    rw [htake, ← hmem, hrun] at hfront
    have hlen := (Prod.mk.inj (Option.some.inj hfront)).2
    omega

/-- **URL decoding undoes URL encoding**, in place, as long as an `int` has room for the
length, and is safe on every input. -/
theorem urlRoundTrip_iff_length_lt (s : Bytes) :
    (UrlRoundTrip s ↔ (urlEncode s).length < 2 ^ 31) ∧
      ∀ (nul : UInt8) (behind : Bytes),
        ∃ buf len, UrlBuffer.urlDecode (s ++ nul :: behind) s.length = some (buf, len) ∧
          len ≤ s.length ∧ buf[len]? = some 0 ∧ buf.drop (s.length + 1) = behind := by
  refine ⟨⟨UrlRoundTrip.lt, UrlRoundTrip.of_lt⟩, fun nul behind => ?_⟩
  obtain ⟨buf, hrun, -, hnul, hbehind, hle⟩ := UrlBuffer.urlDecode_inPlace s nul behind
  exact ⟨buf, _, hrun, hle, hnul, hbehind⟩

/-- The length of 2^31 letters is reported as -2^31. -/
theorem not_urlRoundTrip_long : ¬UrlRoundTrip (List.replicate (2 ^ 31) 97) := fun h => by
  have hlt := h.lt
  have hle := length_le_length_urlEncode (List.replicate (2 ^ 31) 97)
  rw [List.length_replicate] at hle
  omega

end CommonComponent
