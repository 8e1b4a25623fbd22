import CommonComponent.FramedStream
import Mathlib.Tactic

/-!
# The proto message codec

A message on the wire is a 4-byte big-endian length, a 4-byte checksum, the
passback, the message id and the body; the length counts everything behind
itself.  `isWholeMsg` reads the length straight from the buffer's memory, with
no look at how many bytes the buffer holds, so the memory behind the buffer is
an argument of it.

`framing` is what a reader of this format may rely on: it decides the head of a
buffer from the buffer's own bytes alone.  The two agree except where `Misreads`
holds, which no buffer of at least four bytes meets.
-/

namespace CommonComponent

open FramedStream

abbrev Bytes := List UInt8
abbrev Passback := Int32
abbrev MsgID := Int32

def nfyPassback : Passback := Int32.ofInt (-0x80000000)

def msgIdOk : MsgID := 0
def msgIdNotAWholeMsg : MsgID := -101
def msgIdInvalidMsgLen : MsgID := -104
def msgIdChecksumMismatch : MsgID := -105
def msgIdNoneHandlerFound : MsgID := -106
def msgIdScheduleFailed : MsgID := -111
def msgIdHeartbeatReq : MsgID := -200
def msgIdHeartbeatRsp : MsgID := -201

def totalMsgLenFieldLen : ℕ := 4
def checksumFieldLen : ℕ := 4
def passbackFieldLen : ℕ := 4
def msgIdFieldLen : ℕ := 4
def minTotalMsgLen : ℕ := checksumFieldLen + (passbackFieldLen + msgIdFieldLen)

structure MsgHead where
  passback : Passback
  msgId : MsgID
deriving DecidableEq, Repr

/-- `MsgHead::Reset` followed by setting the message id. -/
def MsgHead.ofMsgId (msgId : MsgID) : MsgHead where
  passback := 0
  msgId := msgId

def ntohl (b0 b1 b2 b3 : UInt8) : UInt32 :=
  UInt32.ofNat (b0.toNat * 2 ^ 24 + b1.toNat * 2 ^ 16 + b2.toNat * 2 ^ 8 + b3.toNat)

def htonl (x : UInt32) : Bytes :=
  [UInt8.ofNat (x.toNat / 2 ^ 24), UInt8.ofNat (x.toNat / 2 ^ 16),
    UInt8.ofNat (x.toNat / 2 ^ 8), UInt8.ofNat x.toNat]

def ntohlAt (memory : ℕ → UInt8) (offset : ℕ) : UInt32 :=
  ntohl (memory offset) (memory (offset + 1)) (memory (offset + 2))
    (memory (offset + 3))

/-- What lies at and behind `std::string::data()`: the bytes of the string, the
terminating NUL, and whatever the memory behind it contains. -/
def memoryOf (data : Bytes) (behind : ℕ → UInt8) (offset : ℕ) : UInt8 :=
  if offset < data.length then data.getD offset 0
  else if offset = data.length then 0
  else behind (offset - data.length - 1)

/-- A codec as one process uses it.  `maxTotalMsgLen` is the value of the
function-local static of `IsWholeMsg`, fixed by the first call in the process;
`fastCRC32` is the checksum function of the base library. -/
structure MsgCodec where
  maxTotalMsgLen : ℕ
  doChecksum : Bool
  fastCRC32 : Bytes → UInt32

/-- The bitwise form of the checksum in `fast_crc32.cpp`. -/
def crc32Bitwise (data : Bytes) : UInt32 :=
  let step : UInt32 → UInt32 := fun crc =>
    if crc &&& 1 = 1 then (crc >>> 1) ^^^ 0xEDB88320 else crc >>> 1
  let crc := data.foldl
    (fun crc byte => step^[8] (crc ^^^ byte.toUInt32)) 0xFFFFFFFF
  crc ^^^ 0xFFFFFFFF

/-- The return value of `IsWholeMsg` with its two output arguments. -/
structure WholeMsg where
  isWhole : Bool
  errMsgId : MsgID
  totalMsgLen : ℕ
deriving DecidableEq

namespace MsgCodec

variable (codec : MsgCodec)

def LenOk (totalMsgLen : ℕ) : Prop :=
  minTotalMsgLen ≤ totalMsgLen ∧ totalMsgLen ≤ codec.maxTotalMsgLen

instance (n : ℕ) : Decidable (codec.LenOk n) :=
  inferInstanceAs (Decidable (_ ∧ _))

def isWholeMsg (data : ℕ → UInt8) (len : ℕ) : WholeMsg :=
  let totalMsgLen := (ntohlAt data 0).toNat
  if totalMsgLen < minTotalMsgLen ∨ codec.maxTotalMsgLen < totalMsgLen then
    ⟨false, msgIdInvalidMsgLen, totalMsgLen⟩
  else if len < totalMsgLenFieldLen + totalMsgLen then
    ⟨false, msgIdNotAWholeMsg, totalMsgLen⟩
  else ⟨true, msgIdOk, totalMsgLen⟩

/-- `DecodeMsg` on the bytes behind a length field, of which there are at least
`MIN_TOTAL_MSG_LEN`. -/
def decodeMsg (totalMsg : Bytes) : Except MsgID (MsgHead × Bytes) :=
  let at_ := ntohlAt fun i => totalMsg.getD i 0
  if codec.doChecksum ∧
      at_ 0 ≠ codec.fastCRC32 (totalMsg.drop checksumFieldLen) then
    .error msgIdChecksumMismatch
  else
    .ok ({ passback := (at_ checksumFieldLen).toInt32
           msgId := (at_ (checksumFieldLen + passbackFieldLen)).toInt32 },
      totalMsg.drop minTotalMsgLen)

/-- `EncodeMsg`; it never fails.  The length field is the 32-bit conversion of
the message length. -/
def encodeMsg (head : MsgHead) (body : Bytes) : Bytes :=
  let headBytes := htonl head.passback.toUInt32 ++ htonl head.msgId.toUInt32
  let checksum :=
    if codec.doChecksum then codec.fastCRC32 (headBytes ++ body) else 0
  htonl (UInt32.ofNat (minTotalMsgLen + body.length)) ++ htonl checksum ++
    headBytes ++ body

/-- The complete message at the head of a buffer, behind its length field. -/
def totalMsgOf (data : Bytes) (totalMsgLen : ℕ) : Bytes :=
  (data.drop totalMsgLenFieldLen).take totalMsgLen

def leftOf (data : Bytes) (totalMsgLen : ℕ) : Bytes :=
  data.drop (totalMsgLenFieldLen + totalMsgLen)

def announced (data : Bytes) : ℕ := (ntohlAt (fun i => data.getD i 0) 0).toNat

def headOf (data : Bytes) : Head UInt8 Bytes :=
  if data.length < totalMsgLenFieldLen then .waiting
  else if codec.LenOk (announced data) then
    if data.length < totalMsgLenFieldLen + announced data then .waiting
    else .whole (totalMsgOf data (announced data))
      (leftOf data (announced data))
  else .broken

end MsgCodec

theorem memoryOf_of_lt {data : Bytes} {behind : ℕ → UInt8} {offset : ℕ}
    (h : offset < data.length) :
    memoryOf data behind offset = data.getD offset 0 := by
  simp [memoryOf, h]

theorem ntohlAt_memoryOf {data : Bytes} {behind : ℕ → UInt8}
    (h : totalMsgLenFieldLen ≤ data.length) :
    (ntohlAt (memoryOf data behind) 0).toNat = MsgCodec.announced data := by
  unfold totalMsgLenFieldLen at h
  unfold MsgCodec.announced ntohlAt
  rw [memoryOf_of_lt (by omega), memoryOf_of_lt (by omega),
    memoryOf_of_lt (by omega), memoryOf_of_lt (by omega)]

namespace MsgCodec

variable {codec : MsgCodec}

theorem announced_append {data : Bytes}
    (h : totalMsgLenFieldLen ≤ data.length) (more : Bytes) :
    announced (data ++ more) = announced data := by
  have hbyte : ∀ i < totalMsgLenFieldLen,
      (data ++ more).getD i 0 = data.getD i 0 := by
    intro i hi
    rw [List.getD_eq_getElem?_getD, List.getD_eq_getElem?_getD,
      List.getElem?_append_left (by omega)]
  unfold totalMsgLenFieldLen at hbyte
  simp only [announced, ntohlAt]
  rw [hbyte 0 (by omega), hbyte (0 + 1) (by omega), hbyte (0 + 2) (by omega),
    hbyte (0 + 3) (by omega)]

theorem headOf_eq_whole_iff {data totalMsg rest : Bytes} :
    codec.headOf data = .whole totalMsg rest ↔
      totalMsgLenFieldLen ≤ data.length ∧ codec.LenOk (announced data) ∧
        totalMsgLenFieldLen + announced data ≤ data.length ∧
        totalMsg = totalMsgOf data (announced data) ∧
        rest = leftOf data (announced data) := by
  unfold headOf
  split_ifs with hfield hok hlen
  · simp; omega
  · simp; omega
  · simp only [Head.whole.injEq]
    constructor
    · rintro ⟨rfl, rfl⟩
      exact ⟨by omega, hok, by omega, rfl, rfl⟩
    · rintro ⟨-, -, -, rfl, rfl⟩
      exact ⟨rfl, rfl⟩
  · simp [hok]

theorem headOf_eq_broken_iff {data : Bytes} :
    codec.headOf data = .broken ↔
      totalMsgLenFieldLen ≤ data.length ∧ ¬codec.LenOk (announced data) := by
  unfold headOf
  split_ifs with hfield hok hlen
  · simp; omega
  · simp [hok]
  · simp [hok]
  · simpa [hok] using not_lt.mp hfield

theorem headOf_whole_append {data totalMsg rest : Bytes}
    (h : codec.headOf data = .whole totalMsg rest) (more : Bytes) :
    codec.headOf (data ++ more) = .whole totalMsg (rest ++ more) := by
  rw [headOf_eq_whole_iff] at h ⊢
  obtain ⟨hfield, hok, hlen, rfl, rfl⟩ := h
  rw [announced_append hfield]
  refine ⟨by simp; omega, hok, by simp; omega, ?_, ?_⟩
  · unfold totalMsgOf
    rw [List.drop_append_of_le_length hfield,
      List.take_append_of_le_length (by simp; omega)]
  · unfold leftOf
    rw [List.drop_append_of_le_length hlen]

theorem headOf_broken_append {data : Bytes}
    (h : codec.headOf data = .broken) (more : Bytes) :
    codec.headOf (data ++ more) = .broken := by
  rw [headOf_eq_broken_iff] at h ⊢
  rw [announced_append h.1]
  exact ⟨by simp; omega, h.2⟩

theorem headOf_whole_shorter {data totalMsg rest : Bytes}
    (h : codec.headOf data = .whole totalMsg rest) :
    rest.length < data.length := by
  rw [headOf_eq_whole_iff] at h
  obtain ⟨hfield, -, hlen, -, rfl⟩ := h
  unfold totalMsgLenFieldLen at hfield hlen
  simp only [leftOf, totalMsgLenFieldLen, List.length_drop]
  omega

/-- The wire format as a framing: complete messages behind their length. -/
def framing (codec : MsgCodec) : Framing UInt8 Bytes where
  head := codec.headOf
  whole_append := headOf_whole_append
  broken_append := headOf_broken_append
  whole_shorter := headOf_whole_shorter

/-- A read of the length field that runs past the end of a buffer of fewer than
four bytes and finds a length there that is refused. -/
def Misreads (codec : MsgCodec) (behind : ℕ → UInt8) (data : Bytes) : Prop :=
  data.length < totalMsgLenFieldLen ∧
    ¬codec.LenOk (ntohlAt (memoryOf data behind) 0).toNat

instance (behind : ℕ → UInt8) (data : Bytes) :
    Decidable (codec.Misreads behind data) :=
  inferInstanceAs (Decidable (_ ∧ _))

theorem isWholeMsg_of_whole {data totalMsg rest : Bytes}
    (h : codec.headOf data = .whole totalMsg rest) (behind : ℕ → UInt8) :
    codec.isWholeMsg (memoryOf data behind) data.length =
        ⟨true, msgIdOk, announced data⟩ ∧
      totalMsg = totalMsgOf data (announced data) ∧
      rest = leftOf data (announced data) := by
  rw [headOf_eq_whole_iff] at h
  obtain ⟨hfield, hok, hlen, hmsg, hrest⟩ := h
  refine ⟨?_, hmsg, hrest⟩
  unfold isWholeMsg
  rw [ntohlAt_memoryOf hfield, if_neg (by unfold LenOk at hok; omega),
    if_neg (by omega)]

theorem isWholeMsg_of_refused {data : Bytes} {behind : ℕ → UInt8}
    (h : codec.headOf data = .broken ∨ codec.Misreads behind data) :
    ∃ totalMsgLen, codec.isWholeMsg (memoryOf data behind) data.length =
      ⟨false, msgIdInvalidMsgLen, totalMsgLen⟩ := by
  have hbad : ¬codec.LenOk (ntohlAt (memoryOf data behind) 0).toNat := by
    rcases h with h | h
    · rw [headOf_eq_broken_iff] at h
      rw [ntohlAt_memoryOf h.1]
      exact h.2
    · exact h.2
  refine ⟨(ntohlAt (memoryOf data behind) 0).toNat, ?_⟩
  unfold isWholeMsg
  rw [if_pos (by unfold LenOk at hbad; omega)]

theorem isWholeMsg_of_waiting {data : Bytes} {behind : ℕ → UInt8}
    (h : codec.headOf data = .waiting) (hread : ¬codec.Misreads behind data) :
    ∃ totalMsgLen, codec.isWholeMsg (memoryOf data behind) data.length =
      ⟨false, msgIdNotAWholeMsg, totalMsgLen⟩ := by
  by_cases hfield : data.length < totalMsgLenFieldLen
  · have hok : codec.LenOk (ntohlAt (memoryOf data behind) 0).toNat := by
      by_contra hbad
      exact hread ⟨hfield, hbad⟩
    refine ⟨(ntohlAt (memoryOf data behind) 0).toNat, ?_⟩
    unfold isWholeMsg
    rw [if_neg (by unfold LenOk at hok; omega), if_pos (by omega)]
  · have hfield' : totalMsgLenFieldLen ≤ data.length := not_lt.mp hfield
    unfold headOf at h
    rw [if_neg hfield] at h
    by_cases hok : codec.LenOk (announced data)
    · rw [if_pos hok] at h
      by_cases hlen : data.length < totalMsgLenFieldLen + announced data
      · refine ⟨announced data, ?_⟩
        unfold isWholeMsg
        rw [ntohlAt_memoryOf hfield', if_neg (by unfold LenOk at hok; omega),
          if_pos hlen]
      · rw [if_neg hlen] at h
        cases h
    · rw [if_neg hok] at h
      cases h

theorem headOf_of_short {data : Bytes} (h : data.length < totalMsgLenFieldLen) :
    codec.headOf data = .waiting := by
  unfold headOf
  rw [if_pos h]

theorem not_misreads_of_length {data : Bytes} {behind : ℕ → UInt8}
    (h : totalMsgLenFieldLen ≤ data.length) : ¬codec.Misreads behind data :=
  fun hread => absurd hread.1 (not_lt.mpr h)

/-! ## Frames with a valid checksum -/

/-- The head of a buffer for a reader that takes messages with a valid checksum
only: a complete frame with a wrong one is as final as a refused length. -/
def checkedHead (codec : MsgCodec) (data : Bytes) : Head UInt8 (MsgHead × Bytes) :=
  match codec.headOf data with
  | .waiting => .waiting
  | .broken => .broken
  | .whole totalMsg rest =>
      match codec.decodeMsg totalMsg with
      | .error _ => .broken
      | .ok msg => .whole msg rest

theorem checkedHead_eq_whole_iff {data : Bytes} {msg : MsgHead × Bytes}
    {rest : Bytes} :
    codec.checkedHead data = .whole msg rest ↔
      ∃ totalMsg, codec.headOf data = .whole totalMsg rest ∧
        codec.decodeMsg totalMsg = .ok msg := by
  unfold checkedHead
  cases hhead : codec.headOf data with
  | waiting => simp
  | broken => simp
  | whole totalMsg rest' =>
      cases hdecode : codec.decodeMsg totalMsg with
      | error errMsgId => simp [hdecode]
      | ok msg' =>
          simp only [hdecode, Head.whole.injEq]
          constructor
          · rintro ⟨rfl, rfl⟩
            exact ⟨totalMsg, ⟨rfl, rfl⟩, hdecode⟩
          · rintro ⟨totalMsg', ⟨rfl, rfl⟩, hdecode'⟩
            rw [hdecode] at hdecode'
            cases hdecode'
            exact ⟨rfl, rfl⟩

theorem checkedHead_eq_broken_iff {data : Bytes} :
    codec.checkedHead data = .broken ↔
      codec.headOf data = .broken ∨
        ∃ totalMsg rest errMsgId, codec.headOf data = .whole totalMsg rest ∧
          codec.decodeMsg totalMsg = .error errMsgId := by
  unfold checkedHead
  cases hhead : codec.headOf data with
  | waiting => simp
  | broken => simp
  | whole totalMsg rest =>
      cases hdecode : codec.decodeMsg totalMsg with
      | error errMsgId => simp [hdecode]
      | ok msg => simp [hdecode]

theorem checkedHead_eq_waiting_iff {data : Bytes} :
    codec.checkedHead data = .waiting ↔ codec.headOf data = .waiting := by
  unfold checkedHead
  cases hhead : codec.headOf data with
  | waiting => simp
  | broken => simp
  | whole totalMsg rest =>
      cases hdecode : codec.decodeMsg totalMsg <;> simp [hdecode]

def checkedFraming (codec : MsgCodec) : Framing UInt8 (MsgHead × Bytes) where
  head := codec.checkedHead
  whole_append := by
    intro b f r h c
    rw [checkedHead_eq_whole_iff] at h ⊢
    obtain ⟨totalMsg, hhead, hdecode⟩ := h
    exact ⟨totalMsg, headOf_whole_append hhead c, hdecode⟩
  broken_append := by
    intro b h c
    rw [checkedHead_eq_broken_iff] at h ⊢
    rcases h with h | ⟨totalMsg, rest, errMsgId, hhead, hdecode⟩
    · exact Or.inl (headOf_broken_append h c)
    · exact Or.inr ⟨totalMsg, _, errMsgId, headOf_whole_append hhead c, hdecode⟩
  whole_shorter := by
    intro b f r h
    rw [checkedHead_eq_whole_iff] at h
    obtain ⟨totalMsg, hhead, -⟩ := h
    exact headOf_whole_shorter hhead

end MsgCodec

end CommonComponent
