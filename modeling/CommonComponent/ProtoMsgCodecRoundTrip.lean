import CommonComponent.ProtoMsgCodec
import Mathlib.Tactic

/-!
# Encoding and decoding proto messages

`EncodeMsg` and the two readers compute the same offsets in different places:
`IsWholeMsg` on a receive buffer, `DecodeMsg` on the bytes behind the length
field.  Between threads a message travels without its length field.

The reader computes its limit from `max_msg_body_len` in `size_t`.
-/

namespace CommonComponent

open FramedStream

structure MsgCodecCtx where
  maxMsgBodyLen : ℕ
  doChecksum : Bool

/-- The limit that `IsWholeMsg` computes from a context. -/
def MsgCodecCtx.maxTotalMsgLen (ctx : MsgCodecCtx) : ℕ :=
  (minTotalMsgLen + ctx.maxMsgBodyLen) % 2 ^ 64

/-- The codec of a process whose first limit is the one of this context. -/
def MsgCodec.ofLimit (ctx : MsgCodecCtx) (fastCRC32 : Bytes → UInt32) : MsgCodec where
  maxTotalMsgLen := ctx.maxTotalMsgLen
  doChecksum := ctx.doChecksum
  fastCRC32 := fastCRC32

/-- The data of the task that `Scheduler::SendToThread` pushes. -/
def MsgCodec.threadTaskData (codec : MsgCodec) (head : MsgHead) (body : Bytes) :
    Bytes :=
  (codec.encodeMsg head body).drop totalMsgLenFieldLen

/-- A body that a peer with this context takes, and whose message length fits the
length field. -/
def MsgCodecCtx.BodyOk (ctx : MsgCodecCtx) (body : Bytes) : Prop :=
  body.length ≤ ctx.maxMsgBodyLen ∧ minTotalMsgLen + body.length < 2 ^ 32

instance (ctx : MsgCodecCtx) (body : Bytes) : Decidable (ctx.BodyOk body) :=
  inferInstanceAs (Decidable (_ ∧ _))

theorem ntohlAt_htonl (x : UInt32) (before after : Bytes) :
    ntohlAt (fun i => (before ++ (htonl x ++ after)).getD i 0) before.length = x := by
  have hbyte : ∀ i < 4, (before ++ (htonl x ++ after)).getD (before.length + i) 0 =
      (htonl x).getD i 0 := by
    intro i hi
    rw [List.getD_eq_getElem?_getD, List.getD_eq_getElem?_getD,
      List.getElem?_append_right (by omega), Nat.add_sub_cancel_left,
      List.getElem?_append_left (by simpa [htonl] using hi)]
  have hzero := hbyte 0 (by omega)
  rw [Nat.add_zero] at hzero
  simp only [ntohlAt]
  rw [hzero, hbyte 1 (by omega), hbyte 2 (by omega), hbyte 3 (by omega)]
  have hx := x.toNat_lt
  apply UInt32.toNat_inj.mp
  simp only [ntohl, htonl, List.getD_cons_zero, List.getD_cons_succ,
    UInt8.toNat_ofNat', UInt32.toNat_ofNat']
  omega

namespace MsgCodec

variable (codec : MsgCodec) (head : MsgHead) (body : Bytes)

/-- The message length fits the length field. -/
def Sendable : Prop := minTotalMsgLen + body.length < 2 ^ 32

def encodedMsg : Bytes :=
  let headBytes := htonl head.passback.toUInt32 ++ htonl head.msgId.toUInt32
  let checksum :=
    if codec.doChecksum then codec.fastCRC32 (headBytes ++ body) else 0
  htonl checksum ++ headBytes ++ body

theorem encodeMsg_eq : codec.encodeMsg head body =
    htonl (UInt32.ofNat (minTotalMsgLen + body.length)) ++
      codec.encodedMsg head body := by
  simp [encodeMsg, encodedMsg]

@[simp] theorem encodedMsg_length :
    (codec.encodedMsg head body).length = minTotalMsgLen + body.length := by
  simp [encodedMsg, htonl, minTotalMsgLen, checksumFieldLen, passbackFieldLen,
    msgIdFieldLen]
  omega

theorem threadTaskData_eq :
    codec.threadTaskData head body = codec.encodedMsg head body := by
  rw [threadTaskData, encodeMsg_eq]
  exact List.drop_left' (by simp [htonl, totalMsgLenFieldLen])

/-- `DecodeMsg` undoes `EncodeMsg`, with either checksum setting. -/
theorem decodeMsg_encodedMsg :
    codec.decodeMsg (codec.encodedMsg head body) = .ok (head, body) := by
  set checksum := if codec.doChecksum then codec.fastCRC32
    (htonl head.passback.toUInt32 ++ htonl head.msgId.toUInt32 ++ body) else 0
    with hchecksum
  have hsplit : codec.encodedMsg head body = htonl checksum ++
      (htonl head.passback.toUInt32 ++ (htonl head.msgId.toUInt32 ++ body)) := by
    simp [encodedMsg, hchecksum]
  have hcrc := ntohlAt_htonl checksum []
    (htonl head.passback.toUInt32 ++ (htonl head.msgId.toUInt32 ++ body))
  have hpassback := ntohlAt_htonl head.passback.toUInt32 (htonl checksum)
    (htonl head.msgId.toUInt32 ++ body)
  have hmsgId := ntohlAt_htonl head.msgId.toUInt32
    (htonl checksum ++ htonl head.passback.toUInt32) body
  simp only [List.nil_append, List.length_nil, List.append_assoc,
    List.length_append] at hcrc hpassback hmsgId
  have hrest : (codec.encodedMsg head body).drop checksumFieldLen =
      htonl head.passback.toUInt32 ++ htonl head.msgId.toUInt32 ++ body := by
    rw [hsplit, List.append_assoc]
    exact List.drop_left' rfl
  have hbody : (codec.encodedMsg head body).drop minTotalMsgLen = body := by
    rw [hsplit, ← List.append_assoc, ← List.append_assoc]
    exact List.drop_left' rfl
  unfold decodeMsg
  dsimp only
  rw [hrest, hbody, hsplit, hcrc]
  have hsum : ¬(codec.doChecksum = true ∧ checksum ≠ codec.fastCRC32
      (htonl head.passback.toUInt32 ++ htonl head.msgId.toUInt32 ++ body)) := by
    rintro ⟨hdo, hne⟩
    exact hne (by rw [hchecksum, if_pos hdo])
  rw [if_neg hsum]
  have hat : ntohlAt (fun i => (htonl checksum ++ (htonl head.passback.toUInt32 ++
      (htonl head.msgId.toUInt32 ++ body))).getD i 0) checksumFieldLen =
        head.passback.toUInt32 := hpassback
  have hat' : ntohlAt (fun i => (htonl checksum ++ (htonl head.passback.toUInt32 ++
      (htonl head.msgId.toUInt32 ++ body))).getD i 0)
        (checksumFieldLen + passbackFieldLen) = head.msgId.toUInt32 := hmsgId
  rw [hat, hat']
  simp

variable {codec head body}

theorem announced_encodeMsg (hsend : Sendable body) (rest : Bytes) :
    announced (codec.encodeMsg head body ++ rest) =
      minTotalMsgLen + body.length := by
  have hlen := ntohlAt_htonl (UInt32.ofNat (minTotalMsgLen + body.length)) []
    (codec.encodedMsg head body ++ rest)
  simp only [List.nil_append, List.length_nil] at hlen
  rw [encodeMsg_eq, List.append_assoc, announced, hlen, UInt32.toNat_ofNat']
  exact Nat.mod_eq_of_lt hsend

theorem headOf_encodeMsg (head : MsgHead) (hsend : Sendable body)
    (hok : codec.LenOk (minTotalMsgLen + body.length)) (rest : Bytes) :
    codec.headOf (codec.encodeMsg head body ++ rest) =
      .whole (codec.encodedMsg head body) rest := by
  have hlength : (codec.encodeMsg head body ++ rest).length =
      totalMsgLenFieldLen + (minTotalMsgLen + body.length) + rest.length := by
    simp [encodeMsg_eq, htonl, totalMsgLenFieldLen]
    omega
  rw [headOf_eq_whole_iff, announced_encodeMsg hsend]
  refine ⟨by omega, hok, by omega, ?_, ?_⟩
  · rw [totalMsgOf, encodeMsg_eq, List.append_assoc,
      List.drop_left' (by simp [htonl, totalMsgLenFieldLen])]
    exact (List.take_left' (codec.encodedMsg_length head body)).symm
  · rw [leftOf]
    refine (List.drop_left' ?_).symm
    simp [encodeMsg_eq, htonl, totalMsgLenFieldLen]
    omega

theorem checkedHead_encodeMsg (hsend : Sendable body)
    (hok : codec.LenOk (minTotalMsgLen + body.length)) (rest : Bytes) :
    codec.checkedHead (codec.encodeMsg head body ++ rest) =
      .whole (head, body) rest :=
  checkedHead_eq_whole_iff.mpr
    ⟨_, headOf_encodeMsg head hsend hok rest, decodeMsg_encodedMsg codec head body⟩

theorem drain_encodeMsgs {msgs : List (MsgHead × Bytes)}
    (hmsgs : ∀ msg ∈ msgs, Sendable msg.2 ∧ codec.LenOk (minTotalMsgLen + msg.2.length)) :
    codec.checkedFraming.drain (msgs.flatMap fun msg => codec.encodeMsg msg.1 msg.2) =
      (msgs, []) := by
  induction msgs with
  | nil => exact codec.checkedFraming.drain_nil
  | cons msg msgs ih =>
      rw [List.forall_mem_cons] at hmsgs
      rw [List.flatMap_cons, codec.checkedFraming.drain_whole
        (checkedHead_encodeMsg hmsgs.1.1 hmsgs.1.2 _), ih hmsgs.2]

variable {ctx : MsgCodecCtx} {fastCRC32 : Bytes → UInt32}

theorem lenOk_ofLimit (hwrap : minTotalMsgLen + ctx.maxMsgBodyLen < 2 ^ 64)
    (hbody : ctx.BodyOk body) :
    (ofLimit ctx fastCRC32).LenOk (minTotalMsgLen + body.length) := by
  have hlimit : ctx.maxTotalMsgLen = minTotalMsgLen + ctx.maxMsgBodyLen :=
    Nat.mod_eq_of_lt hwrap
  refine ⟨Nat.le_add_right _ _, ?_⟩
  change minTotalMsgLen + body.length ≤ ctx.maxTotalMsgLen
  rw [hlimit]
  exact Nat.add_le_add_left hbody.1 _

/-- A limit that has wrapped is below every message length. -/
theorem not_lenOk_of_wrap (hsize : ctx.maxMsgBodyLen < 2 ^ 64)
    (hwrap : ¬minTotalMsgLen + ctx.maxMsgBodyLen < 2 ^ 64) (totalMsgLen : ℕ) :
    ¬(ofLimit ctx fastCRC32).LenOk totalMsgLen := by
  rintro ⟨hmin, hmax⟩
  have hlimit : totalMsgLen ≤ (minTotalMsgLen + ctx.maxMsgBodyLen) % 2 ^ 64 := hmax
  have hlen : minTotalMsgLen = 12 := rfl
  omega

/-- **The round trip.**  With any bytes behind it an encoded message is found
whole and decodes to what was encoded, also as it travels between threads; so a
stream of encoded messages is read back as the list of messages.  All this holds exactly
if the limit does not wrap. -/
theorem encodeMsg_roundTrip_iff (maxMsgBodyLen : UInt64) (doChecksum : Bool)
    (fastCRC32 : Bytes → UInt32) (head : MsgHead) (body : Bytes)
    (hbody : MsgCodecCtx.BodyOk ⟨maxMsgBodyLen.toNat, doChecksum⟩ body) (rest : Bytes)
    (behind : ℕ → UInt8) (msgs : List (MsgHead × Bytes))
    (hmsgs : ∀ msg ∈ msgs, MsgCodecCtx.BodyOk ⟨maxMsgBodyLen.toNat, doChecksum⟩ msg.2) :
    let codec := ofLimit ⟨maxMsgBodyLen.toNat, doChecksum⟩ fastCRC32
    let frame := codec.encodeMsg head body
    let totalMsgLen := minTotalMsgLen + body.length
    (codec.isWholeMsg (memoryOf (frame ++ rest) behind) (frame ++ rest).length =
        ⟨true, msgIdOk, totalMsgLen⟩ ∧
      frame.length = totalMsgLenFieldLen + totalMsgLen ∧
      codec.decodeMsg (totalMsgOf (frame ++ rest) totalMsgLen) = .ok (head, body) ∧
      leftOf (frame ++ rest) totalMsgLen = rest ∧
      codec.decodeMsg (codec.threadTaskData head body) = .ok (head, body) ∧
      codec.checkedFraming.drain
          (msgs.flatMap fun msg => codec.encodeMsg msg.1 msg.2) = (msgs, [])) ↔
      minTotalMsgLen + maxMsgBodyLen.toNat < 2 ^ 64 := by
  intro codec frame totalMsgLen
  have hframe : frame.length = totalMsgLenFieldLen + totalMsgLen := by
    simp [frame, totalMsgLen, encodeMsg_eq, htonl, totalMsgLenFieldLen]
    omega
  constructor
  · rintro ⟨hwhole, -⟩
    by_contra hwrap
    have hbad : ¬codec.LenOk totalMsgLen :=
      not_lenOk_of_wrap maxMsgBodyLen.toNat_lt hwrap totalMsgLen
    have hbroken : codec.headOf (frame ++ rest) = .broken := by
      rw [headOf_eq_broken_iff, announced_encodeMsg hbody.2, List.length_append, hframe]
      exact ⟨by omega, hbad⟩
    obtain ⟨len, hrefused⟩ := isWholeMsg_of_refused (.inl hbroken)
    rw [hwhole] at hrefused
    cases hrefused
  · intro hwrap
    have hok : codec.LenOk totalMsgLen := lenOk_ofLimit hwrap hbody
    have hwhole : codec.headOf (frame ++ rest) =
        .whole (codec.encodedMsg head body) rest := headOf_encodeMsg head hbody.2 hok rest
    obtain ⟨hisWhole, hmsg, hleft⟩ := isWholeMsg_of_whole hwhole behind
    rw [announced_encodeMsg hbody.2] at hisWhole hmsg hleft
    refine ⟨hisWhole, hframe, ?_, hleft.symm, ?_,
      drain_encodeMsgs fun msg hmem => ⟨(hmsgs msg hmem).2, lenOk_ofLimit hwrap (hmsgs msg hmem)⟩⟩
    · rw [← hmsg]
      exact decodeMsg_encodedMsg codec head body
    · rw [threadTaskData_eq]
      exact decodeMsg_encodedMsg codec head body

theorem encodeMsg_roundTrip_with_checksum :
    let codec := ofLimit ⟨16, true⟩ crc32Bitwise
    let frame := codec.encodeMsg ⟨7, 9⟩ [1, 2, 3]
    codec.isWholeMsg (memoryOf (frame ++ [255]) fun _ => 0) (frame ++ [255]).length =
        ⟨true, msgIdOk, 15⟩ ∧
      codec.decodeMsg (codec.threadTaskData ⟨7, 9⟩ [1, 2, 3]) =
        .ok (⟨7, 9⟩, [1, 2, 3]) ∧
      codec.checkedFraming.drain
          (codec.encodeMsg ⟨7, 9⟩ [] ++ codec.encodeMsg ⟨8, 9⟩ [4]) =
        ([(⟨7, 9⟩, []), (⟨8, 9⟩, [4])], []) := by
  obtain ⟨hwhole, -, -, -, hthread, hstream⟩ :=
    (encodeMsg_roundTrip_iff 16 true crc32Bitwise ⟨7, 9⟩ [1, 2, 3] (by decide) [255]
      (fun _ => 0) [(⟨7, 9⟩, []), (⟨8, 9⟩, [4])] (by decide)).mpr (by decide)
  exact ⟨hwhole, hthread, by simpa using hstream⟩

/-- A limit of -1 in the configuration, and a message without a body. -/
theorem not_roundTrip_negative_limit :
    let ctx : MsgCodecCtx := ⟨2 ^ 64 - 1, false⟩
    let codec := ofLimit ctx crc32Bitwise
    let frame := codec.encodeMsg ⟨7, 9⟩ []
    ctx.BodyOk [] ∧
      ¬codec.isWholeMsg (memoryOf frame fun _ => 0) frame.length = ⟨true, msgIdOk, 12⟩ := by
  decide

end MsgCodec

end CommonComponent
