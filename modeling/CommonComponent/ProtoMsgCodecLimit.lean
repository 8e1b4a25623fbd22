import CommonComponent.LabelledRun
import CommonComponent.ProtoMsgCodecRoundTrip
import Mathlib.Tactic

/-!
# The size limit of proto messages

The limit is computed in `size_t` by the receiver, from `max_msg_body_len`.  The
encoder writes the length field in 32 bits and looks at no limit; its callers ask for
its return value.  The receiver keeps the limit in a static variable that all the
codecs of a process share.
-/

namespace CommonComponent

open LabelledRun

namespace MsgCodec

/-! ## Sending -/

/-- `EncodeMsg` with its return value. -/
def encodeMsgRet (codec : MsgCodec) (head : MsgHead) (body : Bytes) : ℤ × Bytes :=
  (0, codec.encodeMsg head body)

/-- What `Scheduler::SendToClient` gives to the connection, unless it refuses. -/
def sendToClient (codec : MsgCodec) (head : MsgHead) (body : Bytes) : Option Bytes :=
  let encoded := codec.encodeMsgRet head body
  if encoded.1 ≠ 0 then none else some encoded.2

/-- What `Client::Send` sends or caches for a transaction, unless it refuses. -/
def clientSend (codec : MsgCodec) (transId : Passback) (head : MsgHead) (body : Bytes) :
    Option Bytes :=
  let transMsgHead := { head with passback := transId }
  let encoded := codec.encodeMsgRet transMsgHead body
  if encoded.1 ≠ 0 then none else some encoded.2

/-- `IsWholeMsg` takes these bytes for one complete frame, whatever lies behind them. -/
def AcceptsWhole (codec : MsgCodec) (frame : Bytes) : Prop :=
  ∀ behind, ∃ totalMsgLen,
    codec.isWholeMsg (memoryOf frame behind) frame.length = ⟨true, msgIdOk, totalMsgLen⟩ ∧
      totalMsgLenFieldLen + totalMsgLen = frame.length

/-- The total length of a message with this body is within the limit of the receiver
and of the length field. -/
def Fits (ctx : MsgCodecCtx) (body : Bytes) : Prop :=
  minTotalMsgLen + body.length ≤ ctx.maxTotalMsgLen ∧
    minTotalMsgLen + body.length < 2 ^ 32

instance (ctx : MsgCodecCtx) (body : Bytes) : Decidable (Fits ctx body) :=
  inferInstanceAs (Decidable (_ ∧ _))

def Agrees (codec : MsgCodec) (ctx : MsgCodecCtx) (body : Bytes)
    (sent : Option Bytes) : Prop :=
  (∀ frame, sent = some frame → codec.AcceptsWhole frame) ∧
    (¬Fits ctx body → sent = none)

variable {codec : MsgCodec} {head : MsgHead} {body : Bytes}

theorem announced_encodeMsg_mod :
    announced (codec.encodeMsg head body) =
      (minTotalMsgLen + body.length) % 2 ^ 32 := by
  have hlen := ntohlAt_htonl (UInt32.ofNat (minTotalMsgLen + body.length)) []
    (codec.encodedMsg head body)
  rw [List.nil_append, List.length_nil] at hlen
  rw [encodeMsg_eq, announced, hlen, UInt32.toNat_ofNat']

theorem encodeMsg_length : (codec.encodeMsg head body).length =
    totalMsgLenFieldLen + (minTotalMsgLen + body.length) := by
  simp [encodeMsg_eq, htonl, totalMsgLenFieldLen]
  omega

theorem encodeMsg_acceptsWhole_iff :
    codec.AcceptsWhole (codec.encodeMsg head body) ↔
      minTotalMsgLen + body.length ≤ codec.maxTotalMsgLen ∧
        minTotalMsgLen + body.length < 2 ^ 32 := by
  have hfield : totalMsgLenFieldLen ≤ (codec.encodeMsg head body).length := by
    rw [encodeMsg_length]
    omega
  constructor
  · intro h
    obtain ⟨totalMsgLen, hwhole, hlen⟩ := h fun _ => 0
    unfold isWholeMsg at hwhole
    rw [ntohlAt_memoryOf hfield, announced_encodeMsg_mod] at hwhole
    rw [encodeMsg_length] at hlen
    have hmod : (minTotalMsgLen + body.length) % 2 ^ 32 < 2 ^ 32 :=
      Nat.mod_lt _ (by norm_num)
    dsimp only at hwhole
    split_ifs at hwhole with hrefused hshort
    · simp at hwhole
    · simp at hwhole
    · rw [WholeMsg.mk.injEq] at hwhole
      omega
  · rintro ⟨hlimit, hfits⟩ behind
    refine ⟨minTotalMsgLen + body.length, ?_, encodeMsg_length.symm⟩
    unfold isWholeMsg
    rw [ntohlAt_memoryOf hfield, announced_encodeMsg_mod, Nat.mod_eq_of_lt hfits,
      if_neg (by omega), if_neg (by rw [encodeMsg_length]; omega)]

theorem encodeMsg_agrees_iff (ctx : MsgCodecCtx) (fastCRC32 : Bytes → UInt32)
    (head : MsgHead) (body : Bytes) :
    (ofLimit ctx fastCRC32).Agrees ctx body
        (some ((ofLimit ctx fastCRC32).encodeMsg head body)) ↔ Fits ctx body := by
  constructor
  · intro h
    by_contra hfits
    cases h.2 hfits
  · intro hfits
    constructor
    · intro frame hframe
      rw [← Option.some.inj hframe]
      exact encodeMsg_acceptsWhole_iff.mpr hfits
    · exact fun hnot => absurd hfits hnot

/-- **Sender and receiver agree** on the messages within the limit only: on both send
paths any longer message is sent and is not accepted. -/
theorem send_agrees_iff (ctx : MsgCodecCtx) (fastCRC32 : Bytes → UInt32)
    (head : MsgHead) (transId : Passback) (body : Bytes) :
    let codec := ofLimit ctx fastCRC32
    (codec.Agrees ctx body (codec.sendToClient head body) ↔ Fits ctx body) ∧
      (codec.Agrees ctx body (codec.clientSend transId head body) ↔ Fits ctx body) ∧
      (codec.AcceptsWhole (codec.encodeMsg head body) ↔ Fits ctx body) :=
  ⟨encodeMsg_agrees_iff ctx fastCRC32 head body,
    encodeMsg_agrees_iff ctx fastCRC32 ⟨transId, head.msgId⟩ body,
    encodeMsg_acceptsWhole_iff⟩

/-- With a limit of two bytes a body of three is sent, and refused. -/
theorem not_agrees_three_bytes :
    let codec := ofLimit ⟨2, false⟩ crc32Bitwise
    ¬codec.Agrees ⟨2, false⟩ [1, 2, 3] (codec.sendToClient ⟨0, 7⟩ [1, 2, 3]) ∧
      ¬codec.Agrees ⟨2, false⟩ [1, 2, 3] (codec.clientSend 1 ⟨0, 7⟩ [1, 2, 3]) := by
  intro codec
  constructor
  · intro h
    cases h.2 (by decide)
  · intro h
    cases h.2 (by decide)

end MsgCodec

/-! ## The limit of a process -/

/-- The codecs of a process.  `staticLimit` is the static variable of `IsWholeMsg`,
which the first call of the process initializes. -/
structure CodecProcess (ι : Type*) where
  staticLimit : Option ℕ
  msgCodecCtx : ι → MsgCodecCtx

inductive CodecAction (ι : Type*) where
  | setCtx (codec : ι) (ctx : MsgCodecCtx)
  | isWholeMsg (codec : ι) (data : ℕ → UInt8) (len : ℕ)

namespace CodecProcess

variable {ι : Type*}

def init : CodecProcess ι where
  staticLimit := none
  msgCodecCtx := fun _ => ⟨0, false⟩

/-- The limit that a call on this codec compares with. -/
def limit (s : CodecProcess ι) (codec : ι) : ℕ :=
  s.staticLimit.getD (s.msgCodecCtx codec).maxTotalMsgLen

def verdictOf (maxTotalMsgLen : ℕ) (data : ℕ → UInt8) (len : ℕ) : WholeMsg :=
  MsgCodec.isWholeMsg ⟨maxTotalMsgLen, false, fun _ => 0⟩ data len

def isWholeMsg (s : CodecProcess ι) (codec : ι) (data : ℕ → UInt8) (len : ℕ) :
    CodecProcess ι × WholeMsg :=
  ({ s with staticLimit := some (s.limit codec) },
    verdictOf (s.limit codec) data len)

def step [DecidableEq ι] (s : CodecProcess ι) :
    CodecAction ι → Option (CodecProcess ι)
  | .setCtx codec ctx =>
      some { s with msgCodecCtx := Function.update s.msgCodecCtx codec ctx }
  | .isWholeMsg codec data len => some (s.isWholeMsg codec data len).1

/-- The verdict on a call is the one that `verdict` gives for the data and the
`max_msg_body_len` of the codec that is called. -/
def VerdictsBy (verdict : ℕ → (ℕ → UInt8) → ℕ → WholeMsg) (s : CodecProcess ι)
    (a : CodecAction ι) (_ : CodecProcess ι) : Prop :=
  match a with
  | .setCtx _ _ => True
  | .isWholeMsg codec data len =>
      (s.isWholeMsg codec data len).2 =
        verdict (s.msgCodecCtx codec).maxMsgBodyLen data len

/-- The verdict of a codec that is alone in its process. -/
def ownVerdict (maxMsgBodyLen : ℕ) : (ℕ → UInt8) → ℕ → WholeMsg :=
  verdictOf (MsgCodecCtx.maxTotalMsgLen ⟨maxMsgBodyLen, false⟩)

/-- The length that the data announces is one for both limits, or for neither. -/
def SameSide (s : CodecProcess ι) : CodecAction ι → Prop
  | .setCtx _ _ => True
  | .isWholeMsg codec data _ =>
      minTotalMsgLen ≤ (ntohlAt data 0).toNat →
        ((ntohlAt data 0).toNat ≤ s.limit codec ↔
          (ntohlAt data 0).toNat ≤ (s.msgCodecCtx codec).maxTotalMsgLen)

theorem verdictOf_eq_iff (limit limit' : ℕ) (data : ℕ → UInt8) (len : ℕ) :
    verdictOf limit data len = verdictOf limit' data len ↔
      (minTotalMsgLen ≤ (ntohlAt data 0).toNat →
        ((ntohlAt data 0).toNat ≤ limit ↔ (ntohlAt data 0).toNat ≤ limit')) := by
  have hne : msgIdInvalidMsgLen ≠ msgIdNotAWholeMsg := by decide
  unfold verdictOf MsgCodec.isWholeMsg
  dsimp only
  split_ifs
  all_goals
    simp only [WholeMsg.mk.injEq, hne, hne.symm, Bool.false_eq_true, reduceCtorEq,
      false_and, and_false, and_true, true_iff, false_iff]
    omega

/-- **Codecs are independent** in exactly the runs in which the first limit of the
process and the limit of the codec called agree on each length announced. -/
theorem run_verdicts_iff [DecidableEq ι] (actions : List (CodecAction ι)) :
    Along step (fun _ => True) (VerdictsBy ownVerdict) (init : CodecProcess ι) actions ↔
      Guarded step SameSide init actions := by
  have hsame : ∀ (s : CodecProcess ι) a s', VerdictsBy ownVerdict s a s' ↔
      s.SameSide a := by
    intro s a s'
    cases a with
    | setCtx codec ctx => exact Iff.rfl
    | isWholeMsg codec data len =>
        exact verdictOf_eq_iff (s.limit codec) _ data len
  exact along_iff_guarded (fun s (_ : True) => trivial)
    (fun s a s' _ ha _ => ⟨trivial, (hsame s a s').mpr ha⟩)
    (fun s a s' _ _ hgood _ => (hsame s a s').mp hgood) actions trivial

/-- A length field of 14. -/
def twoByteBody : ℕ → UInt8 := fun offset => if offset = 3 then 14 else 0

def alone : List (CodecAction Bool) :=
  [.setCtx true ⟨2, false⟩, .isWholeMsg true twoByteBody 18]

def behindOther : List (CodecAction Bool) :=
  [.setCtx true ⟨2, false⟩, .isWholeMsg false twoByteBody 18,
    .isWholeMsg true twoByteBody 18]

theorem not_verdicts_two_codecs :
    ¬∃ verdict, ∀ actions, Along step (fun _ => True) (VerdictsBy verdict)
      (init : CodecProcess Bool) actions := by
  rintro ⟨verdict, h⟩
  have halone := ((h alone).2 _ rfl).2.2 _ rfl
  have hbehind := (((h behindOther).2 _ rfl).2.2 _ rfl).2.2 _ rfl
  have hsame := halone.1.trans hbehind.1.symm
  revert hsame
  decide

end CodecProcess

end CommonComponent
