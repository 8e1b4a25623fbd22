import CommonComponent.FastCrc32
import CommonComponent.ProtoMsgCodecRoundTrip
import Mathlib.Tactic

/-!
# Bursts of errors

The checksum of a message stands in front of it and covers its passback, its
message id and its body.  A burst is a change inside a window of 32 bits, counted
from the low end of each byte.  The polynomial has its top bit set, so a burst
always changes the checksum, and `DecodeMsg` never takes a message that a burst
has hit, nor one whose checksum alone was hit.
-/

namespace CommonComponent
namespace FastCrc32

open ReflectedCrc

/-- The bits of a message in the order in which the register takes them. -/
def bitsOfBytes (data : Bytes) : List Bool :=
  data.flatMap fun byte => bitsOf byte.toBitVec

/-- Two messages of one length that differ, and do so inside a window of at most
`width` bits. -/
def Burst (width : ℕ) (data data' : Bytes) : Prop :=
  ∃ front burst burst' back, burst.length = burst'.length ∧ burst.length ≤ width ∧
    burst ≠ burst' ∧ bitsOfBytes data = front ++ burst ++ back ∧
    bitsOfBytes data' = front ++ burst' ++ back

theorem length_bitsOfBytes (data : Bytes) : (bitsOfBytes data).length = 8 * data.length := by
  induction data with
  | nil => rfl
  | cons byte data ih =>
      rw [bitsOfBytes, List.flatMap_cons, List.length_append, length_bitsOf, List.length_cons]
      rw [bitsOfBytes] at ih
      omega

theorem Burst.length_eq {width : ℕ} {data data' : Bytes} (hburst : Burst width data data') :
    data.length = data'.length := by
  obtain ⟨front, burst, burst', back, hlen, -, -, hdata, hdata'⟩ := hburst
  have hbits := congrArg List.length hdata
  have hbits' := congrArg List.length hdata'
  simp only [length_bitsOfBytes, List.length_append] at hbits hbits'
  omega

theorem foldl_bitwiseByte_bits (data : Bytes) (crc : UInt32) :
    (data.foldl bitwiseByte crc).toBitVec =
      feedBits polynomial.toBitVec crc.toBitVec (bitsOfBytes data) := by
  rw [foldl_bitwiseByte_toBitVec, ← feedBits_bytes _ (by decide), List.flatMap_map]
  rfl

/-- A burst changes the checksum, from whatever checksum it goes on. -/
theorem fastCRC32_burst {data data' : Bytes} (hburst : Burst 32 data data')
    (previousCrc32 : UInt32) :
    fastCRC32 data previousCrc32 ≠ fastCRC32 data' previousCrc32 := by
  obtain ⟨front, burst, burst', back, hlen, hwidth, hne, hdata, hdata'⟩ := hburst
  intro heq
  rw [fastCRC32_eq, fastCRC32_eq, crc32Bitwise, crc32Bitwise, UInt32.not_inj] at heq
  have hbits := congrArg UInt32.toBitVec heq
  rw [foldl_bitwiseByte_bits, foldl_bitwiseByte_bits, hdata, hdata'] at hbits
  exact feedBits_burst polynomial.toBitVec (by decide) _ front back hlen hwidth hne hbits

end FastCrc32

namespace MsgCodec

open FramedStream

/-- The codec of a process that sends and checks checksums, with `FastCRC32`. -/
def checking (maxMsgBodyLen : ℕ) : MsgCodec :=
  ofLimit ⟨maxMsgBodyLen, true⟩ fun data => FastCrc32.fastCRC32 data 0

/-- A message hit on its way: in its checksum alone, or by a burst in what the
checksum covers. -/
def Hit (totalMsg totalMsg' : Bytes) : Prop :=
  (totalMsg.take checksumFieldLen ≠ totalMsg'.take checksumFieldLen ∧
      totalMsg.drop checksumFieldLen = totalMsg'.drop checksumFieldLen) ∨
    (totalMsg.take checksumFieldLen = totalMsg'.take checksumFieldLen ∧
      FastCrc32.Burst 32 (totalMsg.drop checksumFieldLen) (totalMsg'.drop checksumFieldLen))

theorem Hit.length_eq {totalMsg totalMsg' : Bytes} (hhit : Hit totalMsg totalMsg')
    (hlen : minTotalMsgLen ≤ totalMsg.length) : totalMsg'.length = totalMsg.length := by
  have hdrop : (totalMsg.drop checksumFieldLen).length =
      (totalMsg'.drop checksumFieldLen).length := by
    obtain ⟨-, heq⟩ | ⟨-, hburst⟩ := hhit
    · rw [heq]
    · exact hburst.length_eq
  simp only [List.length_drop, minTotalMsgLen, checksumFieldLen, passbackFieldLen,
    msgIdFieldLen] at hdrop hlen
  omega

theorem ntohl_inj {a0 a1 a2 a3 b0 b1 b2 b3 : UInt8}
    (heq : ntohl a0 a1 a2 a3 = ntohl b0 b1 b2 b3) : a0 = b0 ∧ a1 = b1 ∧ a2 = b2 ∧ a3 = b3 := by
  have hnat := congrArg UInt32.toNat heq
  simp only [ntohl, UInt32.toNat_ofNat'] at hnat
  have ha := a0.toNat_lt; have ha1 := a1.toNat_lt; have ha2 := a2.toNat_lt
  have ha3 := a3.toNat_lt; have hb := b0.toNat_lt; have hb1 := b1.toNat_lt
  have hb2 := b2.toNat_lt; have hb3 := b3.toNat_lt
  simp only [← UInt8.toNat_inj]
  omega

/-- The checksum field determines its four bytes. -/
theorem ntohlAt_zero_inj {data data' : Bytes} (hlen : 4 ≤ data.length) (hlen' : 4 ≤ data'.length)
    (heq : ntohlAt (fun i => data.getD i 0) 0 = ntohlAt (fun i => data'.getD i 0) 0) :
    data.take 4 = data'.take 4 := by
  obtain ⟨h0, h1, h2, h3⟩ := ntohl_inj heq
  apply List.ext_getElem (by simp; omega)
  intro i hi hi'
  rw [List.length_take] at hi
  rw [List.getElem_take, List.getElem_take]
  have hbyte : data.getD i 0 = data'.getD i 0 := by
    obtain rfl | rfl | rfl | rfl : i = 0 ∨ i = 1 ∨ i = 2 ∨ i = 3 := by omega
    exacts [h0, h1, h2, h3]
  simpa [show i < data.length by omega, show i < data'.length by omega] using hbyte

theorem decodeMsg_checking_ok_iff {maxMsgBodyLen : ℕ} {totalMsg : Bytes} :
    (∃ msg, (checking maxMsgBodyLen).decodeMsg totalMsg = .ok msg) ↔
      ntohlAt (fun i => totalMsg.getD i 0) 0 =
        FastCrc32.fastCRC32 (totalMsg.drop checksumFieldLen) 0 := by
  unfold decodeMsg
  dsimp only
  split
  · rename_i h
    exact iff_of_false (by simp) h.2
  · rename_i h
    refine iff_of_true ⟨_, rfl⟩ ?_
    by_contra hne
    exact h ⟨rfl, hne⟩

theorem decodeMsg_checking_error {maxMsgBodyLen : ℕ} {totalMsg : Bytes}
    (hno : ¬∃ msg, (checking maxMsgBodyLen).decodeMsg totalMsg = .ok msg) :
    (checking maxMsgBodyLen).decodeMsg totalMsg = .error msgIdChecksumMismatch := by
  rw [decodeMsg_checking_ok_iff] at hno
  unfold decodeMsg
  dsimp only
  rw [if_pos ⟨rfl, hno⟩]

/-- A message that `DecodeMsg` takes is not taken once it is hit. -/
theorem decodeMsg_of_hit {maxMsgBodyLen : ℕ} {totalMsg totalMsg' : Bytes}
    (hok : ∃ msg, (checking maxMsgBodyLen).decodeMsg totalMsg = .ok msg)
    (hlen : minTotalMsgLen ≤ totalMsg.length) (hhit : Hit totalMsg totalMsg') :
    (checking maxMsgBodyLen).decodeMsg totalMsg' = .error msgIdChecksumMismatch := by
  refine decodeMsg_checking_error fun hok' => ?_
  have hlen' := hhit.length_eq hlen
  have hmin : 4 ≤ minTotalMsgLen := by decide
  rw [decodeMsg_checking_ok_iff] at hok hok'
  obtain ⟨hfield, hcovered⟩ | ⟨hfield, hburst⟩ := hhit
  · rw [hcovered, ← hok'] at hok
    exact hfield (ntohlAt_zero_inj (by omega) (by omega) hok)
  · refine FastCrc32.fastCRC32_burst hburst 0 ?_
    rw [← hok, ← hok']
    have hbyte : ∀ i < 4, totalMsg.getD i 0 = totalMsg'.getD i 0 := by
      intro i hi
      have := congrArg (fun field : Bytes => field.getD i 0) hfield
      simpa [List.getElem?_take, checksumFieldLen, hi] using this
    simp only [ntohlAt, hbyte 0 (by omega), hbyte (0 + 1) (by omega), hbyte (0 + 2) (by omega),
      hbyte (0 + 3) (by omega)]

/-- **Corruption in transit.**  Of a stream of encoded messages in which one is hit,
the reader takes the messages in front of it and nothing from there on, whatever
follows. -/
theorem drain_of_hit (maxMsgBodyLen : ℕ) (hwrap : minTotalMsgLen + maxMsgBodyLen < 2 ^ 64)
    {before : List (MsgHead × Bytes)} {head : MsgHead} {body altered : Bytes} (after : Bytes)
    (hbefore : ∀ msg ∈ before, (⟨maxMsgBodyLen, true⟩ : MsgCodecCtx).BodyOk msg.2)
    (hbody : (⟨maxMsgBodyLen, true⟩ : MsgCodecCtx).BodyOk body)
    (hhit : Hit ((checking maxMsgBodyLen).encodedMsg head body) altered) :
    let codec := checking maxMsgBodyLen
    let frame := htonl (UInt32.ofNat (minTotalMsgLen + body.length)) ++ altered
    codec.decodeMsg altered = .error msgIdChecksumMismatch ∧
      codec.checkedFraming.drain
          ((before.flatMap fun msg => codec.encodeMsg msg.1 msg.2) ++ (frame ++ after)) =
        (before, frame ++ after) := by
  intro codec frame
  have hdecode := decodeMsg_of_hit ⟨_, decodeMsg_encodedMsg codec head body⟩
    (by rw [encodedMsg_length]; omega) hhit
  refine ⟨hdecode, ?_⟩
  have hlen : altered.length = minTotalMsgLen + body.length := by
    rw [hhit.length_eq (by rw [encodedMsg_length]; omega), encodedMsg_length]
  have hbroken : codec.checkedHead (frame ++ after) = .broken := by
    rw [checkedHead_eq_broken_iff]
    refine .inr ⟨altered, after, _, ?_, hdecode⟩
    have hfield := ntohlAt_htonl (UInt32.ofNat (minTotalMsgLen + body.length)) []
      (altered ++ after)
    simp only [List.nil_append, List.length_nil] at hfield
    have hannounced : announced (frame ++ after) = minTotalMsgLen + body.length := by
      rw [announced, List.append_assoc, hfield, UInt32.toNat_ofNat']
      exact Nat.mod_eq_of_lt hbody.2
    have hlength : (frame ++ after).length =
        totalMsgLenFieldLen + (minTotalMsgLen + body.length) + after.length := by
      simp only [frame, List.length_append, hlen]
      rfl
    rw [headOf_eq_whole_iff, hannounced, hlength]
    refine ⟨by omega, lenOk_ofLimit hwrap hbody, by omega, ?_, ?_⟩
    · rw [totalMsgOf, List.append_assoc,
        List.drop_left' (show (htonl _).length = totalMsgLenFieldLen from rfl),
        List.take_left' hlen]
    · rw [leftOf]
      exact (List.drop_left' (by simp only [frame, List.length_append, hlen]; rfl)).symm
  have hstop : codec.checkedFraming.drain (frame ++ after) = ([], frame ++ after) := by
    refine codec.checkedFraming.drain_of_not_startsWhole ?_
    rintro ⟨msg, rest, hwhole⟩
    rw [show codec.checkedFraming.head = codec.checkedHead from rfl, hbroken] at hwhole
    cases hwhole
  have hfront : codec.checkedFraming.drain
      (before.flatMap fun msg => codec.encodeMsg msg.1 msg.2) = (before, []) :=
    drain_encodeMsgs fun msg hmem => ⟨(hbefore msg hmem).2, lenOk_ofLimit hwrap (hbefore msg hmem)⟩
  rw [codec.checkedFraming.drain_append, hfront, List.nil_append, hstop, List.append_nil]

/-- Three messages, of which the second loses a bit of its body. -/
theorem drain_of_hit_second :
    let codec := checking 16
    let second := codec.encodedMsg ⟨7, 9⟩ [1, 2, 3]
    let altered := second.set 13 0
    let frame := htonl 15 ++ altered
    codec.decodeMsg altered = .error msgIdChecksumMismatch ∧
      codec.checkedFraming.drain
          (codec.encodeMsg ⟨6, 9⟩ [5] ++ (frame ++ codec.encodeMsg ⟨8, 9⟩ [])) =
        ([(⟨6, 9⟩, [5])], frame ++ codec.encodeMsg ⟨8, 9⟩ []) := by
  have hhit : Hit ((checking 16).encodedMsg ⟨7, 9⟩ [1, 2, 3])
      (((checking 16).encodedMsg ⟨7, 9⟩ [1, 2, 3]).set 13 0) := by
    refine .inr ⟨by decide +kernel, FastCrc32.bitsOfBytes [0, 0, 0, 7, 0, 0, 0, 9, 1],
      FastCrc32.bitsOfBytes [2], FastCrc32.bitsOfBytes [0], FastCrc32.bitsOfBytes [3], ?_⟩
    decide +kernel
  have hbefore : ∀ msg ∈ [((⟨6, 9⟩ : MsgHead), ([5] : Bytes))],
      (⟨16, true⟩ : MsgCodecCtx).BodyOk msg.2 := by decide
  have hdrain := drain_of_hit 16 (by decide) ((checking 16).encodeMsg ⟨8, 9⟩ []) hbefore
    (by decide) hhit
  simp only [List.flatMap_cons, List.flatMap_nil, List.append_nil] at hdrain
  exact hdrain

end MsgCodec
end CommonComponent
