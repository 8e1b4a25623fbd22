import CommonComponent.ProtoMsgCodecRoundTrip
import Mathlib.Tactic

/-!
# Streams of encoded messages

What one process writes with its codec another reads with its own.  The two share
the checksum setting and may differ in how long a message they take.  A reader
takes messages off any beginning of the stream in the order they were written in;
it takes all whose last byte has arrived unless it comes to one that is too long
for it.
-/

namespace CommonComponent
namespace MsgCodec

open FramedStream

/-- The codecs of two processes that agree about checksums. -/
def SameFormat (codec codec' : MsgCodec) : Prop :=
  codec.doChecksum = codec'.doChecksum ∧ codec.fastCRC32 = codec'.fastCRC32

def encodeAll (codec : MsgCodec) (msgs : List (MsgHead × Bytes)) : Bytes :=
  msgs.flatMap fun msg => codec.encodeMsg msg.1 msg.2

variable {codec codec' : MsgCodec} {msgs : List (MsgHead × Bytes)}

theorem encodeAll_append (codec : MsgCodec) (msgs later : List (MsgHead × Bytes)) :
    codec.encodeAll (msgs ++ later) = codec.encodeAll msgs ++ codec.encodeAll later :=
  List.flatMap_append

theorem encodeAll_cons (codec : MsgCodec) (msg : MsgHead × Bytes)
    (later : List (MsgHead × Bytes)) :
    codec.encodeAll (msg :: later) =
      codec.encodeMsg msg.1 msg.2 ++ codec.encodeAll later :=
  List.flatMap_cons

theorem SameFormat.encodeMsg_eq (h : SameFormat codec codec') (head : MsgHead) (body : Bytes) :
    codec.encodeMsg head body = codec'.encodeMsg head body := by
  rw [encodeMsg, encodeMsg, h.1, h.2]

theorem SameFormat.encodeAll_eq (h : SameFormat codec codec') (msgs : List (MsgHead × Bytes)) :
    codec.encodeAll msgs = codec'.encodeAll msgs := by
  simp only [encodeAll, h.encodeMsg_eq]

/-! ## The head of a stream -/

theorem headOf_encode_of_not_lenOk (head : MsgHead) {body : Bytes} (hsend : Sendable body)
    (hlong : ¬codec.LenOk (minTotalMsgLen + body.length)) (rest : Bytes) :
    codec.headOf (codec.encodeMsg head body ++ rest) = .broken := by
  rw [headOf_eq_broken_iff, announced_encodeMsg hsend]
  refine ⟨?_, hlong⟩
  rw [encodeMsg_eq, List.append_assoc, List.length_append]
  exact Nat.le_add_right _ _

/-- The head of a beginning of a stream whose messages are not too long: a message
is missing bytes, or the first one is there. -/
theorem headOf_of_prefix {d : Bytes} (hd : d <+: codec.encodeAll msgs)
    (hmsgs : ∀ msg ∈ msgs, Sendable msg.2 ∧ codec.LenOk (minTotalMsgLen + msg.2.length)) :
    codec.headOf d = .waiting ∨ ∃ msg later rest, msgs = msg :: later ∧
      codec.headOf d = .whole (codec.encodedMsg msg.1 msg.2) rest ∧
      d = codec.encodeMsg msg.1 msg.2 ++ rest ∧ rest <+: codec.encodeAll later := by
  obtain ⟨more, hmore⟩ := hd
  cases msgs with
  | nil =>
      have hnil : d = [] := (List.append_eq_nil_iff.mp hmore).1
      exact .inl (hnil ▸ headOf_of_short (by decide))
  | cons msg later =>
      obtain ⟨hsend, hok⟩ := hmsgs msg List.mem_cons_self
      have hwhole := headOf_encodeMsg msg.1 hsend hok (codec.encodeAll later)
      rw [← encodeAll_cons, ← hmore] at hwhole
      cases hhead : codec.headOf d with
      | waiting => exact .inl rfl
      | broken =>
          rw [headOf_broken_append hhead more] at hwhole
          cases hwhole
      | whole totalMsg rest =>
          rw [headOf_whole_append hhead more, Head.whole.injEq] at hwhole
          obtain ⟨rfl, hrest⟩ := hwhole
          refine .inr ⟨msg, later, rest, rfl, rfl, ?_, more, hrest⟩
          rw [encodeAll_cons, ← hrest, ← List.append_assoc] at hmore
          exact List.append_cancel_right hmore

/-! ## What a reader takes -/

/-- A reader takes messages in the order they were written in, and stops for good
at one that is too long. -/
theorem drain_encodeAll_prefix (hformat : SameFormat codec codec')
    (hmsgs : ∀ msg ∈ msgs, Sendable msg.2) {d : Bytes} (hd : d <+: codec.encodeAll msgs) :
    (codec'.checkedFraming.drain d).1 <+: msgs := by
  refine (codec'.checkedFraming.drain_prefix hd).trans ?_
  clear hd
  rw [hformat.encodeAll_eq]
  induction msgs with
  | nil => rw [encodeAll, List.flatMap_nil, codec'.checkedFraming.drain_nil]
  | cons msg later ih =>
      rw [List.forall_mem_cons] at hmsgs
      rw [encodeAll_cons]
      by_cases hok : codec'.LenOk (minTotalMsgLen + msg.2.length)
      · have hwhole : codec'.checkedFraming.head
            (codec'.encodeMsg msg.1 msg.2 ++ codec'.encodeAll later) =
              .whole msg (codec'.encodeAll later) :=
          checkedHead_eq_whole_iff.mpr ⟨_, headOf_encodeMsg msg.1 hmsgs.1 hok _,
            decodeMsg_encodedMsg codec' msg.1 msg.2⟩
        rw [codec'.checkedFraming.drain_whole hwhole, List.cons_prefix_cons]
        exact ⟨rfl, ih hmsgs.2⟩
      · have hbroken : codec'.checkedFraming.head
            (codec'.encodeMsg msg.1 msg.2 ++ codec'.encodeAll later) = .broken :=
          checkedHead_eq_broken_iff.mpr
            (.inl (headOf_encode_of_not_lenOk msg.1 hmsgs.1 hok _))
        rw [codec'.checkedFraming.drain_of_not_startsWhole]
        · exact List.nil_prefix
        · rintro ⟨f, r, hwhole⟩
          rw [hbroken] at hwhole
          cases hwhole

end MsgCodec
end CommonComponent
