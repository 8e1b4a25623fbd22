import CommonComponent.ProtoLogicReassembly

/-!
# What a call of the server takes off its buffer

`Takes` holds of every call of `OnRecvClientData`, with no condition on the
handlers, on the memory behind the buffer or on the checksums: while the connection
is open its messages are those whose last byte has arrived, once each and in order,
and the buffer has what is behind them; a call that closes the connection has given
a beginning of them to the handlers.  The server's own replies name a message it
was given, or none.
-/

namespace CommonComponent
namespace ProtoLogic

open FramedStream

variable {σ : Type*} {p : ProtoLogic σ}

/-- The data that is sent back by `ProtoLogic` itself. -/
def replies (events : List ConnEvent) : List Bytes :=
  events.filterMap fun
    | .sendToClient data => some data
    | _ => none

/-- A message without a body that is sent back for one of `msgs`, or for bytes that
no message could be taken from. -/
def AnswersOneOf (p : ProtoLogic σ) (msgs : List (MsgHead × Bytes)) (data : Bytes) : Prop :=
  ∃ head, data = p.msgCodec.encodeMsg head [] ∧
    (head.passback = 0 ∨ ∃ msg ∈ msgs, msg.1.passback = head.passback)

/-- The buffer `d` of `s` has been worked through with the events `new`. -/
structure Takes (p : ProtoLogic σ) (s : ConnState σ) (d : Bytes) (s' : ConnState σ)
    (new : List ConnEvent) : Prop where
  events : s'.events = s.events ++ new
  opened : ∀ left, s'.data = some left →
    p.msgCodec.checkedFraming.drain d = (delivered new, left)
  closed : s'.data = none → delivered new <+: (p.msgCodec.checkedFraming.drain d).1
  answers : ∀ data ∈ replies new, p.AnswersOneOf (delivered new) data

theorem replies_append (events later : List ConnEvent) :
    replies (events ++ later) = replies events ++ replies later :=
  List.filterMap_append

theorem AnswersOneOf.mono {msgs msgs' : List (MsgHead × Bytes)} {data : Bytes}
    (h : p.AnswersOneOf msgs data) (hsub : ∀ msg ∈ msgs, msg ∈ msgs') :
    p.AnswersOneOf msgs' data := by
  obtain ⟨head, hdata, hzero | ⟨msg, hmsg, hpassback⟩⟩ := h
  · exact ⟨head, hdata, .inl hzero⟩
  · exact ⟨head, hdata, .inr ⟨msg, hsub msg hmsg, hpassback⟩⟩

/-- The replies to a message carry its passback. -/
theorem answers_repliesTo (logic : σ) (msgHead : MsgHead) (msgBody : Bytes) :
    ∀ data ∈ replies (p.repliesTo logic msgHead msgBody),
      p.AnswersOneOf [(msgHead, msgBody)] data := by
  have hreply : ∀ msgId, ∀ data ∈ replies [ConnEvent.sendToClient
      (p.msgCodec.encodeMsg { msgHead with msgId := msgId } [])],
      p.AnswersOneOf [(msgHead, msgBody)] data := by
    intro msgId data hdata
    rw [replies, List.filterMap_cons, List.filterMap_nil, List.mem_singleton] at hdata
    exact ⟨_, hdata, .inr ⟨_, List.mem_singleton_self _, rfl⟩⟩
  have hnone : ∀ data ∈ replies [], p.AnswersOneOf [(msgHead, msgBody)] data := by
    intro data hdata
    cases hdata
  unfold repliesTo
  dsimp only
  split
  · exact hreply _
  · cases p.dispatchMsg logic msgHead msgBody with
    | some handled => exact hnone
    | none =>
        dsimp only
        split
        · exact hreply _
        · split
          · exact hnone
          · exact hreply _

/-- The reports about bytes that no message can be taken from. -/
theorem answers_report (msgId : MsgID) (later : List ConnEvent)
    (hlater : replies later = []) (msgs : List (MsgHead × Bytes)) :
    ∀ data ∈ replies (.sendToClient (p.msgCodec.encodeMsg (.ofMsgId msgId) []) :: later),
      p.AnswersOneOf msgs data := by
  intro data hdata
  have hone : replies (.sendToClient (p.msgCodec.encodeMsg (.ofMsgId msgId) []) :: later) =
      [p.msgCodec.encodeMsg (.ofMsgId msgId) []] := by
    rw [replies, List.filterMap_cons]
    exact congrArg _ hlater
  rw [hone, List.mem_singleton] at hdata
  exact ⟨_, hdata, .inl rfl⟩

/-! ## A pass that ends the loop -/

theorem takes_of_stop {s s' : ConnState σ} {d : Bytes} {new : List ConnEvent}
    (hevents : s'.events = s.events ++ new) (hnone : delivered new = [])
    (hanswers : ∀ data ∈ replies new, p.AnswersOneOf [] data)
    (hdata : s'.data = none ∨
      s'.data = some d ∧ ¬p.msgCodec.checkedFraming.StartsWhole d) :
    p.Takes s d s' new where
  events := hevents
  opened := by
    intro left hleft
    obtain hclosed | ⟨hopen, hstop⟩ := hdata
    · rw [hclosed] at hleft
      cases hleft
    · rw [hopen, Option.some.injEq] at hleft
      rw [p.msgCodec.checkedFraming.drain_of_not_startsWhole hstop, hnone, hleft]
  closed := fun _ => hnone ▸ List.nil_prefix
  answers := hnone ▸ hanswers

/-- A message has been given to a handler, and the rest is worked through from
there. -/
theorem Takes.afterMsg {s served s' : ConnState σ} {d left : Bytes} {totalMsg : Bytes}
    {msgHead : MsgHead} {msgBody : Bytes} {told new : List ConnEvent}
    (hhead : p.msgCodec.headOf d = .whole totalMsg left)
    (hdecode : p.msgCodec.decodeMsg totalMsg = .ok (msgHead, msgBody))
    (hserved : served.events = s.events ++ told)
    (hdelivered : delivered told = [(msgHead, msgBody)])
    (htold : ∀ data ∈ replies told, p.AnswersOneOf [(msgHead, msgBody)] data)
    (h : p.Takes served left s' new) : p.Takes s d s' (told ++ new) := by
  have hwhole : p.msgCodec.checkedFraming.head d = .whole (msgHead, msgBody) left :=
    MsgCodec.checkedHead_eq_whole_iff.mpr ⟨totalMsg, hhead, hdecode⟩
  have hdrain := p.msgCodec.checkedFraming.drain_whole hwhole
  have hmsgs : delivered (told ++ new) = (msgHead, msgBody) :: delivered new := by
    rw [delivered_append, hdelivered]
    rfl
  constructor
  · rw [h.events, hserved, List.append_assoc]
  · intro rest hrest
    rw [hdrain, h.opened rest hrest, hmsgs]
  · intro hclosed
    rw [hdrain, hmsgs, List.cons_prefix_cons]
    exact ⟨rfl, h.closed hclosed⟩
  · intro data hdata
    rw [replies_append, List.mem_append] at hdata
    rw [hmsgs]
    obtain hdata | hdata := hdata
    · exact (htold data hdata).mono (by simp)
    · exact (h.answers data hdata).mono fun _ => List.mem_cons_of_mem _

/-! ## The loop -/

/-- What the handler of a message that closes the connection leaves. -/
theorem onClientMsg_closes {s : ConnState σ} {d : Bytes} {msgHead : MsgHead}
    {msgBody : Bytes} (hopen : s.data = some d)
    (hclose : (p.handle s.logic msgHead msgBody).2 = true) :
    (p.onClientMsg s msgHead msgBody).events =
      s.events ++ [.onClientMsg msgHead msgBody, .onClientClosed] := by
  unfold handle at hclose
  unfold onClientMsg
  split at hclose
  · cases hclose
  · rename_i hbeat
    cases hdispatch : p.dispatchMsg s.logic msgHead msgBody with
    | some handled =>
        obtain ⟨logic, closes⟩ := handled
        rw [hdispatch] at hclose
        dsimp only at hclose
        subst hclose
        simp [hbeat, hdispatch, closeClient, hopen]
    | none =>
        rw [hdispatch] at hclose
        dsimp only at hclose
        split at hclose <;> cases hclose

theorem recvPass_closes (behind : ℕ → UInt8) (now : ℤ) {s : ConnState σ}
    {d totalMsg rest : Bytes} {msgHead : MsgHead} {msgBody : Bytes}
    (hopen : s.data = some d)
    (hhead : p.msgCodec.headOf d = .whole totalMsg rest)
    (hdecode : p.msgCodec.decodeMsg totalMsg = .ok (msgHead, msgBody))
    (hclose : (p.handle s.logic msgHead msgBody).2 = true) :
    (p.recvPass behind now s d).1.events =
      s.events ++ [.onClientMsg msgHead msgBody, .onClientClosed] := by
  obtain ⟨hwhole, rfl, -⟩ := MsgCodec.isWholeMsg_of_whole hhead behind
  have hnone := onClientMsg_of_closed (p := p)
    (s := { s with partMsgMgr := s.partMsgMgr.removeRecord p.conn }) hopen hclose
  have hevents := onClientMsg_closes (p := p)
    (s := { s with partMsgMgr := s.partMsgMgr.removeRecord p.conn }) hopen hclose
  unfold recvPass
  simp [hwhole, hdecode, hnone, hevents]

theorem recvLoop_takes {env : RecvEnv} {fuel pass : ℕ} {s s' : ConnState σ} {d : Bytes}
    (hopen : s.data = some d) (hloop : p.recvLoop env fuel pass s = some s') :
    ∃ new, p.Takes s d s' new := by
  induction fuel generalizing pass s d with
  | zero => cases hloop
  | succ fuel ih =>
      unfold recvLoop at hloop
      simp only [hopen] at hloop
      have hnotWhole : ∀ {msg rest}, p.msgCodec.checkedFraming.head d = .whole msg rest →
          ∃ totalMsg, p.msgCodec.headOf d = .whole totalMsg rest ∧
            p.msgCodec.decodeMsg totalMsg = .ok msg :=
        fun h => MsgCodec.checkedHead_eq_whole_iff.mp h
      by_cases hrefused : p.msgCodec.headOf d = .broken ∨
          p.msgCodec.Misreads (env.behind pass) d
      · rw [recvPass_of_refused hrefused] at hloop
        cases hloop
        exact ⟨_, takes_of_stop rfl rfl (answers_report _ _ rfl []) (.inl rfl)⟩
      · rw [not_or] at hrefused
        cases hhead : p.msgCodec.headOf d with
        | broken => exact absurd hhead hrefused.1
        | waiting =>
            rw [recvPass_of_waiting hhead hrefused.2] at hloop
            cases hloop
            refine ⟨[], takes_of_stop (List.append_nil _).symm rfl (by simp [replies])
              (.inr ⟨hopen, ?_⟩)⟩
            rintro ⟨msg, rest, hwhole⟩
            obtain ⟨totalMsg, hwhole, -⟩ := hnotWhole hwhole
            rw [hhead] at hwhole
            cases hwhole
        | whole totalMsg rest =>
            cases hdecode : p.msgCodec.decodeMsg totalMsg with
            | error errMsgId =>
                rw [recvPass_of_mismatch hopen hhead hdecode] at hloop
                cases hloop
                refine ⟨_, takes_of_stop rfl rfl (answers_report _ _ rfl [])
                  (.inr ⟨hopen, ?_⟩)⟩
                rintro ⟨msg, rest', hwhole⟩
                obtain ⟨totalMsg', hwhole, hok⟩ := hnotWhole hwhole
                rw [hhead, Head.whole.injEq] at hwhole
                rw [← hwhole.1, hdecode] at hok
                cases hok
            | ok msg =>
                obtain ⟨msgHead, msgBody⟩ := msg
                cases hhandle : (p.handle s.logic msgHead msgBody).2 with
                | true =>
                    obtain ⟨hnone, hfalse⟩ := recvPass_of_closing (env.behind pass) env.now
                      hopen hhead hdecode hhandle
                    have hevents := recvPass_closes (env.behind pass) env.now
                      hopen hhead hdecode hhandle
                    rw [hfalse] at hloop
                    cases hloop
                    have hdone : p.Takes (p.recvPass (env.behind pass) env.now s d).1 rest
                        (p.recvPass (env.behind pass) env.now s d).1 [] :=
                      takes_of_stop (List.append_nil _).symm rfl (by simp [replies])
                        (.inl hnone)
                    exact ⟨_, hdone.afterMsg hhead hdecode hevents rfl (by simp [replies])⟩
                | false =>
                    have hmsg := delivered_served (p := p) [] s.logic msgHead msgBody
                    have hanswers := answers_repliesTo (p := p) s.logic msgHead msgBody
                    rw [recvPass_of_handled (env.behind pass) env.now hopen hhead hdecode
                      hhandle] at hloop
                    by_cases hmore : 0 < rest.length
                    · simp only [hmore, decide_true, if_true] at hloop
                      obtain ⟨new, htakes⟩ := ih rfl hloop
                      exact ⟨_, htakes.afterMsg hhead hdecode rfl hmsg hanswers⟩
                    · have hnil : rest = [] :=
                        List.length_eq_zero_iff.mp (Nat.eq_zero_of_not_pos hmore)
                      simp only [hmore, decide_false, Bool.false_eq_true, if_false] at hloop
                      cases hloop
                      let served : ConnState σ :=
                        { data := some rest
                          partMsgMgr := s.partMsgMgr.removeRecord p.conn
                          logic := (p.handle s.logic msgHead msgBody).1
                          events := s.events ++ .onClientMsg msgHead msgBody ::
                            p.repliesTo s.logic msgHead msgBody }
                      have hdone : p.Takes served rest served [] :=
                        takes_of_stop (List.append_nil _).symm rfl (by simp [replies])
                          (.inr ⟨rfl, hnil ▸ p.msgCodec.checkedFraming.not_startsWhole_nil⟩)
                      exact ⟨_, hdone.afterMsg hhead hdecode rfl hmsg hanswers⟩

/-- **What a call takes.** -/
theorem onRecvClientData_takes {env : RecvEnv} {s s' : ConnState σ} {d chunk : Bytes}
    (hopen : s.data = some d) (hcall : p.onRecvClientData env s chunk = some s') :
    ∃ new, p.Takes s (d ++ chunk) s' new := by
  simp only [onRecvClientData, hopen] at hcall
  obtain ⟨new, htakes⟩ := recvLoop_takes (p := p) (s := { s with data := some (d ++ chunk) })
    rfl hcall
  exact ⟨new, htakes.events, htakes.opened, htakes.closed, htakes.answers⟩

end ProtoLogic
end CommonComponent
