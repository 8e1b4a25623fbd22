import CommonComponent.ProtoMsgCodec
import CommonComponent.RecordTimeoutMgr

/-!
# The receive loop of the proto TCP server

`ProtoLogic::OnRecvClientData` appends a chunk to the connection's buffer and
takes messages off it.  The model follows one connection: its buffer while the
connection is in the connection center, the table of part-message records it
shares with the other connections, the state of the loaded logics, and what the
connection's peer and handlers have been told.

The message handlers are a parameter.  A handler may close the connection; the
receive buffer is out of its reach.
-/

namespace CommonComponent

open FramedStream

structure ConnGUID where
  ioType : ℕ
  ioThreadIdx : ℤ
  connId : ℤ
deriving DecidableEq

inductive ConnEvent
  | onClientMsg (msgHead : MsgHead) (msgBody : Bytes)
  | sendToClient (data : Bytes)
  | onClientClosed
deriving DecidableEq

/-- What one connection's `ProtoLogic` works with.  `dispatchMsg` is `none` where
`MsgDispatcher::DispatchMsg` fails, and its flag says that the handler closed the
connection; the flag of `sendToWorkThread` says that the call succeeded. -/
structure ProtoLogic (σ : Type*) where
  msgCodec : MsgCodec
  conn : ℕ
  connGuid : ConnGUID
  partMsgConnLife : ℤ
  workThreadCount : ℕ
  dispatchMsg : σ → MsgHead → Bytes → Option (σ × Bool)
  sendToWorkThread : σ → MsgHead → Bytes → σ × Bool
  onClientClosed : σ → σ

/-- `data` is `none` once the connection center has no such connection. -/
structure ConnState (σ : Type*) where
  data : Option Bytes
  partMsgMgr : RecordTimeoutMgr ℕ ConnGUID
  logic : σ
  events : List ConnEvent

/-- What a call depends on besides its arguments: the memory behind the buffer at
each pass of the loop, and the clock. -/
structure RecvEnv where
  behind : ℕ → ℕ → UInt8
  now : ℤ

namespace ProtoLogic

variable {σ : Type*} (p : ProtoLogic σ)

/-- `Scheduler::SendToClient` without a message body. -/
def sendToClient (s : ConnState σ) (msgHead : MsgHead) : ConnState σ :=
  match s.data with
  | none => s
  | some _ =>
      { s with
        events := s.events ++ [.sendToClient (p.msgCodec.encodeMsg msgHead [])] }

/-- `Scheduler::CloseClient` with the `OnClientClosed` it leads to. -/
def closeClient (s : ConnState σ) : ConnState σ :=
  match s.data with
  | none => s
  | some _ =>
      { data := none
        partMsgMgr := s.partMsgMgr.removeRecord p.conn
        logic := p.onClientClosed s.logic
        events := s.events ++ [.onClientClosed] }

def onClientMsg (s : ConnState σ) (msgHead : MsgHead) (msgBody : Bytes) :
    ConnState σ :=
  let s := { s with events := s.events ++ [.onClientMsg msgHead msgBody] }
  if msgHead.msgId = msgIdHeartbeatReq then
    p.sendToClient s { msgHead with msgId := msgIdHeartbeatRsp }
  else
    match p.dispatchMsg s.logic msgHead msgBody with
    | some (logic, closes) =>
        let s := { s with logic := logic }
        if closes then p.closeClient s else s
    | none =>
        if p.workThreadCount = 0 then
          p.sendToClient s { msgHead with msgId := msgIdNoneHandlerFound }
        else
          let sent := p.sendToWorkThread s.logic msgHead msgBody
          let s := { s with logic := sent.1 }
          if sent.2 then s
          else p.sendToClient s { msgHead with msgId := msgIdScheduleFailed }

/-- One pass of the loop of `OnRecvClientData` over the buffer `d`, and whether
another one follows. -/
def recvPass (behind : ℕ → UInt8) (now : ℤ) (s : ConnState σ) (d : Bytes) :
    ConnState σ × Bool :=
  let whole := p.msgCodec.isWholeMsg (memoryOf d behind) d.length
  if whole.isWhole = false then
    if whole.errMsgId ≠ msgIdNotAWholeMsg then
      let s := { s with data := some [] }
      let s := p.sendToClient s (MsgHead.ofMsgId whole.errMsgId)
      (p.closeClient s, false)
    else
      ({ s with
          partMsgMgr :=
            s.partMsgMgr.upsertRecord now p.conn p.connGuid p.partMsgConnLife },
        false)
  else
    let s := { s with partMsgMgr := s.partMsgMgr.removeRecord p.conn }
    match p.msgCodec.decodeMsg (MsgCodec.totalMsgOf d whole.totalMsgLen) with
    | .error errMsgId =>
        -- the message that failed stays in the buffer
        (p.sendToClient s (MsgHead.ofMsgId errMsgId), false)
    | .ok (msgHead, msgBody) =>
        let s := p.onClientMsg s msgHead msgBody
        match s.data with
        | none => (s, false)
        | some _ =>
            let left := MsgCodec.leftOf d whole.totalMsgLen
            ({ s with data := some left }, decide (0 < left.length))

/-- The loop, for at most the given number of passes. -/
def recvLoop (env : RecvEnv) : ℕ → ℕ → ConnState σ → Option (ConnState σ)
  | 0, _, _ => none
  | fuel + 1, pass, s =>
      match s.data with
      | none => some s
      | some d =>
          let next := p.recvPass (env.behind pass) env.now s d
          if next.2 then recvLoop env fuel (pass + 1) next.1 else some next.1

def onRecvClientData (env : RecvEnv) (s : ConnState σ) (chunk : Bytes) :
    Option (ConnState σ) :=
  match s.data with
  | none => some s
  | some d =>
      p.recvLoop env (d.length + chunk.length + 1) 0
        { s with data := some (d ++ chunk) }

/-! ## What a handled message does -/

/-- The state of the logics after a message, and whether the connection was
closed by its handler. -/
def handle (logic : σ) (msgHead : MsgHead) (msgBody : Bytes) : σ × Bool :=
  if msgHead.msgId = msgIdHeartbeatReq then (logic, false)
  else
    match p.dispatchMsg logic msgHead msgBody with
    | some handled => handled
    | none =>
        if p.workThreadCount = 0 then (logic, false)
        else ((p.sendToWorkThread logic msgHead msgBody).1, false)

/-- What is sent back for a message by `OnClientMsg` itself. -/
def repliesTo (logic : σ) (msgHead : MsgHead) (msgBody : Bytes) :
    List ConnEvent :=
  let reply := fun msgId =>
    [ConnEvent.sendToClient
      (p.msgCodec.encodeMsg { msgHead with msgId := msgId } [])]
  if msgHead.msgId = msgIdHeartbeatReq then reply msgIdHeartbeatRsp
  else
    match p.dispatchMsg logic msgHead msgBody with
    | some _ => []
    | none =>
        if p.workThreadCount = 0 then reply msgIdNoneHandlerFound
        else if (p.sendToWorkThread logic msgHead msgBody).2 then []
        else reply msgIdScheduleFailed

variable {p}

theorem onClientMsg_of_open {s : ConnState σ} {d : Bytes} {msgHead : MsgHead}
    {msgBody : Bytes} (hopen : s.data = some d)
    (hstay : (p.handle s.logic msgHead msgBody).2 = false) :
    p.onClientMsg s msgHead msgBody =
      { data := some d
        partMsgMgr := s.partMsgMgr
        logic := (p.handle s.logic msgHead msgBody).1
        events := s.events ++ .onClientMsg msgHead msgBody ::
          p.repliesTo s.logic msgHead msgBody } := by
  obtain ⟨data, partMsgMgr, logic, events⟩ := s
  simp only at hopen hstay ⊢
  subst hopen
  unfold onClientMsg repliesTo
  unfold handle at hstay ⊢
  by_cases hbeat : msgHead.msgId = msgIdHeartbeatReq
  · simp [hbeat, sendToClient]
  · rw [if_neg hbeat] at hstay
    simp only [if_neg hbeat]
    cases hdispatch : p.dispatchMsg logic msgHead msgBody with
    | some handled =>
        obtain ⟨logic', closes⟩ := handled
        simp only [hdispatch] at hstay
        subst hstay
        simp
    | none =>
        by_cases hthreads : p.workThreadCount = 0
        · simp [hthreads, sendToClient]
        · cases hsent : (p.sendToWorkThread logic msgHead msgBody).2 <;>
            simp [hthreads, sendToClient]

theorem onClientMsg_of_closed {s : ConnState σ} {d : Bytes} {msgHead : MsgHead}
    {msgBody : Bytes} (hopen : s.data = some d)
    (hclose : (p.handle s.logic msgHead msgBody).2 = true) :
    (p.onClientMsg s msgHead msgBody).data = none := by
  unfold onClientMsg
  unfold handle at hclose
  by_cases hbeat : msgHead.msgId = msgIdHeartbeatReq
  · rw [if_pos hbeat] at hclose
    cases hclose
  · rw [if_neg hbeat] at hclose
    simp only [if_neg hbeat]
    cases hdispatch : p.dispatchMsg s.logic msgHead msgBody with
    | some handled =>
        obtain ⟨logic', closes⟩ := handled
        simp only [hdispatch] at hclose
        subst hclose
        simp [closeClient, hopen]
    | none =>
        by_cases hthreads : p.workThreadCount = 0 <;>
          simp [hdispatch, hthreads] at hclose

/-! ## What a pass does, by the head of the buffer -/

theorem recvPass_of_refused {behind : ℕ → UInt8} {now : ℤ} {s : ConnState σ}
    {d : Bytes}
    (h : p.msgCodec.headOf d = .broken ∨ p.msgCodec.Misreads behind d) :
    p.recvPass behind now s d =
      ({ data := none
         partMsgMgr := s.partMsgMgr.removeRecord p.conn
         logic := p.onClientClosed s.logic
         events := s.events ++
          [.sendToClient (p.msgCodec.encodeMsg (.ofMsgId msgIdInvalidMsgLen) []),
            .onClientClosed] }, false) := by
  obtain ⟨totalMsgLen, hwhole⟩ := MsgCodec.isWholeMsg_of_refused h
  have hcode : msgIdInvalidMsgLen ≠ msgIdNotAWholeMsg := by decide
  unfold recvPass
  simp [hwhole, hcode, sendToClient, closeClient]

theorem recvPass_of_waiting {behind : ℕ → UInt8} {now : ℤ} {s : ConnState σ}
    {d : Bytes} (hhead : p.msgCodec.headOf d = .waiting)
    (hread : ¬p.msgCodec.Misreads behind d) :
    p.recvPass behind now s d =
      ({ s with
          partMsgMgr :=
            s.partMsgMgr.upsertRecord now p.conn p.connGuid p.partMsgConnLife },
        false) := by
  obtain ⟨totalMsgLen, hwhole⟩ := MsgCodec.isWholeMsg_of_waiting hhead hread
  unfold recvPass
  simp [hwhole]

theorem recvPass_of_mismatch {behind : ℕ → UInt8} {now : ℤ} {s : ConnState σ}
    {d totalMsg rest : Bytes} {errMsgId : MsgID} (hopen : s.data = some d)
    (hhead : p.msgCodec.headOf d = .whole totalMsg rest)
    (hdecode : p.msgCodec.decodeMsg totalMsg = .error errMsgId) :
    p.recvPass behind now s d =
      ({ s with
          partMsgMgr := s.partMsgMgr.removeRecord p.conn
          events := s.events ++
            [.sendToClient (p.msgCodec.encodeMsg (.ofMsgId errMsgId) [])] },
        false) := by
  obtain ⟨hwhole, rfl, -⟩ := MsgCodec.isWholeMsg_of_whole hhead behind
  unfold recvPass
  simp [hwhole, hdecode, sendToClient, hopen]

theorem recvPass_of_closing (behind : ℕ → UInt8) (now : ℤ) {s : ConnState σ}
    {d totalMsg rest : Bytes} {msgHead : MsgHead} {msgBody : Bytes}
    (hopen : s.data = some d)
    (hhead : p.msgCodec.headOf d = .whole totalMsg rest)
    (hdecode : p.msgCodec.decodeMsg totalMsg = .ok (msgHead, msgBody))
    (hclose : (p.handle s.logic msgHead msgBody).2 = true) :
    (p.recvPass behind now s d).1.data = none ∧
      (p.recvPass behind now s d).2 = false := by
  obtain ⟨hwhole, rfl, -⟩ := MsgCodec.isWholeMsg_of_whole hhead behind
  have hnone := onClientMsg_of_closed (p := p)
    (s := { s with partMsgMgr := s.partMsgMgr.removeRecord p.conn })
    hopen hclose
  unfold recvPass
  simp [hwhole, hdecode, hnone]

theorem recvPass_of_handled (behind : ℕ → UInt8) (now : ℤ) {s : ConnState σ}
    {d totalMsg rest : Bytes} {msgHead : MsgHead} {msgBody : Bytes}
    (hopen : s.data = some d)
    (hhead : p.msgCodec.headOf d = .whole totalMsg rest)
    (hdecode : p.msgCodec.decodeMsg totalMsg = .ok (msgHead, msgBody))
    (hstay : (p.handle s.logic msgHead msgBody).2 = false) :
    p.recvPass behind now s d =
      ({ data := some rest
         partMsgMgr := s.partMsgMgr.removeRecord p.conn
         logic := (p.handle s.logic msgHead msgBody).1
         events := s.events ++ .onClientMsg msgHead msgBody ::
          p.repliesTo s.logic msgHead msgBody },
        decide (0 < rest.length)) := by
  obtain ⟨hwhole, rfl, rfl⟩ := MsgCodec.isWholeMsg_of_whole hhead behind
  have hmsg := onClientMsg_of_open (p := p)
    (s := { s with partMsgMgr := s.partMsgMgr.removeRecord p.conn })
    hopen hstay
  unfold recvPass
  simp [hwhole, hdecode, hmsg]

theorem recvPass_again {behind : ℕ → UInt8} {now : ℤ} {s : ConnState σ}
    {d : Bytes} (hopen : s.data = some d)
    (hagain : (p.recvPass behind now s d).2 = true) :
    ∃ totalMsg rest, p.msgCodec.headOf d = .whole totalMsg rest ∧
      (p.recvPass behind now s d).1.data = some rest := by
  by_cases hread : p.msgCodec.Misreads behind d
  · rw [recvPass_of_refused (Or.inr hread)] at hagain
    cases hagain
  · cases hhead : p.msgCodec.headOf d with
    | waiting =>
        rw [recvPass_of_waiting hhead hread] at hagain
        cases hagain
    | broken =>
        rw [recvPass_of_refused (Or.inl hhead)] at hagain
        cases hagain
    | whole totalMsg rest =>
        cases hdecode : p.msgCodec.decodeMsg totalMsg with
        | error errMsgId =>
            rw [recvPass_of_mismatch hopen hhead hdecode] at hagain
            cases hagain
        | ok msg =>
            obtain ⟨msgHead, msgBody⟩ := msg
            cases hhandle : (p.handle s.logic msgHead msgBody).2 with
            | true =>
                have hdone :=
                  recvPass_of_closing behind now hopen hhead hdecode hhandle
                rw [hdone.2] at hagain
                cases hagain
            | false =>
                refine ⟨totalMsg, rest, rfl, ?_⟩
                rw [recvPass_of_handled behind now hopen hhead hdecode hhandle]

/-! ## The loop ends -/

theorem recvLoop_isSome {env : RecvEnv} {fuel pass : ℕ} {s : ConnState σ}
    (hfuel : ∀ d, s.data = some d → d.length < fuel) (hpos : 0 < fuel) :
    (p.recvLoop env fuel pass s).isSome := by
  induction fuel generalizing pass s with
  | zero => omega
  | succ fuel ih =>
      unfold recvLoop
      cases hopen : s.data with
      | none => rfl
      | some d =>
          have hlen := hfuel d hopen
          simp only
          split
          next hagain =>
            obtain ⟨totalMsg, rest, hhead, hdata⟩ := recvPass_again hopen hagain
            have hshort := MsgCodec.headOf_whole_shorter hhead
            refine ih ?_ (by omega)
            intro d' hd'
            rw [hdata, Option.some.injEq] at hd'
            subst hd'
            omega
          next => rfl

theorem onRecvClientData_isSome (env : RecvEnv) (s : ConnState σ)
    (chunk : Bytes) : (p.onRecvClientData env s chunk).isSome := by
  unfold onRecvClientData
  cases hopen : s.data with
  | none => rfl
  | some d =>
      refine recvLoop_isSome ?_ (by omega)
      intro d' hd'
      simp only [Option.some.injEq] at hd'
      subst hd'
      simp

end ProtoLogic

end CommonComponent
