import CommonComponent.ProtoMsgCodec
import CommonComponent.TransCenterPeerLoop

/-!
# The proto TCP client

One `tcp::proto::Client` with the transaction table it shares with the other
clients, its connect timer, and what its sinks have been told.  A bufferevent is
known by its address.  What a call meets outside the client (the clock, the
outcomes of `evbuffer_add` and `SetTimer`, the memory behind the receive buffer,
what sinks do to the table before a callback returns) is the `CallEnv` of the
call.  A sink that closes this client from inside a callback is left out.
-/

namespace CommonComponent

structure Timeval where
  tvSec : ℤ
  tvUsec : ℤ
deriving DecidableEq

structure ClientCenterCtx where
  msgCodec : MsgCodec
  reconnectInterval : Timeval
  reconnectLimit : ℤ

/-- `client_center_ctx_->reconnect_interval` is zero: the client does not
reconnect. -/
def ClientCenterCtx.NoReconnect (ctx : ClientCenterCtx) : Prop :=
  ctx.reconnectInterval.tvSec = 0 ∧ ctx.reconnectInterval.tvUsec = 0

instance (ctx : ClientCenterCtx) : Decidable ctx.NoReconnect :=
  inferInstanceAs (Decidable (_ ∧ _))

/-- `sink` is the address of a `PeerSinkInterface`. -/
structure AsyncCtx where
  totalRetries : ℤ
  timeoutSec : ℤ
  sink : Option ℕ
  data : AsyncData
deriving DecidableEq

/-- A message waiting for the connection; `msgBody` is the encoded message. -/
structure CacheMsg where
  msgHead : MsgHead
  msgBody : Bytes
  totalRetries : ℤ
deriving DecidableEq

/-- What sinks are told by `ReadCallback`.  `ctx` is the context in the table when
the sink is called, which the passback, `data` and `len` come from; `ctx` of
`cancelTrans` is the context that `CancelTrans` finds and takes out. -/
inductive ReadNote
  | onRecvRsp (transId : TransID) (peer : Peer) (ctx : TransCtx)
      (msgHead : MsgHead) (msgBody : Bytes)
  | cancelTrans (transId : TransID) (ctx : Option TransCtx)
  | onRecvNfy (sink : ℕ) (peer : Peer) (msgHead : MsgHead) (msgBody : Bytes)
deriving DecidableEq

structure EvbufferAdd where
  bufEvent : Option ℕ
  data : Bytes
  ok : Bool
deriving DecidableEq

/-- `nfySinkSet` is in the order of the sinks' addresses; `cacheMsgTransIDList` is
in the order of the calls of `Send`. -/
structure Client where
  peer : Peer
  recvedData : Bytes
  connected : Bool
  bufeventSet : Finset ℕ
  bufEvent : Option ℕ
  cacheMsgMap : TransID → Option CacheMsg
  cacheMsgTransIDList : List TransID
  nfySinkSet : List ℕ
  reconnectFailedCount : ℤ

/-- `removed` says that `RemoveClient` has destroyed the client. -/
structure ClientState where
  client : Client
  tc : TransCenter
  connectTimer : Bool
  removed : Bool
  adds : List EvbufferAdd
  told : List ReadNote

/-- `evbufferAdd` gives the outcome of each attempt of the client's life in turn;
`behind` and `onRecv` are indexed by the pass of the read loop. -/
structure CallEnv where
  now : ℤ
  evbufferAdd : ℕ → Bool
  setTimer : Bool
  behind : ℕ → ℕ → UInt8
  onRecv : ℕ → TransCenter → ReadNote → List TransCenter.TransOp
  onPeerEvent : TransCenter.PeerEvent → TransID → List TransCenter.TransOp

/-- The bits of `events` that `EventCallback` looks at. -/
structure BevEvents where
  connected : Bool
  eof : Bool
  error : Bool
  reading : Bool
deriving DecidableEq

/-- A `Client` after the constructor and `SetPeer`. -/
def Client.create (peer : Peer) : Client where
  peer := peer
  recvedData := []
  connected := false
  bufeventSet := ∅
  bufEvent := none
  cacheMsgMap := fun _ => none
  cacheMsgTransIDList := []
  nfySinkSet := []
  reconnectFailedCount := 0

namespace ClientState

variable (ctx : ClientCenterCtx) (env : CallEnv)

def setRecvedData (s : ClientState) (data : Bytes) : ClientState :=
  { s with client := { s.client with recvedData := data } }

/-! ## Sending -/

def evbufferAdd (s : ClientState) (data : Bytes) : ClientState × Bool :=
  let ok := env.evbufferAdd s.adds.length
  ({ s with adds := s.adds ++ [⟨s.client.bufEvent, data, ok⟩] }, ok)

/-- `InnerSend`, with `total_retry` as a number of further attempts. -/
def innerSend (s : ClientState) (data : Bytes) : ℕ → ClientState × Bool
  | 0 => evbufferAdd env s data
  | totalRetry + 1 =>
      let added := evbufferAdd env s data
      if added.2 then added else innerSend added.1 data totalRetry

def addCacheMsg (s : ClientState) (transId : TransID) (cacheMsg : CacheMsg) :
    Option ClientState :=
  match s.client.cacheMsgMap transId with
  | some _ => none
  | none =>
      some { s with
        client := { s.client with
          cacheMsgMap :=
            Function.update s.client.cacheMsgMap transId (some cacheMsg)
          cacheMsgTransIDList := s.client.cacheMsgTransIDList ++ [transId] } }

/-- What `Send` records; the defaults of `TransCtx` stand for a null `async_ctx`. -/
def sendCtx (s : ClientState) (msgHead : MsgHead) (asyncCtx : Option AsyncCtx) :
    TransCtx where
  peer := s.client.peer
  timeoutSec := asyncCtx.elim 0 (·.timeoutSec)
  passback := msgHead.passback
  sink := asyncCtx.bind (·.sink)
  data := asyncCtx.elim .null (·.data)

def send (s : ClientState) (msgHead : MsgHead) (msgBody : Bytes)
    (asyncCtx : Option AsyncCtx) : TransID × ClientState :=
  let recorded := s.tc.recordTransCtx env.now (s.sendCtx msgHead asyncCtx)
  let transId := recorded.1
  let s := { s with tc := recorded.2 }
  if transId = invalidTransID then (transId, s)
  else
    let transMsgHead := { msgHead with passback := Int32.ofInt transId }
    let data := ctx.msgCodec.encodeMsg transMsgHead msgBody
    let totalRetries := asyncCtx.elim 0 (·.totalRetries)
    if s.client.connected then
      (transId, (innerSend env s data totalRetries.toNat).1)
    else
      match s.addCacheMsg transId ⟨transMsgHead, data, totalRetries⟩ with
      | some s => (transId, s)
      | none => (invalidTransID, { s with tc := s.tc.cancelTrans transId })

/-- The loop of `SendCacheMsg`; the list is what stays of the ids walked. -/
def sendCacheMsgs (s : ClientState) : List TransID → ClientState × List TransID
  | [] => (s, [])
  | transId :: later =>
      match s.client.cacheMsgMap transId with
      | none => sendCacheMsgs s later
      | some cacheMsg =>
          let sent := innerSend env s cacheMsg.msgBody cacheMsg.totalRetries.toNat
          if sent.2 then
            let s := sent.1
            sendCacheMsgs { s with
              client := { s.client with
                cacheMsgMap :=
                  Function.update s.client.cacheMsgMap transId none } } later
          else
            let walked := sendCacheMsgs sent.1 later
            (walked.1, transId :: walked.2)

def sendCacheMsg (s : ClientState) : ClientState :=
  let walked := sendCacheMsgs env s s.client.cacheMsgTransIDList
  let s := walked.1
  { s with client := { s.client with cacheMsgTransIDList := walked.2 } }

/-- `Client::OnTimeout`. -/
def onTimeout (s : ClientState) (transId : TransID) : ClientState :=
  match s.client.cacheMsgMap transId with
  | none => s
  | some _ =>
      { s with
        client := { s.client with
          cacheMsgMap := Function.update s.client.cacheMsgMap transId none
          cacheMsgTransIDList := s.client.cacheMsgTransIDList.erase transId } }

/-! ## The connection -/

/-- `AddNfySink`; the set does not change when the sink is already there. -/
def addNfySink (s : ClientState) (sink : ℕ) : ClientState :=
  if sink ∈ s.client.nfySinkSet then s
  else
    { s with
      client := { s.client with
        nfySinkSet := s.client.nfySinkSet.orderedInsert (· ≤ ·) sink } }

def removeNfySink (s : ClientState) (sink : ℕ) : ClientState :=
  { s with
    client := { s.client with nfySinkSet := s.client.nfySinkSet.erase sink } }

/-- `StartConnectTimer`; the timer repeats until it is killed. -/
def startConnectTimer (s : ClientState) : ClientState :=
  if ctx.NoReconnect then s
  else if s.connectTimer then s
  else { s with connectTimer := env.setTimer }

def stopConnectTimer (s : ClientState) : ClientState :=
  { s with connectTimer := false }

def removeClient (s : ClientState) : ClientState :=
  let s := s.stopConnectTimer
  { s with client := { s.client with bufeventSet := ∅ }, removed := true }

/-- `TransCenter::OnConnected` or `OnClosed` for this client's peer. -/
def notifyPeer (s : ClientState) (event : TransCenter.PeerEvent) : ClientState :=
  let walk := s.tc.notifyPeer s.client.peer (env.onPeerEvent event)
  { s with tc := walk.elim s.tc (·.tc) }

def setConnected (s : ClientState) (flag : Bool) (bufEvent : Option ℕ) :
    ClientState :=
  if flag = false ∧ ctx.NoReconnect then s.removeClient
  else if s.client.connected = flag then
    if s.client.connected then s
    else
      let count := s.client.reconnectFailedCount + 1
      let s := { s with client := { s.client with reconnectFailedCount := count } }
      if ctx.reconnectLimit = count then s.removeClient else s
  else
    let count := if flag then 0 else s.client.reconnectFailedCount
    let s := { s with
      client := { s.client with
        reconnectFailedCount := count, connected := flag, bufEvent := bufEvent } }
    if flag then
      (s.stopConnectTimer.sendCacheMsg env).notifyPeer env .onConnected
    else (s.notifyPeer env .onClosed).startConnectTimer ctx env

/-- The events at which `EventCallback` takes the connection for closed. -/
def Closing (events : BevEvents) (inputLen : ℕ) : Prop :=
  events.connected = false ∧
    (events.eof ∨ events.error ∨ (events.reading ∧ inputLen = 0))

instance (events : BevEvents) (inputLen : ℕ) :
    Decidable (Closing events inputLen) :=
  inferInstanceAs (Decidable (_ ∧ _))

def eventCallback (s : ClientState) (bufEvent : ℕ) (events : BevEvents)
    (inputLen : ℕ) : ClientState :=
  if events.connected then s.setConnected ctx env true (some bufEvent)
  else if Closing events inputLen then
    let s := { s with
      client := { s.client with
        bufeventSet := s.client.bufeventSet.erase bufEvent } }
    s.setConnected ctx env false none
  else s

/-- `Connect`; `bufEvent` is the new bufferevent, `none` where a call fails. -/
def connect (s : ClientState) (bufEvent : Option ℕ) : ClientState :=
  match bufEvent with
  | none => s
  | some bufEvent =>
      { s with
        client := { s.client with
          bufeventSet := insert bufEvent s.client.bufeventSet } }

def onTimer (s : ClientState) (bufEvent : Option ℕ) : ClientState :=
  s.connect bufEvent

/-- The client after `Initialize` and an `Activate` that has made `bufEvent`. -/
def activate (peer : Peer) (tc : TransCenter) (bufEvent : ℕ) : ClientState :=
  connect
    { client := .create peer
      tc := tc
      connectTimer := false
      removed := false
      adds := []
      told := [] } (some bufEvent)

/-! ## Receiving -/

def tell (pass : ℕ) (s : ClientState) (note : ReadNote) : ClientState :=
  { s with
    tc := s.tc.applyOps (env.onRecv pass s.tc note)
    told := s.told ++ [note] }

def cancelTrans (s : ClientState) (transId : TransID) : ClientState :=
  { s with
    tc := s.tc.cancelTrans transId
    told := s.told ++ [.cancelTrans transId (s.tc.getTransCtx transId)] }

/-- What `ReadCallback` does with a decoded message; `none` is its return at an
unknown transaction id. -/
def handleMsg (pass : ℕ) (s : ClientState) (msgHead : MsgHead) (msgBody : Bytes) :
    Option ClientState :=
  if msgHead.passback ≠ nfyPassback then
    let transId : TransID := msgHead.passback.toInt
    match s.tc.getTransCtx transId with
    | none => none
    | some transCtx =>
        let s :=
          match transCtx.sink with
          | some _ =>
              s.tell env pass (.onRecvRsp transId s.client.peer transCtx
                { msgHead with passback := transCtx.passback } msgBody)
          | none => s
        some (s.cancelTrans transId)
  else
    some (s.client.nfySinkSet.foldl (fun s sink =>
      s.tell env pass (.onRecvNfy sink s.client.peer msgHead msgBody)) s)

/-- One pass of the loop of `ReadCallback`, and whether another one follows. -/
def readPass (pass : ℕ) (s : ClientState) : ClientState × Bool :=
  let d := s.client.recvedData
  let whole := ctx.msgCodec.isWholeMsg (memoryOf d (env.behind pass)) d.length
  if whole.isWhole = false then
    if whole.errMsgId ≠ msgIdNotAWholeMsg then
      let s := s.setRecvedData []
      ((s.send ctx env (MsgHead.ofMsgId whole.errMsgId) [] none).2, false)
    else (s, false)
  else
    match ctx.msgCodec.decodeMsg (MsgCodec.totalMsgOf d whole.totalMsgLen) with
    | .error errMsgId =>
        -- the message that failed stays in the buffer
        ((s.send ctx env (MsgHead.ofMsgId errMsgId) [] none).2, false)
    | .ok (msgHead, msgBody) =>
        match s.handleMsg env pass msgHead msgBody with
        | none => (s, false)
        | some s =>
            let left := MsgCodec.leftOf d whole.totalMsgLen
            (s.setRecvedData left, decide (0 < left.length))

def readLoop : ℕ → ℕ → ClientState → Option ClientState
  | 0, _, _ => none
  | fuel + 1, pass, s =>
      let next := s.readPass ctx env pass
      if next.2 then readLoop fuel (pass + 1) next.1 else some next.1

/-- `ReadCallback` with `chunk` in the input buffer; whose bufferevent it is makes
no difference to it. -/
def readCallback (s : ClientState) (chunk : Bytes) : Option ClientState :=
  if chunk = [] then some s
  else
    let d := s.client.recvedData ++ chunk
    readLoop ctx env (d.length + 1) 0 (s.setRecvedData d)

end ClientState

/-- A call at time 0 in which every addition to the output buffer and `SetTimer` succeed
and no callback does anything. -/
def quietEnv : CallEnv where
  now := 0
  evbufferAdd := fun _ => true
  setTimer := true
  behind := fun _ _ => 0
  onRecv := fun _ _ _ => []
  onPeerEvent := fun _ _ => []

end CommonComponent
