import CommonComponent.ProtoTcpClientConnection

/-!
# A client that is gone

`RemoveClient` destroys a client, and a sink may bring it about while a callback of
the client is on the stack.  Here a call of a sink is a state of its own: the callback
stands at the call until the sink returns, and in between the sink sends, changes the
table, or closes the client.

`used` says that code of the client has read or written a field of it after it was
destroyed.  Behind `OnRecvRsp`, `OnRecvNfy` and `OnClosed` there always is such a
statement.  Behind `OnConnected` there is none once the last transaction of the peer has
been told; an earlier one is followed by a call that is given the `peer_` of the client.
-/

namespace CommonComponent

open LabelledRun

/-- Where the callback on the stack stands: at the head of the loop of `ReadCallback`,
or at the call of a sink, with what it needs when the sink returns. -/
inductive ClientControl
  | idle
  | reading
  | onRecvRsp (transId : TransID) (left : Bytes)
  | onRecvNfy (sink : ℕ) (msgHead : MsgHead) (msgBody left : Bytes)
  | onPeer (event : TransCenter.PeerEvent) (transId : TransID)
deriving DecidableEq

def ClientControl.InSink : ClientControl → Prop
  | .idle => False
  | .reading => False
  | _ => True

instance : DecidablePred ClientControl.InSink := fun control => by
  cases control
  all_goals unfold ClientControl.InSink
  all_goals infer_instance

/-- `live` holds the bufferevents that have not been freed. -/
structure ClientLife where
  state : ClientState
  live : Finset ℕ
  control : ClientControl
  used : Bool

/-- The first three come from the event loop; `proceed` is a pass of the loop of
`ReadCallback` and `ret` the return of the sink that has been called.  The others are
calls by sinks and by the rest of the process. -/
inductive LifeAction
  | read (bufEvent : ℕ) (chunk : Bytes)
  | event (env : CallEnv) (bufEvent : ℕ) (events : BevEvents) (inputLen : ℕ)
  | onTimer (bufEvent : Option ℕ)
  | proceed (env : CallEnv) (pass : ℕ)
  | ret (env : CallEnv)
  | send (env : CallEnv) (msgHead : MsgHead) (msgBody : Bytes)
      (asyncCtx : Option AsyncCtx)
  | addNfySink (sink : ℕ)
  | removeNfySink (sink : ℕ)
  | trans (op : TransCenter.TransOp)
  | close

namespace ClientState

def countFailure (s : ClientState) : ClientState :=
  { s with client := { s.client with
    reconnectFailedCount := s.client.reconnectFailedCount + 1 } }

/-- The assignments of `SetConnected` once the state of the connection has changed. -/
def changeConnected (s : ClientState) (flag : Bool) (bufEvent : Option ℕ) :
    ClientState :=
  { s with client := { s.client with
    reconnectFailedCount := if flag then 0 else s.client.reconnectFailedCount
    connected := flag
    bufEvent := bufEvent } }

end ClientState

/-- The least transaction of a peer above `last` that has a sink. -/
def TransCenter.nextTold (tc : TransCenter) (peer : Peer) (last : Option TransID) :
    Option TransID :=
  let ahead := (tc.peerTransIDMap peer).filter fun id =>
    (∀ l ∈ last, l < id) ∧ ((tc.transHashMap id).bind (·.sink)).isSome
  if h : ahead.Nonempty then some (ahead.min' h) else none

namespace ClientLife

variable (ctx : ClientCenterCtx) (env : CallEnv)

/-- A client that `CreateClient` has put into its client center. -/
def init (peer : Peer) (tc : TransCenter) (bufEvent : ℕ) : ClientLife where
  state := .activate peer tc bufEvent
  live := {bufEvent}
  control := .idle
  used := false

def become (s : ClientLife) (state : ClientState) (control : ClientControl) :
    ClientLife :=
  { s with state := state, control := control }

/-- A field of the client is read or written. -/
def use (s : ClientLife) : ClientLife := { s with used := s.used || s.state.removed }

def tell (s : ClientLife) (note : ReadNote) (control : ClientControl) : ClientLife :=
  s.become { s.state with told := s.state.told ++ [note] } control

def removeClient (s : ClientLife) : ClientLife :=
  { s with
    state := s.state.removeClient
    live := s.live \ s.state.client.bufeventSet }

def onTimer (s : ClientLife) (bufEvent : Option ℕ) : ClientLife :=
  { s with
    state := s.state.onTimer bufEvent
    live := s.live ∪ bufEvent.toFinset }

/-! ## `SetConnected` and its walk over the transactions -/

/-- What `SetConnected` does when the walk is over. -/
def afterWalk (s : ClientLife) : TransCenter.PeerEvent → ClientLife
  | .onConnected => s.become s.state .idle
  | .onClosed => s.use.become (s.state.startConnectTimer ctx env) .idle

/-- `OnConnected` or `OnClosed` of `TransCenter` behind `last`, up to the next call of
a sink, which is given a reference to the `peer_` of the client. -/
def walk (s : ClientLife) (event : TransCenter.PeerEvent) (last : Option TransID) :
    ClientLife :=
  match s.state.tc.nextTold s.state.client.peer last with
  | some transId => s.use.become s.state (.onPeer event transId)
  | none => s.afterWalk ctx env event

def setConnected (s : ClientLife) (flag : Bool) (bufEvent : Option ℕ) : ClientLife :=
  if flag = false ∧ ctx.NoReconnect then s.removeClient
  else if s.state.client.connected = flag then
    if s.state.client.connected then s
    else
      let counted := s.become s.state.countFailure s.control
      if ctx.reconnectLimit = s.state.client.reconnectFailedCount + 1 then
        counted.removeClient
      else counted
  else
    let state := s.state.changeConnected flag bufEvent
    if flag then
      (s.become (state.stopConnectTimer.sendCacheMsg env) .idle).walk ctx env
        .onConnected none
    else (s.become state .idle).walk ctx env .onClosed none

def freeBufEvent (s : ClientLife) (bufEvent : ℕ) : ClientLife :=
  { s with
    live := s.live.erase bufEvent
    state := { s.state with client := { s.state.client with
      bufeventSet := s.state.client.bufeventSet.erase bufEvent } } }

def eventCallback (s : ClientLife) (bufEvent : ℕ) (events : BevEvents)
    (inputLen : ℕ) : ClientLife :=
  if events.connected then s.setConnected ctx env true (some bufEvent)
  else if ClientState.Closing events inputLen then
    (s.freeBufEvent bufEvent).setConnected ctx env false none
  else s

/-! ## The read loop -/

/-- The statements of the loop of `ReadCallback` behind the handling of a message. -/
def afterMsg (s : ClientLife) (left : Bytes) : ClientLife :=
  s.become (s.state.setRecvedData left) (if left = [] then .idle else .reading)

/-- The loop over `nfy_sink_set_`, with the iterator at `sink` or at the end. -/
def notify (s : ClientLife) (sink : Option ℕ) (msgHead : MsgHead)
    (msgBody left : Bytes) : ClientLife :=
  match sink with
  | some sink =>
      s.tell (.onRecvNfy sink s.state.client.peer msgHead msgBody)
        (.onRecvNfy sink msgHead msgBody left)
  | none => s.afterMsg left

def handleMsg (s : ClientLife) (msgHead : MsgHead) (msgBody left : Bytes) :
    ClientLife :=
  if msgHead.passback ≠ nfyPassback then
    let transId : TransID := msgHead.passback.toInt
    match s.state.tc.getTransCtx transId with
    | none => s.become s.state .idle
    | some transCtx =>
        match transCtx.sink with
        | some _ =>
            s.tell (.onRecvRsp transId s.state.client.peer transCtx
              { msgHead with passback := transCtx.passback } msgBody)
              (.onRecvRsp transId left)
        | none => (s.become (s.state.cancelTrans transId) .idle).afterMsg left
  else s.notify s.state.client.nfySinkSet.head? msgHead msgBody left

/-- A pass of the loop of `ReadCallback`, up to the first call of a sink. -/
def readPass (pass : ℕ) (s : ClientLife) : ClientLife :=
  let d := s.state.client.recvedData
  let whole := ctx.msgCodec.isWholeMsg (memoryOf d (env.behind pass)) d.length
  if whole.isWhole = false then
    if whole.errMsgId ≠ msgIdNotAWholeMsg then
      let cleared := s.state.setRecvedData []
      s.become (cleared.send ctx env (MsgHead.ofMsgId whole.errMsgId) [] none).2 .idle
    else s.become s.state .idle
  else
    match ctx.msgCodec.decodeMsg (MsgCodec.totalMsgOf d whole.totalMsgLen) with
    | .error errMsgId =>
        s.become (s.state.send ctx env (MsgHead.ofMsgId errMsgId) [] none).2 .idle
    | .ok (msgHead, msgBody) =>
        s.handleMsg msgHead msgBody (MsgCodec.leftOf d whole.totalMsgLen)

def readCallback (s : ClientLife) (chunk : Bytes) : ClientLife :=
  if chunk = [] then s
  else s.become (s.state.setRecvedData (s.state.client.recvedData ++ chunk)) .reading

/-- The sink that has been called returns.  An iterator is moved on to the next element
above the one it stood at, also where the sink has erased that one. -/
def ret (s : ClientLife) : ClientLife :=
  match s.control with
  | .idle => s
  | .reading => s
  | .onRecvRsp transId left =>
      (s.use.become (s.state.cancelTrans transId) .idle).afterMsg left
  | .onRecvNfy sink msgHead msgBody left =>
      s.use.notify (s.state.client.nfySinkSet.find? fun later => sink < later)
        msgHead msgBody left
  | .onPeer event transId => s.walk ctx env event (some transId)

/-! ## Steps -/

/-- Something of the client is called while it is there, with its own code waiting. -/
def call (s : ClientLife) (f : ClientLife → ClientLife) : Option ClientLife :=
  if s.control ≠ .reading ∧ s.state.removed = false then some (f s) else none

def step (s : ClientLife) (a : LifeAction) : Option ClientLife :=
  match a with
  | .read bufEvent chunk =>
      if s.control = .idle ∧ bufEvent ∈ s.live then some (s.use.readCallback chunk)
      else none
  | .event env bufEvent events inputLen =>
      if s.control = .idle ∧ bufEvent ∈ s.live then
        some (s.use.eventCallback ctx env bufEvent events inputLen)
      else none
  | .onTimer bufEvent =>
      if s.control = .idle ∧ s.state.connectTimer = true ∧
          ∀ b ∈ bufEvent, b ∉ s.live then
        some (s.use.onTimer bufEvent)
      else none
  | .proceed env pass =>
      if s.control = .reading then some (s.use.readPass ctx env pass) else none
  | .ret env => if s.control.InSink then some (s.ret ctx env) else none
  | .send env msgHead msgBody asyncCtx =>
      s.call fun s =>
        s.become (s.state.send ctx env msgHead msgBody asyncCtx).2 s.control
  | .addNfySink sink => s.call fun s => s.become (s.state.addNfySink sink) s.control
  | .removeNfySink sink =>
      s.call fun s => s.become (s.state.removeNfySink sink) s.control
  | .trans op =>
      if s.control = .reading then none
      else some (s.become { s.state with tc := s.state.tc.applyOp op } s.control)
  | .close => s.call removeClient

/-- Once the client has been removed no timer is armed for it, none of its bufferevents
is alive, and no code of it has used it. -/
structure NeverUsed (s : ClientLife) : Prop where
  timer : s.state.removed = true → s.state.connectTimer = false
  bufevents : s.state.removed = true → s.live = ∅
  unused : s.used = false

/-- A sink that returns to a client that has been removed is the last one that is told of
the connection. -/
def ReturnsLast (s : ClientLife) (a : LifeAction) : Prop :=
  match a with
  | .ret _ =>
      s.state.removed = true → ∃ transId, s.control = .onPeer .onConnected transId ∧
        s.state.tc.nextTold s.state.client.peer (some transId) = none
  | _ => True

/-! ## The invariant -/

structure Inv (s : ClientLife) : Prop where
  live : s.live = s.state.client.bufeventSet
  timer : s.state.removed = true → s.state.connectTimer = false
  bufevents : s.state.removed = true → s.live = ∅
  reading : s.control = .reading → s.state.removed = false
  unused : s.used = false

theorem Inv.init (peer : Peer) (tc : TransCenter) (bufEvent : ℕ) :
    (init peer tc bufEvent).Inv where
  live := rfl
  timer := by rintro ⟨⟩
  bufevents := by rintro ⟨⟩
  reading := by rintro ⟨⟩
  unused := rfl

variable {ctx : ClientCenterCtx} {env : CallEnv} {s s' : ClientLife}

theorem Inv.neverUsed (h : s.Inv) : s.NeverUsed := ⟨h.timer, h.bufevents, h.unused⟩

theorem Inv.there_of_mem (h : s.Inv) {bufEvent : ℕ} (hmem : bufEvent ∈ s.live) :
    s.state.removed = false := by
  rw [Bool.eq_false_iff]
  intro hremoved
  rw [h.bufevents hremoved] at hmem
  exact Finset.notMem_empty bufEvent hmem

theorem Inv.there_of_timer (h : s.Inv) (htimer : s.state.connectTimer = true) :
    s.state.removed = false := by
  rw [Bool.eq_false_iff]
  intro hremoved
  rw [h.timer hremoved] at htimer
  cases htimer

theorem use_of_there (hthere : s.state.removed = false) : s.use = s := by
  simp [use, hthere]

theorem Inv.of_there (hthere : s.state.removed = false)
    (hlive : s.live = s.state.client.bufeventSet) (hunused : s.used = false) : s.Inv where
  live := hlive
  timer := fun hremoved => by
    rw [hthere] at hremoved
    cases hremoved
  bufevents := fun hremoved => by
    rw [hthere] at hremoved
    cases hremoved
  reading := fun _ => hthere
  unused := hunused

theorem Inv.become (h : s.Inv) (hthere : s.state.removed = false) (state : ClientState)
    (hset : state.client.bufeventSet = s.state.client.bufeventSet)
    (hremoved : state.removed = s.state.removed) (control : ClientControl) :
    (s.become state control).Inv :=
  .of_there (hremoved.trans hthere) (h.live.trans hset.symm) h.unused

theorem Inv.removeClient (h : s.Inv) (hcontrol : s.control ≠ .reading) :
    s.removeClient.Inv where
  live := by
    simp only [ClientLife.removeClient, h.live, Finset.sdiff_self]
    rfl
  timer := fun _ => rfl
  bufevents := fun _ => by simp only [ClientLife.removeClient, h.live, Finset.sdiff_self]
  reading := fun hreading => absurd hreading hcontrol
  unused := h.unused

theorem Inv.onTimer (h : s.Inv) (hthere : s.state.removed = false)
    (bufEvent : Option ℕ) : (s.onTimer bufEvent).Inv := by
  cases bufEvent with
  | none =>
      refine .of_there hthere ?_ h.unused
      simpa [ClientLife.onTimer, ClientState.onTimer, ClientState.connect] using h.live
  | some b =>
      refine .of_there hthere ?_ h.unused
      simp only [ClientLife.onTimer, ClientState.onTimer, ClientState.connect,
        Option.toFinset_some, h.live]
      exact Finset.union_comm _ _

variable (env) in
theorem sendCacheMsg_kept (s : ClientState) :
    (s.sendCacheMsg env).client.bufeventSet = s.client.bufeventSet ∧
      (s.sendCacheMsg env).removed = s.removed := by
  obtain ⟨adds, map, list, hsent⟩ := ClientState.sendCacheMsg_shape env s
  rw [hsent]
  exact ⟨rfl, rfl⟩

variable (ctx env) in
theorem send_kept (s : ClientState) (msgHead : MsgHead) (msgBody : Bytes)
    (asyncCtx : Option AsyncCtx) :
    (s.send ctx env msgHead msgBody asyncCtx).2.client.bufeventSet = s.client.bufeventSet ∧
      (s.send ctx env msgHead msgBody asyncCtx).2.removed = s.removed := by
  have hsame := ClientState.send_sameConnection ctx env s msgHead msgBody asyncCtx
  exact ⟨hsame.bufeventSet, hsame.removed⟩

theorem addNfySink_kept (s : ClientState) (sink : ℕ) :
    (s.addNfySink sink).client.bufeventSet = s.client.bufeventSet ∧
      (s.addNfySink sink).removed = s.removed := by
  unfold ClientState.addNfySink
  split_ifs
  all_goals exact ⟨rfl, rfl⟩

variable (ctx env) in
theorem startConnectTimer_kept (s : ClientState) :
    (s.startConnectTimer ctx env).client = s.client ∧
      (s.startConnectTimer ctx env).removed = s.removed := by
  unfold ClientState.startConnectTimer
  split_ifs
  all_goals exact ⟨rfl, rfl⟩

theorem Inv.afterWalk (h : s.Inv) (hthere : s.state.removed = false)
    (event : TransCenter.PeerEvent) : (s.afterWalk ctx env event).Inv := by
  cases event with
  | onConnected => exact h.become hthere s.state rfl rfl .idle
  | onClosed =>
      obtain ⟨hclient, hremoved⟩ := startConnectTimer_kept ctx env s.state
      simp only [ClientLife.afterWalk, use_of_there hthere]
      exact h.become hthere _ (congrArg Client.bufeventSet hclient) hremoved .idle

theorem Inv.walk (h : s.Inv) (hthere : s.state.removed = false)
    (event : TransCenter.PeerEvent) (last : Option TransID) :
    (s.walk ctx env event last).Inv := by
  unfold ClientLife.walk
  rw [use_of_there hthere]
  split
  · exact h.become hthere s.state rfl rfl _
  · exact h.afterWalk hthere event

theorem Inv.setConnected (h : s.Inv) (hthere : s.state.removed = false)
    (hcontrol : s.control ≠ .reading) (flag : Bool) (bufEvent : Option ℕ) :
    (s.setConnected ctx env flag bufEvent).Inv := by
  have hcounted : (s.become s.state.countFailure s.control).Inv :=
    h.become hthere s.state.countFailure rfl rfl s.control
  unfold ClientLife.setConnected
  split_ifs
  · exact h.removeClient hcontrol
  · exact h
  · exact hcounted.removeClient hcontrol
  · exact hcounted
  · obtain ⟨hset, hremoved⟩ := sendCacheMsg_kept env
      (s.state.changeConnected flag bufEvent).stopConnectTimer
    have hsent := h.become hthere _ hset hremoved .idle
    exact hsent.walk (hremoved.trans hthere) .onConnected none
  · have hdown := h.become hthere (s.state.changeConnected flag bufEvent) rfl rfl .idle
    exact hdown.walk hthere .onClosed none

theorem Inv.freeBufEvent (h : s.Inv) (hthere : s.state.removed = false) (bufEvent : ℕ) :
    (s.freeBufEvent bufEvent).Inv :=
  .of_there hthere (congrArg (Finset.erase · bufEvent) h.live) h.unused

theorem Inv.eventCallback (h : s.Inv) (hthere : s.state.removed = false)
    (hcontrol : s.control ≠ .reading) (bufEvent : ℕ) (events : BevEvents)
    (inputLen : ℕ) : (s.eventCallback ctx env bufEvent events inputLen).Inv := by
  unfold ClientLife.eventCallback
  split_ifs
  · exact h.setConnected hthere hcontrol true (some bufEvent)
  · exact (h.freeBufEvent hthere bufEvent).setConnected hthere hcontrol false none
  · exact h

/-! ## The read loop keeps it -/

theorem Inv.afterMsg (h : s.Inv) (hthere : s.state.removed = false) (left : Bytes) :
    (s.afterMsg left).Inv :=
  h.become hthere (s.state.setRecvedData left) rfl rfl _

theorem Inv.tell (h : s.Inv) (hthere : s.state.removed = false) (note : ReadNote)
    (control : ClientControl) : (s.tell note control).Inv :=
  h.become hthere { s.state with told := s.state.told ++ [note] } rfl rfl control

theorem Inv.notify (h : s.Inv) (hthere : s.state.removed = false) (sink : Option ℕ)
    (msgHead : MsgHead) (msgBody left : Bytes) :
    (s.notify sink msgHead msgBody left).Inv := by
  cases sink with
  | none => exact h.afterMsg hthere left
  | some sink => exact h.tell hthere _ _

theorem Inv.afterRsp (h : s.Inv) (hthere : s.state.removed = false) (transId : TransID)
    (left : Bytes) : ((s.become (s.state.cancelTrans transId) .idle).afterMsg left).Inv := by
  have hcancelled := h.become hthere (s.state.cancelTrans transId) rfl rfl .idle
  exact hcancelled.afterMsg hthere left

theorem Inv.handleMsg (h : s.Inv) (hthere : s.state.removed = false)
    (msgHead : MsgHead) (msgBody left : Bytes) :
    (s.handleMsg msgHead msgBody left).Inv := by
  unfold ClientLife.handleMsg
  split_ifs
  · simp only
    split
    · exact h.become hthere s.state rfl rfl .idle
    · split
      · exact h.tell hthere _ _
      · exact h.afterRsp hthere _ left
  · exact h.notify hthere _ msgHead msgBody left

theorem Inv.readPass (h : s.Inv) (hthere : s.state.removed = false) (pass : ℕ) :
    (s.readPass ctx env pass).Inv := by
  unfold ClientLife.readPass
  simp only
  split_ifs
  · obtain ⟨hset, hremoved⟩ := send_kept ctx env
      (s.state.setRecvedData []) (MsgHead.ofMsgId _) [] none
    exact h.become hthere _ hset hremoved .idle
  · exact h.become hthere s.state rfl rfl .idle
  · split
    · obtain ⟨hset, hremoved⟩ := send_kept ctx env s.state _ [] none
      exact h.become hthere _ hset hremoved .idle
    · exact h.handleMsg hthere _ _ _

theorem there_of_returnsLast (hguard : s.ReturnsLast (.ret env))
    (hother : ∀ transId, s.control ≠ .onPeer .onConnected transId) :
    s.state.removed = false := by
  rw [Bool.eq_false_iff]
  intro hremoved
  obtain ⟨transId, hpeer, -⟩ := hguard hremoved
  exact hother transId hpeer

theorem Inv.ret (h : s.Inv) (hguard : s.ReturnsLast (.ret env)) :
    (s.ret ctx env).Inv := by
  unfold ClientLife.ret
  cases hcontrol : s.control with
  | idle => exact h
  | reading => exact h
  | onRecvRsp transId left =>
      have hthere := there_of_returnsLast hguard fun _ => by simp [hcontrol]
      simp only [use_of_there hthere]
      exact h.afterRsp hthere transId left
  | onRecvNfy sink msgHead msgBody left =>
      have hthere := there_of_returnsLast hguard fun _ => by simp [hcontrol]
      simp only [use_of_there hthere]
      exact h.notify hthere _ msgHead msgBody left
  | onPeer event transId =>
      cases hremoved : s.state.removed with
      | false => exact h.walk hremoved event (some transId)
      | true =>
          obtain ⟨transId', hpeer, hlast⟩ := hguard hremoved
          rw [hcontrol] at hpeer
          obtain ⟨rfl, rfl⟩ := ClientControl.onPeer.inj hpeer
          simp only [ClientLife.walk, hlast]
          exact ⟨h.live, h.timer, h.bufevents, by rintro ⟨⟩, h.unused⟩

theorem call_cases {f : ClientLife → ClientLife} (hstep : s.call f = some s') :
    s.control ≠ .reading ∧ s.state.removed = false ∧ s' = f s := by
  unfold call at hstep
  split_ifs at hstep with hcall
  exact ⟨hcall.1, hcall.2, (Option.some.inj hstep).symm⟩

theorem Inv.step {a : LifeAction} (h : s.Inv) (hguard : s.ReturnsLast a)
    (hstep : s.step ctx a = some s') : s'.Inv := by
  cases a with
  | read bufEvent chunk =>
      simp only [ClientLife.step] at hstep
      split_ifs at hstep with hread
      obtain rfl := Option.some.inj hstep
      have hthere := h.there_of_mem hread.2
      rw [use_of_there hthere, ClientLife.readCallback]
      split_ifs
      · exact h
      · exact h.become hthere (s.state.setRecvedData (s.state.client.recvedData ++ chunk))
          rfl rfl .reading
  | event env bufEvent events inputLen =>
      simp only [ClientLife.step] at hstep
      split_ifs at hstep with hevent
      obtain rfl := Option.some.inj hstep
      have hthere := h.there_of_mem hevent.2
      have hcontrol : s.control ≠ .reading := by simp [hevent.1]
      rw [use_of_there hthere]
      exact h.eventCallback hthere hcontrol bufEvent events inputLen
  | onTimer bufEvent =>
      simp only [ClientLife.step] at hstep
      split_ifs at hstep with htimer
      obtain rfl := Option.some.inj hstep
      have hthere := h.there_of_timer htimer.2.1
      rw [use_of_there hthere]
      exact h.onTimer hthere bufEvent
  | proceed env pass =>
      simp only [ClientLife.step] at hstep
      split_ifs at hstep with hreading
      obtain rfl := Option.some.inj hstep
      have hthere := h.reading hreading
      rw [use_of_there hthere]
      exact h.readPass hthere pass
  | ret env =>
      simp only [ClientLife.step] at hstep
      split_ifs at hstep
      obtain rfl := Option.some.inj hstep
      exact h.ret hguard
  | send env msgHead msgBody asyncCtx =>
      simp only [ClientLife.step] at hstep
      obtain ⟨-, hthere, rfl⟩ := call_cases hstep
      obtain ⟨hset, hremoved⟩ := send_kept ctx env s.state msgHead
        msgBody asyncCtx
      exact h.become hthere _ hset hremoved s.control
  | addNfySink sink =>
      simp only [ClientLife.step] at hstep
      obtain ⟨-, hthere, rfl⟩ := call_cases hstep
      obtain ⟨hset, hremoved⟩ := addNfySink_kept s.state sink
      exact h.become hthere _ hset hremoved s.control
  | removeNfySink sink =>
      simp only [ClientLife.step] at hstep
      obtain ⟨-, hthere, rfl⟩ := call_cases hstep
      exact h.become hthere (s.state.removeNfySink sink) rfl rfl s.control
  | trans op =>
      simp only [ClientLife.step] at hstep
      split_ifs at hstep
      obtain rfl := Option.some.inj hstep
      exact ⟨h.live, h.timer, h.bufevents, h.reading, h.unused⟩
  | close =>
      simp only [ClientLife.step] at hstep
      obtain ⟨hcontrol, -, rfl⟩ := call_cases hstep
      exact h.removeClient hcontrol

/-! ## Which returns use a client that is gone -/

theorem notify_used (s : ClientLife) (sink : Option ℕ) (msgHead : MsgHead)
    (msgBody left : Bytes) : (s.notify sink msgHead msgBody left).used = s.used := by
  cases sink
  all_goals rfl

theorem used_of_removed (hremoved : s.state.removed = true) : s.use.used ≠ false := by
  simp [use, hremoved]

theorem ReturnsLast.of_unused (hsink : s.control.InSink)
    (hunused : (s.ret ctx env).used = false) : s.ReturnsLast (.ret env) := by
  intro hremoved
  have hused := used_of_removed hremoved
  unfold ClientLife.ret at hunused
  cases hcontrol : s.control with
  | idle =>
      rw [hcontrol] at hsink
      cases hsink
  | reading =>
      rw [hcontrol] at hsink
      cases hsink
  | onRecvRsp transId left =>
      simp only [hcontrol] at hunused
      exact (hused hunused).elim
  | onRecvNfy sink msgHead msgBody left =>
      simp only [hcontrol, notify_used] at hunused
      exact (hused hunused).elim
  | onPeer event transId =>
      simp only [hcontrol, ClientLife.walk] at hunused
      split at hunused
      · exact (hused hunused).elim
      next hlast =>
        cases event with
        | onConnected => exact ⟨transId, rfl, hlast⟩
        | onClosed => exact (hused hunused).elim

theorem returnsLast_of_neverUsed {a : LifeAction} (hstep : s.step ctx a = some s')
    (hgood : s'.NeverUsed) : s.ReturnsLast a := by
  cases a with
  | ret env =>
      simp only [ClientLife.step] at hstep
      split_ifs at hstep with hsink
      obtain rfl := Option.some.inj hstep
      exact .of_unused hsink hgood.unused
  | _ => trivial

/-- **A removed client is never used again** in exactly the runs in which a sink returns to
a removed client only as the last one that `OnConnected` tells. -/
theorem run_neverUsed_iff (ctx : ClientCenterCtx) (peer : Peer) (tc : TransCenter)
    (bufEvent : ℕ) (actions : List LifeAction) :
    Along (step ctx) NeverUsed (fun _ _ _ => True) (init peer tc bufEvent) actions ↔
      Guarded (step ctx) ReturnsLast (init peer tc bufEvent) actions :=
  along_iff_guarded (fun _ h => Inv.neverUsed h)
    (fun _ _ _ h ha hstep => ⟨h.step ha hstep, trivial⟩)
    (fun _ _ _ _ hstep _ hgood => returnsLast_of_neverUsed hstep hgood) actions
    (Inv.init peer tc bufEvent)

/-- A transaction of the client is told that the connection has closed, and its sink closes
the client. -/
def closesInOnClosed : List LifeAction :=
  [.event quietEnv 1 ClientRun.connectedEvent 0,
    .trans (.record 0 ⟨peerB, 0, 0, some 7, .null⟩),
    .event quietEnv 1 ClientRun.eofEvent 0, .close, .ret quietEnv]

theorem not_neverUsed_closesInOnClosed :
    ¬Along (step plainCtx) NeverUsed (fun _ _ _ => True) (init peerB .empty 1)
      closesInOnClosed := by
  intro h
  obtain ⟨s, hrun, hseen⟩ : ∃ s,
      run (step plainCtx) (init peerB .empty 1) closesInOnClosed = some s ∧
        (s.state.removed, s.state.connectTimer) = (true, true) :=
    Option.map_eq_some_iff.mp (by decide +kernel)
  obtain ⟨hremoved, htimer⟩ := Prod.mk.inj hseen
  have hkilled := (h.last hrun).timer hremoved
  rw [htimer] at hkilled
  cases hkilled

end ClientLife

end CommonComponent
