import CommonComponent.LabelledRun
import CommonComponent.ProtoTcpClient

/-!
# The read loop of the client

`Reads` lists the ways the loop of `ReadCallback` can go: it ends at bytes that
are not a message yet, at a refused length, at a wrong checksum or at an unknown
transaction id, or it takes a message and ends or goes on behind it.  The last
two of the four ends leave the message where it is.
-/

namespace CommonComponent

open FramedStream

namespace ClientState

variable {ctx : ClientCenterCtx} {env : CallEnv}

/-! ## What sending and handling leave alone -/

/-- Everything that belongs to the connection and its reconnection. -/
structure SameConnection (s t : ClientState) : Prop where
  peer : t.client.peer = s.client.peer
  connected : t.client.connected = s.client.connected
  bufeventSet : t.client.bufeventSet = s.client.bufeventSet
  bufEvent : t.client.bufEvent = s.client.bufEvent
  nfySinkSet : t.client.nfySinkSet = s.client.nfySinkSet
  reconnectFailedCount :
    t.client.reconnectFailedCount = s.client.reconnectFailedCount
  connectTimer : t.connectTimer = s.connectTimer
  removed : t.removed = s.removed

theorem SameConnection.refl (s : ClientState) : s.SameConnection s := by
  constructor <;> rfl

theorem SameConnection.trans {s t u : ClientState} (h : s.SameConnection t)
    (h' : t.SameConnection u) : s.SameConnection u where
  peer := h'.peer.trans h.peer
  connected := h'.connected.trans h.connected
  bufeventSet := h'.bufeventSet.trans h.bufeventSet
  bufEvent := h'.bufEvent.trans h.bufEvent
  nfySinkSet := h'.nfySinkSet.trans h.nfySinkSet
  reconnectFailedCount := h'.reconnectFailedCount.trans h.reconnectFailedCount
  connectTimer := h'.connectTimer.trans h.connectTimer
  removed := h'.removed.trans h.removed

theorem innerSend_adds (env : CallEnv) (s : ClientState) (data : Bytes) (totalRetry : ℕ) :
    ∃ adds, (innerSend env s data totalRetry).1 = { s with adds := adds } := by
  induction totalRetry generalizing s with
  | zero => exact ⟨_, rfl⟩
  | succ totalRetry ih =>
      unfold innerSend
      simp only
      split
      · exact ⟨_, rfl⟩
      · obtain ⟨adds, hadds⟩ := ih (evbufferAdd env s data).1
        exact ⟨adds, hadds⟩

variable (ctx env) in
theorem send_shape (s : ClientState) (msgHead : MsgHead) (msgBody : Bytes)
    (asyncCtx : Option AsyncCtx) :
    ∃ tc adds map list, (s.send ctx env msgHead msgBody asyncCtx).2 =
      { s with
        tc := tc
        adds := adds
        client := { s.client with
          cacheMsgMap := map, cacheMsgTransIDList := list } } := by
  unfold send
  simp only
  split
  · exact ⟨_, _, _, _, rfl⟩
  · split
    · obtain ⟨adds, hadds⟩ := innerSend_adds env
        { s with tc := (s.tc.recordTransCtx env.now (s.sendCtx msgHead asyncCtx)).2 }
        (ctx.msgCodec.encodeMsg { msgHead with
          passback := Int32.ofInt
            (s.tc.recordTransCtx env.now (s.sendCtx msgHead asyncCtx)).1 } msgBody)
        (asyncCtx.elim 0 (·.totalRetries)).toNat
      exact ⟨_, adds, _, _, hadds⟩
    · unfold addCacheMsg
      simp only
      split
      next hcached =>
        split at hcached
        · cases hcached
        · rw [Option.some.injEq] at hcached
          exact ⟨_, _, _, _, hcached.symm⟩
      next => exact ⟨_, _, _, _, rfl⟩

variable (ctx env) in
theorem send_sameConnection (s : ClientState) (msgHead : MsgHead)
    (msgBody : Bytes) (asyncCtx : Option AsyncCtx) :
    s.SameConnection (s.send ctx env msgHead msgBody asyncCtx).2 := by
  obtain ⟨tc, adds, map, list, hsend⟩ :=
    send_shape ctx env s msgHead msgBody asyncCtx
  rw [hsend]
  constructor <;> rfl

@[simp] theorem send_told (s : ClientState) (msgHead : MsgHead)
    (msgBody : Bytes) (asyncCtx : Option AsyncCtx) :
    (s.send ctx env msgHead msgBody asyncCtx).2.told = s.told := by
  obtain ⟨tc, adds, map, list, hsend⟩ :=
    send_shape ctx env s msgHead msgBody asyncCtx
  rw [hsend]

@[simp] theorem send_recvedData (s : ClientState) (msgHead : MsgHead)
    (msgBody : Bytes) (asyncCtx : Option AsyncCtx) :
    (s.send ctx env msgHead msgBody asyncCtx).2.client.recvedData =
      s.client.recvedData := by
  obtain ⟨tc, adds, map, list, hsend⟩ :=
    send_shape ctx env s msgHead msgBody asyncCtx
  rw [hsend]

/-- The table after each of `notes` has been told in turn. -/
def tellAll (env : CallEnv) (pass : ℕ) (tc : TransCenter)
    (notes : List ReadNote) : TransCenter :=
  notes.foldl (fun tc note => tc.applyOps (env.onRecv pass tc note)) tc

theorem foldl_tell (pass : ℕ) (note : Peer → ℕ → ReadNote) (sinks : List ℕ)
    (s : ClientState) :
    sinks.foldl (fun s sink => s.tell env pass (note s.client.peer sink)) s =
      { s with
        tc := tellAll env pass s.tc (sinks.map (note s.client.peer))
        told := s.told ++ sinks.map (note s.client.peer) } := by
  induction sinks generalizing s with
  | nil => simp [tellAll]
  | cons sink sinks ih =>
      rw [List.foldl_cons, ih]
      simp [tell, tellAll]

def nfyNotes (s : ClientState) (msgHead : MsgHead) (msgBody : Bytes) :
    List ReadNote :=
  s.client.nfySinkSet.map fun sink =>
    .onRecvNfy sink s.client.peer msgHead msgBody

def rspNotes (s : ClientState) (transCtx : TransCtx) (msgHead : MsgHead)
    (msgBody : Bytes) : List ReadNote :=
  transCtx.sink.toList.map fun _ =>
    .onRecvRsp msgHead.passback.toInt s.client.peer transCtx
      { msgHead with passback := transCtx.passback } msgBody

theorem handleMsg_nfy {pass : ℕ} {s : ClientState} {msgHead : MsgHead}
    (msgBody : Bytes) (hnfy : msgHead.passback = nfyPassback) :
    s.handleMsg env pass msgHead msgBody = some { s with
      tc := tellAll env pass s.tc (s.nfyNotes msgHead msgBody)
      told := s.told ++ s.nfyNotes msgHead msgBody } := by
  unfold handleMsg
  rw [if_neg (not_not.mpr hnfy),
    foldl_tell pass fun peer sink => .onRecvNfy sink peer msgHead msgBody]
  rfl

theorem handleMsg_unknown {pass : ℕ} {s : ClientState} {msgHead : MsgHead}
    (msgBody : Bytes) (hrsp : msgHead.passback ≠ nfyPassback)
    (hdead : s.tc.transHashMap msgHead.passback.toInt = none) :
    s.handleMsg env pass msgHead msgBody = none := by
  unfold handleMsg
  rw [if_pos hrsp]
  simp only [TransCenter.getTransCtx, hdead]

theorem handleMsg_rsp {pass : ℕ} {s : ClientState} {msgHead : MsgHead}
    (msgBody : Bytes) {transCtx : TransCtx}
    (hrsp : msgHead.passback ≠ nfyPassback)
    (hlive : s.tc.transHashMap msgHead.passback.toInt = some transCtx) :
    s.handleMsg env pass msgHead msgBody = some { s with
      tc := (tellAll env pass s.tc
        (s.rspNotes transCtx msgHead msgBody)).cancelTrans msgHead.passback.toInt
      told := s.told ++ (s.rspNotes transCtx msgHead msgBody ++
        [.cancelTrans msgHead.passback.toInt
          ((tellAll env pass s.tc (s.rspNotes transCtx msgHead msgBody)).transHashMap
            msgHead.passback.toInt)]) } := by
  unfold handleMsg
  rw [if_pos hrsp]
  simp only [TransCenter.getTransCtx, hlive]
  cases hsink : transCtx.sink with
  | none => simp [rspNotes, hsink, tellAll, cancelTrans, TransCenter.getTransCtx]
  | some sink =>
      simp [rspNotes, hsink, tellAll, tell, cancelTrans, TransCenter.getTransCtx]

/-- What happens to a message is decided by the table, the peer and the
notification sinks. -/
theorem handleMsg_of_same (env : CallEnv) (pass : ℕ) (s s' : ClientState)
    (msgHead : MsgHead) (msgBody : Bytes) (htc : s'.tc = s.tc)
    (hpeer : s'.client.peer = s.client.peer)
    (hnfy : s'.client.nfySinkSet = s.client.nfySinkSet) :
    (s.handleMsg env pass msgHead msgBody = none ∧
        s'.handleMsg env pass msgHead msgBody = none) ∨
      ∃ tc notes,
        s.handleMsg env pass msgHead msgBody =
            some { s with tc := tc, told := s.told ++ notes } ∧
          s'.handleMsg env pass msgHead msgBody =
            some { s' with tc := tc, told := s'.told ++ notes } := by
  by_cases hpassback : msgHead.passback = nfyPassback
  · right
    have hnotes : s'.nfyNotes msgHead msgBody = s.nfyNotes msgHead msgBody := by
      unfold nfyNotes
      rw [hnfy, hpeer]
    refine ⟨_, _, handleMsg_nfy msgBody hpassback, ?_⟩
    rw [handleMsg_nfy msgBody hpassback, hnotes, htc]
  · cases hctx : s.tc.transHashMap msgHead.passback.toInt with
    | none =>
        left
        exact ⟨handleMsg_unknown msgBody hpassback hctx,
          handleMsg_unknown msgBody hpassback (htc ▸ hctx)⟩
    | some transCtx =>
        right
        have hnotes : s'.rspNotes transCtx msgHead msgBody =
            s.rspNotes transCtx msgHead msgBody := by
          unfold rspNotes
          rw [hpeer]
        have hctx' : s'.tc.transHashMap msgHead.passback.toInt = some transCtx := by
          rw [htc, hctx]
        refine ⟨_, _, handleMsg_rsp msgBody hpassback hctx, ?_⟩
        rw [handleMsg_rsp msgBody hpassback hctx', hnotes, htc]

theorem handleMsg_shape {pass : ℕ} {s s' : ClientState} {msgHead : MsgHead}
    {msgBody : Bytes} (h : s.handleMsg env pass msgHead msgBody = some s') :
    ∃ tc notes, s' = { s with tc := tc, told := s.told ++ notes } := by
  rcases handleMsg_of_same env pass s s msgHead msgBody rfl rfl rfl with
    ⟨hnone, -⟩ | ⟨tc, notes, hsome, -⟩
  · rw [hnone] at h
    cases h
  · rw [hsome, Option.some.injEq] at h
    exact ⟨tc, notes, h.symm⟩

theorem handleMsg_peer {pass : ℕ} {s s' : ClientState} {msgHead : MsgHead}
    {msgBody : Bytes} (h : s.handleMsg env pass msgHead msgBody = some s') :
    s'.client.peer = s.client.peer := by
  obtain ⟨tc, notes, rfl⟩ := handleMsg_shape h
  rfl

/-! ## The ways the loop goes -/

variable (ctx env) in
/-- From pass `pass` on, the loop takes `s` to `t`. -/
inductive Reads : ℕ → ClientState → ClientState → Prop
  | waiting {pass s}
      (hhead : ctx.msgCodec.headOf s.client.recvedData = .waiting)
      (hread : ¬ctx.msgCodec.Misreads (env.behind pass) s.client.recvedData) :
      Reads pass s s
  | refused {pass s}
      (hhead : ctx.msgCodec.headOf s.client.recvedData = .broken ∨
        ctx.msgCodec.Misreads (env.behind pass) s.client.recvedData) :
      Reads pass s
        ((s.setRecvedData []).send ctx env (.ofMsgId msgIdInvalidMsgLen) [] none).2
  | mismatch {pass s totalMsg rest errMsgId}
      (hhead : ctx.msgCodec.headOf s.client.recvedData = .whole totalMsg rest)
      (hdecode : ctx.msgCodec.decodeMsg totalMsg = .error errMsgId) :
      Reads pass s (s.send ctx env (.ofMsgId errMsgId) [] none).2
  | unknown {pass s totalMsg rest msgHead msgBody}
      (hhead : ctx.msgCodec.headOf s.client.recvedData = .whole totalMsg rest)
      (hdecode : ctx.msgCodec.decodeMsg totalMsg = .ok (msgHead, msgBody))
      (hhandle : s.handleMsg env pass msgHead msgBody = none) :
      Reads pass s s
  | last {pass s s' totalMsg msgHead msgBody}
      (hhead : ctx.msgCodec.headOf s.client.recvedData = .whole totalMsg [])
      (hdecode : ctx.msgCodec.decodeMsg totalMsg = .ok (msgHead, msgBody))
      (hhandle : s.handleMsg env pass msgHead msgBody = some s') :
      Reads pass s (s'.setRecvedData [])
  | next {pass s s' t totalMsg rest msgHead msgBody}
      (hhead : ctx.msgCodec.headOf s.client.recvedData = .whole totalMsg rest)
      (hrest : rest ≠ [])
      (hdecode : ctx.msgCodec.decodeMsg totalMsg = .ok (msgHead, msgBody))
      (hhandle : s.handleMsg env pass msgHead msgBody = some s')
      (hlater : Reads (pass + 1) (s'.setRecvedData rest) t) :
      Reads pass s t

variable (ctx env) in
theorem readLoop_reads {fuel : ℕ} (pass : ℕ) {s : ClientState}
    (hfuel : s.client.recvedData.length < fuel) :
    ∃ t, s.readLoop ctx env fuel pass = some t ∧ Reads ctx env pass s t := by
  induction fuel generalizing pass s with
  | zero => cases hfuel
  | succ fuel ih =>
      unfold readLoop readPass
      cases hhead : ctx.msgCodec.headOf s.client.recvedData with
      | waiting =>
          by_cases hread : ctx.msgCodec.Misreads (env.behind pass) s.client.recvedData
          · obtain ⟨len, hwhole⟩ := MsgCodec.isWholeMsg_of_refused (Or.inr hread)
            simp only [hwhole]
            exact ⟨_, rfl, .refused (Or.inr hread)⟩
          · obtain ⟨len, hwhole⟩ := MsgCodec.isWholeMsg_of_waiting hhead hread
            simp only [hwhole]
            exact ⟨_, rfl, .waiting hhead hread⟩
      | broken =>
          have hrefused : ctx.msgCodec.headOf s.client.recvedData = .broken ∨
              ctx.msgCodec.Misreads (env.behind pass) s.client.recvedData :=
            Or.inl hhead
          obtain ⟨len, hwhole⟩ := MsgCodec.isWholeMsg_of_refused hrefused
          simp only [hwhole]
          exact ⟨_, rfl, .refused hrefused⟩
      | whole totalMsg rest =>
          obtain ⟨hwhole, hmsg, hrest⟩ :=
            MsgCodec.isWholeMsg_of_whole hhead (env.behind pass)
          simp only [hwhole, ← hmsg, ← hrest, Bool.true_eq_false, if_false]
          cases hdecode : ctx.msgCodec.decodeMsg totalMsg with
          | error errMsgId => exact ⟨_, rfl, .mismatch hhead hdecode⟩
          | ok msg =>
              obtain ⟨msgHead, msgBody⟩ := msg
              simp only
              cases hhandle : s.handleMsg env pass msgHead msgBody with
              | none => exact ⟨_, rfl, .unknown hhead hdecode hhandle⟩
              | some s' =>
                  cases rest with
                  | nil => exact ⟨_, rfl, .last hhead hdecode hhandle⟩
                  | cons byte later =>
                      have hshort := MsgCodec.headOf_whole_shorter hhead
                      have hfuel' : (s'.setRecvedData
                          (byte :: later)).client.recvedData.length < fuel := by
                        simp only [setRecvedData]
                        omega
                      obtain ⟨t, hloop, hreads⟩ := ih (pass + 1) hfuel'
                      have hmore : decide (0 < (byte :: later).length) = true := by
                        simp
                      simp only [hmore, if_true]
                      exact ⟨t, hloop,
                        .next hhead (List.cons_ne_nil _ _) hdecode hhandle hreads⟩

variable (ctx env) in
/-- `ReadCallback` returns; on a chunk that is not empty it does what the loop
does with the bytes received so far. -/
theorem readCallback_reads (s : ClientState) (chunk : Bytes) :
    ∃ t, s.readCallback ctx env chunk = some t ∧
      ((chunk = [] ∧ t = s) ∨ (chunk ≠ [] ∧
        Reads ctx env 0 (s.setRecvedData (s.client.recvedData ++ chunk)) t)) := by
  unfold readCallback
  by_cases hchunk : chunk = []
  · rw [if_pos hchunk]
    exact ⟨s, rfl, Or.inl ⟨hchunk, rfl⟩⟩
  · rw [if_neg hchunk]
    have hfuel : (s.setRecvedData
          (s.client.recvedData ++ chunk)).client.recvedData.length <
        (s.client.recvedData ++ chunk).length + 1 := Nat.lt_succ_self _
    obtain ⟨t, hloop, hreads⟩ := readLoop_reads ctx env 0 hfuel
    exact ⟨t, hloop, Or.inr ⟨hchunk, hreads⟩⟩

theorem Reads.sameConnection {pass : ℕ} {s t : ClientState}
    (h : Reads ctx env pass s t) : s.SameConnection t := by
  induction h with
  | waiting => exact .refl _
  | @refused pass s hhead =>
      have hclear : s.SameConnection (s.setRecvedData []) := by constructor <;> rfl
      exact hclear.trans (send_sameConnection ctx env _ _ _ _)
  | mismatch => exact send_sameConnection ctx env _ _ _ _
  | unknown => exact .refl _
  | last hhead hdecode hhandle =>
      obtain ⟨tc, notes, rfl⟩ := handleMsg_shape hhandle
      constructor <;> rfl
  | next hhead hrest hdecode hhandle hlater ih =>
      obtain ⟨tc, notes, rfl⟩ := handleMsg_shape hhandle
      refine SameConnection.trans ?_ ih
      constructor <;> rfl

end ClientState

end CommonComponent
