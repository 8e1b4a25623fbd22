import CommonComponent.ProtoTcpClientCache
import CommonComponent.RecordTimeoutMgrRun
import CommonComponent.TransCenterRun
import Mathlib.Tactic

/-!
# What one `Send` comes to

`Send` records a transaction, encodes the message, and puts it into the cache or hands it
to the output buffer.  Where a step fails, the transaction is cancelled, and the table
should be what it was.  The result of `InnerSend` is not looked at.

`EncodeMsg` is a parameter here, as its outcome is one of those that `Send` is to cope
with.  The tables are those that runs of `TransCenter` reach: in all of them the index of
the timeouts is in order, but an id that is free may have a record left.
-/

namespace CommonComponent

open LabelledRun

/-! ## A record taken back -/

namespace RecordTimeoutMgr

variable {K V : Type*} [DecidableEq K] {mgr : RecordTimeoutMgr K V}

theorem erase_multimapInsert {time : ℤ} {k : K} {entries : List (ℤ × K)}
    (hnew : (time, k) ∉ entries) :
    (multimapInsert time k entries).erase (time, k) = entries := by
  induction entries with
  | nil => simp [multimapInsert]
  | cons first rest ih =>
      rw [List.mem_cons, not_or] at hnew
      by_cases hlt : time < first.1
      · simp [multimapInsert, hlt]
      · have hne : (first == (time, k)) = false := beq_false_of_ne (Ne.symm hnew.1)
        rw [multimapInsert, if_neg hlt, List.erase_cons, hne, ih hnew.2]
        rfl

theorem IndexOk.removeRecord_upsertRecord (h : mgr.IndexOk) (now : ℤ) {k : K} (v : V)
    (timeoutSec : ℤ) (hnone : mgr.recordHashMap k = none) :
    (mgr.upsertRecord now k v timeoutSec).removeRecord k = mgr := by
  have hnew : (now + timeoutSec, k) ∉ mgr.timeoutMultimap := by
    intro hmem
    have hentries := h.entries k
    rw [hnone, Option.toList_none, List.map_nil, List.filter_eq_nil_iff] at hentries
    exact hentries _ hmem (by simp)
  unfold RecordTimeoutMgr.upsertRecord
  rw [hnone]
  unfold RecordTimeoutMgr.removeRecord
  simp only [Function.update_self, Function.update_idem, erase_multimapInsert hnew]
  rw [← hnone, Function.update_eq_self]

end RecordTimeoutMgr

namespace TransCenter

/-- Only the id cursor has moved. -/
structure SameTable (tc tc' : TransCenter) : Prop where
  sinks : tc'.transCenterSinkSet = tc.transCenterSinkSet
  inuse : tc'.transIdSeq.inuseSeqs = tc.transIdSeq.inuseSeqs
  trans : tc'.transHashMap = tc.transHashMap
  peers : tc'.peerTransIDMap = tc.peerTransIDMap
  timeouts : tc'.rspMsgMgr = tc.rspMsgMgr

theorem SameTable.refl (tc : TransCenter) : SameTable tc tc := ⟨rfl, rfl, rfl, rfl, rfl⟩

variable {tc : TransCenter}

theorem cancelTrans_enterTrans_rspMsgMgr (hindex : tc.rspMsgMgr.IndexOk) (now : ℤ)
    (ctx : TransCtx) {transId : TransID}
    (hid : i32SeqRange.seqMin ≤ transId ∧ transId ≤ i32SeqRange.seqMax) :
    ((tc.enterTrans now ctx transId hid).cancelTrans transId).rspMsgMgr = tc.rspMsgMgr ↔
      tc.rspMsgMgr.recordExist transId = false := by
  obtain ⟨mgr, hcancel, hmgr⟩ := cancelTrans_of_live
    (show (tc.enterTrans now ctx transId hid).transHashMap transId = some ctx.create by simp)
  constructor
  · intro hsame
    rw [hcancel, removeTrans_rspMsgMgr] at hsame
    rw [← hsame]
    simp [hmgr transId]
  · intro hrecord
    have hnone : tc.rspMsgMgr.recordHashMap transId = none := by
      simpa [RecordTimeoutMgr.recordExist] using hrecord
    unfold cancelTrans
    rw [enterTrans_transHashMap, if_pos rfl]
    dsimp only
    rw [removeTrans_rspMsgMgr]
    by_cases htimed : ctx.sink.isSome ∧ 0 < ctx.timeoutSec
    · have hentered : (tc.enterTrans now ctx transId hid).rspMsgMgr =
          tc.rspMsgMgr.upsertRecord now transId ctx.create ctx.timeoutSec := by
        simp [enterTrans, indexTrans, htimed]
      rw [hentered, RecordTimeoutMgr.recordExist_upsertRecord]
      simp [hindex.removeRecord_upsertRecord now ctx.create ctx.timeoutSec hnone]
    · have hentered : (tc.enterTrans now ctx transId hid).rspMsgMgr = tc.rspMsgMgr := by
        simp [enterTrans, indexTrans, htimed]
      rw [hentered, hrecord]
      simp [hentered]

/-- A transaction that is cancelled leaves the table as it was, unless its id still had
a record in the timeout index. -/
theorem sameTable_cancelled_iff (h : tc.Indexed) (hindex : tc.rspMsgMgr.IndexOk) (now : ℤ)
    (ctx : TransCtx) {transId : TransID}
    (hid : i32SeqRange.seqMin ≤ transId ∧ transId ≤ i32SeqRange.seqMax)
    (hfresh : tc.transHashMap transId = none) :
    SameTable tc ((tc.enterTrans now ctx transId hid).cancelTrans transId) ↔
      tc.rspMsgMgr.recordExist transId = false := by
  rw [← cancelTrans_enterTrans_rspMsgMgr hindex now ctx hid]
  refine ⟨fun hsame => hsame.timeouts, fun htimeouts => ⟨?_, ?_, ?_, ?_, htimeouts⟩⟩
  · rw [cancelTrans_sinks, enterTrans, indexTrans_sinks]
  · obtain ⟨mgr, hcancel, -⟩ := cancelTrans_of_live
      (show (tc.enterTrans now ctx transId hid).transHashMap transId = some ctx.create by simp)
    have hinuse : transId ∉ tc.transIdSeq.inuseSeqs := by
      rw [h.inuse, hfresh]
      simp
    rw [hcancel, removeTrans]
    simp only [enterTrans_transHashMap, if_true, SeqNum.free_inuseSeqs]
    rw [enterTrans, indexTrans_transIdSeq]
    exact Finset.erase_insert hinuse
  · funext id
    rw [cancelTrans_transHashMap, enterTrans_transHashMap]
    by_cases heq : id = transId
    · rw [if_pos heq, heq, hfresh]
    · rw [if_neg heq, if_neg heq]
  · obtain ⟨mgr, hcancel, -⟩ := cancelTrans_of_live
      (show (tc.enterTrans now ctx transId hid).transHashMap transId = some ctx.create by simp)
    have hpeer : transId ∉ tc.peerTransIDMap ctx.peer := by
      rw [h.peers, hfresh]
      simp
    rw [hcancel, removeTrans]
    simp only [enterTrans_transHashMap, if_true, create_peer]
    rw [enterTrans, indexTrans_peerTransIDMap, Function.update_self, Function.update_idem,
      Finset.erase_insert hpeer, Function.update_eq_self]

/-! ## The timeout index along all runs -/

theorem cancelTrans_index (h : tc.rspMsgMgr.IndexOk) (transId : TransID) :
    (tc.cancelTrans transId).rspMsgMgr.IndexOk := by
  unfold cancelTrans
  cases tc.transHashMap transId with
  | none => exact h
  | some ctx =>
      dsimp only
      rw [removeTrans_rspMsgMgr]
      split_ifs
      · exact h.removeRecord transId
      · exact h

theorem recordTransCtx_index (h : tc.rspMsgMgr.IndexOk) (now : ℤ) (ctx : TransCtx) :
    (tc.recordTransCtx now ctx).2.rspMsgMgr.IndexOk := by
  unfold recordTransCtx
  dsimp only
  by_cases hfull : tc.transIdSeq.alloc.1 = invalidTransID
  · rw [if_pos hfull]
    exact h
  · rw [if_neg hfull]
    cases hlive : tc.transHashMap tc.transIdSeq.alloc.1 with
    | some _ =>
        have hmoved : ({ tc with transIdSeq := tc.transIdSeq.alloc.2 } :
            TransCenter).rspMsgMgr.IndexOk := h
        exact cancelTrans_index hmoved _
    | none =>
        have hindexed : (indexTrans { tc with
            transIdSeq := tc.transIdSeq.alloc.2
            transHashMap := Function.update tc.transHashMap tc.transIdSeq.alloc.1
              (some ctx.create) } now ctx tc.transIdSeq.alloc.1).rspMsgMgr.IndexOk := by
          unfold indexTrans
          dsimp only
          split_ifs
          · exact h.upsertRecord now _ _ _
          · exact h
        dsimp only
        split_ifs
        · exact cancelTrans_index hindexed _
        · exact hindexed

end TransCenter

namespace TransState

theorem expireNext_index {tc : TransCenter} (h : tc.rspMsgMgr.IndexOk)
    (log : List TransNote) (pending : List TransID) :
    (expireNext tc log pending).tc.rspMsgMgr.IndexOk := by
  induction pending generalizing tc with
  | nil => exact h
  | cons transId pending ih =>
      unfold expireNext
      split
      · exact h
      · unfold tellNext
        split
        · exact h
        · exact ih (by rwa [TransCenter.removeTrans_rspMsgMgr])

theorem answer_index {s : TransState} (h : s.tc.rspMsgMgr.IndexOk) (transId : TransID)
    (ctx : TransCtx) (note : TransNote) :
    (s.answer transId ctx note).tc.rspMsgMgr.IndexOk := by
  unfold answer
  split
  · exact h
  · exact TransCenter.cancelTrans_index h transId

theorem step_index {s s' : TransState} {a : TransAction} (h : s.tc.rspMsgMgr.IndexOk)
    (hstep : s.step a = some s') : s'.tc.rspMsgMgr.IndexOk := by
  cases step_steps hstep with
  | record now ctx => exact TransCenter.recordTransCtx_index h now ctx
  | cancel transId => exact TransCenter.cancelTrans_index h transId
  | addSink sink => exact h
  | removeSink sink => exact h
  | onRecvRsp => exact answer_index h _ _ _
  | @lateRsp transId => exact TransCenter.cancelTrans_index h transId
  | httpReqDone => exact answer_index h _ _ _
  | lateHttp => exact h
  | @onTimer now order expired mgr hidle htake hperm =>
      obtain ⟨expired', rest, htaken, htakes⟩ := h.takeExpired now
      rw [htake, Option.some.injEq, Prod.mk.injEq] at htaken
      apply expireNext_index
      exact htaken.2 ▸ htakes.index
  | @answered transId => exact TransCenter.cancelTrans_index h transId
  | @told transId told pending =>
      unfold tellNext
      split
      · exact h
      · exact expireNext_index (by rwa [TransCenter.removeTrans_rspMsgMgr]) s.log pending

theorem run_index {as : List TransAction} {s : TransState}
    (hrun : run step start as = some s) : s.tc.rspMsgMgr.IndexOk :=
  inv_of_run (fun _ _ _ h hstep => step_index h hstep)
    RecordTimeoutMgr.IndexOk.empty hrun

end TransState

/-! ## `Send` -/

namespace ClientState

/-- `Send`, with the outcome of `EncodeMsg`. -/
def sendWith (encodeMsg : MsgHead → Bytes → Option Bytes) (env : CallEnv) (s : ClientState)
    (msgHead : MsgHead) (msgBody : Bytes) (asyncCtx : Option AsyncCtx) :
    TransID × ClientState :=
  let recorded := s.tc.recordTransCtx env.now (s.sendCtx msgHead asyncCtx)
  let transId := recorded.1
  let s := { s with tc := recorded.2 }
  if transId = invalidTransID then (transId, s)
  else
    let transMsgHead := { msgHead with passback := Int32.ofInt transId }
    match encodeMsg transMsgHead msgBody with
    | none => (invalidTransID, { s with tc := s.tc.cancelTrans transId })
    | some data =>
        let totalRetries := asyncCtx.elim 0 (·.totalRetries)
        if s.client.connected then
          (transId, (innerSend env s data totalRetries.toNat).1)
        else
          match s.addCacheMsg transId ⟨transMsgHead, data, totalRetries⟩ with
          | some s => (transId, s)
          | none => (invalidTransID, { s with tc := s.tc.cancelTrans transId })

theorem send_eq_sendWith (ctx : ClientCenterCtx) (env : CallEnv) (s : ClientState)
    (msgHead : MsgHead) (msgBody : Bytes) (asyncCtx : Option AsyncCtx) :
    s.send ctx env msgHead msgBody asyncCtx =
      s.sendWith (fun head body => some (ctx.msgCodec.encodeMsg head body)) env msgHead
        msgBody asyncCtx := rfl

/-- The message waits in the cache, under a new id. -/
structure InCache (before after : ClientState) (transId : TransID) (data : Bytes) :
    Prop where
  fresh : before.client.cacheMsgMap transId = none
  map : ∃ msg, msg.msgBody = data ∧ after.client.cacheMsgMap =
    Function.update before.client.cacheMsgMap transId (some msg)
  list : after.client.cacheMsgTransIDList = before.client.cacheMsgTransIDList ++ [transId]
  adds : after.adds = before.adds

/-- The message has been added to the output buffer, by the last attempt. -/
structure InOutput (before after : ClientState) (data : Bytes) : Prop where
  client : after.client = before.client
  adds : ∃ failed, after.adds =
      before.adds ++ failed ++ [⟨before.client.bufEvent, data, true⟩] ∧
    ∀ add ∈ failed, add.ok = false

def PlacedOnce (before after : ClientState) (transId : TransID) (data : Bytes) : Prop :=
  InCache before after transId data ∨ InOutput before after data

/-- What the result of `Send` says: under a valid id the encoded message is in place, and
otherwise nothing is, and the table and the cache are what they were. -/
structure SendLaw (encodeMsg : MsgHead → Bytes → Option Bytes) (s : ClientState)
    (msgHead : MsgHead) (msgBody : Bytes) (result : TransID × ClientState) : Prop where
  placed : result.1 ≠ invalidTransID → ∃ data,
    encodeMsg { msgHead with passback := Int32.ofInt result.1 } msgBody = some data ∧
      PlacedOnce s result.2 result.1 data
  valid : (∃ transId data, PlacedOnce s result.2 transId data) → result.1 ≠ invalidTransID
  undone : result.1 = invalidTransID →
    TransCenter.SameTable s.tc result.2.tc ∧ result.2.client = s.client

/-- The id that the next transaction gets, and what is encoded under it. -/
def nextTransId (s : ClientState) : TransID := s.tc.transIdSeq.alloc.1

def nextData (encodeMsg : MsgHead → Bytes → Option Bytes) (s : ClientState)
    (msgHead : MsgHead) (msgBody : Bytes) : Option Bytes :=
  encodeMsg { msgHead with passback := Int32.ofInt s.nextTransId } msgBody

/-- On a connection one of the attempts succeeds; and an id under which nothing is sent
has no record left in the timeout index. -/
structure SendOk (encodeMsg : MsgHead → Bytes → Option Bytes) (env : CallEnv)
    (s : ClientState) (msgHead : MsgHead) (msgBody : Bytes) (asyncCtx : Option AsyncCtx) :
    Prop where
  attempts : s.nextTransId ≠ invalidTransID →
    (s.nextData encodeMsg msgHead msgBody).isSome → s.client.connected = true →
    ∃ i ≤ (asyncCtx.elim 0 (·.totalRetries)).toNat,
      env.evbufferAdd (s.adds.length + i) = true
  noRecord : s.nextTransId ≠ invalidTransID →
    s.nextData encodeMsg msgHead msgBody = none ∨
      (s.client.connected = false ∧ (s.client.cacheMsgMap s.nextTransId).isSome) →
    s.tc.rspMsgMgr.recordExist s.nextTransId = false

theorem innerSend_cases (env : CallEnv) (s : ClientState) (data : Bytes) (totalRetry : ℕ) :
    (∃ failed, innerSend env s data totalRetry =
        ({ s with adds := s.adds ++ failed ++ [⟨s.client.bufEvent, data, true⟩] }, true) ∧
      (∀ add ∈ failed, add.ok = false) ∧
      ∃ i ≤ totalRetry, env.evbufferAdd (s.adds.length + i) = true) ∨
    ∃ failed, innerSend env s data totalRetry =
        ({ s with adds := s.adds ++ failed }, false) ∧
      (∀ add ∈ failed, add.ok = false) ∧
      ∀ i ≤ totalRetry, env.evbufferAdd (s.adds.length + i) = false := by
  induction totalRetry generalizing s with
  | zero =>
      cases hok : env.evbufferAdd s.adds.length with
      | true =>
          exact .inl ⟨[], by simp [innerSend, evbufferAdd, hok], nofun, 0, le_rfl, hok⟩
      | false =>
          refine .inr ⟨[⟨s.client.bufEvent, data, false⟩],
            by simp [innerSend, evbufferAdd, hok], by simp, fun i hi => ?_⟩
          obtain rfl := Nat.le_zero.mp hi
          exact hok
  | succ totalRetry ih =>
      cases hok : env.evbufferAdd s.adds.length with
      | true =>
          exact .inl ⟨[], by simp [innerSend, evbufferAdd, hok], nofun, 0, Nat.zero_le _, hok⟩
      | false =>
          have hnext : innerSend env s data (totalRetry + 1) =
              innerSend env { s with
                adds := s.adds ++ [⟨s.client.bufEvent, data, false⟩] } data totalRetry := by
            simp [innerSend, evbufferAdd, hok]
          rcases ih { s with adds := s.adds ++ [⟨s.client.bufEvent, data, false⟩] } with
            ⟨failed, hsend, hfailed, i, hi, hadd⟩ | ⟨failed, hsend, hfailed, hnone⟩
          · refine .inl ⟨⟨s.client.bufEvent, data, false⟩ :: failed, ?_, ?_, i + 1, ?_, ?_⟩
            · rw [hnext, hsend]
              simp
            · simpa using hfailed
            · omega
            · rw [List.length_append, List.length_singleton] at hadd
              rwa [show s.adds.length + (i + 1) = s.adds.length + 1 + i by omega]
          · refine .inr ⟨⟨s.client.bufEvent, data, false⟩ :: failed, ?_, ?_, fun i hi => ?_⟩
            · rw [hnext, hsend]
              simp
            · simpa using hfailed
            · cases i with
              | zero => exact hok
              | succ i =>
                  have hlater := hnone i (by omega)
                  rw [List.length_append, List.length_singleton] at hlater
                  rwa [show s.adds.length + (i + 1) = s.adds.length + 1 + i by omega]

theorem not_placedOnce_of_same (before after : ClientState)
    (hclient : after.client = before.client) (hadds : after.adds = before.adds)
    (transId : TransID) (data : Bytes) : ¬ PlacedOnce before after transId data := by
  rintro (hcache | houtput)
  · have hlist := hcache.list
    rw [hclient] at hlist
    simp at hlist
  · obtain ⟨failed, houtput, -⟩ := houtput.adds
    rw [hadds] at houtput
    simp at houtput

theorem sendLaw_undone_iff (encodeMsg : MsgHead → Bytes → Option Bytes) (s : ClientState)
    (msgHead : MsgHead) (msgBody : Bytes) (tc : TransCenter) :
    SendLaw encodeMsg s msgHead msgBody (invalidTransID, { s with tc := tc }) ↔
      TransCenter.SameTable s.tc tc := by
  refine ⟨fun hlaw => (hlaw.undone rfl).1, fun hsame => ⟨fun hvalid => ?_, ?_, ?_⟩⟩
  · exact (hvalid rfl).elim
  · rintro ⟨transId, data, hplaced⟩
    have hunplaced : ¬ PlacedOnce s { s with tc := tc } transId data :=
      not_placedOnce_of_same s { s with tc := tc } rfl rfl transId data
    exact (hunplaced hplaced).elim
  · exact fun _ => ⟨hsame, rfl⟩

theorem sendLaw_placed_iff {encodeMsg : MsgHead → Bytes → Option Bytes} {s s' : ClientState}
    {msgHead : MsgHead} {msgBody : Bytes} {transId : TransID} {data : Bytes}
    (hvalid : transId ≠ invalidTransID)
    (hencode : encodeMsg { msgHead with passback := Int32.ofInt transId } msgBody =
      some data) :
    SendLaw encodeMsg s msgHead msgBody (transId, s') ↔ PlacedOnce s s' transId data := by
  refine ⟨fun hlaw => ?_, fun hplaced => ⟨fun _ => ⟨data, hencode, hplaced⟩, ?_, ?_⟩⟩
  · obtain ⟨data', hencode', hplaced⟩ := hlaw.placed hvalid
    rw [hencode, Option.some.injEq] at hencode'
    exact hencode' ▸ hplaced
  · exact fun _ => hvalid
  · exact fun hinvalid => (hvalid hinvalid).elim

theorem innerSend_placed_iff (env : CallEnv) (s : ClientState) (tc : TransCenter)
    (transId : TransID) (data : Bytes) (totalRetry : ℕ) :
    PlacedOnce s (innerSend env { s with tc := tc } data totalRetry).1 transId data ↔
      ∃ i ≤ totalRetry, env.evbufferAdd (s.adds.length + i) = true := by
  rcases innerSend_cases env { s with tc := tc } data totalRetry with
    ⟨failed, hsend, hfailed, hadd⟩ | ⟨failed, hsend, hfailed, hnone⟩
  · rw [hsend]
    exact iff_of_true (.inr ⟨rfl, failed, rfl, hfailed⟩) hadd
  · rw [hsend]
    refine iff_of_false ?_ ?_
    · rintro (hcache | houtput)
      · have hlist := hcache.list
        simp at hlist
      · obtain ⟨failed', hadds, -⟩ := houtput.adds
        rw [List.append_assoc] at hadds
        have hlast := List.append_cancel_left hadds
        exact absurd (hfailed ⟨s.client.bufEvent, data, true⟩ (by simp [hlast])) (by simp)
    · rintro ⟨i, hi, hadd⟩
      exact absurd (hnone i hi) (by simp [hadd])

theorem addCacheMsg_placed {s s' : ClientState} {tc : TransCenter} {transId : TransID}
    {cacheMsg : CacheMsg} (hadd : ({ s with tc := tc } : ClientState).addCacheMsg transId
      cacheMsg = some s') : PlacedOnce s s' transId cacheMsg.msgBody := by
  unfold addCacheMsg at hadd
  split at hadd
  · cases hadd
  · rename_i hfree
    rw [Option.some.injEq] at hadd
    subst hadd
    exact .inl ⟨hfree, ⟨cacheMsg, rfl, rfl⟩, rfl, rfl⟩

theorem addCacheMsg_eq_none_iff (s : ClientState) (transId : TransID) (cacheMsg : CacheMsg) :
    s.addCacheMsg transId cacheMsg = none ↔ (s.client.cacheMsgMap transId).isSome := by
  unfold addCacheMsg
  cases s.client.cacheMsgMap transId <;> simp

/-- A transaction that `Send` takes back; without a sink it was cancelled before. -/
theorem sendLaw_cancelled_iff {encodeMsg : MsgHead → Bytes → Option Bytes} {s : ClientState}
    {msgHead : MsgHead} {msgBody : Bytes} (hindexed : s.tc.Indexed)
    (hindex : s.tc.rspMsgMgr.IndexOk) (now : ℤ) (ctx : TransCtx) {transId : TransID}
    (hid : i32SeqRange.seqMin ≤ transId ∧ transId ≤ i32SeqRange.seqMax)
    (hfresh : s.tc.transHashMap transId = none) {filed : TransCenter}
    (hfiled : filed =
      if ctx.sink = none then (s.tc.enterTrans now ctx transId hid).cancelTrans transId
      else s.tc.enterTrans now ctx transId hid) :
    SendLaw encodeMsg s msgHead msgBody
        (invalidTransID, { s with tc := filed.cancelTrans transId }) ↔
      s.tc.rspMsgMgr.recordExist transId = false := by
  have hcancel : filed.cancelTrans transId =
      (s.tc.enterTrans now ctx transId hid).cancelTrans transId := by
    rw [hfiled]
    split_ifs with hsink
    · exact TransCenter.cancelTrans_of_dead (by simp)
    · rfl
  rw [sendLaw_undone_iff, hcancel]
  exact TransCenter.sameTable_cancelled_iff hindexed hindex now ctx hid hfresh

/-- In every table that a run of `TransCenter` reaches: the result of `Send` says what has
become of the message when the result of `InnerSend` may be left unread, and a cancelled
transaction leaves nothing behind. -/
theorem sendLaw_sendWith_iff_sendOk (encodeMsg : MsgHead → Bytes → Option Bytes)
    (env : CallEnv) (msgHead : MsgHead) (msgBody : Bytes) (asyncCtx : Option AsyncCtx)
    (as : List TransAction) (t : TransState) (s : ClientState)
    (hrun : run TransState.step TransState.start as = some t) (htc : s.tc = t.tc) :
    SendLaw encodeMsg s msgHead msgBody (s.sendWith encodeMsg env msgHead msgBody asyncCtx) ↔
      SendOk encodeMsg env s msgHead msgBody asyncCtx := by
  have hindexed : s.tc.Indexed := htc ▸ (TransState.run_filed hrun).toIndexed
  have hindex : s.tc.rspMsgMgr.IndexOk := htc ▸ TransState.run_index hrun
  rcases TransCenter.recordTransCtx_cases hindexed env.now (s.sendCtx msgHead asyncCtx) with
    ⟨hfull, hrecord⟩ | ⟨transId, hid, hfresh, halloc, hrecord⟩
  · have hsend : s.sendWith encodeMsg env msgHead msgBody asyncCtx =
        (invalidTransID, { s with tc := s.tc }) := by
      unfold sendWith
      rw [hrecord]
      exact if_pos rfl
    rw [hsend, sendLaw_undone_iff]
    refine iff_of_true (TransCenter.SameTable.refl s.tc) ⟨fun hvalid => ?_, fun hvalid => ?_⟩
    · exact (hvalid hfull).elim
    · exact (hvalid hfull).elim
  · have hvalid : transId ≠ invalidTransID := by
      rintro rfl
      exact absurd (SeqNum.one_le_of_range hid) (by decide)
    have hnext : s.nextTransId = transId := by
      rw [nextTransId, halloc]
    let filed := if (s.sendCtx msgHead asyncCtx).sink = none then
        (s.tc.enterTrans env.now (s.sendCtx msgHead asyncCtx) transId hid).cancelTrans transId
      else s.tc.enterTrans env.now (s.sendCtx msgHead asyncCtx) transId hid
    have hundone : SendLaw encodeMsg s msgHead msgBody
        (invalidTransID, { s with tc := filed.cancelTrans transId }) ↔
          s.tc.rspMsgMgr.recordExist transId = false :=
      sendLaw_cancelled_iff hindexed hindex env.now _ hid hfresh rfl
    unfold sendWith
    rw [hrecord]
    dsimp only
    rw [if_neg hvalid]
    cases hencode : encodeMsg { msgHead with passback := Int32.ofInt transId } msgBody with
    | none =>
        have hnone : s.nextData encodeMsg msgHead msgBody = none := by
          rw [nextData, hnext, hencode]
        refine hundone.trans ⟨fun hrecord => ⟨?_, ?_⟩, fun hok => ?_⟩
        · simp [hnone]
        · exact fun _ _ => hnext ▸ hrecord
        · exact hnext ▸ hok.noRecord (hnext ▸ hvalid) (.inl hnone)
    | some data =>
        have hsome : s.nextData encodeMsg msgHead msgBody = some data := by
          rw [nextData, hnext, hencode]
        dsimp only
        cases hconnected : s.client.connected with
        | true =>
            rw [if_pos rfl, sendLaw_placed_iff hvalid hencode, innerSend_placed_iff]
            refine ⟨fun hadd => ⟨fun _ _ _ => hadd, ?_⟩, fun hok => ?_⟩
            · simp [hsome, hconnected]
            · exact hok.attempts (hnext ▸ hvalid) (by simp [hsome]) hconnected
        | false =>
            rw [if_neg (by simp)]
            cases hadd : ({ s with tc := filed } : ClientState).addCacheMsg transId
                ⟨{ msgHead with passback := Int32.ofInt transId }, data,
                  asyncCtx.elim 0 (·.totalRetries)⟩ with
            | some s' =>
                have hfree : (s.client.cacheMsgMap transId).isSome = false := by
                  rw [← Bool.not_eq_true, ← addCacheMsg_eq_none_iff { s with tc := filed },
                    hadd]
                  exact Option.some_ne_none s'
                have hplaced : PlacedOnce s s' transId data := addCacheMsg_placed hadd
                rw [sendLaw_placed_iff hvalid hencode]
                refine iff_of_true hplaced ⟨?_, ?_⟩
                · simp [hconnected]
                · simp [hsome, hnext, hfree]
            | none =>
                have htaken : (s.client.cacheMsgMap transId).isSome :=
                  (addCacheMsg_eq_none_iff { s with tc := filed } _ _).mp hadd
                refine hundone.trans ⟨fun hrecord => ⟨?_, ?_⟩, fun hok => ?_⟩
                · simp [hconnected]
                · exact fun _ _ => hnext ▸ hrecord
                · exact hnext ▸ hok.noRecord (hnext ▸ hvalid)
                    (.inr ⟨hconnected, hnext ▸ htaken⟩)

/-- A client whose connection has come up, before its first transaction. -/
def freshlyConnected : ClientState :=
  let s := ClientState.activate ⟨.protoTcp, "10.0.0.2", 80⟩ .empty 0
  { s with client := { s.client with connected := true, bufEvent := some 0 } }

def waitingCtx : AsyncCtx := ⟨0, 3, some 7, .null⟩

theorem sendLaw_freshlyConnected :
    run TransState.step TransState.start [] = some TransState.start ∧
      freshlyConnected.tc = TransState.start.tc ∧
      SendLaw (fun _ body => some body) freshlyConnected ⟨5, 1⟩ [65]
        (freshlyConnected.sendWith (fun _ body => some body) (.quiet 0 (fun _ => true) true)
          ⟨5, 1⟩ [65] (some waitingCtx)) :=
  ⟨rfl, rfl, (sendLaw_sendWith_iff_sendOk (fun _ body => some body)
    (.quiet 0 (fun _ => true) true) ⟨5, 1⟩ [65] (some waitingCtx) [] TransState.start
    freshlyConnected rfl rfl).mpr
      ⟨fun _ _ _ => ⟨0, Nat.zero_le _, rfl⟩, by simp [nextData, freshlyConnected]⟩⟩

/-- The only attempt fails: the caller gets the id 1, and the message is nowhere. -/
theorem not_sendLaw_addFails :
    ¬ ∀ (encodeMsg : MsgHead → Bytes → Option Bytes) (env : CallEnv) (msgHead : MsgHead)
      (msgBody : Bytes) (asyncCtx : Option AsyncCtx) (as : List TransAction)
      (t : TransState) (s : ClientState),
      run TransState.step TransState.start as = some t → s.tc = t.tc →
        SendLaw encodeMsg s msgHead msgBody
          (s.sendWith encodeMsg env msgHead msgBody asyncCtx) := by
  intro hall
  have hlaw := hall (fun _ body => some body) (.quiet 0 (fun _ => false) true) ⟨5, 1⟩ [65]
    (some waitingCtx) [] TransState.start freshlyConnected rfl rfl
  have hid : (freshlyConnected.sendWith (fun _ body => some body)
      (.quiet 0 (fun _ => false) true) ⟨5, 1⟩ [65] (some waitingCtx)).1 = 1 := by
    decide +kernel
  obtain ⟨data, -, hcache | houtput⟩ := hlaw.placed (by rw [hid]; decide)
  · have hadds : (freshlyConnected.sendWith (fun _ body => some body)
        (.quiet 0 (fun _ => false) true) ⟨5, 1⟩ [65] (some waitingCtx)).2.adds =
          [⟨some 0, [65], false⟩] := by
      decide +kernel
    exact absurd (hadds.symm.trans hcache.adds) (by decide)
  · obtain ⟨failed, hadds, -⟩ := houtput.adds
    have hlast : ((freshlyConnected.sendWith (fun _ body => some body)
        (.quiet 0 (fun _ => false) true) ⟨5, 1⟩ [65] (some waitingCtx)).2.adds.getLast?.map
          (·.ok)) = some false := by
      decide +kernel
    rw [hadds] at hlast
    simp at hlast

end ClientState

end CommonComponent
