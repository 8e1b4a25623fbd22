import CommonComponent.ProtoTcpClient
import CommonComponent.TransCenterRun
import Mathlib.Tactic

/-!
# Telling the transactions of a client that goes down

`SetConnected` for a connection at its end, with the transactions whose sinks it
tells `OnClosed`.
-/

namespace CommonComponent

namespace ClientState

variable (ctx : ClientCenterCtx) (env : CallEnv)

/-- `SetConnected`, with the transactions of its call of `TransCenter::OnClosed`. -/
def setConnectedTold (s : ClientState) (flag : Bool) (bufEvent : Option ℕ) :
    ClientState × List TransID :=
  if flag = false ∧ ctx.NoReconnect then (s.removeClient, [])
  else if s.client.connected = flag then
    if s.client.connected then (s, [])
    else
      let count := s.client.reconnectFailedCount + 1
      let s := { s with client := { s.client with reconnectFailedCount := count } }
      (if ctx.reconnectLimit = count then s.removeClient else s, [])
  else
    let count := if flag then 0 else s.client.reconnectFailedCount
    let s := { s with
      client := { s.client with
        reconnectFailedCount := count, connected := flag, bufEvent := bufEvent } }
    if flag then
      ((s.stopConnectTimer.sendCacheMsg env).notifyPeer env .onConnected, [])
    else
      let walk := s.tc.notifyPeer s.client.peer (env.onPeerEvent .onClosed)
      let s := { s with tc := walk.elim s.tc (·.tc) }
      (s.startConnectTimer ctx env, walk.elim [] fun walk => walk.notified.map Prod.fst)

def eventCallbackTold (s : ClientState) (bufEvent : ℕ) (events : BevEvents)
    (inputLen : ℕ) : ClientState × List TransID :=
  if events.connected then s.setConnectedTold ctx env true (some bufEvent)
  else if Closing events inputLen then
    let s := { s with
      client := { s.client with
        bufeventSet := s.client.bufeventSet.erase bufEvent } }
    s.setConnectedTold ctx env false none
  else (s, [])

variable {ctx env}

theorem setConnectedTold_fst (s : ClientState) (flag : Bool) (bufEvent : Option ℕ) :
    (s.setConnectedTold ctx env flag bufEvent).1 =
      s.setConnected ctx env flag bufEvent := by
  unfold setConnectedTold setConnected
  split_ifs
  all_goals rfl

theorem eventCallbackTold_fst (s : ClientState) (bufEvent : ℕ) (events : BevEvents)
    (inputLen : ℕ) :
    (s.eventCallbackTold ctx env bufEvent events inputLen).1 =
      s.eventCallback ctx env bufEvent events inputLen := by
  unfold eventCallbackTold eventCallback
  split_ifs
  · exact setConnectedTold_fst s true (some bufEvent)
  · exact setConnectedTold_fst _ false none
  · rfl

end ClientState

namespace TransCenter

def LiveWithSink (tc : TransCenter) (peer : Peer) (transId : TransID) : Prop :=
  ∃ ctx, tc.transHashMap transId = some ctx ∧ ctx.peer = peer ∧ ctx.sink.isSome

/-- Each live transaction of the peer with a sink is told once. -/
def EachToldOnce (tc : TransCenter) (peer : Peer) (told : List TransID) : Prop :=
  ∀ transId, tc.LiveWithSink peer transId → told.count transId = 1

/-- The walk tells every transaction when no callback cancels any. -/
theorem notifyPeer_eachToldOnce {tc : TransCenter} (h : tc.Filed) {peer : Peer}
    {react : TransID → List TransOp} (hreact : ∀ id other, .cancel other ∉ react id) :
    tc.EachToldOnce peer ((tc.notifyPeer peer react).elim [] fun walk =>
      walk.notified.map Prod.fst) := by
  obtain ⟨walk, hwalk, hok⟩ := notifyPeer_ok (fun id _ => hreact id id) h
  rw [hwalk]
  rintro transId ⟨ctx, hctx, hpeer, -⟩
  have hmem : transId ∈ tc.peerTransIDMap peer :=
    (h.peers peer transId).mpr ⟨ctx, hctx, hpeer⟩
  have htold : transId ∈ walk.notified.map Prod.fst := by
    rcases hok.all transId hmem with htold | ⟨earlier, -, -, hcancel⟩
    · exact htold
    · exact absurd hcancel (hreact earlier transId)
  have hnodup : (walk.notified.map Prod.fst).Nodup := hok.once.imp fun hlt => hlt.ne
  exact List.count_eq_one_of_mem hnodup htold

theorem eachToldOnce_nil {tc : TransCenter} {peer : Peer} :
    tc.EachToldOnce peer [] ↔ ∀ transId, ¬tc.LiveWithSink peer transId := by
  constructor
  · intro h transId hlive
    have hcount := h transId hlive
    rw [List.count_nil] at hcount
    cases hcount
  · exact fun h transId hlive => absurd hlive (h transId)

end TransCenter

namespace ClientState

open TransCenter

variable {ctx : ClientCenterCtx} {env : CallEnv}

/-- **Whom a client that goes down tells.**  With reconnection each live transaction of
its peer is told once; without it none is, so there must be none. -/
theorem eventCallback_eachToldOnce_iff (s : ClientState) (bufEvent : ℕ)
    (events : BevEvents) (inputLen : ℕ) (hfiled : s.tc.Filed)
    (hconnected : s.client.connected = true) (hclosing : Closing events inputLen)
    (hsinks : ∀ id other, .cancel other ∉ env.onPeerEvent .onClosed id) :
    s.tc.EachToldOnce s.client.peer
        (s.eventCallbackTold ctx env bufEvent events inputLen).2 ↔
      ¬ctx.NoReconnect ∨ ∀ transId, ¬s.tc.LiveWithSink s.client.peer transId := by
  have hdown : events.connected = false := hclosing.1
  unfold eventCallbackTold
  rw [if_neg (by simp [hdown]), if_pos hclosing]
  unfold setConnectedTold
  by_cases hnone : ctx.NoReconnect
  · rw [if_pos ⟨rfl, hnone⟩, eachToldOnce_nil]
    exact ⟨.inr, fun h => h.resolve_left fun hreconnect => hreconnect hnone⟩
  · rw [if_neg fun h => hnone h.2, if_neg (by simp [hconnected])]
    simp only [Bool.false_eq_true, if_false]
    exact ⟨fun _ => .inl hnone, fun _ => notifyPeer_eachToldOnce hfiled hsinks⟩

/-! ## A client with one transaction -/

/-- A connected client of the peer of this transaction, which is the only one. -/
def withTransaction : ClientState where
  client := { Client.create TransState.timedCtx.peer with
    connected := true, bufeventSet := {1}, bufEvent := some 1 }
  tc := (TransCenter.empty.recordTransCtx 0 TransState.timedCtx).2
  connectTimer := false
  removed := false
  adds := []
  told := []

def atEof : BevEvents := ⟨false, true, false, true⟩

def reconnecting (tvSec : ℤ) : ClientCenterCtx where
  msgCodec := ⟨1024, false, fun _ => 0⟩
  reconnectInterval := ⟨tvSec, 0⟩
  reconnectLimit := 100

theorem withTransaction_filed : withTransaction.tc.Filed :=
  TransState.run_filed (show LabelledRun.run TransState.step TransState.start
    [.record 0 TransState.timedCtx] = some _ from rfl)

theorem eventCallback_eachToldOnce_reconnecting :
    withTransaction.tc.EachToldOnce withTransaction.client.peer
      (withTransaction.eventCallbackTold (reconnecting 1) quietEnv 1 atEof 0).2 :=
  (eventCallback_eachToldOnce_iff withTransaction 1 atEof 0 withTransaction_filed rfl
    (by decide) (fun _ _ => List.not_mem_nil)).mpr (.inl (by decide))

theorem not_eachToldOnce_noReconnect :
    ¬withTransaction.tc.EachToldOnce withTransaction.client.peer
      (withTransaction.eventCallbackTold (reconnecting 0) quietEnv 1 atEof 0).2 := by
  intro h
  have hlive : withTransaction.tc.LiveWithSink withTransaction.client.peer 1 :=
    ⟨TransState.timedCtx, by decide +kernel, rfl, rfl⟩
  have hcount := h 1 hlive
  cases hcount

end ClientState

end CommonComponent
