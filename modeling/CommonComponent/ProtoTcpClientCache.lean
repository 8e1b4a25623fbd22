import CommonComponent.LabelledRun
import CommonComponent.ProtoTcpClientConnection
import CommonComponent.TransCenterRun
import Mathlib.Tactic

/-!
# The message cache of a client

A client that is not connected keeps what it is to send in a cache, under the
transaction id of the message, and hands the cache to the output buffer when a
connection comes up.  A run is made of the calls of `Send`, of the events of the
client's bufferevents and of whatever else happens to the transactions of the
`TransCenter`; what callbacks do are actions of their own behind the call.

Beside the program's state a run keeps which call of `Send` and which transaction
a cached message comes from, and `wire`: the messages that the output buffer has
accepted, with the connection that was up.
-/

namespace CommonComponent

/-- The calls that a run makes on the client have no callbacks of their own. -/
def CallEnv.quiet (now : ℤ) (evbufferAdd : ℕ → Bool) (setTimer : Bool) :
    CallEnv where
  now := now
  evbufferAdd := evbufferAdd
  setTimer := setTimer
  behind := fun _ _ => 0
  onRecv := fun _ _ _ => []
  onPeerEvent := fun _ _ => []

/-- Where a cached message comes from: the number of its `Send`, which of the
transactions recorded under its id it belongs to, and whether that has a sink. -/
structure CacheOrigin where
  send : ℕ
  trans : ℕ
  hasSink : Bool
deriving DecidableEq

structure WireMsg where
  transId : TransID
  send : ℕ
  conn : ℕ
  bufEvent : Option ℕ
  data : Bytes
deriving DecidableEq

def WireMsg.add (m : WireMsg) : EvbufferAdd := ⟨m.bufEvent, m.data, true⟩

/-- `recorded` counts the transactions recorded under an id, `sends` the calls of
`Send` and `conns` the connections that have come up; `left` holds the calls of
`Send` whose message `SendCacheMsg` tried in vain to hand over. -/
structure CacheRun where
  client : ClientState
  control : Control
  recorded : TransID → ℕ
  sends : ℕ
  conns : ℕ
  origin : TransID → CacheOrigin
  wire : List WireMsg
  left : List ℕ

inductive CacheAction
  | send (now : ℤ) (evbufferAdd : ℕ → Bool) (msgHead : MsgHead) (msgBody : Bytes)
      (asyncCtx : Option AsyncCtx)
  | event (evbufferAdd : ℕ → Bool) (setTimer : Bool) (bufEvent : ℕ)
      (events : BevEvents) (inputLen : ℕ)
  | connectTimer (bufEvent : Option ℕ)
  | trans (a : TransAction)

namespace ClientState

variable {ctx : ClientCenterCtx}

/-- `InnerSend` succeeds exactly when its last attempt was accepted. -/
theorem innerSend_accepted (env : CallEnv) (s : ClientState) (data : Bytes)
    (totalRetry : ℕ) :
    ∃ ok, (innerSend env s data totalRetry).2 = ok ∧
      (innerSend env s data totalRetry).1.adds.getLast? =
        some ⟨s.client.bufEvent, data, ok⟩ ∧
      (innerSend env s data totalRetry).1.adds.filter (·.ok) =
        s.adds.filter (·.ok) ++
          if ok then [⟨s.client.bufEvent, data, true⟩] else [] := by
  induction totalRetry generalizing s with
  | zero =>
      cases hok : env.evbufferAdd s.adds.length <;>
        simp [innerSend, evbufferAdd, hok]
  | succ totalRetry ih =>
      unfold innerSend
      cases hok : env.evbufferAdd s.adds.length with
      | true => simp [evbufferAdd, hok]
      | false =>
          have hadd : evbufferAdd env s data =
              ({ s with adds := s.adds ++ [⟨s.client.bufEvent, data, false⟩] },
                false) := by
            simp [evbufferAdd, hok]
          simp only [hadd, Bool.false_eq_true, if_false]
          simpa using ih { s with
            adds := s.adds ++ [⟨s.client.bufEvent, data, false⟩] }

/-- What the loop of `SendCacheMsg` over `ids` does to the cache and to the output
buffer of `bufEvent`; `kept` is what stays of the ids. -/
structure Flushes (bufEvent : Option ℕ) (before : ClientState)
    (ids : List TransID) (after : ClientState) (kept : List TransID) : Prop where
  outside : ∀ id ∉ ids,
    after.client.cacheMsgMap id = before.client.cacheMsgMap id
  subset : ∀ id, after.client.cacheMsgMap id = none ∨
    after.client.cacheMsgMap id = before.client.cacheMsgMap id
  kept : kept = ids.filter fun id => (after.client.cacheMsgMap id).isSome
  accepted : after.adds.filter (·.ok) = before.adds.filter (·.ok) ++
    (ids.filter fun id => (before.client.cacheMsgMap id).isSome &&
      (after.client.cacheMsgMap id).isNone).map fun id =>
        ⟨bufEvent, (before.client.cacheMsgMap id).elim [] (·.msgBody), true⟩

theorem Flushes.isSome {bufEvent : Option ℕ} {before after : ClientState}
    {ids kept : List TransID} (h : Flushes bufEvent before ids after kept)
    {id : TransID} (hsome : (after.client.cacheMsgMap id).isSome) :
    (before.client.cacheMsgMap id).isSome := by
  rcases h.subset id with hnone | hsame
  · simp [hnone] at hsome
  · exact hsame ▸ hsome

theorem sendCacheMsgs_flushes (env : CallEnv) (s : ClientState)
    {ids : List TransID} (hnodup : ids.Nodup) :
    Flushes s.client.bufEvent s ids (sendCacheMsgs env s ids).1
      (sendCacheMsgs env s ids).2 := by
  induction ids generalizing s with
  | nil => exact ⟨fun _ _ => rfl, fun _ => .inr rfl, rfl, by simp [sendCacheMsgs]⟩
  | cons transId later ih =>
      obtain ⟨hnot, hlater⟩ := List.nodup_cons.mp hnodup
      unfold sendCacheMsgs
      cases hcached : s.client.cacheMsgMap transId with
      | none =>
          have h := ih s hlater
          have hgone := h.outside transId hnot
          simp only
          refine ⟨fun id hid => h.outside id fun hmem =>
            hid (List.mem_cons_of_mem _ hmem), h.subset, ?_, ?_⟩
          · simp [h.kept, hgone, hcached]
          · simp [h.accepted, hcached]
      | some cacheMsg =>
          obtain ⟨ok, hsent, -, hadds⟩ := innerSend_accepted env s
            cacheMsg.msgBody cacheMsg.totalRetries.toNat
          obtain ⟨adds, hshape⟩ :=
            innerSend_adds env s cacheMsg.msgBody cacheMsg.totalRetries.toNat
          rw [hshape] at hadds
          simp only [hsent, hshape] at hadds ⊢
          cases ok with
          | true =>
              simp only [if_true] at hadds ⊢
              have h := ih { s with
                adds := adds
                client := { s.client with
                  cacheMsgMap :=
                    Function.update s.client.cacheMsgMap transId none } } hlater
              have hgone := h.outside transId hnot
              simp only [Function.update_self] at hgone
              constructor
              · intro id hid
                rw [List.mem_cons, not_or] at hid
                simpa [hid.1] using h.outside id hid.2
              · intro id
                by_cases heq : id = transId
                · exact .inl (heq ▸ hgone)
                · simpa [heq] using h.subset id
              · simp [h.kept, hgone]
              · have hne : ∀ id ∈ later, id ≠ transId := by
                  rintro id hid rfl
                  exact hnot hid
                rw [h.accepted, hadds]
                simp only [List.filter_cons, hcached, hgone, Option.isSome_some,
                  Option.isNone_none, Bool.and_self, if_true, List.map_cons,
                  Option.elim_some, List.append_assoc, List.singleton_append,
                  List.append_cancel_left_eq, List.cons.injEq, true_and]
                rw [List.filter_congr fun id hid => by
                  rw [Function.update_of_ne (hne id hid)]]
                apply List.map_congr_left
                intro id hid
                rw [Function.update_of_ne (hne id (List.mem_of_mem_filter hid))]
          | false =>
              simp only [Bool.false_eq_true, if_false] at hadds ⊢
              have h := ih { s with adds := adds } hlater
              have hstays := h.outside transId hnot
              simp only [hcached] at hstays
              refine ⟨fun id hid => h.outside id fun hmem =>
                hid (List.mem_cons_of_mem _ hmem), h.subset, ?_, ?_⟩
              · simp [h.kept, hstays]
              · simp [h.accepted, hadds, hstays]

variable {now : ℤ} {evbufferAdd : ℕ → Bool} {setTimer : Bool}

theorem notifyPeer_quiet (s : ClientState) (event : TransCenter.PeerEvent) :
    s.notifyPeer (.quiet now evbufferAdd setTimer) event = s := by
  have hwalk : (s.tc.notifyPeer s.client.peer fun _ => []).elim s.tc (·.tc) =
      s.tc := by
    cases hloop : s.tc.notifyPeer s.client.peer fun _ => [] with
    | none => rfl
    | some walk => exact TransCenter.peerLoop_quiet hloop
  exact congrArg (fun tc => { s with tc := tc }) hwalk

/-- A connection comes up: the cache is handed over, and nothing else happens to
the messages. -/
theorem setConnected_up (s : ClientState) (bufEvent : ℕ)
    (hdown : s.client.connected = false)
    (hnodup : s.client.cacheMsgTransIDList.Nodup) {s' : ClientState}
    (hs' : s.setConnected ctx (.quiet now evbufferAdd setTimer) true
      (some bufEvent) = s') :
    s'.client.connected = true ∧ s'.tc = s.tc ∧
      Flushes s'.client.bufEvent s s.client.cacheMsgTransIDList s'
        s'.client.cacheMsgTransIDList := by
  subst hs'
  simp only [setConnected, hdown, notifyPeer_quiet, Bool.true_eq_false, false_and,
    if_false, Bool.false_eq_true, if_true]
  set up : ClientState := stopConnectTimer { s with client := { s.client with
    reconnectFailedCount := 0, connected := true, bufEvent := some bufEvent } }
  obtain ⟨adds, map, list, hshape⟩ :=
    sendCacheMsg_shape (.quiet now evbufferAdd setTimer) up
  have h := sendCacheMsgs_flushes (.quiet now evbufferAdd setTimer) up hnodup
  have hbuf : (up.sendCacheMsg (.quiet now evbufferAdd setTimer)).client.bufEvent =
      up.client.bufEvent := by rw [hshape]
  refine ⟨by rw [hshape]; rfl, by rw [hshape]; rfl, h.outside, h.subset, h.kept, ?_⟩
  rw [hbuf]
  exact h.accepted

/-- The list of the cache has the ids of the map, each of them once. -/
structure CacheOk (s : ClientState) : Prop where
  nodup : s.client.cacheMsgTransIDList.Nodup
  mem : ∀ id, id ∈ s.client.cacheMsgTransIDList ↔
    (s.client.cacheMsgMap id).isSome

/-- Cached messages are given up, and nothing else changes. -/
structure Drops (s s' : ClientState) : Prop where
  tc : s'.tc = s.tc
  adds : s'.adds = s.adds
  connected : s'.client.connected = s.client.connected
  sublist : s'.client.cacheMsgTransIDList.Sublist s.client.cacheMsgTransIDList
  subset : ∀ id, s'.client.cacheMsgMap id = none ∨
    s'.client.cacheMsgMap id = s.client.cacheMsgMap id
  ok : s.CacheOk → s'.CacheOk

theorem Drops.isSome {s s' : ClientState} (h : Drops s s') {id : TransID}
    (hsome : (s'.client.cacheMsgMap id).isSome) :
    (s.client.cacheMsgMap id).isSome := by
  rcases h.subset id with hnone | hsame
  · simp [hnone] at hsome
  · exact hsame ▸ hsome

theorem Drops.refl (s : ClientState) : Drops s s :=
  ⟨rfl, rfl, rfl, List.Sublist.refl _, fun _ => .inr rfl, id⟩

theorem Drops.trans {s s' s'' : ClientState} (h : Drops s s') (h' : Drops s' s'') :
    Drops s s'' where
  tc := h'.tc.trans h.tc
  adds := h'.adds.trans h.adds
  connected := h'.connected.trans h.connected
  sublist := h'.sublist.trans h.sublist
  subset := by
    intro id
    rcases h'.subset id with hnone | hsame
    · exact .inl hnone
    · exact hsame ▸ h.subset id
  ok := fun hok => h'.ok (h.ok hok)

theorem onTimeout_drops (s : ClientState) (transId : TransID) :
    Drops s (s.onTimeout transId) := by
  unfold onTimeout
  cases hcached : s.client.cacheMsgMap transId with
  | none => exact .refl s
  | some cacheMsg =>
      refine ⟨rfl, rfl, rfl, List.erase_sublist, ?_, ?_⟩
      · intro id
        by_cases heq : id = transId
        · simp [heq]
        · simp [heq]
      · intro hok
        refine ⟨hok.nodup.erase _, fun id => ?_⟩
        rw [hok.nodup.mem_erase_iff, hok.mem]
        by_cases heq : id = transId
        · simp [heq]
        · simp [heq]

structure SameMessages (s s' : ClientState) : Prop where
  tc : s'.tc = s.tc
  map : s'.client.cacheMsgMap = s.client.cacheMsgMap
  list : s'.client.cacheMsgTransIDList = s.client.cacheMsgTransIDList
  adds : s'.adds = s.adds
  connected : s'.client.connected = true → s.client.connected = true

theorem startConnectTimer_sameMessages (ctx : ClientCenterCtx) (env : CallEnv)
    (s : ClientState) :
    SameMessages s (s.startConnectTimer ctx env) := by
  unfold startConnectTimer
  split_ifs <;> exact ⟨rfl, rfl, rfl, rfl, id⟩

theorem setConnected_down (ctx : ClientCenterCtx) (now : ℤ)
    (evbufferAdd : ℕ → Bool) (setTimer : Bool) (s : ClientState) :
    SameMessages s
      (s.setConnected ctx (.quiet now evbufferAdd setTimer) false none) := by
  unfold setConnected
  by_cases hremove : ctx.NoReconnect
  · rw [if_pos ⟨rfl, hremove⟩]
    exact ⟨rfl, rfl, rfl, rfl, id⟩
  · rw [if_neg fun h => hremove h.2]
    cases hconnected : s.client.connected with
    | false =>
        simp only [if_true, Bool.false_eq_true, if_false]
        split_ifs
        · exact ⟨rfl, rfl, rfl, rfl, fun h => hconnected ▸ h⟩
        · exact ⟨rfl, rfl, rfl, rfl, fun h => hconnected ▸ h⟩
    | true =>
        simp only [Bool.true_eq_false, Bool.false_eq_true, if_false,
          notifyPeer_quiet]
        have h := startConnectTimer_sameMessages ctx
          (.quiet now evbufferAdd setTimer) { s with
            client := { s.client with connected := false, bufEvent := none } }
        exact ⟨h.tc, h.map, h.list, h.adds, fun _ => hconnected⟩

/-- An event brings a connection up, or has nothing to do with the messages. -/
theorem eventCallback_cases (s : ClientState) (bufEvent : ℕ) (events : BevEvents)
    (inputLen : ℕ) (hnodup : s.client.cacheMsgTransIDList.Nodup)
    {s' : ClientState} (hs' : s.eventCallback ctx
      (.quiet now evbufferAdd setTimer) bufEvent events inputLen = s') :
    (s.client.connected = false ∧ s'.client.connected = true ∧ s'.tc = s.tc ∧
        Flushes s'.client.bufEvent s s.client.cacheMsgTransIDList s'
          s'.client.cacheMsgTransIDList) ∨
      SameMessages s s' := by
  unfold eventCallback at hs'
  split_ifs at hs' with hconnected hclosing
  · cases hdown : s.client.connected with
    | true =>
        right
        simp only [setConnected, hdown, Bool.true_eq_false, false_and, if_false,
          if_true] at hs'
        exact hs' ▸ ⟨rfl, rfl, rfl, rfl, fun _ => hdown⟩
    | false => exact .inl ⟨rfl, setConnected_up s bufEvent hdown hnodup hs'⟩
  · right
    have h := setConnected_down ctx now evbufferAdd setTimer
      { s with client := { s.client with
        bufeventSet := s.client.bufeventSet.erase bufEvent } }
    rw [hs'] at h
    exact ⟨h.tc, h.map, h.list, h.adds, h.connected⟩
  · exact .inr (hs' ▸ ⟨rfl, rfl, rfl, rfl, id⟩)

end ClientState

/-- The cached messages that a call has taken out of the cache, in its order. -/
def takenFrom (before after : Client) : List TransID :=
  before.cacheMsgTransIDList.filter fun id =>
    (before.cacheMsgMap id).isSome && (after.cacheMsgMap id).isNone

namespace CacheRun

def start (peer : Peer) (bufEvent : ℕ) : CacheRun where
  client := .activate peer .empty bufEvent
  control := .idle
  recorded := fun _ => 0
  sends := 0
  conns := 0
  origin := fun _ => ⟨0, 0, false⟩
  wire := []
  left := []

def countTrans (s : CacheRun) (transId : TransID) : TransID → ℕ :=
  if transId = invalidTransID then s.recorded
  else Function.update s.recorded transId (s.recorded transId + 1)

/-- The last attempt to hand over `transId`, if the buffer accepted it. -/
def acceptedLast (s : CacheRun) (transId : TransID) (client : ClientState) :
    List WireMsg :=
  match client.adds.getLast? with
  | some ⟨bufEvent, data, true⟩ => [⟨transId, s.sends, s.conns, bufEvent, data⟩]
  | _ => []

def send (ctx : ClientCenterCtx) (s : CacheRun) (now : ℤ)
    (evbufferAdd : ℕ → Bool) (msgHead : MsgHead) (msgBody : Bytes)
    (asyncCtx : Option AsyncCtx) : CacheRun :=
  let (transId, client) := s.client.send ctx (.quiet now evbufferAdd true) msgHead
    msgBody asyncCtx
  let recorded := s.countTrans
    (s.client.tc.recordTransCtx now (s.client.sendCtx msgHead asyncCtx)).1
  let s' := { s with
    client := client, recorded := recorded, sends := s.sends + 1 }
  if transId = invalidTransID then s'
  else if s.client.client.connected then
    { s' with wire := s.wire ++ s.acceptedLast transId client }
  else
    { s' with
      origin := Function.update s.origin transId
        ⟨s.sends, recorded transId, (asyncCtx.bind (·.sink)).isSome⟩ }

def flushed (s : CacheRun) (client : ClientState) : CacheRun :=
  { s with
    client := client
    conns := s.conns + 1
    wire := s.wire ++ (takenFrom s.client.client client.client).map fun id =>
      ⟨id, (s.origin id).send, s.conns + 1, client.client.bufEvent,
        (s.client.client.cacheMsgMap id).elim [] (·.msgBody)⟩
    left := s.left ++
      client.client.cacheMsgTransIDList.map fun id => (s.origin id).send }

def event (ctx : ClientCenterCtx) (s : CacheRun) (evbufferAdd : ℕ → Bool)
    (setTimer : Bool) (bufEvent : ℕ) (events : BevEvents) (inputLen : ℕ) :
    CacheRun :=
  let client := s.client.eventCallback ctx (.quiet 0 evbufferAdd setTimer) bufEvent
    events inputLen
  if !s.client.client.connected && client.client.connected then s.flushed client
  else { s with client := client }

/-- `TransCenter` tells its sinks of a timeout; `self` is the client. -/
def tellSelf (self : ℕ) (client : ClientState) (log : List TransNote) :
    ClientState :=
  log.foldr (fun note client =>
    match note with
    | .centerOnTimeout sink transId =>
        if sink = self then client.onTimeout transId else client
    | _ => client) client

def countRecord (s : CacheRun) : TransAction → TransID → ℕ
  | .record now ctx => s.countTrans (s.client.tc.recordTransCtx now ctx).1
  | _ => s.recorded

def trans (self : ℕ) (s : CacheRun) (a : TransAction) : Option CacheRun :=
  (TransState.step ⟨s.client.tc, s.control, []⟩ a).map fun t =>
    { s with
      client := tellSelf self { s.client with tc := t.tc } t.log
      control := t.control
      recorded := s.countRecord a }

def step (ctx : ClientCenterCtx) (self : ℕ) (s : CacheRun) (a : CacheAction) :
    Option CacheRun :=
  if s.client.removed then none
  else
    match a with
    | .send now evbufferAdd msgHead msgBody asyncCtx =>
        some (s.send ctx now evbufferAdd msgHead msgBody asyncCtx)
    | .event evbufferAdd setTimer bufEvent events inputLen =>
        if s.control = .idle then
          some (s.event ctx evbufferAdd setTimer bufEvent events inputLen)
        else none
    | .connectTimer bufEvent =>
        if s.control = .idle then
          some { s with client := s.client.onTimer bufEvent }
        else none
    | .trans a => s.trans self a

/-- What `Send` comes to behind `RecordTransCtx`, of which `transId` and `tc` are
the results. -/
inductive Sends (s : CacheRun) (transId : TransID) (tc : TransCenter)
    (hasSink : Bool) : CacheRun → Prop
  | refused (hinvalid : transId = invalidTransID) :
      Sends s transId tc hasSink
        { s with client := { s.client with tc := tc }, sends := s.sends + 1 }
  | direct {adds msgs} (hvalid : transId ≠ invalidTransID)
      (hconnected : s.client.client.connected = true)
      (hmsgs : ∀ m ∈ msgs, m.send = s.sends ∧ m.conn = s.conns)
      (hone : msgs.length ≤ 1)
      (hadds : adds.filter (·.ok) =
        s.client.adds.filter (·.ok) ++ msgs.map WireMsg.add) :
      Sends s transId tc hasSink { s with
        client := { s.client with tc := tc, adds := adds }
        recorded := s.countTrans transId
        sends := s.sends + 1
        wire := s.wire ++ msgs }
  | cached {cacheMsg} (hvalid : transId ≠ invalidTransID)
      (hdown : s.client.client.connected = false)
      (hfree : s.client.client.cacheMsgMap transId = none) :
      Sends s transId tc hasSink { s with
        client := { s.client with
          tc := tc
          client := { s.client.client with
            cacheMsgMap := Function.update s.client.client.cacheMsgMap transId
              (some cacheMsg)
            cacheMsgTransIDList :=
              s.client.client.cacheMsgTransIDList ++ [transId] } }
        recorded := s.countTrans transId
        sends := s.sends + 1
        origin := Function.update s.origin transId
          ⟨s.sends, s.countTrans transId transId, hasSink⟩ }
  | clash (hvalid : transId ≠ invalidTransID)
      (hdown : s.client.client.connected = false)
      (hcached : (s.client.client.cacheMsgMap transId).isSome) :
      Sends s transId tc hasSink { s with
        client := { s.client with tc := tc.cancelTrans transId }
        recorded := s.countTrans transId
        sends := s.sends + 1 }

variable {ctx : ClientCenterCtx} {self : ℕ} {s : CacheRun}

theorem tellSelf_drops (self : ℕ) (client : ClientState) (log : List TransNote) :
    client.Drops (tellSelf self client log) := by
  induction log with
  | nil => exact .refl client
  | cons note log ih =>
      have hlater : (tellSelf self client log).Drops
          (tellSelf self client (note :: log)) := by
        cases note with
        | centerOnTimeout sink transId =>
            by_cases hself : sink = self
            · simp only [tellSelf, List.foldr_cons, if_pos hself]
              exact ClientState.onTimeout_drops _ transId
            · simp only [tellSelf, List.foldr_cons, if_neg hself]
              exact .refl _
        | _ => exact .refl _
      exact ih.trans hlater

theorem acceptedLast_of_getLast {client : ClientState} {transId : TransID}
    {bufEvent : Option ℕ} {data : Bytes} {ok : Bool}
    (hlast : client.adds.getLast? = some ⟨bufEvent, data, ok⟩) :
    s.acceptedLast transId client =
      if ok then [⟨transId, s.sends, s.conns, bufEvent, data⟩] else [] := by
  unfold acceptedLast
  rw [hlast]
  cases ok <;> rfl

theorem send_sends {now : ℤ} {evbufferAdd : ℕ → Bool} {msgHead : MsgHead}
    {msgBody : Bytes} {asyncCtx : Option AsyncCtx} {transId : TransID}
    {tc : TransCenter} (hrecord : s.client.tc.recordTransCtx now
      (s.client.sendCtx msgHead asyncCtx) = (transId, tc)) :
    Sends s transId tc (asyncCtx.bind (·.sink)).isSome
      (s.send ctx now evbufferAdd msgHead msgBody asyncCtx) := by
  unfold send ClientState.send
  simp only [CallEnv.quiet, hrecord]
  by_cases hvalid : transId = invalidTransID
  · simp only [if_pos hvalid, countTrans]
    exact .refused hvalid
  · simp only [if_neg hvalid]
    cases hconnected : s.client.client.connected with
    | true =>
        simp only [if_true, if_neg hvalid]
        generalize hdata : ctx.msgCodec.encodeMsg _ msgBody = data
        generalize hretries : (asyncCtx.elim 0 (·.totalRetries)).toNat = totalRetry
        obtain ⟨ok, -, hlast, hadds⟩ := ClientState.innerSend_accepted
          (.quiet now evbufferAdd true) { s.client with tc := tc } data
            totalRetry
        obtain ⟨adds, hshape⟩ := ClientState.innerSend_adds
          (.quiet now evbufferAdd true) { s.client with tc := tc } data totalRetry
        rw [hshape] at hlast hadds
        simp only [CallEnv.quiet] at hshape
        rw [hshape, acceptedLast_of_getLast hlast]
        refine .direct hvalid hconnected ?_ ?_ ?_
        · cases ok <;> simp
        · cases ok <;> simp
        · rw [hadds]
          cases ok <;> simp [WireMsg.add]
    | false =>
        simp only [Bool.false_eq_true, if_false, ClientState.addCacheMsg]
        cases hcached : s.client.client.cacheMsgMap transId with
        | none =>
            simp only [if_neg hvalid]
            exact .cached hvalid hconnected hcached
        | some cacheMsg =>
            simp only [if_true]
            exact .clash hvalid hconnected (by simp [hcached])

/-- What the steps come to. -/
inductive Steps (self : ℕ) (s : CacheRun) : CacheAction → CacheRun → Prop
  | send {now evbufferAdd msgHead msgBody asyncCtx transId tc s'}
      (hrecord : s.client.tc.recordTransCtx now
        (s.client.sendCtx msgHead asyncCtx) = (transId, tc))
      (hsends : Sends s transId tc (asyncCtx.bind (·.sink)).isSome s') :
      Steps self s (.send now evbufferAdd msgHead msgBody asyncCtx) s'
  | up {evbufferAdd setTimer bufEvent events inputLen client}
      (hdown : s.client.client.connected = false)
      (hup : client.client.connected = true) (htc : client.tc = s.client.tc)
      (hflush : ClientState.Flushes client.client.bufEvent s.client
        s.client.client.cacheMsgTransIDList client
          client.client.cacheMsgTransIDList) :
      Steps self s (.event evbufferAdd setTimer bufEvent events inputLen)
        (s.flushed client)
  | same {a client} (hsame : s.client.SameMessages client) :
      Steps self s a { s with client := client }
  | trans {a t}
      (hstep : TransState.step ⟨s.client.tc, s.control, []⟩ a = some t) :
      Steps self s (.trans a) { s with
        client := tellSelf self { s.client with tc := t.tc } t.log
        control := t.control
        recorded := s.countRecord a }

/-- **Every step is one of these.** -/
theorem step_steps {s' : CacheRun} {a : CacheAction}
    (hnodup : s.client.client.cacheMsgTransIDList.Nodup)
    (hstep : step ctx self s a = some s') : Steps self s a s' := by
  unfold step at hstep
  cases hremoved : s.client.removed with
  | true => simp [hremoved] at hstep
  | false =>
      rw [if_neg (by simp [hremoved])] at hstep
      cases a with
      | send now evbufferAdd msgHead msgBody asyncCtx =>
          cases hstep
          exact .send rfl (send_sends rfl)
      | event evbufferAdd setTimer bufEvent events inputLen =>
          obtain ⟨-, hstep⟩ := Option.ite_none_right_eq_some.mp hstep
          cases hstep
          unfold event
          generalize hclient : s.client.eventCallback ctx
            (.quiet 0 evbufferAdd setTimer) bufEvent events inputLen = client
          rcases ClientState.eventCallback_cases s.client bufEvent events inputLen
            hnodup hclient with ⟨hdown, hup, htc, hflush⟩ | hsame
          · rw [if_pos (by simp [hdown, hup])]
            exact .up hdown hup htc hflush
          · rw [if_neg]
            · exact .same hsame
            · intro h
              rw [Bool.and_eq_true, Bool.not_eq_true'] at h
              exact absurd (hsame.connected h.2) (by simp [h.1])
      | connectTimer bufEvent =>
          obtain ⟨-, hstep⟩ := Option.ite_none_right_eq_some.mp hstep
          cases hstep
          refine .same ?_
          cases bufEvent <;> exact ⟨rfl, rfl, rfl, rfl, id⟩
      | trans a =>
          obtain ⟨t, ht, hstep⟩ := Option.map_eq_some_iff.mp hstep
          cases hstep
          exact .trans ht

theorem Steps.cacheOk {s' : CacheRun} {a : CacheAction} (h : Steps self s a s')
    (hok : s.client.CacheOk) : s'.client.CacheOk := by
  cases h with
  | send hrecord hsends =>
      cases hsends with
      | refused => exact ⟨hok.nodup, hok.mem⟩
      | direct => exact ⟨hok.nodup, hok.mem⟩
      | clash => exact ⟨hok.nodup, hok.mem⟩
      | cached hvalid hdown hfree =>
          rename_i transId tc cacheMsg
          have hnot : transId ∉ s.client.client.cacheMsgTransIDList := by
            rw [hok.mem, hfree]
            simp
          refine ⟨?_, fun id => ?_⟩
          · exact List.nodup_append.mpr ⟨hok.nodup, List.nodup_singleton _,
              fun id hid id' hid' heq =>
                hnot (List.mem_singleton.mp hid' ▸ heq ▸ hid)⟩
          · simp only [List.mem_append, List.mem_singleton, hok.mem,
              Function.update_apply]
            by_cases heq : id = transId
            · simp [heq]
            · simp [heq]
  | up hdown hup htc hflush =>
      refine ⟨?_, fun id => ?_⟩
      · rw [flushed, hflush.kept]
        exact hok.nodup.filter _
      · rw [flushed, hflush.kept, List.mem_filter, hok.mem, and_iff_right_iff_imp]
        exact hflush.isSome
  | same hsame =>
      refine ⟨?_, fun id => ?_⟩
      · rw [hsame.list]
        exact hok.nodup
      · rw [hsame.list, hsame.map]
        exact hok.mem id
  | trans hstep =>
      exact (tellSelf_drops self _ _).ok ⟨hok.nodup, hok.mem⟩

theorem cacheOk_start (peer : Peer) (bufEvent : ℕ) :
    (start peer bufEvent).client.CacheOk :=
  ⟨List.nodup_nil, fun id => by
    simp [start, ClientState.activate, ClientState.connect, Client.create]⟩

/-- The output buffer has accepted the messages of the wire. -/
def BufferOk (s : CacheRun) : Prop :=
  s.client.adds.filter (·.ok) = s.wire.map WireMsg.add

theorem Steps.bufferOk {s' : CacheRun} {a : CacheAction} (h : Steps self s a s')
    (hbuffer : s.BufferOk) : s'.BufferOk := by
  unfold BufferOk at hbuffer ⊢
  cases h with
  | send hrecord hsends =>
      cases hsends with
      | refused => exact hbuffer
      | clash => exact hbuffer
      | cached => exact hbuffer
      | direct hvalid hconnected hmsgs hone hadds =>
          rw [hadds, hbuffer, List.map_append]
  | up hdown hup htc hflush =>
      rw [flushed, hflush.accepted, hbuffer, List.map_append, List.map_map]
      rfl
  | same hsame =>
      rw [hsame.adds]
      exact hbuffer
  | @trans a t hstep =>
      rw [(tellSelf_drops self { s.client with tc := t.tc } t.log).adds]
      exact hbuffer

theorem BufferOk.start (peer : Peer) (bufEvent : ℕ) :
    (CacheRun.start peer bufEvent).BufferOk := rfl

end CacheRun

end CommonComponent
