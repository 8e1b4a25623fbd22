import CommonComponent.ProtoTcpClientRemoval

/-!
# Calls at once and calls in steps

`ClientState` runs a callback of the client in one go, with what the sinks do to the
table as an input; `ClientLife` stops at each call of a sink.  The two agree: a callback
run at once is one of the ways it goes in steps, one in which no sink closes the client.
The loop of `ReadCallback` therefore also ends in steps.
-/

namespace CommonComponent

open LabelledRun

namespace ClientLife

variable {ctx : ClientCenterCtx} {env : CallEnv} {s : ClientLife}

theorem returnsLast_of_there (hthere : s.state.removed = false) (a : LifeAction) :
    s.ReturnsLast a := by
  cases a with
  | ret env =>
      intro hremoved
      rw [hthere] at hremoved
      cases hremoved
  | _ => trivial

variable (ctx) in
/-- The sink that has been called changes the table. -/
theorem reaches_trans (hcontrol : s.control ≠ .reading) (hthere : s.state.removed = false)
    (ops : List TransCenter.TransOp) :
    Reaches (step ctx) ReturnsLast s
      (s.become { s.state with tc := s.state.tc.applyOps ops } s.control) := by
  induction ops generalizing s with
  | nil => exact .refl s
  | cons op ops ih =>
      have hstep : s.step ctx (.trans op) =
          some (s.become { s.state with tc := s.state.tc.applyOp op } s.control) :=
        if_neg hcontrol
      refine .head (returnsLast_of_there hthere _) hstep ?_
      exact ih (s := s.become { s.state with tc := s.state.tc.applyOp op } s.control)
        hcontrol hthere

variable (ctx) in
theorem reaches_ret (hsink : s.control.InSink) (hthere : s.state.removed = false)
    (env : CallEnv) : Reaches (step ctx) ReturnsLast s (s.ret ctx env) := by
  have hstep : s.step ctx (.ret env) = some (s.ret ctx env) := if_pos hsink
  exact .head (returnsLast_of_there hthere _) hstep (.refl _)

/-- A sink is told, changes the table and returns. -/
theorem reaches_told (hthere : s.state.removed = false) (pass : ℕ) (note : ReadNote)
    {control : ClientControl} (hsink : control.InSink) :
    Reaches (step ctx) ReturnsLast (s.tell note control)
      ((s.become (s.state.tell env pass note) control).ret ctx env) := by
  have hcontrol : (s.tell note control).control ≠ .reading := by
    intro hreading
    have heq : control = .reading := hreading
    rw [heq] at hsink
    exact hsink
  have hops := reaches_trans ctx hcontrol hthere (env.onRecv pass s.state.tc note)
  have hret := reaches_ret ctx
    (s := s.become (s.state.tell env pass note) control) hsink hthere env
  exact hops.trans hret

theorem neverUsed_of_reaches {t : ClientLife} (h : s.Inv)
    (hreaches : Reaches (step ctx) ReturnsLast s t) : t.NeverUsed :=
  (hreaches.inv (fun _ _ _ hs ha hstep => hs.step ha hstep) h).neverUsed

/-! ## The read loop -/

theorem addNfySink_sorted {u : ClientState} (h : u.client.nfySinkSet.Pairwise (· < ·))
    (sink : ℕ) : (u.addNfySink sink).client.nfySinkSet.Pairwise (· < ·) := by
  unfold ClientState.addNfySink
  split_ifs with hmem
  · exact h
  · have hle : (u.client.nfySinkSet.orderedInsert (· ≤ ·) sink).Pairwise (· ≤ ·) :=
      (h.imp le_of_lt).orderedInsert sink _
    have hnodup : (u.client.nfySinkSet.orderedInsert (· ≤ ·) sink).Nodup := by
      rw [(List.perm_orderedInsert (· ≤ ·) sink _).nodup_iff, List.nodup_cons]
      exact ⟨hmem, h.imp ne_of_lt⟩
    exact (hle.and hnodup).imp fun hboth => lt_of_le_of_ne hboth.1 hboth.2

theorem removeNfySink_sorted {u : ClientState} (h : u.client.nfySinkSet.Pairwise (· < ·))
    (sink : ℕ) : (u.removeNfySink sink).client.nfySinkSet.Pairwise (· < ·) :=
  h.sublist List.erase_sublist

theorem find?_later {sinks later : List ℕ} {sink : ℕ}
    (hsorted : (sinks ++ sink :: later).Pairwise (· < ·)) :
    ((sinks ++ sink :: later).find? fun other => sink < other) = later.head? := by
  rw [List.pairwise_append, List.pairwise_cons] at hsorted
  obtain ⟨-, ⟨hlater, -⟩, hbefore⟩ := hsorted
  have hsinks : (sinks.find? fun other => decide (sink < other)) = none := by
    rw [List.find?_eq_none]
    intro other hother
    have hlt := hbefore other hother sink List.mem_cons_self
    simpa using hlt.le
  rw [List.find?_append, hsinks, Option.none_or, List.find?_cons_of_neg (by simp)]
  cases later with
  | nil => rfl
  | cons next later =>
      have hlt : sink < next := hlater next List.mem_cons_self
      rw [List.find?_cons_of_pos (by simpa using hlt), List.head?_cons]

theorem ret_onRecvRsp {transId : TransID} {left : Bytes}
    (hcontrol : s.control = .onRecvRsp transId left) (hthere : s.state.removed = false) :
    s.ret ctx env = (s.become (s.state.cancelTrans transId) .idle).afterMsg left := by
  simp only [ClientLife.ret, hcontrol, use_of_there hthere]

theorem ret_onRecvNfy {sinks later : List ℕ} {sink : ℕ} {msgHead : MsgHead}
    {msgBody left : Bytes} (hcontrol : s.control = .onRecvNfy sink msgHead msgBody left)
    (hthere : s.state.removed = false)
    (hset : s.state.client.nfySinkSet = sinks ++ sink :: later)
    (hsorted : s.state.client.nfySinkSet.Pairwise (· < ·)) :
    s.ret ctx env = s.notify later.head? msgHead msgBody left := by
  rw [hset] at hsorted
  simp only [ClientLife.ret, hcontrol]
  rw [use_of_there hthere, hset, find?_later hsorted]

theorem reaches_notify (pass : ℕ) (msgHead : MsgHead) (msgBody left : Bytes)
    {sinks later : List ℕ} (hthere : s.state.removed = false)
    (hset : s.state.client.nfySinkSet = sinks ++ later)
    (hsorted : s.state.client.nfySinkSet.Pairwise (· < ·)) :
    Reaches (step ctx) ReturnsLast (s.notify later.head? msgHead msgBody left)
      ((s.become (later.foldl (fun t sink => t.tell env pass
        (.onRecvNfy sink t.client.peer msgHead msgBody)) s.state) .idle).afterMsg left) := by
  induction later generalizing s sinks with
  | nil => exact .refl _
  | cons sink later ih =>
      let note : ReadNote := .onRecvNfy sink s.state.client.peer msgHead msgBody
      let told := s.become (s.state.tell env pass note)
        (.onRecvNfy sink msgHead msgBody left)
      have hret : told.ret ctx env = told.notify later.head? msgHead msgBody left :=
        ret_onRecvNfy rfl hthere hset hsorted
      have htold : Reaches (step ctx) ReturnsLast
          (s.tell note (.onRecvNfy sink msgHead msgBody left)) (told.ret ctx env) :=
        reaches_told hthere pass note trivial
      have hset' : told.state.client.nfySinkSet = (sinks ++ [sink]) ++ later := by
        rw [List.append_assoc, List.singleton_append]
        exact hset
      rw [hret] at htold
      exact htold.trans (ih (s := told) hthere hset' hsorted)

theorem reaches_handleMsg {pass : ℕ} {msgHead : MsgHead} {msgBody : Bytes}
    {t : ClientState} (left : Bytes) (hthere : s.state.removed = false)
    (hsorted : s.state.client.nfySinkSet.Pairwise (· < ·))
    (hhandle : s.state.handleMsg env pass msgHead msgBody = some t) :
    Reaches (step ctx) ReturnsLast (s.handleMsg msgHead msgBody left)
      ((s.become t .idle).afterMsg left) := by
  unfold ClientState.handleMsg at hhandle
  unfold ClientLife.handleMsg
  split at hhandle
  next hrsp =>
    rw [if_pos hrsp]
    simp only at hhandle ⊢
    cases hctx : s.state.tc.getTransCtx msgHead.passback.toInt with
    | none =>
        rw [hctx] at hhandle
        cases hhandle
    | some transCtx =>
        rw [hctx] at hhandle
        obtain rfl := Option.some.inj hhandle
        simp only
        cases hsink : transCtx.sink with
        | none => exact .refl _
        | some sink =>
            let note : ReadNote := .onRecvRsp msgHead.passback.toInt s.state.client.peer
              transCtx { msgHead with passback := transCtx.passback } msgBody
            let told := s.become (s.state.tell env pass note)
              (.onRecvRsp msgHead.passback.toInt left)
            have hret : told.ret ctx env = (told.become
                (told.state.cancelTrans msgHead.passback.toInt) .idle).afterMsg left :=
              ret_onRecvRsp rfl hthere
            have htold : Reaches (step ctx) ReturnsLast
                (s.tell note (.onRecvRsp msgHead.passback.toInt left)) (told.ret ctx env) :=
              reaches_told hthere pass note trivial
            rw [hret] at htold
            exact htold
  next hnfy =>
    rw [if_neg hnfy]
    obtain rfl := Option.some.inj hhandle
    have hset : s.state.client.nfySinkSet = [] ++ s.state.client.nfySinkSet := rfl
    exact reaches_notify pass msgHead msgBody left hthere hset hsorted

theorem handleMsg_none {pass : ℕ} {msgHead : MsgHead} {msgBody : Bytes} (left : Bytes)
    (hhandle : s.state.handleMsg env pass msgHead msgBody = none) :
    s.handleMsg msgHead msgBody left = s.become s.state .idle := by
  unfold ClientState.handleMsg at hhandle
  unfold ClientLife.handleMsg
  split at hhandle
  next hrsp =>
    rw [if_pos hrsp]
    simp only at hhandle ⊢
    cases hctx : s.state.tc.getTransCtx msgHead.passback.toInt with
    | none => rfl
    | some transCtx =>
        rw [hctx] at hhandle
        cases hhandle
  next => cases hhandle

theorem reaches_proceed {u t : ClientLife} (hreading : s.control = .reading)
    (hthere : s.state.removed = false) {pass : ℕ} (hpass : s.readPass ctx env pass = u)
    (h : Reaches (step ctx) ReturnsLast u t) : Reaches (step ctx) ReturnsLast s t := by
  have hstep : s.step ctx (.proceed env pass) = some u := by
    simp only [ClientLife.step, hreading, if_true, use_of_there hthere, hpass]
  exact .head (returnsLast_of_there hthere _) hstep h

theorem readPass_of_whole (env : CallEnv) (pass : ℕ) {totalMsg rest : Bytes}
    {msgHead : MsgHead} {msgBody : Bytes}
    (hhead : ctx.msgCodec.headOf s.state.client.recvedData = .whole totalMsg rest)
    (hdecode : ctx.msgCodec.decodeMsg totalMsg = .ok (msgHead, msgBody)) :
    s.readPass ctx env pass = s.handleMsg msgHead msgBody rest := by
  obtain ⟨hwhole, hmsg, hrest⟩ := MsgCodec.isWholeMsg_of_whole hhead (env.behind pass)
  simp [ClientLife.readPass, hwhole, ← hmsg, ← hrest, hdecode]

/-- The loop ends in steps where it ends at once. -/
theorem reaches_of_reads {pass : ℕ} {u t : ClientState}
    (hreads : ClientState.Reads ctx env pass u t) (hthere : u.removed = false)
    (hsorted : u.client.nfySinkSet.Pairwise (· < ·)) (s : ClientLife) :
    Reaches (step ctx) ReturnsLast (s.become u .reading) (s.become t .idle) := by
  induction hreads with
  | @waiting pass u hhead hread =>
      obtain ⟨len, hwhole⟩ := MsgCodec.isWholeMsg_of_waiting hhead hread
      have hpass : (s.become u .reading).readPass ctx env pass = s.become u .idle := by
        simp [ClientLife.readPass, ClientLife.become, hwhole]
      exact reaches_proceed rfl hthere hpass (.refl _)
  | @refused pass u hhead =>
      obtain ⟨len, hwhole⟩ := MsgCodec.isWholeMsg_of_refused hhead
      have hpass : (s.become u .reading).readPass ctx env pass = s.become
          ((u.setRecvedData []).send ctx env (.ofMsgId msgIdInvalidMsgLen) [] none).2
            .idle := by
        have hrefused : msgIdInvalidMsgLen ≠ msgIdNotAWholeMsg := by decide
        simp [ClientLife.readPass, ClientLife.become, hwhole, hrefused]
      exact reaches_proceed rfl hthere hpass (.refl _)
  | @mismatch pass u totalMsg rest errMsgId hhead hdecode =>
      obtain ⟨hwhole, hmsg, -⟩ := MsgCodec.isWholeMsg_of_whole hhead (env.behind pass)
      have hpass : (s.become u .reading).readPass ctx env pass = s.become
          (u.send ctx env (.ofMsgId errMsgId) [] none).2 .idle := by
        simp [ClientLife.readPass, ClientLife.become, hwhole, ← hmsg, hdecode]
      exact reaches_proceed rfl hthere hpass (.refl _)
  | @unknown pass u totalMsg rest msgHead msgBody hhead hdecode hhandle =>
      have hpass : (s.become u .reading).readPass ctx env pass = s.become u .idle :=
        (readPass_of_whole env pass hhead hdecode).trans (handleMsg_none rest hhandle)
      exact reaches_proceed rfl hthere hpass (.refl _)
  | @last pass u u' totalMsg msgHead msgBody hhead hdecode hhandle =>
      exact reaches_proceed rfl hthere (readPass_of_whole env pass hhead hdecode)
        (reaches_handleMsg [] hthere hsorted hhandle)
  | @next pass u u' t totalMsg rest msgHead msgBody hhead hrest hdecode hhandle hlater ih =>
      have hpass := reaches_proceed rfl hthere (readPass_of_whole env pass hhead hdecode)
        (reaches_handleMsg (s := s.become u .reading) rest hthere hsorted hhandle)
      have hmore : ((s.become u .reading).become u' .idle).afterMsg rest =
          s.become (u'.setRecvedData rest) .reading := by
        simp only [ClientLife.afterMsg, if_neg hrest]
        rfl
      rw [hmore] at hpass
      obtain ⟨tc, notes, rfl⟩ := ClientState.handleMsg_shape hhandle
      exact hpass.trans (ih hthere hsorted)

/-- **`ReadCallback` in steps.**  It ends, in the state of the call at once. -/
theorem readCallback_reaches (env : CallEnv) {bufEvent : ℕ} (chunk : Bytes)
    (hidle : s.control = .idle) (hthere : s.state.removed = false)
    (hlive : bufEvent ∈ s.live)
    (hsorted : s.state.client.nfySinkSet.Pairwise (· < ·)) :
    ∃ t, s.state.readCallback ctx env chunk = some t ∧
      Reaches (step ctx) ReturnsLast s (s.become t .idle) := by
  have hstep : s.step ctx (.read bufEvent chunk) = some (s.readCallback chunk) := by
    simp only [ClientLife.step, hidle, hlive, and_self, if_true, use_of_there hthere]
  obtain ⟨t, hcall, hreads⟩ := ClientState.readCallback_reads ctx env s.state chunk
  refine ⟨t, hcall, .head (returnsLast_of_there hthere _) hstep ?_⟩
  rcases hreads with ⟨hchunk, rfl⟩ | ⟨hchunk, hreads⟩
  · have hsame : s.readCallback chunk = s.become s.state .idle := by
      rw [readCallback, if_pos hchunk, ← hidle]
      rfl
    rw [hsame]
    exact .refl _
  · rw [readCallback, if_neg hchunk]
    exact reaches_of_reads hreads hthere hsorted s

/-! ## `SetConnected` -/

theorem nextTold_eq {tc : TransCenter} (h : tc.Filed) (peer : Peer)
    (last : Option TransID) : tc.nextTold peer last = tc.nextTransID peer last := by
  have hsame : ((tc.peerTransIDMap peer).filter fun id =>
      (∀ l ∈ last, l < id) ∧ ((tc.transHashMap id).bind (·.sink)).isSome) =
        (tc.peerTransIDMap peer).filter fun id => ∀ l ∈ last, l < id := by
    apply Finset.filter_congr
    intro id hid
    obtain ⟨⟨ctx, hctx, -, hsink⟩, -⟩ := h.of_mem hid
    rw [hctx, Option.bind_some]
    exact and_iff_left hsink
  unfold TransCenter.nextTold TransCenter.nextTransID
  simp only [hsame]

theorem peerCallback_tc (peer : Peer) (transId : TransID) (tc : TransCenter)
    (ops : List TransCenter.TransOp) :
    (TransCenter.peerCallback peer transId tc ops).1 = tc.applyOps ops := by
  induction ops generalizing tc with
  | nil => rfl
  | cons op ops ih => exact ih (tc.applyOp op)

theorem applyOps_filed {tc : TransCenter} (h : tc.Filed)
    (ops : List TransCenter.TransOp) : (tc.applyOps ops).Filed := by
  induction ops generalizing tc with
  | nil => exact h
  | cons op ops ih => exact ih (h.applyOp op)

variable (ctx) in
/-- The walk ends in steps where it ends at once. -/
theorem reaches_walk {event : TransCenter.PeerEvent} {fuel : ℕ} {last : Option TransID}
    {walk : TransCenter.PeerWalk} (hthere : s.state.removed = false)
    (hfiled : s.state.tc.Filed)
    (hloop : TransCenter.peerLoop s.state.client.peer (env.onPeerEvent event) fuel
      s.state.tc (s.state.tc.nextTransID s.state.client.peer last) = some walk)
    (hkept : walk.erased = false) :
    Reaches (step ctx) ReturnsLast (s.walk ctx env event last)
      ((s.become { s.state with tc := walk.tc } .idle).afterWalk ctx env event) := by
  induction fuel generalizing s last walk with
  | zero => cases hloop
  | succ fuel ih =>
      unfold ClientLife.walk
      rw [nextTold_eq hfiled]
      cases hnext : s.state.tc.nextTransID s.state.client.peer last with
      | none =>
          rw [hnext] at hloop
          cases hloop
          exact .refl _
      | some transId =>
          rw [hnext] at hloop
          obtain ⟨hmem, -, -⟩ := TransCenter.nextTransID_some hnext
          obtain ⟨⟨transCtx, hctx, -, hsink⟩, -⟩ := hfiled.of_mem hmem
          obtain ⟨sink, hsome⟩ := Option.isSome_iff_exists.mp hsink
          simp only [TransCenter.peerLoop, hctx, Option.bind_some, hsome,
            peerCallback_tc] at hloop
          split at hloop
          next =>
            obtain ⟨later, hlater, rfl⟩ := Option.map_eq_some_iff.mp hloop
            let told := s.become s.state (.onPeer event transId)
            let called := told.become { s.state with
              tc := s.state.tc.applyOps (env.onPeerEvent event transId) } told.control
            have hcalled : Reaches (step ctx) ReturnsLast told called :=
              reaches_trans ctx (s := told) (by rintro ⟨⟩) hthere _
            have hret : Reaches (step ctx) ReturnsLast called
                (called.walk ctx env event (some transId)) :=
              reaches_ret ctx (s := called) trivial hthere env
            have hfiled' : called.state.tc.Filed := applyOps_filed hfiled _
            have hkept' : later.erased = false := hkept
            have hrest := ih (s := called) hthere hfiled' hlater hkept'
            rw [use_of_there hthere]
            exact hcalled.trans (hret.trans hrest)
          next =>
            obtain rfl := Option.some.inj hloop
            cases hkept

/-- No sink cancels the transaction it is being told of. -/
def CancelsOthers (env : CallEnv) : Prop :=
  ∀ event id, i32SeqRange.seqMin ≤ id ∧ id ≤ i32SeqRange.seqMax →
    .cancel id ∉ env.onPeerEvent event id

variable (ctx) in
theorem reaches_notifyPeer (hreact : CancelsOthers env) (hthere : s.state.removed = false)
    (hfiled : s.state.tc.Filed) (event : TransCenter.PeerEvent) :
    Reaches (step ctx) ReturnsLast (s.walk ctx env event none)
      ((s.become (s.state.notifyPeer env event) .idle).afterWalk ctx env event) := by
  obtain ⟨walk, hwalk, hok⟩ : ∃ walk,
      s.state.tc.notifyPeer s.state.client.peer (env.onPeerEvent event) = some walk ∧
        TransCenter.WalkOk s.state.tc s.state.client.peer (env.onPeerEvent event) walk :=
    TransCenter.notifyPeer_ok (hreact event) hfiled
  have hreaches := reaches_walk ctx hthere hfiled hwalk hok.notErased
  have hstate : s.state.notifyPeer env event = { s.state with tc := walk.tc } := by
    simp only [ClientState.notifyPeer, hwalk, Option.elim_some]
  rw [hstate]
  exact hreaches

theorem reaches_setConnected (hreact : CancelsOthers env) (hidle : s.control = .idle)
    (hthere : s.state.removed = false) (hfiled : s.state.tc.Filed) (flag : Bool)
    (bufEvent : Option ℕ) :
    ∃ t, Reaches (step ctx) ReturnsLast (s.setConnected ctx env flag bufEvent) t ∧
      t.state = s.state.setConnected ctx env flag bufEvent ∧ t.control = .idle := by
  by_cases hremove : flag = false ∧ ctx.NoReconnect
  · refine ⟨s.removeClient, ?_, ?_, hidle⟩
    · rw [ClientLife.setConnected, if_pos hremove]
      exact .refl _
    · rw [ClientState.setConnected, if_pos hremove]
      rfl
  · by_cases hsame : s.state.client.connected = flag
    · refine ⟨s.setConnected ctx env flag bufEvent, .refl _, ?_, ?_⟩
      · simp only [ClientLife.setConnected, ClientState.setConnected, if_neg hremove,
          if_pos hsame]
        split_ifs
        all_goals rfl
      · simp only [ClientLife.setConnected, if_neg hremove, if_pos hsame]
        split_ifs
        all_goals exact hidle
    · cases flag with
      | true =>
          let up := (s.state.changeConnected true bufEvent).stopConnectTimer
          obtain ⟨-, hremoved⟩ := sendCacheMsg_kept env up
          have hfiled' : (up.sendCacheMsg env).tc.Filed := by
            obtain ⟨adds, map, list, hsent⟩ := ClientState.sendCacheMsg_shape env up
            rw [hsent]
            exact hfiled
          have hset : s.setConnected ctx env true bufEvent =
              (s.become (up.sendCacheMsg env) .idle).walk ctx env .onConnected none := by
            rw [ClientLife.setConnected, if_neg hremove, if_neg hsame]
            rfl
          have hwalk := reaches_notifyPeer ctx (s := s.become (up.sendCacheMsg env) .idle)
            hreact (hremoved.trans hthere) hfiled' .onConnected
          rw [hset]
          refine ⟨_, hwalk, ?_, rfl⟩
          rw [ClientState.setConnected, if_neg hremove, if_neg hsame]
          rfl
      | false =>
          let down := s.state.changeConnected false bufEvent
          have hset : s.setConnected ctx env false bufEvent =
              (s.become down .idle).walk ctx env .onClosed none := by
            rw [ClientLife.setConnected, if_neg hremove, if_neg hsame]
            rfl
          have hwalk := reaches_notifyPeer ctx (s := s.become down .idle) hreact hthere hfiled
            .onClosed
          rw [hset]
          refine ⟨_, hwalk, ?_, rfl⟩
          rw [ClientState.setConnected, if_neg hremove, if_neg hsame]
          rfl

/-- **`EventCallback` in steps.**  It ends, in the state of the call at once. -/
theorem eventCallback_reaches {bufEvent : ℕ} (events : BevEvents) (inputLen : ℕ)
    (hidle : s.control = .idle) (hthere : s.state.removed = false)
    (hlive : bufEvent ∈ s.live) (hfiled : s.state.tc.Filed)
    (hreact : CancelsOthers env) :
    ∃ t, Reaches (step ctx) ReturnsLast s t ∧ t.control = .idle ∧
      t.state = s.state.eventCallback ctx env bufEvent events inputLen := by
  have hstep : s.step ctx (.event env bufEvent events inputLen) =
      some (s.eventCallback ctx env bufEvent events inputLen) := by
    simp only [ClientLife.step, hidle, hlive, and_self, if_true, use_of_there hthere]
  suffices hcall : ∃ t, Reaches (step ctx) ReturnsLast
      (s.eventCallback ctx env bufEvent events inputLen) t ∧ t.control = .idle ∧
        t.state = s.state.eventCallback ctx env bufEvent events inputLen by
    obtain ⟨t, hreaches, ht⟩ := hcall
    exact ⟨t, .head (returnsLast_of_there hthere _) hstep hreaches, ht⟩
  unfold ClientLife.eventCallback ClientState.eventCallback
  split_ifs
  · obtain ⟨t, hreaches, hstate, hcontrol⟩ :=
      reaches_setConnected hreact hidle hthere hfiled true (some bufEvent)
    exact ⟨t, hreaches, hcontrol, hstate⟩
  · obtain ⟨t, hreaches, hstate, hcontrol⟩ :=
      reaches_setConnected (s := s.freeBufEvent bufEvent) hreact hidle hthere hfiled
        false none
    exact ⟨t, hreaches, hcontrol, hstate⟩
  · exact ⟨s, .refl s, hidle, rfl⟩

end ClientLife

end CommonComponent
