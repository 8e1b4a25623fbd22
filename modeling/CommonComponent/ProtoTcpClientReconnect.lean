import CommonComponent.ProtoTcpClientConnection

/-!
# What a client keeps of its last connection

The receive buffer outlives the connection: neither the end of one nor a new one
clears it.  A client whose connection was cut in the middle of a frame therefore
reads the first bytes of the next connection as the rest of that frame.  In the
runs in which every read finds only bytes of its own connection in the buffer,
frames never mix.  What a connection delivers does not depend on what earlier ones
did then, and not on what they have left in the memory behind the buffer either, as
long as no length is misread there.
-/

namespace CommonComponent

open FramedStream

/-- Two calls at one time in which the sinks do the same; the memory behind the
buffer and the outcomes of the calls of libevent may be different. -/
structure CallEnv.SameCall (env env' : CallEnv) : Prop where
  now : env'.now = env.now
  onRecv : env'.onRecv = env.onRecv

namespace ClientState

variable {ctx : ClientCenterCtx} {env env' : CallEnv}

/-! ## What a read depends on -/

/-- Two connected clients of one peer with the same table and notification sinks. -/
structure Alike (s s' : ClientState) : Prop where
  tc : s'.tc = s.tc
  peer : s'.client.peer = s.client.peer
  nfySinkSet : s'.client.nfySinkSet = s.client.nfySinkSet
  connected : s.client.connected = true
  connected' : s'.client.connected = true

/-- Two such clients with the same bytes in their buffers. -/
structure ReadAlike (s s' : ClientState) : Prop extends Alike s s' where
  recvedData : s'.client.recvedData = s.client.recvedData

/-- The two clients are told the same on the way to `t` and `t'`. -/
def ToldAlike (s s' t t' : ClientState) : Prop :=
  ∃ notes, t.told = s.told ++ notes ∧ t'.told = s'.told ++ notes

theorem ToldAlike.refl (s s' : ClientState) : ToldAlike s s' s s' :=
  ⟨[], by simp, by simp⟩

theorem ToldAlike.trans {s s' t t' u u' : ClientState}
    (h : ToldAlike s s' t t') (h' : ToldAlike t t' u u') :
    ToldAlike s s' u u' := by
  obtain ⟨notes, htold, htold'⟩ := h
  obtain ⟨later, hlater, hlater'⟩ := h'
  refine ⟨notes ++ later, ?_, ?_⟩
  · rw [hlater, htold, List.append_assoc]
  · rw [hlater', htold', List.append_assoc]

theorem Alike.setRecvedData {s s' : ClientState} (h : Alike s s') (data : Bytes) :
    ReadAlike (s.setRecvedData data) (s'.setRecvedData data) where
  tc := h.tc
  peer := h.peer
  nfySinkSet := h.nfySinkSet
  connected := h.connected
  connected' := h.connected'
  recvedData := rfl

variable (ctx env) in
theorem send_tc_of_connected (s : ClientState) (hup : s.client.connected = true)
    (msgHead : MsgHead) (msgBody : Bytes) (asyncCtx : Option AsyncCtx) :
    (s.send ctx env msgHead msgBody asyncCtx).2.tc =
      (s.tc.recordTransCtx env.now (s.sendCtx msgHead asyncCtx)).2 := by
  unfold send
  simp only [hup, if_true]
  split
  · rfl
  · obtain ⟨adds, hadds⟩ := innerSend_adds env
      { s with tc := (s.tc.recordTransCtx env.now (s.sendCtx msgHead asyncCtx)).2 }
      (ctx.msgCodec.encodeMsg { msgHead with
        passback := Int32.ofInt
          (s.tc.recordTransCtx env.now (s.sendCtx msgHead asyncCtx)).1 } msgBody)
      (asyncCtx.elim 0 (·.totalRetries)).toNat
    rw [hadds]

variable (ctx) in
theorem Alike.send {s s' : ClientState} (h : Alike s s') (henv : env.SameCall env')
    (msgHead : MsgHead) (msgBody : Bytes) (asyncCtx : Option AsyncCtx) :
    Alike (s.send ctx env msgHead msgBody asyncCtx).2
      (s'.send ctx env' msgHead msgBody asyncCtx).2 := by
  have hkept := send_sameConnection ctx env s msgHead msgBody asyncCtx
  have hkept' := send_sameConnection ctx env' s' msgHead msgBody asyncCtx
  constructor
  · rw [send_tc_of_connected ctx env s h.connected,
      send_tc_of_connected ctx env' s' h.connected', h.tc, henv.now]
    unfold sendCtx
    rw [h.peer]
  · rw [hkept.peer, hkept'.peer, h.peer]
  · rw [hkept.nfySinkSet, hkept'.nfySinkSet, h.nfySinkSet]
  · rw [hkept.connected, h.connected]
  · rw [hkept'.connected, h.connected']

variable (ctx) in
theorem ReadAlike.send {s s' : ClientState} (h : ReadAlike s s')
    (henv : env.SameCall env') (msgHead : MsgHead) (msgBody : Bytes)
    (asyncCtx : Option AsyncCtx) :
    ReadAlike (s.send ctx env msgHead msgBody asyncCtx).2
      (s'.send ctx env' msgHead msgBody asyncCtx).2 where
  toAlike := h.toAlike.send ctx henv msgHead msgBody asyncCtx
  recvedData := by rw [send_recvedData, send_recvedData, h.recvedData]

theorem Alike.afterMsg {s s' : ClientState} (h : Alike s s') (tc : TransCenter)
    (notes : List ReadNote) (left : Bytes) :
    ReadAlike
      (ClientState.setRecvedData
        { s with tc := tc, told := s.told ++ notes } left)
      (ClientState.setRecvedData
        { s' with tc := tc, told := s'.told ++ notes } left) where
  tc := rfl
  peer := h.peer
  nfySinkSet := h.nfySinkSet
  connected := h.connected
  connected' := h.connected'
  recvedData := rfl

theorem handleMsg_of_sameCall (henv : env.SameCall env') (pass : ℕ) (s : ClientState)
    (msgHead : MsgHead) (msgBody : Bytes) :
    s.handleMsg env' pass msgHead msgBody = s.handleMsg env pass msgHead msgBody := by
  unfold handleMsg tell
  rw [henv.onRecv]

/-- Where no length is misread, `IsWholeMsg` answers the same in any memory. -/
theorem isWholeMsg_alike {codec : MsgCodec} {d : Bytes} {behind behind' : ℕ → UInt8}
    (h : codec.headOf d = .waiting →
      ¬codec.Misreads behind d ∧ ¬codec.Misreads behind' d) :
    (codec.isWholeMsg (memoryOf d behind') d.length).isWhole =
        (codec.isWholeMsg (memoryOf d behind) d.length).isWhole ∧
      (codec.isWholeMsg (memoryOf d behind') d.length).errMsgId =
        (codec.isWholeMsg (memoryOf d behind) d.length).errMsgId ∧
      ((codec.isWholeMsg (memoryOf d behind) d.length).isWhole = true →
        (codec.isWholeMsg (memoryOf d behind') d.length).totalMsgLen =
          (codec.isWholeMsg (memoryOf d behind) d.length).totalMsgLen) := by
  cases hhead : codec.headOf d with
  | whole totalMsg rest =>
      rw [(MsgCodec.isWholeMsg_of_whole hhead behind).1,
        (MsgCodec.isWholeMsg_of_whole hhead behind').1]
      exact ⟨rfl, rfl, fun _ => rfl⟩
  | broken =>
      have hrefused : ∀ bytes, codec.headOf d = .broken ∨ codec.Misreads bytes d :=
        fun _ => Or.inl hhead
      obtain ⟨len, hwhole⟩ := MsgCodec.isWholeMsg_of_refused (hrefused behind)
      obtain ⟨len', hwhole'⟩ := MsgCodec.isWholeMsg_of_refused (hrefused behind')
      rw [hwhole, hwhole']
      exact ⟨rfl, rfl, nofun⟩
  | waiting =>
      obtain ⟨hread, hread'⟩ := h hhead
      obtain ⟨len, hwhole⟩ := MsgCodec.isWholeMsg_of_waiting hhead hread
      obtain ⟨len', hwhole'⟩ := MsgCodec.isWholeMsg_of_waiting hhead hread'
      rw [hwhole, hwhole']
      exact ⟨rfl, rfl, nofun⟩

variable (ctx) in
theorem readPass_alike {s s' : ClientState} (h : ReadAlike s s')
    (henv : env.SameCall env') (pass : ℕ)
    (hread : ctx.msgCodec.headOf s.client.recvedData = .waiting →
      ¬ctx.msgCodec.Misreads (env.behind pass) s.client.recvedData ∧
        ¬ctx.msgCodec.Misreads (env'.behind pass) s.client.recvedData) :
    ReadAlike (s.readPass ctx env pass).1 (s'.readPass ctx env' pass).1 ∧
      ToldAlike s s' (s.readPass ctx env pass).1 (s'.readPass ctx env' pass).1 ∧
      (s'.readPass ctx env' pass).2 = (s.readPass ctx env pass).2 := by
  obtain ⟨hisWhole, herrMsgId, hlen⟩ := isWholeMsg_alike hread
  unfold readPass
  simp only [h.recvedData, hisWhole, herrMsgId]
  by_cases hwhole : (ctx.msgCodec.isWholeMsg
      (memoryOf s.client.recvedData (env.behind pass))
      s.client.recvedData.length).isWhole = false
  · simp only [hwhole, if_true]
    split
    · refine ⟨(h.toAlike.setRecvedData []).send ctx henv _ _ _, ⟨[], ?_, ?_⟩, rfl⟩
      · rw [send_told, List.append_nil]
        rfl
      · rw [send_told, List.append_nil]
        rfl
    · exact ⟨h, .refl s s', rfl⟩
  · simp only [if_neg hwhole, hlen (Bool.not_eq_false _ ▸ hwhole)]
    generalize (ctx.msgCodec.isWholeMsg
      (memoryOf s.client.recvedData (env.behind pass))
      s.client.recvedData.length).totalMsgLen = totalMsgLen
    cases hdecode : ctx.msgCodec.decodeMsg
        (MsgCodec.totalMsgOf s.client.recvedData totalMsgLen) with
    | error errMsgId =>
        refine ⟨h.send ctx henv _ _ _, ⟨[], ?_, ?_⟩, rfl⟩
        · rw [send_told, List.append_nil]
        · rw [send_told, List.append_nil]
    | ok msg =>
        obtain ⟨msgHead, msgBody⟩ := msg
        simp only [handleMsg_of_sameCall henv]
        rcases handleMsg_of_same env pass s s' msgHead msgBody h.tc h.peer
            h.nfySinkSet with ⟨hnone, hnone'⟩ | ⟨tc, notes, hsome, hsome'⟩
        · simp only [hnone, hnone']
          exact ⟨h, .refl s s', trivial⟩
        · simp only [hsome, hsome']
          exact ⟨h.toAlike.afterMsg tc notes _, ⟨notes, rfl, rfl⟩, trivial⟩

theorem readPass_again {s : ClientState} {pass : ℕ}
    (h : (s.readPass ctx env pass).2 = true) :
    ∃ totalMsg rest, ctx.msgCodec.headOf s.client.recvedData = .whole totalMsg rest ∧
      rest ≠ [] ∧ ForSinks ctx.msgCodec s.tc totalMsg ∧
      (s.readPass ctx env pass).1 =
        (s.handOver ctx env pass totalMsg).setRecvedData rest := by
  unfold readPass at h ⊢
  cases hhead : ctx.msgCodec.headOf s.client.recvedData with
  | waiting =>
      by_cases hread : ctx.msgCodec.Misreads (env.behind pass) s.client.recvedData
      · obtain ⟨len, hwhole⟩ := MsgCodec.isWholeMsg_of_refused (Or.inr hread)
        have hrefused : msgIdInvalidMsgLen ≠ msgIdNotAWholeMsg := by decide
        simp [hwhole, hrefused] at h
      · obtain ⟨len, hwhole⟩ := MsgCodec.isWholeMsg_of_waiting hhead hread
        simp [hwhole] at h
  | broken =>
      have hbroken : ctx.msgCodec.headOf s.client.recvedData = .broken ∨
          ctx.msgCodec.Misreads (env.behind pass) s.client.recvedData := Or.inl hhead
      obtain ⟨len, hwhole⟩ := MsgCodec.isWholeMsg_of_refused hbroken
      have hrefused : msgIdInvalidMsgLen ≠ msgIdNotAWholeMsg := by decide
      simp [hwhole, hrefused] at h
  | whole totalMsg rest =>
      obtain ⟨hwhole, hmsg, hrest⟩ :=
        MsgCodec.isWholeMsg_of_whole hhead (env.behind pass)
      simp only [hwhole, ← hmsg, ← hrest, Bool.true_eq_false, if_false] at h ⊢
      cases hdecode : ctx.msgCodec.decodeMsg totalMsg with
      | error errMsgId => simp [hdecode] at h
      | ok msg =>
          obtain ⟨msgHead, msgBody⟩ := msg
          simp only [hdecode] at h
          cases hhandle : s.handleMsg env pass msgHead msgBody with
          | none => simp [hhandle] at h
          | some s₁ =>
              obtain ⟨hfor, rfl⟩ := (handleMsg_eq_some_iff hdecode).mp hhandle
              simp only [hhandle, decide_eq_true_eq] at h
              refine ⟨totalMsg, rest, rfl, List.ne_nil_of_length_pos h, hfor, ?_⟩
              simp only [hhandle]

/-! ## The bytes left behind the frames -/

variable (ctx env) in
/-- If the loop comes to what is left behind the frames, it does not misread it. -/
def ReadsRest (pass : ℕ) (s : ClientState) (d : Bytes) : Prop :=
  let drained := ctx.msgCodec.framing.drain d
  s.GoesToSinks ctx env pass drained.1 →
    drained.2 = [] ∨
      ¬ctx.msgCodec.Misreads (env.behind (pass + drained.1.length)) drained.2

instance (pass : ℕ) (s : ClientState) (d : Bytes) :
    Decidable (s.ReadsRest ctx env pass d) :=
  inferInstanceAs (Decidable (_ → _))

theorem readsRest_of_not_startsWhole {pass : ℕ} {s : ClientState} {d : Bytes}
    (hstop : ¬ctx.msgCodec.framing.StartsWhole d) :
    s.ReadsRest ctx env pass d ↔
      d = [] ∨ ¬ctx.msgCodec.Misreads (env.behind pass) d := by
  unfold ReadsRest
  simp [ctx.msgCodec.framing.drain_of_not_startsWhole hstop, GoesToSinks]

theorem readsRest_of_whole {pass : ℕ} {s : ClientState} {d totalMsg rest : Bytes}
    (hhead : ctx.msgCodec.headOf d = .whole totalMsg rest) :
    s.ReadsRest ctx env pass d ↔
      (ForSinks ctx.msgCodec s.tc totalMsg →
        (s.handOver ctx env pass totalMsg).ReadsRest ctx env (pass + 1) rest) := by
  unfold ReadsRest
  simp only [ctx.msgCodec.framing.drain_whole hhead, GoesToSinks]
  have hpass : pass + ((ctx.msgCodec.framing.drain rest).1.length + 1) =
      pass + 1 + (ctx.msgCodec.framing.drain rest).1.length := by omega
  simp [hpass]

theorem readsRest_setRecvedData (pass : ℕ) (s : ClientState) (data d : Bytes) :
    (s.setRecvedData data).ReadsRest ctx env pass d ↔ s.ReadsRest ctx env pass d := by
  unfold ReadsRest
  simp only [goesToSinks_setRecvedData]

theorem ReadsRest.not_misreads {pass : ℕ} {s : ClientState} {d : Bytes}
    (h : s.ReadsRest ctx env pass d) (hd : d ≠ [])
    (hhead : ctx.msgCodec.headOf d = .waiting) :
    ¬ctx.msgCodec.Misreads (env.behind pass) d := by
  have hstop : ¬ctx.msgCodec.framing.StartsWhole d :=
    not_startsWhole_of_headOf (by simp [hhead])
  exact ((readsRest_of_not_startsWhole hstop).mp h).resolve_left hd

theorem ReadsRest.again {pass : ℕ} {s : ClientState}
    (h : s.ReadsRest ctx env pass s.client.recvedData)
    (hagain : (s.readPass ctx env pass).2 = true) :
    (s.readPass ctx env pass).1.ReadsRest ctx env (pass + 1)
        (s.readPass ctx env pass).1.client.recvedData ∧
      (s.readPass ctx env pass).1.client.recvedData ≠ [] := by
  obtain ⟨totalMsg, rest, hhead, hrest, hfor, hnext⟩ := readPass_again hagain
  rw [hnext, readsRest_setRecvedData]
  exact ⟨(readsRest_of_whole hhead).mp h hfor, hrest⟩

theorem readLoop_alike {fuel pass : ℕ} {s s' t : ClientState}
    (h : ReadAlike s s') (henv : env.SameCall env') (hd : s.client.recvedData ≠ [])
    (hrest : s.ReadsRest ctx env pass s.client.recvedData)
    (hrest' : s'.ReadsRest ctx env' pass s'.client.recvedData)
    (hloop : s.readLoop ctx env fuel pass = some t) :
    ∃ t', s'.readLoop ctx env' fuel pass = some t' ∧ ReadAlike t t' ∧
      ToldAlike s s' t t' := by
  induction fuel generalizing pass s s' with
  | zero => cases hloop
  | succ fuel ih =>
      obtain ⟨hpass, htold, hagain⟩ := readPass_alike ctx h henv pass fun hhead =>
        ⟨hrest.not_misreads hd hhead,
          h.recvedData ▸ hrest'.not_misreads (h.recvedData ▸ hd)
            (h.recvedData ▸ hhead)⟩
      unfold readLoop at hloop ⊢
      simp only [hagain] at hloop ⊢
      by_cases hmore : (s.readPass ctx env pass).2 = true
      · rw [if_pos hmore] at hloop ⊢
        obtain ⟨hlater, hd⟩ := hrest.again hmore
        obtain ⟨hlater', -⟩ := hrest'.again (hagain.trans hmore)
        obtain ⟨t', hloop', halike, htold'⟩ := ih hpass hd hlater hlater' hloop
        exact ⟨t', hloop', halike, htold.trans htold'⟩
      · rw [if_neg hmore, Option.some.injEq] at hloop
        subst hloop
        rw [if_neg hmore]
        exact ⟨_, rfl, hpass, htold⟩

theorem readCallback_alike {s s' t : ClientState} {chunk : Bytes}
    (h : ReadAlike s s') (henv : env.SameCall env') (hchunk : chunk ≠ [])
    (hrest : s.ReadsRest ctx env 0 (s.client.recvedData ++ chunk))
    (hrest' : s'.ReadsRest ctx env' 0 (s'.client.recvedData ++ chunk))
    (hcall : s.readCallback ctx env chunk = some t) :
    ∃ t', s'.readCallback ctx env' chunk = some t' ∧ ReadAlike t t' ∧
      ToldAlike s s' t t' := by
  unfold readCallback at hcall ⊢
  rw [if_neg hchunk] at hcall ⊢
  rw [h.recvedData] at hrest' ⊢
  have halike := h.toAlike.setRecvedData (s.client.recvedData ++ chunk)
  have hd : s.client.recvedData ++ chunk ≠ [] := by simp [hchunk]
  obtain ⟨t', hloop, hlater, notes, htold, htold'⟩ := readLoop_alike halike henv hd
    ((readsRest_setRecvedData _ _ _ _).mpr hrest)
    ((readsRest_setRecvedData _ _ _ _).mpr hrest') hcall
  exact ⟨t', hloop, hlater, notes, htold, htold'⟩

theorem Reads.suffix {pass : ℕ} {s t : ClientState} (h : Reads ctx env pass s t) :
    t.client.recvedData <:+ s.client.recvedData := by
  induction h with
  | waiting => exact List.suffix_rfl
  | refused =>
      rw [send_recvedData]
      exact List.nil_suffix
  | mismatch =>
      rw [send_recvedData]
  | unknown => exact List.suffix_rfl
  | last => exact List.nil_suffix
  | @next pass s s' t totalMsg rest msgHead msgBody hhead hrest hdecode hhandle
      hlater ih =>
      obtain ⟨-, -, -, -, hleft⟩ := MsgCodec.headOf_eq_whole_iff.mp hhead
      have hsuffix : rest <:+ s.client.recvedData := by
        rw [hleft]
        exact List.drop_suffix _ _
      exact ih.trans hsuffix

theorem readCallback_length {s t : ClientState} {chunk : Bytes}
    (h : s.readCallback ctx env chunk = some t) :
    t.client.recvedData.length ≤ s.client.recvedData.length + chunk.length := by
  obtain ⟨t', hcall, hreads⟩ := readCallback_reads ctx env s chunk
  rw [hcall, Option.some.injEq] at h
  subst h
  rcases hreads with ⟨-, rfl⟩ | ⟨-, hreads⟩
  · exact Nat.le_add_right _ _
  · have hle := hreads.suffix.length_le
    simpa [setRecvedData] using hle

@[simp] theorem sendCacheMsg_recvedData (s : ClientState) :
    (s.sendCacheMsg env).client.recvedData = s.client.recvedData := by
  obtain ⟨adds, map, list, hsent⟩ := sendCacheMsg_shape env s
  rw [hsent]

@[simp] theorem sendCacheMsg_peer (s : ClientState) :
    (s.sendCacheMsg env).client.peer = s.client.peer := by
  obtain ⟨adds, map, list, hsent⟩ := sendCacheMsg_shape env s
  rw [hsent]

theorem setConnected_kept (s : ClientState) (flag : Bool)
    (bufEvent : Option ℕ) :
    (s.setConnected ctx env flag bufEvent).client.recvedData =
        s.client.recvedData ∧
      (s.setConnected ctx env flag bufEvent).client.peer = s.client.peer := by
  unfold setConnected
  split
  · exact ⟨rfl, rfl⟩
  · split
    · split
      · exact ⟨rfl, rfl⟩
      · simp only
        split <;> exact ⟨rfl, rfl⟩
    · simp only
      split
      · simp [notifyPeer, stopConnectTimer]
      · unfold startConnectTimer
        split
        · exact ⟨rfl, rfl⟩
        · split <;> exact ⟨rfl, rfl⟩

variable (ctx env) in
theorem eventCallback_kept (s : ClientState) (bufEvent : ℕ) (events : BevEvents)
    (inputLen : ℕ) :
    (s.eventCallback ctx env bufEvent events inputLen).client.recvedData =
        s.client.recvedData ∧
      (s.eventCallback ctx env bufEvent events inputLen).client.peer =
        s.client.peer := by
  unfold eventCallback
  split
  · exact setConnected_kept s true (some bufEvent)
  · split
    · exact setConnected_kept _ false none
    · exact ⟨rfl, rfl⟩

end ClientState

namespace ClientRun

variable {ctx : ClientCenterCtx}

/-! ## Whose bytes are in the buffer -/

/-- The owners of the bytes of each frame at the head of a buffer. -/
def frameOwners : List Bytes → List ℕ → List (List ℕ)
  | [], _ => []
  | totalMsg :: later, owners =>
      let len := totalMsgLenFieldLen + totalMsg.length
      owners.take len :: frameOwners later (owners.drop len)

def OwnersKnown (s : ClientRun) : Prop :=
  s.owners.length = s.state.client.recvedData.length

/-- A read finds no byte of another connection in the buffer, and does not misread
what it leaves behind the frames. -/
def ReadsOwnBytes (ctx : ClientCenterCtx) (s : ClientRun) (a : ClientAction) : Prop :=
  match a with
  | .read bufEvent chunk env =>
      chunk = [] ∨ (∀ owner ∈ s.owners, owner = s.attempt bufEvent) ∧
        s.state.ReadsRest ctx env 0 (s.state.client.recvedData ++ chunk)
  | _ => True

instance (s : ClientRun) (a : ClientAction) : Decidable (s.ReadsOwnBytes ctx a) := by
  cases a <;> unfold ReadsOwnBytes <;> infer_instance

/-- Every byte of every frame that a read finds has come through its connection. -/
def FramesUnmixed (ctx : ClientCenterCtx) (s : ClientRun) (a : ClientAction)
    (_ : ClientRun) : Prop :=
  match a with
  | .read bufEvent chunk _ =>
      chunk = [] ∨
        ∀ owners ∈ frameOwners
            (ctx.msgCodec.framing.drain (s.state.client.recvedData ++ chunk)).1
            (s.owners ++ List.replicate chunk.length (s.attempt bufEvent)),
          ∀ owner ∈ owners, owner = s.attempt bufEvent
  | _ => True

/-- The whole frames that an action finds at the head of the receive buffer. -/
def framesFound (ctx : ClientCenterCtx) (s : ClientRun) (a : ClientAction) :
    List Bytes :=
  match a with
  | .read _ chunk _ =>
      if chunk = [] then []
      else (ctx.msgCodec.framing.drain (s.state.client.recvedData ++ chunk)).1
  | _ => []

/-- The frames that the reads of a run find, one read after the other. -/
def framesRead (ctx : ClientCenterCtx) : ClientRun → List ClientAction → List Bytes
  | _, [] => []
  | s, a :: as =>
      framesFound ctx s a ++ (s.step ctx a).elim [] fun s' => framesRead ctx s' as

theorem mem_of_mem_frameOwners {totalMsgs : List Bytes} {all owners : List ℕ}
    (h : owners ∈ frameOwners totalMsgs all) : ∀ owner ∈ owners, owner ∈ all := by
  induction totalMsgs generalizing all with
  | nil => cases h
  | cons totalMsg later ih =>
      intro owner howner
      rcases List.mem_cons.mp h with rfl | hlater
      · exact List.mem_of_mem_take howner
      · exact List.mem_of_mem_drop (ih hlater owner howner)

theorem framesUnmixed_of_readsOwnBytes {s s' : ClientRun} {a : ClientAction}
    (h : s.ReadsOwnBytes ctx a) : FramesUnmixed ctx s a s' := by
  cases a with
  | read bufEvent chunk env =>
      rcases h with hnil | ⟨hown, -⟩
      · exact Or.inl hnil
      · right
        intro owners howners owner howner
        rcases List.mem_append.mp (mem_of_mem_frameOwners howners owner howner) with
          hbefore | hnew
        · exact hown owner hbefore
        · exact List.eq_of_mem_replicate hnew
  | onTimer bufEvent => trivial
  | event bufEvent events inputLen env => trivial
  | send msgHead msgBody asyncCtx env => trivial
  | addNfySink sink => trivial
  | removeNfySink sink => trivial
  | table tc => trivial

theorem step_kept {s s' : ClientRun} {a : ClientAction}
    (h : s.OwnersKnown) (hstep : s.step ctx a = some s') :
    s'.OwnersKnown ∧ s'.state.client.peer = s.state.client.peer := by
  unfold step at hstep
  unfold OwnersKnown at h ⊢
  split at hstep
  next => cases hstep
  next =>
    cases a with
    | onTimer bufEvent =>
        simp only at hstep
        split at hstep
        next =>
          cases hstep
          cases bufEvent with
          | none => exact ⟨h, rfl⟩
          | some b => exact ⟨h, rfl⟩
        next => cases hstep
    | event bufEvent events inputLen env =>
        simp only at hstep
        split at hstep
        next =>
          cases hstep
          obtain ⟨hdata, hpeer⟩ := ClientState.eventCallback_kept ctx env
            s.state bufEvent events inputLen
          exact ⟨by rw [hdata]; exact h, hpeer⟩
        next => cases hstep
    | read bufEvent chunk env =>
        simp only at hstep
        split at hstep
        next =>
          rw [Option.map_eq_some_iff] at hstep
          obtain ⟨t, hcall, rfl⟩ := hstep
          have hle := ClientState.readCallback_length hcall
          obtain ⟨t', hcall', hreads⟩ :=
            ClientState.readCallback_reads ctx env s.state chunk
          rw [hcall, Option.some.injEq] at hcall'
          subst hcall'
          constructor
          · simp only [ownersOfLeft, List.length_drop, List.length_append,
              List.length_replicate]
            omega
          · rcases hreads with ⟨-, rfl⟩ | ⟨-, hreads⟩
            · rfl
            · exact hreads.sameConnection.peer
        next => cases hstep
    | send msgHead msgBody asyncCtx env =>
        cases hstep
        have hsame := ClientState.send_sameConnection ctx env s.state msgHead
          msgBody asyncCtx
        refine ⟨?_, hsame.peer⟩
        simp only [ClientState.send_recvedData]
        exact h
    | addNfySink sink =>
        cases hstep
        simp only [ClientState.addNfySink]
        split <;> exact ⟨h, rfl⟩
    | removeNfySink sink =>
        cases hstep
        exact ⟨h, rfl⟩
    | table tc =>
        cases hstep
        exact ⟨h, rfl⟩

theorem run_kept {peer : Peer} {tc : TransCenter} {bufEvent : ℕ}
    {as : List ClientAction} {s : ClientRun}
    (hrun : LabelledRun.run (step ctx) (activated peer tc bufEvent) as = some s) :
    s.OwnersKnown ∧ s.state.client.peer = peer := by
  have hkeep : ∀ (s : ClientRun) (a : ClientAction) (s' : ClientRun),
      s.OwnersKnown ∧ s.state.client.peer = peer → s.step ctx a = some s' →
        s'.OwnersKnown ∧ s'.state.client.peer = peer := by
    intro s a s' h hstep
    obtain ⟨hknown, hpeer⟩ := step_kept h.1 hstep
    exact ⟨hknown, hpeer.trans h.2⟩
  have hstart : (activated peer tc bufEvent).OwnersKnown ∧
      (activated peer tc bufEvent).state.client.peer = peer := ⟨rfl, rfl⟩
  exact LabelledRun.inv_of_run hkeep hstart hrun

/-! ## Two histories with one connection in common -/

def ConnectedOn (s : ClientRun) (bufEvent : ℕ) : Prop :=
  s.state.removed = false ∧ s.state.client.connected = true ∧
    s.state.client.bufEvent = some bufEvent

/-- Both clients have just been connected on `bufEvent`, with the same table and
notification sinks; nothing has come through it yet. -/
structure SameStart (bufEvent : ℕ) (s s' : ClientRun) : Prop where
  tc : s'.state.tc = s.state.tc
  nfySinkSet : s'.state.client.nfySinkSet = s.state.client.nfySinkSet
  up : s.ConnectedOn bufEvent
  up' : s'.ConnectedOn bufEvent
  fresh : s.attempt bufEvent ∉ s.owners
  fresh' : s'.attempt bufEvent ∉ s'.owners

def During (bufEvent : ℕ) (a : ClientAction) : Prop :=
  match a with
  | .onTimer _ => False
  | .event _ _ _ _ => False
  | .read b _ _ => b = bufEvent
  | _ => True

/-- The same action in two histories: one chunk read, or one message sent, in calls
that may differ in the memory behind the buffer. -/
inductive SameAction : ClientAction → ClientAction → Prop
  | read (bufEvent chunk) {env env'} (henv : CallEnv.SameCall env env') :
      SameAction (.read bufEvent chunk env) (.read bufEvent chunk env')
  | send (msgHead msgBody asyncCtx) {env env'} (henv : CallEnv.SameCall env env') :
      SameAction (.send msgHead msgBody asyncCtx env)
        (.send msgHead msgBody asyncCtx env')
  | addNfySink (sink) : SameAction (.addNfySink sink) (.addNfySink sink)
  | removeNfySink (sink) : SameAction (.removeNfySink sink) (.removeNfySink sink)
  | table (tc) : SameAction (.table tc) (.table tc)

def Delivers (a : ClientAction) : Prop :=
  match a with
  | .read _ chunk _ => chunk ≠ []
  | _ => False

/-- Two clients on the same connection: the buffers are the same, or nothing of
this connection is in either. -/
structure Isolated (bufEvent : ℕ) (s s' : ClientRun) : Prop where
  alike : s.state.Alike s'.state
  there : s.state.removed = false
  there' : s'.state.removed = false
  live : bufEvent ∈ s.state.client.bufeventSet
  live' : bufEvent ∈ s'.state.client.bufeventSet
  known : s.OwnersKnown
  known' : s'.OwnersKnown
  buffer : s'.state.client.recvedData = s.state.client.recvedData ∨
    s.attempt bufEvent ∉ s.owners ∧ s'.attempt bufEvent ∉ s'.owners

theorem SameStart.isolated {peer : Peer} {tc tc' : TransCenter} {b b' : ℕ}
    {as as' : List ClientAction} {s s' : ClientRun} {bufEvent : ℕ}
    (h : SameStart bufEvent s s')
    (hrun : LabelledRun.run (step ctx) (activated peer tc b) as = some s)
    (hrun' : LabelledRun.run (step ctx) (activated peer tc' b') as' = some s') :
    Isolated bufEvent s s' := by
  obtain ⟨hknown, hpeer⟩ := run_kept hrun
  obtain ⟨hknown', hpeer'⟩ := run_kept hrun'
  have hlive : ∀ u : ClientRun, u.state.connection.Tracks u.succeeded →
      u.ConnectedOn bufEvent → bufEvent ∈ u.state.client.bufeventSet := by
    intro u htracks hup
    obtain ⟨b, hb, hmem, -⟩ := htracks.up hup.1 hup.2.1
    have hsome : u.state.client.bufEvent = some b := hb
    rw [hup.2.2, Option.some.injEq] at hsome
    rw [hsome]
    exact hmem
  refine ⟨⟨h.tc, hpeer'.trans hpeer.symm, h.nfySinkSet, h.up.2.1, h.up'.2.1⟩,
    h.up.1, h.up'.1, hlive s (run_tracks hrun) h.up,
    hlive s' (run_tracks hrun') h.up', hknown, hknown', ?_⟩
  exact Or.inr ⟨h.fresh, h.fresh'⟩

theorem Isolated.sameBuffer {bufEvent : ℕ} {s s' : ClientRun}
    (h : Isolated bufEvent s s')
    (hown : ∀ owner ∈ s.owners, owner = s.attempt bufEvent)
    (hown' : ∀ owner ∈ s'.owners, owner = s'.attempt bufEvent) :
    s'.state.client.recvedData = s.state.client.recvedData := by
  have hempty : ∀ u : ClientRun, u.OwnersKnown →
      (∀ owner ∈ u.owners, owner = u.attempt bufEvent) →
      u.attempt bufEvent ∉ u.owners → u.state.client.recvedData = [] := by
    intro u hknown hall hfresh
    have hnone : u.owners = [] := by
      rw [List.eq_nil_iff_forall_not_mem]
      intro owner howner
      exact hfresh (hall owner howner ▸ howner)
    unfold OwnersKnown at hknown
    rw [hnone, List.length_nil] at hknown
    exact List.length_eq_zero_iff.mp hknown.symm
  rcases h.buffer with hsame | ⟨hfresh, hfresh'⟩
  · exact hsame
  · rw [hempty s h.known hown hfresh, hempty s' h.known' hown' hfresh']

theorem step_read {s : ClientRun} {t : ClientState} {bufEvent : ℕ} {chunk : Bytes}
    {env : CallEnv} (hthere : s.state.removed = false)
    (hlive : bufEvent ∈ s.state.client.bufeventSet)
    (hcall : s.state.readCallback ctx env chunk = some t) :
    s.step ctx (.read bufEvent chunk env) = some { s with
      state := t
      owners := ownersOfLeft
        (s.owners ++ List.replicate chunk.length (s.attempt bufEvent))
        t.client.recvedData } := by
  unfold step
  simp [hthere, hlive, hcall]

theorem not_mem_ownersOfLeft {owners : List ℕ} {owner : ℕ} (h : owner ∉ owners)
    (left : Bytes) : owner ∉ ownersOfLeft owners left :=
  fun hmem => h (List.mem_of_mem_drop hmem)

variable (ctx) in
structure StepsAlike (bufEvent : ℕ) (s s' t t' : ClientRun) (a a' : ClientAction) :
    Prop where
  isolated : Isolated bufEvent t t'
  frames : framesFound ctx s' a' = framesFound ctx s a
  told : ClientState.ToldAlike s.state s'.state t.state t'.state
  buffer : Delivers a ∨ s'.state.client.recvedData = s.state.client.recvedData →
    t'.state.client.recvedData = t.state.client.recvedData

theorem Isolated.read {bufEvent : ℕ} {s s' : ClientRun}
    (h : Isolated bufEvent s s') (chunk : Bytes) {env env' : CallEnv}
    (henv : env.SameCall env')
    (hown : s.ReadsOwnBytes ctx (.read bufEvent chunk env))
    (hown' : s'.ReadsOwnBytes ctx (.read bufEvent chunk env')) :
    ∃ t t', s.step ctx (.read bufEvent chunk env) = some t ∧
      s'.step ctx (.read bufEvent chunk env') = some t' ∧
      StepsAlike ctx bufEvent s s' t t' (.read bufEvent chunk env)
        (.read bufEvent chunk env') := by
  by_cases hchunk : chunk = []
  · subst hchunk
    have hcall : s.state.readCallback ctx env [] = some s.state := by
      simp [ClientState.readCallback]
    have hcall' : s'.state.readCallback ctx env' [] = some s'.state := by
      simp [ClientState.readCallback]
    have hstep := step_read h.there h.live hcall
    have hstep' := step_read h.there' h.live' hcall'
    refine ⟨_, _, hstep, hstep', ⟨?_, rfl, .refl s.state s'.state, ?_⟩⟩
    · refine ⟨h.alike, h.there, h.there', h.live, h.live',
        (step_kept h.known hstep).1, (step_kept h.known' hstep').1, ?_⟩
      rcases h.buffer with hsame | ⟨hfresh, hfresh'⟩
      · exact Or.inl hsame
      · right
        constructor
        · apply not_mem_ownersOfLeft
          simpa using hfresh
        · apply not_mem_ownersOfLeft
          simpa using hfresh'
    · rintro (hdelivers | hsame)
      · exact (hdelivers rfl).elim
      · exact hsame
  · obtain ⟨hbytes, hrest⟩ := hown.resolve_left hchunk
    obtain ⟨hbytes', hrest'⟩ := hown'.resolve_left hchunk
    have hsame := h.sameBuffer hbytes hbytes'
    obtain ⟨t, hcall, -⟩ := ClientState.readCallback_reads ctx env s.state chunk
    obtain ⟨t', hcall', halike, htold⟩ :=
      ClientState.readCallback_alike ⟨h.alike, hsame⟩ henv hchunk hrest hrest' hcall
    have hstep := step_read h.there h.live hcall
    have hstep' := step_read h.there' h.live' hcall'
    have hconn := ClientState.readCallback_connection hcall
    have hconn' := ClientState.readCallback_connection hcall'
    have hset : t.client.bufeventSet = s.state.client.bufeventSet :=
      congrArg Connection.bufeventSet hconn
    have hset' : t'.client.bufeventSet = s'.state.client.bufeventSet :=
      congrArg Connection.bufeventSet hconn'
    have hframes : framesFound ctx s' (.read bufEvent chunk env') =
        framesFound ctx s (.read bufEvent chunk env) := by
      simp only [framesFound, hsame]
    refine ⟨_, _, hstep, hstep', ⟨?_, hframes, htold, fun _ => halike.recvedData⟩⟩
    refine ⟨halike.toAlike, ?_, ?_, ?_, ?_, (step_kept h.known hstep).1,
      (step_kept h.known' hstep').1, Or.inl halike.recvedData⟩
    · exact (congrArg Connection.removed hconn).trans h.there
    · exact (congrArg Connection.removed hconn').trans h.there'
    · simp only [hset]
      exact h.live
    · simp only [hset']
      exact h.live'

/-- Actions that leave the connection and the buffer alone and tell nothing. -/
theorem Isolated.quiet {bufEvent : ℕ} {s s' : ClientRun} {a a' : ClientAction}
    (f f' : ClientState → ClientState) (h : Isolated bufEvent s s')
    (hstep : s.step ctx a = some { s with state := f s.state })
    (hstep' : s'.step ctx a' = some { s' with state := f' s'.state })
    (hdelivers : ¬Delivers a) (hframes : framesFound ctx s' a' = framesFound ctx s a)
    (halike : (f s.state).Alike (f' s'.state))
    (hconn : (f s.state).connection = s.state.connection)
    (hconn' : (f' s'.state).connection = s'.state.connection)
    (hdata : (f s.state).client.recvedData = s.state.client.recvedData)
    (hdata' : (f' s'.state).client.recvedData = s'.state.client.recvedData)
    (htold : (f s.state).told = s.state.told)
    (htold' : (f' s'.state).told = s'.state.told) :
    ∃ t t', s.step ctx a = some t ∧ s'.step ctx a' = some t' ∧
      StepsAlike ctx bufEvent s s' t t' a a' := by
  have hset : (f s.state).client.bufeventSet = s.state.client.bufeventSet :=
    congrArg Connection.bufeventSet hconn
  have hset' : (f' s'.state).client.bufeventSet = s'.state.client.bufeventSet :=
    congrArg Connection.bufeventSet hconn'
  refine ⟨_, _, hstep, hstep', ⟨?_, hframes, ⟨[], ?_, ?_⟩, ?_⟩⟩
  · refine ⟨halike, ?_, ?_, ?_, ?_, (step_kept h.known hstep).1,
      (step_kept h.known' hstep').1, ?_⟩
    · exact (congrArg Connection.removed hconn).trans h.there
    · exact (congrArg Connection.removed hconn').trans h.there'
    · simp only [hset]
      exact h.live
    · simp only [hset']
      exact h.live'
    · simp only [hdata, hdata']
      exact h.buffer
  · rw [htold, List.append_nil]
  · rw [htold', List.append_nil]
  · intro hbuffer
    simp only [hdata, hdata']
    exact hbuffer.resolve_left hdelivers

theorem addNfySink_eq (s : ClientState) (sink : ℕ) :
    s.addNfySink sink = { s with client := { s.client with
      nfySinkSet :=
        if sink ∈ s.client.nfySinkSet then s.client.nfySinkSet
        else s.client.nfySinkSet.orderedInsert (· ≤ ·) sink } } := by
  unfold ClientState.addNfySink
  split <;> rfl

theorem Isolated.stepAlike {bufEvent : ℕ} {s s' : ClientRun} {a a' : ClientAction}
    (h : Isolated bufEvent s s') (hduring : During bufEvent a)
    (hsame : SameAction a a')
    (hown : ∀ t, s.step ctx a = some t → s.ReadsOwnBytes ctx a)
    (hown' : ∀ t, s'.step ctx a' = some t → s'.ReadsOwnBytes ctx a') :
    ∃ t t', s.step ctx a = some t ∧ s'.step ctx a' = some t' ∧
      StepsAlike ctx bufEvent s s' t t' a a' := by
  have halike := h.alike
  cases hsame with
  | @read b chunk env env' henv =>
      have hb : b = bufEvent := hduring
      subst hb
      obtain ⟨t, hcall, -⟩ := ClientState.readCallback_reads ctx env s.state chunk
      obtain ⟨t', hcall', -⟩ := ClientState.readCallback_reads ctx env' s'.state chunk
      apply h.read chunk henv
      · exact hown _ (step_read h.there h.live hcall)
      · exact hown' _ (step_read h.there' h.live' hcall')
  | @send msgHead msgBody asyncCtx env env' henv =>
      apply h.quiet (fun u => (u.send ctx env msgHead msgBody asyncCtx).2)
        fun u => (u.send ctx env' msgHead msgBody asyncCtx).2
      · simp [ClientRun.step, h.there]
      · simp [ClientRun.step, h.there']
      · exact id
      · rfl
      · exact halike.send ctx henv msgHead msgBody asyncCtx
      · exact (ClientState.send_sameConnection ctx env s.state msgHead msgBody
          asyncCtx).connection
      · exact (ClientState.send_sameConnection ctx env' s'.state msgHead msgBody
          asyncCtx).connection
      · exact ClientState.send_recvedData s.state msgHead msgBody asyncCtx
      · exact ClientState.send_recvedData s'.state msgHead msgBody asyncCtx
      · exact ClientState.send_told s.state msgHead msgBody asyncCtx
      · exact ClientState.send_told s'.state msgHead msgBody asyncCtx
  | addNfySink sink =>
      apply h.quiet (·.addNfySink sink) (·.addNfySink sink)
      · simp [ClientRun.step, h.there]
      · simp [ClientRun.step, h.there']
      · exact id
      · rfl
      · simp only [addNfySink_eq]
        refine ⟨halike.tc, halike.peer, ?_, halike.connected, halike.connected'⟩
        simp only [halike.nfySinkSet]
      · rw [addNfySink_eq]
        rfl
      · rw [addNfySink_eq]
        rfl
      all_goals rw [addNfySink_eq]
  | removeNfySink sink =>
      apply h.quiet (·.removeNfySink sink) (·.removeNfySink sink)
      · simp [ClientRun.step, h.there]
      · simp [ClientRun.step, h.there']
      · exact id
      · rfl
      · refine ⟨halike.tc, halike.peer, ?_, halike.connected, halike.connected'⟩
        simp only [ClientState.removeNfySink, halike.nfySinkSet]
      all_goals rfl
  | table tc =>
      apply h.quiet ({ · with tc := tc }) ({ · with tc := tc })
      · simp [ClientRun.step, h.there]
      · simp [ClientRun.step, h.there']
      · exact id
      · rfl
      · exact ⟨rfl, halike.peer, halike.nfySinkSet, halike.connected,
          halike.connected'⟩
      all_goals rfl

theorem Isolated.runAlike {bufEvent : ℕ} {s s' : ClientRun}
    {bs bs' : List ClientAction} (h : Isolated bufEvent s s')
    (hduring : ∀ a ∈ bs, During bufEvent a) (hsame : List.Forall₂ SameAction bs bs')
    (hown : LabelledRun.Guarded (step ctx) (ReadsOwnBytes ctx) s bs)
    (hown' : LabelledRun.Guarded (step ctx) (ReadsOwnBytes ctx) s' bs') :
    ∃ t t', LabelledRun.run (step ctx) s bs = some t ∧
      LabelledRun.run (step ctx) s' bs' = some t' ∧ Isolated bufEvent t t' ∧
      framesRead ctx s' bs' = framesRead ctx s bs ∧
      ClientState.ToldAlike s.state s'.state t.state t'.state ∧
      ((∃ a ∈ bs, Delivers a) ∨
          s'.state.client.recvedData = s.state.client.recvedData →
        t'.state.client.recvedData = t.state.client.recvedData) := by
  induction hsame generalizing s s' with
  | nil =>
      refine ⟨s, s', rfl, rfl, h, rfl, .refl s.state s'.state, ?_⟩
      rintro (⟨a, hmem, -⟩ | hsame)
      · cases hmem
      · exact hsame
  | @cons a a' bs bs' hfirst hlater ih =>
      rw [List.forall_mem_cons] at hduring
      obtain ⟨u, u', hstep, hstep', hfirst⟩ := h.stepAlike hduring.1 hfirst
        (fun t ht => (hown t ht).1) (fun t ht => (hown' t ht).1)
      obtain ⟨t, t', hrun, hrun', hend, hframes, htold, hbuffer⟩ :=
        ih hfirst.isolated hduring.2 (hown u hstep).2 (hown' u' hstep').2
      refine ⟨t, t', ?_, ?_, hend, ?_, hfirst.told.trans htold, ?_⟩
      · simp only [LabelledRun.run, hstep, Option.bind_some, hrun]
      · simp only [LabelledRun.run, hstep', Option.bind_some, hrun']
      · simp only [framesRead, hstep, hstep', Option.elim_some, hfirst.frames, hframes]
      · rw [List.exists_mem_cons_iff]
        rintro ((hdelivers | hlater) | hsame)
        · exact hbuffer (Or.inr (hfirst.buffer (Or.inl hdelivers)))
        · exact hbuffer (Or.inl hlater)
        · exact hbuffer (Or.inr (hfirst.buffer (Or.inr hsame)))

structure IsolatedRun (ctx : ClientCenterCtx) (s s' : ClientRun)
    (bs bs' : List ClientAction) (t t' : ClientRun) : Prop where
  run : LabelledRun.run (step ctx) s bs = some t
  run' : LabelledRun.run (step ctx) s' bs' = some t'
  frames : framesRead ctx s' bs' = framesRead ctx s bs
  told : ClientState.ToldAlike s.state s'.state t.state t'.state
  tc : t'.state.tc = t.state.tc
  recvedData : (∃ a ∈ bs, Delivers a) →
    t'.state.client.recvedData = t.state.client.recvedData

theorem framesUnmixed_of_guarded {peer : Peer} {tc : TransCenter} {b : ℕ}
    {as : List ClientAction}
    (hown : LabelledRun.Guarded (step ctx) (ReadsOwnBytes ctx) (activated peer tc b)
      as) :
    LabelledRun.Along (step ctx) OwnersKnown (FramesUnmixed ctx)
      (activated peer tc b) as := by
  have hkeep : ∀ (s : ClientRun) (a : ClientAction) (s' : ClientRun),
      s.OwnersKnown → s.ReadsOwnBytes ctx a → s.step ctx a = some s' →
        s'.OwnersKnown ∧ FramesUnmixed ctx s a s' :=
    fun s a s' h hguard hstep =>
      ⟨(step_kept h hstep).1, framesUnmixed_of_readsOwnBytes hguard⟩
  have hstart : (activated peer tc b).OwnersKnown := rfl
  exact LabelledRun.Guarded.along hkeep hstart hown

/-- **When a connection is isolated from the ones before it.**  In histories whose
reads find no byte of another connection in the buffer and misread none of their own,
every byte of a frame has come through the connection it is read from; and two of
them that are alike when the connection starts read the same frames from it and
deliver the same, whatever they have in the memory behind the buffer. -/
theorem run_isolated (ctx : ClientCenterCtx) (peer : Peer) (tc tc' : TransCenter)
    (b b' bufEvent : ℕ) (as as' bs bs' : List ClientAction) (s s' : ClientRun)
    (hrun : LabelledRun.run (step ctx) (activated peer tc b) as = some s)
    (hrun' : LabelledRun.run (step ctx) (activated peer tc' b') as' = some s')
    (hstart : SameStart bufEvent s s') (hduring : ∀ a ∈ bs, During bufEvent a)
    (hsame : List.Forall₂ SameAction bs bs')
    (hown : LabelledRun.Guarded (step ctx) (ReadsOwnBytes ctx) (activated peer tc b)
      (as ++ bs))
    (hown' : LabelledRun.Guarded (step ctx) (ReadsOwnBytes ctx)
      (activated peer tc' b') (as' ++ bs')) :
    LabelledRun.Along (step ctx) OwnersKnown (FramesUnmixed ctx)
        (activated peer tc b) (as ++ bs) ∧
      LabelledRun.Along (step ctx) OwnersKnown (FramesUnmixed ctx)
        (activated peer tc' b') (as' ++ bs') ∧
      ∃ t t', IsolatedRun ctx s s' bs bs' t t' := by
  obtain ⟨t, t', hend, hend', hisolated, hframes, htold, hbuffer⟩ :=
    (hstart.isolated hrun hrun').runAlike hduring hsame (hown.of_append hrun)
      (hown'.of_append hrun')
  refine ⟨framesUnmixed_of_guarded hown, framesUnmixed_of_guarded hown', t, t', ?_⟩
  exact ⟨hend, hend', hframes, htold, hisolated.alike.tc,
    fun hdelivers => hbuffer (Or.inl hdelivers)⟩

/-! ## A connection that ends, and the next one -/

/-- `chunk` comes through the first connection, which then ends; the second attempt
succeeds. -/
def reconnected (chunk : Bytes) : List ClientAction :=
  [.addNfySink 7, .event 1 connectedEvent 0 quietEnv, .read 1 chunk quietEnv,
    .event 1 eofEvent 0 quietEnv, .onTimer (some 2),
    .event 2 connectedEvent 0 quietEnv]

/-- What of a state can be compared with another one's. -/
def seen (s : ClientRun) : List ℕ × Bool × Bool × Option ℕ × Bool :=
  (s.state.client.nfySinkSet, s.state.removed, s.state.client.connected,
    s.state.client.bufEvent, decide (s.attempt 2 ∈ s.owners))

theorem sameStart_of_seen (tc : TransCenter) (sinks : List ℕ) {start : ClientRun}
    {as as' : List ClientAction} {s s' : ClientRun}
    (hrun : LabelledRun.run (step ctx) start as = some s)
    (hrun' : LabelledRun.run (step ctx) start as' = some s')
    (htc : (LabelledRun.run (step ctx) start as).map (·.state.tc) = some tc)
    (htc' : (LabelledRun.run (step ctx) start as').map (·.state.tc) = some tc)
    (hseen : (LabelledRun.run (step ctx) start as).map seen =
      some (sinks, false, true, some 2, false))
    (hseen' : (LabelledRun.run (step ctx) start as').map seen =
      some (sinks, false, true, some 2, false)) : SameStart 2 s s' := by
  rw [hrun, Option.map_some, Option.some.injEq] at htc hseen
  rw [hrun', Option.map_some, Option.some.injEq] at htc' hseen'
  simp only [seen, Prod.mk.injEq, decide_eq_false_iff_not] at hseen hseen'
  obtain ⟨hsinks, hthere, hconnected, hbufEvent, hfresh⟩ := hseen
  obtain ⟨hsinks', hthere', hconnected', hbufEvent', hfresh'⟩ := hseen'
  constructor
  · rw [htc, htc']
  · rw [hsinks, hsinks']
  · exact ⟨hthere, hconnected, hbufEvent⟩
  · exact ⟨hthere', hconnected', hbufEvent'⟩
  · exact hfresh
  · exact hfresh'

/-- What `quietEnv` is, with other bytes behind the buffer. -/
def otherMemory : CallEnv := { quietEnv with behind := fun _ _ => 7 }

/-- A first connection that ends between two frames leaves no trace. -/
theorem run_isolated_between_frames :
    ∃ s s' t t',
      LabelledRun.run (step plainCtx) (activated peerB .empty 1)
          (reconnected nfyFrame) = some s ∧
        LabelledRun.run (step plainCtx) (activated peerB .empty 1)
          (reconnected []) = some s' ∧
        IsolatedRun plainCtx s s'
          [.read 2 (nfyFrame.take 5) quietEnv, .read 2 (nfyFrame.drop 5) quietEnv]
          [.read 2 (nfyFrame.take 5) otherMemory, .read 2 (nfyFrame.drop 5) otherMemory]
          t t' := by
  obtain ⟨s, hrun⟩ : ∃ s, LabelledRun.run (step plainCtx) (activated peerB .empty 1)
      (reconnected nfyFrame) = some s :=
    Option.isSome_iff_exists.mp (by decide +kernel)
  obtain ⟨s', hrun'⟩ : ∃ s, LabelledRun.run (step plainCtx)
      (activated peerB .empty 1) (reconnected []) = some s :=
    Option.isSome_iff_exists.mp (by decide +kernel)
  have hstart : SameStart 2 s s' := sameStart_of_seen .empty [7] hrun hrun'
    rfl rfl (by decide +kernel) (by decide +kernel)
  have hduring : ∀ a ∈ [ClientAction.read 2 (nfyFrame.take 5) quietEnv,
      .read 2 (nfyFrame.drop 5) quietEnv], During 2 a := by
    simp [During]
  have henv : quietEnv.SameCall otherMemory := ⟨rfl, rfl⟩
  obtain ⟨-, -, t, t', hisolated⟩ := run_isolated plainCtx peerB .empty .empty 1 1 2
    _ _ _ _ s s' hrun hrun' hstart hduring
    (.cons (.read 2 _ henv) (.cons (.read 2 _ henv) .nil))
    (by decide +kernel) (by decide +kernel)
  exact ⟨s, s', t, t', hrun, hrun', hisolated⟩

/-- A first connection that is cut five bytes into a frame keeps the first
notification of the second one from its sinks. -/
theorem run_isolated_cut_frame :
    ¬∀ (as as' bs bs' : List ClientAction) (s s' : ClientRun),
      LabelledRun.run (step plainCtx) (activated peerB .empty 1) as = some s →
      LabelledRun.run (step plainCtx) (activated peerB .empty 1) as' = some s' →
      SameStart 2 s s' → (∀ a ∈ bs, During 2 a) → List.Forall₂ SameAction bs bs' →
        LabelledRun.Along (step plainCtx) OwnersKnown (FramesUnmixed plainCtx)
            (activated peerB .empty 1) (as ++ bs) ∧
          LabelledRun.Along (step plainCtx) OwnersKnown (FramesUnmixed plainCtx)
            (activated peerB .empty 1) (as' ++ bs') ∧
          ∃ t t', IsolatedRun plainCtx s s' bs bs' t t' := by
  intro h
  let cut := reconnected (nfyFrame.take 5)
  let quiet := reconnected []
  let bs : List ClientAction := [.read 2 nfyFrame quietEnv]
  obtain ⟨s, hrun⟩ : ∃ s, LabelledRun.run (step plainCtx) (activated peerB .empty 1)
      cut = some s := Option.isSome_iff_exists.mp (by decide +kernel)
  obtain ⟨s', hrun'⟩ : ∃ s, LabelledRun.run (step plainCtx)
      (activated peerB .empty 1) quiet = some s :=
    Option.isSome_iff_exists.mp (by decide +kernel)
  have hstart : SameStart 2 s s' := sameStart_of_seen .empty [7] hrun hrun'
    rfl rfl (by decide +kernel) (by decide +kernel)
  obtain ⟨-, -, t, t', hisolated⟩ := h cut quiet bs bs s s' hrun hrun' hstart
    (by simp [bs, During]) (.cons (.read 2 _ ⟨rfl, rfl⟩) .nil)
  have hbefore : (LabelledRun.run (step plainCtx) (activated peerB .empty 1)
      cut).map (·.state.told) = some [] := by decide +kernel
  have hbefore' : (LabelledRun.run (step plainCtx) (activated peerB .empty 1)
      quiet).map (·.state.told) = some [] := by decide +kernel
  have htold : (LabelledRun.run (step plainCtx) (activated peerB .empty 1)
      (cut ++ bs)).map (·.state.told) = some [] := by decide +kernel
  have htold' : (LabelledRun.run (step plainCtx) (activated peerB .empty 1)
      (quiet ++ bs)).map (·.state.told) =
        some [.onRecvNfy 7 peerB ⟨nfyPassback, 1⟩ []] := by decide +kernel
  rw [hrun, Option.map_some, Option.some.injEq] at hbefore
  rw [hrun', Option.map_some, Option.some.injEq] at hbefore'
  rw [LabelledRun.run_append, hrun, Option.bind_some, hisolated.run,
    Option.map_some, Option.some.injEq] at htold
  rw [LabelledRun.run_append, hrun', Option.bind_some, hisolated.run',
    Option.map_some, Option.some.injEq] at htold'
  obtain ⟨notes, hnotes, hnotes'⟩ := hisolated.told
  rw [htold, hbefore, List.nil_append] at hnotes
  rw [htold', hbefore', List.nil_append, ← hnotes] at hnotes'
  cases hnotes'

end ClientRun

end CommonComponent
