import CommonComponent.ProtoMsgStream
import CommonComponent.ProtoTcpClientReconnect

/-!
# The input of the client

Only `ReadCallback` takes bytes in and tells sinks of messages.  On a beginning of a
stream of encoded messages it works through messages in the order they were written
in; each of them leaves its own group of notes, so that no sink is told of a message
out of turn, twice, or of one that was not sent.
-/

namespace CommonComponent

open FramedStream

/-- A note that the read loop leaves for a message. -/
def ReadNote.About (msg : MsgHead × Bytes) : ReadNote → Prop
  | .onRecvNfy _ _ msgHead msgBody => msg.1.passback = nfyPassback ∧ msg = (msgHead, msgBody)
  | .onRecvRsp transId _ _ msgHead msgBody =>
      msg.1.passback ≠ nfyPassback ∧ msg.1.passback.toInt = transId ∧
        msg.1.msgId = msgHead.msgId ∧ msg.2 = msgBody
  | .cancelTrans transId _ => msg.1.passback ≠ nfyPassback ∧ msg.1.passback.toInt = transId

/-- The notes come in groups, one for each message. -/
def GroupedBy (msgs : List (MsgHead × Bytes)) (notes : List ReadNote) : Prop :=
  ∃ groups, notes = groups.flatten ∧
    List.Forall₂ (fun msg group => ∀ note ∈ group, note.About msg) msgs groups

theorem GroupedBy.nil : GroupedBy [] [] := ⟨[], rfl, .nil⟩

theorem GroupedBy.append {msgs msgs' : List (MsgHead × Bytes)} {notes notes' : List ReadNote}
    (h : GroupedBy msgs notes) (h' : GroupedBy msgs' notes') :
    GroupedBy (msgs ++ msgs') (notes ++ notes') := by
  obtain ⟨groups, rfl, hgroups⟩ := h
  obtain ⟨groups', rfl, hgroups'⟩ := h'
  exact ⟨groups ++ groups', List.flatten_append.symm, List.rel_append hgroups hgroups'⟩

theorem GroupedBy.single {msg : MsgHead × Bytes} {notes : List ReadNote}
    (h : ∀ note ∈ notes, note.About msg) : GroupedBy [msg] notes :=
  ⟨[notes], by simp, .cons h .nil⟩

/-- Every note is about one of the messages. -/
theorem GroupedBy.about {msgs : List (MsgHead × Bytes)} {notes : List ReadNote}
    (h : GroupedBy msgs notes) {note : ReadNote} (hnote : note ∈ notes) :
    ∃ msg ∈ msgs, note.About msg := by
  obtain ⟨groups, rfl, hgroups⟩ := h
  induction hgroups with
  | nil => cases hnote
  | cons hgroup _ ih =>
      rw [List.flatten_cons, List.mem_append] at hnote
      obtain hnote | hnote := hnote
      · exact ⟨_, List.mem_cons_self, hgroup note hnote⟩
      · obtain ⟨msg, hmsg, habout⟩ := ih hnote
        exact ⟨msg, List.mem_cons_of_mem _ hmsg, habout⟩

namespace ClientState

variable {ctx : ClientCenterCtx} {env : CallEnv}

/-! ## What does not read -/

theorem setConnected_told (s : ClientState) (flag : Bool) (bufEvent : Option ℕ) :
    (s.setConnected ctx env flag bufEvent).told = s.told := by
  unfold setConnected
  split
  · rfl
  · split
    · split
      · rfl
      · dsimp only
        split <;> rfl
    · dsimp only
      split
      · obtain ⟨adds, map, list, hsent⟩ := sendCacheMsg_shape env
          (stopConnectTimer { s with
            client := { s.client with
              reconnectFailedCount := 0, connected := flag, bufEvent := bufEvent } })
        simp only [notifyPeer, hsent]
        rfl
      · unfold startConnectTimer
        split
        · rfl
        · split <;> rfl

theorem eventCallback_told (s : ClientState) (bufEvent : ℕ) (events : BevEvents)
    (inputLen : ℕ) : (s.eventCallback ctx env bufEvent events inputLen).told = s.told := by
  unfold eventCallback
  split
  · exact setConnected_told s true _
  · split
    · exact setConnected_told _ false _
    · rfl

theorem connect_told (s : ClientState) (bufEvent : Option ℕ) :
    (s.connect bufEvent).told = s.told ∧
      (s.connect bufEvent).client.recvedData = s.client.recvedData := by
  cases bufEvent <;> exact ⟨rfl, rfl⟩

end ClientState

/-- Steps other than reads keep the receive buffer and what the sinks were told. -/
theorem ClientRun.step_sameInput {ctx : ClientCenterCtx} {s s' : ClientRun}
    {a : ClientAction} (hread : ∀ bufEvent chunk env, a ≠ .read bufEvent chunk env)
    (hstep : s.step ctx a = some s') :
    s'.state.client.recvedData = s.state.client.recvedData ∧
      s'.state.told = s.state.told := by
  unfold step at hstep
  split at hstep
  · cases hstep
  · cases a with
    | onTimer bufEvent =>
        dsimp only at hstep
        split at hstep
        · cases hstep
          exact (ClientState.connect_told s.state bufEvent).symm
        · cases hstep
    | event bufEvent events inputLen env =>
        dsimp only at hstep
        split at hstep
        · cases hstep
          exact ⟨(ClientState.eventCallback_kept ctx env _ _ _ _).1,
            ClientState.eventCallback_told _ _ _ _⟩
        · cases hstep
    | read bufEvent chunk env => exact absurd rfl (hread bufEvent chunk env)
    | send msgHead msgBody asyncCtx env =>
        cases hstep
        exact ⟨ClientState.send_recvedData _ _ _ _, ClientState.send_told _ _ _ _⟩
    | addNfySink sink =>
        cases hstep
        dsimp only [ClientState.addNfySink]
        split <;> exact ⟨rfl, rfl⟩
    | removeNfySink sink =>
        cases hstep
        exact ⟨rfl, rfl⟩
    | table tc =>
        cases hstep
        exact ⟨rfl, rfl⟩

namespace ClientState

variable {ctx : ClientCenterCtx} {env : CallEnv}

/-! ## Reading a stream of messages -/

theorem handleMsg_about {pass : ℕ} {s s' : ClientState} {msgHead : MsgHead} {msgBody : Bytes}
    (h : s.handleMsg env pass msgHead msgBody = some s') :
    ∃ notes, s'.told = s.told ++ notes ∧
      ∀ note ∈ notes, note.About (msgHead, msgBody) := by
  by_cases hnfy : msgHead.passback = nfyPassback
  · rw [handleMsg_nfy msgBody hnfy, Option.some.injEq] at h
    subst h
    refine ⟨_, rfl, fun note hnote => ?_⟩
    obtain ⟨sink, -, rfl⟩ := List.mem_map.mp hnote
    exact ⟨hnfy, rfl⟩
  · cases hctx : s.tc.transHashMap msgHead.passback.toInt with
    | none =>
        rw [handleMsg_unknown msgBody hnfy hctx] at h
        cases h
    | some transCtx =>
        rw [handleMsg_rsp msgBody hnfy hctx, Option.some.injEq] at h
        subst h
        refine ⟨_, rfl, fun note hnote => ?_⟩
        obtain hnote | hnote := List.mem_append.mp hnote
        · obtain ⟨sink, -, rfl⟩ := List.mem_map.mp hnote
          exact ⟨hnfy, rfl, rfl, rfl⟩
        · rw [List.mem_singleton.mp hnote]
          exact ⟨hnfy, rfl⟩

/-- The pass that meets the bytes left behind the messages of a buffer does not take
what lies behind them for a refused length. -/
def ReadsShort (ctx : ClientCenterCtx) (env : CallEnv) (pass : ℕ) (d : Bytes) : Prop :=
  let taken := ctx.msgCodec.framing.drain d
  taken.2 = [] ∨ ¬ctx.msgCodec.Misreads (env.behind (pass + taken.1.length)) taken.2

instance readsShortDecidable (pass : ℕ) (d : Bytes) :
    Decidable (ReadsShort ctx env pass d) :=
  inferInstanceAs (Decidable (_ ∨ ¬_))

theorem readsShort_rest {pass : ℕ} {d totalMsg rest : Bytes}
    (hhead : ctx.msgCodec.headOf d = .whole totalMsg rest) (h : ReadsShort ctx env pass d) :
    ReadsShort ctx env (pass + 1) rest := by
  unfold ReadsShort at h ⊢
  rw [ctx.msgCodec.framing.drain_whole hhead] at h
  dsimp only at h ⊢
  rw [List.length_cons] at h
  rwa [show pass + 1 + (ctx.msgCodec.framing.drain rest).1.length =
    pass + ((ctx.msgCodec.framing.drain rest).1.length + 1) by omega]

/-- The loop on a beginning of a stream of messages that are not too long. -/
theorem Reads.takes {pass : ℕ} {s t : ClientState} (h : Reads ctx env pass s t)
    {msgs : List (MsgHead × Bytes)} (hne : s.client.recvedData ≠ [])
    (hd : s.client.recvedData <+: ctx.msgCodec.encodeAll msgs)
    (hmsgs : ∀ msg ∈ msgs, MsgCodec.Sendable msg.2 ∧
      ctx.msgCodec.LenOk (minTotalMsgLen + msg.2.length))
    (hshort : ReadsShort ctx env pass s.client.recvedData) :
    ∃ taken notes, taken <+: msgs ∧ t.told = s.told ++ notes ∧ GroupedBy taken notes ∧
      s.client.recvedData = ctx.msgCodec.encodeAll taken ++ t.client.recvedData := by
  -- A complete message at the head of the buffer is the next one of the stream.
  have hnext : ∀ {d totalMsg rest : Bytes} {msgs : List (MsgHead × Bytes)},
      d <+: ctx.msgCodec.encodeAll msgs →
      (∀ msg ∈ msgs, MsgCodec.Sendable msg.2 ∧
        ctx.msgCodec.LenOk (minTotalMsgLen + msg.2.length)) →
      ctx.msgCodec.headOf d = .whole totalMsg rest →
      ∃ msg later, msgs = msg :: later ∧ ctx.msgCodec.decodeMsg totalMsg = .ok msg ∧
        d = ctx.msgCodec.encodeMsg msg.1 msg.2 ++ rest ∧
        rest <+: ctx.msgCodec.encodeAll later := by
    intro d totalMsg rest msgs hd hmsgs hhead
    obtain hwait | ⟨msg, later, rest', hcons, hwhole, hsplit, hrest⟩ :=
      MsgCodec.headOf_of_prefix hd hmsgs
    · rw [hhead] at hwait
      cases hwait
    · rw [hhead, Head.whole.injEq] at hwhole
      obtain ⟨rfl, rfl⟩ := hwhole
      exact ⟨msg, later, hcons, MsgCodec.decodeMsg_encodedMsg _ _ _, hsplit, hrest⟩
  induction h generalizing msgs with
  | waiting => exact ⟨[], [], List.nil_prefix, (List.append_nil _).symm, .nil, rfl⟩
  | unknown => exact ⟨[], [], List.nil_prefix, (List.append_nil _).symm, .nil, rfl⟩
  | refused hrefused =>
      exfalso
      obtain hwait | ⟨msg, later, rest, -, hwhole, -⟩ :=
        MsgCodec.headOf_of_prefix hd hmsgs
      · obtain hbroken | hmisread := hrefused
        · rw [hwait] at hbroken
          cases hbroken
        · have hstop := ctx.msgCodec.framing.drain_of_not_startsWhole
            (not_startsWhole_of_headOf (by rw [hwait]; simp))
          rw [ReadsShort, hstop] at hshort
          exact hshort.elim hne fun h => h hmisread
      · obtain hbroken | hmisread := hrefused
        · rw [hwhole] at hbroken
          cases hbroken
        · rw [MsgCodec.headOf_of_short hmisread.1] at hwhole
          cases hwhole
  | mismatch hhead hdecode =>
      obtain ⟨msg, later, -, hok, -⟩ := hnext hd hmsgs hhead
      rw [hok] at hdecode
      cases hdecode
  | last hhead hdecode hhandle =>
      obtain ⟨msg, later, rfl, hok, hsplit, -⟩ := hnext hd hmsgs hhead
      rw [hok, Except.ok.injEq] at hdecode
      obtain ⟨notes, htold, habout⟩ := handleMsg_about hhandle
      refine ⟨[msg], notes, ?_, htold, .single (hdecode ▸ habout), ?_⟩
      · rw [List.cons_prefix_cons]
        exact ⟨rfl, List.nil_prefix⟩
      · rw [hsplit, MsgCodec.encodeAll_cons]
        simp only [MsgCodec.encodeAll, List.flatMap_nil, setRecvedData, List.append_nil]
  | @next pass s s' t totalMsg rest msgHead msgBody hhead hrest hdecode hhandle hlater ih =>
      obtain ⟨msg, later, rfl, hok, hsplit, hprefix⟩ := hnext hd hmsgs hhead
      rw [hok, Except.ok.injEq] at hdecode
      obtain ⟨notes, htold, habout⟩ := handleMsg_about hhandle
      rw [List.forall_mem_cons] at hmsgs
      obtain ⟨taken, notes', htaken, htold', hgrouped, hleft⟩ :=
        ih hrest hprefix hmsgs.2 (readsShort_rest hhead hshort)
      refine ⟨msg :: taken, notes ++ notes', ?_, ?_, ?_, ?_⟩
      · rw [List.cons_prefix_cons]
        exact ⟨rfl, htaken⟩
      · rw [htold', ← List.append_assoc, ← htold]
        rfl
      · exact GroupedBy.append (.single (hdecode ▸ habout)) hgrouped
      · have hrest' : rest = ctx.msgCodec.encodeAll taken ++ t.client.recvedData := hleft
        rw [hsplit, hrest', MsgCodec.encodeAll_cons, List.append_assoc]

/-- **Reading.**  A call with the next bytes of a stream of messages takes messages
off its buffer in the order of the stream, and tells the sinks of these only. -/
theorem readCallback_takes {s t : ClientState} {chunk : Bytes}
    {msgs : List (MsgHead × Bytes)} (hcall : s.readCallback ctx env chunk = some t)
    (hd : s.client.recvedData ++ chunk <+: ctx.msgCodec.encodeAll msgs)
    (hmsgs : ∀ msg ∈ msgs, MsgCodec.Sendable msg.2 ∧
      ctx.msgCodec.LenOk (minTotalMsgLen + msg.2.length))
    (hshort : ReadsShort ctx env 0 (s.client.recvedData ++ chunk)) :
    ∃ taken notes, taken <+: msgs ∧ t.told = s.told ++ notes ∧ GroupedBy taken notes ∧
      s.client.recvedData ++ chunk =
        ctx.msgCodec.encodeAll taken ++ t.client.recvedData := by
  obtain ⟨t', hcall', ⟨rfl, rfl⟩ | ⟨hchunk, hreads⟩⟩ := readCallback_reads ctx env s chunk
  · rw [hcall, Option.some.injEq] at hcall'
    subst hcall'
    refine ⟨[], [], List.nil_prefix, (List.append_nil _).symm, .nil, ?_⟩
    rw [List.append_nil]
    rfl
  · rw [hcall, Option.some.injEq] at hcall'
    subst hcall'
    have hne : s.client.recvedData ++ chunk ≠ [] := by simp [hchunk]
    exact hreads.takes hne hd hmsgs hshort

end ClientState
end CommonComponent
