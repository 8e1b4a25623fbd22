import CommonComponent.ProtoSession
import CommonComponent.ProtoTcpClientInput

/-!
# What comes back to the client

The replies of the server reach the client's sinks in the order they were queued
in.  Whatever the socket takes of them at a time and however the client reads it,
each note is about the next message of the stream, and every answer that a sink is
told of carries the passback of a message that a handler of the server was given.

The property of the messages queued is a parameter, which may look at what the
handlers have been given so far, so the run is gone through only once.
-/

namespace CommonComponent

open FramedStream LabelledRun

namespace SendRun

variable {codec : MsgCodec} {Q : MsgHead × Bytes → Prop} {s s' : SendRun}

/-- Between the two states messages are queued, and the wire takes more bytes. -/
def Queues (codec : MsgCodec) (Q : MsgHead × Bytes → Prop) (s s' : SendRun) : Prop :=
  ∃ msgs, (∀ msg ∈ msgs, Q msg) ∧ s'.sent = s.sent ++ codec.encodeAll msgs ∧
    s.accepted <+: s'.accepted

theorem Queues.of_sent_eq (hsent : s'.sent = s.sent) (haccepted : s.accepted <+: s'.accepted) :
    Queues codec Q s s' :=
  ⟨[], by simp, by rw [hsent]; exact (List.append_nil _).symm, haccepted⟩

theorem Queues.refl (s : SendRun) : Queues codec Q s s := .of_sent_eq rfl List.prefix_rfl

theorem Queues.trans {s'' : SendRun} (h : Queues codec Q s s') (h' : Queues codec Q s' s'') :
    Queues codec Q s s'' := by
  obtain ⟨msgs, hmsgs, hsent, haccepted⟩ := h
  obtain ⟨msgs', hmsgs', hsent', haccepted'⟩ := h'
  refine ⟨msgs ++ msgs', ?_, ?_, haccepted.trans haccepted'⟩
  · rw [List.forall_mem_append]
    exact ⟨hmsgs, hmsgs'⟩
  · rw [hsent', hsent, MsgCodec.encodeAll_append, List.append_assoc]

/-- The data of a `Send` is an encoded message. -/
def SendsMsg (codec : MsgCodec) (Q : MsgHead × Bytes → Prop) : SendAction → Prop
  | .send data _ _ => ∃ msg, Q msg ∧ data = codec.encodeMsg msg.1 msg.2
  | _ => True

theorem write_queues {data : Bytes} {rest : List Bytes} {sentLen wantSendLen : ℕ}
    {eventDel : Bool} {result : WriteResult}
    (h : s.write data rest sentLen wantSendLen eventDel result = some s') :
    Queues codec Q s s' := by
  cases result with
  | interrupted => exact Option.some.inj h ▸ .refl s
  | again => exact Option.some.inj h ▸ .of_sent_eq rfl List.prefix_rfl
  | failed => exact Option.some.inj h ▸ .of_sent_eq rfl List.prefix_rfl
  | peerClosed => exact Option.some.inj h ▸ .of_sent_eq rfl List.prefix_rfl
  | wrote n =>
      simp only [write] at h
      split at h
      · cases h
      · split at h
        · exact Option.some.inj h ▸ .refl s
        · split at h
          · exact Option.some.inj h ▸ .of_sent_eq rfl (List.prefix_append _ _)
          · exact Option.some.inj h ▸ .of_sent_eq rfl (List.prefix_append _ _)

theorem step_queues {a : SendAction} (hsends : SendsMsg codec Q a)
    (hstep : s.step a = some s') : Queues codec Q s s' := by
  cases a with
  | send data eventNew eventAdd =>
      rw [step] at hstep
      split at hstep
      · cases hstep
      · rw [Option.some.injEq] at hstep
        subst hstep
        obtain ⟨msg, hmsg, rfl⟩ := hsends
        cases (s.conn.send (codec.encodeMsg msg.1 msg.2) eventNew eventAdd).2 with
        | false => exact .of_sent_eq rfl List.prefix_rfl
        | true =>
            refine ⟨[msg], by simpa using hmsg, ?_, List.prefix_rfl⟩
            simp [MsgCodec.encodeAll]
  | writeCallback eventDel =>
      obtain ⟨-, hstep⟩ := Option.ite_none_right_eq_some.mp hstep
      obtain rfl := Option.some.inj hstep
      exact .of_sent_eq rfl List.prefix_rfl
  | write result eventDel =>
      rw [step] at hstep
      split at hstep
      · exact write_queues hstep
      · cases hstep

/-- A list of `Send` calls. -/
theorem run_queues {sends : List SendAction} (hinv : s.Inv)
    (hsends : ∀ a ∈ sends, SendsMsg codec Q a) (hrun : run step s sends = some s') :
    s'.Inv ∧ Queues codec Q s s' := by
  induction sends generalizing s with
  | nil =>
      rw [run, Option.some.injEq] at hrun
      exact hrun ▸ ⟨hinv, .refl s⟩
  | cons a sends ih =>
      obtain ⟨u, hstep, hrun⟩ := Option.bind_eq_some_iff.mp hrun
      rw [List.forall_mem_cons] at hsends
      obtain ⟨hinv', hlater⟩ := ih (hinv.step hstep) hsends.2 hrun
      exact ⟨hinv', (step_queues hsends.1 hstep).trans hlater⟩

end SendRun

namespace Session

variable {σ : Type*} (c : SessionCtx σ)

/-! ## What the server queues -/

/-- A property of a reply, of the messages that handlers have been given. -/
abbrev ReplyProp := List (MsgHead × Bytes) → MsgHead × Bytes → Prop

/-- A property that more messages do not end, and that `ProtoLogic`'s own replies
have. -/
structure ReplyProp.Lasting (Q : ReplyProp) : Prop where
  mono : ∀ {given given' msg}, given <+: given' → Q given msg → Q given' msg
  own : ∀ {given head},
    (head.passback = 0 ∨ ∃ msg ∈ given, msg.1.passback = head.passback) → Q given (head, [])

def given (s : Session σ) : List (MsgHead × Bytes) := ProtoLogic.delivered s.conn.events

/-- A reply that the client takes. -/
def FitsClient (msg : MsgHead × Bytes) : Prop :=
  MsgCodec.Sendable msg.2 ∧ c.client.msgCodec.LenOk (minTotalMsgLen + msg.2.length)

instance fitsClientDecidable (msg : MsgHead × Bytes) : Decidable (FitsClient c msg) :=
  inferInstanceAs (Decidable (minTotalMsgLen + msg.2.length < 2 ^ 32 ∧
    (minTotalMsgLen ≤ minTotalMsgLen + msg.2.length ∧
      minTotalMsgLen + msg.2.length ≤ c.client.msgCodec.maxTotalMsgLen)))

/-- What handlers send back in a call fits the client and has the property. -/
def CallsFit (Q : ReplyProp) (calls : List SendCall) : Option (ConnState σ) → Prop
  | none => True
  | some conn => ∀ call ∈ calls, ∀ msg ∈ call.msg,
      FitsClient c msg ∧ Q (ProtoLogic.delivered conn.events) msg

instance callsFitDecidable (Q : ReplyProp) [∀ given msg, Decidable (Q given msg)]
    (calls : List SendCall) : ∀ conn : Option (ConnState σ), Decidable (CallsFit c Q calls conn)
  | none => .isTrue trivial
  | some conn => inferInstanceAs (Decidable (∀ call ∈ calls, ∀ msg ∈ call.msg,
      FitsClient c msg ∧ Q (ProtoLogic.delivered conn.events) msg))

/-- The handlers' replies fit the client and have the property; a read of the client
does not take what lies behind its buffer for a length. -/
def RepliesFit (Q : ReplyProp) (s : Session σ) : SessionAction → Prop
  | .reply msgHead msgBody _ _ =>
      FitsClient c (msgHead, msgBody) ∧ Q s.given (msgHead, msgBody)
  | .arrive n env calls => CallsFit c Q calls
      (c.server.onRecvClientData env s.conn (((s.output c).drop s.arrived).take n))
  | .read n env => ClientState.ReadsShort c.client env 0
      (s.client.state.client.recvedData ++ (s.sender.accepted.drop s.read).take n)
  | _ => True

instance repliesFitDecidable (Q : ReplyProp) [∀ given msg, Decidable (Q given msg)]
    (s : Session σ) (a : SessionAction) : Decidable (RepliesFit c Q s a) :=
  match a with
  | .reply msgHead msgBody _ _ =>
      inferInstanceAs (Decidable (FitsClient c (msgHead, msgBody) ∧
        Q s.given (msgHead, msgBody)))
  | .arrive n env calls => callsFitDecidable c Q calls
      (c.server.onRecvClientData env s.conn (((s.output c).drop s.arrived).take n))
  | .read n env => inferInstanceAs (Decidable (ClientState.ReadsShort c.client env 0
      (s.client.state.client.recvedData ++ (s.sender.accepted.drop s.read).take n)))
  | .client _ => .isTrue trivial
  | .flush _ => .isTrue trivial
  | .write _ _ => .isTrue trivial
  | .close => .isTrue trivial

variable {c}

theorem sendsMsg_of_sendsOf {codec : MsgCodec} {Q : MsgHead × Bytes → Prop}
    {replies : List Bytes} {calls : List SendCall} {sends : List SendAction}
    (hsends : sendsOf codec replies calls = some sends)
    (hreplies : ∀ data ∈ replies, ∃ msg, Q msg ∧ data = codec.encodeMsg msg.1 msg.2)
    (hcalls : ∀ call ∈ calls, ∀ msg ∈ call.msg, Q msg) :
    ∀ a ∈ sends, SendRun.SendsMsg codec Q a := by
  induction calls generalizing replies sends with
  | nil =>
      cases replies with
      | nil =>
          rw [sendsOf, Option.some.injEq] at hsends
          subst hsends
          simp
      | cons data replies => cases hsends
  | cons call calls ih =>
      rw [List.forall_mem_cons] at hcalls
      obtain ⟨msg, eventNew, eventAdd⟩ := call
      cases msg with
      | some msg =>
          have hone : Q msg := hcalls.1 msg rfl
          rw [sendsOf] at hsends
          obtain ⟨later, hlater, rfl⟩ := Option.map_eq_some_iff.mp hsends
          rw [List.forall_mem_cons]
          exact ⟨⟨msg, hone, rfl⟩, ih hlater hreplies hcalls.2⟩
      | none =>
          cases replies with
          | nil => cases hsends
          | cons data replies =>
              rw [List.forall_mem_cons] at hreplies
              rw [sendsOf] at hsends
              obtain ⟨later, hlater, rfl⟩ := Option.map_eq_some_iff.mp hsends
              rw [List.forall_mem_cons]
              exact ⟨hreplies.1, ih hlater hreplies.2 hcalls.2⟩

/-! ## The invariant -/

/-- What the client has taken of the bytes it has read. -/
structure RepliesInv (c : SessionCtx σ) (Q : ReplyProp) (s : Session σ) : Prop where
  sender : s.sender.Inv
  read : s.read ≤ s.sender.accepted.length
  stream : ∃ msgs taken, (∀ msg ∈ msgs, FitsClient c msg ∧ Q s.given msg) ∧
    s.sender.sent = c.client.msgCodec.encodeAll msgs ∧ taken <+: msgs ∧
    s.sender.accepted.take s.read =
      c.client.msgCodec.encodeAll taken ++ s.client.state.client.recvedData ∧
    GroupedBy taken s.client.state.told

variable {Q : ReplyProp}

theorem RepliesInv.start (peer : Peer) (tc : TransCenter)
    (partMsgMgr : RecordTimeoutMgr ℕ ConnGUID) (logic : σ) :
    RepliesInv c Q (start c peer tc partMsgMgr logic) where
  sender := .init
  read := le_rfl
  stream := ⟨[], [], by simp, rfl, List.prefix_rfl, rfl, .nil⟩

/-- The server goes on: it is given messages, queues replies, and the socket takes
some. -/
theorem RepliesInv.of_server {s t : Session σ} (h : RepliesInv c Q s)
    (hlasting : Q.Lasting) (hgiven : s.given <+: t.given) (hinv : t.sender.Inv)
    (hqueues : SendRun.Queues c.client.msgCodec (fun msg => FitsClient c msg ∧ Q t.given msg)
      s.sender t.sender) (hclient : t.client = s.client) (hread : t.read = s.read) :
    RepliesInv c Q t := by
  obtain ⟨more, hmore, hsent', haccepted⟩ := hqueues
  obtain ⟨msgs, taken, hmsgs, hsent, htaken, hbytes, hgrouped⟩ := h.stream
  refine ⟨hinv, hread ▸ h.read.trans haccepted.length_le, msgs ++ more, taken, ?_, ?_, ?_, ?_, ?_⟩
  · rw [List.forall_mem_append]
    exact ⟨fun msg hmsg => ⟨(hmsgs msg hmsg).1, hlasting.mono hgiven (hmsgs msg hmsg).2⟩, hmore⟩
  · rw [hsent', hsent, MsgCodec.encodeAll_append]
  · exact htaken.trans (List.prefix_append _ _)
  · obtain ⟨more, hmore⟩ := haccepted
    rw [hclient, hread, ← hmore, List.take_append_of_le_length h.read, hbytes]
  · rw [hclient]
    exact hgrouped

/-- The client does something else than read. -/
theorem RepliesInv.of_client {s : Session σ} (h : RepliesInv c Q s) {client : ClientRun}
    (hdata : client.state.client.recvedData = s.client.state.client.recvedData)
    (htold : client.state.told = s.client.state.told) :
    RepliesInv c Q { s with client := client } := by
  obtain ⟨msgs, taken, hmsgs, hsent, htaken, hbytes, hgrouped⟩ := h.stream
  refine ⟨h.sender, h.read, msgs, taken, hmsgs, hsent, htaken, ?_, ?_⟩
  · rw [hdata]
    exact hbytes
  · rw [htold]
    exact hgrouped

/-- The client reads the next bytes that the server's socket has taken. -/
theorem RepliesInv.of_read {s : Session σ} (h : RepliesInv c Q s) {n : ℕ} {env : CallEnv}
    {client : ClientRun} (hn : n ≤ (s.sender.accepted.drop s.read).length)
    (hshort : ClientState.ReadsShort c.client env 0
      (s.client.state.client.recvedData ++ (s.sender.accepted.drop s.read).take n))
    (hcall : s.client.state.readCallback c.client env
      ((s.sender.accepted.drop s.read).take n) = some client.state) :
    RepliesInv c Q { s with client := client, read := s.read + n } := by
  obtain ⟨msgs, taken, hmsgs, hsent, ⟨later, rfl⟩, hbytes, hgrouped⟩ := h.stream
  have hread : s.sender.accepted.take (s.read + n) =
      c.client.msgCodec.encodeAll taken ++
        (s.client.state.client.recvedData ++ (s.sender.accepted.drop s.read).take n) := by
    rw [List.take_add, hbytes, List.append_assoc]
  have hnext : s.client.state.client.recvedData ++ (s.sender.accepted.drop s.read).take n <+:
      c.client.msgCodec.encodeAll later := by
    refine (List.prefix_append_right_inj (c.client.msgCodec.encodeAll taken)).mp ?_
    rw [← hread, ← MsgCodec.encodeAll_append, ← hsent]
    exact (List.take_prefix _ _).trans h.sender.wire
  obtain ⟨more, notes, hmore, htold, hgrouped', hleft⟩ :=
    ClientState.readCallback_takes hcall hnext
      (fun msg hmsg => (hmsgs msg (List.mem_append_right _ hmsg)).1) hshort
  refine ⟨h.sender, ?_, taken ++ later, taken ++ more, hmsgs, hsent, ?_, ?_, ?_⟩
  · have := h.read
    rw [List.length_drop] at hn
    change s.read + n ≤ s.sender.accepted.length
    omega
  · exact (List.prefix_append_right_inj _).mpr hmore
  · change s.sender.accepted.take (s.read + n) = _
    rw [hread, hleft, MsgCodec.encodeAll_append, List.append_assoc]
  · change GroupedBy (taken ++ more) client.state.told
    rw [htold]
    exact hgrouped.append hgrouped'

theorem RepliesInv.arrive {s : Session σ} (h : RepliesInv c Q s)
    (hformat : MsgCodec.SameFormat c.client.msgCodec c.server.msgCodec)
    (hmax : minTotalMsgLen ≤ c.client.msgCodec.maxTotalMsgLen) (hlasting : Q.Lasting)
    {chunk : Bytes} {env : RecvEnv} {calls : List SendCall} {conn : ConnState σ}
    {sends : List SendAction} {sender : SendRun} {arrived : ℕ} (hopen : s.conn.data.isSome)
    (hcall : c.server.onRecvClientData env s.conn chunk = some conn)
    (hcalls : CallsFit c Q calls (some conn))
    (hsends : sendsOf c.server.msgCodec
      (ProtoLogic.replies (conn.events.drop s.conn.events.length)) calls = some sends)
    (hrun : run SendRun.step s.sender sends = some sender) :
    RepliesInv c Q { s with conn := conn, sender := sender, arrived := arrived } := by
  obtain ⟨d, hd⟩ := Option.isSome_iff_exists.mp hopen
  obtain ⟨new, htakes⟩ := ProtoLogic.onRecvClientData_takes hd hcall
  have hnew : conn.events.drop s.conn.events.length = new := by
    rw [htakes.events, List.drop_left]
  have hdelivered : ProtoLogic.delivered conn.events = s.given ++ ProtoLogic.delivered new := by
    rw [htakes.events, ProtoLogic.delivered_append]
    rfl
  rw [hnew] at hsends
  have hmsgs := sendsMsg_of_sendsOf
    (Q := fun msg => FitsClient c msg ∧ Q (ProtoLogic.delivered conn.events) msg)
    hsends ?_ hcalls
  · have hmsgs' : ∀ a ∈ sends, SendRun.SendsMsg c.client.msgCodec
        (fun msg => FitsClient c msg ∧ Q (ProtoLogic.delivered conn.events) msg) a := by
      intro a ha
      have hsend := hmsgs a ha
      cases a with
      | send data eventNew eventAdd =>
          obtain ⟨msg, hmsg, hdata⟩ := hsend
          exact ⟨msg, hmsg, hdata.trans (hformat.encodeMsg_eq _ _).symm⟩
      | writeCallback eventDel => trivial
      | write result eventDel => trivial
    obtain ⟨hinv, hqueues⟩ := SendRun.run_queues h.sender hmsgs' hrun
    refine h.of_server hlasting ?_ hinv hqueues rfl rfl
    change s.given <+: ProtoLogic.delivered conn.events
    exact hdelivered ▸ List.prefix_append _ _
  · intro data hdata
    obtain ⟨head, rfl, hhead⟩ := htakes.answers data hdata
    refine ⟨(head, []), ⟨⟨?_, Nat.le_add_right _ _, hmax⟩, hlasting.own (hhead.imp_right ?_)⟩, rfl⟩
    · exact (show minTotalMsgLen + ([] : Bytes).length < 2 ^ 32 by decide)
    · rintro ⟨msg, hmsg, hpassback⟩
      exact ⟨msg, hdelivered ▸ List.mem_append_right _ hmsg, hpassback⟩

theorem given_closeClient {s : Session σ} (hopen : s.conn.data.isSome) :
    ProtoLogic.delivered (c.server.closeClient s.conn).events = s.given := by
  obtain ⟨d, hd⟩ := Option.isSome_iff_exists.mp hopen
  rw [ProtoLogic.closeClient, hd]
  dsimp only
  rw [ProtoLogic.delivered_append]
  exact List.append_nil _

theorem RepliesInv.step {s s' : Session σ} {a : SessionAction} (h : RepliesInv c Q s)
    (hformat : MsgCodec.SameFormat c.client.msgCodec c.server.msgCodec)
    (hmax : minTotalMsgLen ≤ c.client.msgCodec.maxTotalMsgLen) (hlasting : Q.Lasting)
    (hfit : RepliesFit c Q s a) (hstep : s.step c a = some s') : RepliesInv c Q s' := by
  cases a with
  | client a =>
      rw [Session.step] at hstep
      split at hstep
      next hown =>
        obtain ⟨client, hclient, rfl⟩ := Option.map_eq_some_iff.mp hstep
        have hread : ∀ bufEvent chunk env, a ≠ .read bufEvent chunk env := by
          rintro bufEvent chunk env rfl
          cases hown
        obtain ⟨hdata, htold⟩ := ClientRun.step_sameInput hread hclient
        exact h.of_client hdata htold
      next => cases hstep
  | arrive n env calls =>
      rw [Session.step] at hstep
      split at hstep
      next hguard =>
        obtain ⟨conn, hcall, hsent⟩ := Option.bind_eq_some_iff.mp hstep
        obtain ⟨sends, hsends, hsent⟩ := Option.bind_eq_some_iff.mp hsent
        obtain ⟨sender, hrun, rfl⟩ := Option.map_eq_some_iff.mp hsent
        rw [RepliesFit, hcall] at hfit
        exact h.arrive hformat hmax hlasting hguard.2.2.1 hcall hfit hsends hrun
      next => cases hstep
  | reply msgHead msgBody eventNew eventAdd =>
      rw [Session.step] at hstep
      split at hstep
      · obtain ⟨sender, hsender, rfl⟩ := Option.map_eq_some_iff.mp hstep
        refine h.of_server hlasting List.prefix_rfl (h.sender.step hsender)
          (SendRun.step_queues ?_ hsender) rfl rfl
        exact ⟨(msgHead, msgBody), hfit, (hformat.encodeMsg_eq _ _).symm⟩
      · cases hstep
  | flush eventDel =>
      rw [Session.step] at hstep
      split at hstep
      · obtain ⟨sender, hsender, rfl⟩ := Option.map_eq_some_iff.mp hstep
        refine h.of_server hlasting List.prefix_rfl (h.sender.step hsender)
          (SendRun.step_queues ?_ hsender) rfl rfl
        trivial
      · cases hstep
  | write result eventDel =>
      rw [Session.step] at hstep
      split at hstep
      · obtain ⟨sender, hsender, rfl⟩ := Option.map_eq_some_iff.mp hstep
        refine h.of_server hlasting List.prefix_rfl (h.sender.step hsender)
          (SendRun.step_queues ?_ hsender) rfl rfl
        trivial
      · cases hstep
  | close =>
      rw [Session.step] at hstep
      split at hstep
      next hopen =>
        rw [Option.some.injEq] at hstep
        subst hstep
        refine h.of_server hlasting ?_ h.sender (.refl _) rfl rfl
        exact (given_closeClient hopen).symm ▸ List.prefix_rfl
      next => cases hstep
  | read n env =>
      rw [Session.step] at hstep
      split at hstep
      next hguard =>
        obtain ⟨client, hclient, rfl⟩ := Option.map_eq_some_iff.mp hstep
        unfold ClientRun.step at hclient
        split at hclient
        · cases hclient
        · dsimp only at hclient
          split at hclient
          · obtain ⟨t, hcall, rfl⟩ := Option.map_eq_some_iff.mp hclient
            exact h.of_read hguard.2 hfit hcall
          · cases hclient
      next => cases hstep

/-! ## Order -/

/-- The client has worked through a beginning of what the server has queued, its sinks
have been told of that beginning, message by message, and the bytes behind it wait in
its buffer. -/
structure RepliesOk (c : SessionCtx σ) (s : Session σ) : Prop where
  inOrder : ∃ msgs taken, s.sender.sent = c.client.msgCodec.encodeAll msgs ∧
    taken <+: msgs ∧ GroupedBy taken s.client.state.told ∧
    s.sender.accepted.take s.read =
      c.client.msgCodec.encodeAll taken ++ s.client.state.client.recvedData

theorem RepliesInv.ok {s : Session σ} (h : RepliesInv c Q s) : RepliesOk c s := by
  obtain ⟨msgs, taken, -, hsent, htaken, hbytes, hgrouped⟩ := h.stream
  exact ⟨msgs, taken, hsent, htaken, hgrouped, hbytes⟩

def anyReply : ReplyProp := fun _ _ => True

instance anyReplyDecidable (given : List (MsgHead × Bytes)) (msg : MsgHead × Bytes) :
    Decidable (anyReply given msg) := .isTrue trivial

/-- A notification, a report of `ProtoLogic`, or an answer to a message that a handler
has been given. -/
def answers : ReplyProp := fun given msg =>
  msg.1.passback = nfyPassback ∨ msg.1.passback = 0 ∨
    ∃ request ∈ given, request.1.passback = msg.1.passback

instance answersDecidable (given : List (MsgHead × Bytes)) (msg : MsgHead × Bytes) :
    Decidable (answers given msg) :=
  inferInstanceAs (Decidable (_ ∨ _ ∨ ∃ request ∈ given, _))

theorem answers_lasting : answers.Lasting where
  mono := by
    rintro given given' msg hgiven (hnfy | hzero | ⟨request, hrequest, hpassback⟩)
    · exact .inl hnfy
    · exact .inr (.inl hzero)
    · exact .inr (.inr ⟨request, hgiven.subset hrequest, hpassback⟩)
  own := by
    rintro given head (hzero | ⟨request, hrequest, hpassback⟩)
    · exact .inr (.inl hzero)
    · exact .inr (.inr ⟨request, hrequest, hpassback⟩)

/-- The transaction that a note ends or answers. -/
def transIdOf : ReadNote → Option TransID
  | .onRecvRsp transId _ _ _ _ => some transId
  | .cancelTrans transId _ => some transId
  | .onRecvNfy _ _ _ _ => none

theorem passback_of_about {msg : MsgHead × Bytes} {note : ReadNote} {transId : TransID}
    (habout : note.About msg) (hnote : transId ∈ transIdOf note) :
    msg.1.passback ≠ nfyPassback ∧ msg.1.passback.toInt = transId := by
  cases note with
  | onRecvRsp transId' peer ctx msgHead msgBody =>
      obtain rfl := Option.some.inj hnote
      exact ⟨habout.1, habout.2.1⟩
  | cancelTrans transId' ctx =>
      obtain rfl := Option.some.inj hnote
      exact habout
  | onRecvNfy sink peer msgHead msgBody => cases hnote

/-- Every transaction that has been answered has a request that the client has sent on
the connection and that a handler has been given, except for one of number 0, which
the server's reports about unreadable bytes carry. -/
structure AnswersOk (c : SessionCtx σ) (s : Session σ) : Prop where
  requested : ∃ msgs, s.output c = c.client.msgCodec.encodeAll msgs ∧ s.given <+: msgs ∧
    ∀ note ∈ s.client.state.told, ∀ transId ∈ transIdOf note,
      transId = 0 ∨ ∃ request ∈ s.given, request.1.passback.toInt = transId

theorem RepliesInv.answersOk {s : Session σ} (h : RepliesInv c answers s)
    (hrequests : RequestsOk c s) : AnswersOk c s := by
  obtain ⟨msgs, houtput, hgiven⟩ := hrequests.inOrder
  obtain ⟨queued, taken, hqueued, -, htaken, -, hgrouped⟩ := h.stream
  refine ⟨msgs, houtput, hgiven, fun note hnote transId htransId => ?_⟩
  obtain ⟨msg, hmsg, habout⟩ := hgrouped.about hnote
  obtain ⟨hrsp, hid⟩ := passback_of_about habout htransId
  obtain hnfy | hzero | ⟨request, hrequest, hpassback⟩ := (hqueued msg (htaken.subset hmsg)).2
  · exact absurd hnfy hrsp
  · left
    rw [← hid, hzero]
    rfl
  · exact .inr ⟨request, hrequest, hpassback ▸ hid⟩

/-- **Answers.**  Where handlers answer only messages they have been given, for every
order in which the two processes act and bytes arrive: no sink of the client is told of
an answer, and no transaction is ended for one, unless the client has sent the request
on this connection and a handler of the server has been given it. -/
theorem run_answersOk (c : SessionCtx σ)
    (hformat : MsgCodec.SameFormat c.client.msgCodec c.server.msgCodec)
    (hmax : minTotalMsgLen ≤ c.client.msgCodec.maxTotalMsgLen) (peer : Peer)
    (tc : TransCenter) (partMsgMgr : RecordTimeoutMgr ℕ ConnGUID) (logic : σ)
    (actions : List SessionAction)
    (hsends : Guarded (step c) SendsFit (start c peer tc partMsgMgr logic) actions)
    (hreplies : Guarded (step c) (RepliesFit c answers) (start c peer tc partMsgMgr logic)
      actions) :
    Along (step c) (AnswersOk c) (fun _ _ _ => True) (start c peer tc partMsgMgr logic)
      actions := by
  refine Guarded.along_of_inv
    (fun _ (h : RequestsInv c _ ∧ RepliesInv c answers _) => h.2.answersOk (h.1.ok hformat))
    (fun _ _ _ h hguard hstep => ⟨⟨h.1.step hguard.1 hstep, ?_⟩, trivial⟩)
    ⟨.start peer tc partMsgMgr logic, .start peer tc partMsgMgr logic⟩ (hsends.and hreplies)
  exact h.2.step hformat hmax answers_lasting hguard.2 hstep

theorem run_answersOk_roundTrip :
    ∃ s, run (step plainSession) (start plainSession peerB .empty .empty ()) roundTrip =
        some s ∧
      s.client.state.told.map transIdOf = [some 1, some 1] ∧ AnswersOk plainSession s := by
  obtain ⟨s, hs⟩ : ∃ s, run (step plainSession) (start plainSession peerB .empty .empty ())
      roundTrip = some s := Option.isSome_iff_exists.mp (by decide +kernel)
  have htold : (run (step plainSession) (start plainSession peerB .empty .empty ())
      roundTrip).map (fun s => s.client.state.told.map transIdOf) =
        some [some 1, some 1] := by decide +kernel
  rw [hs, Option.map_some, Option.some.injEq] at htold
  exact ⟨s, hs, htold, (run_answersOk plainSession ⟨rfl, rfl⟩ (by decide) peerB .empty
    .empty () roundTrip (by decide +kernel) (by decide +kernel)).last hs⟩

end Session
end CommonComponent
