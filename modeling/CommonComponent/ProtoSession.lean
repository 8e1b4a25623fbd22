import CommonComponent.NormalConn
import CommonComponent.ProtoLogicTakes
import CommonComponent.ProtoMsgStream
import CommonComponent.ProtoTcpClientOutput

/-!
# A client and a server

One connection between a proto TCP client and a proto TCP server, from the
client's activation on.  The client may do all it does, also lose the connection
and set up others; the server's io thread reads what has arrived, gives messages to
its handlers, queues replies and writes them out as far as the socket takes them.
The bytes that the client has handed out for this connection arrive in order, any
number at a time, and so do those that the server's socket has taken.

The server's handlers see a beginning of what the client has sent.  While the
connection is open it is exactly the messages whose last byte has arrived.
-/

namespace CommonComponent

open FramedStream LabelledRun

/-- The two processes, and the client's bufferevent for the connection. -/
structure SessionCtx (σ : Type*) where
  client : ClientCenterCtx
  server : ProtoLogic σ
  bufEvent : ℕ

/-- `arrived` counts the bytes that the server has read, `read` those that the
client has. -/
structure Session (σ : Type*) where
  client : ClientRun
  conn : ConnState σ
  sender : SendRun
  arrived : ℕ
  read : ℕ

/-- A `SendToClient` during a call: of a handler, or of `ProtoLogic` itself, which
answers without a body. -/
structure SendCall where
  msg : Option (MsgHead × Bytes)
  eventNew : Bool
  eventAdd : Bool

/-- `arrive` is a `read` of the server's socket with the call it leads to, and
`calls` what is sent back in it; `reply` is a `SendToClient` at another time, and
`close` whatever else ends the connection for the server; `read` is a
`ReadCallback` of the client. -/
inductive SessionAction
  | client (a : ClientAction)
  | arrive (n : ℕ) (env : RecvEnv) (calls : List SendCall)
  | reply (msgHead : MsgHead) (msgBody : Bytes) (eventNew eventAdd : Bool)
  | flush (eventDel : Bool)
  | write (result : WriteResult) (eventDel : Bool)
  | close
  | read (n : ℕ) (env : CallEnv)

/-- What has been added to the output buffer of a bufferevent. -/
def ClientState.output (s : ClientState) (bufEvent : ℕ) : Bytes :=
  (s.adds.filter fun a => a.ok && decide (a.bufEvent = some bufEvent)).flatMap (·.data)

namespace Session

variable {σ : Type*} (c : SessionCtx σ)

def start (peer : Peer) (tc : TransCenter) (partMsgMgr : RecordTimeoutMgr ℕ ConnGUID)
    (logic : σ) : Session σ where
  client := .activated peer tc c.bufEvent
  conn := { data := some [], partMsgMgr := partMsgMgr, logic := logic, events := [] }
  sender := .init
  arrived := 0
  read := 0

def output (s : Session σ) : Bytes := s.client.state.output c.bufEvent

/-- The client's own actions.  It reads nothing from other connections meanwhile,
and the address of its bufferevent is not used again. -/
def ownAction : ClientAction → Bool
  | .read _ _ _ => false
  | .onTimer bufEvent => decide (bufEvent ≠ some c.bufEvent)
  | _ => true

/-- The `Send` calls of a call that sends `replies` itself. -/
def sendsOf (codec : MsgCodec) : List Bytes → List SendCall → Option (List SendAction)
  | [], [] => some []
  | replies, ⟨some msg, eventNew, eventAdd⟩ :: calls =>
      (sendsOf codec replies calls).map fun sends =>
        .send (codec.encodeMsg msg.1 msg.2) eventNew eventAdd :: sends
  | data :: replies, ⟨none, eventNew, eventAdd⟩ :: calls =>
      (sendsOf codec replies calls).map fun sends =>
        .send data eventNew eventAdd :: sends
  | [], ⟨none, _, _⟩ :: _ => none
  | _ :: _, [] => none

def step (s : Session σ) : SessionAction → Option (Session σ)
  | .client a =>
      if ownAction c a then
        (s.client.step c.client a).map fun client => { s with client := client }
      else none
  | .arrive n env calls =>
      let unread := (s.output c).drop s.arrived
      if 0 < n ∧ n ≤ unread.length ∧ s.conn.data.isSome ∧ s.sender.writing = none then
        (c.server.onRecvClientData env s.conn (unread.take n)).bind fun conn =>
          let new := conn.events.drop s.conn.events.length
          (sendsOf c.server.msgCodec (ProtoLogic.replies new) calls).bind fun sends =>
            (run SendRun.step s.sender sends).map fun sender =>
              { s with conn := conn, sender := sender, arrived := s.arrived + n }
      else none
  | .reply msgHead msgBody eventNew eventAdd =>
      if s.conn.data.isSome then
        (s.sender.step (.send (c.server.msgCodec.encodeMsg msgHead msgBody)
            eventNew eventAdd)).map fun sender => { s with sender := sender }
      else none
  | .flush eventDel =>
      if s.conn.data.isSome then
        (s.sender.step (.writeCallback eventDel)).map fun sender =>
          { s with sender := sender }
      else none
  | .write result eventDel =>
      if s.conn.data.isSome then
        (s.sender.step (.write result eventDel)).map fun sender =>
          { s with sender := sender }
      else none
  | .close =>
      if s.conn.data.isSome then some { s with conn := c.server.closeClient s.conn }
      else none
  | .read n env =>
      let unread := s.sender.accepted.drop s.read
      if 0 < n ∧ n ≤ unread.length then
        (s.client.step c.client (.read c.bufEvent (unread.take n) env)).map fun client =>
          { s with client := client, read := s.read + n }
      else none

/-! ## What the client hands out -/

/-- An encoded message that fits its length field. -/
def Framed (codec : MsgCodec) (data : Bytes) : Prop :=
  ∃ head body, MsgCodec.Sendable body ∧ data = codec.encodeMsg head body

theorem framed_all {codec : MsgCodec} {datas : List Bytes}
    (h : ∀ data ∈ datas, Framed codec data) :
    ∃ msgs, (∀ msg ∈ msgs, MsgCodec.Sendable msg.2) ∧
      datas.flatten = codec.encodeAll msgs := by
  induction datas with
  | nil => exact ⟨[], by simp, rfl⟩
  | cons data datas ih =>
      rw [List.forall_mem_cons] at h
      obtain ⟨⟨head, body, hsend, rfl⟩, hrest⟩ := h
      obtain ⟨msgs, hmsgs, hflat⟩ := ih hrest
      refine ⟨(head, body) :: msgs, ?_, ?_⟩
      · rw [List.forall_mem_cons]
        exact ⟨hsend, hmsgs⟩
      · rw [List.flatten_cons, hflat, MsgCodec.encodeAll_cons]

theorem output_of_ok {codec : MsgCodec} {s : ClientState}
    (h : s.OutputOk (Framed codec)) (bufEvent : ℕ) :
    ∃ msgs, (∀ msg ∈ msgs, MsgCodec.Sendable msg.2) ∧
      s.output bufEvent = codec.encodeAll msgs := by
  rw [ClientState.output, List.flatMap_def]
  refine framed_all fun data hdata => ?_
  obtain ⟨a, ha, rfl⟩ := List.mem_map.mp hdata
  exact h.adds a (List.mem_of_mem_filter ha)

theorem output_prefix {s t : ClientState} (h : s.adds <+: t.adds) (bufEvent : ℕ) :
    s.output bufEvent <+: t.output bufEvent := by
  obtain ⟨more, hmore⟩ := h
  rw [ClientState.output, ClientState.output, ← hmore, List.filter_append,
    List.flatMap_append]
  exact List.prefix_append _ _

theorem framed_report (codec : MsgCodec) (head : MsgHead) :
    Framed codec (codec.encodeMsg head []) :=
  ⟨head, [], by rw [MsgCodec.Sendable]; decide, rfl⟩

/-- The bodies of the messages that callers send fit the length field. -/
def SendsFit (_ : Session σ) : SessionAction → Prop
  | .client (.send _ msgBody _ _) => MsgCodec.Sendable msgBody
  | _ => True

instance sendsFitDecidable (s : Session σ) (a : SessionAction) : Decidable (SendsFit s a) :=
  match a with
  | .client (.send _ msgBody _ _) =>
      inferInstanceAs (Decidable (minTotalMsgLen + msgBody.length < 2 ^ 32))
  | .client (.onTimer _) => .isTrue trivial
  | .client (.event _ _ _ _) => .isTrue trivial
  | .client (.read _ _ _) => .isTrue trivial
  | .client (.addNfySink _) => .isTrue trivial
  | .client (.removeNfySink _) => .isTrue trivial
  | .client (.table _) => .isTrue trivial
  | .arrive _ _ _ => .isTrue trivial
  | .reply _ _ _ _ => .isTrue trivial
  | .flush _ => .isTrue trivial
  | .write _ _ => .isTrue trivial
  | .close => .isTrue trivial
  | .read _ _ => .isTrue trivial

/-! ## Requests -/

/-- What the server has taken of the bytes it has read. -/
structure RequestsInv (s : Session σ) : Prop where
  output : s.client.state.OutputOk (Framed c.client.msgCodec)
  arrived : s.arrived ≤ (s.output c).length
  opened : ∀ left, s.conn.data = some left →
    c.server.msgCodec.checkedFraming.drain ((s.output c).take s.arrived) =
      (ProtoLogic.delivered s.conn.events, left)
  closed : s.conn.data = none → ProtoLogic.delivered s.conn.events <+:
    (c.server.msgCodec.checkedFraming.drain ((s.output c).take s.arrived)).1

/-- The server's handlers have seen a beginning of what the client has sent on the
connection; while the connection is open, exactly the complete messages among the
bytes that have arrived, and the buffer has the rest. -/
structure RequestsOk (s : Session σ) : Prop where
  inOrder : ∃ msgs, s.output c = c.client.msgCodec.encodeAll msgs ∧
    ProtoLogic.delivered s.conn.events <+: msgs
  complete : ∀ left, s.conn.data = some left →
    c.server.msgCodec.checkedFraming.drain ((s.output c).take s.arrived) =
      (ProtoLogic.delivered s.conn.events, left)

variable {c}

theorem RequestsInv.start (peer : Peer) (tc : TransCenter)
    (partMsgMgr : RecordTimeoutMgr ℕ ConnGUID) (logic : σ) :
    RequestsInv c (start c peer tc partMsgMgr logic) where
  output :=
    { adds := by
        intro a ha
        cases ha
      cache := by
        intro transId cacheMsg hcached
        cases hcached }
  arrived := Nat.zero_le _
  opened := by
    rintro left ⟨⟩
    exact c.server.msgCodec.checkedFraming.drain_nil
  closed := by
    intro h
    cases h

theorem RequestsInv.ok {s : Session σ}
    (hformat : MsgCodec.SameFormat c.client.msgCodec c.server.msgCodec)
    (h : RequestsInv c s) : RequestsOk c s where
  inOrder := by
    obtain ⟨msgs, hmsgs, houtput⟩ := output_of_ok h.output c.bufEvent
    refine ⟨msgs, houtput, ?_⟩
    have htaken : (c.server.msgCodec.checkedFraming.drain
        ((s.output c).take s.arrived)).1 <+: msgs := by
      refine MsgCodec.drain_encodeAll_prefix hformat hmsgs ?_
      rw [← houtput]
      exact List.take_prefix _ _
    cases hdata : s.conn.data with
    | none => exact (h.closed hdata).trans htaken
    | some left =>
        rw [h.opened left hdata] at htaken
        exact htaken
  complete := h.opened

/-- The invariant is about the client's output and the connection only. -/
theorem RequestsInv.of_output {s t : Session σ} (h : RequestsInv c s)
    (hclient : ClientState.Extends (Framed c.client.msgCodec) s.client.state t.client.state)
    (hconn : t.conn = s.conn) (harrived : t.arrived = s.arrived) : RequestsInv c t := by
  obtain ⟨hok, hadds⟩ := hclient h.output
  obtain ⟨more, hmore⟩ := output_prefix hadds c.bufEvent
  have htake : (t.output c).take t.arrived = (s.output c).take s.arrived := by
    rw [Session.output, ← hmore, harrived]
    exact List.take_append_of_le_length h.arrived
  refine ⟨hok, ?_, ?_, ?_⟩
  · rw [harrived, Session.output, ← hmore, List.length_append]
    exact h.arrived.trans (Nat.le_add_right _ _)
  · rw [htake, hconn]
    exact h.opened
  · rw [htake, hconn]
    exact h.closed

theorem RequestsInv.arrive {s : Session σ} (h : RequestsInv c s) {n : ℕ} {env : RecvEnv}
    {conn : ConnState σ} (hn : n ≤ ((s.output c).drop s.arrived).length)
    (hopen : s.conn.data.isSome)
    (hcall : c.server.onRecvClientData env s.conn
      (((s.output c).drop s.arrived).take n) = some conn) (sender : SendRun) :
    RequestsInv c { s with conn := conn, sender := sender, arrived := s.arrived + n } := by
  obtain ⟨d, hd⟩ := Option.isSome_iff_exists.mp hopen
  obtain ⟨new, htakes⟩ := ProtoLogic.onRecvClientData_takes hd hcall
  have hdrain := c.server.msgCodec.checkedFraming.drain_append
    ((s.output c).take s.arrived) (((s.output c).drop s.arrived).take n)
  rw [← List.take_add, h.opened d hd] at hdrain
  have hdelivered : ProtoLogic.delivered conn.events =
      ProtoLogic.delivered s.conn.events ++ ProtoLogic.delivered new := by
    rw [htakes.events, ProtoLogic.delivered_append]
  refine ⟨h.output, ?_, ?_, ?_⟩
  · have := h.arrived
    rw [List.length_drop] at hn
    change s.arrived + n ≤ (s.output c).length
    omega
  · intro left hleft
    change c.server.msgCodec.checkedFraming.drain
      ((s.output c).take (s.arrived + n)) = _
    rw [hdrain, htakes.opened left hleft, hdelivered]
  · intro hclosed
    change _ <+: (c.server.msgCodec.checkedFraming.drain
      ((s.output c).take (s.arrived + n))).1
    rw [hdrain, hdelivered]
    exact (List.prefix_append_right_inj _).mpr (htakes.closed hclosed)

theorem RequestsInv.close {s : Session σ} (h : RequestsInv c s) (hopen : s.conn.data.isSome) :
    RequestsInv c { s with conn := c.server.closeClient s.conn } := by
  obtain ⟨d, hd⟩ := Option.isSome_iff_exists.mp hopen
  have hclosed : c.server.closeClient s.conn =
      { data := none
        partMsgMgr := s.conn.partMsgMgr.removeRecord c.server.conn
        logic := c.server.onClientClosed s.conn.logic
        events := s.conn.events ++ [.onClientClosed] } := by
    rw [ProtoLogic.closeClient, hd]
  have hdelivered : ProtoLogic.delivered (s.conn.events ++ [.onClientClosed]) =
      ProtoLogic.delivered s.conn.events := by
    rw [ProtoLogic.delivered_append]
    exact List.append_nil _
  rw [hclosed]
  refine ⟨h.output, h.arrived, ?_, fun _ => ?_⟩
  · intro left hleft
    cases hleft
  change ProtoLogic.delivered (s.conn.events ++ [.onClientClosed]) <+:
    (c.server.msgCodec.checkedFraming.drain ((s.output c).take s.arrived)).1
  rw [hdelivered, h.opened d hd]

theorem RequestsInv.step {s s' : Session σ} {a : SessionAction} (h : RequestsInv c s)
    (hfit : SendsFit s a) (hstep : s.step c a = some s') : RequestsInv c s' := by
  have hframed := framed_report c.client.msgCodec
  cases a with
  | client a =>
      rw [Session.step] at hstep
      split at hstep
      · obtain ⟨client, hclient, rfl⟩ := Option.map_eq_some_iff.mp hstep
        refine h.of_output (ClientRun.step_extends hframed ?_ hclient) rfl rfl
        cases a with
        | send msgHead msgBody asyncCtx env => exact fun head => ⟨head, msgBody, hfit, rfl⟩
        | _ => trivial
      · cases hstep
  | arrive n env calls =>
      rw [Session.step] at hstep
      split at hstep
      next hguard =>
        obtain ⟨conn, hcall, hsent⟩ := Option.bind_eq_some_iff.mp hstep
        obtain ⟨sends, -, hsent⟩ := Option.bind_eq_some_iff.mp hsent
        obtain ⟨sender, -, rfl⟩ := Option.map_eq_some_iff.mp hsent
        exact h.arrive hguard.2.1 hguard.2.2.1 hcall sender
      next => cases hstep
  | reply msgHead msgBody eventNew eventAdd =>
      rw [Session.step] at hstep
      split at hstep
      · obtain ⟨sender, -, rfl⟩ := Option.map_eq_some_iff.mp hstep
        exact h.of_output (.refl _) rfl rfl
      · cases hstep
  | flush eventDel =>
      rw [Session.step] at hstep
      split at hstep
      · obtain ⟨sender, -, rfl⟩ := Option.map_eq_some_iff.mp hstep
        exact h.of_output (.refl _) rfl rfl
      · cases hstep
  | write result eventDel =>
      rw [Session.step] at hstep
      split at hstep
      · obtain ⟨sender, -, rfl⟩ := Option.map_eq_some_iff.mp hstep
        exact h.of_output (.refl _) rfl rfl
      · cases hstep
  | close =>
      rw [Session.step] at hstep
      split at hstep
      next hopen =>
        rw [Option.some.injEq] at hstep
        exact hstep ▸ h.close hopen
      next => cases hstep
  | read n env =>
      rw [Session.step] at hstep
      split at hstep
      · obtain ⟨client, hclient, rfl⟩ := Option.map_eq_some_iff.mp hstep
        refine h.of_output (ClientRun.step_extends hframed ?_ hclient) rfl rfl
        trivial
      · cases hstep

/-- **Requests.**  Along every run in which the messages fit their length field, for
every order in which the client acts, bytes arrive and replies are written: the
server's handlers are given a beginning of the messages that the client has sent on
the connection, each once and in order, and none is held back while the connection
is open. -/
theorem run_requestsOk (c : SessionCtx σ)
    (hformat : MsgCodec.SameFormat c.client.msgCodec c.server.msgCodec) (peer : Peer)
    (tc : TransCenter) (partMsgMgr : RecordTimeoutMgr ℕ ConnGUID) (logic : σ)
    (actions : List SessionAction)
    (hfit : Guarded (step c) SendsFit (start c peer tc partMsgMgr logic) actions) :
    Along (step c) (RequestsOk c) (fun _ _ _ => True) (start c peer tc partMsgMgr logic)
      actions :=
  Guarded.along_of_inv (fun _ (h : RequestsInv c _) => h.ok hformat)
    (fun _ _ _ h hguard hstep => ⟨h.step hguard hstep, trivial⟩)
    (.start peer tc partMsgMgr logic) hfit

/-- A client and a server without checksums, and the bufferevent 1. -/
def plainSession : SessionCtx Unit where
  client := plainCtx
  server := ProtoLogic.quietLogic false
  bufEvent := 1

/-- A message is sent, arrives in two pieces and is answered by its handler; the
answer is read in two pieces as well. -/
def roundTrip : List SessionAction :=
  [.client (.event 1 ClientRun.connectedEvent 0 quietEnv),
    .client (.send ⟨0, 7⟩ [1, 2] (some ⟨0, 30, some 4, .null⟩) quietEnv),
    .arrive 5 ProtoLogic.zeroEnv [],
    .arrive 13 ProtoLogic.zeroEnv [⟨some (⟨1, 8⟩, [3]), true, true⟩],
    .flush true, .write (.wrote 6) true, .read 6 quietEnv,
    .write (.wrote 11) true, .read 11 quietEnv]

theorem run_requestsOk_roundTrip :
    ∃ s, run (step plainSession) (start plainSession peerB .empty .empty ()) roundTrip =
        some s ∧
      ProtoLogic.delivered s.conn.events = [(⟨1, 7⟩, [1, 2])] ∧
      RequestsOk plainSession s := by
  obtain ⟨s, hs⟩ : ∃ s, run (step plainSession) (start plainSession peerB .empty .empty ())
      roundTrip = some s := Option.isSome_iff_exists.mp (by decide +kernel)
  have hdelivered : (run (step plainSession) (start plainSession peerB .empty .empty ())
      roundTrip).map (fun s => ProtoLogic.delivered s.conn.events) =
        some [(⟨1, 7⟩, [1, 2])] := by decide +kernel
  rw [hs, Option.map_some, Option.some.injEq] at hdelivered
  exact ⟨s, hs, hdelivered, (run_requestsOk plainSession ⟨rfl, rfl⟩ peerB .empty .empty ()
    roundTrip (by decide +kernel)).last hs⟩

end Session
end CommonComponent
