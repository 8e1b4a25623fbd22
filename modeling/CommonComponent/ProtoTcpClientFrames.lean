import CommonComponent.ProtoTcpClientRead

/-!
# The frames a client takes off a stream

A stream should be taken apart into its complete frames, each once and in order,
whatever chunks it arrives in and whatever the transaction table is at each call:
a response of a live transaction goes to its sink, a notification to the
notification sinks, and any other frame to nobody.  `handOver` says this of one
frame and `deliver` of all of them.  The loop of `ReadCallback` returns at a frame
that goes to nobody without taking it off, and `readRun_takesFrames_iff` shows that
this and the read past a short buffer are the only things in the way.
-/

namespace CommonComponent

open FramedStream

namespace ClientState

variable (ctx : ClientCenterCtx) (env : CallEnv)

/-- A frame that is for somebody: its checksum is right, and it is a notification or
names a live transaction. -/
def ForSinks (codec : MsgCodec) (tc : TransCenter) (totalMsg : Bytes) : Prop :=
  match codec.decodeMsg totalMsg with
  | .error _ => False
  | .ok (msgHead, _) =>
      msgHead.passback = nfyPassback ∨
        (tc.transHashMap msgHead.passback.toInt).isSome

instance (codec : MsgCodec) (tc : TransCenter) (totalMsg : Bytes) :
    Decidable (ForSinks codec tc totalMsg) := by
  unfold ForSinks
  split <;> infer_instance

/-- Every notification sink has been told of the notification. -/
def notified (pass : ℕ) (s : ClientState) (msgHead : MsgHead) (msgBody : Bytes) :
    ClientState :=
  let notes := s.nfyNotes msgHead msgBody
  { s with tc := tellAll env pass s.tc notes, told := s.told ++ notes }

/-- The sink of the transaction has been told of the response, with the passback
recorded for it, and the transaction has been cancelled. -/
def answered (pass : ℕ) (s : ClientState) (transCtx : TransCtx) (msgHead : MsgHead)
    (msgBody : Bytes) : ClientState :=
  let transId := msgHead.passback.toInt
  let notes := s.rspNotes transCtx msgHead msgBody
  let tc := tellAll env pass s.tc notes
  { s with
    tc := tc.cancelTrans transId
    told := s.told ++ (notes ++ [.cancelTrans transId (tc.transHashMap transId)]) }

/-- What a frame should come to when its turn comes. -/
def handOver (pass : ℕ) (s : ClientState) (totalMsg : Bytes) : ClientState :=
  match ctx.msgCodec.decodeMsg totalMsg with
  | .error _ => s
  | .ok (msgHead, msgBody) =>
      if msgHead.passback = nfyPassback then s.notified env pass msgHead msgBody
      else
        match s.tc.transHashMap msgHead.passback.toInt with
        | none => s
        | some transCtx => s.answered env pass transCtx msgHead msgBody

/-- All frames have their turn, whether they are for somebody or not. -/
def deliver (pass : ℕ) (s : ClientState) : List Bytes → ClientState
  | [] => s
  | totalMsg :: later => deliver (pass + 1) (s.handOver ctx env pass totalMsg) later

/-- Each frame is for somebody when its turn comes. -/
def GoesToSinks (pass : ℕ) (s : ClientState) : List Bytes → Prop
  | [] => True
  | totalMsg :: later =>
      ForSinks ctx.msgCodec s.tc totalMsg ∧
        GoesToSinks (pass + 1) (s.handOver ctx env pass totalMsg) later

instance GoesToSinks.decidable (pass : ℕ) (s : ClientState) :
    ∀ totalMsgs, Decidable (GoesToSinks ctx env pass s totalMsgs)
  | [] => isTrue trivial
  | totalMsg :: later =>
      have := GoesToSinks.decidable (pass + 1) (s.handOver ctx env pass totalMsg) later
      inferInstanceAs (Decidable (_ ∧ _))

def keptOf (codec : MsgCodec) (rest : Bytes) : Bytes :=
  match codec.headOf rest with
  | .broken => []
  | _ => rest

variable {ctx env}

theorem forSinks_of_ok {codec : MsgCodec} {totalMsg msgBody : Bytes}
    {msgHead : MsgHead} (hdecode : codec.decodeMsg totalMsg = .ok (msgHead, msgBody))
    (tc : TransCenter) :
    ForSinks codec tc totalMsg ↔
      msgHead.passback = nfyPassback ∨
        (tc.transHashMap msgHead.passback.toInt).isSome := by
  unfold ForSinks
  rw [hdecode]

theorem not_forSinks_of_error {codec : MsgCodec} {tc : TransCenter}
    {totalMsg : Bytes} {errMsgId : MsgID}
    (hdecode : codec.decodeMsg totalMsg = .error errMsgId) :
    ¬ForSinks codec tc totalMsg := by
  unfold ForSinks
  rw [hdecode]
  exact id

/-- `ReadCallback` does with a decoded message what it should, or returns at one that
is for nobody. -/
theorem handleMsg_of_ok {s : ClientState} {totalMsg msgBody : Bytes}
    {msgHead : MsgHead}
    (hdecode : ctx.msgCodec.decodeMsg totalMsg = .ok (msgHead, msgBody)) (pass : ℕ) :
    s.handleMsg env pass msgHead msgBody =
      if ForSinks ctx.msgCodec s.tc totalMsg then
        some (s.handOver ctx env pass totalMsg)
      else none := by
  have hfor := forSinks_of_ok hdecode s.tc
  unfold handOver
  rw [hdecode]
  simp only
  by_cases hpassback : msgHead.passback = nfyPassback
  · rw [if_pos (hfor.mpr (Or.inl hpassback)), if_pos hpassback]
    exact handleMsg_nfy msgBody hpassback
  · rw [if_neg hpassback]
    cases hctx : s.tc.transHashMap msgHead.passback.toInt with
    | none =>
        rw [if_neg (by simp [hfor, hpassback, hctx])]
        exact handleMsg_unknown msgBody hpassback hctx
    | some transCtx =>
        rw [if_pos (hfor.mpr (Or.inr (by simp [hctx])))]
        exact handleMsg_rsp msgBody hpassback hctx

theorem handleMsg_eq_some_iff {s s' : ClientState} {totalMsg msgBody : Bytes}
    {msgHead : MsgHead} {pass : ℕ}
    (hdecode : ctx.msgCodec.decodeMsg totalMsg = .ok (msgHead, msgBody)) :
    s.handleMsg env pass msgHead msgBody = some s' ↔
      ForSinks ctx.msgCodec s.tc totalMsg ∧ s' = s.handOver ctx env pass totalMsg := by
  rw [handleMsg_of_ok hdecode pass, Option.ite_none_right_eq_some,
    Option.some.injEq, eq_comm (a := s')]

theorem handleMsg_eq_none_iff {s : ClientState} {totalMsg msgBody : Bytes}
    {msgHead : MsgHead} {pass : ℕ}
    (hdecode : ctx.msgCodec.decodeMsg totalMsg = .ok (msgHead, msgBody)) :
    s.handleMsg env pass msgHead msgBody = none ↔
      ¬ForSinks ctx.msgCodec s.tc totalMsg := by
  rw [handleMsg_of_ok hdecode pass, ite_eq_right_iff]
  simp

theorem handOver_setRecvedData (pass : ℕ) (s : ClientState) (data totalMsg : Bytes) :
    (s.setRecvedData data).handOver ctx env pass totalMsg =
      (s.handOver ctx env pass totalMsg).setRecvedData data := by
  unfold handOver
  cases ctx.msgCodec.decodeMsg totalMsg with
  | error errMsgId => rfl
  | ok msg =>
      simp only
      split
      next => rfl
      next =>
        rw [show (s.setRecvedData data).tc = s.tc from rfl]
        cases s.tc.transHashMap msg.1.passback.toInt <;> rfl

@[simp] theorem deliver_setRecvedData (pass : ℕ) (s : ClientState) (data : Bytes)
    (totalMsgs : List Bytes) :
    (s.setRecvedData data).deliver ctx env pass totalMsgs =
      (s.deliver ctx env pass totalMsgs).setRecvedData data := by
  induction totalMsgs generalizing pass s with
  | nil => rfl
  | cons totalMsg later ih =>
      simp only [deliver]
      rw [handOver_setRecvedData, ih]

@[simp] theorem goesToSinks_setRecvedData (pass : ℕ) (s : ClientState)
    (data : Bytes) (totalMsgs : List Bytes) :
    (s.setRecvedData data).GoesToSinks ctx env pass totalMsgs ↔
      s.GoesToSinks ctx env pass totalMsgs := by
  induction totalMsgs generalizing pass s with
  | nil => exact Iff.rfl
  | cons totalMsg later ih =>
      simp only [GoesToSinks]
      rw [handOver_setRecvedData, ih]
      exact Iff.rfl

theorem keptOf_of_not_broken {codec : MsgCodec} {rest : Bytes}
    (h : codec.headOf rest ≠ .broken) : keptOf codec rest = rest := by
  unfold keptOf
  split
  next hbroken => exact (h hbroken).elim
  next => rfl

theorem keptOf_of_broken {codec : MsgCodec} {rest : Bytes}
    (h : codec.headOf rest = .broken) : keptOf codec rest = [] := by
  unfold keptOf
  rw [h]

@[simp] theorem keptOf_nil (codec : MsgCodec) : keptOf codec [] = [] := by
  unfold keptOf
  split <;> rfl

theorem headOf_keptOf {codec : MsgCodec} {rest : Bytes}
    (h : ¬codec.framing.StartsWhole rest) :
    codec.headOf (keptOf codec rest) = .waiting := by
  cases hhead : codec.headOf rest with
  | waiting =>
      rw [keptOf_of_not_broken (by simp [hhead])]
      exact hhead
  | broken =>
      rw [keptOf_of_broken hhead]
      exact MsgCodec.headOf_of_short (by decide)
  | whole totalMsg rest' => exact (h ⟨totalMsg, rest', hhead⟩).elim

theorem not_startsWhole_of_kept {codec : MsgCodec} {d : Bytes}
    (h : d = keptOf codec (codec.framing.drain d).2) :
    ¬codec.framing.StartsWhole d := by
  have hwaiting := headOf_keptOf (codec.framing.not_startsWhole_drain_rest d)
  rw [← h] at hwaiting
  rintro ⟨totalMsg, rest, hwhole⟩
  rw [show codec.framing.head d = codec.headOf d from rfl, hwaiting] at hwhole
  cases hwhole

theorem not_startsWhole_of_headOf {codec : MsgCodec} {d : Bytes}
    (h : ∀ totalMsg rest, codec.headOf d ≠ .whole totalMsg rest) :
    ¬codec.framing.StartsWhole d := by
  rintro ⟨totalMsg, rest, hwhole⟩
  exact h totalMsg rest hwhole

theorem not_startsWhole_of_refused {codec : MsgCodec} {behind : ℕ → UInt8}
    {d : Bytes} (h : codec.headOf d = .broken ∨ codec.Misreads behind d) :
    ¬codec.framing.StartsWhole d := by
  apply not_startsWhole_of_headOf
  rcases h with hbroken | hread
  · simp [hbroken]
  · simp [MsgCodec.headOf_of_short hread.1]

/-! ## One call -/

variable (ctx env) in
/-- Every complete frame of the buffer goes to somebody, and the loop does not
misread what is left behind them. -/
def TakesFrames (pass : ℕ) (s : ClientState) (d : Bytes) : Prop :=
  let drained := ctx.msgCodec.framing.drain d
  s.GoesToSinks ctx env pass drained.1 ∧
    (drained.2 = [] ∨
      ¬ctx.msgCodec.Misreads (env.behind (pass + drained.1.length)) drained.2)

theorem takesFrames_of_not_startsWhole {pass : ℕ} {s : ClientState} {d : Bytes}
    (hstop : ¬ctx.msgCodec.framing.StartsWhole d) :
    s.TakesFrames ctx env pass d ↔
      d = [] ∨ ¬ctx.msgCodec.Misreads (env.behind pass) d := by
  unfold TakesFrames
  simp [ctx.msgCodec.framing.drain_of_not_startsWhole hstop, GoesToSinks]

theorem takesFrames_of_whole {pass : ℕ} {s : ClientState}
    {d totalMsg rest : Bytes}
    (hhead : ctx.msgCodec.headOf d = .whole totalMsg rest) :
    s.TakesFrames ctx env pass d ↔
      ForSinks ctx.msgCodec s.tc totalMsg ∧
        (s.handOver ctx env pass totalMsg).TakesFrames ctx env (pass + 1) rest := by
  unfold TakesFrames
  simp only [ctx.msgCodec.framing.drain_whole hhead, GoesToSinks]
  have hpass : pass + ((ctx.msgCodec.framing.drain rest).1.length + 1) =
      pass + 1 + (ctx.msgCodec.framing.drain rest).1.length := by omega
  simp [hpass, and_assoc]

theorem takesFrames_setRecvedData (pass : ℕ) (s : ClientState) (data d : Bytes) :
    (s.setRecvedData data).TakesFrames ctx env pass d ↔
      s.TakesFrames ctx env pass d := by
  unfold TakesFrames
  simp only [goesToSinks_setRecvedData]

theorem Reads.delivered {pass : ℕ} {s t : ClientState}
    (h : Reads ctx env pass s t)
    (htakes : s.TakesFrames ctx env pass s.client.recvedData) :
    t.told = (s.deliver ctx env pass
        (ctx.msgCodec.framing.drain s.client.recvedData).1).told ∧
      t.client.recvedData = keptOf ctx.msgCodec
        (ctx.msgCodec.framing.drain s.client.recvedData).2 := by
  induction h with
  | @waiting pass s hhead hread =>
      have hstop : ¬ctx.msgCodec.framing.StartsWhole s.client.recvedData :=
        not_startsWhole_of_headOf (by simp [hhead])
      rw [ctx.msgCodec.framing.drain_of_not_startsWhole hstop]
      exact ⟨rfl, (keptOf_of_not_broken (by simp [hhead])).symm⟩
  | @refused pass s hhead =>
      have hstop : ¬ctx.msgCodec.framing.StartsWhole s.client.recvedData :=
        not_startsWhole_of_refused hhead
      rw [takesFrames_of_not_startsWhole hstop] at htakes
      rw [ctx.msgCodec.framing.drain_of_not_startsWhole hstop]
      refine ⟨send_told _ _ _ _, (send_recvedData _ _ _ _).trans ?_⟩
      rcases hhead with hbroken | hread
      · exact (keptOf_of_broken hbroken).symm
      · have hnil : s.client.recvedData = [] :=
          htakes.resolve_right (not_not.mpr hread)
        simp [setRecvedData, hnil]
  | mismatch hhead hdecode =>
      rw [takesFrames_of_whole hhead] at htakes
      exact (not_forSinks_of_error hdecode htakes.1).elim
  | unknown hhead hdecode hhandle =>
      rw [takesFrames_of_whole hhead] at htakes
      exact ((handleMsg_eq_none_iff hdecode).mp hhandle htakes.1).elim
  | last hhead hdecode hhandle =>
      obtain ⟨-, rfl⟩ := (handleMsg_eq_some_iff hdecode).mp hhandle
      rw [ctx.msgCodec.framing.drain_whole hhead, ctx.msgCodec.framing.drain_nil]
      simp [deliver, setRecvedData]
  | next hhead hrest hdecode hhandle hlater ih =>
      obtain ⟨-, rfl⟩ := (handleMsg_eq_some_iff hdecode).mp hhandle
      rw [takesFrames_of_whole hhead] at htakes
      obtain ⟨htold, hdata⟩ := ih ((takesFrames_setRecvedData _ _ _ _).mpr htakes.2)
      rw [ctx.msgCodec.framing.drain_whole hhead]
      constructor
      · rw [htold, deliver_setRecvedData]
        rfl
      · exact hdata

theorem Reads.takesFrames {pass : ℕ} {s t : ClientState}
    (h : Reads ctx env pass s t)
    (hdata : t.client.recvedData = keptOf ctx.msgCodec
      (ctx.msgCodec.framing.drain s.client.recvedData).2) :
    s.TakesFrames ctx env pass s.client.recvedData := by
  induction h with
  | waiting hhead hread =>
      rw [takesFrames_of_not_startsWhole
        (not_startsWhole_of_headOf (by simp [hhead]))]
      exact Or.inr hread
  | @refused pass s hhead =>
      rw [send_recvedData] at hdata
      have hstop : ¬ctx.msgCodec.framing.StartsWhole s.client.recvedData :=
        not_startsWhole_of_refused hhead
      rw [takesFrames_of_not_startsWhole hstop]
      rcases hhead with hbroken | hread
      · right
        apply MsgCodec.not_misreads_of_length
        exact (MsgCodec.headOf_eq_broken_iff.mp hbroken).1
      · have hhead : ctx.msgCodec.headOf s.client.recvedData = .waiting :=
          MsgCodec.headOf_of_short hread.1
        left
        rw [ctx.msgCodec.framing.drain_of_not_startsWhole hstop,
          keptOf_of_not_broken (by simp [hhead])] at hdata
        exact hdata.symm
  | mismatch hhead hdecode =>
      rw [send_recvedData] at hdata
      exact (not_startsWhole_of_kept hdata ⟨_, _, hhead⟩).elim
  | unknown hhead hdecode hhandle =>
      exact (not_startsWhole_of_kept hdata ⟨_, _, hhead⟩).elim
  | last hhead hdecode hhandle =>
      obtain ⟨hfor, rfl⟩ := (handleMsg_eq_some_iff hdecode).mp hhandle
      rw [takesFrames_of_whole hhead]
      refine ⟨hfor, ?_⟩
      rw [takesFrames_of_not_startsWhole ctx.msgCodec.framing.not_startsWhole_nil]
      exact Or.inl rfl
  | next hhead hrest hdecode hhandle hlater ih =>
      obtain ⟨hfor, rfl⟩ := (handleMsg_eq_some_iff hdecode).mp hhandle
      rw [takesFrames_of_whole hhead]
      refine ⟨hfor, ?_⟩
      rw [← takesFrames_setRecvedData]
      apply ih
      rw [hdata, ctx.msgCodec.framing.drain_whole hhead]
      rfl

/-! ## All calls of a connection -/

/-- `stream` is what the connection has received; a refused length ends a stream,
and what is received afterwards begins another one. -/
structure ReadRun where
  state : ClientState
  stream : Bytes

/-- A call of `ReadCallback` with the table it finds. -/
structure ReadAction where
  tc : TransCenter
  env : CallEnv
  chunk : Bytes

def readStep (ctx : ClientCenterCtx) (r : ReadRun) (a : ReadAction) :
    Option ReadRun :=
  ({ r.state with tc := a.tc }.readCallback ctx a.env a.chunk).map fun s =>
    { state := s
      stream :=
        match ctx.msgCodec.headOf
            (ctx.msgCodec.framing.drain (r.stream ++ a.chunk)).2 with
        | .broken => []
        | _ => r.stream ++ a.chunk }

def newFrames (codec : MsgCodec) (stream chunk : Bytes) : List Bytes :=
  (codec.framing.drain (stream ++ chunk)).1.drop (codec.framing.drain stream).1.length

/-- Every complete frame of the stream has been taken off, and nothing else. -/
def Drained (codec : MsgCodec) (r : ReadRun) : Prop :=
  r.state.client.recvedData = (codec.framing.drain r.stream).2

instance (codec : MsgCodec) (r : ReadRun) : Decidable (Drained codec r) :=
  inferInstanceAs (Decidable (_ = _))

/-- The call has told the sinks what the frames it completes are for. -/
def DeliversNew (ctx : ClientCenterCtx) (r : ReadRun) (a : ReadAction)
    (r' : ReadRun) : Prop :=
  r'.state.told = ({ r.state with tc := a.tc }.deliver ctx a.env 0
    (newFrames ctx.msgCodec r.stream a.chunk)).told

/-- Each frame the chunk completes goes to somebody, and the loop does not misread
the bytes left behind them. -/
def TakesNew (ctx : ClientCenterCtx) (r : ReadRun) (a : ReadAction) : Prop :=
  let frames := newFrames ctx.msgCodec r.stream a.chunk
  let rest := (ctx.msgCodec.framing.drain (r.stream ++ a.chunk)).2
  { r.state with tc := a.tc }.GoesToSinks ctx a.env 0 frames ∧
    (a.chunk = [] ∨ rest = [] ∨
      ¬ctx.msgCodec.Misreads (a.env.behind frames.length) rest)

instance (ctx : ClientCenterCtx) (r : ReadRun) (a : ReadAction) :
    Decidable (TakesNew ctx r a) :=
  inferInstanceAs (Decidable (_ ∧ _))

structure ReadInv (codec : MsgCodec) (r : ReadRun) : Prop where
  drained : Drained codec r
  waiting : codec.headOf r.state.client.recvedData = .waiting

theorem newFrames_eq {codec : MsgCodec} {r : ReadRun} (h : Drained codec r)
    (chunk : Bytes) :
    newFrames codec r.stream chunk =
      (codec.framing.drain (r.state.client.recvedData ++ chunk)).1 := by
  unfold newFrames
  rw [codec.framing.drain_append, ← h, List.drop_left]

theorem drain_stream_rest {codec : MsgCodec} {r : ReadRun} (h : Drained codec r)
    (chunk : Bytes) :
    (codec.framing.drain (r.stream ++ chunk)).2 =
      (codec.framing.drain (r.state.client.recvedData ++ chunk)).2 := by
  rw [codec.framing.drain_append, ← h]

theorem drained_readStep {r r' : ReadRun} {a : ReadAction} {s : ClientState}
    (h : Drained ctx.msgCodec r)
    (hcall : { r.state with tc := a.tc }.readCallback ctx a.env a.chunk = some s)
    (hstep : readStep ctx r a = some r') :
    r'.state = s ∧
      (Drained ctx.msgCodec r' ↔ s.client.recvedData = keptOf ctx.msgCodec
        (ctx.msgCodec.framing.drain (r.state.client.recvedData ++ a.chunk)).2) := by
  unfold readStep at hstep
  rw [hcall, Option.map_some, Option.some.injEq] at hstep
  subst hstep
  refine ⟨rfl, ?_⟩
  unfold Drained keptOf
  simp only
  rw [← drain_stream_rest h]
  split
  next => rw [ctx.msgCodec.framing.drain_nil]
  next => exact Iff.rfl

theorem readStep_spec {r r' : ReadRun} {a : ReadAction}
    (h : ReadInv ctx.msgCodec r) (hstep : readStep ctx r a = some r') :
    (TakesNew ctx r a → Drained ctx.msgCodec r' ∧ DeliversNew ctx r a r') ∧
      (Drained ctx.msgCodec r' → TakesNew ctx r a) := by
  obtain ⟨s, hcall, hreads⟩ := readCallback_reads ctx a.env
    { r.state with tc := a.tc } a.chunk
  obtain ⟨hstate, hdrained⟩ := drained_readStep h.drained hcall hstep
  unfold TakesNew DeliversNew
  rw [hdrained, newFrames_eq h.drained, drain_stream_rest h.drained, hstate]
  rcases hreads with ⟨hnil, hsame⟩ | ⟨hchunk, hreads⟩
  · -- an empty chunk completes nothing
    have hstop : ¬ctx.msgCodec.framing.StartsWhole r.state.client.recvedData :=
      not_startsWhole_of_headOf (by simp [h.waiting])
    have hkept : keptOf ctx.msgCodec r.state.client.recvedData =
        r.state.client.recvedData :=
      keptOf_of_not_broken (by simp [h.waiting])
    rw [hnil, List.append_nil, ctx.msgCodec.framing.drain_of_not_startsWhole hstop,
      hkept, hsame]
    simp [GoesToSinks, deliver]
  · have htakes : ({ r.state with tc := a.tc }.setRecvedData
          (r.state.client.recvedData ++ a.chunk)).TakesFrames ctx a.env 0
            (r.state.client.recvedData ++ a.chunk) ↔
        ({ r.state with tc := a.tc } : ClientState).GoesToSinks ctx a.env 0
            (ctx.msgCodec.framing.drain
              (r.state.client.recvedData ++ a.chunk)).1 ∧
          (a.chunk = [] ∨
            (ctx.msgCodec.framing.drain
              (r.state.client.recvedData ++ a.chunk)).2 = [] ∨
            ¬ctx.msgCodec.Misreads
              (a.env.behind (ctx.msgCodec.framing.drain
                (r.state.client.recvedData ++ a.chunk)).1.length)
              (ctx.msgCodec.framing.drain
                (r.state.client.recvedData ++ a.chunk)).2) := by
      rw [takesFrames_setRecvedData]
      simp only [TakesFrames, Nat.zero_add, hchunk, false_or]
    rw [← htakes]
    constructor
    · intro hmeets
      obtain ⟨htold, hdata⟩ := hreads.delivered hmeets
      rw [deliver_setRecvedData] at htold
      exact ⟨hdata, htold⟩
    · intro hdata
      exact hreads.takesFrames hdata

theorem readStep_inv {r r' : ReadRun} {a : ReadAction}
    (h : ReadInv ctx.msgCodec r) (hstep : readStep ctx r a = some r')
    (hdrained : Drained ctx.msgCodec r') : ReadInv ctx.msgCodec r' where
  drained := hdrained
  waiting := by
    obtain ⟨s, hcall, -⟩ := readCallback_reads ctx a.env
      { r.state with tc := a.tc } a.chunk
    obtain ⟨hstate, hiff⟩ := drained_readStep h.drained hcall hstep
    rw [hstate, hiff.mp hdrained]
    exact headOf_keptOf (ctx.msgCodec.framing.not_startsWhole_drain_rest _)

/-- **When the client takes every frame off its stream**: in a run of calls from an
empty buffer, exactly when every call meets `TakesNew`. -/
theorem readRun_takesFrames_iff (ctx : ClientCenterCtx) (s : ClientState)
    (as : List ReadAction) :
    LabelledRun.Along (readStep ctx) (Drained ctx.msgCodec) (DeliversNew ctx)
        ⟨s.setRecvedData [], []⟩ as ↔
      LabelledRun.Guarded (readStep ctx) (TakesNew ctx)
        ⟨s.setRecvedData [], []⟩ as := by
  have hstart : ReadInv ctx.msgCodec ⟨s.setRecvedData [], []⟩ := by
    constructor
    · unfold Drained
      rw [ctx.msgCodec.framing.drain_nil]
      rfl
    · have hshort : ([] : Bytes).length < totalMsgLenFieldLen := by decide
      exact MsgCodec.headOf_of_short hshort
  have hgood : ∀ r, ReadInv ctx.msgCodec r → Drained ctx.msgCodec r :=
    fun r h => h.drained
  refine LabelledRun.along_iff_guarded hgood ?_ ?_ as hstart
  · intro r a r' hinv htakes hstep
    obtain ⟨hdrained, hdelivers⟩ := (readStep_spec hinv hstep).1 htakes
    exact ⟨readStep_inv hinv hstep hdrained, hdelivers⟩
  · intro r a r' hinv hstep _ hdrained
    exact (readStep_spec hinv hstep).2 hdrained

end ClientState

/-! ## Calls on fixed bytes -/

/-- No checksums, and reconnection every second without a limit. -/
def plainCtx : ClientCenterCtx where
  msgCodec := { maxTotalMsgLen := 64, doChecksum := false, fastCRC32 := crc32Bitwise }
  reconnectInterval := ⟨1, 0⟩
  reconnectLimit := 0

def peerB : Peer := ⟨.protoTcp, "10.0.0.2", 80⟩

def nfyFrame : Bytes := plainCtx.msgCodec.encodeMsg ⟨nfyPassback, 1⟩ []

/-- A response without a body to the transaction `transId`. -/
def rspFrameTo (transId : Passback) : Bytes :=
  plainCtx.msgCodec.encodeMsg ⟨transId, 1⟩ []

namespace ClientState

/-- A response that comes after its transaction has gone keeps the notification
behind it from its sinks. -/
theorem readRun_late_response :
    ¬∀ (s : ClientState) (as : List ReadAction),
      LabelledRun.Along (readStep plainCtx) (Drained plainCtx.msgCodec)
        (DeliversNew plainCtx) ⟨s.setRecvedData [], []⟩ as := by
  intro h
  let s := (activate peerB .empty 1).addNfySink 7
  let a : ReadAction := ⟨.empty, quietEnv, rspFrameTo 5 ++ nfyFrame⟩
  have hleft : (readStep plainCtx ⟨s.setRecvedData [], []⟩ a).map
      (fun r => decide (Drained plainCtx.msgCodec r)) = some false := by
    decide +kernel
  cases hstep : readStep plainCtx ⟨s.setRecvedData [], []⟩ a with
  | none =>
      rw [hstep] at hleft
      cases hleft
  | some r =>
      rw [hstep, Option.map_some, Option.some.injEq, decide_eq_false_iff_not] at hleft
      exact hleft ((h s [a]).2 r hstep).2

end ClientState

end CommonComponent
