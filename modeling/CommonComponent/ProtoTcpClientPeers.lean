import CommonComponent.TransCenterWatch

/-!
# Responses and the peers they come from

All clients look transactions up in one table by an id taken from the wire, and
`ReadCallback` does not compare the peer of the transaction with its own.  A
client therefore answers and cancels the transactions of other peers exactly when
a response names one of them, or when a callback has put one in the place of the
transaction it was made for.  Runs of a client that meet neither leave every
other peer's transactions as they are, and what the rest of the process tells these
is then the same whatever the client receives.
-/

namespace CommonComponent

open FramedStream

def ReadNote.owner : ReadNote → Option Peer
  | .onRecvRsp _ _ ctx _ _ => some ctx.peer
  | .cancelTrans _ ctx => ctx.map (·.peer)
  | .onRecvNfy _ _ _ _ => none

/-- The transaction that a note is about. -/
def ReadNote.transId : ReadNote → Option TransID
  | .onRecvRsp transId _ _ _ _ => some transId
  | .cancelTrans transId _ => some transId
  | .onRecvNfy _ _ _ _ => none

/-- A note about a transaction of another peer than `peer`. -/
def ReadNote.Foreign (peer : Peer) (note : ReadNote) : Prop :=
  ∃ owner ∈ note.owner, owner ≠ peer

instance (peer : Peer) (note : ReadNote) : Decidable (note.Foreign peer) :=
  inferInstanceAs (Decidable (∃ owner ∈ note.owner, owner ≠ peer))

namespace ClientState

open TransCenter

variable (ctx : ClientCenterCtx) (env : CallEnv)

/-- The id `transId` is unknown in `tc` or belongs to a transaction of `peer`. -/
def OwnOrUnknown (tc : TransCenter) (peer : Peer) (transId : TransID) : Prop :=
  ∀ transCtx ∈ tc.transHashMap transId, transCtx.peer = peer

instance (tc : TransCenter) (peer : Peer) (transId : TransID) :
    Decidable (OwnOrUnknown tc peer transId) :=
  inferInstanceAs (Decidable (∀ transCtx ∈ tc.transHashMap transId, _))

/-- A frame does not name a transaction of another peer, and neither does its id
after the callback of its sink. -/
def NamesOwn (pass : ℕ) (s : ClientState) (totalMsg : Bytes) : Prop :=
  match ctx.msgCodec.decodeMsg totalMsg with
  | .error _ => True
  | .ok (msgHead, msgBody) =>
      msgHead.passback = nfyPassback ∨
        OwnOrUnknown s.tc s.client.peer msgHead.passback.toInt ∧
          ∀ transCtx ∈ s.tc.transHashMap msgHead.passback.toInt,
            OwnOrUnknown
              (tellAll env pass s.tc (s.rspNotes transCtx msgHead msgBody))
              s.client.peer msgHead.passback.toInt

instance (pass : ℕ) (s : ClientState) (totalMsg : Bytes) :
    Decidable (s.NamesOwn ctx env pass totalMsg) := by
  unfold NamesOwn
  split <;> infer_instance

/-- No frame that has its turn names a transaction of another peer. -/
def AllNameOwn (pass : ℕ) (s : ClientState) : List Bytes → Prop
  | [] => True
  | totalMsg :: later =>
      s.NamesOwn ctx env pass totalMsg ∧
        (ForSinks ctx.msgCodec s.tc totalMsg →
          AllNameOwn (pass + 1) (s.handOver ctx env pass totalMsg) later)

instance AllNameOwn.decidable (pass : ℕ) (s : ClientState) :
    ∀ totalMsgs, Decidable (AllNameOwn ctx env pass s totalMsgs)
  | [] => isTrue trivial
  | totalMsg :: later =>
      have := AllNameOwn.decidable (pass + 1) (s.handOver ctx env pass totalMsg) later
      inferInstanceAs (Decidable (_ ∧ (_ → _)))

variable {ctx env}

theorem namesOwn_setRecvedData (pass : ℕ) (s : ClientState)
    (data totalMsg : Bytes) :
    (s.setRecvedData data).NamesOwn ctx env pass totalMsg ↔
      s.NamesOwn ctx env pass totalMsg := Iff.rfl

theorem allNameOwn_setRecvedData (pass : ℕ) (s : ClientState) (data : Bytes)
    (totalMsgs : List Bytes) :
    (s.setRecvedData data).AllNameOwn ctx env pass totalMsgs ↔
      s.AllNameOwn ctx env pass totalMsgs := by
  induction totalMsgs generalizing pass s with
  | nil => exact Iff.rfl
  | cons totalMsg later ih =>
      simp only [AllNameOwn]
      rw [namesOwn_setRecvedData, handOver_setRecvedData, ih]
      exact Iff.rfl

/-! ## What a message tells -/

theorem not_foreign_nfyNotes {s : ClientState} {msgHead : MsgHead}
    {msgBody : Bytes} {peer : Peer} :
    ∀ note ∈ s.nfyNotes msgHead msgBody, ¬note.Foreign peer := by
  intro note hnote
  unfold nfyNotes at hnote
  obtain ⟨sink, -, rfl⟩ := List.mem_map.mp hnote
  simp [ReadNote.Foreign, ReadNote.owner]

/-- The notes about a response concern its transaction before the callback and
whatever `CancelTrans` finds behind it. -/
theorem foreign_rspNotes {peer : Peer} {s : ClientState} {transCtx : TransCtx}
    {msgHead : MsgHead} {msgBody : Bytes} {tc : TransCenter}
    (hquiet : transCtx.sink = none → tc.transHashMap msgHead.passback.toInt =
      some transCtx) :
    (∀ note ∈ s.rspNotes transCtx msgHead msgBody ++
        [.cancelTrans msgHead.passback.toInt
          (tc.transHashMap msgHead.passback.toInt)], ¬note.Foreign peer) ↔
      transCtx.peer = peer ∧ OwnOrUnknown tc peer msgHead.passback.toInt := by
  have hcancel : (¬(ReadNote.cancelTrans msgHead.passback.toInt
        (tc.transHashMap msgHead.passback.toInt)).Foreign peer) ↔
      OwnOrUnknown tc peer msgHead.passback.toInt := by
    unfold ReadNote.Foreign ReadNote.owner OwnOrUnknown
    cases tc.transHashMap msgHead.passback.toInt with
    | none => simp
    | some transCtx' => simp
  cases hsink : transCtx.sink with
  | none =>
      have hsame := hquiet hsink
      simp only [rspNotes, hsink, Option.toList_none, List.map_nil, List.nil_append,
        List.forall_mem_singleton, hcancel]
      constructor
      · intro hown
        exact ⟨hown transCtx hsame, hown⟩
      · exact And.right
  | some sink =>
      simp only [rspNotes, hsink, Option.toList_some, List.map_cons, List.map_nil,
        List.cons_append, List.nil_append, List.forall_mem_cons,
        List.not_mem_nil, false_implies, implies_true, and_true, hcancel]
      simp [ReadNote.Foreign, ReadNote.owner]

theorem rspNotes_of_sinkless {s : ClientState} {transCtx : TransCtx}
    (hsink : transCtx.sink = none) (msgHead : MsgHead) (msgBody : Bytes) :
    s.rspNotes transCtx msgHead msgBody = [] := by
  simp [rspNotes, hsink]

theorem handOver_notes (env : CallEnv) (pass : ℕ) {s : ClientState} {totalMsg : Bytes}
    (hfor : ForSinks ctx.msgCodec s.tc totalMsg) :
    ∃ notes, (s.handOver ctx env pass totalMsg).told = s.told ++ notes ∧
      ((∀ note ∈ notes, ¬note.Foreign s.client.peer) ↔
        s.NamesOwn ctx env pass totalMsg) := by
  unfold ForSinks at hfor
  unfold handOver NamesOwn
  cases hdecode : ctx.msgCodec.decodeMsg totalMsg with
  | error errMsgId => simp [hdecode] at hfor
  | ok msg =>
      obtain ⟨msgHead, msgBody⟩ := msg
      simp only [hdecode] at hfor ⊢
      by_cases hpassback : msgHead.passback = nfyPassback
      · rw [if_pos hpassback]
        refine ⟨_, rfl, ?_⟩
        simp only [hpassback, true_or, iff_true]
        exact not_foreign_nfyNotes
      · rw [if_neg hpassback]
        obtain ⟨transCtx, hctx⟩ :=
          Option.isSome_iff_exists.mp (hfor.resolve_left hpassback)
        simp only [hctx]
        refine ⟨_, rfl, ?_⟩
        rw [foreign_rspNotes]
        · simp [hpassback, OwnOrUnknown, hctx]
        · intro hsink
          rw [rspNotes_of_sinkless hsink]
          exact hctx

/-- **What a call tells about other peers.** -/
theorem Reads.notes {pass : ℕ} {s t : ClientState} (h : Reads ctx env pass s t) :
    ∃ notes, t.told = s.told ++ notes ∧
      ((∀ note ∈ notes, ¬note.Foreign s.client.peer) ↔
        s.AllNameOwn ctx env pass
          (ctx.msgCodec.framing.drain s.client.recvedData).1) := by
  induction h with
  | @waiting pass s hhead hread =>
      have hstop : ¬ctx.msgCodec.framing.StartsWhole s.client.recvedData :=
        not_startsWhole_of_headOf (by simp [hhead])
      refine ⟨[], by simp, ?_⟩
      simp [ctx.msgCodec.framing.drain_of_not_startsWhole hstop, AllNameOwn]
  | @refused pass s hhead =>
      have hstop : ¬ctx.msgCodec.framing.StartsWhole s.client.recvedData :=
        not_startsWhole_of_refused hhead
      refine ⟨[], by simp [setRecvedData], ?_⟩
      simp [ctx.msgCodec.framing.drain_of_not_startsWhole hstop, AllNameOwn]
  | mismatch hhead hdecode =>
      refine ⟨[], by simp, ?_⟩
      simp [ctx.msgCodec.framing.drain_whole hhead, AllNameOwn, NamesOwn, hdecode,
        not_forSinks_of_error hdecode]
  | @unknown pass s totalMsg rest msgHead msgBody hhead hdecode hhandle =>
      refine ⟨[], by simp, ?_⟩
      have hnobody := (handleMsg_eq_none_iff hdecode).mp hhandle
      have hdead : s.tc.transHashMap msgHead.passback.toInt = none := by
        rw [forSinks_of_ok hdecode, not_or, Option.not_isSome_iff_eq_none] at hnobody
        exact hnobody.2
      simp [ctx.msgCodec.framing.drain_whole hhead, AllNameOwn, NamesOwn, hnobody,
        hdecode, hdead, OwnOrUnknown]
  | @last pass s s' totalMsg msgHead msgBody hhead hdecode hhandle =>
      obtain ⟨hfor, rfl⟩ := (handleMsg_eq_some_iff hdecode).mp hhandle
      obtain ⟨notes, htold, hnotes⟩ := handOver_notes env pass hfor
      refine ⟨notes, htold, ?_⟩
      rw [hnotes, ctx.msgCodec.framing.drain_whole hhead,
        ctx.msgCodec.framing.drain_nil]
      simp [AllNameOwn]
  | @next pass s s' t totalMsg rest msgHead msgBody hhead hrest hdecode hhandle
      hlater ih =>
      have hpeer : s'.client.peer = s.client.peer := handleMsg_peer hhandle
      obtain ⟨hfor, rfl⟩ := (handleMsg_eq_some_iff hdecode).mp hhandle
      obtain ⟨notes, htold, hnotes⟩ := handOver_notes env pass hfor
      obtain ⟨later, htold', hlater'⟩ := ih
      refine ⟨notes ++ later, ?_, ?_⟩
      · rw [htold']
        simp [setRecvedData, htold]
      · have hpeer' : ((s.handOver ctx env pass totalMsg).setRecvedData
            rest).client.peer = s.client.peer := hpeer
        rw [hpeer'] at hlater'
        rw [List.forall_mem_append, hnotes, hlater',
          ctx.msgCodec.framing.drain_whole hhead]
        simp only [AllNameOwn]
        refine and_congr_right fun _ => ?_
        rw [allNameOwn_setRecvedData]
        exact ⟨fun hown _ => hown, fun hown => hown hfor⟩

/-! ## What a call leaves alone -/

/-- The transaction `id` is in the table what it was, and no note is about it. -/
structure LeftAlone (id : TransID) (s t : ClientState) : Prop where
  keeps : Keeps id s.tc t.tc
  told : ∃ notes, t.told = s.told ++ notes ∧ ∀ note ∈ notes, note.transId ≠ some id

theorem LeftAlone.refl (id : TransID) (s : ClientState) : LeftAlone id s s :=
  ⟨.refl id s.tc, [], by simp, by simp⟩

theorem LeftAlone.trans {id : TransID} {s t u : ClientState} (h : LeftAlone id s t)
    (h' : LeftAlone id t u) : LeftAlone id s u := by
  obtain ⟨notes, htold, hnotes⟩ := h.told
  obtain ⟨later, hlater, hnotes'⟩ := h'.told
  refine ⟨h.keeps.trans' h'.keeps, notes ++ later, ?_, ?_⟩
  · rw [hlater, htold, List.append_assoc]
  · rw [List.forall_mem_append]
    exact ⟨hnotes, hnotes'⟩

def Spares (env : CallEnv) (transId : TransID) : Prop :=
  ∀ pass tc note, .cancel transId ∉ env.onRecv pass tc note

theorem tellAll_ordered (pass : ℕ) {tc : TransCenter} (h : tc.Ordered)
    (notes : List ReadNote) : (tellAll env pass tc notes).Ordered := by
  induction notes generalizing tc with
  | nil => exact h
  | cons note notes ih => exact ih (h.applyOps _)

theorem tellAll_keeps (pass : ℕ) {tc : TransCenter} {id : TransID} (h : tc.Indexed)
    (hlive : (tc.transHashMap id).isSome) (hspares : Spares env id)
    (notes : List ReadNote) : Keeps id tc (tellAll env pass tc notes) := by
  induction notes generalizing tc with
  | nil => exact .refl id tc
  | cons note notes ih =>
      have hfirst := keeps_applyOps h hlive (hspares pass tc note)
      have hlater := ih (h.applyOps _) (by rwa [hfirst.trans])
      exact hfirst.trans' hlater

theorem handOver_ordered (pass : ℕ) {s : ClientState} (h : s.tc.Ordered)
    (totalMsg : Bytes) : (s.handOver ctx env pass totalMsg).tc.Ordered := by
  unfold handOver
  split
  next => exact h
  next =>
    split
    next => exact tellAll_ordered pass h _
    next =>
      split
      next => exact h
      next =>
        have htold : ∀ notes, (tellAll env pass s.tc notes).Ordered := tellAll_ordered pass h
        exact ⟨(htold _).indexed.cancelTrans _, cancelTrans_index (htold _).timeouts _⟩

theorem handOver_leftAlone {pass : ℕ} {s : ClientState} {totalMsg : Bytes}
    (h : s.tc.Indexed) (hown : s.NamesOwn ctx env pass totalMsg) {id : TransID}
    {transCtx : TransCtx} (hlive : s.tc.transHashMap id = some transCtx)
    (hother : transCtx.peer ≠ s.client.peer) (hspares : Spares env id) :
    LeftAlone id s (s.handOver ctx env pass totalMsg) := by
  have hsome : (s.tc.transHashMap id).isSome := by
    rw [hlive]
    rfl
  unfold NamesOwn at hown
  unfold handOver
  cases hdecode : ctx.msgCodec.decodeMsg totalMsg with
  | error errMsgId => exact .refl id s
  | ok msg =>
      obtain ⟨msgHead, msgBody⟩ := msg
      simp only [hdecode] at hown ⊢
      by_cases hpassback : msgHead.passback = nfyPassback
      · rw [if_pos hpassback]
        refine ⟨tellAll_keeps pass h hsome hspares _, _, rfl, ?_⟩
        intro note hnote
        obtain ⟨sink, -, rfl⟩ := List.mem_map.mp hnote
        simp [ReadNote.transId]
      · rw [if_neg hpassback]
        obtain ⟨hown, -⟩ := hown.resolve_left hpassback
        cases hctx : s.tc.transHashMap msgHead.passback.toInt with
        | none => exact .refl id s
        | some named =>
            have hne : id ≠ msgHead.passback.toInt := by
              rintro rfl
              rw [hctx, Option.some.injEq] at hlive
              exact hother (hlive ▸ hown named hctx)
            refine ⟨(tellAll_keeps pass h hsome hspares _).trans'
              (keeps_cancelTrans _ hne), _, rfl, ?_⟩
            rw [List.forall_mem_append]
            constructor
            · intro note hnote
              obtain ⟨sink, -, rfl⟩ := List.mem_map.mp hnote
              simpa [ReadNote.transId] using hne.symm
            · simpa [ReadNote.transId] using hne.symm

variable (ctx env) in
/-- The table behind a `Send`: the message has been recorded, and cancelled again where
it could not be kept. -/
theorem send_tc (s : ClientState) (msgHead : MsgHead) (msgBody : Bytes)
    (asyncCtx : Option AsyncCtx) :
    let recorded := s.tc.recordTransCtx env.now (s.sendCtx msgHead asyncCtx)
    (s.send ctx env msgHead msgBody asyncCtx).2.tc = recorded.2 ∨
      recorded.1 ≠ invalidTransID ∧
        (s.send ctx env msgHead msgBody asyncCtx).2.tc =
          recorded.2.cancelTrans recorded.1 := by
  intro recorded
  unfold send
  simp only
  split
  · exact Or.inl rfl
  next hvalid =>
    split
    · obtain ⟨adds, hadds⟩ := innerSend_adds env { s with tc := recorded.2 }
        (ctx.msgCodec.encodeMsg { msgHead with
          passback := Int32.ofInt recorded.1 } msgBody)
        (asyncCtx.elim 0 (·.totalRetries)).toNat
      left
      exact congrArg ClientState.tc hadds
    · unfold addCacheMsg
      simp only
      split
      next hcached =>
        split at hcached
        · cases hcached
        · rw [Option.some.injEq] at hcached
          rw [← hcached]
          exact Or.inl rfl
      next => exact Or.inr ⟨hvalid, rfl⟩

variable (ctx env) in
theorem send_ordered {s : ClientState} (h : s.tc.Ordered) (msgHead : MsgHead)
    (msgBody : Bytes) (asyncCtx : Option AsyncCtx) :
    (s.send ctx env msgHead msgBody asyncCtx).2.tc.Ordered := by
  have hrecord : (s.tc.recordTransCtx env.now (s.sendCtx msgHead asyncCtx)).2.Ordered :=
    h.applyOp (.record env.now (s.sendCtx msgHead asyncCtx))
  rcases send_tc ctx env s msgHead msgBody asyncCtx with hkept | ⟨-, hcancelled⟩
  · rw [hkept]
    exact hrecord
  · rw [hcancelled]
    exact hrecord.applyOp (.cancel _)

variable (ctx env) in
theorem send_leftAlone {s : ClientState} (h : s.tc.Indexed) (msgHead : MsgHead)
    (msgBody : Bytes) (asyncCtx : Option AsyncCtx) {id : TransID}
    (hlive : (s.tc.transHashMap id).isSome) :
    LeftAlone id s (s.send ctx env msgHead msgBody asyncCtx).2 := by
  have hrecord := keeps_recordTransCtx h env.now (s.sendCtx msgHead asyncCtx) hlive
  refine ⟨?_, [], by simp, by simp⟩
  rcases send_tc ctx env s msgHead msgBody asyncCtx with hkept | ⟨hvalid, hcancelled⟩
  · rw [hkept]
    exact hrecord
  · have hne : id ≠ (s.tc.recordTransCtx env.now (s.sendCtx msgHead asyncCtx)).1 := by
      rcases recordTransCtx_cases h env.now (s.sendCtx msgHead asyncCtx) with
        ⟨-, hfail⟩ | ⟨transId, hid, hfresh, -, hsome⟩
      · rw [hfail] at hvalid
        exact (hvalid rfl).elim
      · rw [hsome]
        rintro rfl
        rw [hfresh] at hlive
        cases hlive
    rw [hcancelled]
    exact hrecord.trans' (keeps_cancelTrans _ hne)

theorem Reads.ordered {pass : ℕ} {s t : ClientState} (h : Reads ctx env pass s t)
    (htable : s.tc.Ordered) : t.tc.Ordered := by
  induction h with
  | waiting => exact htable
  | @refused pass s hhead =>
      have hclear : (s.setRecvedData []).tc.Ordered := htable
      exact send_ordered ctx env hclear _ _ _
  | mismatch => exact send_ordered ctx env htable _ _ _
  | unknown => exact htable
  | last hhead hdecode hhandle =>
      obtain ⟨-, rfl⟩ := (handleMsg_eq_some_iff hdecode).mp hhandle
      exact handOver_ordered _ htable _
  | next hhead hrest hdecode hhandle hlater ih =>
      obtain ⟨-, rfl⟩ := (handleMsg_eq_some_iff hdecode).mp hhandle
      exact ih (handOver_ordered _ htable _)

/-- **What a call leaves alone**: where no frame names one of them, all transactions of
other peers that no callback cancels. -/
theorem Reads.leftAlone {pass : ℕ} {s t : ClientState} (h : Reads ctx env pass s t)
    (htable : s.tc.Ordered)
    (hown : s.AllNameOwn ctx env pass
      (ctx.msgCodec.framing.drain s.client.recvedData).1)
    {id : TransID} {transCtx : TransCtx} (hlive : s.tc.transHashMap id = some transCtx)
    (hother : transCtx.peer ≠ s.client.peer) (hspares : Spares env id) :
    LeftAlone id s t := by
  have hsome : ∀ u : ClientState, u.tc.transHashMap id = some transCtx →
      (u.tc.transHashMap id).isSome := fun u hu => by
    rw [hu]
    rfl
  induction h with
  | @waiting pass s => exact .refl id s
  | @refused pass s hhead =>
      have hsent := send_leftAlone ctx env (s := s.setRecvedData []) htable.indexed
        (.ofMsgId msgIdInvalidMsgLen) [] none (hsome s hlive)
      exact ⟨hsent.keeps, hsent.told⟩
  | @mismatch pass s totalMsg rest errMsgId hhead hdecode =>
      exact send_leftAlone ctx env htable.indexed _ _ _ (hsome s hlive)
  | @unknown pass s => exact .refl id s
  | @last pass s s' totalMsg msgHead msgBody hhead hdecode hhandle =>
      obtain ⟨-, rfl⟩ := (handleMsg_eq_some_iff hdecode).mp hhandle
      rw [ctx.msgCodec.framing.drain_whole hhead] at hown
      have hturn := handOver_leftAlone htable.indexed hown.1 hlive hother hspares
      exact ⟨hturn.keeps, hturn.told⟩
  | @next pass s s' t totalMsg rest msgHead msgBody hhead hrest hdecode hhandle
      hlater ih =>
      have hpeer : s'.client.peer = s.client.peer := handleMsg_peer hhandle
      obtain ⟨hfor, rfl⟩ := (handleMsg_eq_some_iff hdecode).mp hhandle
      rw [ctx.msgCodec.framing.drain_whole hhead] at hown
      have hturn := handOver_leftAlone htable.indexed hown.1 hlive hother hspares
      have hafter : LeftAlone id s
          ((s.handOver ctx env pass totalMsg).setRecvedData rest) :=
        ⟨hturn.keeps, hturn.told⟩
      refine hafter.trans (ih (handOver_ordered pass htable totalMsg) ?_ ?_ ?_)
      · exact (allNameOwn_setRecvedData _ _ rest _).mpr (hown.2 hfor)
      · exact hturn.keeps.trans.trans hlive
      · simpa [setRecvedData, hpeer] using hother

end ClientState

end CommonComponent
