import CommonComponent.TransCenterData

/-!
# The runs of the transaction table are runs with data

The machine with data takes the functions of the table apart.  Here they are put together
again: every step of a run of the table, and every walk over the transactions of a peer, is
a run of that machine which leaves the same table and calls the same sinks in the same
order.
-/

namespace CommonComponent

open CopyStore

/-- The transaction whose peer sink is told. -/
def TransNote.told : TransNote → Option TransID
  | .onRecvRsp transId _ _ => some transId
  | .onRecvHTTPRsp transId _ _ => some transId
  | .onTimeout transId => some transId
  | .onClosed transId => some transId
  | _ => none

def TransWorldAction.called : TransWorldAction → Option TransID
  | .callSink transId => some transId
  | _ => none

namespace TransWorld

open LabelledRun

/-- The machine has a run to the table that calls the sinks of these transactions. -/
def Matches (s : TransWorld) (tc : TransCenter) (told : List TransID) : Prop :=
  ∃ as s', LabelledRun.run step s as = some s' ∧ s'.tc = tc ∧
    as.filterMap TransWorldAction.called = told

theorem Matches.refl (s : TransWorld) : s.Matches s.tc [] := ⟨[], s, rfl, rfl, rfl⟩

theorem Matches.cons {s s' : TransWorld} {a : TransWorldAction} (h : s.step a = some s')
    {tc : TransCenter} {told : List TransID} (hlater : s'.Matches tc told) :
    s.Matches tc (a.called.toList ++ told) := by
  obtain ⟨as, t, hrun, htc, rfl⟩ := hlater
  refine ⟨a :: as, t, by rw [LabelledRun.run, h, Option.bind_some, hrun], htc, ?_⟩
  cases hcalled : a.called with
  | none => simp [hcalled]
  | some transId => simp [hcalled]

/-- The state that the run comes to. -/
theorem Matches.exists_state {s : TransWorld} {tc : TransCenter} {told : List TransID}
    (h : s.Matches tc told) :
    ∃ s' : TransWorld, s'.tc = tc ∧
      ∀ {tc' told'}, s'.Matches tc' told' → s.Matches tc' (told ++ told') := by
  obtain ⟨as, s', hrun, htc, rfl⟩ := h
  refine ⟨s', htc, ?_⟩
  rintro tc' _ ⟨bs, s'', hrun', htc', rfl⟩
  refine ⟨as ++ bs, s'', ?_, htc', List.filterMap_append⟩
  rw [run_append, hrun, Option.bind_some, hrun']

theorem Matches.trans {s : TransWorld} {tc tc' : TransCenter} {told told' : List TransID}
    (h : s.Matches tc told)
    (hlater : ∀ s' : TransWorld, s'.tc = tc → s'.Matches tc' told') :
    s.Matches tc' (told ++ told') := by
  obtain ⟨s', htc, hgo⟩ := h.exists_state
  exact hgo (hlater s' htc)

theorem Matches.callSink {s : TransWorld} {transId : TransID}
    (hsink : ((s.tc.transHashMap transId).bind (·.sink)).isSome) :
    s.Matches s.tc [transId] := by
  obtain ⟨sink, hsink⟩ := Option.isSome_iff_exists.mp hsink
  obtain ⟨ctx, hctx, hsink⟩ := Option.bind_eq_some_iff.mp hsink
  have hstep : s.step (.callSink transId) =
      some { s with store := s.store.call transId } := by
    simp [TransWorld.step, TransCenter.getTransCtx, hctx, hsink]
  exact .cons hstep (.refl _)

theorem recordTransCtx_congr (tc : TransCenter) (now : ℤ) {ctx ctx' : TransCtx}
    (h : ctx.create = ctx'.create) :
    tc.recordTransCtx now ctx = tc.recordTransCtx now ctx' := by
  have hpeer : ctx.peer = ctx'.peer := by
    rw [← TransCenter.create_peer, h, TransCenter.create_peer]
  have hsink : ctx.sink = ctx'.sink := by
    rw [← TransCenter.create_sink, h, TransCenter.create_sink]
  have htimeout : ctx.timeoutSec = ctx'.timeoutSec := by
    rw [← TransCenter.create_timeoutSec, h, TransCenter.create_timeoutSec]
  simp only [TransCenter.recordTransCtx, TransCenter.indexTrans, h, hpeer, hsink, htimeout]

/-- A created transaction comes into the table. -/
theorem matches_of_created {s : TransWorld} {now : ℤ} {ctx : TransCtx} {data : Option Addr}
    {len : ℕ} {m : Memory UInt8} {slot : Slot}
    (hcreate : createTrans s.store.memory ⟨true, true⟩ ctx.sink data len =
      some (m, some slot)) :
    s.Matches (s.tc.recordTransCtx now
      { ctx with data := asyncData s.store.memory data len }).2 [] := by
  obtain ⟨r, hrecord, htc⟩ : ∃ r,
      s.recordTransCtx ⟨true, true⟩ now ctx data len = some r ∧
      r.2.tc = (s.tc.recordTransCtx now
        { ctx with data := asyncData s.store.memory data len }).2 := by
    simp only [recordTransCtx, hcreate, Option.map_some]
    refine ⟨_, rfl, ?_⟩
    split_ifs
    · rfl
    · cases s.tc.transHashMap s.tc.transIdSeq.alloc.1 <;> rfl
    · cases s.tc.transHashMap s.tc.transIdSeq.alloc.1 <;> rfl
  have hstep : s.step (.record ⟨true, true⟩ now ctx data len) = some r.2 := by
    simp [TransWorld.step, hrecord]
  rw [← htc]
  exact .cons hstep (.refl _)

/-- `RecordTransCtx` with any data.  A block is put into the cells of the clients before. -/
theorem record_matches (s : TransWorld) (now : ℤ) (ctx : TransCtx) :
    s.Matches (s.tc.recordTransCtx now ctx).2 [] := by
  have hnothing (hdata : ctx.data.len < 1) : s.Matches (s.tc.recordTransCtx now ctx).2 [] := by
    have hcreate : createTrans s.store.memory ⟨true, true⟩ ctx.sink none 0 =
        some (s.store.memory, some .empty) := by
      cases hsink : ctx.sink <;> simp [createTrans]
    have hsame : ctx.create = { ctx with data := asyncData s.store.memory none 0 }.create := by
      cases hsink : ctx.sink <;> simp [TransCtx.create, hsink, hdata, asyncData]
    rw [recordTransCtx_congr s.tc now hsame]
    exact matches_of_created hcreate
  cases hdata : ctx.data with
  | null => exact hnothing (by simp [hdata, AsyncData.len])
  | object pointer => exact hnothing (by simp [hdata, AsyncData.len])
  | memory bytes =>
      cases hbytes : bytes with
      | nil => exact hnothing (by simp [hdata, hbytes, AsyncData.len])
      | cons c cells =>
          have hlen : bytes.length ≠ 0 := by simp [hbytes]
          let s₁ : TransWorld := { s with store := s.store.setClients fun a => bytes[a]? }
          have hread : s₁.store.memory.read (some (.client 0)) bytes.length = some bytes :=
            Memory.read_clients s.store.memory bytes
          obtain ⟨m, slot, hcreate⟩ : ∃ m slot, createTrans s₁.store.memory ⟨true, true⟩
              ctx.sink (some (.client 0)) bytes.length = some (m, some slot) := by
            cases hsink : ctx.sink with
            | none => exact ⟨_, _, rfl⟩
            | some sink => simp [createTrans, Memory.copy, hread, hlen]
          have hmatches : s₁.Matches (s₁.tc.recordTransCtx now { ctx with
              data := asyncData s₁.store.memory (some (.client 0)) bytes.length }).2 [] :=
            matches_of_created hcreate
          have hsame : { ctx with
              data := asyncData s₁.store.memory (some (.client 0)) bytes.length } = ctx := by
            simp [asyncData, hlen, hread, ← hdata]
          rw [hsame] at hmatches
          exact .cons (a := .clients fun a => bytes[a]?) rfl hmatches

theorem cancel_matches (s : TransWorld) (transId : TransID) :
    s.Matches (s.tc.cancelTrans transId) [] :=
  .cons (a := .cancel transId) rfl (.refl _)

theorem remove_matches (s : TransWorld) (transId : TransID) :
    s.Matches (s.tc.removeTrans transId) [] :=
  .cons (a := .remove transId) rfl (.refl _)

/-! ## The runs of the table -/

/-- The machine with data comes to the table of the state as well, and calls the sinks that
are new in the log. -/
def Follows (s : TransWorld) (log : List TransNote) (t : TransState) : Prop :=
  ∃ told, s.Matches t.tc told ∧
    t.log.filterMap TransNote.told = told.reverse ++ log.filterMap TransNote.told

theorem Follows.of_matches {s : TransWorld} {log : List TransNote} {t : TransState}
    (h : s.Matches t.tc [])
    (hlog : t.log.filterMap TransNote.told = log.filterMap TransNote.told) :
    s.Follows log t :=
  ⟨[], h, hlog⟩

theorem Follows.before {s : TransWorld} {tc : TransCenter} {log : List TransNote}
    {t : TransState} (h : s.Matches tc [])
    (hlater : ∀ s' : TransWorld, s'.tc = tc → s'.Follows log t) : s.Follows log t := by
  obtain ⟨s', htc, hgo⟩ := h.exists_state
  obtain ⟨told, hmatches, hlog⟩ := hlater s' htc
  exact ⟨told, hgo hmatches, hlog⟩

theorem Follows.trans {s : TransWorld} {log : List TransNote} {t t' : TransState}
    (h : s.Follows log t) (hlater : ∀ s' : TransWorld, s'.tc = t.tc → s'.Follows t.log t') :
    s.Follows log t' := by
  obtain ⟨told, hmatches, hlog⟩ := h
  obtain ⟨s', htc, hgo⟩ := hmatches.exists_state
  obtain ⟨told', hmatches', hlog'⟩ := hlater s' htc
  refine ⟨told ++ told', hgo hmatches', ?_⟩
  rw [hlog', hlog, List.reverse_append, List.append_assoc]

theorem Follows.called {s : TransWorld} {transId : TransID}
    (hsink : ((s.tc.transHashMap transId).bind (·.sink)).isSome) {log : List TransNote}
    {note : TransNote} (hnote : note.told = some transId) {control : Control} :
    s.Follows log { tc := s.tc, control := control, log := note :: log } := by
  refine ⟨[transId], .callSink hsink, ?_⟩
  rw [List.filterMap_cons_some hnote]
  rfl

theorem expireNext_follows {s : TransWorld} (log : List TransNote) (pending : List TransID) :
    s.Follows log (TransState.expireNext s.tc log pending) := by
  induction pending generalizing s with
  | nil => exact .of_matches (.refl s) rfl
  | cons transId pending ih =>
      unfold TransState.expireNext
      split
      next hsink => exact .called hsink rfl
      next =>
        unfold TransState.tellNext
        split
        · exact .of_matches (.refl s) rfl
        · refine .before (remove_matches s transId) fun s' htc => ?_
          rw [← htc]
          exact ih

theorem recorded_follows {s : TransWorld} {t : TransState} (htc : s.tc = t.tc) (now : ℤ)
    (ctx : TransCtx) : s.Follows t.log (t.recorded now ctx) := by
  have hmatches := record_matches s now ctx
  rw [htc] at hmatches
  refine .of_matches hmatches ?_
  simp only [TransState.recorded]
  split_ifs <;> rfl

theorem cancelled_follows {s : TransWorld} {t : TransState} (htc : s.tc = t.tc)
    (transId : TransID) : s.Follows t.log (t.cancelled transId) := by
  have hmatches := cancel_matches s transId
  rw [htc] at hmatches
  exact .of_matches hmatches rfl

theorem answer_follows {s : TransWorld} {t : TransState} (htc : s.tc = t.tc)
    {transId : TransID} {ctx : TransCtx} (hctx : t.tc.getTransCtx transId = some ctx)
    {note : TransNote} (hnote : note.told = some transId) :
    s.Follows t.log (t.answer transId ctx note) := by
  unfold TransState.answer
  split
  next sink hsink =>
    rw [← htc] at hctx ⊢
    refine .called ?_ hnote
    rw [show s.tc.transHashMap transId = some ctx from hctx, Option.bind_some, hsink]
    rfl
  next => exact cancelled_follows htc transId

theorem httpNote_told (transId : TransID) (done : HttpDone) :
    (TransState.httpNote transId done).told = some transId := by
  cases done <;> rfl

/-- A step of the table is a run of the machine with data. -/
theorem steps_follows {s : TransWorld} {t t' : TransState} {a : TransAction}
    (htc : s.tc = t.tc) (hsteps : t.Steps a t') : s.Follows t.log t' := by
  cases hsteps with
  | record now ctx => exact recorded_follows htc now ctx
  | cancel transId => exact cancelled_follows htc transId
  | addSink sink =>
      exact .of_matches (htc ▸ .cons (a := .addSink sink) rfl (.refl _)) rfl
  | removeSink sink hahead =>
      exact .of_matches (htc ▸ .cons (a := .removeSink sink) rfl (.refl _)) rfl
  | onRecvRsp msgHead msgBody hidle hctx => exact answer_follows htc hctx rfl
  | lateRsp msgHead msgBody hidle hnone => exact cancelled_follows htc _
  | httpReqDone done hidle hctx => exact answer_follows htc hctx (httpNote_told _ done)
  | lateHttp done hidle hnone => exact .of_matches (htc ▸ .refl s) rfl
  | @onTimer now order expired mgr hidle htake hperm =>
      rw [← htc] at htake ⊢
      have hstep : s.step (.takeExpired now) =
          some { s with tc := { s.tc with rspMsgMgr := mgr } } := by
        simp [TransWorld.step, htake]
      have hmatches : s.Matches { s.tc with rspMsgMgr := mgr } [] := .cons hstep (.refl _)
      refine .before hmatches fun s' htc' => ?_
      rw [← htc']
      exact expireNext_follows t.log order
  | @answered transId hcontrol =>
      obtain ⟨told, hmatches, hlog⟩ := cancelled_follows htc transId
      exact ⟨told, hmatches, hlog⟩
  | @told transId last pending hcontrol =>
      rw [← htc]
      unfold TransState.tellNext
      split
      · exact .of_matches (.refl s) rfl
      · refine .before (remove_matches s transId) fun s' htc' => ?_
        rw [← htc']
        exact expireNext_follows t.log pending

/-- **Every run of the table is one with data**, with the same callbacks. -/
theorem run_follows {s : TransWorld} {t t' : TransState} {as : List TransAction}
    (htc : s.tc = t.tc) (hrun : LabelledRun.run TransState.step t as = some t') :
    s.Follows t.log t' := by
  induction as generalizing s t with
  | nil =>
      obtain rfl : t = t' := Option.some.inj hrun
      exact .of_matches (htc ▸ .refl s) rfl
  | cons a as ih =>
      obtain ⟨t₁, hstep, hrest⟩ := Option.bind_eq_some_iff.mp hrun
      refine (steps_follows htc (TransState.step_steps hstep)).trans fun s' htc' => ?_
      exact ih htc' hrest

/-! ## The walks over a peer -/

theorem applyOp_matches (s : TransWorld) (op : TransCenter.TransOp) :
    s.Matches (s.tc.applyOp op) [] := by
  cases op with
  | record now ctx => exact record_matches s now ctx
  | cancel transId => exact cancel_matches s transId

theorem peerCallback_matches {s : TransWorld} (peer : Peer) (transId : TransID)
    (ops : List TransCenter.TransOp) :
    s.Matches (TransCenter.peerCallback peer transId s.tc ops).1 [] := by
  induction ops generalizing s with
  | nil => exact .refl s
  | cons op ops ih =>
      unfold TransCenter.peerCallback
      refine (applyOp_matches s op).trans fun s' htc => ?_
      rw [← htc]
      exact ih

/-- **A walk is a run with data** that calls the sinks of the transactions it told. -/
theorem peerLoop_matches {s : TransWorld} {peer : Peer}
    {react : TransID → List TransCenter.TransOp} {fuel : ℕ} {next : Option TransID}
    {walk : TransCenter.PeerWalk}
    (h : TransCenter.peerLoop peer react fuel s.tc next = some walk) :
    s.Matches walk.tc (walk.notified.map Prod.fst) := by
  induction fuel generalizing s next walk with
  | zero => cases h
  | succ fuel ih =>
      cases next with
      | none =>
          cases h
          exact .refl s
      | some transId =>
          unfold TransCenter.peerLoop at h
          cases hsink : (s.tc.transHashMap transId).bind (·.sink) with
          | none =>
              rw [hsink] at h
              exact ih h
          | some sink =>
              rw [hsink] at h
              have hcall : s.Matches
                  (TransCenter.peerCallback peer transId s.tc (react transId)).1 [transId] := by
                refine (Matches.callSink (by rw [hsink]; rfl)).trans fun s' htc => ?_
                rw [← htc]
                exact peerCallback_matches peer transId (react transId)
              simp only at h
              split_ifs at h with hstays
              · obtain ⟨later, hlater, rfl⟩ := Option.map_eq_some_iff.mp h
                refine hcall.trans fun s' htc => ?_
                rw [← htc] at hlater
                exact ih hlater
              · cases h
                exact hcall

end TransWorld

end CommonComponent
