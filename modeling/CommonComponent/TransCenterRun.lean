import CommonComponent.LabelledRun
import CommonComponent.TransCenter

/-!
# Runs of the transaction table

Responses, HTTP completions and the timeout check come from the event loop, so
they begin when no callback is running.  Each of them calls sinks, and a sink may
record and cancel transactions and add and remove `TransCenter` sinks before it
returns.  The model stops at every callback: `Control` says which one is running
and what the code does when it returns.

The representation invariant holds along every run in which no id of the running
timeout batch is handed out again.  `OnTimeout` ends with `RemoveTrans`, which
forgets the timeout index, so an id that was cancelled and handed out again
between the collection of the batch and its own turn leaves a record behind.
-/

namespace CommonComponent

/-- How `HTTPReqDoneCallback` finds the request. -/
inductive HttpDone
  | reqNull
  | timeout
  | rsp (statusCode : ℤ) (rspBody : Bytes)
deriving DecidableEq

/-- What has happened: transactions recorded, `CancelTrans` calls that have
returned, and what peer sinks and `TransCenter` sinks have been told. -/
inductive TransNote
  | recorded (transId : TransID)
  | cancelReturned (transId : TransID)
  | onRecvRsp (transId : TransID) (msgHead : MsgHead) (msgBody : Bytes)
  | onRecvHTTPRsp (transId : TransID) (statusCode : ℤ) (rspBody : Bytes)
  | onTimeout (transId : TransID)
  | onClosed (transId : TransID)
  | centerOnTimeout (sink : ℕ) (transId : TransID)
deriving DecidableEq

/-- Where the event loop is: outside every callback, in a callback that
`CancelTrans` follows, or in a callback of `OnTimeout` for `transId`, with the
last `TransCenter` sink told and the rest of the batch. -/
inductive Control
  | idle
  | answering (transId : TransID)
  | expiring (transId : TransID) (told : Option ℕ) (pending : List TransID)
deriving DecidableEq

/-- The log has its newest entry first. -/
structure TransState where
  tc : TransCenter
  control : Control
  log : List TransNote

inductive TransAction
  | record (now : ℤ) (ctx : TransCtx)
  | cancel (transId : TransID)
  | addSink (sink : ℕ)
  | removeSink (sink : ℕ)
  | onRecvRsp (transId : TransID) (msgHead : MsgHead) (msgBody : Bytes)
  | httpReqDone (transId : TransID) (done : HttpDone)
  | onTimer (now : ℤ) (order : List TransID)
  | ret

namespace TransState

def start : TransState where
  tc := .empty
  control := .idle
  log := []

def batch (s : TransState) : List TransID :=
  match s.control with
  | .expiring transId _ pending => transId :: pending
  | _ => []

def nextSink (tc : TransCenter) (told : Option ℕ) : Option ℕ :=
  let ahead := tc.transCenterSinkSet.filter fun sink => ∀ last ∈ told, last < sink
  if h : ahead.Nonempty then some (ahead.min' h) else none

/-- The loop of `OnTimeout` over the `TransCenter` sinks up to the next callback;
`rest` is what follows the loop. -/
def tellNext (tc : TransCenter) (log : List TransNote) (transId : TransID)
    (told : Option ℕ) (pending : List TransID) (rest : TransState) :
    TransState :=
  match nextSink tc told with
  | some sink =>
      { tc := tc
        control := .expiring transId (some sink) pending
        log := .centerOnTimeout sink transId :: log }
  | none => rest

/-- The second loop of `OnTimer` up to the next callback. -/
def expireNext (tc : TransCenter) (log : List TransNote) :
    List TransID → TransState
  | [] => { tc := tc, control := .idle, log := log }
  | transId :: pending =>
      if ((tc.transHashMap transId).bind (·.sink)).isSome then
        { tc := tc
          control := .expiring transId none pending
          log := .onTimeout transId :: log }
      else
        tellNext tc log transId none pending
          (expireNext (tc.removeTrans transId) log pending)

def httpNote (transId : TransID) : HttpDone → TransNote
  | .reqNull => .onClosed transId
  | .timeout => .onTimeout transId
  | .rsp statusCode rspBody => .onRecvHTTPRsp transId statusCode rspBody

/-- The end of `RecordTransCtx`, with what it did to the log. -/
def recorded (s : TransState) (now : ℤ) (ctx : TransCtx) : TransState :=
  let result := s.tc.recordTransCtx now ctx
  { s with
    tc := result.2
    log :=
      if result.1 = invalidTransID then s.log
      else if ctx.sink = none then
        .cancelReturned result.1 :: .recorded result.1 :: s.log
      else .recorded result.1 :: s.log }

def cancelled (s : TransState) (transId : TransID) : TransState :=
  { s with
    tc := s.tc.cancelTrans transId
    log := .cancelReturned transId :: s.log }

/-- The sink of a live transaction is told `note` and `CancelTrans` follows; a
transaction without a sink is cancelled at once. -/
def answer (s : TransState) (transId : TransID) (ctx : TransCtx)
    (note : TransNote) : TransState :=
  match ctx.sink with
  | some _ =>
      { s with control := .answering transId, log := note :: s.log }
  | none => s.cancelled transId

def step (s : TransState) : TransAction → Option TransState
  | .record now ctx => some (s.recorded now ctx)
  | .cancel transId => some (s.cancelled transId)
  | .addSink sink => some { s with tc := s.tc.addSink sink }
  | .removeSink sink =>
      match s.control with
      | .expiring _ told _ =>
          -- the loop would go on from an erased element
          if told = some sink then none
          else some { s with tc := s.tc.removeSink sink }
      | _ => some { s with tc := s.tc.removeSink sink }
  | .onRecvRsp transId msgHead msgBody =>
      if s.control = .idle then
        match s.tc.getTransCtx transId with
        | some ctx =>
            some (s.answer transId ctx (.onRecvRsp transId msgHead msgBody))
        | none => some (s.cancelled transId)
      else none
  | .httpReqDone transId done =>
      if s.control = .idle then
        match s.tc.getTransCtx transId with
        | some ctx => some (s.answer transId ctx (httpNote transId done))
        | none => some s
      else none
  | .onTimer now order =>
      if s.control = .idle then
        match s.tc.rspMsgMgr.takeExpired now with
        | some (expired, mgr) =>
            -- the batch is a hash map: its order is not the order of expiry
            if order.Perm (expired.map (·.key)) then
              some (expireNext { s.tc with rspMsgMgr := mgr } s.log order)
            else none
        | none => none
      else none
  | .ret =>
      match s.control with
      | .idle => none
      | .answering transId => some { s.cancelled transId with control := .idle }
      | .expiring transId told pending =>
          some (tellNext s.tc s.log transId told pending
            (expireNext (s.tc.removeTrans transId) s.log pending))

/-- The steps one by one, each with what has to hold before it. -/
inductive Steps (s : TransState) : TransAction → TransState → Prop
  | record (now ctx) : Steps s (.record now ctx) (s.recorded now ctx)
  | cancel (transId) : Steps s (.cancel transId) (s.cancelled transId)
  | addSink (sink) : Steps s (.addSink sink) { s with tc := s.tc.addSink sink }
  | removeSink (sink)
      (hahead : ∀ transId told pending,
        s.control = .expiring transId told pending → told ≠ some sink) :
      Steps s (.removeSink sink) { s with tc := s.tc.removeSink sink }
  | onRecvRsp {transId ctx} (msgHead msgBody) (hidle : s.control = .idle)
      (hctx : s.tc.getTransCtx transId = some ctx) :
      Steps s (.onRecvRsp transId msgHead msgBody)
        (s.answer transId ctx (.onRecvRsp transId msgHead msgBody))
  | lateRsp {transId} (msgHead msgBody) (hidle : s.control = .idle)
      (hnone : s.tc.getTransCtx transId = none) :
      Steps s (.onRecvRsp transId msgHead msgBody) (s.cancelled transId)
  | httpReqDone {transId ctx} (done) (hidle : s.control = .idle)
      (hctx : s.tc.getTransCtx transId = some ctx) :
      Steps s (.httpReqDone transId done)
        (s.answer transId ctx (httpNote transId done))
  | lateHttp {transId} (done) (hidle : s.control = .idle)
      (hnone : s.tc.getTransCtx transId = none) :
      Steps s (.httpReqDone transId done) s
  | onTimer {now order expired mgr} (hidle : s.control = .idle)
      (htake : s.tc.rspMsgMgr.takeExpired now = some (expired, mgr))
      (hperm : order.Perm (expired.map (·.key))) :
      Steps s (.onTimer now order)
        (expireNext { s.tc with rspMsgMgr := mgr } s.log order)
  | answered {transId} (hcontrol : s.control = .answering transId) :
      Steps s .ret { s.cancelled transId with control := .idle }
  | told {transId told pending}
      (hcontrol : s.control = .expiring transId told pending) :
      Steps s .ret (tellNext s.tc s.log transId told pending
        (expireNext (s.tc.removeTrans transId) s.log pending))

/-- **Every step is one of these.** -/
theorem step_steps {s s' : TransState} {a : TransAction} (h : s.step a = some s') :
    s.Steps a s' := by
  cases a with
  | record now ctx =>
      cases h
      exact .record now ctx
  | cancel transId =>
      cases h
      exact .cancel transId
  | addSink sink =>
      cases h
      exact .addSink sink
  | removeSink sink =>
      simp only [step] at h
      split at h
      next current told pending hcontrol =>
        split at h
        next => cases h
        next hahead =>
          cases h
          apply Steps.removeSink
          intro _ _ _ hexpiring
          rw [hcontrol] at hexpiring
          cases hexpiring
          exact hahead
      next hother =>
        cases h
        apply Steps.removeSink
        intro transId told pending hexpiring
        exact (hother transId told pending hexpiring).elim
  | onRecvRsp transId msgHead msgBody =>
      simp only [step] at h
      split at h
      next hidle =>
        split at h
        next ctx hctx =>
          cases h
          exact .onRecvRsp msgHead msgBody hidle hctx
        next hnone =>
          cases h
          exact .lateRsp msgHead msgBody hidle hnone
      next => cases h
  | httpReqDone transId done =>
      simp only [step] at h
      split at h
      next hidle =>
        split at h
        next ctx hctx =>
          cases h
          exact .httpReqDone done hidle hctx
        next hnone =>
          cases h
          exact .lateHttp done hidle hnone
      next => cases h
  | onTimer now order =>
      simp only [step] at h
      split at h
      next hidle =>
        split at h
        next expired mgr htake =>
          split at h
          next hperm =>
            cases h
            exact .onTimer hidle htake hperm
          next => cases h
        next => cases h
      next => cases h
  | ret =>
      simp only [step] at h
      split at h
      next => cases h
      next transId hcontrol =>
        cases h
        exact .answered hcontrol
      next transId told pending hcontrol =>
        cases h
        exact .told hcontrol

/-! ## The representation invariant along runs -/

/-- The table is well formed, and the running batch is out of the timeout index. -/
structure Inv (s : TransState) : Prop where
  good : s.tc.Good
  collected : ∀ id ∈ s.batch, s.tc.rspMsgMgr.recordExist id = false

/-- The id a `RecordTransCtx` is about to get is not in the running batch. -/
def FreshForBatch (s : TransState) (a : TransAction) : Prop :=
  match a with
  | .record _ _ => s.tc.transIdSeq.alloc.1 ∉ s.batch
  | _ => True

instance (s : TransState) (a : TransAction) : Decidable (s.FreshForBatch a) :=
  match a with
  | .record _ _ => inferInstanceAs (Decidable (s.tc.transIdSeq.alloc.1 ∉ s.batch))
  | .cancel _ | .addSink _ | .removeSink _ | .onRecvRsp _ _ _ | .httpReqDone _ _
  | .onTimer _ _ | .ret => .isTrue trivial

/-- What a `RecordTransCtx` step must be like: a failing one changes nothing, and
the allocated id is not a key of the hash map. -/
def RecordStepOk (s : TransState) (a : TransAction) (s' : TransState) : Prop :=
  ∀ now ctx, a = .record now ctx →
    ((s.tc.recordTransCtx now ctx).1 = invalidTransID → s'.tc = s.tc) ∧
    (s.tc.transIdSeq.alloc.1 ≠ invalidTransID →
      s.tc.transHashMap s.tc.transIdSeq.alloc.1 = none)

theorem expireNext_inv {tc : TransCenter} (hgood : tc.Good)
    (log : List TransNote) {pending : List TransID}
    (hpending : ∀ id ∈ pending, tc.rspMsgMgr.recordExist id = false) :
    (expireNext tc log pending).Inv := by
  induction pending generalizing tc with
  | nil => exact ⟨hgood, by simp [expireNext, batch]⟩
  | cons transId pending ih =>
      unfold expireNext
      split
      · exact ⟨hgood, by simpa [batch] using hpending⟩
      · unfold tellNext
        split
        · exact ⟨hgood, by simpa [batch] using hpending⟩
        · apply ih
          · apply hgood.removeTrans
            exact hpending transId List.mem_cons_self
          · intro id hid
            rw [TransCenter.removeTrans_rspMsgMgr]
            exact hpending id (List.mem_cons_of_mem transId hid)

theorem tellNext_inv {tc : TransCenter} (hgood : tc.Good) (log : List TransNote)
    {transId : TransID} {told : Option ℕ} {pending : List TransID}
    (hpending : ∀ id ∈ transId :: pending,
      tc.rspMsgMgr.recordExist id = false) :
    (tellNext tc log transId told pending
      (expireNext (tc.removeTrans transId) log pending)).Inv := by
  unfold tellNext
  split
  · exact ⟨hgood, by simpa [batch] using hpending⟩
  · apply expireNext_inv
    · apply hgood.removeTrans
      exact hpending transId List.mem_cons_self
    · intro id hid
      rw [TransCenter.removeTrans_rspMsgMgr]
      exact hpending id (List.mem_cons_of_mem transId hid)

theorem Inv.cancelled {s : TransState} (h : s.Inv) (transId : TransID) :
    (s.cancelled transId).Inv where
  good := h.good.cancelTrans transId
  collected := by
    intro id hid
    have hcollected := h.collected id hid
    simp only [TransState.cancelled]
    rw [TransCenter.cancelTrans_recordExist h.good, hcollected, Bool.and_false]

theorem recordTransCtx_recordExist {tc : TransCenter} (h : tc.Good) (now : ℤ)
    (ctx : TransCtx) {id : TransID}
    (hid : (tc.recordTransCtx now ctx).2.rspMsgMgr.recordExist id) :
    id = tc.transIdSeq.alloc.1 ∨ tc.rspMsgMgr.recordExist id := by
  rcases TransCenter.recordTransCtx_cases h.toIndexed now ctx with
    ⟨-, hfail⟩ | ⟨transId, hrange, hfresh, halloc, hrecord⟩
  · rw [hfail] at hid
    exact Or.inr hid
  · rw [hrecord] at hid
    rw [halloc]
    have henter : (tc.enterTrans now ctx transId hrange).rspMsgMgr.recordExist id →
        id = transId ∨ tc.rspMsgMgr.recordExist id := by
      unfold TransCenter.enterTrans
      rw [TransCenter.indexTrans_recordExist, Bool.or_eq_true]
      rintro (hnew | hold)
      · exact Or.inl (of_decide_eq_true hnew).1
      · exact Or.inr hold
    simp only at hid
    split at hid
    · rw [TransCenter.cancelTrans_recordExist
        (h.enterTrans now ctx hrange hfresh), Bool.and_eq_true] at hid
      exact henter hid.2
    · exact henter hid

theorem Inv.recorded {s : TransState} (h : s.Inv) (now : ℤ) (ctx : TransCtx)
    (hfresh : s.FreshForBatch (.record now ctx)) : (s.recorded now ctx).Inv where
  good := h.good.recordTransCtx now ctx
  collected := by
    intro id hid
    have hcollected := h.collected id hid
    cases hexist : (s.recorded now ctx).tc.rspMsgMgr.recordExist id with
    | false => rfl
    | true =>
        rcases recordTransCtx_recordExist h.good now ctx hexist with hnew | hold
        · rw [hnew] at hid
          exact (hfresh hid).elim
        · rw [hcollected] at hold
          cases hold

theorem Inv.answer {s : TransState} (h : s.Inv) (transId : TransID)
    (ctx : TransCtx) (note : TransNote) : (s.answer transId ctx note).Inv := by
  unfold TransState.answer
  split
  · exact ⟨h.good, by simp [batch]⟩
  · exact h.cancelled transId

theorem Inv.collect {s : TransState} (h : s.Inv) {now : ℤ}
    {expired : List (TimeoutRecord TransID TransCtx)}
    {mgr : RecordTimeoutMgr TransID TransCtx}
    (htake : s.tc.rspMsgMgr.takeExpired now = some (expired, mgr))
    {order : List TransID} (hperm : order.Perm (expired.map (·.key))) :
    ({ s.tc with rspMsgMgr := mgr } : TransCenter).Good ∧
      ∀ id ∈ order, mgr.recordExist id = false := by
  constructor
  · apply h.good.withRspMsgMgr
    intro k hk
    rw [RecordTimeoutMgr.recordExist_takeExpired htake, Bool.and_eq_true] at hk
    exact hk.2
  · intro id hid
    rw [RecordTimeoutMgr.recordExist_takeExpired htake]
    simp [hperm.mem_iff.mp hid]

theorem Inv.step {s s' : TransState} {a : TransAction} (h : s.Inv)
    (hguard : s.FreshForBatch a) (hstep : s.step a = some s') : s'.Inv := by
  cases step_steps hstep with
  | record now ctx => exact h.recorded now ctx hguard
  | cancel transId => exact h.cancelled transId
  | addSink sink =>
      exact ⟨⟨⟨h.good.inuse, h.good.peers⟩, h.good.timed⟩, h.collected⟩
  | removeSink sink =>
      exact ⟨⟨⟨h.good.inuse, h.good.peers⟩, h.good.timed⟩, h.collected⟩
  | @onRecvRsp transId ctx => exact h.answer transId ctx _
  | @lateRsp transId => exact h.cancelled transId
  | @httpReqDone transId ctx => exact h.answer transId ctx _
  | lateHttp => exact h
  | onTimer hidle htake hperm =>
      obtain ⟨hgood, hcollected⟩ := h.collect htake hperm
      exact expireNext_inv hgood s.log hcollected
  | @answered transId => exact ⟨(h.cancelled transId).good, by simp [batch]⟩
  | told hcontrol =>
      apply tellNext_inv h.good
      intro id hid
      apply h.collected
      simpa [batch, hcontrol] using hid

theorem Inv.recordStepOk {s s' : TransState} {a : TransAction} (h : s.Inv)
    (hstep : s.step a = some s') : s.RecordStepOk a s' := by
  rintro now ctx rfl
  simp only [TransState.step, Option.some.injEq] at hstep
  subst hstep
  exact ⟨TransCenter.recordTransCtx_failed h.good.toIndexed,
    TransCenter.alloc_fresh h.good.toIndexed⟩

theorem Inv.start : TransState.start.Inv :=
  ⟨TransCenter.Good.empty, by simp [batch, TransState.start]⟩

/-- **The representation invariant** along every run that does not hand out an id
of the running timeout batch. -/
theorem run_good (as : List TransAction)
    (hfresh : LabelledRun.Guarded step FreshForBatch start as) :
    LabelledRun.Along step (fun s => s.tc.Good) RecordStepOk start as :=
  LabelledRun.Guarded.along_of_inv (fun _ => Inv.good)
    (fun _ _ _ h hguard hstep => ⟨h.step hguard hstep, h.recordStepOk hstep⟩)
    Inv.start hfresh

/-! ## The index along all runs -/

theorem expireNext_filed {tc : TransCenter} (h : tc.Filed) (log : List TransNote)
    (pending : List TransID) : (expireNext tc log pending).tc.Filed := by
  induction pending generalizing tc with
  | nil => exact h
  | cons transId pending ih =>
      unfold expireNext
      split
      · exact h
      · unfold tellNext
        split
        · exact h
        · exact ih (h.removeTrans transId)

theorem answer_filed {s : TransState} (h : s.tc.Filed) (transId : TransID)
    (ctx : TransCtx) (note : TransNote) : (s.answer transId ctx note).tc.Filed := by
  unfold answer
  split
  · exact h
  · exact h.cancelTrans transId

theorem step_filed {s s' : TransState} {a : TransAction} (h : s.tc.Filed)
    (hstep : s.step a = some s') : s'.tc.Filed := by
  cases step_steps hstep with
  | record now ctx => exact h.recordTransCtx now ctx
  | cancel transId => exact h.cancelTrans transId
  | addSink sink => exact ⟨⟨h.inuse, h.peers⟩, h.sinked⟩
  | removeSink sink => exact ⟨⟨h.inuse, h.peers⟩, h.sinked⟩
  | onRecvRsp => exact answer_filed h _ _ _
  | @lateRsp transId => exact h.cancelTrans transId
  | httpReqDone => exact answer_filed h _ _ _
  | lateHttp => exact h
  | onTimer =>
      apply expireNext_filed
      exact ⟨⟨h.inuse, h.peers⟩, h.sinked⟩
  | @answered transId => exact h.cancelTrans transId
  | @told transId told pending =>
      unfold tellNext
      split
      · exact h
      · exact expireNext_filed (h.removeTrans transId) s.log pending

/-- The transaction that an action ends by a call: `CancelTrans`, or what follows
the last callback, which is `CancelTrans` or `RemoveTrans`. -/
def ended (s : TransState) : TransAction → Option TransID
  | .cancel transId => some transId
  | .ret =>
      match s.control with
      | .idle => none
      | .answering transId => some transId
      | .expiring transId told _ =>
          if nextSink s.tc told = none then some transId else none
  | _ => none

theorem expireNext_keeps {tc : TransCenter} (log : List TransNote)
    (pending : List TransID) {id : TransID} {ctx : TransCtx}
    (hlive : tc.transHashMap id = some ctx) (hsink : ctx.sink.isSome) :
    (expireNext tc log pending).tc.transHashMap id = some ctx := by
  induction pending generalizing tc with
  | nil => exact hlive
  | cons transId pending ih =>
      unfold expireNext
      split
      · exact hlive
      next hnone =>
        unfold tellNext
        split
        · exact hlive
        · have hne : id ≠ transId := by
            rintro rfl
            simp [hlive, hsink] at hnone
          apply ih
          rw [TransCenter.removeTrans_transHashMap, if_neg hne, hlive]

theorem cancelled_keeps {s : TransState} {id transId : TransID} {ctx : TransCtx}
    (hlive : s.tc.transHashMap id = some ctx) (hne : transId ≠ id) :
    (s.cancelled transId).tc.transHashMap id = some ctx := by
  simp only [cancelled, TransCenter.cancelTrans_transHashMap, if_neg hne.symm,
    hlive]

theorem answer_keeps {s : TransState} (h : s.tc.Filed) {id transId : TransID}
    {ctx ctx' : TransCtx} (note : TransNote)
    (hlive : s.tc.transHashMap id = some ctx)
    (hctx' : s.tc.getTransCtx transId = some ctx') :
    (s.answer transId ctx' note).tc.transHashMap id = some ctx := by
  obtain ⟨sink, hsink⟩ := Option.isSome_iff_exists.mp (h.sinked transId ctx' hctx')
  simp only [answer, hsink, hlive]

/-- A transaction stays in the table until an action ends it. -/
theorem step_keeps {s s' : TransState} {a : TransAction} (h : s.tc.Filed)
    (hstep : s.step a = some s') {id : TransID} {ctx : TransCtx}
    (hlive : s.tc.transHashMap id = some ctx) (hends : s.ended a ≠ some id) :
    s'.tc.transHashMap id = some ctx := by
  cases step_steps hstep with
  | record now ctx' =>
      exact TransCenter.recordTransCtx_live h.toIndexed now ctx' hlive
  | cancel transId =>
      exact cancelled_keeps hlive fun heq => hends (congrArg some heq)
  | addSink sink => exact hlive
  | removeSink sink => exact hlive
  | onRecvRsp msgHead msgBody hidle hctx => exact answer_keeps h _ hlive hctx
  | lateRsp msgHead msgBody hidle hnone =>
      refine cancelled_keeps hlive ?_
      rintro rfl
      simp [TransCenter.getTransCtx, hlive] at hnone
  | httpReqDone done hidle hctx => exact answer_keeps h _ hlive hctx
  | lateHttp => exact hlive
  | onTimer hidle htake hperm =>
      exact expireNext_keeps _ _ hlive (h.sinked id ctx hlive)
  | @answered transId hcontrol =>
      refine cancelled_keeps hlive ?_
      simpa [ended, hcontrol] using hends
  | @told transId told pending hcontrol =>
      simp only [ended, hcontrol] at hends
      unfold tellNext
      split
      · exact hlive
      next hnone =>
        have hne : transId ≠ id := by
          rintro rfl
          exact hends (if_pos hnone)
        apply expireNext_keeps _ _ _ (h.sinked id ctx hlive)
        rw [TransCenter.removeTrans_transHashMap, if_neg hne.symm, hlive]

theorem run_filed {as : List TransAction} {s : TransState}
    (hrun : LabelledRun.run step start as = some s) : s.tc.Filed :=
  LabelledRun.inv_of_run
    (fun _ _ _ h hstep => step_filed h hstep) TransCenter.Filed.empty hrun

/-! ## Runs on fixed transactions -/

def timedCtx : TransCtx where
  peer := ⟨.protoTcp, "10.0.0.1", 80⟩
  timeoutSec := 1
  passback := 0
  sink := some 1
  data := .null

def sinklessCtx : TransCtx := { timedCtx with sink := none }

theorem run_good_cancelled_in_batch :
    LabelledRun.Along step (fun s => s.tc.Good) RecordStepOk start
      [.record 0 timedCtx, .record 0 timedCtx, .onTimer 5 [2, 1], .cancel 1,
        .record 5 timedCtx, .ret, .ret] :=
  run_good _ (by decide +kernel)

theorem run_sinkless {s : TransState} (hgood : s.tc.Good)
    (hbelow : ∀ id ∈ s.tc.transIdSeq.inuseSeqs, id ≤ s.tc.transIdSeq.cursor)
    (hfree : s.tc.transIdSeq.inuseSeqs.card ≠ i32SeqRange.totalCount) {n : ℕ}
    (hn : s.tc.transIdSeq.cursor + n ≤ i32SeqRange.seqMax) :
    ∃ log, LabelledRun.run step s (List.replicate n (.record 0 sinklessCtx)) =
      some { s with
        tc := { s.tc with transIdSeq := SeqNum.skip^[n] s.tc.transIdSeq }
        log := log } := by
  induction n generalizing s with
  | zero => exact ⟨s.log, rfl⟩
  | succ n ih =>
      push_cast at hn
      have hadvance : i32SeqRange.advance s.tc.transIdSeq.cursor =
          s.tc.transIdSeq.cursor + 1 := by
        unfold SeqRange.advance
        rw [if_pos (by omega)]
      have hnext : i32SeqRange.advance s.tc.transIdSeq.cursor ∉
          s.tc.transIdSeq.inuseSeqs := by
        rw [hadvance]
        intro hmem
        have := hbelow _ hmem
        omega
      have hsink : sinklessCtx.sink = none := rfl
      have hrecord :=
        TransCenter.recordTransCtx_sinkless hgood 0 hsink hfree hnext
      have hskip : (s.recorded 0 sinklessCtx).tc =
          { s.tc with transIdSeq := s.tc.transIdSeq.skip } := by
        simp only [recorded, hrecord]
      have hcursor : s.tc.transIdSeq.skip.cursor = s.tc.transIdSeq.cursor + 1 :=
        hadvance
      have hinuse : s.tc.transIdSeq.skip.inuseSeqs =
          s.tc.transIdSeq.inuseSeqs := rfl
      have hlater := ih (s := s.recorded 0 sinklessCtx)
        (hgood.recordTransCtx 0 sinklessCtx)
        (by
          rw [hskip]
          intro id hid
          have := hbelow id hid
          rw [hcursor]
          omega)
        (by rw [hskip]; exact hfree)
        (by rw [hskip, hcursor]; omega)
      obtain ⟨log, hrun⟩ := hlater
      refine ⟨log, ?_⟩
      rw [List.replicate_succ, LabelledRun.run]
      simp only [step, Option.bind_some]
      rw [hrun, hskip, Function.iterate_succ_apply]
      rfl

/-- The timeout batch holds 2 and 1, and the callback of 2 cancels 1. -/
def wrapStart : List TransAction :=
  [.record 0 timedCtx, .record 0 timedCtx, .onTimer 5 [2, 1], .cancel 1]

def lastIdSeq : SeqNum i32SeqRange where
  cursor := 0x7fffffff
  inuseSeqs := {2}
  cursor_ge := by decide
  cursor_le := by decide
  inuse_range := by decide

/-- The table when the ids have gone round and 1 has been handed out again. -/
def wrapped (s : TransState) : TransCenter :=
  (({ s.tc with transIdSeq := lastIdSeq } : TransCenter).recordTransCtx 5
    timedCtx).2

/-- A callback for the first id of a batch of two records a transaction; then the
batch goes on to its end, with no `TransCenter` sink to be told. -/
theorem run_batch_of_two {s : TransState} {tc : TransCenter} (now : ℤ)
    (ctx : TransCtx) {first second : TransID}
    (hcontrol : s.control = .expiring first none [second])
    (htc : (s.tc.recordTransCtx now ctx).2 = tc) (hnone : nextSink tc none = none)
    (hlive :
      (((tc.removeTrans first).transHashMap second).bind (·.sink)).isSome)
    (hnone' : nextSink (tc.removeTrans first) none = none) :
    ∃ log, LabelledRun.run step s [.record now ctx, .ret, .ret] =
      some ⟨(tc.removeTrans first).removeTrans second, .idle, log⟩ := by
  have hfirst : (s.recorded now ctx).step .ret =
      some ⟨tc.removeTrans first, .expiring second none [],
        .onTimeout second :: (s.recorded now ctx).log⟩ := by
    simp only [step, recorded, hcontrol, htc, tellNext, hnone, expireNext]
    rw [if_pos hlive]
  refine ⟨.onTimeout second :: (s.recorded now ctx).log, ?_⟩
  rw [LabelledRun.run]
  simp only [step, Option.bind_some]
  rw [LabelledRun.run, hfirst]
  simp only [Option.bind_some, LabelledRun.run, step, tellNext, hnone', expireNext]

theorem recordTransCtx_timed {tc : TransCenter} (h : tc.Good) (now : ℤ)
    {ctx : TransCtx} (hsink : ctx.sink.isSome) (htimeout : 0 < ctx.timeoutSec)
    (hvalid : tc.transIdSeq.alloc.1 ≠ invalidTransID) :
    (tc.recordTransCtx now ctx).2.rspMsgMgr.recordExist tc.transIdSeq.alloc.1 := by
  rcases TransCenter.recordTransCtx_cases h.toIndexed now ctx with
    ⟨hfail, -⟩ | ⟨transId, hrange, hfresh, halloc, hrecord⟩
  · exact (hvalid hfail).elim
  · rw [hrecord, halloc]
    have hsome : ctx.sink ≠ none := by
      intro hnone
      rw [hnone] at hsink
      cases hsink
    simp only [if_neg hsome, TransCenter.enterTrans]
    rw [TransCenter.indexTrans_recordExist]
    simp [hsink, htimeout]

/-- The callback of 2 records until 1 is handed out again: 1 is timed out in the
same batch, and its new record outlives it. -/
theorem run_good_reused_id :
    ¬∀ as, LabelledRun.Along step (fun s => s.tc.Good) RecordStepOk start as := by
  intro h
  obtain ⟨s, hs⟩ : ∃ s, LabelledRun.run step start wrapStart = some s :=
    Option.isSome_iff_exists.mp (by decide +kernel)
  have hgood : s.tc.Good := (h wrapStart).last hs
  have hstate : (LabelledRun.run step start wrapStart).map (fun s =>
      (s.tc.transIdSeq.cursor, s.tc.transIdSeq.inuseSeqs, s.control)) =
        some (2, {2}, .expiring 2 none [1]) := by decide +kernel
  have htable : (LabelledRun.run step start wrapStart).map (fun s =>
      (nextSink (wrapped s) none,
        ((((wrapped s).removeTrans 2).transHashMap 1).bind (·.sink)).isSome,
        nextSink ((wrapped s).removeTrans 2) none)) =
        some (none, true, none) := by decide +kernel
  simp only [hs, Option.map_some, Option.some.injEq, Prod.mk.injEq] at hstate htable
  obtain ⟨hcursor, hinuse, hcontrol⟩ := hstate
  obtain ⟨hnone, hlive, hnone'⟩ := htable
  have hgood' : ({ s.tc with transIdSeq := lastIdSeq } : TransCenter).Good :=
    ⟨⟨fun id => by rw [← hgood.inuse, hinuse]; rfl, hgood.peers⟩, hgood.timed⟩
  have hone : lastIdSeq.alloc.1 = 1 := by decide +kernel
  have hvalid : lastIdSeq.alloc.1 ≠ invalidTransID := by
    rw [hone]
    decide
  have hexist : (wrapped s).rspMsgMgr.recordExist lastIdSeq.alloc.1 :=
    recordTransCtx_timed hgood' 5 rfl (by decide) hvalid
  have hroom : s.tc.transIdSeq.cursor + (2147483645 : ℕ) ≤ i32SeqRange.seqMax := by
    rw [hcursor]
    norm_num [i32SeqRange]
  have hskip : SeqNum.skip^[2147483645] s.tc.transIdSeq = lastIdSeq := by
    apply SeqNum.ext
    · rw [SeqNum.skip_iterate_cursor hroom, hcursor]
      norm_num [lastIdSeq]
    · rw [SeqNum.skip_iterate_inuseSeqs, hinuse]
      rfl
  obtain ⟨log, hround⟩ := run_sinkless (n := 2147483645) hgood
    (by rw [hinuse, hcursor]; decide)
    (by rw [hinuse]; simp only [SeqRange.totalCount, i32SeqRange]; simp) hroom
  rw [hskip] at hround
  obtain ⟨log', hend⟩ := run_batch_of_two 5 timedCtx
    (s := { s with tc := { s.tc with transIdSeq := lastIdSeq }, log := log })
    hcontrol rfl hnone hlive hnone'
  have hrun : LabelledRun.run step start (wrapStart ++
      (List.replicate 2147483645 (TransAction.record 0 sinklessCtx) ++
        [TransAction.record 5 timedCtx, TransAction.ret, TransAction.ret])) =
      some ⟨((wrapped s).removeTrans 2).removeTrans 1, .idle, log'⟩ := by
    rw [LabelledRun.run_append, hs, Option.bind_some, LabelledRun.run_append,
      hround, Option.bind_some, hend]
    rfl
  have hbad := (h _).last hrun
  rw [hone] at hexist
  obtain ⟨ctx, hctx, -⟩ := hbad.timed 1 (by
    rw [TransCenter.removeTrans_rspMsgMgr, TransCenter.removeTrans_rspMsgMgr]
    exact hexist)
  rw [TransCenter.removeTrans_transHashMap, if_pos rfl] at hctx
  cases hctx

end TransState

end CommonComponent
