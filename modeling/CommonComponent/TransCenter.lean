import CommonComponent.ProtoMsgCodec
import CommonComponent.RecordTimeoutMgr
import CommonComponent.SeqNum

/-!
# The transaction table

`TransCenter` keeps a transaction in up to four places: the allocator of its id,
the hash map from ids to contexts, the id set of its peer, and the timeout index
when it has a sink and a timeout.  `Good` is what ties them together; every
operation that is a call of its own keeps it.  `RemoveTrans` forgets the timeout
index, so it keeps `Good` only for an id without a record there.
-/

namespace CommonComponent

abbrev TransID := ℤ

def invalidTransID : TransID := invalidSeqNum

inductive PeerType
  | thread
  | protoTcp
  | http
deriving DecidableEq

structure Peer where
  type : PeerType
  addr : String
  port : UInt16
deriving DecidableEq

/-- `data` and `len` of a context: nothing, the pointer of an object with length
0, or a block of memory. -/
inductive AsyncData
  | null
  | object (pointer : ℕ)
  | memory (bytes : Bytes)
deriving DecidableEq

def AsyncData.len : AsyncData → ℕ
  | .null => 0
  | .object _ => 0
  | .memory bytes => bytes.length

/-- A context; `sink` is the address of a `PeerSinkInterface`. -/
structure TransCtx where
  peer : Peer
  timeoutSec : ℤ
  passback : Passback
  sink : Option ℕ
  data : AsyncData
deriving DecidableEq

/-- `Trans::Create`: the context a transaction keeps. -/
def TransCtx.create (ctx : TransCtx) : TransCtx :=
  match ctx.sink with
  | none => { ctx with data := .null }
  | some _ =>
      if ctx.data = .null ∨ ctx.data.len < 1 then
        -- an object pointer ends here too: the test for length 0 comes later
        { ctx with data := .null }
      else ctx

/-- `transCenterSinkSet` holds the addresses of the registered sinks, which is
also the order they are told in. -/
structure TransCenter where
  transCenterSinkSet : Finset ℕ
  transIdSeq : SeqNum i32SeqRange
  transHashMap : TransID → Option TransCtx
  peerTransIDMap : Peer → Finset TransID
  rspMsgMgr : RecordTimeoutMgr TransID TransCtx

namespace TransCenter

def empty : TransCenter where
  transCenterSinkSet := ∅
  transIdSeq := .reset _
  transHashMap := fun _ => none
  peerTransIDMap := fun _ => ∅
  rspMsgMgr := .empty

def getTransCtx (tc : TransCenter) (transId : TransID) : Option TransCtx :=
  tc.transHashMap transId

def removeTrans (tc : TransCenter) (transId : TransID) : TransCenter :=
  match tc.transHashMap transId with
  | none => tc
  | some ctx =>
      { tc with
        peerTransIDMap := Function.update tc.peerTransIDMap ctx.peer
          ((tc.peerTransIDMap ctx.peer).erase transId)
        transIdSeq := tc.transIdSeq.free transId
        transHashMap := Function.update tc.transHashMap transId none }

def cancelTrans (tc : TransCenter) (transId : TransID) : TransCenter :=
  match tc.transHashMap transId with
  | none => tc
  | some _ =>
      let tc :=
        if tc.rspMsgMgr.recordExist transId then
          { tc with rspMsgMgr := tc.rspMsgMgr.removeRecord transId }
        else tc
      tc.removeTrans transId

/-- The statements of `RecordTransCtx` behind the insertion into the hash map. -/
def indexTrans (tc : TransCenter) (now : ℤ) (ctx : TransCtx)
    (transId : TransID) : TransCenter :=
  let tc :=
    if ctx.sink.isSome ∧ 0 < ctx.timeoutSec then
      { tc with
        rspMsgMgr := tc.rspMsgMgr.upsertRecord now transId ctx.create
          ctx.timeoutSec }
    else tc
  { tc with
    peerTransIDMap := Function.update tc.peerTransIDMap ctx.peer
      (insert transId (tc.peerTransIDMap ctx.peer)) }

def recordTransCtx (tc : TransCenter) (now : ℤ) (ctx : TransCtx) :
    TransID × TransCenter :=
  let alloc := tc.transIdSeq.alloc
  let transId := alloc.1
  let tc := { tc with transIdSeq := alloc.2 }
  if transId = invalidTransID then (invalidTransID, tc)
  else
    match tc.transHashMap transId with
    | some _ => (invalidTransID, tc.cancelTrans transId)
    | none =>
        let tc :=
          { tc with
            transHashMap :=
              Function.update tc.transHashMap transId (some ctx.create) }
        let tc := tc.indexTrans now ctx transId
        if ctx.sink = none then (transId, tc.cancelTrans transId)
        else (transId, tc)

/-- `AddSink`; the set does not change when the sink is already there. -/
def addSink (tc : TransCenter) (sink : ℕ) : TransCenter :=
  { tc with transCenterSinkSet := insert sink tc.transCenterSinkSet }

def removeSink (tc : TransCenter) (sink : ℕ) : TransCenter :=
  { tc with transCenterSinkSet := tc.transCenterSinkSet.erase sink }

inductive TransOp
  | record (now : ℤ) (ctx : TransCtx)
  | cancel (transId : TransID)
deriving DecidableEq

def applyOp (tc : TransCenter) : TransOp → TransCenter
  | .record now ctx => (tc.recordTransCtx now ctx).2
  | .cancel transId => tc.cancelTrans transId

def applyOps (tc : TransCenter) (ops : List TransOp) : TransCenter :=
  ops.foldl applyOp tc

/-! ## The representation invariant -/

/-- The ids in use and the id sets of the peers are those of the hash map. -/
structure Indexed (tc : TransCenter) : Prop where
  inuse : ∀ id, id ∈ tc.transIdSeq.inuseSeqs ↔ (tc.transHashMap id).isSome
  peers : ∀ peer id, id ∈ tc.peerTransIDMap peer ↔
    ∃ ctx, tc.transHashMap id = some ctx ∧ ctx.peer = peer

structure Good (tc : TransCenter) : Prop extends Indexed tc where
  timed : ∀ id, tc.rspMsgMgr.recordExist id →
    ∃ ctx, tc.transHashMap id = some ctx ∧ ctx.sink.isSome ∧ 0 < ctx.timeoutSec

@[simp] theorem create_peer (ctx : TransCtx) : ctx.create.peer = ctx.peer := by
  unfold TransCtx.create
  split
  · rfl
  · split <;> rfl

@[simp] theorem create_sink (ctx : TransCtx) : ctx.create.sink = ctx.sink := by
  unfold TransCtx.create
  split
  · rfl
  · split <;> rfl

@[simp] theorem create_timeoutSec (ctx : TransCtx) :
    ctx.create.timeoutSec = ctx.timeoutSec := by
  unfold TransCtx.create
  split
  · rfl
  · split <;> rfl

theorem Good.empty : TransCenter.empty.Good where
  inuse := by simp [TransCenter.empty, SeqNum.reset]
  peers := by simp [TransCenter.empty]
  timed := by simp [TransCenter.empty]

/-! ## What each operation does to the four structures -/

@[simp] theorem removeTrans_transHashMap (tc : TransCenter) (transId k : TransID) :
    (tc.removeTrans transId).transHashMap k =
      if k = transId then none else tc.transHashMap k := by
  unfold removeTrans
  cases hlive : tc.transHashMap transId with
  | none =>
      by_cases hk : k = transId
      · rw [if_pos hk, hk, hlive]
      · rw [if_neg hk]
  | some ctx => simp [Function.update_apply]

@[simp] theorem removeTrans_rspMsgMgr (tc : TransCenter) (transId : TransID) :
    (tc.removeTrans transId).rspMsgMgr = tc.rspMsgMgr := by
  unfold removeTrans
  cases tc.transHashMap transId <;> rfl

@[simp] theorem removeTrans_cursor (tc : TransCenter) (transId : TransID) :
    (tc.removeTrans transId).transIdSeq.cursor = tc.transIdSeq.cursor := by
  unfold removeTrans
  cases tc.transHashMap transId <;> rfl

@[simp] theorem removeTrans_sinks (tc : TransCenter) (transId : TransID) :
    (tc.removeTrans transId).transCenterSinkSet = tc.transCenterSinkSet := by
  unfold removeTrans
  cases tc.transHashMap transId <;> rfl

@[simp] theorem cancelTrans_transHashMap (tc : TransCenter) (transId k : TransID) :
    (tc.cancelTrans transId).transHashMap k =
      if k = transId then none else tc.transHashMap k := by
  unfold cancelTrans
  cases hlive : tc.transHashMap transId with
  | none =>
      by_cases hk : k = transId
      · rw [if_pos hk, hk, hlive]
      · rw [if_neg hk]
  | some ctx =>
      simp only [removeTrans_transHashMap]
      by_cases hk : k = transId
      · rw [if_pos hk, if_pos hk]
      · rw [if_neg hk, if_neg hk]
        split <;> rfl

@[simp] theorem cancelTrans_cursor (tc : TransCenter) (transId : TransID) :
    (tc.cancelTrans transId).transIdSeq.cursor = tc.transIdSeq.cursor := by
  unfold cancelTrans
  cases tc.transHashMap transId with
  | none => rfl
  | some ctx =>
      simp only [removeTrans_cursor]
      split <;> rfl

@[simp] theorem cancelTrans_sinks (tc : TransCenter) (transId : TransID) :
    (tc.cancelTrans transId).transCenterSinkSet = tc.transCenterSinkSet := by
  unfold cancelTrans
  cases tc.transHashMap transId with
  | none => rfl
  | some ctx =>
      simp only [removeTrans_sinks]
      split <;> rfl

theorem Indexed.removeTrans {tc : TransCenter} (h : tc.Indexed)
    (transId : TransID) : (tc.removeTrans transId).Indexed := by
  cases hlive : tc.transHashMap transId with
  | none =>
      have hsame : tc.removeTrans transId = tc := by
        unfold TransCenter.removeTrans
        rw [hlive]
      rw [hsame]
      exact h
  | some ctx =>
      refine ⟨?_, ?_⟩
      · intro id
        rw [removeTrans_transHashMap]
        simp only [TransCenter.removeTrans, hlive, SeqNum.free_inuseSeqs,
          Finset.mem_erase]
        by_cases hid : id = transId
        · simp [hid]
        · simp [hid, h.inuse id]
      · intro peer id
        rw [removeTrans_transHashMap]
        simp only [TransCenter.removeTrans, hlive]
        by_cases hpeer : peer = ctx.peer
        · subst hpeer
          rw [Function.update_self, Finset.mem_erase, h.peers]
          by_cases hid : id = transId
          · simp [hid]
          · simp [hid]
        · rw [Function.update_of_ne hpeer, h.peers]
          by_cases hid : id = transId
          · subst hid
            simp only [hlive, Option.some.injEq, if_true, reduceCtorEq, false_and,
              exists_false, iff_false, not_exists, not_and]
            rintro ctx' rfl rfl
            exact hpeer rfl
          · simp [hid]

/-- `RemoveTrans` on an id that has no record in the timeout index. -/
theorem Good.removeTrans {tc : TransCenter} (h : tc.Good) {transId : TransID}
    (hrecord : tc.rspMsgMgr.recordExist transId = false) :
    (tc.removeTrans transId).Good where
  toIndexed := h.toIndexed.removeTrans transId
  timed := by
    intro id hid
    rw [removeTrans_rspMsgMgr] at hid
    have hne : id ≠ transId := by
      rintro rfl
      rw [hrecord] at hid
      cases hid
    rw [removeTrans_transHashMap, if_neg hne]
    exact h.timed id hid

theorem cancelTrans_of_dead {tc : TransCenter} {transId : TransID}
    (h : tc.transHashMap transId = none) : tc.cancelTrans transId = tc := by
  unfold cancelTrans
  rw [h]

theorem cancelTrans_of_live {tc : TransCenter} {transId : TransID}
    {ctx : TransCtx} (h : tc.transHashMap transId = some ctx) :
    ∃ mgr, tc.cancelTrans transId =
        ({ tc with rspMsgMgr := mgr } : TransCenter).removeTrans transId ∧
      ∀ k, mgr.recordExist k =
        (!decide (k = transId) && tc.rspMsgMgr.recordExist k) := by
  unfold cancelTrans
  rw [h]
  by_cases hrecord : tc.rspMsgMgr.recordExist transId
  · refine ⟨tc.rspMsgMgr.removeRecord transId, by simp [hrecord], ?_⟩
    intro k
    exact RecordTimeoutMgr.recordExist_removeRecord _ _ _
  · refine ⟨tc.rspMsgMgr, by simp [hrecord], ?_⟩
    intro k
    by_cases hk : k = transId
    · simp [hk, hrecord]
    · simp [hk]

theorem Good.recordExist_of_dead {tc : TransCenter} (h : tc.Good)
    {transId : TransID} (hdead : tc.transHashMap transId = none) :
    tc.rspMsgMgr.recordExist transId = false := by
  cases hexist : tc.rspMsgMgr.recordExist transId with
  | false => rfl
  | true =>
      obtain ⟨ctx, hctx, -⟩ := h.timed transId hexist
      rw [hdead] at hctx
      cases hctx

theorem cancelTrans_recordExist {tc : TransCenter} (h : tc.Good)
    (transId k : TransID) :
    (tc.cancelTrans transId).rspMsgMgr.recordExist k =
      (!decide (k = transId) && tc.rspMsgMgr.recordExist k) := by
  cases hlive : tc.transHashMap transId with
  | none =>
      rw [cancelTrans_of_dead hlive]
      by_cases hk : k = transId
      · subst hk
        rw [h.recordExist_of_dead hlive, Bool.and_false]
      · simp [hk]
  | some ctx =>
      obtain ⟨mgr, hcancel, hmgr⟩ := cancelTrans_of_live hlive
      rw [hcancel, removeTrans_rspMsgMgr]
      exact hmgr k

theorem Good.withRspMsgMgr {tc : TransCenter} (h : tc.Good)
    {mgr : RecordTimeoutMgr TransID TransCtx}
    (hmgr : ∀ k, mgr.recordExist k → tc.rspMsgMgr.recordExist k) :
    ({ tc with rspMsgMgr := mgr } : TransCenter).Good where
  inuse := h.inuse
  peers := h.peers
  timed := fun id hid => h.timed id (hmgr id hid)

theorem Indexed.cancelTrans {tc : TransCenter} (h : tc.Indexed)
    (transId : TransID) : (tc.cancelTrans transId).Indexed := by
  cases hlive : tc.transHashMap transId with
  | none =>
      rw [cancelTrans_of_dead hlive]
      exact h
  | some ctx =>
      obtain ⟨mgr, hcancel, -⟩ := cancelTrans_of_live hlive
      rw [hcancel]
      apply Indexed.removeTrans
      exact ⟨h.inuse, h.peers⟩

theorem Good.cancelTrans {tc : TransCenter} (h : tc.Good) (transId : TransID) :
    (tc.cancelTrans transId).Good := by
  cases hlive : tc.transHashMap transId with
  | none =>
      rw [cancelTrans_of_dead hlive]
      exact h
  | some ctx =>
      obtain ⟨mgr, hcancel, hmgr⟩ := cancelTrans_of_live hlive
      rw [hcancel]
      apply Good.removeTrans
      · apply h.withRspMsgMgr
        intro k hk
        rw [hmgr k, Bool.and_eq_true] at hk
        exact hk.2
      · simp [hmgr transId]

/-! ## Recording a transaction -/

@[simp] theorem indexTrans_transHashMap (tc : TransCenter) (now : ℤ)
    (ctx : TransCtx) (transId : TransID) :
    (tc.indexTrans now ctx transId).transHashMap = tc.transHashMap := by
  unfold indexTrans
  split <;> rfl

@[simp] theorem indexTrans_transIdSeq (tc : TransCenter) (now : ℤ)
    (ctx : TransCtx) (transId : TransID) :
    (tc.indexTrans now ctx transId).transIdSeq = tc.transIdSeq := by
  unfold indexTrans
  split <;> rfl

@[simp] theorem indexTrans_sinks (tc : TransCenter) (now : ℤ)
    (ctx : TransCtx) (transId : TransID) :
    (tc.indexTrans now ctx transId).transCenterSinkSet =
      tc.transCenterSinkSet := by
  unfold indexTrans
  split <;> rfl

theorem indexTrans_peerTransIDMap (tc : TransCenter) (now : ℤ)
    (ctx : TransCtx) (transId : TransID) :
    (tc.indexTrans now ctx transId).peerTransIDMap =
      Function.update tc.peerTransIDMap ctx.peer
        (insert transId (tc.peerTransIDMap ctx.peer)) := by
  unfold indexTrans
  split <;> rfl

theorem indexTrans_recordExist (tc : TransCenter) (now : ℤ)
    (ctx : TransCtx) (transId k : TransID) :
    (tc.indexTrans now ctx transId).rspMsgMgr.recordExist k =
      (decide (k = transId ∧ ctx.sink.isSome ∧ 0 < ctx.timeoutSec) ||
        tc.rspMsgMgr.recordExist k) := by
  unfold indexTrans
  by_cases htimed : ctx.sink.isSome ∧ 0 < ctx.timeoutSec
  · simp only [if_pos htimed]
    rw [RecordTimeoutMgr.recordExist_upsertRecord]
    simp [htimed]
  · simp only [if_neg htimed]
    simp [htimed]

/-- The table after `RecordTransCtx` has entered a transaction everywhere. -/
def enterTrans (tc : TransCenter) (now : ℤ) (ctx : TransCtx) (transId : TransID)
    (hid : i32SeqRange.seqMin ≤ transId ∧ transId ≤ i32SeqRange.seqMax) :
    TransCenter :=
  ({ tc with
      transIdSeq := tc.transIdSeq.take transId hid
      transHashMap :=
        Function.update tc.transHashMap transId (some ctx.create) } :
    TransCenter).indexTrans now ctx transId

@[simp] theorem enterTrans_transHashMap (tc : TransCenter) (now : ℤ)
    (ctx : TransCtx) (transId : TransID)
    (hid : i32SeqRange.seqMin ≤ transId ∧ transId ≤ i32SeqRange.seqMax)
    (k : TransID) :
    (tc.enterTrans now ctx transId hid).transHashMap k =
      if k = transId then some ctx.create else tc.transHashMap k := by
  unfold enterTrans
  rw [indexTrans_transHashMap]
  exact Function.update_apply _ _ _ _

theorem Indexed.enterTrans {tc : TransCenter} (h : tc.Indexed) (now : ℤ)
    (ctx : TransCtx) {transId : TransID}
    (hid : i32SeqRange.seqMin ≤ transId ∧ transId ≤ i32SeqRange.seqMax)
    (hfresh : tc.transHashMap transId = none) :
    (tc.enterTrans now ctx transId hid).Indexed := by
  unfold TransCenter.enterTrans
  refine ⟨?_, ?_⟩
  · intro id
    rw [indexTrans_transIdSeq, indexTrans_transHashMap]
    simp only [SeqNum.take, Finset.mem_insert, Function.update_apply]
    by_cases hk : id = transId
    · simp [hk]
    · simp [hk, h.inuse id]
  · intro peer id
    rw [indexTrans_peerTransIDMap, indexTrans_transHashMap]
    simp only [Function.update_apply]
    by_cases hpeer : peer = ctx.peer
    · subst hpeer
      by_cases hk : id = transId
      · simp [hk]
      · simp [hk, h.peers]
    · by_cases hk : id = transId
      · subst hk
        have hother : id ∉ tc.peerTransIDMap peer := by
          rw [h.peers, hfresh]
          simp
        simp only [if_neg hpeer, hother, if_true, Option.some.injEq, false_iff,
          not_exists, not_and]
        rintro ctx' rfl hpeer'
        exact hpeer (by rw [← hpeer', create_peer])
      · simp [hpeer, hk, h.peers]

theorem Good.enterTrans {tc : TransCenter} (h : tc.Good) (now : ℤ)
    (ctx : TransCtx) {transId : TransID}
    (hid : i32SeqRange.seqMin ≤ transId ∧ transId ≤ i32SeqRange.seqMax)
    (hfresh : tc.transHashMap transId = none) :
    (tc.enterTrans now ctx transId hid).Good where
  toIndexed := h.toIndexed.enterTrans now ctx hid hfresh
  timed := by
    have hrecord := h.recordExist_of_dead hfresh
    intro id hexist
    unfold TransCenter.enterTrans at hexist ⊢
    rw [indexTrans_recordExist] at hexist
    rw [indexTrans_transHashMap]
    simp only [Function.update_apply]
    by_cases hk : id = transId
    · subst hk
      simp only [hrecord, Bool.or_false, decide_eq_true_eq, true_and] at hexist
      exact ⟨ctx.create, by simp, by simpa using hexist.1, by simpa using hexist.2⟩
    · simp only [hk, false_and, decide_false, Bool.false_or] at hexist
      simpa [hk] using h.timed id hexist

/-- **What `RecordTransCtx` can do.**  It fails with nothing changed because
every id is in use, or it enters the transaction under a fresh id and, without a
sink, cancels it at once. -/
theorem recordTransCtx_cases {tc : TransCenter} (h : tc.Indexed) (now : ℤ)
    (ctx : TransCtx) :
    (tc.transIdSeq.alloc.1 = invalidTransID ∧
        tc.recordTransCtx now ctx = (invalidTransID, tc)) ∨
      ∃ transId hid, tc.transHashMap transId = none ∧
        tc.transIdSeq.alloc = (transId, tc.transIdSeq.take transId hid) ∧
        tc.recordTransCtx now ctx = (transId,
          if ctx.sink = none then
            (tc.enterTrans now ctx transId hid).cancelTrans transId
          else tc.enterTrans now ctx transId hid) := by
  rcases tc.transIdSeq.alloc_cases with ⟨halloc, -⟩ | ⟨transId, hid, hnew, halloc⟩
  · left
    refine ⟨by rw [halloc]; rfl, ?_⟩
    unfold recordTransCtx
    rw [halloc]
    simp [invalidTransID]
  · right
    have hfresh : tc.transHashMap transId = none := by
      rw [h.inuse, Option.not_isSome_iff_eq_none] at hnew
      exact hnew
    have hvalid : transId ≠ invalidTransID := by
      have := SeqNum.one_le_of_range hid
      unfold invalidTransID invalidSeqNum
      omega
    refine ⟨transId, hid, hfresh, halloc, ?_⟩
    unfold recordTransCtx enterTrans
    simp only [halloc, if_neg hvalid, hfresh]
    split <;> rfl

theorem Indexed.recordTransCtx {tc : TransCenter} (h : tc.Indexed) (now : ℤ)
    (ctx : TransCtx) : (tc.recordTransCtx now ctx).2.Indexed := by
  rcases recordTransCtx_cases h now ctx with
    ⟨-, hfail⟩ | ⟨transId, hid, hfresh, -, hrecord⟩
  · rw [hfail]
    exact h
  · rw [hrecord]
    have henter := h.enterTrans now ctx hid hfresh
    simp only
    split
    · exact henter.cancelTrans transId
    · exact henter

theorem Good.recordTransCtx {tc : TransCenter} (h : tc.Good) (now : ℤ)
    (ctx : TransCtx) : (tc.recordTransCtx now ctx).2.Good := by
  rcases recordTransCtx_cases h.toIndexed now ctx with
    ⟨-, hfail⟩ | ⟨transId, hid, hfresh, -, hrecord⟩
  · rw [hfail]
    exact h
  · rw [hrecord]
    have henter := h.enterTrans now ctx hid hfresh
    simp only
    split
    · exact henter.cancelTrans transId
    · exact henter

theorem alloc_fresh {tc : TransCenter} (h : tc.Indexed)
    (hsome : tc.transIdSeq.alloc.1 ≠ invalidTransID) :
    tc.transHashMap tc.transIdSeq.alloc.1 = none := by
  rcases tc.transIdSeq.alloc_cases with ⟨halloc, -⟩ | ⟨transId, hid, hnew, halloc⟩
  · rw [halloc] at hsome
    exact (hsome rfl).elim
  · rw [halloc]
    rw [h.inuse, Option.not_isSome_iff_eq_none] at hnew
    exact hnew

theorem recordTransCtx_failed {tc : TransCenter} (h : tc.Indexed) {now : ℤ}
    {ctx : TransCtx} (hfail : (tc.recordTransCtx now ctx).1 = invalidTransID) :
    (tc.recordTransCtx now ctx).2 = tc := by
  rcases recordTransCtx_cases h now ctx with
    ⟨-, hsame⟩ | ⟨transId, hid, -, -, hrecord⟩
  · rw [hsame]
  · rw [hrecord] at hfail
    have hpos := SeqNum.one_le_of_range hid
    have hzero : transId = (0 : ℤ) := hfail
    rw [hzero] at hpos
    exact absurd hpos (by decide)

theorem Indexed.applyOp {tc : TransCenter} (h : tc.Indexed) (op : TransOp) :
    (tc.applyOp op).Indexed := by
  cases op with
  | record now ctx => exact h.recordTransCtx now ctx
  | cancel transId => exact h.cancelTrans transId

theorem Indexed.applyOps {tc : TransCenter} (h : tc.Indexed)
    (ops : List TransOp) : (tc.applyOps ops).Indexed := by
  induction ops generalizing tc with
  | nil => exact h
  | cons op ops ih => exact ih (h.applyOp op)

/-! ## Transactions in the table have a sink -/

structure Filed (tc : TransCenter) : Prop extends Indexed tc where
  sinked : ∀ id ctx, tc.transHashMap id = some ctx → ctx.sink.isSome

theorem Filed.empty : TransCenter.empty.Filed where
  toIndexed := Good.empty.toIndexed
  sinked := by simp [TransCenter.empty]

theorem Filed.removeTrans {tc : TransCenter} (h : tc.Filed) (transId : TransID) :
    (tc.removeTrans transId).Filed where
  toIndexed := h.toIndexed.removeTrans transId
  sinked := by
    intro id ctx hctx
    rw [removeTrans_transHashMap] at hctx
    split at hctx
    · cases hctx
    · exact h.sinked id ctx hctx

theorem Filed.cancelTrans {tc : TransCenter} (h : tc.Filed) (transId : TransID) :
    (tc.cancelTrans transId).Filed where
  toIndexed := h.toIndexed.cancelTrans transId
  sinked := by
    intro id ctx hctx
    rw [cancelTrans_transHashMap] at hctx
    split at hctx
    · cases hctx
    · exact h.sinked id ctx hctx

theorem Filed.recordTransCtx {tc : TransCenter} (h : tc.Filed) (now : ℤ)
    (ctx : TransCtx) : (tc.recordTransCtx now ctx).2.Filed where
  toIndexed := h.toIndexed.recordTransCtx now ctx
  sinked := by
    intro id ctx' hctx'
    rcases recordTransCtx_cases h.toIndexed now ctx with
      ⟨-, hfail⟩ | ⟨transId, hid, -, -, hrecord⟩
    · rw [hfail] at hctx'
      exact h.sinked id ctx' hctx'
    · rw [hrecord] at hctx'
      by_cases hsink : ctx.sink = none
      · simp only [if_pos hsink, cancelTrans_transHashMap,
          enterTrans_transHashMap] at hctx'
        split at hctx'
        · cases hctx'
        · exact h.sinked id ctx' hctx'
      · simp only [if_neg hsink, enterTrans_transHashMap] at hctx'
        split at hctx'
        · rw [Option.some.injEq] at hctx'
          rw [← hctx', create_sink]
          exact Option.isSome_iff_ne_none.mpr hsink
        · exact h.sinked id ctx' hctx'

theorem Filed.applyOp {tc : TransCenter} (h : tc.Filed) (op : TransOp) :
    (tc.applyOp op).Filed := by
  cases op with
  | record now ctx => exact h.recordTransCtx now ctx
  | cancel transId => exact h.cancelTrans transId

theorem recordTransCtx_live {tc : TransCenter} (h : tc.Indexed) (now : ℤ)
    (ctx' : TransCtx) {id : TransID} {ctx : TransCtx}
    (hlive : tc.transHashMap id = some ctx) :
    (tc.recordTransCtx now ctx').2.transHashMap id = some ctx := by
  rcases recordTransCtx_cases h now ctx' with
    ⟨-, hfail⟩ | ⟨transId, hid, hfresh, -, hrecord⟩
  · rw [hfail]
    exact hlive
  · have hne : id ≠ transId := by
      rintro rfl
      rw [hlive] at hfresh
      cases hfresh
    rw [hrecord]
    simp only
    split
    · rw [cancelTrans_transHashMap, if_neg hne, enterTrans_transHashMap,
        if_neg hne, hlive]
    · rw [enterTrans_transHashMap, if_neg hne, hlive]

theorem applyOp_transHashMap_of_live {tc : TransCenter} (h : tc.Indexed)
    {op : TransOp} {id : TransID} {ctx : TransCtx}
    (hlive : tc.transHashMap id = some ctx) (hop : op ≠ .cancel id) :
    (tc.applyOp op).transHashMap id = some ctx := by
  cases op with
  | record now ctx' => exact recordTransCtx_live h now ctx' hlive
  | cancel transId =>
      have hne : id ≠ transId := by
        rintro rfl
        exact hop rfl
      simp only [TransCenter.applyOp, cancelTrans_transHashMap, if_neg hne, hlive]

/-- Recording a transaction without a sink only moves the id cursor when the next
id is free. -/
theorem recordTransCtx_sinkless {tc : TransCenter} (h : tc.Good) (now : ℤ)
    {ctx : TransCtx} (hsink : ctx.sink = none)
    (hfree : tc.transIdSeq.inuseSeqs.card ≠ i32SeqRange.totalCount)
    (hnext : i32SeqRange.advance tc.transIdSeq.cursor ∉ tc.transIdSeq.inuseSeqs) :
    tc.recordTransCtx now ctx = (i32SeqRange.advance tc.transIdSeq.cursor,
      { tc with transIdSeq := tc.transIdSeq.skip }) := by
  have hrange := SeqRange.advance_range (r := i32SeqRange) tc.transIdSeq.cursor_ge
  have hpos := SeqNum.one_le_of_range hrange
  obtain ⟨seq, halloc, htake⟩ : ∃ seq,
      tc.transIdSeq.alloc = (i32SeqRange.advance tc.transIdSeq.cursor, seq) ∧
        seq.free (i32SeqRange.advance tc.transIdSeq.cursor) =
          tc.transIdSeq.skip :=
    ⟨_, SeqNum.alloc_of_advance_free hfree hnext, SeqNum.take_free hnext⟩
  generalize i32SeqRange.advance tc.transIdSeq.cursor = transId at *
  have hvalid : transId ≠ invalidTransID := by
    rintro rfl
    exact absurd hpos (by decide)
  have hdead : tc.transHashMap transId = none := by
    rw [h.inuse, Option.not_isSome_iff_eq_none] at hnext
    exact hnext
  have hrecord := h.recordExist_of_dead hdead
  have hpeer : transId ∉ tc.peerTransIDMap ctx.peer := by
    rw [h.peers, hdead]
    simp
  unfold recordTransCtx
  simp only [halloc, if_neg hvalid, hdead, hsink, if_true]
  simp only [indexTrans, hsink, Option.isSome_none, Bool.false_eq_true, false_and,
    if_false, cancelTrans, removeTrans, Function.update_self, hrecord, create_peer,
    Function.update_idem, Finset.erase_insert hpeer, Function.update_eq_self, htake,
    Prod.mk.injEq, true_and]
  congr 1
  rw [← hdead, Function.update_eq_self]

end TransCenter

end CommonComponent
