import CommonComponent.TransCenterRun

/-!
# What sinks are told about a transaction

Along runs in which the ids do not go round, the log of a run decides two
questions about every id: how often its peer sink was given a final answer, and
whether any sink heard of it after `CancelTrans` had returned.

Peer sinks are looked up in the hash map, so a cancelled transaction is silent
for them.  The `TransCenter` sinks are told about every id of the timeout batch,
cancelled or not; the second answer therefore depends on no id of the running
batch being cancelled while such a sink is still to be told.
-/

namespace CommonComponent

/-- The peer sink of `transId` is given its final answer. -/
def TransNote.isFinal (transId : TransID) : TransNote → Bool
  | .onRecvRsp id _ _ => decide (id = transId)
  | .onRecvHTTPRsp id _ _ => decide (id = transId)
  | .onTimeout id => decide (id = transId)
  | _ => false

/-- Some sink is told that `transId` was answered or timed out. -/
def TransNote.isAbout (transId : TransID) (note : TransNote) : Bool :=
  note.isFinal transId ||
    match note with
    | .centerOnTimeout _ id => decide (id = transId)
    | _ => false

namespace TransState

def finals (log : List TransNote) (transId : TransID) : ℕ :=
  log.countP (·.isFinal transId)

/-- `CancelTrans` has returned for a transaction that had been recorded. -/
def Settled (transId : TransID) : List TransNote → Prop
  | [] => False
  | note :: older =>
      (note = .cancelReturned transId ∧ .recorded transId ∈ older) ∨
        Settled transId older

/-- No sink hears of a settled id. -/
def Silent : List TransNote → Prop
  | [] => True
  | note :: older =>
      (∀ transId, note.isAbout transId → ¬Settled transId older) ∧ Silent older

structure NotifiedOnce (s : TransState) : Prop where
  once : ∀ transId, finals s.log transId ≤ 1
  silent : Silent s.log

/-- The ids do not go round: the next id is above the cursor. -/
def NoWrap (s : TransState) (a : TransAction) : Prop :=
  match a with
  | .record _ _ =>
      s.tc.transIdSeq.alloc.1 = invalidTransID ∨
        s.tc.transIdSeq.cursor < s.tc.transIdSeq.alloc.1
  | _ => True

/-- The running batch will tell a `TransCenter` sink about `transId`. -/
def WillTell (s : TransState) (transId : TransID) : Prop :=
  match s.control with
  | .expiring current told pending =>
      (transId ∈ pending ∧ s.tc.transCenterSinkSet.Nonempty) ∨
        (transId = current ∧
          ∃ sink ∈ s.tc.transCenterSinkSet, ∀ last ∈ told, last < sink)
  | _ => False

/-- No id is cancelled that a `TransCenter` sink is still to be told about, and no
sink comes in while the batch has a cancelled id. -/
def KeepsBatch (s : TransState) (a : TransAction) : Prop :=
  match a with
  | .cancel transId => ¬s.WillTell transId
  | .addSink _ => ∀ transId ∈ s.batch, (s.tc.transHashMap transId).isSome
  | _ => True

instance (s : TransState) (a : TransAction) : Decidable (s.NoWrap a) := by
  unfold NoWrap
  cases a <;> infer_instance

instance (s : TransState) (transId : TransID) :
    Decidable (s.WillTell transId) := by
  unfold WillTell
  cases s.control <;> infer_instance

instance (s : TransState) (a : TransAction) : Decidable (s.KeepsBatch a) := by
  unfold KeepsBatch
  cases a <;> infer_instance

/-! ## The log -/

theorem finals_cons (note : TransNote) (log : List TransNote)
    (transId : TransID) :
    finals (note :: log) transId =
      finals log transId + if note.isFinal transId then 1 else 0 := by
  unfold finals
  rw [List.countP_cons]

theorem isAbout_of_isFinal {note : TransNote} {transId : TransID}
    (h : note.isFinal transId) : note.isAbout transId := by
  unfold TransNote.isAbout
  rw [h, Bool.true_or]

theorem settled_cons_of_ne {note : TransNote} {log : List TransNote}
    {transId : TransID} (h : note ≠ .cancelReturned transId) :
    Settled transId (note :: log) ↔ Settled transId log := by
  simp [Settled, h]

theorem Settled.recorded {log : List TransNote} {transId : TransID}
    (h : Settled transId log) : .recorded transId ∈ log := by
  induction log with
  | nil => exact h.elim
  | cons note older ih =>
      rcases h with ⟨-, hmem⟩ | h
      · exact List.mem_cons_of_mem note hmem
      · exact List.mem_cons_of_mem note (ih h)

theorem WillTell.mem_batch {s : TransState} {transId : TransID}
    (h : s.WillTell transId) : transId ∈ s.batch := by
  cases hcontrol : s.control with
  | idle =>
      simp only [WillTell, hcontrol] at h
  | answering current =>
      simp only [WillTell, hcontrol] at h
  | expiring current told pending =>
      simp only [WillTell, hcontrol] at h
      simp only [batch, hcontrol]
      rcases h with ⟨hpending, -⟩ | ⟨rfl, -⟩
      · exact List.mem_cons_of_mem current hpending
      · exact List.mem_cons_self

/-! ## The invariant -/

/-- What holds between the callbacks of a batch, with `pending` still to come:
every final answer belongs to a transaction that is gone. -/
structure Between (tc : TransCenter) (log : List TransNote)
    (pending : List TransID) : Prop where
  good : tc.Good
  collected : ∀ id ∈ pending, tc.rspMsgMgr.recordExist id = false
  below : ∀ id, (tc.transHashMap id).isSome → id ≤ tc.transIdSeq.cursor
  recordedBelow : ∀ id, .recorded id ∈ log → id ≤ tc.transIdSeq.cursor
  finalBelow : ∀ id, 0 < finals log id → id ≤ tc.transIdSeq.cursor
  pendingBelow : ∀ id ∈ pending, 1 ≤ id ∧ id ≤ tc.transIdSeq.cursor
  nodup : pending.Nodup
  once : ∀ id, finals log id ≤ 1
  gone : ∀ id, 0 < finals log id → tc.transHashMap id = none
  settled : ∀ id, Settled id log → tc.transHashMap id = none ∧
    (id ∈ pending → tc.transCenterSinkSet = ∅)
  silent : Silent log

/-- What holds in every state of a run: only the transaction whose sink is being
called may have its final answer and still be there. -/
structure Told (s : TransState) : Prop where
  inv : s.Inv
  below : ∀ id, (s.tc.transHashMap id).isSome → id ≤ s.tc.transIdSeq.cursor
  recordedBelow : ∀ id, .recorded id ∈ s.log → id ≤ s.tc.transIdSeq.cursor
  finalBelow : ∀ id, 0 < finals s.log id → id ≤ s.tc.transIdSeq.cursor
  batchBelow : ∀ id ∈ s.batch, 1 ≤ id ∧ id ≤ s.tc.transIdSeq.cursor
  nodup : s.batch.Nodup
  once : ∀ id, finals s.log id ≤ 1
  busy : ∀ id, 0 < finals s.log id → (s.tc.transHashMap id).isSome →
    s.control = .answering id ∨ ∃ told pending, s.control = .expiring id told pending
  settled : ∀ id, Settled id s.log → s.tc.transHashMap id = none ∧ ¬s.WillTell id
  silent : Silent s.log

theorem Told.notifiedOnce {s : TransState} (h : s.Told) : s.NotifiedOnce :=
  ⟨h.once, h.silent⟩

theorem Told.start : TransState.start.Told where
  inv := Inv.start
  below := by simp [TransState.start, TransCenter.empty]
  recordedBelow := by simp [TransState.start]
  finalBelow := by simp [TransState.start, finals]
  batchBelow := by simp [TransState.start, batch]
  nodup := by simp [TransState.start, batch]
  once := by simp [TransState.start, finals]
  busy := by simp [TransState.start, finals]
  settled := by simp [TransState.start, Settled]
  silent := trivial

theorem nextSink_mem {tc : TransCenter} {told : Option ℕ} {sink : ℕ}
    (h : nextSink tc told = some sink) :
    sink ∈ tc.transCenterSinkSet ∧ ∀ last ∈ told, last < sink := by
  unfold nextSink at h
  simp only at h
  split at h
  next hne =>
    simp only [Option.some.injEq] at h
    have hmem := Finset.min'_mem _ hne
    rw [h, Finset.mem_filter] at hmem
    exact hmem
  next => cases h

theorem Between.idle {tc : TransCenter} {log : List TransNote}
    (h : Between tc log []) : (⟨tc, .idle, log⟩ : TransState).Told where
  inv := ⟨h.good, by simp [batch]⟩
  below := h.below
  recordedBelow := h.recordedBelow
  finalBelow := h.finalBelow
  batchBelow := by simp [batch]
  nodup := by simp [batch]
  once := h.once
  busy := by
    intro id hfinal hlive
    simp only at hlive
    rw [h.gone id hfinal] at hlive
    cases hlive
  settled := fun id hsettled => ⟨(h.settled id hsettled).1, by simp [WillTell]⟩
  silent := h.silent

/-- What holds when `OnTimeout` of `transId` has told everybody: only this
transaction may have had its final answer and still be there. -/
structure Ending (tc : TransCenter) (log : List TransNote) (transId : TransID)
    (pending : List TransID) : Prop where
  good : tc.Good
  collected : ∀ id ∈ transId :: pending, tc.rspMsgMgr.recordExist id = false
  below : ∀ id, (tc.transHashMap id).isSome → id ≤ tc.transIdSeq.cursor
  recordedBelow : ∀ id, .recorded id ∈ log → id ≤ tc.transIdSeq.cursor
  finalBelow : ∀ id, 0 < finals log id → id ≤ tc.transIdSeq.cursor
  pendingBelow : ∀ id ∈ transId :: pending, 1 ≤ id ∧ id ≤ tc.transIdSeq.cursor
  nodup : (transId :: pending).Nodup
  once : ∀ id, finals log id ≤ 1
  gone : ∀ id, id ≠ transId → 0 < finals log id → tc.transHashMap id = none
  settled : ∀ id, Settled id log → tc.transHashMap id = none ∧
    (id ∈ pending → tc.transCenterSinkSet = ∅)
  silent : Silent log

theorem Between.ending {tc : TransCenter} {log : List TransNote}
    {transId : TransID} {pending : List TransID}
    (h : Between tc log (transId :: pending)) : Ending tc log transId pending where
  good := h.good
  collected := h.collected
  below := h.below
  recordedBelow := h.recordedBelow
  finalBelow := h.finalBelow
  pendingBelow := h.pendingBelow
  nodup := h.nodup
  once := h.once
  gone := fun id _ => h.gone id
  settled := by
    intro id hsettled
    obtain ⟨hdead, hsinks⟩ := h.settled id hsettled
    exact ⟨hdead, fun hid => hsinks (List.mem_cons_of_mem transId hid)⟩
  silent := h.silent

theorem Ending.removeTrans {tc : TransCenter} {log : List TransNote}
    {transId : TransID} {pending : List TransID}
    (h : Ending tc log transId pending) :
    Between (tc.removeTrans transId) log pending where
  good := h.good.removeTrans (h.collected transId List.mem_cons_self)
  collected := by
    intro id hid
    rw [TransCenter.removeTrans_rspMsgMgr]
    exact h.collected id (List.mem_cons_of_mem transId hid)
  below := by
    intro id hlive
    rw [TransCenter.removeTrans_transHashMap] at hlive
    rw [TransCenter.removeTrans_cursor]
    split at hlive
    · cases hlive
    · exact h.below id hlive
  recordedBelow := by
    rw [TransCenter.removeTrans_cursor]
    exact h.recordedBelow
  finalBelow := by
    rw [TransCenter.removeTrans_cursor]
    exact h.finalBelow
  pendingBelow := by
    rw [TransCenter.removeTrans_cursor]
    exact fun id hid => h.pendingBelow id (List.mem_cons_of_mem transId hid)
  nodup := (List.nodup_cons.mp h.nodup).2
  once := h.once
  gone := by
    intro id hfinal
    rw [TransCenter.removeTrans_transHashMap]
    by_cases hcurrent : id = transId
    · rw [if_pos hcurrent]
    · rw [if_neg hcurrent]
      exact h.gone id hcurrent hfinal
  settled := by
    intro id hsettled
    rw [TransCenter.removeTrans_transHashMap, TransCenter.removeTrans_sinks,
      (h.settled id hsettled).1, ite_self]
    exact ⟨rfl, (h.settled id hsettled).2⟩
  silent := h.silent

theorem Between.expiring {tc : TransCenter} {log : List TransNote}
    {transId : TransID} {pending : List TransID} {note : TransNote}
    {told : Option ℕ} (h : Between tc log (transId :: pending))
    (hfinal : ∀ id, note.isFinal id → id = transId ∧
      (tc.transHashMap transId).isSome)
    (hnote : ∀ id, note ≠ .cancelReturned id ∧ note ≠ .recorded id)
    (hsilent : ∀ id, note.isAbout id → ¬Settled id log) :
    (⟨tc, .expiring transId told pending, note :: log⟩ : TransState).Told where
  inv := ⟨h.good, by simpa [batch] using h.collected⟩
  below := h.below
  recordedBelow := by
    intro id hid
    rcases List.mem_cons.mp hid with heq | hold
    · exact ((hnote id).2 heq.symm).elim
    · exact h.recordedBelow id hold
  finalBelow := by
    intro id hid
    rw [finals_cons] at hid
    by_cases hnew : note.isFinal id
    · rw [(hfinal id hnew).1]
      exact (h.pendingBelow transId List.mem_cons_self).2
    · rw [if_neg hnew] at hid
      exact h.finalBelow id hid
  batchBelow := by simpa [batch] using h.pendingBelow
  nodup := by simpa [batch] using h.nodup
  once := by
    intro id
    rw [finals_cons]
    by_cases hnew : note.isFinal id
    · obtain ⟨rfl, hlive⟩ := hfinal id hnew
      have hzero : ¬0 < finals log id := by
        intro hold
        rw [h.gone id hold] at hlive
        cases hlive
      rw [if_pos hnew]
      omega
    · rw [if_neg hnew]
      exact h.once id
  busy := by
    intro id hid hlive
    rw [finals_cons] at hid
    by_cases hnew : note.isFinal id
    · obtain ⟨rfl, -⟩ := hfinal id hnew
      exact Or.inr ⟨told, pending, rfl⟩
    · rw [if_neg hnew] at hid
      simp only at hlive
      rw [h.gone id hid] at hlive
      cases hlive
  settled := by
    intro id hsettled
    rw [settled_cons_of_ne (hnote id).1] at hsettled
    obtain ⟨hdead, hsinks⟩ := h.settled id hsettled
    refine ⟨hdead, ?_⟩
    rintro (⟨hpending, hsome⟩ | ⟨rfl, sink, hsink, -⟩)
    · rw [hsinks (List.mem_cons_of_mem transId hpending)] at hsome
      exact Finset.not_nonempty_empty hsome
    · rw [hsinks List.mem_cons_self] at hsink
      exact Finset.notMem_empty sink hsink
  silent := ⟨hsilent, h.silent⟩

theorem Between.expireNext {tc : TransCenter} {log : List TransNote}
    {pending : List TransID} (h : Between tc log pending) :
    (TransState.expireNext tc log pending).Told := by
  induction pending generalizing tc with
  | nil => exact h.idle
  | cons transId pending ih =>
      unfold TransState.expireNext
      split
      next hsink =>
        have hlive : (tc.transHashMap transId).isSome := by
          cases hctx : tc.transHashMap transId with
          | none => rw [hctx] at hsink; cases hsink
          | some ctx => rfl
        refine h.expiring ?_ (by simp) ?_
        · intro id hid
          simp only [TransNote.isFinal, decide_eq_true_eq] at hid
          exact ⟨hid.symm, hlive⟩
        · intro id hid hsettled
          simp only [TransNote.isAbout, TransNote.isFinal, Bool.or_false,
            decide_eq_true_eq] at hid
          rw [← hid] at hsettled
          rw [(h.settled transId hsettled).1] at hlive
          cases hlive
      next hdead =>
        unfold tellNext
        split
        next sink hnext =>
          refine h.expiring (by simp [TransNote.isFinal]) (by simp) ?_
          intro id hid hsettled
          simp only [TransNote.isAbout, TransNote.isFinal, Bool.false_or,
            decide_eq_true_eq] at hid
          rw [← hid] at hsettled
          have hmem := (nextSink_mem hnext).1
          rw [(h.settled transId hsettled).2 List.mem_cons_self] at hmem
          exact Finset.notMem_empty sink hmem
        next hnone => exact ih h.ending.removeTrans

/-! ## One step -/

theorem Told.cancelled {s : TransState} (h : s.Told) {transId : TransID}
    (hkeep : ¬s.WillTell transId) : (s.cancelled transId).Told where
  inv := h.inv.cancelled transId
  below := by
    intro id hlive
    simp only [TransState.cancelled, TransCenter.cancelTrans_transHashMap,
      TransCenter.cancelTrans_cursor] at hlive ⊢
    split at hlive
    · cases hlive
    · exact h.below id hlive
  recordedBelow := by
    intro id hid
    simp only [TransState.cancelled, TransCenter.cancelTrans_cursor] at hid ⊢
    rcases List.mem_cons.mp hid with heq | hold
    · cases heq
    · exact h.recordedBelow id hold
  finalBelow := by
    intro id hid
    simp only [TransState.cancelled, TransCenter.cancelTrans_cursor] at hid ⊢
    rw [finals_cons] at hid
    exact h.finalBelow id (by simpa [TransNote.isFinal] using hid)
  batchBelow := by
    intro id hid
    simp only [TransState.cancelled, TransCenter.cancelTrans_cursor]
    exact h.batchBelow id hid
  nodup := h.nodup
  once := by
    intro id
    simp only [TransState.cancelled, finals_cons]
    simpa [TransNote.isFinal] using h.once id
  busy := by
    intro id hid hlive
    simp only [TransState.cancelled, TransCenter.cancelTrans_transHashMap] at hid hlive ⊢
    rw [finals_cons] at hid
    split at hlive
    · cases hlive
    · exact h.busy id (by simpa [TransNote.isFinal] using hid) hlive
  settled := by
    intro id hid
    have hsinks : (s.cancelled transId).WillTell id ↔ s.WillTell id := by
      unfold WillTell
      simp only [TransState.cancelled, TransCenter.cancelTrans_sinks]
    rw [hsinks]
    simp only [TransState.cancelled, TransCenter.cancelTrans_transHashMap]
    rcases hid with ⟨heq, -⟩ | hold
    · cases heq
      exact ⟨if_pos rfl, hkeep⟩
    · rw [(h.settled id hold).1, ite_self]
      exact ⟨rfl, (h.settled id hold).2⟩
  silent := ⟨by simp [TransNote.isAbout, TransNote.isFinal], h.silent⟩

theorem recorded_cases {s : TransState} (h : s.tc.Good) (now : ℤ)
    (ctx : TransCtx) :
    s.recorded now ctx = s ∨
      ∃ n, 1 ≤ n ∧ s.tc.transHashMap n = none ∧ s.tc.transIdSeq.alloc.1 = n ∧
        (s.recorded now ctx).tc.transIdSeq.cursor = n ∧
        (s.recorded now ctx).tc.transCenterSinkSet = s.tc.transCenterSinkSet ∧
        (∀ k, k ≠ n →
          (s.recorded now ctx).tc.transHashMap k = s.tc.transHashMap k) ∧
        ((s.recorded now ctx).log = .recorded n :: s.log ∨
          ((s.recorded now ctx).tc.transHashMap n = none ∧
            (s.recorded now ctx).log =
              .cancelReturned n :: .recorded n :: s.log)) := by
  rcases TransCenter.recordTransCtx_cases h.toIndexed now ctx with
    ⟨-, hfail⟩ | ⟨n, hrange, hfresh, halloc, hrecord⟩
  · left
    simp only [recorded, hfail, if_true]
  · right
    have hpos := SeqNum.one_le_of_range hrange
    have hvalid : n ≠ invalidTransID := by
      rintro rfl
      exact absurd hpos (by decide)
    have hcursor : (s.tc.enterTrans now ctx n hrange).transIdSeq.cursor = n := by
      unfold TransCenter.enterTrans
      rw [TransCenter.indexTrans_transIdSeq]
      rfl
    have hsinks : (s.tc.enterTrans now ctx n hrange).transCenterSinkSet =
        s.tc.transCenterSinkSet := by
      unfold TransCenter.enterTrans
      rw [TransCenter.indexTrans_sinks]
    have hother : ∀ k, k ≠ n →
        (s.tc.enterTrans now ctx n hrange).transHashMap k =
          s.tc.transHashMap k := by
      intro k hk
      unfold TransCenter.enterTrans
      rw [TransCenter.indexTrans_transHashMap]
      exact Function.update_of_ne hk _ _
    refine ⟨n, hpos, hfresh, by rw [halloc], ?_⟩
    simp only [recorded, hrecord, if_neg hvalid]
    by_cases hsink : ctx.sink = none
    · rw [if_pos hsink, if_pos hsink]
      simp only [TransCenter.cancelTrans_cursor, TransCenter.cancelTrans_sinks,
        TransCenter.cancelTrans_transHashMap]
      refine ⟨hcursor, hsinks, ?_, by simp⟩
      intro k hk
      rw [if_neg hk]
      exact hother k hk
    · rw [if_neg hsink, if_neg hsink]
      exact ⟨hcursor, hsinks, hother, Or.inl rfl⟩

/-- The notes of a `RecordTransCtx` answer nothing, and settle the new id at most. -/
theorem recordedLog_spec {log log' : List TransNote} {n : TransID} {dead : Prop}
    (hlog : log' = .recorded n :: log ∨
      (dead ∧ log' = .cancelReturned n :: .recorded n :: log)) :
    (∀ id, finals log' id = finals log id) ∧
      (∀ id, .recorded id ∈ log' → id = n ∨ .recorded id ∈ log) ∧
      (∀ id, Settled id log' → Settled id log ∨ (id = n ∧ dead)) ∧
      (Silent log → Silent log') := by
  rcases hlog with rfl | ⟨hdead, rfl⟩
  · refine ⟨?_, ?_, ?_, ?_⟩
    · intro id
      simp [finals_cons, TransNote.isFinal]
    · intro id hid
      simpa using hid
    · intro id hid
      rw [settled_cons_of_ne (by simp)] at hid
      exact Or.inl hid
    · intro hsilent
      exact ⟨by simp [TransNote.isAbout, TransNote.isFinal], hsilent⟩
  · refine ⟨?_, ?_, ?_, ?_⟩
    · intro id
      simp [finals_cons, TransNote.isFinal]
    · intro id hid
      simpa using hid
    · intro id hid
      rcases hid with ⟨heq, -⟩ | hid
      · cases heq
        exact Or.inr ⟨rfl, hdead⟩
      · rw [settled_cons_of_ne (by simp)] at hid
        exact Or.inl hid
    · intro hsilent
      exact ⟨by simp [TransNote.isAbout, TransNote.isFinal],
        by simp [TransNote.isAbout, TransNote.isFinal], hsilent⟩

theorem Told.recorded {s : TransState} (h : s.Told) {now : ℤ} {ctx : TransCtx}
    (hwrap : s.NoWrap (.record now ctx)) : (s.recorded now ctx).Told := by
  rcases recorded_cases h.inv.good now ctx with
    hsame | ⟨n, hpos, hfresh, halloc, hcursor, hsinks, hother, hlog⟩
  · rw [hsame]
    exact h
  obtain ⟨hfinals, hrecorded, hsettled, hsilent⟩ := recordedLog_spec hlog
  have habove : s.tc.transIdSeq.cursor < n := by
    rcases hwrap with hnone | hlt
    · rw [halloc] at hnone
      exact absurd (hnone ▸ hpos) (by decide)
    · rw [halloc] at hlt
      exact hlt
  have hnew : ∀ id, id ≤ s.tc.transIdSeq.cursor → id ≠ n := by
    rintro id hid rfl
    exact absurd hid (not_le.mpr habove)
  have hbatch : n ∉ s.batch :=
    fun hmem => hnew n (h.batchBelow n hmem).2 rfl
  have htell : ∀ id, (s.recorded now ctx).WillTell id ↔ s.WillTell id := by
    intro id
    unfold WillTell
    rw [hsinks]
    rfl
  have hfreshBatch : s.FreshForBatch (.record now ctx) := by
    unfold FreshForBatch
    rw [halloc]
    exact hbatch
  refine
    { inv := h.inv.recorded now ctx hfreshBatch
      below := ?_
      recordedBelow := ?_
      finalBelow := ?_
      batchBelow := ?_
      nodup := h.nodup
      once := fun id => by rw [hfinals]; exact h.once id
      busy := ?_
      settled := ?_
      silent := hsilent h.silent }
  · intro id hlive
    rw [hcursor]
    by_cases hid : id = n
    · exact hid.le
    · rw [hother id hid] at hlive
      exact (h.below id hlive).trans habove.le
  · intro id hid
    rw [hcursor]
    rcases hrecorded id hid with rfl | hold
    · exact le_rfl
    · exact (h.recordedBelow id hold).trans habove.le
  · intro id hid
    rw [hfinals] at hid
    rw [hcursor]
    exact (h.finalBelow id hid).trans habove.le
  · intro id hid
    rw [hcursor]
    obtain ⟨hlow, hhigh⟩ := h.batchBelow id hid
    exact ⟨hlow, hhigh.trans habove.le⟩
  · intro id hid hlive
    rw [hfinals] at hid
    rw [hother id (hnew id (h.finalBelow id hid))] at hlive
    exact h.busy id hid hlive
  · intro id hid
    rw [htell]
    rcases hsettled id hid with hold | ⟨rfl, hdead⟩
    · rw [hother id (hnew id (h.recordedBelow id hold.recorded))]
      exact h.settled id hold
    · exact ⟨hdead, fun htold => hbatch htold.mem_batch⟩

theorem Told.addSink {s : TransState} (h : s.Told) {sink : ℕ}
    (hkeep : s.KeepsBatch (.addSink sink)) :
    ({ s with tc := s.tc.addSink sink } : TransState).Told where
  inv := ⟨⟨⟨h.inv.good.inuse, h.inv.good.peers⟩, h.inv.good.timed⟩, h.inv.collected⟩
  below := h.below
  recordedBelow := h.recordedBelow
  finalBelow := h.finalBelow
  batchBelow := h.batchBelow
  nodup := h.nodup
  once := h.once
  busy := h.busy
  settled := by
    intro id hid
    have hdead := (h.settled id hid).1
    refine ⟨hdead, fun htold => ?_⟩
    have hlive := hkeep id htold.mem_batch
    rw [hdead] at hlive
    cases hlive
  silent := h.silent

theorem Told.removeSink {s : TransState} (h : s.Told) (sink : ℕ) :
    ({ s with tc := s.tc.removeSink sink } : TransState).Told where
  inv := ⟨⟨⟨h.inv.good.inuse, h.inv.good.peers⟩, h.inv.good.timed⟩, h.inv.collected⟩
  below := h.below
  recordedBelow := h.recordedBelow
  finalBelow := h.finalBelow
  batchBelow := h.batchBelow
  nodup := h.nodup
  once := h.once
  busy := h.busy
  settled := by
    intro id hid
    obtain ⟨hdead, hquiet⟩ := h.settled id hid
    refine ⟨hdead, fun htold => hquiet ?_⟩
    unfold WillTell at htold ⊢
    simp only [TransCenter.removeSink] at htold
    split at htold
    next current told pending hcontrol =>
      rcases htold with ⟨hpending, hsome⟩ | ⟨hcurrent, other, hother, hahead⟩
      · exact Or.inl ⟨hpending, hsome.mono (Finset.erase_subset _ _)⟩
      · exact Or.inr ⟨hcurrent, other, Finset.mem_of_mem_erase hother, hahead⟩
    next => exact htold.elim
  silent := h.silent

theorem Told.finals_of_idle {s : TransState} (h : s.Told)
    (hidle : s.control = .idle) {transId : TransID}
    (hlive : (s.tc.transHashMap transId).isSome) : finals s.log transId = 0 := by
  by_contra hne
  rcases h.busy transId (Nat.pos_of_ne_zero hne) hlive with hcontrol | ⟨_, _, hcontrol⟩
  · rw [hidle] at hcontrol
    cases hcontrol
  · rw [hidle] at hcontrol
    cases hcontrol

theorem not_willTell_of_idle {s : TransState} (hidle : s.control = .idle)
    (transId : TransID) : ¬s.WillTell transId := by
  unfold WillTell
  rw [hidle]
  exact id

theorem Told.answering {s : TransState} (h : s.Told) (hidle : s.control = .idle)
    {transId : TransID} {note : TransNote}
    (hlive : (s.tc.transHashMap transId).isSome)
    (hnote : ∀ id, note ≠ .cancelReturned id ∧ note ≠ .recorded id)
    (habout : ∀ id, note.isAbout id → id = transId) :
    ({ s with control := .answering transId, log := note :: s.log } :
      TransState).Told where
  inv := ⟨h.inv.good, by simp [batch]⟩
  below := h.below
  recordedBelow := by
    intro id hid
    rcases List.mem_cons.mp hid with heq | hold
    · exact ((hnote id).2 heq.symm).elim
    · exact h.recordedBelow id hold
  finalBelow := by
    intro id hid
    rw [finals_cons] at hid
    by_cases hnew : note.isFinal id
    · rw [habout id (isAbout_of_isFinal hnew)]
      exact h.below transId hlive
    · rw [if_neg hnew] at hid
      exact h.finalBelow id hid
  batchBelow := by simp [batch]
  nodup := by simp [batch]
  once := by
    intro id
    rw [finals_cons]
    by_cases hnew : note.isFinal id
    · rw [habout id (isAbout_of_isFinal hnew), h.finals_of_idle hidle hlive]
      split <;> omega
    · rw [if_neg hnew]
      exact h.once id
  busy := by
    intro id hid hlive'
    rw [finals_cons] at hid
    by_cases hnew : note.isFinal id
    · rw [habout id (isAbout_of_isFinal hnew)]
      exact Or.inl rfl
    · rw [if_neg hnew, h.finals_of_idle hidle hlive'] at hid
      exact absurd hid (by decide)
  settled := by
    intro id hid
    rw [settled_cons_of_ne (hnote id).1] at hid
    exact ⟨(h.settled id hid).1, by simp [WillTell]⟩
  silent := by
    refine ⟨?_, h.silent⟩
    intro id hid hsettled
    rw [habout id hid] at hsettled
    rw [(h.settled transId hsettled).1] at hlive
    cases hlive

theorem Told.answer {s : TransState} (h : s.Told) (hidle : s.control = .idle)
    {transId : TransID} {ctx : TransCtx} {note : TransNote}
    (hctx : s.tc.getTransCtx transId = some ctx)
    (hnote : ∀ id, note ≠ .cancelReturned id ∧ note ≠ .recorded id)
    (habout : ∀ id, note.isAbout id → id = transId) :
    (s.answer transId ctx note).Told := by
  have hlive : (s.tc.transHashMap transId).isSome := by
    unfold TransCenter.getTransCtx at hctx
    rw [hctx]
    rfl
  unfold TransState.answer
  split
  · exact h.answering hidle hlive hnote habout
  · exact h.cancelled (not_willTell_of_idle hidle transId)

theorem Told.answered {s : TransState} (h : s.Told) {transId : TransID}
    (hcontrol : s.control = .answering transId) :
    ({ s.cancelled transId with control := .idle } : TransState).Told := by
  have hquiet : ¬s.WillTell transId := by
    unfold WillTell
    rw [hcontrol]
    exact id
  have hcancelled := h.cancelled hquiet
  refine
    { inv := ⟨hcancelled.inv.good, by simp [batch]⟩
      below := hcancelled.below
      recordedBelow := hcancelled.recordedBelow
      finalBelow := hcancelled.finalBelow
      batchBelow := by simp [batch]
      nodup := by simp [batch]
      once := hcancelled.once
      busy := ?_
      settled := fun id hid => ⟨(hcancelled.settled id hid).1, by simp [WillTell]⟩
      silent := hcancelled.silent }
  intro id hid hlive
  exfalso
  rcases hcancelled.busy id hid hlive with hbusy | ⟨_, _, hbusy⟩
  · simp only [TransState.cancelled] at hbusy
    rw [hcontrol] at hbusy
    cases hbusy
    simp [TransState.cancelled] at hlive
  · simp only [TransState.cancelled] at hbusy
    rw [hcontrol] at hbusy
    cases hbusy

theorem httpNote_isAbout {transId id : TransID} {done : HttpDone}
    (h : (httpNote transId done).isAbout id) : id = transId := by
  cases done <;>
    simp only [httpNote, TransNote.isAbout, TransNote.isFinal, Bool.or_false,
      Bool.false_eq_true, decide_eq_true_eq] at h <;>
    exact h.symm

theorem Told.collect {s : TransState} (h : s.Told) (hidle : s.control = .idle)
    {now : ℤ} {expired : List (TimeoutRecord TransID TransCtx)}
    {mgr : RecordTimeoutMgr TransID TransCtx}
    (htake : s.tc.rspMsgMgr.takeExpired now = some (expired, mgr))
    {order : List TransID} (hperm : order.Perm (expired.map (·.key))) :
    Between { s.tc with rspMsgMgr := mgr } s.log order := by
  have hlive : ∀ id ∈ order, (s.tc.transHashMap id).isSome := by
    intro id hid
    have hrecord := RecordTimeoutMgr.takeExpired_recorded htake
      (hperm.mem_iff.mp hid)
    obtain ⟨ctx, hctx, -⟩ := h.inv.good.timed id hrecord
    rw [hctx]
    rfl
  obtain ⟨hgood, hcollected⟩ := h.inv.collect htake hperm
  refine
    { good := hgood
      collected := hcollected
      below := h.below
      recordedBelow := h.recordedBelow
      finalBelow := h.finalBelow
      pendingBelow := ?_
      nodup := ?_
      once := h.once
      gone := ?_
      settled := ?_
      silent := h.silent }
  · intro id hid
    have hinuse := (h.inv.good.inuse id).mpr (hlive id hid)
    exact ⟨SeqNum.one_le_of_range (s.tc.transIdSeq.inuse_range id hinuse),
      h.below id (hlive id hid)⟩
  · exact hperm.nodup_iff.mpr (RecordTimeoutMgr.takeExpired_nodup htake)
  · intro id hid
    cases hctx : s.tc.transHashMap id with
    | none => rfl
    | some ctx =>
        rw [h.finals_of_idle hidle (by rw [hctx]; rfl)] at hid
        exact absurd hid (by decide)
  · intro id hid
    have hdead := (h.settled id hid).1
    refine ⟨hdead, fun hmem => ?_⟩
    have hthere := hlive id hmem
    rw [hdead] at hthere
    cases hthere

theorem Told.of_expiring {s : TransState} (h : s.Told) {transId : TransID}
    {told : Option ℕ} {pending : List TransID}
    (hcontrol : s.control = .expiring transId told pending) :
    s.batch = transId :: pending ∧
      (∀ id, s.WillTell id ↔
        ((id ∈ pending ∧ s.tc.transCenterSinkSet.Nonempty) ∨
          (id = transId ∧
            ∃ sink ∈ s.tc.transCenterSinkSet, ∀ last ∈ told, last < sink))) ∧
      ∀ id, 0 < finals s.log id → (s.tc.transHashMap id).isSome → id = transId := by
  refine ⟨?_, ?_, ?_⟩
  · unfold batch
    rw [hcontrol]
  · intro id
    unfold WillTell
    rw [hcontrol]
  · intro id hid hlive
    rcases h.busy id hid hlive with hbusy | ⟨_, _, hbusy⟩
    · rw [hcontrol] at hbusy
      cases hbusy
    · rw [hcontrol] at hbusy
      cases hbusy
      rfl

theorem Told.toldNext {s : TransState} (h : s.Told) {transId : TransID}
    {told : Option ℕ} {pending : List TransID} {sink : ℕ}
    (hcontrol : s.control = .expiring transId told pending)
    (hnext : nextSink s.tc told = some sink) :
    (⟨s.tc, .expiring transId (some sink) pending,
      .centerOnTimeout sink transId :: s.log⟩ : TransState).Told := by
  obtain ⟨hbatch, htell, honly⟩ := h.of_expiring hcontrol
  obtain ⟨hsink, hahead⟩ := nextSink_mem hnext
  have hcollected := h.inv.collected
  have hbelow := h.batchBelow
  have hnodup := h.nodup
  rw [hbatch] at hcollected hbelow hnodup
  refine
    { inv := ⟨h.inv.good, by simpa [batch] using hcollected⟩
      below := h.below
      recordedBelow := ?_
      finalBelow := ?_
      batchBelow := by simpa [batch] using hbelow
      nodup := by simpa [batch] using hnodup
      once := ?_
      busy := ?_
      settled := ?_
      silent := ⟨?_, h.silent⟩ }
  · intro id hid
    rcases List.mem_cons.mp hid with heq | hold
    · cases heq
    · exact h.recordedBelow id hold
  · intro id hid
    rw [finals_cons] at hid
    exact h.finalBelow id (by simpa [TransNote.isFinal] using hid)
  · intro id
    rw [finals_cons]
    simpa [TransNote.isFinal] using h.once id
  · intro id hid hlive
    rw [finals_cons] at hid
    have hcurrent := honly id (by simpa [TransNote.isFinal] using hid) hlive
    rw [hcurrent]
    exact Or.inr ⟨some sink, pending, rfl⟩
  · intro id hid
    rw [settled_cons_of_ne (by simp)] at hid
    obtain ⟨hdead, hquiet⟩ := h.settled id hid
    refine ⟨hdead, fun htold => hquiet ?_⟩
    rw [htell]
    rcases htold with hpending | ⟨hcurrent, other, hother, hlast⟩
    · exact Or.inl hpending
    · exact Or.inr ⟨hcurrent, sink, hsink, hahead⟩
  · intro id hid hsettled
    simp only [TransNote.isAbout, TransNote.isFinal, Bool.false_or,
      decide_eq_true_eq] at hid
    rw [← hid] at hsettled
    apply (h.settled transId hsettled).2
    rw [htell]
    exact Or.inr ⟨rfl, sink, hsink, hahead⟩

theorem Told.ending {s : TransState} (h : s.Told) {transId : TransID}
    {told : Option ℕ} {pending : List TransID}
    (hcontrol : s.control = .expiring transId told pending) :
    Ending s.tc s.log transId pending := by
  obtain ⟨hbatch, htell, honly⟩ := h.of_expiring hcontrol
  refine
    { good := h.inv.good
      collected := hbatch ▸ h.inv.collected
      below := h.below
      recordedBelow := h.recordedBelow
      finalBelow := h.finalBelow
      pendingBelow := hbatch ▸ h.batchBelow
      nodup := hbatch ▸ h.nodup
      once := h.once
      gone := ?_
      settled := ?_
      silent := h.silent }
  · intro id hother hid
    cases hctx : s.tc.transHashMap id with
    | none => rfl
    | some ctx => exact (hother (honly id hid (by rw [hctx]; rfl))).elim
  · intro id hid
    obtain ⟨hdead, hquiet⟩ := h.settled id hid
    refine ⟨hdead, fun hpending => ?_⟩
    by_contra hsome
    apply hquiet
    rw [htell]
    exact Or.inl ⟨hpending, Finset.nonempty_iff_ne_empty.mpr hsome⟩

theorem Told.told {s : TransState} (h : s.Told) {transId : TransID}
    {told : Option ℕ} {pending : List TransID}
    (hcontrol : s.control = .expiring transId told pending) :
    (tellNext s.tc s.log transId told pending
      (TransState.expireNext (s.tc.removeTrans transId) s.log pending)).Told := by
  unfold tellNext
  split
  next sink hnext => exact h.toldNext hcontrol hnext
  next hnone => exact (h.ending hcontrol).removeTrans.expireNext

theorem Told.step {s s' : TransState} {a : TransAction} (h : s.Told)
    (hwrap : s.NoWrap a) (hkeep : s.KeepsBatch a) (hstep : s.step a = some s') :
    s'.Told := by
  cases step_steps hstep with
  | record now ctx => exact h.recorded hwrap
  | cancel transId => exact h.cancelled hkeep
  | addSink sink => exact h.addSink hkeep
  | removeSink sink => exact h.removeSink sink
  | onRecvRsp msgHead msgBody hidle hctx =>
      apply h.answer hidle hctx (by simp)
      intro id hid
      simpa [TransNote.isAbout, TransNote.isFinal, eq_comm] using hid
  | @lateRsp transId msgHead msgBody hidle =>
      exact h.cancelled (not_willTell_of_idle hidle transId)
  | httpReqDone done hidle hctx =>
      apply h.answer hidle hctx
      · intro id
        cases done <;> simp [httpNote]
      · exact fun id => httpNote_isAbout
  | lateHttp => exact h
  | onTimer hidle htake hperm => exact (h.collect hidle htake hperm).expireNext
  | answered hcontrol => exact h.answered hcontrol
  | told hcontrol => exact h.told hcontrol

/-- **At most one final answer, and silence after `CancelTrans`**, along every run
in which the ids do not go round and the running batch is left alone. -/
theorem run_notifiedOnce (as : List TransAction)
    (hwrap : LabelledRun.Guarded step NoWrap start as)
    (hkeep : LabelledRun.Guarded step KeepsBatch start as) :
    LabelledRun.Along step NotifiedOnce (fun _ _ _ => True) start as :=
  LabelledRun.Guarded.along_of_inv (fun _ => Told.notifiedOnce)
    (fun _ _ _ h hguard hstep => ⟨h.step hguard.1 hguard.2 hstep, trivial⟩)
    Told.start (hwrap.and hkeep)

/-- A batch of two with a `TransCenter` sink, and a response that comes late. -/
def answeredLate : List TransAction :=
  [.addSink 7, .record 0 timedCtx, .record 0 timedCtx, .onTimer 5 [2, 1],
    .record 5 timedCtx, .ret, .cancel 3, .ret, .ret, .ret,
    .onRecvRsp 1 ⟨1, 0⟩ [], .httpReqDone 2 .timeout]

theorem run_notifiedOnce_answered_late :
    LabelledRun.Along step NotifiedOnce (fun _ _ _ => True) start answeredLate :=
  run_notifiedOnce answeredLate (by decide +kernel) (by decide +kernel)

/-- A sink that cancels its own transaction in `OnTimeout`: the `TransCenter` sink
hears of it afterwards. -/
theorem run_notifiedOnce_cancelled_in_callback :
    ¬∀ as, LabelledRun.Guarded step NoWrap start as →
      LabelledRun.Along step NotifiedOnce (fun _ _ _ => True) start as := by
  intro h
  obtain ⟨t, ht⟩ : ∃ t, LabelledRun.run step start
      [.addSink 7, .record 0 timedCtx, .onTimer 5 [1], .cancel 1, .ret] = some t :=
    Option.isSome_iff_exists.mp (by decide +kernel)
  have hlog : (LabelledRun.run step start
      [.addSink 7, .record 0 timedCtx, .onTimer 5 [1], .cancel 1, .ret]).map
      (·.log) = some [.centerOnTimeout 7 1, .cancelReturned 1, .onTimeout 1,
        .recorded 1] := by decide +kernel
  have hsilent := ((h _ (by decide +kernel)).last ht).silent
  rw [ht, Option.map_some, Option.some.injEq] at hlog
  rw [hlog] at hsilent
  exact hsilent.1 1 rfl (Or.inl ⟨rfl, by simp⟩)

end TransState

end CommonComponent
