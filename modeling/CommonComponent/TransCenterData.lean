import CommonComponent.CopyStore
import CommonComponent.TransCenterPeerLoop

/-!
# The data of transactions

`Trans::Create` and `Trans::Release` over a memory, beside the table of transactions.  A
sink is called with the pointer and the length of a transaction that is in the table:
this is so in `OnConnected`, `OnClosed`, `OnRecvRsp` and `OnTimeout` of the table and where
the clients call the sink of a transaction they have looked up.

The functions that call sinks are taken apart here.  A callback and what comes behind it
are actions of their own, and any action may come next; so every run of the table, with
whatever the sinks do, is among the runs of this machine.
-/

namespace CommonComponent

open CopyStore

/-- A transaction table with the data of its transactions. -/
structure TransWorld where
  tc : TransCenter
  store : Store TransID UInt8

/-- Which allocations of `Trans::Create` succeed. -/
structure CreateEnv where
  newTrans : Bool
  newData : Bool

/-- `record` has the data apart from the other fields of the context. -/
inductive TransWorldAction
  | record (env : CreateEnv) (now : ℤ) (ctx : TransCtx) (data : Option Addr) (len : ℕ)
  | cancel (transId : TransID)
  | remove (transId : TransID)
  | callSink (transId : TransID)
  | takeExpired (now : ℤ)
  | addSink (sink : ℕ)
  | removeSink (sink : ℕ)
  | clients (cells : ℕ → Option UInt8)
  | release

namespace TransWorld

open LabelledRun

def init : TransWorld where
  tc := .empty
  store := .init

/-- `Trans::Create`, without a transaction where it returns null. -/
def createTrans (m : Memory UInt8) (env : CreateEnv) (sink : Option ℕ)
    (data : Option Addr) (len : ℕ) : Option (Memory UInt8 × Option Slot) :=
  if !env.newTrans then some (m, none)
  else
    match sink with
    | none => some (m, some .empty)
    | some _ =>
        if data = none ∨ len < 1 then some (m, some .empty)
        else if len = 0 then
          -- an object pointer; the test before it has caught this length
          some (m, some ⟨data, 0⟩)
        else if env.newData then (m.copy data len).map fun (m, slot) => (m, some slot)
        else some (m, none)

/-- `Trans::Release`. -/
def releaseTrans (m : Memory UInt8) (slot : Slot) : Memory UInt8 :=
  (m.release slot).1

/-- What the table is told of the data. -/
def asyncData (m : Memory UInt8) (data : Option Addr) (len : ℕ) : AsyncData :=
  match data with
  | none => .null
  | some a =>
      if len = 0 then .object (a.toNat)
      else .memory ((m.read data len).getD [])

def recordTransCtx (s : TransWorld) (env : CreateEnv) (now : ℤ) (ctx : TransCtx)
    (data : Option Addr) (len : ℕ) : Option (TransID × TransWorld) :=
  (createTrans s.store.memory env ctx.sink data len).map fun (m, created) =>
    match created with
    | none => (invalidTransID, { s with store := { s.store with memory := m } })
    | some slot =>
        let transId := s.tc.transIdSeq.alloc.1
        let tc := (s.tc.recordTransCtx now
          { ctx with data := asyncData s.store.memory data len }).2
        if transId = invalidTransID then
          (invalidTransID,
            { tc := tc, store := { s.store with memory := releaseTrans m slot } })
        else
          match s.tc.transHashMap transId with
          | some _ =>
              -- the other transaction of this id is cancelled, and this one is lost
              (invalidTransID,
                { tc := tc, store := ({ s.store with memory := m } : Store _ _).drop transId })
          | none =>
              let store := s.store.put transId m slot
              (transId,
                { tc := tc
                  store := if ctx.sink = none then store.drop transId else store })

def cancelTrans (s : TransWorld) (transId : TransID) : TransWorld where
  tc := s.tc.cancelTrans transId
  store := s.store.drop transId

def removeTrans (s : TransWorld) (transId : TransID) : TransWorld where
  tc := s.tc.removeTrans transId
  store := s.store.drop transId

def step (s : TransWorld) : TransWorldAction → Option TransWorld
  | .record env now ctx data len =>
      (s.recordTransCtx env now ctx data len).map Prod.snd
  | .cancel transId => some (s.cancelTrans transId)
  | .remove transId => some (s.removeTrans transId)
  | .callSink transId =>
      (s.tc.getTransCtx transId).bind fun ctx =>
        ctx.sink.map fun _ => { s with store := s.store.call transId }
  | .takeExpired now =>
      (s.tc.rspMsgMgr.takeExpired now).map fun (_, mgr) =>
        { s with tc := { s.tc with rspMsgMgr := mgr } }
  | .addSink sink => some { s with tc := s.tc.addSink sink }
  | .removeSink sink => some { s with tc := s.tc.removeSink sink }
  | .clients cells => some { s with store := s.store.setClients cells }
  | .release =>
      some
        { tc := s.store.keys.foldl TransCenter.cancelTrans s.tc
          store := s.store.dropAll }

/-- The transactions with data are those of the table. -/
structure Inv (s : TransWorld) : Prop where
  filed : s.tc.Filed
  store : s.store.Ok
  same : ∀ id, (s.store.slots id).isSome ↔ (s.tc.transHashMap id).isSome

theorem Inv.init : TransWorld.init.Inv where
  filed := .empty
  store := .init
  same := by
    intro id
    simp [TransWorld.init, Store.init, TransCenter.empty]

theorem createTrans_fills {m m' : Memory UInt8} {env : CreateEnv} {sink : Option ℕ}
    {data : Option Addr} {len : ℕ} {slot : Slot}
    (h : createTrans m env sink data len = some (m', some slot)) :
    Fills m .empty (sink.bind fun _ => data) (if sink.isSome then len else 0)
      (m', slot, true) := by
  cases sink with
  | none =>
      simp only [createTrans] at h
      split_ifs at h with htrans
      · cases h
      · cases h
        exact .same (.inl rfl)
  | some sink =>
      simp only [createTrans] at h
      simp only [Option.bind_some, Option.isSome_some, if_true]
      split_ifs at h with htrans hnothing hzero hdata
      · cases h
      · cases h
        exact .same (hnothing.imp_right fun hlen => by omega)
      · omega
      · obtain ⟨⟨m₁, slot₁⟩, hcopy, hsame⟩ := Option.map_eq_some_iff.mp h
        cases hsame
        rw [not_or] at hnothing
        exact .copied hnothing.1 (by omega) hcopy
      · cases h

theorem createTrans_failed {m m' : Memory UInt8} {env : CreateEnv} {sink : Option ℕ}
    {data : Option Addr} {len : ℕ}
    (h : createTrans m env sink data len = some (m', none)) : m' = m := by
  cases sink with
  | none =>
      simp only [createTrans] at h
      split_ifs at h
      · cases h
        rfl
      · cases h
  | some sink =>
      simp only [createTrans] at h
      split_ifs at h
      · cases h
        rfl
      · cases h
      · cases h
      · obtain ⟨created, -, hsame⟩ := Option.map_eq_some_iff.mp h
        cases hsame
      · cases h
        rfl

/-- What `RecordTransCtx` does to the data: nothing, a transaction that got no id is
released, or the transaction has a new id. -/
inductive Records (s : TransWorld) (now : ℤ) (ctx : TransCtx) (data : Option Addr) (len : ℕ) :
    TransID × TransWorld → Prop
  | notCreated : Records s now ctx data len (invalidTransID, s)
  | noId {m : Memory UInt8} {slot : Slot} {data' : Option Addr} {len' : ℕ}
      (hfills : Fills s.store.memory .empty data' len' (m, slot, true)) :
      Records s now ctx data len (invalidTransID, { s with store := s.store.discard m slot })
  | entered {m : Memory UInt8} {slot : Slot} {transId : TransID}
      (hfills : Fills s.store.memory .empty (ctx.sink.bind fun _ => data)
        (if ctx.sink.isSome then len else 0) (m, slot, true))
      (hid : transId ≠ invalidTransID) (hfresh : s.tc.transHashMap transId = none)
      {tc : TransCenter} (htc : tc = (s.tc.recordTransCtx now
        { ctx with data := asyncData s.store.memory data len }).2)
      (hmap : ∀ id, (tc.transHashMap id).isSome ↔
        (s.tc.transHashMap id).isSome ∨ id = transId ∧ ctx.sink.isSome)
      (hsink : ∀ sink, ctx.sink = some sink →
        ∃ ctx', tc.transHashMap transId = some ctx' ∧ ctx'.sink = some sink) :
      Records s now ctx data len (transId,
        { tc := tc
          store :=
            if ctx.sink = none then (s.store.put transId m slot).drop transId
            else s.store.put transId m slot })

theorem recordTransCtx_records {s s' : TransWorld} (h : s.Inv) {env : CreateEnv} {now : ℤ}
    {ctx : TransCtx} {data : Option Addr} {len : ℕ} {transId : TransID}
    (hrecord : s.recordTransCtx env now ctx data len = some (transId, s')) :
    Records s now ctx data len (transId, s') := by
  obtain ⟨⟨m, created⟩, hcreate, hrecord⟩ := Option.map_eq_some_iff.mp hrecord
  cases created with
  | none =>
      obtain rfl := createTrans_failed hcreate
      cases hrecord
      exact .notCreated
  | some slot =>
      have hfills := createTrans_fills hcreate
      rcases TransCenter.recordTransCtx_cases h.filed.toIndexed now
          { ctx with data := asyncData s.store.memory data len } with
        ⟨hfail, htable⟩ | ⟨newId, hrange, hfresh, halloc, htable⟩
      · simp only [hfail, htable, if_true] at hrecord
        cases hrecord
        exact .noId hfills
      · have hvalid : newId ≠ invalidTransID := by
          rintro rfl
          exact absurd (SeqNum.one_le_of_range hrange) (by decide)
        simp only [halloc, if_neg hvalid, hfresh] at hrecord
        cases hrecord
        refine .entered hfills hvalid hfresh rfl (fun id' => ?_) (fun sink hsink => ?_)
        · rw [htable]
          cases hsink : ctx.sink with
          | none =>
              by_cases heq : id' = transId
              · simp [heq, hfresh]
              · simp [heq]
          | some sink =>
              by_cases heq : id' = transId
              · simp [heq]
              · simp [heq]
        · rw [htable]
          refine ⟨_, by simp [hsink]; rfl, ?_⟩
          rw [TransCenter.create_sink]

theorem Inv.records {s s' : TransWorld} (h : s.Inv) {now : ℤ} {ctx : TransCtx}
    {data : Option Addr} {len : ℕ} {transId : TransID}
    (hrecords : Records s now ctx data len (transId, s')) :
    s'.Inv ∧ Relation.ReflTransGen Store.Step s.store s'.store := by
  cases hrecords with
  | notCreated => exact ⟨h, .refl⟩
  | noId hfills =>
      have hsteps := Relation.ReflTransGen.single (Store.Step.discard hfills)
      exact ⟨⟨h.filed, h.store.steps hsteps, h.same⟩, hsteps⟩
  | @entered m slot _ hfills hid hfresh tc htc hmap hsink =>
      have hnone : s.store.slots transId = none := by
        simpa [hfresh] using h.same transId
      have hput : Store.Step s.store (s.store.put transId m slot) := by
        rw [← Store.slot_of_none hnone] at hfills
        exact .put hfills
      have hfiled : tc.Filed := htc ▸ h.filed.recordTransCtx now _
      have hsteps : Relation.ReflTransGen Store.Step s.store
          (if ctx.sink = none then (s.store.put transId m slot).drop transId
            else s.store.put transId m slot) := by
        split_ifs
        · exact (Relation.ReflTransGen.single hput).tail (.drop transId)
        · exact .single hput
      refine ⟨⟨hfiled, h.store.steps hsteps, fun id => ?_⟩, hsteps⟩
      rw [hmap id, ← h.same id]
      cases hctx : ctx.sink with
      | none =>
          rw [if_pos rfl, Store.isSome_drop, Store.isSome_put]
          by_cases heq : id = transId
          · simp [heq, hnone]
          · simp [heq]
      | some sink =>
          rw [if_neg (Option.some_ne_none sink), Store.isSome_put]
          simp

theorem Inv.dropped {s : TransWorld} (h : s.Inv) {tc : TransCenter} (hfiled : tc.Filed)
    (transId : TransID)
    (hmap : ∀ id, tc.transHashMap id = if id = transId then none else s.tc.transHashMap id) :
    TransWorld.Inv { tc := tc, store := s.store.drop transId } := by
  refine ⟨hfiled, h.store.step (.drop transId), fun id => ?_⟩
  rw [hmap id, Store.isSome_drop, h.same id]
  split_ifs with heq
  · simp [heq]
  · simp [heq]

theorem Inv.elsewhere {s : TransWorld} (h : s.Inv) (sinks : Finset ℕ)
    (mgr : RecordTimeoutMgr TransID TransCtx) :
    TransWorld.Inv
      { s with tc := { s.tc with transCenterSinkSet := sinks, rspMsgMgr := mgr } } where
  filed := ⟨⟨h.filed.inuse, h.filed.peers⟩, h.filed.sinked⟩
  store := h.store
  same := h.same

theorem foldl_cancelTrans {tc : TransCenter} (h : tc.Filed) (ids : List TransID)
    (id : TransID) :
    (ids.foldl TransCenter.cancelTrans tc).Filed ∧
      (ids.foldl TransCenter.cancelTrans tc).transHashMap id =
        if id ∈ ids then none else tc.transHashMap id := by
  induction ids generalizing tc with
  | nil => exact ⟨h, by simp⟩
  | cons transId ids ih =>
      obtain ⟨hfiled, hmap⟩ := ih (h.cancelTrans transId)
      refine ⟨hfiled, ?_⟩
      rw [List.foldl_cons, hmap, TransCenter.cancelTrans_transHashMap]
      by_cases hmem : id ∈ ids
      · simp [hmem]
      · by_cases heq : id = transId
        · simp [heq]
        · simp [hmem, heq]

/-- A step of the transactions is a number of steps of the store. -/
theorem Inv.step {s s' : TransWorld} {a : TransWorldAction} (h : s.Inv)
    (hstep : s.step a = some s') :
    s'.Inv ∧ Relation.ReflTransGen Store.Step s.store s'.store := by
  cases a with
  | record env now ctx data len =>
      obtain ⟨⟨transId, s₁⟩, hrecord, rfl⟩ := Option.map_eq_some_iff.mp hstep
      exact h.records (recordTransCtx_records h hrecord)
  | cancel transId =>
      obtain rfl : _ = s' := Option.some.inj hstep
      refine ⟨?_, .single (.drop transId)⟩
      exact h.dropped (h.filed.cancelTrans transId) transId fun id =>
        TransCenter.cancelTrans_transHashMap s.tc transId id
  | remove transId =>
      obtain rfl : _ = s' := Option.some.inj hstep
      refine ⟨?_, .single (.drop transId)⟩
      exact h.dropped (h.filed.removeTrans transId) transId fun id =>
        TransCenter.removeTrans_transHashMap s.tc transId id
  | callSink transId =>
      obtain ⟨ctx, -, hstep⟩ := Option.bind_eq_some_iff.mp hstep
      obtain ⟨sink, -, rfl⟩ := Option.map_eq_some_iff.mp hstep
      have hsteps := Relation.ReflTransGen.single (Store.Step.call (s := s.store) transId)
      refine ⟨⟨h.filed, h.store.steps hsteps, fun id => ?_⟩, hsteps⟩
      rw [Store.call_slots, h.same id]
  | takeExpired now =>
      obtain ⟨⟨expired, mgr⟩, -, rfl⟩ := Option.map_eq_some_iff.mp hstep
      exact ⟨h.elsewhere _ _, .refl⟩
  | addSink sink =>
      obtain rfl : _ = s' := Option.some.inj hstep
      exact ⟨h.elsewhere _ _, .refl⟩
  | removeSink sink =>
      obtain rfl : _ = s' := Option.some.inj hstep
      exact ⟨h.elsewhere _ _, .refl⟩
  | clients cells =>
      obtain rfl : _ = s' := Option.some.inj hstep
      have hsteps : Relation.ReflTransGen Store.Step s.store (s.store.setClients cells) :=
        .single (.clients cells)
      exact ⟨⟨h.filed, h.store.steps hsteps, h.same⟩, hsteps⟩
  | release =>
      obtain rfl : _ = s' := Option.some.inj hstep
      have hsteps := s.store.dropAll_steps
      refine ⟨⟨(foldl_cancelTrans h.filed s.store.keys invalidTransID).1,
        h.store.steps hsteps, fun id => ?_⟩, hsteps⟩
      rw [h.store.dropAll_slots id, (foldl_cancelTrans h.filed s.store.keys id).2]
      refine iff_of_false (by simp) ?_
      split_ifs with hmem
      · simp
      · rw [← h.same id]
        exact fun hslot => hmem (h.store.keys id hslot)

theorem Inv.run_steps {s t : TransWorld} (h : s.Inv) {as : List TransWorldAction}
    (hrun : LabelledRun.run TransWorld.step s as = some t) :
    t.Inv ∧ Relation.ReflTransGen Store.Step s.store t.store :=
  run_simulates (fun _ _ _ => Inv.step) h hrun

/-- Every copy has been released behind `Release`. -/
theorem Inv.release {s t : TransWorld} (h : s.Inv) (hstep : s.step .release = some t) :
    ∀ b < t.store.memory.fresh, t.store.memory.deleted.count (.block b 0) = 1 := by
  refine (h.step hstep).1.store.all_deleted fun id => ?_
  obtain rfl : _ = t := Option.some.inj hstep
  exact h.store.dropAll_slots id

/-! ## A new transaction -/

/-- A transaction with a sink keeps the law of its data all the time exactly where the
length fits the pointer. -/
theorem recordTransCtx_law_iff {s s' : TransWorld} (h : s.Inv) {env : CreateEnv} {now : ℤ}
    {ctx : TransCtx} (hsink : ctx.sink.isSome) {data : Option Addr} {len : ℕ}
    {transId : TransID} (hid : transId ≠ invalidTransID)
    (hrecord : s.recordTransCtx env now ctx data len = some (transId, s')) :
    (∀ as t, LabelledRun.run step s' as = some t →
      t.store.Law s.store.made ⟨data, len, s.store.memory.read data len⟩) ↔
        (data = none ↔ len = 0) := by
  have hrecords := recordTransCtx_records h hrecord
  have hs' := (h.records hrecords).1
  obtain ⟨sink, hsink⟩ := Option.isSome_iff_exists.mp hsink
  cases hrecords with
  | notCreated => exact (hid rfl).elim
  | noId => exact (hid rfl).elim
  | @entered m slot _ hfills hid hfresh tc htc hmap hentry =>
      simp only [hsink, Option.bind_some, Option.isSome_some, if_true] at hfills
      simp only [hsink, reduceCtorEq, if_false] at hs' ⊢
      have hnone : s.store.slots transId = none := by
        simpa [hfresh] using h.same transId
      constructor
      · intro hlaw
        by_contra hfits
        obtain ⟨ctx', hctx', hsink'⟩ := hentry sink hsink
        have hslots : (s.store.put transId m slot).slots transId =
            some (.empty, s.store.made) := by
          rw [hfills.eq_empty hfits]
          exact Function.update_self ..
        have hbad := hlaw [.callSink transId]
          ⟨tc, (s.store.put transId m slot).call transId⟩ (by
            simp [LabelledRun.run, step, TransCenter.getTransCtx, hctx', hsink'])
        exact Store.not_law_of_call hslots hfits hbad
      · intro hfits as t hrun
        exact h.store.put_law hnone hfills hfits (hs'.run_steps hrun).2

end TransWorld

end CommonComponent
