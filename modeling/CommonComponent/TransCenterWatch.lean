import CommonComponent.ProtoTcpClientSend
import CommonComponent.TransCenterPeerLoop

/-!
# What the sinks of some transactions are told

Besides one client's reads the whole process works on the table: it records and
cancels transactions, answers those of other clients and of HTTP requests, walks the
transactions of a peer that has been connected or closed, and times transactions out.
`WatchedTable` is the table with some of its transactions watched.  What their sinks
are told depends on them alone: on their contexts, on when they expire, and on what
their own callbacks do.  Nothing else in the table makes a difference, as long as the
callbacks made for other transactions do not cancel them.
-/

namespace CommonComponent

open TransCenter

namespace TransCenter

/-! ## What leaves a transaction alone -/

/-- The transaction `id` and its record in the timeout index are in `tc'` what they
are in `tc`. -/
structure Keeps (id : TransID) (tc tc' : TransCenter) : Prop where
  trans : tc'.transHashMap id = tc.transHashMap id
  timeout : tc'.rspMsgMgr.recordHashMap id = tc.rspMsgMgr.recordHashMap id

theorem Keeps.refl (id : TransID) (tc : TransCenter) : Keeps id tc tc := ⟨rfl, rfl⟩

theorem Keeps.trans' {id : TransID} {tc tc' tc'' : TransCenter} (h : Keeps id tc tc')
    (h' : Keeps id tc' tc'') : Keeps id tc tc'' :=
  ⟨h'.trans.trans h.trans, h'.timeout.trans h.timeout⟩

theorem keeps_removeTrans (tc : TransCenter) {id transId : TransID}
    (hne : id ≠ transId) : Keeps id tc (tc.removeTrans transId) where
  trans := by rw [removeTrans_transHashMap, if_neg hne]
  timeout := by rw [removeTrans_rspMsgMgr]

theorem keeps_cancelTrans (tc : TransCenter) {id transId : TransID}
    (hne : id ≠ transId) : Keeps id tc (tc.cancelTrans transId) where
  trans := by rw [cancelTrans_transHashMap, if_neg hne]
  timeout := by
    unfold cancelTrans
    cases tc.transHashMap transId with
    | none => rfl
    | some ctx =>
        simp only [removeTrans_rspMsgMgr]
        split
        · simp only [RecordTimeoutMgr.removeRecord]
          split
          · exact Function.update_of_ne hne ..
          · rfl
        · rfl

theorem keeps_enterTrans (tc : TransCenter) (now : ℤ) (ctx : TransCtx)
    {id transId : TransID}
    (hid : i32SeqRange.seqMin ≤ transId ∧ transId ≤ i32SeqRange.seqMax)
    (hne : id ≠ transId) : Keeps id tc (tc.enterTrans now ctx transId hid) where
  trans := by rw [enterTrans_transHashMap, if_neg hne]
  timeout := by
    simp only [enterTrans, indexTrans]
    split
    · simp only [RecordTimeoutMgr.upsertRecord]
      split <;> exact Function.update_of_ne hne ..
    · rfl

theorem keeps_recordTransCtx {tc : TransCenter} (h : tc.Indexed) (now : ℤ)
    (ctx : TransCtx) {id : TransID} (hlive : (tc.transHashMap id).isSome) :
    Keeps id tc (tc.recordTransCtx now ctx).2 := by
  rcases recordTransCtx_cases h now ctx with
    ⟨-, hfail⟩ | ⟨transId, hid, hfresh, -, hrecord⟩
  · rw [hfail]
    exact .refl id tc
  · have hne : id ≠ transId := by
      rintro rfl
      rw [hfresh] at hlive
      cases hlive
    have henter := keeps_enterTrans tc now ctx hid hne
    rw [hrecord]
    simp only
    split
    · exact henter.trans' (keeps_cancelTrans _ hne)
    · exact henter

theorem keeps_applyOp {tc : TransCenter} (h : tc.Indexed) {op : TransOp}
    {id : TransID} (hlive : (tc.transHashMap id).isSome) (hop : op ≠ .cancel id) :
    Keeps id tc (tc.applyOp op) := by
  cases op with
  | record now ctx => exact keeps_recordTransCtx h now ctx hlive
  | cancel transId => exact keeps_cancelTrans tc fun heq => hop (heq ▸ rfl)

theorem keeps_applyOps {tc : TransCenter} (h : tc.Indexed) {ops : List TransOp}
    {id : TransID} (hlive : (tc.transHashMap id).isSome) (hops : .cancel id ∉ ops) :
    Keeps id tc (tc.applyOps ops) := by
  induction ops generalizing tc with
  | nil => exact .refl id tc
  | cons op ops ih =>
      rw [List.mem_cons, not_or] at hops
      have hfirst := keeps_applyOp h hlive fun heq => hops.1 heq.symm
      have hlater := ih (h.applyOp op) (by rwa [hfirst.trans]) hops.2
      exact hfirst.trans' hlater

/-- The table and its timeout index are in order. -/
structure Ordered (tc : TransCenter) : Prop where
  indexed : tc.Indexed
  timeouts : tc.rspMsgMgr.IndexOk

theorem Ordered.applyOp {tc : TransCenter} (h : tc.Ordered) (op : TransOp) :
    (tc.applyOp op).Ordered where
  indexed := h.indexed.applyOp op
  timeouts := by
    cases op with
    | record now ctx => exact recordTransCtx_index h.timeouts now ctx
    | cancel transId => exact cancelTrans_index h.timeouts transId

theorem Ordered.applyOps {tc : TransCenter} (h : tc.Ordered) (ops : List TransOp) :
    (tc.applyOps ops).Ordered := by
  induction ops generalizing tc with
  | nil => exact h
  | cons op ops ih => exact ih (h.applyOp op)

theorem Ordered.removeTrans {tc : TransCenter} (h : tc.Ordered) (transId : TransID) :
    (tc.removeTrans transId).Ordered where
  indexed := h.indexed.removeTrans transId
  timeouts := by
    rw [removeTrans_rspMsgMgr]
    exact h.timeouts

end TransCenter

/-! ## The table with some transactions watched -/

/-- What the sink of a transaction is told. -/
inductive TransEvent
  | onRecvRsp (msgHead : MsgHead) (msgBody : Bytes)
  | onRecvHTTPRsp (statusCode : ℤ) (rspBody : Bytes)
  | onPeer (event : PeerEvent)
  | onTimeout
deriving DecidableEq

/-- `ctx` is the context in the table, which the passback, `data` and `len` come
from. -/
structure TransTold where
  transId : TransID
  ctx : TransCtx
  event : TransEvent
deriving DecidableEq

/-- `watched` are the ids of the watched transactions that have not ended, and `heard`
is what their sinks have been told. -/
structure WatchedTable where
  tc : TransCenter
  watched : Finset TransID
  heard : List TransTold

/-- What is done to the table in the callbacks for the watched transactions, and in
those for all the others. -/
structure Callbacks where
  watched : TransID → TransEvent → List TransOp
  others : TransID → TransEvent → List TransOp

/-- What happens to the table outside the reads of one client.  `answer` is a response
that another client or an HTTP request has got for `transId`, and `order` is an order
of the ids in which a batch of timeouts is gone through. -/
inductive TableAction
  | record (now : ℤ) (ctx : TransCtx)
  | cancel (transId : TransID)
  | answer (transId : TransID) (event : TransEvent)
  | peerEvent (peer : Peer) (event : PeerEvent)
  | onTimer (now : ℤ) (order : List TransID)

namespace WatchedTable

variable (cbs : Callbacks)

def applyOp (w : WatchedTable) (op : TransOp) : WatchedTable :=
  { w with
    tc := w.tc.applyOp op
    watched :=
      match op with
      | .record _ _ => w.watched
      | .cancel transId => w.watched.erase transId }

def applyOps (w : WatchedTable) (ops : List TransOp) : WatchedTable :=
  ops.foldl applyOp w

/-- What is done in the callback for `transId`. -/
def ops (w : WatchedTable) (transId : TransID) (event : TransEvent) : List TransOp :=
  if transId ∈ w.watched then cbs.watched transId event else cbs.others transId event

def hear (w : WatchedTable) (note : TransTold) : WatchedTable :=
  if note.transId ∈ w.watched then { w with heard := w.heard ++ [note] } else w

/-- The callback for `transId`, whose context is `ctx`. -/
def call (w : WatchedTable) (transId : TransID) (ctx : TransCtx) (event : TransEvent) :
    WatchedTable :=
  (w.hear ⟨transId, ctx, event⟩).applyOps (w.ops cbs transId event)

def removeTrans (w : WatchedTable) (transId : TransID) : WatchedTable :=
  { w with tc := w.tc.removeTrans transId, watched := w.watched.erase transId }

/-- What `ReadCallback` and `HTTPReqDoneCallback` do with a response. -/
def answer (w : WatchedTable) (transId : TransID) (event : TransEvent) : WatchedTable :=
  match w.tc.getTransCtx transId with
  | none => w
  | some ctx =>
      let w :=
        match ctx.sink with
        | some _ => w.call cbs transId ctx event
        | none => w
      w.applyOp (.cancel transId)

/-- The loop of `OnConnected` and of `OnClosed`; `none` also stands for a callback that
erases the element the loop is at. -/
def peerLoop (peer : Peer) (event : PeerEvent) :
    ℕ → WatchedTable → Option TransID → Option WatchedTable
  | 0, _, _ => none
  | _ + 1, w, none => some w
  | fuel + 1, w, some transId =>
      match w.tc.transHashMap transId with
      | none => peerLoop peer event fuel w (nextTransID w.tc peer (some transId))
      | some ctx =>
          match ctx.sink with
          | none => peerLoop peer event fuel w (nextTransID w.tc peer (some transId))
          | some _ =>
              let called := w.call cbs transId ctx (.onPeer event)
              if (peerCallback peer transId w.tc (w.ops cbs transId (.onPeer event))).2 then
                peerLoop peer event fuel called
                  (nextTransID called.tc peer (some transId))
              else none

def notifyPeer (w : WatchedTable) (peer : Peer) (event : PeerEvent) :
    Option WatchedTable :=
  peerLoop cbs peer event (i32SeqRange.totalCount + 2) w (nextTransID w.tc peer none)

/-- `OnTimeout` for one id. -/
def onTimeout (w : WatchedTable) (transId : TransID) : WatchedTable :=
  let w :=
    match (w.tc.getTransCtx transId).filter (·.sink.isSome) with
    | some ctx => w.call cbs transId ctx .onTimeout
    -- only the sinks of the table itself are told
    | none => w.applyOps (w.ops cbs transId .onTimeout)
  w.removeTrans transId

/-- The second loop of `OnTimer`. -/
def onTimeouts (expired : List TransID) (order : List TransID) (w : WatchedTable) :
    WatchedTable :=
  order.foldl (fun w transId => if transId ∈ expired then w.onTimeout cbs transId else w) w

def step (w : WatchedTable) : TableAction → Option WatchedTable
  | .record now ctx => some (w.applyOp (.record now ctx))
  | .cancel transId => some (w.applyOp (.cancel transId))
  | .answer transId event => some (w.answer cbs transId event)
  | .peerEvent peer event => w.notifyPeer cbs peer event
  | .onTimer now order =>
      match w.tc.rspMsgMgr.takeExpired now with
      | some (expired, mgr) =>
          if order.Nodup ∧ expired.map (·.key) ⊆ order then
            some (onTimeouts cbs (expired.map (·.key)) order
              { w with tc := { w.tc with rspMsgMgr := mgr } })
          else none
      | none => none

end WatchedTable

/-! ## What the watched transactions decide -/

/-- The watched transactions as they are at first, with the times they expire at. -/
structure Watched where
  ids : Finset TransID
  ctx : TransID → TransCtx
  expiry : TransID → Option ℤ

/-- What there is to see of the watched transactions: which of them have not ended,
and what their sinks have been told. -/
structure Seen where
  live : Finset TransID
  heard : List TransTold

namespace Seen

variable (v : Watched) (react : TransID → TransEvent → List TransOp)

def call (o : Seen) (transId : TransID) (event : TransEvent) : Seen where
  live := o.live.filter fun x => .cancel x ∉ react transId event
  heard := o.heard ++ [⟨transId, v.ctx transId, event⟩]

def drop (o : Seen) (transId : TransID) : Seen :=
  { o with live := o.live.erase transId }

/-- The transactions of a peer are told in the order of their ids, behind `last`. -/
inductive Walk (peer : Peer) (event : PeerEvent) : Option TransID → Seen → Seen → Prop
  | done {last o} (hnone : ∀ x ∈ o.live, (v.ctx x).peer = peer → ¬∀ l ∈ last, l < x) :
      Walk peer event last o o
  | next {last o o' x} (hx : x ∈ o.live) (hpeer : (v.ctx x).peer = peer)
      (hahead : ∀ l ∈ last, l < x)
      (hleast : ∀ y ∈ o.live, (v.ctx y).peer = peer → (∀ l ∈ last, l < y) → x ≤ y)
      (hlater : Walk peer event (some x) (o.call v react x (.onPeer event)) o') :
      Walk peer event last o o'

def due (now : ℤ) (o : Seen) : Finset TransID :=
  o.live.filter fun x => ∃ t ∈ v.expiry x, t ≤ now

def onTimeouts (batch : Finset TransID) (order : List TransID) (o : Seen) : Seen :=
  order.foldl (fun o transId =>
    if transId ∈ batch ∧ transId ∈ o.live then
      (o.call v react transId .onTimeout).drop transId
    else o) o

/-- What an action of the process shows. -/
inductive Shows : TableAction → Seen → Seen → Prop
  | record {now ctx o} : Shows (.record now ctx) o o
  | cancel {transId o} : Shows (.cancel transId) o (o.drop transId)
  | answer {transId event o} (hlive : transId ∈ o.live) :
      Shows (.answer transId event) o ((o.call v react transId event).drop transId)
  | answerOther {transId event o} (hother : transId ∉ o.live) :
      Shows (.answer transId event) o o
  | peerEvent {peer event o o'} (hwalk : Walk v react peer event none o o') :
      Shows (.peerEvent peer event) o o'
  | onTimer {now order o} :
      Shows (.onTimer now order) o (o.onTimeouts v react (o.due v now) order)

variable {v react}

theorem Walk.unique {peer : Peer} {event : PeerEvent} {last : Option TransID}
    {o a b : Seen} (ha : Walk v react peer event last o a)
    (hb : Walk v react peer event last o b) : a = b := by
  induction ha with
  | done hnone =>
      cases hb with
      | done => rfl
      | next hx hpeer hahead => exact (hnone _ hx hpeer hahead).elim
  | @next last o o' x hx hpeer hahead hleast hlater ih =>
      cases hb with
      | done hnone => exact (hnone x hx hpeer hahead).elim
      | @next _ _ _ y hy hpeer' hahead' hleast' hlater' =>
          have hxy : x = y :=
            le_antisymm (hleast y hy hpeer' hahead') (hleast' x hx hpeer hahead)
          subst hxy
          exact ih hlater'

theorem Shows.unique {action : TableAction} {o a b : Seen}
    (ha : Shows v react action o a) (hb : Shows v react action o b) : a = b := by
  cases ha with
  | record => cases hb; rfl
  | cancel => cases hb; rfl
  | answer hlive =>
      cases hb with
      | answer => rfl
      | answerOther hother => exact (hother hlive).elim
  | answerOther hother =>
      cases hb with
      | answer hlive => exact (hother hlive).elim
      | answerOther => rfl
  | peerEvent hwalk =>
      cases hb with
      | peerEvent hwalk' => exact hwalk.unique hwalk'
  | onTimer => cases hb; rfl

theorem live_onTimeouts {batch : Finset TransID} {order : List TransID} {o : Seen}
    {x : TransID} (hx : x ∈ (o.onTimeouts v react batch order).live) :
    x ∈ o.live ∧ (x ∈ batch → x ∉ order) := by
  induction order generalizing o with
  | nil => exact ⟨hx, fun _ => List.not_mem_nil⟩
  | cons id order ih =>
      obtain ⟨hlive, hlater⟩ := ih hx
      simp only at hlive
      split at hlive
      next =>
        obtain ⟨hne, hcalled⟩ := Finset.mem_erase.mp hlive
        refine ⟨(Finset.mem_filter.mp hcalled).1, fun hbatch => ?_⟩
        rw [List.mem_cons, not_or]
        exact ⟨hne, hlater hbatch⟩
      next hother =>
        refine ⟨hlive, fun hbatch => ?_⟩
        rw [List.mem_cons, not_or]
        refine ⟨?_, hlater hbatch⟩
        rintro rfl
        exact hother ⟨hbatch, hlive⟩

/-- An element that is not watched makes no difference to a walk. -/
theorem Walk.skip {peer : Peer} {event : PeerEvent} {last : Option TransID}
    {o o' : Seen} {id : TransID} (h : Walk v react peer event (some id) o o')
    (hahead : ∀ l ∈ last, l < id) (hother : id ∉ o.live)
    (hleast : ∀ y ∈ o.live, (v.ctx y).peer = peer → (∀ l ∈ last, l < y) → id ≤ y) :
    Walk v react peer event last o o' := by
  have hbehind : ∀ x ∈ o.live, (v.ctx x).peer = peer → (∀ l ∈ last, l < x) →
      ∀ l ∈ some id, l < x := by
    intro x hx hpeer hlast l hl
    rw [Option.mem_some_iff] at hl
    subst hl
    refine lt_of_le_of_ne (hleast x hx hpeer hlast) ?_
    rintro rfl
    exact hother hx
  cases h with
  | done hnone =>
      exact .done fun x hx hpeer hlast => hnone x hx hpeer (hbehind x hx hpeer hlast)
  | @next _ _ _ x hx hpeer hx' hleast' hlater =>
      refine .next hx hpeer ?_ ?_ hlater
      · exact fun l hl => (hahead l hl).trans (hx' id rfl)
      · exact fun y hy hpeer' hlast =>
          hleast' y hy hpeer' (hbehind y hy hpeer' hlast)

end Seen

/-- No callback for a transaction that is not watched cancels one that is. -/
def Callbacks.Spares (cbs : Callbacks) (ids : Finset TransID) : Prop :=
  ∀ transId event, ∀ x ∈ ids, .cancel x ∉ cbs.others transId event

/-- The watched transactions are in the table as they were at first; those of the
running batch have no record any more. -/
structure Watches (v : Watched) (batch : Finset TransID) (w : WatchedTable) : Prop where
  ordered : w.tc.Ordered
  sub : w.watched ⊆ v.ids
  there : ∀ x ∈ w.watched, w.tc.transHashMap x = some (v.ctx x)
  sinked : ∀ x ∈ w.watched, (v.ctx x).sink.isSome
  expiry : ∀ x ∈ w.watched, x ∉ batch →
    (w.tc.rspMsgMgr.recordHashMap x).map (fun r => r.upsertTime + r.timeoutSec) =
      v.expiry x

variable {v : Watched} {batch : Finset TransID} {w : WatchedTable} {cbs : Callbacks}

theorem Watches.of_keeps {w' : WatchedTable} (h : Watches v batch w)
    (hordered : w'.tc.Ordered) (hsub : w'.watched ⊆ w.watched)
    (hkeeps : ∀ x ∈ w'.watched, Keeps x w.tc w'.tc) : Watches v batch w' where
  ordered := hordered
  sub := hsub.trans h.sub
  there := fun x hx => (hkeeps x hx).trans.trans (h.there x (hsub hx))
  sinked := fun x hx => h.sinked x (hsub hx)
  expiry := fun x hx hbatch => by
    rw [(hkeeps x hx).timeout]
    exact h.expiry x (hsub hx) hbatch

namespace WatchedTable

def seen (w : WatchedTable) : Seen := ⟨w.watched, w.heard⟩

/-! ## The table shows what the watched transactions decide -/

theorem applyOp_watches (h : Watches v batch w) (op : TransOp) :
    Watches v batch (w.applyOp op) := by
  have hlive : ∀ x ∈ w.watched, (w.tc.transHashMap x).isSome := fun x hx => by
    rw [h.there x hx]
    rfl
  refine h.of_keeps (h.ordered.applyOp op) ?_ ?_
  · cases op with
    | record now ctx => exact subset_rfl
    | cancel transId => exact Finset.erase_subset _ _
  · intro x hx
    cases op with
    | record now ctx =>
        exact keeps_recordTransCtx h.ordered.indexed now ctx (hlive x hx)
    | cancel transId =>
        obtain ⟨hne, hx⟩ := Finset.mem_erase.mp hx
        exact keeps_cancelTrans w.tc hne

theorem applyOps_seen (w : WatchedTable) (ops : List TransOp) :
    (w.applyOps ops).seen =
      ⟨w.watched.filter fun x => .cancel x ∉ ops, w.heard⟩ := by
  induction ops generalizing w with
  | nil => simp [applyOps, seen]
  | cons op ops ih =>
      have hstep : w.applyOps (op :: ops) = (w.applyOp op).applyOps ops := rfl
      rw [hstep, ih]
      cases op with
      | record now ctx => simp [applyOp]
      | cancel transId =>
          simp only [applyOp, Seen.mk.injEq, and_true]
          ext x
          simp only [Finset.mem_filter, Finset.mem_erase, List.mem_cons,
            TransOp.cancel.injEq, not_or]
          tauto

theorem applyOps_watches (h : Watches v batch w) (ops : List TransOp) :
    Watches v batch (w.applyOps ops) := by
  induction ops generalizing w with
  | nil => exact h
  | cons op ops ih => exact ih (applyOp_watches h op)

theorem applyOps_others (h : Watches v batch w) (hspares : cbs.Spares v.ids)
    (transId : TransID) (event : TransEvent) :
    Watches v batch (w.applyOps (cbs.others transId event)) ∧
      (w.applyOps (cbs.others transId event)).seen = w.seen := by
  refine ⟨applyOps_watches h _, ?_⟩
  rw [applyOps_seen, Finset.filter_true_of_mem]
  · rfl
  · exact fun x hx => hspares transId event x (h.sub hx)

theorem call_watched (cbs : Callbacks) (h : Watches v batch w) {transId : TransID}
    (hlive : transId ∈ w.watched) (event : TransEvent) :
    Watches v batch (w.call cbs transId (v.ctx transId) event) ∧
      (w.call cbs transId (v.ctx transId) event).seen =
        w.seen.call v cbs.watched transId event := by
  have hheard : Watches v batch { w with
      heard := w.heard ++ [⟨transId, v.ctx transId, event⟩] } := ⟨h.1, h.2, h.3, h.4, h.5⟩
  unfold call ops hear
  rw [if_pos hlive, if_pos hlive]
  exact ⟨applyOps_watches hheard _, applyOps_seen _ _⟩

theorem call_other (h : Watches v batch w) (hspares : cbs.Spares v.ids)
    {transId : TransID} (hother : transId ∉ w.watched) (ctx : TransCtx)
    (event : TransEvent) :
    Watches v batch (w.call cbs transId ctx event) ∧
      (w.call cbs transId ctx event).seen = w.seen := by
  unfold call ops hear
  rw [if_neg hother, if_neg hother]
  exact applyOps_others h hspares transId event

theorem removeTrans_watches (h : Watches v batch w) (transId : TransID) :
    Watches v batch (w.removeTrans transId) := by
  refine h.of_keeps (h.ordered.removeTrans transId) (Finset.erase_subset _ _) ?_
  intro x hx
  exact keeps_removeTrans w.tc (Finset.mem_erase.mp hx).1

theorem drop_of_other {o : Seen} {transId : TransID} (hother : transId ∉ o.live) :
    o.drop transId = o := by
  unfold Seen.drop
  rw [Finset.erase_eq_of_notMem hother]

theorem answer_shows (h : Watches v batch w) (hspares : cbs.Spares v.ids)
    (transId : TransID) (event : TransEvent) :
    Watches v batch (w.answer cbs transId event) ∧
      Seen.Shows v cbs.watched (.answer transId event) w.seen
        (w.answer cbs transId event).seen := by
  unfold answer getTransCtx
  by_cases hlive : transId ∈ w.watched
  · obtain ⟨sink, hsink⟩ := Option.isSome_iff_exists.mp (h.sinked transId hlive)
    rw [h.there transId hlive]
    simp only [hsink]
    obtain ⟨hcall, hseen⟩ := call_watched cbs h hlive event
    refine ⟨applyOp_watches hcall _, ?_⟩
    have hdrop : ((w.call cbs transId (v.ctx transId) event).applyOp
          (.cancel transId)).seen =
        (w.seen.call v cbs.watched transId event).drop transId := by
      rw [← hseen]
      rfl
    rw [hdrop]
    exact .answer hlive
  · have hquiet : ∀ u : WatchedTable, Watches v batch u → u.seen = w.seen →
        Watches v batch (u.applyOp (.cancel transId)) ∧
          Seen.Shows v cbs.watched (.answer transId event) w.seen
            (u.applyOp (.cancel transId)).seen := by
      intro u hu hseen
      refine ⟨applyOp_watches hu _, ?_⟩
      have hdrop : (u.applyOp (.cancel transId)).seen = w.seen := by
        rw [← drop_of_other (o := w.seen) hlive, ← hseen]
        rfl
      rw [hdrop]
      exact .answerOther hlive
    cases w.tc.transHashMap transId with
    | none => exact ⟨h, .answerOther hlive⟩
    | some ctx =>
        simp only
        cases ctx.sink with
        | none => exact hquiet w h rfl
        | some sink =>
            obtain ⟨hcall, hseen⟩ := call_other h hspares hlive ctx event
            exact hquiet _ hcall hseen

/-- A watched transaction of the peer that is ahead of the loop is not before the
element that the loop comes to. -/
theorem least_of_next (h : Watches v batch w) {peer : Peer} {last : Option TransID}
    {id : TransID} (hnext : nextTransID w.tc peer last = some id) {y : TransID}
    (hy : y ∈ w.watched) (hpeer : (v.ctx y).peer = peer) (hlast : ∀ l ∈ last, l < y) :
    id ≤ y := by
  refine (nextTransID_some hnext).2.2 y ?_ hlast
  exact (h.ordered.indexed.peers peer y).mpr ⟨v.ctx y, h.there y hy, hpeer⟩

theorem peerLoop_shows (hspares : cbs.Spares v.ids) {peer : Peer} {event : PeerEvent}
    {fuel : ℕ} {w w' : WatchedTable} {last : Option TransID} (h : Watches v batch w)
    (hloop : peerLoop cbs peer event fuel w (nextTransID w.tc peer last) = some w') :
    Watches v batch w' ∧
      Seen.Walk v cbs.watched peer event last w.seen w'.seen := by
  induction fuel generalizing w last with
  | zero => cases hloop
  | succ fuel ih =>
      cases hnext : nextTransID w.tc peer last with
      | none =>
          rw [hnext] at hloop
          cases hloop
          refine ⟨h, .done fun x hx hpeer => nextTransID_none hnext ?_⟩
          exact (h.ordered.indexed.peers peer x).mpr ⟨v.ctx x, h.there x hx, hpeer⟩
      | some id =>
          obtain ⟨hmem, hahead, -⟩ := nextTransID_some hnext
          have hleast : ∀ y ∈ w.seen.live, (v.ctx y).peer = peer →
              (∀ l ∈ last, l < y) → id ≤ y :=
            fun y hy hpeer hlast => least_of_next h hnext hy hpeer hlast
          rw [hnext, peerLoop] at hloop
          by_cases hlive : id ∈ w.watched
          · obtain ⟨sink, hsink⟩ := Option.isSome_iff_exists.mp (h.sinked id hlive)
            have hthere := h.there id hlive
            simp only [hthere, hsink] at hloop
            split at hloop
            next =>
              obtain ⟨hcall, hseen⟩ := call_watched cbs h hlive
                (.onPeer event)
              obtain ⟨hafter, hwalk⟩ := ih hcall hloop
              rw [hseen] at hwalk
              obtain ⟨ctx, hctx, hpeer⟩ := (h.ordered.indexed.peers peer id).mp hmem
              rw [hthere, Option.some.injEq] at hctx
              exact ⟨hafter, .next hlive (hctx ▸ hpeer) hahead hleast hwalk⟩
            next => cases hloop
          · have hskip : ∀ u : WatchedTable, Watches v batch u → u.seen = w.seen →
                peerLoop cbs peer event fuel u
                    (nextTransID u.tc peer (some id)) = some w' →
                  Watches v batch w' ∧
                    Seen.Walk v cbs.watched peer event last w.seen w'.seen := by
              intro u hu hseen hloop
              obtain ⟨hafter, hwalk⟩ := ih hu hloop
              rw [hseen] at hwalk
              exact ⟨hafter, hwalk.skip hahead hlive hleast⟩
            split at hloop
            next => exact hskip w h rfl hloop
            next ctx hctx =>
              split at hloop
              next => exact hskip w h rfl hloop
              next =>
                simp only at hloop
                split at hloop
                next =>
                  obtain ⟨hcall, hseen⟩ := call_other h hspares hlive ctx
                    (.onPeer event)
                  exact hskip _ hcall hseen hloop
                next => cases hloop

theorem onTimeout_watched (cbs : Callbacks) (h : Watches v batch w) {transId : TransID}
    (hlive : transId ∈ w.watched) :
    Watches v batch (w.onTimeout cbs transId) ∧
      (w.onTimeout cbs transId).seen =
        (w.seen.call v cbs.watched transId .onTimeout).drop transId := by
  obtain ⟨sink, hsink⟩ := Option.isSome_iff_exists.mp (h.sinked transId hlive)
  unfold onTimeout getTransCtx
  rw [h.there transId hlive]
  simp only [Option.filter_some, hsink, Option.isSome_some, if_true]
  obtain ⟨hcall, hseen⟩ := call_watched cbs h hlive .onTimeout
  refine ⟨removeTrans_watches hcall _, ?_⟩
  rw [← hseen]
  rfl

theorem onTimeout_other (h : Watches v batch w) (hspares : cbs.Spares v.ids)
    {transId : TransID} (hother : transId ∉ w.watched) :
    Watches v batch (w.onTimeout cbs transId) ∧
      (w.onTimeout cbs transId).seen = w.seen := by
  have hquiet : ∀ u : WatchedTable, Watches v batch u → u.seen = w.seen →
      Watches v batch (u.removeTrans transId) ∧
        (u.removeTrans transId).seen = w.seen := by
    intro u hu hseen
    refine ⟨removeTrans_watches hu _, ?_⟩
    rw [← drop_of_other (o := w.seen) hother, ← hseen]
    rfl
  unfold onTimeout
  cases (w.tc.getTransCtx transId).filter (·.sink.isSome) with
  | none =>
      obtain ⟨hcall, hseen⟩ := applyOps_others h hspares transId .onTimeout
      simp only [ops, if_neg hother]
      exact hquiet _ hcall hseen
  | some ctx =>
      obtain ⟨hcall, hseen⟩ := call_other h hspares hother ctx .onTimeout
      exact hquiet _ hcall hseen

/-- The batch goes through what has expired, and of that only the watched is seen. -/
theorem onTimeouts_seen (hspares : cbs.Spares v.ids) {expired : List TransID}
    (order : List TransID) {w : WatchedTable} (h : Watches v batch w)
    (hbatch : ∀ x ∈ w.watched, x ∈ expired ↔ x ∈ batch) :
    Watches v batch (onTimeouts cbs expired order w) ∧
      (onTimeouts cbs expired order w).seen =
        w.seen.onTimeouts v cbs.watched batch order := by
  induction order generalizing w with
  | nil => exact ⟨h, rfl⟩
  | cons id order ih =>
      have hnext : ∀ u : WatchedTable, Watches v batch u → u.watched ⊆ w.watched →
          u.seen = (if id ∈ batch ∧ id ∈ w.seen.live then
            (w.seen.call v cbs.watched id .onTimeout).drop id else w.seen) →
            Watches v batch (onTimeouts cbs expired order u) ∧
              (onTimeouts cbs expired order u).seen =
                w.seen.onTimeouts v cbs.watched batch (id :: order) := by
        intro u hu hsub hseen
        obtain ⟨hafter, hlater⟩ := ih hu fun x hx => hbatch x (hsub hx)
        refine ⟨hafter, hlater.trans ?_⟩
        rw [hseen]
        rfl
      have hcons : onTimeouts cbs expired (id :: order) w = onTimeouts cbs expired order
          (if id ∈ expired then w.onTimeout cbs id else w) := rfl
      rw [hcons]
      by_cases hexpired : id ∈ expired
      · rw [if_pos hexpired]
        by_cases hlive : id ∈ w.watched
        · obtain ⟨hcall, hseen⟩ := onTimeout_watched cbs h hlive
          refine hnext _ hcall ?_ ?_
          · have hwatched : (w.onTimeout cbs id).watched =
                ((w.seen.call v cbs.watched id .onTimeout).drop id).live :=
              congrArg Seen.live hseen
            rw [hwatched]
            exact (Finset.erase_subset _ _).trans (Finset.filter_subset _ _)
          · rw [if_pos ⟨(hbatch id hlive).mp hexpired, hlive⟩, hseen]
        · obtain ⟨hcall, hseen⟩ := onTimeout_other h hspares hlive
          refine hnext _ hcall (congrArg Seen.live hseen).le ?_
          rw [if_neg fun hboth => hlive hboth.2, hseen]
      · rw [if_neg hexpired]
        refine hnext w h subset_rfl ?_
        rw [if_neg fun hboth => hexpired ((hbatch id hboth.2).mpr hboth.1)]

theorem onTimer_shows (h : Watches v ∅ w) (hspares : cbs.Spares v.ids) {now : ℤ}
    {order : List TransID} {w' : WatchedTable}
    (hstep : w.step cbs (.onTimer now order) = some w') :
    Watches v ∅ w' ∧
      Seen.Shows v cbs.watched (.onTimer now order) w.seen w'.seen := by
  obtain ⟨expired, mgr, htake, htakes⟩ := h.ordered.timeouts.takeExpired now
  simp only [step, htake] at hstep
  split at hstep
  next horder =>
    cases hstep
    have hdue : ∀ x ∈ w.watched,
        x ∈ expired.map (·.key) ↔ x ∈ w.seen.due v now := by
      intro x hx
      have hexpiry := h.expiry x hx (Finset.notMem_empty x)
      rw [List.mem_map, Seen.due, Finset.mem_filter, ← hexpiry]
      constructor
      · rintro ⟨t, ht, rfl⟩
        obtain ⟨r, hr, hle, -⟩ := (htakes.mem_expired t).mp ht
        exact ⟨hx, _, by rw [hr]; rfl, hle⟩
      · rintro ⟨-, t, ht, hle⟩
        obtain ⟨r, hr, rfl⟩ := Option.map_eq_some_iff.mp ht
        exact ⟨⟨x, r.v, r.timeoutSec⟩, (htakes.mem_expired _).mpr ⟨r, hr, hle, rfl, rfl⟩,
          rfl⟩
    have hbatch : Watches v (w.seen.due v now)
        { w with tc := { w.tc with rspMsgMgr := mgr } } := by
      refine ⟨⟨⟨h.ordered.indexed.inuse, h.ordered.indexed.peers⟩, htakes.index⟩, h.sub,
        h.there, h.sinked, fun x hx hlater => ?_⟩
      rw [← h.expiry x hx (Finset.notMem_empty x), htakes.records]
      rw [← hdue x hx] at hlater
      cases hr : w.tc.rspMsgMgr.recordHashMap x with
      | none => rfl
      | some r =>
          have hlt : now < r.upsertTime + r.timeoutSec := by
            by_contra hle
            refine hlater (List.mem_map.mpr ⟨⟨x, r.v, r.timeoutSec⟩, ?_, rfl⟩)
            exact (htakes.mem_expired _).mpr ⟨r, hr, not_lt.mp hle, rfl, rfl⟩
          simp [hlt]
    obtain ⟨hafter, hseen⟩ := onTimeouts_seen hspares order hbatch hdue
    rw [hseen]
    refine ⟨⟨hafter.ordered, hafter.sub, hafter.there, hafter.sinked, ?_⟩, .onTimer⟩
    intro x hx _
    refine hafter.expiry x hx fun hmem => ?_
    have hlive : x ∈ (w.seen.onTimeouts v cbs.watched (w.seen.due v now) order).live :=
      (congrArg Seen.live hseen).le hx
    obtain ⟨hwatched, hgone⟩ := Seen.live_onTimeouts hlive
    exact hgone hmem (horder.2 ((hdue x hwatched).mpr hmem))
  next => cases hstep

/-- **What the process does is seen as the watched transactions decide.** -/
theorem step_shows (h : Watches v ∅ w) (hspares : cbs.Spares v.ids)
    {action : TableAction} {w' : WatchedTable} (hstep : w.step cbs action = some w') :
    Watches v ∅ w' ∧ Seen.Shows v cbs.watched action w.seen w'.seen := by
  cases action with
  | record now ctx =>
      cases hstep
      exact ⟨applyOp_watches h _, .record⟩
  | cancel transId =>
      cases hstep
      exact ⟨applyOp_watches h _, .cancel⟩
  | answer transId event =>
      cases hstep
      exact answer_shows h hspares transId event
  | peerEvent peer event =>
      obtain ⟨hafter, hwalk⟩ := peerLoop_shows hspares h hstep
      exact ⟨hafter, .peerEvent hwalk⟩
  | onTimer now order => exact onTimer_shows h hspares hstep

end WatchedTable

end CommonComponent
