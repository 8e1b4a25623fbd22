import CommonComponent.ProtoTcpClientCache
import CommonComponent.SendQueue
import Mathlib.Tactic

/-!
# The order of a client's messages

A message goes to the output buffer at once when the client is connected, and
through the cache when it is not.  A `SendQueue` is all of this that the order
depends on, and the runs of the client refine its steps.

On one connection the messages are accepted in the order of their `Send`, and none
is accepted twice.  `SendCacheMsg` goes through the cache once for a connection:
a message it cannot hand over stays behind until the next one, and every message
sent in the meantime goes to the wire before it.
-/

namespace CommonComponent

namespace CacheRun

open LabelledRun

variable {ctx : ClientCenterCtx} {self : ℕ} {s s' : CacheRun}

/-- The cache and the wire, with messages known by the number of their `Send`. -/
def sendQueue (s : CacheRun) : SendQueue where
  queue := s.client.client.cacheMsgTransIDList.map fun id => (s.origin id).send
  connected := s.client.client.connected
  sends := s.sends
  conns := s.conns
  wire := s.wire.map fun m => (m.send, m.conn)
  left := s.left

theorem Sends.refines {transId : TransID} {tc : TransCenter} {hasSink : Bool}
    (h : Sends s transId tc hasSink s') (hok : s.client.CacheOk) :
    SendQueue.Step s.sendQueue s'.sendQueue := by
  cases h with
  | refused => exact .lost
  | clash => exact .lost
  | @direct adds msgs hvalid hconnected hmsgs hone hadds =>
      match msgs with
      | [] =>
          simp only [List.append_nil]
          exact .lost
      | [m] =>
          obtain ⟨hsend, hconn⟩ := hmsgs m List.mem_cons_self
          have hdirect := SendQueue.Step.direct (q := s.sendQueue) hconnected
          have hwire : s.sendQueue.wire ++ [(s.sendQueue.sends, s.sendQueue.conns)] =
              (s.wire ++ [m]).map fun m => (m.send, m.conn) := by
            rw [List.map_append, List.map_singleton, hsend, hconn]
            rfl
          rw [hwire] at hdirect
          exact hdirect
      | _ :: _ :: _ => simp at hone
  | @cached cacheMsg hvalid hdown hfree =>
      have hqueued := SendQueue.Step.queued (q := s.sendQueue) hdown
      have hqueue : s.sendQueue.queue ++ [s.sendQueue.sends] =
          (s.client.client.cacheMsgTransIDList ++ [transId]).map fun id =>
            (Function.update s.origin transId
              ⟨s.sends, s.countTrans transId transId, hasSink⟩ id).send := by
        have hne : ∀ id ∈ s.client.client.cacheMsgTransIDList, id ≠ transId := by
          rintro id hid rfl
          simp [hok.mem, hfree] at hid
        rw [List.map_append, List.map_singleton, Function.update_self]
        refine congrArg (· ++ [s.sends]) (List.map_congr_left fun id hid => ?_)
        rw [Function.update_of_ne (hne id hid)]
      rw [hqueue] at hqueued
      exact hqueued

theorem Steps.refines {a : CacheAction} (h : Steps self s a s')
    (hok : s.client.CacheOk) (hnodup : s.sendQueue.queue.Nodup) :
    SendQueue.Step s.sendQueue s'.sendQueue := by
  cases h with
  | send hrecord hsends => exact hsends.refines hok
  | @up evbufferAdd setTimer bufEvent events inputLen client hdown hup htc hflush =>
      have hinj := List.inj_on_of_nodup_map hnodup
      have htaken : (takenFrom s.client.client client.client).Sublist
          s.client.client.cacheMsgTransIDList := List.filter_sublist
      have hkept : client.client.cacheMsgTransIDList.Sublist
          s.client.client.cacheMsgTransIDList := by
        rw [hflush.kept]
        exact List.filter_sublist
      have happart : ((takenFrom s.client.client client.client).map fun id =>
          (s.origin id).send).Disjoint (client.client.cacheMsgTransIDList.map
            fun id => (s.origin id).send) := by
        intro n htake hkeep
        obtain ⟨id, hid, rfl⟩ := List.mem_map.mp htake
        obtain ⟨id', hid', heq⟩ := List.mem_map.mp hkeep
        obtain rfl := hinj (hkept.subset hid') (htaken.subset hid) heq
        rw [hflush.kept, List.mem_filter] at hid'
        have hgone := (List.mem_filter.mp hid).2
        rw [Bool.and_eq_true] at hgone
        simp [Option.isNone_iff_eq_none.mp hgone.2] at hid'
      have hstep := SendQueue.Step.up (q := s.sendQueue)
        (htaken.map fun id => (s.origin id).send)
        (hkept.map fun id => (s.origin id).send) happart
      have heq : (s.flushed client).sendQueue = { s.sendQueue with
          queue := client.client.cacheMsgTransIDList.map fun id =>
            (s.origin id).send
          connected := true
          conns := s.sendQueue.conns + 1
          wire := s.sendQueue.wire ++
            ((takenFrom s.client.client client.client).map fun id =>
              (s.origin id).send).map fun n => (n, s.sendQueue.conns + 1)
          left := s.sendQueue.left ++ client.client.cacheMsgTransIDList.map fun id =>
            (s.origin id).send } := by
        simp [sendQueue, flushed, hup, List.map_map, Function.comp_def]
      rw [heq]
      exact hstep
  | @same a client hsame =>
      refine .dropped ?_ hsame.connected
      rw [hsame.list]
      exact List.Sublist.refl _
  | @trans a t hstep =>
      have hdrops := tellSelf_drops self { s.client with tc := t.tc } t.log
      exact .dropped (hdrops.sublist.map _) fun hup =>
        hdrops.connected.symm.trans hup

structure OrderInv (s : CacheRun) : Prop where
  cache : s.client.CacheOk
  order : s.sendQueue.Inv
  buffer : s.BufferOk

theorem OrderInv.start (peer : Peer) (bufEvent : ℕ) :
    (CacheRun.start peer bufEvent).OrderInv where
  cache := cacheOk_start peer bufEvent
  order := .empty
  buffer := .start peer bufEvent

theorem OrderInv.keep {a : CacheAction} (h : s.OrderInv)
    (hstep : step ctx self s a = some s') : s'.OrderInv := by
  have hsteps := step_steps h.cache.nodup hstep
  have hnodup : s.sendQueue.queue.Nodup := h.order.queue_sorted.imp ne_of_lt
  exact ⟨hsteps.cacheOk h.cache, h.order.keep (hsteps.refines h.cache hnodup),
    hsteps.bufferOk h.buffer⟩

/-- On each connection messages are accepted in the order of their `Send`, no
message is accepted twice, and one that is overtaken is one that `SendCacheMsg`
could not hand over when a connection came up. -/
structure InSendOrder (s : CacheRun) : Prop where
  buffer : s.client.adds.filter (·.ok) = s.wire.map WireMsg.add
  once : (s.wire.map (·.send)).Nodup
  connection : s.wire.Pairwise fun m m' => m.conn = m'.conn → m.send < m'.send
  overtaken : s.wire.Pairwise fun m m' => m'.send < m.send → m'.send ∈ s.left

theorem OrderInv.inSendOrder (h : s.OrderInv) : s.InSendOrder where
  buffer := h.buffer
  once := by
    have honce := h.order.once
    rwa [sendQueue, List.map_map] at honce
  connection := List.pairwise_map.mp h.order.conn_order
  overtaken := (List.pairwise_map.mp h.order.order).imp fun hmm hlt =>
    hmm.elim (fun hlt' => absurd hlt hlt'.not_gt) And.right

/-- **The order of the wire** along every run. -/
theorem run_inSendOrder (ctx : ClientCenterCtx) (self : ℕ) (peer : Peer)
    (bufEvent : ℕ) (actions : List CacheAction) :
    Along (step ctx self) InSendOrder (fun _ _ _ => True) (start peer bufEvent)
      actions :=
  along_of_inv (fun _ => OrderInv.inSendOrder)
    (fun _ _ _ h hstep => ⟨h.keep hstep, trivial⟩) actions
    (OrderInv.start peer bufEvent)

/-- The first message is left behind, the second one overtakes it. -/
def overtakingActions : List CacheAction :=
  [.send 0 (fun _ => true) ⟨0, 1⟩ [] none,
    .event (fun _ => false) true 1 ClientRun.connectedEvent 0,
    .send 0 (fun _ => true) ⟨0, 2⟩ [] none,
    .event (fun _ => true) true 1 ClientRun.eofEvent 0,
    .event (fun _ => true) true 2 ClientRun.connectedEvent 0]

/-- A message sent later goes to the wire before a cached one. -/
theorem not_neverOvertaken :
    ¬Along (step plainCtx 0)
      (fun s => s.wire.Pairwise fun m m' => m.send < m'.send) (fun _ _ _ => True)
      (start peerB 1) overtakingActions := by
  intro halong
  have hrun : (run (step plainCtx 0) (start peerB 1) overtakingActions).map
      (fun s => s.wire.map fun m => (m.send, m.conn)) = some [(1, 1), (0, 2)] := by
    decide +kernel
  obtain ⟨t, ht, hwire⟩ := Option.map_eq_some_iff.mp hrun
  have horder : (t.wire.map fun m => (m.send, m.conn)).Pairwise
      fun m m' => m.1 < m'.1 := List.pairwise_map.mpr (halong.last ht)
  rw [hwire] at horder
  revert horder
  decide

end CacheRun

end CommonComponent
