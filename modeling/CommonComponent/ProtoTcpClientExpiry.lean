import CommonComponent.ProtoTcpClientCache
import Mathlib.Tactic

/-!
# Cached messages and their transactions

A message waits in the cache under the id of its transaction, which may end before
a connection comes up.  `Client::OnTimeout` takes the message out of the cache, but
it is called only for a client that is a sink of the `TransCenter`, and
`CancelTrans` does not call it at all.  As long as no transaction ends whose message
still waits, `SendCacheMsg` writes messages of live transactions and such as never
had a sink.
-/

namespace CommonComponent

namespace TransCenter

theorem recordTransCtx_fresh {tc tc' : TransCenter} (h : tc.Indexed) {now : ℤ}
    {ctx : TransCtx} {transId : TransID}
    (hrecord : tc.recordTransCtx now ctx = (transId, tc'))
    (hvalid : transId ≠ invalidTransID) :
    tc.transHashMap transId = none ∧
      (ctx.sink.isSome → (tc'.transHashMap transId).isSome) := by
  rcases recordTransCtx_cases h now ctx with
    ⟨-, hfail⟩ | ⟨id, hid, hfresh, -, hdone⟩
  · rw [hfail, Prod.mk.injEq] at hrecord
    exact absurd hrecord.1.symm hvalid
  · rw [hdone, Prod.mk.injEq] at hrecord
    obtain ⟨rfl, htc⟩ := hrecord
    refine ⟨hfresh, fun hsink => ?_⟩
    rw [if_neg (Option.isSome_iff_ne_none.mp hsink)] at htc
    rw [← htc, enterTrans_transHashMap, if_pos rfl]
    rfl

end TransCenter

namespace CacheRun

open LabelledRun

variable {ctx : ClientCenterCtx} {self : ℕ} {s s' : CacheRun}

/-- A message with a sink is in the cache under `id`. -/
def Waits (s : CacheRun) (id : TransID) : Prop :=
  (s.client.client.cacheMsgMap id).isSome ∧ (s.origin id).hasSink = true

/-- The transaction of the message under `id` is still in the table: it was the
last one to be recorded under its id, and that is in use. -/
def Live (s : CacheRun) (id : TransID) : Prop :=
  (s.client.tc.transHashMap id).isSome ∧ s.recorded id = (s.origin id).trans

structure ExpiryInv (s : CacheRun) : Prop where
  filed : s.client.tc.Filed
  cache : s.client.CacheOk
  live : ∀ id, s.Waits id → s.Live id

theorem ExpiryInv.start (peer : Peer) (bufEvent : ℕ) :
    (CacheRun.start peer bufEvent).ExpiryInv where
  filed := .empty
  cache := cacheOk_start peer bufEvent
  live := fun _ hwaits => nomatch hwaits.1

theorem countTrans_of_ne {transId id : TransID} (hne : id ≠ transId) :
    s.countTrans transId id = s.recorded id := by
  unfold countTrans
  split_ifs
  · rfl
  · exact Function.update_of_ne hne _ _

theorem ExpiryInv.record (h : s.ExpiryInv) {now : ℤ} {transCtx : TransCtx}
    {transId : TransID} {tc : TransCenter}
    (hrecord : s.client.tc.recordTransCtx now transCtx = (transId, tc))
    {id : TransID} (hwaits : s.Waits id) :
    (tc.transHashMap id).isSome ∧
      s.countTrans transId id = (s.origin id).trans ∧
        (transId ≠ invalidTransID → id ≠ transId) := by
  obtain ⟨hsome, hcount⟩ := h.live id hwaits
  obtain ⟨transCtx', hlive⟩ := Option.isSome_iff_exists.mp hsome
  have hkept := TransCenter.recordTransCtx_live h.filed.toIndexed now transCtx hlive
  rw [hrecord] at hkept
  have hne : transId ≠ invalidTransID → id ≠ transId := by
    rintro hvalid rfl
    have hfresh := TransCenter.recordTransCtx_fresh h.filed.toIndexed hrecord hvalid
    rw [hfresh.1] at hlive
    cases hlive
  refine ⟨Option.isSome_iff_exists.mpr ⟨_, hkept⟩, ?_, hne⟩
  by_cases hvalid : transId = invalidTransID
  · rw [countTrans, if_pos hvalid, hcount]
  · rw [countTrans_of_ne (hne hvalid), hcount]

theorem ExpiryInv.send (h : s.ExpiryInv) {now : ℤ} {msgHead : MsgHead}
    {asyncCtx : Option AsyncCtx} {transId : TransID} {tc : TransCenter}
    (hrecord : s.client.tc.recordTransCtx now
      (s.client.sendCtx msgHead asyncCtx) = (transId, tc))
    (hsends : Sends s transId tc (asyncCtx.bind (·.sink)).isSome s')
    (hcache : s'.client.CacheOk) : s'.ExpiryInv := by
  have hfiled : tc.Filed := by
    have hfiled := h.filed.recordTransCtx now (s.client.sendCtx msgHead asyncCtx)
    rwa [hrecord] at hfiled
  cases hsends with
  | refused hinvalid =>
      refine ⟨hfiled, hcache, fun id hwaits => ?_⟩
      obtain ⟨hsome, hcount, -⟩ := h.record hrecord hwaits
      rw [countTrans, if_pos hinvalid] at hcount
      exact ⟨hsome, hcount⟩
  | direct =>
      refine ⟨hfiled, hcache, fun id hwaits => ?_⟩
      obtain ⟨hsome, hcount, -⟩ := h.record hrecord hwaits
      exact ⟨hsome, hcount⟩
  | cached hvalid hdown hfree =>
      refine ⟨hfiled, hcache, fun id hwaits => ?_⟩
      by_cases heq : id = transId
      · subst heq
        have hsink : (asyncCtx.bind (·.sink)).isSome := by
          simpa [Waits] using hwaits.2
        refine ⟨?_, by simp⟩
        exact (TransCenter.recordTransCtx_fresh h.filed.toIndexed hrecord
          hvalid).2 hsink
      · have hwaits' : s.Waits id := by simpa [Waits, heq] using hwaits
        obtain ⟨hsome, hcount, -⟩ := h.record hrecord hwaits'
        exact ⟨hsome, by simpa [heq] using hcount⟩
  | clash hvalid =>
      refine ⟨hfiled.cancelTrans transId, hcache, fun id hwaits => ?_⟩
      obtain ⟨hsome, hcount, hne⟩ := h.record hrecord hwaits
      refine ⟨?_, hcount⟩
      rw [TransCenter.cancelTrans_transHashMap, if_neg (hne hvalid)]
      exact hsome

/-- No call ends the transaction of a waiting message. -/
def KeepsWaiting (s : CacheRun) : CacheAction → Prop
  | .trans a =>
      ∀ id ∈ TransState.ended ⟨s.client.tc, s.control, []⟩ a, ¬s.Waits id
  | _ => True

instance Waits.decidable (s : CacheRun) (id : TransID) : Decidable (s.Waits id) :=
  inferInstanceAs (Decidable (_ ∧ _))

instance KeepsWaiting.decidable (s : CacheRun) :
    ∀ a, Decidable (s.KeepsWaiting a)
  | .trans a =>
      inferInstanceAs (Decidable
        (∀ id ∈ TransState.ended ⟨s.client.tc, s.control, []⟩ a, ¬s.Waits id))
  | .send .. => isTrue trivial
  | .event .. => isTrue trivial
  | .connectTimer _ => isTrue trivial

/-- `SendCacheMsg` writes a message only if its transaction is live or has no
sink. -/
def WritesLive (s : CacheRun) (a : CacheAction) (s' : CacheRun) : Prop :=
  match a with
  | .event .. => ∀ m ∈ s'.wire.drop s.wire.length,
      s.Live m.transId ∨ (s.origin m.transId).hasSink = false
  | _ => True

theorem ExpiryInv.trans (h : s.ExpiryInv) {a : TransAction} {t : TransState}
    (hstep : TransState.step ⟨s.client.tc, s.control, []⟩ a = some t)
    (hguard : s.KeepsWaiting (.trans a))
    (hsteps : Steps self s (.trans a) s')
    (hs' : s' = { s with
      client := tellSelf self { s.client with tc := t.tc } t.log
      control := t.control
      recorded := s.countRecord a }) : s'.ExpiryInv := by
  have hcache := hsteps.cacheOk h.cache
  subst hs'
  have hdrops := tellSelf_drops self { s.client with tc := t.tc } t.log
  refine ⟨?_, hcache, fun id hwaits => ?_⟩
  · rw [hdrops.tc]
    exact TransState.step_filed h.filed hstep
  · have hwaits' : s.Waits id := ⟨hdrops.isSome hwaits.1, hwaits.2⟩
    obtain ⟨hsome, hcount⟩ := h.live id hwaits'
    obtain ⟨transCtx, hlive⟩ := Option.isSome_iff_exists.mp hsome
    have hkept := TransState.step_keeps h.filed hstep hlive fun hended =>
      hguard id hended hwaits'
    refine ⟨?_, ?_⟩
    · rw [hdrops.tc]
      exact Option.isSome_iff_exists.mpr ⟨_, hkept⟩
    · cases a with
      | record now transCtx' =>
          obtain ⟨-, hcount', -⟩ := h.record (show
            s.client.tc.recordTransCtx now transCtx' = (_, _) from rfl) hwaits'
          exact hcount'
      | _ => exact hcount

theorem ExpiryInv.keep (h : s.ExpiryInv) {a : CacheAction}
    (hguard : s.KeepsWaiting a) (hstep : step ctx self s a = some s') :
    s'.ExpiryInv ∧ s.WritesLive a s' := by
  have hsteps := step_steps h.cache.nodup hstep
  have hcache := hsteps.cacheOk h.cache
  cases hsteps with
  | send hrecord hsends => exact ⟨h.send hrecord hsends hcache, trivial⟩
  | @up evbufferAdd setTimer bufEvent events inputLen client hdown hup htc hflush =>
      have hlive : ∀ id, (s.client.client.cacheMsgMap id).isSome →
          s.Live id ∨ (s.origin id).hasSink = false := by
        intro id hsome
        cases hsink : (s.origin id).hasSink with
        | false => exact .inr rfl
        | true => exact .inl (h.live id ⟨hsome, hsink⟩)
      constructor
      · refine ⟨htc ▸ h.filed, hcache, fun id hwaits => ?_⟩
        have hwaits' : s.Waits id := ⟨hflush.isSome hwaits.1, hwaits.2⟩
        obtain ⟨hsome, hcount⟩ := h.live id hwaits'
        exact ⟨htc ▸ hsome, hcount⟩
      · intro m hm
        simp only [flushed, List.drop_left, List.mem_map] at hm
        obtain ⟨id, hid, rfl⟩ := hm
        have htaken := (List.mem_filter.mp hid).2
        rw [Bool.and_eq_true] at htaken
        exact hlive id htaken.1
  | @same a client hsame =>
      constructor
      · refine ⟨hsame.tc ▸ h.filed, hcache, fun id hwaits => ?_⟩
        have hwaits' : s.Waits id := ⟨hsame.map ▸ hwaits.1, hwaits.2⟩
        obtain ⟨hsome, hcount⟩ := h.live id hwaits'
        exact ⟨hsame.tc ▸ hsome, hcount⟩
      · unfold WritesLive
        split
        · simp
        · trivial
  | trans htrans => exact ⟨h.trans htrans hguard (.trans htrans) rfl, trivial⟩

/-- **Only live messages are written**, as long as no call ends the transaction of
a message that still waits. -/
theorem run_writesLive (ctx : ClientCenterCtx) (self : ℕ) (peer : Peer)
    (bufEvent : ℕ) (actions : List CacheAction)
    (hguard : Guarded (step ctx self) KeepsWaiting (start peer bufEvent) actions) :
    Along (step ctx self) BufferOk WritesLive (start peer bufEvent) actions := by
  have hgood : ∀ s : CacheRun, s.ExpiryInv ∧ s.BufferOk → s.BufferOk :=
    fun _ => And.right
  refine Guarded.along_of_inv hgood ?_
    ⟨.start peer bufEvent, .start peer bufEvent⟩ hguard
  rintro s a s' ⟨h, hbuffer⟩ hwait hstep
  obtain ⟨hinv, hwrites⟩ := h.keep hwait hstep
  exact ⟨⟨hinv, (step_steps h.cache.nodup hstep).bufferOk hbuffer⟩, hwrites⟩

def sendTimed : CacheAction :=
  .send 0 (fun _ => true) ⟨0, 1⟩ [] (some ⟨0, 1, some 5, .null⟩)

def comesUp : CacheAction :=
  .event (fun _ => true) true 1 ClientRun.connectedEvent 0

/-- The connection is up in time; the transaction is cancelled behind it. -/
theorem run_writesLive_in_time :
    (run (step plainCtx 0) (start peerB 1)
        [sendTimed, comesUp, .trans (.cancel 1)]).map (fun s => s.wire.length) =
          some 1 ∧
      Along (step plainCtx 0) BufferOk WritesLive (start peerB 1)
        [sendTimed, comesUp, .trans (.cancel 1)] :=
  ⟨by decide +kernel, run_writesLive plainCtx 0 peerB 1 _ (by decide +kernel)⟩

/-- The message of a transaction that has timed out is written when the connection
comes up. -/
theorem not_writesLive :
    ¬Along (step plainCtx 0) BufferOk WritesLive (start peerB 1)
      ([sendTimed, .trans (.onTimer 2 [1]), .trans .ret] ++ [comesUp]) := by
  intro halong
  have hrun : (run (step plainCtx 0) (start peerB 1)
      [sendTimed, .trans (.onTimer 2 [1]), .trans .ret]).map (fun t =>
        ((step plainCtx 0 t comesUp).map fun s' =>
          (s'.wire.drop t.wire.length).map (·.transId),
          (t.client.tc.transHashMap 1).isSome, (t.origin 1).hasSink)) =
      some (some [1], false, true) := by decide +kernel
  obtain ⟨t, ht, hstate⟩ := Option.map_eq_some_iff.mp hrun
  rw [Prod.mk.injEq, Prod.mk.injEq, Option.map_eq_some_iff] at hstate
  obtain ⟨⟨s', hs', hwritten⟩, hdead, hsink⟩ := hstate
  have hwrites : t.WritesLive comesUp s' := ((halong.of_append ht).2 s' hs').1
  have hmem : (1 : TransID) ∈ (s'.wire.drop t.wire.length).map (·.transId) := by
    rw [hwritten]
    exact List.mem_singleton_self _
  obtain ⟨m, hm, hid⟩ := List.mem_map.mp hmem
  rcases hwrites m hm with hlive | hnone
  · rw [hid] at hlive
    simp [Live, hdead] at hlive
  · rw [hid, hsink] at hnone
    cases hnone

end CacheRun

end CommonComponent
