import CommonComponent.TransCenterRun

/-!
# Telling every transaction of a peer

`OnConnected` and `OnClosed` walk the id set of a peer with an iterator while the
callbacks they make may record and cancel transactions.  Recording never hurts
the walk, and neither does cancelling another transaction; cancelling the one
being told erases the element the iterator stands on.
-/

namespace CommonComponent

namespace TransCenter

/-- What a walk has done: the ids it told, each with the table at its turn, whether
it advanced an iterator whose element was erased, and the table at the end. -/
structure PeerWalk where
  notified : List (TransID × TransCenter)
  erased : Bool
  tc : TransCenter

/-- The callback for `transId` does `ops`; the flag says whether `transId` was in
the peer's set after each of them. -/
def peerCallback (peer : Peer) (transId : TransID) :
    TransCenter → List TransOp → TransCenter × Bool
  | tc, [] => (tc, true)
  | tc, op :: ops =>
      let tc := tc.applyOp op
      let later := peerCallback peer transId tc ops
      (later.1, decide (transId ∈ tc.peerTransIDMap peer) && later.2)

/-- The least id of a peer that is above `last`: `begin()` or `++it`. -/
def nextTransID (tc : TransCenter) (peer : Peer) (last : Option TransID) :
    Option TransID :=
  let ahead := (tc.peerTransIDMap peer).filter fun id => ∀ l ∈ last, l < id
  if h : ahead.Nonempty then some (ahead.min' h) else none

/-- The loop of `OnConnected` and of `OnClosed`, for at most the given number of
rounds. -/
def peerLoop (peer : Peer) (react : TransID → List TransOp) :
    ℕ → TransCenter → Option TransID → Option PeerWalk
  | 0, _, _ => none
  | _ + 1, tc, none => some { notified := [], erased := false, tc := tc }
  | fuel + 1, tc, some transId =>
      match (tc.transHashMap transId).bind (·.sink) with
      | none => peerLoop peer react fuel tc (nextTransID tc peer (some transId))
      | some _ =>
          let called := peerCallback peer transId tc (react transId)
          if called.2 then
            (peerLoop peer react fuel called.1
              (nextTransID called.1 peer (some transId))).map fun walk =>
                { walk with notified := (transId, tc) :: walk.notified }
          else some
            { notified := [(transId, tc)], erased := true, tc := called.1 }

def notifyPeer (tc : TransCenter) (peer : Peer)
    (react : TransID → List TransOp) : Option PeerWalk :=
  peerLoop peer react (i32SeqRange.totalCount + 2) tc (nextTransID tc peer none)

inductive PeerEvent
  | onConnected
  | onClosed
deriving DecidableEq

def onConnected (tc : TransCenter) (peer : Peer)
    (react : PeerEvent → TransID → List TransOp) : Option PeerWalk :=
  notifyPeer tc peer (react .onConnected)

def onClosed (tc : TransCenter) (peer : Peer)
    (react : PeerEvent → TransID → List TransOp) : Option PeerWalk :=
  notifyPeer tc peer (react .onClosed)

/-- What a walk should be like: it never stands on an erased element, it tells
each id at most once, each of them while it is a transaction of the peer with a
sink, and it leaves out a registered one only if the callback of an earlier one
cancelled it. -/
structure WalkOk (tc : TransCenter) (peer : Peer)
    (react : TransID → List TransOp) (walk : PeerWalk) : Prop where
  notErased : walk.erased = false
  once : (walk.notified.map Prod.fst).Pairwise (· < ·)
  live : ∀ visit ∈ walk.notified, ∃ ctx,
    visit.2.transHashMap visit.1 = some ctx ∧ ctx.peer = peer ∧ ctx.sink.isSome
  all : ∀ id ∈ tc.peerTransIDMap peer, id ∈ walk.notified.map Prod.fst ∨
    ∃ earlier ∈ walk.notified.map Prod.fst, earlier < id ∧
      .cancel id ∈ react earlier

/-- A walk whose callbacks do nothing leaves the table as it is. -/
theorem peerLoop_quiet {peer : Peer} {fuel : ℕ} {tc : TransCenter}
    {next : Option TransID} {walk : PeerWalk}
    (h : peerLoop peer (fun _ => []) fuel tc next = some walk) : walk.tc = tc := by
  induction fuel generalizing next walk with
  | zero => cases h
  | succ fuel ih =>
      cases next with
      | none =>
          cases h
          rfl
      | some transId =>
          unfold peerLoop at h
          cases hsink : (tc.transHashMap transId).bind (·.sink) with
          | none =>
              rw [hsink] at h
              exact ih h
          | some sink =>
              rw [hsink] at h
              simp only [peerCallback, if_true] at h
              obtain ⟨later, hlater, hwalk⟩ := Option.map_eq_some_iff.mp h
              have htc : later.tc = tc := ih hlater
              rw [← hwalk, htc]

theorem nextTransID_some {tc : TransCenter} {peer : Peer}
    {last : Option TransID} {id : TransID} (h : nextTransID tc peer last = some id) :
    id ∈ tc.peerTransIDMap peer ∧ (∀ l ∈ last, l < id) ∧
      ∀ k ∈ tc.peerTransIDMap peer, (∀ l ∈ last, l < k) → id ≤ k := by
  unfold nextTransID at h
  simp only at h
  split at h
  next hne =>
    simp only [Option.some.injEq] at h
    have hmem := Finset.min'_mem _ hne
    rw [h, Finset.mem_filter] at hmem
    refine ⟨hmem.1, hmem.2, fun k hk hlast => ?_⟩
    rw [← h]
    exact Finset.min'_le _ k (Finset.mem_filter.mpr ⟨hk, hlast⟩)
  next => cases h

theorem nextTransID_none {tc : TransCenter} {peer : Peer}
    {last : Option TransID} (h : nextTransID tc peer last = none) {k : TransID}
    (hk : k ∈ tc.peerTransIDMap peer) : ¬∀ l ∈ last, l < k := by
  unfold nextTransID at h
  simp only at h
  split at h
  next => cases h
  next hne =>
    intro hlast
    exact hne ⟨k, Finset.mem_filter.mpr ⟨hk, hlast⟩⟩

theorem peerCallback_live {peer : Peer} {transId id : TransID} {ctx : TransCtx}
    {tc : TransCenter} {ops : List TransOp} (h : tc.Filed)
    (hlive : tc.transHashMap id = some ctx) (hops : .cancel id ∉ ops) :
    (peerCallback peer transId tc ops).1.transHashMap id = some ctx := by
  induction ops generalizing tc with
  | nil => exact hlive
  | cons op ops ih =>
      rw [List.mem_cons, not_or] at hops
      exact ih (h.applyOp op)
        (applyOp_transHashMap_of_live h.toIndexed hlive (Ne.symm hops.1)) hops.2

theorem peerCallback_filed (peer : Peer) (transId : TransID) {tc : TransCenter}
    (ops : List TransOp) (h : tc.Filed) :
    (peerCallback peer transId tc ops).1.Filed := by
  induction ops generalizing tc with
  | nil => exact h
  | cons op ops ih => exact ih (h.applyOp op)

theorem peerCallback_stays {peer : Peer} {transId : TransID} {ctx : TransCtx}
    {tc : TransCenter} {ops : List TransOp} (h : tc.Filed)
    (hlive : tc.transHashMap transId = some ctx) (hpeer : ctx.peer = peer)
    (hops : .cancel transId ∉ ops) :
    (peerCallback peer transId tc ops).2 = true := by
  induction ops generalizing tc with
  | nil => rfl
  | cons op ops ih =>
      rw [List.mem_cons, not_or] at hops
      have hlive' :=
        applyOp_transHashMap_of_live h.toIndexed hlive (Ne.symm hops.1)
      have hmem : transId ∈ (tc.applyOp op).peerTransIDMap peer :=
        ((h.applyOp op).peers peer transId).mpr ⟨ctx, hlive', hpeer⟩
      simp only [peerCallback, ih (h.applyOp op) hlive' hops.2, hmem, decide_true,
        Bool.and_true]

theorem peerCallback_erased (peer : Peer) {transId : TransID} {tc : TransCenter}
    {ops : List TransOp} (h : tc.Filed) (hops : .cancel transId ∈ ops) :
    (peerCallback peer transId tc ops).2 = false := by
  induction ops generalizing tc with
  | nil => cases hops
  | cons op ops ih =>
      simp only [peerCallback]
      rcases List.mem_cons.mp hops with rfl | hlater
      · have hgone : transId ∉
            (tc.applyOp (.cancel transId)).peerTransIDMap peer := by
          rw [(h.applyOp _).peers]
          simp [TransCenter.applyOp]
        simp [hgone]
      · rw [ih (h.applyOp op) hlater, Bool.and_false]

structure WalkFrom (tc : TransCenter) (peer : Peer)
    (react : TransID → List TransOp) (transId : TransID) (walk : PeerWalk) :
    Prop where
  notErased : walk.erased = false
  once : (walk.notified.map Prod.fst).Pairwise (· < ·)
  ahead : ∀ id ∈ walk.notified.map Prod.fst, transId ≤ id
  live : ∀ visit ∈ walk.notified, ∃ ctx,
    visit.2.transHashMap visit.1 = some ctx ∧ ctx.peer = peer ∧ ctx.sink.isSome
  all : ∀ id ∈ tc.peerTransIDMap peer, transId ≤ id →
    id ∈ walk.notified.map Prod.fst ∨
      ∃ earlier ∈ walk.notified.map Prod.fst, earlier < id ∧
        .cancel id ∈ react earlier

theorem WalkFrom.last {tc tc' : TransCenter} {peer : Peer}
    {react : TransID → List TransOp} {transId : TransID} {ctx : TransCtx}
    (hctx : tc.transHashMap transId = some ctx) (hpeer : ctx.peer = peer)
    (hsink : ctx.sink.isSome)
    (hkept : ∀ id ∈ tc.peerTransIDMap peer, .cancel id ∉ react transId →
      id ∈ tc'.peerTransIDMap peer)
    (hnext : nextTransID tc' peer (some transId) = none) :
    WalkFrom tc peer react transId ⟨[(transId, tc)], false, tc'⟩ := by
  refine ⟨rfl, by simp, by simp, ?_, ?_⟩
  · intro visit hvisit
    rw [List.mem_singleton] at hvisit
    subst hvisit
    exact ⟨ctx, hctx, hpeer, hsink⟩
  · intro id hid hle
    rcases hle.eq_or_lt with rfl | hlt
    · exact Or.inl (by simp)
    · by_cases hcancel : .cancel id ∈ react transId
      · exact Or.inr ⟨transId, by simp, hlt, hcancel⟩
      · exfalso
        apply nextTransID_none hnext (hkept id hid hcancel)
        intro l hl
        rw [Option.mem_some_iff] at hl
        exact hl ▸ hlt

theorem WalkFrom.cons {tc tc' : TransCenter} {peer : Peer}
    {react : TransID → List TransOp} {transId next : TransID} {ctx : TransCtx}
    {walk : PeerWalk} (hctx : tc.transHashMap transId = some ctx)
    (hpeer : ctx.peer = peer) (hsink : ctx.sink.isSome)
    (hkept : ∀ id ∈ tc.peerTransIDMap peer, .cancel id ∉ react transId →
      id ∈ tc'.peerTransIDMap peer)
    (hnext : nextTransID tc' peer (some transId) = some next)
    (hwalk : WalkFrom tc' peer react next walk) :
    WalkFrom tc peer react transId
      { walk with notified := (transId, tc) :: walk.notified } := by
  obtain ⟨-, habove, hleast⟩ := nextTransID_some hnext
  have habove : transId < next := habove transId rfl
  refine ⟨hwalk.notErased, ?_, ?_, ?_, ?_⟩
  · rw [List.map_cons, List.pairwise_cons]
    exact ⟨fun id hid => habove.trans_le (hwalk.ahead id hid), hwalk.once⟩
  · intro id hid
    rcases List.mem_cons.mp hid with rfl | hid
    · exact le_rfl
    · exact habove.le.trans (hwalk.ahead id hid)
  · intro visit hvisit
    rcases List.mem_cons.mp hvisit with rfl | hvisit
    · exact ⟨ctx, hctx, hpeer, hsink⟩
    · exact hwalk.live visit hvisit
  · intro id hid hle
    rcases hle.eq_or_lt with rfl | hlt
    · exact Or.inl (by simp)
    · by_cases hcancel : .cancel id ∈ react transId
      · exact Or.inr ⟨transId, by simp, hlt, hcancel⟩
      · have hle' : next ≤ id := by
          apply hleast id (hkept id hid hcancel)
          intro l hl
          rw [Option.mem_some_iff] at hl
          exact hl ▸ hlt
        rcases hwalk.all id (hkept id hid hcancel) hle' with
          htold | ⟨earlier, hearlier, hbefore, hcancel'⟩
        · exact Or.inl (List.mem_cons_of_mem _ htold)
        · exact Or.inr ⟨earlier, List.mem_cons_of_mem _ hearlier,
            hbefore, hcancel'⟩

theorem Filed.of_mem {tc : TransCenter} (h : tc.Filed) {peer : Peer}
    {transId : TransID} (hmem : transId ∈ tc.peerTransIDMap peer) :
    (∃ ctx, tc.transHashMap transId = some ctx ∧ ctx.peer = peer ∧
      ctx.sink.isSome) ∧
      i32SeqRange.seqMin ≤ transId ∧ transId ≤ i32SeqRange.seqMax := by
  obtain ⟨ctx, hctx, hpeer⟩ := (h.peers peer transId).mp hmem
  have hlive : (tc.transHashMap transId).isSome := by
    rw [hctx]
    rfl
  exact ⟨⟨ctx, hctx, hpeer, h.sinked transId ctx hctx⟩,
    tc.transIdSeq.inuse_range transId ((h.inuse transId).mpr hlive)⟩

theorem peerLoop_ok {peer : Peer} {react : TransID → List TransOp}
    (hreact : ∀ id, i32SeqRange.seqMin ≤ id ∧ id ≤ i32SeqRange.seqMax →
      .cancel id ∉ react id)
    {fuel : ℕ} {tc : TransCenter} {transId : TransID} (h : tc.Filed)
    (hmem : transId ∈ tc.peerTransIDMap peer)
    (hfuel : i32SeqRange.seqMax - transId + 1 < fuel) :
    ∃ walk, peerLoop peer react fuel tc (some transId) = some walk ∧
      WalkFrom tc peer react transId walk := by
  induction fuel generalizing tc transId with
  | zero =>
      have hmax := (h.of_mem hmem).2.2
      have hzero : i32SeqRange.seqMax - transId + 1 < 0 := hfuel
      linarith
  | succ fuel ih =>
      obtain ⟨⟨ctx, hctx, hpeer, hsink⟩, hrange⟩ := h.of_mem hmem
      obtain ⟨sink, hsome⟩ := Option.isSome_iff_exists.mp hsink
      have hstays := peerCallback_stays h hctx hpeer (hreact transId hrange)
      have hfiled := peerCallback_filed peer transId (react transId) h
      -- a registered transaction survives this callback unless it cancels it
      have hkept : ∀ id ∈ tc.peerTransIDMap peer, .cancel id ∉ react transId →
          id ∈ (peerCallback peer transId tc
            (react transId)).1.peerTransIDMap peer := by
        intro id hid hcancel
        obtain ⟨ctx', hctx', hpeer'⟩ := (h.peers peer id).mp hid
        exact (hfiled.peers peer id).mpr
          ⟨ctx', peerCallback_live h hctx' hcancel, hpeer'⟩
      unfold peerLoop
      simp only [hctx, Option.bind_some, hsome, hstays, if_true]
      cases hnext : nextTransID (peerCallback peer transId tc (react transId)).1 peer
          (some transId) with
      | none =>
          obtain ⟨fuel, rfl⟩ : ∃ n, fuel = n + 1 := by
            refine ⟨fuel - 1, ?_⟩
            have hpos : i32SeqRange.seqMax - transId + 1 < (fuel : ℤ) + 1 := by
              exact_mod_cast hfuel
            have hmax := hrange.2
            have : (0 : ℤ) < fuel := by linarith
            omega
          exact ⟨_, rfl, .last hctx hpeer hsink hkept hnext⟩
      | some next =>
          obtain ⟨hnextMem, hnextAbove, -⟩ := nextTransID_some hnext
          have habove : transId < next := hnextAbove transId rfl
          have hfuel' : i32SeqRange.seqMax - next + 1 < (fuel : ℤ) := by
            push_cast at hfuel
            linarith [Int.add_one_le_iff.mpr habove]
          obtain ⟨walk, hwalk, hok⟩ := ih hfiled hnextMem hfuel'
          rw [hwalk]
          exact ⟨_, rfl, .cons hctx hpeer hsink hkept hnext hok⟩

theorem notifyPeer_ok {peer : Peer} {react : TransID → List TransOp}
    (hreact : ∀ id, i32SeqRange.seqMin ≤ id ∧ id ≤ i32SeqRange.seqMax →
      .cancel id ∉ react id) {tc : TransCenter} (h : tc.Filed) :
    ∃ walk, tc.notifyPeer peer react = some walk ∧ WalkOk tc peer react walk := by
  unfold notifyPeer
  cases hfirst : nextTransID tc peer none with
  | none =>
      refine ⟨_, rfl, rfl, by simp, by simp, ?_⟩
      intro id hid
      exact (nextTransID_none hfirst hid (by simp)).elim
  | some first =>
      obtain ⟨hmem, -, hleast⟩ := nextTransID_some hfirst
      have hrange := (h.of_mem hmem).2
      have hfuel : i32SeqRange.seqMax - first + 1 <
          ((i32SeqRange.totalCount + 2 : ℕ) : ℤ) := by
        have hlow := hrange.1
        unfold SeqRange.totalCount
        push_cast
        linarith [Int.self_le_toNat (i32SeqRange.seqMax - i32SeqRange.seqMin + 1)]
      obtain ⟨walk, hwalk, hok⟩ := peerLoop_ok hreact h hmem hfuel
      exact ⟨walk, hwalk, hok.notErased, hok.once, hok.live,
        fun id hid => hok.all id hid (hleast id hid (by simp))⟩

theorem notifyPeer_erased {peer : Peer} (react : TransID → List TransOp)
    {tc : TransCenter} (h : tc.Filed) {transId : TransID}
    (honly : tc.peerTransIDMap peer = {transId})
    (hcancel : .cancel transId ∈ react transId) :
    ∃ walk, tc.notifyPeer peer react = some walk ∧ walk.erased = true := by
  have hmem : transId ∈ tc.peerTransIDMap peer := by
    rw [honly]
    exact Finset.mem_singleton_self transId
  obtain ⟨⟨ctx, hctx, -, hsome⟩, -⟩ := h.of_mem hmem
  obtain ⟨sink, hsink⟩ := Option.isSome_iff_exists.mp hsome
  have hfirst : nextTransID tc peer none = some transId := by
    cases hnext : nextTransID tc peer none with
    | none => exact (nextTransID_none hnext hmem (by simp)).elim
    | some first =>
        have hfirst := (nextTransID_some hnext).1
        rw [honly, Finset.mem_singleton] at hfirst
        rw [hfirst]
  have herased := peerCallback_erased peer h hcancel
  unfold notifyPeer
  rw [hfirst]
  unfold peerLoop
  simp only [hctx, Option.bind_some, hsink, herased, Bool.false_eq_true, if_false]
  exact ⟨_, rfl, rfl⟩

end TransCenter

namespace TransState

open TransCenter

theorem exists_run_only {transId : TransID}
    (hrange : i32SeqRange.seqMin ≤ transId ∧ transId ≤ i32SeqRange.seqMax) :
    ∃ as s, LabelledRun.run step start as = some s ∧
      s.tc.peerTransIDMap timedCtx.peer = {transId} := by
  have hpos : (1 : ℤ) ≤ transId := SeqNum.one_le_of_range hrange
  have hcount : start.tc.transIdSeq.cursor = 0 := rfl
  have hsum : (0 : ℤ) + ((transId - 1).toNat : ℕ) + 1 = transId := by
    rw [Int.toNat_of_nonneg (by linarith)]
    ring
  obtain ⟨log, hround⟩ := run_sinkless (s := start) (n := (transId - 1).toNat)
    TransCenter.Good.empty (by simp [start, TransCenter.empty, SeqNum.reset])
    (by simp [start, TransCenter.empty, SeqNum.reset, SeqRange.totalCount, i32SeqRange])
    (by rw [hcount]; linarith [hrange.2])
  set s : TransState := { start with
    tc := { start.tc with
      transIdSeq := SeqNum.skip^[(transId - 1).toNat] start.tc.transIdSeq }
    log := log } with hs
  have hinuse : s.tc.transIdSeq.inuseSeqs = ∅ := by
    rw [hs]
    simp only [SeqNum.skip_iterate_inuseSeqs]
    rfl
  have hcursor : s.tc.transIdSeq.cursor = ((transId - 1).toNat : ℕ) := by
    rw [hs]
    simp only
    rw [SeqNum.skip_iterate_cursor (by rw [hcount]; linarith [hrange.2]), hcount]
    ring
  have hadvance : i32SeqRange.advance s.tc.transIdSeq.cursor = transId := by
    unfold SeqRange.advance
    rw [hcursor, if_pos (by linarith [hrange.2])]
    linarith
  have halloc : s.tc.transIdSeq.alloc.1 = transId := by
    rw [SeqNum.alloc_of_advance_free
      (by rw [hinuse]; simp [SeqRange.totalCount, i32SeqRange])
      (by rw [hinuse]; exact Finset.notMem_empty _)]
    exact hadvance
  have hfiled : s.tc.Filed := run_filed hround
  refine ⟨List.replicate (transId - 1).toNat (.record 0 sinklessCtx) ++
    [.record 0 timedCtx], s.recorded 0 timedCtx, ?_, ?_⟩
  · rw [LabelledRun.run_append, hround]
    rfl
  · rcases recordTransCtx_cases hfiled.toIndexed 0 timedCtx with
      ⟨hnone, -⟩ | ⟨n, hid, hfresh, halloc', hrecord⟩
    · rw [halloc] at hnone
      exact absurd (hnone ▸ hpos) (by decide)
    · have hn : n = transId := by
        rw [halloc'] at halloc
        exact halloc
      have hsink : timedCtx.sink ≠ none := by decide
      simp only [recorded, hrecord, if_neg hsink, TransCenter.enterTrans,
        indexTrans_peerTransIDMap, Function.update_self]
      rw [hn]
      rfl

/-- **Which sinks the walks of `OnConnected` and `OnClosed` are safe with**, in
every reachable table and for every peer: exactly those whose callbacks do not
cancel the transaction they are made for. -/
theorem peerWalks_ok_iff (react : PeerEvent → TransID → List TransOp) :
    (∀ as s peer, LabelledRun.run step start as = some s →
      (∃ walk, s.tc.onConnected peer react = some walk ∧
        WalkOk s.tc peer (react .onConnected) walk) ∧
      ∃ walk, s.tc.onClosed peer react = some walk ∧
        WalkOk s.tc peer (react .onClosed) walk) ↔
      ∀ event id, i32SeqRange.seqMin ≤ id ∧ id ≤ i32SeqRange.seqMax →
        .cancel id ∉ react event id := by
  constructor
  · intro hwalks event id hrange hcancel
    obtain ⟨as, s, hrun, honly⟩ := exists_run_only hrange
    have hfiled := run_filed hrun
    obtain ⟨walk, hwalk, herased⟩ :=
      notifyPeer_erased (react event) hfiled honly hcancel
    have hok : ∃ walk, s.tc.notifyPeer timedCtx.peer (react event) = some walk ∧
        WalkOk s.tc timedCtx.peer (react event) walk := by
      cases event with
      | onConnected => exact (hwalks as s _ hrun).1
      | onClosed => exact (hwalks as s _ hrun).2
    obtain ⟨walk', hwalk', hwalkOk⟩ := hok
    rw [hwalk, Option.some.injEq] at hwalk'
    rw [← hwalk'] at hwalkOk
    rw [hwalkOk.notErased] at herased
    cases herased
  · intro hreact as s peer hrun
    have hfiled := run_filed hrun
    exact ⟨notifyPeer_ok (hreact .onConnected) hfiled,
      notifyPeer_ok (hreact .onClosed) hfiled⟩

/-- A sink that cancels its transaction in `OnClosed`. -/
theorem peerWalks_self_cancel :
    ¬∀ (react : PeerEvent → TransID → List TransOp) as s peer,
      LabelledRun.run step start as = some s →
        (∃ walk, s.tc.onConnected peer react = some walk ∧
          WalkOk s.tc peer (react .onConnected) walk) ∧
        ∃ walk, s.tc.onClosed peer react = some walk ∧
          WalkOk s.tc peer (react .onClosed) walk := by
  intro h
  obtain ⟨s, hs⟩ : ∃ s, LabelledRun.run step start [.record 0 timedCtx] = some s :=
    ⟨_, rfl⟩
  have herased : (LabelledRun.run step start [.record 0 timedCtx]).bind (fun s =>
      (s.tc.onClosed timedCtx.peer fun _ id => [.cancel id]).map (·.erased)) =
        some true := by decide +kernel
  obtain ⟨walk, hwalk, hok⟩ :=
    (h (fun _ id => [.cancel id]) [.record 0 timedCtx] s timedCtx.peer hs).2
  rw [hs, Option.bind_some, hwalk, Option.map_some, Option.some.injEq,
    hok.notErased] at herased
  cases herased

end TransState

end CommonComponent
